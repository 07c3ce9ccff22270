import Spaceshuttle.Lib.Machine
import Spaceshuttle.Cluster.MuxClient

/-!
# Requests and responses stay in step

Nothing on the wire ties a response to its request: neither side compares channel ids or block
indices, so a response belongs to the request in the same position of the stream. This module
shows that the positions never drift apart over any run of `ping`, `store_block` and
`fetch_block`, and reads off what the calls return.
-/

namespace Spaceshuttle.Cluster

open ByteStream

/-- How a call ended. -/
inductive CallResult where
  | pong
  | stored
  | fetched (data : List UInt8)
  | failed (e : MuxError)
  | hung
  deriving DecidableEq, Repr

namespace Call

/-- What a call leaves of its computation. -/
def outcome {σ α : Type} (f : α → CallResult) :
    EStateM.Result Halt (World σ) α → World σ × CallResult
  | .ok a w => (w, f a)
  | .error (.err e) w => (w, .failed e)
  | .error .pending w => (w, .hung)

/-- What the client makes of a response and the bytes behind it (`cluster_mux.rs:569-576`,
`611-629`, `669-681`). -/
def reply (libs : MuxLibs) (cache : HashCache) (r : MuxResponse) (body : List UInt8) :
    Call → CallResult
  | .ping => if r.status = 200 then .pong else .failed (.remote (r.error.getD ""))
  | .storeBlock .. =>
      if r.status = 200 then .stored else .failed (.remoteStatus r.status (r.error.getD ""))
  | .fetchBlock i _ _ =>
      match verdict libs cache i r body with
      | .ok data => .fetched data
      | .error e => .failed e

/-- The hash cache after that. -/
def replyCache (libs : MuxLibs) (cache : HashCache) (r : MuxResponse) (body : List UInt8) :
    Call → HashCache
  | .ping => cache
  | .storeBlock i _ hash _ _ _ => if r.status = 200 then cache.markVerified i hash else cache
  | .fetchBlock i _ _ => verdictCache libs cache i r body

/-- Execute a call. -/
def exec {σ : Type} (P : Peer σ) (libs : MuxLibs) (w : World σ) : Call → World σ × CallResult
  | .ping => outcome (fun _ => .pong) ((Cluster.ping P libs).run w)
  | .storeBlock i data hash edSeal rawSize seq =>
      outcome (fun _ => .stored)
        ((Cluster.storeBlock P libs i data hash edSeal rawSize seq).run w)
  | .fetchBlock i expected seq =>
      outcome .fetched ((Cluster.fetchBlock P libs i expected seq).run w)

end Call

/-! ## One request at the server -/

namespace MuxServer

variable (libs : MuxLibs)

/-- The response to a call, the bytes after it, and the store it leaves. -/
def answer (srv : MuxServer) (channelId : UInt32) (aint : String) :
    Call → MuxResponse × List UInt8 × BlockStore
  | .ping => (srv.pong channelId, [], srv.store)
  | .storeBlock i data hash edSeal rawSize seq =>
      if libs.sha256.hex data != hash then
        (srv.storeMismatch channelId i (libs.sha256.hex data), [], srv.store)
      else
        (srv.storeOk channelId i hash data.length rawSize, [],
          srv.store.store i data hash edSeal rawSize aint seq)
  | .fetchBlock i expected _ =>
      match (srv.store.fetch i).1 with
      | some b =>
          if expected.any (fun e => e != b.contentHash) then
            (srv.fetchMismatch channelId i b.contentHash, [], (srv.store.fetch i).2)
          else
            (srv.fetchOk channelId i b.contentHash b.data.length b.rawSize, b.data,
              (srv.store.fetch i).2)
      | none => (srv.notFound channelId i, [], (srv.store.fetch i).2)

section Answers

variable {libs} {srv : MuxServer} {channelId : UInt32} {aint : String} {i : Nat}
  {expected : Option String} {seq : UInt64}

theorem answer_fetch_none (h : srv.store.content i = none) :
    srv.answer libs channelId aint (.fetchBlock i expected seq) =
      (srv.notFound channelId i, [], srv.store) := by
  simp [answer, BlockStore.fetch_none h]

theorem answer_fetch_mismatch {b : List UInt8 × String × Nat} (h : srv.store.content i = some b)
    (he : expected.any (fun e => e != b.2.1) = true) :
    srv.answer libs channelId aint (.fetchBlock i expected seq) =
      (srv.fetchMismatch channelId i b.2.1, [], (srv.store.fetch i).2) := by
  obtain ⟨block, hfetch, -, hhash, -⟩ := BlockStore.fetch_some h
  rw [← hhash] at he ⊢
  simp [answer, hfetch, he]

theorem answer_fetch_ok {b : List UInt8 × String × Nat} (h : srv.store.content i = some b)
    (he : ¬ expected.any (fun e => e != b.2.1) = true) :
    srv.answer libs channelId aint (.fetchBlock i expected seq) =
      (srv.fetchOk channelId i b.2.1 b.1.length b.2.2, b.1, (srv.store.fetch i).2) := by
  obtain ⟨block, hfetch, hdata, hhash, hraw⟩ := BlockStore.fetch_some h
  rw [← hhash] at he ⊢
  rw [← hdata, ← hraw]
  simp only [answer, hfetch, he, Bool.false_eq_true, if_false]

/-- A fetch leaves the contents of the store as they are. -/
theorem answer_fetch_content :
    (srv.answer libs channelId aint (.fetchBlock i expected seq)).2.2.content =
      srv.store.content := by
  cases hb : srv.store.content i with
  | none => rw [answer_fetch_none hb]
  | some b =>
    have hsame : (srv.store.fetch i).2.content = srv.store.content :=
      funext (BlockStore.content_fetch srv.store i)
    by_cases he : expected.any (fun e => e != b.2.1) = true
    · rw [answer_fetch_mismatch hb he, hsame]
    · rw [answer_fetch_ok hb he, hsame]

end Answers

/-- The handler after answering a call. -/
def afterCall (srv : MuxServer) (channelId : UInt32) (aint : String) (c : Call) : MuxServer :=
  { srv with
    store := (srv.answer libs channelId aint c).2.2
    framesHandled := srv.framesHandled + 1
    served := srv.served ++ [(c.frame channelId aint, (srv.answer libs channelId aint c).1)] }

/-- The bytes the handler writes for a call. -/
def replyBytes (srv : MuxServer) (channelId : UInt32) (aint : String) (c : Call) : List UInt8 :=
  writeFrame libs (.response (srv.answer libs channelId aint c).1) ++
    (srv.answer libs channelId aint c).2.1

variable {libs}

/-- Every branch of the handler consumes exactly the payload of its request. -/
theorem handleFrame_call (srv : MuxServer) (channelId : UInt32) (aint : String) (c : Call)
    (rest : List UInt8) :
    (handleFrame libs { srv with framesHandled := srv.framesHandled + 1 }
        (c.frame channelId aint)).run ⟨c.payload ++ rest, false⟩ =
      .ok (srv.afterCall libs channelId aint c, srv.replyBytes libs channelId aint c)
        ⟨rest, false⟩ := by
  cases c with
  | ping => simp [Call.frame, Call.payload, handleFrame, respond, afterCall, replyBytes, answer,
      pong, latency]
  | storeBlock i data hash edSeal rawSize seq =>
    simp only [Call.frame, Call.payload, handleFrame]
    rw [bind_ok (readPayloadStreaming_spec data rest false)]
    by_cases h : libs.sha256.hex data = hash
    · simp [h, respond, afterCall, replyBytes, answer, Call.frame, storeOk, latency]
    · simp [h, respond, afterCall, replyBytes, answer, Call.frame, storeMismatch, latency]
  | fetchBlock i expected seq =>
    simp only [Call.frame, Call.payload, handleFrame, afterCall, replyBytes, answer]
    cases hb : (srv.store.fetch i).1 with
    | none => simp [respond, notFound, latency]
    | some b =>
      by_cases he : expected.any (fun e => e != b.contentHash) = true
      · simp [he, respond, fetchMismatch, latency]
      · simp only [he, if_false, Bool.false_eq_true]
        simp [respond, fetchOk, latency]

theorem serveLoop_idle {srv : MuxServer} (h : srv.inbox = []) (fuel : Nat) (out : List UInt8) :
    serveLoop libs (fuel + 1) srv out = (srv, out) := by
  have hread : (serveFrame libs srv).run ⟨[], false⟩ = .error .pending ⟨[], false⟩ :=
    bind_error (readFrame_empty false)
  rw [serveLoop, h, hread]

/-- One iteration takes one request off the front of the stream. -/
theorem serveFrame_call {srv : MuxServer} {channelId : UInt32} {aint : String} {c : Call}
    (hc : Carried libs (c.frame channelId aint)) (rest : List UInt8) :
    (serveFrame libs srv).run
        ⟨writeFrame libs (c.frame channelId aint) ++ (c.payload ++ rest), false⟩ =
      .ok (srv.afterCall libs channelId aint c, srv.replyBytes libs channelId aint c)
        ⟨rest, false⟩ := by
  rw [serveFrame, bind_ok (readFrame_writeFrame hc _ false)]
  exact handleFrame_call srv channelId aint c rest

/-- The loop takes one request off the front of the inbox. -/
theorem serveLoop_call {srv : MuxServer} {channelId : UInt32} {aint : String} {c : Call}
    (hc : Carried libs (c.frame channelId aint)) {rest : List UInt8}
    (hin : srv.inbox = writeFrame libs (c.frame channelId aint) ++ (c.payload ++ rest))
    (fuel : Nat) (out : List UInt8) :
    serveLoop libs (fuel + 1) srv out =
      serveLoop libs fuel { srv.afterCall libs channelId aint c with inbox := rest }
        (out ++ srv.replyBytes libs channelId aint c) := by
  rw [serveLoop, hin, serveFrame_call hc]

/-- An idle handler that gets one request answers it and is idle again. -/
theorem deliver_call {srv : MuxServer} (hin : srv.inbox = []) (hrun : srv.running = true)
    {channelId : UInt32} {aint : String} {c : Call} (hc : Carried libs (c.frame channelId aint)) :
    srv.deliver libs (writeFrame libs (c.frame channelId aint) ++ c.payload) =
      (srv.afterCall libs channelId aint c, srv.replyBytes libs channelId aint c) := by
  have hafter : { srv.afterCall libs channelId aint c with inbox := [] } =
      srv.afterCall libs channelId aint c := by
    simp [afterCall, hin]
  obtain ⟨n, hn⟩ : ∃ n, srv.inbox.length +
      (writeFrame libs (c.frame channelId aint) ++ c.payload).length + 1 = n + 1 + 1 := by
    refine ⟨_, congrArg (· + 1) (Nat.succ_pred_eq_of_pos ?_).symm⟩
    simp [writeFrame, prefixed]
  have hinbox : writeFrame libs (c.frame channelId aint) ++ c.payload =
      writeFrame libs (c.frame channelId aint) ++ (c.payload ++ []) := by
    rw [List.append_nil]
  rw [deliver, if_pos hrun, hn, hin, List.nil_append, serveLoop_call hc hinbox, List.nil_append]
  apply (serveLoop_idle (by rfl) n _).trans
  rw [← hafter]
  rfl

end MuxServer

/-! ## One call at the client -/

section Client

variable {libs : MuxLibs}

/-- The handler waits for the next request, with nothing unread. -/
structure Idle (srv : MuxServer) : Prop where
  inbox : srv.inbox = []
  running : srv.running = true

/-- Between calls: nothing unread or unflushed in either direction, an idle handler, and the
`n`-th frame read answers the `n`-th frame written. -/
structure Aligned (w : World MuxServer) : Prop where
  connection : ∀ c, w.client.connection = some c → c = ⟨⟨[], false⟩, []⟩
  idle : Idle w.peer
  sent : w.sent = w.peer.served.map Prod.fst
  received : w.received = w.peer.served.map (fun e => .response e.2)

theorem ensureConnected_aligned {w : World MuxServer} (h : Aligned w) :
    (ensureConnected (muxPeer libs)).run w = .ok () (w.setConnection ⟨⟨[], false⟩, []⟩) := by
  cases hc : w.client.connection with
  | some c =>
    obtain rfl := h.connection c hc
    rw [ensureConnected_some _ hc, World.setConnection_self hc]
  | none =>
    have hconn : (muxPeer libs).connect w.peer = .ok w.peer := by
      simp only [muxPeer]
      rw [← h.idle.inbox, ← h.idle.running]
    exact ensureConnected_none hc hconn

/-- The response the handler is going to write for a call of this client. -/
abbrev World.answer (libs : MuxLibs) (w : World MuxServer) (c : Call) :
    MuxResponse × List UInt8 × BlockStore :=
  w.peer.answer libs w.client.nextChannel w.client.fromAint c

/-- The request frame of a call of this client. -/
abbrev World.frame (w : World MuxServer) (c : Call) : MuxFrame :=
  c.frame w.client.nextChannel w.client.fromAint

/-- The world once a request has been flushed: behind the bytes that were unread before, the
answer waits to be read. -/
def World.asked (libs : MuxLibs) (w : World MuxServer) (unread : List UInt8) (c : Call) :
    World MuxServer where
  client := { w.client with
    connection := some
      ⟨⟨unread ++ w.peer.replyBytes libs w.client.nextChannel w.client.fromAint c, false⟩, []⟩
    nextChannel := w.client.nextChannel + 1 }
  peer := w.peer.afterCall libs w.client.nextChannel w.client.fromAint c
  sent := w.sent ++ [w.frame c]
  received := w.received

/-- `request` from the point where the connection is known to be open. -/
theorem request_run {w w₀ : World MuxServer} {unread : List UInt8} (hidle : Idle w.peer)
    (hopen : (ensureConnected (muxPeer libs)).run w = .ok () w₀)
    (hw₀ : w₀ = w.setConnection ⟨⟨unread, false⟩, []⟩) {c : Call}
    (hreq : Carried libs (w.frame c)) :
    (request (muxPeer libs) libs c).run w = .ok () (w.asked libs unread c) := by
  have hdel : (muxPeer libs).deliver w.peer (writeFrame libs (w.frame c) ++ c.payload) =
      (w.peer.afterCall libs w.client.nextChannel w.client.fromAint c,
        ⟨w.peer.replyBytes libs w.client.nextChannel w.client.fromAint c, false, none⟩) := by
    simp only [muxPeer, MuxServer.deliver_call hidle.inbox hidle.running hreq]
    simp [MuxServer.afterCall, hidle.running]
  subst hw₀
  unfold request
  rw [bind_ok hopen, bind_ok (nextChannelId_run _), bind_ok (EStateM.run_get _),
    bind_ok (sendFrame_run libs _ _ rfl)]
  exact flush_run (c := ⟨⟨unread, false⟩, _⟩) rfl hdel

theorem request_aligned {w : World MuxServer} (h : Aligned w) {c : Call}
    (hreq : Carried libs (w.frame c)) :
    (request (muxPeer libs) libs c).run w = .ok () (w.asked libs [] c) :=
  request_run h.idle (ensureConnected_aligned h) rfl hreq

/-- A call took its answer: the connection is empty again, the histories have grown by the
request and its response, and the cache has learnt what the response shows. -/
structure Answered (libs : MuxLibs) (w : World MuxServer) (c : Call) (w' : World MuxServer) :
    Prop where
  fromAint : w'.client.fromAint = w.client.fromAint
  connection : w'.client.connection = some ⟨⟨[], false⟩, []⟩
  hashCache : w'.client.hashCache =
    c.replyCache libs w.client.hashCache (w.answer libs c).1 (w.answer libs c).2.1
  peer : w'.peer = w.peer.afterCall libs w.client.nextChannel w.client.fromAint c
  sent : w'.sent = w.sent ++ [w.frame c]
  received : w'.received = w.received ++ [MuxFrame.response (w.answer libs c).1]

theorem Answered.aligned {w w' : World MuxServer} {c : Call} (h : Aligned w)
    (ha : Answered libs w c w') : Aligned w' where
  connection := by
    intro conn hconn
    rw [ha.connection] at hconn
    exact (Option.some.inj hconn).symm
  idle := by
    rw [ha.peer]
    exact ⟨h.idle.inbox, h.idle.running⟩
  sent := by
    rw [ha.sent, ha.peer, h.sent]
    simp [MuxServer.afterCall]
  received := by
    rw [ha.received, ha.peer, h.received]
    simp [MuxServer.afterCall]

/-- Both frames of the call `c` survive the wire. -/
structure CarriedCall (libs : MuxLibs) (w : World MuxServer) (c : Call) : Prop where
  request : Carried libs (w.frame c)
  response : Carried libs (MuxFrame.response (w.answer libs c).1)

/-- The world once the response frame has been read; the payload of a fetched block is next. -/
def World.heard (libs : MuxLibs) (w : World MuxServer) (c : Call) : World MuxServer :=
  { w.asked libs [] c with
    received := w.received ++ [MuxFrame.response (w.answer libs c).1] }.setConnection
      ⟨⟨(w.answer libs c).2.1, false⟩, []⟩

theorem recvFrame_asked {w : World MuxServer} {c : Call} (hc : CarriedCall libs w c) :
    (recvFrame libs).run (w.asked libs [] c) =
      .ok (.response (w.answer libs c).1) (w.heard libs c) :=
  recvFrame_run hc.response rfl

/-- A response to a fetch is followed by as many bytes as it declares, and by none when it is
not a success. -/
theorem MuxServer.answer_fetch_body (srv : MuxServer) (channelId : UInt32) (aint : String)
    (i : Nat) (expected : Option String) (seq : UInt64) :
    let a := srv.answer libs channelId aint (.fetchBlock i expected seq)
    if a.1.status = 200 then a.2.1.length = a.1.payloadSize else a.2.1 = [] := by
  cases hb : srv.store.content i with
  | none =>
    rw [answer_fetch_none hb]
    simp [notFound]
  | some b =>
    by_cases he : expected.any (fun e => e != b.2.1) = true
    · rw [answer_fetch_mismatch hb he]
      simp [fetchMismatch]
    · rw [answer_fetch_ok hb he]
      simp [fetchOk]

theorem MuxServer.answer_store_body (srv : MuxServer) (channelId : UInt32) (aint : String)
    (i : Nat) (data : List UInt8) (hash edSeal : String) (rawSize : Nat) (seq : UInt64) :
    (srv.answer libs channelId aint (.storeBlock i data hash edSeal rawSize seq)).2.1 = [] := by
  simp only [answer]
  split <;> rfl

theorem exec_ping {w : World MuxServer} (h : Aligned w) (hc : CarriedCall libs w .ping) :
    ∃ w', Call.exec (muxPeer libs) libs w .ping = (w', .pong) ∧ Answered libs w .ping w' := by
  have hrun : (ping (muxPeer libs) libs).run w = .ok ()
      { w.heard libs .ping with
        client := { (w.heard libs .ping).client with
          requestsSent := w.client.requestsSent + 1 } } := by
    unfold ping
    rw [bind_ok (request_aligned h hc.request), bind_ok (recvFrame_asked hc),
      bind_ok (addRequestsSent_run _ _)]
    rfl
  rw [Call.exec, hrun]
  exact ⟨_, rfl, rfl, rfl, rfl, rfl, rfl, rfl⟩

theorem exec_store {w : World MuxServer} (h : Aligned w) {i : Nat} {data : List UInt8}
    {hash edSeal : String} {rawSize : Nat} {seq : UInt64} {c : Call}
    (hcall : c = .storeBlock i data hash edSeal rawSize seq) (hc : CarriedCall libs w c) :
    ∃ w', Call.exec (muxPeer libs) libs w c =
        (w', c.reply libs w.client.hashCache (w.answer libs c).1 (w.answer libs c).2.1) ∧
      Answered libs w c w' := by
  have hbody : (w.answer libs c).2.1 = [] := by
    rw [hcall]
    exact w.peer.answer_store_body _ _ i data hash edSeal rawSize seq
  -- The counters move before the status is looked at.
  have hopen : (storeBlock (muxPeer libs) libs i data hash edSeal rawSize seq).run w =
      (if (w.answer libs c).1.status = 200 then
        modify (fun w => { w with client := { w.client with
          hashCache := w.client.hashCache.markVerified i hash } })
      else
        throw (.err (.remoteStatus (w.answer libs c).1.status
          ((w.answer libs c).1.error.getD ""))) : ClientM MuxServer Unit).run
        { w.heard libs c with client := { (w.heard libs c).client with
          requestsSent := w.client.requestsSent + 1
          bytesTransferred := w.client.bytesTransferred + UInt64.ofNat data.length } } := by
    unfold storeBlock
    rw [← hcall, bind_ok (request_aligned h hc.request), bind_ok (recvFrame_asked hc),
      bind_ok (addRequestsSent_run _ _), bind_ok (addBytesTransferred_run _ _)]
    rfl
  have hexec : Call.exec (muxPeer libs) libs w c = Call.outcome (fun _ => .stored)
      ((storeBlock (muxPeer libs) libs i data hash edSeal rawSize seq).run w) := by
    rw [hcall]
    rfl
  have hreply : c.reply libs w.client.hashCache (w.answer libs c).1 (w.answer libs c).2.1 =
      if (w.answer libs c).1.status = 200 then .stored
      else .failed (.remoteStatus (w.answer libs c).1.status
        ((w.answer libs c).1.error.getD "")) := by
    rw [hcall]
    rfl
  have hcache : c.replyCache libs w.client.hashCache (w.answer libs c).1 (w.answer libs c).2.1 =
      if (w.answer libs c).1.status = 200 then w.client.hashCache.markVerified i hash
      else w.client.hashCache := by
    rw [hcall]
    rfl
  rw [hexec, hopen]
  by_cases hs : (w.answer libs c).1.status = 200
  · rw [if_pos hs] at hcache ⊢
    rw [hreply, if_pos hs]
    refine ⟨_, rfl, rfl, ?_, hcache.symm, rfl, rfl, rfl⟩
    exact congrArg (fun b => some (⟨⟨b, false⟩, []⟩ : MuxConnection)) hbody
  · rw [if_neg hs] at hcache ⊢
    rw [hreply, if_neg hs]
    refine ⟨_, rfl, rfl, ?_, hcache.symm, rfl, rfl, rfl⟩
    exact congrArg (fun b => some (⟨⟨b, false⟩, []⟩ : MuxConnection)) hbody

/-- `fetch_block` once its request is out: it takes the first unread response, whoever that
response was written for. -/
theorem exec_fetch_run {w w₁ : World MuxServer} {i : Nat} {expected : Option String} {seq : UInt64}
    {r : MuxResponse} {body rest : List UInt8}
    (hreq : (request (muxPeer libs) libs (.fetchBlock i expected seq)).run w = .ok () w₁)
    (hr : Carried libs (.response r))
    (hbody : if r.status = 200 then body.length = r.payloadSize else body = [])
    (hconn : w₁.client.connection =
      some ⟨⟨writeFrame libs (.response r) ++ (body ++ rest), false⟩, []⟩) :
    ∃ w', Call.exec (muxPeer libs) libs w (.fetchBlock i expected seq) =
        (w', Call.reply libs w₁.client.hashCache r body (.fetchBlock i expected seq)) ∧
      w'.client.fromAint = w₁.client.fromAint ∧
      w'.client.connection = some ⟨⟨rest, false⟩, []⟩ ∧
      w'.client.hashCache = verdictCache libs w₁.client.hashCache i r body ∧
      w'.peer = w₁.peer ∧ w'.sent = w₁.sent ∧
      w'.received = w₁.received ++ [MuxFrame.response r] := by
  have htake := takeFetched_run hr hbody hconn "Unexpected frame type" i
  cases hv : verdict libs w₁.client.hashCache i r body with
  | ok data =>
    rw [hv] at htake
    simp only [Call.exec, fetchBlock, Call.reply, hv]
    rw [bind_ok hreq, bind_ok htake, bind_ok (addRequestsSent_run _ _),
      bind_ok (addBytesTransferred_run _ _)]
    exact ⟨_, rfl, rfl, rfl, rfl, rfl, rfl, rfl⟩
  | error e =>
    rw [hv] at htake
    simp only [Call.exec, fetchBlock, Call.reply, hv]
    rw [bind_ok hreq, bind_error htake]
    exact ⟨_, rfl, rfl, rfl, rfl, rfl, rfl, rfl⟩

/-- Every call of an aligned client takes the response to its own request, and nothing else. -/
theorem exec_aligned {w : World MuxServer} (h : Aligned w) {c : Call} (hc : CarriedCall libs w c) :
    ∃ w', Call.exec (muxPeer libs) libs w c =
        (w', c.reply libs w.client.hashCache (w.answer libs c).1 (w.answer libs c).2.1) ∧
      Answered libs w c w' := by
  cases c with
  | ping => exact exec_ping h hc
  | storeBlock i data hash edSeal rawSize seq => exact exec_store h rfl hc
  | fetchBlock i expected seq =>
    have hconn : (w.asked libs [] (.fetchBlock i expected seq)).client.connection =
        some ⟨⟨writeFrame libs (.response (w.answer libs (.fetchBlock i expected seq)).1) ++
          ((w.answer libs (.fetchBlock i expected seq)).2.1 ++ []), false⟩, []⟩ := by
      simp [World.asked, MuxServer.replyBytes]
    obtain ⟨w', hexec, haint, hconn', hcache, hpeer, hsent, hrecv⟩ :=
      exec_fetch_run (request_aligned h hc.request) hc.response
        (w.peer.answer_fetch_body _ _ i expected seq) hconn
    exact ⟨w', hexec, haint, hconn', hcache, hpeer, hsent, hrecv⟩

end Client

end Spaceshuttle.Cluster
