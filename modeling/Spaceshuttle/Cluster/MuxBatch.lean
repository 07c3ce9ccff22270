import Spaceshuttle.Cluster.MuxRefinement

/-!
# Pipelined fetches

`fetch_batch` writes all its requests before it reads the first response
(`cluster_mux.rs:687-743`) and leaves its read loop at the first response that is not a verified
block. The responses behind that one stay unread on the connection, which the client keeps.
-/

namespace Spaceshuttle.Cluster

open ByteStream

/-! ## The server's side: a queue of requests -/

section Serve

variable (libs : MuxLibs) (aint : String)

/-- The bytes of a queue of requests. -/
def requestBytes : List (UInt32 × Call) → List UInt8
  | [] => []
  | (ch, c) :: queue => writeFrame libs (c.frame ch aint) ++ (c.payload ++ requestBytes queue)

/-- The bytes of a sequence of answers. -/
def answerBytes : List (MuxResponse × List UInt8) → List UInt8
  | [] => []
  | (r, body) :: answers => writeFrame libs (.response r) ++ (body ++ answerBytes answers)

/-- The handler after a queue of requests, and its answers. -/
def MuxServer.serveAll (srv : MuxServer) :
    List (UInt32 × Call) → MuxServer × List (MuxResponse × List UInt8)
  | [] => (srv, [])
  | (ch, c) :: queue =>
      let rest := MuxServer.serveAll (srv.afterCall libs ch aint c) queue
      (rest.1, ((srv.answer libs ch aint c).1, (srv.answer libs ch aint c).2.1) :: rest.2)

variable {libs aint}

theorem length_requestBytes (libs : MuxLibs) (aint : String) (queue : List (UInt32 × Call)) :
    queue.length ≤ (requestBytes libs aint queue).length := by
  induction queue with
  | nil => simp
  | cons e queue ih =>
    obtain ⟨ch, c⟩ := e
    simp only [requestBytes, writeFrame, prefixed, List.length_append, List.length_cons,
      length_be32]
    omega

namespace MuxServer

/-- An answer does not depend on what is still unread. -/
theorem answer_inbox (srv : MuxServer) (inbox : List UInt8) (ch : UInt32) (c : Call) :
    ({ srv with inbox := inbox } : MuxServer).answer libs ch aint c = srv.answer libs ch aint c := by
  cases c <;> rfl

/-- The loop works off a queue of requests and waits again. -/
theorem serveLoop_serveAll {queue : List (UInt32 × Call)} (srv : MuxServer)
    (hc : ∀ e ∈ queue, Carried libs (e.2.frame e.1 aint)) {fuel : Nat}
    (hfuel : queue.length < fuel) (out : List UInt8) :
    serveLoop libs fuel { srv with inbox := requestBytes libs aint queue } out =
      ({ (srv.serveAll libs aint queue).1 with inbox := [] },
        out ++ answerBytes libs (srv.serveAll libs aint queue).2) := by
  induction queue generalizing srv fuel out with
  | nil =>
    obtain ⟨n, rfl⟩ := Nat.exists_eq_succ_of_ne_zero (Nat.ne_of_gt hfuel)
    rw [serveLoop_idle rfl]
    simp [requestBytes, serveAll, answerBytes]
  | cons e queue ih =>
    obtain ⟨ch, c⟩ := e
    obtain ⟨n, rfl⟩ := Nat.exists_eq_succ_of_ne_zero (Nat.ne_of_gt (Nat.zero_lt_of_lt hfuel))
    have hhead : Carried libs (c.frame ch aint) := hc (ch, c) (by simp)
    rw [serveLoop_call hhead rfl]
    refine (ih (srv.afterCall libs ch aint c) (fun e he => hc e (by simp [he]))
      (by simpa using hfuel) _).trans ?_
    simp only [serveAll, answerBytes, replyBytes, answer_inbox, ← List.append_assoc]

theorem deliver_serveAll {queue : List (UInt32 × Call)} {srv : MuxServer} (hidle : Idle srv)
    (hc : ∀ e ∈ queue, Carried libs (e.2.frame e.1 aint)) :
    srv.deliver libs (requestBytes libs aint queue) =
      ({ (srv.serveAll libs aint queue).1 with inbox := [] },
        answerBytes libs (srv.serveAll libs aint queue).2) := by
  rw [deliver, if_pos hidle.running, hidle.inbox, List.nil_append]
  refine serveLoop_serveAll srv hc ?_ []
  have := length_requestBytes libs aint queue
  omega

end MuxServer

end Serve

/-! ## The client's side -/

section Client

variable {libs : MuxLibs}

/-- The requests of `fetch_batch` with their channels. -/
def batchQueue (ch : UInt32) : List (Nat × UInt64) → List (UInt32 × Call)
  | [] => []
  | (i, seq) :: requests => (ch, .fetchBlock i none seq) :: batchQueue (ch + 1) requests

/-- The channels that `fetch_batch` remembers. -/
def batchChannels (ch : UInt32) : List (Nat × UInt64) → List (UInt32 × Nat)
  | [] => []
  | (i, _) :: requests => (ch, i) :: batchChannels (ch + 1) requests

/-- The answer to a fetch of block `i` without an expected hash, from a store with the given
contents. -/
def OwnAnswer (m : Contents) (i : Nat) (a : MuxResponse × List UInt8) : Prop :=
  match m i with
  | none => a.1.status = 404 ∧ a.2 = []
  | some b =>
      a.1.status = 200 ∧ a.1.contentHash = b.2.1 ∧ a.1.payloadSize = b.1.length ∧ a.2 = b.1

/-- The payload has the declared size. -/
def Framed (a : MuxResponse × List UInt8) : Prop :=
  if a.1.status = 200 then a.2.length = a.1.payloadSize else a.2 = []

theorem OwnAnswer.framed {m : Contents} {i : Nat} {a : MuxResponse × List UInt8}
    (h : OwnAnswer m i a) : Framed a := by
  unfold OwnAnswer at h
  unfold Framed
  cases hm : m i with
  | none =>
    simp only [hm] at h
    simp [h]
  | some b =>
    simp only [hm] at h
    simp [h]

theorem framed_of_own {m : Contents} {requests : List (Nat × UInt64)}
    {answers : List (MuxResponse × List UInt8)}
    (h : List.Forall₂ (fun r a => OwnAnswer m r.1 a) requests answers) :
    ∀ a ∈ answers, Framed a := by
  induction h with
  | nil => simp
  | cons hra _ ih => exact List.forall_mem_cons.mpr ⟨hra.framed, ih⟩

/-- The answers of the handler to a batch, and what the batch leaves of the handler. -/
structure BatchServed (srv srv' : MuxServer) (aint : String) (queue : List (UInt32 × Call))
    (requests : List (Nat × UInt64)) (answers : List (MuxResponse × List UInt8)) : Prop where
  running : srv'.running = srv.running
  contents : srv'.store.content = srv.store.content
  own : List.Forall₂ (fun r a => OwnAnswer srv.store.content r.1 a) requests answers
  served : srv'.served.map Prod.fst =
    srv.served.map Prod.fst ++ queue.map (fun e => e.2.frame e.1 aint)
  responses : srv'.served.map (fun e => MuxFrame.response e.2) =
    srv.served.map (fun e => MuxFrame.response e.2) ++ answers.map (fun a => MuxFrame.response a.1)

theorem ownAnswer_answer (libs : MuxLibs) (srv : MuxServer) (ch : UInt32) (aint : String) (i : Nat) (seq : UInt64) :
    OwnAnswer srv.store.content i
      ((srv.answer libs ch aint (.fetchBlock i none seq)).1,
        (srv.answer libs ch aint (.fetchBlock i none seq)).2.1) := by
  unfold OwnAnswer
  cases hb : srv.store.content i with
  | none =>
    rw [MuxServer.answer_fetch_none hb]
    exact ⟨rfl, rfl⟩
  | some b =>
    rw [MuxServer.answer_fetch_ok hb (by simp)]
    exact ⟨rfl, rfl, rfl, rfl⟩

theorem batchServed_serveAll (libs : MuxLibs) (requests : List (Nat × UInt64)) (srv : MuxServer) (ch : UInt32)
    (aint : String) :
    BatchServed srv (srv.serveAll libs aint (batchQueue ch requests)).1 aint
      (batchQueue ch requests) requests (srv.serveAll libs aint (batchQueue ch requests)).2 := by
  induction requests generalizing srv ch with
  | nil => exact ⟨rfl, rfl, .nil, by simp [batchQueue, MuxServer.serveAll],
      by simp [batchQueue, MuxServer.serveAll]⟩
  | cons r requests ih =>
    obtain ⟨i, seq⟩ := r
    have hsame : (srv.afterCall libs ch aint (.fetchBlock i none seq)).store.content =
        srv.store.content := MuxServer.answer_fetch_content
    obtain ⟨hrun, hcont, hown, hserved, hresp⟩ :=
      ih (srv.afterCall libs ch aint (.fetchBlock i none seq)) (ch + 1)
    refine ⟨hrun, hcont.trans hsame, .cons (ownAnswer_answer libs srv ch aint i seq) ?_, ?_, ?_⟩
    · rw [← hsame]
      exact hown
    · apply hserved.trans
      simp [batchQueue, MuxServer.afterCall]
    · apply hresp.trans
      simp [batchQueue, MuxServer.serveAll, MuxServer.afterCall]

/-- Block `i` is there and the client accepts it. -/
def available (libs : MuxLibs) (cache : HashCache) (m : Contents) (i : Nat) : Bool :=
  (m i).any (fun b => decide (Fetchable libs cache i b))

/-- One response of the batch: it is taken exactly when the block is available, and reading it
does not change what is. -/
theorem verdict_own (libs : MuxLibs) {m : Contents} {i : Nat} {a : MuxResponse × List UInt8}
    (h : OwnAnswer m i a) (cache : HashCache) :
    (if available libs cache m i then ∃ data, verdict libs cache i a.1 a.2 = .ok data
      else ∃ e, verdict libs cache i a.1 a.2 = .error e) ∧
    available libs (verdictCache libs cache i a.1 a.2) m = available libs cache m := by
  obtain ⟨r, body⟩ := a
  cases hm : m i with
  | none =>
    simp only [OwnAnswer, hm] at h
    simp [available, hm, verdict, verdictCache, h.1]
  | some b =>
    simp only [OwnAnswer, hm] at h
    obtain ⟨hs, hh, -, rfl⟩ := h
    constructor
    · by_cases hf : Fetchable libs cache i b
      · have hv := (hashAfter_eq_iff cache i b).mpr hf
        simp [available, hm, hf, verdict, hs, hh, hv]
      · have hv := mt (hashAfter_eq_iff cache i b).mp hf
        simp [available, hm, hf, verdict, hs, hh, hv]
    · funext j
      cases hj : m j with
      | none => simp [available, hj]
      | some c =>
        have hcb : j = i → c = b := by
          rintro rfl
          rw [hm] at hj
          exact (Option.some.inj hj).symm
        have hiff : Fetchable libs (cacheAfter libs cache i b.2.1 b.1) j c ↔
            Fetchable libs cache j c := fetchable_cacheAfter hcb
        simp [available, hj, verdictCache, hs, hh, hiff]

/-- What is taken is the data of the block. -/
theorem verdict_own_data (libs : MuxLibs) {m : Contents} {i : Nat} {a : MuxResponse × List UInt8}
    (h : OwnAnswer m i a) {cache : HashCache} {data : List UInt8}
    (hdata : verdict libs cache i a.1 a.2 = .ok data) : (m i).map Prod.fst = some data := by
  cases hm : m i with
  | none =>
    simp only [OwnAnswer, hm] at h
    simp [verdict, h.1] at hdata
  | some b =>
    simp only [OwnAnswer, hm] at h
    obtain ⟨hs, hh, -, hbody⟩ := h
    simp only [verdict, hs, if_true] at hdata
    split at hdata
    · cases hdata
    · cases hdata
      rw [hbody]
      rfl

/-- The requested blocks with their data in the order of the requests, if all of them are there. -/
def fetched (m : Contents) (requests : List (Nat × UInt64)) : Option (List (Nat × List UInt8)) :=
  requests.mapM fun r => (m r.1).map fun b => (r.1, b.1)

theorem fetched_cons_some {m : Contents} {i : Nat} {data : List UInt8}
    (h : (m i).map Prod.fst = some data) (seq : UInt64) (requests : List (Nat × UInt64)) :
    fetched m ((i, seq) :: requests) = (fetched m requests).map ((i, data) :: ·) := by
  obtain ⟨b, hb, rfl⟩ := Option.map_eq_some_iff.mp h
  simp only [fetched, List.mapM_cons, hb, Option.map_some]
  cases (requests.mapM fun r => (m r.1).map fun b => (r.1, b.1)) <;> rfl

/-- How many responses the read loop takes. -/
def batchReads (good : Nat → Bool) : List (Nat × UInt64) → Nat
  | [] => 0
  | (i, _) :: requests => if good i then batchReads good requests + 1 else 1

/-- Phase 1: every request is buffered. -/
theorem sendBatch_run {σ : Type} (libs : MuxLibs) (requests : List (Nat × UInt64)) {w : World σ}
    {c : MuxConnection} (hc : w.client.connection = some c) :
    ∃ w', (sendBatch libs requests).run w = .ok (batchChannels w.client.nextChannel requests) w' ∧
      w'.client.fromAint = w.client.fromAint ∧ w'.client.hashCache = w.client.hashCache ∧
      w'.client.connection = some ⟨c.inbound, c.writer ++
        requestBytes libs w.client.fromAint (batchQueue w.client.nextChannel requests)⟩ ∧
      w'.peer = w.peer ∧ w'.received = w.received ∧
      w'.sent = w.sent ++ (batchQueue w.client.nextChannel requests).map
        (fun e => e.2.frame e.1 w.client.fromAint) := by
  induction requests generalizing w c with
  | nil => exact ⟨w, rfl, rfl, rfl, by simp [hc, requestBytes, batchQueue], rfl, rfl, by simp [batchQueue]⟩
  | cons r requests ih =>
    obtain ⟨i, seq⟩ := r
    let frame : MuxFrame := .fetch w.client.nextChannel i w.client.fromAint none seq
    let w₁ : World σ :=
      { w with client := { w.client with nextChannel := w.client.nextChannel + 1 } }
    have hc₁ : w₁.client.connection = some c := hc
    obtain ⟨w', hrun, haint, hcache, hconn, hpeer, hrecv, hsent⟩ := ih
      (w := ({ w₁ with sent := w₁.sent ++ [frame] }).setConnection
        ⟨c.inbound, c.writer ++ (writeFrame libs frame ++ [])⟩) rfl
    refine ⟨w', ?_, haint, hcache, ?_, hpeer, hrecv, ?_⟩
    · unfold sendBatch
      rw [bind_ok (nextChannelId_run w), bind_ok (EStateM.run_get w₁),
        bind_ok (sendFrame_run libs _ _ hc₁), bind_ok hrun]
      rfl
    · rw [hconn]
      simp [requestBytes, batchQueue, World.setConnection, Call.frame, Call.payload, frame, w₁]
    · rw [hsent]
      simp [batchQueue, World.setConnection, Call.frame, frame, w₁]

/-- The read loop takes one response. What is available stays so, and the next response is at
hand. -/
theorem takeFetched_own {m : Contents} {i : Nat} {a : MuxResponse × List UInt8}
    {answers : List (MuxResponse × List UInt8)} (h : OwnAnswer m i a)
    (hcar : Carried libs (.response a.1)) {w : World MuxServer}
    (hconn : w.client.connection = some ⟨⟨answerBytes libs (a :: answers), false⟩, []⟩)
    (unexpected : String) :
    ∃ w', w'.peer = w.peer ∧ w'.sent = w.sent ∧
      available libs w'.client.hashCache m = available libs w.client.hashCache m ∧
      w'.client.connection = some ⟨⟨answerBytes libs answers, false⟩, []⟩ ∧
      w'.received = w.received ++ [MuxFrame.response a.1] ∧
      (takeFetched libs unexpected i).run w =
        resultOf (verdict libs w.client.hashCache i a.1 a.2) w' := by
  refine ⟨_, ?_, ?_, ?_, ?_, ?_, takeFetched_run hcar h.framed hconn unexpected i⟩
  · rfl
  · rfl
  · exact (verdict_own libs h w.client.hashCache).2
  · rfl
  · rfl

/-- Phase 2: the loop takes responses up to and including the first one that is not a verified
block, and leaves the rest on the connection. -/
theorem recvBatch_run {m : Contents} {requests : List (Nat × UInt64)}
    {answers : List (MuxResponse × List UInt8)}
    (hown : List.Forall₂ (fun r a => OwnAnswer m r.1 a) requests answers)
    (hcar : ∀ a ∈ answers, Carried libs (.response a.1)) {w : World MuxServer}
    (hconn : w.client.connection = some ⟨⟨answerBytes libs answers, false⟩, []⟩) (ch : UInt32) :
    let good := available libs w.client.hashCache m
    let n := batchReads good requests
    ∃ w', w'.peer = w.peer ∧ w'.sent = w.sent ∧
      available libs w'.client.hashCache m = good ∧
      w'.client.connection = some ⟨⟨answerBytes libs (answers.drop n), false⟩, []⟩ ∧
      w'.received = w.received ++ (answers.take n).map (fun a => MuxFrame.response a.1) ∧
      if requests.all (fun r => good r.1) then
        ∃ results, fetched m requests = some results ∧
          (recvBatch libs (batchChannels ch requests)).run w = .ok results w'
      else
        ∃ e, (recvBatch libs (batchChannels ch requests)).run w = .error (.err e) w' := by
  induction hown generalizing w ch with
  | nil => exact ⟨w, rfl, rfl, rfl, hconn, by simp, [], rfl, rfl⟩
  | @cons r a requests answers hra hown ih =>
    intro good n
    obtain ⟨i, seq⟩ := r
    obtain ⟨w₁, hpeer₁, hsent₁, hgood₁, hconn₁, hrecv₁, htake⟩ :=
      takeFetched_own hra (hcar a (by simp)) hconn "Unexpected frame"
    have hverdict := (verdict_own libs hra w.client.hashCache).1
    by_cases hi : good i = true
    · rw [if_pos hi] at hverdict
      obtain ⟨data, hdata⟩ := hverdict
      rw [hdata] at htake
      have hn : n = batchReads good requests + 1 := by simp [n, batchReads, hi]
      let w₂ : World MuxServer := { w₁ with client := { w₁.client with
        bytesTransferred := w₁.client.bytesTransferred + UInt64.ofNat data.length } }
      obtain ⟨w', hpeer, hsent, hav, hconn', hrecv, hres⟩ :=
        @ih (fun a ha => hcar a (by simp [ha])) w₂ hconn₁ (ch + 1)
      have hgood₂ : available libs w₂.client.hashCache m = good := hgood₁
      rw [hgood₂] at hav hconn' hrecv hres
      have hrun : (recvBatch libs (batchChannels ch ((i, seq) :: requests))).run w =
          (do
            let results ← recvBatch libs (batchChannels (ch + 1) requests)
            pure ((i, data) :: results)).run w₂ := by
        rw [batchChannels, recvBatch, bind_ok htake, bind_ok (addBytesTransferred_run _ _)]
      refine ⟨w', hpeer.trans hpeer₁, hsent.trans hsent₁, hav, ?_, ?_, ?_⟩
      · rw [hconn', hn]
        rfl
      · rw [hrecv, hn]
        simp [w₂, hrecv₁]
      · rw [hrun]
        simp only [List.all_cons, hi, Bool.true_and]
        split at hres
        · obtain ⟨results, hfetched, hresults⟩ := hres
          rw [if_pos ‹_›, bind_ok hresults,
            fetched_cons_some (verdict_own_data libs hra hdata) seq requests, hfetched]
          exact ⟨_, rfl, rfl⟩
        · obtain ⟨e, he⟩ := hres
          rw [if_neg ‹_›, bind_error he]
          exact ⟨_, rfl⟩
    · rw [if_neg hi] at hverdict
      obtain ⟨e, he⟩ := hverdict
      have hn : n = 1 := by simp [n, batchReads, hi]
      rw [he] at htake
      refine ⟨w₁, hpeer₁, hsent₁, hgood₁, by rw [hconn₁, hn]; rfl, by rw [hrecv₁, hn]; rfl, ?_⟩
      rw [if_neg (by simp [hi])]
      exact ⟨e, bind_error htake⟩

theorem recvBatch_grows (channels : List (UInt32 × Nat)) :
    Along Grows (recvBatch libs channels : ClientM MuxServer (List (Nat × List UInt8))) := by
  induction channels with
  | nil => exact fun w => Grows.refl w
  | cons c channels ih =>
    refine Along.grows_bind (takeFetched_grows _ c.2) (fun _ => ?_)
    refine Along.grows_bind (addBytesTransferred_grows _) (fun _ => ?_)
    exact Along.grows_bind ih (fun _ => fun w => Grows.refl w)

/-- The end of `fetch_batch`, from the flush on. -/
def batchEnd (libs : MuxLibs) (channels : List (UInt32 × Nat)) (n : Nat) :
    ClientM MuxServer (List (Nat × List UInt8)) := do
  let results ← recvBatch libs channels
  addRequestsSent (UInt64.ofNat n)
  pure results

theorem batchEnd_grows (channels : List (UInt32 × Nat)) (n : Nat) :
    Along Grows (batchEnd libs channels n) := by
  refine Along.grows_bind (recvBatch_grows channels) (fun _ => ?_)
  exact Along.grows_bind (addRequestsSent_grows _) (fun _ => fun w => Grows.refl w)

/-- The queue of requests a batch of this client writes. -/
abbrev World.queue (w : World MuxServer) (requests : List (Nat × UInt64)) : List (UInt32 × Call) :=
  batchQueue w.client.nextChannel requests

/-- The handler once it has answered the batch, and its answers. -/
abbrev World.batchAnswers (libs : MuxLibs) (w : World MuxServer) (requests : List (Nat × UInt64)) :
    MuxServer × List (MuxResponse × List UInt8) :=
  w.peer.serveAll libs w.client.fromAint (w.queue requests)

/-- `fetch_batch` up to the flush, to any peer that starts its handlers as `muxPeer` does. -/
theorem fetchBatch_buffered (libs : MuxLibs) {w : World MuxServer} (h : Aligned w)
    (requests : List (Nat × UInt64)) :
    ∃ w₁, (∀ P : Peer MuxServer, P.connect = (muxPeer libs).connect →
        (fetchBatch P libs requests).run w = (flush P >>= fun _ =>
          batchEnd libs (batchChannels w.client.nextChannel requests) requests.length).run w₁) ∧
      w₁.client.hashCache = w.client.hashCache ∧
      w₁.client.connection = some ⟨⟨[], false⟩,
        requestBytes libs w.client.fromAint (w.queue requests)⟩ ∧
      w₁.peer = w.peer ∧ w₁.received = w.received ∧
      w₁.sent = w.sent ++ (w.queue requests).map (fun e => e.2.frame e.1 w.client.fromAint) := by
  obtain ⟨w₁, hrun, -, hcache, hconn, hpeer, hrecv, hsent⟩ :=
    sendBatch_run libs requests
      (w := w.setConnection ⟨⟨[], false⟩, []⟩) (c := ⟨⟨[], false⟩, []⟩) rfl
  refine ⟨w₁, fun P hconnect => ?_, hcache, hconn, hpeer, hrecv, hsent⟩
  have hensure : ensureConnected P = ensureConnected (muxPeer libs) := by
    unfold ensureConnected
    rw [hconnect]
  unfold fetchBatch
  rw [hensure, bind_ok (ensureConnected_aligned h), bind_ok hrun]
  rfl

theorem flush_batch {w w₁ : World MuxServer} (h : Aligned w) {requests : List (Nat × UInt64)}
    (hconn : w₁.client.connection = some ⟨⟨[], false⟩,
      requestBytes libs w.client.fromAint (w.queue requests)⟩)
    (hpeer : w₁.peer = w.peer)
    (hreq : ∀ e ∈ w.queue requests, Carried libs (e.2.frame e.1 w.client.fromAint)) :
    (flush (muxPeer libs)).run w₁ = .ok ()
      ({ w₁ with peer := { (w.batchAnswers libs requests).1 with inbox := [] } }.setConnection
        ⟨⟨answerBytes libs (w.batchAnswers libs requests).2, false⟩, []⟩) := by
  have hserved := batchServed_serveAll libs requests w.peer w.client.nextChannel
    w.client.fromAint
  have hdel : (muxPeer libs).deliver w₁.peer
      (requestBytes libs w.client.fromAint (w.queue requests)) =
      ({ (w.batchAnswers libs requests).1 with inbox := [] },
        ⟨answerBytes libs (w.batchAnswers libs requests).2, false, none⟩) := by
    simp only [muxPeer, hpeer, MuxServer.deliver_serveAll h.idle hreq]
    simp [hserved.running, h.idle.running]
  exact flush_run hconn hdel

/-- Both sides after a batch: the handler has answered everything, the client has taken `n` of
the answers and the others are waiting on the connection. -/
structure BatchLeft (libs : MuxLibs) (w : World MuxServer) (requests : List (Nat × UInt64)) (n : Nat)
    (w' : World MuxServer) : Prop where
  idle : Idle w'.peer
  contents : w'.peer.store.content = w.peer.store.content
  connection : w'.client.connection =
    some ⟨⟨answerBytes libs ((w.batchAnswers libs requests).2.drop n), false⟩, []⟩
  available : available libs w'.client.hashCache w.peer.store.content =
    available libs w.client.hashCache w.peer.store.content
  sent : w'.sent = w'.peer.served.map Prod.fst
  served : w'.peer.served.map (fun e => MuxFrame.response e.2) =
    w.received ++ (w.batchAnswers libs requests).2.map (fun a => MuxFrame.response a.1)
  received : w'.received =
    w.received ++ ((w.batchAnswers libs requests).2.take n).map (fun a => MuxFrame.response a.1)

/-- Both directions of a batch survive the wire. -/
structure CarriedBatch (libs : MuxLibs) (w : World MuxServer) (requests : List (Nat × UInt64)) :
    Prop where
  request : ∀ e ∈ w.queue requests, Carried libs (e.2.frame e.1 w.client.fromAint)
  response : ∀ a ∈ (w.batchAnswers libs requests).2, Carried libs (MuxFrame.response a.1)

theorem carriedBatch_of_wire {w : World MuxServer} (h : Aligned w) {requests : List (Nat × UInt64)}
    (hwire : ∀ f ∈ (finalState ((fetchBatch (muxPeer libs) libs requests).run w)).wire,
      Carried libs f) : CarriedBatch libs w requests := by
  obtain ⟨w₁, hrun, -, hconn, hpeer, -, hsent⟩ := fetchBatch_buffered libs h requests
  rw [hrun _ rfl] at hwire
  have hreq : ∀ e ∈ w.queue requests, Carried libs (e.2.frame e.1 w.client.fromAint) := by
    intro e he
    refine hwire _ ((Along.grows_bind flush_grows (fun _ => batchEnd_grows _ _) w₁).mem_wire ?_)
    simp only [World.wire, hsent, List.mem_append, List.mem_map]
    exact .inl (.inr ⟨e, he, rfl⟩)
  refine ⟨hreq, ?_⟩
  intro a ha
  apply hwire _
  rw [bind_ok (flush_batch h hconn hpeer hreq)]
  apply (batchEnd_grows _ _ _).mem_wire
  have hserved := batchServed_serveAll libs requests w.peer w.client.nextChannel
    w.client.fromAint
  simp only [World.wire, List.mem_append]
  refine .inr ?_
  change _ ∈ (w.batchAnswers libs requests).1.served.map _
  rw [hserved.responses, List.mem_append]
  exact .inr (List.mem_map_of_mem ha)

theorem fetchBatch_run {w : World MuxServer} (h : Aligned w) {requests : List (Nat × UInt64)}
    (hc : CarriedBatch libs w requests) :
    let good := available libs w.client.hashCache w.peer.store.content
    ∃ w', BatchLeft libs w requests (batchReads good requests) w' ∧
      if requests.all (fun r => good r.1) then
        ∃ results, fetched w.peer.store.content requests = some results ∧
          (fetchBatch (muxPeer libs) libs requests).run w = .ok results w'
      else
        ∃ e, (fetchBatch (muxPeer libs) libs requests).run w = .error (.err e) w' := by
  intro good
  obtain ⟨w₁, hrun, hcache, hconn, hpeer, hrecv, hsent⟩ :=
    fetchBatch_buffered libs h requests
  have hserved := batchServed_serveAll libs requests w.peer w.client.nextChannel
    w.client.fromAint
  have hflush := flush_batch h hconn hpeer hc.request
  rw [hrun _ rfl, bind_ok hflush]
  generalize hw₂ : ({ w₁ with
    peer := { (w.batchAnswers libs requests).1 with inbox := [] } } : World MuxServer).setConnection
      ⟨⟨answerBytes libs (w.batchAnswers libs requests).2, false⟩, []⟩ = w₂
  have hgood : available libs w₂.client.hashCache w.peer.store.content = good := by
    rw [← hw₂]
    exact congrArg (fun cache => available libs cache w.peer.store.content) hcache
  obtain ⟨w', hpeer', hsent', hav, hconn', hrecv', hres⟩ :=
    recvBatch_run hserved.own hc.response (w := w₂) (by rw [← hw₂]; rfl) w.client.nextChannel
  rw [hgood] at hav hconn' hrecv' hres
  have hleft : BatchLeft libs w requests (batchReads good requests) w' := by
    have hp : w'.peer = { (w.batchAnswers libs requests).1 with inbox := [] } := by
      rw [hpeer', ← hw₂]
      rfl
    refine ⟨?_, ?_, hconn', hav, ?_, ?_, ?_⟩
    · rw [hp]
      exact ⟨rfl, hserved.running.trans h.idle.running⟩
    · rw [hp]
      exact hserved.contents
    · rw [hp, hsent', ← hw₂]
      exact (hsent.trans (by rw [h.sent])).trans hserved.served.symm
    · rw [hp, h.received]
      exact hserved.responses
    · rw [hrecv', ← hw₂]
      exact congrArg (· ++ _) hrecv
  unfold batchEnd
  by_cases hall : requests.all (fun r => good r.1) = true
  · rw [if_pos hall] at hres
    obtain ⟨results, hfetched, hresults⟩ := hres
    simp only [hall, if_true]
    rw [bind_ok hresults, bind_ok (addRequestsSent_run _ _)]
    refine ⟨_, ?_, results, hfetched, rfl⟩
    exact ⟨hleft.idle, hleft.contents, hleft.connection, hleft.available, hleft.sent, hleft.served,
      hleft.received⟩
  · rw [if_neg hall] at hres
    obtain ⟨e, he⟩ := hres
    simp only [hall, Bool.false_eq_true, if_false]
    rw [bind_error he]
    exact ⟨w', hleft, e, rfl⟩

end Client

/-! ## Calls after a failed batch -/

section After

variable {libs : MuxLibs}

/-- The next `fetch_block(j)` gets the response to its own request: it never returns the data of
another block, and it succeeds whenever block `j` is in the store. -/
structure OwnResponse (libs : MuxLibs) (w : World MuxServer) (j : Nat) (seq : UInt64) : Prop where
  sent : let w' := (Call.exec (muxPeer libs) libs w (.fetchBlock j none seq)).1
    w'.sent = w'.peer.served.map Prod.fst
  received : let w' := (Call.exec (muxPeer libs) libs w (.fetchBlock j none seq)).1
    w'.received = w'.peer.served.map (fun e => MuxFrame.response e.2)
  data : ∀ data, (Call.exec (muxPeer libs) libs w (.fetchBlock j none seq)).2 = .fetched data →
    (w.peer.store.content j).map Prod.fst = some data
  succeeds : ∀ b, w.peer.store.content j = some b →
    (Call.exec (muxPeer libs) libs w (.fetchBlock j none seq)).2 = .fetched b.1

/-- A batch that returned an error has left the connection usable: after any further calls, every
fetch gets its own response. Headers are supposed to survive the wire. -/
def ErrorKeepsStep (libs : MuxLibs) (w : World MuxServer) (requests : List (Nat × UInt64)) : Prop :=
  ∀ e w₁, (fetchBatch (muxPeer libs) libs requests).run w = .error (.err e) w₁ →
    ∀ (later : List Call) (j : Nat) (seq : UInt64),
      let w₂ := Machine.run (Call.exec (muxPeer libs) libs) w₁ later
      (∀ f ∈ (Call.exec (muxPeer libs) libs w₂ (.fetchBlock j none seq)).1.wire, Carried libs f) →
        OwnResponse libs w₂ j seq

/-- Every requested block is available, so that the batch succeeds; or only the last one may be
missing, and every block of the store is one the client accepts. -/
def BatchSafe (libs : MuxLibs) (w : World MuxServer) (requests : List (Nat × UInt64)) : Prop :=
  (∀ r ∈ requests, available libs w.client.hashCache w.peer.store.content r.1 = true) ∨
    ((∀ r ∈ requests.dropLast, available libs w.client.hashCache w.peer.store.content r.1 = true) ∧
      AllFetchable libs w.client.hashCache w.peer.store)

/-- Responses stay unread exactly when a request before the last one fails. -/
theorem batchReads_lt_iff (good : Nat → Bool) (requests : List (Nat × UInt64)) :
    batchReads good requests < requests.length ↔ ∃ r ∈ requests.dropLast, good r.1 = false := by
  induction requests with
  | nil => simp [batchReads]
  | cons r requests ih =>
    cases requests with
    | nil => simp [batchReads]
    | cons r' requests =>
      by_cases hr : good r.1 = true
      · rw [batchReads, if_pos hr, List.dropLast_cons_cons, List.length_cons, Nat.add_lt_add_iff_right,
          ih]
        simp [hr]
      · rw [batchReads, if_neg hr]
        simp [hr]

theorem allFetchable_iff (cache : HashCache) (store : BlockStore) :
    AllFetchable libs cache store ↔
      ∀ i, (store.content i).isSome → available libs cache store.content i = true := by
  constructor
  · intro h i hi
    obtain ⟨b, hb⟩ := Option.isSome_iff_exists.mp hi
    simp [available, hb, h i b hb]
  · intro h i b hb
    have := h i (by simp [hb])
    simpa [available, hb] using this

/-- When everything was read, both sides are aligned again. -/
theorem BatchLeft.aligned {w w' : World MuxServer} {requests : List (Nat × UInt64)} {n : Nat}
    (h : BatchLeft libs w requests n w') (hn : (w.batchAnswers libs requests).2.length ≤ n) :
    Aligned w' where
  connection := by
    intro c hc
    rw [h.connection, List.drop_eq_nil_of_le hn] at hc
    exact (Option.some.inj hc).symm
  idle := h.idle
  sent := h.sent
  received := by rw [h.received, h.served, List.take_of_length_le hn]

theorem length_batchAnswers (w : World MuxServer) (requests : List (Nat × UInt64)) :
    (w.batchAnswers libs requests).2.length = requests.length :=
  ((batchServed_serveAll libs requests w.peer w.client.nextChannel
    w.client.fromAint).own.length_eq).symm

/-- The safe case: whatever error the batch returned, it had read all its responses. -/
theorem errorKeepsStep_of_safe {w : World MuxServer} (h : Aligned w)
    {requests : List (Nat × UInt64)} (hsafe : BatchSafe libs w requests) :
    ErrorKeepsStep libs w requests := by
  intro e w₁ herr later j seq w₂ hwire
  have hgrow : Grows w₁ (Call.exec (muxPeer libs) libs w₂ (.fetchBlock j none seq)).1 :=
    (run_grows w₁ later).trans (exec_grows w₂ _)
  have hc : CarriedBatch libs w requests := by
    apply carriedBatch_of_wire h
    rw [herr]
    exact fun f hf => hwire f (hgrow.mem_wire hf)
  obtain ⟨w', hleft, hrun⟩ := fetchBatch_run h hc
  split at hrun
  · obtain ⟨results, -, hok⟩ := hrun
    rw [herr] at hok
    cases hok
  · next hall =>
    obtain ⟨e', herr'⟩ := hrun
    rw [herr] at herr'
    obtain ⟨rfl, rfl⟩ : e = e' ∧ w₁ = w' := by simpa using herr'
    obtain ⟨hbutlast, hf⟩ : _ ∧ _ := hsafe.resolve_left (by simpa using hall)
    have hn : ¬ batchReads (available libs w.client.hashCache w.peer.store.content) requests <
        requests.length := by
      rw [batchReads_lt_iff]
      rintro ⟨r, hr, hbad⟩
      rw [hbutlast r hr] at hbad
      cases hbad
    have hsim : Simulates libs w₁ w₁.peer.store.content := by
      refine ⟨hleft.aligned ?_, rfl, ?_⟩
      · rw [length_batchAnswers]
        omega
      · rw [allFetchable_iff] at hf ⊢
        rw [hleft.contents, hleft.available]
        exact hf
    have hwire₂ : ∀ f ∈ w₂.wire, Carried libs f :=
      fun f hf => hwire f ((exec_grows w₂ _).mem_wire hf)
    obtain ⟨hsim₂, -⟩ := run_simulates_map hsim hwire₂
    obtain ⟨w₃, hexec, -, hsim₃⟩ :=
      exec_simulates hsim₂ (carriedCall_of_wire hsim₂.aligned hwire)
    constructor
    · rw [hexec]
      exact hsim₃.aligned.sent
    · rw [hexec]
      exact hsim₃.aligned.received
    · intro data hdata
      rw [hexec] at hdata
      rw [hsim₂.contents]
      exact apply_fetched hdata
    · intro b hb
      rw [hsim₂.contents] at hb
      rw [hexec]
      simp [Call.apply, hb]

/-- With responses left on the connection the next fetch reads one that is not its own. -/
theorem not_ownResponse_of_leftover {w w₁ : World MuxServer} {requests : List (Nat × UInt64)}
    {n : Nat} (hc : CarriedBatch libs w requests) (hleft : BatchLeft libs w requests n w₁)
    (hn : n < requests.length) {i : Nat} {seq : UInt64}
    (hwire : ∀ f ∈ (Call.exec (muxPeer libs) libs w₁ (.fetchBlock i none seq)).1.wire,
      Carried libs f) : ¬ OwnResponse libs w₁ i seq := by
  intro hown
  obtain ⟨⟨resp, body⟩, rest, hrest⟩ :
      ∃ a rest, (w.batchAnswers libs requests).2.drop n = a :: rest := by
    apply List.exists_cons_of_ne_nil
    rw [ne_eq, List.drop_eq_nil_iff, length_batchAnswers]
    omega
  have hmem : (resp, body) ∈ (w.batchAnswers libs requests).2 := by
    apply List.mem_of_mem_drop (i := n)
    rw [hrest]
    exact List.mem_cons_self
  have hopen : (ensureConnected (muxPeer libs)).run w₁ = .ok () (w₁.setConnection
      ⟨⟨answerBytes libs ((resp, body) :: rest), false⟩, []⟩) := by
    rw [← hrest, World.setConnection_self hleft.connection]
    exact ensureConnected_some _ hleft.connection
  have hask := request_run hleft.idle hopen rfl (hwire _ (frame_mem_wire hopen _))
  have hbody : Framed (resp, body) :=
    framed_of_own (batchServed_serveAll libs requests w.peer _ _).own _ hmem
  have hconn : (w₁.asked libs (answerBytes libs ((resp, body) :: rest))
      (.fetchBlock i none seq)).client.connection =
      some ⟨⟨writeFrame libs (.response resp) ++ (body ++ (answerBytes libs rest ++
        w₁.peer.replyBytes libs w₁.client.nextChannel w₁.client.fromAint
          (.fetchBlock i none seq))), false⟩, []⟩ := by
    simp [World.asked, answerBytes]
  obtain ⟨w₃, hexec, -, -, -, -, hsent, hrecv⟩ :=
    exec_fetch_run hask (hc.response _ hmem) hbody hconn
  have hs := hown.sent
  have hr := hown.received
  rw [hexec] at hs hr
  -- One request more and one response more on either side: the gap of the batch is still there.
  have hlen : w₃.sent.length = w₃.received.length := by
    rw [hs, hr, List.length_map, List.length_map]
  have hgap : w₁.sent.length = w.received.length + requests.length := by
    rw [hleft.sent, List.length_map, ← List.length_map (f := fun e => MuxFrame.response e.2),
      hleft.served, List.length_append, List.length_map, length_batchAnswers]
  rw [hsent, hrecv] at hlen
  simp only [World.asked, hleft.received, List.length_append, List.length_map, List.length_take,
    length_batchAnswers, List.length_cons, List.length_nil] at hlen
  omega

/-- A block in the store that the client does not accept cannot be fetched. -/
theorem not_ownResponse_of_unavailable {w : World MuxServer} (h : Aligned w) {j : Nat}
    {seq : UInt64} (hj : (w.peer.store.content j).isSome)
    (hbad : available libs w.client.hashCache w.peer.store.content j = false)
    (hwire : ∀ f ∈ (Call.exec (muxPeer libs) libs w (.fetchBlock j none seq)).1.wire,
      Carried libs f) : ¬ OwnResponse libs w j seq := by
  intro hown
  obtain ⟨b, hb⟩ := Option.isSome_iff_exists.mp hj
  obtain ⟨w', hexec, -⟩ := exec_aligned h (carriedCall_of_wire h hwire)
  have hverdict := (verdict_own libs
    (ownAnswer_answer libs w.peer w.client.nextChannel w.client.fromAint j seq)
    w.client.hashCache).1
  rw [hbad, if_neg (by simp)] at hverdict
  obtain ⟨e, he⟩ := hverdict
  have hok := hown.succeeds b hb
  rw [hexec] at hok
  simp only [Call.reply] at hok
  rw [he] at hok
  cases hok

/-- From any point of a run of calls, with any contents of the store: a failed batch keeps the
connection in step exactly when it is the last request that failed and no block of the store is
corrupt, or when the batch cannot fail. The frames of a single fetch after the batch are
supposed to survive the wire. -/
theorem fetchBatch_error_keeps_step_iff {store : BlockStore} {aint kernelAint : String}
    {latencyUs : Nat → UInt64} {before : List Call} {w : World MuxServer}
    (hw : w = Machine.run (Call.exec (muxPeer libs) libs)
      (World.new aint (MuxServer.new store kernelAint latencyUs)) before)
    (hbefore : ∀ f ∈ w.wire, Carried libs f) {requests : List (Nat × UInt64)}
    (hprobe : ∀ i, i ∈ requests.map Prod.fst ∨ (w.peer.store.content i).isSome →
      ∀ f ∈ (Call.exec (muxPeer libs) libs
        (finalState ((fetchBatch (muxPeer libs) libs requests).run w))
        (.fetchBlock i none 0)).1.wire, Carried libs f) :
    ErrorKeepsStep libs w requests ↔ BatchSafe libs w requests := by
  have h : Aligned w := by
    rw [hw] at hbefore ⊢
    exact run_aligned (aligned_new aint store kernelAint latencyUs) hbefore
  refine ⟨?_, errorKeepsStep_of_safe h⟩
  intro hkeeps
  by_cases hall : requests.all
      (fun r => available libs w.client.hashCache w.peer.store.content r.1) = true
  · exact .inl (by simpa using hall)
  obtain ⟨r, hr, -⟩ : ∃ r ∈ requests,
      available libs w.client.hashCache w.peer.store.content r.1 = false := by
    simpa using hall
  have hprobe_r := hprobe r.1 (.inl (List.mem_map_of_mem hr))
  have hc : CarriedBatch libs w requests :=
    carriedBatch_of_wire h (fun f hf => hprobe_r f ((exec_grows _ _).mem_wire hf))
  obtain ⟨w₁, hleft, hrun⟩ := fetchBatch_run h hc
  rw [if_neg hall] at hrun
  obtain ⟨e, herr⟩ := hrun
  rw [herr] at hprobe hprobe_r
  by_cases hn : batchReads (available libs w.client.hashCache w.peer.store.content) requests <
      requests.length
  · exact absurd (hkeeps e w₁ herr [] r.1 0 hprobe_r)
      (not_ownResponse_of_leftover hc hleft hn hprobe_r)
  · refine .inr ⟨?_, ?_⟩
    · rw [batchReads_lt_iff] at hn
      simpa using hn
    · rw [allFetchable_iff]
      intro j hj
      by_contra hbad
      have hprobe_j := hprobe j (.inr hj)
      have halign : Aligned w₁ := hleft.aligned (by rw [length_batchAnswers]; omega)
      refine absurd (hkeeps e w₁ herr [] j 0 hprobe_j)
        (not_ownResponse_of_unavailable halign ?_ ?_ hprobe_j)
      · rw [hleft.contents]
        exact hj
      · rw [hleft.contents, hleft.available]
        simpa using hbad

end After

/-! ## A batch with a block missing -/

namespace Demo

/-- The frames of the two batches below and their JSON. -/
def batchFrames : List (MuxFrame × List UInt8) :=
  [(.fetch 1 1 "root_idd.aint" none 0,
    dump 108
      [0x7b2274797065223a224665746368222c226368616e6e656c5f6964223a312c22,
       0x626c6f636b5f696e646578223a312c2266726f6d5f61696e74223a22726f6f74,
       0x5f6964642e61696e74222c2265787065637465645f68617368223a6e756c6c2c,
       0x226275735f736571223a307d]),
   (.fetch 2 9 "root_idd.aint" none 0,
    dump 108
      [0x7b2274797065223a224665746368222c226368616e6e656c5f6964223a322c22,
       0x626c6f636b5f696e646578223a392c2266726f6d5f61696e74223a22726f6f74,
       0x5f6964642e61696e74222c2265787065637465645f68617368223a6e756c6c2c,
       0x226275735f736571223a307d]),
   (.fetch 3 2 "root_idd.aint" none 0,
    dump 108
      [0x7b2274797065223a224665746368222c226368616e6e656c5f6964223a332c22,
       0x626c6f636b5f696e646578223a322c2266726f6d5f61696e74223a22726f6f74,
       0x5f6964642e61696e74222c2265787065637465645f68617368223a6e756c6c2c,
       0x226275735f736571223a307d]),
   (.fetch 4 1 "root_idd.aint" none 0,
    dump 108
      [0x7b2274797065223a224665746368222c226368616e6e656c5f6964223a342c22,
       0x626c6f636b5f696e646578223a312c2266726f6d5f61696e74223a22726f6f74,
       0x5f6964642e61696e74222c2265787065637465645f68617368223a6e756c6c2c,
       0x226275735f736571223a307d]),
   (.response ⟨1, 200, 1, helloHash, 5, 5, 40, "mux_fetch_1_1", none⟩,
    dump 244
      [0x7b2274797065223a22526573706f6e7365222c226368616e6e656c5f6964223a,
       0x312c22737461747573223a3230302c22626c6f636b5f696e646578223a312c22,
       0x636f6e74656e745f68617368223a223263663234646261356662306133306532,
       0x3665383362326163356239653239653162313631653563316661373432356537,
       0x333034333336323933386239383234222c227061796c6f61645f73697a65223a,
       0x352c227261775f73697a65223a352c227365727665725f6c6174656e63795f75,
       0x73223a34302c2274696265745f746f6b656e5f6964223a226d75785f66657463,
       0x685f315f31222c226572726f72223a6e756c6c7d]),
   (.response ⟨2, 404, 9, "", 0, 0, 41, "", some "Block 9 not found"⟩,
    dump 182
      [0x7b2274797065223a22526573706f6e7365222c226368616e6e656c5f6964223a,
       0x322c22737461747573223a3430342c22626c6f636b5f696e646578223a392c22,
       0x636f6e74656e745f68617368223a22222c227061796c6f61645f73697a65223a,
       0x302c227261775f73697a65223a302c227365727665725f6c6174656e63795f75,
       0x73223a34312c2274696265745f746f6b656e5f6964223a22222c226572726f72,
       0x223a22426c6f636b2039206e6f7420666f756e64227d]),
   (.response ⟨3, 200, 2, worldHash, 5, 5, 42, "mux_fetch_2_3", none⟩,
    dump 244
      [0x7b2274797065223a22526573706f6e7365222c226368616e6e656c5f6964223a,
       0x332c22737461747573223a3230302c22626c6f636b5f696e646578223a322c22,
       0x636f6e74656e745f68617368223a223438366561343632323464316262346662,
       0x3638306633346637633961643936613866323465633838626537336561386535,
       0x613663363532363065396362386137222c227061796c6f61645f73697a65223a,
       0x352c227261775f73697a65223a352c227365727665725f6c6174656e63795f75,
       0x73223a34322c2274696265745f746f6b656e5f6964223a226d75785f66657463,
       0x685f325f33222c226572726f72223a6e756c6c7d]),
   (.response ⟨4, 200, 1, helloHash, 5, 5, 43, "mux_fetch_1_4", none⟩,
    dump 244
      [0x7b2274797065223a22526573706f6e7365222c226368616e6e656c5f6964223a,
       0x342c22737461747573223a3230302c22626c6f636b5f696e646578223a312c22,
       0x636f6e74656e745f68617368223a223263663234646261356662306133306532,
       0x3665383362326163356239653239653162313631653563316661373432356537,
       0x333034333336323933386239383234222c227061796c6f61645f73697a65223a,
       0x352c227261775f73697a65223a352c227365727665725f6c6174656e63795f75,
       0x73223a34332c2274696265745f746f6b656e5f6964223a226d75785f66657463,
       0x685f315f34222c226572726f72223a6e756c6c7d]),
   (.fetch 3 1 "root_idd.aint" none 0,
    dump 108
      [0x7b2274797065223a224665746368222c226368616e6e656c5f6964223a332c22,
       0x626c6f636b5f696e646578223a312c2266726f6d5f61696e74223a22726f6f74,
       0x5f6964642e61696e74222c2265787065637465645f68617368223a6e756c6c2c,
       0x226275735f736571223a307d]),
   (.fetch 3 9 "root_idd.aint" none 0,
    dump 108
      [0x7b2274797065223a224665746368222c226368616e6e656c5f6964223a332c22,
       0x626c6f636b5f696e646578223a392c2266726f6d5f61696e74223a22726f6f74,
       0x5f6964642e61696e74222c2265787065637465645f68617368223a6e756c6c2c,
       0x226275735f736571223a307d]),
   (.response ⟨3, 200, 1, helloHash, 5, 5, 42, "mux_fetch_1_3", none⟩,
    dump 244
      [0x7b2274797065223a22526573706f6e7365222c226368616e6e656c5f6964223a,
       0x332c22737461747573223a3230302c22626c6f636b5f696e646578223a312c22,
       0x636f6e74656e745f68617368223a223263663234646261356662306133306532,
       0x3665383362326163356239653239653162313631653563316661373432356537,
       0x333034333336323933386239383234222c227061796c6f61645f73697a65223a,
       0x352c227261775f73697a65223a352c227365727665725f6c6174656e63795f75,
       0x73223a34322c2274696265745f746f6b656e5f6964223a226d75785f66657463,
       0x685f315f33222c226572726f72223a6e756c6c7d]),
   (.response ⟨3, 404, 9, "", 0, 0, 42, "", some "Block 9 not found"⟩,
    dump 182
      [0x7b2274797065223a22526573706f6e7365222c226368616e6e656c5f6964223a,
       0x332c22737461747573223a3430342c22626c6f636b5f696e646578223a392c22,
       0x636f6e74656e745f68617368223a22222c227061796c6f61645f73697a65223a,
       0x302c227261775f73697a65223a302c227365727665725f6c6174656e63795f75,
       0x73223a34322c2274696265745f746f6b656e5f6964223a22222c226572726f72,
       0x223a22426c6f636b2039206e6f7420666f756e64227d])]

def twoBlocks : BlockStore :=
  (BlockStore.new.store 1 hello helloHash "seal" 5 "root_idd.aint" 0).store 2 world worldHash
    "seal" 5 "root_idd.aint" 0

def start : World MuxServer :=
  World.new "root_idd.aint" (MuxServer.new twoBlocks "kernel_b.aint" latencyUs)

theorem content_twoBlocks (i : Nat) : twoBlocks.content i =
    if i = 2 then some (world, worldHash, 5) else if i = 1 then some (hello, helloHash, 5)
    else none := by
  simp [twoBlocks, BlockStore.content_store]

end Demo

/-- The error a method returned. -/
def returnedError {σ α : Type} : EStateM.Result Halt (World σ) α → Option MuxError
  | .error (.err e) _ => some e
  | _ => none

theorem eq_error_of_returnedError {σ α : Type} {r : EStateM.Result Halt (World σ) α} {e : MuxError}
    (h : returnedError r = some e) : r = .error (.err e) (finalState r) := by
  rcases r with ⟨a, w⟩ | ⟨e' | _, w⟩ <;> simp_all [returnedError, finalState]

section

open Demo

/-- Block 9 is missing in the middle of the batch; the next fetch of block 1 returns the data of
block 2. -/
theorem fetchBatch_error_breaks_step :
    ¬ ErrorKeepsStep (libs batchFrames) start [(1, 0), (9, 0), (2, 0)] := by
  intro h
  have herr : returnedError ((fetchBatch (muxPeer (libs batchFrames)) (libs batchFrames)
      [(1, 0), (9, 0), (2, 0)]).run start) = some (.remoteStatus 404 "Block 9 not found") := by
    decide +kernel
  have hown := h _ _ (eq_error_of_returnedError herr) [] 1 0 (by decide +kernel)
  have hdata := hown.data world (by decide +kernel)
  exact absurd hdata (by decide +kernel)

/-- Block 9 is missing at the end of the batch, where nothing is left behind. -/
theorem fetchBatch_last_missing :
    ErrorKeepsStep (libs batchFrames) start [(1, 0), (9, 0)] := by
  have hstart : start = Machine.run (Call.exec (muxPeer (libs batchFrames)) (libs batchFrames))
      (World.new "root_idd.aint" (MuxServer.new twoBlocks "kernel_b.aint" latencyUs)) [] := rfl
  refine (fetchBatch_error_keeps_step_iff hstart (by decide) ?_).mpr
    (.inr ⟨by decide +kernel, ?_⟩)
  · intro i h
    have hi : i = 1 ∨ i = 9 ∨ i = 2 := by
      rcases h with h | h
      · have h : i = 1 ∨ i = 9 := by simpa using h
        omega
      · change (twoBlocks.content i).isSome at h
        rw [content_twoBlocks] at h
        by_contra hne
        simp_all
    rcases hi with rfl | rfl | rfl <;> decide +kernel
  · intro i b hb
    change twoBlocks.content i = some b at hb
    rw [content_twoBlocks] at hb
    split at hb
    · cases hb
      exact .inl (by decide)
    · split at hb
      · cases hb
        exact .inl (by decide)
      · cases hb

end

end Spaceshuttle.Cluster
