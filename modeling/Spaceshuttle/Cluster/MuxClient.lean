import Spaceshuttle.Cluster.MuxServer

/-!
# The MUX client

`ClusterMuxClient` of `crates/trust-kernel/src/cluster_mux.rs:498-750`. Every method holds the
lock on the connection from its first byte to its last, so the methods of one client run one
after another; a method is a computation in `ClientM` over the client and the peer it is
connected to. The peer is a parameter: any state machine that reacts to the bytes it is sent.
`muxPeer` is the peer that runs `handle_mux_connection`.

The round-trip times the methods return are left out, as is everything else that is read off
the client's clock.
-/

namespace Spaceshuttle.Cluster

open ByteStream

/-- `MuxError` (`cluster_mux.rs:757-765`). -/
inductive MuxError where
  | connect (e : String)
  | notConnected
  | io (e : String)
  | protocol (e : String)
  | remote (e : String)
  | remoteStatus (status : UInt16) (error : String)
  | integrityFailed (expected got : String)
  deriving DecidableEq, Repr

/-- What comes back when bytes are written to a peer: the bytes it writes in turn, whether it
has closed its side after them, and the error of the write itself. -/
structure Delivery where
  reply : List UInt8
  closed : Bool
  error : Option String

/-- The other end of the client's connections, with state `σ`. -/
structure Peer (σ : Type) where
  connect : σ → Except String σ
  deliver : σ → List UInt8 → σ × Delivery

/-- `handle_mux_connection` as a peer. Connecting starts a handler on the same store. -/
def muxPeer (libs : MuxLibs) : Peer MuxServer where
  connect := fun srv => .ok { srv with inbox := [], running := true }
  deliver := fun srv bytes =>
    let (srv', reply) := srv.deliver libs bytes
    (srv', { reply := reply, closed := !srv'.running, error := none })

/-- `MuxConnection` (`cluster_mux.rs:513-516`): received bytes, and bytes the `BufWriter` holds
until the next flush. -/
structure MuxConnection where
  inbound : Inbound
  writer : List UInt8
  deriving DecidableEq, Repr

/-- `ClusterMuxClient` (`cluster_mux.rs:498-511`). -/
structure ClusterMuxClient where
  fromAint : String
  connection : Option MuxConnection
  nextChannel : UInt32
  requestsSent : UInt64
  bytesTransferred : UInt64
  hashCache : HashCache

/-- `ClusterMuxClient::new` (`cluster_mux.rs:519-529`). -/
def ClusterMuxClient.new (fromAint : String) : ClusterMuxClient where
  fromAint := fromAint
  connection := none
  nextChannel := 1
  requestsSent := 0
  bytesTransferred := 0
  hashCache := HashCache.new

/-- The client, its peer, and the history of frames the client wrote and read. -/
structure World (σ : Type) where
  client : ClusterMuxClient
  peer : σ
  sent : List MuxFrame
  received : List MuxFrame

/-- A client of a peer, before its first call. -/
def World.new {σ : Type} (fromAint : String) (peer : σ) : World σ where
  client := ClusterMuxClient.new fromAint
  peer := peer
  sent := []
  received := []

/-- Why a method has no value: it returned an error, or it waits for bytes that do not come. -/
inductive Halt where
  | err (e : MuxError)
  | pending
  deriving DecidableEq, Repr

/-- A client method. -/
abbrev ClientM (σ α : Type) := EStateM Halt (World σ) α

/-- A reader's stop as the client reports it: every I/O error becomes `MuxError::Io`. -/
def haltOf : Stop → Halt
  | .pending => .pending
  | .eof => .err (.io "early eof")
  | .invalid message => .err (.io message)

section Primitives

variable {σ : Type}

/-- Replace the connection. -/
def World.setConnection (w : World σ) (c : MuxConnection) : World σ :=
  { w with client := { w.client with connection := some c } }

theorem World.setConnection_self {w : World σ} {c : MuxConnection}
    (hc : w.client.connection = some c) : w.setConnection c = w := by
  rw [setConnection, ← hc]

/-- `ensure_connected` (`cluster_mux.rs:532-546`). -/
def ensureConnected (P : Peer σ) : ClientM σ Unit := fun w =>
  match w.client.connection with
  | some _ => .ok () w
  | none =>
      match P.connect w.peer with
      | .ok peer => .ok () ({ w with peer := peer }.setConnection ⟨⟨[], false⟩, []⟩)
      | .error e => .error (.err (.connect e)) w

/-- `next_channel_id` (`cluster_mux.rs:548-550`); the counter wraps. -/
def nextChannelId : ClientM σ UInt32 := fun w =>
  .ok w.client.nextChannel
    { w with client := { w.client with nextChannel := w.client.nextChannel + 1 } }

/-- `write_frame_with_payload` on the connection's writer (`cluster_mux.rs:102-110`);
`write_frame` is the case of no payload. -/
def sendFrame (libs : MuxLibs) (frame : MuxFrame) (payload : List UInt8) : ClientM σ Unit := fun w =>
  match w.client.connection with
  | none => .error (.err .notConnected) w
  | some c =>
      .ok () ({ w with sent := w.sent ++ [frame] }.setConnection
        { c with writer := c.writer ++ (writeFrame libs frame ++ payload) })

/-- `c.writer.flush()`: the buffered bytes reach the peer, and what it writes back arrives. How much room
the connection has for either is up to the peer: `muxPeer` has enough for all, `bufferedPeer` bounds it. -/
def flush (P : Peer σ) : ClientM σ Unit := fun w =>
  match w.client.connection with
  | none => .error (.err .notConnected) w
  | some c =>
      let (peer, d) := P.deliver w.peer c.writer
      let w := { w with peer := peer }.setConnection
        { inbound := ⟨c.inbound.bytes ++ d.reply, c.inbound.closed || d.closed⟩, writer := [] }
      match d.error with
      | none => .ok () w
      | some e => .error (.err (.io e)) w

/-- Run a reader on the connection. -/
def onConnection {α : Type} (reader : Read α) : ClientM σ α := fun w =>
  match w.client.connection with
  | none => .error (.err .notConnected) w
  | some c =>
      match reader.run c.inbound with
      | .ok a inbound => .ok a (w.setConnection { c with inbound := inbound })
      | .error stop inbound => .error (haltOf stop) (w.setConnection { c with inbound := inbound })

/-- `read_frame` on the connection, kept in the history. -/
def recvFrame (libs : MuxLibs) : ClientM σ MuxFrame := do
  let frame ← onConnection (readFrame libs)
  modify (fun w => { w with received := w.received ++ [frame] })
  pure frame

/-- `read_payload_cached` on the connection with the client's hash cache. -/
def recvPayload (libs : MuxLibs) (payloadSize : Nat) (serverHash : String) (blockIndex : Nat) :
    ClientM σ (List UInt8 × String) := do
  let w ← get
  let (result, cache) ←
    onConnection (readPayloadCached libs payloadSize serverHash blockIndex w.client.hashCache)
  modify (fun w => { w with client := { w.client with hashCache := cache } })
  pure result

/-- `requests_sent.fetch_add(n)`. -/
def addRequestsSent (n : UInt64) : ClientM σ Unit :=
  modify (fun w => { w with client := { w.client with requestsSent := w.client.requestsSent + n } })

/-- `bytes_transferred.fetch_add(n)`. -/
def addBytesTransferred (n : Nat) : ClientM σ Unit :=
  modify (fun w => { w with
    client := { w.client with bytesTransferred := w.client.bytesTransferred + UInt64.ofNat n } })

/-! The primitives as equations, for executing a method step by step. -/

theorem addRequestsSent_run (n : UInt64) (w : World σ) :
    (addRequestsSent n).run w = .ok ()
      { w with client := { w.client with requestsSent := w.client.requestsSent + n } } := rfl

theorem addBytesTransferred_run (n : Nat) (w : World σ) :
    (addBytesTransferred n).run w = .ok ()
      { w with client := { w.client with
        bytesTransferred := w.client.bytesTransferred + UInt64.ofNat n } } := rfl

theorem ensureConnected_some (P : Peer σ) {w : World σ} {c : MuxConnection}
    (hc : w.client.connection = some c) : (ensureConnected P).run w = .ok () w := by
  simp only [ensureConnected, EStateM.run, hc]

theorem ensureConnected_none {P : Peer σ} {w : World σ} (hc : w.client.connection = none) {peer : σ}
    (hp : P.connect w.peer = .ok peer) :
    (ensureConnected P).run w = .ok () ({ w with peer := peer }.setConnection ⟨⟨[], false⟩, []⟩) := by
  simp only [ensureConnected, EStateM.run, hc, hp]

theorem nextChannelId_run (w : World σ) :
    nextChannelId.run w = .ok w.client.nextChannel
      { w with client := { w.client with nextChannel := w.client.nextChannel + 1 } } := rfl

theorem sendFrame_run (libs : MuxLibs) (frame : MuxFrame) (payload : List UInt8) {w : World σ}
    {c : MuxConnection} (hc : w.client.connection = some c) :
    (sendFrame libs frame payload).run w = .ok () ({ w with sent := w.sent ++ [frame] }.setConnection
      { c with writer := c.writer ++ (writeFrame libs frame ++ payload) }) := by
  simp [sendFrame, EStateM.run, hc]

theorem flush_run {P : Peer σ} {w : World σ} {c : MuxConnection} (hc : w.client.connection = some c)
    {peer : σ} {reply : List UInt8} {closed : Bool}
    (hd : P.deliver w.peer c.writer = (peer, ⟨reply, closed, none⟩)) :
    (flush P).run w = .ok () ({ w with peer := peer }.setConnection
      ⟨⟨c.inbound.bytes ++ reply, c.inbound.closed || closed⟩, []⟩) := by
  simp only [flush, EStateM.run, hc, hd]

theorem onConnection_ok {α : Type} {reader : Read α} {w : World σ} {c : MuxConnection}
    (hc : w.client.connection = some c) {a : α} {inbound : Inbound}
    (hr : reader.run c.inbound = .ok a inbound) :
    (onConnection reader).run w = .ok a (w.setConnection { c with inbound := inbound }) := by
  unfold onConnection
  simp only [EStateM.run] at hr ⊢
  simp only [hc, hr]

theorem onConnection_error {α : Type} {reader : Read α} {w : World σ} {c : MuxConnection}
    (hc : w.client.connection = some c) {stop : Stop} {rest : Inbound}
    (hr : reader.run c.inbound = .error stop rest) :
    (onConnection reader).run w =
      .error (haltOf stop) (w.setConnection { c with inbound := rest }) := by
  unfold onConnection
  simp only [EStateM.run] at hr ⊢
  simp only [hc, hr]

theorem recvFrame_run {libs : MuxLibs} {w : World σ} {frame : MuxFrame} {rest writer : List UInt8}
    {closed : Bool} (h : Carried libs frame)
    (hc : w.client.connection = some ⟨⟨writeFrame libs frame ++ rest, closed⟩, writer⟩) :
    (recvFrame libs).run w = .ok frame
      ({ w with received := w.received ++ [frame] }.setConnection ⟨⟨rest, closed⟩, writer⟩) := by
  unfold recvFrame
  rw [bind_ok (onConnection_ok hc (readFrame_writeFrame h rest closed)), bind_ok (EStateM.run_modify _ _)]
  rfl

theorem recvPayload_run {libs : MuxLibs} {w : World σ} {data rest writer : List UInt8}
    {closed : Bool} (hc : w.client.connection = some ⟨⟨data ++ rest, closed⟩, writer⟩)
    (serverHash : String) (blockIndex : Nat) :
    (recvPayload libs data.length serverHash blockIndex).run w =
      .ok (data, hashAfter libs w.client.hashCache blockIndex serverHash data)
        { w with client := { w.client with
          connection := some ⟨⟨rest, closed⟩, writer⟩
          hashCache := cacheAfter libs w.client.hashCache blockIndex serverHash data } } := by
  unfold recvPayload
  rw [bind_ok (EStateM.run_get w), bind_ok (onConnection_ok hc (readPayloadCached_spec _ _ _ _ _ _))]
  rfl

end Primitives

/-! ## Calls -/

/-- The calls of a client that make one request and take one response. -/
inductive Call where
  | ping
  | storeBlock (blockIndex : Nat) (data : List UInt8) (contentHash ed25519Seal : String)
      (rawSize : Nat) (busSeq : UInt64)
  | fetchBlock (blockIndex : Nat) (expectedHash : Option String) (busSeq : UInt64)
  deriving DecidableEq, Repr

namespace Call

/-- The request frame of a call (`cluster_mux.rs:561-564`, `593-599`, `649-658`). -/
def frame (channelId : UInt32) (aint : String) : Call → MuxFrame
  | .ping => .ping channelId aint
  | .storeBlock i data hash edSeal rawSize seq =>
      .store channelId i aint data.length rawSize hash edSeal seq
  | .fetchBlock i expected seq => .fetch channelId i aint expected seq

/-- The bytes after the request frame. -/
def payload : Call → List UInt8
  | .storeBlock _ data _ _ _ _ => data
  | _ => []

end Call

variable {σ : Type} (P : Peer σ) (libs : MuxLibs)

/-- The common opening of `ping`, `fetch_block` and `store_block`: connect if needed, take a
channel, write the request and flush (`cluster_mux.rs:555-567`, `587-602`, `643-662`). -/
def request (c : Call) : ClientM σ Unit := do
  ensureConnected P
  let channelId ← nextChannelId
  let w ← get
  sendFrame libs (c.frame channelId w.client.fromAint) c.payload
  flush P

/-- `ClusterMuxClient::ping` (`cluster_mux.rs:553-577`). -/
def ping : ClientM σ Unit := do
  request P libs .ping
  let resp ← recvFrame libs
  addRequestsSent 1
  match resp with
  | .response r =>
      if r.status = 200 then pure () else throw (.err (.remote (r.error.getD "")))
  | _ => throw (.err (.protocol "Unexpected frame type"))

/-- The part of `fetch_block` and of the read loop of `fetch_batch` that takes one response
(`cluster_mux.rs:605-626`, `716-736`); `unexpected` is the one text in which they differ. -/
def takeFetched (unexpected : String) (blockIndex : Nat) : ClientM σ (List UInt8) := do
  let resp ← recvFrame libs
  match resp with
  | .response r =>
      if r.status = 200 then do
        let (data, verifiedHash) ← recvPayload libs r.payloadSize r.contentHash blockIndex
        if verifiedHash ≠ r.contentHash then
          throw (.err (.integrityFailed r.contentHash verifiedHash))
        pure data
      else
        throw (.err (.remoteStatus r.status (r.error.getD "")))
  | _ => throw (.err (.protocol unexpected))

/-- What `takeFetched` makes of a response and the payload behind it. -/
def verdict (cache : HashCache) (blockIndex : Nat) (r : MuxResponse) (body : List UInt8) :
    Except MuxError (List UInt8) :=
  if r.status = 200 then
    let verifiedHash := hashAfter libs cache blockIndex r.contentHash body
    if verifiedHash ≠ r.contentHash then .error (.integrityFailed r.contentHash verifiedHash)
    else .ok body
  else
    .error (.remoteStatus r.status (r.error.getD ""))

/-- The hash cache it leaves. -/
def verdictCache (cache : HashCache) (blockIndex : Nat) (r : MuxResponse) (body : List UInt8) :
    HashCache :=
  if r.status = 200 then cacheAfter libs cache blockIndex r.contentHash body else cache

/-- A method's result from a verdict. -/
def resultOf {α : Type} : Except MuxError α → World σ → EStateM.Result Halt (World σ) α
  | .ok a, w => .ok a w
  | .error e, w => .error (.err e) w

variable {libs} in
/-- Whatever the response is for, `takeFetched` consumes it together with its payload. -/
theorem takeFetched_run {w : World σ} {r : MuxResponse} {body rest writer : List UInt8}
    {closed : Bool} (h : Carried libs (.response r))
    (hbody : if r.status = 200 then body.length = r.payloadSize else body = [])
    (hc : w.client.connection =
      some ⟨⟨writeFrame libs (.response r) ++ (body ++ rest), closed⟩, writer⟩)
    (unexpected : String) (blockIndex : Nat) :
    (takeFetched libs unexpected blockIndex).run w =
      resultOf (verdict libs w.client.hashCache blockIndex r body)
        { w with
          client := { w.client with
            connection := some ⟨⟨rest, closed⟩, writer⟩
            hashCache := verdictCache libs w.client.hashCache blockIndex r body }
          received := w.received ++ [.response r] } := by
  unfold takeFetched verdict verdictCache
  rw [bind_ok (recvFrame_run h hc)]
  by_cases hs : r.status = 200
  · simp only [hs, if_true] at hbody ⊢
    rw [← hbody, bind_ok (recvPayload_run rfl _ _)]
    simp only [World.setConnection]
    by_cases hv : hashAfter libs w.client.hashCache blockIndex r.contentHash body ≠ r.contentHash
    · simp only [hv, ne_eq, not_false_eq_true, if_true]
      rfl
    · simp only [hv, if_false]
      rfl
  · simp only [hs, if_false] at hbody ⊢
    subst hbody
    rfl

/-- `ClusterMuxClient::fetch_block` (`cluster_mux.rs:580-630`). -/
def fetchBlock (blockIndex : Nat) (expectedHash : Option String) (busSeq : UInt64) :
    ClientM σ (List UInt8) := do
  request P libs (.fetchBlock blockIndex expectedHash busSeq)
  let data ← takeFetched libs "Unexpected frame type" blockIndex
  addRequestsSent 1
  addBytesTransferred data.length
  pure data

/-- `ClusterMuxClient::store_block` (`cluster_mux.rs:633-682`). -/
def storeBlock (blockIndex : Nat) (data : List UInt8) (contentHash ed25519Seal : String)
    (rawSize : Nat) (busSeq : UInt64) : ClientM σ Unit := do
  request P libs (.storeBlock blockIndex data contentHash ed25519Seal rawSize busSeq)
  let resp ← recvFrame libs
  addRequestsSent 1
  addBytesTransferred data.length
  match resp with
  | .response r =>
      if r.status = 200 then
        modify (fun w => { w with client := { w.client with
          hashCache := w.client.hashCache.markVerified blockIndex contentHash } })
      else
        throw (.err (.remoteStatus r.status (r.error.getD "")))
  | _ => throw (.err (.protocol "Unexpected frame type"))

/-- Phase 1 of `fetch_batch`: write every request (`cluster_mux.rs:697-711`). -/
def sendBatch : List (Nat × UInt64) → ClientM σ (List (UInt32 × Nat))
  | [] => pure []
  | (blockIndex, busSeq) :: requests => do
      let channelId ← nextChannelId
      let w ← get
      sendFrame libs (.fetch channelId blockIndex w.client.fromAint none busSeq) []
      let channels ← sendBatch requests
      pure ((channelId, blockIndex) :: channels)

/-- Phase 2 of `fetch_batch`: read every response, leaving at the first one that is not a
verified block (`cluster_mux.rs:713-739`). -/
def recvBatch : List (UInt32 × Nat) → ClientM σ (List (Nat × List UInt8))
  | [] => pure []
  | (_, blockIndex) :: channels => do
      let data ← takeFetched libs "Unexpected frame" blockIndex
      addBytesTransferred data.length
      let results ← recvBatch channels
      pure ((blockIndex, data) :: results)

/-- `ClusterMuxClient::fetch_batch` (`cluster_mux.rs:687-743`). -/
def fetchBatch (requests : List (Nat × UInt64)) : ClientM σ (List (Nat × List UInt8)) := do
  ensureConnected P
  let channels ← sendBatch libs requests
  flush P
  let results ← recvBatch libs channels
  addRequestsSent (UInt64.ofNat requests.length)
  pure results

/-! A batch that returns answers its requests one by one. -/

section Indices

variable {P libs}

theorem sendBatch_indices {requests : List (Nat × UInt64)} {w w' : World σ}
    {channels : List (UInt32 × Nat)} (h : (sendBatch libs requests).run w = .ok channels w') :
    channels.map Prod.snd = requests.map Prod.fst := by
  induction requests generalizing w channels with
  | nil =>
    cases h
    rfl
  | cons request requests ih =>
    obtain ⟨_, w₁, _, h⟩ := of_bind_ok h
    obtain ⟨_, w₂, _, h⟩ := of_bind_ok h
    obtain ⟨_, w₃, _, h⟩ := of_bind_ok h
    obtain ⟨sent, w₄, hsent, h⟩ := of_bind_ok h
    cases h
    simp only [List.map_cons, ih hsent]

theorem recvBatch_indices {channels : List (UInt32 × Nat)} {w w' : World σ}
    {results : List (Nat × List UInt8)} (h : (recvBatch libs channels).run w = .ok results w') :
    results.map Prod.fst = channels.map Prod.snd := by
  induction channels generalizing w results with
  | nil =>
    cases h
    rfl
  | cons channel channels ih =>
    obtain ⟨_, w₁, _, h⟩ := of_bind_ok h
    obtain ⟨_, w₂, _, h⟩ := of_bind_ok h
    obtain ⟨read, w₃, hread, h⟩ := of_bind_ok h
    cases h
    simp only [List.map_cons, ih hread]

/-- The results are labelled with the requested indices in order, whatever the peer sends. -/
theorem fetchBatch_blockIndices {requests : List (Nat × UInt64)} {w w' : World σ}
    {results : List (Nat × List UInt8)} (h : (fetchBatch P libs requests).run w = .ok results w') :
    results.map Prod.fst = requests.map Prod.fst := by
  obtain ⟨_, w₁, _, h⟩ := of_bind_ok h
  obtain ⟨channels, w₂, hsend, h⟩ := of_bind_ok h
  obtain ⟨_, w₃, _, h⟩ := of_bind_ok h
  obtain ⟨read, w₄, hrecv, h⟩ := of_bind_ok h
  obtain ⟨_, w₅, _, h⟩ := of_bind_ok h
  cases h
  rw [recvBatch_indices hrecv, sendBatch_indices hsend]

end Indices

/-- `ClusterMuxClient::disconnect` (`cluster_mux.rs:746-749`). -/
def disconnect : ClientM σ Unit :=
  modify (fun w => { w with client := { w.client with connection := none } })

end Spaceshuttle.Cluster
