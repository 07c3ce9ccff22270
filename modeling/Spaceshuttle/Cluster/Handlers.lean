import Spaceshuttle.Lib.Text
import Spaceshuttle.Cluster.MuxServer

/-!
# The request handlers over one block store

Three servers answer requests from one `BlockStore`: the TCP transport
(`crates/trust-kernel/src/cluster_transport.rs:216-467`), the TCP MUX (`cluster_mux.rs:365-492`)
and the QUIC MUX (`quic_mux.rs:343-455`). A handler reads a whole request, reaches the store at
most once, and writes one answer. Reading is a reader of the connection whose value is a `Task`:
the access to the store that is left, with the answer as a function of what the access returns.
-/

namespace Spaceshuttle.Cluster

open ByteStream

/-! ## The transport's wire -/

/-- `BlockRequest` (`cluster_transport.rs:36-49`). -/
structure BlockRequest where
  intent : String
  fromAint : String
  blockIndex : Nat
  forkTokenId : String
  busSeq : UInt64
  expectedHash : Option String
  deriving DecidableEq, Repr

/-- `BlockResponse` (`cluster_transport.rs:53-76`). -/
structure BlockResponse where
  intent : String
  status : UInt16
  blockIndex : Nat
  contentHash : String
  ed25519Seal : String
  payloadSize : Nat
  rawSize : Nat
  compressionRatio : Float
  tibetTokenId : String
  serverLatencyUs : UInt64
  error : Option String
  deriving Repr

/-- The libraries behind the three servers: those of the MUX, and `serde_json` at the headers of
the transport. -/
structure ServerLibs extends MuxLibs where
  requestFromSlice : List UInt8 → Except String BlockRequest
  responseToVec : BlockResponse → List UInt8

/-! ## Tasks -/

/-- The arguments of a call of `BlockStore::store`. -/
structure StoreCall where
  blockIndex : Nat
  data : List UInt8
  contentHash : String
  ed25519Seal : String
  rawSize : Nat
  fromAint : String
  busSeq : UInt64
  deriving DecidableEq, Repr

/-- The store after a call of `BlockStore::store`. -/
def BlockStore.accept (s : BlockStore) (c : StoreCall) : BlockStore :=
  s.store c.blockIndex c.data c.contentHash c.ed25519Seal c.rawSize c.fromAint c.busSeq

/-- A request as its handler has read it. -/
inductive Request where
  | block (request : BlockRequest)
  | frame (frame : MuxFrame)
  deriving DecidableEq, Repr

/-- A request to store a block. -/
def Request.isStore : Request → Bool
  | .block r => r.intent == "ram_raid:store"
  | .frame (.store ..) => true
  | .frame _ => false

/-- What a handler writes back: a header and the payload that follows it. -/
inductive Answer where
  | block (r : BlockResponse) (payload : List UInt8)
  | frame (r : MuxResponse) (payload : List UInt8)
  deriving Repr

/-- The status of an answer. -/
def Answer.status : Answer → UInt16
  | .block r _ => r.status
  | .frame r _ => r.status

/-- The bytes of an answer on the connection. -/
def Answer.bytes (libs : ServerLibs) : Answer → List UInt8
  | .block r payload => prefixed (libs.responseToVec r) ++ payload
  | .frame r payload => writeFrame libs.toMuxLibs (.response r) ++ payload

/-- What is left to do for a request that has been read. An answer carries the elapsed time, which
is taken from the clock when the answer is built. -/
inductive Task where
  /-- Fetch a block and answer with what was found. -/
  | fetch (blockIndex : Nat) (reply : UInt64 → Option StoredBlock → Answer)
  /-- Store a block and answer. -/
  | store (call : StoreCall) (reply : UInt64 → Answer)
  /-- Answer without reaching the store. -/
  | answer (reply : UInt64 → Answer)
  /-- Nothing is written back. -/
  | ignore

/-- Do the access of a task: the store after it, the call of `BlockStore::store` if it made one,
and the answer. -/
def Task.perform (elapsedUs : UInt64) (store : BlockStore) :
    Task → BlockStore × Option StoreCall × Option Answer
  | .fetch i reply => ((store.fetch i).2, none, some (reply elapsedUs (store.fetch i).1))
  | .store call reply => (store.accept call, some call, some (reply elapsedUs))
  | .answer reply => (store, none, some (reply elapsedUs))
  | .ignore => (store, none, none)

/-! ## The transport -/

section Transport

variable (libs : ServerLibs) (kernelAint : String)

/-- The limit on a transport header (`cluster_transport.rs:228`). -/
def maxRequestHeader : Nat := 1024 * 1024

/-- The limit on a transport payload (`cluster_transport.rs:332`). -/
def maxPayload : Nat := 64 * 1024 * 1024

/-- `len as f64 / raw as f64`, and one for an empty block. -/
def compressionRatio (len rawSize : Nat) : Float :=
  if rawSize > 0 then Float.ofNat len / Float.ofNat rawSize else 1.0

/-- The response of `send_error` (`cluster_transport.rs:438-467`). -/
def sendError (request : BlockRequest) (status : UInt16) (error : String) : BlockResponse where
  intent := request.intent
  status := status
  blockIndex := request.blockIndex
  contentHash := ""
  ed25519Seal := ""
  payloadSize := 0
  rawSize := 0
  compressionRatio := 0.0
  tibetTokenId := ""
  serverLatencyUs := 0
  error := some error

/-- `handle_fetch` (`cluster_transport.rs:259-317`). -/
def handleFetch (request : BlockRequest) : Task :=
  .fetch request.blockIndex fun elapsedUs block =>
    match block with
    | none => .block (sendError request 404 s!"Block {request.blockIndex} not found") []
    | some b =>
        if request.expectedHash.any (fun expected => b.contentHash != expected) then
          let expected := request.expectedHash.getD ""
          .block (sendError request 409
            s!"Hash mismatch: expected {expected}, have {b.contentHash}") []
        else
          .block
            { intent := request.intent
              status := 200
              blockIndex := request.blockIndex
              contentHash := b.contentHash
              ed25519Seal := b.ed25519Seal
              payloadSize := b.data.length
              rawSize := b.rawSize
              compressionRatio := compressionRatio b.data.length b.rawSize
              tibetTokenId := s!"cluster_fetch_{request.blockIndex}_{request.busSeq}"
              serverLatencyUs := elapsedUs
              error := none }
            b.data

/-- The response to an accepted store (`cluster_transport.rs:378-390`). -/
def storedResponse (request : BlockRequest) (contentHash : String) (payloadSize rawSize : Nat)
    (elapsedUs : UInt64) : BlockResponse where
  intent := request.intent
  status := 200
  blockIndex := request.blockIndex
  contentHash := contentHash
  ed25519Seal := ""
  payloadSize := payloadSize
  rawSize := rawSize
  compressionRatio := compressionRatio payloadSize rawSize
  tibetTokenId := s!"cluster_store_{request.blockIndex}_{request.busSeq}"
  serverLatencyUs := elapsedUs
  error := none

/-- `handle_store` (`cluster_transport.rs:320-401`) up to the call of `BlockStore::store`. -/
def handleStore (request : BlockRequest) : Read Task := do
  let payloadSize := fromBe (← readExact 4)
  if payloadSize > maxPayload then
    return .answer fun _ =>
      .block (sendError request 413 s!"Payload too large: {payloadSize} bytes") []
  let rawSize := fromBe (← readExact 4)
  let contentHash := String.ofList (Text.fromUtf8Lossy (← readExact 64))
  let ed25519Seal := String.ofList (Text.fromUtf8Lossy (← readExact 128))
  let data ← readExact payloadSize
  let computedHash := libs.sha256.hex data
  if computedHash != contentHash then
    return .answer fun _ =>
      .block (sendError request 409
        s!"Store hash mismatch: sent {contentHash}, computed {computedHash}") []
  return .store
    { blockIndex := request.blockIndex
      data
      contentHash
      ed25519Seal
      rawSize
      fromAint := request.fromAint
      busSeq := request.busSeq }
    fun elapsedUs => .block (storedResponse request contentHash data.length rawSize elapsedUs) []

/-- `handle_ping` (`cluster_transport.rs:404-435`). -/
def handlePing : Task :=
  .answer fun elapsedUs =>
    .block
      { intent := "ram_raid:pong"
        status := 200
        blockIndex := 0
        contentHash := ""
        ed25519Seal := ""
        payloadSize := 0
        rawSize := 0
        compressionRatio := 0.0
        tibetTokenId := s!"cluster_ping_{kernelAint}"
        serverLatencyUs := elapsedUs
        error := none }
      []

/-- The dispatch of `handle_connection` on the intent (`cluster_transport.rs:241-255`). -/
def dispatch (request : BlockRequest) : Read Task :=
  if request.intent == "ram_raid:fetch" then return handleFetch request
  else if request.intent == "ram_raid:store" then handleStore libs request
  else if request.intent == "ram_raid:ping" then return handlePing kernelAint
  else return .answer fun _ => .block (sendError request 400 s!"Unknown intent: {request.intent}") []

/-- The reading part of `handle_connection` (`cluster_transport.rs:216-256`). -/
def readBlockRequest : Read (Request × Task) := do
  let header ← readPrefixed maxRequestHeader (fun len => s!"Header too large: {len} bytes")
  match libs.requestFromSlice header with
  | .error e => throw (.invalid e)
  | .ok request => return (.block request, ← dispatch libs kernelAint request)

end Transport

/-! ## The two MUX servers -/

/-- What distinguishes a server of MUX frames from another: the TIBET token ids it hands out. -/
structure FrameServer where
  fetchToken : String
  storeToken : String
  pongToken : String
  kernelAint : String

/-- The token ids of `handle_mux_connection` (`cluster_mux.rs:414,466,480`). -/
def muxFrames (kernelAint : String) : FrameServer := ⟨"mux_fetch_", "mux_store_", "mux_pong_", kernelAint⟩

/-- The token ids of `handle_quic_stream` (`quic_mux.rs:379,429,442`). -/
def quicFrames (kernelAint : String) : FrameServer := ⟨"quic_fetch_", "quic_store_", "quic_pong_", kernelAint⟩

/-- The response to a frame with neither payload nor error text
(`cluster_mux.rs:395-402,421-429,445-452`, `quic_mux.rs:360-367,387-394,408-415`). -/
def frameError (channelId : UInt32) (status : UInt16) (blockIndex : Nat) (contentHash error : String)
    (elapsedUs : UInt64) : MuxResponse where
  channelId := channelId
  status := status
  blockIndex := blockIndex
  contentHash := contentHash
  payloadSize := 0
  rawSize := 0
  serverLatencyUs := elapsedUs
  tibetTokenId := ""
  error := some error

/-- The response to a frame that was served. -/
def frameOk (channelId : UInt32) (blockIndex : Nat) (contentHash : String) (payloadSize rawSize : Nat)
    (tibetTokenId : String) (elapsedUs : UInt64) : MuxResponse where
  channelId := channelId
  status := 200
  blockIndex := blockIndex
  contentHash := contentHash
  payloadSize := payloadSize
  rawSize := rawSize
  serverLatencyUs := elapsedUs
  tibetTokenId := tibetTokenId
  error := none

section Frames

variable (libs : MuxLibs) (server : FrameServer)

/-- What a handler of MUX frames does for a frame (`cluster_mux.rs:385-489`,
`quic_mux.rs:352-452`). The payload of a store is read and hashed before the store is reached. -/
def frameTask : MuxFrame → Read Task
  | .fetch channelId blockIndex _ expectedHash _ =>
      return .fetch blockIndex fun elapsedUs block =>
        match block with
        | some b =>
            if expectedHash.any (fun expected => expected != b.contentHash) then
              .frame (frameError channelId 409 blockIndex b.contentHash "Hash mismatch" elapsedUs) []
            else
              .frame (frameOk channelId blockIndex b.contentHash b.data.length b.rawSize
                (server.fetchToken ++ s!"{blockIndex}_{channelId}") elapsedUs) b.data
        | none =>
            .frame (frameError channelId 404 blockIndex "" s!"Block {blockIndex} not found" elapsedUs) []
  | .store channelId blockIndex fromAint payloadSize rawSize contentHash ed25519Seal busSeq => do
      let (data, computed) ← readPayloadStreaming libs payloadSize
      if computed != contentHash then
        return .answer fun elapsedUs =>
          .frame (frameError channelId 409 blockIndex computed "Store hash mismatch" elapsedUs) []
      return .store { blockIndex, data, contentHash, ed25519Seal, rawSize, fromAint, busSeq }
        fun elapsedUs =>
          .frame (frameOk channelId blockIndex contentHash data.length rawSize
            (server.storeToken ++ s!"{blockIndex}_{channelId}") elapsedUs) []
  | .ping channelId _ =>
      return .answer fun elapsedUs =>
        .frame (frameOk channelId 0 "" 0 0 (server.pongToken ++ server.kernelAint) elapsedUs) []
  | .response _ => return .ignore

/-- The reading part of a handler of MUX frames: a frame and what belongs to it. -/
def readFrameRequest : Read (Request × Task) := do
  let frame ← readFrame libs
  return (.frame frame, ← frameTask libs server frame)

end Frames

/-! ## What a task may do -/

/-- A task that a handler may have after reading a request: only a store request stores, what it
stores has the hash it is stored under, and its answer is a success. -/
def Task.Sound (hex : List UInt8 → String) (request : Request) : Task → Prop
  | .fetch _ _ => request.isStore = false
  | .store call reply => call.contentHash = hex call.data ∧ ∀ elapsedUs, (reply elapsedUs).status = 200
  | .answer _ => True
  | .ignore => True

theorem handleStore_sound {libs : ServerLibs} {request : BlockRequest} {s s' : Inbound} {t : Task}
    (h : (handleStore libs request).run s = .ok t s') : t.Sound libs.sha256.hex (.block request) := by
  unfold handleStore at h
  obtain ⟨sizeBuf, s₁, -, h⟩ := of_bind_ok h
  by_cases hlarge : fromBe sizeBuf > maxPayload
  · simp only [if_pos hlarge] at h
    cases h
    trivial
  simp only [if_neg hlarge] at h
  obtain ⟨rawBuf, s₂, -, h⟩ := of_bind_ok h
  obtain ⟨hashBuf, s₃, -, h⟩ := of_bind_ok h
  obtain ⟨sealBuf, s₄, -, h⟩ := of_bind_ok h
  obtain ⟨data, s₅, -, h⟩ := of_bind_ok h
  by_cases hhash : (libs.sha256.hex data != String.ofList (Text.fromUtf8Lossy hashBuf)) = true
  · simp only [if_pos hhash] at h
    cases h
    trivial
  · simp only [if_neg hhash] at h
    cases h
    exact ⟨by simpa using Eq.symm (by simpa using hhash), fun _ => rfl⟩

theorem readBlockRequest_sound {libs : ServerLibs} {kernelAint : String} {s s' : Inbound}
    {r : Request × Task} (h : (readBlockRequest libs kernelAint).run s = .ok r s') :
    r.2.Sound libs.sha256.hex r.1 := by
  unfold readBlockRequest at h
  obtain ⟨header, s₁, -, h⟩ := of_bind_ok h
  cases hparse : libs.requestFromSlice header with
  | error e =>
    simp only [hparse] at h
    cases h
  | ok request =>
    simp only [hparse] at h
    obtain ⟨t, s₂, ht, h⟩ := of_bind_ok h
    cases h
    unfold dispatch at ht
    by_cases hfetch : (request.intent == "ram_raid:fetch") = true
    · rw [if_pos hfetch] at ht
      cases ht
      show Request.isStore (.block request) = false
      simp [Request.isStore, beq_iff_eq.mp hfetch]
    rw [if_neg hfetch] at ht
    by_cases hstore : (request.intent == "ram_raid:store") = true
    · rw [if_pos hstore] at ht
      exact handleStore_sound ht
    rw [if_neg hstore] at ht
    by_cases hping : (request.intent == "ram_raid:ping") = true
    · rw [if_pos hping] at ht
      cases ht
      trivial
    · rw [if_neg hping] at ht
      cases ht
      trivial

theorem frameTask_sound {libs : MuxLibs} {server : FrameServer} {frame : MuxFrame} {s s' : Inbound}
    {t : Task} (h : (frameTask libs server frame).run s = .ok t s') :
    t.Sound libs.sha256.hex (.frame frame) := by
  cases frame with
  | fetch channelId blockIndex aint expectedHash busSeq =>
    cases h
    rfl
  | store channelId blockIndex fromAint payloadSize rawSize contentHash ed25519Seal busSeq =>
    obtain ⟨⟨data, computed⟩, s₁, hread, h⟩ := of_bind_ok h
    obtain ⟨hcomputed, -⟩ := readPayloadStreaming_ok hread
    by_cases hhash : (computed != contentHash) = true
    · simp only [if_pos hhash] at h
      cases h
      trivial
    · simp only [if_neg hhash] at h
      cases h
      refine ⟨?_, fun _ => rfl⟩
      rw [← hcomputed]
      simpa using Eq.symm (by simpa using hhash)
  | ping channelId aint =>
    cases h
    trivial
  | response r =>
    cases h
    trivial

theorem readFrameRequest_sound {libs : MuxLibs} {server : FrameServer} {s s' : Inbound}
    {r : Request × Task} (h : (readFrameRequest libs server).run s = .ok r s') :
    r.2.Sound libs.sha256.hex r.1 := by
  unfold readFrameRequest at h
  obtain ⟨frame, s₁, -, h⟩ := of_bind_ok h
  obtain ⟨t, s₂, ht, h⟩ := of_bind_ok h
  cases h
  exact frameTask_sound ht

/-! ## A handler alone on its store -/

/-- A handler of the TCP MUX that does its task at once and writes the answer. -/
def MuxServer.settle (libs : MuxLibs) (srv : MuxServer) (frame : MuxFrame) (t : Task) :
    MuxServer × List UInt8 :=
  let (store, _, answer) := t.perform srv.latency srv.store
  let srv := { srv with store := store }
  match answer with
  | some (.frame r payload) => srv.respond libs frame r payload
  | _ => (srv, [])

/-- Reading a frame's task and doing it is what the loop of `handle_mux_connection` does with the
frame. -/
theorem handleFrame_eq_settle (libs : MuxLibs) (srv : MuxServer) (frame : MuxFrame) :
    srv.handleFrame libs frame = (do
      let t ← frameTask libs (muxFrames srv.kernelAint) frame
      return srv.settle libs frame t) := by
  cases frame with
  | fetch channelId blockIndex aint expectedHash busSeq =>
    show _ = pure _
    simp only [MuxServer.handleFrame, MuxServer.settle, Task.perform]
    cases hfetch : (srv.store.fetch blockIndex).1 with
    | none => rfl
    | some b =>
      by_cases hhash : expectedHash.any (fun expected => expected != b.contentHash) = true
      · simp only [if_pos hhash]
        rfl
      · simp only [if_neg hhash]
        rfl
  | store channelId blockIndex fromAint payloadSize rawSize contentHash ed25519Seal busSeq =>
    simp only [MuxServer.handleFrame, frameTask, bind_assoc]
    refine bind_congr fun read => ?_
    by_cases hhash : (read.2 != contentHash) = true
    · simp only [if_pos hhash]
      rfl
    · simp only [if_neg hhash]
      rfl
  | ping channelId aint => rfl
  | response r => rfl

end Spaceshuttle.Cluster
