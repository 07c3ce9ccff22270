import Spaceshuttle.Cluster.MuxBatch
import Spaceshuttle.Cluster.SharedStore

/-!
# Parallel fetches

`QuicMuxClient::fetch_batch_parallel` (`crates/trust-kernel/src/quic_mux.rs:674-756`) spawns a task
for every request. A task opens a stream of its own, at whose other end a handler of its own serves
it from the shared store; then the tasks are joined in the order of the requests. An event lets one
task or one handler take one step, or lets some bytes of one stream arrive. A run is any sequence of
events.
-/

namespace Spaceshuttle.Cluster

open ByteStream

/-- `QuicMuxClient` (`quic_mux.rs:461-477`), with whether it has a live connection. -/
structure QuicMuxClient where
  fromAint : String
  connected : Bool
  nextChannel : UInt32
  requestsSent : UInt64
  bytesTransferred : UInt64
  streamsOpened : UInt64
  hashCache : HashCache

/-- What a task returns: the block index, the data and the hash of the response. -/
abbrev TaskResult := Except MuxError (Nat × List UInt8 × String)

/-- Where a task of the batch stands. -/
inductive TaskPhase where
  /-- It has not opened its stream. -/
  | spawned
  /-- It has written its request and reads the response. -/
  | waiting
  | finished (result : TaskResult)

/-- The handler has returned, and with it its side of the stream is finished. -/
def Phase.isReturned : Phase → Bool
  | .returned => true
  | _ => false

/-- A task of the batch with its stream: the bytes of the request that have not arrived, the handler
at the other end, and the number of bytes that have come back from it. -/
structure QuicStream where
  channelId : UInt32
  blockIndex : Nat
  fromAint : String
  busSeq : UInt64
  task : TaskPhase
  toServer : List UInt8
  conn : Conn
  arrived : Nat

namespace QuicStream

/-- A task that was just spawned. -/
def new (channelId : UInt32) (blockIndex : Nat) (fromAint : String) (busSeq : UInt64) :
    QuicStream where
  channelId := channelId
  blockIndex := blockIndex
  fromAint := fromAint
  busSeq := busSeq
  task := .spawned
  toServer := []
  conn := .new .quic
  arrived := 0

/-- The request of a task (`quic_mux.rs:697-703`). -/
def frame (t : QuicStream) : MuxFrame := .fetch t.channelId t.blockIndex t.fromAint none t.busSeq

/-- What the task has received. The stream ends when the handler has returned and all of its bytes
have arrived. -/
def inbound (t : QuicStream) : Inbound where
  bytes := t.conn.outbox.take t.arrived
  closed := t.conn.phase.isReturned && decide (t.conn.outbox.length ≤ t.arrived)

/-- The stream after bytes of the request have arrived. -/
def carried (t : QuicStream) (n : Nat) : QuicStream :=
  let conn := t.conn.arrive (t.toServer.take n)
  let rest := t.toServer.drop n
  { t with toServer := rest, conn := if rest = [] then conn.close else conn }

end QuicStream

/-- The reading part of a task (`quic_mux.rs:709-734`). -/
def readFetched (libs : MuxLibs) (blockIndex : Nat) : Read TaskResult := do
  let resp ← readFrame libs
  match resp with
  | .response r =>
      if r.status = 200 then do
        let (data, computedHash) ← readPayloadStreaming libs r.payloadSize
        if computedHash ≠ r.contentHash then
          return .error (.integrityFailed r.contentHash computedHash)
        return .ok (blockIndex, data, r.contentHash)
      else return .error (.remoteStatus r.status (r.error.getD ""))
  | _ => return .error (.protocol "Unexpected frame")

/-- A read error of a stream, without the wording of the QUIC library. -/
def streamError : Stop → MuxError
  | .invalid message => .io message
  | _ => .io "stream finished early"

/-- What can happen on a stream. -/
inductive StreamMove where
  /-- The task opens the stream, writes its request and finishes its side. -/
  | write
  /-- Bytes of the request arrive at the handler, with the last of them the end of the request. -/
  | carry (n : Nat)
  /-- The handler reads, reaches the store, or writes its answer. -/
  | read
  | access (elapsedUs : UInt64)
  | reply
  /-- Bytes of the answer arrive. -/
  | bring (n : Nat)
  /-- The task reads. While the bytes at hand do not hold a whole response it waits. -/
  | take

/-- The batch in flight, with the store of the server. -/
structure QuicBatch where
  store : BlockStore
  streams : List QuicStream

section Run

variable (libs : ServerLibs) (kernelAint : String)

/-- One move on a stream. -/
def QuicStream.step (store : BlockStore) (t : QuicStream) : StreamMove → QuicStream × BlockStore
  | .write =>
      match t.task with
      | .spawned =>
          ({ t with task := .waiting, toServer := writeFrame libs.toMuxLibs t.frame }, store)
      | _ => (t, store)
  | .carry n =>
      match t.task with
      | .spawned => (t, store)
      | _ => (t.carried n, store)
  | .read => ({ t with conn := t.conn.read libs kernelAint }, store)
  | .access elapsedUs =>
      let (conn, store, _) := t.conn.access elapsedUs store
      ({ t with conn }, store)
  | .reply => ({ t with conn := t.conn.reply libs true }, store)
  | .bring n => ({ t with arrived := min (t.arrived + n) t.conn.outbox.length }, store)
  | .take =>
      match t.task with
      | .waiting =>
          match (readFetched libs.toMuxLibs t.blockIndex).run t.inbound with
          | .ok result _ => ({ t with task := .finished result }, store)
          | .error .pending _ => (t, store)
          | .error stop _ => ({ t with task := .finished (.error (streamError stop)) }, store)
      | _ => (t, store)

/-- One event: a move on stream `k`. -/
def QuicBatch.step (b : QuicBatch) (e : Nat × StreamMove) : QuicBatch :=
  match b.streams[e.1]? with
  | none => b
  | some t =>
      let (t, store) := t.step libs kernelAint b.store e.2
      { store, streams := b.streams.set e.1 t }

/-- The batch after a run of events. -/
def QuicBatch.run (b : QuicBatch) (events : List (Nat × StreamMove)) : QuicBatch :=
  events.foldl (QuicBatch.step libs kernelAint) b

end Run

namespace QuicMuxClient

/-- `ensure_connected` (`quic_mux.rs:501-534`), given what connecting would return. -/
def ensureConnected (q : QuicMuxClient) (connect : Except MuxError Unit) :
    Except MuxError QuicMuxClient :=
  if q.connected then .ok q
  else
    match connect with
    | .ok () => .ok { q with connected := true }
    | .error e => .error e

/-- The tasks of a batch, each with a channel of its own (`quic_mux.rs:684-736`). -/
def spawn (q : QuicMuxClient) : List (Nat × UInt64) → QuicMuxClient × List QuicStream
  | [] => (q, [])
  | (blockIndex, busSeq) :: requests =>
      let t := QuicStream.new q.nextChannel blockIndex q.fromAint busSeq
      let (q, streams) := spawn { q with nextChannel := q.nextChannel + 1 } requests
      (q, t :: streams)

/-- The join (`quic_mux.rs:738-750`): the results in the order of the requests, up to the first
error. There is no result while a task that is waited for has not finished. -/
def collect (q : QuicMuxClient) :
    List TaskPhase → QuicMuxClient × Option (Except MuxError (List (Nat × List UInt8)))
  | [] => (q, some (.ok []))
  | .finished (.ok (blockIndex, data, contentHash)) :: tasks =>
      let q := { q with
        bytesTransferred := q.bytesTransferred + UInt64.ofNat data.length
        hashCache := q.hashCache.markVerified blockIndex contentHash }
      let (q, result) := collect q tasks
      (q, result.map fun r => r.map ((blockIndex, data) :: ·))
  | .finished (.error e) :: _ => (q, some (.error e))
  | _ :: _ => (q, none)

/-- The counters after a batch that succeeded (`quic_mux.rs:752-753`). -/
def countBatch (q : QuicMuxClient) (n : Nat) : QuicMuxClient :=
  { q with
    requestsSent := q.requestsSent + UInt64.ofNat n
    streamsOpened := q.streamsOpened + UInt64.ofNat n }

/-- The tasks of the batch and their streams after a run of events. -/
def inFlight (libs : ServerLibs) (kernelAint : String) (store : BlockStore) (q : QuicMuxClient)
    (requests : List (Nat × UInt64)) (events : List (Nat × StreamMove)) : QuicBatch :=
  QuicBatch.run libs kernelAint ⟨store, (q.spawn requests).2⟩ events

/-- `fetch_batch_parallel` (`quic_mux.rs:674-756`) after a run of events, without the times. -/
def fetchBatchParallel (libs : ServerLibs) (kernelAint : String) (store : BlockStore)
    (q : QuicMuxClient) (connect : Except MuxError Unit) (requests : List (Nat × UInt64))
    (events : List (Nat × StreamMove)) :
    QuicMuxClient × Option (Except MuxError (List (Nat × List UInt8))) :=
  match q.ensureConnected connect with
  | .error e => (q, some (.error e))
  | .ok q =>
      let b := q.inFlight libs kernelAint store requests events
      match (q.spawn requests).1.collect (b.streams.map QuicStream.task) with
      | (q, some (.ok results)) => (q.countBatch requests.length, some (.ok results))
      | (q, result) => (q, result)

end QuicMuxClient

/-! ## One request and its answer -/

/-- What a task should return: the block of the store, or an error if there is none. -/
def Right (m : Contents) (blockIndex : Nat) (result : TaskResult) : Prop :=
  match m blockIndex with
  | some b => result = .ok (blockIndex, b.1, b.2.1)
  | none => ∃ e, result = .error e

/-- Every block has the hash it is recorded with. -/
def Hashed (hex : List UInt8 → String) (m : Contents) : Prop :=
  ∀ i b, m i = some b → hex b.1 = b.2.1

namespace QuicStream

/-- The response of the handler from a store with the given contents, and the payload behind it. -/
def answer (m : Contents) (elapsedUs : UInt64) (t : QuicStream) : MuxResponse × List UInt8 :=
  match m t.blockIndex with
  | some b =>
      (frameOk t.channelId t.blockIndex b.2.1 b.1.length b.2.2
        ("quic_fetch_" ++ s!"{t.blockIndex}_{t.channelId}") elapsedUs, b.1)
  | none =>
      (frameError t.channelId 404 t.blockIndex "" s!"Block {t.blockIndex} not found" elapsedUs, [])

/-- The bytes of the answer. -/
def answerBytes (libs : MuxLibs) (m : Contents) (elapsedUs : UInt64) (t : QuicStream) :
    List UInt8 :=
  writeFrame libs (.response (t.answer m elapsedUs).1) ++ (t.answer m elapsedUs).2

/-- The handler fetches the block and answers with what it finds. -/
def Fetches (t : QuicStream) (task : Task) : Prop :=
  ∀ elapsedUs store, task.perform elapsedUs store =
    ((store.fetch t.blockIndex).2, none,
      some (.frame (t.answer store.content elapsedUs).1 (t.answer store.content elapsedUs).2))

variable {libs : ServerLibs} {kernelAint : String} {m : Contents} {t : QuicStream}

theorem frameTask_fetches (libs : ServerLibs) (kernelAint : String) (t : QuicStream)
    (closed : Bool) :
    ∃ task, (frameTask libs.toMuxLibs (quicFrames kernelAint) t.frame).run ⟨[], closed⟩ =
      .ok task ⟨[], closed⟩ ∧ t.Fetches task := by
  refine ⟨_, rfl, fun elapsedUs store => ?_⟩
  simp only [Task.perform, answer]
  cases hb : store.content t.blockIndex with
  | none => rw [BlockStore.fetch_none hb]
  | some b =>
    obtain ⟨block, hfetch, hdata, hhash, hraw⟩ := BlockStore.fetch_some hb
    simp only [hfetch, ← hdata, ← hhash, ← hraw]
    rfl

theorem readRequest (kernelAint : String) (hreq : Carried libs.toMuxLibs t.frame) (closed : Bool) :
    ∃ task, (Protocol.quic.read libs kernelAint).run ⟨writeFrame libs.toMuxLibs t.frame, closed⟩ =
      .ok (.frame t.frame, task) ⟨[], closed⟩ ∧ t.Fetches task := by
  have hread := readFrame_writeFrame hreq [] closed
  rw [List.append_nil] at hread
  obtain ⟨task, htask, hfetches⟩ := frameTask_fetches libs kernelAint t closed
  refine ⟨task, ?_, hfetches⟩
  show (readFrameRequest libs.toMuxLibs (quicFrames kernelAint)).run _ = _
  rw [readFrameRequest, bind_ok hread, bind_ok htask]
  rfl

/-- The whole answer gives the task the right result. -/
theorem readFetched_answer (hhash : Hashed libs.sha256.hex m) {elapsedUs : UInt64}
    (hresp : Carried libs.toMuxLibs (.response (t.answer m elapsedUs).1)) (closed : Bool) :
    ∃ result, (readFetched libs.toMuxLibs t.blockIndex).run
        ⟨t.answerBytes libs.toMuxLibs m elapsedUs, closed⟩ = .ok result ⟨[], closed⟩ ∧
      Right m t.blockIndex result := by
  have hread := readFrame_writeFrame hresp (t.answer m elapsedUs).2 closed
  unfold readFetched answerBytes Right
  rw [bind_ok hread]
  cases hb : m t.blockIndex with
  | none =>
    simp only [answer, hb]
    exact ⟨_, rfl, _, rfl⟩
  | some b =>
    have hpayload := @readPayloadStreaming_spec libs.toMuxLibs b.1 [] closed
    rw [List.append_nil] at hpayload
    simp only [answer, hb, frameOk, if_true]
    rw [bind_ok hpayload]
    simp only [hhash _ b hb, ne_eq, not_true_eq_false, if_false]
    exact ⟨_, rfl, rfl⟩

theorem steady_readFetched (libs : MuxLibs) (blockIndex : Nat) :
    Steady (readFetched libs blockIndex) := by
  refine .bind steady_readFrame (fun resp => ?_)
  cases resp with
  | response r =>
    simp only
    split
    · refine .bind (steady_readPayloadStreaming _) (fun ⟨data, computedHash⟩ => ?_)
      by_cases hhash : computedHash ≠ r.contentHash
      · simp only [if_pos hhash]
        exact steady_pure _
      · simp only [if_neg hhash]
        exact steady_pure _
    · exact steady_pure _
  | _ => exact steady_pure _

theorem steady_readFrameRequest (libs : MuxLibs) (server : FrameServer) :
    Steady (readFrameRequest libs server) := by
  refine .bind steady_readFrame (fun frame => .bind ?_ (fun task => steady_pure _))
  cases frame with
  | store channelId blockIndex fromAint payloadSize rawSize contentHash ed25519Seal busSeq =>
    refine .bind (steady_readPayloadStreaming _) (fun ⟨data, computed⟩ => ?_)
    by_cases hhash : (computed != contentHash) = true
    · simp only [if_pos hhash]
      exact steady_pure _
    · simp only [if_neg hhash]
      exact steady_pure _
  | _ => exact steady_pure _

/-! ## The invariant of a stream -/

/-- The request is on its way: what has arrived of it, and what has not. -/
def Sends (libs : MuxLibs) (t : QuicStream) : Prop :=
  match t.task with
  | .spawned => t.conn.inbound = ⟨[], false⟩
  | _ => t.conn.inbound.bytes ++ t.toServer = writeFrame libs t.frame ∧
      (t.conn.inbound.closed = true → t.toServer = [])

/-- How far the handler is: it has the request, then the answer of the store after one of the given
elapsed times, and writes nothing else. -/
def Handled (libs : ServerLibs) (latencies : UInt64 → Prop) (m : Contents) (t : QuicStream) :
    Phase → Prop
  | .reading => t.conn.outbox = [] ∧ t.Sends libs.toMuxLibs
  | .ready _ task => t.conn.outbox = [] ∧ t.Fetches task
  | .replying _ answer => t.conn.outbox = [] ∧
      ∃ us, latencies us ∧ answer = .frame (t.answer m us).1 (t.answer m us).2
  | .returned => ∃ us, latencies us ∧ t.conn.outbox = t.answerBytes libs.toMuxLibs m us

/-- The frames of the stream survive the wire, whichever of the elapsed times the answer has. -/
structure Carries (libs : ServerLibs) (latencies : UInt64 → Prop) (m : Contents) (t : QuicStream) :
    Prop where
  request : Carried libs.toMuxLibs t.frame
  response : ∀ us, latencies us → Carried libs.toMuxLibs (.response (t.answer m us).1)

/-- What holds of a stream at every point of a run. -/
structure Sound (libs : ServerLibs) (latencies : UInt64 → Prop) (m : Contents) (t : QuicStream) :
    Prop where
  protocol : t.conn.protocol = .quic
  handled : t.Handled libs latencies m t.conn.phase
  right : ∀ result, t.task = .finished result → Right m t.blockIndex result

variable {latencies : UInt64 → Prop}

theorem sound_new (channelId : UInt32) (blockIndex : Nat) (fromAint : String) (busSeq : UInt64) :
    (new channelId blockIndex fromAint busSeq).Sound libs latencies m :=
  ⟨rfl, ⟨rfl, rfl⟩, fun _ h => (nomatch h)⟩

theorem Sound.at_phase (hs : t.Sound libs latencies m) {phase : Phase}
    (hphase : t.conn.phase = phase) : t.Handled libs latencies m phase :=
  hphase ▸ hs.handled

/-- What happens to the request or the task leaves the handler where it is. -/
theorem Handled.of_same {t' : QuicStream} {phase : Phase} (h : t.Handled libs latencies m phase)
    (hchannel : t'.channelId = t.channelId) (hindex : t'.blockIndex = t.blockIndex)
    (houtbox : t'.conn.outbox = t.conn.outbox)
    (hsends : t.Sends libs.toMuxLibs → t'.Sends libs.toMuxLibs) :
    t'.Handled libs latencies m phase := by
  have hanswer : ∀ m us, t'.answer m us = t.answer m us := by
    intro m us
    simp only [answer, hchannel, hindex]
  cases phase with
  | reading => exact ⟨houtbox.trans h.1, hsends h.2⟩
  | ready request task =>
    refine ⟨houtbox.trans h.1, ?_⟩
    simp only [Fetches, hanswer, hindex]
    exact h.2
  | replying request answer =>
    simp only [Handled, houtbox, hanswer]
    exact h
  | returned =>
    simp only [Handled, houtbox, answerBytes, hanswer]
    exact h

theorem sends_iff {libs : MuxLibs} (h : t.task ≠ .spawned) :
    t.Sends libs ↔ t.conn.inbound.bytes ++ t.toServer = writeFrame libs t.frame ∧
      (t.conn.inbound.closed = true → t.toServer = []) := by
  unfold Sends
  cases htask : t.task with
  | spawned => exact absurd htask h
  | _ => exact Iff.rfl

theorem Sound.write (hs : t.Sound libs latencies m) (store : BlockStore) :
    (t.step libs kernelAint store .write).1.Sound libs latencies m := by
  simp only [step]
  cases htask : t.task with
  | spawned =>
    refine ⟨hs.protocol, hs.handled.of_same rfl rfl rfl fun hsends => ?_, fun _ h => (nomatch h)⟩
    simp only [Sends, htask] at hsends ⊢
    rw [hsends]
    exact ⟨List.nil_append _, fun h => (nomatch h)⟩
  | _ => exact hs

theorem step_carry (h : t.task ≠ .spawned) (store : BlockStore) (n : Nat) :
    (t.step libs kernelAint store (.carry n)).1 = t.carried n := by
  simp only [step]

/-- Bytes that arrive do not move the handler. -/
theorem carried_conn (t : QuicStream) (n : Nat) :
    (t.carried n).conn.protocol = t.conn.protocol ∧ (t.carried n).conn.phase = t.conn.phase ∧
      (t.carried n).conn.outbox = t.conn.outbox := by
  simp only [carried, Conn.arrive, Conn.close]
  split <;> split <;> exact ⟨rfl, rfl, rfl⟩

/-- Bytes of the request arrive. -/
theorem Sound.carry (hs : t.Sound libs latencies m) (store : BlockStore) (n : Nat) :
    (t.step libs kernelAint store (.carry n)).1.Sound libs latencies m := by
  by_cases htask : t.task = .spawned
  · simpa only [step, htask] using hs
  rw [step_carry htask]
  have hsame := t.carried_conn n
  refine ⟨hsame.1.trans hs.protocol, ?_, hs.right⟩
  rw [hsame.2.1]
  refine hs.handled.of_same rfl rfl hsame.2.2 ?_
  intro hsends
  obtain ⟨hbytes, hclosed⟩ := (sends_iff htask).mp hsends
  apply (sends_iff (t := t.carried n) htask).mpr
  show (t.carried n).conn.inbound.bytes ++ t.toServer.drop n = writeFrame libs.toMuxLibs t.frame ∧
    ((t.carried n).conn.inbound.closed = true → t.toServer.drop n = [])
  by_cases hin : t.conn.inbound.closed = true
  · have hnil := hclosed hin
    rw [hnil, List.append_nil] at hbytes
    simp only [carried, Conn.arrive, Conn.close, hin, hnil, List.drop_nil, if_true,
      List.append_nil]
    exact ⟨hbytes, fun _ => trivial⟩
  · have harrived : (t.carried n).conn.inbound.bytes = t.conn.inbound.bytes ++ t.toServer.take n := by
      simp only [carried, Conn.arrive, Conn.close, if_neg hin]
      split <;> rfl
    constructor
    · rw [harrived, List.append_assoc, List.take_append_drop]
      exact hbytes
    · intro hclose
      by_contra hne
      simp only [carried, Conn.arrive, if_neg hin, if_neg hne] at hclose
      exact hin hclose

/-- A handler that reads waits, or it has the request. -/
theorem read_cases (kernelAint : String) (hs : t.Sound libs latencies m)
    (hc : Carried libs.toMuxLibs t.frame) (hphase : t.conn.phase = .reading) :
    (t.conn.read libs kernelAint = t.conn ∧ (t.task = .spawned ∨ t.toServer ≠ [])) ∨
      ∃ request task inbound, t.Fetches task ∧
        t.conn.read libs kernelAint = { t.conn with inbound, phase := .ready request task } := by
  obtain ⟨-, hsends⟩ := hs.at_phase hphase
  unfold Conn.read
  rw [hphase]
  by_cases htask : t.task = .spawned
  · have hinbound := hsends
    simp only [Sends, htask] at hinbound
    have hempty : (t.conn.protocol.read libs kernelAint).run t.conn.inbound =
        .error .pending ⟨[], false⟩ := by
      rw [hs.protocol, hinbound]
      exact bind_error (readFrame_empty false)
    simp only [hempty]
    exact .inl ⟨trivial, .inl htask⟩
  obtain ⟨hbytes, hclosed⟩ := (sends_iff htask).mp hsends
  obtain ⟨task, hread, hfetches⟩ := readRequest kernelAint hc t.conn.inbound.closed
  rw [← hbytes, ← hs.protocol] at hread
  by_cases hnil : t.toServer = []
  · rw [hnil, List.append_nil] at hread
    simp only [hread]
    exact .inr ⟨_, task, _, hfetches, rfl⟩
  · have hopen : t.conn.inbound = ⟨t.conn.inbound.bytes, false⟩ := by
      rw [← Bool.eq_false_of_not_eq_true (mt hclosed hnil)]
    have hsteady : Steady (t.conn.protocol.read libs kernelAint) := by
      rw [hs.protocol]
      exact steady_readFrameRequest libs.toMuxLibs (quicFrames kernelAint)
    rcases hsteady.of_append hread with ⟨s', hpending⟩ | ⟨rest, hok, -⟩
    · rw [← hopen] at hpending
      simp only [hpending]
      exact .inl ⟨trivial, .inr hnil⟩
    · rw [← hopen] at hok
      simp only [hok]
      exact .inr ⟨_, task, _, hfetches, rfl⟩

theorem Sound.read (hs : t.Sound libs latencies m) (hc : Carried libs.toMuxLibs t.frame)
    (store : BlockStore) : (t.step libs kernelAint store .read).1.Sound libs latencies m := by
  simp only [step]
  by_cases hphase : t.conn.phase = .reading
  · rcases read_cases kernelAint hs hc hphase with
      ⟨hread, -⟩ | ⟨request, task, inbound, hfetches, hread⟩
    · rw [hread]
      exact hs
    · rw [hread]
      exact ⟨hs.protocol, ⟨(hs.at_phase hphase).1, hfetches⟩, hs.right⟩
  · have hread : t.conn.read libs kernelAint = t.conn := by
      unfold Conn.read
      split
      · next h => exact absurd h hphase
      · rfl
    rw [hread]
    exact hs

/-- What reaching the store gives a handler that is ready. -/
theorem access_ready (hs : t.Sound libs latencies m) {store : BlockStore} (hstore : store.content = m)
    {request : Request} {task : Task} (hphase : t.conn.phase = .ready request task)
    (elapsedUs : UInt64) :
    t.conn.access elapsedUs store =
      ({ t.conn with
          phase := .replying request (.frame (t.answer m elapsedUs).1 (t.answer m elapsedUs).2) },
        (store.fetch t.blockIndex).2, none) := by
  unfold Conn.access
  rw [hphase]
  simp only [(hs.at_phase hphase).2 elapsedUs store, hstore]

theorem access_idle {c : Conn} (h : ∀ request task, c.phase ≠ .ready request task)
    (elapsedUs : UInt64) (store : BlockStore) : c.access elapsedUs store = (c, store, none) := by
  unfold Conn.access
  cases hphase : c.phase with
  | ready request task => exact absurd hphase (h request task)
  | _ => rfl

/-- The store after a move holds what it held. -/
theorem step_content (hs : t.Sound libs latencies m) {store : BlockStore}
    (hstore : store.content = m) (mv : StreamMove) :
    (t.step libs kernelAint store mv).2.content = m := by
  cases mv with
  | access elapsedUs =>
    simp only [step]
    cases hphase : t.conn.phase with
    | ready request task =>
      rw [access_ready hs hstore hphase, ← hstore]
      exact funext (BlockStore.content_fetch store t.blockIndex)
    | _ =>
      rw [access_idle (by simp [hphase])]
      exact hstore
  | write =>
    simp only [step]
    split <;> exact hstore
  | carry n =>
    simp only [step]
    split <;> exact hstore
  | take =>
    simp only [step]
    split
    · split <;> exact hstore
    · exact hstore
  | _ => exact hstore

theorem Sound.access (hs : t.Sound libs latencies m) {store : BlockStore}
    (hstore : store.content = m) {elapsedUs : UInt64} (hus : latencies elapsedUs) :
    (t.step libs kernelAint store (.access elapsedUs)).1.Sound libs latencies m := by
  simp only [step]
  cases hphase : t.conn.phase with
  | ready request task =>
    rw [access_ready hs hstore hphase]
    exact ⟨hs.protocol, ⟨(hs.at_phase hphase).1, elapsedUs, hus, rfl⟩, hs.right⟩
  | _ =>
    rw [access_idle (by simp [hphase])]
    exact hs

theorem Sound.reply (hs : t.Sound libs latencies m) (store : BlockStore) :
    (t.step libs kernelAint store .reply).1.Sound libs latencies m := by
  simp only [step, Conn.reply]
  cases hphase : t.conn.phase with
  | replying request answer =>
    obtain ⟨houtbox, us, hus, hanswer⟩ := hs.at_phase hphase
    refine ⟨hs.protocol, ?_, hs.right⟩
    simp only [Conn.finish, hs.protocol, Protocol.loops, Handled]
    refine ⟨us, hus, ?_⟩
    simp only [houtbox, hanswer, List.nil_append]
    rfl
  | _ => exact hs

theorem Sound.bring (hs : t.Sound libs latencies m) (store : BlockStore) (n : Nat) :
    (t.step libs kernelAint store (.bring n)).1.Sound libs latencies m :=
  ⟨hs.protocol, hs.handled.of_same rfl rfl rfl id, hs.right⟩

/-- A task that reads waits, or it has the right result. -/
theorem take_cases (hs : t.Sound libs latencies m) (hc : t.Carries libs latencies m)
    (hhash : Hashed libs.sha256.hex m) :
    (∃ s, (readFetched libs.toMuxLibs t.blockIndex).run t.inbound = .error .pending s ∧
      t.inbound.closed = false) ∨
      ∃ result s, (readFetched libs.toMuxLibs t.blockIndex).run t.inbound = .ok result s ∧
        Right m t.blockIndex result := by
  have hnothing : t.conn.outbox = [] → t.conn.phase.isReturned = false →
      ∃ s, (readFetched libs.toMuxLibs t.blockIndex).run t.inbound = .error .pending s ∧
        t.inbound.closed = false := by
    intro houtbox hphase
    simp only [inbound, houtbox, hphase, List.take_nil, Bool.false_and]
    exact ⟨_, bind_error (readFrame_empty false), trivial⟩
  cases hphase : t.conn.phase with
  | returned =>
    obtain ⟨us, hus, houtbox⟩ := hs.at_phase hphase
    obtain ⟨result, hread, hright⟩ := readFetched_answer hhash (hc.response us hus) t.inbound.closed
    rw [← houtbox] at hread
    by_cases hclosed : t.conn.outbox.length ≤ t.arrived
    · have hwhole : t.inbound = ⟨t.conn.outbox, t.inbound.closed⟩ := by
        simp only [inbound, List.take_of_length_le hclosed]
      rw [← hwhole] at hread
      exact .inr ⟨result, _, hread, hright⟩
    · have hopen : t.inbound = ⟨t.conn.outbox.take t.arrived, false⟩ := by
        simp [inbound, hclosed]
      rw [← List.take_append_drop t.arrived t.conn.outbox] at hread
      rcases (steady_readFetched libs.toMuxLibs t.blockIndex).of_append hread with
        ⟨s, hpending⟩ | ⟨rest, hok, -⟩
      · exact .inl ⟨s, by rw [hopen, hpending], by rw [hopen]⟩
      · exact .inr ⟨result, _, by rw [hopen, hok], hright⟩
  | _ =>
    rw [hphase] at hnothing
    exact .inl (hnothing (hs.at_phase hphase).1 rfl)

theorem Sound.take (hs : t.Sound libs latencies m) (hc : t.Carries libs latencies m)
    (hhash : Hashed libs.sha256.hex m) (store : BlockStore) :
    (t.step libs kernelAint store .take).1.Sound libs latencies m := by
  simp only [step]
  cases htask : t.task with
  | waiting =>
    rcases take_cases hs hc hhash with ⟨s, hpending, -⟩ | ⟨result, s, hok, hright⟩
    · simp only [hpending]
      exact hs
    · simp only [hok]
      refine ⟨hs.protocol, hs.handled.of_same rfl rfl rfl fun hsends => ?_, ?_⟩
      · simp only [Sends, htask] at hsends ⊢
        exact hsends
      · intro result' h
        cases h
        exact hright
  | _ => exact hs

/-- No move changes the request of a task. -/
theorem step_frame (store : BlockStore) (mv : StreamMove) :
    (t.step libs kernelAint store mv).1.frame = t.frame := by
  cases mv with
  | write =>
    simp only [step]
    split <;> rfl
  | carry n =>
    simp only [step]
    split <;> rfl
  | take =>
    simp only [step]
    split
    · split <;> rfl
    · rfl
  | _ => rfl

theorem step_blockIndex (store : BlockStore) (mv : StreamMove) :
    (t.step libs kernelAint store mv).1.blockIndex = t.blockIndex := by
  have hframe := @step_frame libs kernelAint t store mv
  simp only [frame, MuxFrame.fetch.injEq] at hframe
  exact hframe.2.1

theorem Carries.step (hc : t.Carries libs latencies m) (store : BlockStore) (mv : StreamMove) :
    (t.step libs kernelAint store mv).1.Carries libs latencies m := by
  have hframe := @step_frame libs kernelAint t store mv
  constructor
  · rw [hframe]
    exact hc.request
  · intro us hus
    simp only [frame, MuxFrame.fetch.injEq] at hframe
    simp only [answer, hframe.1, hframe.2.1]
    exact hc.response us hus

theorem Sound.step (hs : t.Sound libs latencies m) (hc : t.Carries libs latencies m)
    (hhash : Hashed libs.sha256.hex m) {store : BlockStore} (hstore : store.content = m)
    {mv : StreamMove} (hmv : ∀ us, mv = .access us → latencies us) :
    (t.step libs kernelAint store mv).1.Sound libs latencies m := by
  cases mv with
  | write => exact hs.write store
  | carry n => exact hs.carry store n
  | read => exact hs.read hc.request store
  | access us => exact hs.access hstore (hmv us rfl)
  | reply => exact hs.reply store
  | bring n => exact hs.bring store n
  | take => exact hs.take hc hhash store

/-! ## Every task can be brought to its end -/

/-- How many moves a task that waits needs when nothing else is in the way. -/
def awaiting (t : QuicStream) : Nat :=
  match t.conn.phase with
  | .reading => if t.toServer = [] then 5 else 6
  | .ready _ _ => 4
  | .replying _ _ => 3
  | .returned => if t.conn.outbox.length ≤ t.arrived then 1 else 2

/-- How many moves a task needs. -/
def remaining (t : QuicStream) : Nat :=
  match t.task with
  | .spawned => 7
  | .waiting => t.awaiting
  | .finished _ => 0

/-- The next move of a task that waits. -/
def awaited (elapsedUs : UInt64) (t : QuicStream) : StreamMove :=
  match t.conn.phase with
  | .reading => if t.toServer = [] then .read else .carry t.toServer.length
  | .ready _ _ => .access elapsedUs
  | .replying _ _ => .reply
  | .returned => if t.conn.outbox.length ≤ t.arrived then .take else .bring t.conn.outbox.length

/-- The next move of a task. -/
def next (elapsedUs : UInt64) (t : QuicStream) : StreamMove :=
  match t.task with
  | .spawned => .write
  | _ => t.awaited elapsedUs

theorem next_access {elapsedUs us : UInt64} (h : t.next elapsedUs = .access us) : us = elapsedUs := by
  unfold next at h
  split at h
  · cases h
  · unfold awaited at h
    split at h
    · split at h <;> cases h
    · cases h
      rfl
    · cases h
    · split at h <;> cases h

theorem awaiting_bounds (t : QuicStream) : 0 < t.awaiting ∧ t.awaiting ≤ 6 := by
  unfold awaiting
  split
  · split <;> omega
  · omega
  · omega
  · split <;> omega

theorem remaining_eq_zero : t.remaining = 0 ↔ ∃ result, t.task = .finished result := by
  unfold remaining
  have hpos := t.awaiting_bounds.1
  cases t.task with
  | spawned => simp
  | waiting => simp [Nat.ne_of_gt hpos]
  | finished result => simp

/-- The next move of a task that has not finished is a move ahead. -/
theorem step_remaining (hs : t.Sound libs latencies m) (hc : t.Carries libs latencies m)
    (hhash : Hashed libs.sha256.hex m) {store : BlockStore} (hstore : store.content = m)
    (elapsedUs : UInt64) (h : t.remaining ≠ 0) :
    (t.step libs kernelAint store (t.next elapsedUs)).1.remaining < t.remaining := by
  cases htask : t.task with
  | finished result => exact absurd (remaining_eq_zero.mpr ⟨result, htask⟩) h
  | spawned =>
    simp only [next, step, remaining, htask]
    exact Nat.lt_succ_of_le (awaiting_bounds _).2
  | waiting =>
    have hnext : t.next elapsedUs = t.awaited elapsedUs := by simp only [next, htask]
    have hremaining : t.remaining = t.awaiting := by simp only [remaining, htask]
    rw [hnext, hremaining]
    unfold awaited awaiting
    cases hphase : t.conn.phase with
    | reading =>
      by_cases hnil : t.toServer = []
      · rcases read_cases kernelAint hs hc.request hphase with
          ⟨-, hwaits⟩ | ⟨request, task, inbound, -, hread⟩
        · exact (hwaits.elim (by simp [htask]) (· hnil)).elim
        · simp [step, remaining, awaiting, htask, hnil, hread]
      · have hcarried : (t.carried t.toServer.length).conn.phase = .reading :=
          (t.carried_conn _).2.1.trans hphase
        have hrest : (t.carried t.toServer.length).toServer = [] := List.drop_length
        have hsame : (t.carried t.toServer.length).task = .waiting := htask
        have hne : t.task ≠ .spawned := by simp [htask]
        simp [hnil, step_carry hne, remaining, awaiting, hsame, hcarried, hrest]
    | ready request task =>
      simp [step, remaining, awaiting, htask, access_ready hs hstore hphase]
    | replying request answer =>
      have hreply : (t.conn.reply libs true).phase = .returned := by
        simp [Conn.reply, hphase, Conn.finish, hs.protocol, Protocol.loops]
      simp only [step, remaining, awaiting, htask, hreply]
      split <;> omega
    | returned =>
      by_cases harrived : t.conn.outbox.length ≤ t.arrived
      · rcases take_cases hs hc hhash with ⟨s, -, hopen⟩ | ⟨result, s, hok, -⟩
        · simp [inbound, hphase, Phase.isReturned, harrived] at hopen
        · simp [step, remaining, htask, harrived, hok]
      · simp [step, remaining, awaiting, htask, hphase, harrived]

end QuicStream

/-! ## The batch -/

section Batch

variable {libs : ServerLibs} {kernelAint : String} {latencies : UInt64 → Prop} {m : Contents}

/-- The elapsed times of a run are among the given ones. -/
def Timed (latencies : UInt64 → Prop) (events : List (Nat × StreamMove)) : Prop :=
  ∀ e ∈ events, ∀ us, e.2 = .access us → latencies us

/-- What holds of a batch at every point of a run: the store holds what it held, and every task is
still the one for its request and sound. -/
structure QuicBatch.Sound (libs : ServerLibs) (latencies : UInt64 → Prop) (m : Contents)
    (indices : List Nat) (b : QuicBatch) : Prop where
  content : b.store.content = m
  indices : b.streams.map QuicStream.blockIndex = indices
  streams : ∀ t ∈ b.streams, t.Sound libs latencies m ∧ t.Carries libs latencies m

namespace QuicBatch

variable {indices : List Nat} {b : QuicBatch}

theorem step_none {e : Nat × StreamMove} (h : b.streams[e.1]? = none) :
    b.step libs kernelAint e = b := by
  simp only [step, h]

theorem step_some {e : Nat × StreamMove} {t : QuicStream} (h : b.streams[e.1]? = some t) :
    b.step libs kernelAint e =
      ⟨(t.step libs kernelAint b.store e.2).2,
        b.streams.set e.1 (t.step libs kernelAint b.store e.2).1⟩ := by
  simp only [step, h]

theorem Sound.step (hb : b.Sound libs latencies m indices) (hhash : Hashed libs.sha256.hex m)
    {e : Nat × StreamMove} (he : ∀ us, e.2 = .access us → latencies us) :
    (b.step libs kernelAint e).Sound libs latencies m indices := by
  cases ht : b.streams[e.1]? with
  | none =>
    rw [step_none ht]
    exact hb
  | some t =>
    rw [step_some ht]
    obtain ⟨hs, hc⟩ := hb.streams t (List.mem_of_getElem? ht)
    refine ⟨QuicStream.step_content hs hb.content e.2, ?_, ?_⟩
    · obtain ⟨hlt, hget⟩ := List.getElem?_eq_some_iff.mp ht
      rw [List.map_set, QuicStream.step_blockIndex, ← hb.indices, ← hget,
        ← List.getElem_map QuicStream.blockIndex (h := by simpa using hlt), List.set_getElem_self]
    · intro t' ht'
      rcases List.mem_or_eq_of_mem_set ht' with hmem | rfl
      · exact hb.streams t' hmem
      · exact ⟨hs.step hc hhash hb.content he, hc.step b.store e.2⟩

theorem Sound.run (hb : b.Sound libs latencies m indices) (hhash : Hashed libs.sha256.hex m)
    {events : List (Nat × StreamMove)} (he : Timed latencies events) :
    (b.run libs kernelAint events).Sound libs latencies m indices := by
  induction events generalizing b with
  | nil => exact hb
  | cons e events ih =>
    exact ih (hb.step hhash (he e (by simp))) (fun e' he' => he e' (by simp [he']))

/-- How many moves the batch needs. -/
def remaining (b : QuicBatch) : Nat := (b.streams.map QuicStream.remaining).sum

theorem sum_map_set_lt {α : Type} {f : α → Nat} {l : List α} {k : Nat} {a a' : α}
    (hk : l[k]? = some a) (hlt : f a' < f a) : ((l.set k a').map f).sum < (l.map f).sum := by
  induction l generalizing k with
  | nil => cases hk
  | cons b l ih =>
    cases k with
    | zero =>
      cases hk
      simpa using hlt
    | succ k =>
      have := ih hk
      simpa using this

/-- From every point of a run the batch can be brought to its end. -/
theorem Sound.finishes (hb : b.Sound libs latencies m indices) (hhash : Hashed libs.sha256.hex m)
    {elapsedUs : UInt64} (hus : latencies elapsedUs) :
    ∃ more, Timed latencies more ∧
      ∀ t ∈ (b.run libs kernelAint more).streams, ∃ result, t.task = .finished result := by
  induction hn : b.remaining using Nat.strong_induction_on generalizing b with
  | h n ih =>
    subst hn
    by_cases hall : ∀ t ∈ b.streams, t.remaining = 0
    · exact ⟨[], fun e he => (nomatch he), fun t ht =>
        QuicStream.remaining_eq_zero.mp (hall t ht)⟩
    push Not at hall
    obtain ⟨t, hmem, hne⟩ := hall
    obtain ⟨k, ht⟩ := List.getElem?_of_mem hmem
    obtain ⟨hs, hc⟩ := hb.streams t hmem
    have htimed : ∀ us, t.next elapsedUs = .access us → latencies us := by
      intro us h
      rw [QuicStream.next_access h]
      exact hus
    have hless : (b.step libs kernelAint (k, t.next elapsedUs)).remaining < b.remaining := by
      have hmove : (t.step libs kernelAint b.store (t.next elapsedUs)).1.remaining < t.remaining :=
        QuicStream.step_remaining hs hc hhash hb.content elapsedUs hne
      rw [step_some ht]
      exact sum_map_set_lt ht hmove
    obtain ⟨more, hmore, hdone⟩ := ih _ hless (hb.step hhash htimed) rfl
    refine ⟨(k, t.next elapsedUs) :: more, ?_, hdone⟩
    intro e he
    rcases List.mem_cons.mp he with rfl | he
    · exact htimed
    · exact hmore e he

end QuicBatch

/-! ## The join -/

/-- The result of a batch: the requested blocks in the order of the requests if all of them are
there, and an error otherwise. -/
def Answers (m : Contents) (requests : List (Nat × UInt64))
    (result : Except MuxError (List (Nat × List UInt8))) : Prop :=
  if ∀ request ∈ requests, (m request.1).isSome then
    ∃ results, fetched m requests = some results ∧ result = .ok results
  else ∃ e, result = .error e

theorem answers_nil : Answers m [] (.ok []) := by
  rw [Answers, if_pos (by simp)]
  exact ⟨[], rfl, rfl⟩

theorem answers_absent {i : Nat} (h : m i = none) (seq : UInt64) (requests : List (Nat × UInt64))
    (e : MuxError) : Answers m ((i, seq) :: requests) (.error e) := by
  rw [Answers, if_neg (by simp [h])]
  exact ⟨e, rfl⟩

theorem answers_present {i : Nat} {data : List UInt8} (h : (m i).map Prod.fst = some data)
    (seq : UInt64) {requests : List (Nat × UInt64)}
    {result : Except MuxError (List (Nat × List UInt8))} (hrest : Answers m requests result) :
    Answers m ((i, seq) :: requests) (result.map ((i, data) :: ·)) := by
  have hi : (m i).isSome := by
    obtain ⟨b, hb, -⟩ := Option.map_eq_some_iff.mp h
    simp [hb]
  unfold Answers at hrest ⊢
  simp only [List.forall_mem_cons, hi, true_and]
  split at hrest
  · obtain ⟨results, hfetched, rfl⟩ := hrest
    rw [if_pos ‹_›, fetched_cons_some h seq requests, hfetched]
    exact ⟨_, rfl, rfl⟩
  · obtain ⟨e, rfl⟩ := hrest
    rw [if_neg ‹_›]
    exact ⟨e, rfl⟩

namespace QuicMuxClient

/-- Channels do not decide what is fetched. -/
theorem spawn_blockIndex (q : QuicMuxClient) (requests : List (Nat × UInt64)) :
    (q.spawn requests).2.map QuicStream.blockIndex = requests.map Prod.fst := by
  induction requests generalizing q with
  | nil => rfl
  | cons request requests ih => exact congrArg (request.1 :: ·) (ih _)

theorem spawn_sound (libs : ServerLibs) (latencies : UInt64 → Prop) (m : Contents)
    (q : QuicMuxClient) (requests : List (Nat × UInt64)) :
    ∀ t ∈ (q.spawn requests).2, t.Sound libs latencies m := by
  induction requests generalizing q with
  | nil => exact fun t ht => (nomatch ht)
  | cons request requests ih =>
    exact List.forall_mem_cons.mpr ⟨QuicStream.sound_new _ _ _ _, ih _⟩

/-- If the tasks have the right results, so has the join, whenever it has one. -/
theorem collect_answers {streams : List QuicStream}
    (hright : ∀ t ∈ streams, ∀ result, t.task = .finished result → Right m t.blockIndex result)
    {requests : List (Nat × UInt64)}
    (hindex : streams.map QuicStream.blockIndex = requests.map Prod.fst) (q : QuicMuxClient)
    {result : Except MuxError (List (Nat × List UInt8))}
    (h : (q.collect (streams.map QuicStream.task)).2 = some result) : Answers m requests result := by
  induction streams generalizing q requests result with
  | nil =>
    obtain rfl : requests = [] := by simpa using hindex.symm
    cases h
    exact answers_nil
  | cons t streams ih =>
    obtain ⟨⟨i, seq⟩, rest, rfl⟩ : ∃ request rest, requests = request :: rest :=
      List.exists_cons_of_ne_nil (by rintro rfl; simp at hindex)
    obtain ⟨hi, hrest⟩ := List.cons.inj hindex
    have htask := hright t (by simp)
    rw [hi] at htask
    rw [List.map_cons] at h
    cases hphase : t.task with
    | spawned =>
      rw [hphase] at h
      cases h
    | waiting =>
      rw [hphase] at h
      cases h
    | finished own =>
      have hown := htask own hphase
      unfold Right at hown
      rw [hphase] at h
      cases hm : m i with
      | none =>
        rw [hm] at hown
        obtain ⟨e, rfl⟩ := hown
        cases h
        exact answers_absent hm seq rest e
      | some b =>
        rw [hm] at hown
        obtain rfl := hown
        obtain ⟨later, hlater, rfl⟩ := Option.map_eq_some_iff.mp h
        exact answers_present (by simp [hm]) seq
          (ih (fun t' ht' => hright t' (by simp [ht'])) hrest _ hlater)

/-- The join does not wait for tasks that have finished. -/
theorem collect_finished {streams : List QuicStream}
    (hdone : ∀ t ∈ streams, ∃ result, t.task = .finished result) (q : QuicMuxClient) :
    ∃ result, (q.collect (streams.map QuicStream.task)).2 = some result := by
  induction streams generalizing q with
  | nil => exact ⟨_, rfl⟩
  | cons t streams ih =>
    obtain ⟨own, hown⟩ := hdone t (by simp)
    rw [List.map_cons, hown]
    cases own with
    | error e => exact ⟨_, rfl⟩
    | ok block =>
      obtain ⟨result, hresult⟩ := ih (fun t' ht' => hdone t' (by simp [ht'])) _
      exact ⟨_, congrArg (Option.map _) hresult⟩

/-- Being connected does not change the tasks. -/
theorem spawn_connected (q : QuicMuxClient) (connected : Bool) (requests : List (Nat × UInt64)) :
    (({ q with connected } : QuicMuxClient).spawn requests).2 = (q.spawn requests).2 := by
  induction requests generalizing q with
  | nil => rfl
  | cons request requests ih =>
    exact congrArg (QuicStream.new q.nextChannel request.1 q.fromAint request.2 :: ·)
      (ih { q with nextChannel := q.nextChannel + 1 })

/-- A client that is connected or can connect returns what the join returns. -/
theorem fetchBatchParallel_result {q : QuicMuxClient} {connect : Except MuxError Unit}
    (hconnect : q.connected = true ∨ connect = .ok ()) (libs : ServerLibs) (kernelAint : String)
    (store : BlockStore) (requests : List (Nat × UInt64)) (events : List (Nat × StreamMove)) :
    ∃ q', (fetchBatchParallel libs kernelAint store q connect requests events).2 =
      (collect q' ((QuicBatch.run libs kernelAint ⟨store, (q.spawn requests).2⟩ events).streams.map
        QuicStream.task)).2 := by
  have hok : ∃ connected, q.ensureConnected connect = .ok { q with connected } := by
    unfold ensureConnected
    by_cases hq : q.connected = true
    · exact ⟨q.connected, by rw [if_pos hq]⟩
    · rw [if_neg hq, hconnect.resolve_left hq]
      exact ⟨true, rfl⟩
  obtain ⟨connected, hok⟩ := hok
  refine ⟨(({ q with connected } : QuicMuxClient).spawn requests).1, ?_⟩
  unfold fetchBatchParallel
  simp only [hok, inFlight, spawn_connected]
  cases (({ q with connected } : QuicMuxClient).spawn requests).1.collect _ with
  | mk q' result =>
    rcases result with _ | e | results <;> rfl

/-- Whenever `fetch_batch_parallel` has returned, its result answers the requests, and from every
point of a run it can still return. -/
theorem fetchBatchParallel_answers {libs : ServerLibs} {latencies : UInt64 → Prop}
    (hlatencies : ∃ us, latencies us) (hhash : Hashed libs.sha256.hex m) {store : BlockStore}
    (hstore : store.content = m) {q : QuicMuxClient} {connect : Except MuxError Unit}
    (hconnect : q.connected = true ∨ connect = .ok ()) {requests : List (Nat × UInt64)}
    (hcarries : ∀ t ∈ (q.spawn requests).2, t.Carries libs latencies m) (kernelAint : String)
    {events : List (Nat × StreamMove)} (hevents : Timed latencies events) :
    (∀ result, (q.fetchBatchParallel libs kernelAint store connect requests events).2 = some result →
      Answers m requests result) ∧
    ∃ more, Timed latencies (events ++ more) ∧ ∃ result,
      (q.fetchBatchParallel libs kernelAint store connect requests (events ++ more)).2 =
        some result := by
  obtain ⟨us, hus⟩ := hlatencies
  have hstart : (QuicBatch.mk store (q.spawn requests).2).Sound libs latencies m
      (requests.map Prod.fst) :=
    ⟨hstore, q.spawn_blockIndex requests,
      fun t ht => ⟨q.spawn_sound libs latencies m requests t ht, hcarries t ht⟩⟩
  have hsound : (QuicBatch.run libs kernelAint _ events).Sound libs latencies m _ :=
    hstart.run hhash hevents
  constructor
  · intro result h
    obtain ⟨q', hq'⟩ := fetchBatchParallel_result hconnect libs kernelAint store requests events
    rw [hq'] at h
    exact collect_answers (fun t ht => (hsound.streams t ht).1.right) hsound.indices q' h
  · obtain ⟨more, hmore, hdone⟩ := @QuicBatch.Sound.finishes libs kernelAint _ _ _ _ hsound hhash _ hus
    refine ⟨more, List.forall_mem_append.mpr ⟨hevents, hmore⟩, ?_⟩
    obtain ⟨q', hq'⟩ :=
      fetchBatchParallel_result hconnect libs kernelAint store requests (events ++ more)
    rw [hq', QuicBatch.run, List.foldl_append]
    exact collect_finished hdone q'

end QuicMuxClient

end Batch

end Spaceshuttle.Cluster
