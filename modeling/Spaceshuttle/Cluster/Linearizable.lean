import Spaceshuttle.Lib.Limits
import Spaceshuttle.Cluster.QuicCalls
import Spaceshuttle.Cluster.TransportCalls

/-!
# The shared store is linearizable

Clients call the servers over QUIC and over the transport, any number at a time, and all handlers
reach one block store (`cluster_transport.rs:205-211`, `quic_mux.rs:312-340`). What they get is what
they would get from the map of the blocks if they had called it one after the other.
-/

namespace Spaceshuttle.Cluster

open ByteStream Exchange

/-- A call that has a stream or a connection of its own. -/
inductive BlockCall where
  | quic (q : QuicCall)
  | transport (c : TransportCall)
  deriving DecidableEq, Repr

/-- The calls as a service: the readers and the tasks of the two servers, and the readers of the two
clients. A client of the transport keeps nothing between calls. -/
def blockService (libs : TransportLibs) (kernelAint : String) :
    Service BlockCall BlockStore ((QuicMuxClient × CallResult) ⊕ TransportResult) where
  Listener := Protocol
  Task := Request × Task
  Clock := UInt64
  Local := QuicMuxClient
  listener
    | .quic _ => .quic
    | .transport _ => .transport
  finishes protocol := protocol == .quic
  request
    | .quic q => q.bytes libs.toMuxLibs
    | .transport c => c.bytes libs
  serve protocol := protocol.read libs.toServerLibs kernelAint
  perform elapsedUs task store :=
    let (store, _, answer) := task.2.perform elapsedUs store
    (store, answer.elim [] (Answer.bytes libs.toServerLibs))
  receive
    | .quic q, client => Sum.inl <$> client.readResult libs.toMuxLibs q.call
    | .transport c, _ => Sum.inr <$> c.readResult libs

/-- A result without the state of the client and without the clock. -/
def seenResult : (QuicMuxClient × CallResult) ⊕ TransportResult → CallResult ⊕ TransportResult :=
  Sum.map Prod.snd TransportResult.timeless

/-! ## The map of the blocks as an object -/

/-- The block that a call brings. -/
def BlockCall.brings : BlockCall → Option StoreCall
  | .quic ⟨_, fromAint, .storeBlock blockIndex data contentHash ed25519Seal rawSize busSeq⟩ =>
      some { blockIndex, data, contentHash, ed25519Seal, rawSize, fromAint, busSeq }
  | .quic _ => none
  | .transport ⟨fromAint, .storeBlock blockIndex data contentHash ed25519Seal rawSize busSeq⟩ =>
      some
        { blockIndex
          data
          contentHash := padZeros 64 contentHash
          ed25519Seal := padZeros 128 ed25519Seal
          rawSize := rawSize % 2 ^ 32
          fromAint
          busSeq }
  | .transport _ => none

/-- A call over QUIC on the map. -/
def QuicCall.apply (hex : List UInt8 → String) (m : Blocks) (q : QuicCall) : Blocks × CallResult :=
  (match (BlockCall.quic q).brings with
    | some b => if hex b.data = b.contentHash then Function.update m b.blockIndex (some b) else m
    | none => m,
   (q.call.apply hex m.contents).2)

/-- A call on the map. -/
def BlockCall.apply (hex : List UInt8 → String) (m : Blocks) :
    BlockCall → Blocks × (CallResult ⊕ TransportResult)
  | .quic q => ((q.apply hex m).1, .inl (q.apply hex m).2)
  | .transport c => ((c.apply hex m).1, .inr (c.apply hex m).2)

/-- Every block stands under its index, has the right hash and was brought by one of the calls. -/
def Brought (hex : List UInt8 → String) (calls : BlockCall → Prop) (m : Blocks) : Prop :=
  ∀ i b, m i = some b →
    b.blockIndex = i ∧ hex b.data = b.contentHash ∧ ∃ c, calls c ∧ c.brings = some b

/-- A call leaves the map as it is, or puts in the block that it brings. -/
theorem BlockCall.apply_fst (hex : List UInt8 → String) (m : Blocks) (c : BlockCall) :
    (c.apply hex m).1 = m ∨ ∃ b, c.brings = some b ∧ hex b.data = b.contentHash ∧
      (c.apply hex m).1 = Function.update m b.blockIndex (some b) := by
  cases c with
  | quic q =>
    simp only [apply, QuicCall.apply]
    cases hb : (BlockCall.quic q).brings with
    | none => exact .inl rfl
    | some b =>
      by_cases hhash : hex b.data = b.contentHash
      · exact .inr ⟨b, rfl, hhash, if_pos hhash⟩
      · exact .inl (if_neg hhash)
  | transport c =>
    obtain ⟨aint, op⟩ := c
    cases op with
    | ping => exact .inl rfl
    | fetchBlock i forkTokenId busSeq expected =>
      refine .inl ?_
      simp only [apply, TransportCall.apply]
      split
      · rfl
      · split <;> rfl
    | storeBlock i data contentHash edSeal rawSize busSeq =>
      simp only [apply, TransportCall.apply]
      by_cases hlarge : data.length > maxPayload
      · exact .inl (by rw [if_pos hlarge])
      · rw [if_neg hlarge]
        by_cases hhash : hex data = padZeros 64 contentHash
        · exact .inr ⟨_, rfl, hhash, by rw [if_pos hhash]⟩
        · exact .inl (by rw [if_neg hhash])

theorem Brought.apply {hex : List UInt8 → String} {calls : BlockCall → Prop} {m : Blocks}
    (h : Brought hex calls m) {c : BlockCall} (hc : calls c) :
    Brought hex calls (c.apply hex m).1 := by
  rcases c.apply_fst hex m with hsame | ⟨b, hb, hhash, hupdate⟩
  · rw [hsame]
    exact h
  · rw [hupdate]
    intro i b' hb'
    rw [Function.update_apply] at hb'
    split at hb'
    · next hi =>
      cases hb'
      exact ⟨hi.symm, hhash, c, hc, hb⟩
    · exact h i b' hb'

/-- The block that a call asks for, whatever its hash. -/
def BlockCall.fetches : BlockCall → Option Nat
  | .quic ⟨_, _, .fetchBlock blockIndex none _⟩ => some blockIndex
  | .transport ⟨_, .fetchBlock blockIndex _ _ none⟩ => some blockIndex
  | _ => none

/-- The bytes that a call has fetched. -/
def fetchedData : CallResult ⊕ TransportResult → Option (List UInt8)
  | .inl (.fetched data) => some data
  | .inr (.fetched data _) => some data
  | _ => none

/-- The call has stored its block. -/
def isStored : CallResult ⊕ TransportResult → Bool
  | .inl .stored => true
  | .inr (.stored _) => true
  | _ => false

section Object

variable {hex : List UInt8 → String} {m : Blocks} {c : BlockCall} {b : StoreCall}

/-- A call that has stored its block has put it into the map. -/
theorem BlockCall.apply_stored (hb : c.brings = some b) (h : isStored (c.apply hex m).2 = true) :
    (c.apply hex m).1 b.blockIndex = some b := by
  cases c with
  | quic q =>
    obtain ⟨channelId, aint, call⟩ := q
    cases call with
    | storeBlock i data hash edSeal rawSize seq =>
      cases hb
      simp only [apply, QuicCall.apply, Call.apply, brings] at h ⊢
      by_cases hhash : hex data = hash
      · rw [if_pos hhash]
        exact Function.update_self _ _ _
      · rw [if_neg hhash] at h
        cases h
    | _ => cases hb
  | transport c =>
    obtain ⟨aint, op⟩ := c
    cases op with
    | storeBlock i data contentHash edSeal rawSize busSeq =>
      cases hb
      simp only [apply, TransportCall.apply] at h ⊢
      by_cases hlarge : data.length > maxPayload
      · rw [if_pos hlarge] at h
        cases h
      · rw [if_neg hlarge] at h ⊢
        by_cases hhash : hex data = padZeros 64 contentHash
        · rw [if_pos hhash]
          exact Function.update_self _ _ _
        · rw [if_neg hhash] at h
          cases h
    | _ => cases hb

/-- A call that brings no block for an index leaves what stands there. -/
theorem BlockCall.apply_other {i : Nat} (h : ∀ b, c.brings = some b → b.blockIndex ≠ i) :
    (c.apply hex m).1 i = m i := by
  rcases c.apply_fst hex m with hsame | ⟨b, hb, -, hupdate⟩
  · rw [hsame]
  · rw [hupdate, Function.update_of_ne (h b hb).symm]

/-- A fetch returns the block that stands in the map. -/
theorem BlockCall.apply_fetches {i : Nat} (hc : c.fetches = some i) (hb : m i = some b) :
    fetchedData (c.apply hex m).2 = some b.data := by
  cases c with
  | quic q =>
    obtain ⟨channelId, aint, call⟩ := q
    cases call with
    | fetchBlock j expected seq =>
      cases expected with
      | none =>
        cases hc
        simp [apply, QuicCall.apply, Call.apply, Blocks.contents, hb, fetchedData]
      | some hash => cases hc
    | _ => cases hc
  | transport c =>
    obtain ⟨aint, op⟩ := c
    cases op with
    | fetchBlock j forkTokenId busSeq expected =>
      cases expected with
      | none =>
        cases hc
        simp [apply, TransportCall.apply, hb, fetchedData]
      | some hash => cases hc
    | _ => cases hc

end Object

/-! ## A call alone -/

section Service

variable {libs : TransportLibs} {kernelAint : String} {calls : BlockCall → Prop}
variable {latencies : UInt64 → Prop}

/-- Whatever the calls and the answers to them put on the wire survives it, whichever of the elapsed
times an answer has. -/
structure OnWire (libs : TransportLibs) (kernelAint : String) (calls : BlockCall → Prop)
    (latencies : UInt64 → Prop) : Prop where
  frame : ∀ q, calls (.quic q) → Carried libs.toMuxLibs q.frame
  response : ∀ q us store, calls (.quic q) → latencies us →
    Brought libs.sha256.hex calls store.held →
    Carried libs.toMuxLibs
      (.response ((quicFrames kernelAint).answer libs.toMuxLibs us store q).2.1)
  request : ∀ c, calls (.transport c) → c.Sendable libs
  header : ∀ c us store, calls (.transport c) → latencies us →
    Brought libs.sha256.hex calls store.held →
    TransportCall.Returned libs (c.answer libs kernelAint us store).2.1

theorem hashed_of_brought {hex : List UInt8 → String} {store : BlockStore}
    (h : Brought hex calls store.held) : Hashed hex store.content := by
  intro i b hb
  rw [← store.contents_held] at hb
  obtain ⟨c, hc, rfl⟩ := Option.map_eq_some_iff.mp hb
  exact (h i c hc).2.1

/-- The store after the answer to a call over QUIC is the map after the call. -/
theorem FrameServer.answer_held (server : FrameServer) (libs : MuxLibs) (elapsedUs : UInt64)
    (store : BlockStore) (q : QuicCall) :
    (server.answer libs elapsedUs store q).1.held = (q.apply libs.sha256.hex store.held).1 := by
  obtain ⟨channelId, aint, call⟩ := q
  cases call with
  | ping => rfl
  | fetchBlock i expected seq => exact funext (store.held_fetch i)
  | storeBlock i data hash edSeal rawSize seq =>
    simp only [answer, QuicCall.apply, BlockCall.brings]
    split
    · funext j
      rw [Function.update_apply]
      exact store.held_accept ⟨i, data, hash, edSeal, rawSize, aint, seq⟩ j
    · rfl

theorem perform_answer {request : Request} {task : Task} {us : UInt64} {store store' : BlockStore}
    {call : Option StoreCall} {answer : Answer}
    (h : task.perform us store = (store', call, some answer)) :
    (blockService libs kernelAint).perform us (request, task) store =
      (store', answer.bytes libs.toServerLibs) := by
  simp only [blockService, h]
  rfl

theorem receive_quic {q : QuicCall} {client client' : QuicMuxClient} {result : CallResult}
    {s rest : Inbound}
    (h : (client.readResult libs.toMuxLibs q.call).run s = .ok (client', result) rest) :
    ((blockService libs kernelAint).receive (.quic q) client).run s =
      .ok (.inl (client', result)) rest := by
  show (Sum.inl <$> client.readResult libs.toMuxLibs q.call).run s = _
  rw [map_eq_pure_bind, bind_ok h]
  rfl

theorem receive_transport {c : TransportCall} {result : TransportResult} {s rest : Inbound}
    (h : (c.readResult libs).run s = .ok result rest) (client : QuicMuxClient) :
    ((blockService libs kernelAint).receive (.transport c) client).run s =
      .ok (.inr result) rest := by
  show (Sum.inr <$> c.readResult libs).run s = _
  rw [map_eq_pure_bind, bind_ok h]
  rfl

theorem does_quic (hwire : OnWire libs kernelAint calls latencies) {q : QuicCall}
    (hq : calls (.quic q)) {task : Task}
    (htask : ∀ elapsedUs store, ∃ call, task.perform elapsedUs store =
      (((quicFrames kernelAint).answer libs.toMuxLibs elapsedUs store q).1, call,
        some (.frame ((quicFrames kernelAint).answer libs.toMuxLibs elapsedUs store q).2.1
          ((quicFrames kernelAint).answer libs.toMuxLibs elapsedUs store q).2.2))) :
    Does (blockService libs kernelAint) latencies
      (fun store => Brought libs.sha256.hex calls store.held) BlockStore.held seenResult
      (BlockCall.apply libs.sha256.hex) (.quic q) (.frame q.frame, task) := by
  intro (us : UInt64) store hus hstore
  obtain ⟨call, hperform⟩ := htask us store
  have hheld := (quicFrames kernelAint).answer_held libs.toMuxLibs us store q
  rw [perform_answer hperform]
  refine ⟨?_, hheld, fun client closed => ?_⟩
  · show Brought _ _ ((quicFrames kernelAint).answer libs.toMuxLibs us store q).1.held
    rw [hheld]
    exact hstore.apply hq
  · obtain ⟨client', rest, hread⟩ := QuicMuxClient.readResult_answer (hashed_of_brought hstore)
      (hwire.response q us store hq hus hstore) client closed
    refine ⟨_, rest, receive_quic hread, ?_⟩
    simp only [seenResult, Sum.map_inl, BlockCall.apply, QuicCall.apply, store.contents_held]

theorem does_transport (hwire : OnWire libs kernelAint calls latencies) {c : TransportCall}
    (hc : calls (.transport c)) {task : Task} (htask : c.Answers libs kernelAint task) :
    Does (blockService libs kernelAint) latencies
      (fun store => Brought libs.sha256.hex calls store.held) BlockStore.held seenResult
      (BlockCall.apply libs.sha256.hex) (.transport c) (.block c.request, task) := by
  intro (us : UInt64) store hus hstore
  obtain ⟨call, hperform⟩ := htask us store
  have hheld := @TransportCall.answer_held libs kernelAint us store c
  rw [perform_answer hperform]
  refine ⟨?_, hheld, fun client closed => ?_⟩
  · show Brought _ _ (c.answer libs kernelAint us store).1.held
    rw [hheld]
    exact hstore.apply hc
  · obtain ⟨result, rest, hread, hresult⟩ := TransportCall.readResult_answer
      (fun i b hb => (hstore i b hb).2.1) (hwire.header c us store hc hus hstore) closed
    exact ⟨_, rest, receive_transport hread client, congrArg Sum.inr hresult⟩

/-- A call alone does to the store what it does to the map. -/
theorem blockService_implements (hwire : OnWire libs kernelAint calls latencies) :
    Implements (blockService libs kernelAint) calls latencies
      (fun store => Brought libs.sha256.hex calls store.held) BlockStore.held seenResult
      (BlockCall.apply libs.sha256.hex) where
  serve_steady := by
    intro protocol
    cases protocol with
    | transport => exact TransportCall.steady_readBlockRequest _ _
    | mux => exact QuicStream.steady_readFrameRequest _ _
    | quic => exact QuicStream.steady_readFrameRequest _ _
  receive_steady := by
    intro c client
    cases c with
    | quic q =>
      show Steady (Sum.inl <$> client.readResult libs.toMuxLibs q.call)
      rw [map_eq_pure_bind]
      exact .bind (client.steady_readResult q.call) (fun _ => steady_pure _)
    | transport c =>
      show Steady (Sum.inr <$> c.readResult libs)
      rw [map_eq_pure_bind]
      exact .bind (c.steady_readResult libs) (fun _ => steady_pure _)
  receive_waits := by
    intro c client closed r rest h
    cases c with
    | quic q =>
      change (Sum.inl <$> client.readResult libs.toMuxLibs q.call).run _ = _ at h
      rw [map_eq_pure_bind, bind_error (client.readResult_empty q.call closed)] at h
      cases h
    | transport c =>
      change (Sum.inr <$> c.readResult libs).run _ = _ at h
      rw [map_eq_pure_bind, bind_error (c.readResult_empty libs closed)] at h
      cases h
  serves := by
    intro c hc closed
    cases c with
    | quic q =>
      obtain ⟨task, hread, htask⟩ :=
        @frameTask_call libs.toMuxLibs (quicFrames kernelAint) q closed
      refine ⟨(.frame q.frame, task), ⟨[], closed⟩, ?_, does_quic hwire hc htask⟩
      show (readFrameRequest libs.toMuxLibs (quicFrames kernelAint)).run ⟨_ ++ _, closed⟩ = _
      rw [readFrameRequest, bind_ok (readFrame_writeFrame (hwire.frame q hc) _ closed), bind_ok hread]
      rfl
    | transport c =>
      obtain ⟨task, rest, hread, htask⟩ :=
        @TransportCall.readBlockRequest_call libs kernelAint c (hwire.request c hc) closed
      exact ⟨(.block c.request, task), rest, hread, does_transport hwire hc htask⟩

theorem brought_new (hex : List UInt8 → String) : Brought hex calls BlockStore.new.held := by
  intro i b hb
  rw [BlockStore.held_new] at hb
  cases hb

/-- Any number of clients call the kernel over QUIC and over the transport, in any interleaving, with
bytes arriving in any pieces and callers and handlers lost at any point. The accesses of the store
explain the run: they are calls of the map one after the other, in which every result is the one the
map gives, and a call that was over comes before one that was made later. -/
theorem blocks_linearizable (hwire : OnWire libs kernelAint calls latencies)
    {events : List (Exchange.Event (blockService libs kernelAint))}
    (hevents : Conforms (blockService libs kernelAint) calls latencies events) :
    Linearizes (blockService libs kernelAint) BlockStore.held seenResult
      (BlockCall.apply libs.sha256.hex) (.new .new) events (accesses (.new .new) events) :=
  (blockService_implements hwire).linearizes (brought_new _) hevents

/-- No server reads a request off an empty stream. -/
theorem blockService_serve_empty (protocol : Protocol) (closed : Bool) (task : Request × Task)
    (rest : Inbound) :
    ((blockService libs kernelAint).serve protocol).run ⟨[], closed⟩ ≠ .ok task rest := by
  intro h
  cases protocol with
  | transport =>
    have herror : (readBlockRequest libs.toServerLibs kernelAint).run ⟨[], closed⟩ = _ :=
      bind_error (readPrefixed_empty _ _ closed)
    cases herror.symm.trans h
  | mux =>
    have herror : (readFrameRequest libs.toMuxLibs (muxFrames kernelAint)).run ⟨[], closed⟩ = _ :=
      bind_error (readFrame_empty closed)
    cases herror.symm.trans h
  | quic =>
    have herror : (readFrameRequest libs.toMuxLibs (quicFrames kernelAint)).run ⟨[], closed⟩ = _ :=
      bind_error (readFrame_empty closed)
    cases herror.symm.trans h

/-- What a QUIC connection to the kernel allows (`quic_mux.rs:66-73`): 256 streams at a time; 16 MiB of
requests that its handlers have not read, 4 MiB of them on one stream; and 16 MiB of answers on their
way. The client leaves the window of one stream at the default of its library. -/
def quicLimits (clientWindow : Nat) : Limits where
  inAll
    | .calls => 256
    | .requests => 16 * 1024 * 1024
    | .answers => 16 * 1024 * 1024
  each
    | .calls => 1
    | .requests => 4 * 1024 * 1024
    | .answers => clientWindow

/-- Once a call has stored a block, every call made later that fetches it gets its bytes, whichever
clients and protocols the two calls are of, if no other call of the run brings a block for the same
index. -/
theorem blocks_read_back (hwire : OnWire libs kernelAint calls latencies)
    {before later : List (Exchange.Event (blockService libs kernelAint))}
    (hevents : Conforms (blockService libs kernelAint) calls latencies (before ++ later)) {i k : Nat}
    {c c' : BlockCall} {b : StoreCall} {r r' : (QuicMuxClient × CallResult) ⊕ TransportResult}
    (hc : (after (.new .new) (before ++ later)).streams[i]?.map Stream.op = some c)
    (hb : c.brings = some b) (hr : (after (.new .new) before).result i = some r)
    (hstored : isStored (seenResult r) = true)
    (honly : ∀ j d b', j ≠ i →
      (after (.new .new) (before ++ later)).streams[j]?.map Stream.op = some d → d.brings = some b' →
      b'.blockIndex ≠ b.blockIndex)
    (hk : (after (.new .new) before).streams.length ≤ k)
    (hc' : (after (.new .new) (before ++ later)).streams[k]?.map Stream.op = some c')
    (hfetch : c'.fetches = some b.blockIndex)
    (hr' : (after (.new .new) (before ++ later)).result k = some r') :
    fetchedData (seenResult r') = some b.data := by
  have hlin := blocks_linearizable hwire hevents
  obtain ⟨op, op', first, between, last, horder, hfirst, hlast⟩ := hlin.over hr hk hr'
  have hcalled := hlin.called
  have honce := hlin.once
  rw [horder] at hcalled honce
  obtain rfl : op = c := by
    have hi := hcalled (i, op) (by simp)
    rw [hc] at hi
    exact (Option.some.inj hi).symm
  obtain rfl : op' = c' := by
    have hk' := hcalled (k, op') (by simp)
    rw [hc'] at hk'
    exact (Option.some.inj hk').symm
  rw [hfirst] at hstored
  rw [hlast, Machine.run_append]
  refine BlockCall.apply_fetches hfetch ?_
  simp only [List.map_append, List.map_cons, List.append_assoc] at honce
  have hnodup := (List.nodup_append.mp honce).2.1
  -- The block is in the map right after the call that brought it, and stays there.
  have hkept : ∀ (m : Blocks) (d : Nat × BlockCall), d ∈ between → m b.blockIndex = some b →
      (d.2.apply libs.sha256.hex m).1 b.blockIndex = some b := by
    intro m d hd hm
    refine (BlockCall.apply_other fun b' hb' => ?_).trans hm
    refine honly d.1 d.2 b' ?_ (hcalled d (by simp [hd])) hb'
    rintro rfl
    exact (List.nodup_cons.mp hnodup).1 (List.mem_append_left _ (List.mem_map_of_mem hd))
  exact Machine.run_invariant hkept (BlockCall.apply_stored hb hstored) (fun _ h => h)

end Service

/-! ## A store over QUIC and a fetch over the transport -/

namespace Demo

def quicStore : QuicCall := ⟨1, "root_idd.aint", .storeBlock 3 hello helloHash "seal" 5 1⟩
def transportFetch : TransportCall := ⟨"p520.aint", .fetchBlock 3 "fork_3" 5 none⟩

/-- The block that the store brings. -/
def storedHello : StoreCall := ⟨3, hello, helloHash, "seal", 5, "root_idd.aint", 1⟩

def oneOfTwo (c : BlockCall) : Prop := c = .quic quicStore ∨ c = .transport transportFetch

def after40 (us : UInt64) : Prop := us = 40

/-- The frames of the store and their JSON. -/
def quicStoreFrames : List (MuxFrame × List UInt8) :=
  [olderFrame,
   (.response ⟨1, 200, 3, helloHash, 5, 5, 40, "quic_store_3_1", none⟩,
    dump 245
      [0x7b2274797065223a22526573706f6e7365222c226368616e6e656c5f6964223a,
       0x312c22737461747573223a3230302c22626c6f636b5f696e646578223a332c22,
       0x636f6e74656e745f68617368223a223263663234646261356662306133306532,
       0x3665383362326163356239653239653162313631653563316661373432356537,
       0x333034333336323933386239383234222c227061796c6f61645f73697a65223a,
       0x352c227261775f73697a65223a352c227365727665725f6c6174656e63795f75,
       0x73223a34302c2274696265745f746f6b656e5f6964223a22717569635f73746f,
       0x72655f335f31222c226572726f72223a6e756c6c7d])]

/-- The JSON of the header of the fetch. -/
def fetchHeader : List UInt8 :=
  dump 125
    [0x7b22696e74656e74223a2272616d5f726169643a6665746368222c2266726f6d,
     0x5f61696e74223a22703532302e61696e74222c22626c6f636b5f696e64657822,
     0x3a332c22666f726b5f746f6b656e5f6964223a22666f726b5f33222c22627573,
     0x5f736571223a352c2265787065637465645f68617368223a6e756c6c7d]

/-- The JSON of the response when there is no block, and of the response with the block. -/
def missingHeader : List UInt8 :=
  dump 216
    [0x7b22696e74656e74223a2272616d5f726169643a6665746368222c2273746174,
     0x7573223a3430342c22626c6f636b5f696e646578223a332c22636f6e74656e74,
     0x5f68617368223a22222c22656432353531395f7365616c223a22222c22706179,
     0x6c6f61645f73697a65223a302c227261775f73697a65223a302c22636f6d7072,
     0x657373696f6e5f726174696f223a302e302c2274696265745f746f6b656e5f69,
     0x64223a22222c227365727665725f6c6174656e63795f7573223a302c22657272,
     0x6f72223a22426c6f636b2033206e6f7420666f756e64227d]

def foundHeader : List UInt8 :=
  dump 287
    [0x7b22696e74656e74223a2272616d5f726169643a6665746368222c2273746174,
     0x7573223a3230302c22626c6f636b5f696e646578223a332c22636f6e74656e74,
     0x5f68617368223a22326366323464626135666230613330653236653833623261,
     0x6335623965323965316231363165356331666137343235653733303433333632,
     0x3933386239383234222c22656432353531395f7365616c223a227365616c222c,
     0x227061796c6f61645f73697a65223a352c227261775f73697a65223a352c2263,
     0x6f6d7072657373696f6e5f726174696f223a312e302c2274696265745f746f6b,
     0x656e5f6964223a22636c75737465725f66657463685f335f35222c2273657276,
     0x65725f6c6174656e63795f7573223a34302c226572726f72223a6e756c6c7d]

/-- `serde_json` on these frames and headers. -/
def blockLibs : TransportLibs where
  json := json quicStoreFrames
  sha256 := sha256
  requestFromSlice := fun bytes =>
    if bytes = fetchHeader then .ok transportFetch.request
    else .error "expected value at line 1 column 1"
  requestToVec := fun request => if request = transportFetch.request then fetchHeader else []
  responseToVec := fun response => if response.status = 200 then foundHeader else missingHeader
  responseFromSlice := fun bytes =>
    if bytes = foundHeader then
      .ok (TransportCall.foundResponse transportFetch.request storedHello 40)
    else if bytes = missingHeader then
      .ok (sendError transportFetch.request 404 "Block 3 not found")
    else .error "expected value at line 1 column 1"

theorem blockLibs_found : blockLibs.responseFromSlice foundHeader =
    .ok (TransportCall.foundResponse transportFetch.request storedHello 40) := by
  simp only [blockLibs, if_true]

theorem blockLibs_missing : blockLibs.responseFromSlice missingHeader =
    .ok (sendError transportFetch.request 404 "Block 3 not found") := by
  have hne : missingHeader ≠ foundHeader := by decide
  simp only [blockLibs, hne, if_false, if_true]

theorem brought_hello {store : BlockStore} (h : Brought sha256.hex oneOfTwo store.held) :
    store.held 3 = none ∨ store.held 3 = some storedHello := by
  cases hb : store.held 3 with
  | none => exact .inl rfl
  | some b =>
    obtain ⟨-, -, c, hc, hbrings⟩ := h 3 b hb
    rcases hc with rfl | rfl
    · cases hbrings
      exact .inr rfl
    · cases hbrings

theorem blockLibs_onWire : OnWire blockLibs "kernel_b.aint" oneOfTwo after40 where
  frame := by
    rintro q (h | h)
    · cases h
      decide +kernel
    · cases h
  response := by
    rintro q us store (h | h) rfl hstore
    · cases h
      have hhash : sha256.hex hello = helloHash := by decide
      simp only [FrameServer.answer, quicStore, blockLibs, hhash, if_true]
      decide +kernel
    · cases h
  request := by
    rintro c (h | h)
    · cases h
    · cases h
      refine ⟨by decide +kernel, by decide +kernel, ?_⟩
      intro i data contentHash edSeal rawSize busSeq hop
      cases hop
  header := by
    rintro c us store (h | h) rfl hstore
    · cases h
    · cases h
      rcases brought_hello hstore with hb | hb
      · simp only [TransportCall.answer, transportFetch, hb]
        exact ⟨by decide +kernel, _, blockLibs_missing, rfl⟩
      · simp only [TransportCall.answer, transportFetch, hb]
        exact ⟨by decide +kernel, _, blockLibs_found, rfl⟩

def freshClient : QuicMuxClient := ⟨"root_idd.aint", true, 1, 0, 0, 0, .new⟩

/-- The store, with its request arriving in two pieces. -/
def storeRun : List (Exchange.Event (blockService blockLibs "kernel_b.aint")) :=
  [.call (.quic quicStore), .move 0 (.carry 100), .move 0 .serve, .move 0 (.carry 400),
   .move 0 .serve, .access 0 (40 : UInt64), .move 0 (.bring 400), .move 0 (.take freshClient)]

/-- The fetch. -/
def fetchRun : List (Exchange.Event (blockService blockLibs "kernel_b.aint")) :=
  [.call (.transport transportFetch), .move 1 (.carry 200), .move 1 .serve, .access 1 (40 : UInt64),
   .move 1 (.bring 400), .move 1 (.take freshClient)]

/-- The store has 50 bytes of its request unread, and another is made. -/
def heldUp : List (Exchange.Event (blockService blockLibs "kernel_b.aint")) :=
  [.call (.quic quicStore), .move 0 (.carry 50), .call (.quic quicStore)]

theorem heldUp_conforms :
    Conforms (blockService blockLibs "kernel_b.aint") oneOfTwo after40 heldUp := by
  intro e he
  simp only [heldUp, List.mem_cons, List.not_mem_nil, or_false] at he
  rcases he with rfl | rfl | rfl
  · exact .inl rfl
  · trivial
  · exact .inl rfl

theorem storeRun_conforms :
    Conforms (blockService blockLibs "kernel_b.aint") oneOfTwo after40 storeRun := by
  intro e he
  simp only [storeRun, List.mem_cons, List.not_mem_nil, or_false] at he
  rcases he with rfl | rfl | rfl | rfl | rfl | rfl | rfl | rfl <;>
    first | exact .inl rfl | exact rfl | trivial

theorem fetchRun_conforms :
    Conforms (blockService blockLibs "kernel_b.aint") oneOfTwo after40 fetchRun := by
  intro e he
  simp only [fetchRun, List.mem_cons, List.not_mem_nil, or_false] at he
  rcases he with rfl | rfl | rfl | rfl | rfl | rfl <;>
    first | exact .inr rfl | exact rfl | trivial

theorem bothRuns_conforms :
    Conforms (blockService blockLibs "kernel_b.aint") oneOfTwo after40 (storeRun ++ fetchRun) :=
  List.forall_mem_append.mpr ⟨storeRun_conforms, fetchRun_conforms⟩

/-- The store has its result at the end of its run, and the fetch, which comes after it, at the end of
both. -/
theorem runs_end :
    (after (.new .new : Exchange.System (blockService blockLibs "kernel_b.aint"))
      storeRun).streams.length = 1 ∧
    ((after (.new .new) storeRun).result 0).any (fun r => isStored (seenResult r)) = true ∧
    ((after (.new .new) (storeRun ++ fetchRun)).result 1).isSome = true ∧
    (after (.new .new) (storeRun ++ fetchRun)).streams.map Stream.op =
      [.quic quicStore, .transport transportFetch] := by
  decide +kernel

theorem bothRuns_ops (j : Nat) :
    (after (.new .new) (storeRun ++ fetchRun)).streams[j]?.map Stream.op =
      [BlockCall.quic quicStore, .transport transportFetch][j]? := by
  obtain ⟨-, -, -, hops⟩ := runs_end
  rw [← List.getElem?_map, hops]

end Demo

section

open Demo

theorem blocks_linearizable_twoCalls :
    Linearizes (blockService blockLibs "kernel_b.aint") BlockStore.held seenResult
      (BlockCall.apply blockLibs.sha256.hex) (.new .new) (storeRun ++ fetchRun)
      (accesses (.new .new) (storeRun ++ fetchRun)) :=
  blocks_linearizable blockLibs_onWire bothRuns_conforms

theorem blocks_read_back_hello :
    ((after (.new .new) (storeRun ++ fetchRun)).result 1).map (fun r => fetchedData (seenResult r)) =
      some (some hello) := by
  obtain ⟨hlength, hstored, hfetched, -⟩ := runs_end
  obtain ⟨r, hr, hstored⟩ := (Option.any_eq_true _ _).mp hstored
  obtain ⟨r', hr'⟩ := Option.isSome_iff_exists.mp hfetched
  rw [hr']
  refine congrArg some (blocks_read_back (b := storedHello) blockLibs_onWire bothRuns_conforms
    (bothRuns_ops 0) rfl hr hstored ?_ hlength.le (bothRuns_ops 1) rfl hr')
  intro j d b' hj hd hb' _
  rw [bothRuns_ops] at hd
  match j with
  | 0 => exact hj rfl
  | 1 =>
    cases hd
    cases hb'
  | _ + 2 => cases hd

end

end Spaceshuttle.Cluster
