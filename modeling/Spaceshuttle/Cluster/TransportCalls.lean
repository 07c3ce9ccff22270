import Spaceshuttle.Cluster.QuicBatch
import Spaceshuttle.Cluster.TransportClient

/-!
# Single calls over the transport

`fetch_block`, `store_block` and `ping` of `ClusterTransportClient`
(`crates/trust-kernel/src/cluster_transport.rs:498-737`). A call opens a connection of its own and
writes its request; at the other end `handle_connection` (`cluster_transport.rs:216-256`) answers it.
A response is a JSON header of any length, with the payload of a fetched block behind it.
-/

namespace Spaceshuttle.Cluster

open ByteStream

/-- The block store as a map: every block with the call it came with. -/
abbrev Blocks := Nat → Option StoreCall

/-- What a client of the MUX sees of the blocks. -/
def Blocks.contents (m : Blocks) : Contents :=
  fun i => (m i).map fun b => (b.data, b.contentHash, b.rawSize)

theorem BlockStore.contents_held (s : BlockStore) : Blocks.contents s.held = s.content := by
  funext i
  simp only [Blocks.contents, held, content, Option.map_map]
  rfl

theorem BlockStore.fetch_held_none {s : BlockStore} {i : Nat} (h : s.held i = none) :
    (s.fetch i).1 = none := by
  have hl : s.blocks.lookup i = none := by simpa [held] using h
  simp [fetch, hl]

theorem BlockStore.fetch_held_some {s : BlockStore} {i : Nat} {c : StoreCall}
    (h : s.held i = some c) : ∃ b : StoredBlock, (s.fetch i).1 = some b ∧ b.call = c := by
  obtain ⟨b, hl, rfl⟩ := Option.map_eq_some_iff.mp h
  exact ⟨{ b with accessCount := b.accessCount + 1 }, by simp [fetch, hl], rfl⟩

/-! ## Calls -/

/-- `TransportError` (`cluster_transport.rs:745-757`), as far as a call on an open connection returns
it. -/
inductive TransportError where
  | protocol (e : String)
  | remote (status : UInt16) (error : String)
  | integrityFailed (expected got : String)
  deriving DecidableEq, Repr

/-- How a call ended. -/
inductive TransportResult where
  | pong
  | stored (response : BlockResponse)
  | fetched (data : List UInt8) (response : BlockResponse)
  | failed (e : TransportError)

/-- A response without what depends on the clock, and without the ratio, whose last digits JSON need
not keep. -/
def BlockResponse.timeless (r : BlockResponse) : BlockResponse :=
  { r with compressionRatio := 0, serverLatencyUs := 0 }

/-- A result with its response seen so. -/
def TransportResult.timeless : TransportResult → TransportResult
  | .stored r => .stored r.timeless
  | .fetched data r => .fetched data r.timeless
  | r => r

/-- The calls of the client. -/
inductive TransportOp where
  | fetchBlock (blockIndex : Nat) (forkTokenId : String) (busSeq : UInt64)
      (expectedHash : Option String)
  | storeBlock (blockIndex : Nat) (data : List UInt8) (contentHash ed25519Seal : String)
      (rawSize : Nat) (busSeq : UInt64)
  | ping
  deriving DecidableEq, Repr

/-- A call of a client. -/
structure TransportCall where
  fromAint : String
  op : TransportOp
  deriving DecidableEq, Repr

/-- `serde_json` at the headers of the transport, on both sides. -/
structure TransportLibs extends ServerLibs where
  requestToVec : BlockRequest → List UInt8
  responseFromSlice : List UInt8 → Except String BlockResponse

namespace TransportCall

/-- The request header of a call (`cluster_transport.rs:525-532`, `618-625`, `705-712`). -/
def request (c : TransportCall) : BlockRequest :=
  match c.op with
  | .fetchBlock blockIndex forkTokenId busSeq expectedHash =>
      { intent := "ram_raid:fetch"
        fromAint := c.fromAint
        blockIndex, forkTokenId, busSeq, expectedHash }
  | .storeBlock blockIndex _ _ _ _ busSeq => storeBlockRequest c.fromAint blockIndex busSeq
  | .ping =>
      { intent := "ram_raid:ping"
        fromAint := c.fromAint
        blockIndex := 0
        forkTokenId := ""
        busSeq := 0
        expectedHash := none }

/-- What a call writes. -/
def bytes (libs : TransportLibs) (c : TransportCall) : List UInt8 :=
  match c.op with
  | .storeBlock blockIndex data contentHash ed25519Seal rawSize busSeq =>
      storeBlockBytes libs.requestToVec c.fromAint blockIndex data contentHash ed25519Seal rawSize
        busSeq
  | _ => prefixed (libs.requestToVec c.request)

/-! ## What a call reads -/

variable (libs : TransportLibs)

/-- The header of a response (`cluster_transport.rs:549-556`, `661-668`, `726-733`), still JSON. -/
def readHeader : Read (List UInt8) := do
  let respHeaderLen := fromBe (← readExact 4)
  readExact respHeaderLen

/-- `fetch_block` from the response on (`cluster_transport.rs:549-588`). -/
def readFetched : Read TransportResult := do
  let header ← readHeader
  match libs.responseFromSlice header with
  | .error e => return .failed (.protocol e)
  | .ok response =>
      if response.status ≠ 200 then
        return .failed (.remote response.status (response.error.getD ""))
      let data ← readExact response.payloadSize
      let computedHash := libs.sha256.hex data
      if computedHash ≠ response.contentHash then
        return .failed (.integrityFailed response.contentHash computedHash)
      return .fetched data response

/-- `store_block` from the response on (`cluster_transport.rs:661-685`). -/
def readStored : Read TransportResult := do
  let header ← readHeader
  match libs.responseFromSlice header with
  | .error e => return .failed (.protocol e)
  | .ok response =>
      if response.status ≠ 200 then
        return .failed (.remote response.status (response.error.getD ""))
      return .stored response

/-- `ping` from the response on (`cluster_transport.rs:726-736`): the header is not looked at. -/
def readPong : Read TransportResult := do
  let _ ← readHeader
  return .pong

/-- What a call reads. -/
def readResult (c : TransportCall) : Read TransportResult :=
  match c.op with
  | .fetchBlock .. => readFetched libs
  | .storeBlock .. => readStored libs
  | .ping => readPong

/-! ## What a call is for -/

/-- The call on the map of the blocks. The strings of a store arrive padded and its size in 32 bits,
and a payload of more than 64 MiB is refused. -/
def apply (hex : List UInt8 → String) (m : Blocks) (c : TransportCall) :
    Blocks × TransportResult :=
  match c.op with
  | .ping => (m, .pong)
  | .storeBlock i data contentHash edSeal rawSize busSeq =>
      if data.length > maxPayload then
        (m, .failed (.remote 413 s!"Payload too large: {data.length} bytes"))
      else if hex data = padZeros 64 contentHash then
        (Function.update m i
            (some
              { blockIndex := i
                data
                contentHash := padZeros 64 contentHash
                ed25519Seal := padZeros 128 edSeal
                rawSize := rawSize % 2 ^ 32
                fromAint := c.fromAint
                busSeq }),
          .stored (storedResponse c.request (padZeros 64 contentHash) data.length (rawSize % 2 ^ 32)
            0).timeless)
      else
        (m, .failed (.remote 409
          s!"Store hash mismatch: sent {padZeros 64 contentHash}, computed {hex data}"))
  | .fetchBlock i _ busSeq expected =>
      match m i with
      | none => (m, .failed (.remote 404 s!"Block {i} not found"))
      | some b =>
          if expected.any (fun e => b.contentHash != e) then
            let expected := expected.getD ""
            (m, .failed (.remote 409
              s!"Hash mismatch: expected {expected}, have {b.contentHash}"))
          else
            (m, .fetched b.data
              { intent := "ram_raid:fetch"
                status := 200
                blockIndex := i
                contentHash := b.contentHash
                ed25519Seal := b.ed25519Seal
                payloadSize := b.data.length
                rawSize := b.rawSize
                compressionRatio := 0
                tibetTokenId := s!"cluster_fetch_{i}_{busSeq}"
                serverLatencyUs := 0
                error := none })

/-! ## What the server answers -/

/-- The response of `handle_ping` (`cluster_transport.rs:404-435`). -/
def pongResponse (kernelAint : String) (elapsedUs : UInt64) : BlockResponse where
  intent := "ram_raid:pong"
  status := 200
  blockIndex := 0
  contentHash := ""
  ed25519Seal := ""
  payloadSize := 0
  rawSize := 0
  compressionRatio := 0.0
  tibetTokenId := s!"cluster_ping_{kernelAint}"
  serverLatencyUs := elapsedUs
  error := none

/-- The response to a fetch that finds a block. -/
def foundResponse (request : BlockRequest) (b : StoreCall) (elapsedUs : UInt64) : BlockResponse where
  intent := request.intent
  status := 200
  blockIndex := request.blockIndex
  contentHash := b.contentHash
  ed25519Seal := b.ed25519Seal
  payloadSize := b.data.length
  rawSize := b.rawSize
  compressionRatio := compressionRatio b.data.length b.rawSize
  tibetTokenId := s!"cluster_fetch_{request.blockIndex}_{request.busSeq}"
  serverLatencyUs := elapsedUs
  error := none

/-- The store after a call, the response to it and the payload behind the response. -/
def answer (kernelAint : String) (elapsedUs : UInt64) (store : BlockStore) (c : TransportCall) :
    BlockStore × BlockResponse × List UInt8 :=
  match c.op with
  | .ping => (store, pongResponse kernelAint elapsedUs, [])
  | .storeBlock i data contentHash edSeal rawSize busSeq =>
      let contentHash := padZeros 64 contentHash
      if data.length > maxPayload then
        (store, sendError c.request 413 s!"Payload too large: {data.length} bytes", [])
      else if libs.sha256.hex data = contentHash then
        (store.store i data contentHash (padZeros 128 edSeal) (rawSize % 2 ^ 32) c.fromAint busSeq,
          storedResponse c.request contentHash data.length (rawSize % 2 ^ 32) elapsedUs, [])
      else
        (store, sendError c.request 409
          s!"Store hash mismatch: sent {contentHash}, computed {libs.sha256.hex data}", [])
  | .fetchBlock i _ _ expected =>
      ((store.fetch i).2,
        match store.held i with
        | none => (sendError c.request 404 s!"Block {i} not found", [])
        | some b =>
            if expected.any (fun e => b.contentHash != e) then
              let expected := expected.getD ""
              (sendError c.request 409
                s!"Hash mismatch: expected {expected}, have {b.contentHash}", [])
            else (foundResponse c.request b elapsedUs, b.data))

/-- A call whose request can be sent: the header survives JSON and is within the limit of the server,
and what is stored fits its fields. -/
structure Sendable (c : TransportCall) : Prop where
  request : libs.requestFromSlice (libs.requestToVec c.request) = .ok c.request
  header : (libs.requestToVec c.request).length ≤ maxRequestHeader
  fields : ∀ i data contentHash edSeal rawSize busSeq,
    c.op = .storeBlock i data contentHash edSeal rawSize busSeq →
      data.length < 2 ^ 32 ∧ FitsField 64 contentHash ∧ FitsField 128 edSeal

/-- The task gives the answer to the call. -/
def Answers (kernelAint : String) (c : TransportCall) (task : Task) : Prop :=
  ∀ elapsedUs store, ∃ call, task.perform elapsedUs store =
    ((c.answer libs kernelAint elapsedUs store).1, call,
      some (.block (c.answer libs kernelAint elapsedUs store).2.1
        (c.answer libs kernelAint elapsedUs store).2.2))

variable {libs} {kernelAint : String}

/-- The handler reads the header, and what belongs to the intent behind it. -/
theorem readBlockRequest_prefixed {c : TransportCall} (h : c.Sendable libs) (body : List UInt8)
    (closed : Bool) :
    (readBlockRequest libs.toServerLibs kernelAint).run
        ⟨prefixed (libs.requestToVec c.request) ++ body, closed⟩ =
      ((fun task => (.block c.request, task)) <$>
        dispatch libs.toServerLibs kernelAint c.request).run ⟨body, closed⟩ := by
  unfold readBlockRequest
  rw [bind_ok (readPrefixed_prefixed _ _ closed (by decide) h.header)]
  simp only [h.request]
  rw [map_eq_pure_bind]

/-- A payload that is too large is refused after its size. -/
theorem readStoreFields_large {data : List UInt8} (hsize : data.length < 2 ^ 32)
    (hlarge : data.length > maxPayload) (contentHash edSeal : String) (rawSize : Nat)
    (closed : Bool) :
    ∃ rest, readStoreFields.run ⟨storeBlockBody data contentHash edSeal rawSize, closed⟩ =
      .ok (.error data.length) rest := by
  unfold readStoreFields storeBlockBody
  simp only [List.append_assoc]
  rw [bind_ok (readExact_append _ _ closed (length_be32 _)), fromBe_be32 hsize, if_pos hlarge]
  exact ⟨_, rfl⟩

/-- The handler gets a task out of the request that gives the answer to the call. -/
theorem readBlockRequest_call {c : TransportCall} (h : c.Sendable libs) (closed : Bool) :
    ∃ task rest, (readBlockRequest libs.toServerLibs kernelAint).run ⟨c.bytes libs, closed⟩ =
        .ok (.block c.request, task) rest ∧ c.Answers libs kernelAint task := by
  obtain ⟨aint, op⟩ := c
  cases op with
  | ping =>
    have hread := @readBlockRequest_prefixed libs kernelAint _ h [] closed
    rw [List.append_nil] at hread
    exact ⟨handlePing kernelAint, _, hread, fun elapsedUs store => ⟨_, rfl⟩⟩
  | fetchBlock i forkTokenId busSeq expected =>
    have hread := @readBlockRequest_prefixed libs kernelAint _ h [] closed
    rw [List.append_nil] at hread
    refine ⟨handleFetch _, _, hread, fun elapsedUs store => ⟨none, ?_⟩⟩
    simp only [handleFetch, Task.perform, answer, request]
    cases hb : store.held i with
    | none =>
      simp only [BlockStore.fetch_held_none hb]
    | some b =>
      obtain ⟨block, hfetch, rfl⟩ := BlockStore.fetch_held_some hb
      simp only [hfetch, foundResponse, StoredBlock.call]
      by_cases he : expected.any (fun e => block.contentHash != e) = true
      · simp only [he, if_true]
      · simp only [he, Bool.false_eq_true, if_false]
  | storeBlock i data contentHash edSeal rawSize busSeq =>
    obtain ⟨hsize, hhash, hseal⟩ := h.fields _ _ _ _ _ _ rfl
    have hread := @readBlockRequest_prefixed libs kernelAint _ h
      (storeBlockBody data contentHash edSeal rawSize) closed
    have hdispatch : dispatch libs.toServerLibs kernelAint (storeBlockRequest aint i busSeq) =
        storeTask libs.toServerLibs (storeBlockRequest aint i busSeq) <$> readStoreFields := by
      rw [← handleStore_eq]
      rfl
    have hrequest : request ⟨aint, .storeBlock i data contentHash edSeal rawSize busSeq⟩ =
        storeBlockRequest aint i busSeq := rfl
    rw [hrequest, hdispatch, Functor.map_map] at hread
    simp only [bytes, storeBlockBytes]
    rw [hread, map_eq_pure_bind]
    by_cases hlarge : data.length > maxPayload
    · obtain ⟨rest, hfields⟩ := readStoreFields_large hsize hlarge contentHash edSeal rawSize closed
      rw [bind_ok hfields]
      refine ⟨_, _, rfl, fun elapsedUs store => ⟨none, ?_⟩⟩
      simp only [answer, if_pos hlarge]
      rfl
    · have hfields := readStoreFields_body (Nat.not_lt.mp hlarge) hhash hseal rawSize [] closed
      rw [List.append_nil] at hfields
      rw [bind_ok hfields]
      refine ⟨_, _, rfl, fun elapsedUs store => ?_⟩
      simp only [answer, if_neg hlarge, storeTask, arrivingFields]
      by_cases hsha : libs.sha256.hex data = padZeros 64 contentHash
      · simp only [hsha, bne_self_eq_false, Bool.false_eq_true, if_false, if_true]
        exact ⟨_, rfl⟩
      · simp only [bne_iff_ne.mpr hsha, hsha, if_false, if_true]
        exact ⟨_, rfl⟩

/-! ## A call alone -/

/-- A response that survives JSON, its ratio aside. -/
structure Returned (libs : TransportLibs) (r : BlockResponse) : Prop where
  short : (libs.responseToVec r).length < 2 ^ 32
  decoded : ∃ r', libs.responseFromSlice (libs.responseToVec r) = .ok r' ∧ r'.timeless = r.timeless

/-- The store after the answer is the map after the call. -/
theorem answer_held (elapsedUs : UInt64) (store : BlockStore) (c : TransportCall) :
    (c.answer libs kernelAint elapsedUs store).1.held = (c.apply libs.sha256.hex store.held).1 := by
  obtain ⟨aint, op⟩ := c
  cases op with
  | ping => rfl
  | fetchBlock i forkTokenId busSeq expected =>
    have hsame : (store.fetch i).2.held = store.held := funext (store.held_fetch i)
    simp only [answer, apply, hsame]
    cases store.held i with
    | none => rfl
    | some b =>
      simp only
      split <;> rfl
  | storeBlock i data contentHash edSeal rawSize busSeq =>
    simp only [answer, apply]
    split
    · rfl
    · split
      · funext j
        show _ = Function.update store.held i (some _) j
        rw [Function.update_apply]
        exact store.held_accept ⟨i, data, _, _, _, aint, busSeq⟩ j
      · rfl

/-- The fields that a caller looks at are not touched by the clock. -/
theorem fields_of_timeless {r r' : BlockResponse} (h : r'.timeless = r.timeless) :
    r'.status = r.status ∧ r'.error = r.error ∧ r'.payloadSize = r.payloadSize ∧
      r'.contentHash = r.contentHash := by
  have hstatus := congrArg BlockResponse.status h
  have herror := congrArg BlockResponse.error h
  have hsize := congrArg BlockResponse.payloadSize h
  have hhash := congrArg BlockResponse.contentHash h
  exact ⟨hstatus, herror, hsize, hhash⟩

theorem readHeader_run {header : List UInt8} (h : header.length < 2 ^ 32) (rest : List UInt8)
    (closed : Bool) :
    readHeader.run ⟨prefixed header ++ rest, closed⟩ = .ok header ⟨rest, closed⟩ := by
  unfold readHeader prefixed
  rw [List.append_assoc, bind_ok (readExact_append _ _ closed (length_be32 _)), fromBe_be32 h]
  exact readExact_append header rest closed rfl

variable {r : BlockResponse} {body : List UInt8}

/-- A response other than a success is an error of the caller. -/
theorem readFetched_failed (h : Returned libs r) (hstatus : r.status ≠ 200) (closed : Bool) :
    ∃ rest, (readFetched libs).run ⟨prefixed (libs.responseToVec r) ++ body, closed⟩ =
      .ok (.failed (.remote r.status (r.error.getD ""))) rest := by
  obtain ⟨r', hdecode, hsame⟩ := h.decoded
  obtain ⟨hstatus', herror, -, -⟩ := fields_of_timeless hsame
  unfold readFetched
  rw [bind_ok (readHeader_run h.short body closed)]
  simp only [hdecode, hstatus', herror, hstatus, ne_eq, not_false_eq_true, if_true]
  exact ⟨_, rfl⟩

/-- The payload behind a success is returned if it has the hash of the response. -/
theorem readFetched_ok (h : Returned libs r) (hstatus : r.status = 200)
    (hsize : r.payloadSize = body.length) (hhash : libs.sha256.hex body = r.contentHash)
    (closed : Bool) :
    ∃ r' rest, (readFetched libs).run ⟨prefixed (libs.responseToVec r) ++ body, closed⟩ =
      .ok (.fetched body r') rest ∧ r'.timeless = r.timeless := by
  obtain ⟨r', hdecode, hsame⟩ := h.decoded
  obtain ⟨hstatus', -, hsize', hhash'⟩ := fields_of_timeless hsame
  rw [hstatus] at hstatus'
  rw [hsize] at hsize'
  rw [← hhash] at hhash'
  have hread := readExact_append body [] closed hsize'.symm
  rw [List.append_nil] at hread
  unfold readFetched
  rw [bind_ok (readHeader_run h.short body closed)]
  simp only [hdecode, hstatus', ne_eq, not_true_eq_false, if_false]
  rw [bind_ok hread]
  simp only [hhash', not_true_eq_false, if_false]
  exact ⟨r', _, rfl, hsame⟩

theorem readStored_run (h : Returned libs r) (closed : Bool) :
    ∃ result rest, (readStored libs).run ⟨prefixed (libs.responseToVec r) ++ body, closed⟩ =
        .ok result rest ∧
      result.timeless = if r.status = 200 then .stored r.timeless
        else .failed (.remote r.status (r.error.getD "")) := by
  obtain ⟨r', hdecode, hsame⟩ := h.decoded
  obtain ⟨hstatus', herror, -, -⟩ := fields_of_timeless hsame
  unfold readStored
  rw [bind_ok (readHeader_run h.short body closed)]
  by_cases hstatus : r.status = 200
  · simp only [hdecode, hstatus', hstatus, ne_eq, not_true_eq_false, if_false, if_true, ← hsame]
    exact ⟨_, _, rfl, rfl⟩
  · simp only [hdecode, hstatus', herror, hstatus, ne_eq, not_false_eq_true, if_true, if_false]
    exact ⟨_, _, rfl, rfl⟩

/-- The caller gets out of the answer what the call on the map returns. -/
theorem readResult_answer {store : BlockStore}
    (hhash : ∀ i b, store.held i = some b → libs.sha256.hex b.data = b.contentHash)
    {elapsedUs : UInt64} {c : TransportCall}
    (hresp : Returned libs (c.answer libs kernelAint elapsedUs store).2.1) (closed : Bool) :
    ∃ result rest, (c.readResult libs).run
        ⟨prefixed (libs.responseToVec (c.answer libs kernelAint elapsedUs store).2.1) ++
          (c.answer libs kernelAint elapsedUs store).2.2, closed⟩ = .ok result rest ∧
      result.timeless = (c.apply libs.sha256.hex store.held).2 := by
  obtain ⟨aint, op⟩ := c
  cases op with
  | ping =>
    unfold readResult readPong
    simp only
    rw [bind_ok (readHeader_run hresp.short _ closed)]
    exact ⟨_, _, rfl, rfl⟩
  | fetchBlock i forkTokenId busSeq expected =>
    unfold readResult
    simp only [answer, apply] at hresp ⊢
    cases hb : store.held i with
    | none =>
      simp only [hb] at hresp ⊢
      have hrefused : (404 : UInt16) ≠ 200 := by decide
      obtain ⟨rest, hrun⟩ := @readFetched_failed libs _ [] hresp hrefused closed
      exact ⟨_, rest, hrun, rfl⟩
    | some b =>
      simp only [hb] at hresp ⊢
      by_cases he : expected.any (fun e => b.contentHash != e) = true
      · simp only [he, if_true] at hresp ⊢
        have hrefused : (409 : UInt16) ≠ 200 := by decide
        obtain ⟨rest, hrun⟩ := @readFetched_failed libs _ [] hresp hrefused closed
        exact ⟨_, rest, hrun, rfl⟩
      · simp only [he, Bool.false_eq_true, if_false] at hresp ⊢
        obtain ⟨r', rest, hrun, hsame⟩ :=
          @readFetched_ok libs _ b.data hresp rfl rfl (hhash i b hb) closed
        exact ⟨_, rest, hrun, congrArg (TransportResult.fetched b.data) hsame⟩
  | storeBlock i data contentHash edSeal rawSize busSeq =>
    unfold readResult
    simp only [answer, apply] at hresp ⊢
    by_cases hlarge : data.length > maxPayload
    · simp only [hlarge, if_true] at hresp ⊢
      exact readStored_run hresp closed
    · simp only [hlarge, if_false] at hresp ⊢
      by_cases hsha : libs.sha256.hex data = padZeros 64 contentHash
      · simp only [hsha, if_true] at hresp ⊢
        exact readStored_run hresp closed
      · simp only [hsha, if_false] at hresp ⊢
        exact readStored_run hresp closed

/-! ## Reading what has arrived so far -/

theorem steady_readHeader : Steady readHeader :=
  .bind (steady_readExact 4) (fun _ => steady_readExact _)

theorem steady_readResult (libs : TransportLibs) (c : TransportCall) : Steady (c.readResult libs) := by
  obtain ⟨aint, op⟩ := c
  cases op with
  | ping => exact .bind steady_readHeader (fun _ => steady_pure _)
  | storeBlock i data contentHash edSeal rawSize busSeq =>
    refine .bind steady_readHeader (fun header => ?_)
    split
    · exact steady_pure _
    · next response _ =>
      by_cases hstatus : response.status ≠ 200
      · simp only [if_pos hstatus]
        exact steady_pure _
      · simp only [if_neg hstatus]
        exact steady_pure _
  | fetchBlock i forkTokenId busSeq expected =>
    refine .bind steady_readHeader (fun header => ?_)
    split
    · exact steady_pure _
    · next response _ =>
      by_cases hstatus : response.status ≠ 200
      · simp only [if_pos hstatus]
        exact steady_pure _
      · simp only [if_neg hstatus]
        refine .bind (steady_readExact _) (fun data => ?_)
        by_cases hsha : libs.sha256.hex data ≠ response.contentHash
        · simp only [if_pos hsha]
          exact steady_pure _
        · simp only [if_neg hsha]
          exact steady_pure _

/-- No call has a result before the first byte of the response. -/
theorem readResult_empty (libs : TransportLibs) (c : TransportCall) (closed : Bool) :
    (c.readResult libs).run ⟨[], closed⟩ =
      .error (if closed then .eof else .pending) ⟨[], closed⟩ := by
  have hheader : readHeader.run ⟨[], closed⟩ =
      .error (if closed then .eof else .pending) ⟨[], closed⟩ :=
    bind_error (readExact_short (by simp))
  obtain ⟨aint, op⟩ := c
  cases op <;> exact bind_error hheader

theorem steady_readStoreFields : Steady readStoreFields := by
  refine .bind (steady_readExact 4) (fun sizeBuf => ?_)
  by_cases hlarge : fromBe sizeBuf > maxPayload
  · simp only [if_pos hlarge]
    exact steady_pure _
  · simp only [if_neg hlarge]
    refine .bind (steady_readExact 4) (fun rawBuf => .bind (steady_readExact 64) (fun hashBuf => ?_))
    refine .bind (steady_readExact 128) (fun sealBuf => .bind (steady_readExact _) (fun data => ?_))
    exact steady_pure _

theorem steady_readBlockRequest (libs : ServerLibs) (kernelAint : String) :
    Steady (readBlockRequest libs kernelAint) := by
  refine .bind (steady_readPrefixed _ _) (fun header => ?_)
  split
  · exact steady_throw _
  · next request _ =>
    refine .bind ?_ (fun task => steady_pure _)
    unfold dispatch
    split
    · exact steady_pure _
    · split
      · rw [handleStore_eq, map_eq_pure_bind]
        exact .bind steady_readStoreFields (fun _ => steady_pure _)
      · split <;> exact steady_pure _

end TransportCall

end Spaceshuttle.Cluster
