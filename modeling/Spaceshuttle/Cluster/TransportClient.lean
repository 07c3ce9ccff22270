import Spaceshuttle.Cluster.StoreOrder
import Spaceshuttle.Lib.Utf8

/-!
# The client of the transport

What `ClusterTransportClient::store_block` of `crates/trust-kernel/src/cluster_transport.rs` writes, and
what `handle_store` reads of it. The fields have fixed widths: the client pads its strings with zeros,
and narrows both sizes to 32 bits.
-/

namespace Spaceshuttle.Cluster

open ByteStream

/-! ## The client -/

/-- `format!("{:0<width}", text)`: at least `width` characters. -/
def padZeros (width : Nat) (text : String) : String :=
  String.ofList (text.toList ++ List.replicate (width - text.toList.length) '0')

/-- The request of `store_block` (`cluster_transport.rs:618-625`). -/
def storeBlockRequest (fromAint : String) (blockIndex : Nat) (busSeq : UInt64) : BlockRequest where
  intent := "ram_raid:store"
  fromAint := fromAint
  blockIndex := blockIndex
  forkTokenId := s!"evict_{blockIndex}_{busSeq}"
  busSeq := busSeq
  expectedHash := none

/-- What `store_block` writes behind the header (`cluster_transport.rs:637-656`). -/
def storeBlockBody (data : List UInt8) (contentHash ed25519Seal : String) (rawSize : Nat) : List UInt8 :=
  be32 data.length ++ be32 rawSize ++ Text.encode (padZeros 64 contentHash).toList ++
    Text.encode (padZeros 128 ed25519Seal).toList ++ data

/-- What `store_block` writes (`cluster_transport.rs:627-658`). -/
def storeBlockBytes (requestToVec : BlockRequest → List UInt8) (fromAint : String) (blockIndex : Nat)
    (data : List UInt8) (contentHash ed25519Seal : String) (rawSize : Nat) (busSeq : UInt64) :
    List UInt8 :=
  prefixed (requestToVec (storeBlockRequest fromAint blockIndex busSeq)) ++
    storeBlockBody data contentHash ed25519Seal rawSize

/-! ## The server -/

/-- The fields that `handle_store` reads. -/
structure StoreFields where
  rawSize : Nat
  contentHash : String
  ed25519Seal : String
  data : List UInt8
  deriving DecidableEq, Repr

/-- The reading part of `handle_store` (`cluster_transport.rs:328-354`): the fields, or the size of a
payload that is too large. -/
def readStoreFields : Read (Except Nat StoreFields) := do
  let payloadSize := fromBe (← readExact 4)
  if payloadSize > maxPayload then return .error payloadSize
  let rawSize := fromBe (← readExact 4)
  let contentHash := String.ofList (Text.fromUtf8Lossy (← readExact 64))
  let ed25519Seal := String.ofList (Text.fromUtf8Lossy (← readExact 128))
  let data ← readExact payloadSize
  return .ok { rawSize, contentHash, ed25519Seal, data }

/-- The call of `BlockStore::store` for the fields of a request. -/
def StoreFields.call (fields : StoreFields) (request : BlockRequest) : StoreCall where
  blockIndex := request.blockIndex
  data := fields.data
  contentHash := fields.contentHash
  ed25519Seal := fields.ed25519Seal
  rawSize := fields.rawSize
  fromAint := request.fromAint
  busSeq := request.busSeq

/-- The block that is stored for the fields of a request. -/
def StoreFields.stored (fields : StoreFields) (request : BlockRequest) : StoredBlock where
  blockIndex := request.blockIndex
  data := fields.data
  contentHash := fields.contentHash
  ed25519Seal := fields.ed25519Seal
  rawSize := fields.rawSize
  storedBy := request.fromAint
  busSeq := request.busSeq
  accessCount := 0

/-- What `handle_store` does with the fields (`cluster_transport.rs:332-335`, `356-400`). -/
def storeTask (libs : ServerLibs) (request : BlockRequest) : Except Nat StoreFields → Task
  | .error payloadSize => .answer fun _ =>
      .block (sendError request 413 s!"Payload too large: {payloadSize} bytes") []
  | .ok fields =>
      let computedHash := libs.sha256.hex fields.data
      if computedHash != fields.contentHash then
        .answer fun _ => .block (sendError request 409
          s!"Store hash mismatch: sent {fields.contentHash}, computed {computedHash}") []
      else .store (fields.call request) fun elapsedUs =>
        .block (storedResponse request fields.contentHash fields.data.length fields.rawSize elapsedUs) []

/-- `handle_store` reads the fields, and then decides. -/
theorem handleStore_eq (libs : ServerLibs) (request : BlockRequest) :
    handleStore libs request = storeTask libs request <$> readStoreFields := by
  unfold handleStore readStoreFields
  simp only [map_bind]
  apply bind_congr
  intro sizeBuf
  split
  · rfl
  · rw [map_bind]
    apply bind_congr
    intro rawBuf
    rw [map_bind]
    apply bind_congr
    intro hashBuf
    rw [map_bind]
    apply bind_congr
    intro sealBuf
    rw [map_bind]
    apply bind_congr
    intro data
    rw [map_pure]
    unfold storeTask
    dsimp only
    split <;> rfl

/-- Fields with the right hash are stored. -/
theorem lookup_storeTask {libs : ServerLibs} {fields : StoreFields}
    (h : libs.sha256.hex fields.data = fields.contentHash) (request : BlockRequest)
    (elapsedUs : UInt64) (store : BlockStore) :
    ((storeTask libs request (.ok fields)).perform elapsedUs store).1.blocks.lookup request.blockIndex =
      some (fields.stored request) := by
  have hne : ¬(libs.sha256.hex fields.data != fields.contentHash) = true := by
    rw [h, bne_self_eq_false]
    exact Bool.false_ne_true
  simp only [storeTask, if_neg hne]
  exact AList.lookup_insert _

/-! ## Fields that fit -/

/-- The text consists of at most `width` ASCII characters. -/
structure FitsField (width : Nat) (text : String) : Prop where
  ascii : ∀ c ∈ text.toList, c.toNat < 0x80
  short : text.toList.length ≤ width

instance (width : Nat) (text : String) : Decidable (FitsField width text) :=
  decidable_of_iff
    (text.toList.all (fun c => c.toNat < 0x80) = true ∧ text.toList.length ≤ width)
    ⟨fun h => ⟨fun c hc => of_decide_eq_true (List.all_eq_true.mp h.1 c hc), h.2⟩,
      fun h => ⟨List.all_eq_true.mpr fun c hc => decide_eq_true (h.ascii c hc), h.short⟩⟩

section Fields

variable {width : Nat} {text : String}

theorem toList_padZeros (width : Nat) (text : String) : (padZeros width text).toList =
    text.toList ++ List.replicate (width - text.toList.length) '0' := String.toList_ofList

/-- A text that fits takes the width of its field. -/
theorem FitsField.length_encode (h : FitsField width text) :
    (Text.encode (padZeros width text).toList).length = width := by
  have hascii : ∀ c ∈ (padZeros width text).toList, c.toNat < 0x80 := by
    intro c hc
    rw [toList_padZeros, List.mem_append] at hc
    rcases hc with hc | hc
    · exact h.ascii c hc
    · rw [List.eq_of_mem_replicate hc]
      decide
  rw [Text.encode_ascii hascii, List.length_map, toList_padZeros, List.length_append,
    List.length_replicate, Nat.add_sub_cancel' h.short]

theorem fromUtf8Lossy_encode (text : String) :
    String.ofList (Text.fromUtf8Lossy (Text.encode text.toList)) = text := by
  have hdecode := Text.fromUtf8Lossy_encode_append text.toList []
  rw [List.append_nil] at hdecode
  rw [hdecode]
  show String.ofList (text.toList ++ []) = text
  rw [List.append_nil, String.ofList_toList]

/-- Padding leaves a text that fits as it is exactly if it has full width. -/
theorem padZeros_eq_iff (h : FitsField width text) :
    padZeros width text = text ↔ text.toList.length = width := by
  rw [← String.toList_inj, toList_padZeros, List.append_right_eq_self,
    List.replicate_eq_nil_iff]
  have hshort := h.short
  omega

end Fields

/-- The fields that arrive: the strings padded, the size narrowed. -/
def arrivingFields (data : List UInt8) (contentHash ed25519Seal : String) (rawSize : Nat) :
    StoreFields where
  rawSize := rawSize % 2 ^ 32
  contentHash := padZeros 64 contentHash
  ed25519Seal := padZeros 128 ed25519Seal
  data := data

section Store

variable {data : List UInt8} {contentHash ed25519Seal : String}

/-- The server reads what the client wrote behind the header. -/
theorem readStoreFields_body (hdata : data.length ≤ maxPayload) (hhash : FitsField 64 contentHash)
    (hseal : FitsField 128 ed25519Seal) (rawSize : Nat) (rest : List UInt8) (closed : Bool) :
    readStoreFields.run ⟨storeBlockBody data contentHash ed25519Seal rawSize ++ rest, closed⟩ =
      .ok (.ok (arrivingFields data contentHash ed25519Seal rawSize)) ⟨rest, closed⟩ := by
  have hlimit : maxPayload < 2 ^ 32 := by decide
  have hsize : fromBe (be32 data.length) = data.length := fromBe_be32 (by omega)
  unfold readStoreFields storeBlockBody
  simp only [List.append_assoc]
  rw [bind_ok (readExact_append _ _ closed (length_be32 _)), hsize, if_neg (Nat.not_lt.mpr hdata),
    bind_ok (readExact_append _ _ closed (length_be32 _)),
    bind_ok (readExact_append _ _ closed hhash.length_encode),
    bind_ok (readExact_append _ _ closed hseal.length_encode),
    bind_ok (readExact_append data rest closed rfl), fromBe_be32_mod, fromUtf8Lossy_encode,
    fromUtf8Lossy_encode]
  rfl

theorem arrivingFields_eq_iff (hhash : FitsField 64 contentHash) (hseal : FitsField 128 ed25519Seal)
    (rawSize : Nat) : arrivingFields data contentHash ed25519Seal rawSize =
        ⟨rawSize, contentHash, ed25519Seal, data⟩ ↔
      contentHash.toList.length = 64 ∧ ed25519Seal.toList.length = 128 ∧ rawSize < 2 ^ 32 := by
  rw [arrivingFields, StoreFields.mk.injEq, padZeros_eq_iff hhash, padZeros_eq_iff hseal,
    Nat.mod_eq_iff_lt (by decide)]
  tauto

/-- The whole request: the header, and the fields behind it. -/
theorem readBlockRequest_storeBlockBytes {libs : ServerLibs} {requestToVec : BlockRequest → List UInt8}
    {fromAint : String} {blockIndex : Nat} {busSeq : UInt64}
    (hjson : libs.requestFromSlice (requestToVec (storeBlockRequest fromAint blockIndex busSeq)) =
      .ok (storeBlockRequest fromAint blockIndex busSeq))
    (hheader : (requestToVec (storeBlockRequest fromAint blockIndex busSeq)).length ≤ maxRequestHeader)
    (hdata : data.length ≤ maxPayload) (hhash : FitsField 64 contentHash)
    (hseal : FitsField 128 ed25519Seal) (rawSize : Nat) (kernelAint : String) (closed : Bool) :
    (readBlockRequest libs kernelAint).run
        ⟨storeBlockBytes requestToVec fromAint blockIndex data contentHash ed25519Seal rawSize busSeq,
          closed⟩ =
      .ok (.block (storeBlockRequest fromAint blockIndex busSeq),
          storeTask libs (storeBlockRequest fromAint blockIndex busSeq)
            (.ok (arrivingFields data contentHash ed25519Seal rawSize))) ⟨[], closed⟩ := by
  unfold readBlockRequest storeBlockBytes
  rw [bind_ok (readPrefixed_prefixed _ _ closed (by decide) hheader)]
  simp only [hjson]
  have hdispatch : dispatch libs kernelAint (storeBlockRequest fromAint blockIndex busSeq) =
      storeTask libs (storeBlockRequest fromAint blockIndex busSeq) <$> readStoreFields := by
    rw [← handleStore_eq]
    rfl
  have hread := readStoreFields_body hdata hhash hseal rawSize [] closed
  rw [List.append_nil] at hread
  rw [hdispatch, map_eq_pure_bind, bind_assoc, bind_ok hread]
  rfl

/-- The strings arrive padded to the width of their fields and the size modulo `2 ^ 32`, and so they are
stored. What arrives is what was given exactly if the strings have full width and the size fits. -/
theorem store_fields_arrive (hdata : data.length ≤ maxPayload) (hhash : FitsField 64 contentHash)
    (hseal : FitsField 128 ed25519Seal) (rawSize : Nat) (libs : ServerLibs) (request : BlockRequest)
    (rest : List UInt8) (closed : Bool) :
    readStoreFields.run ⟨storeBlockBody data contentHash ed25519Seal rawSize ++ rest, closed⟩ =
        .ok (.ok (arrivingFields data contentHash ed25519Seal rawSize)) ⟨rest, closed⟩ ∧
      (handleStore libs request).run
          ⟨storeBlockBody data contentHash ed25519Seal rawSize ++ rest, closed⟩ =
        .ok (storeTask libs request (.ok (arrivingFields data contentHash ed25519Seal rawSize)))
          ⟨rest, closed⟩ ∧
      (arrivingFields data contentHash ed25519Seal rawSize = ⟨rawSize, contentHash, ed25519Seal, data⟩ ↔
        contentHash.toList.length = 64 ∧ ed25519Seal.toList.length = 128 ∧ rawSize < 2 ^ 32) ∧
      (libs.sha256.hex data = padZeros 64 contentHash → ∀ elapsedUs store,
        ((storeTask libs request (.ok (arrivingFields data contentHash ed25519Seal rawSize))).perform
            elapsedUs store).1.blocks.lookup request.blockIndex =
          some ((arrivingFields data contentHash ed25519Seal rawSize).stored request)) := by
  have hread := readStoreFields_body hdata hhash hseal rawSize rest closed
  refine ⟨hread, ?_, arrivingFields_eq_iff hhash hseal rawSize, fun h => lookup_storeTask h request⟩
  rw [handleStore_eq, map_eq_pure_bind, bind_ok hread]
  rfl

end Store

namespace Demo

/-- A seal of 17 characters. -/
def shortSeal : String := "ed25519_seal_here"

theorem store_fields_arrive_hello :
    readStoreFields.run ⟨storeBlockBody hello helloHash shortSeal 5 ++ [], true⟩ =
        .ok (.ok (arrivingFields hello helloHash shortSeal 5)) ⟨[], true⟩ ∧
      ((storeTask (serverLibs []) (storeBlockRequest "p520.aint" 99 5)
          (.ok (arrivingFields hello helloHash shortSeal 5))).perform 40 .new).1.blocks.lookup 99 =
        some ((arrivingFields hello helloHash shortSeal 5).stored (storeBlockRequest "p520.aint" 99 5)) := by
  obtain ⟨hread, -, -, hstored⟩ := store_fields_arrive (by decide : hello.length ≤ maxPayload)
    (by decide : FitsField 64 helloHash) (by decide : FitsField 128 shortSeal) 5
    (serverLibs []) (storeBlockRequest "p520.aint" 99 5) [] true
  exact ⟨hread, hstored (by decide) 40 .new⟩

/-- The seal that arrives is not the seal that was given. -/
theorem short_seal_arrives_padded : ∃ fields : StoreFields,
    readStoreFields.run ⟨storeBlockBody hello helloHash shortSeal 5, true⟩ = .ok (.ok fields) ⟨[], true⟩ ∧
      fields.ed25519Seal.toList.length = 128 ∧ fields.ed25519Seal ≠ shortSeal := by
  have hread := readStoreFields_body (by decide : hello.length ≤ maxPayload)
    (by decide : FitsField 64 helloHash) (by decide : FitsField 128 shortSeal) 5 [] true
  rw [List.append_nil] at hread
  exact ⟨_, hread, by decide +kernel, by decide +kernel⟩

end Demo

end Spaceshuttle.Cluster
