import Spaceshuttle.Lib.Cursor
import Spaceshuttle.Recovery.Snapshot

/-!
# The header of a snapshot file

The writer pads or cuts every text to the width of its field, so each field stands where the reader
looks for it, whatever the texts are. The reader looks at the header only: it does not notice that the
data behind the header ends too early, though the header says how much of it there should be.
-/

namespace Spaceshuttle.Recovery

open Cursor

/-! ## The intent hash -/

section Hash

theorem toDigits_ascii (n : Nat) : ∀ c ∈ Nat.toDigits 16 n, c.toNat < 0x80 := by
  have hdigit : ∀ d < 16, (Nat.digitChar d).toNat < 0x80 := by decide
  induction n using Nat.strong_induction_on with
  | _ n ih =>
    rw [Nat.toDigits_eq_if (by omega)]
    intro c hc
    split at hc
    · next hlt =>
      rw [List.mem_singleton] at hc
      exact hc ▸ hdigit n hlt
    · rcases List.mem_append.mp hc with hc | hc
      · exact ih (n / 16) (by omega) c hc
      · rw [List.mem_singleton] at hc
        exact hc ▸ hdigit (n % 16) (Nat.mod_lt n (by omega))

theorem hex16_ascii (w : UInt64) : ∀ c ∈ (Raid.hex16 w).toList, c.toNat < 0x80 := by
  intro c hc
  rw [Raid.hex16, String.toList_ofList, List.mem_append, List.mem_replicate] at hc
  rcases hc with ⟨-, rfl⟩ | hc
  · decide
  · exact toDigits_ascii w.toNat c hc

theorem le_length_hex16 (w : UInt64) : 16 ≤ (Raid.hex16 w).toList.length := by
  rw [Raid.hex16, String.toList_ofList, List.length_append, List.length_replicate]
  omega

theorem simulateSha256_ascii (data : List UInt8) :
    ∀ c ∈ (Raid.simulateSha256 data).toList, c.toNat < 0x80 := by
  intro c hc
  simp only [Raid.simulateSha256, String.toList_append, List.mem_append] at hc
  rcases hc with (((hc | hc) | hc) | hc) | hc
  · have hall : "sha256:".toList.all (fun c => decide (c.toNat < 0x80)) = true := by decide
    exact of_decide_eq_true (List.all_eq_true.mp hall c hc)
  all_goals exact hex16_ascii _ c hc

theorem le_length_simulateSha256 (data : List UInt8) :
    32 ≤ (Raid.simulateSha256 data).toList.length := by
  simp only [Raid.simulateSha256, String.toList_append, List.length_append]
  generalize data.foldl (fun (h : UInt64) byte => (h ^^^ byte.toUInt64) * 0x100000001b3)
    0xcbf29ce484222325 = hash
  have hfirst := le_length_hex16 hash
  have hsecond := le_length_hex16 (Raid.rotateLeft hash 16)
  omega

end Hash

/-! ## Fields -/

/-- Bytes, cut or filled up with zeros to a width. -/
def field (width : Nat) (bytes : List UInt8) : List UInt8 :=
  bytes.take width ++ List.replicate (width - bytes.length) 0

@[simp] theorem length_field (width : Nat) (bytes : List UInt8) :
    (field width bytes).length = width := by
  rw [field, List.length_append, List.length_take, List.length_replicate]
  omega

theorem pushField_eq (blob : List UInt8) (width : Nat) (bytes : List UInt8) :
    pushField blob width bytes = blob ++ field width bytes := by
  have htake : bytes.take (min width bytes.length) = bytes.take width := by
    rw [List.take_eq_take_iff]
    omega
  have hfill : width - min width bytes.length = width - bytes.length := by omega
  unfold pushField resize field
  rw [htake, hfill]
  dsimp only
  rw [List.take_of_length_le (Nat.le_add_right _ _), Nat.add_sub_cancel_left, List.append_assoc]

/-- The header that the writer writes. -/
def headerBytes (s : Snapshot) (ts : UInt64) : List UInt8 :=
  tzaMagic ++ (tzaVersion :: blockSnapshot ::
    (field 32 (asBytes (Raid.simulateSha256 (asBytes s.intent))) ++
      (LittleEndian.encode 8 ts.toNat ++
        (LittleEndian.encode 8 s.rawSize.toNat ++
          (LittleEndian.encode 8 s.compressedSize.toNat ++
            (field 64 (asBytes s.ed25519Seal) ++ field 32 (asBytes s.compressedHash)))))))

@[simp] theorem length_headerBytes (s : Snapshot) (ts : UInt64) :
    (headerBytes s ts).length = 157 := by
  simp [headerBytes, tzaMagic]

/-- The header that the reader reads. -/
def header (s : Snapshot) (ts : UInt64) : TzaHeader where
  version := tzaVersion
  blockType := blockSnapshot
  intentHash := String.ofList ((Raid.simulateSha256 (asBytes s.intent)).toList.take 32)
  timestamp := ts
  rawSize := s.rawSize
  compressedSize := s.compressedSize
  dataOffset := tzaHeaderSize

theorem buildTzaBlob_eq {s : Snapshot} (hroom : tzaHeaderSize + s.compressedSize ≤ isizeMax)
    (ts : UInt64) : buildTzaBlob s ts = some (headerBytes s ts ++ s.compressedData) := by
  unfold buildTzaBlob headerBytes
  rw [if_neg (show ¬ tzaHeaderSize + s.compressedSize > isizeMax from UInt64.not_lt.mpr hroom)]
  simp only [pushField_eq, List.append_assoc, List.cons_append, List.nil_append]

/-- A long text in ASCII is cut between two characters, and what is left of it is decoded. -/
theorem fromUtf8Lossy_field {text : String} (hascii : ∀ c ∈ text.toList, c.toNat < 0x80) {width : Nat}
    (hlength : width ≤ text.toList.length) :
    Text.fromUtf8Lossy (field width (asBytes text)) = text.toList.take width := by
  have hfield : field width (asBytes text) = Text.encode (text.toList.take width) := by
    rw [Text.encode_ascii fun c hc => hascii c (List.mem_of_mem_take hc), asBytes,
      Text.encode_ascii hascii, field, List.length_map, Nat.sub_eq_zero_of_le hlength,
      List.replicate_zero, List.append_nil, List.map_take]
  have h := Text.fromUtf8Lossy_encode_append (text.toList.take width) []
  rw [List.append_nil, ← hfield] at h
  rw [h]
  exact List.append_nil _

/-! ## Reading -/

section Reading

variable {blob front back : List UInt8} {pos stop : Nat}

theorem slice_of_readsAt (h : ReadsAt blob pos (front ++ back)) (hstop : pos + front.length = stop) :
    slice blob pos stop = front :=
  h.take (by omega)

theorem wordAt_of_readsAt {w : UInt64}
    (h : ReadsAt blob pos (LittleEndian.encode 8 w.toNat ++ back)) (hstop : pos + 8 = stop) :
    wordAt blob pos stop = w := by
  rw [wordAt, slice_of_readsAt h (by rw [LittleEndian.length_encode, hstop]),
    LittleEndian.decode_encode_word]

theorem getD_of_readsAt {b : UInt8} (h : ReadsAt blob pos (b :: back)) : blob.getD pos 0 = b := by
  rw [List.getD_eq_getElem?_getD, ← Nat.add_zero pos, h.getElem? 0]
  rfl

end Reading

/-- What follows the header does not matter to the reader. -/
theorem parseTzaHeader_headerBytes (s : Snapshot) (ts : UInt64) (rest : List UInt8) :
    parseTzaHeader (headerBytes s ts ++ rest) = .ok (header s ts) := by
  have hlength : ¬ (headerBytes s ts ++ rest).length < tzaHeaderSize.toNat := by
    rw [List.length_append, length_headerBytes]
    exact Nat.not_lt.mpr (Nat.le_add_right _ _)
  generalize hblob : headerBytes s ts ++ rest = blob at hlength ⊢
  have hmagic : ReadsAt blob 0 (headerBytes s ts ++ rest) := hblob ▸ readsAt_zero _
  simp only [headerBytes, List.append_assoc, List.cons_append] at hmagic
  have hversion : ReadsAt blob 3 _ := hmagic.skip rfl
  have htype : ReadsAt blob 4 _ := hversion.next
  have hhash : ReadsAt blob 5 _ := htype.next
  have htimestamp : ReadsAt blob 37 _ := hhash.skip (length_field 32 _)
  have hraw : ReadsAt blob 45 _ := htimestamp.skip (LittleEndian.length_encode 8 _)
  have hcompressed : ReadsAt blob 53 _ := hraw.skip (LittleEndian.length_encode 8 _)
  have hmagic' : slice blob 0 3 = tzaMagic := slice_of_readsAt hmagic rfl
  have hhash' : slice blob 5 37 = _ := slice_of_readsAt hhash (by rw [length_field])
  unfold parseTzaHeader
  rw [if_neg hlength, if_neg (not_not.mpr hmagic'), getD_of_readsAt hversion, getD_of_readsAt htype,
    hhash', wordAt_of_readsAt htimestamp rfl, wordAt_of_readsAt hraw rfl,
    wordAt_of_readsAt hcompressed rfl,
    fromUtf8Lossy_field (simulateSha256_ascii _) (le_length_simulateSha256 _)]
  dsimp only
  rw [if_neg (not_not.mpr rfl), header]

/-! ## Whole files -/

/-- What the writer writes for a snapshot whose room can be reserved, the reader reads: the header has
the sizes of the snapshot and the beginning of the hash of its intent, and behind it stands the data. -/
theorem parse_of_build (s : Snapshot) (ts : UInt64)
    (hroom : tzaHeaderSize + s.compressedSize ≤ isizeMax) :
    ∃ blob h, buildTzaBlob s ts = some blob ∧ parseTzaHeader blob = .ok h ∧
      h.version = tzaVersion ∧ h.blockType = blockSnapshot ∧
      h.rawSize = s.rawSize ∧ h.compressedSize = s.compressedSize ∧
      h.intentHash.toList = (Raid.simulateSha256 (asBytes s.intent)).toList.take 32 ∧
      h.dataOffset = 157 ∧ blob.drop h.dataOffset.toNat = s.compressedData := by
  refine ⟨_, header s ts, buildTzaBlob_eq hroom ts, parseTzaHeader_headerBytes s ts _, rfl, rfl, rfl, rfl,
    String.toList_ofList, rfl, ?_⟩
  exact List.drop_left' (length_headerBytes s ts)

/-- A snapshot of one byte. -/
def oneByte : Snapshot where
  id := "snap_code_run_1"
  intent := "code:run"
  busSeq := 1
  rawSize := 4096
  compressedSize := 1
  compressedHash := ""
  ed25519Seal := "é"
  compressedData := [7]

theorem parse_of_build_oneByte :
    ∃ blob h, buildTzaBlob oneByte 5 = some blob ∧ parseTzaHeader blob = .ok h ∧
      h.version = tzaVersion ∧ h.blockType = blockSnapshot ∧ h.rawSize = 4096 ∧ h.compressedSize = 1 ∧
      h.intentHash.toList = (Raid.simulateSha256 (asBytes "code:run")).toList.take 32 ∧
      h.dataOffset = 157 ∧ blob.drop h.dataOffset.toNat = [7] :=
  parse_of_build oneByte 5 (by decide)

/-- A snapshot whose size says that there are more bytes than a vector can hold: reserving the room
for them panics, though the data is short. -/
theorem oversized_panics :
    buildTzaBlob { oneByte with compressedSize := 0x8000000000000000 } 5 = none := by
  decide

theorem eq_of_buildTzaBlob {s : Snapshot} {ts : UInt64} {blob : List UInt8}
    (h : buildTzaBlob s ts = some blob) : blob = headerBytes s ts ++ s.compressedData := by
  by_cases hroom : tzaHeaderSize + s.compressedSize > isizeMax
  · unfold buildTzaBlob at h
    rw [if_pos hroom] at h
    cases h
  · rw [buildTzaBlob_eq (UInt64.not_lt.mp hroom) ts] at h
    exact (Option.some.inj h).symm

theorem parseTzaHeader_short {blob : List UInt8} (h : blob.length < tzaHeaderSize.toNat) :
    ∃ e, parseTzaHeader blob = .error e := by
  unfold parseTzaHeader
  rw [if_pos h]
  exact ⟨_, rfl⟩

/-- A file that ends too early is refused only if it ends in the header. Otherwise it has the header of
the whole file, which names more data than there is. -/
theorem parse_of_truncated (s : Snapshot) (ts : UInt64) (blob front : List UInt8)
    (hbuild : buildTzaBlob s ts = some blob) (hsize : s.compressedSize.toNat = s.compressedData.length)
    (hfront : front <+: blob) (hstrict : front ≠ blob) :
    ((∃ e, parseTzaHeader front = .error e) ↔ front.length < tzaHeaderSize.toNat) ∧
      (tzaHeaderSize.toNat ≤ front.length → ∃ h, parseTzaHeader front = .ok h ∧
        parseTzaHeader blob = .ok h ∧ front.length < h.dataOffset.toNat + h.compressedSize.toNat) := by
  obtain rfl := eq_of_buildTzaBlob hbuild
  have hlong : tzaHeaderSize.toNat ≤ front.length → parseTzaHeader front = .ok (header s ts) := by
    intro hlength
    have hheader : headerBytes s ts <+: front :=
      List.prefix_of_prefix_length_le (List.prefix_append _ _) hfront
        ((length_headerBytes s ts).trans_le hlength)
    obtain ⟨rest, rfl⟩ := hheader
    exact parseTzaHeader_headerBytes s ts rest
  have hshorter : front.length < tzaHeaderSize.toNat + s.compressedSize.toNat := by
    have hle := hfront.length_le
    have hne : front.length ≠ (headerBytes s ts ++ s.compressedData).length :=
      fun heq => hstrict (hfront.eq_of_length heq)
    rw [List.length_append, length_headerBytes, ← hsize] at hle hne
    exact Nat.lt_of_le_of_ne hle hne
  refine ⟨⟨?_, parseTzaHeader_short⟩, ?_⟩
  · rintro ⟨e, herror⟩
    by_contra hlength
    rw [hlong (Nat.le_of_not_lt hlength)] at herror
    cases herror
  · intro hlength
    exact ⟨header s ts, hlong hlength, parseTzaHeader_headerBytes s ts _, hshorter⟩

theorem parse_of_truncated_oneByte :
    ((∃ e, parseTzaHeader (headerBytes oneByte 5) = .error e) ↔
        (headerBytes oneByte 5).length < tzaHeaderSize.toNat) ∧
      (tzaHeaderSize.toNat ≤ (headerBytes oneByte 5).length →
        ∃ h, parseTzaHeader (headerBytes oneByte 5) = .ok h ∧
          parseTzaHeader (headerBytes oneByte 5 ++ [7]) = .ok h ∧
          (headerBytes oneByte 5).length < h.dataOffset.toNat + h.compressedSize.toNat) :=
  parse_of_truncated oneByte 5 _ _ (buildTzaBlob_eq (by decide) 5) rfl (List.prefix_append _ _)
    (fun h => absurd (List.self_eq_append_right.mp h) (List.cons_ne_nil _ _))

/-- A file that lost all of its data is read like the whole. -/
theorem truncated_file_read :
    ∃ blob, buildTzaBlob oneByte 5 = some blob ∧
      oneByte.compressedSize.toNat = oneByte.compressedData.length ∧
      blob.take 157 <+: blob ∧ blob.take 157 ≠ blob ∧
      ∃ h, parseTzaHeader (blob.take 157) = .ok h := by
  refine ⟨_, buildTzaBlob_eq (by decide) 5, rfl, List.take_prefix _ _, ?_⟩
  rw [List.take_left' (length_headerBytes oneByte 5)]
  exact ⟨fun h => absurd (List.self_eq_append_right.mp h) (List.cons_ne_nil _ _),
    header oneByte 5, by simpa using parseTzaHeader_headerBytes oneByte 5 []⟩

end Spaceshuttle.Recovery
