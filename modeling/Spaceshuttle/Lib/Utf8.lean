import Mathlib.Data.List.Basic
import Mathlib.Tactic.Common
import Spaceshuttle.Lib.Text

/-!
# Decoding what was encoded

The decoder of `Text` gives back every text that was encoded in UTF-8, with whatever follows it
decoded as it would be alone.
-/

namespace Text

/-- The bytes of a text. -/
def encode (text : List Char) : List UInt8 := text.flatMap String.utf8EncodeChar

@[simp] theorem encode_nil : encode [] = [] := rfl

@[simp] theorem encode_cons (c : Char) (text : List Char) :
    encode (c :: text) = String.utf8EncodeChar c ++ encode text := rfl

theorem encode_ne_nil {text : List Char} (h : text ≠ []) : encode text ≠ [] := by
  cases text with
  | nil => exact absurd rfl h
  | cons c text => simp [String.utf8EncodeChar_ne_nil]

/-! ## One character -/

section Character

variable {v : Nat} (rest : List UInt8)

theorem next_one (hv : v < 0x80) : next (UInt8.ofNat v) rest = (some (Char.ofNat v), rest) := by
  have hb : (UInt8.ofNat v).toNat = v := UInt8.toNat_ofNat_of_lt' (by simp [UInt8.size]; omega)
  unfold next
  rw [if_pos (by rw [UInt8.lt_iff_toNat_lt, hb]; exact hv), hb]

/-- A continuation byte of an encoding. -/
theorem isContinuation_ofNat {n : Nat} (hn : n < 0x40) :
    isContinuation (UInt8.ofNat (n + 0x80)) = true ∧ lowBits 6 (UInt8.ofNat (n + 0x80)) = n := by
  have hb : (UInt8.ofNat (n + 0x80)).toNat = n + 0x80 :=
    UInt8.toNat_ofNat_of_lt' (by simp [UInt8.size]; omega)
  constructor
  · simp only [isContinuation, Bool.and_eq_true, decide_eq_true_eq, UInt8.le_iff_toNat_le, hb,
      UInt8.reduceToNat]
    omega
  · simp only [lowBits, hb]
    omega

theorem next_two (hlow : 0x7f < v) (hv : v ≤ 0x7ff) :
    next (UInt8.ofNat (v / 64 % 0x20 + 0xc0)) (UInt8.ofNat (v % 0x40 + 0x80) :: rest) =
      (some (Char.ofNat v), rest) := by
  obtain ⟨hcont, hbits⟩ := isContinuation_ofNat (n := v % 0x40) (by omega)
  have hb : (UInt8.ofNat (v / 64 % 0x20 + 0xc0)).toNat = v / 64 % 0x20 + 0xc0 :=
    UInt8.toNat_ofNat_of_lt' (by simp [UInt8.size]; omega)
  have hfirst : ¬ UInt8.ofNat (v / 64 % 0x20 + 0xc0) < 0x80 := by
    simp only [UInt8.lt_iff_toNat_lt, hb, UInt8.reduceToNat]
    omega
  have hrange : (0xC2 ≤ UInt8.ofNat (v / 64 % 0x20 + 0xc0) &&
      UInt8.ofNat (v / 64 % 0x20 + 0xc0) ≤ 0xDF) = true := by
    simp only [Bool.and_eq_true, decide_eq_true_eq, UInt8.le_iff_toNat_le, hb, UInt8.reduceToNat]
    omega
  have hvalue : lowBits 5 (UInt8.ofNat (v / 64 % 0x20 + 0xc0)) * 64 + v % 0x40 = v := by
    simp only [lowBits, hb]
    omega
  unfold next
  rw [if_neg hfirst, if_pos hrange]
  simp only [hcont, if_true, hbits, hvalue]

theorem next_three (hlow : 0x7ff < v) (hv : v ≤ 0xffff) (hvalid : v < 0xd800 ∨ 0xdfff < v) :
    next (UInt8.ofNat (v / 4096 % 0x10 + 0xe0))
        (UInt8.ofNat (v / 64 % 0x40 + 0x80) :: UInt8.ofNat (v % 0x40 + 0x80) :: rest) =
      (some (Char.ofNat v), rest) := by
  obtain ⟨hcont₁, hbits₁⟩ := isContinuation_ofNat (n := v / 64 % 0x40) (by omega)
  obtain ⟨hcont₂, hbits₂⟩ := isContinuation_ofNat (n := v % 0x40) (by omega)
  have hb : (UInt8.ofNat (v / 4096 % 0x10 + 0xe0)).toNat = v / 4096 % 0x10 + 0xe0 :=
    UInt8.toNat_ofNat_of_lt' (by simp [UInt8.size]; omega)
  have hb₁ : (UInt8.ofNat (v / 64 % 0x40 + 0x80)).toNat = v / 64 % 0x40 + 0x80 :=
    UInt8.toNat_ofNat_of_lt' (by simp [UInt8.size]; omega)
  have hsecond : isSecondOfThree (UInt8.ofNat (v / 4096 % 0x10 + 0xe0))
      (UInt8.ofNat (v / 64 % 0x40 + 0x80)) = true := by
    unfold isSecondOfThree
    simp only [← UInt8.toNat_inj, hb, UInt8.le_iff_toNat_le, hb₁, hcont₁, UInt8.reduceToNat]
    split_ifs <;> simp only [Bool.and_eq_true, decide_eq_true_eq] <;> omega
  have hvalue : (lowBits 4 (UInt8.ofNat (v / 4096 % 0x10 + 0xe0)) * 64 + v / 64 % 0x40) * 64 +
      v % 0x40 = v := by
    simp only [lowBits, hb]
    omega
  unfold next
  rw [if_neg (by simp only [UInt8.lt_iff_toNat_lt, hb, UInt8.reduceToNat]; omega), if_neg, if_pos]
  · simp only [hsecond, hcont₂, if_true, hbits₁, hbits₂, hvalue]
  · simp only [Bool.and_eq_true, decide_eq_true_eq, UInt8.le_iff_toNat_le, hb, UInt8.reduceToNat]
    omega
  · simp only [Bool.and_eq_true, decide_eq_true_eq, UInt8.le_iff_toNat_le, hb, UInt8.reduceToNat]
    omega

theorem next_four (hlow : 0xffff < v) (hv : v < 0x110000) :
    next (UInt8.ofNat (v / 262144 % 0x08 + 0xf0))
        (UInt8.ofNat (v / 4096 % 0x40 + 0x80) :: UInt8.ofNat (v / 64 % 0x40 + 0x80) ::
          UInt8.ofNat (v % 0x40 + 0x80) :: rest) =
      (some (Char.ofNat v), rest) := by
  obtain ⟨hcont₁, hbits₁⟩ := isContinuation_ofNat (n := v / 4096 % 0x40) (by omega)
  obtain ⟨hcont₂, hbits₂⟩ := isContinuation_ofNat (n := v / 64 % 0x40) (by omega)
  obtain ⟨hcont₃, hbits₃⟩ := isContinuation_ofNat (n := v % 0x40) (by omega)
  have hb : (UInt8.ofNat (v / 262144 % 0x08 + 0xf0)).toNat = v / 262144 % 0x08 + 0xf0 :=
    UInt8.toNat_ofNat_of_lt' (by simp [UInt8.size]; omega)
  have hb₁ : (UInt8.ofNat (v / 4096 % 0x40 + 0x80)).toNat = v / 4096 % 0x40 + 0x80 :=
    UInt8.toNat_ofNat_of_lt' (by simp [UInt8.size]; omega)
  have hsecond : isSecondOfFour (UInt8.ofNat (v / 262144 % 0x08 + 0xf0))
      (UInt8.ofNat (v / 4096 % 0x40 + 0x80)) = true := by
    unfold isSecondOfFour
    simp only [← UInt8.toNat_inj, hb, UInt8.le_iff_toNat_le, hb₁, hcont₁, UInt8.reduceToNat]
    split_ifs <;> simp only [Bool.and_eq_true, decide_eq_true_eq] <;> omega
  have hvalue : ((lowBits 3 (UInt8.ofNat (v / 262144 % 0x08 + 0xf0)) * 64 + v / 4096 % 0x40) * 64 +
      v / 64 % 0x40) * 64 + v % 0x40 = v := by
    simp only [lowBits, hb]
    omega
  unfold next
  rw [if_neg (by simp only [UInt8.lt_iff_toNat_lt, hb, UInt8.reduceToNat]; omega), if_neg, if_neg,
    if_pos]
  · simp only [hsecond, hcont₂, hcont₃, if_true, hbits₁, hbits₂, hbits₃, hvalue]
  · simp only [Bool.and_eq_true, decide_eq_true_eq, UInt8.le_iff_toNat_le, hb, UInt8.reduceToNat]
    omega
  · simp only [Bool.and_eq_true, decide_eq_true_eq, UInt8.le_iff_toNat_le, hb, UInt8.reduceToNat]
    omega
  · simp only [Bool.and_eq_true, decide_eq_true_eq, UInt8.le_iff_toNat_le, hb, UInt8.reduceToNat]
    omega

/-- The encoding of a character begins with a byte, and the decoder takes the whole of it. -/
theorem next_utf8EncodeChar (c : Char) :
    ∃ b bytes, String.utf8EncodeChar c = b :: bytes ∧ next b (bytes ++ rest) = (some c, rest) := by
  have hc : Char.ofNat c.val.toNat = c := Char.ofNat_toNat c
  have hvalid : c.val.toNat < 0xd800 ∨ 0xdfff < c.val.toNat ∧ c.val.toNat < 0x110000 := c.valid
  unfold String.utf8EncodeChar
  dsimp only
  split
  · next h₁ => exact ⟨_, _, rfl, by rw [List.nil_append, next_one rest (by omega), hc]⟩
  · split
    · next h₁ h₂ => exact ⟨_, _, rfl, by simpa [hc] using next_two rest (by omega) h₂⟩
    · split
      · next h₂ h₃ => exact ⟨_, _, rfl, by simpa [hc] using next_three rest (by omega) h₃ (by omega)⟩
      · next h₃ =>
        have hnext := next_four (v := c.val.toNat) rest (by omega) (by omega)
        exact ⟨_, _, rfl, by simpa [hc] using hnext⟩

end Character

/-! ## Texts -/

theorem length_next_le (b : UInt8) (bytes : List UInt8) :
    (next b bytes).2.length ≤ bytes.length := by
  unfold next
  split_ifs <;> grind

/-- More fuel than bytes changes nothing. -/
theorem decodeWith_fuel {fuel : Nat} (bytes : List UInt8) (h : bytes.length ≤ fuel) :
    decodeWith fuel bytes = decodeWith bytes.length bytes := by
  induction fuel using Nat.strong_induction_on generalizing bytes with
  | _ fuel ih =>
    cases bytes with
    | nil => rw [decodeWith, decodeWith]
    | cons b bytes =>
      obtain ⟨fuel, rfl⟩ := Nat.exists_eq_succ_of_ne_zero (Nat.ne_of_gt (Nat.lt_of_lt_of_le
        (Nat.succ_pos _) h))
      have hnext := length_next_le b bytes
      rw [List.length_cons] at h ⊢
      rw [decodeWith, decodeWith, ih fuel (by omega) (next b bytes).2 (by omega)]
      by_cases hfuel : bytes.length = fuel
      · rw [hfuel, ih fuel (by omega) (next b bytes).2 (by omega)]
      · rw [ih bytes.length (by omega) (next b bytes).2 hnext]

theorem decodeWith_encode (text : List Char) (rest : List UInt8) :
    decodeWith (encode text ++ rest).length (encode text ++ rest) =
      text.map some ++ decodeWith rest.length rest := by
  induction text with
  | nil => rfl
  | cons c text ih =>
    obtain ⟨b, bytes, hencode, hnext⟩ := next_utf8EncodeChar (encode text ++ rest) c
    rw [encode_cons, hencode, List.append_assoc, List.cons_append, List.length_cons, decodeWith,
      hnext, decodeWith_fuel (encode text ++ rest) (by simp), ih]
    rfl

/-- A text that was encoded is decoded as it was, whatever follows. -/
theorem fromUtf8Lossy_encode_append (text : List Char) (rest : List UInt8) :
    fromUtf8Lossy (encode text ++ rest) = text ++ fromUtf8Lossy rest := by
  unfold fromUtf8Lossy
  rw [decodeWith_encode, List.map_append, List.map_map]
  congr 1
  exact List.map_id text

theorem encode_append (text text' : List Char) :
    encode (text ++ text') = encode text ++ encode text' := List.flatMap_append

theorem mapM_id_map_some (text : List Char) : (text.map some).mapM id = some text := by
  induction text with
  | nil => rfl
  | cons c text ih => rw [List.map_cons, List.mapM_cons, ih]; rfl

theorem fromUtf8_encode (text : List Char) : fromUtf8 (encode text) = some text := by
  have h := decodeWith_encode text []
  rw [List.append_nil] at h
  unfold fromUtf8
  rw [h, List.length_nil, decodeWith, List.append_nil, mapM_id_map_some]

/-- Texts with the same bytes are the same. -/
theorem encode_inj {text text' : List Char} : encode text = encode text' ↔ text = text' := by
  constructor
  · intro h
    have hdecode := congrArg fromUtf8 h
    rw [fromUtf8_encode, fromUtf8_encode] at hdecode
    exact Option.some.inj hdecode
  · exact congrArg encode

/-! ## ASCII -/

/-- ASCII characters take one byte each. -/
theorem encode_ascii {text : List Char} (h : ∀ c ∈ text, c.toNat < 0x80) :
    encode text = text.map (fun c => UInt8.ofNat c.toNat) := by
  induction text with
  | nil => rfl
  | cons c text ih =>
    have hc : c.val.toNat ≤ 0x7f := Nat.le_of_lt_succ (h c List.mem_cons_self)
    rw [encode_cons, ih fun d hd => h d (List.mem_cons_of_mem c hd), String.utf8EncodeChar, if_pos hc]
    rfl

/-! ## Byte arrays -/

theorem loop_toList (bytes : ByteArray) (i : Nat) (taken : List UInt8) :
    ByteArray.toList.loop bytes i taken = taken.reverse ++ bytes.data.toList.drop i := by
  fun_induction ByteArray.toList.loop bytes i taken with
  | case1 i taken hlt ih =>
    have hlength : i < bytes.data.toList.length := by simpa using hlt
    rw [ih, List.reverse_cons, List.append_assoc, List.drop_eq_getElem_cons hlength]
    simp [ByteArray.get!, hlt]
  | case2 i taken hge =>
    have hlength : bytes.data.toList.length ≤ i := by simpa using hge
    rw [List.drop_eq_nil_of_le hlength, List.append_nil]

/-- The bytes of a string are those of its text. -/
theorem toList_toUTF8 (text : String) : text.toUTF8.toList = encode text.toList := by
  rw [ByteArray.toList, loop_toList, List.reverse_nil, List.nil_append, List.drop_zero]
  rw [← String.ofList_toList (s := text), String.toList_ofList]
  show (text.toList.utf8Encode).data.toList = _
  rw [List.utf8Encode, List.toList_data_toByteArray]
  rfl

end Text
