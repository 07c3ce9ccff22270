import Mathlib.Data.Nat.Digits.Defs
import Mathlib.Data.UInt

/-!
# Little-endian words

Words as bytes, the least significant byte first, and back.
-/

namespace LittleEndian

/-- The lowest `width` bytes of a number. -/
def encode (width n : Nat) : List UInt8 :=
  (List.range width).map (fun i => UInt8.ofNat (n / 256 ^ i))

/-- The number that bytes stand for. -/
def decode (bytes : List UInt8) : Nat := Nat.ofDigits 256 (bytes.map UInt8.toNat)

@[simp] theorem length_encode (width n : Nat) : (encode width n).length = width := by
  rw [encode, List.length_map, List.length_range]

theorem encode_succ (width n : Nat) :
    encode (width + 1) n = encode width n ++ [UInt8.ofNat (n / 256 ^ width)] := by
  rw [encode, List.range_succ, List.map_append]
  rfl

/-- What was written is read back, up to the width. -/
theorem decode_encode (width n : Nat) : decode (encode width n) = n % 256 ^ width := by
  induction width with
  | zero => rw [Nat.pow_zero, Nat.mod_one]; rfl
  | succ width ih =>
    have hlast : (UInt8.ofNat (n / 256 ^ width)).toNat = n / 256 ^ width % 256 := UInt8.toNat_ofNat'
    unfold decode at *
    rw [encode_succ, List.map_append, Nat.ofDigits_append, ih, List.length_map, length_encode,
      List.map_singleton, Nat.ofDigits_singleton, hlast, Nat.mod_pow_succ]

/-- A 64-bit word survives. -/
theorem decode_encode_word (w : UInt64) : UInt64.ofNat (decode (encode 8 w.toNat)) = w := by
  have hlt : w.toNat < 256 ^ 8 := w.toNat_lt
  rw [decode_encode, Nat.mod_eq_of_lt hlt, UInt64.ofNat_toNat]

end LittleEndian
