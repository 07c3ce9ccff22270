import Mathlib.Data.Nat.Basic
import Mathlib.Tactic.IntervalCases

/-!
# Numbers from their digits

The value of a text of digits in a base up to 16. A number is the value of its digits, also behind
zeros, so numbers with equal digits are equal.
-/

namespace Digits

/-- The value of a digit. -/
def value (c : Char) : Nat := if c.toNat < 'a'.toNat then c.toNat - '0'.toNat else c.toNat - 'W'.toNat

/-- The value of some digits. -/
def ofDigits (b : Nat) (digits : List Char) : Nat := digits.foldl (fun n c => b * n + value c) 0

theorem value_digitChar {d : Nat} (h : d < 16) : value (Nat.digitChar d) = d := by
  interval_cases d <;> rfl

variable {b : Nat}

theorem ofDigits_concat (digits : List Char) (c : Char) :
    ofDigits b (digits ++ [c]) = b * ofDigits b digits + value c := by
  rw [ofDigits, List.foldl_append]
  rfl

/-- A number is the value of its digits. -/
theorem ofDigits_toDigits (hb : 1 < b) (hb16 : b ≤ 16) (n : Nat) :
    ofDigits b (Nat.toDigits b n) = n := by
  induction n using Nat.strongRecOn with
  | ind n ih =>
    rw [Nat.toDigits_eq_if hb]
    split
    · next hlt => exact (Nat.zero_add _).trans (value_digitChar (hlt.trans_le hb16))
    · next hge =>
      rw [ofDigits_concat, ih (n / b) (Nat.div_lt_self (by omega) hb),
        value_digitChar ((Nat.mod_lt n (by omega)).trans_le hb16)]
      exact Nat.div_add_mod n b

/-- Zeros before the digits do not count. -/
theorem ofDigits_zeros (zeros : Nat) (digits : List Char) :
    ofDigits b (List.replicate zeros '0' ++ digits) = ofDigits b digits := by
  induction zeros with
  | zero => rfl
  | succ zeros ih =>
    rw [List.replicate_succ, List.cons_append, ← ih, ofDigits, List.foldl_cons]
    rfl

end Digits
