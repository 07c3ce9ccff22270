import Mathlib.Algebra.BigOperators.Group.List.Basic
import Mathlib.Algebra.Order.Floor.Div

/-!
# Tiles

A length is cut into tiles of one size, of which the last may be shorter. There are `n ⌈/⌉ c` tiles
of size `c` in a length `n`.
-/

namespace Tiles

/-- The size of tile `i`, which starts at `i * c`. -/
def size (n c i : Nat) : Nat := min c (n - i * c)

variable {n c i : Nat}

theorem lt_count_iff (hc : 0 < c) : i < n ⌈/⌉ c ↔ i * c < n := by
  rw [← not_le, ceilDiv_le_iff_le_mul hc, not_le, Nat.mul_comm]

theorem count_le (hc : 0 < c) : n ⌈/⌉ c ≤ n := by
  rw [ceilDiv_le_iff_le_mul hc]
  exact Nat.le_mul_of_pos_left n hc

theorem size_le : size n c i ≤ c := Nat.min_le_left _ _

theorem size_pos (hc : 0 < c) (hi : i < n ⌈/⌉ c) : 0 < size n c i := by
  rw [lt_count_iff hc] at hi
  unfold size
  omega

/-- A tile before the last one has the full size. -/
theorem size_of_succ_lt (hc : 0 < c) (hi : i + 1 < n ⌈/⌉ c) : size n c i = c := by
  rw [lt_count_iff hc, Nat.succ_mul] at hi
  unfold size
  omega

/-- The last tile has what is left, or the full size. -/
theorem size_last (hc : 0 < c) (hi : i + 1 = n ⌈/⌉ c) :
    size n c i = if n % c > 0 then n % c else c := by
  have hlast : i * c < n := (lt_count_iff hc).mp (by omega)
  have hend : n ≤ (i + 1) * c := by
    rw [← not_lt, ← lt_count_iff hc]
    omega
  obtain ⟨r, rfl⟩ := Nat.exists_eq_add_of_lt hlast
  rw [Nat.succ_mul] at hend
  unfold size
  rw [Nat.add_assoc, Nat.mul_add_mod_self_right]
  rcases Nat.lt_or_eq_of_le (show r + 1 ≤ c by omega) with hlt | heq
  · rw [Nat.mod_eq_of_lt hlt]
    split <;> omega
  · rw [heq, Nat.mod_self]
    split <;> omega

/-- The first `k` tiles cover `k * c`, or everything. -/
theorem sum_size_range (n c k : Nat) : ((List.range k).map (size n c)).sum = min n (k * c) := by
  induction k with
  | zero => simp
  | succ k ih =>
    rw [List.sum_range_succ, ih, Nat.succ_mul]
    unfold size
    omega

/-- The tiles cover the length exactly. -/
theorem sum_size (hc : 0 < c) : ((List.range (n ⌈/⌉ c)).map (size n c)).sum = n := by
  rw [sum_size_range]
  have hall : n ≤ (n ⌈/⌉ c) * c := by
    rw [Nat.mul_comm, ← ceilDiv_le_iff_le_mul hc]
  omega

end Tiles
