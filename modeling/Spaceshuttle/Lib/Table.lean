import Mathlib.Algebra.BigOperators.Group.Finset.Basic
import Mathlib.Data.Fintype.BigOperators

/-!
# Counting the entries of a table

A table is a function from a finite index type. The number of entries with a property changes by
at most one when one entry is replaced.
-/

namespace Table

variable {ι α : Type} [Fintype ι]

/-- The number of entries of `f` with property `p`. -/
def count (p : α → Bool) (f : ι → α) : Nat :=
  (Finset.univ.filter (fun i => p (f i) = true)).card

theorem count_eq_sum (p : α → Bool) (f : ι → α) :
    count p f = ∑ i, if p (f i) then 1 else 0 := by
  rw [count, Finset.card_filter]

/-- Replacing one entry. -/
theorem count_update [DecidableEq ι] (p : α → Bool) (f : ι → α) (i : ι) (a : α) :
    count p (Function.update f i a) + (if p (f i) then 1 else 0) =
      count p f + (if p a then 1 else 0) := by
  have hsum : ∀ g : ι → α, count p g =
      (if p (g i) then 1 else 0) + ∑ j ∈ Finset.univ.erase i, if p (g j) then 1 else 0 := by
    intro g
    rw [count_eq_sum]
    exact (Finset.add_sum_erase _ (fun j => if p (g j) then 1 else 0) (Finset.mem_univ i)).symm
  have hrest : (∑ j ∈ Finset.univ.erase i, if p (Function.update f i a j) then 1 else 0) =
      ∑ j ∈ Finset.univ.erase i, if p (f j) then 1 else 0 := by
    apply Finset.sum_congr rfl
    intro j hj
    rw [Function.update_of_ne (Finset.ne_of_mem_erase hj)]
  rw [hsum (Function.update f i a), hsum f, hrest, Function.update_self]
  omega

theorem count_le (p : α → Bool) (f : ι → α) : count p f ≤ Fintype.card ι :=
  Finset.card_le_univ _

theorem count_pos {p : α → Bool} {f : ι → α} {i : ι} (h : p (f i) = true) : 0 < count p f :=
  Finset.card_pos.mpr ⟨i, by simp [h]⟩

/-- A property that excludes another one adds up with it. -/
theorem count_or {p q : α → Bool} (f : ι → α) (h : ∀ a, p a = true → q a = false) :
    count (fun a => p a || q a) f = count p f + count q f := by
  rw [count_eq_sum, count_eq_sum, count_eq_sum, ← Finset.sum_add_distrib]
  apply Finset.sum_congr rfl
  intro i _
  have hi := h (f i)
  cases hp : p (f i) <;> cases hq : q (f i) <;> simp_all

/-- A table as a list. -/
theorem countP_ofFn {n : Nat} (p : α → Bool) (f : Fin n → α) :
    (List.ofFn f).countP p = count p f := by
  rw [List.ofFn_eq_map, List.countP_map, List.countP_eq_length_filter,
    ← List.toFinset_card_of_nodup ((List.nodup_finRange n).filter _), List.toFinset_filter,
    List.toFinset_finRange]
  rfl

theorem count_true {p : α → Bool} {f : ι → α} (h : ∀ i, p (f i) = true) :
    count p f = Fintype.card ι := by
  simp [count, h]

end Table
