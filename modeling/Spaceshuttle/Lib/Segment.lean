import Mathlib.Data.List.Basic

/-!
# Segments of a list

The entries with a property may be exactly those of consecutive positions.
-/

namespace Segment

variable {α : Type} {q : α → Bool} {l : List α} {s k : Nat}

/-- The entries with the property are those of the `k` positions from `s` on. -/
def Exactly (q : α → Bool) (l : List α) (s k : Nat) : Prop :=
  ∀ (i : Nat) (a : α), l[i]? = some a → (q a = true ↔ s ≤ i ∧ i < s + k)

theorem Exactly.filter (h : Exactly q l s k) : l.filter q = (l.drop s).take k := by
  induction l generalizing s k with
  | nil => simp
  | cons a l ih =>
    have hhead := h 0 a rfl
    have htail := fun i b (hb : l[i]? = some b) => h (i + 1) b hb
    cases s with
    | zero =>
      cases k with
      | zero =>
        have hout : ¬ q a = true := fun hq => absurd (hhead.mp hq) (by omega)
        have hrest : Exactly q l 0 0 := fun i b hb => (htail i b hb).trans (by omega)
        rw [List.filter_cons_of_neg hout, ih hrest]
        simp
      | succ k =>
        have hin : q a = true := hhead.mpr (by omega)
        have hrest : Exactly q l 0 k := fun i b hb => (htail i b hb).trans (by omega)
        rw [List.filter_cons_of_pos hin, ih hrest]
        simp
    | succ s =>
      have hout : ¬ q a = true := fun hq => absurd (hhead.mp hq) (by omega)
      have hrest : Exactly q l s k := fun i b hb => (htail i b hb).trans (by omega)
      rw [List.filter_cons_of_neg hout, ih hrest]
      simp

/-- If `k` entries have the property and those of a segment are `k` of them, there are no others. -/
theorem exactly_of_countP (hcount : l.countP q = k)
    (hin : ∀ i < k, ∃ a, l[s + i]? = some a ∧ q a = true) : Exactly q l s k := by
  have hall : ∀ a ∈ (l.drop s).take k, q a = true := by
    intro a ha
    obtain ⟨i, hi⟩ := List.mem_iff_getElem?.mp ha
    rw [List.getElem?_take] at hi
    split at hi
    · next hlt =>
      obtain ⟨b, hb, hq⟩ := hin i hlt
      rw [List.getElem?_drop, hb] at hi
      cases hi
      exact hq
    · cases hi
  have hlength : k ≤ (l.drop s).length := by
    cases k with
    | zero => exact Nat.zero_le _
    | succ k =>
      obtain ⟨a, ha, -⟩ := hin k k.lt_succ_self
      obtain ⟨hlt, -⟩ := List.getElem?_eq_some_iff.mp ha
      rw [List.length_drop]
      omega
  have hmiddle : ((l.drop s).take k).countP q = k := by
    rw [List.countP_eq_length.mpr hall, List.length_take, Nat.min_eq_left hlength]
  have hsplit : l.countP q =
      (l.take s).countP q + (((l.drop s).take k).countP q + ((l.drop s).drop k).countP q) := by
    rw [← List.countP_append, List.take_append_drop, ← List.countP_append, List.take_append_drop]
  have hfront : (l.take s).countP q = 0 := by omega
  have hback : ((l.drop s).drop k).countP q = 0 := by omega
  intro i a ha
  constructor
  · intro hq
    refine ⟨Nat.not_lt.mp fun hlt => ?_, Nat.not_le.mp fun hle => ?_⟩
    · have hmem : a ∈ l.take s := by
        refine List.mem_of_getElem? (i := i) ?_
        rw [List.getElem?_take, if_pos hlt, ha]
      exact List.countP_eq_zero.mp hfront a hmem hq
    · have hmem : a ∈ (l.drop s).drop k := by
        refine List.mem_of_getElem? (i := i - (s + k)) ?_
        rw [List.getElem?_drop, List.getElem?_drop, ← ha]
        congr 1
        omega
      exact List.countP_eq_zero.mp hback a hmem hq
  · rintro ⟨hle, hlt⟩
    obtain ⟨b, hb, hq⟩ := hin (i - s) (by omega)
    rw [Nat.add_sub_cancel' hle, ha] at hb
    cases hb
    exact hq

end Segment
