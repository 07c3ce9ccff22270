import Mathlib.Data.List.Basic
import Mathlib.Data.List.Induction

/-!
# Scanning for a minimum

A loop goes over a list with a candidate and a bound. An element that qualifies and has a key below
the bound becomes the candidate, and its key the bound. The loop ends with the first of the
qualifying elements of least key, or without a candidate if no key is below the bound it started
with.
-/

namespace Scan

variable {ι κ : Type} [LE κ] [LT κ]

/-- One iteration. -/
def step [DecidableLT κ] (q : ι → Prop) [DecidablePred q] (key : ι → κ) (acc : Option ι × κ) (i : ι) :
    Option ι × κ :=
  if q i ∧ key i < acc.2 then (some i, key i) else acc

/-- Of the elements that qualify, `v` is the first one of least key. -/
structure FirstLeast (q : ι → Prop) (key : ι → κ) (l : List ι) (v : ι) : Prop where
  qualifies : q v
  least : ∀ i ∈ l, q i → key v ≤ key i
  first : ∃ before after, l = before ++ v :: after ∧ ∀ i ∈ before, q i → key v < key i

/-- What the loop has found. -/
inductive Found (q : ι → Prop) (key : ι → κ) (top : κ) (l : List ι) : Option ι × κ → Prop where
  | nothing (h : ∀ i ∈ l, q i → top ≤ key i) : Found q key top l (none, top)
  | candidate (v : ι) (h : FirstLeast q key l v) (hbelow : key v < top) :
      Found q key top l (some v, key v)

variable {q : ι → Prop} {key : ι → κ} {top : κ} {l : List ι}

theorem FirstLeast.concat {v : ι} (h : FirstLeast q key l v) {i : ι}
    (hi : q i → key v ≤ key i) : FirstLeast q key (l ++ [i]) v := by
  obtain ⟨before, after, rfl, hbefore⟩ := h.first
  refine ⟨h.qualifies, ?_, before, after ++ [i], by simp, hbefore⟩
  intro j hj hqj
  rcases List.mem_append.mp hj with hj | hj
  · exact h.least j hj hqj
  · obtain rfl := List.mem_singleton.mp hj
    exact hi hqj

variable [Std.IsLinearOrder κ] [Std.LawfulOrderLT κ]

/-- The new element is the first one of its key, which is below every key so far. -/
theorem firstLeast_concat_new {i : ι} (hi : q i) (hlt : ∀ j ∈ l, q j → key i < key j) :
    FirstLeast q key (l ++ [i]) i := by
  refine ⟨hi, ?_, l, [], rfl, hlt⟩
  intro j hj hqj
  rcases List.mem_append.mp hj with hj | hj
  · exact Std.le_of_lt (hlt j hj hqj)
  · rw [List.mem_singleton.mp hj]
    exact Std.le_refl (key i)

variable [DecidableLT κ] [DecidablePred q]

theorem Found.step {acc : Option ι × κ} (h : Found q key top l acc) (i : ι) :
    Found q key top (l ++ [i]) (step q key acc i) := by
  unfold Scan.step
  cases h with
  | nothing h =>
    split
    · next hi =>
      refine .candidate i (firstLeast_concat_new hi.1 fun j hj hqj => ?_) hi.2
      exact Std.lt_of_lt_of_le hi.2 (h j hj hqj)
    · next hi =>
      refine .nothing fun j hj hqj => ?_
      rcases List.mem_append.mp hj with hj | hj
      · exact h j hj hqj
      · obtain rfl := List.mem_singleton.mp hj
        exact Std.not_lt.mp fun hlt => hi ⟨hqj, hlt⟩
  | candidate v h hbelow =>
    split
    · next hi =>
      refine .candidate i (firstLeast_concat_new hi.1 fun j hj hqj => ?_)
        (Std.lt_of_lt_of_le hi.2 (Std.le_of_lt hbelow))
      exact Std.lt_of_lt_of_le hi.2 (h.least j hj hqj)
    · next hi =>
      refine .candidate v (h.concat fun hqi => ?_) hbelow
      exact Std.not_lt.mp fun hlt => hi ⟨hqi, hlt⟩

theorem found_foldl (q : ι → Prop) [DecidablePred q] (key : ι → κ) (top : κ) (l : List ι) :
    Found q key top l (l.foldl (step q key) (none, top)) := by
  induction l using List.reverseRecOn with
  | nil => exact .nothing fun i hi => (nomatch hi)
  | append_singleton l i ih =>
    rw [List.foldl_concat]
    exact ih.step i

/-- The loop ends without a candidate exactly if no qualifying key is below the bound. -/
theorem foldl_eq_none_iff :
    (l.foldl (step q key) (none, top)).1 = none ↔ ∀ i ∈ l, q i → top ≤ key i := by
  have hfound := found_foldl q key top l
  generalize l.foldl (step q key) (none, top) = acc at hfound
  cases hfound with
  | nothing h => exact iff_of_true rfl h
  | candidate v h hbelow =>
    obtain ⟨before, after, rfl, -⟩ := h.first
    refine iff_of_false (by simp) fun hnone => ?_
    exact Std.lt_irrefl (Std.lt_of_lt_of_le hbelow (hnone v (by simp) h.qualifies))

theorem firstLeast_of_foldl {v : ι} (h : (l.foldl (step q key) (none, top)).1 = some v) :
    FirstLeast q key l v ∧ key v < top := by
  have hfound := found_foldl q key top l
  generalize l.foldl (step q key) (none, top) = acc at h hfound
  cases hfound with
  | nothing _ => cases h
  | candidate w hw hbelow =>
    cases h
    exact ⟨hw, hbelow⟩

end Scan
