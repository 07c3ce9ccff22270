import Mathlib.Data.List.MinMax
import Spaceshuttle.Lib.Scan

/-!
# Selecting, then checking

A search selects the first of the admissible elements of least rank, and what it selected is then
checked. A selection that fails the check ends the search, so a bad element may hide a good one.
-/

namespace Selection

open Scan (FirstLeast firstLeast_concat_new)

variable {α κ : Type} [LinearOrder κ] {p : α → Bool} {key : α → κ} {l : List α} {m : α}

/-! ## What is selected -/

theorem firstLeast_of_argmin (h : (l.filter p).argmin key = some m) :
    FirstLeast (fun a => p a = true) key l m := by
  induction l using List.reverseRecOn generalizing m with
  | nil => cases h
  | append_singleton l a ih =>
    rw [List.filter_append] at h
    cases ha : p a with
    | false =>
      rw [List.filter_singleton, ha, Bool.cond_false, List.append_nil] at h
      exact (ih h).concat fun htrue => by rw [ha] at htrue; cases htrue
    | true =>
      rw [List.filter_singleton, ha, Bool.cond_true, List.argmin_concat] at h
      cases hbefore : (l.filter p).argmin key with
      | none =>
        rw [hbefore] at h
        cases h
        rw [List.argmin_eq_none, List.filter_eq_nil_iff] at hbefore
        exact firstLeast_concat_new ha fun j hj hpj => absurd hpj (hbefore j hj)
      | some c =>
        rw [hbefore] at h
        dsimp only at h
        split at h
        · next hlt =>
          cases h
          exact firstLeast_concat_new ha fun j hj hpj =>
            hlt.trans_le ((ih hbefore).least j hj hpj)
        · next hle =>
          cases h
          exact (ih hbefore).concat fun _ => not_lt.mp hle

/-- The first match is selected when all have one rank. -/
theorem firstLeast_of_find? (hkey : ∀ a b, key a = key b) (h : l.find? p = some m) :
    FirstLeast (fun a => p a = true) key l m := by
  obtain ⟨hp, before, after, hl, hbefore⟩ := List.find?_eq_some_iff_append.mp h
  refine ⟨hp, fun a _ _ => (hkey m a).le, before, after, hl, fun a ha hpa => ?_⟩
  have hnot := hbefore a ha
  rw [hpa] at hnot
  cases hnot

/-- The last match has no match behind it. -/
theorem getLast?_filter_eq_some_iff : (l.filter p).getLast? = some m ↔
    p m = true ∧ ∃ before after, l = before ++ m :: after ∧ ∀ a ∈ after, ¬ p a = true := by
  rw [List.getLast?_filter, List.find?_eq_some_iff_append]
  refine and_congr_right fun _ => ⟨?_, ?_⟩
  · rintro ⟨behind, front, hl, hbehind⟩
    refine ⟨front.reverse, behind.reverse, ?_, fun a ha => ?_⟩
    · rw [← List.reverse_reverse l, hl, List.reverse_append, List.reverse_cons, List.append_assoc,
        List.singleton_append]
    · simpa using hbehind a (List.mem_reverse.mp ha)
  · rintro ⟨before, after, rfl, hafter⟩
    refine ⟨after.reverse, before.reverse, ?_, fun a ha => ?_⟩
    · rw [List.reverse_append, List.reverse_cons, List.append_assoc, List.singleton_append]
    · simpa using hafter a (List.mem_reverse.mp ha)

/-! ## What passes the check -/

/-- Every admissible element that fails the check is behind one that passes it: one of lower rank, or
one of the same rank that stands before it. -/
def GoodAhead (q v : α → Prop) (key : α → κ) (l : List α) : Prop :=
  ∀ front a back, l = front ++ a :: back → q a → ¬ v a →
    (∃ b ∈ l, q b ∧ v b ∧ key b < key a) ∨ ∃ b ∈ front, q b ∧ v b ∧ key b = key a

variable {q v : α → Prop}

/-- What is selected passes the check if and only if nothing bad is ahead of the good elements. -/
theorem accepted_iff (h : FirstLeast q key l m) : v m ↔ GoodAhead q v key l := by
  obtain ⟨before, after, hl, hbefore⟩ := h.first
  constructor
  · intro hm front a back hsplit hqa hva
    rcases (h.least a (by rw [hsplit]; simp) hqa).lt_or_eq with hlt | heq
    · exact .inl ⟨m, by rw [hl]; simp, h.qualifies, hm, hlt⟩
    · refine .inr ⟨m, ?_, h.qualifies, hm, heq⟩
      -- `a` does not stand before `m`, where all ranks are higher
      rw [hl, List.append_eq_append_iff] at hsplit
      rcases hsplit with ⟨between, rfl, hback⟩ | ⟨between, rfl, hback⟩
      · cases between with
        | nil =>
          cases hback
          exact absurd hm hva
        | cons b between =>
          cases hback
          simp
      · cases between with
        | nil =>
          cases hback
          exact absurd hm hva
        | cons b between =>
          cases hback
          exact absurd heq (hbefore a (by simp) hqa).ne
  · intro hahead
    by_contra hm
    rcases hahead before m after hl h.qualifies hm with ⟨b, hb, hqb, -, hlt⟩ | ⟨b, hb, hqb, -, heq⟩
    · exact absurd (h.least b hb hqb) hlt.not_ge
    · exact absurd heq (hbefore b hb hqb).ne'

/-- A search with a check finds something whenever there is something good, if and only if there is
nothing good or nothing bad is ahead of the good. -/
theorem complete_iff {o : Option α} (hsome : ∀ m, o = some m → FirstLeast q key l m)
    (hnone : o = none → ∀ a ∈ l, ¬ q a) :
    ((∃ m, o = some m ∧ v m) ↔ ∃ a ∈ l, q a ∧ v a) ↔
      (∀ a ∈ l, q a → ¬ v a) ∨ GoodAhead q v key l := by
  cases o with
  | none =>
    have hempty := hnone rfl
    refine iff_of_true (iff_of_false ?_ ?_) (.inl fun a ha hqa => absurd hqa (hempty a ha))
    · rintro ⟨m, hm, -⟩
      cases hm
    · rintro ⟨a, ha, hqa, -⟩
      exact hempty a ha hqa
  | some m =>
    have h := hsome m rfl
    have hmem : m ∈ l := by
      obtain ⟨before, after, hl, -⟩ := h.first
      simp [hl]
    have hselected : (∃ a, some m = some a ∧ v a) ↔ v m := by simp
    rw [hselected, ← accepted_iff h]
    constructor
    · intro hiff
      by_cases hm : v m
      · exact .inr hm
      · exact .inl fun a ha hqa hva => hm (hiff.mpr ⟨a, ha, hqa, hva⟩)
    · rintro (hnothing | hm)
      · exact iff_of_false (hnothing m hmem h.qualifies) fun ⟨a, ha, hqa, hva⟩ => hnothing a ha hqa hva
      · exact iff_of_true hm ⟨m, hmem, h.qualifies, hm⟩

end Selection
