import Mathlib.Data.List.Basic

/-!
# Fields around a separator

Two lists written one after the other with a separator between them. What is written determines the
lists up to the choice of which separator is the one between them, so it determines them if one of
the two cannot contain a separator.
-/

namespace Separated

variable {α : Type}

/-- Two fields with the separator between them. -/
def join (sep : α) (first second : List α) : List α := first ++ sep :: second

/-- The second pair has a later separator of the first pair as the one between its fields. -/
def Shifted (sep : α) (first second first' second' : List α) : Prop :=
  ∃ middle, first' = first ++ sep :: middle ∧ second = middle ++ sep :: second'

instance [DecidableEq α] (sep : α) (first second first' second' : List α) :
    Decidable (Shifted sep first second first' second') :=
  decidable_of_iff
    (first' = first ++ sep :: first'.drop (first.length + 1) ∧
      second = first'.drop (first.length + 1) ++ sep :: second') <| by
    constructor
    · rintro ⟨hfirst, hsecond⟩
      exact ⟨_, hfirst, hsecond⟩
    · rintro ⟨middle, rfl, rfl⟩
      simp

variable {sep : α} {first second first' second' : List α}

theorem Shifted.join_eq (h : Shifted sep first second first' second') :
    join sep first second = join sep first' second' := by
  obtain ⟨middle, rfl, rfl⟩ := h
  simp [join]

theorem Shifted.length_lt (h : Shifted sep first second first' second') :
    first.length < first'.length := by
  obtain ⟨middle, rfl, -⟩ := h
  rw [List.length_append, List.length_cons]
  omega

theorem Shifted.mem (h : Shifted sep first second first' second') : sep ∈ second := by
  obtain ⟨middle, -, rfl⟩ := h
  simp

/-- Pairs are written alike only if they are equal or one is the other with its separator shifted. -/
theorem join_eq_join_iff :
    join sep first second = join sep first' second' ↔
      (first = first' ∧ second = second') ∨ Shifted sep first second first' second' ∨
        Shifted sep first' second' first second := by
  constructor
  · intro h
    rcases List.append_eq_append_iff.mp h with ⟨tail, hfirst, hrest⟩ | ⟨tail, hfirst, hrest⟩
    · cases tail with
      | nil =>
        rw [List.append_nil] at hfirst
        injection hrest with _ hsecond
        exact .inl ⟨hfirst.symm, hsecond⟩
      | cons c middle =>
        injection hrest with hc hsecond
        rw [← hc] at hfirst
        exact .inr (.inl ⟨middle, hfirst, hsecond⟩)
    · cases tail with
      | nil =>
        rw [List.append_nil] at hfirst
        injection hrest with _ hsecond
        exact .inl ⟨hfirst, hsecond.symm⟩
      | cons c middle =>
        injection hrest with hc hsecond
        rw [← hc] at hfirst
        exact .inr (.inr ⟨middle, hfirst, hsecond⟩)
  · rintro (⟨rfl, rfl⟩ | h | h)
    · rfl
    · exact h.join_eq
    · exact h.join_eq.symm

/-- Where the last field has no separator, it can be told from the first. -/
theorem join_inj_of_notMem (h : sep ∉ second) (h' : sep ∉ second') :
    join sep first second = join sep first' second' ↔ first = first' ∧ second = second' := by
  rw [join_eq_join_iff]
  constructor
  · rintro (heq | hshift | hshift)
    · exact heq
    · exact absurd hshift.mem h
    · exact absurd hshift.mem h'
  · exact .inl

end Separated
