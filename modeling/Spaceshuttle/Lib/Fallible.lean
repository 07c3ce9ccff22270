import Mathlib.Data.List.Forall2

/-!
# Lists of fallible computations

Running a fallible function over a list succeeds exactly if it succeeds on every element, and the
results then are in the order of the elements.
-/

namespace Fallible

variable {α β ε : Type} {f : α → Except ε β}

theorem mapM_ok_iff (l : List α) (bs : List β) :
    l.mapM f = .ok bs ↔ List.Forall₂ (fun a b => f a = .ok b) l bs := by
  induction l generalizing bs with
  | nil =>
    rw [List.forall₂_nil_left_iff, List.mapM_nil]
    exact ⟨fun h => (Except.ok.inj h).symm, fun h => congrArg Except.ok h.symm⟩
  | cons a l ih =>
    rw [List.mapM_cons, List.forall₂_cons_left_iff]
    constructor
    · intro h
      cases ha : f a with
      | error e =>
        rw [ha] at h
        cases h
      | ok b =>
        cases hl : l.mapM f with
        | error e =>
          rw [ha, hl] at h
          cases h
        | ok bs' =>
          rw [ha, hl] at h
          exact ⟨b, bs', rfl, (ih bs').mp hl, (Except.ok.inj h).symm⟩
    · rintro ⟨b, bs', ha, hl, rfl⟩
      rw [ha, (ih bs').mpr hl]
      rfl

/-- Every result of a run comes from an element. -/
theorem mem_of_mapM_ok {l : List α} {bs : List β} (h : l.mapM f = .ok bs) {b : β} (hb : b ∈ bs) :
    ∃ a ∈ l, f a = .ok b := by
  rw [mapM_ok_iff] at h
  induction h with
  | nil => cases hb
  | @cons a b' l bs hab _ ih =>
    rcases List.mem_cons.mp hb with rfl | hb
    · exact ⟨a, by simp, hab⟩
    · obtain ⟨a', ha', hf⟩ := ih hb
      exact ⟨a', by simp [ha'], hf⟩

/-- A run over a list succeeds if and only if every element does. -/
theorem exists_mapM_ok_iff (l : List α) :
    (∃ bs, l.mapM f = .ok bs) ↔ ∀ a ∈ l, ∃ b, f a = .ok b := by
  induction l with
  | nil => exact ⟨fun _ _ h => (nomatch h), fun _ => ⟨[], rfl⟩⟩
  | cons a l ih =>
    simp only [mapM_ok_iff, List.forall₂_cons_left_iff, List.forall_mem_cons] at ih ⊢
    rw [← ih]
    constructor
    · rintro ⟨_, b, bs, ha, hl, rfl⟩
      exact ⟨⟨b, ha⟩, bs, hl⟩
    · rintro ⟨⟨b, ha⟩, bs, hl⟩
      exact ⟨b :: bs, b, bs, ha, hl, rfl⟩

end Fallible
