import Mathlib.Data.List.Infix

/-!
# Windows of a list

The parts of a list of one length, as a sliding window shows them: those that occur in the list.
-/

namespace Window

variable {α : Type}

/-- The windows of length `n`, from the first position to the last. -/
def windows (n : Nat) (l : List α) : List (List α) :=
  (List.range (l.length + 1 - n)).map (fun i => (l.drop i).take n)

theorem mem_windows_iff {w l : List α} : w ∈ windows w.length l ↔ w <:+: l := by
  unfold windows
  rw [List.mem_map]
  constructor
  · rintro ⟨i, -, hw⟩
    rw [← hw]
    exact ((List.take_prefix _ _).isInfix).trans (List.drop_suffix _ _).isInfix
  · rintro ⟨before, after, rfl⟩
    refine ⟨before.length, ?_, ?_⟩
    · rw [List.mem_range, List.length_append, List.length_append]
      omega
    · rw [List.append_assoc, List.drop_left, List.take_left]

end Window
