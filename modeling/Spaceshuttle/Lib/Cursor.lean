import Mathlib.Data.List.Basic

/-!
# Reading at absolute positions

What stands in a list from a position on. A writer appends its fields one behind the other; a reader
that goes by positions finds each field where the fields before it end.
-/

namespace Cursor

variable {α : Type}

/-- From position `pos` on, `data` reads `back`. -/
def ReadsAt (data : List α) (pos : Nat) (back : List α) : Prop :=
  ∃ front, data = front ++ back ∧ front.length = pos

variable {data front back : List α} {pos n : Nat}

theorem readsAt_zero (data : List α) : ReadsAt data 0 data := ⟨[], rfl, rfl⟩

namespace ReadsAt

/-- Behind a field stands what was written after it. -/
theorem skip (h : ReadsAt data pos (front ++ back)) (hn : front.length = n) :
    ReadsAt data (pos + n) back := by
  obtain ⟨before, rfl, rfl⟩ := h
  exact ⟨before ++ front, (List.append_assoc before front back).symm, by rw [List.length_append, hn]⟩

theorem next {a : α} (h : ReadsAt data pos (a :: back)) : ReadsAt data (pos + 1) back := by
  rw [← List.singleton_append] at h
  exact h.skip rfl

theorem length (h : ReadsAt data pos back) : pos + back.length = data.length := by
  obtain ⟨before, rfl, rfl⟩ := h
  rw [List.length_append]

theorem getElem? (h : ReadsAt data pos back) (i : Nat) : data[pos + i]? = back[i]? := by
  obtain ⟨before, rfl, rfl⟩ := h
  rw [List.getElem?_append_right (Nat.le_add_right _ _), Nat.add_sub_cancel_left]

theorem drop (h : ReadsAt data pos back) : data.drop pos = back := by
  obtain ⟨before, rfl, rfl⟩ := h
  exact List.drop_left

/-- The field itself. -/
theorem take (h : ReadsAt data pos (front ++ back)) (hn : front.length = n) :
    (data.drop pos).take n = front := by
  rw [h.drop, ← hn, List.take_left]

end ReadsAt

end Cursor
