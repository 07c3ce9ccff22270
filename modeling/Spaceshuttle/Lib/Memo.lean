import Mathlib.Data.List.AList

/-!
# Memo tables

A memo table maps some arguments of a function to its values. When it is full it is emptied
before the next entry goes in. A table whose entries all are values of the function answers like
the function itself, whatever it still holds.
-/

namespace Memo

variable {α β : Type} [DecidableEq α]

/-- Enter a value; a full table is emptied first. -/
def put (capacity : Nat) (t : AList (fun _ : α => β)) (a : α) (b : β) : AList (fun _ : α => β) :=
  (if t.entries.length ≥ capacity then ∅ else t).insert a b

/-- Every entry is a value of `f`. -/
def Sound (f : α → β) (t : AList (fun _ : α => β)) : Prop :=
  ∀ a b, t.lookup a = some b → b = f a

variable {f : α → β} {t : AList (fun _ : α => β)}

theorem sound_empty : Sound f ∅ := by
  intro a b h
  rw [AList.lookup_empty] at h
  cases h

theorem sound_insert (ht : Sound f t) (a : α) : Sound f (t.insert a (f a)) := by
  intro a' b h
  by_cases haa' : a' = a
  · subst haa'
    rw [AList.lookup_insert] at h
    exact (Option.some.inj h).symm
  · rw [AList.lookup_insert_ne haa'] at h
    exact ht a' b h

theorem sound_put (ht : Sound f t) (capacity : Nat) (a : α) : Sound f (put capacity t a (f a)) := by
  unfold put
  split
  · exact sound_insert sound_empty a
  · exact sound_insert ht a

/-- A table that was put to holds at most `capacity` entries, or the one of the put. -/
theorem length_put_le (capacity : Nat) (t : AList (fun _ : α => β)) (a : α) (b : β) :
    (put capacity t a b).entries.length ≤ max capacity 1 := by
  have hinsert : ∀ t' : AList (fun _ : α => β),
      (t'.insert a b).entries.length ≤ t'.entries.length + 1 := by
    intro t'
    rw [AList.entries_insert, List.length_cons]
    exact Nat.succ_le_succ (List.kerase_sublist a t'.entries).length_le
  unfold put
  split
  · have hone := hinsert ∅
    rw [AList.empty_entries, List.length_nil] at hone
    omega
  · have hnext := hinsert t
    omega

/-- A hit is the value itself. -/
theorem lookup_getD (ht : Sound f t) (a : α) : (t.lookup a).getD (f a) = f a := by
  cases h : t.lookup a with
  | none => rfl
  | some b => exact ht a b h

end Memo
