import Mathlib.Data.List.Infix
import Mathlib.Data.List.Pairwise

/-!
# Tables of prefixes

A table whose entries are looked up by a key that the text begins with. When no key begins another,
at most one entry fits a text: the order of the table does not matter, and a key that is the whole
text is found as any other.
-/

namespace Prefixes

variable {α β : Type} (key : β → List α)

/-- Neither key begins the other. -/
def Apart (entry entry' : β) : Prop := ¬ key entry <+: key entry' ∧ ¬ key entry' <+: key entry

instance : Std.Symm (Apart key) := ⟨fun _ _ h => ⟨h.2, h.1⟩⟩

/-- No key begins another. -/
def Free (table : List β) : Prop := table.Pairwise (Apart key)

variable [DecidableEq α]

instance (table : List β) : Decidable (Free key table) := by
  unfold Free Apart
  infer_instance

/-- The first entry whose key the text begins with. -/
def find (text : List α) (table : List β) : Option β :=
  table.find? fun entry => (key entry).isPrefixOf text

variable {key} {text : List α} {table table' : List β} {entry entry' : β}

theorem find_eq_none : find key text table = none ↔ ∀ entry ∈ table, ¬ key entry <+: text := by
  simp [find, List.isPrefixOf_iff_prefix]

theorem find_some (h : find key text table = some entry) : entry ∈ table ∧ key entry <+: text :=
  ⟨List.mem_of_find?_eq_some h, by simpa using List.find?_some h⟩

omit [DecidableEq α] in
/-- At most one entry fits a text. -/
theorem Free.unique (h : Free key table) (hmem : entry ∈ table) (hmem' : entry' ∈ table)
    (hfits : key entry <+: text) (hfits' : key entry' <+: text) : entry = entry' := by
  by_contra hne
  obtain ⟨hno, hno'⟩ := List.Pairwise.forall h hmem hmem' hne
  rcases List.prefix_or_prefix_of_prefix hfits hfits' with hle | hle
  · exact hno hle
  · exact hno' hle

/-- What is found is what fits. -/
theorem Free.find_eq_some (h : Free key table) :
    find key text table = some entry ↔ entry ∈ table ∧ key entry <+: text := by
  refine ⟨find_some, ?_⟩
  rintro ⟨hmem, hfits⟩
  cases hfind : find key text table with
  | none => exact absurd hfits (find_eq_none.mp hfind entry hmem)
  | some entry' =>
    obtain ⟨hmem', hfits'⟩ := find_some hfind
    rw [h.unique hmem hmem' hfits hfits']

/-- The order of the table does not matter. -/
theorem Free.find_perm (h : Free key table) (hperm : table'.Perm table) :
    find key text table' = find key text table := by
  have h' : Free key table' := (hperm.pairwise_iff fun hne => ⟨hne.2, hne.1⟩).mpr h
  ext entry
  rw [h'.find_eq_some, h.find_eq_some, hperm.mem_iff]

/-- A key that is the whole text is found as any other. -/
theorem Free.find_exact (h : Free key table) (hmem : entry ∈ table) (htext : key entry = text) :
    find key text table = some entry :=
  h.find_eq_some.mpr ⟨hmem, htext ▸ List.prefix_rfl⟩

end Prefixes
