import Mathlib.Data.List.Basic
import Mathlib.Data.Set.Insert
import Mathlib.Logic.Function.Basic

/-!
# A table and its copy

A table is written while a copy of it is kept elsewhere. The entries written since they were last
copied are the stale ones; a refresh copies them. At every moment the copy agrees with the table on
the entries that are not stale.
-/

/-- A table, its copy, and the stale entries. -/
structure Mirror (ι α : Type) where
  source : ι → α
  copy : ι → α
  stale : Set ι

namespace Mirror

variable {ι α : Type} [DecidableEq ι]

/-- A copy of which nothing is known. -/
def start (source copy : ι → α) : Mirror ι α := ⟨source, copy, Set.univ⟩

/-- Write one entry of the table. -/
def write (m : Mirror ι α) (i : ι) (a : α) : Mirror ι α :=
  { m with source := Function.update m.source i a, stale := insert i m.stale }

open Classical in
/-- Copy the stale entries. -/
noncomputable def refresh (m : Mirror ι α) : Mirror ι α :=
  { m with copy := fun i => if i ∈ m.stale then m.source i else m.copy i, stale := ∅ }

/-- What happens to a mirror. -/
inductive Op (ι α : Type) where
  | write (i : ι) (a : α)
  | refresh

/-- One of the two happens. -/
noncomputable def apply (m : Mirror ι α) : Op ι α → Mirror ι α
  | .write i a => m.write i a
  | .refresh => m.refresh

/-- A run of writes and refreshes. -/
noncomputable def run (m : Mirror ι α) (ops : List (Op ι α)) : Mirror ι α := ops.foldl apply m

/-- The copy is right wherever it is not stale. -/
def Agrees (m : Mirror ι α) : Prop := ∀ i, i ∉ m.stale → m.copy i = m.source i

omit [DecidableEq ι] in
theorem agrees_start (source copy : ι → α) : (start source copy).Agrees :=
  fun i hi => absurd (Set.mem_univ i) hi

theorem Agrees.write {m : Mirror ι α} (h : m.Agrees) (i : ι) (a : α) : (m.write i a).Agrees := by
  intro j hj
  have hne : j ≠ i := fun heq => hj (Set.mem_insert_iff.mpr (Or.inl heq))
  have hclean : j ∉ m.stale := fun hmem => hj (Set.mem_insert_of_mem i hmem)
  show m.copy j = Function.update m.source i a j
  rw [Function.update_of_ne hne, h j hclean]

omit [DecidableEq ι] in
/-- After a refresh the copy is the table. -/
theorem Agrees.refresh_copy {m : Mirror ι α} (h : m.Agrees) : m.refresh.copy = m.source := by
  funext i
  by_cases hi : i ∈ m.stale
  · exact if_pos hi
  · exact (if_neg hi).trans (h i hi)

theorem Agrees.apply {m : Mirror ι α} (h : m.Agrees) (op : Op ι α) : (m.apply op).Agrees := by
  cases op with
  | write i a => exact h.write i a
  | refresh => exact fun i _ => congrFun h.refresh_copy i

theorem Agrees.run {m : Mirror ι α} (h : m.Agrees) (ops : List (Op ι α)) : (m.run ops).Agrees := by
  induction ops generalizing m with
  | nil => exact h
  | cons op ops ih => exact ih (h.apply op)

theorem run_concat (m : Mirror ι α) (ops : List (Op ι α)) (op : Op ι α) :
    m.run (ops ++ [op]) = (m.run ops).apply op :=
  List.foldl_concat apply m op ops

end Mirror
