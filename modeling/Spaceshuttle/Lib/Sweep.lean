import Mathlib.Data.List.FinRange
import Mathlib.Logic.Function.Basic

/-!
# Loops that treat every index once

An iteration of such a loop rewrites the entry of its own index and reads no other entry. After
the loop every entry is what its own iteration made of the entry before the loop, whatever else the
loop counts or collects on the way.
-/

namespace Sweep

variable {ι σ β : Type} [DecidableEq ι]

/-- The iteration for `i` changes the entry of `i` only, and by `f i`. -/
def Pointwise (step : σ → ι → σ) (entry : σ → ι → β) (f : ι → β → β) : Prop :=
  ∀ s i, entry (step s i) = Function.update (entry s) i (f i (entry s i))

variable {step : σ → ι → σ} {entry : σ → ι → β} {f : ι → β → β}

theorem foldl_of_not_mem (h : Pointwise step entry f) {l : List ι} {j : ι} (hj : j ∉ l) (s : σ) :
    entry (l.foldl step s) j = entry s j := by
  induction l generalizing s with
  | nil => rfl
  | cons i l ih =>
    rw [List.mem_cons, not_or] at hj
    rw [List.foldl_cons, ih hj.2, h, Function.update_of_ne hj.1]

theorem foldl_of_mem (h : Pointwise step entry f) {l : List ι} (hl : l.Nodup) {j : ι} (hj : j ∈ l)
    (s : σ) : entry (l.foldl step s) j = f j (entry s j) := by
  induction l generalizing s with
  | nil => cases hj
  | cons i l ih =>
    obtain ⟨hi, hl⟩ := List.nodup_cons.mp hl
    rw [List.foldl_cons]
    rcases List.mem_cons.mp hj with rfl | hj
    · rw [foldl_of_not_mem h hi, h, Function.update_self]
    · have hne : j ≠ i := fun heq => hi (heq ▸ hj)
      rw [ih hl hj, h, Function.update_of_ne hne]

/-- A loop over all indices. -/
theorem foldl_finRange {n : Nat} {step : σ → Fin n → σ} {entry : σ → Fin n → β}
    {f : Fin n → β → β} (h : Pointwise step entry f) (s : σ) (j : Fin n) :
    entry ((List.finRange n).foldl step s) j = f j (entry s j) :=
  foldl_of_mem h (List.nodup_finRange n) (List.mem_finRange j) s

end Sweep
