import Mathlib.Data.List.Basic
import Mathlib.Data.List.Induction

/-!
# Runs of a deterministic machine

A machine is a step function from a state and an input to a new state and an output. A run
folds a list of inputs; its history pairs every input with the output it got. Invariants of
the step function are invariants of every run.
-/

namespace Machine

variable {σ ι ο : Type}

/-- The state after a list of inputs. -/
def run (step : σ → ι → σ × ο) : σ → List ι → σ
  | s, [] => s
  | s, i :: is => run step (step s i).1 is

/-- Every input of a run with the output it got. -/
def history (step : σ → ι → σ × ο) : σ → List ι → List (ι × ο)
  | _, [] => []
  | s, i :: is => (i, (step s i).2) :: history step (step s i).1 is

variable {step : σ → ι → σ × ο}

@[simp] theorem run_nil (s : σ) : run step s [] = s := rfl

@[simp] theorem run_cons (s : σ) (i : ι) (is : List ι) :
    run step s (i :: is) = run step (step s i).1 is := rfl

theorem run_append (s : σ) (is js : List ι) :
    run step s (is ++ js) = run step (run step s is) js := by
  induction is generalizing s with
  | nil => rfl
  | cons i is ih => exact ih (step s i).1

theorem run_concat (s : σ) (is : List ι) (i : ι) :
    run step s (is ++ [i]) = (step (run step s is) i).1 :=
  run_append s is [i]

theorem history_append (s : σ) (is js : List ι) :
    history step s (is ++ js) = history step s is ++ history step (run step s is) js := by
  induction is generalizing s with
  | nil => rfl
  | cons i is ih => simp [history, ih]

theorem history_concat (s : σ) (is : List ι) (i : ι) :
    history step s (is ++ [i]) = history step s is ++ [(i, (step (run step s is) i).2)] :=
  history_append s is [i]

/-- A history has every input of the run, in order. -/
theorem history_inputs (s : σ) (is : List ι) : (history step s is).map Prod.fst = is := by
  induction is generalizing s with
  | nil => rfl
  | cons i is ih => exact congrArg (i :: ·) (ih (step s i).1)

/-- An entry of a history is an input of the run with the output it got there. -/
theorem mem_history_iff {s : σ} {is : List ι} {i : ι} {o : ο} :
    (i, o) ∈ history step s is ↔
      ∃ pre post, is = pre ++ i :: post ∧ o = (step (run step s pre) i).2 := by
  induction is generalizing s with
  | nil => simp [history]
  | cons j is ih =>
    rw [history, List.mem_cons, ih]
    constructor
    · rintro (h | ⟨pre, post, rfl, rfl⟩)
      · cases h
        exact ⟨[], is, rfl, rfl⟩
      · exact ⟨j :: pre, post, rfl, rfl⟩
    · rintro ⟨pre, post, h, rfl⟩
      cases pre with
      | nil =>
        cases h
        exact .inl rfl
      | cons k pre =>
        cases h
        exact .inr ⟨pre, post, rfl, rfl⟩

/-- What holds at the start and is kept by every allowed input holds after every run of
allowed inputs. -/
theorem run_invariant {inv : σ → Prop} {allowed : ι → Prop}
    (hstep : ∀ s i, allowed i → inv s → inv (step s i).1) {s : σ} (hs : inv s)
    {is : List ι} (his : ∀ i ∈ is, allowed i) : inv (run step s is) := by
  induction is generalizing s with
  | nil => exact hs
  | cons i is ih =>
    exact ih (hstep s i (his i (by simp)) hs) (fun j hj => his j (List.mem_cons_of_mem i hj))

/-- What every input keeps, a run keeps. -/
theorem run_keeps {p : σ → Prop} (hstep : ∀ s i, p s → p (step s i).1) {s : σ} (hs : p s)
    (is : List ι) : p (run step s is) := by
  apply run_invariant (fun s i (_ : True) => hstep s i) hs
  exact fun _ _ => trivial

/-- Forward simulation. A relation that every position of the run carries over, with equal
outputs, relates the final states, and the two machines have one history. -/
theorem run_simulates {τ : Type} {step' : τ → ι → τ × ο} {R : σ → τ → Prop} {s : σ} {t : τ}
    (hR : R s t) {is : List ι}
    (hstep : ∀ pre i post, is = pre ++ i :: post → ∀ t, R (run step s pre) t →
      R (step (run step s pre) i).1 (step' t i).1 ∧
        (step (run step s pre) i).2 = (step' t i).2) :
    R (run step s is) (run step' t is) ∧ history step s is = history step' t is := by
  induction is generalizing s t with
  | nil => exact ⟨hR, rfl⟩
  | cons i is ih =>
    obtain ⟨hR', hout⟩ := hstep [] i is rfl t hR
    rw [run_nil] at hR' hout
    obtain ⟨hrun, hhist⟩ := ih hR' (by
      intro pre j post his t' hrel
      exact hstep (i :: pre) j post (by rw [his]; rfl) t' hrel)
    refine ⟨hrun, ?_⟩
    rw [history, history, hhist, hout]

/-! ## Positions of a run -/

/-- Every input of a list meets a condition on it and the inputs before it. -/
def AtEach (p : List ι → ι → Prop) (is : List ι) : Prop :=
  ∀ pre i post, is = pre ++ i :: post → p pre i

variable {p : List ι → ι → Prop}

theorem atEach_nil : AtEach p [] := by
  intro pre i post h
  simp at h

theorem atEach_cons (i : ι) (is : List ι) :
    AtEach p (i :: is) ↔ p [] i ∧ AtEach (fun pre => p (i :: pre)) is := by
  constructor
  · intro h
    refine ⟨h [] i is rfl, ?_⟩
    rintro pre j post rfl
    exact h (i :: pre) j post rfl
  · rintro ⟨hi, his⟩ pre j post h
    cases pre with
    | nil =>
      cases h
      exact hi
    | cons k pre =>
      cases h
      exact his pre j post rfl

theorem atEach_concat (is : List ι) (i : ι) : AtEach p (is ++ [i]) ↔ AtEach p is ∧ p is i := by
  constructor
  · intro h
    refine ⟨?_, h is i [] rfl⟩
    rintro pre j post rfl
    exact h pre j (post ++ [i]) (by rw [List.append_assoc, List.cons_append])
  · rintro ⟨his, hi⟩ pre j post h
    rcases List.eq_nil_or_concat post with rfl | ⟨post, k, rfl⟩
    · obtain ⟨rfl, hlast⟩ := List.append_inj' h rfl
      obtain rfl := List.singleton_inj.mp hlast
      exact hi
    · rw [List.concat_eq_append, ← List.cons_append, ← List.append_assoc] at h
      exact his pre j post (List.append_inj' h rfl).1

/-- What holds of the empty run and is kept by every input that meets the condition holds of every
run whose inputs all meet it. -/
theorem run_of_atEach {q : List ι → Prop} (hnil : q [])
    (hstep : ∀ is i, p is i → q is → q (is ++ [i])) {is : List ι} (his : AtEach p is) : q is := by
  induction is using List.reverseRecOn with
  | nil => exact hnil
  | append_singleton is i ih =>
    obtain ⟨hbefore, hlast⟩ := (atEach_concat is i).mp his
    exact hstep is i hlast (ih hbefore)

end Machine
