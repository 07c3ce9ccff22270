import Mathlib.Algebra.BigOperators.Group.List.Basic
import Mathlib.Data.List.Induction

/-!
# Threads on a shared state

A pool of threads that share a state. A thread takes one atomic step at a time, threads start at any
moment, and any of them may be the next to move. The rules here give what holds in every interleaving
from what one step does: a condition on each thread that the others do not break (`Stable`), a counter
of the threads that have come past a point (`Pool.after_count`), a lock (`Pool.after_lock`), a
counter that hands out numbers (`Pool.after_tickets`), the labels of the steps that were taken
(`Pool.trace_keeps`), a thread that no other one interrupts (`Pool.Alone`), and an end that all
threads can reach (`Pool.exists_move`, `Pool.can_end`).
-/

namespace Threads

/-- The code of a thread: from what comes from outside, its own state and the shared one, its next
step. Without one the thread is at its end, or it waits. -/
abbrev Code (σ τ ι : Type) := ι → τ → σ → Option (τ × σ)

/-- The threads so far, with the state they share. -/
structure Pool (σ τ : Type) where
  shared : σ
  threads : List τ

/-- What happens next. -/
inductive Event (τ ι : Type) where
  | spawn (thread : τ)
  /-- A thread takes its next step, or finds that it has none. -/
  | run (i : Nat) (input : ι)

namespace Pool

variable {σ τ ι : Type}

/-- One event. -/
def step (code : Code σ τ ι) (p : Pool σ τ) : Event τ ι → Pool σ τ
  | .spawn t => { p with threads := p.threads ++ [t] }
  | .run i x =>
    match p.threads[i]? with
    | none => p
    | some t =>
      match code x t p.shared with
      | none => p
      | some (t, s) => ⟨s, p.threads.set i t⟩

/-- A pool after a list of events. -/
def after (code : Code σ τ ι) (p : Pool σ τ) (events : List (Event τ ι)) : Pool σ τ :=
  events.foldl (step code) p

/-- Every thread of a run starts as threads do. -/
def Spawns (starts : τ → Prop) (events : List (Event τ ι)) : Prop :=
  ∀ t, Event.spawn t ∈ events → starts t

variable {code : Code σ τ ι} {starts : τ → Prop}

@[simp] theorem after_nil (p : Pool σ τ) : p.after code [] = p := rfl

theorem after_append (p : Pool σ τ) (events more : List (Event τ ι)) :
    p.after code (events ++ more) = (p.after code events).after code more :=
  List.foldl_append

theorem after_concat (p : Pool σ τ) (events : List (Event τ ι)) (e : Event τ ι) :
    p.after code (events ++ [e]) = (p.after code events).step code e :=
  after_append p events [e]

theorem spawns_concat {events : List (Event τ ι)} {e : Event τ ι} :
    Spawns starts (events ++ [e]) ↔ Spawns starts events ∧ ∀ t, e = .spawn t → starts t := by
  simp only [Spawns, List.mem_append, List.mem_singleton]
  constructor
  · intro h
    exact ⟨fun t ht => h t (.inl ht), fun t ht => h t (.inr ht.symm)⟩
  · rintro ⟨hbefore, hlast⟩ t (ht | ht)
    · exact hbefore t ht
    · exact hlast t ht.symm

/-- A thread that moves is replaced, and the others stay as they are. -/
theorem step_run {p : Pool σ τ} {i : Nat} {x : ι} {t t' : τ} {s' : σ} (ht : p.threads[i]? = some t)
    (hstep : code x t p.shared = some (t', s')) :
    ∃ front back, p.threads = front ++ t :: back ∧ front.length = i ∧
      p.step code (.run i x) = ⟨s', front ++ t' :: back⟩ := by
  obtain ⟨hi, rfl⟩ := List.getElem?_eq_some_iff.mp ht
  obtain ⟨front, back, hsplit, hlength, hset⟩ : ∃ front back,
      p.threads = front ++ p.threads[i] :: back ∧ front.length = i ∧
        p.threads.set i t' = front ++ t' :: back := List.exists_of_set hi
  refine ⟨front, back, hsplit, hlength, ?_⟩
  simp only [step, ht, hstep, hset]

/-- An event changes nothing, starts a thread, or lets one move. -/
theorem step_cases (p : Pool σ τ) (e : Event τ ι) :
    p.step code e = p ∨
    (∃ t, e = .spawn t ∧ p.step code e = ⟨p.shared, p.threads ++ [t]⟩) ∨
    ∃ front t back x t' s', p.threads = front ++ t :: back ∧ code x t p.shared = some (t', s') ∧
      p.step code e = ⟨s', front ++ t' :: back⟩ := by
  cases e with
  | spawn t => exact .inr (.inl ⟨t, rfl, rfl⟩)
  | run i x =>
    cases ht : p.threads[i]? with
    | none => exact .inl (by simp only [step, ht])
    | some t =>
      cases hstep : code x t p.shared with
      | none => exact .inl (by simp only [step, ht, hstep])
      | some moved =>
        obtain ⟨t', s'⟩ := moved
        obtain ⟨front, back, hsplit, -, hafter⟩ := step_run ht hstep
        exact .inr (.inr ⟨front, t, back, x, t', s', hsplit, hstep, hafter⟩)

/-- An event starts one thread at most. -/
theorem length_after_le (s : σ) (events : List (Event τ ι)) :
    (after code ⟨s, []⟩ events).threads.length ≤ events.length := by
  induction events using List.reverseRecOn with
  | nil => exact Nat.le_refl _
  | append_singleton events e ih =>
    rw [after_concat, List.length_append, List.length_singleton]
    rcases step_cases (after code ⟨s, []⟩ events) e with
      hsame | ⟨t, -, hnew⟩ | ⟨front, t, back, x, t', s', hsplit, -, hmoved⟩
    · rw [hsame]
      exact Nat.le_succ_of_le ih
    · rw [hnew, List.length_append, List.length_singleton]
      exact Nat.succ_le_succ ih
    · have hlength : (front ++ t' :: back).length = (front ++ t :: back).length := by simp
      rw [hmoved, hlength, ← hsplit]
      exact Nat.le_succ_of_le ih

/-- What a new thread and a move keep, every run keeps. -/
theorem after_keeps {inv : Pool σ τ → Prop}
    (hspawn : ∀ s threads t, starts t → inv ⟨s, threads⟩ → inv ⟨s, threads ++ [t]⟩)
    (hrun : ∀ s front t back x t' s', code x t s = some (t', s') →
      inv ⟨s, front ++ t :: back⟩ → inv ⟨s', front ++ t' :: back⟩)
    {p : Pool σ τ} (hp : inv p) {events : List (Event τ ι)} (h : Spawns starts events) :
    inv (p.after code events) := by
  induction events using List.reverseRecOn with
  | nil => exact hp
  | append_singleton events e ih =>
    obtain ⟨hbefore, hlast⟩ := spawns_concat.mp h
    have hinv := ih hbefore
    rw [after_concat]
    rcases step_cases (p.after code events) e with
      hsame | ⟨t, rfl, hnew⟩ | ⟨front, t, back, x, t', s', hsplit, hstep, hmoved⟩
    · rwa [hsame]
    · rw [hnew]
      exact hspawn _ _ t (hlast t rfl) hinv
    · rw [hmoved]
      refine hrun _ front t back x t' s' hstep ?_
      rwa [← hsplit]

end Pool

/-! ## Conditions on one thread -/

section Stable

variable {σ τ ι : Type}

/-- A condition on a thread that its own steps keep. -/
structure Local (code : Code σ τ ι) (starts ok : τ → Prop) : Prop where
  start : ∀ t, starts t → ok t
  step : ∀ s x t t' s', ok t → code x t s = some (t', s') → ok t'

/-- A condition on the shared state and one on each thread, kept by the thread that moves and by
those that do not. -/
structure Stable (code : Code σ τ ι) (starts : τ → Prop) (inv : σ → Prop) (good : σ → τ → Prop) :
    Prop where
  start : ∀ s t, inv s → starts t → good s t
  shared : ∀ s x t t' s', inv s → good s t → code x t s = some (t', s') → inv s'
  own : ∀ s x t t' s', inv s → good s t → code x t s = some (t', s') → good s' t'
  other : ∀ s x t t' s' u, inv s → good s t → code x t s = some (t', s') → good s u → good s' u

variable {code : Code σ τ ι} {starts ok : τ → Prop} {inv : σ → Prop} {good : σ → τ → Prop}

theorem Stable.after (h : Stable code starts inv good) {s : σ} (hs : inv s)
    {events : List (Event τ ι)} (hevents : Pool.Spawns starts events) :
    inv (Pool.after code ⟨s, []⟩ events).shared ∧
      ∀ t ∈ (Pool.after code ⟨s, []⟩ events).threads,
        good (Pool.after code ⟨s, []⟩ events).shared t := by
  refine @Pool.after_keeps _ _ _ code starts
    (fun p => inv p.shared ∧ ∀ t ∈ p.threads, good p.shared t) ?_ ?_ _ ⟨hs, ?_⟩ _ hevents
  · rintro s threads t ht ⟨hinv, hgood⟩
    refine ⟨hinv, fun u hu => ?_⟩
    rcases List.mem_append.mp hu with hu | hu
    · exact hgood u hu
    · obtain rfl := List.mem_singleton.mp hu
      exact h.start s u hinv ht
  · rintro s front t back x t' s' hstep ⟨hinv, hgood⟩
    have ht := hgood t (by simp)
    refine ⟨h.shared s x t t' s' hinv ht hstep, fun u hu => ?_⟩
    have hothers : ∀ u ∈ front ++ t :: back, good s' u := fun u hu =>
      h.other s x t t' s' u hinv ht hstep (hgood u hu)
    rcases List.mem_append.mp hu with hu | hu
    · exact hothers u (List.mem_append_left _ hu)
    · rcases List.mem_cons.mp hu with rfl | hu
      · exact h.own s x t _ s' hinv ht hstep
      · exact hothers u (List.mem_append_right _ (List.mem_cons_of_mem _ hu))
  · simp

theorem Local.stable (h : Local code starts ok) :
    Stable code starts (fun _ => True) (fun _ => ok) where
  start := fun _ t _ ht => h.start t ht
  shared := fun _ _ _ _ _ _ _ _ => trivial
  own := fun s x t t' s' _ ht hstep => h.step s x t t' s' ht hstep
  other := fun _ _ _ _ _ _ _ _ _ hu => hu

/-- What a new thread keeps and the move of a thread that meets the condition, every run keeps. -/
theorem Local.after_keeps (h : Local code starts ok) {inv : Pool σ τ → Prop}
    (hspawn : ∀ s threads t, starts t → inv ⟨s, threads⟩ → inv ⟨s, threads ++ [t]⟩)
    (hrun : ∀ s front t back x t' s', ok t → code x t s = some (t', s') →
      inv ⟨s, front ++ t :: back⟩ → inv ⟨s', front ++ t' :: back⟩)
    {s : σ} (hs : inv ⟨s, []⟩) {events : List (Event τ ι)} (hevents : Pool.Spawns starts events) :
    inv (Pool.after code ⟨s, []⟩ events) := by
  induction events using List.reverseRecOn with
  | nil => exact hs
  | append_singleton events e ih =>
    obtain ⟨hbefore, hlast⟩ := Pool.spawns_concat.mp hevents
    have hinv := ih hbefore
    have hok := (h.stable.after trivial (s := s) hbefore).2
    rw [Pool.after_concat]
    rcases Pool.step_cases (Pool.after code ⟨s, []⟩ events) e with
      hsame | ⟨t, rfl, hnew⟩ | ⟨front, t, back, x, t', s', hsplit, hstep, hmoved⟩
    · rwa [hsame]
    · rw [hnew]
      exact hspawn _ _ t (hlast t rfl) hinv
    · rw [hmoved]
      refine hrun _ front t back x t' s' (hok t (by simp [hsplit])) hstep ?_
      rwa [← hsplit]

end Stable

namespace Pool

variable {σ τ ι : Type} {code : Code σ τ ι} {starts ok : τ → Prop} {s : σ}
  {events : List (Event τ ι)}

/-! ## Counters -/

/-- A counter that moves on by one whenever a thread turns to being counted stands at the number of
threads that are. -/
theorem after_count {κ : Type} (total : σ → κ) (num : Nat → κ) (counted : τ → Bool)
    (hlocal : Local code starts ok) (hstart : ∀ t, starts t → counted t = false)
    (hstep : ∀ s x t t' s', ok t → code x t s = some (t', s') →
      (total s' = total s ∧ counted t' = counted t) ∨
      (counted t = false ∧ counted t' = true ∧ ∀ n, total s = num n → total s' = num (n + 1)))
    (hs : total s = num 0) (hevents : Spawns starts events) :
    total (after code ⟨s, []⟩ events).shared =
      num ((after code ⟨s, []⟩ events).threads.countP counted) := by
  refine @Local.after_keeps _ _ _ code starts ok hlocal
    (fun p => total p.shared = num (p.threads.countP counted)) ?_ ?_ _ hs _ hevents
  · intro s' threads t ht hinv
    rw [List.countP_append, List.countP_singleton, hstart t ht, if_neg Bool.false_ne_true]
    exact hinv
  · intro s₁ front t back x t' s' hok hmoved hinv
    rw [List.countP_append, List.countP_cons] at hinv ⊢
    rcases hstep s₁ x t t' s' hok hmoved with ⟨hsame, hcounted⟩ | ⟨ht, ht', hmore⟩
    · rw [hsame, hcounted]
      exact hinv
    · rw [ht, if_neg Bool.false_ne_true] at hinv
      rw [ht', if_pos rfl]
      exact hmore _ hinv

/-! ## A lock -/

/-- A lock that is taken only when free and given up only by its holder is held by one thread while
it is taken, and by none while it is free. -/
theorem after_lock {locked : σ → Bool} {holds : τ → Bool}
    (hstart : ∀ t, starts t → holds t = false)
    (hstep : ∀ s x t t' s', code x t s = some (t', s') →
      (locked s' = locked s ∧ holds t' = holds t) ∨
      (locked s = false ∧ locked s' = true ∧ holds t = false ∧ holds t' = true) ∨
      (locked s' = false ∧ holds t = true ∧ holds t' = false))
    (hs : locked s = false) (hevents : Spawns starts events) :
    (after code ⟨s, []⟩ events).threads.countP holds =
      (locked (after code ⟨s, []⟩ events).shared).toNat := by
  refine @after_keeps _ _ _ code starts
    (fun p => p.threads.countP holds = (locked p.shared).toNat) ?_ ?_ _ (by simp [hs]) _ hevents
  · intro s' threads t ht hinv
    rw [List.countP_append, List.countP_singleton, hstart t ht, if_neg Bool.false_ne_true]
    exact hinv
  · intro s₁ front t back x t' s' hmoved hinv
    simp only [List.countP_append, List.countP_cons] at hinv ⊢
    rcases hstep s₁ x t t' s' hmoved with
      ⟨hlocked, hholds⟩ | ⟨hfree, htaken, ht, ht'⟩ | ⟨hfree, ht, ht'⟩
    · rwa [hlocked, hholds]
    · rw [htaken, ht']
      rw [hfree, ht] at hinv
      simp only [Bool.false_eq_true, if_false, Bool.toNat_false] at hinv
      simp only [if_true, Bool.toNat_true]
      omega
    · have hle := Bool.toNat_le (locked s₁)
      rw [hfree, ht']
      rw [ht, if_pos rfl] at hinv
      simp only [Bool.false_eq_true, if_false, Bool.toNat_false]
      omega

/-! ## Numbers from a counter -/

/-- A counter that a thread reads and moves on in one step gives every thread that asks a number of
its own, and leaves none out. -/
theorem after_tickets {κ : Type} (next : σ → κ) (ticket : τ → Option κ) (num : Nat → κ)
    (hlocal : Local code starts ok) (hstart : ∀ t, starts t → ticket t = none)
    (hstep : ∀ s x t t' s', ok t → code x t s = some (t', s') →
      (next s' = next s ∧ ticket t' = ticket t) ∨
      (ticket t = none ∧ ticket t' = some (next s) ∧ ∀ n, next s = num n → next s' = num (n + 1)))
    (hs : next s = num 0) (hevents : Spawns starts events) :
    let p := after code ⟨s, []⟩ events
    ∃ n, next p.shared = num n ∧ (p.threads.filterMap ticket).Perm ((List.range n).map num) := by
  refine @Local.after_keeps _ _ _ code starts ok hlocal
    (fun p => ∃ n, next p.shared = num n ∧
      (p.threads.filterMap ticket).Perm ((List.range n).map num)) ?_ ?_ _ ⟨0, hs, ?_⟩ _ hevents
  · rintro s' threads t ht ⟨n, hnext, hperm⟩
    refine ⟨n, hnext, ?_⟩
    simpa only [List.filterMap_append, List.filterMap_cons, hstart t ht, List.filterMap_nil,
      List.append_nil] using hperm
  · rintro s₁ front t back x t' s' hok hmoved ⟨n, hnext, hperm⟩
    rcases hstep s₁ x t t' s' hok hmoved with ⟨hsame, hticket⟩ | ⟨hnone, hsome, hmore⟩
    · refine ⟨n, hsame.trans hnext, ?_⟩
      simpa only [List.filterMap_append, List.filterMap_cons, hticket] using hperm
    · refine ⟨n + 1, hmore n hnext, ?_⟩
      simp only [List.filterMap_append, List.filterMap_cons, hnone, hsome] at hperm ⊢
      rw [List.range_succ, List.map_append, List.map_singleton, hnext]
      exact List.perm_middle.trans ((hperm.cons (num n)).trans (List.perm_append_singleton _ _).symm)
  · simp

/-! ## Traces -/

section Trace

variable {β : Type} (label : τ → Option β)

/-- The label of the step that an event lets a thread take. -/
def stepLabel (code : Code σ τ ι) (p : Pool σ τ) : Event τ ι → Option β
  | .spawn _ => none
  | .run i x =>
    match p.threads[i]? with
    | none => none
    | some t => if (code x t p.shared).isSome then label t else none

/-- The labels of the steps of a run, in their order. -/
def trace (code : Code σ τ ι) : Pool σ τ → List (Event τ ι) → List β
  | _, [] => []
  | p, e :: events => (p.stepLabel label code e).toList ++ trace code (p.step code e) events

theorem trace_concat (p : Pool σ τ) (events : List (Event τ ι)) (e : Event τ ι) :
    trace label code p (events ++ [e]) =
      trace label code p events ++ ((p.after code events).stepLabel label code e).toList := by
  induction events generalizing p with
  | nil => simp [trace]
  | cons e' events ih =>
    rw [List.cons_append, trace, ih, trace, List.append_assoc]
    rfl

/-- What a new thread keeps, and the move of a thread with its label on the trace, holds of every run
and its trace. A move may use what is known of every pool that is reached. -/
theorem trace_keeps {inv : Pool σ τ → List β → Prop} {reached : Pool σ τ → Prop}
    (hlocal : Local code starts ok)
    (hreached : ∀ events, Spawns starts events → reached (after code ⟨s, []⟩ events))
    (hspawn : ∀ s threads t marks, starts t → inv ⟨s, threads⟩ marks →
      inv ⟨s, threads ++ [t]⟩ marks)
    (hrun : ∀ s front t back x t' s' marks, reached ⟨s, front ++ t :: back⟩ → ok t →
      code x t s = some (t', s') → inv ⟨s, front ++ t :: back⟩ marks →
      inv ⟨s', front ++ t' :: back⟩ (marks ++ (label t).toList))
    (hs : inv ⟨s, []⟩ []) (hevents : Spawns starts events) :
    inv (after code ⟨s, []⟩ events) (trace label code ⟨s, []⟩ events) := by
  induction events using List.reverseRecOn with
  | nil => exact hs
  | append_singleton events e ih =>
    obtain ⟨hbefore, hlast⟩ := spawns_concat.mp hevents
    have hinv := ih hbefore
    have hat := hreached events hbefore
    have hok := (hlocal.stable.after trivial (s := s) hbefore).2
    rw [trace_concat, after_concat]
    generalize after code ⟨s, []⟩ events = p at hinv hat hok ⊢
    cases e with
    | spawn t =>
      rw [stepLabel, Option.toList_none, List.append_nil]
      exact hspawn _ _ t _ (hlast t rfl) hinv
    | run i x =>
      cases ht : p.threads[i]? with
      | none => simpa [step, stepLabel, ht] using hinv
      | some t =>
        cases hstep : code x t p.shared with
        | none => simpa [step, stepLabel, ht, hstep] using hinv
        | some moved =>
          obtain ⟨t', s'⟩ := moved
          obtain ⟨front, back, hsplit, -, hafter⟩ := step_run ht hstep
          obtain ⟨shared, threads⟩ := p
          obtain rfl : threads = front ++ t :: back := hsplit
          rw [hafter]
          simp only [stepLabel, ht, hstep, Option.isSome_some, if_true]
          exact hrun _ front t back x t' s' _ hat (hok t (by simp)) hstep hinv

end Trace

/-! ## A thread by itself -/

/-- A thread takes some steps, and no other thread moves in between. -/
inductive Alone (code : Code σ τ ι) : τ → σ → τ → σ → Prop where
  | still (t : τ) (s : σ) : Alone code t s t s
  | step (x : ι) {t : τ} (t' : τ) {t'' : τ} {s : σ} (s' : σ) {s'' : σ}
      (h : code x t s = some (t', s')) (rest : Alone code t' s' t'' s'') : Alone code t s t'' s''

theorem Alone.trans {t t' t'' : τ} {s s' s'' : σ} (h : Alone code t s t' s')
    (rest : Alone code t' s' t'' s'') : Alone code t s t'' s'' := by
  induction h with
  | still t s => exact rest
  | step x t' s' hstep _ ih => exact .step x t' s' hstep (ih rest)

/-- What a thread can do by itself, it does in a run of the pool. -/
theorem Alone.after {t t' : τ} {s s' : σ} (h : Alone code t s t' s') (front back : List τ) :
    ∃ inputs : List ι, Pool.after code ⟨s, front ++ t :: back⟩ (inputs.map (.run front.length)) =
      ⟨s', front ++ t' :: back⟩ := by
  induction h with
  | still t s => exact ⟨[], rfl⟩
  | @step x t t' _ s s' _ hstep _ ih =>
    obtain ⟨inputs, hrest⟩ := ih
    refine ⟨x :: inputs, ?_⟩
    have hmoved : Pool.step code ⟨s, front ++ t :: back⟩ (.run front.length x) =
        ⟨s', front ++ t' :: back⟩ := by
      simp [Pool.step, hstep]
    rw [List.map_cons, Pool.after, List.foldl_cons, hmoved]
    exact hrest

/-! ## The end -/

/-- While a thread has not ended, some thread can move: the one that holds the lock, or any that has
not ended if none holds it. -/
theorem exists_move {locked : σ → Bool} {holds : τ → Bool} {ended : τ → Prop} {p : Pool σ τ}
    (hlock : p.threads.countP holds = (locked p.shared).toNat)
    (hholds : ∀ t, holds t = true → ¬ ended t)
    (hmoves : ∀ t, ¬ ended t → (locked p.shared = true → holds t = true) →
      ∃ (x : ι) (t' : τ) (s' : σ), code x t p.shared = some (t', s'))
    (h : ∃ t ∈ p.threads, ¬ ended t) :
    ∃ (i : Nat) (t : τ) (x : ι) (t' : τ) (s' : σ),
      p.threads[i]? = some t ∧ code x t p.shared = some (t', s') := by
  have hmovable : ∃ t ∈ p.threads, ¬ ended t ∧ (locked p.shared = true → holds t = true) := by
    cases hlocked : locked p.shared with
    | false =>
      obtain ⟨t, ht, hnot⟩ := h
      exact ⟨t, ht, hnot, fun hlocked => absurd hlocked Bool.false_ne_true⟩
    | true =>
      have hpos : 0 < p.threads.countP holds := by
        rw [hlock, hlocked]
        exact Nat.zero_lt_one
      obtain ⟨t, ht, hholder⟩ := List.countP_pos_iff.mp hpos
      exact ⟨t, ht, hholds t hholder, fun _ => hholder⟩
  obtain ⟨t, ht, hnot, hfree⟩ := hmovable
  obtain ⟨i, hi⟩ := List.mem_iff_getElem?.mp ht
  obtain ⟨x, t', s', hstep⟩ := hmoves t hnot hfree
  exact ⟨i, t, x, t', s', hi, hstep⟩

/-- If every step brings a thread nearer to its end, and as long as one is not there some thread can
move, then moves alone take all of them there. -/
theorem can_end {inv : Pool σ τ → Prop} {ended : τ → Prop} {togo : τ → Nat}
    (hinv : ∀ p i x, inv p → inv (p.step code (.run i x)))
    (hmoves : ∀ p : Pool σ τ, inv p → (∃ t ∈ p.threads, ¬ ended t) →
      ∃ (i : Nat) (t : τ) (x : ι) (t' : τ) (s' : σ),
        p.threads[i]? = some t ∧ code x t p.shared = some (t', s'))
    (hnearer : ∀ s x t t' s', code x t s = some (t', s') → togo t' < togo t)
    {p : Pool σ τ} (hp : inv p) :
    ∃ moves : List (Nat × ι),
      ∀ t ∈ (p.after code (moves.map fun m => .run m.1 m.2)).threads, ended t := by
  induction hn : (p.threads.map togo).sum using Nat.strongRecOn generalizing p with
  | ind n ih =>
    by_cases hall : ∀ t ∈ p.threads, ended t
    · exact ⟨[], hall⟩
    · simp only [not_forall] at hall
      obtain ⟨t, ht, hnot⟩ := hall
      obtain ⟨i, t, x, t', s', hget, hstep⟩ := hmoves p hp ⟨t, ht, hnot⟩
      obtain ⟨front, back, hsplit, -, hafter⟩ := step_run hget hstep
      have hless := hnearer _ x t t' s' hstep
      have hsum : ((p.step code (.run i x)).threads.map togo).sum < n := by
        rw [hafter, ← hn, hsplit]
        simp only [List.map_append, List.map_cons, List.sum_append, List.sum_cons]
        omega
      obtain ⟨moves, hmoves⟩ := ih _ hsum (hinv p i x hp) rfl
      exact ⟨(i, x) :: moves, hmoves⟩

end Pool

end Threads
