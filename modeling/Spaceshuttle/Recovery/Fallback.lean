import Mathlib.Data.UInt
import Mathlib.Tactic.Ring
import Spaceshuttle.Recovery.Engine

/-!
# Recovery without a preferred strategy

The first strategy finds the newest snapshot that is good, if there is one. The others find no good one
then: what they find is skipped, and the last one boots clean.
-/

namespace Spaceshuttle.Recovery

/-- The candidate passes the checks of `recover`. -/
def fullyValid (c : SnapshotCandidate) : Bool := c.signatureValid && c.hashValid

/-- A snapshot that can be restored for an intent. -/
structure Good (intent : String) (c : SnapshotCandidate) : Prop where
  ofIntent : matchesIntent intent c = true
  valid : fullyValid c = true

theorem good_iff {intent : String} {c : SnapshotCandidate} :
    Good intent c ↔ (matchesIntent intent c && c.signatureValid && c.hashValid) = true := by
  rw [Bool.and_assoc, Bool.and_eq_true]
  exact ⟨fun h => ⟨h.ofIntent, h.valid⟩, fun h => ⟨h.1, h.2⟩⟩

namespace SnapshotIndex

variable {index : SnapshotIndex} {intent : String} {c : SnapshotCandidate}

/-- What a strategy offers to restore. -/
def offer (index : SnapshotIndex) (intent : String) (strategy : RecoveryStrategy) :
    Option SnapshotCandidate :=
  (index.resolve intent strategy).filter fullyValid

theorem offer_eq_some_iff {strategy : RecoveryStrategy} : index.offer intent strategy = some c ↔
    index.resolve intent strategy = some c ∧ fullyValid c = true :=
  Option.filter_eq_some_iff

/-- Every strategy finds a snapshot of the index for the intent. -/
theorem resolve_mem {strategy : RecoveryStrategy} (h : index.resolve intent strategy = some c) :
    c ∈ index.snapshots ∧ matchesIntent intent c = true := by
  cases strategy with
  | lastGood =>
    have hfind : index.snapshots.find?
        (fun s => matchesIntent intent s && s.signatureValid && s.hashValid) = some c := h
    have hfound := List.find?_some hfind
    exact ⟨List.mem_of_find?_eq_some hfind, (good_iff.mpr hfound).ofIntent⟩
  | checkpoint targetSeq =>
    have hmem := List.mem_filter.mp (List.argmin_mem h)
    rw [Bool.and_assoc, Bool.and_eq_true] at hmem
    exact ⟨hmem.1, hmem.2.1⟩
  | cleanBoot => cases h
  | gitRecover => exact ⟨List.mem_of_find?_eq_some h, List.find?_some h⟩

theorem offer_good {strategy : RecoveryStrategy} (h : index.offer intent strategy = some c) :
    c ∈ index.snapshots ∧ Good intent c := by
  obtain ⟨hresolve, hvalid⟩ := offer_eq_some_iff.mp h
  obtain ⟨hmem, hintent⟩ := resolve_mem hresolve
  exact ⟨hmem, hintent, hvalid⟩

theorem offer_eq_none (hnone : ∀ c ∈ index.snapshots, ¬ Good intent c) (strategy : RecoveryStrategy) :
    index.offer intent strategy = none := by
  rw [Option.eq_none_iff_forall_ne_some]
  intro c hoffer
  obtain ⟨hmem, hgood⟩ := offer_good hoffer
  exact hnone c hmem hgood

/-- `LastGood` offers the newest of the good snapshots. -/
theorem offer_lastGood (hsorted : index.snapshots.Pairwise NewerFirst)
    (hsome : ∃ c ∈ index.snapshots, Good intent c) :
    ∃ c ∈ index.snapshots, Good intent c ∧ (∀ d ∈ index.snapshots, Good intent d → NewerFirst c d) ∧
      index.offer intent .lastGood = some c := by
  have hresolve : index.resolve intent .lastGood = index.snapshots.find?
    (fun s => matchesIntent intent s && s.signatureValid && s.hashValid) := rfl
  cases hfind : index.snapshots.find?
      (fun s => matchesIntent intent s && s.signatureValid && s.hashValid) with
  | none =>
    obtain ⟨c, hmem, hgood⟩ := hsome
    exact absurd (good_iff.mp hgood) (List.find?_eq_none.mp hfind c hmem)
  | some c =>
    obtain ⟨hfound, front, back, hsplit, hfront⟩ := List.find?_eq_some_iff_append.mp hfind
    have hgood : Good intent c := good_iff.mpr hfound
    refine ⟨c, List.mem_of_find?_eq_some hfind, hgood, ?_, ?_⟩
    · intro d hmem hd
      rw [hsplit, List.pairwise_append, List.pairwise_cons] at hsorted
      rw [hsplit] at hmem
      rcases List.mem_append.mp hmem with hmem | hmem
      · have hbad := hfront d hmem
        rw [good_iff.mp hd] at hbad
        cases hbad
      · rcases List.mem_cons.mp hmem with rfl | hmem
        · exact UInt64.le_refl _
        · exact hsorted.2.1.1 d hmem
    · rw [offer, hresolve, hfind, Option.filter_some, if_pos hgood.valid]

end SnapshotIndex

namespace RecoveryEngine

variable {e : RecoveryEngine} {intent : String} {trigger : RecoveryTrigger} {nowMicros : Int}

/-! ## The strategies in turn -/

theorem tryStrategies_cleanBoot (tried strategies : List RecoveryStrategy) :
    e.tryStrategies intent trigger nowMicros tried (.cleanBoot :: strategies) =
      (e.succeeded, .cleanBooted (cleanToken nowMicros)) := by
  rw [tryStrategies, if_pos rfl]

/-- A strategy with an offer ends the search; one without is passed over. -/
theorem tryStrategies_cons {strategy : RecoveryStrategy} (hclean : strategy ≠ .cleanBoot)
    (tried strategies : List RecoveryStrategy) :
    e.tryStrategies intent trigger nowMicros tried (strategy :: strategies) =
      match e.index.offer intent strategy with
      | some c => (e.succeeded, restoredFrom c trigger nowMicros strategy)
      | none => e.tryStrategies intent trigger nowMicros (tried ++ [strategy]) strategies := by
  rw [tryStrategies, if_neg hclean, SnapshotIndex.offer]
  cases e.index.resolve intent strategy with
  | none => rfl
  | some c =>
    have hchecks : (!c.signatureValid || !c.hashValid) = !fullyValid c := by
      rw [fullyValid, Bool.not_and]
    rw [Option.filter_some]
    dsimp only
    rw [hchecks]
    cases fullyValid c <;> rfl

theorem tryStrategies_skip {strategy : RecoveryStrategy} (hclean : strategy ≠ .cleanBoot)
    (hnone : e.index.offer intent strategy = none) (tried strategies : List RecoveryStrategy) :
    e.tryStrategies intent trigger nowMicros tried (strategy :: strategies) =
      e.tryStrategies intent trigger nowMicros (tried ++ [strategy]) strategies := by
  rw [tryStrategies_cons hclean, hnone]

/-- Every search is counted, as a success or as a failure. -/
theorem tryStrategies_engine (tried strategies : List RecoveryStrategy) :
    (e.tryStrategies intent trigger nowMicros tried strategies).1 = e.succeeded ∨
      (e.tryStrategies intent trigger nowMicros tried strategies).1 = e.failed := by
  induction strategies generalizing tried with
  | nil => exact .inr rfl
  | cons strategy strategies ih =>
    by_cases hclean : strategy = .cleanBoot
    · subst hclean
      rw [tryStrategies_cleanBoot]
      exact .inl rfl
    · rw [tryStrategies_cons hclean]
      cases e.index.offer intent strategy with
      | none => exact ih (tried ++ [strategy])
      | some c => exact .inl rfl

theorem recover_none : e.recover intent trigger none nowMicros =
    e.attempted.tryStrategies intent trigger nowMicros [] defaultStrategies := rfl

theorem recover_some (strategy : RecoveryStrategy) : e.recover intent trigger (some strategy) nowMicros =
    e.attempted.tryStrategies intent trigger nowMicros [] [strategy] := rfl

theorem recover_engine (preferredStrategy : Option RecoveryStrategy) :
    (e.recover intent trigger preferredStrategy nowMicros).1 = e.attempted.succeeded ∨
      (e.recover intent trigger preferredStrategy nowMicros).1 = e.attempted.failed := by
  cases preferredStrategy with
  | none => exact tryStrategies_engine [] defaultStrategies
  | some strategy => exact tryStrategies_engine [] [strategy]

/-- The result of a recovery without a preferred strategy. -/
theorem recover_default (hsorted : e.index.snapshots.Pairwise NewerFirst) (intent : String)
    (trigger : RecoveryTrigger) (nowMicros : Int) :
    ((∃ c ∈ e.index.snapshots, Good intent c) →
      ∃ c ∈ e.index.snapshots, Good intent c ∧
        (∀ d ∈ e.index.snapshots, Good intent d → NewerFirst c d) ∧
        (e.recover intent trigger none nowMicros).2 = restoredFrom c trigger nowMicros .lastGood) ∧
    ((∀ c ∈ e.index.snapshots, ¬ Good intent c) →
      (e.recover intent trigger none nowMicros).2 = .cleanBooted (cleanToken nowMicros)) := by
  constructor
  · intro hsome
    obtain ⟨c, hmem, hgood, hnewest, hoffer⟩ := e.index.offer_lastGood hsorted hsome
    refine ⟨c, hmem, hgood, hnewest, ?_⟩
    have hoffer' : e.attempted.index.offer intent .lastGood = some c := hoffer
    rw [recover_none, defaultStrategies, tryStrategies_cons (by decide), hoffer']
  · intro hnone
    have hoffer : ∀ strategy, e.attempted.index.offer intent strategy = none :=
      SnapshotIndex.offer_eq_none hnone
    rw [recover_none, defaultStrategies, tryStrategies_skip (by decide) (hoffer _),
      tryStrategies_skip (by decide) (hoffer _), tryStrategies_skip (by decide) (hoffer _),
      tryStrategies_cleanBoot]

end RecoveryEngine

/-! ## Runs -/

section Runs

open scoped UInt64.CommRing

/-- The candidates that a list of operations registers. -/
def registered (storePath : String) (ops : List RecoveryOp) : List SnapshotCandidate :=
  ops.filterMap fun op => match op with
    | .register candidate => some candidate
    | .registerFromSnapshot snapshot nowNs => some (candidateOf storePath snapshot nowNs)
    | .recover .. => none

instance : Std.Total NewerFirst := ⟨fun a b => UInt64.le_total b.capturedAtNs a.capturedAtNs⟩

instance : IsTrans SnapshotCandidate NewerFirst := ⟨fun _ _ _ hab hbc => UInt64.le_trans hbc hab⟩

/-- The index has what was registered, newest first, and every recovery has been counted. -/
structure Indexed (storePath : String) (ops : List RecoveryOp) (e : RecoveryEngine) : Prop where
  store : e.index.storePath = storePath
  contents : e.index.snapshots.Perm (registered storePath ops)
  sorted : e.index.snapshots.Pairwise NewerFirst
  counted : e.recoveriesAttempted = e.recoveriesSucceeded + e.recoveriesFailed

variable {storePath : String} {ops : List RecoveryOp} {e : RecoveryEngine}

theorem Indexed.register (h : Indexed storePath ops e) {op : RecoveryOp} {c : SnapshotCandidate}
    (hop : registered storePath [op] = [c]) :
    Indexed storePath (ops ++ [op]) { e with index := e.index.register c } where
  store := h.store
  contents := by
    rw [registered, List.filterMap_append]
    exact (List.perm_insertionSort _ _).trans (h.contents.append (hop ▸ List.Perm.refl _))
  sorted := List.pairwise_insertionSort NewerFirst _
  counted := h.counted

theorem Indexed.recover (h : Indexed storePath ops e) (intent : String) (trigger : RecoveryTrigger)
    (preferredStrategy : Option RecoveryStrategy) (nowMicros : Int) :
    Indexed storePath (ops ++ [.recover intent trigger preferredStrategy nowMicros])
      (e.recover intent trigger preferredStrategy nowMicros).1 := by
  have hcontents : e.index.snapshots.Perm
      (registered storePath (ops ++ [.recover intent trigger preferredStrategy nowMicros])) := by
    rw [registered, List.filterMap_append]
    exact (List.append_nil (registered storePath ops)).symm ▸ h.contents
  rcases e.recover_engine preferredStrategy with hengine | hengine
  · rw [hengine]
    refine ⟨h.store, hcontents, h.sorted, ?_⟩
    show e.recoveriesAttempted + 1 = e.recoveriesSucceeded + 1 + e.recoveriesFailed
    rw [h.counted]
    ring
  · rw [hengine]
    refine ⟨h.store, hcontents, h.sorted, ?_⟩
    show e.recoveriesAttempted + 1 = e.recoveriesSucceeded + (e.recoveriesFailed + 1)
    rw [h.counted]
    ring

theorem Indexed.step (h : Indexed storePath ops e) (op : RecoveryOp) :
    Indexed storePath (ops ++ [op]) (recoveryStep e op).1 := by
  cases op with
  | register candidate => exact h.register rfl
  | registerFromSnapshot snapshot nowNs =>
    obtain rfl := h.store
    exact h.register rfl
  | recover intent trigger preferredStrategy nowMicros => exact h.recover intent trigger _ nowMicros

theorem indexed_run (storePath : String) (gitPath : Option String) (ops : List RecoveryOp) :
    Indexed storePath ops (Machine.run recoveryStep (.new storePath gitPath) ops) := by
  induction ops using List.reverseRecOn with
  | nil => exact ⟨rfl, .nil, .nil, rfl⟩
  | append_singleton ops op ih =>
    rw [Machine.run_concat]
    exact ih.step op

/-- After every run the index has what was registered, newest first, and every recovery is counted as a
success or a failure. A recovery without a preferred strategy restores the newest good snapshot of the
intent if there is one, boots clean if there is none, and does not fail. -/
theorem recover_newest_good (storePath : String) (gitPath : Option String) (ops : List RecoveryOp) :
    let e := Machine.run recoveryStep (.new storePath gitPath) ops
    e.index.snapshots.Perm (registered storePath ops) ∧
      e.index.snapshots.Pairwise (fun a b => b.capturedAtNs ≤ a.capturedAtNs) ∧
      e.recoveriesAttempted = e.recoveriesSucceeded + e.recoveriesFailed ∧
      ∀ intent trigger nowMicros,
        let result := (e.recover intent trigger none nowMicros).2
        ((∃ c ∈ e.index.snapshots, Good intent c) → ∃ c ∈ e.index.snapshots, Good intent c ∧
          (∀ d ∈ e.index.snapshots, Good intent d → d.capturedAtNs ≤ c.capturedAtNs) ∧
          result = RecoveryEngine.restoredFrom c trigger nowMicros .lastGood) ∧
        ((∀ c ∈ e.index.snapshots, ¬ Good intent c) →
          result = .cleanBooted (RecoveryEngine.cleanToken nowMicros)) ∧
        ∀ reason tried, result ≠ .failed reason tried := by
  intro e
  have h := indexed_run storePath gitPath ops
  refine ⟨h.contents, h.sorted, h.counted, fun intent trigger nowMicros => ?_⟩
  obtain ⟨hsome, hnone⟩ := e.recover_default h.sorted intent trigger nowMicros
  refine ⟨hsome, hnone, fun reason tried hfailed => ?_⟩
  by_cases hgood : ∃ c ∈ e.index.snapshots, Good intent c
  · obtain ⟨c, -, -, -, hresult⟩ := hsome hgood
    rw [hresult] at hfailed
    cases hfailed
  · push Not at hgood
    rw [hnone hgood] at hfailed
    cases hfailed

end Runs

end Spaceshuttle.Recovery
