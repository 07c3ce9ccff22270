import Spaceshuttle.Kernel.Watchdog
import Spaceshuttle.Recovery.Shadowing

/-!
# The health check

`can_recover` of `crates/trust-kernel/src/recovery.rs`. It counts the snapshots of an intent and asks
whether git is configured. `recover` takes the first snapshot, and does not ask for git.
-/

namespace Spaceshuttle.Recovery

open Kernel (saturatingSub)

/-- `RecoveryHealth` (`recovery.rs:367-375`). -/
structure RecoveryHealth where
  intent : String
  snapshotsAvailable : Nat
  snapshotsValid : Nat
  newestSnapshotAgeMs : UInt64
  canLastGood : Bool
  canGitRecover : Bool
  canCleanBoot : Bool
  deriving DecidableEq, Repr

/-- `count_for_intent` (`recovery.rs:197-201`). -/
def SnapshotIndex.countForIntent (index : SnapshotIndex) (intent : String) : Nat :=
  (index.snapshots.filter (matchesIntent intent)).length

namespace RecoveryEngine

/-- `can_recover` (`recovery.rs:324-352`). -/
def canRecover (e : RecoveryEngine) (intent : String) (nowNs : UInt64) : RecoveryHealth :=
  let total := e.index.countForIntent intent
  let valid := (e.index.snapshots.filter
    (fun s => matchesIntent intent s && s.signatureValid && s.hashValid)).length
  let newestAgeMs := ((e.index.snapshots.filter (matchesIntent intent)).head?.map
    (fun s => saturatingSub nowNs s.capturedAtNs / 1000000)).getD 0xFFFFFFFFFFFFFFFF
  { intent
    snapshotsAvailable := total
    snapshotsValid := valid
    newestSnapshotAgeMs := newestAgeMs
    canLastGood := decide (valid > 0)
    canGitRecover := e.index.gitPath.isSome && decide (total > 0)
    canCleanBoot := true }

variable {e : RecoveryEngine} {intent : String} {nowNs : UInt64}

theorem canLastGood_iff :
    (e.canRecover intent nowNs).canLastGood = true ↔ ∃ c ∈ e.index.snapshots, Good intent c := by
  have hcount : (e.canRecover intent nowNs).canLastGood = decide (0 < (e.index.snapshots.filter
    (fun s => matchesIntent intent s && s.signatureValid && s.hashValid)).length) := rfl
  rw [hcount, decide_eq_true_iff, List.length_filter_pos_iff]
  exact exists_congr fun c => and_congr_right fun _ => good_iff.symm

theorem canGitRecover_iff : (e.canRecover intent nowNs).canGitRecover = true ↔
    e.index.gitPath.isSome = true ∧ ∃ c ∈ e.index.snapshots, matchesIntent intent c = true := by
  have hcount : (e.canRecover intent nowNs).canGitRecover = (e.index.gitPath.isSome &&
    decide (0 < (e.index.snapshots.filter (matchesIntent intent)).length)) := rfl
  rw [hcount, Bool.and_eq_true, decide_eq_true_iff, List.length_filter_pos_iff]

end RecoveryEngine

/-! ## What the check predicts -/

section Prediction

variable (e : RecoveryEngine) (intent : String) (trigger : RecoveryTrigger) (nowNs : UInt64)
  (nowMicros : Int)

/-- The check says of both strategies whether `recover` restores with them. -/
structure HealthPredicts : Prop where
  lastGood : (e.canRecover intent nowNs).canLastGood = true ↔
    (e.recover intent trigger (some .lastGood) nowMicros).2.isRestored = true
  gitRecover : (e.canRecover intent nowNs).canGitRecover = true ↔
    (e.recover intent trigger (some .gitRecover) nowMicros).2.isRestored = true

/-- There is no snapshot of the intent, or the first one is fully valid exactly if git is configured. -/
def GitFaithful : Prop :=
  (∀ c ∈ e.index.snapshots, matchesIntent intent c = false) ∨
    ∃ front c back, e.index.snapshots = front ++ c :: back ∧
      (∀ d ∈ front, matchesIntent intent d = false) ∧ matchesIntent intent c = true ∧
      (fullyValid c = true ↔ e.index.gitPath.isSome = true)

theorem resolve_lastGood (index : SnapshotIndex) (intent : String) :
    index.resolve intent .lastGood = index.snapshots.find?
      (fun s => matchesIntent intent s && s.signatureValid && s.hashValid) := rfl

/-- `LastGood` restores exactly if there is a good snapshot. -/
theorem lastGood_restored_iff :
    (e.recover intent trigger (some .lastGood) nowMicros).2.isRestored = true ↔
      ∃ c ∈ e.index.snapshots, Good intent c := by
  rw [(recover_preferred e intent trigger nowMicros (by decide)).2]
  constructor
  · rintro ⟨c, hoffer⟩
    exact ⟨c, SnapshotIndex.offer_good hoffer⟩
  · rintro ⟨c, hmem, hgood⟩
    have hresolve := resolve_lastGood e.index intent
    cases hfind : e.index.snapshots.find?
        (fun s => matchesIntent intent s && s.signatureValid && s.hashValid) with
    | none => exact absurd (good_iff.mp hgood) (List.find?_eq_none.mp hfind c hmem)
    | some d =>
      have hvalid := List.find?_some hfind
      have hfound : Good intent d := good_iff.mpr hvalid
      exact ⟨d, SnapshotIndex.offer_eq_some_iff.mpr ⟨hresolve.trans hfind, hfound.valid⟩⟩

/-- `GitRecover` restores exactly if the first snapshot of the intent is fully valid. -/
theorem gitRecover_restored_iff :
    (e.recover intent trigger (some .gitRecover) nowMicros).2.isRestored = true ↔
      ∃ c, e.index.snapshots.find? (matchesIntent intent) = some c ∧ fullyValid c = true := by
  rw [(recover_preferred e intent trigger nowMicros (by decide)).2]
  exact exists_congr fun c => SnapshotIndex.offer_eq_some_iff

theorem git_predicted_iff :
    ((e.canRecover intent nowNs).canGitRecover = true ↔
      (e.recover intent trigger (some .gitRecover) nowMicros).2.isRestored = true) ↔
    GitFaithful e intent := by
  rw [RecoveryEngine.canGitRecover_iff, gitRecover_restored_iff]
  cases hfind : e.index.snapshots.find? (matchesIntent intent) with
  | none =>
    have hnothing : ∀ c ∈ e.index.snapshots, matchesIntent intent c = false := by
      simpa using List.find?_eq_none.mp hfind
    refine iff_of_true (iff_of_false ?_ ?_) (.inl hnothing)
    · rintro ⟨-, c, hmem, hintent⟩
      rw [hnothing c hmem] at hintent
      cases hintent
    · rintro ⟨c, hc, -⟩
      cases hc
  | some c =>
    obtain ⟨hintent, front, back, hsplit, hfront⟩ := List.find?_eq_some_iff_append.mp hfind
    have hmem := List.mem_of_find?_eq_some hfind
    have hsome : ∃ c ∈ e.index.snapshots, matchesIntent intent c = true := ⟨c, hmem, hintent⟩
    have hfirst : (∃ d, some c = some d ∧ fullyValid d = true) ↔ fullyValid c = true := by simp
    rw [and_iff_left hsome, hfirst]
    constructor
    · intro hiff
      exact .inr ⟨front, c, back, hsplit, by simpa using hfront, hintent, hiff.symm⟩
    · rintro (hnothing | ⟨front', d, back', hsplit', hfront', hintent', hiff⟩)
      · rw [hnothing c hmem] at hintent
        cases hintent
      · have hfind' : e.index.snapshots.find? (matchesIntent intent) = some d :=
          List.find?_eq_some_iff_append.mpr
            ⟨hintent', front', back', hsplit', by simpa using hfront'⟩
        rw [hfind] at hfind'
        cases hfind'
        exact hiff.symm

/-- The check predicts recovery if and only if there is no snapshot of the intent, or the first one is
fully valid exactly if git is configured. -/
theorem health_predicts_iff :
    HealthPredicts e intent trigger nowNs nowMicros ↔ GitFaithful e intent := by
  rw [← git_predicted_iff e intent trigger nowNs nowMicros]
  constructor
  · exact HealthPredicts.gitRecover
  · intro hgit
    refine ⟨?_, hgit⟩
    rw [RecoveryEngine.canLastGood_iff, lastGood_restored_iff]

end Prediction

/-- An engine without git that knows one good snapshot. -/
def withoutGit : RecoveryEngine :=
  Machine.run recoveryStep (.new "/snap" none) [.register goodSnapshot]

/-- An engine with git whose only snapshot is corrupt. -/
def corruptWithGit : RecoveryEngine :=
  Machine.run recoveryStep (.new "/snap" (some "/git"))
    [.register ⟨"bad.tza", "code:run", 5, 4096, true, false, 200⟩]

/-- The check denies a recovery that succeeds and promises one that fails. -/
theorem health_mispredicts :
    ¬ HealthPredicts withoutGit "code:run" .manual 0 0 ∧
      ¬ HealthPredicts corruptWithGit "code:run" .manual 0 0 := by
  constructor
  · intro h
    have hpromised := h.gitRecover.mpr (by decide)
    exact absurd hpromised (by decide)
  · intro h
    have hrestored := h.gitRecover.mp (by decide)
    exact absurd hrestored (by decide)

end Spaceshuttle.Recovery
