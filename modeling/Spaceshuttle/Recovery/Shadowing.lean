import Spaceshuttle.Lib.Selection
import Spaceshuttle.Recovery.Fallback

/-!
# Recovery with a preferred strategy

`Checkpoint` looks for a signed snapshot and `GitRecover` for any snapshot of the intent. Only what they
find is checked for its hash, so a corrupt snapshot shadows the good ones that they would find without it.
-/

namespace Spaceshuttle.Recovery

open Selection (GoodAhead firstLeast_of_argmin firstLeast_of_find? complete_iff)

/-- A snapshot was restored. -/
def RecoveryResult.isRestored : RecoveryResult → Bool
  | .restored .. => true
  | .cleanBooted .. => false
  | .failed .. => false

section Preferred

/-- With one strategy, its offer is all there is. -/
theorem recover_preferred (e : RecoveryEngine) (intent : String) (trigger : RecoveryTrigger)
    (nowMicros : Int) {strategy : RecoveryStrategy} (hclean : strategy ≠ .cleanBoot) :
    (∀ c, e.index.offer intent strategy = some c →
      (e.recover intent trigger (some strategy) nowMicros).2 =
        RecoveryEngine.restoredFrom c trigger nowMicros strategy) ∧
    ((e.recover intent trigger (some strategy) nowMicros).2.isRestored = true ↔
      ∃ c, e.index.offer intent strategy = some c) := by
  have hindex : e.attempted.index = e.index := rfl
  rw [RecoveryEngine.recover_some, RecoveryEngine.tryStrategies_cons hclean, hindex]
  cases e.index.offer intent strategy with
  | none =>
    refine ⟨fun c hc => ?_, iff_of_false Bool.false_ne_true ?_⟩
    · cases hc
    · rintro ⟨c, hc⟩
      cases hc
  | some c =>
    refine ⟨fun d hd => ?_, iff_of_true rfl ⟨c, rfl⟩⟩
    cases hd
    rfl

/-- When a strategy selects the first of the admissible snapshots of least rank, it restores whenever
there is something to restore if and only if nothing bad is ahead of the good. -/
theorem restored_complete_iff {κ : Type} [LinearOrder κ] (e : RecoveryEngine) (intent : String)
    (trigger : RecoveryTrigger) (nowMicros : Int) {strategy : RecoveryStrategy}
    (hclean : strategy ≠ .cleanBoot) {q : SnapshotCandidate → Prop} {key : SnapshotCandidate → κ}
    (hsome : ∀ c, e.index.resolve intent strategy = some c → Scan.FirstLeast q key e.index.snapshots c)
    (hnone : e.index.resolve intent strategy = none → ∀ c ∈ e.index.snapshots, ¬ q c) :
    ((e.recover intent trigger (some strategy) nowMicros).2.isRestored = true ↔
        ∃ c ∈ e.index.snapshots, q c ∧ fullyValid c = true) ↔
      (∀ c ∈ e.index.snapshots, q c → ¬ fullyValid c = true) ∨
        GoodAhead q (fun c => fullyValid c = true) key e.index.snapshots := by
  rw [(recover_preferred e intent trigger nowMicros hclean).2, exists_congr fun c => SnapshotIndex.offer_eq_some_iff]
  exact complete_iff hsome hnone

end Preferred

/-! ## Checkpoints -/

section Checkpoint

variable {index : SnapshotIndex} {intent : String} {targetSeq : UInt64}

/-- What `Checkpoint` looks at. -/
def Signed (intent : String) (targetSeq : UInt64) (c : SnapshotCandidate) : Prop :=
  (matchesIntent intent c && decide (c.busSeq ≤ targetSeq) && c.signatureValid) = true

theorem signed_iff {c : SnapshotCandidate} : Signed intent targetSeq c ↔
    matchesIntent intent c = true ∧ c.busSeq ≤ targetSeq ∧ c.signatureValid = true := by
  rw [Signed, Bool.and_eq_true, Bool.and_eq_true, decide_eq_true_iff, and_assoc]

theorem signed_and_valid_iff {c : SnapshotCandidate} :
    Signed intent targetSeq c ∧ fullyValid c = true ↔ Good intent c ∧ c.busSeq ≤ targetSeq := by
  rw [signed_iff]
  constructor
  · rintro ⟨⟨hintent, hseq, -⟩, hvalid⟩
    exact ⟨⟨hintent, hvalid⟩, hseq⟩
  · rintro ⟨hgood, hseq⟩
    have hsigned := hgood.valid
    rw [fullyValid, Bool.and_eq_true] at hsigned
    exact ⟨⟨hgood.ofIntent, hseq, hsigned.1⟩, hgood.valid⟩

/-- How far a snapshot lies before the target. -/
def distance (targetSeq : UInt64) (c : SnapshotCandidate) : Nat := (targetSeq - c.busSeq).toNat

theorem distance_eq {c : SnapshotCandidate} (hc : c.busSeq ≤ targetSeq) :
    distance targetSeq c = targetSeq.toNat - c.busSeq.toNat :=
  UInt64.toNat_sub_of_le targetSeq c.busSeq hc

theorem resolve_checkpoint : index.resolve intent (.checkpoint targetSeq) = (index.snapshots.filter
    (fun s => matchesIntent intent s && decide (s.busSeq ≤ targetSeq) && s.signatureValid)).argmin
      (distance targetSeq) := rfl

/-- Every signed snapshot up to the target whose hash is wrong has a good one ahead of it: one with a
later sequence number, or one with the same number that stands before it. -/
def CheckpointUnshadowed (intent : String) (targetSeq : UInt64)
    (snapshots : List SnapshotCandidate) : Prop :=
  ∀ front c back, snapshots = front ++ c :: back → matchesIntent intent c = true →
    c.busSeq ≤ targetSeq → c.signatureValid = true → c.hashValid = false →
    (∃ d ∈ snapshots, Good intent d ∧ d.busSeq ≤ targetSeq ∧ c.busSeq < d.busSeq) ∨
      ∃ d ∈ front, Good intent d ∧ d.busSeq = c.busSeq

theorem goodAhead_iff_unshadowed {snapshots : List SnapshotCandidate} :
    GoodAhead (Signed intent targetSeq) (fun c => fullyValid c = true) (distance targetSeq) snapshots ↔
      CheckpointUnshadowed intent targetSeq snapshots := by
  have hlater : ∀ c d : SnapshotCandidate, c.busSeq ≤ targetSeq → d.busSeq ≤ targetSeq →
      (distance targetSeq d < distance targetSeq c ↔ c.busSeq < d.busSeq) := by
    intro c d hc hd
    rw [distance_eq hc, distance_eq hd, UInt64.lt_iff_toNat_lt]
    rw [UInt64.le_iff_toNat_le] at hc hd
    omega
  have hsame : ∀ c d : SnapshotCandidate, c.busSeq ≤ targetSeq → d.busSeq ≤ targetSeq →
      (distance targetSeq d = distance targetSeq c ↔ d.busSeq = c.busSeq) := by
    intro c d hc hd
    rw [distance_eq hc, distance_eq hd, ← UInt64.toNat_inj]
    rw [UInt64.le_iff_toNat_le] at hc hd
    omega
  constructor
  · intro hahead front c back hsplit hintent hseq hsigned hhash
    have hbad : ¬ fullyValid c = true := by
      rw [fullyValid, hhash, Bool.and_false]
      exact Bool.false_ne_true
    rcases hahead front c back hsplit (signed_iff.mpr ⟨hintent, hseq, hsigned⟩) hbad with
      ⟨d, hmem, hd, hvalid, hlt⟩ | ⟨d, hmem, hd, hvalid, heq⟩
    · obtain ⟨hgood, hdseq⟩ := signed_and_valid_iff.mp ⟨hd, hvalid⟩
      exact .inl ⟨d, hmem, hgood, hdseq, (hlater c d hseq hdseq).mp hlt⟩
    · obtain ⟨hgood, hdseq⟩ := signed_and_valid_iff.mp ⟨hd, hvalid⟩
      exact .inr ⟨d, hmem, hgood, (hsame c d hseq hdseq).mp heq⟩
  · intro hclear front c back hsplit hsigned hbad
    obtain ⟨hintent, hseq, hsignature⟩ := signed_iff.mp hsigned
    have hhash : c.hashValid = false := by
      have hinvalid : ¬ fullyValid c = true := hbad
      rwa [fullyValid, hsignature, Bool.true_and, Bool.not_eq_true] at hinvalid
    rcases hclear front c back hsplit hintent hseq hsignature hhash with
      ⟨d, hmem, hgood, hdseq, hlt⟩ | ⟨d, hmem, hgood, heq⟩
    · obtain ⟨hd, hvalid⟩ := signed_and_valid_iff.mpr ⟨hgood, hdseq⟩
      exact .inl ⟨d, hmem, hd, hvalid, (hlater c d hseq hdseq).mpr hlt⟩
    · obtain ⟨hd, hvalid⟩ := signed_and_valid_iff.mpr ⟨hgood, heq ▸ hseq⟩
      exact .inr ⟨d, hmem, hd, hvalid, (hsame c d hseq (heq ▸ hseq)).mpr heq⟩

theorem firstLeast_checkpoint {c : SnapshotCandidate}
    (h : index.resolve intent (.checkpoint targetSeq) = some c) :
    Scan.FirstLeast (Signed intent targetSeq) (distance targetSeq) index.snapshots c :=
  firstLeast_of_argmin h

/-- What `Checkpoint` offers is the latest of the good snapshots up to the target. -/
theorem offer_checkpoint {c : SnapshotCandidate}
    (h : index.offer intent (.checkpoint targetSeq) = some c) :
    c ∈ index.snapshots ∧ Good intent c ∧ c.busSeq ≤ targetSeq ∧
      ∀ d ∈ index.snapshots, Good intent d → d.busSeq ≤ targetSeq → d.busSeq ≤ c.busSeq := by
  obtain ⟨hresolve, hvalid⟩ := SnapshotIndex.offer_eq_some_iff.mp h
  have hfirst := firstLeast_checkpoint hresolve
  obtain ⟨hgood, hseq⟩ := signed_and_valid_iff.mp ⟨hfirst.qualifies, hvalid⟩
  refine ⟨(SnapshotIndex.resolve_mem hresolve).1, hgood, hseq, fun d hmem hd hdseq => ?_⟩
  have hleast := hfirst.least d hmem (signed_and_valid_iff.mpr ⟨hd, hdseq⟩).1
  rw [distance_eq hseq, distance_eq hdseq] at hleast
  rw [UInt64.le_iff_toNat_le] at hseq hdseq ⊢
  omega

end Checkpoint

section Complete

variable (e : RecoveryEngine) (intent : String) (trigger : RecoveryTrigger) (targetSeq : UInt64)
  (nowMicros : Int)

/-- `Checkpoint` restores if there is a good snapshot up to the target, and then the latest one. -/
def CheckpointComplete : Prop :=
  let result := (e.recover intent trigger (some (.checkpoint targetSeq)) nowMicros).2
  (result.isRestored = true ↔ ∃ c ∈ e.index.snapshots, Good intent c ∧ c.busSeq ≤ targetSeq) ∧
    (result.isRestored = true → ∃ c ∈ e.index.snapshots, Good intent c ∧ c.busSeq ≤ targetSeq ∧
      (∀ d ∈ e.index.snapshots, Good intent d → d.busSeq ≤ targetSeq → d.busSeq ≤ c.busSeq) ∧
      result = RecoveryEngine.restoredFrom c trigger nowMicros (.checkpoint targetSeq))

/-- There is no good snapshot up to the target, or none of the good ones is shadowed. -/
def CheckpointClear : Prop :=
  (∀ c ∈ e.index.snapshots, Good intent c → ¬ c.busSeq ≤ targetSeq) ∨
    CheckpointUnshadowed intent targetSeq e.index.snapshots

theorem checkpoint_complete_iff :
    CheckpointComplete e intent trigger targetSeq nowMicros ↔ CheckpointClear e intent targetSeq := by
  have hclean : RecoveryStrategy.checkpoint targetSeq ≠ .cleanBoot := RecoveryStrategy.noConfusion
  have hnothing : e.index.resolve intent (.checkpoint targetSeq) = none →
      ∀ c ∈ e.index.snapshots, ¬ Signed intent targetSeq c := by
    intro hnone
    rwa [resolve_checkpoint, List.argmin_eq_none, List.filter_eq_nil_iff] at hnone
  have hcomplete := restored_complete_iff e intent trigger nowMicros hclean
    (fun c hc => firstLeast_checkpoint hc) hnothing
  have hgood : ∀ c, c ∈ e.index.snapshots ∧ Signed intent targetSeq c ∧ fullyValid c = true ↔
      c ∈ e.index.snapshots ∧ Good intent c ∧ c.busSeq ≤ targetSeq :=
    fun c => and_congr_right fun _ => signed_and_valid_iff
  have hnone : (∀ c ∈ e.index.snapshots, Signed intent targetSeq c → ¬ fullyValid c = true) ↔
      ∀ c ∈ e.index.snapshots, Good intent c → ¬ c.busSeq ≤ targetSeq := by
    refine forall_congr' fun c => forall_congr' fun _ => ?_
    rw [← not_and, signed_and_valid_iff, not_and]
  rw [hnone, goodAhead_iff_unshadowed, exists_congr hgood] at hcomplete
  rw [CheckpointClear, ← hcomplete]
  refine ⟨And.left, fun h => ⟨h, fun hdone => ?_⟩⟩
  obtain ⟨hresult, hrestored⟩ := recover_preferred e intent trigger nowMicros hclean
  obtain ⟨c, hc⟩ := hrestored.mp hdone
  obtain ⟨hmem, hgood, hseq, hlatest⟩ := offer_checkpoint hc
  exact ⟨c, hmem, hgood, hseq, hlatest, hresult c hc⟩

/-! ## Git -/

/-- Every snapshot of the intent that cannot be restored has a good one before it. -/
def GitUnshadowed (snapshots : List SnapshotCandidate) : Prop :=
  ∀ front c back, snapshots = front ++ c :: back → matchesIntent intent c = true →
    fullyValid c = false → ∃ d ∈ front, Good intent d

/-- `GitRecover` restores if there is a good snapshot. -/
def GitComplete : Prop :=
  (e.recover intent trigger (some .gitRecover) nowMicros).2.isRestored = true ↔
    ∃ c ∈ e.index.snapshots, Good intent c

/-- There is no good snapshot, or none of the good ones is shadowed. -/
def GitClear : Prop :=
  (∀ c ∈ e.index.snapshots, ¬ Good intent c) ∨ GitUnshadowed intent e.index.snapshots

theorem goodAhead_iff_gitUnshadowed {snapshots : List SnapshotCandidate} :
    GoodAhead (fun c => matchesIntent intent c = true) (fun c => fullyValid c = true)
      (fun _ => (0 : Nat)) snapshots ↔ GitUnshadowed intent snapshots := by
  constructor
  · intro hahead front c back hsplit hintent hbad
    rcases hahead front c back hsplit hintent (by simp [hbad]) with
      ⟨d, -, -, -, hlt⟩ | ⟨d, hmem, hd, hvalid, -⟩
    · exact absurd hlt (lt_irrefl _)
    · exact ⟨d, hmem, hd, hvalid⟩
  · intro hclear front c back hsplit hintent hbad
    obtain ⟨d, hmem, hgood⟩ := hclear front c back hsplit hintent (Bool.not_eq_true _ ▸ hbad)
    exact .inr ⟨d, hmem, hgood.ofIntent, hgood.valid, rfl⟩

theorem git_complete_iff : GitComplete e intent trigger nowMicros ↔ GitClear e intent := by
  have hclean : RecoveryStrategy.gitRecover ≠ .cleanBoot := RecoveryStrategy.noConfusion
  have hresolve : e.index.resolve intent .gitRecover =
    e.index.snapshots.find? (matchesIntent intent) := rfl
  have hfirst : ∀ c, e.index.resolve intent .gitRecover = some c → Scan.FirstLeast
      (fun c => matchesIntent intent c = true) (fun _ => (0 : Nat)) e.index.snapshots c :=
    fun c hc => firstLeast_of_find? (fun _ _ => rfl) (hresolve ▸ hc)
  have hcomplete := restored_complete_iff e intent trigger nowMicros hclean hfirst
    (fun hnone => List.find?_eq_none.mp (hresolve ▸ hnone))
  have hgood : ∀ c, c ∈ e.index.snapshots ∧ matchesIntent intent c = true ∧ fullyValid c = true ↔
      c ∈ e.index.snapshots ∧ Good intent c :=
    fun c => and_congr_right fun _ => ⟨fun h => ⟨h.1, h.2⟩, fun h => ⟨h.ofIntent, h.valid⟩⟩
  have hnone : (∀ c ∈ e.index.snapshots, matchesIntent intent c = true → ¬ fullyValid c = true) ↔
      ∀ c ∈ e.index.snapshots, ¬ Good intent c :=
    forall_congr' fun c => forall_congr' fun _ =>
      ⟨fun h hgood => h hgood.ofIntent hgood.valid, fun h hintent hvalid => h ⟨hintent, hvalid⟩⟩
  rw [hnone, goodAhead_iff_gitUnshadowed, exists_congr hgood] at hcomplete
  exact hcomplete

/-! ## Both -/

/-- Both strategies find the good snapshots if and only if no corrupt snapshot shadows them. -/
theorem preferred_complete_iff :
    CheckpointComplete e intent trigger targetSeq nowMicros ∧ GitComplete e intent trigger nowMicros ↔
      CheckpointClear e intent targetSeq ∧ GitClear e intent :=
  and_congr (checkpoint_complete_iff e intent trigger targetSeq nowMicros)
    (git_complete_iff e intent trigger nowMicros)

end Complete

/-- A good snapshot. -/
def goodSnapshot : SnapshotCandidate := ⟨"good.tza", "code:run", 3, 4096, true, true, 100⟩

/-- An engine that knows the good snapshot and a later one whose hash is wrong. -/
def corruptedLater : RecoveryEngine :=
  Machine.run recoveryStep (.new "/snap" none)
    [.register goodSnapshot, .register ⟨"bad.tza", "code:run", 5, 4096, true, false, 200⟩]

/-- The later snapshot shadows the good one for both strategies. -/
theorem corrupted_shadows_good :
    ¬ CheckpointComplete corruptedLater "code:run" .manual 10 0 ∧
      ¬ GitComplete corruptedLater "code:run" .manual 0 := by
  have hmem : goodSnapshot ∈ corruptedLater.index.snapshots := by decide
  have hgood : Good "code:run" goodSnapshot := ⟨by decide, by decide⟩
  have hcheckpoint : (corruptedLater.recover "code:run" .manual (some (.checkpoint 10)) 0).2.isRestored =
    false := by decide
  have hgit : (corruptedLater.recover "code:run" .manual (some .gitRecover) 0).2.isRestored = false := by
    decide
  constructor
  · intro h
    have hrestored := h.1.mpr ⟨goodSnapshot, hmem, hgood, by decide⟩
    rw [hcheckpoint] at hrestored
    cases hrestored
  · intro h
    have hrestored := h.mpr ⟨goodSnapshot, hmem, hgood⟩
    rw [hgit] at hrestored
    cases hrestored

end Spaceshuttle.Recovery
