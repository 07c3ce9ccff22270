import Mathlib.Data.List.MinMax
import Mathlib.Data.List.Sort
import Spaceshuttle.Kernel.Snaft
import Spaceshuttle.Lib.Machine
import Spaceshuttle.Recovery.Snapshot

/-!
# The recovery engine

`SnapshotIndex` and `RecoveryEngine` of `crates/trust-kernel/src/recovery.rs`. The clocks are arguments;
measured times are left out.
-/

namespace Spaceshuttle.Recovery

open Kernel (startsWith)

/-- `RecoveryStrategy` (`recovery.rs:30-39`). -/
inductive RecoveryStrategy where
  | lastGood
  | checkpoint (targetSeq : UInt64)
  | cleanBoot
  | gitRecover
  deriving DecidableEq, Repr

/-- `SnapshotCandidate` (`recovery.rs:43-58`). -/
structure SnapshotCandidate where
  path : String
  intent : String
  busSeq : UInt64
  fileSize : UInt64
  signatureValid : Bool
  hashValid : Bool
  capturedAtNs : UInt64
  deriving DecidableEq, Repr

/-- `RecoveryResult` (`recovery.rs:62-93`). -/
inductive RecoveryResult where
  | restored (snapshotPath : String) (restoredSeq bytesInjected : UInt64) (integrityVerified : Bool)
      (tibetTokenId : String) (strategy : RecoveryStrategy)
  | cleanBooted (tibetTokenId : String)
  | failed (reason : String) (strategiesTried : List RecoveryStrategy)
  deriving DecidableEq, Repr

/-- `RecoveryTrigger` (`recovery.rs:97-110`). Only the kind of an incident is used. -/
inductive RecoveryTrigger where
  | watchdogKill
  | busFailure
  | memoryOverflow
  | sequenceGap
  | manual
  | jisDenied
  deriving DecidableEq, Repr

/-- `trigger_name` (`recovery.rs:387-396`). -/
def triggerName : RecoveryTrigger → String
  | .watchdogKill => "watchdog_kill"
  | .busFailure => "bus_failure"
  | .memoryOverflow => "memory_overflow"
  | .sequenceGap => "sequence_gap"
  | .manual => "manual"
  | .jisDenied => "jis_denied"

/-! ## The index -/

/-- `SnapshotIndex` (`recovery.rs:119-126`). -/
structure SnapshotIndex where
  snapshots : List SnapshotCandidate
  storePath : String
  gitPath : Option String
  deriving DecidableEq, Repr

/-- The order of the index: newer snapshots first. -/
def NewerFirst (a b : SnapshotCandidate) : Prop := b.capturedAtNs ≤ a.capturedAtNs

instance : DecidableRel NewerFirst := fun a b =>
  inferInstanceAs (Decidable (b.capturedAtNs ≤ a.capturedAtNs))

/-- `s.intent == intent || intent.starts_with(&s.intent)`. -/
def matchesIntent (intent : String) (s : SnapshotCandidate) : Bool :=
  s.intent == intent || startsWith intent s.intent

/-- The candidate that `register_from_snapshot` registers (`recovery.rs:146-157`). -/
def candidateOf (storePath : String) (snapshot : Snapshot) (nowNs : UInt64) : SnapshotCandidate where
  path := storePath ++ "/" ++ snapshot.intent.replace ":" "/" ++ "/" ++ snapshot.id ++ ".tza"
  intent := snapshot.intent
  busSeq := snapshot.busSeq
  fileSize := snapshot.compressedSize + tzaHeaderSize
  signatureValid := true
  hashValid := true
  capturedAtNs := nowNs

namespace SnapshotIndex

/-- `SnapshotIndex::new` (`recovery.rs:129-135`). -/
def new (storePath : String) (gitPath : Option String) : SnapshotIndex := ⟨[], storePath, gitPath⟩

/-- `register` (`recovery.rs:138-142`). -/
def register (index : SnapshotIndex) (candidate : SnapshotCandidate) : SnapshotIndex :=
  { index with snapshots := (index.snapshots ++ [candidate]).insertionSort NewerFirst }

/-- `register_from_snapshot` (`recovery.rs:145-159`). -/
def registerFromSnapshot (index : SnapshotIndex) (snapshot : Snapshot) (nowNs : UInt64) :
    SnapshotIndex :=
  index.register (candidateOf index.storePath snapshot nowNs)

/-- `resolve` (`recovery.rs:162-194`). -/
def resolve (index : SnapshotIndex) (intent : String) : RecoveryStrategy → Option SnapshotCandidate
  | .lastGood =>
      index.snapshots.find? (fun s => matchesIntent intent s && s.signatureValid && s.hashValid)
  | .checkpoint targetSeq =>
      (index.snapshots.filter
        (fun s => matchesIntent intent s && decide (s.busSeq ≤ targetSeq) && s.signatureValid)).argmin
          (fun s => (targetSeq - s.busSeq).toNat)
  | .cleanBoot => none
  | .gitRecover => index.snapshots.find? (matchesIntent intent)

end SnapshotIndex

/-! ## The engine -/

/-- `RecoveryEngine` (`recovery.rs:218-227`). -/
structure RecoveryEngine where
  index : SnapshotIndex
  recoveriesAttempted : UInt64
  recoveriesSucceeded : UInt64
  recoveriesFailed : UInt64
  deriving DecidableEq, Repr

namespace RecoveryEngine

/-- `RecoveryEngine::new` (`recovery.rs:230-237`). -/
def new (storePath : String) (gitPath : Option String) : RecoveryEngine :=
  ⟨.new storePath gitPath, 0, 0, 0⟩

/-- Count an attempt. -/
def attempted (e : RecoveryEngine) : RecoveryEngine :=
  { e with recoveriesAttempted := e.recoveriesAttempted + 1 }

/-- Count a success. -/
def succeeded (e : RecoveryEngine) : RecoveryEngine :=
  { e with recoveriesSucceeded := e.recoveriesSucceeded + 1 }

/-- Count a failure. -/
def failed (e : RecoveryEngine) : RecoveryEngine :=
  { e with recoveriesFailed := e.recoveriesFailed + 1 }

/-- The token of a clean boot. -/
def cleanToken (nowMicros : Int) : String := s!"tibet_recovery_clean_{nowMicros}"

/-- What is reported for a snapshot that was restored. -/
def restoredFrom (candidate : SnapshotCandidate) (trigger : RecoveryTrigger) (nowMicros : Int)
    (strategy : RecoveryStrategy) : RecoveryResult :=
  .restored candidate.path candidate.busSeq candidate.fileSize
    (candidate.signatureValid && candidate.hashValid)
    s!"tibet_recovery_seq{candidate.busSeq}_{triggerName trigger}_{nowMicros}" strategy

/-- The loop over the strategies in `recover` (`recovery.rs:264-320`) and the failure behind it. -/
def tryStrategies (e : RecoveryEngine) (intent : String) (trigger : RecoveryTrigger) (nowMicros : Int) :
    List RecoveryStrategy → List RecoveryStrategy → RecoveryEngine × RecoveryResult
  | tried, [] =>
      (e.failed, .failed
        s!"No valid snapshot found for intent '{intent}' after {tried.length} strategies" tried)
  | tried, strategy :: strategies =>
      let tried := tried ++ [strategy]
      if strategy = .cleanBoot then (e.succeeded, .cleanBooted (cleanToken nowMicros))
      else match e.index.resolve intent strategy with
        | some candidate =>
            if !candidate.signatureValid || !candidate.hashValid then
              tryStrategies e intent trigger nowMicros tried strategies
            else (e.succeeded, restoredFrom candidate trigger nowMicros strategy)
        | none => tryStrategies e intent trigger nowMicros tried strategies

/-- The strategies that are tried when none is preferred. -/
def defaultStrategies : List RecoveryStrategy := [.lastGood, .checkpoint 0, .gitRecover, .cleanBoot]

/-- `recover` (`recovery.rs:242-321`). -/
def recover (e : RecoveryEngine) (intent : String) (trigger : RecoveryTrigger)
    (preferredStrategy : Option RecoveryStrategy) (nowMicros : Int) : RecoveryEngine × RecoveryResult :=
  let e := e.attempted
  let strategies := match preferredStrategy with
    | some preferred => [preferred]
    | none => defaultStrategies
  e.tryStrategies intent trigger nowMicros [] strategies

end RecoveryEngine

/-! ## Runs -/

/-- The operations on an engine and its index. -/
inductive RecoveryOp where
  | register (candidate : SnapshotCandidate)
  | registerFromSnapshot (snapshot : Snapshot) (nowNs : UInt64)
  | recover (intent : String) (trigger : RecoveryTrigger)
      (preferredStrategy : Option RecoveryStrategy) (nowMicros : Int)
  deriving DecidableEq, Repr

/-- Run an operation. -/
def recoveryStep (e : RecoveryEngine) : RecoveryOp → RecoveryEngine × Option RecoveryResult
  | .register candidate => ({ e with index := e.index.register candidate }, none)
  | .registerFromSnapshot snapshot nowNs =>
      ({ e with index := e.index.registerFromSnapshot snapshot nowNs }, none)
  | .recover intent trigger preferredStrategy nowMicros =>
      let out := e.recover intent trigger preferredStrategy nowMicros
      (out.1, some out.2)

end Spaceshuttle.Recovery
