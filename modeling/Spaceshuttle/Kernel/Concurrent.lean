import Spaceshuttle.Kernel.Pipeline
import Spaceshuttle.Lib.Threads

/-!
# Frames at the same time

`main` spawns a task for every frame (`crates/trust-kernel/src/main.rs:65`), and the tasks run on
several threads. What they share are the atomics of the watchdog and of the bus, and the statistics
of the bus behind their lock; everything else is local. A step of the model is one access to what is
shared, with the local work up to the next one. A run is any interleaving of such steps.
-/

namespace Spaceshuttle.Kernel

open Threads

/-- What the tasks share, with the lock of the statistics (`bus.rs:57`). -/
structure SharedKernel extends TrustKernel where
  statsLocked : Bool
  deriving DecidableEq

/-- Where a task stands: the access it is about to make. -/
inductive Spot where
  /-- `active.load` (`watchdog.rs:66`). -/
  | loadActive
  /-- `last_response_ns.load` (`watchdog.rs:71`), the clock having been read. -/
  | loadResponse (checkedAtNs : UInt64)
  /-- `missed_count.fetch_add` (`watchdog.rs:76`). -/
  | addMissed
  /-- `triggered.store` (`watchdog.rs:79`). -/
  | storeTriggered
  /-- `open.store` (`bus.rs:150`). -/
  | storeClosed
  /-- The statistics of a shutdown (`bus.rs:151-152`). -/
  | countKill
  /-- `seq_counter.fetch_add` (`bus.rs:94`). -/
  | addSeq
  /-- `last_response_ns.store` (`watchdog.rs:59`). -/
  | storeResponse (verdict : VoorproeverVerdict)
  /-- `missed_count.store` (`watchdog.rs:60`). -/
  | clearMissed (verdict : VoorproeverVerdict)
  /-- `open.load` (`bus.rs:112`). -/
  | loadOpen (payload : BusPayload)
  /-- `next_expected_seq.load` (`bus.rs:123`). -/
  | loadExpected (payload : BusPayload)
  /-- The lock is taken and the gap counted (`bus.rs:126-127`). -/
  | countGap (payload : BusPayload)
  /-- `next_expected_seq.store`, under the lock after a gap (`bus.rs:130`) and without it otherwise
  (`bus.rs:142`). -/
  | storeExpected (payload : BusPayload) (locked : Bool)
  /-- The payload is counted and the lock given up, which was held after a gap (`bus.rs:131`) and is
  taken for it otherwise (`bus.rs:143-144`). -/
  | countPassed (payload : BusPayload) (locked : Bool)
  /-- The task has ended. -/
  | ended (responses : List MuxResponse)

/-- A task with its frame. -/
structure FrameTask where
  frame : TibetMuxFrame
  spot : Spot
  /-- `seq_gap` of `process` (`archivaris.rs:105`). -/
  seqGap : Option (UInt64 × UInt64)
  /-- History: the number of its payload. -/
  stamped : Option UInt64
  /-- History: the bus has let its payload through. -/
  received : Bool
  /-- History: the watchdog triggered at its check. -/
  tripped : Bool

/-- A task that was just spawned. -/
def FrameTask.new (frame : TibetMuxFrame) : FrameTask where
  frame := frame
  spot := .loadActive
  seqGap := none
  stamped := none
  received := false
  tripped := false

/-- After a check that did not trigger (`main.rs:89-97`), up to the next access: a frame is rejected,
killed, or stamped. -/
def Spot.afterCheck (cfg : TrustKernelConfig) (frame : TibetMuxFrame) : Spot :=
  if !Voorproever.isKnownIntent frame.intent then
    .ended [sendResponse frame (.generateRejected frame) 400]
  else
    let monitor := Voorproever.monitorOf cfg frame
    if !monitor.violations.isEmpty then
      .storeResponse
        (.kill s!"SNAFT: {monitor.violations.length} violation(s) detected" monitor.violations
          monitor.observedSyscalls)
    else .addSeq

/-- After the verdict of Kernel A (`main.rs:99-137`). -/
def Spot.afterVerdict (frame : TibetMuxFrame) : VoorproeverVerdict → Spot
  | .reject _ => .ended [sendResponse frame (.generateRejected frame) 400]
  | .kill _ violations _ => .ended [sendResponse frame (.generateIncident frame violations) 403]
  | .pass payload _ => .loadOpen payload

/-- After the payload was received (`archivaris.rs:118-182`, `main.rs:139-170`). -/
def Spot.afterReceive (cfg : TrustKernelConfig) (frame : TibetMuxFrame) (payload : BusPayload)
    (seqGap : Option (UInt64 × UInt64)) : Spot :=
  .ended (respond frame (Archivaris.accept cfg ⟨[]⟩ payload frame seqGap).2)

/-- The next step of a task. What comes from outside is the clock, for the accesses before which or
after which it is read. -/
def FrameTask.step (cfg : TrustKernelConfig) : Code SharedKernel FrameTask UInt64 := fun nowNs t k =>
  match t.spot with
  | .loadActive =>
      if k.watchdog.active then some ({ t with spot := .loadResponse nowNs }, k)
      else some ({ t with spot := .afterCheck cfg t.frame }, k)
  | .loadResponse checkedAtNs =>
      if Watchdog.overTimeout k.watchdog.timeoutMs checkedAtNs k.watchdog.lastResponseNs then
        some ({ t with spot := .addMissed }, k)
      else some ({ t with spot := .afterCheck cfg t.frame }, k)
  | .addMissed =>
      let missed := k.watchdog.missedCount.toUInt32 + 1
      let k' := { k with watchdog :=
        { k.watchdog with missedCount := k.watchdog.missedCount + 1 } }
      if missed ≥ k.watchdog.maxMissed then
        some ({ t with spot := .storeTriggered, tripped := true }, k')
      else some ({ t with spot := .afterCheck cfg t.frame }, k')
  | .storeTriggered =>
      some ({ t with spot := .storeClosed },
        { k with watchdog := { k.watchdog with triggered := true } })
  | .storeClosed =>
      some ({ t with spot := .countKill }, { k with bus := { k.bus with isOpen := false } })
  | .countKill =>
      if k.statsLocked then none
      else
        let stats := { k.bus.stats with watchdogKills := k.bus.stats.watchdogKills + 1 }
        some ({ t with spot := .ended [sendResponse t.frame (.generateRejected t.frame) 503] },
          { k with bus := { k.bus with stats } })
  | .addSeq =>
      let observed := (Voorproever.monitorOf cfg t.frame).observedSyscalls
      let (bus, payload) := k.bus.stampPayload nowNs t.frame.intent t.frame.payload t.frame.fromAint
        observed (Voorproever.computeFira cfg)
      some ({ t with spot := .storeResponse (.pass payload observed.length), stamped := payload.seq },
        { k with bus })
  | .storeResponse verdict =>
      some ({ t with spot := .clearMissed verdict },
        { k with watchdog := { k.watchdog with lastResponseNs := nowNs } })
  | .clearMissed verdict =>
      some ({ t with spot := .afterVerdict t.frame verdict },
        { k with watchdog := { k.watchdog with missedCount := 0 } })
  | .loadOpen payload =>
      let size := payload.payload.utf8ByteSize
      if !k.bus.isOpen then some ({ t with spot := .ended (respond t.frame .busClosed) }, k)
      else if size > k.bus.maxPayloadBytes then
        let reason := s!"Payload {size}B exceeds bus max {k.bus.maxPayloadBytes}B"
        some ({ t with spot := .ended (respond t.frame (.busVerifyFailed reason payload.seq)) }, k)
      else some ({ t with spot := .loadExpected payload }, k)
  | .loadExpected payload =>
      let expected := k.bus.nextExpectedSeq
      if payload.seq ≠ expected then
        some ({ t with
          spot := .countGap payload, seqGap := some (expected, payload.seq), received := true }, k)
      else some ({ t with spot := .storeExpected payload false, received := true }, k)
  | .countGap payload =>
      if k.statsLocked then none
      else
        let stats := { k.bus.stats with
          sequenceGapsDetected := k.bus.stats.sequenceGapsDetected + 1 }
        some ({ t with spot := .storeExpected payload true },
          { k with bus := { k.bus with stats }, statsLocked := true })
  | .storeExpected payload locked =>
      some ({ t with spot := .countPassed payload locked },
        { k with bus := { k.bus with nextExpectedSeq := payload.seq + 1 } })
  | .countPassed payload locked =>
      if !locked && k.statsLocked then none
      else
        let stats := { k.bus.stats with payloadsPassed := k.bus.stats.payloadsPassed + 1 }
        some ({ t with spot := .afterReceive cfg t.frame payload t.seqGap },
          { k with bus := { k.bus with stats }, statsLocked := false })
  | .ended _ => none

/-- What happens next: a frame arrives and its task is spawned, or a task makes its next access. -/
inductive FrameEvent where
  | arrive (frame : TibetMuxFrame)
  | run (i : Nat) (nowNs : UInt64)
  deriving DecidableEq

/-- The event of a pool of tasks. -/
def FrameEvent.toEvent : FrameEvent → Event FrameTask UInt64
  | .arrive frame => .spawn (.new frame)
  | .run i nowNs => .run i nowNs

/-- The kernel after a run from its start (`main.rs:30-38`). -/
def concurrent (cfg : TrustKernelConfig) (bootNs : UInt64) (events : List FrameEvent) :
    Pool SharedKernel FrameTask :=
  .after (FrameTask.step cfg) ⟨⟨boot cfg bootNs, false⟩, []⟩ (events.map FrameEvent.toEvent)

/-! ## What one step does -/

namespace Spot

/-- The task holds the lock of the statistics. -/
def holdsLock : Spot → Bool
  | .storeExpected _ locked => locked
  | .countPassed _ locked => locked
  | _ => false

/-- A shutdown has been counted by now, if there is one. -/
def afterKill : Spot → Bool
  | .storeTriggered | .storeClosed | .countKill => false
  | _ => true

/-- A gap has been counted by now, if there is one. -/
def afterGap : Spot → Bool
  | .countGap _ => false
  | _ => true

/-- The payload has been counted by now, if it was let through. -/
def afterPassed : Spot → Bool
  | .countGap _ | .storeExpected _ _ | .countPassed _ _ => false
  | _ => true

/-- The task has ended. -/
def isEnded : Spot → Bool
  | .ended _ => true
  | _ => false

/-- The steps that are left, at most. -/
def togo : Spot → Nat
  | .loadActive => 11
  | .loadResponse _ => 10
  | .addMissed => 9
  | .addSeq => 8
  | .storeResponse _ => 7
  | .clearMissed _ => 6
  | .loadOpen _ => 5
  | .loadExpected _ => 4
  | .countGap _ => 3
  | .storeExpected _ _ => 2
  | .countPassed _ _ => 1
  | .storeTriggered => 3
  | .storeClosed => 2
  | .countKill => 1
  | .ended _ => 0

theorem isEnded_iff {spot : Spot} :
    spot.isEnded = true ↔ ∃ responses, spot = .ended responses := by
  cases spot <;> simp [isEnded]

variable (cfg : TrustKernelConfig) (frame : TibetMuxFrame) (verdict : VoorproeverVerdict)

/-- A check that did not trigger is the end of a task, or is followed by the verdict or the stamp. -/
theorem afterCheck_cases :
    (∃ responses, afterCheck cfg frame = .ended responses) ∨
    (∃ verdict, afterCheck cfg frame = .storeResponse verdict) ∨
    afterCheck cfg frame = .addSeq := by
  unfold afterCheck
  split
  · exact .inl ⟨_, rfl⟩
  · dsimp only
    split
    · exact .inr (.inl ⟨_, rfl⟩)
    · exact .inr (.inr rfl)

theorem afterVerdict_cases :
    (∃ responses, afterVerdict frame verdict = .ended responses) ∨
    ∃ payload, afterVerdict frame verdict = .loadOpen payload := by
  cases verdict with
  | reject reason => exact .inl ⟨_, rfl⟩
  | kill reason violations observed => exact .inl ⟨_, rfl⟩
  | pass payload checked => exact .inr ⟨payload, rfl⟩

theorem holdsLock_afterCheck : (afterCheck cfg frame).holdsLock = false := by
  rcases afterCheck_cases cfg frame with ⟨_, h⟩ | ⟨_, h⟩ | h <;> rw [h] <;> rfl

theorem holdsLock_afterVerdict : (afterVerdict frame verdict).holdsLock = false := by
  rcases afterVerdict_cases frame verdict with ⟨_, h⟩ | ⟨_, h⟩ <;> rw [h] <;> rfl

theorem afterGap_afterCheck : (afterCheck cfg frame).afterGap = true := by
  rcases afterCheck_cases cfg frame with ⟨_, h⟩ | ⟨_, h⟩ | h <;> rw [h] <;> rfl

theorem afterGap_afterVerdict : (afterVerdict frame verdict).afterGap = true := by
  rcases afterVerdict_cases frame verdict with ⟨_, h⟩ | ⟨_, h⟩ <;> rw [h] <;> rfl

theorem togo_afterCheck : (afterCheck cfg frame).togo ≤ 8 := by
  rcases afterCheck_cases cfg frame with ⟨_, h⟩ | ⟨_, h⟩ | h <;> rw [h] <;> simp [togo]

theorem togo_afterVerdict : (afterVerdict frame verdict).togo ≤ 5 := by
  rcases afterVerdict_cases frame verdict with ⟨_, h⟩ | ⟨_, h⟩ <;> rw [h] <;> simp [togo]

end Spot

namespace FrameTask

/-- What is recorded of a task that stands where it stands. -/
def Regular (t : FrameTask) : Prop :=
  match t.spot with
  | .loadActive | .loadResponse _ | .addMissed | .addSeq =>
      t.stamped = none ∧ t.seqGap = none ∧ t.received = false ∧ t.tripped = false
  | .storeTriggered | .storeClosed | .countKill =>
      t.stamped = none ∧ t.seqGap = none ∧ t.received = false ∧ t.tripped = true
  | .storeResponse _ | .clearMissed _ | .loadOpen _ | .loadExpected _ =>
      t.seqGap = none ∧ t.received = false ∧ t.tripped = false
  | .countGap _ => t.seqGap.isSome = true ∧ t.received = true ∧ t.tripped = false
  | .storeExpected _ locked | .countPassed _ locked =>
      t.seqGap.isSome = locked ∧ t.received = true ∧ t.tripped = false
  | .ended _ => True

/-- The shutdown of the task is in the statistics. -/
def countedKill (t : FrameTask) : Bool := t.tripped && t.spot.afterKill

/-- The gap that the task found is in the statistics. -/
def countedGap (t : FrameTask) : Bool := t.seqGap.isSome && t.spot.afterGap

/-- The payload of the task is in the statistics. -/
def countedPassed (t : FrameTask) : Bool := t.received && t.spot.afterPassed

variable {cfg : TrustKernelConfig} {nowNs : UInt64} {t t' : FrameTask} {k k' : SharedKernel}

theorem regular_afterCheck (cfg : TrustKernelConfig) (frame : TibetMuxFrame) :
    Regular { new frame with spot := .afterCheck cfg frame } := by
  rcases Spot.afterCheck_cases cfg frame with ⟨_, hspot⟩ | ⟨_, hspot⟩ | hspot <;> rw [hspot]
  · trivial
  · exact ⟨rfl, rfl, rfl⟩
  · exact ⟨rfl, rfl, rfl, rfl⟩

theorem regular_afterVerdict (frame : TibetMuxFrame) (verdict : VoorproeverVerdict)
    (stamped : Option UInt64) :
    Regular { new frame with spot := .afterVerdict frame verdict, stamped } := by
  rcases Spot.afterVerdict_cases frame verdict with ⟨_, hspot⟩ | ⟨_, hspot⟩ <;> rw [hspot]
  · trivial
  · exact ⟨rfl, rfl, rfl⟩

theorem Regular.step (ht : t.Regular) (h : FrameTask.step cfg nowNs t k = some (t', k')) :
    t'.Regular := by
  obtain ⟨frame, spot, seqGap, stamped, received, tripped⟩ := t
  cases spot with simp only [FrameTask.step] at h
  | addSeq =>
    cases h
    exact ht.2
  | clearMissed verdict =>
    obtain ⟨rfl, rfl, rfl⟩ := ht
    cases h
    exact regular_afterVerdict frame verdict stamped
  | loadExpected payload =>
    obtain ⟨rfl, rfl, rfl⟩ := ht
    split at h <;> cases h <;> exact ⟨rfl, rfl, rfl⟩
  | addMissed =>
    obtain ⟨rfl, rfl, rfl, rfl⟩ := ht
    split at h
    · cases h
      exact ⟨rfl, rfl, rfl, rfl⟩
    · cases h
      exact regular_afterCheck cfg frame
  | loadActive | loadResponse =>
    obtain ⟨rfl, rfl, rfl, rfl⟩ := ht
    split at h
    · cases h
      exact ⟨rfl, rfl, rfl, rfl⟩
    · cases h
      exact regular_afterCheck cfg frame
  | loadOpen payload =>
    repeat' split at h
    all_goals cases h
    · trivial
    · trivial
    · exact ht
  | countPassed payload locked =>
    split at h
    · cases h
    · cases h
      trivial
  | countKill | countGap =>
    split at h
    · cases h
    · cases h
      trivial
  | ended responses => cases h
  | _ =>
    cases h
    exact ht

/-- A task that was just spawned. -/
def Starts (t : FrameTask) : Prop := ∃ frame, t = .new frame

theorem spawns_frames (events : List FrameEvent) :
    Pool.Spawns Starts (events.map FrameEvent.toEvent) := by
  intro t ht
  obtain ⟨e, -, he⟩ := List.mem_map.mp ht
  cases e with
  | arrive frame =>
    cases he
    exact ⟨frame, rfl⟩
  | run i nowNs => cases he

theorem regular_local (cfg : TrustKernelConfig) : Local (FrameTask.step cfg) Starts Regular where
  start := by
    rintro t ⟨frame, rfl⟩
    exact ⟨rfl, rfl, rfl, rfl⟩
  step := fun _ _ _ _ _ ht h => ht.step h

/-- A step leaves the lock alone, takes it when it is free, or gives it up. -/
theorem step_lock (h : FrameTask.step cfg nowNs t k = some (t', k')) :
    (k'.statsLocked = k.statsLocked ∧ t'.spot.holdsLock = t.spot.holdsLock) ∨
    (k.statsLocked = false ∧ k'.statsLocked = true ∧ t.spot.holdsLock = false ∧
      t'.spot.holdsLock = true) ∨
    (k'.statsLocked = false ∧ t.spot.holdsLock = true ∧ t'.spot.holdsLock = false) := by
  obtain ⟨frame, spot, seqGap, stamped, received, tripped⟩ := t
  cases spot with simp only [step] at h
  | countGap payload =>
    split at h
    · cases h
    · next hfree =>
      cases h
      exact .inr (.inl ⟨Bool.eq_false_iff.mpr hfree, rfl, rfl, rfl⟩)
  | countPassed payload locked =>
    cases locked with
    | true =>
      cases h
      exact .inr (.inr ⟨rfl, rfl, rfl⟩)
    | false =>
      split at h
      · cases h
      · next hfree =>
        cases h
        exact .inl ⟨(Bool.eq_false_iff.mpr hfree).symm, rfl⟩
  | clearMissed verdict =>
    cases h
    exact .inl ⟨rfl, Spot.holdsLock_afterVerdict _ verdict⟩
  | _ =>
    left
    repeat' split at h
    all_goals cases h <;> first | exact ⟨rfl, rfl⟩ | exact ⟨rfl, Spot.holdsLock_afterCheck _ _⟩

/-- The number that a task gets is the one the counter stood at. -/
theorem step_stamped (ht : t.Regular) (h : FrameTask.step cfg nowNs t k = some (t', k')) :
    (k'.bus.seqCounter = k.bus.seqCounter ∧ t'.stamped = t.stamped) ∨
    (t.stamped = none ∧ t'.stamped = some k.bus.seqCounter ∧
      k'.bus.seqCounter = k.bus.seqCounter + 1) := by
  obtain ⟨frame, spot, seqGap, stamped, received, tripped⟩ := t
  cases spot with simp only [step] at h
  | addSeq =>
    cases h
    exact .inr ⟨ht.1, rfl, rfl⟩
  | _ =>
    left
    repeat' split at h
    all_goals cases h <;> exact ⟨rfl, rfl⟩

/-- A shutdown is counted when its task ends. -/
theorem step_kills (ht : t.Regular) (h : FrameTask.step cfg nowNs t k = some (t', k')) :
    (k'.bus.stats.watchdogKills = k.bus.stats.watchdogKills ∧ t'.countedKill = t.countedKill) ∨
    (t.countedKill = false ∧ t'.countedKill = true ∧
      k'.bus.stats.watchdogKills = k.bus.stats.watchdogKills + 1) := by
  obtain ⟨frame, spot, seqGap, stamped, received, tripped⟩ := t
  cases spot with simp only [step] at h
  | countKill =>
    obtain ⟨-, -, -, rfl⟩ := ht
    split at h
    · cases h
    · cases h
      exact .inr ⟨rfl, rfl, rfl⟩
  | ended responses => cases h
  | storeTriggered | storeClosed =>
    cases h
    exact .inl ⟨rfl, rfl⟩
  | loadActive | loadResponse | addMissed | addSeq =>
    obtain ⟨-, -, -, rfl⟩ := ht
    left
    repeat' split at h
    all_goals
      cases h
      exact ⟨rfl, rfl⟩
  | _ =>
    obtain ⟨-, -, rfl⟩ := ht
    left
    repeat' split at h
    all_goals cases h <;> exact ⟨rfl, rfl⟩

/-- A gap is counted before the number is stored. -/
theorem step_gaps (ht : t.Regular) (h : FrameTask.step cfg nowNs t k = some (t', k')) :
    (k'.bus.stats.sequenceGapsDetected = k.bus.stats.sequenceGapsDetected ∧
      t'.countedGap = t.countedGap) ∨
    (t.countedGap = false ∧ t'.countedGap = true ∧
      k'.bus.stats.sequenceGapsDetected = k.bus.stats.sequenceGapsDetected + 1) := by
  obtain ⟨frame, spot, seqGap, stamped, received, tripped⟩ := t
  cases spot with simp only [step] at h
  | countGap payload =>
    split at h
    · cases h
    · cases h
      exact .inr ⟨Bool.and_false _, (Bool.and_true _).trans ht.1, rfl⟩
  | loadExpected payload =>
    obtain ⟨rfl, -, -⟩ := ht
    left
    split at h <;> cases h <;> exact ⟨rfl, rfl⟩
  | clearMissed verdict =>
    cases h
    exact .inl ⟨rfl, congrArg (seqGap.isSome && ·) (Spot.afterGap_afterVerdict frame verdict)⟩
  | _ =>
    have hcheck := congrArg (seqGap.isSome && ·) (Spot.afterGap_afterCheck cfg frame)
    left
    repeat' split at h
    all_goals cases h <;> first | exact ⟨rfl, rfl⟩ | exact ⟨rfl, hcheck⟩

/-- A payload that was let through is counted when its task ends. -/
theorem step_passed (ht : t.Regular) (h : FrameTask.step cfg nowNs t k = some (t', k')) :
    (k'.bus.stats.payloadsPassed = k.bus.stats.payloadsPassed ∧
      t'.countedPassed = t.countedPassed) ∨
    (t.countedPassed = false ∧ t'.countedPassed = true ∧
      k'.bus.stats.payloadsPassed = k.bus.stats.payloadsPassed + 1) := by
  obtain ⟨frame, spot, seqGap, stamped, received, tripped⟩ := t
  cases spot with simp only [step] at h
  | countPassed payload locked =>
    obtain ⟨-, rfl, -⟩ := ht
    split at h
    · cases h
    · cases h
      exact .inr ⟨rfl, rfl, rfl⟩
  | countGap payload =>
    split at h
    · cases h
    · cases h
      exact .inl ⟨rfl, (Bool.and_false _).trans (Bool.and_false _).symm⟩
  | storeExpected payload locked =>
    cases h
    exact .inl ⟨rfl, (Bool.and_false _).trans (Bool.and_false _).symm⟩
  | loadExpected payload =>
    obtain ⟨-, rfl, -⟩ := ht
    left
    split at h <;> cases h <;> exact ⟨rfl, rfl⟩
  | storeResponse verdict | clearMissed verdict | loadOpen payload =>
    obtain ⟨-, rfl, -⟩ := ht
    left
    repeat' split at h
    all_goals
      cases h
      exact ⟨rfl, rfl⟩
  | ended responses => cases h
  | _ =>
    obtain ⟨-, -, rfl, -⟩ := ht
    left
    repeat' split at h
    all_goals cases h <;> exact ⟨rfl, rfl⟩

/-- A step brings its task nearer to the end. -/
theorem step_togo (h : FrameTask.step cfg nowNs t k = some (t', k')) :
    t'.spot.togo < t.spot.togo := by
  obtain ⟨frame, spot, seqGap, stamped, received, tripped⟩ := t
  cases spot with simp only [step] at h
  | clearMissed verdict =>
    cases h
    exact (Spot.togo_afterVerdict frame verdict).trans_lt (by simp [Spot.togo])
  | loadActive | loadResponse | addMissed =>
    split at h
    · cases h
      simp [Spot.togo]
    · cases h
      exact (Spot.togo_afterCheck cfg frame).trans_lt (by simp [Spot.togo])
  | _ =>
    repeat' split at h
    all_goals cases h <;> simp [Spot.togo, Spot.afterReceive]

/-- A task that has not ended can move, unless it waits for the lock. -/
theorem step_isSome (cfg : TrustKernelConfig) (nowNs : UInt64) (t : FrameTask) (k : SharedKernel)
    (hspot : ∀ responses, t.spot ≠ .ended responses)
    (hlock : k.statsLocked = true → t.spot.holdsLock = true) :
    ∃ t' k', FrameTask.step cfg nowNs t k = some (t', k') := by
  obtain ⟨frame, spot, seqGap, stamped, received, tripped⟩ := t
  cases spot with simp only [step]
  | ended responses => exact absurd rfl (hspot responses)
  | countKill | countGap =>
    cases hlocked : k.statsLocked with
    | true => cases hlock hlocked
    | false => exact ⟨_, _, rfl⟩
  | countPassed payload locked =>
    cases locked with
    | true => exact ⟨_, _, rfl⟩
    | false =>
      cases hlocked : k.statsLocked with
      | true => cases hlock hlocked
      | false => exact ⟨_, _, rfl⟩
  | _ =>
    repeat' split
    all_goals exact ⟨_, _, rfl⟩

end FrameTask

end Spaceshuttle.Kernel
