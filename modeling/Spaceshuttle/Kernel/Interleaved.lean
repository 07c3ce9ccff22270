import Spaceshuttle.Kernel.Concurrent
import Spaceshuttle.Kernel.Triggers

/-!
# What holds in every interleaving

However the tasks of the frames interleave, a frame gets the response it would get alone, unless the
watchdog has shut the bus (`concurrent_responses`). Every payload has a number of its own, the
statistics count every task once, and one task at a time is at them (`concurrent_books`). No task
can be kept from its end (`concurrent_end`).
-/

namespace Spaceshuttle.Kernel

open Threads Voorproever

/-! ## A frame alone -/

/-- The payload that a frame is stamped with. -/
def stampedPayload (cfg : TrustKernelConfig) (seq stampedAtNs : UInt64) (frame : TibetMuxFrame) :
    BusPayload :=
  ({ VirtualBus.new 0 with seqCounter := seq }.stampPayload stampedAtNs frame.intent frame.payload
    frame.fromAint (monitorOf cfg frame).observedSyscalls (computeFira cfg)).2

/-- A kernel that was just started, with the number of its next payload. -/
def startedAt (cfg : TrustKernelConfig) (seq : UInt64) : TrustKernel :=
  { boot cfg 0 with bus := { VirtualBus.new cfg.maxPayloadBytes with seqCounter := seq } }

/-- A frame that arrives at that moment. -/
def arrivalAtStart (frame : TibetMuxFrame) : Arrival := ⟨frame, 0, 0, 0⟩

/-- Such a kernel handles a frame, with no other frame around. -/
def handleAlone (cfg : TrustKernelConfig) (seq : UInt64) (frame : TibetMuxFrame) :
    TrustKernel × Handled :=
  handleFrame cfg (startedAt cfg seq) (arrivalAtStart frame)

/-- The responses to a frame whose payload was let through. -/
def archivedResponses (cfg : TrustKernelConfig) (seq : UInt64) (frame : TibetMuxFrame) :
    List MuxResponse :=
  respond frame (Archivaris.accept cfg ⟨[]⟩ (stampedPayload cfg seq 0 frame) frame none).2

section Alone

variable (cfg : TrustKernelConfig) (seq : UInt64) (frame : TibetMuxFrame)

/-- Neither the time of the stamp nor a gap in front of the payload shows in the responses. -/
theorem respond_accept_stamped (stampedAtNs : UInt64) (seqGap : Option (UInt64 × UInt64)) :
    respond frame
        (Archivaris.accept cfg ⟨[]⟩ (stampedPayload cfg seq stampedAtNs frame) frame seqGap).2 =
      archivedResponses cfg seq frame := by
  have hseal : ∀ ns, Archivaris.verifyVoorproeverSeal (stampedPayload cfg seq ns frame) = true :=
    fun _ => stampPayload_isSealed _ _ _ _ _ _ _
  unfold archivedResponses Archivaris.accept
  rw [hseal, hseal]
  have hjis : Archivaris.jisCheck (stampedPayload cfg seq stampedAtNs frame) =
      Archivaris.jisCheck (stampedPayload cfg seq 0 frame) := rfl
  rw [hjis]
  cases (if cfg.jisSigningPerAction then Archivaris.jisCheck (stampedPayload cfg seq 0 frame)
    else none) with
  | some reason => rfl
  | none => cases seqGap <;> rfl

/-- At time zero no answer is overdue. -/
theorem check_zero (w : Watchdog) {nowNs : UInt64} (h : nowNs = 0) :
    (w.check nowNs).2.isTriggered = false := by
  subst h
  refine (check_quiet ?_).2
  have hearly : ¬ w.lastResponseNs.toNat + w.timeoutMs.toNat * 1000000 < UInt64.toNat 0 := by
    rw [UInt64.toNat_zero]
    exact Nat.not_lt_zero _
  rw [overTimeout_eq, decide_eq_false hearly, Bool.and_false]

/-- Without a trigger the responses are those to the verdict of Kernel A. -/
theorem handleFrame_quiet {cfg : TrustKernelConfig} {k : TrustKernel} {a : Arrival}
    (h : (k.watchdog.check a.checkedAtNs).2.isTriggered = false) :
    let out := evaluate cfg k.bus (k.watchdog.check a.checkedAtNs).1 a.stampedAtNs a.respondedAtNs
      a.frame
    (handleFrame cfg k a).2.responses = (afterVerdict cfg out.1 a.frame out.2.2).2 := by
  unfold handleFrame
  simp only [h, Bool.false_eq_true, if_false]

theorem handleAlone_eq :
    (handleAlone cfg seq frame).2.responses =
      let k := startedAt cfg seq
      let a := arrivalAtStart frame
      let out := evaluate cfg k.bus (k.watchdog.check a.checkedAtNs).1 a.stampedAtNs a.respondedAtNs
        a.frame
      (afterVerdict cfg out.1 a.frame out.2.2).2 := by
  have hzero : (arrivalAtStart frame).checkedAtNs = 0 := rfl
  rw [handleAlone]
  exact handleFrame_quiet (check_zero (startedAt cfg seq).watchdog hzero)

variable {cfg frame}

theorem handleAlone_unknown (h : isKnownIntent frame.intent = false) :
    (handleAlone cfg seq frame).2.responses = [sendResponse frame (.generateRejected frame) 400] := by
  rw [handleAlone_eq]
  simp only [arrivalAtStart, evaluate, h, Bool.not_false, if_true, afterVerdict]

theorem handleAlone_violations (h : isKnownIntent frame.intent = true)
    (hdirty : (monitorOf cfg frame).violations.isEmpty = false) :
    (handleAlone cfg seq frame).2.responses =
      [sendResponse frame (.generateIncident frame (monitorOf cfg frame).violations) 403] := by
  rw [handleAlone_eq]
  simp only [arrivalAtStart, evaluate, h, hdirty, Bool.not_true, Bool.not_false,
    Bool.false_eq_true, if_false, if_true, afterVerdict]

theorem handleAlone_passes (h : Passes cfg frame) :
    (handleAlone cfg seq frame).2.responses =
      if frame.payload.utf8ByteSize > cfg.maxPayloadBytes then
        [sendResponse frame (.generateRejected frame) 403]
      else archivedResponses cfg seq frame := by
  rw [handleAlone_eq]
  simp only [arrivalAtStart, evaluate_pass h, afterVerdict, Archivaris.process, VirtualBus.receive,
    VirtualBus.stampPayload, startedAt, VirtualBus.new, Bool.not_true, Bool.false_eq_true, if_false]
  by_cases hlarge : frame.payload.utf8ByteSize > cfg.maxPayloadBytes
  · simp only [if_pos hlarge, respond]
  · simp only [if_neg hlarge]
    by_cases hseq : seq ≠ 0
    · simp only [if_pos hseq]
      exact respond_accept_stamped cfg seq frame 0 _
    · simp only [if_neg hseq]
      rfl

end Alone

/-! ## One response for every frame -/

/-- The payload is the frame, stamped with the number. -/
structure Stamped (cfg : TrustKernelConfig) (frame : TibetMuxFrame) (number : Option UInt64)
    (payload : BusPayload) : Prop where
  passes : Passes cfg frame
  payload : ∃ stampedAtNs, payload = stampedPayload cfg (number.getD 0) stampedAtNs frame

/-- The verdict is the one that Kernel A gives on the frame. -/
def Judged (cfg : TrustKernelConfig) (frame : TibetMuxFrame) (number : Option UInt64)
    (verdict : VoorproeverVerdict) : Prop :=
  Spot.afterCheck cfg frame = .storeResponse verdict ∨
    ∃ payload checked, verdict = .pass payload checked ∧ Stamped cfg frame number payload

/-- The responses are those that the frame would get alone, or the watchdog has shut the bus. -/
def Answered (cfg : TrustKernelConfig) (k : SharedKernel) (frame : TibetMuxFrame)
    (number : Option UInt64) (responses : List MuxResponse) : Prop :=
  responses = (handleAlone cfg (number.getD 0) frame).2.responses ∨
    responses = [sendResponse frame (.generateRejected frame) 503] ∧ k.watchdog.triggered = true

/-- The place where a task stands says how far its frame has come. -/
def OnCourse (cfg : TrustKernelConfig) (k : SharedKernel) (t : FrameTask) : Prop :=
  match t.spot with
  | .loadActive | .loadResponse _ | .addMissed | .storeTriggered => True
  | .storeClosed | .countKill => k.watchdog.triggered = true
  | .addSeq => Passes cfg t.frame
  | .storeResponse verdict | .clearMissed verdict => Judged cfg t.frame t.stamped verdict
  | .loadOpen payload => Stamped cfg t.frame t.stamped payload
  | .loadExpected payload | .countGap payload | .storeExpected payload _ | .countPassed payload _ =>
      Stamped cfg t.frame t.stamped payload ∧
        t.frame.payload.utf8ByteSize ≤ cfg.maxPayloadBytes
  | .ended responses => Answered cfg k t.frame t.stamped responses

/-- The bus is closed by the watchdog only, and its limit is the configured one. -/
structure Guarded (cfg : TrustKernelConfig) (k : SharedKernel) : Prop where
  limit : k.bus.maxPayloadBytes = cfg.maxPayloadBytes
  closed : k.bus.isOpen = false → k.watchdog.triggered = true

section Steps

variable {cfg : TrustKernelConfig} {nowNs : UInt64} {t t' u : FrameTask} {k k' : SharedKernel}
  {frame : TibetMuxFrame} {number : Option UInt64}

/-- What a check that did not trigger leads to is right for the frame. -/
theorem onCourse_afterCheck (cfg : TrustKernelConfig) (k : SharedKernel) (t : FrameTask) :
    OnCourse cfg k { t with spot := .afterCheck cfg t.frame } := by
  cases hknown : isKnownIntent t.frame.intent with
  | false =>
    have hspot : Spot.afterCheck cfg t.frame =
        .ended [sendResponse t.frame (.generateRejected t.frame) 400] := by
      simp only [Spot.afterCheck, hknown, Bool.not_false, if_true]
    rw [hspot]
    exact .inl (handleAlone_unknown _ hknown).symm
  | true =>
    cases hclean : (monitorOf cfg t.frame).violations.isEmpty with
    | false =>
      obtain ⟨verdict, hspot⟩ : ∃ verdict, Spot.afterCheck cfg t.frame = .storeResponse verdict := by
        simp only [Spot.afterCheck, hknown, hclean, Bool.not_true, Bool.not_false,
          Bool.false_eq_true, if_false, if_true]
        exact ⟨_, rfl⟩
      rw [hspot]
      exact .inl hspot
    | true =>
      have hspot : Spot.afterCheck cfg t.frame = .addSeq := by
        simp only [Spot.afterCheck, hknown, hclean, Bool.not_true, Bool.false_eq_true, if_false]
      rw [hspot]
      exact ⟨hknown, List.isEmpty_iff.mp hclean⟩

/-- A verdict that goes with the check is to kill. -/
theorem afterCheck_storeResponse {verdict : VoorproeverVerdict}
    (h : Spot.afterCheck cfg frame = .storeResponse verdict) :
    isKnownIntent frame.intent = true ∧ (monitorOf cfg frame).violations.isEmpty = false ∧
      ∃ reason observed, verdict = .kill reason (monitorOf cfg frame).violations observed := by
  unfold Spot.afterCheck at h
  cases hknown : isKnownIntent frame.intent with
  | false =>
    rw [hknown] at h
    cases h
  | true =>
    cases hclean : (monitorOf cfg frame).violations.isEmpty with
    | false =>
      simp only [hknown, hclean, Bool.not_true, Bool.not_false, Bool.false_eq_true, if_false,
        if_true] at h
      cases h
      exact ⟨rfl, rfl, _, _, rfl⟩
    | true =>
      simp only [hknown, hclean, Bool.not_true, Bool.false_eq_true, if_false] at h
      cases h

theorem Judged.onCourse {verdict : VoorproeverVerdict} (h : Judged cfg t.frame t.stamped verdict) :
    OnCourse cfg k { t with spot := .afterVerdict t.frame verdict } := by
  rcases h with h | ⟨payload, checked, rfl, hstamped⟩
  · obtain ⟨hknown, hdirty, reason, observed, rfl⟩ := afterCheck_storeResponse h
    exact .inl (handleAlone_violations _ hknown hdirty).symm
  · exact hstamped

theorem Stamped.size {payload : BusPayload} (h : Stamped cfg frame number payload) :
    payload.payload.utf8ByteSize = frame.payload.utf8ByteSize := by
  obtain ⟨-, stampedAtNs, rfl⟩ := h
  rfl

theorem Stamped.answered_large {payload : BusPayload} (h : Stamped cfg frame number payload)
    (hlarge : frame.payload.utf8ByteSize > cfg.maxPayloadBytes) :
    Answered cfg k frame number [sendResponse frame (.generateRejected frame) 403] := by
  left
  rw [handleAlone_passes _ h.passes, if_pos hlarge]

theorem Stamped.answered_received {payload : BusPayload} (h : Stamped cfg frame number payload)
    (hsmall : frame.payload.utf8ByteSize ≤ cfg.maxPayloadBytes)
    (seqGap : Option (UInt64 × UInt64)) :
    Answered cfg k frame number
      (respond frame (Archivaris.accept cfg ⟨[]⟩ payload frame seqGap).2) := by
  obtain ⟨hpasses, stampedAtNs, rfl⟩ := h
  left
  rw [handleAlone_passes _ hpasses, if_neg (Nat.not_lt.mpr hsmall), respond_accept_stamped]

/-- The watchdog stays triggered. -/
theorem step_triggered (h : FrameTask.step cfg nowNs t k = some (t', k'))
    (htriggered : k.watchdog.triggered = true) : k'.watchdog.triggered = true := by
  obtain ⟨frame, spot, seqGap, stamped, received, tripped⟩ := t
  cases spot with simp only [FrameTask.step] at h
  | storeTriggered =>
    cases h
    rfl
  | _ =>
    repeat' split at h
    all_goals cases h <;> exact htriggered

theorem Guarded.step (hk : Guarded cfg k) (ht : OnCourse cfg k t)
    (h : FrameTask.step cfg nowNs t k = some (t', k')) : Guarded cfg k' := by
  have hstays := step_triggered h
  obtain ⟨hlimit, hclosed⟩ := hk
  obtain ⟨frame, spot, seqGap, stamped, received, tripped⟩ := t
  cases spot with simp only [FrameTask.step] at h
  | storeClosed =>
    cases h
    exact ⟨hlimit, fun _ => ht⟩
  | _ =>
    repeat' split at h
    all_goals cases h <;> exact ⟨hlimit, fun hopen => hstays (hclosed hopen)⟩

/-- A task is right about another's step, of which it sees the watchdog at most. -/
theorem OnCourse.other (hu : OnCourse cfg k u) (h : FrameTask.step cfg nowNs t k = some (t', k')) :
    OnCourse cfg k' u := by
  have hstays := step_triggered h
  obtain ⟨frame, spot, seqGap, stamped, received, tripped⟩ := u
  cases spot with
  | storeClosed | countKill => exact hstays hu
  | ended responses => exact hu.imp id (And.imp_right hstays)
  | _ => exact hu

theorem OnCourse.step (hk : Guarded cfg k) (ht : OnCourse cfg k t)
    (h : FrameTask.step cfg nowNs t k = some (t', k')) : OnCourse cfg k' t' := by
  obtain ⟨frame, spot, seqGap, stamped, received, tripped⟩ := t
  cases spot with simp only [FrameTask.step] at h
  | loadActive | loadResponse | addMissed =>
    split at h
    · cases h
      trivial
    · cases h
      exact onCourse_afterCheck cfg _ ⟨frame, .loadActive, seqGap, stamped, received, tripped⟩
  | storeTriggered =>
    cases h
    exact (rfl : true = true)
  | storeClosed =>
    cases h
    exact ht
  | countKill =>
    split at h
    · cases h
    · cases h
      exact .inr ⟨rfl, ht⟩
  | addSeq =>
    cases h
    exact .inr ⟨_, _, rfl, ht, nowNs, rfl⟩
  | storeResponse verdict =>
    cases h
    exact ht
  | clearMissed verdict =>
    cases h
    exact @Judged.onCourse cfg ⟨frame, .loadActive, seqGap, stamped, received, tripped⟩ _ _ ht
  | loadOpen payload =>
    have hsize := Stamped.size ht
    cases hopen : k.bus.isOpen with
    | false =>
      rw [hopen] at h
      cases h
      exact .inr ⟨rfl, hk.closed hopen⟩
    | true =>
      simp only [hopen, Bool.not_true, Bool.false_eq_true, if_false, hk.limit, hsize] at h
      split at h
      · next hlarge =>
        cases h
        exact Stamped.answered_large ht hlarge
      · next hsmall =>
        cases h
        exact ⟨ht, Nat.not_lt.mp hsmall⟩
  | loadExpected payload => split at h <;> cases h <;> exact ht
  | countGap payload =>
    split at h
    · cases h
    · cases h
      exact ht
  | storeExpected payload locked =>
    cases h
    exact ht
  | countPassed payload locked =>
    obtain ⟨hstamped, hsmall⟩ := ht
    split at h
    · cases h
    · cases h
      exact hstamped.answered_received hsmall seqGap
  | ended responses => cases h

end Steps

theorem onCourse_stable (cfg : TrustKernelConfig) :
    Stable (FrameTask.step cfg) FrameTask.Starts (Guarded cfg) (OnCourse cfg) where
  start := by
    rintro k t - ⟨frame, rfl⟩
    trivial
  shared := fun _ _ _ _ _ hk ht h => hk.step ht h
  own := fun _ _ _ _ _ hk ht h => ht.step hk h
  other := fun _ _ _ _ _ _ _ _ h hu => hu.other h

/-- What a task has sent when it has ended. -/
theorem ended_answered (cfg : TrustKernelConfig) (bootNs : UInt64)
    {events : List FrameEvent} {t : FrameTask}
    (ht : t ∈ (concurrent cfg bootNs events).threads)
    {responses : List MuxResponse} (hended : t.spot = .ended responses) :
    Answered cfg (concurrent cfg bootNs events).shared t.frame t.stamped responses := by
  have hstart : Guarded cfg ⟨boot cfg bootNs, false⟩ := ⟨rfl, fun hopen => (nomatch hopen)⟩
  have honCourse := ((onCourse_stable cfg).after hstart (FrameTask.spawns_frames events)).2 t ht
  unfold OnCourse at honCourse
  rw [hended] at honCourse
  exact honCourse

theorem Answered.single {cfg : TrustKernelConfig} {k : SharedKernel} {frame : TibetMuxFrame}
    {number : Option UInt64} {responses : List MuxResponse}
    (h : Answered cfg k frame number responses) : ∃ r, responses = [r] := by
  rcases h with rfl | ⟨rfl, -⟩
  · obtain ⟨r, hr, -⟩ := handleFrame_responds cfg (startedAt cfg (number.getD 0))
      (arrivalAtStart frame)
    exact ⟨r, hr⟩
  · exact ⟨_, rfl⟩

/-- However the tasks interleave, a frame that is answered gets one response. It is the one it would
get from a kernel of its own that gives its payload the same number, or the watchdog has triggered
and it is the 503 of a bus that is shut. -/
theorem concurrent_responses (cfg : TrustKernelConfig) (bootNs : UInt64)
    {events : List FrameEvent} {t : FrameTask}
    (ht : t ∈ (concurrent cfg bootNs events).threads)
    {responses : List MuxResponse} (hended : t.spot = .ended responses) :
    (∃ r, responses = [r]) ∧
      Answered cfg (concurrent cfg bootNs events).shared t.frame t.stamped responses := by
  have hanswered := ended_answered cfg bootNs ht hended
  exact ⟨hanswered.single, hanswered⟩

namespace Overtaking

/-- A frame of a mux client. -/
def hello (channelId : UInt32) : TibetMuxFrame := ⟨channelId, "mux:native", "root_idd.aint", "hello"⟩

/-- Two frames. The second is stamped after the first and received before it. -/
def overtaking : List FrameEvent :=
  [.arrive (hello 1), .arrive (hello 2), .run 0 10, .run 0 11, .run 0 12, .run 1 13, .run 1 14,
    .run 1 15, .run 1 16, .run 1 17, .run 1 18, .run 1 19, .run 1 20, .run 1 21, .run 1 22,
    .run 0 23, .run 0 24, .run 0 25, .run 0 26, .run 0 27, .run 0 28, .run 0 29]

theorem overtaking_ended :
    (concurrent .fast 0 overtaking).threads.all (fun t => t.spot.isEnded) = true := by
  decide

theorem overtaking_gap :
    (concurrent .fast 0 overtaking).threads.any (fun t => t.seqGap.isSome) = true := by
  decide

end Overtaking

section

open Overtaking

theorem concurrent_responses_overtaking :
    ∃ t ∈ (concurrent .fast 0 overtaking).threads, t.seqGap.isSome = true ∧
      ∃ r, t.spot = .ended [r] ∧
        Answered .fast (concurrent .fast 0 overtaking).shared t.frame t.stamped [r] := by
  obtain ⟨t, ht, hgap⟩ := List.any_eq_true.mp overtaking_gap
  obtain ⟨responses, hspot⟩ := Spot.isEnded_iff.mp (List.all_eq_true.mp overtaking_ended t ht)
  obtain ⟨⟨r, rfl⟩, hanswered⟩ := concurrent_responses .fast 0 ht hspot
  exact ⟨t, ht, hgap, r, hspot, hanswered⟩

end

/-! ## The books -/

/-- The lock is held by one task at a time, the payloads have the numbers from zero on, each one
once, and the statistics have every task that has come past its place in them. -/
structure Books (p : Pool SharedKernel FrameTask) : Prop where
  lock : p.threads.countP (fun t => t.spot.holdsLock) = p.shared.statsLocked.toNat
  numbers : ∃ n, p.shared.bus.seqCounter = UInt64.ofNat n ∧
    (p.threads.filterMap FrameTask.stamped).Perm ((List.range n).map UInt64.ofNat)
  kills : p.shared.bus.stats.watchdogKills = UInt64.ofNat (p.threads.countP FrameTask.countedKill)
  gaps : p.shared.bus.stats.sequenceGapsDetected =
    UInt64.ofNat (p.threads.countP FrameTask.countedGap)
  passed : p.shared.bus.stats.payloadsPassed =
    UInt64.ofNat (p.threads.countP FrameTask.countedPassed)

theorem ofNat_succ {a b : UInt64} (h : b = a + 1) (n : Nat) (ha : a = UInt64.ofNat n) :
    b = UInt64.ofNat (n + 1) := by
  rw [h, ha, UInt64.ofNat_add]
  rfl

/-- In every interleaving the books are right. -/
theorem concurrent_keeps_books (cfg : TrustKernelConfig) (bootNs : UInt64)
    (events : List FrameEvent) :
    Books (concurrent cfg bootNs events) where
  lock := by
    refine Pool.after_lock ?_ (fun _ _ _ _ _ h => FrameTask.step_lock h) rfl
      (FrameTask.spawns_frames events)
    rintro t ⟨frame, rfl⟩
    rfl
  numbers := by
    refine Pool.after_tickets (fun k => k.bus.seqCounter) FrameTask.stamped UInt64.ofNat
      (FrameTask.regular_local cfg) ?_ ?_ ?_ (FrameTask.spawns_frames events)
    · rintro t ⟨frame, rfl⟩
      rfl
    · intro k nowNs t t' k' ht h
      exact (FrameTask.step_stamped ht h).imp_right
        fun ⟨hnone, hsome, hnext⟩ => ⟨hnone, hsome, ofNat_succ hnext⟩
    · rfl
  kills := by
    refine Pool.after_count (fun k => k.bus.stats.watchdogKills) UInt64.ofNat FrameTask.countedKill
      (FrameTask.regular_local cfg) ?_ ?_ ?_ (FrameTask.spawns_frames events)
    · rintro t ⟨frame, rfl⟩
      rfl
    · intro k nowNs t t' k' ht h
      exact (FrameTask.step_kills ht h).imp_right
        fun ⟨hbefore, hafter, hnext⟩ => ⟨hbefore, hafter, ofNat_succ hnext⟩
    · rfl
  gaps := by
    refine Pool.after_count (fun k => k.bus.stats.sequenceGapsDetected) UInt64.ofNat FrameTask.countedGap
      (FrameTask.regular_local cfg) ?_ ?_ ?_ (FrameTask.spawns_frames events)
    · rintro t ⟨frame, rfl⟩
      rfl
    · intro k nowNs t t' k' ht h
      exact (FrameTask.step_gaps ht h).imp_right
        fun ⟨hbefore, hafter, hnext⟩ => ⟨hbefore, hafter, ofNat_succ hnext⟩
    · rfl
  passed := by
    refine Pool.after_count (fun k => k.bus.stats.payloadsPassed) UInt64.ofNat FrameTask.countedPassed
      (FrameTask.regular_local cfg) ?_ ?_ ?_ (FrameTask.spawns_frames events)
    · rintro t ⟨frame, rfl⟩
      rfl
    · intro k nowNs t t' k' ht h
      exact (FrameTask.step_passed ht h).imp_right
        fun ⟨hbefore, hafter, hnext⟩ => ⟨hbefore, hafter, ofNat_succ hnext⟩
    · rfl

/-- In every interleaving the lock admits one task at a time, the payloads have the numbers from zero
on, each one once, and the statistics are right at every moment. When all tasks have ended they are
the numbers of payloads that were let through, of gaps that were found and of checks at which the
watchdog triggered. -/
theorem concurrent_books (cfg : TrustKernelConfig) (bootNs : UInt64)
    (events : List FrameEvent) :
    let p := concurrent cfg bootNs events
    Books p ∧ ((∀ t ∈ p.threads, t.spot.isEnded = true) →
      p.shared.bus.stats.payloadsPassed = UInt64.ofNat (p.threads.countP FrameTask.received) ∧
      p.shared.bus.stats.sequenceGapsDetected =
        UInt64.ofNat (p.threads.countP fun t => t.seqGap.isSome) ∧
      p.shared.bus.stats.watchdogKills = UInt64.ofNat (p.threads.countP FrameTask.tripped)) := by
  intro p
  have hbooks : Books p := concurrent_keeps_books cfg bootNs events
  refine ⟨hbooks, fun hended => ?_⟩
  rw [hbooks.passed, hbooks.gaps, hbooks.kills]
  refine ⟨congrArg _ (List.countP_congr ?_), congrArg _ (List.countP_congr ?_),
    congrArg _ (List.countP_congr ?_)⟩
  all_goals
    intro t ht
    obtain ⟨responses, hspot⟩ := Spot.isEnded_iff.mp (hended t ht)
  · simp [FrameTask.countedPassed, hspot, Spot.afterPassed]
  · simp [FrameTask.countedGap, hspot, Spot.afterGap]
  · simp [FrameTask.countedKill, hspot, Spot.afterKill]

/-! ## The end -/

/-- Some task can move as long as not all have ended. -/
theorem exists_move (cfg : TrustKernelConfig) {p : Pool SharedKernel FrameTask} (hp : Books p)
    (h : ∃ t ∈ p.threads, ¬ t.spot.isEnded = true) :
    ∃ (i : Nat) (t : FrameTask) (nowNs : UInt64) (t' : FrameTask) (k' : SharedKernel),
      p.threads[i]? = some t ∧
        FrameTask.step cfg nowNs t p.shared = some (t', k') := by
  refine Pool.exists_move hp.lock ?_ ?_ h
  · intro t hholds hended
    obtain ⟨responses, hspot⟩ := Spot.isEnded_iff.mp hended
    rw [hspot] at hholds
    cases hholds
  · intro t hnot hlock
    refine ⟨0, FrameTask.step_isSome cfg 0 t p.shared (fun responses hspot => hnot ?_) hlock⟩
    exact Spot.isEnded_iff.mpr ⟨responses, hspot⟩

/-- From every point of a run the tasks can go on until each of them has ended with a response: none
waits for another for ever. -/
theorem concurrent_end (cfg : TrustKernelConfig) (bootNs : UInt64)
    (events : List FrameEvent) :
    ∃ moves : List (Nat × UInt64),
      ∀ t ∈ (concurrent cfg bootNs (events ++ moves.map fun m => .run m.1 m.2)).threads,
        ∃ r, t.spot = .ended [r] := by
  have hend := @Pool.can_end _ _ _ (FrameTask.step cfg)
    (fun p => ∃ events, p = concurrent cfg bootNs events) (fun t => t.spot.isEnded = true)
    (fun t => t.spot.togo) ?_ ?_ ?_ _ ⟨events, rfl⟩
  · obtain ⟨moves, hmoves⟩ := hend
    have hrun : concurrent cfg bootNs (events ++ moves.map fun m => .run m.1 m.2) =
        (concurrent cfg bootNs events).after (FrameTask.step cfg)
          (moves.map fun m => .run m.1 m.2) := by
      rw [concurrent, List.map_append, Pool.after_append, List.map_map]
      rfl
    refine ⟨moves, fun t ht => ?_⟩
    obtain ⟨responses, hended⟩ := Spot.isEnded_iff.mp (hmoves t (hrun ▸ ht))
    obtain ⟨r, rfl⟩ := (ended_answered cfg bootNs ht hended).single
    exact ⟨r, hended⟩
  · rintro p i nowNs ⟨before, rfl⟩
    refine ⟨before ++ [.run i nowNs], ?_⟩
    rw [concurrent, concurrent, List.map_append]
    exact (Pool.after_concat _ _ _).symm
  · rintro p ⟨before, rfl⟩ hnot
    exact exists_move cfg (concurrent_keeps_books cfg bootNs before) hnot
  · exact fun _ _ _ _ _ h => FrameTask.step_togo h

end Spaceshuttle.Kernel
