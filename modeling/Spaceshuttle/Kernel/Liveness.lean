import Mathlib.Data.List.DropRight
import Spaceshuttle.Kernel.Handler

/-!
# When the watchdog triggers

The watchdog is checked when a frame arrives and reset when Kernel A answers PASS or KILL. A
rejected frame is checked but does not reset it. The misses it counts are therefore the checks
since the last answer that came too late, and it triggers when these reach the configured number.
-/

namespace Spaceshuttle.Kernel

/-- Kernel A rejects the frame. -/
def rejects (a : Arrival) : Bool := !Voorproever.isKnownIntent a.frame.intent

/-- When Kernel A last answered PASS or KILL, or the initial heartbeat. -/
def lastResponse (bootNs : UInt64) (arrivals : List Arrival) : UInt64 :=
  ((arrivals.filter (fun a => !rejects a)).getLast?.map Arrival.respondedAtNs).getD bootNs

/-- The frames since Kernel A last answered PASS or KILL. -/
def sinceResponse (arrivals : List Arrival) : List Arrival := arrivals.rtakeWhile rejects

/-- The check of the frame came too late after the given response. -/
def overdue (cfg : TrustKernelConfig) (lastNs : UInt64) (a : Arrival) : Bool :=
  Watchdog.overTimeout cfg.timeoutMs a.checkedAtNs lastNs

/-- The late checks since the last answer before frame `a`, the check of `a` included. -/
def overdueChecks (cfg : TrustKernelConfig) (bootNs : UInt64) (pre : List Arrival) (a : Arrival) :
    Nat :=
  (sinceResponse pre ++ [a]).countP (overdue cfg (lastResponse bootNs pre))

section Frames

variable {pre : List Arrival} {a : Arrival} {bootNs : UInt64}

theorem sinceResponse_reject (ha : rejects a = true) :
    sinceResponse (pre ++ [a]) = sinceResponse pre ++ [a] :=
  List.rtakeWhile_concat_pos _ _ _ ha

theorem sinceResponse_answer (ha : rejects a = false) : sinceResponse (pre ++ [a]) = [] :=
  List.rtakeWhile_concat_neg _ _ _ (by simp [ha])

theorem lastResponse_reject (ha : rejects a = true) :
    lastResponse bootNs (pre ++ [a]) = lastResponse bootNs pre := by
  unfold lastResponse
  rw [List.filter_append, List.filter_cons_of_neg (by simp [ha]), List.filter_nil, List.append_nil]

theorem lastResponse_answer (ha : rejects a = false) :
    lastResponse bootNs (pre ++ [a]) = a.respondedAtNs := by
  unfold lastResponse
  rw [List.filter_append, List.filter_cons_of_pos (by simp [ha]), List.filter_nil,
    List.getLast?_concat]
  rfl

end Frames

/-! ## One frame -/

/-- The watchdog and the bus after frames at which it did not trigger. -/
structure Tracks (cfg : TrustKernelConfig) (bootNs : UInt64) (pre : List Arrival)
    (k : TrustKernel) : Prop where
  last : k.watchdog.lastResponseNs = lastResponse bootNs pre
  missed : k.watchdog.missedCount.toNat =
    (sinceResponse pre).countP (overdue cfg (lastResponse bootNs pre))
  below : (sinceResponse pre).countP (overdue cfg (lastResponse bootNs pre)) <
    cfg.maxMissedHeartbeats.toNat
  timeout : k.watchdog.timeoutMs = cfg.timeoutMs
  max : k.watchdog.maxMissed = cfg.maxMissedHeartbeats
  active : k.watchdog.active = true
  isOpen : k.bus.isOpen = true
  kills : k.bus.stats.watchdogKills = 0

section Step

variable {cfg : TrustKernelConfig} {bootNs : UInt64} {pre : List Arrival} {k : TrustKernel}

theorem overdueChecks_eq (a : Arrival) : overdueChecks cfg bootNs pre a =
    (sinceResponse pre).countP (overdue cfg (lastResponse bootNs pre)) +
      if overdue cfg (lastResponse bootNs pre) a then 1 else 0 := by
  unfold overdueChecks
  rw [List.countP_append, List.countP_singleton]

/-- The narrowed counter does not wrap below the limit. -/
theorem missed_toNat (h : Tracks cfg bootNs pre k) :
    (k.watchdog.missedCount.toUInt32 + 1).toNat =
      (sinceResponse pre).countP (overdue cfg (lastResponse bootNs pre)) + 1 := by
  have hbelow := h.below
  have hlt := cfg.maxMissedHeartbeats.toNat_lt
  rw [UInt32.toNat_add, UInt64.toNat_toUInt32, h.missed]
  simp only [UInt32.reduceToNat]
  omega

theorem check_triggered_iff (h : Tracks cfg bootNs pre k) (a : Arrival) :
    (k.watchdog.check a.checkedAtNs).2.isTriggered = true ↔
      cfg.maxMissedHeartbeats.toNat ≤ overdueChecks cfg bootNs pre a := by
  have hover : Watchdog.overTimeout k.watchdog.timeoutMs a.checkedAtNs k.watchdog.lastResponseNs =
      overdue cfg (lastResponse bootNs pre) a := by
    rw [h.timeout, h.last]
    rfl
  have hbelow := h.below
  rw [overdueChecks_eq]
  unfold Watchdog.check
  simp only [h.active, Bool.not_true, Bool.false_eq_true, if_false, hover]
  by_cases hlate : overdue cfg (lastResponse bootNs pre) a = true
  · have hreached : k.watchdog.missedCount.toUInt32 + 1 ≥ k.watchdog.maxMissed ↔
        cfg.maxMissedHeartbeats.toNat ≤
          (sinceResponse pre).countP (overdue cfg (lastResponse bootNs pre)) + 1 := by
      rw [ge_iff_le, UInt32.le_iff_toNat_le, missed_toNat h, h.max]
    simp only [hlate, if_true]
    by_cases hmax : k.watchdog.missedCount.toUInt32 + 1 ≥ k.watchdog.maxMissed
    · rw [if_pos hmax]
      exact iff_of_true rfl (hreached.mp hmax)
    · rw [if_neg hmax]
      exact iff_of_false Bool.false_ne_true (mt hreached.mpr hmax)
  · rw [if_neg hlate, if_neg hlate]
    exact iff_of_false Bool.false_ne_true (by omega)

/-- The watchdog after a check that did not trigger: only the counter has moved. -/
theorem check_watchdog (h : Tracks cfg bootNs pre k) {a : Arrival}
    (hquiet : overdueChecks cfg bootNs pre a < cfg.maxMissedHeartbeats.toNat) :
    let w := (k.watchdog.check a.checkedAtNs).1
    w.lastResponseNs = k.watchdog.lastResponseNs ∧ w.timeoutMs = k.watchdog.timeoutMs ∧
      w.maxMissed = k.watchdog.maxMissed ∧ w.active = k.watchdog.active ∧
      w.missedCount.toNat = overdueChecks cfg bootNs pre a := by
  have hover : Watchdog.overTimeout k.watchdog.timeoutMs a.checkedAtNs k.watchdog.lastResponseNs =
      overdue cfg (lastResponse bootNs pre) a := by
    rw [h.timeout, h.last]
    rfl
  have hlt := cfg.maxMissedHeartbeats.toNat_lt
  have hmissed := h.missed
  rw [overdueChecks_eq] at hquiet ⊢
  unfold Watchdog.check
  simp only [h.active, Bool.not_true, Bool.false_eq_true, if_false, hover]
  by_cases hlate : overdue cfg (lastResponse bootNs pre) a = true
  · simp only [hlate, if_true] at hquiet ⊢
    have hcount : (k.watchdog.missedCount + 1).toNat =
        (sinceResponse pre).countP (overdue cfg (lastResponse bootNs pre)) + 1 := by
      rw [UInt64.toNat_add, hmissed]
      simp only [UInt64.reduceToNat]
      omega
    split <;> exact ⟨rfl, rfl, rfl, rfl, hcount⟩
  · rw [if_neg hlate, if_neg hlate]
    exact ⟨rfl, rfl, rfl, h.active, hmissed⟩

/-- Kernel A answers PASS or KILL, and resets the watchdog, exactly if it does not reject. -/
theorem evaluate_watchdog (cfg : TrustKernelConfig) (bus : VirtualBus) (w : Watchdog) (a : Arrival) :
    let result := Voorproever.evaluate cfg bus w a.stampedAtNs a.respondedAtNs a.frame
    result.2.2.isReject = rejects a ∧
      result.2.1 = if rejects a then w else w.kernelAResponded a.respondedAtNs := by
  unfold Voorproever.evaluate rejects
  cases Voorproever.isKnownIntent a.frame.intent with
  | false => exact ⟨rfl, rfl⟩
  | true =>
    simp only [Bool.not_true, Bool.false_eq_true, if_false]
    split <;> simp [VoorproeverVerdict.isReject]

theorem evaluate_settings (cfg : TrustKernelConfig) (bus : VirtualBus) (w : Watchdog) (a : Arrival) :
    let w' := (Voorproever.evaluate cfg bus w a.stampedAtNs a.respondedAtNs a.frame).2.1
    w'.timeoutMs = w.timeoutMs ∧ w'.maxMissed = w.maxMissed ∧ w'.active = w.active := by
  rw [(evaluate_watchdog cfg bus w a).2]
  split <;> exact ⟨rfl, rfl, rfl⟩

/-- The bus is as open as before. -/
structure SameOpen (bus bus' : VirtualBus) : Prop where
  isOpen : bus'.isOpen = bus.isOpen
  kills : bus'.stats.watchdogKills = bus.stats.watchdogKills

theorem receive_sameOpen (bus : VirtualBus) (payload : BusPayload) :
    SameOpen bus (bus.receive payload).1 := by
  unfold VirtualBus.receive
  split
  · exact ⟨rfl, rfl⟩
  · simp only
    split
    · exact ⟨rfl, rfl⟩
    · split <;> exact ⟨rfl, rfl⟩

theorem process_bus (archivaris : Archivaris) (bus : VirtualBus) (payload : BusPayload)
    (frame : TibetMuxFrame) :
    (Archivaris.process cfg archivaris bus payload frame).2.1 = (bus.receive payload).1 := by
  unfold Archivaris.process
  rcases bus.receive payload with ⟨bus', p | _ | ⟨size, max⟩ | ⟨expected, received, gapSize⟩⟩ <;> rfl

theorem evaluate_sameOpen (cfg : TrustKernelConfig) (bus : VirtualBus) (w : Watchdog) (a : Arrival) :
    SameOpen bus (Voorproever.evaluate cfg bus w a.stampedAtNs a.respondedAtNs a.frame).1 := by
  unfold Voorproever.evaluate
  split
  · exact ⟨rfl, rfl⟩
  · simp only
    split <;> exact ⟨rfl, rfl⟩

theorem afterVerdict_sameOpen (cfg : TrustKernelConfig) (bus : VirtualBus) (frame : TibetMuxFrame)
    (verdict : VoorproeverVerdict) : SameOpen bus (afterVerdict cfg bus frame verdict).1 := by
  cases verdict with
  | reject reason => exact ⟨rfl, rfl⟩
  | kill reason violations observed => exact ⟨rfl, rfl⟩
  | pass busPayload count =>
    simp only [afterVerdict, process_bus]
    exact receive_sameOpen bus busPayload

theorem handleFrame_event (k : TrustKernel) (a : Arrival) :
    (handleFrame cfg k a).2.event = (k.watchdog.check a.checkedAtNs).2 := by
  unfold handleFrame
  simp only
  split <;> rfl

/-- A handler comes to a verdict unless the watchdog triggers. -/
theorem handleFrame_verdict {k : TrustKernel} {arrivals : List Arrival} {e : Arrival × Handled}
    (he : e ∈ Machine.history (handleFrame cfg) k arrivals) :
    (!e.2.event.isTriggered) = e.2.verdict.isSome := by
  have hone : ∀ (k : TrustKernel) (a : Arrival), (!(handleFrame cfg k a).2.event.isTriggered) =
      (handleFrame cfg k a).2.verdict.isSome := by
    intro k a
    unfold handleFrame
    simp only
    split
    · next h => simp [h]
    · next h => simp [h]
  induction arrivals generalizing k with
  | nil => cases he
  | cons a arrivals ih =>
    rw [Machine.history, List.mem_cons] at he
    rcases he with rfl | he
    · exact hone k a
    · exact ih he

/-- A frame at which the watchdog does not trigger. -/
theorem handleFrame_tracks (hmax : 0 < cfg.maxMissedHeartbeats.toNat)
    (h : Tracks cfg bootNs pre k) {a : Arrival}
    (hquiet : overdueChecks cfg bootNs pre a < cfg.maxMissedHeartbeats.toNat) :
    Tracks cfg bootNs (pre ++ [a]) (handleFrame cfg k a).1 := by
  have hnot : ¬ (k.watchdog.check a.checkedAtNs).2.isTriggered = true := by
    rw [check_triggered_iff h a]
    omega
  obtain ⟨hlast, htimeout, hmaxMissed, hactive, hmissed⟩ := check_watchdog h hquiet
  have heval := (evaluate_watchdog cfg k.bus (k.watchdog.check a.checkedAtNs).1 a).2
  have hbus := evaluate_sameOpen cfg k.bus (k.watchdog.check a.checkedAtNs).1 a
  set evaluated := Voorproever.evaluate cfg k.bus (k.watchdog.check a.checkedAtNs).1 a.stampedAtNs
    a.respondedAtNs a.frame with hevaluated
  have hafter := afterVerdict_sameOpen cfg evaluated.1 a.frame evaluated.2.2
  have hresult : (handleFrame cfg k a).1 =
      ⟨(afterVerdict cfg evaluated.1 a.frame evaluated.2.2).1, evaluated.2.1⟩ := by
    unfold handleFrame
    simp only [hnot, Bool.false_eq_true, if_false]
    rfl
  have hopen : (afterVerdict cfg evaluated.1 a.frame evaluated.2.2).1.isOpen = true :=
    hafter.isOpen.trans (hbus.isOpen.trans h.isOpen)
  have hkills : (afterVerdict cfg evaluated.1 a.frame evaluated.2.2).1.stats.watchdogKills = 0 :=
    hafter.kills.trans (hbus.kills.trans h.kills)
  have hresponse : evaluated.2.1.lastResponseNs = lastResponse bootNs (pre ++ [a]) ∧
      evaluated.2.1.missedCount.toNat =
        (sinceResponse (pre ++ [a])).countP (overdue cfg (lastResponse bootNs (pre ++ [a]))) ∧
      (sinceResponse (pre ++ [a])).countP (overdue cfg (lastResponse bootNs (pre ++ [a]))) <
        cfg.maxMissedHeartbeats.toNat := by
    rw [heval]
    cases ha : rejects a with
    | true =>
      rw [lastResponse_reject ha, sinceResponse_reject ha]
      exact ⟨hlast.trans h.last, hmissed, hquiet⟩
    | false =>
      rw [lastResponse_answer ha, sinceResponse_answer ha]
      exact ⟨rfl, rfl, hmax⟩
  obtain ⟨hkeptTimeout, hkeptMax, hkeptActive⟩ :=
    evaluate_settings cfg k.bus (k.watchdog.check a.checkedAtNs).1 a
  rw [hresult]
  exact ⟨hresponse.1, hresponse.2.1, hresponse.2.2, hkeptTimeout.trans (htimeout.trans h.timeout),
    hkeptMax.trans (hmaxMissed.trans h.max), hkeptActive.trans (hactive.trans h.active), hopen,
    hkills⟩

end Step

/-! ## Over runs -/

section Runs

variable {cfg : TrustKernelConfig} {bootNs : UInt64}

/-- At every frame, fewer checks than allowed were late since the last answer. -/
def NeverOverdue (cfg : TrustKernelConfig) (bootNs : UInt64) (arrivals : List Arrival) : Prop :=
  ∀ pre a post, arrivals = pre ++ a :: post →
    overdueChecks cfg bootNs pre a < cfg.maxMissedHeartbeats.toNat

theorem neverOverdue_concat (arrivals : List Arrival) (a : Arrival) :
    NeverOverdue cfg bootNs (arrivals ++ [a]) ↔ NeverOverdue cfg bootNs arrivals ∧
      overdueChecks cfg bootNs arrivals a < cfg.maxMissedHeartbeats.toNat :=
  Machine.atEach_concat (p := fun pre a => overdueChecks cfg bootNs pre a <
    cfg.maxMissedHeartbeats.toNat) arrivals a

theorem boot_tracks (hmax : 0 < cfg.maxMissedHeartbeats.toNat) :
    Tracks cfg bootNs [] (boot cfg bootNs) := by
  constructor
  · rfl
  · rfl
  · exact hmax
  all_goals rfl

theorem run_tracks (hmax : 0 < cfg.maxMissedHeartbeats.toNat) (arrivals : List Arrival)
    (h : NeverOverdue cfg bootNs arrivals) :
    Tracks cfg bootNs arrivals (Machine.run (handleFrame cfg) (boot cfg bootNs) arrivals) := by
  refine Machine.run_of_atEach (q := fun arrivals => Tracks cfg bootNs arrivals
    (Machine.run (handleFrame cfg) (boot cfg bootNs) arrivals)) (boot_tracks hmax) ?_ h
  intro arrivals a hquiet htracks
  rw [Machine.run_concat]
  exact handleFrame_tracks hmax htracks hquiet

theorem never_triggered_iff (hmax : 0 < cfg.maxMissedHeartbeats.toNat) (arrivals : List Arrival) :
    (∀ e ∈ Machine.history (handleFrame cfg) (boot cfg bootNs) arrivals,
      e.2.event.isTriggered = false) ↔ NeverOverdue cfg bootNs arrivals := by
  induction arrivals using List.reverseRecOn with
  | nil =>
    refine ⟨fun _ pre a post h => ?_, fun _ e he => (nomatch he)⟩
    cases pre <;> cases h
  | append_singleton arrivals a ih =>
    rw [Machine.history_concat, neverOverdue_concat, ← ih]
    simp only [List.forall_mem_append, List.forall_mem_singleton, handleFrame_event]
    -- Up to the last frame the watchdog is tracked, so its check there is decided.
    refine and_congr_right (fun hquiet => ?_)
    have htracks := run_tracks hmax arrivals (ih.mp hquiet)
    rw [← Bool.not_eq_true, check_triggered_iff htracks a, Nat.not_le]

/-- No handler sees `Triggered`, and the bus is open and was never shut down in every state. -/
structure Undisturbed (cfg : TrustKernelConfig) (bootNs : UInt64) (arrivals : List Arrival) :
    Prop where
  events : ∀ e ∈ Machine.history (handleFrame cfg) (boot cfg bootNs) arrivals,
    e.2.event.isTriggered = false
  bus : ∀ pre post, arrivals = pre ++ post →
    let k := Machine.run (handleFrame cfg) (boot cfg bootNs) pre
    k.bus.isOpen = true ∧ k.bus.stats.watchdogKills = 0

theorem undisturbed_iff (hmax : 0 < cfg.maxMissedHeartbeats.toNat) (arrivals : List Arrival) :
    Undisturbed cfg bootNs arrivals ↔ NeverOverdue cfg bootNs arrivals := by
  constructor
  · intro h
    exact (never_triggered_iff hmax arrivals).mp h.events
  · intro h
    refine ⟨(never_triggered_iff hmax arrivals).mpr h, ?_⟩
    rintro pre post rfl
    have hpre : NeverOverdue cfg bootNs pre := by
      intro pre' a post' hsplit
      exact h pre' a (post' ++ post) (by rw [hsplit]; simp)
    have htracks := run_tracks hmax pre hpre
    exact ⟨htracks.isOpen, htracks.kills⟩

theorem overdueChecks_le_since (bootNs : UInt64) (pre : List Arrival) (a : Arrival) :
    overdueChecks cfg bootNs pre a ≤ (sinceResponse pre).length + 1 := by
  have hle : overdueChecks cfg bootNs pre a ≤ (sinceResponse pre ++ [a]).length :=
    List.countP_le_length
  rwa [List.length_append, List.length_singleton] at hle

/-- The frames since the last answer all were rejected, one after another. -/
theorem overdueChecks_lt {arrivals pre post : List Arrival} {a : Arrival} {n : Nat}
    (harrivals : arrivals = pre ++ a :: post)
    (h : ∀ pre mid post, arrivals = pre ++ mid ++ post → (∀ b ∈ mid, rejects b = true) →
      mid.length + 1 < n) : overdueChecks cfg bootNs pre a < n := by
  obtain ⟨front, hfront⟩ := List.rtakeWhile_suffix rejects pre
  have hmid : (sinceResponse pre).length + 1 < n := by
    refine h front (sinceResponse pre) (a :: post) ?_ (fun b hb => List.mem_rtakeWhile_imp hb)
    rw [harrivals, show front ++ sinceResponse pre = pre from hfront]
  have hle : overdueChecks cfg bootNs pre a ≤ (sinceResponse pre).length + 1 :=
    overdueChecks_le_since bootNs pre a
  omega

end Runs

/-- Frames handled one after another, with any clock readings. The watchdog never triggers and the
bus stays open exactly if at every frame fewer than `max_missed` checks came late since Kernel A
last answered PASS or KILL; in particular whenever fewer than `max_missed - 1` frames in a row are
rejected. -/
theorem watchdog_quiet_iff (cfg : TrustKernelConfig) (hmax : 2 ≤ cfg.maxMissedHeartbeats.toNat)
    (bootNs : UInt64) (arrivals : List Arrival) :
    (Undisturbed cfg bootNs arrivals ↔ NeverOverdue cfg bootNs arrivals) ∧
    ((∀ pre mid post, arrivals = pre ++ mid ++ post → (∀ a ∈ mid, rejects a = true) →
      mid.length + 1 < cfg.maxMissedHeartbeats.toNat) → Undisturbed cfg bootNs arrivals) := by
  have hiff : Undisturbed cfg bootNs arrivals ↔ NeverOverdue cfg bootNs arrivals :=
    undisturbed_iff (by omega) arrivals
  refine ⟨hiff, fun hrejects => hiff.mpr ?_⟩
  intro pre a post harrivals
  exact overdueChecks_lt harrivals hrejects

/-- A frame with the given intent, arriving at the given milliseconds. -/
def frameAt (intent : String) (ms : UInt64) : Arrival where
  frame := ⟨1, intent, "root_idd.aint", "print(1)"⟩
  checkedAtNs := ms * 1000000
  stampedAtNs := ms * 1000000 + 10000
  respondedAtNs := ms * 1000000 + 20000

/-- Five frames with an unknown intent after an idle second. -/
def rejectedFrames : List Arrival :=
  [frameAt "ping" 1000, frameAt "ping" 1001, frameAt "ping" 1002, frameAt "ping" 1003,
    frameAt "ping" 1004]

theorem watchdog_quiet_answered :
    Undisturbed .balanced 0 [frameAt "math_calculation" 1000, frameAt "ping" 2000] := by
  apply (watchdog_quiet_iff .balanced (by decide) 0 _).2
  intro pre mid post hsplit _
  have hlen := congrArg List.length hsplit
  simp only [List.length_append, List.length_cons, List.length_nil] at hlen
  show mid.length + 1 < 5
  omega

theorem rejects_ping (ms : UInt64) : rejects (frameAt "ping" ms) = true := by
  show (!Voorproever.isKnownIntent "ping") = true
  decide

/-- With every frame rejected, the counter is never reset. -/
theorem rejectedFrames_overdue :
    overdueChecks .balanced 0 (rejectedFrames.take 4) (frameAt "ping" 1004) = 5 := by
  have hall : ∀ a ∈ rejectedFrames.take 4, rejects a = true := by
    simp [rejectedFrames, rejects_ping]
  have hsince : sinceResponse (rejectedFrames.take 4) = rejectedFrames.take 4 :=
    List.rtakeWhile_eq_self_iff.mpr hall
  have hlast : lastResponse 0 (rejectedFrames.take 4) = 0 := by
    unfold lastResponse
    rw [List.filter_eq_nil_iff.mpr (by simpa using hall)]
    rfl
  unfold overdueChecks
  rw [hsince, hlast]
  decide

/-- The first four frames are answered before the next one arrives, and the fifth finds the
watchdog triggered. -/
theorem rejected_frames_trigger :
    (∀ e ∈ Machine.history (handleFrame .balanced) (boot .balanced 0) (rejectedFrames.take 4),
      e.2.verdict.isSome = true) ∧
    ¬ Undisturbed .balanced 0 rejectedFrames := by
  constructor
  · have hquiet : NeverOverdue .balanced 0 (rejectedFrames.take 4) := by
      intro pre a post hsplit
      have hle : overdueChecks .balanced 0 pre a ≤ (sinceResponse pre).length + 1 :=
        overdueChecks_le_since 0 pre a
      have hsuffix : (sinceResponse pre).length ≤ pre.length :=
        (List.rtakeWhile_suffix rejects pre).length_le
      have hlen := congrArg List.length hsplit
      simp only [rejectedFrames, List.length_take, List.length_append, List.length_cons,
        List.length_nil] at hlen
      show overdueChecks .balanced 0 pre a < 5
      omega
    intro e he
    rw [← handleFrame_verdict he, (never_triggered_iff (by decide) _).mpr hquiet e he]
    rfl
  · intro h
    have hquiet := (undisturbed_iff (by decide) rejectedFrames).mp h
    have hlt := hquiet (rejectedFrames.take 4) (frameAt "ping" 1004) [] rfl
    rw [rejectedFrames_overdue] at hlt
    exact absurd hlt (by decide)

end Spaceshuttle.Kernel
