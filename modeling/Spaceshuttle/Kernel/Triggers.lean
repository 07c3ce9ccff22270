import Spaceshuttle.Kernel.Watchdog
import Spaceshuttle.Lib.History
import Spaceshuttle.Lib.Machine

/-!
# The history of the watchdog

The watchdog keeps the time of the last answer, a count of misses and a flag, and its operations reset
different ones of these. Each is a question about the history. A resume counts as an answer; a pause
does not, and only a reset clears the flag.
-/

namespace Spaceshuttle.Kernel

/-- The operations on the watchdog. -/
inductive WatchdogCall where
  | kernelAResponded
  | check
  | pause
  | resume
  | reset
  deriving DecidableEq, Repr

/-- An operation with the time at which it runs. -/
structure WatchdogOp where
  nowNs : UInt64
  call : WatchdogCall
  deriving DecidableEq, Repr

/-- Run an operation. -/
def watchdogStep (w : Watchdog) (op : WatchdogOp) : Watchdog × Option WatchdogEvent :=
  match op.call with
  | .kernelAResponded => (w.kernelAResponded op.nowNs, none)
  | .check =>
      let out := w.check op.nowNs
      (out.1, some out.2)
  | .pause => (w.pause, none)
  | .resume => (w.resume op.nowNs, none)
  | .reset => (w.reset op.nowNs, none)

/-! ## Questions about a history -/

/-- The operation restarts the timer. -/
def WatchdogOp.isAnswer (op : WatchdogOp) : Bool :=
  match op.call with
  | .kernelAResponded => true
  | .resume => true
  | .reset => true
  | _ => false

/-- The operation switches the watchdog on or off. -/
def WatchdogOp.isSwitch (op : WatchdogOp) : Bool :=
  match op.call with
  | .pause => true
  | .resume => true
  | _ => false

/-- When the timer was last restarted: it starts at 0. -/
def answeredNs (ops : List WatchdogOp) : UInt64 :=
  ((History.last WatchdogOp.isAnswer ops).map WatchdogOp.nowNs).getD 0

/-- The watchdog is active unless it was last switched off. -/
def isActive (ops : List WatchdogOp) : Bool :=
  ((History.last WatchdogOp.isSwitch ops).map fun op => decide (op.call = .resume)).getD true

/-- The operation is a check, with the watchdog active and more than the timeout after the last answer. -/
def isMiss (timeoutMs : UInt64) (before : List WatchdogOp) (op : WatchdogOp) : Bool :=
  decide (op.call = .check) && isActive before &&
    decide ((answeredNs before).toNat + timeoutMs.toNat * 1000000 < op.nowNs.toNat)

/-- The misses since the last answer. -/
def misses (timeoutMs : UInt64) (ops : List WatchdogOp) : Nat :=
  (History.since (fun e => e.2.isAnswer) (History.contexts ops)).countP
    (fun e => isMiss timeoutMs e.1 e.2)

/-- A check triggered since the last reset. -/
def triggeredSinceReset (history : List (WatchdogOp × Option WatchdogEvent)) : Bool :=
  (History.since (fun e => decide (e.1.call = .reset)) history).any
    (fun e => e.2.any WatchdogEvent.isTriggered)

section Questions

variable {timeoutMs : UInt64}

theorem answeredNs_concat (ops : List WatchdogOp) (op : WatchdogOp) :
    answeredNs (ops ++ [op]) = if op.isAnswer then op.nowNs else answeredNs ops := by
  unfold answeredNs
  rw [History.last_concat]
  split <;> rfl

theorem isActive_concat (ops : List WatchdogOp) (op : WatchdogOp) : isActive (ops ++ [op]) =
    if op.isSwitch then decide (op.call = .resume) else isActive ops := by
  unfold isActive
  rw [History.last_concat]
  split <;> rfl

theorem misses_concat (ops : List WatchdogOp) (op : WatchdogOp) : misses timeoutMs (ops ++ [op]) =
    if op.isAnswer then 0 else misses timeoutMs ops + if isMiss timeoutMs ops op then 1 else 0 := by
  unfold misses
  rw [History.contexts_concat, History.since_concat]
  split
  · rfl
  · rw [List.countP_append, List.countP_singleton]

theorem misses_le_length (ops : List WatchdogOp) : misses timeoutMs ops ≤ ops.length := by
  induction ops using List.reverseRecOn with
  | nil => exact Nat.le_refl 0
  | append_singleton ops op ih =>
    rw [misses_concat, List.length_append, List.length_singleton]
    split
    · exact Nat.zero_le _
    · split
      · exact Nat.add_le_add_right ih 1
      · exact Nat.le_add_right_of_le ih

theorem triggeredSinceReset_concat (history : List (WatchdogOp × Option WatchdogEvent))
    (op : WatchdogOp) (event : Option WatchdogEvent) :
    triggeredSinceReset (history ++ [(op, event)]) = if op.call = .reset then false
      else (triggeredSinceReset history || event.any WatchdogEvent.isTriggered) := by
  unfold triggeredSinceReset
  rw [History.since_concat]
  by_cases hreset : op.call = .reset
  · rw [if_pos (decide_eq_true hreset), if_pos hreset]
    rfl
  · rw [if_neg (by simpa using hreset), if_neg hreset, List.any_append]
    simp

end Questions

/-! ## One check -/

section Check

variable {w : Watchdog} {nowNs : UInt64}

theorem toNat_saturatingSub (a b : UInt64) : (saturatingSub a b).toNat = a.toNat - b.toNat := by
  unfold saturatingSub
  split
  · next hle => exact UInt64.toNat_sub_of_le a b hle
  · next hlt =>
    rw [UInt64.le_iff_toNat_le] at hlt
    rw [UInt64.toNat_zero]
    omega

theorem overTimeout_eq (timeoutMs nowNs lastNs : UInt64) : Watchdog.overTimeout timeoutMs nowNs lastNs =
    decide (lastNs.toNat + timeoutMs.toNat * 1000000 < nowNs.toNat) := by
  rw [Watchdog.overTimeout, toNat_saturatingSub]
  exact decide_eq_decide.mpr (by omega)

/-- A check that is no miss changes nothing and does not trigger. -/
theorem check_quiet
    (h : (w.active && Watchdog.overTimeout w.timeoutMs nowNs w.lastResponseNs) = false) :
    (w.check nowNs).1 = w ∧ (w.check nowNs).2.isTriggered = false := by
  unfold Watchdog.check
  cases hactive : w.active with
  | false => exact ⟨rfl, rfl⟩
  | true =>
    rw [hactive, Bool.true_and] at h
    rw [if_neg (by simp), h]
    exact ⟨rfl, rfl⟩

/-- A miss is counted, and triggers when the narrowed counter has reached the maximum. -/
theorem check_miss (hactive : w.active = true)
    (hlate : Watchdog.overTimeout w.timeoutMs nowNs w.lastResponseNs = true) :
    (w.check nowNs).1 = { w with
        missedCount := w.missedCount + 1
        triggered := w.triggered || decide (w.maxMissed ≤ w.missedCount.toUInt32 + 1) } ∧
      (w.check nowNs).2.isTriggered = decide (w.maxMissed ≤ w.missedCount.toUInt32 + 1) := by
  unfold Watchdog.check
  simp only [hactive, Bool.not_true, Bool.false_eq_true, if_false, hlate, if_true]
  by_cases hmax : w.maxMissed ≤ w.missedCount.toUInt32 + 1
  · rw [if_pos hmax, decide_eq_true hmax, Bool.or_true]
    exact ⟨rfl, rfl⟩
  · rw [if_neg hmax, decide_eq_false hmax, Bool.or_false]
    exact ⟨rfl, rfl⟩

/-- The narrowed counter does not wrap below the greatest number of misses. -/
theorem narrowed_le_iff {max : UInt32} {count : UInt64} {n : Nat} (hcount : count = UInt64.ofNat n)
    (hfew : n + 1 < 4294967295) : max ≤ count.toUInt32 + 1 ↔ max.toNat ≤ n + 1 := by
  have hn : count.toNat = n := by
    rw [hcount, UInt64.toNat_ofNat']
    omega
  rw [UInt32.le_iff_toNat_le, UInt32.toNat_add, UInt64.toNat_toUInt32, hn]
  simp only [UInt32.reduceToNat]
  rw [Nat.mod_eq_of_lt (by omega), Nat.mod_eq_of_lt (by omega)]

end Check

/-! ## The watchdog knows its history -/

/-- The fields of the watchdog answer the questions about its history. -/
structure Knows (timeoutMs : UInt64) (maxMissed : UInt32) (ops : List WatchdogOp)
    (history : List (WatchdogOp × Option WatchdogEvent)) (w : Watchdog) : Prop where
  timeout : w.timeoutMs = timeoutMs
  max : w.maxMissed = maxMissed
  active : w.active = isActive ops
  last : w.lastResponseNs = answeredNs ops
  missed : w.missedCount = UInt64.ofNat (misses timeoutMs ops)
  triggered : w.triggered = triggeredSinceReset history

section Knows

variable {timeoutMs : UInt64} {maxMissed : UInt32} {ops : List WatchdogOp}
  {history : List (WatchdogOp × Option WatchdogEvent)} {w : Watchdog} {op : WatchdogOp}

theorem Knows.isMiss_eq (h : Knows timeoutMs maxMissed ops history w) (hcheck : op.call = .check) :
    (w.active && Watchdog.overTimeout w.timeoutMs op.nowNs w.lastResponseNs) =
      isMiss timeoutMs ops op := by
  rw [isMiss, decide_eq_true hcheck, Bool.true_and, overTimeout_eq, h.active, h.timeout, h.last]

/-- A check triggers exactly when it is a miss, and at least the `maxMissed`-th since the last answer. -/
theorem Knows.check_triggered (h : Knows timeoutMs maxMissed ops history w)
    (hcheck : op.call = .check) (hfew : misses timeoutMs (ops ++ [op]) < 4294967295) :
    (w.check op.nowNs).2.isTriggered = true ↔
      isMiss timeoutMs ops op = true ∧ maxMissed.toNat ≤ misses timeoutMs (ops ++ [op]) := by
  have hanswer : ¬ op.isAnswer = true := by rw [WatchdogOp.isAnswer, hcheck]; exact Bool.false_ne_true
  rw [misses_concat, if_neg hanswer] at hfew ⊢
  have hmiss := h.isMiss_eq hcheck
  cases hkind : isMiss timeoutMs ops op with
  | false =>
    rw [hkind] at hmiss
    rw [(check_quiet hmiss).2]
    exact iff_of_false Bool.false_ne_true fun hand => Bool.false_ne_true hand.1
  | true =>
    rw [hkind, Bool.and_eq_true] at hmiss
    rw [hkind, if_pos rfl] at hfew
    rw [(check_miss hmiss.1 hmiss.2).2, decide_eq_true_iff, h.max, narrowed_le_iff h.missed hfew,
      if_pos rfl, and_iff_right rfl]

theorem Knows.check (h : Knows timeoutMs maxMissed ops history w) (hcheck : op.call = .check) :
    Knows timeoutMs maxMissed (ops ++ [op]) (history ++ [(op, some (w.check op.nowNs).2)])
      (w.check op.nowNs).1 := by
  have hanswer : ¬ op.isAnswer = true := by rw [WatchdogOp.isAnswer, hcheck]; exact Bool.false_ne_true
  have hswitch : ¬ op.isSwitch = true := by rw [WatchdogOp.isSwitch, hcheck]; exact Bool.false_ne_true
  have hreset : ¬ op.call = .reset := by rw [hcheck]; exact WatchdogCall.noConfusion
  have hactive := isActive_concat ops op
  have hlast := answeredNs_concat ops op
  have hmisses : misses timeoutMs (ops ++ [op]) = _ := misses_concat ops op
  have htriggered := triggeredSinceReset_concat history op (some (w.check op.nowNs).2)
  rw [if_neg hswitch] at hactive
  rw [if_neg hanswer] at hlast hmisses
  rw [if_neg hreset, Option.any_some, ← h.triggered] at htriggered
  have hmiss := h.isMiss_eq hcheck
  cases hkind : isMiss timeoutMs ops op with
  | false =>
    rw [hkind] at hmiss
    rw [hkind, if_neg Bool.false_ne_true, Nat.add_zero] at hmisses
    obtain ⟨hsame, hquiet⟩ := check_quiet hmiss
    rw [hquiet, Bool.or_false] at htriggered
    rw [hsame]
    exact ⟨h.timeout, h.max, h.active.trans hactive.symm, h.last.trans hlast.symm,
      h.missed.trans (congrArg _ hmisses.symm), htriggered.symm⟩
  | true =>
    rw [hkind, Bool.and_eq_true] at hmiss
    rw [hkind, if_pos rfl] at hmisses
    obtain ⟨hwatchdog, hevent⟩ := check_miss hmiss.1 hmiss.2
    rw [hevent] at htriggered
    rw [hwatchdog]
    refine ⟨h.timeout, h.max, h.active.trans hactive.symm, h.last.trans hlast.symm, ?_,
      htriggered.symm⟩
    rw [hmisses, UInt64.ofNat_add, ← h.missed]
    rfl

theorem Knows.step (h : Knows timeoutMs maxMissed ops history w) (op : WatchdogOp) :
    Knows timeoutMs maxMissed (ops ++ [op]) (history ++ [(op, (watchdogStep w op).2)])
      (watchdogStep w op).1 := by
  have hactive := isActive_concat ops op
  have hlast := answeredNs_concat ops op
  have hmisses : misses timeoutMs (ops ++ [op]) = _ := misses_concat ops op
  have htriggered := triggeredSinceReset_concat history op (watchdogStep w op).2
  obtain ⟨nowNs, call⟩ := op
  cases call with
  | check => exact h.check rfl
  | kernelAResponded =>
    refine ⟨h.timeout, h.max, h.active.trans hactive.symm, hlast.symm, ?_, ?_⟩
    · exact (congrArg UInt64.ofNat hmisses).symm
    · exact h.triggered.trans ((htriggered.trans (Bool.or_false _)).symm)
  | pause =>
    refine ⟨h.timeout, h.max, hactive.symm, h.last.trans hlast.symm, ?_, ?_⟩
    · exact h.missed.trans (congrArg UInt64.ofNat hmisses).symm
    · exact h.triggered.trans ((htriggered.trans (Bool.or_false _)).symm)
  | resume =>
    refine ⟨h.timeout, h.max, hactive.symm, hlast.symm, ?_, ?_⟩
    · exact (congrArg UInt64.ofNat hmisses).symm
    · exact h.triggered.trans ((htriggered.trans (Bool.or_false _)).symm)
  | reset =>
    refine ⟨h.timeout, h.max, h.active.trans hactive.symm, hlast.symm, ?_, htriggered.symm⟩
    exact (congrArg UInt64.ofNat hmisses).symm

theorem knows_run (timeoutMs : UInt64) (maxMissed : UInt32) (ops : List WatchdogOp) :
    Knows timeoutMs maxMissed ops (Machine.history watchdogStep (.new timeoutMs maxMissed) ops)
      (Machine.run watchdogStep (.new timeoutMs maxMissed) ops) := by
  induction ops using List.reverseRecOn with
  | nil => exact ⟨rfl, rfl, rfl, rfl, rfl, rfl⟩
  | append_singleton ops op ih =>
    rw [Machine.run_concat, Machine.history_concat]
    exact ih.step op

end Knows

/-- Over every run with fewer than `u32::MAX` misses in a row: a check triggers exactly when the watchdog
is active, more than the timeout has passed since the last answer, and it is at least the `maxMissed`-th
such check since then; the watchdog says that it has triggered exactly when a check did since the last
reset. The times need not be monotone. -/
theorem triggering_exact (timeoutMs : UInt64) (maxMissed : UInt32) (ops : List WatchdogOp)
    (hfew : ∀ before after, ops = before ++ after → misses timeoutMs before < 4294967295) :
    (∀ before op after, ops = before ++ op :: after → op.call = .check → ∃ event,
      (watchdogStep (Machine.run watchdogStep (.new timeoutMs maxMissed) before) op).2 = some event ∧
        (event.isTriggered = true ↔ isActive before = true ∧
          (answeredNs before).toNat + timeoutMs.toNat * 1000000 < op.nowNs.toNat ∧
          maxMissed.toNat ≤ misses timeoutMs (before ++ [op]))) ∧
    (Machine.run watchdogStep (.new timeoutMs maxMissed) ops).hasTriggered =
      triggeredSinceReset (Machine.history watchdogStep (.new timeoutMs maxMissed) ops) := by
  constructor
  · intro before op after hsplit hcheck
    have hlast : ops = (before ++ [op]) ++ after := by
      rw [hsplit, List.append_assoc, List.singleton_append]
    have hevent := (knows_run timeoutMs maxMissed before).check_triggered hcheck (hfew _ _ hlast)
    rw [isMiss, decide_eq_true hcheck, Bool.true_and, Bool.and_eq_true, decide_eq_true_iff,
      and_assoc] at hevent
    refine ⟨_, ?_, hevent⟩
    rw [watchdogStep, hcheck]
  · exact (knows_run timeoutMs maxMissed ops).triggered

/-- Two late checks, with a pause and a resume in between. -/
def pausedRun : List WatchdogOp :=
  [⟨200000000, .check⟩, ⟨210000000, .pause⟩, ⟨400000000, .check⟩, ⟨410000000, .resume⟩,
    ⟨600000000, .check⟩, ⟨700000000, .check⟩]

theorem misses_pausedRun : ∀ before after, pausedRun = before ++ after →
    misses 100 before < 4294967295 := by
  intro before after hsplit
  have hmisses : misses 100 before ≤ before.length := misses_le_length before
  have hlength := congrArg List.length hsplit
  rw [List.length_append] at hlength
  have hrun : pausedRun.length = 6 := rfl
  omega

theorem triggering_exact_pausedRun : (∀ before after, pausedRun = before ++ after →
      misses 100 before < 4294967295) ∧
    (Machine.run watchdogStep (.new 100 2) pausedRun).hasTriggered =
      triggeredSinceReset (Machine.history watchdogStep (.new 100 2) pausedRun) :=
  ⟨misses_pausedRun, (triggering_exact 100 2 pausedRun misses_pausedRun).2⟩

end Spaceshuttle.Kernel
