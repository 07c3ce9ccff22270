import Mathlib.Data.Nat.Notation

/-!
# The watchdog

`Watchdog` of `crates/trust-kernel/src/watchdog.rs`. The atomics of the source are fields: the
handlers of this development run one after another. Clock readings (`boot_time.elapsed()`) are
inputs. The heartbeat interval is stored and never read; it is left out.
-/

namespace Spaceshuttle.Kernel

/-- `Watchdog` (`watchdog.rs:11-28`). -/
structure Watchdog where
  lastResponseNs : UInt64
  timeoutMs : UInt64
  maxMissed : UInt32
  missedCount : UInt64
  triggered : Bool
  active : Bool
  deriving DecidableEq, Repr

/-- `WatchdogEvent` (`watchdog.rs:31-38`). -/
inductive WatchdogEvent where
  | healthy (responseTimeUs : UInt64)
  | heartbeatMissed (consecutive max : UInt32)
  | triggered (lastResponseMs : Float) (timeoutMs : UInt64)

/-- The event is `Triggered`. -/
def WatchdogEvent.isTriggered : WatchdogEvent → Bool
  | .triggered _ _ => true
  | _ => false

/-- `u64::saturating_sub`. -/
def saturatingSub (a b : UInt64) : UInt64 := if b ≤ a then a - b else 0

/-- `ns as f64 / 1_000_000.0`. -/
def milliseconds (ns : UInt64) : Float := ns.toFloat / 1000000.0

namespace Watchdog

/-- `Watchdog::new` (`watchdog.rs:41-53`). -/
def new (timeoutMs : UInt64) (maxMissed : UInt32) : Watchdog where
  lastResponseNs := 0
  timeoutMs := timeoutMs
  maxMissed := maxMissed
  missedCount := 0
  triggered := false
  active := true

/-- `kernel_a_responded` (`watchdog.rs:57-61`). -/
def kernelAResponded (w : Watchdog) (nowNs : UInt64) : Watchdog :=
  { w with lastResponseNs := nowNs, missedCount := 0 }

/-- The time since a response exceeds the timeout (`watchdog.rs:70-75`). -/
def overTimeout (timeoutMs nowNs lastNs : UInt64) : Bool :=
  decide ((saturatingSub nowNs lastNs).toNat > timeoutMs.toNat * 1000000)

/-- `check` (`watchdog.rs:65-95`). The counter is narrowed to 32 bits before it is compared. -/
def check (w : Watchdog) (nowNs : UInt64) : Watchdog × WatchdogEvent :=
  if !w.active then (w, .healthy 0)
  else
    let elapsedNs := saturatingSub nowNs w.lastResponseNs
    if overTimeout w.timeoutMs nowNs w.lastResponseNs then
      let missed := w.missedCount.toUInt32 + 1
      let w := { w with missedCount := w.missedCount + 1 }
      if missed ≥ w.maxMissed then
        ({ w with triggered := true }, .triggered (milliseconds elapsedNs) w.timeoutMs)
      else (w, .heartbeatMissed missed w.maxMissed)
    else (w, .healthy (elapsedNs / 1000))

/-- `has_triggered`. -/
def hasTriggered (w : Watchdog) : Bool := w.triggered

/-- `reset` (`watchdog.rs:103-107`). -/
def reset (w : Watchdog) (nowNs : UInt64) : Watchdog :=
  { w with triggered := false, missedCount := 0 }.kernelAResponded nowNs

/-- `pause` (`watchdog.rs:110-112`). -/
def pause (w : Watchdog) : Watchdog := { w with active := false }

/-- `resume` (`watchdog.rs:115-118`). -/
def resume (w : Watchdog) (nowNs : UInt64) : Watchdog :=
  { w with active := true }.kernelAResponded nowNs

end Watchdog

end Spaceshuttle.Kernel
