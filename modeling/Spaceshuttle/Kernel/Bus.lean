import Mathlib.Data.Nat.Notation

/-!
# The virtual bus

`VirtualBus` of `crates/trust-kernel/src/bus.rs`: the one-way channel from Kernel A to Kernel B.
-/

namespace Spaceshuttle.Kernel

/-- `BusPayload` (`bus.rs:16-33`). -/
structure BusPayload where
  seq : UInt64
  intent : String
  payload : String
  fromAint : String
  voorproeverSeal : String
  observedSyscalls : List String
  firaScore : Float
  approvedAtNs : UInt64

/-- `BusStats` (`bus.rs:37-42`). -/
structure BusStats where
  payloadsPassed : UInt64
  payloadsRejected : UInt64
  sequenceGapsDetected : UInt64
  watchdogKills : UInt64
  deriving DecidableEq, Repr

/-- `VirtualBus` (`bus.rs:45-58`). -/
structure VirtualBus where
  nextExpectedSeq : UInt64
  seqCounter : UInt64
  maxPayloadBytes : Nat
  isOpen : Bool
  stats : BusStats
  deriving DecidableEq, Repr

/-- `BusResult` (`bus.rs:62-71`). -/
inductive BusResult where
  | delivered (payload : BusPayload)
  | busClosed
  | payloadTooLarge (size max : Nat)
  | sequenceGap (expected received gapSize : UInt64)

namespace VirtualBus

/-- `VirtualBus::new` (`bus.rs:74-83`). -/
def new (maxPayloadBytes : Nat) : VirtualBus where
  nextExpectedSeq := 0
  seqCounter := 0
  maxPayloadBytes := maxPayloadBytes
  isOpen := true
  stats := ⟨0, 0, 0, 0⟩

/-- `stamp_payload` (`bus.rs:86-107`). -/
def stampPayload (bus : VirtualBus) (elapsedNs : UInt64) (intent payload fromAint : String)
    (syscalls : List String) (firaScore : Float) : VirtualBus × BusPayload :=
  let seq := bus.seqCounter
  ({ bus with seqCounter := bus.seqCounter + 1 },
    { seq, intent, payload, fromAint, voorproeverSeal := s!"vp_seal_seq{seq}_{elapsedNs}",
      observedSyscalls := syscalls, firaScore, approvedAtNs := elapsedNs })

/-- `receive` (`bus.rs:110-146`). -/
def receive (bus : VirtualBus) (payload : BusPayload) : VirtualBus × BusResult :=
  if !bus.isOpen then (bus, .busClosed)
  else
    let size := payload.payload.utf8ByteSize
    if size > bus.maxPayloadBytes then (bus, .payloadTooLarge size bus.maxPayloadBytes)
    else
      let expected := bus.nextExpectedSeq
      let stats := { bus.stats with payloadsPassed := bus.stats.payloadsPassed + 1 }
      if payload.seq ≠ expected then
        let gapSize := if expected ≤ payload.seq then payload.seq - expected else 0
        ({ bus with
            nextExpectedSeq := payload.seq + 1
            stats := { stats with sequenceGapsDetected := stats.sequenceGapsDetected + 1 } },
          .sequenceGap expected payload.seq gapSize)
      else
        ({ bus with nextExpectedSeq := payload.seq + 1, stats := stats }, .delivered payload)

/-- `shutdown` (`bus.rs:149-153`). -/
def shutdown (bus : VirtualBus) : VirtualBus :=
  { bus with
    isOpen := false
    stats := { bus.stats with watchdogKills := bus.stats.watchdogKills + 1 } }

/-- `reopen` (`bus.rs:156-158`). -/
def reopen (bus : VirtualBus) : VirtualBus := { bus with isOpen := true }

end VirtualBus

end Spaceshuttle.Kernel
