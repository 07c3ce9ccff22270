import Spaceshuttle.Kernel.Archivaris
import Spaceshuttle.Lib.Machine

/-!
# The frame handler

The body that `main` of `crates/trust-kernel/src/main.rs:65-176` spawns for every frame. Its state
is what all handlers share, the bus and the watchdog; the Archivaris is made anew for every frame
and dropped with its archive.
-/

namespace Spaceshuttle.Kernel

/-- What all handlers share. -/
structure TrustKernel where
  bus : VirtualBus
  watchdog : Watchdog
  deriving DecidableEq, Repr

/-- A frame with the clock readings taken while it is handled: when the watchdog is checked, when
the payload is stamped and when the watchdog is notified. -/
structure Arrival where
  frame : TibetMuxFrame
  checkedAtNs : UInt64
  stampedAtNs : UInt64
  respondedAtNs : UInt64
  deriving DecidableEq, Repr

/-- A response on the MUX channel (`mux.rs:17-22`). -/
structure MuxResponse where
  channelId : UInt32
  status : Nat
  intent : String
  tibetProvenance : TibetProvenance
  deriving DecidableEq, Repr

/-- What a handler saw and did: the watchdog event, the verdict if it came to one, and the
responses it sent. -/
structure Handled where
  event : WatchdogEvent
  verdict : Option VoorproeverVerdict
  responses : List MuxResponse

/-- `send_response` (`mux.rs:68-86`). -/
def sendResponse (frame : TibetMuxFrame) (token : TibetProvenance) (status : Nat) : MuxResponse where
  channelId := frame.channelId
  status := status
  intent := frame.intent
  tibetProvenance := token

/-- The response to the result of Kernel B (`main.rs:139-170`). A sequence gap is answered only
around a success. -/
def respond (frame : TibetMuxFrame) : ArchivarisResult → List MuxResponse
  | .success token _ => [sendResponse frame token 200]
  | .sequenceGap _ _ (.success token _) => [sendResponse frame token 200]
  | .sequenceGap _ _ _ => []
  | .busClosed => [sendResponse frame (.generateRejected frame) 503]
  | .busVerifyFailed _ _ => [sendResponse frame (.generateRejected frame) 403]
  | .jisDenied _ _ => [sendResponse frame (.generateRejected frame) 403]

/-- The handler from the verdict of Kernel A on (`main.rs:99-173`). -/
def afterVerdict (cfg : TrustKernelConfig) (bus : VirtualBus) (frame : TibetMuxFrame) :
    VoorproeverVerdict → VirtualBus × List MuxResponse
  | .reject _ => (bus, [sendResponse frame (.generateRejected frame) 400])
  | .kill _ violations _ => (bus, [sendResponse frame (.generateIncident frame violations) 403])
  | .pass busPayload _ =>
      let (_, bus, result) := Archivaris.process cfg ⟨[]⟩ bus busPayload frame
      (bus, respond frame result)

/-- The frame handler. -/
def handleFrame (cfg : TrustKernelConfig) (k : TrustKernel) (a : Arrival) : TrustKernel × Handled :=
  let (watchdog, event) := k.watchdog.check a.checkedAtNs
  if event.isTriggered then
    (⟨k.bus.shutdown, watchdog⟩,
      ⟨event, none, [sendResponse a.frame (.generateRejected a.frame) 503]⟩)
  else
    let (bus, watchdog, verdict) :=
      Voorproever.evaluate cfg k.bus watchdog a.stampedAtNs a.respondedAtNs a.frame
    let (bus, responses) := afterVerdict cfg bus a.frame verdict
    (⟨bus, watchdog⟩, ⟨event, some verdict, responses⟩)

/-- The start of `main` (`main.rs:30-38`): a new bus, a new watchdog and the initial heartbeat. -/
def boot (cfg : TrustKernelConfig) (bootNs : UInt64) : TrustKernel where
  bus := VirtualBus.new cfg.maxPayloadBytes
  watchdog := (Watchdog.new cfg.timeoutMs cfg.maxMissedHeartbeats).kernelAResponded bootNs

end Spaceshuttle.Kernel
