import Spaceshuttle.Kernel.Voorproever

/-!
# Kernel B

`Archivaris::process` of `crates/trust-kernel/src/archivaris.rs:97-213` and the tokens it and the
frame handler mint (`crates/trust-kernel/src/tibet_token.rs`). Of a token, the kind and what it
says about the frame are kept; timestamps and prose are left out, as is the prose of an archive
entry.
-/

namespace Spaceshuttle.Kernel

/-- `TibetProvenance` (`tibet_token.rs:12-33`). -/
structure TibetProvenance where
  tokenType : String
  ainsIdentity : String
  intent : String
  vmId : String
  violations : List String
  observedSyscalls : List String
  deriving DecidableEq, Repr

namespace TibetProvenance

/-- `generate_success` (`tibet_token.rs:36-59`). -/
def generateSuccess (frame : TibetMuxFrame) (vmId : String) (syscalls : List String) :
    TibetProvenance where
  tokenType := "SAFE_EXECUTION"
  ainsIdentity := frame.fromAint
  intent := frame.intent
  vmId := vmId
  violations := []
  observedSyscalls := syscalls

/-- `generate_incident` (`tibet_token.rs:61-83`), for the decision of the frame handler. -/
def generateIncident (frame : TibetMuxFrame) (violations : List String) : TibetProvenance where
  tokenType := "INCIDENT_KILL"
  ainsIdentity := frame.fromAint
  intent := frame.intent
  vmId := "voorproever"
  violations := violations
  observedSyscalls := []

/-- `generate_rejected` (`tibet_token.rs:85-105`). -/
def generateRejected (frame : TibetMuxFrame) : TibetProvenance where
  tokenType := "INTENT_REJECTED"
  ainsIdentity := frame.fromAint
  intent := frame.intent
  vmId := "none"
  violations := []
  observedSyscalls := []

end TibetProvenance

/-- The reasons of `jis_check` (`archivaris.rs:195-213`). -/
inductive JisDenial where
  | noIdentity
  | lowFira (score : Float)

/-- `ArchivarisResult` (`archivaris.rs:32-58`), without the execution time. -/
inductive ArchivarisResult where
  | success (token : TibetProvenance) (busSeq : UInt64)
  | busVerifyFailed (reason : String) (busSeq : UInt64)
  | jisDenied (reason : JisDenial) (busSeq : UInt64)
  | busClosed
  | sequenceGap (expected received : UInt64) (result : ArchivarisResult)

/-- `ArchiveEntry` (`archivaris.rs:62-69`). -/
structure ArchiveEntry where
  seq : UInt64
  intent : String
  fromAint : String
  tibetTokenType : String
  deriving DecidableEq, Repr

/-- The archive of `Archivaris` (`archivaris.rs:71-82`); the vault is not part of `process`. -/
structure Archivaris where
  archive : List ArchiveEntry
  deriving DecidableEq, Repr

namespace Archivaris

/-- `verify_voorproever_seal` (`archivaris.rs:187-191`). -/
def verifyVoorproeverSeal (payload : BusPayload) : Bool :=
  startsWith payload.voorproeverSeal "vp_seal_seq"

/-- `jis_check` (`archivaris.rs:195-213`). -/
def jisCheck (payload : BusPayload) : Option JisDenial :=
  if payload.fromAint = "" then some .noIdentity
  else if payload.firaScore < 0.3 then some (.lowFira payload.firaScore)
  else none

/-- The part of `process` after the payload was received (`archivaris.rs:118-182`). -/
def accept (cfg : TrustKernelConfig) (a : Archivaris) (payload : BusPayload)
    (frame : TibetMuxFrame) (seqGap : Option (UInt64 × UInt64)) : Archivaris × ArchivarisResult :=
  if !verifyVoorproeverSeal payload then
    (a, .busVerifyFailed "Voorproever seal verification failed" payload.seq)
  else
    match if cfg.jisSigningPerAction then jisCheck payload else none with
    | some reason => (a, .jisDenied reason payload.seq)
    | none =>
        let token := TibetProvenance.generateSuccess frame s!"archivaris_seq{payload.seq}"
          payload.observedSyscalls
        let entry := ⟨payload.seq, payload.intent, payload.fromAint, "SAFE_EXECUTION"⟩
        let result := .success token payload.seq
        ({ a with archive := a.archive ++ [entry] },
          match seqGap with
          | some (expected, received) => .sequenceGap expected received result
          | none => result)

/-- `process` (`archivaris.rs:97-183`). -/
def process (cfg : TrustKernelConfig) (a : Archivaris) (bus : VirtualBus) (payload : BusPayload)
    (frame : TibetMuxFrame) : Archivaris × VirtualBus × ArchivarisResult :=
  match bus.receive payload with
  | (bus, .busClosed) => (a, bus, .busClosed)
  | (bus, .payloadTooLarge size max) =>
      (a, bus, .busVerifyFailed s!"Payload {size}B exceeds bus max {max}B" payload.seq)
  | (bus, .delivered p) =>
      let (a, result) := accept cfg a p frame none
      (a, bus, result)
  | (bus, .sequenceGap expected received _) =>
      let (a, result) := accept cfg a payload frame (some (expected, received))
      (a, bus, result)

end Archivaris

end Spaceshuttle.Kernel
