import Spaceshuttle.Kernel.Handler
import Spaceshuttle.Kernel.Replay

/-!
# The verdict of the pipeline

Watchdog, Kernel A, SNAFT, the bus and Kernel B can each end the handling of a frame. Whichever
does, the frame gets one response, and the response is 200 exactly when all of them let it pass.
-/

namespace Spaceshuttle.Kernel

/-- The result is `Success` or `SequenceGap`. -/
def ArchivarisResult.isArchived : ArchivarisResult → Bool
  | .success _ _ => true
  | .sequenceGap _ _ _ => true
  | _ => false

namespace Archivaris

/-- Kernel B accepts a payload: it fits the bus, is sealed and passes the access check. -/
structure Accepts (cfg : TrustKernelConfig) (bus : VirtualBus) (payload : BusPayload) : Prop where
  fits : bus.fits payload = true
  isSealed : verifyVoorproeverSeal payload = true
  jis : cfg.jisSigningPerAction = true → jisCheck payload = none

variable {cfg : TrustKernelConfig}

theorem accept_accepted {payload : BusPayload} (hseal : verifyVoorproeverSeal payload = true)
    (hjis : cfg.jisSigningPerAction = true → jisCheck payload = none) (a : Archivaris)
    (frame : TibetMuxFrame) (seqGap : Option (UInt64 × UInt64)) :
    ∃ entry token, (accept cfg a payload frame seqGap).1.archive = a.archive ++ [entry] ∧
      (accept cfg a payload frame seqGap).2 =
        match seqGap with
        | some (expected, received) => .sequenceGap expected received (.success token payload.seq)
        | none => .success token payload.seq := by
  unfold accept
  have hcheck : (if cfg.jisSigningPerAction then jisCheck payload else none) = none := by
    split
    · next hsign => exact hjis hsign
    · rfl
  simp only [hseal, Bool.not_true, Bool.false_eq_true, if_false, hcheck]
  cases seqGap <;> exact ⟨_, _, rfl, rfl⟩

theorem accept_denied {payload : BusPayload}
    (h : ¬ (verifyVoorproeverSeal payload = true ∧
      (cfg.jisSigningPerAction = true → jisCheck payload = none))) (a : Archivaris)
    (frame : TibetMuxFrame) (seqGap : Option (UInt64 × UInt64)) :
    (accept cfg a payload frame seqGap).1 = a ∧
      (accept cfg a payload frame seqGap).2.isArchived = false := by
  unfold accept
  cases hseal : verifyVoorproeverSeal payload with
  | false => exact ⟨rfl, rfl⟩
  | true =>
    have hdenied : ¬ (cfg.jisSigningPerAction = true → jisCheck payload = none) :=
      fun hjis => h ⟨hseal, hjis⟩
    rw [Classical.not_imp] at hdenied
    obtain ⟨hsign, hcheck⟩ := hdenied
    obtain ⟨reason, hreason⟩ := Option.ne_none_iff_exists'.mp hcheck
    simp [hsign, hreason, ArchivarisResult.isArchived]

/-- What Kernel B does with a payload it accepts: one entry, and a success, wrapped if the number
was not the expected one. -/
theorem process_accepted {bus : VirtualBus} {payload : BusPayload}
    (h : Accepts cfg bus payload) (a : Archivaris) (frame : TibetMuxFrame) :
    ∃ entry token, (process cfg a bus payload frame).1.archive = a.archive ++ [entry] ∧
      ((process cfg a bus payload frame).2.2 = .success token payload.seq ∨
        ∃ expected received, (process cfg a bus payload frame).2.2 =
          .sequenceGap expected received (.success token payload.seq)) := by
  unfold process
  by_cases hseq : payload.seq = bus.nextExpectedSeq
  · obtain ⟨bus', hreceive⟩ := bus.receive_delivered h.fits hseq
    obtain ⟨entry, token, harchive, hresult⟩ := accept_accepted h.isSealed h.jis a frame none
    rw [hreceive]
    exact ⟨entry, token, harchive, .inl hresult⟩
  · obtain ⟨gapSize, hgap⟩ := bus.receive_gap h.fits hseq
    obtain ⟨entry, token, harchive, hresult⟩ :=
      accept_accepted h.isSealed h.jis a frame (some (bus.nextExpectedSeq, payload.seq))
    rw [← Prod.eta (bus.receive payload), hgap]
    exact ⟨entry, token, harchive, .inr ⟨_, _, hresult⟩⟩

/-- What it does with a payload it does not accept: nothing. -/
theorem process_refused {bus : VirtualBus} {payload : BusPayload}
    (h : ¬ Accepts cfg bus payload) (a : Archivaris) (frame : TibetMuxFrame) :
    (process cfg a bus payload frame).1 = a ∧
      (process cfg a bus payload frame).2.2.isArchived = false := by
  unfold process
  cases hfits : bus.fits payload with
  | false =>
    have hrefused := (bus.receive_refused hfits).2
    rw [← Prod.eta (bus.receive payload)]
    cases hresult : (bus.receive payload).2 with
    | busClosed => exact ⟨rfl, rfl⟩
    | payloadTooLarge size max => exact ⟨rfl, rfl⟩
    | delivered p =>
      rw [hresult] at hrefused
      cases hrefused
    | sequenceGap expected received gapSize =>
      rw [hresult] at hrefused
      cases hrefused
  | true =>
    have hdenied : ¬ (verifyVoorproeverSeal payload = true ∧
        (cfg.jisSigningPerAction = true → jisCheck payload = none)) :=
      fun hpass => h ⟨hfits, hpass.1, hpass.2⟩
    by_cases hseq : payload.seq = bus.nextExpectedSeq
    · obtain ⟨bus', hreceive⟩ := bus.receive_delivered hfits hseq
      rw [hreceive]
      exact accept_denied hdenied a frame none
    · obtain ⟨gapSize, hgap⟩ := bus.receive_gap hfits hseq
      rw [← Prod.eta (bus.receive payload), hgap]
      exact accept_denied hdenied a frame _

/-- Kernel B archives exactly what it accepts. -/
theorem process_isArchived_iff (a : Archivaris) (bus : VirtualBus) (payload : BusPayload)
    (frame : TibetMuxFrame) :
    (process cfg a bus payload frame).2.2.isArchived = true ↔ Accepts cfg bus payload := by
  by_cases h : Accepts cfg bus payload
  · obtain ⟨entry, token, -, hresult⟩ := process_accepted h a frame
    refine ⟨fun _ => h, fun _ => ?_⟩
    rcases hresult with hresult | ⟨expected, received, hresult⟩ <;> rw [hresult] <;> rfl
  · rw [(process_refused h a frame).2]
    exact ⟨fun harchived => (nomatch harchived), fun haccepts => absurd haccepts h⟩

end Archivaris

/-! ## Kernel A -/

namespace Voorproever

/-- Kernel A passes a frame: it knows the intent and the monitor saw no violation. -/
structure Passes (cfg : TrustKernelConfig) (frame : TibetMuxFrame) : Prop where
  known : isKnownIntent frame.intent = true
  clean : (monitorOf cfg frame).violations = []

variable {cfg : TrustKernelConfig} {frame : TibetMuxFrame}

/-- A passed frame is stamped as the next payload. -/
theorem evaluate_pass (h : Passes cfg frame) (bus : VirtualBus) (watchdog : Watchdog)
    (stampedAtNs respondedAtNs : UInt64) :
    let monitor := monitorOf cfg frame
    let stamped := bus.stampPayload stampedAtNs frame.intent frame.payload frame.fromAint
      monitor.observedSyscalls (computeFira cfg)
    evaluate cfg bus watchdog stampedAtNs respondedAtNs frame =
      (stamped.1, watchdog.kernelAResponded respondedAtNs,
        .pass stamped.2 monitor.observedSyscalls.length) := by
  simp only [evaluate, h.known, h.clean, List.isEmpty_nil, Bool.not_true, Bool.false_eq_true,
    if_false]

/-- Any other frame leaves the bus as it is and is rejected or killed. -/
theorem evaluate_refuse (h : ¬ Passes cfg frame) (bus : VirtualBus) (watchdog : Watchdog)
    (stampedAtNs respondedAtNs : UInt64) :
    ∃ watchdog' verdict,
      evaluate cfg bus watchdog stampedAtNs respondedAtNs frame = (bus, watchdog', verdict) ∧
        ((∃ reason, verdict = .reject reason) ∨
          ∃ reason violations observed, verdict = .kill reason violations observed) := by
  unfold evaluate
  cases hknown : isKnownIntent frame.intent with
  | false => exact ⟨_, _, rfl, .inl ⟨_, rfl⟩⟩
  | true =>
    have hdirty : (monitorOf cfg frame).violations.isEmpty = false := by
      rw [List.isEmpty_eq_false_iff]
      exact fun hclean => h ⟨hknown, hclean⟩
    simp only [Bool.not_true, Bool.false_eq_true, if_false, hdirty, Bool.not_false, if_true]
    exact ⟨_, _, rfl, .inr ⟨_, _, _, rfl⟩⟩

end Voorproever

/-- A stamped payload has the seal that Kernel B looks for. -/
theorem stampPayload_isSealed (bus : VirtualBus) (elapsedNs : UInt64)
    (intent payload fromAint : String) (syscalls : List String) (firaScore : Float) :
    Archivaris.verifyVoorproeverSeal
      (bus.stampPayload elapsedNs intent payload fromAint syscalls firaScore).2 = true := by
  simp only [Archivaris.verifyVoorproeverSeal, VirtualBus.stampPayload, startsWith]
  rw [List.isPrefixOf_iff_prefix]
  simp only [toString, String.toList_append, List.append_assoc]
  exact List.prefix_append _ _

theorem jisCheck_eq_none_iff (payload : BusPayload) :
    Archivaris.jisCheck payload = none ↔ payload.fromAint ≠ "" ∧ ¬ payload.firaScore < 0.3 := by
  unfold Archivaris.jisCheck
  split
  · next hempty => simp [hempty]
  · next hempty =>
    split
    · next hlow => simp [hlow]
    · next hlow => simp [hempty, hlow]

/-- Kernel B accepts the payload of a frame: the bus is open, the payload is not too large, and an
access check per action finds an identity and a sufficient FIR/A score. -/
structure Archivable (cfg : TrustKernelConfig) (bus : VirtualBus) (frame : TibetMuxFrame) :
    Prop where
  isOpen : bus.isOpen = true
  small : frame.payload.utf8ByteSize ≤ bus.maxPayloadBytes
  jis : cfg.jisSigningPerAction = true →
    frame.fromAint ≠ "" ∧ ¬ Voorproever.computeFira cfg < 0.3

/-- A stamped frame is accepted exactly when it is archivable. -/
theorem accepts_stamped_iff (cfg : TrustKernelConfig) (bus : VirtualBus) (frame : TibetMuxFrame)
    (elapsedNs : UInt64) (syscalls : List String) :
    let stamped := bus.stampPayload elapsedNs frame.intent frame.payload frame.fromAint syscalls
      (Voorproever.computeFira cfg)
    Archivaris.Accepts cfg stamped.1 stamped.2 ↔ Archivable cfg bus frame := by
  intro stamped
  have hfits : stamped.1.fits stamped.2 = true ↔
      bus.isOpen = true ∧ frame.payload.utf8ByteSize ≤ bus.maxPayloadBytes := by
    show (bus.isOpen && decide (frame.payload.utf8ByteSize ≤ bus.maxPayloadBytes)) = true ↔ _
    rw [Bool.and_eq_true, decide_eq_true_eq]
  have hjis : Archivaris.jisCheck stamped.2 = none ↔
      frame.fromAint ≠ "" ∧ ¬ Voorproever.computeFira cfg < 0.3 := jisCheck_eq_none_iff stamped.2
  constructor
  · intro h
    obtain ⟨hopen, hsmall⟩ := hfits.mp h.fits
    exact ⟨hopen, hsmall, fun hsign => hjis.mp (h.jis hsign)⟩
  · intro h
    refine ⟨hfits.mpr ⟨h.isOpen, h.small⟩, ?_, fun hsign => hjis.mpr (h.jis hsign)⟩
    exact stampPayload_isSealed bus elapsedNs frame.intent frame.payload frame.fromAint syscalls _

/-! ## One response -/

/-- Every component lets the frame pass. -/
structure Approved (cfg : TrustKernelConfig) (k : TrustKernel) (a : Arrival) : Prop where
  healthy : (k.watchdog.check a.checkedAtNs).2.isTriggered = false
  passes : Voorproever.Passes cfg a.frame
  archivable : Archivable cfg k.bus a.frame

/-- What Kernel B did not archive is answered with an error. -/
theorem respond_refused {result : ArchivarisResult} (h : result.isArchived = false)
    (frame : TibetMuxFrame) : ∃ r, respond frame result = [r] ∧ r.status ≠ 200 := by
  cases result with
  | success token busSeq => cases h
  | sequenceGap expected received result => cases h
  | busVerifyFailed reason busSeq => exact ⟨_, rfl, by simp [sendResponse]⟩
  | jisDenied reason busSeq => exact ⟨_, rfl, by simp [sendResponse]⟩
  | busClosed => exact ⟨_, rfl, by simp [sendResponse]⟩

theorem afterVerdict_pass (cfg : TrustKernelConfig) (bus : VirtualBus) (frame : TibetMuxFrame)
    (payload : BusPayload) (checked : Nat) :
    ∃ r, (afterVerdict cfg bus frame (.pass payload checked)).2 = [r] ∧
      (r.status = 200 ↔ Archivaris.Accepts cfg bus payload) := by
  simp only [afterVerdict]
  by_cases h : Archivaris.Accepts cfg bus payload
  · obtain ⟨entry, token, -, hresult⟩ := Archivaris.process_accepted h ⟨[]⟩ frame
    refine ⟨sendResponse frame token 200, ?_, fun _ => h, fun _ => rfl⟩
    rcases hresult with hresult | ⟨expected, received, hresult⟩ <;> rw [hresult] <;> rfl
  · obtain ⟨r, hr, hstatus⟩ := respond_refused (Archivaris.process_refused h ⟨[]⟩ frame).2 frame
    exact ⟨r, hr, fun h200 => absurd h200 hstatus, fun haccepts => absurd haccepts h⟩

/-- The handler sends one response, and it is 200 if and only if every component approves. -/
theorem handleFrame_responds (cfg : TrustKernelConfig) (k : TrustKernel) (a : Arrival) :
    ∃ r, (handleFrame cfg k a).2.responses = [r] ∧ (r.status = 200 ↔ Approved cfg k a) := by
  unfold handleFrame
  cases htriggered : (k.watchdog.check a.checkedAtNs).2.isTriggered with
  | true =>
    simp only [htriggered, if_true]
    refine ⟨_, rfl, fun h200 => ?_, fun h => ?_⟩
    · cases h200
    · rw [h.healthy] at htriggered
      cases htriggered
  | false =>
    simp only [htriggered, Bool.false_eq_true, if_false]
    by_cases hpass : Voorproever.Passes cfg a.frame
    · have heval := Voorproever.evaluate_pass hpass k.bus (k.watchdog.check a.checkedAtNs).1
        a.stampedAtNs a.respondedAtNs
      simp only [heval]
      obtain ⟨r, hr, hstatus⟩ := afterVerdict_pass cfg _ a.frame _
        (Voorproever.monitorOf cfg a.frame).observedSyscalls.length
      refine ⟨r, hr, hstatus.trans ((accepts_stamped_iff cfg k.bus a.frame _ _).trans ?_)⟩
      exact ⟨fun h => ⟨htriggered, hpass, h⟩, fun h => h.archivable⟩
    · obtain ⟨watchdog, verdict, heval, hverdict⟩ := Voorproever.evaluate_refuse hpass k.bus
        (k.watchdog.check a.checkedAtNs).1 a.stampedAtNs a.respondedAtNs
      simp only [heval]
      rcases hverdict with ⟨reason, rfl⟩ | ⟨reason, violations, observed, rfl⟩
      · exact ⟨_, rfl, fun h200 => (nomatch h200), fun h => absurd h.passes hpass⟩
      · exact ⟨_, rfl, fun h200 => (nomatch h200), fun h => absurd h.passes hpass⟩

/-- One run of the frame handler sends one response, 200 if and only if every component approves;
Kernel B reports a gap only around a success, and its archive grows by one entry for a success or
a gap and by none otherwise. -/
theorem frames_answered (cfg : TrustKernelConfig) :
    (∀ k a, ∃ r, (handleFrame cfg k a).2.responses = [r] ∧ (r.status = 200 ↔ Approved cfg k a)) ∧
    ∀ archivaris bus payload frame,
      let out := Archivaris.process cfg archivaris bus payload frame
      (∀ expected received inner, out.2.2 = .sequenceGap expected received inner →
        ∃ token busSeq, inner = .success token busSeq) ∧
      (out.2.2.isArchived = true → ∃ entry, out.1.archive = archivaris.archive ++ [entry]) ∧
      (out.2.2.isArchived = false → out.1 = archivaris) := by
  refine ⟨handleFrame_responds cfg, ?_⟩
  intro archivaris bus payload frame out
  by_cases h : Archivaris.Accepts cfg bus payload
  · obtain ⟨entry, token, harchive, hresult⟩ := Archivaris.process_accepted h archivaris frame
    have harchived := (Archivaris.process_isArchived_iff archivaris bus payload frame).mpr h
    refine ⟨?_, fun _ => ⟨entry, harchive⟩, fun hnot => ?_⟩
    · intro expected received inner hgap
      rcases hresult with hresult | ⟨expected', received', hresult⟩
      · cases hresult.symm.trans hgap
      · cases hresult.symm.trans hgap
        exact ⟨token, payload.seq, rfl⟩
    · cases harchived.symm.trans hnot
  · obtain ⟨hsame, hrefused⟩ := Archivaris.process_refused h archivaris frame
    refine ⟨?_, fun harchived => ?_, fun _ => hsame⟩
    · intro expected received inner hgap
      have hfalse : (ArchivarisResult.sequenceGap expected received inner).isArchived = false :=
        hgap ▸ hrefused
      cases hfalse
    · cases hrefused.symm.trans harchived

end Spaceshuttle.Kernel
