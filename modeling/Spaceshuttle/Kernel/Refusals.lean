import Spaceshuttle.Kernel.Pipeline

/-!
# Refused payloads

`Archivaris::process` receives a payload from the bus before it looks at the seal and at the access
check. This module says which refusals leave the bus as it was, and what the others cost the
payloads that come later.
-/

namespace Spaceshuttle.Kernel

/-- The result is `BusVerifyFailed` or `JisDenied`. -/
def ArchivarisResult.isRefusal : ArchivarisResult → Bool
  | .busVerifyFailed _ _ => true
  | .jisDenied _ _ => true
  | _ => false

namespace Archivaris

/-- Kernel B and the bus it reads from, handed one payload. -/
def handle (cfg : TrustKernelConfig) (s : Archivaris × VirtualBus)
    (input : BusPayload × TibetMuxFrame) : (Archivaris × VirtualBus) × ArchivarisResult :=
  let (a, bus, result) := process cfg s.1 s.2 input.1 input.2
  ((a, bus), result)

/-- If the payload is refused, archive and bus are as before, and whatever comes later is answered
as if it had not been there. -/
structure LeavesNoTrace (cfg : TrustKernelConfig) (s : Archivaris × VirtualBus)
    (input : BusPayload × TibetMuxFrame) : Prop where
  archive : (handle cfg s input).2.isRefusal = true → (handle cfg s input).1.1 = s.1
  bus : (handle cfg s input).2.isRefusal = true → (handle cfg s input).1.2 = s.2
  later : (handle cfg s input).2.isRefusal = true → ∀ inputs,
    Machine.history (handle cfg) (handle cfg s input).1 inputs =
      Machine.history (handle cfg) s inputs

/-- The payload is refused once the bus has let it through: its seal is bad, or the access check
denies it. -/
def Denied (cfg : TrustKernelConfig) (payload : BusPayload) : Prop :=
  verifyVoorproeverSeal payload = false ∨
    cfg.jisSigningPerAction = true ∧ jisCheck payload ≠ none

variable {cfg : TrustKernelConfig} {payload : BusPayload}

theorem accepts_of_not_denied {bus : VirtualBus} (hfits : bus.fits payload = true)
    (h : ¬ Denied cfg payload) : Accepts cfg bus payload := by
  rw [Denied, not_or, not_and, not_ne_iff] at h
  exact ⟨hfits, eq_true_of_ne_false h.1, h.2⟩

theorem accept_isRefusal (h : Denied cfg payload) (a : Archivaris) (frame : TibetMuxFrame)
    (seqGap : Option (UInt64 × UInt64)) :
    (accept cfg a payload frame seqGap).2.isRefusal = true := by
  unfold accept
  cases hseal : verifyVoorproeverSeal payload with
  | false => rfl
  | true =>
    obtain ⟨hsign, hcheck⟩ := h.resolve_left (by rw [hseal]; exact Bool.noConfusion)
    obtain ⟨reason, hreason⟩ := Option.ne_none_iff_exists'.mp hcheck
    simp [hsign, hreason, ArchivarisResult.isRefusal]

/-- The bus has counted every payload it let through. -/
theorem receive_passed {bus : VirtualBus} (h : bus.fits payload = true) :
    (bus.receive payload).1.stats.payloadsPassed = bus.stats.payloadsPassed + 1 := by
  by_cases hseq : payload.seq = bus.nextExpectedSeq
  all_goals
    simp only [VirtualBus.fits, Bool.and_eq_true, decide_eq_true_eq] at h
    simp [VirtualBus.receive, h.1, Nat.not_lt.mpr h.2, hseq]

theorem handle_refused {s : Archivaris × VirtualBus} (frame : TibetMuxFrame)
    (hfits : s.2.fits payload = true) (hdenied : Denied cfg payload) :
    (handle cfg s (payload, frame)).2.isRefusal = true ∧
      (handle cfg s (payload, frame)).1.2 = (s.2.receive payload).1 := by
  unfold handle process
  by_cases hseq : payload.seq = s.2.nextExpectedSeq
  · obtain ⟨bus', hreceive⟩ := s.2.receive_delivered hfits hseq
    simp only [hreceive]
    exact ⟨accept_isRefusal hdenied s.1 frame none, trivial⟩
  · obtain ⟨gapSize, hgap⟩ := s.2.receive_gap hfits hseq
    rcases hreceive : s.2.receive payload with ⟨bus', result⟩
    rw [hreceive] at hgap
    obtain rfl : result = _ := hgap
    exact ⟨accept_isRefusal hdenied s.1 frame _, rfl⟩

/-- A payload that does not fit is refused without a trace; a closed bus is no refusal. -/
theorem handle_unfit {s : Archivaris × VirtualBus} (frame : TibetMuxFrame)
    (hfits : s.2.fits payload = false) : (handle cfg s (payload, frame)).1 = s := by
  obtain ⟨hsame, hrefused⟩ := s.2.receive_refused hfits
  unfold handle process
  rcases hreceive : s.2.receive payload with ⟨bus', result⟩
  rw [hreceive] at hsame hrefused
  obtain rfl : bus' = s.2 := hsame
  cases result with
  | busClosed => rfl
  | payloadTooLarge size max => rfl
  | delivered p => cases hrefused
  | sequenceGap expected received gapSize => cases hrefused

/-- A refusal leaves no trace exactly if it is made before the payload is received: the bus is
closed or the payload is too large, or the payload is not refused at all. -/
theorem refusals_traceless_iff (cfg : TrustKernelConfig) (a : Archivaris) (bus : VirtualBus)
    (payload : BusPayload) (frame : TibetMuxFrame) :
    LeavesNoTrace cfg (a, bus) (payload, frame) ↔
      ¬ (bus.fits payload = true ∧ Denied cfg payload) := by
  constructor
  · rintro htrace ⟨hfits, hdenied⟩
    obtain ⟨hrefusal, hreceived⟩ := handle_refused (s := (a, bus)) frame hfits hdenied
    have hpassed := receive_passed hfits
    rw [← hreceived, htrace.bus hrefusal] at hpassed
    have hone : (1 : UInt64) = 0 := UInt64.left_eq_add.mp hpassed
    exact absurd hone (by decide)
  · intro hnot
    have hsame : (handle cfg (a, bus) (payload, frame)).2.isRefusal = true →
        (handle cfg (a, bus) (payload, frame)).1 = (a, bus) := by
      intro hrefusal
      cases hfits : bus.fits payload with
      | false => exact handle_unfit (s := (a, bus)) frame hfits
      | true =>
        have haccepts := accepts_of_not_denied hfits fun hdenied => hnot ⟨hfits, hdenied⟩
        obtain ⟨entry, token, -, hresult | ⟨expected, received, hresult⟩⟩ :=
          process_accepted haccepts a frame
        · simp only [handle, hresult] at hrefusal
          cases hrefusal
        · simp only [handle, hresult] at hrefusal
          cases hrefusal
    refine ⟨fun h => ?_, fun h => ?_, fun h inputs => ?_⟩
    · rw [hsame h]
    · rw [hsame h]
    · rw [hsame h]

/-- A payload that is accepted, by its number. -/
theorem handle_accepted {s : Archivaris × VirtualBus} (h : Accepts cfg s.2 payload)
    (frame : TibetMuxFrame) :
    (payload.seq = s.2.nextExpectedSeq →
      ∃ token, (handle cfg s (payload, frame)).2 = .success token payload.seq) ∧
    (payload.seq ≠ s.2.nextExpectedSeq →
      ∃ result, (handle cfg s (payload, frame)).2 =
        .sequenceGap s.2.nextExpectedSeq payload.seq result) := by
  unfold handle process
  refine ⟨fun hseq => ?_, fun hseq => ?_⟩
  · obtain ⟨bus', hreceive⟩ := s.2.receive_delivered h.fits hseq
    obtain ⟨-, token, -, hresult⟩ := accept_accepted h.isSealed h.jis s.1 frame none
    simp only [hreceive]
    exact ⟨token, hresult⟩
  · obtain ⟨gapSize, hgap⟩ := s.2.receive_gap h.fits hseq
    obtain ⟨-, token, -, hresult⟩ :=
      accept_accepted h.isSealed h.jis s.1 frame (some (s.2.nextExpectedSeq, payload.seq))
    rcases hreceive : s.2.receive payload with ⟨bus', result⟩
    rw [hreceive] at hgap
    obtain rfl : result = _ := hgap
    exact ⟨_, hresult⟩

/-- A payload that nobody sealed, with a number of its own choice. -/
def forged : BusPayload := { VirtualBus.numbered 100 with voorproeverSeal := "" }

/-- Kernel B and its bus at the start. -/
def fresh : Archivaris × VirtualBus := (⟨[]⟩, VirtualBus.new 1024)

/-- The frame of a payload, which only ends up in the token. -/
def sumFrame : TibetMuxFrame := ⟨0, "math_calculation", "agent.aint", "2 + 2"⟩

theorem accepts_numbered {bus : VirtualBus} {seq : UInt64}
    (hfits : bus.fits (VirtualBus.numbered seq) = true) :
    Accepts .fast bus (VirtualBus.numbered seq) := by
  refine ⟨hfits, ?_, fun hjis => nomatch hjis⟩
  simp only [verifyVoorproeverSeal, VirtualBus.numbered, startsWith]
  rw [List.isPrefixOf_iff_prefix]
  simp only [toString, String.toList_append, List.append_assoc]
  exact List.prefix_append _ _

/-- The forged payload is refused. The first genuine one is then reported as a gap behind payload
100; without the forged one it is a plain success. -/
theorem forged_payload_leaves_gap :
    (handle .fast fresh (forged, sumFrame)).2.isRefusal = true ∧
      (∃ result, (handle .fast (handle .fast fresh (forged, sumFrame)).1
        (VirtualBus.numbered 0, sumFrame)).2 = .sequenceGap 101 0 result) ∧
      (∃ token, (handle .fast fresh (VirtualBus.numbered 0, sumFrame)).2 = .success token 0) ∧
      ¬ LeavesNoTrace .fast fresh (forged, sumFrame) := by
  have hfits : fresh.2.fits forged = true := VirtualBus.numbered_fits 100
  have hdenied : Denied .fast forged := .inl (by decide)
  obtain ⟨hrefusal, hbus⟩ := handle_refused (s := fresh) sumFrame hfits hdenied
  have hnext : (handle .fast fresh (forged, sumFrame)).1.2.nextExpectedSeq = 101 := by
    rw [hbus, (VirtualBus.receive_accepted hfits).1]
    rfl
  refine ⟨hrefusal, ?_, ?_, fun htrace => ?_⟩
  · have hgenuine : (handle .fast fresh (forged, sumFrame)).1.2.fits (VirtualBus.numbered 0) =
        true := by
      rw [hbus, VirtualBus.receive_fits]
      exact VirtualBus.numbered_fits 0
    obtain ⟨result, hresult⟩ := (handle_accepted (accepts_numbered hgenuine) sumFrame).2
      (by rw [hnext]; decide)
    rw [hnext] at hresult
    exact ⟨result, hresult⟩
  · exact (handle_accepted (s := fresh) (accepts_numbered (VirtualBus.numbered_fits 0))
      sumFrame).1 rfl
  · rw [htrace.bus hrefusal] at hnext
    cases hnext

end Archivaris

end Spaceshuttle.Kernel
