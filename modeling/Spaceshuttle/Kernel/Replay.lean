import Mathlib.Data.List.Pairwise
import Spaceshuttle.Kernel.Bus
import Spaceshuttle.Lib.Machine

/-!
# Replays on the bus

Payloads are stamped in one task and received in another, so they can reach Kernel B in any order.
The receiver keeps one number, the one after the last payload it let through, and lets every
payload through that fits. It is monotone, lets no number through twice and reports only real gaps
exactly when the payloads that fit come in increasing order.
-/

namespace Spaceshuttle.Kernel

/-- The payload was let through to Kernel B. -/
def BusResult.isAccepted : BusResult → Bool
  | .delivered _ => true
  | .sequenceGap _ _ _ => true
  | _ => false

/-- `u64::MAX`. -/
def u64Max : UInt64 := 18446744073709551615

/-- Below the maximum the next number does not wrap. -/
theorem toNat_succ {s : UInt64} (h : s < u64Max) : (s + 1).toNat = s.toNat + 1 := by
  have hlt : s.toNat < 18446744073709551615 := UInt64.lt_iff_toNat_lt.mp h
  rw [UInt64.toNat_add]
  simp only [UInt64.reduceToNat]
  omega

namespace VirtualBus

/-- The bus is open and the payload is not too large. -/
def fits (bus : VirtualBus) (payload : BusPayload) : Bool :=
  bus.isOpen && decide (payload.payload.utf8ByteSize ≤ bus.maxPayloadBytes)

/-- The sequence numbers let through in a run of `receive`, in order. -/
def acceptedSeqs (bus : VirtualBus) (payloads : List BusPayload) : List UInt64 :=
  ((Machine.history receive bus payloads).filter (fun e => e.2.isAccepted)).map (fun e => e.1.seq)

/-- Anti-replay over a run: no number is let through twice, the expected number never decreases,
and a gap is reported only ahead of it. -/
structure AntiReplay (bus : VirtualBus) (payloads : List BusPayload) : Prop where
  once : (bus.acceptedSeqs payloads).Nodup
  monotone : ∀ pre p post, payloads = pre ++ p :: post →
    (Machine.run receive bus pre).nextExpectedSeq ≤
      (Machine.run receive bus (pre ++ [p])).nextExpectedSeq
  forward : ∀ e ∈ Machine.history receive bus payloads, ∀ expected received gapSize,
    e.2 = .sequenceGap expected received gapSize → expected < received

/-- The payloads that fit arrive in increasing order, from the expected number on. -/
def InSequence (bus : VirtualBus) (payloads : List BusPayload) : Prop :=
  (payloads.filter bus.fits).Pairwise (fun p q => p.seq < q.seq) ∧
    ∀ p ∈ payloads, bus.fits p = true → bus.nextExpectedSeq ≤ p.seq

/-! ## One payload -/

variable {bus : VirtualBus} {p : BusPayload} {payloads : List BusPayload}

/-- A payload that does not fit changes nothing and is not let through. -/
theorem receive_refused (h : bus.fits p = false) :
    (bus.receive p).1 = bus ∧ (bus.receive p).2.isAccepted = false := by
  unfold receive
  by_cases hopen : bus.isOpen
  · have hlarge : p.payload.utf8ByteSize > bus.maxPayloadBytes := by
      simpa [fits, hopen] using h
    simp [hopen, hlarge, BusResult.isAccepted]
  · simp [hopen, BusResult.isAccepted]

/-- A payload that fits is let through whatever its number is, and the next one is expected. -/
theorem receive_accepted (h : bus.fits p = true) :
    (bus.receive p).1.nextExpectedSeq = p.seq + 1 ∧ (bus.receive p).2.isAccepted = true ∧
      ∀ expected received gapSize, (bus.receive p).2 = .sequenceGap expected received gapSize →
        expected = bus.nextExpectedSeq ∧ received = p.seq ∧ p.seq ≠ bus.nextExpectedSeq := by
  simp only [fits, Bool.and_eq_true, decide_eq_true_eq] at h
  obtain ⟨hopen, hsize⟩ := h
  unfold receive
  simp only [hopen, Bool.not_true, Bool.false_eq_true, if_false, Nat.not_lt.mpr hsize]
  by_cases hseq : p.seq ≠ bus.nextExpectedSeq
  · rw [if_pos hseq]
    refine ⟨rfl, rfl, ?_⟩
    rintro expected received gapSize ⟨⟩
    exact ⟨rfl, rfl, hseq⟩
  · rw [if_neg hseq]
    refine ⟨rfl, rfl, ?_⟩
    rintro expected received gapSize ⟨⟩

/-- A payload that fits on the expected number is delivered. -/
theorem receive_delivered (h : bus.fits p = true) (hseq : p.seq = bus.nextExpectedSeq) :
    ∃ bus', bus.receive p = (bus', .delivered p) := by
  simp only [fits, Bool.and_eq_true, decide_eq_true_eq] at h
  obtain ⟨hopen, hsize⟩ := h
  unfold receive
  simp only [hopen, Bool.not_true, Bool.false_eq_true, if_false, Nat.not_lt.mpr hsize, hseq, ne_eq,
    not_true_eq_false]
  exact ⟨_, rfl⟩

/-- A payload that fits off the expected number is reported as a gap. -/
theorem receive_gap (h : bus.fits p = true) (hseq : p.seq ≠ bus.nextExpectedSeq) :
    ∃ gapSize, (bus.receive p).2 = .sequenceGap bus.nextExpectedSeq p.seq gapSize := by
  simp only [fits, Bool.and_eq_true, decide_eq_true_eq] at h
  obtain ⟨hopen, hsize⟩ := h
  unfold receive
  simp only [hopen, Bool.not_true, Bool.false_eq_true, if_false, Nat.not_lt.mpr hsize,
    if_pos hseq]
  exact ⟨_, rfl⟩

theorem receive_fits (bus : VirtualBus) (p : BusPayload) : (bus.receive p).1.fits = bus.fits := by
  unfold receive
  split
  · rfl
  · dsimp only
    split
    · rfl
    · split <;> rfl

/-! ## Runs -/

theorem acceptedSeqs_cons (bus : VirtualBus) (p : BusPayload) (payloads : List BusPayload) :
    bus.acceptedSeqs (p :: payloads) =
      (if bus.fits p then [p.seq] else []) ++ (bus.receive p).1.acceptedSeqs payloads := by
  unfold acceptedSeqs
  rw [Machine.history]
  cases h : bus.fits p with
  | false =>
    rw [List.filter_cons_of_neg (by simp [(receive_refused h).2])]
    rfl
  | true =>
    rw [List.filter_cons_of_pos (by simp [(receive_accepted h).2.1])]
    rfl

/-- Everything that fits is let through. -/
theorem acceptedSeqs_eq (bus : VirtualBus) (payloads : List BusPayload) :
    bus.acceptedSeqs payloads = (payloads.filter bus.fits).map BusPayload.seq := by
  induction payloads generalizing bus with
  | nil => rfl
  | cons p payloads ih =>
    rw [acceptedSeqs_cons, ih, receive_fits, List.filter_cons]
    cases bus.fits p <;> rfl

/-- In a sequence the first payload is not behind, and the rest is in sequence after it. -/
theorem inSequence_cons (hp : p.seq < u64Max) :
    bus.InSequence (p :: payloads) ↔
      (bus.fits p = true → bus.nextExpectedSeq ≤ p.seq) ∧
        (bus.receive p).1.InSequence payloads := by
  unfold InSequence
  rw [receive_fits, List.filter_cons, List.forall_mem_cons]
  cases h : bus.fits p with
  | false =>
    rw [(receive_refused h).1]
    simp
  | true =>
    have hsucc : ∀ q : BusPayload, p.seq + 1 ≤ q.seq ↔ p.seq < q.seq := by
      intro q
      rw [UInt64.le_iff_toNat_le, UInt64.lt_iff_toNat_lt, toNat_succ hp]
      omega
    rw [(receive_accepted h).1, if_pos rfl, List.pairwise_cons]
    simp only [List.mem_filter, and_imp, forall_const, hsucc]
    constructor
    · rintro ⟨⟨hlt, hpair⟩, hle, hge⟩
      exact ⟨hle, hpair, hlt⟩
    · rintro ⟨hle, hpair, hlt⟩
      refine ⟨⟨hlt, hpair⟩, hle, ?_⟩
      intro q hq hfits
      exact UInt64.le_of_lt (UInt64.lt_of_le_of_lt hle (hlt q hq hfits))

/-- If all reported gaps are ahead, the payloads come in sequence. -/
theorem inSequence_of_forward (hmax : ∀ p ∈ payloads, p.seq < u64Max)
    (h : ∀ e ∈ Machine.history receive bus payloads, ∀ expected received gapSize,
      e.2 = .sequenceGap expected received gapSize → expected < received) :
    bus.InSequence payloads := by
  induction payloads generalizing bus with
  | nil => exact ⟨.nil, fun _ h => (nomatch h)⟩
  | cons p payloads ih =>
    rw [inSequence_cons (hmax p (by simp))]
    rw [Machine.history] at h
    refine ⟨?_, ih (fun q hq => hmax q (by simp [hq])) (fun e he => h e (by simp [he]))⟩
    intro hfits
    by_cases hseq : p.seq = bus.nextExpectedSeq
    · rw [hseq]
      exact UInt64.le_refl _
    · obtain ⟨gapSize, hgap⟩ := receive_gap hfits hseq
      exact UInt64.le_of_lt (h (p, _) (by simp) _ _ _ hgap)

/-- A payload in sequence moves the expected number up or leaves it. -/
theorem receive_monotone (hp : p.seq < u64Max)
    (h : bus.fits p = true → bus.nextExpectedSeq ≤ p.seq) :
    bus.nextExpectedSeq ≤ (bus.receive p).1.nextExpectedSeq := by
  cases hfits : bus.fits p with
  | false =>
    rw [(receive_refused hfits).1]
    exact UInt64.le_refl _
  | true =>
    rw [(receive_accepted hfits).1]
    have hle := UInt64.le_iff_toNat_le.mp (h hfits)
    rw [UInt64.le_iff_toNat_le, toNat_succ hp]
    omega

theorem monotone_of_inSequence (hmax : ∀ p ∈ payloads, p.seq < u64Max)
    (h : bus.InSequence payloads) (pre : List BusPayload) (p : BusPayload) (post : List BusPayload)
    (hsplit : payloads = pre ++ p :: post) :
    (Machine.run receive bus pre).nextExpectedSeq ≤
      (Machine.run receive bus (pre ++ [p])).nextExpectedSeq := by
  induction pre generalizing bus payloads with
  | nil =>
    subst hsplit
    have hp := hmax p (by simp)
    exact receive_monotone hp ((inSequence_cons hp).mp h).1
  | cons q pre ih =>
    subst hsplit
    have hq := hmax q (by simp)
    exact ih (fun r hr => hmax r (List.mem_cons_of_mem q hr)) ((inSequence_cons hq).mp h).2 rfl

theorem forward_of_inSequence (hmax : ∀ p ∈ payloads, p.seq < u64Max)
    (h : bus.InSequence payloads) : ∀ e ∈ Machine.history receive bus payloads,
      ∀ expected received gapSize, e.2 = .sequenceGap expected received gapSize →
        expected < received := by
  induction payloads generalizing bus with
  | nil => exact fun _ he => (nomatch he)
  | cons p payloads ih =>
    obtain ⟨hfirst, hrest⟩ := (inSequence_cons (hmax p (by simp))).mp h
    rw [Machine.history, List.forall_mem_cons]
    refine ⟨?_, ih (fun q hq => hmax q (by simp [hq])) hrest⟩
    intro expected received gapSize hgap
    cases hfits : bus.fits p with
    | false =>
      have hrefused := (receive_refused hfits).2
      rw [hgap] at hrefused
      cases hrefused
    | true =>
      obtain ⟨rfl, rfl, hne⟩ := (receive_accepted hfits).2.2 _ _ _ hgap
      exact UInt64.lt_of_le_of_ne (hfirst hfits) hne.symm

/-- The bus is safe against replays in a run if and only if the payloads that fit arrive in
sequence. -/
theorem antiReplay_iff (bus : VirtualBus) (payloads : List BusPayload)
    (hmax : ∀ p ∈ payloads, p.seq < u64Max) :
    bus.AntiReplay payloads ↔ bus.InSequence payloads := by
  constructor
  · intro h
    exact inSequence_of_forward hmax h.forward
  · intro h
    refine ⟨?_, monotone_of_inSequence hmax h, forward_of_inSequence hmax h⟩
    rw [acceptedSeqs_eq, List.Nodup, List.pairwise_map]
    exact h.1.imp (fun hlt => UInt64.ne_of_lt hlt)

/-- An approved frame as stamped with the given number. -/
def numbered (seq : UInt64) : BusPayload where
  seq := seq
  intent := "math_calculation"
  payload := "2 + 2"
  fromAint := "agent.aint"
  voorproeverSeal := s!"vp_seal_seq{seq}_0"
  observedSyscalls := ["sys_execve"]
  firaScore := 0.85
  approvedAtNs := 0

theorem numbered_fits (seq : UInt64) : (new 1024).fits (numbered seq) = true := by
  show (true && decide ("2 + 2".utf8ByteSize ≤ 1024)) = true
  decide

theorem antiReplay_with_gap : (new 1024).AntiReplay [numbered 0, numbered 1, numbered 5] := by
  have hmax : ∀ p ∈ [numbered 0, numbered 1, numbered 5], p.seq < u64Max := by
    simp [numbered, u64Max]
  refine (antiReplay_iff (new 1024) _ hmax).mpr ⟨?_, ?_⟩
  · simp only [List.filter_cons, numbered_fits, if_true, List.filter_nil]
    simp [numbered]
  · simp [new, numbered]

/-- A replay of the first payload is let through, moves the expected number back and is reported
as a gap behind it. -/
theorem replayed_payload_accepted :
    (new 1024).acceptedSeqs [numbered 0, numbered 1, numbered 0] = [0, 1, 0] ∧
      ¬ (new 1024).AntiReplay [numbered 0, numbered 1, numbered 0] := by
  have hseqs : (new 1024).acceptedSeqs [numbered 0, numbered 1, numbered 0] = [0, 1, 0] := by
    rw [acceptedSeqs_eq]
    simp only [List.filter_cons, numbered_fits, if_true, List.filter_nil]
    rfl
  refine ⟨hseqs, ?_⟩
  intro h
  have honce := h.once
  rw [hseqs] at honce
  exact absurd honce (by decide)

end VirtualBus

end Spaceshuttle.Kernel
