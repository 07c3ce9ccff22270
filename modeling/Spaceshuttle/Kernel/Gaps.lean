import Spaceshuttle.Kernel.Replay

/-!
# Gaps on the bus

The receiver compares every payload that it lets through with the one before. Payloads that it refuses,
and the bus being closed and opened in between, leave no trace.
-/

namespace Spaceshuttle.Kernel

/-- The operations on the bus. -/
inductive BusOp where
  | stamp (elapsedNs : UInt64) (intent payload fromAint : String) (syscalls : List String)
      (firaScore : Float)
  | receive (payload : BusPayload)
  | shutdown
  | reopen

/-- Run an operation. -/
def busStep (bus : VirtualBus) : BusOp → VirtualBus × Option BusResult
  | .stamp elapsedNs intent payload fromAint syscalls firaScore =>
      ((bus.stampPayload elapsedNs intent payload fromAint syscalls firaScore).1, none)
  | .receive payload =>
      let out := bus.receive payload
      (out.1, some out.2)
  | .shutdown => (bus.shutdown, none)
  | .reopen => (bus.reopen, none)

/-! ## What has happened -/

/-- The bus is open after the operations. -/
def openAfter : Bool → List BusOp → Bool
  | isOpen, [] => isOpen
  | _, .shutdown :: ops => openAfter false ops
  | _, .reopen :: ops => openAfter true ops
  | isOpen, .stamp .. :: ops => openAfter isOpen ops
  | isOpen, .receive _ :: ops => openAfter isOpen ops

/-- The payload is within the size limit. -/
def withinLimit (maxPayloadBytes : Nat) (payload : BusPayload) : Bool :=
  decide (payload.payload.utf8ByteSize ≤ maxPayloadBytes)

/-- The payloads within the limit that are received while the bus is open, in order. -/
def receivedBy (maxPayloadBytes : Nat) : Bool → List BusOp → List BusPayload
  | _, [] => []
  | _, .shutdown :: ops => receivedBy maxPayloadBytes false ops
  | _, .reopen :: ops => receivedBy maxPayloadBytes true ops
  | isOpen, .stamp .. :: ops => receivedBy maxPayloadBytes isOpen ops
  | isOpen, .receive payload :: ops =>
      if isOpen && withinLimit maxPayloadBytes payload then
        payload :: receivedBy maxPayloadBytes isOpen ops
      else receivedBy maxPayloadBytes isOpen ops

/-- The number after that of the last payload, and 0 before the first. -/
def numberAfter (payloads : List BusPayload) : Nat :=
  (payloads.getLast?.map fun p => p.seq.toNat + 1).getD 0

/-- How many of the payloads do not have the number after the one before. -/
def gapsFrom (expected : Nat) : List BusPayload → Nat
  | [] => 0
  | p :: payloads => (if p.seq.toNat = expected then 0 else 1) + gapsFrom (p.seq.toNat + 1) payloads

section Appending

variable {maxPayloadBytes : Nat} {isOpen : Bool}

theorem openAfter_concat (isOpen : Bool) (ops : List BusOp) (op : BusOp) :
    openAfter isOpen (ops ++ [op]) = openAfter (openAfter isOpen ops) [op] := by
  induction ops generalizing isOpen with
  | nil => rfl
  | cons first ops ih => cases first <;> exact ih _

theorem receivedBy_concat (isOpen : Bool) (ops : List BusOp) (op : BusOp) :
    receivedBy maxPayloadBytes isOpen (ops ++ [op]) =
      receivedBy maxPayloadBytes isOpen ops ++
        receivedBy maxPayloadBytes (openAfter isOpen ops) [op] := by
  induction ops generalizing isOpen with
  | nil => rfl
  | cons first ops ih =>
    cases first with
    | stamp elapsedNs intent payload fromAint syscalls firaScore => exact ih isOpen
    | shutdown => exact ih false
    | reopen => exact ih true
    | receive payload =>
      rw [List.cons_append, receivedBy, receivedBy, openAfter, ih]
      split <;> rfl

/-- What was received stays received. -/
theorem receivedBy_append_left {p : BusPayload} {ops later : List BusOp}
    (h : p ∈ receivedBy maxPayloadBytes isOpen ops) :
    p ∈ receivedBy maxPayloadBytes isOpen (ops ++ later) := by
  induction later using List.reverseRecOn with
  | nil => rwa [List.append_nil]
  | append_singleton later op ih =>
    rw [← List.append_assoc, receivedBy_concat]
    exact List.mem_append_left _ ih

theorem numberAfter_concat (payloads : List BusPayload) (p : BusPayload) :
    numberAfter (payloads ++ [p]) = p.seq.toNat + 1 := by
  rw [numberAfter, List.getLast?_append]
  rfl

theorem gapsFrom_concat (payloads : List BusPayload) (p : BusPayload) :
    gapsFrom 0 (payloads ++ [p]) =
      gapsFrom 0 payloads + if p.seq.toNat = numberAfter payloads then 0 else 1 := by
  have hgeneral : ∀ expected, gapsFrom expected (payloads ++ [p]) = gapsFrom expected payloads +
      if p.seq.toNat = (payloads.getLast?.map fun p => p.seq.toNat + 1).getD expected then 0 else 1 := by
    induction payloads with
    | nil =>
      intro expected
      rw [List.nil_append, gapsFrom, gapsFrom, Nat.add_zero, Nat.zero_add]
      rfl
    | cons q payloads ih =>
      intro expected
      rw [List.cons_append, gapsFrom, ih, gapsFrom, Nat.add_assoc, List.getLast?_cons]
      cases payloads.getLast? <;> rfl
  exact hgeneral 0

end Appending

/-! ## The bus keeps up -/

/-- The bus remembers the last payload it let through and has counted all of them. -/
structure KeepsUp (maxPayloadBytes : Nat) (ops : List BusOp) (bus : VirtualBus) : Prop where
  limit : bus.maxPayloadBytes = maxPayloadBytes
  isOpen : bus.isOpen = openAfter true ops
  expected : bus.nextExpectedSeq.toNat = numberAfter (receivedBy maxPayloadBytes true ops)
  passed : bus.stats.payloadsPassed = UInt64.ofNat (receivedBy maxPayloadBytes true ops).length
  gaps : bus.stats.sequenceGapsDetected =
    UInt64.ofNat (gapsFrom 0 (receivedBy maxPayloadBytes true ops))

section KeepsUp

variable {maxPayloadBytes : Nat} {ops : List BusOp} {bus : VirtualBus} {p : BusPayload}

theorem fits_iff_received (h : KeepsUp maxPayloadBytes ops bus) (p : BusPayload) :
    bus.fits p = (openAfter true ops && withinLimit maxPayloadBytes p) := by
  rw [VirtualBus.fits, h.isOpen, h.limit, withinLimit]

theorem receivedBy_of_fits (h : KeepsUp maxPayloadBytes ops bus) (hfits : bus.fits p = true) :
    receivedBy maxPayloadBytes true (ops ++ [.receive p]) =
      receivedBy maxPayloadBytes true ops ++ [p] := by
  rw [fits_iff_received h] at hfits
  rw [receivedBy_concat, receivedBy, if_pos hfits, receivedBy]

theorem receivedBy_of_refused (h : KeepsUp maxPayloadBytes ops bus) (hrefused : bus.fits p = false) :
    receivedBy maxPayloadBytes true (ops ++ [.receive p]) = receivedBy maxPayloadBytes true ops := by
  rw [fits_iff_received h] at hrefused
  rw [receivedBy_concat, receivedBy, if_neg (Bool.eq_false_iff.mp hrefused), receivedBy,
    List.append_nil]

/-- What is let through is counted, and counted as a gap unless it has the expected number. -/
theorem receive_counts (hfits : bus.fits p = true) :
    (bus.receive p).1.stats.payloadsPassed = bus.stats.payloadsPassed + 1 ∧
      (bus.receive p).1.stats.sequenceGapsDetected = bus.stats.sequenceGapsDetected +
        if p.seq = bus.nextExpectedSeq then 0 else 1 := by
  simp only [VirtualBus.fits, Bool.and_eq_true, decide_eq_true_eq] at hfits
  obtain ⟨hopen, hsize⟩ := hfits
  unfold VirtualBus.receive
  simp only [hopen, Bool.not_true, Bool.false_eq_true, if_false, Nat.not_lt.mpr hsize]
  by_cases hseq : p.seq = bus.nextExpectedSeq
  · rw [if_neg (not_not.mpr hseq), if_pos hseq]
    exact ⟨rfl, (UInt64.add_zero _).symm⟩
  · rw [if_pos hseq, if_neg hseq]
    exact ⟨rfl, rfl⟩

theorem receive_limit (bus : VirtualBus) (p : BusPayload) :
    (bus.receive p).1.maxPayloadBytes = bus.maxPayloadBytes ∧ (bus.receive p).1.isOpen = bus.isOpen := by
  unfold VirtualBus.receive
  split
  · exact ⟨rfl, rfl⟩
  · dsimp only
    split
    · exact ⟨rfl, rfl⟩
    · split <;> exact ⟨rfl, rfl⟩

/-- The expected number of the bus and the number after the last payload are the same word. -/
theorem seq_eq_expected_iff (h : KeepsUp maxPayloadBytes ops bus) (p : BusPayload) :
    p.seq = bus.nextExpectedSeq ↔ p.seq.toNat = numberAfter (receivedBy maxPayloadBytes true ops) := by
  rw [← h.expected, UInt64.toNat_inj]

/-- An operation that lets nothing through and leaves the counts alone. -/
theorem KeepsUp.silent (h : KeepsUp maxPayloadBytes ops bus) {op : BusOp} {bus' : VirtualBus}
    (hnone : receivedBy maxPayloadBytes true (ops ++ [op]) = receivedBy maxPayloadBytes true ops)
    (hopen : bus'.isOpen = openAfter true (ops ++ [op]))
    (hlimit : bus'.maxPayloadBytes = bus.maxPayloadBytes)
    (hexpected : bus'.nextExpectedSeq = bus.nextExpectedSeq)
    (hpassed : bus'.stats.payloadsPassed = bus.stats.payloadsPassed)
    (hgaps : bus'.stats.sequenceGapsDetected = bus.stats.sequenceGapsDetected) :
    KeepsUp maxPayloadBytes (ops ++ [op]) bus' := by
  constructor
  · exact hlimit.trans h.limit
  · exact hopen
  · rw [hnone, hexpected, h.expected]
  · rw [hnone, hpassed, h.passed]
  · rw [hnone, hgaps, h.gaps]

theorem KeepsUp.receive (h : KeepsUp maxPayloadBytes ops bus)
    (hp : bus.fits p = true → p.seq < u64Max) :
    KeepsUp maxPayloadBytes (ops ++ [.receive p]) (bus.receive p).1 := by
  obtain ⟨hlimit, hopen⟩ := receive_limit bus p
  have hstill : openAfter true (ops ++ [.receive p]) = openAfter true ops := by
    rw [openAfter_concat]
    rfl
  cases hfits : bus.fits p with
  | false =>
    rw [(VirtualBus.receive_refused hfits).1]
    exact h.silent (receivedBy_of_refused h hfits) (h.isOpen.trans hstill.symm) rfl rfl rfl rfl
  | true =>
    obtain ⟨hpassed, hgaps⟩ := receive_counts hfits
    refine ⟨hlimit.trans h.limit, hopen.trans (h.isOpen.trans hstill.symm), ?_, ?_, ?_⟩
    all_goals rw [receivedBy_of_fits h hfits]
    · rw [(VirtualBus.receive_accepted hfits).1, toNat_succ (hp hfits), numberAfter_concat]
    · rw [hpassed, h.passed, List.length_append, List.length_singleton, UInt64.ofNat_add]
      rfl
    · rw [hgaps, h.gaps, gapsFrom_concat, UInt64.ofNat_add]
      simp only [seq_eq_expected_iff h]
      split <;> rfl

theorem KeepsUp.step (h : KeepsUp maxPayloadBytes ops bus) (op : BusOp)
    (hbelow : ∀ p ∈ receivedBy maxPayloadBytes true (ops ++ [op]), p.seq < u64Max) :
    KeepsUp maxPayloadBytes (ops ++ [op]) (busStep bus op).1 := by
  have hsame : receivedBy maxPayloadBytes (openAfter true ops) [op] = [] →
      receivedBy maxPayloadBytes true (ops ++ [op]) = receivedBy maxPayloadBytes true ops := by
    intro hnil
    rw [receivedBy_concat, hnil, List.append_nil]
  cases op with
  | receive p =>
    refine h.receive fun hfits => hbelow p ?_
    rw [receivedBy_of_fits h hfits]
    exact List.mem_append_right _ (List.mem_singleton_self p)
  | stamp elapsedNs intent payload fromAint syscalls firaScore =>
    have hopen := openAfter_concat true ops
      (.stamp elapsedNs intent payload fromAint syscalls firaScore)
    exact h.silent (hsame rfl) (h.isOpen.trans hopen.symm) rfl rfl rfl rfl
  | shutdown =>
    exact h.silent (hsame rfl) (openAfter_concat true ops .shutdown).symm rfl rfl rfl rfl
  | reopen =>
    exact h.silent (hsame rfl) (openAfter_concat true ops .reopen).symm rfl rfl rfl rfl

theorem keepsUp_run (maxPayloadBytes : Nat) {ops : List BusOp}
    (hbelow : ∀ p ∈ receivedBy maxPayloadBytes true ops, p.seq < u64Max) :
    KeepsUp maxPayloadBytes ops (Machine.run busStep (.new maxPayloadBytes) ops) := by
  induction ops using List.reverseRecOn with
  | nil => exact ⟨rfl, rfl, rfl, rfl, rfl⟩
  | append_singleton ops op ih =>
    rw [Machine.run_concat]
    refine (ih fun p hp => hbelow p ?_).step op hbelow
    rw [receivedBy_concat]
    exact List.mem_append_left _ hp

end KeepsUp

/-! ## The answers -/

/-- The answer to a payload after a run: it is refused by a closed bus and for its size, and else
delivered exactly if it has the number after the payload before it, and reported as a gap if not. -/
structure AnsweredExactly (maxPayloadBytes : Nat) (before : List BusOp) (p : BusPayload)
    (result : BusResult) : Prop where
  closed : openAfter true before = false → result = .busClosed
  tooLarge : openAfter true before = true → withinLimit maxPayloadBytes p = false →
    result = .payloadTooLarge p.payload.utf8ByteSize maxPayloadBytes
  delivered : openAfter true before = true → withinLimit maxPayloadBytes p = true →
    (result = .delivered p ↔ p.seq.toNat = numberAfter (receivedBy maxPayloadBytes true before))
  gap : openAfter true before = true → withinLimit maxPayloadBytes p = true →
    p.seq.toNat ≠ numberAfter (receivedBy maxPayloadBytes true before) →
      ∃ expected gapSize, result = .sequenceGap expected p.seq gapSize ∧
        expected.toNat = numberAfter (receivedBy maxPayloadBytes true before)

theorem KeepsUp.answer {maxPayloadBytes : Nat} {ops : List BusOp} {bus : VirtualBus}
    (h : KeepsUp maxPayloadBytes ops bus) (p : BusPayload) :
    AnsweredExactly maxPayloadBytes ops p (bus.receive p).2 := by
  have hfits := fits_iff_received h p
  refine ⟨?_, ?_, ?_, ?_⟩
  · intro hclosed
    have hshut : ¬ bus.isOpen = true := by rw [h.isOpen, hclosed]; exact Bool.false_ne_true
    simp [VirtualBus.receive, hshut]
  · intro hopen hlarge
    rw [← h.isOpen] at hopen
    have hsize : maxPayloadBytes < p.payload.utf8ByteSize :=
      Nat.not_le.mp (of_decide_eq_false hlarge)
    simp [VirtualBus.receive, hopen, hsize, h.limit]
  · intro hopen hsmall
    rw [hopen, hsmall, Bool.and_true] at hfits
    rw [← seq_eq_expected_iff h]
    by_cases hseq : p.seq = bus.nextExpectedSeq
    · obtain ⟨bus', hdelivered⟩ := VirtualBus.receive_delivered hfits hseq
      exact iff_of_true (congrArg Prod.snd hdelivered) hseq
    · obtain ⟨gapSize, hgap⟩ := VirtualBus.receive_gap hfits hseq
      refine iff_of_false (fun hdelivered => ?_) hseq
      rw [hgap] at hdelivered
      cases hdelivered
  · intro hopen hsmall hseq
    rw [hopen, hsmall, Bool.and_true] at hfits
    have hne : p.seq ≠ bus.nextExpectedSeq := fun heq => hseq ((seq_eq_expected_iff h p).mp heq)
    obtain ⟨gapSize, hgap⟩ := VirtualBus.receive_gap hfits hne
    exact ⟨_, gapSize, hgap, h.expected⟩

/-- Gap detection is exact over every run of a fresh bus in which the numbers let through are below the
maximum: every answer is as the payloads let through before it demand, and the counters count them and
their gaps. -/
theorem gaps_exact (maxPayloadBytes : Nat) (ops : List BusOp)
    (hbelow : ∀ p ∈ receivedBy maxPayloadBytes true ops, p.seq < u64Max) :
    (∀ before p after, ops = before ++ .receive p :: after → ∃ result,
      (busStep (Machine.run busStep (.new maxPayloadBytes) before) (.receive p)).2 = some result ∧
        AnsweredExactly maxPayloadBytes before p result) ∧
    let stats := (Machine.run busStep (.new maxPayloadBytes) ops).stats
    stats.payloadsPassed = UInt64.ofNat (receivedBy maxPayloadBytes true ops).length ∧
      stats.sequenceGapsDetected =
        UInt64.ofNat (gapsFrom 0 (receivedBy maxPayloadBytes true ops)) := by
  constructor
  · rintro before p after rfl
    refine ⟨_, rfl, KeepsUp.answer (keepsUp_run maxPayloadBytes fun q hq => hbelow q ?_) p⟩
    exact receivedBy_append_left hq
  · have h := keepsUp_run maxPayloadBytes hbelow
    exact ⟨h.passed, h.gaps⟩

/-- A gap, an oversized payload and a payload on a closed bus. -/
def gapRun : List BusOp :=
  [.receive (VirtualBus.numbered 0), .receive (VirtualBus.numbered 5), .shutdown,
    .receive (VirtualBus.numbered 6), .reopen, .receive (VirtualBus.numbered 6)]

theorem gaps_exact_gapRun : (∀ p ∈ receivedBy 1024 true gapRun, p.seq < u64Max) ∧
    (Machine.run busStep (.new 1024) gapRun).stats.sequenceGapsDetected =
      UInt64.ofNat (gapsFrom 0 (receivedBy 1024 true gapRun)) := by
  have hreceived : receivedBy 1024 true gapRun =
      [VirtualBus.numbered 0, VirtualBus.numbered 5, VirtualBus.numbered 6] := by
    have hsmall : ∀ seq, withinLimit 1024 (VirtualBus.numbered seq) = true := VirtualBus.numbered_fits
    simp [gapRun, receivedBy, hsmall]
  have hbelow : ∀ p ∈ receivedBy 1024 true gapRun, p.seq < u64Max := by
    rw [hreceived]
    simp [VirtualBus.numbered, u64Max]
  exact ⟨hbelow, (gaps_exact 1024 gapRun hbelow).2.2⟩

end Spaceshuttle.Kernel
