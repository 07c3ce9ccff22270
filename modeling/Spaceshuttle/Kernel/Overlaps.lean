import Mathlib.Data.List.Nodup
import Spaceshuttle.Kernel.Interleaved

/-!
# Gaps among tasks

`VirtualBus::receive` reads the expected number and stores the next one in two accesses
(`crates/trust-kernel/src/bus.rs:123`, `130`, `142`), and other tasks can come in between or first.
It is quiet exactly as long as the payloads are received one after the other in the order of their
numbers. Any overlap is reported as a gap, though no payload is lost.
-/

namespace Spaceshuttle.Kernel

open Threads

/-- An access to the expected number, by the task of the payload with a number. -/
inductive Mark where
  | load (seq : UInt64)
  | store (seq : UInt64)
  deriving DecidableEq, Repr

/-- The number of the payload. -/
def Mark.seq : Mark → UInt64
  | .load seq => seq
  | .store seq => seq

/-- The access that a task is about to make. -/
def FrameTask.mark (t : FrameTask) : Option Mark :=
  match t.spot with
  | .loadExpected payload => some (.load payload.seq)
  | .storeExpected payload _ => some (.store payload.seq)
  | _ => none

/-- The accesses of a run, in their order. -/
def marks (cfg : TrustKernelConfig) (bootNs : UInt64) (events : List FrameEvent) : List Mark :=
  Pool.trace FrameTask.mark (FrameTask.step cfg) ⟨⟨boot cfg bootNs, false⟩, []⟩
    (events.map FrameEvent.toEvent)

/-- The accesses of payloads that are received one after the other, from number zero on. -/
def markAt (i : Nat) : Mark :=
  if i % 2 = 0 then .load (UInt64.ofNat (i / 2)) else .store (UInt64.ofNat (i / 2))

/-- The payloads are received one after the other. -/
def Serial (marks : List Mark) : Prop :=
  marks = (List.range marks.length).map markAt

instance (marks : List Mark) : Decidable (Serial marks) :=
  inferInstanceAs (Decidable (marks = (List.range marks.length).map markAt))

/-- The number that is expected after some accesses. -/
def nextAfter (marks : List Mark) : UInt64 :=
  marks.foldl (fun next m => match m with
    | .load _ => next
    | .store seq => seq + 1) 0

/-! ## Serial accesses -/

section Serial

variable {marks : List Mark} {seq : UInt64}

theorem serial_concat {m : Mark} :
    Serial (marks ++ [m]) ↔ Serial marks ∧ m = markAt marks.length := by
  unfold Serial
  rw [List.length_append, List.length_singleton, List.range_succ, List.map_append,
    List.map_singleton]
  constructor
  · intro h
    obtain ⟨hmarks, hm⟩ := List.append_inj' h rfl
    exact ⟨hmarks, List.singleton_inj.mp hm⟩
  · rintro ⟨hmarks, rfl⟩
    rw [← hmarks]

theorem nextAfter_load : nextAfter (marks ++ [.load seq]) = nextAfter marks := by
  simp [nextAfter]

theorem nextAfter_store : nextAfter (marks ++ [.store seq]) = seq + 1 := by
  simp [nextAfter]

/-- As many payloads have been received as the expected number says. -/
theorem Serial.nextAfter_eq (h : Serial marks) :
    nextAfter marks = UInt64.ofNat (marks.length / 2) := by
  induction marks using List.reverseRecOn with
  | nil => rfl
  | append_singleton marks m ih =>
    obtain ⟨hmarks, rfl⟩ := serial_concat.mp h
    rw [List.length_append, List.length_singleton]
    rcases Nat.mod_two_eq_zero_or_one marks.length with heven | hodd
    · rw [markAt, if_pos heven, nextAfter_load, ih hmarks]
      congr 1
      omega
    · rw [markAt, if_neg (by omega), nextAfter_store]
      refine (ofNat_succ rfl _ rfl).trans (congrArg UInt64.ofNat ?_)
      omega

theorem Serial.mem_iff (h : Serial marks) {m : Mark} :
    m ∈ marks ↔ ∃ i < marks.length, markAt i = m := by
  rw [h, List.mem_map]
  simp

/-- A payload that comes after serial ones keeps the accesses serial exactly if its number is the
expected one. -/
theorem Serial.load_iff (h : Serial marks) (hnew : Mark.load seq ∉ marks) :
    Serial (marks ++ [.load seq]) ↔ seq = nextAfter marks := by
  rw [serial_concat, h.nextAfter_eq]
  rcases Nat.mod_two_eq_zero_or_one marks.length with heven | hodd
  · rw [markAt, if_pos heven]
    simp [h]
  · -- The payload before has not stored its number yet, and has loaded what is expected.
    rw [markAt, if_neg (by omega)]
    constructor
    · rintro ⟨-, hm⟩
      cases hm
    · rintro rfl
      refine absurd (h.mem_iff.mpr ⟨marks.length - 1, by omega, ?_⟩) hnew
      rw [markAt, if_pos (by omega)]
      congr 2
      omega

/-- A payload that has loaded the expected number among serial ones is the last. -/
theorem Serial.store (h : Serial marks) (hload : Mark.load seq ∈ marks)
    (hstore : Mark.store seq ∉ marks) : Serial (marks ++ [.store seq]) := by
  obtain ⟨i, hi, hmark⟩ := h.mem_iff.mp hload
  unfold markAt at hmark
  split at hmark
  · next heven =>
    obtain rfl := Mark.load.inj hmark
    rcases Nat.lt_or_eq_of_le (Nat.succ_le_of_lt hi) with hlt | heq
    · refine absurd (h.mem_iff.mpr ⟨i + 1, hlt, ?_⟩) hstore
      rw [markAt, if_neg (by omega)]
      congr 2
      omega
    · refine serial_concat.mpr ⟨h, ?_⟩
      rw [← heq, markAt, if_neg (by omega)]
      congr 2
      omega
  · cases hmark

end Serial

/-! ## What one step does to the expected number -/

/-- The number has been stored by now, if the payload was let through. -/
def Spot.afterStore : Spot → Bool
  | .countGap _ | .storeExpected _ _ => false
  | _ => true

/-- The payload at hand has the number that was given out for it. -/
def FrameTask.Numbered (t : FrameTask) : Prop :=
  match t.spot with
  | .storeResponse (.pass payload _) | .clearMissed (.pass payload _) | .loadOpen payload
  | .loadExpected payload | .countGap payload | .storeExpected payload _ | .countPassed payload _ =>
      t.stamped = some payload.seq
  | _ => True

/-- A step, by what it does to the expected number and to what is recorded of it. -/
inductive MarkStep (t : FrameTask) (k : SharedKernel) (t' : FrameTask) (k' : SharedKernel) : Prop where
  /-- The number is loaded, and there is a gap unless it is that of the payload. -/
  | load (seq : UInt64) (hmark : t.mark = some (.load seq)) (hbefore : t.stamped = some seq)
      (hafter : t'.stamped = some seq) (hnew : t.received = false) (hreceived : t'.received = true)
      (hstore : t'.spot.afterStore = false) (hgap : t.seqGap = none)
      (hquiet : t'.seqGap = none ↔ seq = k.bus.nextExpectedSeq)
      (hnext : k'.bus.nextExpectedSeq = k.bus.nextExpectedSeq)
  | store (seq : UInt64) (hmark : t.mark = some (.store seq)) (hbefore : t.stamped = some seq)
      (hafter : t'.stamped = some seq) (hreceived : t.received = true) (hstill : t'.received = true)
      (hnot : t.spot.afterStore = false) (hstore : t'.spot.afterStore = true)
      (hgap : t'.seqGap = t.seqGap) (hnext : k'.bus.nextExpectedSeq = seq + 1)
  /-- The payload gets its number. -/
  | stamp (hmark : t.mark = none) (hbefore : t.stamped = none)
      (hafter : t'.stamped = some k.bus.seqCounter) (hreceived : t'.received = false)
      (hgap : t'.seqGap = t.seqGap) (hnext : k'.bus.nextExpectedSeq = k.bus.nextExpectedSeq)
  | other (hmark : t.mark = none) (hstamped : t'.stamped = t.stamped)
      (hreceived : t'.received = t.received)
      (hstore : t.received = true → t'.spot.afterStore = t.spot.afterStore)
      (hgap : t'.seqGap = t.seqGap) (hnext : k'.bus.nextExpectedSeq = k.bus.nextExpectedSeq)

/-- A step of a task whose payload was not let through so far, other than the stamp. -/
theorem MarkStep.of_not_received {t t' : FrameTask} {k k' : SharedKernel} (hmark : t.mark = none)
    (hstamped : t'.stamped = t.stamped) (hnot : t.received = false)
    (hreceived : t'.received = t.received) (hgap : t'.seqGap = t.seqGap)
    (hnext : k'.bus.nextExpectedSeq = k.bus.nextExpectedSeq) : MarkStep t k t' k' := by
  refine .other hmark hstamped hreceived (fun htrue => ?_) hgap hnext
  rw [hnot] at htrue
  cases htrue

namespace FrameTask

variable {cfg : TrustKernelConfig} {nowNs : UInt64} {t t' : FrameTask} {k k' : SharedKernel}

theorem numbered_afterCheck (cfg : TrustKernelConfig) (t : FrameTask) :
    Numbered { t with spot := .afterCheck cfg t.frame } := by
  unfold Spot.afterCheck
  split
  · trivial
  · dsimp only
    split <;> trivial

theorem Numbered.step (ht : t.Numbered) (h : FrameTask.step cfg nowNs t k = some (t', k')) :
    t'.Numbered := by
  obtain ⟨frame, spot, seqGap, stamped, received, tripped⟩ := t
  cases spot with simp only [FrameTask.step] at h
  | loadActive | loadResponse | addMissed =>
    split at h
    · cases h
      trivial
    · cases h
      exact numbered_afterCheck cfg ⟨frame, .loadActive, seqGap, stamped, received, tripped⟩
  | storeResponse verdict | clearMissed verdict =>
    cases h
    cases verdict with
    | pass payload checked => exact ht
    | _ => trivial
  | addSeq =>
    cases h
    exact (rfl : some _ = some _)
  | ended responses => cases h
  | _ =>
    repeat' split at h
    all_goals cases h <;> trivial

theorem numbered_local (cfg : TrustKernelConfig) :
    Local (FrameTask.step cfg) Starts fun t => t.Regular ∧ t.Numbered where
  start := by
    rintro t ⟨frame, rfl⟩
    exact ⟨⟨rfl, rfl, rfl, rfl⟩, trivial⟩
  step := fun _ _ _ _ _ ht h => ⟨ht.1.step h, ht.2.step h⟩

theorem step_mark (ht : t.Regular) (hn : t.Numbered)
    (h : FrameTask.step cfg nowNs t k = some (t', k')) : MarkStep t k t' k' := by
  obtain ⟨frame, spot, seqGap, stamped, received, tripped⟩ := t
  cases spot with simp only [step] at h
  | addSeq =>
    obtain ⟨rfl, rfl, rfl, rfl⟩ := ht
    cases h
    exact .stamp rfl rfl rfl rfl rfl rfl
  | loadExpected payload =>
    obtain ⟨rfl, rfl, rfl⟩ := ht
    split at h
    · next hne =>
      cases h
      refine .load payload.seq rfl hn hn rfl rfl rfl rfl ?_ rfl
      exact iff_of_false (Option.some_ne_none _) hne
    · next heq =>
      cases h
      refine .load payload.seq rfl hn hn rfl rfl rfl rfl ?_ rfl
      exact iff_of_true rfl (not_not.mp heq)
  | storeExpected payload locked =>
    obtain ⟨-, rfl, rfl⟩ := ht
    cases h
    exact .store payload.seq rfl hn hn rfl rfl rfl rfl rfl rfl
  | countGap payload =>
    split at h
    · cases h
    · cases h
      exact .other rfl rfl rfl (fun _ => rfl) rfl rfl
  | countPassed payload locked =>
    split at h
    · cases h
    · cases h
      exact .other rfl rfl rfl (fun _ => rfl) rfl rfl
  | ended responses => cases h
  | countKill =>
    obtain ⟨-, -, rfl, -⟩ := ht
    split at h
    · cases h
    · cases h
      exact .of_not_received rfl rfl rfl rfl rfl rfl
  | loadActive | loadResponse | addMissed | storeTriggered | storeClosed =>
    obtain ⟨-, -, rfl, -⟩ := ht
    repeat' split at h
    all_goals
      cases h
      exact .of_not_received rfl rfl rfl rfl rfl rfl
  | storeResponse | clearMissed | loadOpen =>
    obtain ⟨-, rfl, -⟩ := ht
    repeat' split at h
    all_goals
      cases h
      exact .of_not_received rfl rfl rfl rfl rfl rfl

end FrameTask

/-! ## Gaps and overlaps -/

/-- What the accesses so far say about the tasks. -/
structure Traced (p : Pool SharedKernel FrameTask) (marks : List Mark) : Prop where
  expected : p.shared.bus.nextExpectedSeq = nextAfter marks
  known : ∀ m ∈ marks, ∃ t ∈ p.threads, t.stamped = some m.seq
  loads : ∀ t ∈ p.threads, ∀ seq, t.stamped = some seq →
    (Mark.load seq ∈ marks ↔ t.received = true)
  stores : ∀ t ∈ p.threads, ∀ seq, t.stamped = some seq →
    (Mark.store seq ∈ marks ↔ t.received = true ∧ t.spot.afterStore = true)
  quiet : (∀ t ∈ p.threads, t.seqGap = none) ↔ Serial marks

/-- No two payloads have one number, and the next one is free. -/
structure Distinct (k : SharedKernel) (threads : List FrameTask) : Prop where
  once : (threads.filterMap FrameTask.stamped).Nodup
  free : ∀ t ∈ threads, t.stamped ≠ some k.bus.seqCounter

theorem Books.distinct {p : Pool SharedKernel FrameTask} (h : Books p)
    (hfew : p.threads.length < 2 ^ 64) : Distinct p.shared p.threads := by
  obtain ⟨n, hcounter, hperm⟩ := h.numbers
  have hn : n < 2 ^ 64 := by
    refine lt_of_le_of_lt ?_ hfew
    have hlength := hperm.length_eq
    rw [List.length_map, List.length_range] at hlength
    rw [← hlength]
    exact List.length_filterMap_le _ _
  have hinj : ∀ i j, i ≤ n → j ≤ n → UInt64.ofNat i = UInt64.ofNat j → i = j := by
    intro i j hi hj heq
    have htoNat := congrArg UInt64.toNat heq
    rwa [UInt64.toNat_ofNat_of_lt' (hi.trans_lt hn), UInt64.toNat_ofNat_of_lt' (hj.trans_lt hn)]
      at htoNat
  constructor
  · refine hperm.nodup_iff.mpr (List.Nodup.map_on ?_ List.nodup_range)
    intro i hi j hj heq
    exact hinj i j (List.mem_range.mp hi).le (List.mem_range.mp hj).le heq
  · intro t ht hstamped
    have hmem : p.shared.bus.seqCounter ∈ p.threads.filterMap FrameTask.stamped :=
      List.mem_filterMap.mpr ⟨t, ht, hstamped⟩
    obtain ⟨i, hi, heq⟩ := List.mem_map.mp (hperm.mem_iff.mp hmem)
    rw [List.mem_range] at hi
    exact hi.ne (hinj i n hi.le le_rfl (heq.trans hcounter))

section Step

variable {cfg : TrustKernelConfig} {nowNs : UInt64} {t t' : FrameTask} {k k' : SharedKernel}
  {front back : List FrameTask} {marks : List Mark}

theorem Distinct.other (h : Distinct k (front ++ t :: back)) {seq : UInt64}
    (ht : t.stamped = some seq) {u : FrameTask} (hu : u ∈ front ++ back) :
    u.stamped ≠ some seq := by
  intro hsame
  have honce := h.once
  rw [List.filterMap_append, List.filterMap_cons, ht] at honce
  refine (List.nodup_cons.mp (List.nodup_middle.mp honce)).1 ?_
  rw [← List.filterMap_append]
  exact List.mem_filterMap.mpr ⟨u, hu, hsame⟩

theorem mem_middle {u : FrameTask} :
    u ∈ front ++ t :: back ↔ u = t ∨ u ∈ front ++ back := by
  simp only [List.mem_append, List.mem_cons]
  tauto

theorem forall_middle {q : FrameTask → Prop} :
    (∀ u ∈ front ++ t :: back, q u) ↔ q t ∧ ∀ u ∈ front ++ back, q u := by
  simp only [mem_middle, forall_eq_or_imp]

theorem Traced.spawn {threads : List FrameTask} (h : Traced ⟨k, threads⟩ marks)
    (ht : FrameTask.Starts t) : Traced ⟨k, threads ++ [t]⟩ marks := by
  obtain ⟨frame, rfl⟩ := ht
  have hnew : ∀ u ∈ threads ++ [FrameTask.new frame], ∀ seq, u.stamped = some seq →
      u ∈ threads := by
    intro u hu seq hstamped
    rcases List.mem_append.mp hu with hu | hu
    · exact hu
    · rw [List.mem_singleton.mp hu] at hstamped
      cases hstamped
  refine ⟨h.expected, fun m hm => ?_, fun u hu seq hseq => h.loads u (hnew u hu seq hseq) seq hseq,
    fun u hu seq hseq => h.stores u (hnew u hu seq hseq) seq hseq, ?_⟩
  · obtain ⟨u, hu, hseq⟩ := h.known m hm
    exact ⟨u, List.mem_append_left _ hu, hseq⟩
  · rw [← h.quiet]
    simp [or_imp, forall_and, FrameTask.new]

/-- Whoever is known to the accesses is still there when one task has moved. -/
theorem known_after {seq : UInt64} (h : ∃ u ∈ front ++ t :: back, u.stamped = some seq)
    (hkeeps : t.stamped = some seq → t'.stamped = some seq) :
    ∃ u ∈ front ++ t' :: back, u.stamped = some seq := by
  obtain ⟨u, hu, hseq⟩ := h
  rcases mem_middle.mp hu with rfl | hu
  · exact ⟨t', mem_middle.mpr (.inl rfl), hkeeps hseq⟩
  · exact ⟨u, mem_middle.mpr (.inr hu), hseq⟩

theorem Traced.step (h : Traced ⟨k, front ++ t :: back⟩ marks)
    (hdistinct : Distinct k (front ++ t :: back)) (hstep : MarkStep t k t' k') :
    Traced ⟨k', front ++ t' :: back⟩ (marks ++ t.mark.toList) := by
  obtain ⟨hexpected, hknown, hloads, hstores, hquiet⟩ := h
  obtain ⟨hload, hloads⟩ := forall_middle.mp hloads
  obtain ⟨hstored, hstores⟩ := forall_middle.mp hstores
  rw [forall_middle] at hquiet
  cases hstep with
  | load seq hmark hbefore hafter hnew hreceived hstore hgap hgapAfter hnext =>
    have hother : ∀ u ∈ front ++ back, ∀ seq', u.stamped = some seq' → seq' ≠ seq := by
      rintro u hu seq' hseq' rfl
      exact hdistinct.other hbefore hu hseq'
    have hfresh : Mark.load seq ∉ marks := by
      rw [hload seq hbefore, hnew]
      exact Bool.false_ne_true
    rw [hmark, Option.toList_some]
    refine ⟨?_, fun m hm => ?_, forall_middle.mpr ⟨?_, ?_⟩, forall_middle.mpr ⟨?_, ?_⟩, ?_⟩
    · rw [nextAfter_load, hnext]
      exact hexpected
    · rcases List.mem_append.mp hm with hm | hm
      · refine known_after (hknown m hm) fun hseq => hafter.trans (hbefore.symm.trans hseq)
      · rw [List.mem_singleton.mp hm]
        exact ⟨t', mem_middle.mpr (.inl rfl), hafter⟩
    · intro seq' hseq'
      obtain rfl := Option.some.inj (hafter.symm.trans hseq')
      simp [hreceived]
    · intro u hu seq' hseq'
      simp [hloads u hu seq' hseq', hother u hu seq' hseq']
    · intro seq' hseq'
      obtain rfl := Option.some.inj (hafter.symm.trans hseq')
      simp [hstored seq hbefore, hnew, hstore]
    · intro u hu seq' hseq'
      simp [hstores u hu seq' hseq']
    · rw [forall_middle, hgapAfter, hexpected]
      by_cases hserial : Serial marks
      · rw [hserial.load_iff hfresh]
        exact and_iff_left (hquiet.mpr hserial).2
      · rw [serial_concat]
        exact ⟨fun hall => absurd (hquiet.mp ⟨hgap, hall.2⟩) hserial,
          fun hall => absurd hall.1 hserial⟩
  | store seq hmark hbefore hafter hreceived hstill hnot hstore hgap hnext =>
    have hother : ∀ u ∈ front ++ back, ∀ seq', u.stamped = some seq' → seq' ≠ seq := by
      rintro u hu seq' hseq' rfl
      exact hdistinct.other hbefore hu hseq'
    have hloaded : Mark.load seq ∈ marks := (hload seq hbefore).mpr hreceived
    have hfresh : Mark.store seq ∉ marks := by
      rw [hstored seq hbefore, hnot]
      exact fun hboth => Bool.false_ne_true hboth.2
    rw [hmark, Option.toList_some]
    refine ⟨?_, fun m hm => ?_, forall_middle.mpr ⟨?_, ?_⟩, forall_middle.mpr ⟨?_, ?_⟩, ?_⟩
    · rw [nextAfter_store, hnext]
    · rcases List.mem_append.mp hm with hm | hm
      · exact known_after (hknown m hm) fun hseq => hafter.trans (hbefore.symm.trans hseq)
      · rw [List.mem_singleton.mp hm]
        exact ⟨t', mem_middle.mpr (.inl rfl), hafter⟩
    · intro seq' hseq'
      obtain rfl := Option.some.inj (hafter.symm.trans hseq')
      simp [hloaded, hstill]
    · intro u hu seq' hseq'
      simp [hloads u hu seq' hseq']
    · intro seq' hseq'
      obtain rfl := Option.some.inj (hafter.symm.trans hseq')
      simp [hstill, hstore]
    · intro u hu seq' hseq'
      simp [hstores u hu seq' hseq', hother u hu seq' hseq']
    · rw [forall_middle, hgap, hquiet]
      exact ⟨fun hserial => hserial.store hloaded hfresh, fun hserial => (serial_concat.mp hserial).1⟩
  | stamp hmark hbefore hafter hreceived hgap hnext =>
    have hfresh : ∀ m ∈ marks, m.seq ≠ k.bus.seqCounter := by
      intro m hm heq
      obtain ⟨u, hu, hseq⟩ := hknown m hm
      exact hdistinct.free u hu (heq ▸ hseq)
    rw [hmark, Option.toList_none, List.append_nil]
    refine ⟨hnext.trans hexpected, fun m hm => ?_, forall_middle.mpr ⟨?_, hloads⟩,
      forall_middle.mpr ⟨?_, hstores⟩, ?_⟩
    · refine known_after (hknown m hm) fun hseq => ?_
      rw [hbefore] at hseq
      cases hseq
    · intro seq' hseq'
      obtain rfl := Option.some.inj (hafter.symm.trans hseq')
      rw [hreceived]
      exact iff_of_false (fun hm => hfresh _ hm rfl) Bool.false_ne_true
    · intro seq' hseq'
      obtain rfl := Option.some.inj (hafter.symm.trans hseq')
      rw [hreceived]
      exact iff_of_false (fun hm => hfresh _ hm rfl) fun hboth => Bool.false_ne_true hboth.1
    · rw [forall_middle, hgap, hquiet]
  | other hmark hstamped hreceived hstore hgap hnext =>
    rw [hmark, Option.toList_none, List.append_nil]
    refine ⟨hnext.trans hexpected, fun m hm => ?_, forall_middle.mpr ⟨?_, hloads⟩,
      forall_middle.mpr ⟨?_, hstores⟩, ?_⟩
    · exact known_after (hknown m hm) fun hseq => hstamped.trans hseq
    · rw [hstamped, hreceived]
      exact hload
    · intro seq' hseq'
      rw [hstamped] at hseq'
      rw [hstored seq' hseq', hreceived]
      exact and_congr_right fun hr => by rw [hstore hr]
    · rw [forall_middle, hgap, hquiet]

end Step

/-- Only frames start tasks. -/
theorem exists_frames {events : List (Event FrameTask UInt64)}
    (h : Pool.Spawns FrameTask.Starts events) :
    ∃ frames : List FrameEvent, frames.map FrameEvent.toEvent = events := by
  induction events with
  | nil => exact ⟨[], rfl⟩
  | cons e events ih =>
    obtain ⟨frames, rfl⟩ := ih fun t ht => h t (List.mem_cons_of_mem _ ht)
    cases e with
    | spawn t =>
      obtain ⟨frame, rfl⟩ := h t List.mem_cons_self
      exact ⟨.arrive frame :: frames, rfl⟩
    | run i nowNs => exact ⟨.run i nowNs :: frames, rfl⟩

/-- The accesses of a run say what has become of its tasks. -/
theorem concurrent_traced (cfg : TrustKernelConfig) (bootNs : UInt64) {events : List FrameEvent}
    (hfew : (concurrent cfg bootNs events).threads.length < 2 ^ 64) :
    Traced (concurrent cfg bootNs events) (marks cfg bootNs events) := by
  refine @Pool.trace_keeps _ _ _ (FrameTask.step cfg) FrameTask.Starts _ _ _ _ FrameTask.mark
    (fun p marks => p.threads.length < 2 ^ 64 → Traced p marks) Books
    (FrameTask.numbered_local cfg) ?_ ?_ ?_ ?_ (FrameTask.spawns_frames events) hfew
  · intro events hspawns
    obtain ⟨frames, rfl⟩ := exists_frames hspawns
    exact concurrent_keeps_books cfg bootNs frames
  · intro k threads t marks ht hinv hlength
    rw [List.length_append, List.length_singleton] at hlength
    exact (hinv (Nat.lt_of_succ_lt hlength)).spawn ht
  · intro k front t back nowNs t' k' marks hbooks ht hstep hinv hlength
    have hsame : (front ++ t' :: back).length = (front ++ t :: back).length := by simp
    rw [hsame] at hlength
    exact (hinv hlength).step (hbooks.distinct hlength) (FrameTask.step_mark ht.1 ht.2 hstep)
  · intro _
    have hnone : ∀ q : FrameTask → Prop, ∀ t ∈ ([] : List FrameTask), q t :=
      fun q => List.forall_mem_nil q
    exact ⟨rfl, List.forall_mem_nil _, hnone _, hnone _, iff_of_true (hnone _) rfl⟩

/-- As long as there are numbers for all frames, no task has found a gap exactly if the payloads so
far were received one after the other, in the order of their numbers and from zero on. When all
tasks have ended, that is when the statistics have no gap. -/
theorem concurrent_gaps (cfg : TrustKernelConfig) (bootNs : UInt64) {events : List FrameEvent}
    (hfew : (concurrent cfg bootNs events).threads.length < 2 ^ 64) :
    let p := concurrent cfg bootNs events
    ((∀ t ∈ p.threads, t.seqGap = none) ↔ Serial (marks cfg bootNs events)) ∧
    ((∀ t ∈ p.threads, t.spot.isEnded = true) →
      (p.shared.bus.stats.sequenceGapsDetected = 0 ↔ Serial (marks cfg bootNs events))) := by
  intro p
  have hquiet := (concurrent_traced cfg bootNs hfew).quiet
  refine ⟨hquiet, fun hended => ?_⟩
  have hcount : p.threads.countP FrameTask.countedGap < 2 ^ 64 :=
    List.countP_le_length.trans_lt hfew
  rw [(concurrent_keeps_books cfg bootNs events).gaps, ← hquiet, ← UInt64.toNat_inj,
    UInt64.toNat_ofNat_of_lt' hcount, UInt64.toNat_zero, List.countP_eq_zero]
  refine forall₂_congr fun t ht => ?_
  obtain ⟨responses, hspot⟩ := Spot.isEnded_iff.mp (hended t ht)
  simp [FrameTask.countedGap, hspot, Spot.afterGap]

section

open Overtaking

theorem concurrent_gaps_overtaking :
    ¬ Serial (marks .fast 0 overtaking) ∧
      (concurrent .fast 0 overtaking).shared.bus.stats.sequenceGapsDetected ≠ 0 := by
  have hfew : (concurrent .fast 0 overtaking).threads.length < 2 ^ 64 :=
    (Pool.length_after_le _ _).trans_lt (by decide)
  obtain ⟨hquiet, hstatistics⟩ := concurrent_gaps .fast 0 hfew
  have hserial : ¬ Serial (marks .fast 0 overtaking) := by
    rw [← hquiet]
    intro hnone
    obtain ⟨t, ht, hgap⟩ := List.any_eq_true.mp overtaking_gap
    rw [hnone t ht] at hgap
    cases hgap
  exact ⟨hserial, fun hzero => hserial ((hstatistics (List.all_eq_true.mp overtaking_ended)).mp hzero)⟩

end

end Spaceshuttle.Kernel
