import Spaceshuttle.Raid.Durability
import Spaceshuttle.Raid.FaultPath

/-!
# Reading many blocks at once

`simulate_read_batch` sorts the blocks of its list by location, makes room, and then goes through
the four groups without looking at the locations again. A block that is restored a second time is
counted a second time, and a resident block that is evicted to make room is reported all the same.
-/

namespace Spaceshuttle.Raid

namespace RamRaidController

variable {cfg : RaidConfig}

/-! ## The resident count and the table -/

/-- The resident count is `n` above the number of resident blocks, as far as a `u64` shows. -/
def Surplus (c : RamRaidController cfg) (n : Nat) : Prop :=
  c.residentCount = UInt64.ofNat (c.located isResident + n)

/-- The resident count is the number of resident blocks. -/
def Counted (c : RamRaidController cfg) : Prop :=
  c.residentCount.toNat = c.located isResident

instance (c : RamRaidController cfg) : Decidable (Counted c) :=
  inferInstanceAs (Decidable (_ = _))

theorem counted_iff {c : RamRaidController cfg} {n : Nat} (h : Surplus c n) (hn : n < 2 ^ 64) :
    Counted c ↔ n = 0 := by
  have hle := located_le c isResident
  have hlt := cfg.blockCount_lt
  rw [Counted, show c.residentCount = UInt64.ofNat (c.located isResident + n) from h,
    UInt64.toNat_ofNat']
  omega

theorem surplus_zero {c : RamRaidController cfg} (h : Counted c) : Surplus c 0 := by
  have h' : c.residentCount.toNat = c.located isResident := h
  rw [Surplus, Nat.add_zero, ← h', UInt64.ofNat_toNat]

section Surplus

variable {c c' : RamRaidController cfg} {n : Nat} {i : Fin cfg.blockCount} {b : RaidBlock}

theorem surplus_keep (h : Surplus c n) (hblocks : c'.blocks = c.blocks)
    (hcount : c'.residentCount = c.residentCount) : Surplus c' n := by
  unfold Surplus located at *
  rw [hcount, hblocks, h]

/-- A block that was away has become resident and is counted. -/
theorem surplus_arrive (h : Surplus c n) (hput : Puts c i b (c.residentCount + 1) c')
    (haway : (c.blocks i).location ≠ .resident) (hb : b.location = .resident) :
    Surplus c' n := by
  have hold : isResident (c.blocks i).location = false := by
    simpa using mt (isResident_iff _).mp haway
  have hupd := located_update hput.blocks isResident
  rw [hold, (isResident_iff _).mpr hb] at hupd
  simp only [Bool.false_eq_true, if_false, if_true, Nat.add_zero] at hupd
  unfold Surplus at *
  rw [hput.residentCount, h, hupd, Nat.add_right_comm, UInt64.ofNat_add (_ + n) 1]
  rfl

/-- A block keeps its residence, and the count moves on by `k`. -/
theorem surplus_same (h : Surplus c n) {count : UInt64} (hput : Puts c i b count c')
    (hb : b.location = (c.blocks i).location) {k : Nat}
    (hcount : count = c.residentCount + UInt64.ofNat k) : Surplus c' (n + k) := by
  have hupd := located_update hput.blocks isResident
  rw [hb, Nat.add_right_cancel_iff] at hupd
  unfold Surplus at *
  rw [hput.residentCount, hcount, h, hupd, ← Nat.add_assoc, UInt64.ofNat_add (_ + n) k]

/-- A resident block has left and is no longer counted. -/
theorem surplus_leave (h : Surplus c n) {result : EvictionResult} (hevict : Evicts c i b result c')
    (hres : (c.blocks i).location = .resident) (hb : b.location ≠ .resident) : Surplus c' n := by
  have hnew : isResident b.location = false := by
    simpa using mt (isResident_iff _).mp hb
  have hupd := located_update hevict.blocks isResident
  rw [hnew, (isResident_iff _).mpr hres] at hupd
  simp only [Bool.false_eq_true, if_false, if_true, Nat.add_zero] at hupd
  unfold Surplus at *
  rw [hevict.residentCount, h, ← hupd, Nat.add_right_comm, UInt64.ofNat_add (_ + n) 1]
  exact UInt64.add_sub_cancel _ _

theorem step_surplus (h : Step false c c') (hc : Surplus c n) : Surplus c' n := by
  cases h with
  | quiet h => exact surplus_keep hc h.blocks h.residentCount
  | touch i nowNs h => exact surplus_same (k := 0) hc h rfl (UInt64.add_zero _).symm
  | fill i nowNs hvirgin h =>
    refine surplus_arrive hc h ?_ rfl
    rw [hvirgin]
    simp
  | restore i nowNs haway h => exact surplus_arrive hc h haway rfl
  | write i nowNs h =>
    by_cases hres : (c.blocks i).location = .resident
    · rw [if_pos hres] at h
      exact surplus_same (k := 0) hc h hres.symm (UInt64.add_zero _).symm
    · rw [if_neg hres] at h
      exact surplus_arrive hc h hres rfl
  | drop i hresident hclean h => exact surplus_leave hc h hresident (dropTarget_away _ _).1
  | store i location hash edSeal result hresident hdirty hplaced h =>
    exact surplus_leave hc h hresident (placedBy_away hplaced).1
  | stuck i reason hblocks hcount hperformed hevictions => exact surplus_keep hc hblocks hcount
  | refill i nowNs hbatch => cases hbatch
  | rerestore i nowNs hbatch => cases hbatch

/-- Whatever restores one block at a time keeps the surplus. -/
theorem trace_surplus (h : Trace false c c') (hc : Surplus c n) : Surplus c' n :=
  Trace.invariant (p := fun c => Surplus c n) (fun _ _ hs => step_surplus hs) h hc

end Surplus

/-! ## Arrivals -/

/-- The blocks of a list become resident one after the other, whether they were or not, and each
time one is counted. -/
inductive Arrivals : RamRaidController cfg → List (Fin cfg.blockCount) → RamRaidController cfg →
    Prop where
  | nil (c) : Arrivals c [] c
  | cons {c c₁ c₂ i b is} (hput : Puts c i b (c.residentCount + 1) c₁)
      (hb : b.location = .resident) (h : Arrivals c₁ is c₂) : Arrivals c (i :: is) c₂

section Arrivals

variable {c c' : RamRaidController cfg} {is : List (Fin cfg.blockCount)}

theorem Puts.resident_iff {i : Fin cfg.blockCount} {b : RaidBlock} {count : UInt64}
    (h : Puts c i b count c') (hb : b.location = .resident) (j : Fin cfg.blockCount) :
    (c'.blocks j).location = .resident ↔ (c.blocks j).location = .resident ∨ j = i := by
  rw [h.blocks]
  by_cases hj : j = i
  · subst hj
    rw [Function.update_self]
    exact iff_of_true hb (.inr rfl)
  · rw [Function.update_of_ne hj]
    exact ⟨.inl, fun h => h.resolve_right hj⟩

/-- After the arrivals exactly the blocks of the list are resident besides those that were. -/
theorem Arrivals.resident_iff (h : Arrivals c is c') (j : Fin cfg.blockCount) :
    (c'.blocks j).location = .resident ↔ (c.blocks j).location = .resident ∨ j ∈ is := by
  induction h with
  | nil => simp
  | cons hput hb _ ih => rw [ih, hput.resident_iff hb, List.mem_cons, or_assoc]

/-- Every arrival of a block that is resident already adds to the surplus. -/
theorem Arrivals.surplus (h : Arrivals c is c') {n : Nat} (hc : Surplus c n) :
    ∃ m ≤ is.length, Surplus c' (n + m) ∧
      (m = 0 ↔ is.Nodup ∧ ∀ i ∈ is, (c.blocks i).location ≠ .resident) := by
  induction h generalizing n with
  | nil => exact ⟨0, Nat.le_refl _, hc, by simp⟩
  | @cons c c₁ c₂ i b is hput hb _ ih =>
    have hres := hput.resident_iff hb
    by_cases haway : (c.blocks i).location ≠ .resident
    · obtain ⟨m, hm, hsurplus, hzero⟩ := ih (surplus_arrive hc hput haway hb)
      refine ⟨m, Nat.le_succ_of_le hm, hsurplus, hzero.trans ?_⟩
      rw [List.nodup_cons, List.forall_mem_cons]
      constructor
      · rintro ⟨hnodup, haways⟩
        refine ⟨⟨fun hi => haways i hi ((hres i).mpr (.inr rfl)), hnodup⟩, haway, ?_⟩
        exact fun j hj hjres => haways j hj ((hres j).mpr (.inl hjres))
      · rintro ⟨⟨hi, hnodup⟩, -, haways⟩
        refine ⟨hnodup, fun j hj hjres => ?_⟩
        rcases (hres j).mp hjres with hjres | rfl
        · exact haways j hj hjres
        · exact hi hj
    · have hres := not_not.mp haway
      obtain ⟨m, hm, hsurplus, -⟩ :=
        ih (surplus_same (k := 1) hc hput (hb.trans hres.symm) rfl)
      refine ⟨m + 1, Nat.succ_le_succ hm, ?_, ?_⟩
      · rwa [Nat.add_assoc, Nat.add_comm 1 m] at hsurplus
      · refine iff_of_false (Nat.succ_ne_zero m) fun h => ?_
        exact haway (h.2 i (List.mem_cons_self ..))

/-- The blocks to fill with zeros arrive. -/
theorem fillAll_arrivals (nowNs : UInt64) (is : List (Fin cfg.blockCount))
    (c : RamRaidController cfg) :
    Arrivals c is (forBlocks (fun c i => (c.fillVirgin i nowNs, .zeroFilled i)) c is).1 := by
  induction is generalizing c with
  | nil => exact .nil c
  | cons i is ih =>
    have hput : Puts c i ((c.blocks i).zeroFill nowNs) (c.residentCount + 1)
        (c.fillVirgin i nowNs) := ⟨rfl, rfl, rfl, rfl⟩
    exact .cons hput rfl (ih _)

variable (sha256Hex : List UInt8 → String)

/-- The blocks that arrive from an answer of `fetch_batch`: those whose data pass the check. -/
def arriving (c : RamRaidController cfg) (fetched : List (Nat × List UInt8)) :
    List (Fin cfg.blockCount) :=
  fetched.filterMap fun e =>
    if h : e.1 < cfg.blockCount then
      if Accepts sha256Hex (c.blocks ⟨e.1, h⟩).contentHash e.2 then some ⟨e.1, h⟩ else none
    else none

theorem arriving_congr {c c' : RamRaidController cfg} {fetched : List (Nat × List UInt8)}
    (h : ∀ e ∈ fetched, ∀ i : Fin cfg.blockCount, e.1 = i →
      (c'.blocks i).contentHash = (c.blocks i).contentHash) :
    arriving sha256Hex c' fetched = arriving sha256Hex c fetched := by
  refine List.filterMap_congr fun e he => ?_
  split
  · next hlt => rw [h e he ⟨e.1, hlt⟩ rfl]
  · rfl

/-- A fetched block whose data pass the check. -/
theorem batchArrive_accepts {c : RamRaidController cfg} {i : Fin cfg.blockCount}
    {data : List UInt8} (h : Accepts sha256Hex (c.blocks i).contentHash data) (nowNs : UInt64) :
    batchArrive sha256Hex nowNs c i data =
      (c.arriveRemote i nowNs data.length, .restoredRemote i) := by
  cases hhash : (c.blocks i).contentHash with
  | none => simp only [batchArrive, hhash]
  | some expected =>
    rw [hhash] at h
    simp only [batchArrive, hhash, bne_of_accepts sha256Hex h, Bool.false_eq_true, if_false]

theorem batchArriveAll_arrivals (nowNs : UInt64) (fetched : List (Nat × List UInt8))
    (c : RamRaidController cfg) (hlt : ∀ e ∈ fetched, e.1 < cfg.blockCount) :
    Arrivals c (arriving sha256Hex c fetched) (batchArriveAll sha256Hex nowNs c fetched).1 := by
  induction fetched generalizing c with
  | nil => exact .nil c
  | cons e fetched ih =>
    rw [List.forall_mem_cons] at hlt
    obtain ⟨he, hlt⟩ := hlt
    have hrest := ih (batchArrive sha256Hex nowNs c ⟨e.1, he⟩ e.2).1 hlt
    rw [arriving_congr sha256Hex fun _ _ i _ =>
      batchArrive_contentHash sha256Hex nowNs c ⟨e.1, he⟩ e.2 i] at hrest
    simp only [batchArriveAll, dif_pos he]
    by_cases haccepts : Accepts sha256Hex (c.blocks ⟨e.1, he⟩).contentHash e.2
    · have hstep := batchArrive_accepts sha256Hex haccepts nowNs
      simp only [hstep] at hrest ⊢
      simp only [arriving, List.filterMap_cons, dif_pos he, if_pos haccepts]
      have hput : Puts c ⟨e.1, he⟩ ((c.blocks ⟨e.1, he⟩).restore nowNs) (c.residentCount + 1)
          (c.arriveRemote ⟨e.1, he⟩ nowNs e.2.length) := ⟨rfl, rfl, rfl, rfl⟩
      exact .cons hput rfl hrest
    · obtain ⟨reason, hstep⟩ := batchArrive_fails sha256Hex haccepts nowNs
      simp only [hstep] at hrest ⊢
      simp only [arriving, List.filterMap_cons, dif_pos he, if_neg haccepts]
      exact hrest

end Arrivals

/-! ## Making room -/

section Room

variable (sha256Hex : List UInt8 → String) (remote : Remote)

/-- What the next scan and store see once `v` has left. -/
def vacate (c : RamRaidController cfg) (v : Fin cfg.blockCount) : RamRaidController cfg :=
  { c with
    blocks := Function.update c.blocks v (departed sha256Hex c v)
    lruClock := UInt64.ofNat (v + 1)
    busSeq := c.seqAfter v }

/-- What they see once `v` has been refused. -/
def passOver (c : RamRaidController cfg) (v : Fin cfg.blockCount) : RamRaidController cfg :=
  { c with
    lruClock := UInt64.ofNat (v + 1)
    busSeq := c.busSeq + 1 }

/-- In `k` evictions the blocks of the list leave the arena, one after the other, and the bus
sequence number is `seq` then. -/
inductive Vacates : Nat → RamRaidController cfg → List (Fin cfg.blockCount) → UInt64 → Prop where
  | done (c) : Vacates 0 c [] c.busSeq
  | nothing {k c} (hnone : ∀ v, ¬ Victim c v) : Vacates k c [] c.busSeq
  | left {k c v vs seq} (hvictim : Victim c v) (hleaves : Leaves sha256Hex remote c v)
      (h : Vacates k (vacate sha256Hex c v) vs seq) : Vacates (k + 1) c (v :: vs) seq
  | refused {k c v vs seq} (hvictim : Victim c v) (hstays : ¬ Leaves sha256Hex remote c v)
      (h : Vacates k (passOver c v) vs seq) : Vacates (k + 1) c vs seq

/-- The fields that decide the evictions. -/
structure Alike (c c' : RamRaidController cfg) : Prop where
  blocks : c'.blocks = c.blocks
  lruClock : c'.lruClock = c.lruClock
  busSeq : c'.busSeq = c.busSeq
  muxClient : c'.muxClient = c.muxClient

variable {sha256Hex remote} {c c' : RamRaidController cfg} {v : Fin cfg.blockCount}

theorem Alike.victim_iff (h : Alike c c') : Victim c' v ↔ Victim c v := by
  rw [← coldest_eq_some_iff, ← coldest_eq_some_iff, coldest_congr h.blocks h.lruClock]

theorem Alike.leaves_iff (h : Alike c c') :
    Leaves sha256Hex remote c' v ↔ Leaves sha256Hex remote c v := by
  unfold Leaves ToRemote
  rw [h.blocks, h.muxClient, h.busSeq]

theorem Alike.vacate {c₁ : RamRaidController cfg} (h : Alike c c')
    (hdeparts : Departs sha256Hex c' v c₁) : Alike (vacate sha256Hex c v) c₁ := by
  refine ⟨?_, hdeparts.lruClock, ?_, hdeparts.muxClient.trans h.muxClient⟩
  · rw [hdeparts.blocks]
    simp only [RamRaidController.vacate, departed, ToRemote, h.blocks, h.busSeq]
  · rw [hdeparts.busSeq]
    simp only [RamRaidController.vacate, seqAfter, h.blocks, h.busSeq]

theorem evictTimes_fixed {k : Nat} (h : (evictColdest sha256Hex remote c).1 = c) :
    evictTimes sha256Hex remote k c = c := by
  induction k with
  | zero => rfl
  | succ k ih => rw [evictTimes, h, ih]

/-- The loop of `evict_coldest` does that. -/
theorem evictTimes_vacates {k : Nat} {vs : List (Fin cfg.blockCount)} {seq : UInt64}
    (h : Vacates sha256Hex remote k c vs seq) (halike : Alike c c') :
    (evictTimes sha256Hex remote k c').busSeq = seq ∧
      (evictTimes sha256Hex remote k c').muxClient = c.muxClient ∧
      ∀ i, ((evictTimes sha256Hex remote k c').blocks i).location = .resident ↔
        (c.blocks i).location = .resident ∧ i ∉ vs := by
  induction h generalizing c' with
  | done c =>
    refine ⟨halike.busSeq, halike.muxClient, fun i => ?_⟩
    rw [evictTimes, halike.blocks]
    simp
  | @nothing k c hnone =>
    have hfixed : (evictColdest sha256Hex remote c').1 = c' := by
      cases evicted_evictColdest sha256Hex remote c' with
      | left v hvictim => exact absurd (halike.victim_iff.mp hvictim) (hnone v)
      | refused v hvictim => exact absurd (halike.victim_iff.mp hvictim) (hnone v)
      | nothing _ _ heq => exact heq
    rw [evictTimes_fixed hfixed]
    refine ⟨halike.busSeq, halike.muxClient, fun i => ?_⟩
    rw [halike.blocks]
    simp
  | @left k c v vs seq hvictim hleaves h ih =>
    rw [evictTimes]
    cases evicted_evictColdest sha256Hex remote c' with
    | left w hw _ _ hdeparts =>
      obtain rfl : v = w := hvictim.unique (halike.victim_iff.mp hw).toColdest
      obtain ⟨hseq, hmux, hres⟩ := ih (halike.vacate hdeparts)
      refine ⟨hseq, hmux, fun i => (hres i).trans ?_⟩
      have haway := departed_away sha256Hex c v
      by_cases hi : i = v
      · subst hi
        simp [vacate, haway.1]
      · simp [vacate, hi]
    | refused w hw hstays =>
      obtain rfl : v = w := hvictim.unique (halike.victim_iff.mp hw).toColdest
      exact absurd (halike.leaves_iff.mpr hleaves) hstays
    | nothing hnone => exact absurd (halike.victim_iff.mpr hvictim) (hnone v)
  | @refused k c v vs seq hvictim hstays h ih =>
    rw [evictTimes]
    cases evicted_evictColdest sha256Hex remote c' with
    | left w hw hleaves =>
      obtain rfl : v = w := hvictim.unique (halike.victim_iff.mp hw).toColdest
      exact absurd (halike.leaves_iff.mp hleaves) hstays
    | refused w hw _ _ heq =>
      obtain rfl : v = w := hvictim.unique (halike.victim_iff.mp hw).toColdest
      obtain ⟨history, heq⟩ := heq
      rw [heq]
      refine ih ⟨halike.blocks, rfl, ?_, halike.muxClient⟩
      simp only [passOver, halike.busSeq]
    | nothing hnone => exact absurd (halike.victim_iff.mpr hvictim) (hnone v)

theorem exists_vacates (sha256Hex : List UInt8 → String) (remote : Remote) (k : Nat)
    (c : RamRaidController cfg) :
    ∃ vs seq, Vacates sha256Hex remote k c vs seq := by
  induction k generalizing c with
  | zero => exact ⟨_, _, .done c⟩
  | succ k ih =>
    by_cases hvictim : ∃ v, Victim c v
    · obtain ⟨v, hvictim⟩ := hvictim
      by_cases hleaves : Leaves sha256Hex remote c v
      · obtain ⟨vs, seq, h⟩ := ih (vacate sha256Hex c v)
        exact ⟨_, _, .left hvictim hleaves h⟩
      · obtain ⟨vs, seq, h⟩ := ih (passOver c v)
        exact ⟨_, _, .refused hvictim hleaves h⟩
    · exact ⟨_, _, .nothing fun v hv => hvictim ⟨v, hv⟩⟩

end Room

/-! ## Soundness of a batch -/

/-- The block a result is about. -/
def reported : FaultResult → Nat
  | .alreadyResident i => i
  | .restoredLocal i => i
  | .restoredRemote i => i
  | .zeroFilled i => i
  | .evictedThenRestored _ i => i
  | .failed i _ => i

/-- Every block with a result that is no failure is resident. -/
def Reliable (c : RamRaidController cfg) (results : List FaultResult) : Prop :=
  ∀ r ∈ results, succeeded r = true → c.Holds (reported r)

/-- A read of many blocks that leaves the resident count right and is reliable. -/
structure SoundRead (outcome : RamRaidController cfg × List FaultResult) : Prop where
  counted : Counted outcome.1
  reliable : Reliable outcome.1 outcome.2

/-- No block has left the arena. -/
def Grows (c c' : RamRaidController cfg) : Prop :=
  ∀ i, (c.blocks i).location = .resident → (c'.blocks i).location = .resident

section Batches

variable {c c' : RamRaidController cfg}

theorem Grows.trans {c₁ : RamRaidController cfg} (h : Grows c c₁) (h' : Grows c₁ c') :
    Grows c c' :=
  fun i hi => h' i (h i hi)

theorem Reliable.grows {results : List FaultResult} (h : Reliable c results) (hgrows : Grows c c') :
    Reliable c' results := by
  intro r hr hsucceeded
  obtain ⟨hlt, hres⟩ := h r hr hsucceeded
  exact ⟨hlt, hgrows _ hres⟩

theorem reliable_append {results results' : List FaultResult} :
    Reliable c (results ++ results') ↔ Reliable c results ∧ Reliable c results' := by
  simp only [Reliable, List.mem_append, or_imp, forall_and]

theorem Arrivals.grows {is : List (Fin cfg.blockCount)} (h : Arrivals c is c') : Grows c c' :=
  fun i hi => (h.resident_iff i).mpr (.inl hi)

variable (sha256Hex : List UInt8 → String) (remote : Remote)

theorem reported_restoreBlock (c : RamRaidController cfg) (i : Fin cfg.blockCount)
    (nowNs : UInt64) : reported (restoreBlock sha256Hex remote c i nowNs).2 = i := by
  cases hloc : (c.blocks i).location with
  | remoteKernel kernelId endpoint token =>
    have hremote : isRemote (c.blocks i).location = true := by
      rw [hloc]
      rfl
    by_cases hfails : (answer remote c i c.busSeq).Fails sha256Hex (c.blocks i).contentHash
    · obtain ⟨reason, heq⟩ := restoreBlock_fails sha256Hex remote hremote hfails nowNs
      rw [heq]
      rfl
    · rw [restoreBlock_arrives sha256Hex remote hremote hfails nowNs]
      rfl
  | resident | virgin | localStore | fetching =>
    simp only [restoreBlock, hloc, reported]

theorem restoreBlock_grows (c : RamRaidController cfg) (i : Fin cfg.blockCount)
    (nowNs : UInt64) : Grows c (restoreBlock sha256Hex remote c i nowNs).1 := by
  intro j hj
  by_cases hji : j = i
  · subst hji
    simp only [restoreBlock, hj]
  · rw [restoreBlock_changesOnly sha256Hex remote c i nowNs j hji]
    exact hj

/-- Blocks restored one by one. -/
theorem restoreAll_reliable (nowNs : UInt64) (is : List (Fin cfg.blockCount))
    (c : RamRaidController cfg) :
    let outcome := forBlocks (fun c i => restoreBlock sha256Hex remote c i nowNs) c is
    Grows c outcome.1 ∧ Reliable outcome.1 outcome.2 := by
  induction is generalizing c with
  | nil => exact ⟨fun _ hi => hi, fun r hr => (nomatch hr)⟩
  | cons i is ih =>
    obtain ⟨hgrows, hreliable⟩ := ih (restoreBlock sha256Hex remote c i nowNs).1
    refine ⟨(restoreBlock_grows sha256Hex remote c i nowNs).trans hgrows, ?_⟩
    intro r hr hsucceeded
    rcases List.mem_cons.mp hr with hr | hr
    · have hr : r = (restoreBlock sha256Hex remote c i nowNs).2 := hr
      rw [hr] at hsucceeded ⊢
      rw [reported_restoreBlock, holds_fin]
      apply hgrows i
      rcases restoreBlock_restoredIf sha256Hex remote c i nowNs with ⟨-, h⟩ | ⟨-, h⟩
      · exact h.resident
      · rw [h.failed] at hsucceeded
        cases hsucceeded
    · exact hreliable r hr hsucceeded

/-- The successes among fetched blocks are the arrivals. -/
theorem batchArriveAll_results (nowNs : UInt64) (fetched : List (Nat × List UInt8))
    (c : RamRaidController cfg) {r : FaultResult}
    (hr : r ∈ (batchArriveAll sha256Hex nowNs c fetched).2) (hsucceeded : succeeded r = true) :
    ∃ i ∈ arriving sha256Hex c fetched, reported r = i := by
  induction fetched generalizing c with
  | nil => cases hr
  | cons e fetched ih =>
    by_cases he : e.1 < cfg.blockCount
    · have hcongr := arriving_congr sha256Hex fun e' (_ : e' ∈ fetched) i _ =>
        batchArrive_contentHash sha256Hex nowNs c ⟨e.1, he⟩ e.2 i
      simp only [batchArriveAll, dif_pos he, List.mem_cons] at hr
      simp only [arriving, List.filterMap_cons, dif_pos he]
      by_cases haccepts : Accepts sha256Hex (c.blocks ⟨e.1, he⟩).contentHash e.2
      · rw [if_pos haccepts]
        rcases hr with rfl | hr
        · rw [batchArrive_accepts sha256Hex haccepts]
          exact ⟨_, List.mem_cons_self .., rfl⟩
        · obtain ⟨i, hi, hreported⟩ := ih _ hr
          rw [hcongr] at hi
          exact ⟨i, List.mem_cons_of_mem _ hi, hreported⟩
      · rw [if_neg haccepts]
        rcases hr with rfl | hr
        · obtain ⟨reason, heq⟩ := batchArrive_fails sha256Hex haccepts nowNs
          rw [heq] at hsucceeded
          cases hsucceeded
        · obtain ⟨i, hi, hreported⟩ := ih _ hr
          rw [hcongr] at hi
          exact ⟨i, hi, hreported⟩
    · simp only [batchArriveAll, dif_neg he] at hr
      cases hr

/-- The condition on an answer of `fetch_batch`: no block arrives twice. -/
def ArrivesOnce (c : RamRaidController cfg) (requests : List (Nat × UInt64)) : Prop :=
  c.muxClient = true → ∀ fetched, remote.fetchBatch requests = .ok fetched →
    (arriving sha256Hex c fetched).Nodup

/-- Everything that arrives was asked for. -/
theorem mem_of_arriving {is : List (Fin cfg.blockCount)} {fetched : List (Nat × List UInt8)}
    (hfetch : remote.fetchBatch (c.batchRequests is) = .ok fetched) {i : Fin cfg.blockCount}
    (hi : i ∈ arriving sha256Hex c' fetched) : i ∈ is := by
  obtain ⟨e, he, harrives⟩ := List.mem_filterMap.mp hi
  have hei : e.1 = i := by
    split at harrives
    · split at harrives
      · exact congrArg Fin.val (Option.some.inj harrives)
      · cases harrives
    · cases harrives
  have hmem := List.mem_map_of_mem (f := Prod.fst) he
  rw [remote.fetchBatch_indices _ _ hfetch, batchRequests_indices, List.mem_map] at hmem
  obtain ⟨k, hk, hki⟩ := hmem
  rwa [← Fin.ext (hki.trans hei)]

theorem arriving_length_le (c' : RamRaidController cfg) {is : List (Fin cfg.blockCount)} {fetched : List (Nat × List UInt8)}
    (hfetch : remote.fetchBatch (c.batchRequests is) = .ok fetched) :
    (arriving sha256Hex c' fetched).length ≤ is.length := by
  have hlength := congrArg List.length (remote.fetchBatch_indices _ _ hfetch)
  rw [batchRequests_indices, List.length_map, List.length_map] at hlength
  rw [← hlength]
  exact List.length_filterMap_le ..

/-- The remote part of a batch, over blocks that are away: `is` are the blocks, `n` is the surplus
before it. -/
structure RemotePart (c : RamRaidController cfg) (is : List (Fin cfg.blockCount)) (n : Nat)
    (outcome : RamRaidController cfg × List FaultResult) : Prop where
  surplus : ∃ m ≤ is.length, Surplus outcome.1 (n + m) ∧
    (m = 0 ↔ ArrivesOnce sha256Hex remote c (c.batchRequests is))
  grows : Grows c outcome.1
  others : ∀ j ∉ is, (outcome.1.blocks j).location = .resident →
    (c.blocks j).location = .resident
  reliable : Reliable outcome.1 outcome.2

theorem batchRestoreRemote_part {is : List (Fin cfg.blockCount)} {n : Nat} (hc : Surplus c n)
    (haway : ∀ i ∈ is, (c.blocks i).location ≠ .resident) (nowNs : UInt64) :
    RemotePart sha256Hex remote c is n (batchRestoreRemote sha256Hex remote c nowNs is) := by
  have hreserved : Surplus (c.reserved is) n := surplus_keep hc rfl rfl
  cases hmux : c.muxClient with
  | false =>
    rw [batchRestoreRemote_local sha256Hex remote hmux]
    obtain ⟨hgrows, hreliable⟩ := restoreAll_reliable sha256Hex remote nowNs is (c.reserved is)
    refine ⟨⟨0, Nat.zero_le _, ?_, ?_⟩, hgrows, fun j hj hres => ?_, hreliable⟩
    · exact trace_surplus (forBlocks_trace
        (fun c i => restoreBlock_trace sha256Hex remote c i nowNs) is _) hreserved
    · refine iff_of_true rfl fun htrue => ?_
      rw [hmux] at htrue
      cases htrue
    · rwa [forBlocks_changesOnly
        (fun c i => restoreBlock_changesOnly sha256Hex remote c i nowNs) is _ hj] at hres
  | true =>
    cases hfetch : remote.fetchBatch (c.batchRequests is) with
    | error e =>
      obtain ⟨reason, heq⟩ := batchRestoreRemote_error sha256Hex remote hmux hfetch nowNs
      rw [heq]
      refine ⟨⟨0, Nat.zero_le _, hreserved, iff_of_true rfl fun _ fetched hok => ?_⟩,
        fun _ hi => hi, fun _ _ hi => hi, fun r hr hsucceeded => ?_⟩
      · rw [hfetch] at hok
        cases hok
      · obtain ⟨i, -, rfl⟩ := List.mem_map.mp hr
        cases hsucceeded
    | ok fetched =>
      rw [batchRestoreRemote_client sha256Hex remote hmux hfetch]
      have harrivals := batchArriveAll_arrivals sha256Hex nowNs fetched (c.reserved is)
        (lt_of_fetched remote hfetch)
      have hasked : ∀ i ∈ arriving sha256Hex c fetched, i ∈ is :=
        fun i hi => mem_of_arriving sha256Hex remote hfetch hi
      obtain ⟨m, hm, hsurplus, hzero⟩ := harrivals.surplus hreserved
      refine ⟨⟨m, Nat.le_trans hm (arriving_length_le sha256Hex remote _ hfetch), hsurplus,
        hzero.trans ?_⟩, harrivals.grows, fun j hj hres => ?_, fun r hr hsucceeded => ?_⟩
      · constructor
        · rintro ⟨hnodup, -⟩ _ fetched' hfetch'
          rw [hfetch] at hfetch'
          obtain rfl := Except.ok.inj hfetch'
          exact hnodup
        · exact fun honce => ⟨honce hmux fetched hfetch, fun i hi => haway i (hasked i hi)⟩
      · refine ((harrivals.resident_iff j).mp hres).resolve_right fun hj' => hj (hasked j hj')
      · obtain ⟨i, hi, hreported⟩ :=
          batchArriveAll_results sha256Hex nowNs fetched _ hr hsucceeded
        rw [hreported, holds_fin]
        exact (harrivals.resident_iff i).mpr (.inr hi)

end Batches

/-! ## The whole batch -/

section Whole

variable (sha256Hex : List UInt8 → String) (remote : Remote)

/-- The condition of a batch read: no block found resident leaves to make room, no virgin block is
listed twice, and no block arrives twice from RAM B. -/
def BatchFits (c : RamRaidController cfg) (blockIndices : List Nat) : Prop :=
  ∀ vs seq, Vacates sha256Hex remote (slotsNeeded c blockIndices) c vs seq →
    (∀ i ∈ c.partition blockIndices isResident, i ∉ vs) ∧
    (c.partition blockIndices isVirgin).Nodup ∧
    ArrivesOnce sha256Hex remote c
      ({ c with busSeq := seq }.batchRequests (c.partition blockIndices isRemote))

variable {c : RamRaidController cfg} {blockIndices : List Nat}

theorem not_mem_partition {kind kind' : BlockLocation → Bool}
    (hkinds : ∀ l, kind l = true → kind' l = false) {i : Fin cfg.blockCount}
    (hi : i ∈ c.partition blockIndices kind) : i ∉ c.partition blockIndices kind' := by
  intro hi'
  have hkind := hkinds _ (mem_partition hi)
  rw [mem_partition hi'] at hkind
  cases hkind

/-- Two groups of a list share its entries. -/
theorem partition_length_le {kind kind' : BlockLocation → Bool}
    (hkinds : ∀ l, kind l = true → kind' l = false) (c : RamRaidController cfg)
    (blockIndices : List Nat) :
    (c.partition blockIndices kind).length + (c.partition blockIndices kind').length ≤
      blockIndices.length := by
  induction blockIndices with
  | nil => exact Nat.le_refl _
  | cons idx blockIndices ih =>
    unfold partition at ih ⊢
    rw [List.filterMap_cons, List.filterMap_cons, List.length_cons]
    by_cases hlt : idx < cfg.blockCount
    · simp only [dif_pos hlt]
      by_cases hkind : kind (c.blocks ⟨idx, hlt⟩).location = true
      · simp only [if_pos hkind, hkinds _ hkind, Bool.false_eq_true, if_false, List.length_cons]
        omega
      · rw [if_neg hkind]
        by_cases hkind' : kind' (c.blocks ⟨idx, hlt⟩).location = true
        · simp only [if_pos hkind', List.length_cons]
          omega
        · simp only [if_neg hkind']
          omega
    · simp only [dif_neg hlt]
      omega

/-- What each step of a loop keeps, the loop keeps. -/
theorem forBlocks_invariant {p : RamRaidController cfg → Prop}
    {f : RamRaidController cfg → Fin cfg.blockCount → RamRaidController cfg × FaultResult}
    (c : RamRaidController cfg) (is : List (Fin cfg.blockCount))
    (hf : ∀ c, p c → ∀ i ∈ is, p (f c i).1) (hc : p c) : p (forBlocks f c is).1 := by
  induction is generalizing c with
  | nil => exact hc
  | cons i is ih =>
    apply ih _ (fun d hd j hj => hf d hd j (List.mem_cons_of_mem _ hj))
    exact hf c hc i (List.mem_cons_self ..)

/-- The same transport at the same sequence number. -/
def SameBus (c c' : RamRaidController cfg) : Prop :=
  c'.busSeq = c.busSeq ∧ c'.muxClient = c.muxClient

/-- A block that is not on a remote kernel is restored without the bus, and stays elsewhere. -/
theorem restoreBlock_sameBus {d : RamRaidController cfg} {i : Fin cfg.blockCount}
    (hremote : isRemote (d.blocks i).location = false) (nowNs : UInt64) :
    SameBus d (restoreBlock sha256Hex remote d i nowNs).1 ∧
      isRemote ((restoreBlock sha256Hex remote d i nowNs).1.blocks i).location = false := by
  cases hloc : (d.blocks i).location with
  | remoteKernel kernelId endpoint token =>
    rw [hloc] at hremote
    cases hremote
  | resident | fetching =>
    simp only [restoreBlock, hloc]
    exact ⟨⟨rfl, rfl⟩, rfl⟩
  | virgin | localStore =>
    simp only [restoreBlock, hloc, fillVirgin, arriveLocal, modifyBlock, Function.update_self]
    exact ⟨⟨rfl, rfl⟩, rfl⟩

theorem restoreAll_sameBus (nowNs : UInt64) {is : List (Fin cfg.blockCount)}
    (hremote : ∀ i ∈ is, isRemote (c.blocks i).location = false) :
    SameBus c (forBlocks (fun c i => restoreBlock sha256Hex remote c i nowNs) c is).1 := by
  have hall := forBlocks_invariant c is
    (p := fun d => SameBus c d ∧ ∀ i ∈ is, isRemote (d.blocks i).location = false)
    (f := fun c i => restoreBlock sha256Hex remote c i nowNs) ?_ ⟨⟨rfl, rfl⟩, hremote⟩
  · exact hall.1
  · rintro d ⟨hbus, haway⟩ i hi
    obtain ⟨hstep, hself⟩ := restoreBlock_sameBus sha256Hex remote (haway i hi) nowNs
    refine ⟨⟨hstep.1.trans hbus.1, hstep.2.trans hbus.2⟩, fun j hj => ?_⟩
    by_cases hji : j = i
    · rw [hji]
      exact hself
    · rw [restoreBlock_changesOnly sha256Hex remote d i nowNs j hji]
      exact haway j hj

/-- Room is made as `Vacates` says, and touching changes neither location nor bus. -/
theorem roomMade_vacates {vs : List (Fin cfg.blockCount)} {seq : UInt64}
    (h : Vacates sha256Hex remote (slotsNeeded c blockIndices) c vs seq) (nowNs : UInt64) :
    let c₁ := roomMade sha256Hex remote c nowNs blockIndices
    c₁.busSeq = seq ∧ c₁.muxClient = c.muxClient ∧
      ∀ i, (c₁.blocks i).location = .resident ↔ (c.blocks i).location = .resident ∧ i ∉ vs := by
  obtain ⟨hseq, hmux, hres⟩ := evictTimes_vacates h ⟨rfl, rfl, rfl, rfl⟩
  have htouched := forBlocks_invariant
    (evictTimes sha256Hex remote (slotsNeeded c blockIndices) c)
    (c.partition blockIndices isResident)
    (p := fun d => SameBus (evictTimes sha256Hex remote (slotsNeeded c blockIndices) c) d ∧
      ∀ i, (d.blocks i).location =
        ((evictTimes sha256Hex remote (slotsNeeded c blockIndices) c).blocks i).location)
    (f := fun c i => (c.modifyBlock i (fun b => b.touch nowNs), .alreadyResident i)) ?_
    ⟨⟨rfl, rfl⟩, fun _ => rfl⟩
  · obtain ⟨hbus, hloc⟩ := htouched
    refine ⟨hbus.1.trans hseq, hbus.2.trans hmux, fun i => ?_⟩
    rw [← hres i, ← hloc i]
    rfl
  · rintro d ⟨hbus, hloc⟩ i -
    refine ⟨hbus, fun j => ?_⟩
    rw [← hloc j]
    by_cases hji : j = i
    · subst hji
      simp [modifyBlock, RaidBlock.touch]
    · simp [modifyBlock, hji]

/-- The states of a batch before its remote part, as far as its soundness needs them. -/
structure BeforeRemote (c c₁ c₃ : RamRaidController cfg) (blockIndices : List Nat)
    (results : List FaultResult) : Prop where
  bus : SameBus c₁ c₃
  surplus : ∃ m ≤ (c.partition blockIndices isVirgin).length, Surplus c₃ m ∧
    (m = 0 ↔ (c.partition blockIndices isVirgin).Nodup)
  grows : Grows c₁ c₃
  others : ∀ i ∈ c.partition blockIndices isResident, (c₃.blocks i).location = .resident →
    (c₁.blocks i).location = .resident
  reliable : Reliable c₃ results

theorem beforeRemote_of_phases {nowNs : UInt64} {c₁ c₂ c₃ : RamRaidController cfg}
    (h : BatchPhases sha256Hex remote c nowNs blockIndices c₁ c₂ c₃) (hc : Surplus c₁ 0) :
    BeforeRemote c c₁ c₃ blockIndices
      ((c.partition blockIndices isVirgin).map (fun i => .zeroFilled i) ++
        (forBlocks (fun c i => restoreBlock sha256Hex remote c i nowNs) c₂
          (c.partition blockIndices isLocal)).2) := by
  have hfilled : Arrivals c₁ (c.partition blockIndices isVirgin) c₂ := by
    rw [h.filled]
    exact fillAll_arrivals nowNs _ c₁
  obtain ⟨hgrows, hreliable⟩ :=
    restoreAll_reliable sha256Hex remote nowNs (c.partition blockIndices isLocal) c₂
  rw [← h.restored] at hgrows hreliable
  have hvirgin : ∀ i ∈ c.partition blockIndices isVirgin, (c₁.blocks i).location = .virgin := by
    intro i hi
    have hloc := (isVirgin_iff _).mp (mem_partition hi)
    rw [h.away i (by simp [hloc]), hloc]
  have hlocal : ∀ i ∈ c.partition blockIndices isLocal,
      isRemote (c₂.blocks i).location = false := by
    intro i hi
    have hkind := mem_partition hi
    have haway : (c.blocks i).location ≠ .resident := by
      intro hres
      rw [hres] at hkind
      cases hkind
    have hout : i ∉ c.partition blockIndices isVirgin :=
      not_mem_partition (by intro l; cases l <;> simp [isLocal, isVirgin]) hi
    have hsame : c₂.blocks i = c.blocks i := by
      rw [h.filled, forBlocks_changesOnly (fun _ _ => changesOnly_update rfl) _ _ hout,
        h.away i haway]
    rw [hsame]
    revert hkind
    cases (c.blocks i).location <;> simp [isLocal, isRemote]
  refine ⟨?_, ?_, hfilled.grows.trans hgrows, ?_, ?_⟩
  · have hbus := restoreAll_sameBus sha256Hex remote nowNs hlocal
    have hfill : SameBus c₁ c₂ := by
      rw [h.filled]
      exact forBlocks_invariant _ _ (p := fun d => SameBus c₁ d) (fun _ hd _ _ => hd) ⟨rfl, rfl⟩
    rw [h.restored]
    exact ⟨hbus.1.trans hfill.1, hbus.2.trans hfill.2⟩
  · obtain ⟨m, hm, hsurplus, hzero⟩ := hfilled.surplus hc
    refine ⟨m, hm, ?_, hzero.trans (and_iff_left fun i hi => by simp [hvirgin i hi])⟩
    rw [Nat.zero_add] at hsurplus
    rw [h.restored]
    exact trace_surplus (forBlocks_trace
      (fun c i => restoreBlock_trace sha256Hex remote c i nowNs) _ _) hsurplus
  · intro i hi hres
    have houtLocal : i ∉ c.partition blockIndices isLocal :=
      not_mem_partition (by intro l; cases l <;> simp [isLocal, isResident]) hi
    have houtVirgin : i ∉ c.partition blockIndices isVirgin :=
      not_mem_partition (by intro l; cases l <;> simp [isVirgin, isResident]) hi
    rw [h.restored, forBlocks_changesOnly
      (fun c i => restoreBlock_changesOnly sha256Hex remote c i nowNs) _ _ houtLocal] at hres
    exact ((hfilled.resident_iff i).mp hres).resolve_right houtVirgin
  · refine reliable_append.mpr ⟨Reliable.grows (c := c₂) (fun r hr _ => ?_) hgrows, hreliable⟩
    obtain ⟨i, hi, rfl⟩ := List.mem_map.mp hr
    exact (holds_fin c₂ i).mpr ((hfilled.resident_iff i).mpr (.inr hi))

/-- The last part of a batch; nothing is done without remote blocks. -/
theorem remotePart_of_batch {c₃ : RamRaidController cfg} {is : List (Fin cfg.blockCount)} {n : Nat}
    (hc : Surplus c₃ n) (haway : ∀ i ∈ is, (c₃.blocks i).location ≠ .resident) (nowNs : UInt64) :
    RemotePart sha256Hex remote c₃ is n
      (if is.isEmpty then (c₃, []) else batchRestoreRemote sha256Hex remote c₃ nowNs is) := by
  cases is with
  | cons i is => exact batchRestoreRemote_part sha256Hex remote hc haway nowNs
  | nil =>
    refine ⟨⟨0, Nat.le_refl _, hc, iff_of_true rfl fun _ fetched hfetch => ?_⟩, fun _ hi => hi,
      fun _ _ hi => hi, fun r hr => (nomatch hr)⟩
    have hnone := arriving_length_le sha256Hex remote c₃ hfetch
    rw [List.eq_nil_of_length_eq_zero (Nat.le_zero.mp hnone)]
    exact List.nodup_nil

/-- The answer that counts in a state where the blocks of the list are as they were. -/
theorem arrivesOnce_congr {c₃ : RamRaidController cfg} {is : List (Fin cfg.blockCount)}
    {seq : UInt64} (hseq : c₃.busSeq = seq) (hmux : c₃.muxClient = c.muxClient)
    (hsame : ∀ i ∈ is, c₃.blocks i = c.blocks i) :
    ArrivesOnce sha256Hex remote c₃ (c₃.batchRequests is) ↔
      ArrivesOnce sha256Hex remote c ({ c with busSeq := seq }.batchRequests is) := by
  have hrequests : c₃.batchRequests is = { c with busSeq := seq }.batchRequests is := by
    simp only [batchRequests, hseq]
  unfold ArrivesOnce
  rw [hmux, hrequests]
  refine forall₃_congr fun _ fetched hfetch => ?_
  rw [arriving_congr sha256Hex]
  intro e he i hei
  have hmem := List.mem_map_of_mem (f := Prod.fst) he
  rw [remote.fetchBatch_indices _ _ hfetch, batchRequests_indices, List.mem_map] at hmem
  obtain ⟨k, hk, hki⟩ := hmem
  obtain rfl : k = i := Fin.ext (hki.trans hei)
  rw [hsame k hk]

/-- A block found resident is resident at the end if it still is once room has been made. -/
theorem reliable_residents_iff {c₁ c₃ c₄ : RamRaidController cfg} {results : List FaultResult}
    {vs : List (Fin cfg.blockCount)} (h : BeforeRemote c c₁ c₃ blockIndices results)
    (hgrows : Grows c₃ c₄)
    (hothers : ∀ j ∉ c.partition blockIndices isRemote, (c₄.blocks j).location = .resident →
      (c₃.blocks j).location = .resident)
    (hroom : ∀ i, (c₁.blocks i).location = .resident ↔
      (c.blocks i).location = .resident ∧ i ∉ vs) :
    Reliable c₄ ((c.partition blockIndices isResident).map
        (fun i : Fin cfg.blockCount => FaultResult.alreadyResident i)) ↔
      ∀ i ∈ c.partition blockIndices isResident, i ∉ vs := by
  constructor
  · intro hreliable i hi
    have hres := (holds_fin c₄ i).mp
      (hreliable _ (List.mem_map_of_mem hi) rfl)
    have hout : i ∉ c.partition blockIndices isRemote :=
      not_mem_partition (by intro l; cases l <;> simp [isResident, isRemote]) hi
    exact ((hroom i).mp (h.others i hi (hothers i hout hres))).2
  · intro hspared r hr _
    obtain ⟨i, hi, rfl⟩ := List.mem_map.mp hr
    have hres : (c.blocks i).location = .resident := (isResident_iff _).mp (mem_partition hi)
    exact (holds_fin c₄ i).mpr (hgrows i (h.grows i ((hroom i).mpr ⟨hres, hspared i hi⟩)))

theorem simulateReadBatch_sound_of_vacates (hcounted : Counted c)
    (hlength : blockIndices.length < 2 ^ 64) (nowNs : UInt64) {vs : List (Fin cfg.blockCount)}
    {seq : UInt64} (hvacates : Vacates sha256Hex remote (slotsNeeded c blockIndices) c vs seq) :
    SoundRead (simulateReadBatch sha256Hex remote c nowNs blockIndices) ↔
      (∀ i ∈ c.partition blockIndices isResident, i ∉ vs) ∧
      (c.partition blockIndices isVirgin).Nodup ∧
      ArrivesOnce sha256Hex remote c
        ({ c with busSeq := seq }.batchRequests (c.partition blockIndices isRemote)) := by
  obtain ⟨c₂, c₃, hphases, heq⟩ := simulateReadBatch_phases sha256Hex remote c nowNs blockIndices
  obtain ⟨hseq, hmux, hroom⟩ := roomMade_vacates sha256Hex remote hvacates nowNs
  have hbefore := beforeRemote_of_phases sha256Hex remote hphases
    (trace_surplus (roomMade_trace sha256Hex remote c nowNs blockIndices) (surplus_zero hcounted))
  have hsame : ∀ i ∈ c.partition blockIndices isRemote, c₃.blocks i = c.blocks i :=
    fun i hi => hphases.remote_away sha256Hex hi
  have haway : ∀ i ∈ c.partition blockIndices isRemote, (c₃.blocks i).location ≠ .resident := by
    intro i hi
    rw [hsame i hi]
    exact not_resident_of_remote (mem_partition hi)
  obtain ⟨m, hm, hsurplus, hvirgin⟩ := hbefore.surplus
  have hpart := remotePart_of_batch sha256Hex remote hsurplus haway nowNs
  obtain ⟨m', hm', htotal, honce⟩ := hpart.surplus
  rw [arrivesOnce_congr sha256Hex remote (hbefore.bus.1.trans hseq) (hbefore.bus.2.trans hmux)
    hsame] at honce
  rw [heq]
  -- The count is right if nothing was counted twice, in either part.
  have hcount : m + m' < 2 ^ 64 := by
    have hkinds : ∀ l, isVirgin l = true → isRemote l = false := by
      intro l
      cases l <;> simp [isVirgin, isRemote]
    have hle := partition_length_le hkinds c blockIndices
    omega
  have hcounted' := counted_iff htotal hcount
  rw [Nat.add_eq_zero_iff, hvirgin, honce] at hcounted'
  have hresident := reliable_residents_iff (c := c) hbefore hpart.grows hpart.others hroom
  have hrest := reliable_append.mp (hbefore.reliable.grows hpart.grows)
  constructor
  · rintro ⟨hright, hreliable⟩
    rw [reliable_append, reliable_append, reliable_append, hresident] at hreliable
    obtain ⟨hnodup, honce⟩ := hcounted'.mp hright
    exact ⟨hreliable.1.1.1, hnodup, honce⟩
  · rintro ⟨hspared, hnodup, honce⟩
    refine ⟨hcounted'.mpr ⟨hnodup, honce⟩, ?_⟩
    rw [reliable_append, reliable_append, reliable_append, hresident]
    exact ⟨⟨⟨hspared, hrest.1⟩, hrest.2⟩, hpart.reliable⟩

/-- A batch read keeps the resident count right and reports only resident blocks as successes
exactly if it fits. -/
theorem simulateReadBatch_sound_iff (hcounted : Counted c)
    (hlength : blockIndices.length < 2 ^ 64) (nowNs : UInt64) :
    SoundRead (simulateReadBatch sha256Hex remote c nowNs blockIndices) ↔
      BatchFits sha256Hex remote c blockIndices := by
  constructor
  · intro h vs seq hvacates
    exact (simulateReadBatch_sound_of_vacates sha256Hex remote hcounted hlength nowNs hvacates).mp h
  · intro h
    obtain ⟨vs, seq, hvacates⟩ :=
      exists_vacates sha256Hex remote (slotsNeeded c blockIndices) c
    exact (simulateReadBatch_sound_of_vacates sha256Hex remote hcounted hlength nowNs
      hvacates).mpr (h vs seq hvacates)

/-- The blocks that `prefetch` reads (`ram_raid.rs:1429-1433`). -/
def toPrefetch (c : RamRaidController cfg) (blockIndices : List Nat) : List Nat :=
  blockIndices.filter fun idx =>
    if h : idx < cfg.blockCount then decide ((c.blocks ⟨idx, h⟩).location ≠ .resident) else false

/-- `prefetch` is a batch read of the blocks that are away. -/
theorem prefetch_eq (c : RamRaidController cfg) (nowNs : UInt64) (blockIndices : List Nat) :
    prefetch sha256Hex remote c nowNs blockIndices =
      let outcome := simulateReadBatch sha256Hex remote c nowNs (toPrefetch c blockIndices)
      (outcome.1, outcome.2.countP succeeded) := by
  cases hlist : toPrefetch c blockIndices with
  | nil =>
    have hnothing : simulateReadBatch sha256Hex remote c nowNs [] = (c, []) := by
      simp [simulateReadBatch, partition, forBlocks, evictTimes]
    rw [toPrefetch] at hlist
    simp only [prefetch, hlist, List.isEmpty_nil, if_true, hnothing, List.countP_nil]
  | cons idx list =>
    rw [toPrefetch] at hlist
    simp only [prefetch, hlist, List.isEmpty_cons, Bool.false_eq_true, if_false]

/-- From a state whose resident count is right, `simulate_read_batch` and `prefetch` keep it right
and report only resident blocks as successes exactly if the blocks they read fit. -/
theorem batchReads_sound_iff (c : RamRaidController cfg) (hcounted : Counted c) (nowNs : UInt64)
    (blockIndices : List Nat) (hlength : blockIndices.length < 2 ^ 64) :
    (SoundRead (simulateReadBatch sha256Hex remote c nowNs blockIndices) ↔
      BatchFits sha256Hex remote c blockIndices) ∧
    ∃ results,
      (prefetch sha256Hex remote c nowNs blockIndices).2 = results.countP succeeded ∧
      results = (simulateReadBatch sha256Hex remote c nowNs (toPrefetch c blockIndices)).2 ∧
      (SoundRead ((prefetch sha256Hex remote c nowNs blockIndices).1, results) ↔
        BatchFits sha256Hex remote c (toPrefetch c blockIndices)) := by
  refine ⟨simulateReadBatch_sound_iff sha256Hex remote hcounted hlength nowNs, ?_⟩
  have hshort : (toPrefetch c blockIndices).length < 2 ^ 64 :=
    Nat.lt_of_le_of_lt (List.length_filter_le ..) hlength
  rw [prefetch_eq]
  exact ⟨_, rfl, rfl, simulateReadBatch_sound_iff sha256Hex remote hcounted hshort nowNs⟩

end Whole

namespace Demo

theorem twoResident_lt : 2 < 2 ^ 64 := by
  decide

/-- An arena of three blocks with room for two. -/
def roomForTwo : RaidConfig := { stripedPair with
  arenaSize := 12
  maxResidentBlocks := 2
  arenaSize_lt := by decide
  maxResidentBlocks_lt := twoResident_lt }

/-- The first block was written. -/
def firstWritten : RamRaidController roomForTwo := simulateWrite (new roomForTwo) 1 0

end Demo

open Demo in
/-- A resident block and a virgin one beside it are read without an eviction. -/
theorem batchReads_sound_pair :
    SoundRead (simulateReadBatch stripedSha256 offline firstWritten 2 [0, 1]) := by
  refine (batchReads_sound_iff stripedSha256 offline firstWritten (by decide) 2 [0, 1]
    (by decide)).1.mpr fun vs seq hvacates => ?_
  have hslots : slotsNeeded firstWritten [0, 1] = 0 := by decide
  rw [hslots] at hvacates
  have hnone : vs = [] := by
    cases hvacates <;> rfl
  refine ⟨fun i _ => ?_, by decide, fun hmux => ?_⟩
  · rw [hnone]
    exact List.not_mem_nil
  · exact absurd hmux (by decide)

open Demo in
/-- A virgin block that is listed twice is counted twice. -/
theorem batchReads_unsound :
    ¬ ∀ c : RamRaidController stripedPair, Counted c → ∀ (nowNs : UInt64) (blockIndices : List Nat),
      SoundRead (simulateReadBatch stripedSha256 offline c nowNs blockIndices) ∧
        Counted (prefetch stripedSha256 offline c nowNs blockIndices).1 := by
  intro hall
  have htwice := (hall (new stripedPair) (by decide) 1 [0, 0]).1.counted
  revert htwice
  decide

end RamRaidController

end Spaceshuttle.Raid
