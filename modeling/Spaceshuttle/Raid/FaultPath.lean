import Spaceshuttle.Raid.Accounting
import Spaceshuttle.Raid.Plain
import Spaceshuttle.Raid.Restores

/-!
# Faults at capacity

`handle_fault` and `handle_fault_production` make room with one eviction and then restore the
faulted block. The first does not look at the outcome of the restore after an eviction, the second
does not look at the outcome of the eviction. This module says when either goes unpunished.
-/

namespace Spaceshuttle.Raid

namespace RamRaidController

variable {cfg : RaidConfig}

/-! ## Restoring a block -/

/-- A restore with the given answer at hand leaves the block resident. -/
def Settles (sha256Hex : List UInt8 → String) (a : Answer) (b : RaidBlock) : Prop :=
  b.location ≠ .fetching ∧ (isRemote b.location = true → ¬ a.Fails sha256Hex b.contentHash)

/-- The block is resident and counted, and the result says so. -/
structure Settled (c : RamRaidController cfg) (i : Fin cfg.blockCount)
    (outcome : RamRaidController cfg × FaultResult) : Prop where
  resident : (outcome.1.blocks i).location = .resident
  residentCount : outcome.1.residentCount =
    if (c.blocks i).location = .resident then c.residentCount else c.residentCount + 1
  succeeded : succeeded outcome.2 = true

/-- The block is still away, and the result says so. -/
structure Unsettled (c : RamRaidController cfg) (i : Fin cfg.blockCount)
    (outcome : RamRaidController cfg × FaultResult) : Prop where
  away : (outcome.1.blocks i).location ≠ .resident
  wasAway : (c.blocks i).location ≠ .resident
  residentCount : outcome.1.residentCount = c.residentCount
  failed : succeeded outcome.2 = false

section Restoring

variable (sha256Hex : List UInt8 → String) (remote : Remote)
variable {c : RamRaidController cfg} {i : Fin cfg.blockCount}

theorem not_resident_of_remote (hremote : isRemote (c.blocks i).location = true) :
    (c.blocks i).location ≠ .resident := by
  intro hres
  rw [hres] at hremote
  cases hremote

/-- An arrival from a remote kernel, after a step that left the count alone. -/
theorem settled_arriveRemote (hremote : isRemote (c.blocks i).location = true)
    (c₁ : RamRaidController cfg) (hcount : c₁.residentCount = c.residentCount) (nowNs : UInt64)
    (bytes : Nat) :
    Settled c i (c₁.arriveRemote i nowNs bytes, .restoredRemote i) := by
  refine ⟨?_, ?_, rfl⟩
  · simp [arriveRemote, modifyBlock, RaidBlock.restore]
  · rw [if_neg (not_resident_of_remote hremote)]
    simp only [arriveRemote, hcount]

theorem restoreBlock_settled (h : Settles sha256Hex (answer remote c i c.busSeq) (c.blocks i))
    (nowNs : UInt64) : Settled c i (restoreBlock sha256Hex remote c i nowNs) := by
  cases hremote : isRemote (c.blocks i).location with
  | true =>
    rw [restoreBlock_arrives sha256Hex remote hremote (h.2 hremote) nowNs]
    exact settled_arriveRemote hremote (c.asked i) rfl nowNs _
  | false =>
    cases hloc : (c.blocks i).location with
    | resident =>
      simp only [restoreBlock, hloc]
      exact ⟨hloc, (if_pos hloc).symm, rfl⟩
    | virgin =>
      simp only [restoreBlock, hloc]
      refine ⟨?_, ?_, rfl⟩
      · simp [fillVirgin, modifyBlock, RaidBlock.zeroFill]
      · simp [fillVirgin, hloc]
    | localStore path token =>
      simp only [restoreBlock, hloc]
      refine ⟨?_, ?_, rfl⟩
      · simp [arriveLocal, modifyBlock, RaidBlock.restore]
      · simp [arriveLocal, hloc]
    | fetching => exact absurd hloc h.1
    | remoteKernel kernelId endpoint token =>
      rw [hloc] at hremote
      cases hremote

/-- Without `Settles` the block is being fetched, or its answer fails. -/
theorem not_settles {a : Answer} {b : RaidBlock} (h : ¬ Settles sha256Hex a b) :
    b.location = .fetching ∨ isRemote b.location = true ∧ a.Fails sha256Hex b.contentHash := by
  by_contra hnot
  rw [not_or, not_and] at hnot
  exact h hnot

theorem restoreBlock_unsettled
    (h : ¬ Settles sha256Hex (answer remote c i c.busSeq) (c.blocks i)) (nowNs : UInt64) :
    Unsettled c i (restoreBlock sha256Hex remote c i nowNs) := by
  rcases not_settles sha256Hex h with hfetching | ⟨hremote, hfails⟩
  · have haway : (c.blocks i).location ≠ .resident := by
      rw [hfetching]
      simp
    simp only [restoreBlock, hfetching]
    exact ⟨haway, haway, rfl, rfl⟩
  · obtain ⟨reason, heq⟩ := restoreBlock_fails sha256Hex remote hremote hfails nowNs
    have haway := not_resident_of_remote hremote
    rw [heq]
    exact ⟨haway, haway, rfl, rfl⟩

theorem restoreBlockInner_settled
    (h : Settles sha256Hex (answerInner remote c i c.busSeq) (c.blocks i)) (nowNs : UInt64) :
    let outcome := restoreBlockInner sha256Hex remote c i nowNs
    Settled c i (outcome.1, outcome.2.1) := by
  cases hremote : isRemote (c.blocks i).location with
  | true =>
    obtain ⟨data, heq⟩ :=
      restoreBlockInner_arrives sha256Hex remote hremote (h.2 hremote) nowNs
    simp only [heq]
    exact settled_arriveRemote hremote c.nextSeq rfl nowNs _
  | false =>
    have hsettled := restoreBlock_settled sha256Hex remote (c := c) (i := i)
      ⟨h.1, fun htrue => absurd (hremote ▸ htrue) Bool.false_ne_true⟩ nowNs
    cases hloc : (c.blocks i).location with
    | resident | virgin | localStore =>
      simp only [restoreBlock, hloc] at hsettled
      simp only [restoreBlockInner, restoreBlock, hloc]
      exact hsettled
    | fetching => exact absurd hloc h.1
    | remoteKernel kernelId endpoint token =>
      rw [hloc] at hremote
      cases hremote

theorem restoreBlockInner_unsettled
    (h : ¬ Settles sha256Hex (answerInner remote c i c.busSeq) (c.blocks i)) (nowNs : UInt64) :
    let outcome := restoreBlockInner sha256Hex remote c i nowNs
    Unsettled c i (outcome.1, outcome.2.1) := by
  rcases not_settles sha256Hex h with hfetching | ⟨hremote, hfails⟩
  · have haway : (c.blocks i).location ≠ .resident := by
      rw [hfetching]
      simp
    simp only [restoreBlockInner, hfetching]
    exact ⟨haway, haway, rfl, rfl⟩
  · obtain ⟨reason, heq⟩ := restoreBlockInner_fails sha256Hex remote hremote hfails nowNs
    have haway := not_resident_of_remote hremote
    simp only [heq]
    exact ⟨haway, haway, rfl, rfl⟩

end Restoring

/-! ## Restoring after an eviction -/

section AfterEviction

variable (sha256Hex : List UInt8 → String) (remote : Remote)

/-- The hash under which dirty data goes to RAM B. -/
def sentHash (b : RaidBlock) : String := sha256Hex (simulatedData b)

/-- What `restore_block` finds of a block that was sent to RAM B just before. -/
def sentAnswer (c : RamRaidController cfg) (v : Fin cfg.blockCount) : Answer :=
  if c.muxClient then muxAnswer remote v (some (sentHash sha256Hex (c.blocks v))) (c.busSeq + 1)
  else .data (simulatedData (c.blocks v))

/-- What `restore_block_inner` finds of it. -/
def sentAnswerInner (c : RamRaidController cfg) (v : Fin cfg.blockCount) : Answer :=
  if c.muxClient then muxAnswer remote v (some (sentHash sha256Hex (c.blocks v))) (c.busSeq + 1)
  else .data (List.replicate (c.blocks v).size 0)

/-- After `v` has left the arena, a restore of `i` leaves `i` resident: `sent` is what it finds if
`i` itself was just sent to RAM B, `other` what it finds of another block. -/
def ComesBack (c : RamRaidController cfg) (v i : Fin cfg.blockCount) (sent other : Answer) :
    Prop :=
  if i = v then
    (c.blocks v).dirty = true → c.ToRemote v →
      ¬ sent.Fails sha256Hex (some (sentHash sha256Hex (c.blocks v)))
  else Settles sha256Hex other (c.blocks i)

variable {c c₁ : RamRaidController cfg} {v i : Fin cfg.blockCount}

/-- The block a victim has become is on a remote kernel exactly if it was sent there. -/
theorem departed_isRemote :
    isRemote (departed sha256Hex c v).location = true ↔
      (c.blocks v).dirty = true ∧ c.ToRemote v := by
  by_cases hdirty : (c.blocks v).dirty = true
  · by_cases hto : c.ToRemote v
    · refine iff_of_true ?_ ⟨hdirty, hto⟩
      simp only [departed, if_pos hdirty, if_pos hto]
      rfl
    · refine iff_of_false ?_ fun h => hto h.2
      simp only [departed, if_pos hdirty, if_neg hto]
      exact Bool.false_ne_true
  · refine iff_of_false ?_ fun h => hdirty h.1
    simp only [departed, if_neg hdirty, RaidBlock.drop, RaidBlock.dropTarget]
    split
    · exact Bool.false_ne_true
    · exact Bool.false_ne_true

theorem departed_not_fetching : (departed sha256Hex c v).location ≠ .fetching := by
  unfold departed
  simp only
  split
  · split
    · simp [RaidBlock.store, remoteLocation]
    · simp [RaidBlock.store, localLocation]
  · exact (dropTarget_away (c.blocks v) v).2

/-- What is found of another block is not affected. -/
theorem answer_departs_other (h : Departs sha256Hex c v c₁) (hi : i ≠ v) :
    answer remote c₁ i c₁.busSeq = answer remote c i (c.seqAfter v) := by
  have hlocal : localAnswer c₁ i = localAnswer c i := by
    unfold localAnswer
    rw [h.localBlockStore, storeAfter]
    by_cases hstored : (c.blocks v).dirty = true ∧ c.ToRemote v ∧ c.muxClient = false
    · rw [if_pos hstored]
      cases c.localBlockStore with
      | none => rfl
      | some store =>
        simp only [Option.map_some, Cluster.BlockStore.content_store,
          if_neg (Fin.val_ne_of_ne hi)]
    · rw [if_neg hstored]
  simp only [answer, h.muxClient, h.busSeq, hlocal, h.blocks, Function.update_of_ne hi]

theorem answerInner_departs_other (h : Departs sha256Hex c v c₁) (hi : i ≠ v) :
    answerInner remote c₁ i c₁.busSeq = answerInner remote c i (c.seqAfter v) := by
  simp only [answerInner, h.muxClient, h.busSeq, h.blocks, Function.update_of_ne hi]

/-- A victim that was sent to RAM B has its size and the hash it was sent under. -/
theorem departed_sent (hdirty : (c.blocks v).dirty = true) (hto : c.ToRemote v) :
    (departed sha256Hex c v).contentHash = some (sentHash sha256Hex (c.blocks v)) ∧
      (departed sha256Hex c v).size = (c.blocks v).size := by
  simp only [departed, if_pos hdirty, if_pos hto]
  exact ⟨rfl, rfl⟩

/-- What is found of a victim that was sent to RAM B. -/
theorem answer_departs_self (h : Departs sha256Hex c v c₁) (hdirty : (c.blocks v).dirty = true)
    (hto : c.ToRemote v) :
    (answer remote c₁ v c₁.busSeq).Fails sha256Hex (departed sha256Hex c v).contentHash ↔
      (sentAnswer sha256Hex remote c v).Fails sha256Hex
        (some (sentHash sha256Hex (c.blocks v))) := by
  obtain ⟨hhash, -⟩ := departed_sent sha256Hex hdirty hto
  rw [answer, sentAnswer, h.muxClient, h.blocks, Function.update_self, hhash, h.busSeq, seqAfter,
    if_pos hdirty]
  split
  · rfl
  · next hmux =>
    have haccepts : Accepts sha256Hex (some (sentHash sha256Hex (c.blocks v)))
        (simulatedData (c.blocks v)) := fun expected he => Option.some.inj he
    have hmux' : c.muxClient = false := Bool.eq_false_of_not_eq_true hmux
    unfold localAnswer
    rw [h.localBlockStore, storeAfter, if_pos ⟨hdirty, hto, hmux'⟩]
    cases c.localBlockStore with
    | none => exact iff_of_false id (not_not.mpr haccepts)
    | some store =>
      simp only [Option.map_some, Cluster.BlockStore.content_store, if_true]

theorem answerInner_departs_self (h : Departs sha256Hex c v c₁)
    (hdirty : (c.blocks v).dirty = true) (hto : c.ToRemote v) :
    (answerInner remote c₁ v c₁.busSeq).Fails sha256Hex (departed sha256Hex c v).contentHash ↔
      (sentAnswerInner sha256Hex remote c v).Fails sha256Hex
        (some (sentHash sha256Hex (c.blocks v))) := by
  obtain ⟨hhash, hsize⟩ := departed_sent sha256Hex hdirty hto
  rw [answerInner, sentAnswerInner, h.muxClient, h.blocks, Function.update_self, hhash, hsize,
    h.busSeq, seqAfter, if_pos hdirty]

/-- A victim that is restored at once: only a block that went to RAM B can fail to come back. -/
theorem settles_departed {found sent : Answer}
    (hself : (c.blocks v).dirty = true → c.ToRemote v →
      (found.Fails sha256Hex (departed sha256Hex c v).contentHash ↔
        sent.Fails sha256Hex (some (sentHash sha256Hex (c.blocks v))))) (other : Answer) :
    Settles sha256Hex found (departed sha256Hex c v) ↔
      ComesBack sha256Hex c v v sent other := by
  rw [ComesBack, if_pos rfl]
  constructor
  · intro h hdirty hto
    rw [← hself hdirty hto]
    exact h.2 ((departed_isRemote sha256Hex).mpr ⟨hdirty, hto⟩)
  · refine fun h => ⟨departed_not_fetching sha256Hex, fun hremote => ?_⟩
    obtain ⟨hdirty, hto⟩ := (departed_isRemote sha256Hex).mp hremote
    rw [hself hdirty hto]
    exact h hdirty hto

/-- After an eviction: the victim comes back as it was sent, any other block as before. -/
theorem settles_comesBack (h : Departs sha256Hex c v c₁) (found : Fin cfg.blockCount → Answer)
    {sent other : Answer}
    (hself : (c.blocks v).dirty = true → c.ToRemote v →
      ((found v).Fails sha256Hex (departed sha256Hex c v).contentHash ↔
        sent.Fails sha256Hex (some (sentHash sha256Hex (c.blocks v)))))
    (hother : i ≠ v → found i = other) :
    Settles sha256Hex (found i) (c₁.blocks i) ↔ ComesBack sha256Hex c v i sent other := by
  by_cases hi : i = v
  · subst hi
    rw [h.blocks, Function.update_self]
    exact settles_departed sha256Hex hself other
  · rw [ComesBack, if_neg hi, hother hi, h.blocks, Function.update_of_ne hi]

theorem settles_after (h : Departs sha256Hex c v c₁) (i : Fin cfg.blockCount) :
    Settles sha256Hex (answer remote c₁ i c₁.busSeq) (c₁.blocks i) ↔
      ComesBack sha256Hex c v i (sentAnswer sha256Hex remote c v)
        (answer remote c i (c.seqAfter v)) :=
  settles_comesBack sha256Hex h (fun i => answer remote c₁ i c₁.busSeq)
    (answer_departs_self sha256Hex remote h) (answer_departs_other sha256Hex remote h)

theorem settles_after_inner (h : Departs sha256Hex c v c₁) (i : Fin cfg.blockCount) :
    Settles sha256Hex (answerInner remote c₁ i c₁.busSeq) (c₁.blocks i) ↔
      ComesBack sha256Hex c v i (sentAnswerInner sha256Hex remote c v)
        (answerInner remote c i (c.seqAfter v)) :=
  settles_comesBack sha256Hex h (fun i => answerInner remote c₁ i c₁.busSeq)
    (answerInner_departs_self sha256Hex remote h) (answerInner_departs_other sha256Hex remote h)

end AfterEviction

/-! ## What is reported -/

section Reported

variable (sha256Hex : List UInt8 → String) (remote : Remote)

/-- The three outcomes of an eviction. -/
inductive Evicted (c : RamRaidController cfg) (outcome : RamRaidController cfg × EvictionResult) :
    Prop where
  | left (v : Fin cfg.blockCount) (hvictim : c.Victim v) (hleaves : Leaves sha256Hex remote c v)
      (hfreed : freed outcome.2 = some v.val) (hdeparts : Departs sha256Hex c v outcome.1)
  | refused (v : Fin cfg.blockCount) (hvictim : c.Victim v)
      (hstays : ¬ Leaves sha256Hex remote c v) (hfreed : freed outcome.2 = none)
      (heq : ∃ history, outcome.1 =
        { c with
          busSeq := c.busSeq + 1
          lruClock := UInt64.ofNat (v + 1)
          evictions := history })
  | nothing (hnone : ∀ v, ¬ c.Victim v) (hfreed : freed outcome.2 = none) (heq : outcome.1 = c)

theorem evicted_evictColdest (c : RamRaidController cfg) :
    Evicted sha256Hex remote c (evictColdest sha256Hex remote c) := by
  cases hcold : c.coldest with
  | none =>
    refine .nothing (fun v hv => ?_) ?_ ?_
    · rw [coldest_eq_some_iff.mpr hv] at hcold
      cases hcold
    · simp only [evictColdest, hcold, freed]
    · simp only [evictColdest, hcold]
  | some v =>
    have hvictim := coldest_eq_some_iff.mp hcold
    by_cases hleaves : Leaves sha256Hex remote c v
    · obtain ⟨hfreed, hdeparts⟩ := evictColdest_leaves sha256Hex remote hcold hleaves
      exact .left v hvictim hleaves hfreed hdeparts
    · obtain ⟨history, reason, heq⟩ := evictColdest_stays sha256Hex remote hcold hleaves
      rw [heq]
      exact .refused v hvictim hleaves rfl ⟨history, rfl⟩

variable {c : RamRaidController cfg} {faultAddr : Nat}

theorem handleFault_out (h : ¬ blockIndexForAddr cfg faultAddr < cfg.blockCount)
    (nowNs : UInt64) :
    ∃ reason, handleFault sha256Hex remote c nowNs faultAddr =
      (c, .failed (blockIndexForAddr cfg faultAddr) reason) := by
  simp only [handleFault, dif_neg h]
  exact ⟨_, rfl⟩

theorem handleFault_room {i : Fin cfg.blockCount} (hi : blockIndexForAddr cfg faultAddr = i)
    (hroom : c.atCapacity = false) (nowNs : UInt64) :
    handleFault sha256Hex remote c nowNs faultAddr = restoreBlock sha256Hex remote c i nowNs := by
  simp only [handleFault, hi, i.isLt, dite_true, hroom, Bool.false_eq_true, if_false]

/-- At capacity the outcome of the restore is lost. -/
theorem handleFault_left {i : Fin cfg.blockCount} (hi : blockIndexForAddr cfg faultAddr = i)
    (hfull : c.atCapacity = true) {v : Nat}
    (hfreed : freed (evictColdest sha256Hex remote c).2 = some v) (nowNs : UInt64) :
    handleFault sha256Hex remote c nowNs faultAddr =
      ((restoreBlock sha256Hex remote (evictColdest sha256Hex remote c).1 i nowNs).1,
        .evictedThenRestored v i) := by
  simp only [handleFault, hi, i.isLt, dite_true, hfull, if_true, hfreed]

theorem handleFault_stuck {i : Fin cfg.blockCount} (hi : blockIndexForAddr cfg faultAddr = i)
    (hfull : c.atCapacity = true) (hfreed : freed (evictColdest sha256Hex remote c).2 = none)
    (nowNs : UInt64) :
    handleFault sha256Hex remote c nowNs faultAddr =
      ((evictColdest sha256Hex remote c).1, .failed i "Cannot evict block to make room") := by
  simp only [handleFault, hi, i.isLt, dite_true, hfull, if_true, hfreed]

/-- What `handle_fault` reports is true exactly if a fault at capacity, once its victim has left,
gets a usable answer for the faulted block. -/
theorem handleFault_truthful_iff (c : RamRaidController cfg) (nowNs : UInt64) (faultAddr : Nat) :
    (succeeded (handleFault sha256Hex remote c nowNs faultAddr).2 = true →
      (handleFault sha256Hex remote c nowNs faultAddr).1.Holds (blockIndexForAddr cfg faultAddr)) ↔
    ∀ i v : Fin cfg.blockCount, blockIndexForAddr cfg faultAddr = i → c.atCapacity = true →
      c.Victim v → Leaves sha256Hex remote c v →
      ComesBack sha256Hex c v i (sentAnswer sha256Hex remote c v)
        (answer remote c i (c.seqAfter v)) := by
  by_cases hlt : blockIndexForAddr cfg faultAddr < cfg.blockCount
  · obtain ⟨i, hi⟩ : ∃ i : Fin cfg.blockCount, blockIndexForAddr cfg faultAddr = i :=
      ⟨⟨_, hlt⟩, rfl⟩
    cases hfull : c.atCapacity with
    | false =>
      refine iff_of_true (fun hsucceeded => ?_) fun _ _ _ h => absurd h Bool.false_ne_true
      rw [handleFault_room sha256Hex remote hi hfull] at hsucceeded ⊢
      rw [hi, holds_fin]
      by_cases hsettles : Settles sha256Hex (answer remote c i c.busSeq) (c.blocks i)
      · exact (restoreBlock_settled sha256Hex remote hsettles nowNs).resident
      · rw [(restoreBlock_unsettled sha256Hex remote hsettles nowNs).failed] at hsucceeded
        cases hsucceeded
    | true =>
      cases evicted_evictColdest sha256Hex remote c with
      | left v hvictim hleaves hfreed hdeparts =>
        have hafter := settles_after sha256Hex remote hdeparts i
        rw [handleFault_left sha256Hex remote hi hfull hfreed, hi, holds_fin]
        constructor
        · intro htruth i' v' hi' _ hvictim' _
          obtain rfl : i = i' := Fin.ext hi'
          obtain rfl : v = v' := hvictim.unique hvictim'.toColdest
          rw [← hafter]
          by_contra hunsettled
          exact (restoreBlock_unsettled sha256Hex remote hunsettled nowNs).away (htruth rfl)
        · intro hcomes _
          have hsettles := hafter.mpr (hcomes i v rfl rfl hvictim hleaves)
          exact (restoreBlock_settled sha256Hex remote hsettles nowNs).resident
      | refused v hvictim hstays hfreed heq =>
        rw [handleFault_stuck sha256Hex remote hi hfull hfreed]
        apply iff_of_true (fun hsucceeded => nomatch hsucceeded)
        intro i' v' _ _ hvictim' hleaves
        obtain rfl : v = v' := hvictim.unique hvictim'.toColdest
        exact absurd hleaves hstays
      | nothing hnone hfreed heq =>
        rw [handleFault_stuck sha256Hex remote hi hfull hfreed]
        apply iff_of_true (fun hsucceeded => nomatch hsucceeded)
        exact fun i' v' _ _ hvictim' _ => absurd hvictim' (hnone v')
  · obtain ⟨reason, heq⟩ := handleFault_out sha256Hex remote (c := c) hlt nowNs
    rw [heq]
    apply iff_of_true (fun hsucceeded => nomatch hsucceeded)
    intro i v hi
    exact absurd (hi ▸ i.isLt) hlt

end Reported

namespace Demo

/-- A remote kernel that takes every block and then cannot be reached for a fetch. -/
def storesOnly : Remote :=
  { offline with storeBlock := fun _ _ _ _ _ _ => .ok () }

/-- Block 1 was written, and a fault in block 0 sent it to RAM B. -/
def sentAway : List Request :=
  [⟨.simulateWrite 1, 1, storesOnly⟩, ⟨.handleFault 0, 2, storesOnly⟩]

end Demo

open Demo in
/-- The fault in block 1 evicts block 0, fails to fetch block 1, and is reported as restored. -/
theorem handleFault_untruthful :
    ¬ ∀ (rs : List Request) (remote : Remote) (nowNs : UInt64) (faultAddr : Nat),
      let c := Machine.run (exec stripedSha256) (start stripedPair true none) rs
      let outcome := handleFault stripedSha256 remote c nowNs faultAddr
      succeeded outcome.2 = true → outcome.1.Holds (blockIndexForAddr stripedPair faultAddr) := by
  intro hall
  have hheld := hall sentAway storesOnly 3 4 (by decide)
  have hres := (holds_fin _ ⟨1, by decide⟩).mp hheld
  revert hres
  decide

/-! ## The bound on physical RAM -/

/-- The resident count does not rise above the allowed number of blocks, and not at all if it was
there already. -/
structure WithinBound (c c' : RamRaidController cfg) : Prop where
  bound : c'.residentCount.toNat ≤ max c.residentCount.toNat cfg.maxResidentBlocks
  full : cfg.maxResidentBlocks ≤ c.residentCount.toNat →
    c'.residentCount.toNat ≤ c.residentCount.toNat

/-- A restore with the given answer at hand makes one more block resident. -/
def Arrives (sha256Hex : List UInt8 → String) (a : Answer) (b : RaidBlock) : Prop :=
  b.location ≠ .resident ∧ Settles sha256Hex a b

section Bound

variable {c c₁ : RamRaidController cfg}

theorem atCapacity_iff :
    c.atCapacity = true ↔ cfg.maxResidentBlocks ≤ c.residentCount.toNat := by
  rw [atCapacity, decide_eq_true_iff, ge_iff_le, UInt64.le_iff_toNat_le, UInt64.toNat_ofNat',
    Nat.mod_eq_of_lt cfg.maxResidentBlocks_lt]

theorem withinBound_full (hfull : c.atCapacity = true) (c' : RamRaidController cfg) :
    WithinBound c c' ↔ c'.residentCount.toNat ≤ c.residentCount.toNat := by
  rw [atCapacity_iff] at hfull
  exact ⟨fun h => h.full hfull, fun h => ⟨Nat.le_trans h (Nat.le_max_left _ _), fun _ => h⟩⟩

/-- Counting down stays below, but for the count zero. -/
theorem toNat_pred_le (w : UInt64) : (w - 1).toNat ≤ w.toNat ↔ w.toNat ≠ 0 := by
  have hlt := UInt64.toNat_lt w
  rw [UInt64.toNat_sub, UInt64.toNat_one]
  omega

/-- Counting up does not, but for the greatest count. -/
theorem toNat_succ_le (w : UInt64) : (w + 1).toNat ≤ w.toNat ↔ w.toNat + 1 = 2 ^ 64 := by
  have hlt := UInt64.toNat_lt w
  rw [UInt64.toNat_add, UInt64.toNat_one]
  omega

/-- With room for one more block. -/
theorem withinBound_room (hroom : c.atCapacity = false) {c' : RamRaidController cfg}
    (h : c'.residentCount = c.residentCount ∨ c'.residentCount = c.residentCount + 1) :
    WithinBound c c' := by
  have hlt : c.residentCount.toNat < cfg.maxResidentBlocks := by
    rw [← Nat.not_le, ← atCapacity_iff, hroom]
    exact Bool.false_ne_true
  have hmax := cfg.maxResidentBlocks_lt
  have hle : c'.residentCount.toNat ≤ c.residentCount.toNat + 1 := by
    rcases h with h | h
    · rw [h]
      exact Nat.le_succ _
    · rw [h, UInt64.toNat_add, UInt64.toNat_one]
      exact Nat.mod_le _ _
  refine ⟨?_, fun hfull => ?_⟩
  · exact Nat.le_trans hle (Nat.le_trans hlt (Nat.le_max_right _ _))
  · omega

/-- The outcome of a restore, by the condition that decides it. -/
def RestoredIf (settles : Prop) (c : RamRaidController cfg) (i : Fin cfg.blockCount)
    (outcome : RamRaidController cfg × FaultResult) : Prop :=
  settles ∧ Settled c i outcome ∨ ¬ settles ∧ Unsettled c i outcome

variable {i : Fin cfg.blockCount} {settles : Prop}
variable {outcome : RamRaidController cfg × FaultResult}

theorem RestoredIf.count (h : RestoredIf settles c i outcome) :
    ((c.blocks i).location ≠ .resident ∧ settles ∧
      outcome.1.residentCount = c.residentCount + 1) ∨
    (¬ ((c.blocks i).location ≠ .resident ∧ settles) ∧
      outcome.1.residentCount = c.residentCount) := by
  rcases h with ⟨hsettles, h⟩ | ⟨hunsettled, h⟩
  · have hcount := h.residentCount
    by_cases hres : (c.blocks i).location = .resident
    · rw [if_pos hres] at hcount
      exact .inr ⟨fun h => h.1 hres, hcount⟩
    · rw [if_neg hres] at hcount
      exact .inl ⟨hres, hsettles, hcount⟩
  · exact .inr ⟨fun h => hunsettled h.2, h.residentCount⟩

/-- Room for the block: the bound is kept. -/
theorem RestoredIf.withinBound_room (h : RestoredIf settles c i outcome)
    (hroom : c.atCapacity = false) : WithinBound c outcome.1 := by
  rcases h.count with ⟨-, -, hcount⟩ | ⟨-, hcount⟩
  · exact RamRaidController.withinBound_room hroom (.inr hcount)
  · exact RamRaidController.withinBound_room hroom (.inl hcount)

/-- After an eviction that freed nothing: the bound is kept unless the block arrives. -/
theorem RestoredIf.withinBound_stuck (h : RestoredIf settles c₁ i outcome)
    (hfull : c.atCapacity = true) (hblocks : c₁.blocks = c.blocks)
    (hcount : c₁.residentCount = c.residentCount) :
    WithinBound c outcome.1 ↔
      ((c.blocks i).location ≠ .resident ∧ settles → c.residentCount.toNat + 1 = 2 ^ 64) := by
  rw [withinBound_full hfull]
  rcases h.count with ⟨haway, hsettles, hafter⟩ | ⟨hnot, hafter⟩
  · rw [hblocks] at haway
    rw [hafter, hcount, toNat_succ_le]
    exact ⟨fun h _ => h, fun h => h ⟨haway, hsettles⟩⟩
  · rw [hblocks] at hnot
    rw [hafter, hcount]
    exact iff_of_true (Nat.le_refl _) fun h => absurd h hnot

/-- After an eviction that freed a place: the bound is kept if the count was not zero. -/
theorem RestoredIf.withinBound_left (h : RestoredIf settles c₁ i outcome)
    (hfull : c.atCapacity = true) (hcount : c₁.residentCount = c.residentCount - 1) :
    WithinBound c outcome.1 ↔
      (c.residentCount.toNat = 0 → (c₁.blocks i).location ≠ .resident ∧ settles) := by
  rw [withinBound_full hfull]
  rcases h.count with ⟨haway, hsettles, hafter⟩ | ⟨hnot, hafter⟩
  · rw [hafter, hcount, UInt64.sub_add_cancel]
    exact iff_of_true (Nat.le_refl _) fun _ => ⟨haway, hsettles⟩
  · rw [hafter, hcount, toNat_pred_le]
    exact ⟨fun hne hzero => absurd hzero hne, fun h hzero => hnot (h hzero)⟩

end Bound

section Faults

variable (sha256Hex : List UInt8 → String) (remote : Remote)

theorem restoreBlock_restoredIf (c : RamRaidController cfg) (i : Fin cfg.blockCount)
    (nowNs : UInt64) :
    RestoredIf (Settles sha256Hex (answer remote c i c.busSeq) (c.blocks i)) c i
      (restoreBlock sha256Hex remote c i nowNs) := by
  by_cases h : Settles sha256Hex (answer remote c i c.busSeq) (c.blocks i)
  · exact .inl ⟨h, restoreBlock_settled sha256Hex remote h nowNs⟩
  · exact .inr ⟨h, restoreBlock_unsettled sha256Hex remote h nowNs⟩

theorem restoreBlockInner_restoredIf (c : RamRaidController cfg) (i : Fin cfg.blockCount)
    (nowNs : UInt64) :
    let outcome := restoreBlockInner sha256Hex remote c i nowNs
    RestoredIf (Settles sha256Hex (answerInner remote c i c.busSeq) (c.blocks i)) c i
      (outcome.1, outcome.2.1) := by
  by_cases h : Settles sha256Hex (answerInner remote c i c.busSeq) (c.blocks i)
  · exact .inl ⟨h, restoreBlockInner_settled sha256Hex remote h nowNs⟩
  · exact .inr ⟨h, restoreBlockInner_unsettled sha256Hex remote h nowNs⟩

/-- Once `v` has left, `i` is away. -/
theorem away_after {c c₁ : RamRaidController cfg} {v : Fin cfg.blockCount}
    (h : Departs sha256Hex c v c₁) (i : Fin cfg.blockCount) :
    (c₁.blocks i).location ≠ .resident ↔ i = v ∨ (c.blocks i).location ≠ .resident := by
  rw [h.blocks]
  by_cases hi : i = v
  · subst hi
    rw [Function.update_self]
    exact iff_of_true (departed_away sha256Hex c i).1 (.inl rfl)
  · rw [Function.update_of_ne hi]
    exact ⟨.inr, fun h => h.resolve_left hi⟩

/-- A resident count of zero at capacity: when a block leaves all the same, the faulted block must
take its place. -/
def ZeroCount (c : RamRaidController cfg) (i : Fin cfg.blockCount)
    (comesBack : Fin cfg.blockCount → Prop) : Prop :=
  ∀ v, c.Victim v → Leaves sha256Hex remote c v → c.residentCount.toNat = 0 →
    (i = v ∨ (c.blocks i).location ≠ .resident) ∧ comesBack v

/-- Nothing leaves at capacity, and no further block arrives. -/
structure NoArrival (c : RamRaidController cfg) (i : Fin cfg.blockCount) : Prop where
  refused : ∀ v, c.Victim v → ¬ Leaves sha256Hex remote c v →
    Arrives sha256Hex (answerInner remote c i (c.busSeq + 1)) (c.blocks i) →
      c.residentCount.toNat + 1 = 2 ^ 64
  nothing : (∀ v, ¬ c.Victim v) →
    Arrives sha256Hex (answerInner remote c i c.busSeq) (c.blocks i) →
      c.residentCount.toNat + 1 = 2 ^ 64

variable {c : RamRaidController cfg} {faultAddr : Nat} {i : Fin cfg.blockCount}

theorem handleFault_bound_iff (hi : blockIndexForAddr cfg faultAddr = i)
    (hfull : c.atCapacity = true) (nowNs : UInt64) :
    WithinBound c (handleFault sha256Hex remote c nowNs faultAddr).1 ↔
      ZeroCount sha256Hex remote c i fun v =>
        ComesBack sha256Hex c v i (sentAnswer sha256Hex remote c v)
          (answer remote c i (c.seqAfter v)) := by
  cases evicted_evictColdest sha256Hex remote c with
  | left v hvictim hleaves hfreed hdeparts =>
    have hrestored := restoreBlock_restoredIf sha256Hex remote
      (evictColdest sha256Hex remote c).1 i nowNs
    rw [handleFault_left sha256Hex remote hi hfull hfreed]
    apply (hrestored.withinBound_left hfull hdeparts.residentCount).trans
    rw [settles_after sha256Hex remote hdeparts, away_after sha256Hex hdeparts]
    constructor
    · intro h v' hvictim' _ hzero
      obtain rfl : v = v' := hvictim.unique hvictim'.toColdest
      exact h hzero
    · exact fun h hzero => h v hvictim hleaves hzero
  | refused v hvictim hstays hfreed heq =>
    obtain ⟨history, heq⟩ := heq
    rw [handleFault_stuck sha256Hex remote hi hfull hfreed, heq, withinBound_full hfull]
    refine iff_of_true (Nat.le_refl _) fun v' hvictim' hleaves => ?_
    obtain rfl : v = v' := hvictim.unique hvictim'.toColdest
    exact absurd hleaves hstays
  | nothing hnone hfreed heq =>
    rw [handleFault_stuck sha256Hex remote hi hfull hfreed, heq, withinBound_full hfull]
    exact iff_of_true (Nat.le_refl _) fun v hvictim => absurd hvictim (hnone v)

theorem handleFaultProduction_eq (hi : blockIndexForAddr cfg faultAddr = i) (nowNs : UInt64) :
    handleFaultProduction sha256Hex remote c nowNs faultAddr =
      restoreBlockInner sha256Hex remote
        (if c.atCapacity then (evictColdest sha256Hex remote c).1 else c) i nowNs := by
  simp only [handleFaultProduction, hi, i.isLt, dite_true]

theorem handleFaultProduction_bound_iff (hi : blockIndexForAddr cfg faultAddr = i)
    (hfull : c.atCapacity = true) (nowNs : UInt64) :
    WithinBound c (handleFaultProduction sha256Hex remote c nowNs faultAddr).1 ↔
      (ZeroCount sha256Hex remote c i fun v =>
        ComesBack sha256Hex c v i (sentAnswerInner sha256Hex remote c v)
          (answerInner remote c i (c.seqAfter v))) ∧
      NoArrival sha256Hex remote c i := by
  have hrestored := restoreBlockInner_restoredIf sha256Hex remote
    (evictColdest sha256Hex remote c).1 i nowNs
  rw [handleFaultProduction_eq sha256Hex remote hi, if_pos hfull]
  cases evicted_evictColdest sha256Hex remote c with
  | left v hvictim hleaves hfreed hdeparts =>
    apply (hrestored.withinBound_left hfull hdeparts.residentCount).trans
    rw [settles_after_inner sha256Hex remote hdeparts, away_after sha256Hex hdeparts]
    constructor
    · refine fun h => ⟨fun v' hvictim' _ hzero => ?_, fun v' hvictim' hstays => ?_, fun hnone => ?_⟩
      · obtain rfl : v = v' := hvictim.unique hvictim'.toColdest
        exact h hzero
      · obtain rfl : v = v' := hvictim.unique hvictim'.toColdest
        exact absurd hleaves hstays
      · exact absurd hvictim (hnone v)
    · exact fun h hzero => h.1 v hvictim hleaves hzero
  | refused v hvictim hstays hfreed heq =>
    obtain ⟨history, heq⟩ := heq
    rw [heq] at hrestored ⊢
    apply (hrestored.withinBound_stuck hfull rfl rfl).trans
    constructor
    · refine fun h => ⟨fun v' hvictim' hleaves => ?_, fun _ _ _ harrives => h harrives,
        fun hnone => absurd hvictim (hnone v)⟩
      obtain rfl : v = v' := hvictim.unique hvictim'.toColdest
      exact absurd hleaves hstays
    · exact fun h harrives => h.2.refused v hvictim hstays harrives
  | nothing hnone hfreed heq =>
    rw [heq] at hrestored ⊢
    apply (hrestored.withinBound_stuck hfull rfl rfl).trans
    constructor
    · exact fun h => ⟨fun v hvictim => absurd hvictim (hnone v),
        fun v hvictim => absurd hvictim (hnone v), fun _ harrives => h harrives⟩
    · exact fun h harrives => h.2.nothing hnone harrives

/-- Both fault paths keep the resident count within its bound exactly if at capacity a victim
leaves or no further block arrives, and the count itself does not wrap around. -/
theorem faults_withinBound_iff (c : RamRaidController cfg) (nowNs : UInt64) (faultAddr : Nat) :
    (WithinBound c (handleFault sha256Hex remote c nowNs faultAddr).1 ∧
      WithinBound c (handleFaultProduction sha256Hex remote c nowNs faultAddr).1) ↔
    ∀ i : Fin cfg.blockCount, blockIndexForAddr cfg faultAddr = i → c.atCapacity = true →
      NoArrival sha256Hex remote c i ∧
      (ZeroCount sha256Hex remote c i fun v =>
        ComesBack sha256Hex c v i (sentAnswer sha256Hex remote c v)
          (answer remote c i (c.seqAfter v))) ∧
      ZeroCount sha256Hex remote c i fun v =>
        ComesBack sha256Hex c v i (sentAnswerInner sha256Hex remote c v)
          (answerInner remote c i (c.seqAfter v)) := by
  by_cases hlt : blockIndexForAddr cfg faultAddr < cfg.blockCount
  · obtain ⟨i, hi⟩ : ∃ i : Fin cfg.blockCount, blockIndexForAddr cfg faultAddr = i :=
      ⟨⟨_, hlt⟩, rfl⟩
    cases hfull : c.atCapacity with
    | false =>
      refine iff_of_true ⟨?_, ?_⟩ fun _ _ h => absurd h Bool.false_ne_true
      · rw [handleFault_room sha256Hex remote hi hfull]
        exact (restoreBlock_restoredIf sha256Hex remote c i nowNs).withinBound_room hfull
      · rw [handleFaultProduction_eq sha256Hex remote hi, hfull,
          if_neg Bool.false_ne_true]
        exact (restoreBlockInner_restoredIf sha256Hex remote c i nowNs).withinBound_room hfull
    | true =>
      rw [handleFault_bound_iff sha256Hex remote hi hfull,
        handleFaultProduction_bound_iff sha256Hex remote hi hfull]
      constructor
      · intro h i' hi' _
        obtain rfl : i = i' := Fin.ext (hi.symm.trans hi')
        exact ⟨h.2.2, h.1, h.2.1⟩
      · intro h
        obtain ⟨harrival, hzero, hzeroInner⟩ := h i hi rfl
        exact ⟨hzero, hzeroInner, harrival⟩
  · refine iff_of_true ?_ fun i hi => absurd (hi ▸ i.isLt) hlt
    have hsame : WithinBound c c := ⟨Nat.le_max_left _ _, fun _ => Nat.le_refl _⟩
    obtain ⟨reason, heq⟩ := handleFault_out sha256Hex remote (c := c) hlt nowNs
    rw [heq]
    refine ⟨hsame, ?_⟩
    simp only [handleFaultProduction, dif_neg hlt]
    exact hsame

end Faults

open Demo in
/-- The eviction of block 1 is refused, and the production path makes block 0 resident as well. -/
theorem faults_beyondBound :
    ¬ ∀ (rs : List Request) (remote : Remote) (nowNs : UInt64) (faultAddr : Nat),
      let c := Machine.run (exec stripedSha256) (start stripedPair true none) rs
      WithinBound c (handleFault stripedSha256 remote c nowNs faultAddr).1 ∧
        WithinBound c (handleFaultProduction stripedSha256 remote c nowNs faultAddr).1 := by
  intro hall
  have hfull := (hall [⟨.simulateWrite 1, 1, offline⟩] offline 2 0).2.full
  revert hfull
  decide

end RamRaidController

end Spaceshuttle.Raid
