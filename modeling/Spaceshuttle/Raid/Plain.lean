import Spaceshuttle.Raid.Transitions

/-!
# Tables that are only read

Without a write no block is ever dirty or has a hash. A read then fills a block with zeros, an
eviction drops a block, and it is known exactly which blocks are resident after either.
-/

namespace Spaceshuttle.Raid

/-- A block that was never written and is not being fetched. -/
structure RaidBlock.Plain (b : RaidBlock) : Prop where
  settled : b.location = .resident ∨ b.location = .virgin
  clean : b.dirty = false
  unhashed : b.contentHash = none

namespace RaidBlock.Plain

variable {b : RaidBlock}

theorem touch (h : b.Plain) (nowNs : UInt64) : (b.touch nowNs).Plain :=
  ⟨h.settled, h.clean, h.unhashed⟩

theorem zeroFill (h : b.Plain) (nowNs : UInt64) : (b.zeroFill nowNs).Plain :=
  ⟨.inl rfl, h.clean, h.unhashed⟩

theorem drop_location (h : b.Plain) (idx : Nat) : (b.drop idx).location = .virgin := by
  simp [RaidBlock.drop, RaidBlock.dropTarget, h.unhashed]

theorem drop (h : b.Plain) (idx : Nat) : (b.drop idx).Plain :=
  ⟨.inr (h.drop_location idx), h.clean, h.unhashed⟩

end RaidBlock.Plain

namespace RamRaidController

variable {cfg : RaidConfig}

/-- The block is in the table and resident. -/
def Holds (c : RamRaidController cfg) (i : Nat) : Prop :=
  ∃ h : i < cfg.blockCount, (c.blocks ⟨i, h⟩).location = .resident

/-- No block was ever written, and the resident blocks are those of `p`. -/
structure PlainWith (c : RamRaidController cfg) (p : Nat → Prop) : Prop where
  plain : ∀ i, (c.blocks i).Plain
  holds : ∀ j, c.Holds j ↔ p j

variable {c c' : RamRaidController cfg} {p : Nat → Prop}

theorem holds_fin (c : RamRaidController cfg) (i : Fin cfg.blockCount) :
    c.Holds i ↔ (c.blocks i).location = .resident :=
  ⟨fun ⟨_, h⟩ => h, fun h => ⟨i.isLt, h⟩⟩

/-- One block of the table is replaced. -/
theorem plainWith_update (hc : PlainWith c p) {i : Fin cfg.blockCount} {b : RaidBlock}
    (h : c'.blocks = Function.update c.blocks i b) (hb : b.Plain) :
    PlainWith c' (fun j => if j = i then b.location = .resident else p j) where
  plain := by
    rw [h]
    exact (Function.forall_update_iff c.blocks (fun _ b => b.Plain)).mpr ⟨hb, fun j _ => hc.plain j⟩
  holds := by
    intro j
    by_cases hj : j = i
    · subst hj
      rw [if_pos rfl, holds_fin, h, Function.update_self]
    · rw [if_neg hj, ← hc.holds j]
      refine exists_congr fun hlt => ?_
      rw [h, Function.update_of_ne (fun heq => hj (congrArg Fin.val heq))]

theorem plainWith_new (cfg : RaidConfig) (muxClient : Bool)
    (localBlockStore : Option Cluster.BlockStore) :
    PlainWith { new cfg with muxClient := muxClient, localBlockStore := localBlockStore }
      (fun _ => False) where
  plain := fun _ => ⟨.inr rfl, rfl, rfl⟩
  holds := by
    intro j
    simp [Holds, new, freshBlock]

theorem PlainWith.congr {q : Nat → Prop} (hc : PlainWith c p) (h : ∀ j, p j ↔ q j) :
    PlainWith c q :=
  ⟨hc.plain, fun j => (hc.holds j).trans (h j)⟩

/-! ## Evicting -/

section Evict

variable (sha256Hex : List UInt8 → String) (remote : Remote)

theorem coldest_congr (hblocks : c'.blocks = c.blocks) (hclock : c'.lruClock = c.lruClock) :
    c'.coldest = c.coldest := by
  simp only [coldest, coldestStep, hblocks, hclock]

/-- The blocks as the scan ranks them, coldest first, at most `k`: each is looked for with the ones
before it dropped and the clock after the last of them. -/
def coldestFirst : Nat → RamRaidController cfg → List (Fin cfg.blockCount)
  | 0, _ => []
  | k + 1, c =>
      match c.coldest with
      | none => []
      | some i =>
          i :: coldestFirst k
            { c.modifyBlock i (fun b => b.drop i) with lruClock := UInt64.ofNat (i + 1) }

theorem coldestFirst_congr (k : Nat) (hblocks : c'.blocks = c.blocks)
    (hclock : c'.lruClock = c.lruClock) : coldestFirst k c' = coldestFirst k c := by
  induction k generalizing c c' with
  | zero => rfl
  | succ k ih =>
    rw [coldestFirst, coldestFirst, coldest_congr hblocks hclock]
    cases c.coldest with
    | none => rfl
    | some i =>
      refine congrArg (i :: ·) (ih ?_ rfl)
      simp only [modifyBlock, hblocks]

/-- The number of blocks `proactive_evict` asks for (`ram_raid.rs:1204-1214`). -/
def proactiveCount (c : RamRaidController cfg) : Nat :=
  let resident := Float.ofNat c.residentCount.toNat
  let max := Float.ofNat cfg.maxResidentBlocks
  let utilization := (resident / max) * 100.0
  if utilization < 75.0 then 0
  else resident.toUInt64.toNat - (max * 0.6).toUInt64.toNat

theorem proactiveEvict_eq (c : RamRaidController cfg) :
    proactiveEvict sha256Hex remote c = evictUpTo sha256Hex remote c.proactiveCount c := by
  unfold proactiveEvict proactiveCount
  simp only
  split
  · rfl
  · rfl

/-- The coldest block of a table that is only read is dropped. -/
theorem evictColdest_plain (hc : PlainWith c p) {v : Fin cfg.blockCount}
    (hcold : c.coldest = some v) :
    ∃ c', evictColdest sha256Hex remote c = (c', .dropped v) ∧
      c'.blocks = Function.update c.blocks v ((c.blocks v).drop v) ∧
      c'.lruClock = UInt64.ofNat (v + 1) ∧ PlainWith c' (fun j => p j ∧ j ≠ v) := by
  have hclean := (hc.plain v).clean
  have hblocks : (evictColdest sha256Hex remote c).1.blocks =
      Function.update c.blocks v ((c.blocks v).drop v) := by
    simp [evictColdest, hcold, evictVictim, hclean, evictClean, modifyBlock]
  refine ⟨_, Prod.ext rfl ?_, hblocks, ?_, ?_⟩
  · simp [evictColdest, hcold, evictVictim, hclean, evictClean]
  · simp [evictColdest, hcold, evictVictim, hclean, evictClean, modifyBlock]
  · refine (plainWith_update hc hblocks ((hc.plain v).drop v)).congr fun j => ?_
    by_cases hj : j = v
    · simp [hj, (hc.plain v).drop_location v]
    · simp [hj]

theorem evictUpTo_plain (k : Nat) (hc : PlainWith c p) :
    PlainWith (evictUpTo sha256Hex remote k c).1
      (fun j => p j ∧ ∀ v ∈ coldestFirst k c, j ≠ v.val) := by
  induction k generalizing c p with
  | zero => exact hc.congr fun j => by simp [coldestFirst]
  | succ k ih =>
    cases hcold : c.coldest with
    | none =>
      have hnothing : evictColdest sha256Hex remote c = (c, .nothingToEvict) := by
        simp [evictColdest, hcold]
      simp only [evictUpTo, hnothing, coldestFirst, hcold]
      exact hc.congr fun j => by simp
    | some v =>
      obtain ⟨c₁, hdrop, hblocks, hclock, hc₁⟩ := evictColdest_plain sha256Hex remote hc hcold
      have hrest : coldestFirst k c₁ = coldestFirst k
          { c.modifyBlock v (fun b => b.drop v) with lruClock := UInt64.ofNat (v + 1) } :=
        coldestFirst_congr k hblocks hclock
      simp only [evictUpTo, hdrop, coldestFirst, hcold]
      refine (ih hc₁).congr fun j => ?_
      rw [hrest, List.forall_mem_cons, and_assoc]

end Evict

/-! ## Reading -/

section Read

variable (sha256Hex : List UInt8 → String) (remote : Remote) (nowNs : UInt64)

theorem simulateRead_outside {i : Nat} (h : cfg.blockCount ≤ i) :
    (simulateRead sha256Hex remote c nowNs i).1 = c := by
  simp [simulateRead, Nat.not_lt.mpr h]

theorem simulateRead_hit (hc : PlainWith c p) {i : Fin cfg.blockCount}
    (hres : (c.blocks i).location = .resident) :
    PlainWith (simulateRead sha256Hex remote c nowNs i).1 p := by
  have hblocks : (simulateRead sha256Hex remote c nowNs i).1.blocks =
      Function.update c.blocks i ((c.blocks i).touch nowNs) := by
    simp [simulateRead, hres, modifyBlock]
  refine (plainWith_update hc hblocks ((hc.plain i).touch nowNs)).congr fun j => ?_
  by_cases hj : j = i
  · subst hj
    simp [RaidBlock.touch, hres, ← hc.holds, holds_fin]
  · simp [hj]

/-- A block that is not resident is filled with zeros. -/
theorem restoreBlock_plain (hc : PlainWith c p) {i : Fin cfg.blockCount}
    (haway : (c.blocks i).location ≠ .resident) :
    PlainWith (restoreBlock sha256Hex remote c i nowNs).1 (fun j => j = i ∨ p j) := by
  have hvirgin : (c.blocks i).location = .virgin := (hc.plain i).settled.resolve_left haway
  have hblocks : (restoreBlock sha256Hex remote c i nowNs).1.blocks =
      Function.update c.blocks i ((c.blocks i).zeroFill nowNs) := by
    simp [restoreBlock, hvirgin, fillVirgin, modifyBlock]
  refine (plainWith_update hc hblocks ((hc.plain i).zeroFill nowNs)).congr fun j => ?_
  by_cases hj : j = i
  · simp [hj, RaidBlock.zeroFill]
  · simp [hj]

/-- A read of a block that is not resident is a fault at its first byte. -/
theorem simulateRead_fault {i : Fin cfg.blockCount} (haway : (c.blocks i).location ≠ .resident) :
    simulateRead sha256Hex remote c nowNs i =
        handleFault sha256Hex remote c nowNs (i * cfg.blockSize) ∧
      blockIndexForAddr cfg (i * cfg.blockSize) = i := by
  refine ⟨?_, Nat.mul_div_cancel i.val cfg.blockSize_pos⟩
  simp [simulateRead, haway]

theorem simulateRead_room (hc : PlainWith c p) {i : Fin cfg.blockCount}
    (haway : (c.blocks i).location ≠ .resident) (hroom : c.atCapacity = false) :
    PlainWith (simulateRead sha256Hex remote c nowNs i).1 (fun j => j = i ∨ p j) := by
  obtain ⟨hfault, haddr⟩ := simulateRead_fault sha256Hex remote nowNs haway
  have hread : simulateRead sha256Hex remote c nowNs i = restoreBlock sha256Hex remote c i nowNs := by
    rw [hfault]
    simp [handleFault, haddr, hroom]
  rw [hread]
  exact restoreBlock_plain sha256Hex remote nowNs hc haway

/-- A full table without a block to evict is left alone. -/
theorem simulateRead_stuck {i : Fin cfg.blockCount} (haway : (c.blocks i).location ≠ .resident)
    (hfull : c.atCapacity = true) (hcold : c.coldest = none) :
    (simulateRead sha256Hex remote c nowNs i).1 = c := by
  obtain ⟨hfault, haddr⟩ := simulateRead_fault sha256Hex remote nowNs haway
  rw [hfault]
  simp [handleFault, haddr, hfull, evictColdest, hcold, freed]

/-- A full table makes room with its coldest block. -/
theorem simulateRead_full (hc : PlainWith c p) {i v : Fin cfg.blockCount}
    (haway : (c.blocks i).location ≠ .resident) (hfull : c.atCapacity = true)
    (hcold : c.coldest = some v) :
    PlainWith (simulateRead sha256Hex remote c nowNs i).1 (fun j => j = i ∨ (p j ∧ j ≠ v)) := by
  obtain ⟨c₁, hdrop, hblocks, -, hc₁⟩ := evictColdest_plain sha256Hex remote hc hcold
  have haway₁ : (c₁.blocks i).location ≠ .resident := by
    intro h
    have hi : p i := ((hc₁.holds i).mp ((holds_fin c₁ i).mpr h)).1
    exact haway ((holds_fin c i).mp ((hc.holds i).mpr hi))
  obtain ⟨hfault, haddr⟩ := simulateRead_fault sha256Hex remote nowNs haway
  have hread : (simulateRead sha256Hex remote c nowNs i).1 =
      (restoreBlock sha256Hex remote c₁ i nowNs).1 := by
    rw [hfault]
    simp [handleFault, haddr, hfull, hdrop, freed]
  rw [hread]
  exact restoreBlock_plain sha256Hex remote nowNs hc₁ haway₁

/-- The ways a read of block `i` goes, each with the blocks resident after it. -/
inductive ReadCase (c : RamRaidController cfg) (p : Nat → Prop) (i : Nat) : (Nat → Prop) → Prop where
  | outside (h : cfg.blockCount ≤ i) : ReadCase c p i p
  | hit (h : p i) : ReadCase c p i p
  | room (hlt : i < cfg.blockCount) (haway : ¬ p i) (hroom : c.atCapacity = false) :
      ReadCase c p i (fun j => j = i ∨ p j)
  | stuck (haway : ¬ p i) (hfull : c.atCapacity = true) (hcold : c.coldest = none) :
      ReadCase c p i p
  | full (v : Fin cfg.blockCount) (hlt : i < cfg.blockCount) (haway : ¬ p i)
      (hfull : c.atCapacity = true) (hcold : c.coldest = some v) :
      ReadCase c p i (fun j => j = i ∨ (p j ∧ j ≠ v))

theorem simulateRead_plain (hc : PlainWith c p) (i : Nat) :
    ∃ q, ReadCase c p i q ∧ PlainWith (simulateRead sha256Hex remote c nowNs i).1 q := by
  by_cases hlt : i < cfg.blockCount
  · have hi : p i ↔ (c.blocks ⟨i, hlt⟩).location = .resident :=
      (hc.holds i).symm.trans (holds_fin c ⟨i, hlt⟩)
    by_cases haway : p i
    · exact ⟨p, .hit haway, simulateRead_hit sha256Hex remote nowNs hc (hi.mp haway)⟩
    · have hloc : (c.blocks ⟨i, hlt⟩).location ≠ .resident := mt hi.mpr haway
      cases hfull : c.atCapacity with
      | false =>
        exact ⟨_, .room hlt haway hfull, simulateRead_room sha256Hex remote nowNs hc hloc hfull⟩
      | true =>
        cases hcold : c.coldest with
        | none =>
          refine ⟨p, .stuck haway hfull hcold, ?_⟩
          have hkeep := simulateRead_stuck sha256Hex remote nowNs hloc hfull hcold
          rw [hkeep]
          exact hc
        | some v =>
          exact ⟨_, .full v hlt haway hfull hcold,
            simulateRead_full sha256Hex remote nowNs hc hloc hfull hcold⟩
  · refine ⟨p, .outside (Nat.not_lt.mp hlt), ?_⟩
    rw [simulateRead_outside sha256Hex remote nowNs (Nat.not_lt.mp hlt)]
    exact hc

/-- After a read of block `i` it and the blocks of `kept`, resident before, are resident if and
only if the table has the block, and has it already or has room for it or makes room with a block
that is not among them. -/
theorem ReadCase.covers_iff (hc : PlainWith c p) {i : Nat} {q : Nat → Prop}
    (hread : ReadCase c p i q) {kept : Nat → Prop} (hkept : ∀ j, kept j → p j) :
    (∀ j, j = i ∨ kept j → q j) ↔
      i < cfg.blockCount ∧
        (p i ∨ c.atCapacity = false ∨ ∃ v, c.coldest = some v ∧ ¬ kept v) := by
  have hlt : p i → i < cfg.blockCount := fun hi => ((hc.holds i).mpr hi).1
  cases hread with
  | outside hout =>
    constructor
    · intro hall
      exact absurd (hlt (hall i (.inl rfl))) (Nat.not_lt.mpr hout)
    · rintro ⟨hin, -⟩
      omega
  | hit hi =>
    refine iff_of_true ?_ ⟨hlt hi, .inl hi⟩
    rintro j (rfl | hj)
    · exact hi
    · exact hkept j hj
  | room hin haway hroom =>
    refine iff_of_true ?_ ⟨hin, .inr (.inl hroom)⟩
    exact fun j hj => hj.imp_right (hkept j)
  | stuck haway hfull hcold =>
    constructor
    · intro hall
      exact absurd (hall i (.inl rfl)) haway
    · rintro ⟨-, hi | hroom | ⟨v, hv, -⟩⟩
      · exact absurd hi haway
      · rw [hfull] at hroom
        cases hroom
      · rw [hcold] at hv
        cases hv
  | full v hin haway hfull hcold =>
    have hpv : p v := (hc.holds v).mp ((holds_fin c v).mpr (coldest_resident hcold))
    constructor
    · intro hall
      refine ⟨hin, .inr (.inr ⟨v, hcold, fun hv => ?_⟩)⟩
      rcases hall v (.inr hv) with heq | ⟨-, hne⟩
      · exact haway (heq ▸ hpv)
      · exact hne rfl
    · rintro ⟨-, hi | hroom | ⟨w, hw, hnot⟩⟩ j hj
      · exact absurd hi haway
      · rw [hfull] at hroom
        cases hroom
      · obtain rfl : v = w := Option.some.inj (hcold.symm.trans hw)
        rcases hj with hj | hj
        · exact .inl hj
        · refine .inr ⟨hkept j hj, ?_⟩
          rintro rfl
          exact hnot hj

end Read

end RamRaidController

end Spaceshuttle.Raid
