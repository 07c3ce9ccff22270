import Mathlib.Logic.Relation
import Spaceshuttle.Raid.Controller

/-!
# What an operation can do to the block table

Every operation of the controller is a chain of few kinds of changes: a block is touched, filled
with zeros, restored, written or evicted. `Step` lists them with everything that is known when
they happen, and the theorems of this module find the chain of every operation. Invariants are
then proved per kind of change. Two kinds occur only in batch reads, which restore a block once
per occurrence in the list they are given.
-/

namespace Spaceshuttle.Raid

namespace RamRaidController

variable {cfg : RaidConfig}

/-- The block table, the two counters of the table and the history are unchanged. -/
structure Keeps (c c' : RamRaidController cfg) : Prop where
  blocks : c'.blocks = c.blocks
  residentCount : c'.residentCount = c.residentCount
  evictionsPerformed : c'.evictionsPerformed = c.evictionsPerformed
  evictions : c'.evictions = c.evictions

/-- One block becomes `b` and the resident count becomes `count`; nothing is evicted. -/
structure Puts (c : RamRaidController cfg) (i : Fin cfg.blockCount) (b : RaidBlock) (count : UInt64)
    (c' : RamRaidController cfg) : Prop where
  blocks : c'.blocks = Function.update c.blocks i b
  residentCount : c'.residentCount = count
  evictionsPerformed : c'.evictionsPerformed = c.evictionsPerformed
  evictions : c'.evictions = c.evictions

/-- One resident block becomes `b` and leaves the arena with the given result. -/
structure Evicts (c : RamRaidController cfg) (i : Fin cfg.blockCount) (b : RaidBlock)
    (result : EvictionResult) (c' : RamRaidController cfg) : Prop where
  blocks : c'.blocks = Function.update c.blocks i b
  residentCount : c'.residentCount = c.residentCount - 1
  evictionsPerformed : c'.evictionsPerformed = c.evictionsPerformed + 1
  evictions : c'.evictions = c.evictions ++ [⟨i, c.blocks i, result, b.location⟩]

/-- Where a dirty eviction with the given result puts a block: the two branches of
`evict_coldest`. -/
inductive PlacedBy (cfg : RaidConfig) (i : Nat) : EvictionResult → BlockLocation → Prop where
  | localStore (size : Nat) (seq : UInt64) :
      PlacedBy cfg i (.evictedLocal i size) (localLocation i seq)
  | remoteKernel (size : Nat) (seq : UInt64) :
      PlacedBy cfg i (.evictedRemote i size) (remoteLocation cfg seq)

/-- One change of the block table. `batch` allows the two changes that only batch reads make. -/
inductive Step (batch : Bool) : RamRaidController cfg → RamRaidController cfg → Prop where
  | quiet {c c'} (h : Keeps c c') : Step batch c c'
  | touch {c c'} (i : Fin cfg.blockCount) (nowNs : UInt64)
      (h : Puts c i ((c.blocks i).touch nowNs) c.residentCount c') : Step batch c c'
  | fill {c c'} (i : Fin cfg.blockCount) (nowNs : UInt64)
      (hvirgin : (c.blocks i).location = .virgin)
      (h : Puts c i ((c.blocks i).zeroFill nowNs) (c.residentCount + 1) c') : Step batch c c'
  | restore {c c'} (i : Fin cfg.blockCount) (nowNs : UInt64)
      (haway : (c.blocks i).location ≠ .resident)
      (h : Puts c i ((c.blocks i).restore nowNs) (c.residentCount + 1) c') : Step batch c c'
  | write {c c'} (i : Fin cfg.blockCount) (nowNs : UInt64)
      (h : Puts c i ((c.blocks i).write i nowNs)
        (if (c.blocks i).location = .resident then c.residentCount else c.residentCount + 1) c') :
      Step batch c c'
  | drop {c c'} (i : Fin cfg.blockCount) (hresident : (c.blocks i).location = .resident)
      (hclean : (c.blocks i).dirty = false)
      (h : Evicts c i ((c.blocks i).drop i) (.dropped i) c') : Step batch c c'
  | store {c c'} (i : Fin cfg.blockCount) (location : BlockLocation) (hash edSeal : String)
      (result : EvictionResult) (hresident : (c.blocks i).location = .resident)
      (hdirty : (c.blocks i).dirty = true) (hplaced : PlacedBy cfg i result location)
      (h : Evicts c i ((c.blocks i).store location hash edSeal) result c') : Step batch c c'
  | stuck {c c'} (i : Fin cfg.blockCount) (reason : String) (hblocks : c'.blocks = c.blocks)
      (hcount : c'.residentCount = c.residentCount)
      (hperformed : c'.evictionsPerformed = c.evictionsPerformed)
      (hevictions : c'.evictions = c.evictions ++
        [⟨i, c.blocks i, .failed i reason, (c.blocks i).location⟩]) : Step batch c c'
  | refill {c c'} (i : Fin cfg.blockCount) (nowNs : UInt64) (hbatch : batch = true)
      (hresident : (c.blocks i).location = .resident) (hclean : (c.blocks i).dirty = false)
      (hhash : (c.blocks i).contentHash = none)
      (h : Puts c i ((c.blocks i).zeroFill nowNs) (c.residentCount + 1) c') : Step batch c c'
  | rerestore {c c'} (i : Fin cfg.blockCount) (nowNs : UInt64) (hbatch : batch = true)
      (hresident : (c.blocks i).location = .resident) (hclean : (c.blocks i).dirty = false)
      (h : Puts c i ((c.blocks i).restore nowNs) (c.residentCount + 1) c') : Step batch c c'

/-- A chain of changes. -/
abbrev Trace (batch : Bool) : RamRaidController cfg → RamRaidController cfg → Prop :=
  Relation.ReflTransGen (Step batch)

theorem Step.mono {c c' : RamRaidController cfg} (h : Step false c c') (batch : Bool) :
    Step batch c c' := by
  cases h with
  | quiet h => exact .quiet h
  | touch i nowNs h => exact .touch i nowNs h
  | fill i nowNs hvirgin h => exact .fill i nowNs hvirgin h
  | restore i nowNs haway h => exact .restore i nowNs haway h
  | write i nowNs h => exact .write i nowNs h
  | drop i hresident hclean h => exact .drop i hresident hclean h
  | store i location hash edSeal result hresident hdirty hplaced h =>
    exact .store i location hash edSeal result hresident hdirty hplaced h
  | stuck i reason hblocks hcount hperformed hevictions =>
    exact .stuck i reason hblocks hcount hperformed hevictions
  | refill i nowNs hbatch => cases hbatch
  | rerestore i nowNs hbatch => cases hbatch

theorem Trace.mono {c c' : RamRaidController cfg} (h : Trace false c c') (batch : Bool) :
    Trace batch c c' := by
  induction h with
  | refl => exact .refl
  | tail _ hs ih => exact ih.tail (hs.mono batch)

/-- What every change keeps, a chain of changes keeps. -/
theorem Trace.invariant {batch : Bool} {p : RamRaidController cfg → Prop}
    (hstep : ∀ c c', Step batch c c' → p c → p c') {c c' : RamRaidController cfg}
    (h : Trace batch c c') (hc : p c) : p c' := by
  induction h with
  | refl => exact hc
  | tail _ hs ih => exact hstep _ _ hs ih

/-! ## Restoring -/

section Restore

variable (sha256Hex : List UInt8 → String) (remote : Remote)

theorem Keeps.refl (c : RamRaidController cfg) : Keeps c c := ⟨rfl, rfl, rfl, rfl⟩

theorem nextSeq_keeps (c : RamRaidController cfg) : Keeps c c.nextSeq := ⟨rfl, rfl, rfl, rfl⟩

theorem fetchRemote_keeps (c : RamRaidController cfg) (i : Fin cfg.blockCount)
    (contentHash : Option String) (busSeq : UInt64) :
    Keeps c (fetchRemote remote c i contentHash busSeq).1 := by
  unfold fetchRemote
  by_cases hmux : c.muxClient = true
  · simp only [hmux, if_true]
    split <;> exact Keeps.refl c
  · simp only [hmux, Bool.false_eq_true, if_false]
    cases c.localBlockStore with
    | none => exact Keeps.refl c
    | some store =>
      simp only
      split <;> exact ⟨rfl, rfl, rfl, rfl⟩

theorem Keeps.trans {a b c : RamRaidController cfg} (h₁ : Keeps a b) (h₂ : Keeps b c) : Keeps a c :=
  ⟨h₂.blocks.trans h₁.blocks, h₂.residentCount.trans h₁.residentCount,
    h₂.evictionsPerformed.trans h₁.evictionsPerformed, h₂.evictions.trans h₁.evictions⟩

/-- A restore after changes that leave the table alone. -/
theorem arriveRemote_trace {c c₁ : RamRaidController cfg} (hk : Keeps c c₁) {i : Fin cfg.blockCount}
    (haway : (c.blocks i).location ≠ .resident) (nowNs : UInt64) (bytes : Nat) :
    Trace false c (c₁.arriveRemote i nowNs bytes) := by
  refine .head (.quiet hk) (.single ?_)
  refine .restore i nowNs ?_ ⟨rfl, rfl, rfl, rfl⟩
  rw [hk.blocks]
  exact haway

/-- A restore from the remote kernel: the block arrives after changes that leave the table alone, or
only those happen. -/
theorem restoreBlock_remote {c : RamRaidController cfg} {i : Fin cfg.blockCount}
    {kernelId endpoint token : String}
    (hloc : (c.blocks i).location = .remoteKernel kernelId endpoint token) (nowNs : UInt64) :
    ∃ c₁, Keeps c c₁ ∧ ((restoreBlock sha256Hex remote c i nowNs).1 = c₁ ∨
      ∃ bytes, (restoreBlock sha256Hex remote c i nowNs).1 = c₁.arriveRemote i nowNs bytes) := by
  have hkeeps : Keeps c (fetchRemote remote c.nextSeq i (c.blocks i).contentHash c.busSeq).1 :=
    (nextSeq_keeps c).trans (fetchRemote_keeps remote c.nextSeq i _ _)
  refine ⟨_, hkeeps, ?_⟩
  simp only [restoreBlock, hloc]
  rcases fetchRemote remote c.nextSeq i (c.blocks i).contentHash c.busSeq with
    ⟨c₁, reason | _ | data⟩
  · exact .inl rfl
  · exact .inr ⟨_, rfl⟩
  · cases (c.blocks i).contentHash with
    | none => exact .inr ⟨_, rfl⟩
    | some expected =>
      simp only
      split
      · exact .inl rfl
      · exact .inr ⟨_, rfl⟩

theorem restoreBlock_trace (c : RamRaidController cfg) (i : Fin cfg.blockCount) (nowNs : UInt64) :
    Trace false c (restoreBlock sha256Hex remote c i nowNs).1 := by
  cases hloc : (c.blocks i).location with
  | resident =>
    simp only [restoreBlock, hloc]
    exact .refl
  | virgin =>
    simp only [restoreBlock, hloc]
    exact .single (.fill i nowNs hloc ⟨rfl, rfl, rfl, rfl⟩)
  | localStore path token =>
    simp only [restoreBlock, hloc]
    exact .single (.restore i nowNs (by rw [hloc]; simp) ⟨rfl, rfl, rfl, rfl⟩)
  | fetching =>
    simp only [restoreBlock, hloc]
    exact .refl
  | remoteKernel kernelId endpoint token =>
    have haway : (c.blocks i).location ≠ .resident := by
      rw [hloc]
      simp
    obtain ⟨c₁, hkeeps, heq | ⟨bytes, heq⟩⟩ := restoreBlock_remote sha256Hex remote hloc nowNs
    · rw [heq]
      exact .single (.quiet hkeeps)
    · rw [heq]
      exact arriveRemote_trace hkeeps haway nowNs bytes

theorem restoreBlockInner_trace (c : RamRaidController cfg) (i : Fin cfg.blockCount)
    (nowNs : UInt64) : Trace false c (restoreBlockInner sha256Hex remote c i nowNs).1 := by
  unfold restoreBlockInner
  cases hloc : (c.blocks i).location with
  | resident => exact .refl
  | virgin => exact .single (.fill i nowNs hloc ⟨rfl, rfl, rfl, rfl⟩)
  | localStore path token => exact restoreBlock_trace sha256Hex remote c i nowNs
  | fetching => exact .refl
  | remoteKernel kernelId endpoint token =>
    have haway : (c.blocks i).location ≠ .resident := by
      rw [hloc]
      simp
    have hkeeps : Keeps c c.nextSeq := nextSeq_keeps c
    simp only
    split
    · exact .single (.quiet hkeeps)
    · split
      · split
        · exact .single (.quiet hkeeps)
        · exact arriveRemote_trace hkeeps haway nowNs _
      · exact arriveRemote_trace hkeeps haway nowNs _

end Restore

/-! ## Evicting -/

section Evict

variable (sha256Hex : List UInt8 → String) (remote : Remote)

/-- The scan only ever settles on a resident block. -/
theorem coldestStep_resident {c : RamRaidController cfg} {idx : Fin cfg.blockCount}
    {acc : Option (Fin cfg.blockCount) × UInt64}
    (hacc : ∀ i, acc.1 = some i → (c.blocks i).location = .resident) :
    ∀ i, (c.coldestStep idx acc).1 = some i → (c.blocks i).location = .resident := by
  intro i hi
  unfold coldestStep at hi
  simp only at hi
  split at hi
  · next h =>
    obtain rfl := Option.some.inj hi
    exact h.1
  · exact hacc i hi

theorem coldest_resident {c : RamRaidController cfg} {i : Fin cfg.blockCount}
    (h : c.coldest = some i) : (c.blocks i).location = .resident := by
  unfold coldest at h
  split at h
  · next hpos =>
    simp only at h
    generalize List.range cfg.blockCount = is at h
    have hfold : ∀ (is : List Nat) (acc : Option (Fin cfg.blockCount) × UInt64),
        (∀ i, acc.1 = some i → (c.blocks i).location = .resident) →
        ∀ i, (is.foldl (fun acc i => c.coldestStep
          ⟨(c.lruClock.toNat % cfg.blockCount + i) % cfg.blockCount, Nat.mod_lt _ hpos⟩ acc) acc).1 =
            some i → (c.blocks i).location = .resident := by
      intro is
      induction is with
      | nil => exact fun _ hacc => hacc
      | cons k is ih => exact fun acc hacc => ih _ (coldestStep_resident hacc)
    exact hfold is _ (by simp) i h
  · cases h

theorem storeRemote_keeps (c : RamRaidController cfg) (i : Fin cfg.blockCount) (data : List UInt8)
    (hash edSeal : String) (seq : UInt64) :
    Keeps c (storeRemote remote c i data hash edSeal seq).1 := by
  unfold storeRemote
  by_cases hmux : c.muxClient = true
  · simp only [hmux, if_true]
    split <;> exact Keeps.refl c
  · simp only [hmux, Bool.false_eq_true, if_false]
    cases c.localBlockStore with
    | none => exact Keeps.refl c
    | some store => exact ⟨rfl, rfl, rfl, rfl⟩

/-- A dirty victim: it is stored away, or the remote kernel refuses it and it stays. -/
theorem evictDirty_cases {c : RamRaidController cfg} (i : Fin cfg.blockCount) :
    (∃ location hash edSeal result, PlacedBy cfg i result location ∧
      (evictDirty sha256Hex remote c i).2 = result ∧
      let c' := (evictDirty sha256Hex remote c i).1
      c'.blocks = Function.update c.blocks i ((c.blocks i).store location hash edSeal) ∧
      c'.residentCount = c.residentCount - 1 ∧
      c'.evictionsPerformed = c.evictionsPerformed + 1 ∧ c'.evictions = c.evictions) ∨
    (∃ reason, (evictDirty sha256Hex remote c i).2 = .failed i reason ∧
      Keeps c (evictDirty sha256Hex remote c i).1) := by
  unfold evictDirty
  simp only
  split
  · have hkeeps := (nextSeq_keeps c).trans
      (storeRemote_keeps remote c.nextSeq i (simulatedData (c.blocks i))
        (sha256Hex (simulatedData (c.blocks i)))
        (simulateEd25519Sign (simulateSha256 (simulatedData (c.blocks i)))) c.busSeq)
    rcases hstore : storeRemote remote c.nextSeq i (simulatedData (c.blocks i))
      (sha256Hex (simulatedData (c.blocks i)))
      (simulateEd25519Sign (simulateSha256 (simulatedData (c.blocks i)))) c.busSeq with
      ⟨c₁, reason | _⟩
    · rw [hstore] at hkeeps
      exact .inr ⟨reason, rfl, hkeeps⟩
    · rw [hstore] at hkeeps
      change Keeps c c₁ at hkeeps
      refine .inl ⟨remoteLocation cfg c.busSeq, sha256Hex (simulatedData (c.blocks i)),
        simulateEd25519Sign (simulateSha256 (simulatedData (c.blocks i))), _,
        .remoteKernel _ c.busSeq, rfl, ?_, ?_, ?_, hkeeps.evictions⟩
      · simp only [modifyBlock]
        rw [hkeeps.blocks]
      · exact congrArg (· - 1) hkeeps.residentCount
      · exact congrArg (· + 1) hkeeps.evictionsPerformed
  · exact .inl ⟨localLocation i c.busSeq, _, _, _, .localStore _ c.busSeq, rfl, rfl, rfl, rfl, rfl⟩

/-- The eviction of a resident block is one change of the table. -/
theorem evictVictim_step {c : RamRaidController cfg} {i : Fin cfg.blockCount}
    (hres : (c.blocks i).location = .resident) :
    Step false c (evictVictim sha256Hex remote c i).1 := by
  unfold evictVictim
  by_cases hdirty : (c.blocks i).dirty = true
  · simp only [hdirty, if_true]
    rcases evictDirty_cases sha256Hex remote (c := c) i with
      ⟨location, hash, edSeal, result, hplaced, hresult, hblocks, hcount, hperf, hevs⟩ |
      ⟨reason, hresult, hkeeps⟩
    · refine .store i location hash edSeal result hres hdirty hplaced ⟨hblocks, hcount, hperf, ?_⟩
      simp only [hevs, hresult, hblocks, Function.update_self]
    · refine .stuck i reason hkeeps.blocks hkeeps.residentCount hkeeps.evictionsPerformed ?_
      simp only [hkeeps.evictions, hresult, hkeeps.blocks]
  · simp only [hdirty, Bool.false_eq_true, if_false]
    refine .drop i hres (by simpa using hdirty) ⟨rfl, rfl, rfl, ?_⟩
    simp [evictClean, modifyBlock]

theorem evictColdest_trace (c : RamRaidController cfg) :
    Trace false c (evictColdest sha256Hex remote c).1 := by
  unfold evictColdest
  cases hcold : c.coldest with
  | none => exact .refl
  | some i =>
    have hres : (c.blocks i).location = .resident := coldest_resident hcold
    refine .head (b := { c with lruClock := UInt64.ofNat (i + 1) }) (.quiet ⟨rfl, rfl, rfl, rfl⟩) ?_
    exact .single (evictVictim_step sha256Hex remote hres)

theorem evictTimes_trace (k : Nat) (c : RamRaidController cfg) :
    Trace false c (evictTimes sha256Hex remote k c) := by
  induction k generalizing c with
  | zero => exact .refl
  | succ k ih => exact (evictColdest_trace sha256Hex remote c).trans (ih _)

theorem evictUpTo_trace (k : Nat) (c : RamRaidController cfg) :
    Trace false c (evictUpTo sha256Hex remote k c).1 := by
  induction k generalizing c with
  | zero => exact .refl
  | succ k ih =>
    have hone := evictColdest_trace sha256Hex remote c
    rw [evictUpTo]
    split
    · next c₁ heq =>
      rw [heq] at hone
      exact hone
    · next c₁ result _ heq =>
      rw [heq] at hone
      exact hone.trans (ih c₁)

theorem proactiveEvict_trace (c : RamRaidController cfg) :
    Trace false c (proactiveEvict sha256Hex remote c).1 := by
  unfold proactiveEvict
  simp only
  split
  · exact .refl
  · exact evictUpTo_trace sha256Hex remote _ c

end Evict

/-! ## What is left alone -/

section Frame

variable (sha256Hex : List UInt8 → String) (remote : Remote)

/-- At most the entry of block `i` has changed. -/
def ChangesOnly (i : Fin cfg.blockCount) (c c' : RamRaidController cfg) : Prop :=
  ∀ j, j ≠ i → c'.blocks j = c.blocks j

theorem changesOnly_update {c c' : RamRaidController cfg} {i : Fin cfg.blockCount} {b : RaidBlock}
    (h : c'.blocks = Function.update c.blocks i b) : ChangesOnly i c c' := by
  intro j hj
  rw [h, Function.update_of_ne hj]

theorem changesOnly_keeps {c c' : RamRaidController cfg} (h : Keeps c c') (i : Fin cfg.blockCount) :
    ChangesOnly i c c' := by
  intro j _
  rw [h.blocks]

theorem arriveRemote_changesOnly {c c₁ : RamRaidController cfg} (hk : Keeps c c₁)
    (i : Fin cfg.blockCount) (nowNs : UInt64) (bytes : Nat) :
    ChangesOnly i c (c₁.arriveRemote i nowNs bytes) := by
  intro j hj
  simp only [arriveRemote, modifyBlock]
  rw [Function.update_of_ne hj, hk.blocks]

theorem restoreBlock_changesOnly (c : RamRaidController cfg) (i : Fin cfg.blockCount)
    (nowNs : UInt64) : ChangesOnly i c (restoreBlock sha256Hex remote c i nowNs).1 := by
  cases hloc : (c.blocks i).location with
  | remoteKernel kernelId endpoint token =>
    obtain ⟨c₁, hkeeps, heq | ⟨bytes, heq⟩⟩ := restoreBlock_remote sha256Hex remote hloc nowNs
    · rw [heq]
      exact changesOnly_keeps hkeeps i
    · rw [heq]
      exact arriveRemote_changesOnly hkeeps i nowNs bytes
  | resident | fetching =>
    simp only [restoreBlock, hloc]
    exact changesOnly_keeps (Keeps.refl c) i
  | virgin | localStore =>
    simp only [restoreBlock, hloc]
    exact changesOnly_update rfl

theorem evictVictim_changesOnly (c : RamRaidController cfg) (i : Fin cfg.blockCount) :
    ChangesOnly i c (evictVictim sha256Hex remote c i).1 := by
  unfold evictVictim
  by_cases hdirty : (c.blocks i).dirty = true
  · simp only [hdirty, if_true]
    rcases evictDirty_cases sha256Hex remote (c := c) i with
      ⟨location, hash, edSeal, result, -, -, hblocks, -⟩ | ⟨reason, -, hkeeps⟩
    · exact changesOnly_update hblocks
    · exact changesOnly_keeps hkeeps i
  · simp only [hdirty, Bool.false_eq_true, if_false]
    exact changesOnly_update rfl

/-- Eviction leaves every block alone that is not resident. -/
theorem evictColdest_away (c : RamRaidController cfg) {j : Fin cfg.blockCount}
    (hj : (c.blocks j).location ≠ .resident) :
    (evictColdest sha256Hex remote c).1.blocks j = c.blocks j := by
  unfold evictColdest
  cases hcold : c.coldest with
  | none => rfl
  | some i =>
    have hji : j ≠ i := by
      rintro rfl
      exact hj (coldest_resident hcold)
    exact evictVictim_changesOnly sha256Hex remote { c with lruClock := UInt64.ofNat (i + 1) } i j hji

theorem evictTimes_away (k : Nat) (c : RamRaidController cfg) {j : Fin cfg.blockCount}
    (hj : (c.blocks j).location ≠ .resident) :
    (evictTimes sha256Hex remote k c).blocks j = c.blocks j := by
  induction k generalizing c with
  | zero => rfl
  | succ k ih =>
    have hone := evictColdest_away sha256Hex remote c hj
    rw [evictTimes, ih _ (by rw [hone]; exact hj), hone]

/-- A loop over a list of blocks leaves the others alone. -/
theorem forBlocks_changesOnly
    {f : RamRaidController cfg → Fin cfg.blockCount → RamRaidController cfg × FaultResult}
    (hf : ∀ c i, ChangesOnly i c (f c i).1) (is : List (Fin cfg.blockCount))
    (c : RamRaidController cfg) {j : Fin cfg.blockCount} (hj : j ∉ is) :
    (forBlocks f c is).1.blocks j = c.blocks j := by
  induction is generalizing c with
  | nil => rfl
  | cons i is ih =>
    rw [List.mem_cons, not_or] at hj
    exact (ih (f c i).1 hj.2).trans (hf c i j hj.1)

/-- Every result of a loop was computed in a state on its way. -/
theorem mem_forBlocks {batch : Bool}
    {f : RamRaidController cfg → Fin cfg.blockCount → RamRaidController cfg × FaultResult}
    (hf : ∀ c i, Trace batch c (f c i).1) {is : List (Fin cfg.blockCount)}
    {c : RamRaidController cfg} {result : FaultResult} (h : result ∈ (forBlocks f c is).2) :
    ∃ c₁ i, Trace batch c c₁ ∧ i ∈ is ∧ (f c₁ i).2 = result := by
  induction is generalizing c with
  | nil => simp [forBlocks] at h
  | cons i is ih =>
    simp only [forBlocks, List.mem_cons] at h
    rcases h with rfl | h
    · exact ⟨c, i, .refl, by simp, rfl⟩
    · obtain ⟨c₁, k, htrace, hk, hresult⟩ := ih h
      exact ⟨c₁, k, (hf c i).trans htrace, by simp [hk], hresult⟩

theorem forBlocks_trace {batch : Bool}
    {f : RamRaidController cfg → Fin cfg.blockCount → RamRaidController cfg × FaultResult}
    (hf : ∀ c i, Trace batch c (f c i).1) (is : List (Fin cfg.blockCount))
    (c : RamRaidController cfg) : Trace batch c (forBlocks f c is).1 := by
  induction is generalizing c with
  | nil => exact .refl
  | cons i is ih => exact (hf c i).trans (ih _)

end Frame

/-! ## Faults and workloads -/

section Operations

variable (sha256Hex : List UInt8 → String) (remote : Remote)

theorem handleFault_trace (c : RamRaidController cfg) (nowNs : UInt64) (faultAddr : Nat) :
    Trace false c (handleFault sha256Hex remote c nowNs faultAddr).1 := by
  unfold handleFault
  simp only
  split
  · split
    · have hevict := evictColdest_trace sha256Hex remote c
      split
      · exact hevict
      · exact hevict.trans (restoreBlock_trace sha256Hex remote _ _ nowNs)
    · exact restoreBlock_trace sha256Hex remote c _ nowNs
  · exact .refl

theorem handleFaultProduction_trace (c : RamRaidController cfg) (nowNs : UInt64)
    (faultAddr : Nat) :
    Trace false c (handleFaultProduction sha256Hex remote c nowNs faultAddr).1 := by
  unfold handleFaultProduction
  simp only
  split
  · split
    · exact (evictColdest_trace sha256Hex remote c).trans
        (restoreBlockInner_trace sha256Hex remote _ _ nowNs)
    · exact restoreBlockInner_trace sha256Hex remote c _ nowNs
  · exact .refl

theorem simulateWrite_trace (c : RamRaidController cfg) (nowNs : UInt64) (blockIdx : Nat) :
    Trace false c (simulateWrite c nowNs blockIdx) := by
  unfold simulateWrite
  split
  · next h => exact .single (.write ⟨blockIdx, h⟩ nowNs ⟨rfl, rfl, rfl, rfl⟩)
  · exact .refl

theorem simulateRead_trace (c : RamRaidController cfg) (nowNs : UInt64) (blockIdx : Nat) :
    Trace false c (simulateRead sha256Hex remote c nowNs blockIdx).1 := by
  unfold simulateRead
  split
  · next h =>
    simp only
    split
    · exact .single (.touch ⟨blockIdx, h⟩ nowNs ⟨rfl, rfl, rfl, rfl⟩)
    · exact handleFault_trace sha256Hex remote c nowNs _
  · exact .refl

end Operations

end RamRaidController

end Spaceshuttle.Raid
