import Spaceshuttle.Lib.Machine
import Spaceshuttle.Lib.Sweep
import Spaceshuttle.Lib.Table
import Spaceshuttle.Llm.Tiling
import Spaceshuttle.Llm.Transitions

/-!
# What an eviction takes

The loop of `evict_cold_blocks` counts the resident blocks again before every block it takes. Over an
aperture that describes its manifest it takes the coldest resident blocks, as many as are asked
for and as may be spared.
-/

namespace Spaceshuttle.Llm

open Raid

variable {manifest : ModelManifest} {cfg : RaidConfig}

/-- Apart from status and access count, the aperture is what the manifest says. -/
def Described (m : LlmMemoryMapper manifest cfg) : Prop :=
  ∀ i, ∃ status accessCount, m.aperture i =
    { LlmMemoryMapper.apertureBlock (manifest.blocks.get i) with status, accessCount }

namespace LlmMemoryMapper

variable (sha256Hex : List UInt8 → String) (env : Env) {m : LlmMemoryMapper manifest cfg}

/-- Evict the blocks of a list. -/
def evictAll (m : LlmMemoryMapper manifest cfg)
    (blocks : List (Fin manifest.blocks.length)) : LlmMemoryMapper manifest cfg :=
  blocks.foldl (fun m i => m.evictBlock sha256Hex env i) m

/-- The resident blocks, coldest first, and in order where they are equally cold. -/
def coldFirst (m : LlmMemoryMapper manifest cfg) : List (Fin manifest.blocks.length) :=
  ((List.finRange _).filter (fun i => isResident (m.aperture i).status)).mergeSort
    (fun i j => decide ((m.aperture i).accessCount ≤ (m.aperture j).accessCount))

/-! ## One change -/

theorem load_aperture (m : LlmMemoryMapper manifest cfg)
    (i : Fin manifest.blocks.length) : (m.load sha256Hex env i).aperture =
      Function.update m.aperture i
        { m.aperture i with status := .resident, accessCount := (m.aperture i).accessCount + 1 } := by
  simp [load, modifyBlock]

theorem evictBlock_aperture (m : LlmMemoryMapper manifest cfg)
    (i : Fin manifest.blocks.length) : (m.evictBlock sha256Hex env i).aperture =
      Function.update m.aperture i { m.aperture i with status := .evicted } := rfl

theorem residentCount_eq (m : LlmMemoryMapper manifest cfg) :
    m.residentCount = Table.count (fun b => isResident b.status) m.aperture :=
  Table.countP_ofFn _ _

/-- Evicting a resident block leaves one less. -/
theorem residentCount_evictBlock {i : Fin manifest.blocks.length}
    (hi : isResident (m.aperture i).status = true) :
    (m.evictBlock sha256Hex env i).residentCount + 1 = m.residentCount := by
  have hcount := Table.count_update (fun b => isResident b.status) m.aperture i
    { m.aperture i with status := .evicted }
  have hgone : isResident .evicted = false := rfl
  simp only [hi, hgone, if_true, Bool.false_eq_true, if_false] at hcount
  rw [residentCount_eq, residentCount_eq, evictBlock_aperture]
  exact hcount

/-! ## The loop -/

theorem evictAll_aperture (blocks : List (Fin manifest.blocks.length)) (hblocks : blocks.Nodup)
    (i : Fin manifest.blocks.length) : (m.evictAll sha256Hex env blocks).aperture i =
      if i ∈ blocks then { m.aperture i with status := .evicted } else m.aperture i := by
  have hpointwise : Sweep.Pointwise (fun (m : LlmMemoryMapper manifest cfg) i =>
      m.evictBlock sha256Hex env i) aperture (fun _ b => { b with status := .evicted }) :=
    fun m i => evictBlock_aperture sha256Hex env m i
  split
  · next hi => exact Sweep.foldl_of_mem hpointwise hblocks hi m
  · next hi => exact Sweep.foldl_of_not_mem hpointwise hi m

/-- Over distinct resident blocks, no fewer than may be spared, the loop stops at the first of its
two bounds. -/
theorem evictLoop_eq (targetFree evicted : Nat) {blocks : List (Fin manifest.blocks.length)}
    (hblocks : blocks.Nodup) (hresident : ∀ i ∈ blocks, isResident (m.aperture i).status = true)
    (henough : m.residentCount - minResidentBlocks ≤ blocks.length) :
    m.evictLoop sha256Hex env targetFree evicted (blocks.map Fin.val) =
      (m.evictAll sha256Hex env
        (blocks.take (min (targetFree - evicted) (m.residentCount - minResidentBlocks))),
      .ok (evicted + min (targetFree - evicted) (m.residentCount - minResidentBlocks))) := by
  induction blocks generalizing m evicted with
  | nil =>
    have hzero : m.residentCount - minResidentBlocks = 0 := Nat.le_zero.mp henough
    simp [evictLoop, evictAll, hzero]
  | cons i blocks ih =>
    obtain ⟨hi, hblocks⟩ := List.nodup_cons.mp hblocks
    rw [List.forall_mem_cons] at hresident
    rw [List.map_cons, evictLoop]
    by_cases htarget : evicted ≥ targetFree
    · rw [if_pos htarget, Nat.sub_eq_zero_of_le htarget, Nat.zero_min, List.take_zero]
      rfl
    · rw [if_neg htarget]
      by_cases hspare : m.residentCount ≤ minResidentBlocks
      · rw [if_pos hspare, Nat.sub_eq_zero_of_le hspare, Nat.min_zero, List.take_zero]
        rfl
      · rw [if_neg hspare, dif_pos i.isLt]
        have hcount := residentCount_evictBlock sha256Hex env hresident.1
        have hrest : ∀ j ∈ blocks,
            isResident ((m.evictBlock sha256Hex env i).aperture j).status = true := by
          intro j hj
          have hne : j ≠ i := fun heq => hi (heq ▸ hj)
          rw [evictBlock_aperture, Function.update_of_ne hne]
          exact hresident.2 j hj
        rw [List.length_cons] at henough
        rw [ih (evicted + 1) hblocks hrest (by omega)]
        -- both bounds are one lower, and the list is one block shorter
        have hmin : min (targetFree - evicted) (m.residentCount - minResidentBlocks) =
            min (targetFree - (evicted + 1))
              ((m.evictBlock sha256Hex env i).residentCount - minResidentBlocks) + 1 := by
          omega
        rw [hmin, List.take_succ_cons]
        refine Prod.ext rfl (congrArg Except.ok ?_)
        omega

/-! ## Over an aperture that describes its manifest -/

theorem coldFirst_nodup (m : LlmMemoryMapper manifest cfg) : m.coldFirst.Nodup :=
  (List.mergeSort_perm _ _).nodup_iff.mpr ((List.nodup_finRange _).filter _)

theorem mem_coldFirst (i : Fin manifest.blocks.length) :
    i ∈ m.coldFirst ↔ isResident (m.aperture i).status = true := by
  rw [coldFirst, (List.mergeSort_perm _ _).mem_iff, List.mem_filter]
  simp

theorem length_coldFirst (m : LlmMemoryMapper manifest cfg) :
    m.coldFirst.length = m.residentCount := by
  rw [coldFirst, (List.mergeSort_perm _ _).length_eq, residentCount, blockList, List.ofFn_eq_map,
    List.countP_map, List.countP_eq_length_filter]
  rfl

/-- A block is no warmer than those after it. -/
theorem coldFirst_pairwise (m : LlmMemoryMapper manifest cfg) :
    m.coldFirst.Pairwise (fun i j => (m.aperture i).accessCount ≤ (m.aperture j).accessCount) := by
  have hsorted := @List.pairwise_mergeSort _ (fun i j : Fin manifest.blocks.length =>
    decide ((m.aperture i).accessCount ≤ (m.aperture j).accessCount)) ?_ ?_
    ((List.finRange _).filter (fun i => isResident (m.aperture i).status))
  · exact hsorted.imp fun h => of_decide_eq_true h
  · intro a b c hab hbc
    exact decide_eq_true (UInt64.le_trans (of_decide_eq_true hab) (of_decide_eq_true hbc))
  · intro a b
    rcases UInt64.le_total (m.aperture a).accessCount (m.aperture b).accessCount with h | h
    · simp [h]
    · simp [h]

theorem described_index (hm : Described m) (hmanifest : manifest.IsSynthetic)
    (i : Fin manifest.blocks.length) : (m.aperture i).index = i := by
  obtain ⟨status, accessCount, heq⟩ := hm i
  rw [heq]
  show (manifest.blocks.get i).index = i
  rw [hmanifest.get_blocks]
  rfl

/-- The eviction takes the coldest resident blocks, as many as are asked for and may be spared. -/
theorem evictColdBlocks_eq (hm : Described m) (hmanifest : manifest.IsSynthetic)
    (targetFree : Nat) :
    m.evictColdBlocks sha256Hex env targetFree =
      (m.evictAll sha256Hex env
        (m.coldFirst.take (min targetFree (m.residentCount - minResidentBlocks))),
      .ok (min targetFree (m.residentCount - minResidentBlocks))) := by
  have hindices : (m.blockList.filter (fun b => isResident b.status)).map ApertureBlock.index =
      ((List.finRange _).filter (fun i => isResident (m.aperture i).status)).map Fin.val := by
    rw [blockList, List.ofFn_eq_map, List.filter_map, List.map_map]
    exact List.map_congr_left fun i _ => described_index hm hmanifest i
  have hsort : (((List.finRange _).filter
      (fun i => isResident (m.aperture i).status)).map Fin.val).mergeSort
        (fun a b => decide (m.accessCount a ≤ m.accessCount b)) = m.coldFirst.map Fin.val := by
    refine (List.map_mergeSort fun i _ j _ => ?_).symm
    simp [accessCount]
  unfold evictColdBlocks
  simp only [hindices]
  rw [List.find?_eq_none.mpr, hsort]
  · simp only
    rw [evictLoop_eq sha256Hex env targetFree 0 m.coldFirst_nodup (fun i hi => (mem_coldFirst i).mp hi)
      (by rw [length_coldFirst]; omega), Nat.sub_zero, Nat.zero_add]
  · intro idx hidx
    obtain ⟨i, -, rfl⟩ := List.mem_map.mp hidx
    simp

end LlmMemoryMapper

open LlmMemoryMapper

/-! ## Over runs -/

section Runs

variable {sha256Hex : List UInt8 → String} {m m' : LlmMemoryMapper manifest cfg}

theorem described_update (hm : Described m) (i : Fin manifest.blocks.length)
    (status : ApertureStatus) (accessCount : UInt64)
    (h : m'.aperture = Function.update m.aperture i { m.aperture i with status, accessCount }) :
    Described m' := by
  intro j
  obtain ⟨status', accessCount', heq⟩ := hm j
  rw [h]
  by_cases hj : j = i
  · subst hj
    rw [Function.update_self, heq]
    exact ⟨status, accessCount, rfl⟩
  · rw [Function.update_of_ne hj, heq]
    exact ⟨status', accessCount', rfl⟩

theorem described_fetch {p : Nat → Prop} (h : FetchStep sha256Hex p m m') (hm : Described m) :
    Described m' := by
  cases h with
  | touch i _ => exact described_update hm i (m.aperture i).status _ rfl
  | load env i _ _ => exact described_update hm i .resident _ (load_aperture sha256Hex env m i)
  | note _ _ => exact hm

theorem described_fetches {p : Nat → Prop} (h : FetchTrace sha256Hex p m m') (hm : Described m) :
    Described m' :=
  h.invariant (fun _ _ => described_fetch) hm

variable (sha256Hex)

theorem described_prefetch (env : Env) (hm : Described m) (layer : Nat) :
    Described (m.prefetchLayers sha256Hex env layer).1 := by
  obtain ⟨m₁, hfetches, heq⟩ := prefetchLayers_fetches sha256Hex env m layer
  have hm₁ : Described m₁ := described_fetches hfetches hm
  rw [heq]
  exact hm₁

theorem described_evictAll (env : Env) (hm : Described m)
    (blocks : List (Fin manifest.blocks.length)) :
    Described (m.evictAll sha256Hex env blocks) := by
  induction blocks generalizing m with
  | nil => exact hm
  | cons i blocks ih =>
    exact ih (described_update hm i .evicted (m.aperture i).accessCount rfl)

theorem described_evict (hmanifest : manifest.IsSynthetic) (env : Env) (hm : Described m)
    (targetFree : Nat) : Described (m.evictColdBlocks sha256Hex env targetFree).1 := by
  rw [evictColdBlocks_eq sha256Hex env hm hmanifest]
  exact described_evictAll sha256Hex env hm _

theorem described_new (manifest : ModelManifest) (budget : Option UInt64) (muxClient : Bool)
    (localStore : Option Cluster.BlockStore) (prefetchWindow : Nat) :
    Described (LlmMemoryMapper.new manifest budget muxClient localStore prefetchWindow) :=
  fun _ => ⟨_, _, rfl⟩

theorem described_run (hmanifest : manifest.IsSynthetic) (hm : Described m)
    (requests : List (MapperOp × Env)) :
    Described (Machine.run (mapperStep sha256Hex) m requests) := by
  refine Machine.run_keeps (fun m₁ request h₁ => ?_) hm requests
  exact mapperStep_keeps (fun _ _ => described_fetch)
    (fun env m₂ layer h₂ => described_prefetch sha256Hex env h₂ layer)
    (fun env m₂ targetFree h₂ => described_evict sha256Hex hmanifest env h₂ targetFree) h₁ request

end Runs

end Spaceshuttle.Llm
