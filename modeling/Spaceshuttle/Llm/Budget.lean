import Spaceshuttle.Llm.Eviction

/-!
# The RAM budget

An inference ends every layer with an eviction down to the budget, or to the blocks that are never
spared. So no layer ends with more blocks than the larger of the two.
-/

namespace Spaceshuttle.Llm

open Raid
open LlmMemoryMapper

variable {manifest : ModelManifest} {cfg : RaidConfig} (sha256Hex : List UInt8 → String) (env : Env)
  {m m' : LlmMemoryMapper manifest cfg}

/-- One layer of an inference. -/
def inferenceRound (m : LlmMemoryMapper manifest cfg) (layer : Nat) : LlmMemoryMapper manifest cfg :=
  (((m.materializeLayer sha256Hex env layer).1.prefetchLayers sha256Hex env layer).1.keepBudget
    sha256Hex env).1

/-! ## One layer -/

theorem residentCount_evictAll {blocks : List (Fin manifest.blocks.length)}
    (hblocks : blocks.Nodup) (hresident : ∀ i ∈ blocks, isResident (m.aperture i).status = true) :
    (m.evictAll sha256Hex env blocks).residentCount + blocks.length = m.residentCount := by
  induction blocks generalizing m with
  | nil => rfl
  | cons i blocks ih =>
    obtain ⟨hi, hblocks⟩ := List.nodup_cons.mp hblocks
    rw [List.forall_mem_cons] at hresident
    have hcount := residentCount_evictBlock sha256Hex env hresident.1
    have hrest := @ih (m.evictBlock sha256Hex env i) hblocks (by
      intro j hj
      have hne : j ≠ i := fun heq => hi (heq ▸ hj)
      rw [evictBlock_aperture, Function.update_of_ne hne]
      exact hresident.2 j hj)
    rw [List.length_cons]
    show (evictAll sha256Hex env (m.evictBlock sha256Hex env i) blocks).residentCount + _ = _
    omega

/-- The blocks an eviction takes. -/
theorem take_coldFirst_spec (m : LlmMemoryMapper manifest cfg) (k : Nat) :
    (m.coldFirst.take k).Nodup ∧
      ∀ i ∈ m.coldFirst.take k, isResident (m.aperture i).status = true :=
  ⟨m.coldFirst_nodup.sublist (List.take_sublist _ _),
    fun _ hi => (mem_coldFirst _).mp (List.mem_of_mem_take hi)⟩

theorem residentCount_evictColdBlocks (hm : Described m) (hmanifest : manifest.IsSynthetic)
    (targetFree : Nat) :
    (m.evictColdBlocks sha256Hex env targetFree).1.residentCount +
      min targetFree (m.residentCount - minResidentBlocks) = m.residentCount := by
  obtain ⟨hnodup, hresident⟩ :=
    take_coldFirst_spec m (min targetFree (m.residentCount - minResidentBlocks))
  have hcount := residentCount_evictAll sha256Hex env hnodup hresident
  rw [List.length_take, length_coldFirst] at hcount
  rw [evictColdBlocks_eq sha256Hex env hm hmanifest]
  simp only
  omega

theorem keepBudget_spec (hm : Described m) (hmanifest : manifest.IsSynthetic) :
    Described (m.keepBudget sha256Hex env).1 ∧
      (∃ evicted, (m.keepBudget sha256Hex env).2 = .ok evicted) ∧
      (m.keepBudget sha256Hex env).1.residentCount ≤
        max cfg.maxResidentBlocks minResidentBlocks := by
  unfold keepBudget
  split
  · have hcount := residentCount_evictColdBlocks sha256Hex env hm hmanifest
      (m.residentCount - cfg.maxResidentBlocks)
    refine ⟨described_evict sha256Hex hmanifest env hm _, ?_, ?_⟩
    · rw [evictColdBlocks_eq sha256Hex env hm hmanifest]
      exact ⟨_, rfl⟩
    · omega
  · next hfits => exact ⟨hm, ⟨0, rfl⟩, (not_lt.mp hfits).trans (Nat.le_max_left _ _)⟩

theorem inferenceRound_spec (hm : Described m) (hmanifest : manifest.IsSynthetic) (layer : Nat) :
    Described (inferenceRound sha256Hex env m layer) ∧
      (inferenceRound sha256Hex env m layer).residentCount ≤
        max cfg.maxResidentBlocks minResidentBlocks := by
  have hlayer := described_fetches (materializeLayer_fetches sha256Hex env m layer) hm
  obtain ⟨hdescribed, -, hbudget⟩ :=
    keepBudget_spec sha256Hex env (described_prefetch sha256Hex env hlayer layer)
      hmanifest
  exact ⟨hdescribed, hbudget⟩

/-! ## All layers -/

/-- An inference goes through its layers without a panic. -/
theorem inferenceLoop_rounds (hm : Described m) (hmanifest : manifest.IsSynthetic)
    (layers : List Nat) :
    (m.inferenceLoop sha256Hex env layers).1 = layers.foldl (inferenceRound sha256Hex env) m := by
  induction layers generalizing m with
  | nil => rfl
  | cons layer layers ih =>
    have hlayer := described_fetches (materializeLayer_fetches sha256Hex env m layer) hm
    obtain ⟨-, ⟨evicted, hok⟩, -⟩ :=
      keepBudget_spec sha256Hex env (described_prefetch sha256Hex env hlayer layer)
        hmanifest
    rw [List.foldl_cons, ← ih (inferenceRound_spec sha256Hex env hm hmanifest layer).1, inferenceLoop]
    unfold inferenceRound
    simp only
    rcases heq : keepBudget sha256Hex env
      ((m.materializeLayer sha256Hex env layer).1.prefetchLayers sha256Hex env layer).1 with
      ⟨m₁, result⟩
    rw [heq] at hok
    obtain rfl : result = .ok evicted := hok
    rfl

theorem described_rounds (hm : Described m) (hmanifest : manifest.IsSynthetic)
    (layers : List Nat) : Described (layers.foldl (inferenceRound sha256Hex env) m) := by
  induction layers generalizing m with
  | nil => exact hm
  | cons layer layers ih => exact ih (inferenceRound_spec sha256Hex env hm hmanifest layer).1

/-- The blocks an eviction took: they were resident, no other entry of the aperture changed, and
none of them was warmer than a block that is resident after it. -/
structure TakesColdest (m m' : LlmMemoryMapper manifest cfg)
    (evicted : Finset (Fin manifest.blocks.length)) : Prop where
  resident : ∀ i ∈ evicted, (m.aperture i).status = .resident
  aperture : ∀ i, m'.aperture i =
    if i ∈ evicted then { m.aperture i with status := .evicted } else m.aperture i
  coldest : ∀ i ∈ evicted, ∀ j, (m'.aperture j).status = .resident →
    (m.aperture i).accessCount ≤ (m.aperture j).accessCount

theorem isResident_iff (status : ApertureStatus) : isResident status = true ↔ status = .resident := by
  cases status <;> simp [isResident]

theorem evictColdBlocks_takes (hm : Described m) (hmanifest : manifest.IsSynthetic)
    (targetFree : Nat) :
    ∃ evicted, TakesColdest m (m.evictColdBlocks sha256Hex env targetFree).1 evicted ∧
      evicted.card = min targetFree (m.residentCount - minResidentBlocks) := by
  rw [evictColdBlocks_eq sha256Hex env hm hmanifest]
  set k := min targetFree (m.residentCount - minResidentBlocks) with hk
  obtain ⟨hnodup, hresident⟩ := take_coldFirst_spec m k
  have haperture : ∀ i, (m.evictAll sha256Hex env (m.coldFirst.take k)).aperture i =
      if i ∈ (m.coldFirst.take k).toFinset then { m.aperture i with status := .evicted }
      else m.aperture i := by
    intro i
    simp only [evictAll_aperture sha256Hex env _ hnodup i, List.mem_toFinset]
  refine ⟨(m.coldFirst.take k).toFinset, ⟨?_, haperture, ?_⟩, ?_⟩
  · intro i hi
    exact (isResident_iff _).mp (hresident i (List.mem_toFinset.mp hi))
  · intro i hi j hj
    rw [haperture] at hj
    split at hj
    · cases hj
    · next hkept =>
      have hall : j ∈ m.coldFirst.take k ++ m.coldFirst.drop k := by
        rw [List.take_append_drop, mem_coldFirst, isResident_iff]
        exact hj
      have hsorted := m.coldFirst_pairwise
      rw [← List.take_append_drop k m.coldFirst, List.pairwise_append] at hsorted
      rcases List.mem_append.mp hall with htaken | hleft
      · exact absurd (List.mem_toFinset.mpr htaken) hkept
      · exact hsorted.2.2 i (List.mem_toFinset.mp hi) j hleft
  · rw [List.toFinset_card_of_nodup hnodup, List.length_take, length_coldFirst]
    omega

/-- An inference goes on from the end of each of its layers. -/
theorem simulateInference_split (hm : Described m) (hmanifest : manifest.IsSynthetic)
    {done : List Nat} {layer : Nat} {rest : List Nat}
    (hlayers : List.range manifest.numLayers = done ++ layer :: rest) :
    (m.inferenceLoop sha256Hex env (done ++ [layer])).1.residentCount ≤
        max cfg.maxResidentBlocks minResidentBlocks ∧
      (m.simulateInference sha256Hex env).1 =
        ((m.inferenceLoop sha256Hex env (done ++ [layer])).1.inferenceLoop sha256Hex env rest).1 := by
  have hdone := described_rounds sha256Hex env hm hmanifest done
  have hround := inferenceRound_spec sha256Hex env hdone hmanifest layer
  have hfirst : (m.inferenceLoop sha256Hex env (done ++ [layer])).1 =
      inferenceRound sha256Hex env (done.foldl (inferenceRound sha256Hex env) m) layer := by
    rw [inferenceLoop_rounds sha256Hex env hm hmanifest, List.foldl_append, List.foldl_cons,
      List.foldl_nil]
  have hwhole : (m.simulateInference sha256Hex env).1 =
      (m.inferenceLoop sha256Hex env (List.range manifest.numLayers)).1 := rfl
  rw [hfirst, hwhole]
  refine ⟨hround.2, ?_⟩
  rw [inferenceLoop_rounds sha256Hex env hround.1 hmanifest,
    inferenceLoop_rounds sha256Hex env hm hmanifest, hlayers, List.foldl_append, List.foldl_cons]

/-- In every reachable state of a mapper of a synthetic manifest, with any budget, transports and
prefetch window: `evict_cold_blocks` takes the coldest resident blocks, as many as it is asked for
and as there are above `MIN_RESIDENT_BLOCKS`; and an inference from there, which goes through every
layer, ends each of them with no more resident blocks than the budget or `MIN_RESIDENT_BLOCKS`. -/
theorem evicts_coldest_to_budget (name : String) (totalBytes numLayers : Nat)
    (quantization : String) (budget : Option UInt64) (muxClient : Bool)
    (localStore : Option Cluster.BlockStore) (prefetchWindow : Nat)
    (sha256Hex : List UInt8 → String) (requests : List (MapperOp × Env)) (env : Env) :
    let manifest := ModelManifest.synthetic name totalBytes numLayers quantization
    let m := Machine.run (mapperStep sha256Hex)
      (.new manifest budget muxClient localStore prefetchWindow) requests
    (∀ targetFree, ∃ evicted,
      TakesColdest m (m.evictColdBlocks sha256Hex env targetFree).1 evicted ∧
      evicted.card = min targetFree (m.residentCount - minResidentBlocks) ∧
      (m.evictColdBlocks sha256Hex env targetFree).2 = .ok evicted.card) ∧
    ∀ done layer rest, List.range manifest.numLayers = done ++ layer :: rest →
      (m.inferenceLoop sha256Hex env (done ++ [layer])).1.residentCount ≤
        max (manifest.budgetConfig budget).maxResidentBlocks minResidentBlocks ∧
      (m.simulateInference sha256Hex env).1 =
        ((m.inferenceLoop sha256Hex env (done ++ [layer])).1.inferenceLoop sha256Hex env rest).1 := by
  intro manifest m
  have hmanifest : manifest.IsSynthetic :=
    ModelManifest.isSynthetic name totalBytes numLayers quantization
  have hm : Described m := described_run sha256Hex hmanifest (described_new _ _ _ _ _) requests
  refine ⟨?_, fun done layer rest hlayers =>
    simulateInference_split sha256Hex env hm hmanifest hlayers⟩
  intro targetFree
  obtain ⟨evicted, htakes, hcard⟩ := evictColdBlocks_takes sha256Hex env hm hmanifest targetFree
  have hresult := congrArg Prod.snd
    (evictColdBlocks_eq sha256Hex env hm hmanifest targetFree)
  exact ⟨evicted, htakes, hcard, hcard ▸ hresult⟩

end Spaceshuttle.Llm
