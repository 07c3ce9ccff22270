import Mathlib.Logic.Relation
import Spaceshuttle.Llm.Mapper

/-!
# What an operation can do to a mapper

Every operation is a chain of loads, cold evictions and changes that touch neither a status nor the
controller. Invariants are then proved for one load and for one eviction.
-/

namespace Spaceshuttle.Llm

open Raid

variable {manifest : ModelManifest} {cfg : RaidConfig}

/-- The statuses, the controller and the history are unchanged. -/
structure Undisturbed (m m' : LlmMemoryMapper manifest cfg) : Prop where
  status : ∀ i, (m'.aperture i).status = (m.aperture i).status
  raidController : m'.raidController = m.raidController
  moves : m'.moves = m.moves

/-- The status of a block that `materialize_block` fetches. -/
def ApertureStatus.Fetchable : ApertureStatus → Prop
  | .unmapped _ _ => True
  | .evicted => True
  | _ => False

/-- One change of a mapper. -/
inductive MapperStep (sha256Hex : List UInt8 → String) :
    LlmMemoryMapper manifest cfg → LlmMemoryMapper manifest cfg → Prop where
  | quiet {m m'} (h : Undisturbed m m') : MapperStep sha256Hex m m'
  | load {m} (env : Env) (i : Fin manifest.blocks.length) (h : (m.aperture i).status.Fetchable) :
      MapperStep sha256Hex m (m.load sha256Hex env i)
  | evict {m} (env : Env) (i : Fin manifest.blocks.length) :
      MapperStep sha256Hex m (m.evictBlock sha256Hex env i)

/-- A chain of changes. -/
abbrev MapperTrace (sha256Hex : List UInt8 → String) :
    LlmMemoryMapper manifest cfg → LlmMemoryMapper manifest cfg → Prop :=
  Relation.ReflTransGen (MapperStep sha256Hex)

/-- What every change keeps, a chain of changes keeps. -/
theorem MapperTrace.invariant {sha256Hex : List UInt8 → String}
    {p : LlmMemoryMapper manifest cfg → Prop}
    (hstep : ∀ m m', MapperStep sha256Hex m m' → p m → p m') {m m' : LlmMemoryMapper manifest cfg}
    (h : MapperTrace sha256Hex m m') (hm : p m) : p m' := by
  induction h with
  | refl => exact hm
  | tail _ hs ih => exact hstep _ _ hs ih

/-- One change of a mapper that materializes blocks, of which `p` allows the ones to load. -/
inductive FetchStep (sha256Hex : List UInt8 → String) (p : Nat → Prop) :
    LlmMemoryMapper manifest cfg → LlmMemoryMapper manifest cfg → Prop where
  | touch {m} (i : Fin manifest.blocks.length) (h : (m.aperture i).status = .resident) :
      FetchStep sha256Hex p m
        (m.modifyBlock i (fun b => { b with accessCount := b.accessCount + 1 }))
  | load {m} (env : Env) (i : Fin manifest.blocks.length) (hp : p i)
      (h : (m.aperture i).status.Fetchable) : FetchStep sha256Hex p m (m.load sha256Hex env i)
  | note {m} (currentLayer layersComplete : Nat) :
      FetchStep sha256Hex p m { m with stats := { m.stats with currentLayer, layersComplete } }

/-- A chain of such changes. -/
abbrev FetchTrace (sha256Hex : List UInt8 → String) (p : Nat → Prop) :
    LlmMemoryMapper manifest cfg → LlmMemoryMapper manifest cfg → Prop :=
  Relation.ReflTransGen (FetchStep sha256Hex p)

theorem FetchTrace.allow {sha256Hex : List UInt8 → String} {p q : Nat → Prop}
    {m m' : LlmMemoryMapper manifest cfg} (h : FetchTrace sha256Hex p m m')
    (hpq : ∀ i, p i → q i) : FetchTrace sha256Hex q m m' := by
  refine Relation.ReflTransGen.mono (fun m₁ m₂ hs => ?_) _ _ h
  cases hs with
  | touch i h => exact .touch i h
  | load env i hp h => exact .load env i (hpq i hp) h
  | note currentLayer layersComplete => exact .note currentLayer layersComplete

/-- What every such change keeps, a chain of them keeps. -/
theorem FetchTrace.invariant {sha256Hex : List UInt8 → String} {p : Nat → Prop}
    {q : LlmMemoryMapper manifest cfg → Prop}
    (hstep : ∀ m m', FetchStep sha256Hex p m m' → q m → q m') {m m' : LlmMemoryMapper manifest cfg}
    (h : FetchTrace sha256Hex p m m') (hm : q m) : q m' := by
  induction h with
  | refl => exact hm
  | tail _ hs ih => exact hstep _ _ hs ih

theorem touch_undisturbed (m : LlmMemoryMapper manifest cfg) (i : Fin manifest.blocks.length) :
    Undisturbed m (m.modifyBlock i (fun b => { b with accessCount := b.accessCount + 1 })) := by
  refine ⟨fun j => ?_, rfl, rfl⟩
  by_cases hj : j = i
  · subst hj
    simp [LlmMemoryMapper.modifyBlock]
  · simp [LlmMemoryMapper.modifyBlock, Function.update_of_ne hj]

theorem FetchTrace.mapperTrace {sha256Hex : List UInt8 → String} {p : Nat → Prop}
    {m m' : LlmMemoryMapper manifest cfg} (h : FetchTrace sha256Hex p m m') : MapperTrace sha256Hex m m' := by
  induction h with
  | refl => exact .refl
  | tail _ hs ih =>
    apply ih.tail
    cases hs with
    | touch i _ => exact .quiet (touch_undisturbed _ i)
    | load env i _ h => exact .load env i h
    | note currentLayer layersComplete => exact .quiet ⟨fun _ => rfl, rfl, rfl⟩

namespace LlmMemoryMapper

variable (sha256Hex : List UInt8 → String)

/-! ## One change -/

section Change

variable (env : Env) (m : LlmMemoryMapper manifest cfg) (i : Fin manifest.blocks.length)

/-- A load makes its block `Resident`. -/
theorem load_status (j : Fin manifest.blocks.length) :
    ((m.load sha256Hex env i).aperture j).status =
      if j = i then .resident else (m.aperture j).status := by
  by_cases hj : j = i
  · subst hj
    simp [load, modifyBlock]
  · simp [load, modifyBlock, hj]

theorem load_raidController : (m.load sha256Hex env i).raidController =
    (RamRaidController.simulateRead sha256Hex env.remote m.raidController
      (env.clock m.stats.faultsHandled.toNat) i).1 := rfl

theorem load_moves : (m.load sha256Hex env i).moves =
    m.moves ++ [⟨.load, i, m.aperture, m.raidController⟩] := rfl

/-- A cold eviction makes its block `Evicted`. -/
theorem evictBlock_status (j : Fin manifest.blocks.length) :
    ((m.evictBlock sha256Hex env i).aperture j).status =
      if j = i then .evicted else (m.aperture j).status := by
  by_cases hj : j = i
  · subst hj
    simp [evictBlock, modifyBlock]
  · simp [evictBlock, modifyBlock, hj]

theorem evictBlock_raidController : (m.evictBlock sha256Hex env i).raidController =
    (RamRaidController.proactiveEvict sha256Hex env.remote m.raidController).1 := rfl

theorem evictBlock_moves : (m.evictBlock sha256Hex env i).moves =
    m.moves ++ [⟨.evict, i, m.aperture, m.raidController⟩] := rfl

end Change

/-! ## Materializing -/

theorem materializeBlock_fetches (env : Env) (m : LlmMemoryMapper manifest cfg)
    (blockIndex : Nat) :
    FetchTrace sha256Hex (· = blockIndex) m (m.materializeBlock sha256Hex env blockIndex).1 := by
  unfold materializeBlock
  split
  · next h =>
    cases hstatus : (m.aperture ⟨blockIndex, h⟩).status with
    | resident =>
      simp only [hstatus]
      exact .single (.touch ⟨blockIndex, h⟩ hstatus)
    | loading =>
      simp only [hstatus]
      exact .refl
    | unmapped expectedHash size =>
      simp only [hstatus]
      exact .single (.load env ⟨blockIndex, h⟩ rfl (by rw [hstatus]; trivial))
    | evicted =>
      simp only [hstatus]
      exact .single (.load env ⟨blockIndex, h⟩ rfl (by rw [hstatus]; trivial))
  · exact .refl

theorem materializeAll_fetches (env : Env) (m : LlmMemoryMapper manifest cfg)
    (indices : List Nat) :
    FetchTrace sha256Hex (· ∈ indices) m (m.materializeAll sha256Hex env indices).1 := by
  induction indices generalizing m with
  | nil => exact .refl
  | cons idx indices ih =>
    have hhead := (materializeBlock_fetches sha256Hex env m idx).allow (q := (· ∈ idx :: indices))
      (by rintro i rfl; simp)
    exact hhead.trans ((ih _).allow fun i hi => List.mem_cons_of_mem _ hi)

theorem materializeLayer_fetches (env : Env) (m : LlmMemoryMapper manifest cfg) (layer : Nat) :
    FetchTrace sha256Hex (· ∈ manifest.layerBlocks layer) m
      (m.materializeLayer sha256Hex env layer).1 := by
  unfold materializeLayer
  simp only
  split
  · exact .refl
  · exact (materializeAll_fetches sha256Hex env m (manifest.layerBlocks layer)).tail (.note _ _)

theorem prefetchBlocks_fetches (env : Env) (m : LlmMemoryMapper manifest cfg)
    (indices : List Nat) :
    FetchTrace sha256Hex (· ∈ indices) m (m.prefetchBlocks sha256Hex env indices).1 := by
  induction indices generalizing m with
  | nil => exact .refl
  | cons idx indices ih =>
    have hrest := fun m => (ih m).allow (q := (· ∈ idx :: indices))
      fun i hi => List.mem_cons_of_mem _ hi
    rw [prefetchBlocks]
    split
    · refine ((materializeBlock_fetches sha256Hex env m idx).allow ?_).trans (hrest _)
      rintro i rfl
      simp
    · exact hrest m

/-- Prefetching keeps to the layers of the model. -/
theorem prefetchLoop_fetches (env : Env) (m : LlmMemoryMapper manifest cfg) (layers : List Nat) :
    FetchTrace sha256Hex (fun i => ∃ l < manifest.numLayers, i ∈ manifest.layerBlocks l) m
      (m.prefetchLoop sha256Hex env layers).1 := by
  induction layers generalizing m with
  | nil => exact .refl
  | cons layer layers ih =>
    rw [prefetchLoop]
    split
    · exact .refl
    · next hlayer =>
      refine ((prefetchBlocks_fetches sha256Hex env m _).allow ?_).trans (ih _)
      exact fun i hi => ⟨layer, not_le.mp hlayer, hi⟩

/-- Prefetching loads blocks and then counts them. -/
theorem prefetchLayers_fetches (env : Env) (m : LlmMemoryMapper manifest cfg) (currentLayer : Nat) :
    ∃ m₁, FetchTrace sha256Hex (fun i => ∃ l < manifest.numLayers, i ∈ manifest.layerBlocks l) m m₁ ∧
      (m.prefetchLayers sha256Hex env currentLayer).1 = { m₁ with
        stats := { m₁.stats with blocksPrefetched := m₁.stats.blocksPrefetched +
          (m.prefetchLayers sha256Hex env currentLayer).2.blocksPrefetched } } :=
  ⟨_, prefetchLoop_fetches sha256Hex env m _, rfl⟩

theorem prefetchLayers_trace (env : Env) (m : LlmMemoryMapper manifest cfg) (currentLayer : Nat) :
    MapperTrace sha256Hex m (m.prefetchLayers sha256Hex env currentLayer).1 := by
  obtain ⟨m₁, hfetches, heq⟩ := prefetchLayers_fetches sha256Hex env m currentLayer
  refine (FetchTrace.mapperTrace hfetches).tail (.quiet ?_)
  rw [heq]
  exact ⟨fun _ => rfl, rfl, rfl⟩

/-! ## Evicting -/

theorem evictLoop_trace (env : Env) (targetFree : Nat) (m : LlmMemoryMapper manifest cfg)
    (evicted : Nat) (indices : List Nat) :
    MapperTrace sha256Hex m (m.evictLoop sha256Hex env targetFree evicted indices).1 := by
  induction indices generalizing m evicted with
  | nil => exact .refl
  | cons idx indices ih =>
    rw [evictLoop]
    split
    · exact .refl
    · split
      · exact .refl
      · split
        · next h => exact .head (.evict env ⟨idx, h⟩) (ih _ _)
        · exact .refl

theorem evictColdBlocks_trace (env : Env) (m : LlmMemoryMapper manifest cfg) (targetFree : Nat) :
    MapperTrace sha256Hex m (m.evictColdBlocks sha256Hex env targetFree).1 := by
  unfold evictColdBlocks
  simp only
  split
  · split
    · exact .refl
    · exact evictLoop_trace sha256Hex env targetFree m 0 _
  · exact evictLoop_trace sha256Hex env targetFree m 0 _

/-! ## Inference -/

section Keeps

variable {sha256Hex} {q : LlmMemoryMapper manifest cfg → Prop}
  (hfetch : ∀ m m', FetchStep sha256Hex (fun _ => True) m m' → q m → q m')
  (hprefetch : ∀ env m layer, q m → q (m.prefetchLayers sha256Hex env layer).1)
  (hevict : ∀ env m targetFree, q m → q (m.evictColdBlocks sha256Hex env targetFree).1)
include hfetch hprefetch hevict

/-- What materializing, prefetching and evicting keep, inference keeps. -/
theorem inferenceLoop_keeps (env : Env) {m : LlmMemoryMapper manifest cfg} (hm : q m)
    (layers : List Nat) : q (m.inferenceLoop sha256Hex env layers).1 := by
  induction layers generalizing m with
  | nil => exact hm
  | cons layer layers ih =>
    have hlayer : q (m.materializeLayer sha256Hex env layer).1 :=
      ((materializeLayer_fetches sha256Hex env m layer).allow fun _ _ => trivial).invariant hfetch hm
    have hbudget : ∀ m₁ : LlmMemoryMapper manifest cfg, q m₁ →
        q (m₁.keepBudget sha256Hex env).1 := by
      intro m₁ h₁
      unfold keepBudget
      split
      · exact hevict env m₁ _ h₁
      · exact h₁
    have hround := hbudget _ (hprefetch env _ layer hlayer)
    unfold inferenceLoop
    simp only
    rcases heq : keepBudget sha256Hex env
      ((m.materializeLayer sha256Hex env layer).1.prefetchLayers sha256Hex env layer).1 with
      ⟨m₁, panic | evicted⟩
    · rw [heq] at hround
      exact hround
    · rw [heq] at hround
      exact ih hround

/-- What materializing, prefetching and evicting keep, every operation keeps. -/
theorem mapperStep_keeps {m : LlmMemoryMapper manifest cfg} (hm : q m) (request : MapperOp × Env) :
    q (mapperStep sha256Hex m request).1 := by
  obtain ⟨op, env⟩ := request
  cases op with
  | materializeBlock blockIndex =>
    exact ((materializeBlock_fetches sha256Hex env m blockIndex).allow fun _ _ => trivial).invariant
      hfetch hm
  | materializeLayer layer =>
    exact ((materializeLayer_fetches sha256Hex env m layer).allow fun _ _ => trivial).invariant
      hfetch hm
  | prefetchLayers currentLayer => exact hprefetch env m currentLayer hm
  | evictColdBlocks targetFree => exact hevict env m targetFree hm
  | simulateInference => exact inferenceLoop_keeps hfetch hprefetch hevict env hm _

end Keeps

end LlmMemoryMapper

open LlmMemoryMapper

theorem mapperStep_trace (sha256Hex : List UInt8 → String) (m : LlmMemoryMapper manifest cfg)
    (request : MapperOp × Env) : MapperTrace sha256Hex m (mapperStep sha256Hex m request).1 := by
  refine mapperStep_keeps (q := fun m' => MapperTrace sha256Hex m m') ?_ ?_ ?_ .refl request
  · exact fun m₁ m₂ hs h => h.trans (FetchTrace.mapperTrace (.single hs))
  · exact fun env m₁ layer h => h.trans (prefetchLayers_trace sha256Hex env m₁ layer)
  · exact fun env m₁ targetFree h => h.trans (evictColdBlocks_trace sha256Hex env m₁ targetFree)

/-- The history of a mapper only grows. -/
theorem mapperStep_moves (sha256Hex : List UInt8 → String) (m : LlmMemoryMapper manifest cfg)
    (request : MapperOp × Env) : m.moves <+: (mapperStep sha256Hex m request).1.moves := by
  refine (mapperStep_trace sha256Hex m request).invariant (p := fun m₁ => m.moves <+: m₁.moves) ?_
    (List.prefix_refl m.moves)
  intro m₁ m₂ hstep hprefix
  cases hstep with
  | quiet h =>
    rw [h.moves]
    exact hprefix
  | load env i =>
    rw [load_moves]
    exact hprefix.trans (List.prefix_append _ _)
  | evict env i =>
    rw [evictBlock_moves]
    exact hprefix.trans (List.prefix_append _ _)

end Spaceshuttle.Llm
