import Spaceshuttle.Llm.Budget

/-!
# What an inference touches

An inference loads the blocks of the layers below the number of layers, and no others. A synthetic
manifest has blocks past them unless its layers come out even.
-/

namespace Spaceshuttle.Llm

open Raid
open LlmMemoryMapper

variable {manifest : ModelManifest} {cfg : RaidConfig}

/-- The block was loaded at least once. -/
def Materialized (m : LlmMemoryMapper manifest cfg) (i : Fin manifest.blocks.length) : Prop :=
  ∃ move ∈ m.moves, move.kind = .load ∧ move.block = i

/-- Every block that is not `Unmapped` was loaded. -/
def Covered (m : LlmMemoryMapper manifest cfg) : Prop :=
  ∀ i, isUnmapped (m.aperture i).status = false → Materialized m i

/-- The layers of an inference. -/
def InLayers (manifest : ModelManifest) (i : Nat) : Prop :=
  ∃ l < manifest.numLayers, i ∈ manifest.layerBlocks l

section Moves

variable {sha256Hex : List UInt8 → String} {env : Env} {m m' : LlmMemoryMapper manifest cfg}

theorem materialized_load (i j : Fin manifest.blocks.length) :
    Materialized (m.load sha256Hex env i) j ↔ Materialized m j ∨ i = j := by
  simp [Materialized, load_moves, or_and_right, exists_or]

theorem materialized_evictAll (blocks : List (Fin manifest.blocks.length))
    (i : Fin manifest.blocks.length) :
    Materialized (m.evictAll sha256Hex env blocks) i ↔ Materialized m i := by
  induction blocks generalizing m with
  | nil => exact Iff.rfl
  | cons j blocks ih =>
    apply ih.trans
    simp [Materialized, evictBlock_moves, or_and_right, exists_or]

theorem materialized_evict (hm : Described m) (hmanifest : manifest.IsSynthetic) (targetFree : Nat)
    (i : Fin manifest.blocks.length) :
    Materialized (m.evictColdBlocks sha256Hex env targetFree).1 i ↔ Materialized m i := by
  rw [evictColdBlocks_eq sha256Hex env hm hmanifest]
  exact materialized_evictAll _ i

/-! ## Blocks that are not `Unmapped` -/

theorem covered_fetch {p : Nat → Prop} (h : FetchStep sha256Hex p m m') (hm : Covered m) :
    Covered m' := by
  cases h with
  | touch i _ =>
    intro j hj
    rw [(touch_undisturbed m i).status j] at hj
    exact hm j hj
  | load env i _ _ =>
    intro j hj
    rw [materialized_load]
    by_cases hij : i = j
    · exact .inr hij
    · rw [load_status, if_neg (Ne.symm hij)] at hj
      exact .inl (hm j hj)
  | note _ _ => exact hm

theorem covered_evict (hd : Described m) (hmanifest : manifest.IsSynthetic) (hm : Covered m)
    (targetFree : Nat) : Covered (m.evictColdBlocks sha256Hex env targetFree).1 := by
  obtain ⟨evicted, htakes, -⟩ := evictColdBlocks_takes sha256Hex env hd
    hmanifest targetFree
  intro i hi
  rw [materialized_evict hd hmanifest]
  apply hm i
  rw [htakes.aperture] at hi
  split at hi
  · next hmem => rw [htakes.resident i hmem]; rfl
  · exact hi

/-- No change makes a block `Unmapped`. -/
theorem mapped_step {i : Fin manifest.blocks.length} (h : MapperStep sha256Hex m m')
    (hm : isUnmapped (m.aperture i).status = false) : isUnmapped (m'.aperture i).status = false := by
  cases h with
  | quiet h =>
    rw [h.status]
    exact hm
  | load env j =>
    rw [load_status]
    split
    · rfl
    · exact hm
  | evict env j =>
    rw [evictBlock_status]
    split
    · rfl
    · exact hm

theorem mapped_trace {i : Fin manifest.blocks.length} (h : MapperTrace sha256Hex m m')
    (hm : isUnmapped (m.aperture i).status = false) : isUnmapped (m'.aperture i).status = false :=
  h.invariant (fun _ _ => mapped_step) hm

theorem mapped_materializeBlock (i : Fin manifest.blocks.length) :
    isUnmapped ((m.materializeBlock sha256Hex env i).1.aperture i).status = false := by
  unfold materializeBlock
  rw [dif_pos i.isLt]
  cases hstatus : (m.aperture i).status with
  | resident =>
    simp only [hstatus]
    rw [(touch_undisturbed m i).status, hstatus]
    rfl
  | loading =>
    simp only [hstatus]
    rfl
  | unmapped expectedHash size =>
    simp only [hstatus]
    rw [load_status, if_pos rfl]
    rfl
  | evicted =>
    simp only [hstatus]
    rw [load_status, if_pos rfl]
    rfl

theorem mapped_materializeAll (indices : List Nat) (i : Fin manifest.blocks.length)
    (hi : i.val ∈ indices) :
    isUnmapped ((m.materializeAll sha256Hex env indices).1.aperture i).status = false := by
  induction indices generalizing m with
  | nil => cases hi
  | cons idx indices ih =>
    rcases List.mem_cons.mp hi with rfl | hi
    · exact mapped_trace (FetchTrace.mapperTrace (materializeAll_fetches sha256Hex env _ indices))
        (mapped_materializeBlock i)
    · exact ih hi

theorem mapped_materializeLayer (layer : Nat) (i : Fin manifest.blocks.length)
    (hi : i.val ∈ manifest.layerBlocks layer) :
    isUnmapped ((m.materializeLayer sha256Hex env layer).1.aperture i).status = false := by
  unfold materializeLayer
  simp only
  split
  · next hempty =>
    rw [List.isEmpty_iff.mp hempty] at hi
    cases hi
  · exact mapped_materializeAll _ i hi

/-! ## One layer -/

/-- The rest of a round, after its layer was materialized. -/
theorem inferenceRound_trace (m : LlmMemoryMapper manifest cfg) (layer : Nat) :
    MapperTrace sha256Hex (m.materializeLayer sha256Hex env layer).1
      (inferenceRound sha256Hex env m layer) := by
  refine (prefetchLayers_trace sha256Hex env _ layer).trans ?_
  unfold inferenceRound keepBudget
  split
  · exact evictColdBlocks_trace sha256Hex env _ _
  · exact .refl

theorem mapped_rounds (layers : List Nat) {i : Fin manifest.blocks.length}
    (hm : isUnmapped (m.aperture i).status = false) :
    isUnmapped ((layers.foldl (inferenceRound sha256Hex env) m).aperture i).status = false := by
  induction layers generalizing m with
  | nil => exact hm
  | cons layer layers ih =>
    have hround : MapperTrace sha256Hex m (inferenceRound sha256Hex env m layer) :=
      (FetchTrace.mapperTrace (materializeLayer_fetches sha256Hex env m layer)).trans
        (inferenceRound_trace m layer)
    exact ih (mapped_trace hround hm)

/-- The blocks of every layer an inference goes through. -/
theorem rounds_map (layers : List Nat) {layer : Nat} (hlayer : layer ∈ layers)
    (i : Fin manifest.blocks.length) (hi : i.val ∈ manifest.layerBlocks layer) :
    isUnmapped ((layers.foldl (inferenceRound sha256Hex env) m).aperture i).status = false := by
  induction layers generalizing m with
  | nil => cases hlayer
  | cons l layers ih =>
    rcases List.mem_cons.mp hlayer with rfl | hlayer
    · exact mapped_rounds layers
        (mapped_trace (inferenceRound_trace m layer) (mapped_materializeLayer layer i hi))
    · exact ih hlayer

/-- What loads of blocks of the layers, counting them and cold evictions keep, a round keeps. -/
theorem inferenceRound_keeps {q : LlmMemoryMapper manifest cfg → Prop} {layer : Nat}
    (hlayer : layer < manifest.numLayers)
    (hfetch : ∀ m m', FetchStep sha256Hex (InLayers manifest) m m' → q m → q m')
    (hcount : ∀ m n, q m → q { m with stats := { m.stats with blocksPrefetched := n } })
    (hevict : ∀ m targetFree, Described m → q m →
      q (m.evictColdBlocks sha256Hex env targetFree).1)
    (hd : Described m) (hm : q m) : q (inferenceRound sha256Hex env m layer) := by
  have hfetches : FetchTrace sha256Hex (InLayers manifest) m
      (m.materializeLayer sha256Hex env layer).1 :=
    (materializeLayer_fetches sha256Hex env m layer).allow fun i hi => ⟨layer, hlayer, hi⟩
  have hd₁ := described_fetches hfetches hd
  have hm₁ := hfetches.invariant hfetch hm
  have hd₂ := described_prefetch sha256Hex env hd₁ layer
  obtain ⟨m₂, hprefetches, heq⟩ := prefetchLayers_fetches sha256Hex env
    (m.materializeLayer sha256Hex env layer).1 layer
  have hm₂ : q ((m.materializeLayer sha256Hex env layer).1.prefetchLayers sha256Hex env layer).1 := by
    rw [heq]
    exact hcount m₂ _ (FetchTrace.invariant hfetch hprefetches hm₁)
  unfold inferenceRound keepBudget
  split
  · exact hevict _ _ hd₂ hm₂
  · exact hm₂

theorem rounds_keep (hmanifest : manifest.IsSynthetic)
    {q : LlmMemoryMapper manifest cfg → Prop} {layers : List Nat}
    (hlayers : ∀ layer ∈ layers, layer < manifest.numLayers)
    (hfetch : ∀ m m', FetchStep sha256Hex (InLayers manifest) m m' → q m → q m')
    (hcount : ∀ m n, q m → q { m with stats := { m.stats with blocksPrefetched := n } })
    (hevict : ∀ m targetFree, Described m → q m →
      q (m.evictColdBlocks sha256Hex env targetFree).1)
    (hd : Described m) (hm : q m) : q (layers.foldl (inferenceRound sha256Hex env) m) := by
  induction layers generalizing m with
  | nil => exact hm
  | cons layer layers ih =>
    obtain ⟨hlayer, hlayers⟩ := List.forall_mem_cons.mp hlayers
    exact ih hlayers (inferenceRound_spec sha256Hex env hd hmanifest layer).1
      (inferenceRound_keeps hlayer hfetch hcount hevict hd hm)

end Moves

/-! ## A whole inference -/

section Inference

variable (sha256Hex : List UInt8 → String) (env : Env) {m : LlmMemoryMapper manifest cfg}

theorem simulateInference_rounds (hmanifest : manifest.IsSynthetic) (hd : Described m) :
    (m.simulateInference sha256Hex env).1 =
      (List.range manifest.numLayers).foldl (inferenceRound sha256Hex env) m :=
  inferenceLoop_rounds sha256Hex env hd hmanifest _

/-- An inference of a new mapper loads the blocks of its layers, and no others. -/
theorem inference_materializes_iff (hmanifest : manifest.IsSynthetic) (hd : Described m)
    (hfresh : m.moves = []) (hcovered : Covered m) (i : Fin manifest.blocks.length) :
    Materialized (m.simulateInference sha256Hex env).1 i ↔ InLayers manifest i := by
  have hlayers : ∀ layer ∈ List.range manifest.numLayers, layer < manifest.numLayers :=
    fun _ h => List.mem_range.mp h
  rw [simulateInference_rounds sha256Hex env hmanifest hd]
  constructor
  · refine rounds_keep (q := fun m => ∀ i, Materialized m i → InLayers manifest i) hmanifest
      hlayers ?_ (fun _ _ h => h) ?_ hd ?_ i
    · intro m₁ m₂ hs h j hj
      cases hs with
      | touch _ _ => exact h j hj
      | load env k hk _ =>
        rcases (materialized_load k j).mp hj with hj | rfl
        · exact h j hj
        · exact hk
      | note _ _ => exact h j hj
    · intro m₁ targetFree hd₁ h j hj
      exact h j ((materialized_evict hd₁ hmanifest targetFree j).mp hj)
    · rintro j ⟨move, hmove, -⟩
      rw [hfresh] at hmove
      cases hmove
  · rintro ⟨layer, hlayer, hi⟩
    have hall : Covered ((List.range manifest.numLayers).foldl (inferenceRound sha256Hex env) m) :=
      rounds_keep hmanifest hlayers (fun _ _ => covered_fetch) (fun _ _ h => h)
        (fun _ targetFree hd₁ h => covered_evict hd₁ hmanifest h targetFree) hd hcovered
    exact hall i (rounds_map _ (List.mem_range.mpr hlayer) i hi)

end Inference

/-! ## Layers that come out even -/

/-- The layers of a synthetic manifest cover its blocks. -/
theorem inLayers_iff (hmanifest : manifest.IsSynthetic) (hlayers : 1 ≤ manifest.numLayers) :
    (∀ i < manifest.numBlocks, InLayers manifest i) ↔
      manifest.numLayers ∣ manifest.numBlocks ∨ manifest.numBlocks < manifest.numLayers := by
  have hlayer : ∀ i < manifest.numBlocks, InLayers manifest i ↔
      i / max manifest.blocksPerLayer 1 < manifest.numLayers := by
    intro i hi
    unfold InLayers
    simp only [hmanifest.mem_layerBlocks hlayers, hi, true_and]
    constructor
    · rintro ⟨l, hl, rfl⟩
      exact hl
    · exact fun hl => ⟨_, hl, rfl⟩
  have hquotient : manifest.blocksPerLayer = manifest.numBlocks / manifest.numLayers :=
    if_pos hlayers
  have hpos : 0 < max manifest.blocksPerLayer 1 := by omega
  rw [forall₂_congr hlayer]
  simp only [Nat.div_lt_iff_lt_mul hpos]
  generalize manifest.numBlocks = n at *
  generalize manifest.numLayers = k at *
  have hdiv := Nat.div_add_mod n k
  rw [Nat.dvd_iff_mod_eq_zero]
  constructor
  · intro hall
    by_contra hnot
    push Not at hnot
    have hone : 1 ≤ n / k := Nat.div_pos hnot.2 hlayers
    rw [hquotient, max_eq_left hone] at hall
    have hlast := hall (n - 1) (by omega)
    omega
  · rintro (heven | hfew) i hi
    · rcases Nat.eq_zero_or_pos n with rfl | hn
      · cases hi
      · have hone : 1 ≤ n / k := Nat.div_pos (Nat.le_of_dvd hn (Nat.dvd_of_mod_eq_zero heven)) hlayers
        rw [hquotient, max_eq_left hone]
        omega
    · rw [hquotient, Nat.div_eq_of_lt hfew, max_eq_right (Nat.zero_le 1)]
      omega

theorem layers_below_iff (hmanifest : manifest.IsSynthetic) (hlayers : 1 ≤ manifest.numLayers) :
    (∀ b ∈ manifest.blocks, ∃ l < manifest.numLayers, b.layer = some l) ↔
      ∀ i < manifest.numBlocks, InLayers manifest i := by
  simp only [hmanifest.mem_blocks, InLayers, hmanifest.mem_layerBlocks hlayers]
  constructor
  · intro hall i hi
    obtain ⟨l, hl, hlayer⟩ := hall _ ⟨i, hi, rfl⟩
    rw [ModelManifest.syntheticBlock_layer hlayers hi] at hlayer
    exact ⟨l, hl, hi, Option.some.inj hlayer⟩
  · rintro hall b ⟨i, hi, rfl⟩
    obtain ⟨l, hl, -, hlayer⟩ := hall i hi
    exact ⟨l, hl, by rw [ModelManifest.syntheticBlock_layer hlayers hi, hlayer]⟩

theorem covered_new (manifest : ModelManifest) (budget : Option UInt64) (muxClient : Bool)
    (localStore : Option Cluster.BlockStore) (prefetchWindow : Nat) :
    Covered (LlmMemoryMapper.new manifest budget muxClient localStore prefetchWindow) :=
  fun _ hi => nomatch hi

/-- For every size and every positive number of layers: that all layers of the manifest are below
the number of layers, and that an inference of a new mapper, with any budget, transports and
prefetch window, materializes every block, both hold if and only if the number of blocks is a
multiple of the number of layers or less than it. -/
theorem inference_touches_all_iff (name : String) (totalBytes numLayers : Nat)
    (quantization : String) (hlayers : 1 ≤ numLayers) (budget : Option UInt64) (muxClient : Bool)
    (localStore : Option Cluster.BlockStore) (prefetchWindow : Nat)
    (sha256Hex : List UInt8 → String) (env : Env) :
    let manifest := ModelManifest.synthetic name totalBytes numLayers quantization
    let m := LlmMemoryMapper.new manifest budget muxClient localStore prefetchWindow
    let numBlocks := (totalBytes + raidBlockSize - 1) % 2 ^ 64 / raidBlockSize
    ((∀ b ∈ manifest.blocks, ∃ l < numLayers, b.layer = some l) ↔
      numLayers ∣ numBlocks ∨ numBlocks < numLayers) ∧
    ((∀ i, Materialized (m.simulateInference sha256Hex env).1 i) ↔
      numLayers ∣ numBlocks ∨ numBlocks < numLayers) := by
  intro manifest m numBlocks
  have hmanifest : manifest.IsSynthetic :=
    ModelManifest.isSynthetic name totalBytes numLayers quantization
  have heven : (∀ i < manifest.numBlocks, InLayers manifest i) ↔
      numLayers ∣ numBlocks ∨ numBlocks < numLayers := inLayers_iff hmanifest hlayers
  refine ⟨(layers_below_iff hmanifest hlayers).trans heven, ?_⟩
  rw [← heven]
  have htouched := inference_materializes_iff sha256Hex env hmanifest
    (described_new manifest budget muxClient localStore prefetchWindow) rfl
    (covered_new manifest budget muxClient localStore prefetchWindow)
  constructor
  · intro hall i hi
    rw [← hmanifest.length_blocks] at hi
    exact (htouched ⟨i, hi⟩).mp (hall ⟨i, hi⟩)
  · intro hall i
    refine (htouched i).mpr (hall i ?_)
    rw [← hmanifest.length_blocks]
    exact i.isLt

/-- Three blocks over three layers. -/
def evenModel : ModelManifest := .synthetic "even" (6 * 1024 * 1024) 3 "Q4_K_M"

theorem inference_touches_all_even :
    (∀ b ∈ evenModel.blocks, ∃ l < 3, b.layer = some l) ∧
    ∀ i, Materialized ((LlmMemoryMapper.new evenModel none false none
      defaultPrefetchWindow).simulateInference arenaSha256 ⟨fun _ => 1, unreachable⟩).1 i := by
  have hboth := inference_touches_all_iff "even" (6 * 1024 * 1024) 3 "Q4_K_M" (by decide) none false
    none defaultPrefetchWindow arenaSha256 ⟨fun _ => 1, unreachable⟩
  exact ⟨hboth.1.mpr (.inl (by decide)), hboth.2.mpr (.inl (by decide))⟩

/-- Three blocks over two layers. -/
def unevenModel : ModelManifest := .synthetic "uneven" (6 * 1024 * 1024) 2 "Q4_K_M"

/-- Block 2 goes to a layer 2 that the model does not have, and is never loaded. -/
theorem left_over_block_untouched :
    (unevenModel.blocks.map ManifestBlock.layer = [some 0, some 1, some 2] ∧
      unevenModel.numLayers = 2) ∧
    ∃ i : Fin unevenModel.blocks.length, ¬ Materialized
      ((LlmMemoryMapper.new unevenModel none false none defaultPrefetchWindow).simulateInference
        arenaSha256 ⟨fun _ => 1, unreachable⟩).1 i := by
  have hmanifest : unevenModel.IsSynthetic := ModelManifest.isSynthetic _ _ _ _
  refine ⟨by decide, ⟨2, by decide⟩, ?_⟩
  rw [inference_materializes_iff _ _ hmanifest (described_new _ _ _ _ _) rfl
    (covered_new _ _ _ _ _)]
  unfold InLayers
  decide

end Spaceshuttle.Llm
