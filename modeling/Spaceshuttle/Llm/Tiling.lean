import Spaceshuttle.Lib.Tiles
import Spaceshuttle.Llm.Manifest

/-!
# The blocks of a synthetic manifest

The blocks of `ModelManifest::synthetic` tile the model and are shared out among layers. A layer
takes the rounded-down quotient of blocks and layers.
-/

namespace Spaceshuttle.Llm.ModelManifest

/-- `blocks_per_layer` (`llm_mapper.rs:217-223`). -/
def blocksPerLayer (m : ModelManifest) : Nat :=
  if m.numLayers > 0 then m.numBlocks / m.numLayers else m.numBlocks

/-- The manifest was made by `synthetic`. -/
def IsSynthetic (m : ModelManifest) : Prop :=
  ∃ name totalBytes numLayers quantization, m = synthetic name totalBytes numLayers quantization

theorem isSynthetic (name : String) (totalBytes numLayers : Nat) (quantization : String) :
    (synthetic name totalBytes numLayers quantization).IsSynthetic :=
  ⟨name, totalBytes, numLayers, quantization, rfl⟩

theorem raidBlockSize_pos : 0 < raidBlockSize := by decide

variable {m : ModelManifest}

/-! ## Blocks -/

theorem IsSynthetic.blocks (h : m.IsSynthetic) :
    m.blocks = (List.range m.numBlocks).map
      (syntheticBlock m.totalBytes m.numLayers m.numBlocks m.blocksPerLayer) := by
  obtain ⟨name, totalBytes, numLayers, quantization, rfl⟩ := h
  rfl

theorem IsSynthetic.blockSize (h : m.IsSynthetic) : m.blockSize = raidBlockSize := by
  obtain ⟨name, totalBytes, numLayers, quantization, rfl⟩ := h
  rfl

theorem IsSynthetic.length_blocks (h : m.IsSynthetic) : m.blocks.length = m.numBlocks := by
  rw [h.blocks, List.length_map, List.length_range]

theorem IsSynthetic.mem_blocks (h : m.IsSynthetic) (b : ManifestBlock) :
    b ∈ m.blocks ↔ ∃ i < m.numBlocks,
      b = syntheticBlock m.totalBytes m.numLayers m.numBlocks m.blocksPerLayer i := by
  rw [h.blocks, List.mem_map]
  simp only [List.mem_range, eq_comm]

theorem IsSynthetic.get_blocks (h : m.IsSynthetic) (i : Fin m.blocks.length) :
    m.blocks.get i =
      syntheticBlock m.totalBytes m.numLayers m.numBlocks m.blocksPerLayer i := by
  rw [List.get_eq_getElem, List.getElem_of_eq h.blocks i.isLt, List.getElem_map, List.getElem_range]

theorem IsSynthetic.map_index (h : m.IsSynthetic) :
    m.blocks.map ManifestBlock.index = List.range m.numBlocks := by
  rw [h.blocks, List.map_map]
  exact List.map_id _

/-! ## Layers -/

/-- The layer of a block. -/
theorem syntheticBlock_layer {i : Nat} (hlayers : 0 < m.numLayers) (hi : i < m.numBlocks) :
    (syntheticBlock m.totalBytes m.numLayers m.numBlocks m.blocksPerLayer i).layer =
      some (i / max m.blocksPerLayer 1) := by
  unfold syntheticBlock
  exact if_pos ⟨hlayers, hi⟩

theorem IsSynthetic.layerBlocks (h : m.IsSynthetic) (hlayers : 0 < m.numLayers) (l : Nat) :
    m.layerBlocks l =
      (List.range m.numBlocks).filter (fun i => i / max m.blocksPerLayer 1 == l) := by
  unfold ModelManifest.layerBlocks
  rw [h.blocks, List.filter_map, List.map_map]
  rw [show ManifestBlock.index ∘
    syntheticBlock m.totalBytes m.numLayers m.numBlocks m.blocksPerLayer = id from rfl, List.map_id]
  apply List.filter_congr
  intro i hi
  rw [Function.comp_apply, syntheticBlock_layer hlayers (List.mem_range.mp hi)]
  rfl

theorem IsSynthetic.mem_layerBlocks (h : m.IsSynthetic) (hlayers : 0 < m.numLayers) (i l : Nat) :
    i ∈ m.layerBlocks l ↔ i < m.numBlocks ∧ i / max m.blocksPerLayer 1 = l := by
  rw [h.layerBlocks hlayers, List.mem_filter, List.mem_range, beq_iff_eq]

/-- Every block is in exactly one layer, once. -/
theorem IsSynthetic.layerBlocks_partition (h : m.IsSynthetic) (hlayers : 0 < m.numLayers) {i : Nat}
    (hi : i < m.numBlocks) :
    ∃ l, (m.layerBlocks l).count i = 1 ∧ ∀ l', l' ≠ l → i ∉ m.layerBlocks l' := by
  refine ⟨i / max m.blocksPerLayer 1, ?_, ?_⟩
  · refine List.count_eq_one_of_mem ?_ ((h.mem_layerBlocks hlayers _ _).mpr ⟨hi, rfl⟩)
    rw [h.layerBlocks hlayers]
    exact List.nodup_range.filter _
  · intro l' hl' hmem
    exact hl' ((h.mem_layerBlocks hlayers _ _).mp hmem).2.symm

/-! ## Tiling -/

/-- The size of a block, when the number of blocks does not wrap. -/
theorem syntheticBlock_size (totalBytes numLayers blocksPerLayer : Nat) {i : Nat}
    (hi : i < totalBytes ⌈/⌉ raidBlockSize) :
    (syntheticBlock totalBytes numLayers (totalBytes ⌈/⌉ raidBlockSize) blocksPerLayer i).size =
      Tiles.size totalBytes raidBlockSize i := by
  unfold syntheticBlock
  simp only
  split
  · next hlast => rw [Tiles.size_last raidBlockSize_pos (by omega)]
  · next hlast => rw [Tiles.size_of_succ_lt raidBlockSize_pos (by omega)]

theorem synthetic_numBlocks (name : String) {totalBytes : Nat} (numLayers : Nat)
    (quantization : String) (h : totalBytes + raidBlockSize - 1 < 2 ^ 64) :
    (synthetic name totalBytes numLayers quantization).numBlocks =
      totalBytes ⌈/⌉ raidBlockSize := by
  rw [Nat.ceilDiv_eq_add_pred_div]
  exact congrArg (· / raidBlockSize) (Nat.mod_eq_of_lt h)

/-- For every size whose block count does not overflow and every number of layers: the blocks have
the indices from 0 on, in order; every size is between 1 and the block size, and below it for the
last block only; the sizes add up to the size of the model; and with at least one layer every block
is in exactly one of them, once. -/
theorem synthetic_tiles (name : String) (totalBytes numLayers : Nat) (quantization : String)
    (h : totalBytes + raidBlockSize - 1 < 2 ^ 64) :
    let m := synthetic name totalBytes numLayers quantization
    m.blocks.map ManifestBlock.index = List.range m.numBlocks ∧
    (∀ b ∈ m.blocks, 1 ≤ b.size ∧ b.size ≤ m.blockSize) ∧
    (∀ b ∈ m.blocks, b.size < m.blockSize → b.index + 1 = m.numBlocks) ∧
    (m.blocks.map ManifestBlock.size).sum = totalBytes ∧
    (1 ≤ numLayers → ∀ i < m.numBlocks,
      ∃ l, (m.layerBlocks l).count i = 1 ∧ ∀ l', l' ≠ l → i ∉ m.layerBlocks l') := by
  intro m
  have hm : m.IsSynthetic := isSynthetic name totalBytes numLayers quantization
  have hcount : m.numBlocks = totalBytes ⌈/⌉ raidBlockSize :=
    synthetic_numBlocks name numLayers quantization h
  have hsize : ∀ i < m.numBlocks,
      (syntheticBlock totalBytes numLayers m.numBlocks m.blocksPerLayer i).size =
        Tiles.size totalBytes raidBlockSize i := by
    rw [hcount]
    exact fun i hi => syntheticBlock_size totalBytes numLayers m.blocksPerLayer hi
  refine ⟨hm.map_index, ?_, ?_, ?_, fun hlayers i hi => hm.layerBlocks_partition hlayers hi⟩
  · intro b hb
    obtain ⟨i, hi, rfl⟩ := (hm.mem_blocks b).mp hb
    refine ⟨?_, ?_⟩
    · refine (hsize i hi).symm ▸ Tiles.size_pos raidBlockSize_pos ?_
      rwa [← hcount]
    · exact (hsize i hi).symm ▸ Tiles.size_le
  · intro b hb hsmall
    obtain ⟨i, hi, rfl⟩ := (hm.mem_blocks b).mp hb
    have hlast : ¬ i + 1 < m.numBlocks := by
      intro hnext
      rw [hcount] at hnext
      exact absurd ((hsize i hi).trans (Tiles.size_of_succ_lt raidBlockSize_pos hnext))
        hsmall.ne
    show i + 1 = m.numBlocks
    omega
  · rw [hm.blocks, List.map_map]
    refine (congrArg List.sum (List.map_congr_left fun i hi => hsize i (List.mem_range.mp hi))).trans ?_
    rw [hcount]
    exact Tiles.sum_size raidBlockSize_pos

/-- A model that is five bytes longer than one block. -/
theorem synthetic_tiles_small :
    ((synthetic "small" (2 * 1024 * 1024 + 5) 1 "Q8_0").blocks.map ManifestBlock.size).sum =
      2 * 1024 * 1024 + 5 :=
  (synthetic_tiles "small" (2 * 1024 * 1024 + 5) 1 "Q8_0" (by decide)).2.2.2.1

end Spaceshuttle.Llm.ModelManifest
