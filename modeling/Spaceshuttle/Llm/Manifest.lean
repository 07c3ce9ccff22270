import Spaceshuttle.Raid.Block

/-!
# Model manifests

`ModelManifest` of `crates/trust-kernel/src/llm_mapper.rs:137-232`: the blocks of a model file and
the layers they belong to. Sizes and counts are `usize`; their sums wrap.
-/

namespace Spaceshuttle.Llm

open Raid (RaidConfig)

/-- `RAID_BLOCK_SIZE` (`ram_raid.rs:102`). -/
def raidBlockSize : Nat := 2 * 1024 * 1024

/-- `ManifestBlock` (`llm_mapper.rs:158-169`). -/
structure ManifestBlock where
  index : Nat
  hash : String
  size : Nat
  layer : Option Nat
  label : Option String
  deriving DecidableEq, Repr

/-- `ModelManifest` (`llm_mapper.rs:137-154`). -/
structure ModelManifest where
  name : String
  totalBytes : Nat
  numLayers : Nat
  blockSize : Nat
  numBlocks : Nat
  blocks : List ManifestBlock
  quantization : String
  format : String
  deriving DecidableEq, Repr

namespace ModelManifest

/-- `{:064x}`. -/
def hex64 (n : Nat) : String :=
  let digits := Nat.toDigits 16 n
  String.ofList (List.replicate (64 - digits.length) '0' ++ digits)

/-- One block of a synthetic manifest (`llm_mapper.rs:182-201`). -/
def syntheticBlock (totalBytes numLayers numBlocks blocksPerLayer : Nat) (i : Nat) :
    ManifestBlock :=
  let remainder := totalBytes % raidBlockSize
  let size :=
    if i = numBlocks - 1 then if remainder > 0 then remainder else raidBlockSize
    else raidBlockSize
  let layer := if numLayers > 0 ∧ i < numBlocks then some (i / max blocksPerLayer 1) else none
  { index := i
    hash := hex64 (i * 0xDEADBEEFCAFEBABE)
    size := size
    layer := layer
    label := layer.map (fun l => s!"layers.{l}.block.{i % max blocksPerLayer 1}") }

/-- `ModelManifest::synthetic` (`llm_mapper.rs:176-214`). -/
def synthetic (name : String) (totalBytes numLayers : Nat) (quantization : String) :
    ModelManifest :=
  let numBlocks := (totalBytes + raidBlockSize - 1) % 2 ^ 64 / raidBlockSize
  let blocksPerLayer := if numLayers > 0 then numBlocks / numLayers else numBlocks
  { name := name
    totalBytes := totalBytes
    numLayers := numLayers
    blockSize := raidBlockSize
    numBlocks := numBlocks
    blocks := (List.range numBlocks).map
      (syntheticBlock totalBytes numLayers numBlocks blocksPerLayer)
    quantization := quantization
    format := "synthetic" }

/-- `layer_blocks` (`llm_mapper.rs:226-231`). -/
def layerBlocks (m : ModelManifest) (layer : Nat) : List Nat :=
  (m.blocks.filter (fun b => b.layer == some layer)).map ManifestBlock.index

/-- The configuration of the controller under a mapper (`llm_mapper.rs:322-327`), with the defaults
of `RaidConfig::new` (`ram_raid.rs:206-219`). -/
def raidConfig (m : ModelManifest) : RaidConfig where
  arenaSize := m.numBlocks * m.blockSize % 2 ^ 64
  blockSize := raidBlockSize
  maxResidentBlocks := m.numBlocks * m.blockSize % 2 ^ 64 / raidBlockSize
  ramBEndpoint := none
  ramBKernelId := none
  fromAint := "mapper.aint"
  arenaSize_lt := Nat.mod_lt _ (by decide)
  maxResidentBlocks_lt :=
    Nat.lt_of_le_of_lt (Nat.div_le_self _ _) (Nat.mod_lt _ (by decide))
  blockSize_pos := by decide

/-- The configuration after `with_ram_budget_blocks` (`llm_mapper.rs:365-368`), if it is called. -/
def budgetConfig (m : ModelManifest) : Option UInt64 → RaidConfig
  | none => m.raidConfig
  | some maxBlocks =>
      { m.raidConfig with
        maxResidentBlocks := maxBlocks.toNat
        maxResidentBlocks_lt := maxBlocks.toNat_lt }

end ModelManifest

end Spaceshuttle.Llm
