import Spaceshuttle.Bifurcation.Envelope
import Spaceshuttle.Llm.Manifest
import Spaceshuttle.Raid.Accounting

/-!
# The memory mapper

`LlmMemoryMapper` of `crates/trust-kernel/src/llm_mapper.rs:244-636`: an aperture that has a status
for every block of a model, over a RAM RAID controller that moves the blocks. Measured times are
left out of the statuses, results and statistics; the transports of the mapper itself are used by
`heartbeat` only. The history of loads and evictions is kept beside the fields of the source.
-/

namespace Spaceshuttle.Llm

open Raid
open Bifurcation (Panic)

/-! ## Aperture -/

/-- `ApertureStatus` (`llm_mapper.rs:78-105`). -/
inductive ApertureStatus where
  | unmapped (expectedHash : String) (size : Nat)
  | loading
  | resident
  | evicted
  deriving DecidableEq, Repr

/-- `ApertureBlock` (`llm_mapper.rs:109-126`). -/
structure ApertureBlock where
  index : Nat
  layer : Option Nat
  stripe : RaidStripe
  status : ApertureStatus
  contentHash : String
  size : Nat
  accessCount : UInt64
  label : Option String
  deriving DecidableEq, Repr

/-- `MapperStats` (`llm_mapper.rs:269-294`). -/
structure MapperStats where
  faultsHandled : UInt64
  blocksMaterialized : UInt64
  blocksEvicted : UInt64
  blocksPrefetched : UInt64
  cacheHits : UInt64
  bytesFromRemote : UInt64
  bytesFromLocal : UInt64
  currentLayer : Nat
  layersComplete : Nat
  deriving DecidableEq, Repr

/-- What a method reads from outside: the clock at the faults, numbered as the mapper counts them,
and the answers of the remote kernel. -/
structure Env where
  clock : Nat → UInt64
  remote : Remote

/-- What happens to a block. -/
inductive MoveKind where
  | load
  | evict
  deriving DecidableEq, Repr

/-- A load or an eviction of a block of the aperture, with the tables just before it. -/
structure Move (manifest : ModelManifest) (cfg : RaidConfig) where
  kind : MoveKind
  block : Fin manifest.blocks.length
  aperture : Fin manifest.blocks.length → ApertureBlock
  raid : RamRaidController cfg

/-- `LlmMemoryMapper` (`llm_mapper.rs:244-265`). -/
structure LlmMemoryMapper (manifest : ModelManifest) (cfg : RaidConfig) where
  aperture : Fin manifest.blocks.length → ApertureBlock
  raidController : RamRaidController cfg
  prefetchWindow : Nat
  stats : MapperStats
  /-- History: the loads and evictions so far. -/
  moves : List (Move manifest cfg)

/-- `MIN_RESIDENT_BLOCKS` (`llm_mapper.rs:67`). -/
def minResidentBlocks : Nat := 4

/-- `BlockSource` (`llm_mapper.rs:732-735`). -/
inductive BlockSource where
  | localRamA
  | remoteRamB
  deriving DecidableEq, Repr

/-- `MaterializeResult` (`llm_mapper.rs:715-729`). -/
inductive MaterializeResult where
  | alreadyResident
  | inProgress
  | loaded (blockIndex : Nat) (source : BlockSource) (layer : Option Nat)
  | outOfRange
  deriving DecidableEq, Repr

/-- `LayerResult` (`llm_mapper.rs:738-745`). -/
structure LayerResult where
  layer : Nat
  blocksLoaded : Nat
  blocksAlreadyResident : Nat
  blocksFromRemote : Nat
  blocksFromLocal : Nat
  deriving DecidableEq, Repr

/-- `PrefetchResult` (`llm_mapper.rs:748-752`). -/
structure PrefetchResult where
  layersAhead : Nat
  blocksPrefetched : UInt64
  deriving DecidableEq, Repr

/-- `InferenceResult` (`llm_mapper.rs:762-772`). -/
structure InferenceResult where
  layersProcessed : Nat
  totalBlocksLoaded : UInt64
  totalPrefetched : UInt64
  totalEvicted : UInt64
  cacheHits : UInt64
  bytesTransferred : UInt64
  layerResults : List LayerResult
  deriving DecidableEq, Repr

namespace LlmMemoryMapper

variable {manifest : ModelManifest} {cfg : RaidConfig}

/-- The aperture block of a block of the manifest (`llm_mapper.rs:305-319`). -/
def apertureBlock (b : ManifestBlock) : ApertureBlock where
  index := b.index
  layer := b.layer
  stripe := RaidStripe.fromBlockIndex b.index
  status := .unmapped b.hash b.size
  contentHash := b.hash
  size := b.size
  accessCount := 0
  label := b.label

/-- `LlmMemoryMapper::new` with the builder methods (`llm_mapper.rs:301-368`): a RAM budget, the
transports of the controller and a prefetch window. -/
def new (manifest : ModelManifest) (budget : Option UInt64) (muxClient : Bool)
    (localStore : Option Cluster.BlockStore) (prefetchWindow : Nat) :
    LlmMemoryMapper manifest (manifest.budgetConfig budget) where
  aperture := fun i => apertureBlock (manifest.blocks.get i)
  raidController := start (manifest.budgetConfig budget) muxClient localStore
  prefetchWindow := prefetchWindow
  stats := ⟨0, 0, 0, 0, 0, 0, 0, 0, 0⟩
  moves := []

/-- `DEFAULT_PREFETCH_WINDOW` (`llm_mapper.rs:64`). -/
def defaultPrefetchWindow : Nat := 4

/-- Change one block of the aperture. -/
def modifyBlock (m : LlmMemoryMapper manifest cfg) (i : Fin manifest.blocks.length)
    (f : ApertureBlock → ApertureBlock) : LlmMemoryMapper manifest cfg :=
  { m with aperture := Function.update m.aperture i (f (m.aperture i)) }

/-- The status is `Resident`. -/
def isResident : ApertureStatus → Bool
  | .resident => true
  | _ => false

/-- The aperture in order. -/
def blockList (m : LlmMemoryMapper manifest cfg) : List ApertureBlock := List.ofFn m.aperture

/-- `resident_count` (`llm_mapper.rs:388-392`). -/
def residentCount (m : LlmMemoryMapper manifest cfg) : Nat :=
  m.blockList.countP (fun b => isResident b.status)

/-- The status is `Unmapped`. -/
def isUnmapped : ApertureStatus → Bool
  | .unmapped _ _ => true
  | _ => false

/-- `unmapped_count` (`llm_mapper.rs:381-385`). -/
def unmappedCount (m : LlmMemoryMapper manifest cfg) : Nat :=
  m.blockList.countP (fun b => isUnmapped b.status)

/-- The status is `Evicted`. -/
def isEvicted : ApertureStatus → Bool
  | .evicted => true
  | _ => false

/-- `evicted_count` (`llm_mapper.rs:395-399`). -/
def evictedCount (m : LlmMemoryMapper manifest cfg) : Nat :=
  m.blockList.countP (fun b => isEvicted b.status)

variable (sha256Hex : List UInt8 → String)

/-! ## Materializing -/

/-- The case of `materialize_block` in which the block is fetched (`llm_mapper.rs:438-473`). What
the controller answers is not looked at. -/
def load (env : Env) (m : LlmMemoryMapper manifest cfg) (i : Fin manifest.blocks.length) :
    LlmMemoryMapper manifest cfg :=
  let block := m.aperture i
  let move := ⟨.load, i, m.aperture, m.raidController⟩
  let m := m.modifyBlock i (fun b => { b with status := .loading })
  let (raid, _) := RamRaidController.simulateRead sha256Hex env.remote m.raidController
    (env.clock m.stats.faultsHandled.toNat) i
  let m := { m with raidController := raid }
  let m := m.modifyBlock i
    (fun b => { b with status := .resident, accessCount := b.accessCount + 1 })
  let isRemote := block.stripe = .ramB
  let size := UInt64.ofNat block.size
  { m with
    stats := { m.stats with
      faultsHandled := m.stats.faultsHandled + 1
      blocksMaterialized := m.stats.blocksMaterialized + 1
      bytesFromRemote :=
        if isRemote then m.stats.bytesFromRemote + size else m.stats.bytesFromRemote
      bytesFromLocal := if isRemote then m.stats.bytesFromLocal else m.stats.bytesFromLocal + size }
    moves := m.moves ++ [move] }

/-- `materialize_block` (`llm_mapper.rs:411-476`). -/
def materializeBlock (env : Env) (m : LlmMemoryMapper manifest cfg) (blockIndex : Nat) :
    LlmMemoryMapper manifest cfg × MaterializeResult :=
  if h : blockIndex < manifest.blocks.length then
    let i : Fin manifest.blocks.length := ⟨blockIndex, h⟩
    let block := m.aperture i
    let source := if block.stripe = .ramB then BlockSource.remoteRamB else .localRamA
    match block.status with
    | .resident =>
        (m.modifyBlock i (fun b => { b with accessCount := b.accessCount + 1 }), .alreadyResident)
    | .loading => (m, .inProgress)
    | .unmapped _ _ => (m.load sha256Hex env i, .loaded blockIndex source block.layer)
    | .evicted => (m.load sha256Hex env i, .loaded blockIndex source block.layer)
  else (m, .outOfRange)

/-- `materialize_block` for every index of a list, in order. -/
def materializeAll (env : Env) :
    LlmMemoryMapper manifest cfg → List Nat → LlmMemoryMapper manifest cfg × List MaterializeResult
  | m, [] => (m, [])
  | m, idx :: indices =>
      let (m, result) := m.materializeBlock sha256Hex env idx
      let (m, results) := materializeAll env m indices
      (m, result :: results)

/-- A block was loaded, from one of the given sources. -/
def loadedFrom (p : BlockSource → Bool) : MaterializeResult → Bool
  | .loaded _ source _ => p source
  | _ => false

/-- `materialize_layer` (`llm_mapper.rs:482-529`). -/
def materializeLayer (env : Env) (m : LlmMemoryMapper manifest cfg) (layer : Nat) :
    LlmMemoryMapper manifest cfg × LayerResult :=
  let blockIndices := manifest.layerBlocks layer
  if blockIndices.isEmpty then (m, ⟨layer, 0, 0, 0, 0⟩)
  else
    let (m, results) := m.materializeAll sha256Hex env blockIndices
    let loaded := results.countP (loadedFrom (fun _ => true))
    let already := results.countP (fun r => r == .alreadyResident)
    let complete := loaded + already = blockIndices.length
    ({ m with stats := { m.stats with
        currentLayer := layer
        layersComplete :=
          if complete then m.stats.layersComplete + 1 else m.stats.layersComplete } },
      { layer := layer
        blocksLoaded := loaded
        blocksAlreadyResident := already
        blocksFromRemote := results.countP (loadedFrom (fun source => source == .remoteRamB))
        blocksFromLocal := results.countP (loadedFrom (fun source => source == .localRamA)) })

/-- The block is there and has no data (`llm_mapper.rs:547-549`). -/
def needsData (m : LlmMemoryMapper manifest cfg) (idx : Nat) : Bool :=
  if h : idx < manifest.blocks.length then
    match (m.aperture ⟨idx, h⟩).status with
    | .unmapped _ _ => true
    | .evicted => true
    | _ => false
  else false

/-- The blocks of one layer of `prefetch_layers` (`llm_mapper.rs:546-553`), with their number. -/
def prefetchBlocks (env : Env) :
    LlmMemoryMapper manifest cfg → List Nat → LlmMemoryMapper manifest cfg × UInt64
  | m, [] => (m, 0)
  | m, idx :: indices =>
      if m.needsData idx then
        let (m, _) := m.materializeBlock sha256Hex env idx
        let (m, prefetched) := prefetchBlocks env m indices
        (m, 1 + prefetched)
      else prefetchBlocks env m indices

/-- The loop of `prefetch_layers` (`llm_mapper.rs:540-555`): the blocks prefetched and the layers
touched. -/
def prefetchLoop (env : Env) :
    LlmMemoryMapper manifest cfg → List Nat → LlmMemoryMapper manifest cfg × UInt64 × Nat
  | m, [] => (m, 0, 0)
  | m, layer :: layers =>
      if layer ≥ manifest.numLayers then (m, 0, 0)
      else
        let (m, prefetched) := m.prefetchBlocks sha256Hex env (manifest.layerBlocks layer)
        let (m, total, touched) := prefetchLoop env m layers
        (m, prefetched + total, 1 + touched)

/-- `prefetch_layers` (`llm_mapper.rs:535-564`). The bounds of the range wrap. -/
def prefetchLayers (env : Env) (m : LlmMemoryMapper manifest cfg) (currentLayer : Nat) :
    LlmMemoryMapper manifest cfg × PrefetchResult :=
  let first := (currentLayer + 1) % 2 ^ 64
  let last := (currentLayer + m.prefetchWindow) % 2 ^ 64
  let (m, total, touched) := m.prefetchLoop sha256Hex env (List.range' first (last + 1 - first))
  ({ m with stats := { m.stats with blocksPrefetched := m.stats.blocksPrefetched + total } },
    ⟨touched, total⟩)

/-! ## Evicting -/

/-- One round of the loop of `evict_cold_blocks` (`llm_mapper.rs:588-593`). -/
def evictBlock (env : Env) (m : LlmMemoryMapper manifest cfg) (i : Fin manifest.blocks.length) :
    LlmMemoryMapper manifest cfg :=
  let move := ⟨.evict, i, m.aperture, m.raidController⟩
  let m := m.modifyBlock i (fun b => { b with status := .evicted })
  let (raid, _) := RamRaidController.proactiveEvict sha256Hex env.remote m.raidController
  { m with
    raidController := raid
    stats := { m.stats with blocksEvicted := m.stats.blocksEvicted + 1 }
    moves := m.moves ++ [move] }

/-- The message of an index outside the aperture. -/
def indexOutOfBounds (manifest : ModelManifest) (idx : Nat) : Panic :=
  ⟨s!"index out of bounds: the len is {manifest.blocks.length} but the index is {idx}"⟩

/-- The loop of `evict_cold_blocks` (`llm_mapper.rs:580-594`), with the blocks evicted so far. -/
def evictLoop (env : Env) (targetFree : Nat) : LlmMemoryMapper manifest cfg → Nat → List Nat →
    LlmMemoryMapper manifest cfg × Except Panic Nat
  | m, evicted, [] => (m, .ok evicted)
  | m, evicted, idx :: indices =>
      if evicted ≥ targetFree then (m, .ok evicted)
      else if m.residentCount ≤ minResidentBlocks then (m, .ok evicted)
      else if h : idx < manifest.blocks.length then
        evictLoop env targetFree (m.evictBlock sha256Hex env ⟨idx, h⟩) (evicted + 1) indices
      else (m, .error (indexOutOfBounds manifest idx))

/-- The access count by which `evict_cold_blocks` sorts. -/
def accessCount (m : LlmMemoryMapper manifest cfg) (idx : Nat) : UInt64 :=
  if h : idx < manifest.blocks.length then (m.aperture ⟨idx, h⟩).accessCount else 0

/-- `evict_cold_blocks` (`llm_mapper.rs:569-597`). Sorting two or more indices looks at all of them,
and the first one outside the aperture is taken for the message. -/
def evictColdBlocks (env : Env) (m : LlmMemoryMapper manifest cfg) (targetFree : Nat) :
    LlmMemoryMapper manifest cfg × Except Panic Nat :=
  let residentIndices := (m.blockList.filter (fun b => isResident b.status)).map ApertureBlock.index
  match residentIndices.find? (fun idx => decide (manifest.blocks.length ≤ idx)) with
  | some idx =>
      if residentIndices.length ≥ 2 then (m, .error (indexOutOfBounds manifest idx))
      else m.evictLoop sha256Hex env targetFree 0 residentIndices
  | none =>
      m.evictLoop sha256Hex env targetFree 0
        (residentIndices.mergeSort (fun a b => decide (m.accessCount a ≤ m.accessCount b)))

/-! ## Inference -/

/-- The end of a layer of `simulate_inference` (`llm_mapper.rs:613-616`). -/
def keepBudget (env : Env) (m : LlmMemoryMapper manifest cfg) :
    LlmMemoryMapper manifest cfg × Except Panic Nat :=
  if m.residentCount > cfg.maxResidentBlocks then
    m.evictColdBlocks sha256Hex env (m.residentCount - cfg.maxResidentBlocks)
  else (m, .ok 0)

/-- The loop of `simulate_inference` (`llm_mapper.rs:605-619`). -/
def inferenceLoop (env : Env) : LlmMemoryMapper manifest cfg → List Nat →
    LlmMemoryMapper manifest cfg × Except Panic (List LayerResult)
  | m, [] => (m, .ok [])
  | m, layer :: layers =>
      let (m, result) := m.materializeLayer sha256Hex env layer
      let (m, _) := m.prefetchLayers sha256Hex env layer
      match m.keepBudget sha256Hex env with
      | (m, .error panic) => (m, .error panic)
      | (m, .ok _) =>
          let (m, results) := inferenceLoop env m layers
          (m, results.map (fun results => result :: results))

/-- `simulate_inference` (`llm_mapper.rs:601-636`). The reservation of the results of all layers is taken
to succeed; it panics above `isize::MAX / 48` layers. -/
def simulateInference (env : Env) (m : LlmMemoryMapper manifest cfg) :
    LlmMemoryMapper manifest cfg × Except Panic InferenceResult :=
  let (m, results) := m.inferenceLoop sha256Hex env (List.range manifest.numLayers)
  (m, results.map (fun results =>
    { layersProcessed := manifest.numLayers
      totalBlocksLoaded := m.stats.blocksMaterialized
      totalPrefetched := m.stats.blocksPrefetched
      totalEvicted := m.stats.blocksEvicted
      cacheHits := m.stats.cacheHits
      bytesTransferred := m.stats.bytesFromRemote + m.stats.bytesFromLocal
      layerResults := results }))

end LlmMemoryMapper

/-! ## Runs -/

/-- The operations of a mapper. -/
inductive MapperOp where
  | materializeBlock (blockIndex : Nat)
  | materializeLayer (layer : Nat)
  | prefetchLayers (currentLayer : Nat)
  | evictColdBlocks (targetFree : Nat)
  | simulateInference
  deriving DecidableEq, Repr

/-- What an operation returns. -/
inductive MapperOutcome where
  | materialized (result : MaterializeResult)
  | layer (result : LayerResult)
  | prefetched (result : PrefetchResult)
  | evicted (result : Except Panic Nat)
  | inference (result : Except Panic InferenceResult)

/-- Run an operation. -/
def mapperStep {manifest : ModelManifest} {cfg : RaidConfig} (sha256Hex : List UInt8 → String)
    (m : LlmMemoryMapper manifest cfg) (request : MapperOp × Env) :
    LlmMemoryMapper manifest cfg × MapperOutcome :=
  match request.1 with
  | .materializeBlock blockIndex =>
      let (m, result) := m.materializeBlock sha256Hex request.2 blockIndex
      (m, .materialized result)
  | .materializeLayer layer =>
      let (m, result) := m.materializeLayer sha256Hex request.2 layer
      (m, .layer result)
  | .prefetchLayers currentLayer =>
      let (m, result) := m.prefetchLayers sha256Hex request.2 currentLayer
      (m, .prefetched result)
  | .evictColdBlocks targetFree =>
      let (m, result) := m.evictColdBlocks sha256Hex request.2 targetFree
      (m, .evicted result)
  | .simulateInference =>
      let (m, result) := m.simulateInference sha256Hex request.2
      (m, .inference result)

end Spaceshuttle.Llm
