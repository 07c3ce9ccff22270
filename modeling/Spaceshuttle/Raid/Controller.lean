import Mathlib.Logic.Function.Basic
import Spaceshuttle.Raid.Block

/-!
# The RAM RAID controller

`RamRaidController` of `crates/trust-kernel/src/ram_raid.rs:392-1448`. Every method takes the
controller by `&mut self`, so the methods run one after another and each is a function from
controller to controller. The clock and the answers of the attached MUX client are inputs of a
method; SHA-256 is a parameter. The history of evictions is kept beside the fields of the source,
because most callers of `evict_coldest` drop its result.
-/

namespace Spaceshuttle.Raid

open Cluster

/-- What the attached `ClusterMuxClient` answers while a method runs. A method never makes the
same call twice: each call has its own bus sequence number. -/
structure Remote where
  fetchBlock : Nat → Option String → UInt64 → Except MuxError (List UInt8)
  storeBlock : Nat → List UInt8 → String → String → Nat → UInt64 → Except MuxError Unit
  fetchBatch : List (Nat × UInt64) → Except MuxError (List (Nat × List UInt8))
  /-- A successful `fetch_batch` has one entry per request, in order (`fetchBatch_blockIndices`). -/
  fetchBatch_indices : ∀ requests results, fetchBatch requests = .ok results →
    results.map Prod.fst = requests.map Prod.fst

/-- One call of `evict_coldest` that found a victim: the block, its metadata at that moment, the
result, and the location the block was given. -/
structure Eviction (n : Nat) where
  block : Fin n
  before : RaidBlock
  result : EvictionResult
  placed : BlockLocation

/-- `RamRaidController` (`ram_raid.rs:392-423`) with its block table indexed by block. -/
structure RamRaidController (cfg : RaidConfig) where
  blocks : Fin cfg.blockCount → RaidBlock
  residentCount : UInt64
  faultsHandled : UInt64
  evictionsPerformed : UInt64
  bytesCompressed : UInt64
  bytesDecompressed : UInt64
  remoteTransfers : UInt64
  zeroPagesServed : UInt64
  busSeq : UInt64
  lruClock : UInt64
  /-- A `ClusterMuxClient` is attached. -/
  muxClient : Bool
  localBlockStore : Option BlockStore
  /-- History: the evictions so far. -/
  evictions : List (Eviction cfg.blockCount)

namespace RamRaidController

variable {cfg : RaidConfig}

/-- A fresh block (`ram_raid.rs:434-446`). -/
def freshBlock (cfg : RaidConfig) (i : Nat) : RaidBlock where
  index := i
  stripe := RaidStripe.fromBlockIndex i
  vaOffset := i * cfg.blockSize
  size := cfg.blockSize
  location := .virgin
  contentHash := none
  edSeal := none
  accessCount := 0
  lastAccessNs := 0
  writeCount := 0
  dirty := false

/-- `RamRaidController::new` (`ram_raid.rs:429-466`). -/
def new (cfg : RaidConfig) : RamRaidController cfg where
  blocks := fun i => freshBlock cfg i
  residentCount := 0
  faultsHandled := 0
  evictionsPerformed := 0
  bytesCompressed := 0
  bytesDecompressed := 0
  remoteTransfers := 0
  zeroPagesServed := 0
  busSeq := 0
  lruClock := 0
  muxClient := false
  localBlockStore := none
  evictions := []

/-- `RamRaidController::with_mux_transport` (`ram_raid.rs:473-477`). -/
def withMuxTransport (c : RamRaidController cfg) : RamRaidController cfg :=
  { c with muxClient := true }

/-- `RamRaidController::with_local_block_store` (`ram_raid.rs:481-484`). -/
def withLocalBlockStore (c : RamRaidController cfg) (store : BlockStore) : RamRaidController cfg :=
  { c with localBlockStore := some store }

/-- `RamRaidController::block_index_for_addr` (`ram_raid.rs:650-652`). -/
def blockIndexForAddr (cfg : RaidConfig) (vaOffset : Nat) : Nat := vaOffset / cfg.blockSize

/-- Change one entry of the block table. -/
def modifyBlock (c : RamRaidController cfg) (i : Fin cfg.blockCount) (f : RaidBlock → RaidBlock) :
    RamRaidController cfg :=
  { c with blocks := Function.update c.blocks i (f (c.blocks i)) }

/-- Take the next bus sequence number. -/
def nextSeq (c : RamRaidController cfg) : RamRaidController cfg :=
  { c with busSeq := c.busSeq + 1 }

/-! ## Restoring -/

/-- The virgin case of `restore_block`, `restore_block_inner` and `simulate_read_batch`. -/
def fillVirgin (c : RamRaidController cfg) (i : Fin cfg.blockCount) (nowNs : UInt64) :
    RamRaidController cfg :=
  { c.modifyBlock i (fun b => b.zeroFill nowNs) with
    residentCount := c.residentCount + 1
    zeroPagesServed := c.zeroPagesServed + 1
    faultsHandled := c.faultsHandled + 1 }

/-- The end of the local case of `restore_block` (`ram_raid.rs:906-912`). -/
def arriveLocal (c : RamRaidController cfg) (i : Fin cfg.blockCount) (nowNs : UInt64) :
    RamRaidController cfg :=
  { c.modifyBlock i (fun b => b.restore nowNs) with
    residentCount := c.residentCount + 1
    bytesDecompressed := c.bytesDecompressed + UInt64.ofNat (c.blocks i).size
    faultsHandled := c.faultsHandled + 1 }

/-- The end of the remote case of `restore_block`, `restore_block_inner` and
`batch_restore_remote` (`ram_raid.rs:823-830`, `997-1007`, `1384-1391`). -/
def arriveRemote (c : RamRaidController cfg) (i : Fin cfg.blockCount) (nowNs : UInt64)
    (bytes : Nat) : RamRaidController cfg :=
  { c.modifyBlock i (fun b => b.restore nowNs) with
    residentCount := c.residentCount + 1
    bytesDecompressed := c.bytesDecompressed + UInt64.ofNat bytes
    remoteTransfers := c.remoteTransfers + 1
    faultsHandled := c.faultsHandled + 1 }

variable (sha256Hex : List UInt8 → String) (remote : Remote)

/-- The transport of `restore_block` (`ram_raid.rs:934-965`): the MUX client, else the local block
store, else nothing. A failure is the reason reported. -/
def fetchRemote (c : RamRaidController cfg) (i : Fin cfg.blockCount) (contentHash : Option String)
    (busSeq : UInt64) : RamRaidController cfg × Except String (Option (List UInt8)) :=
  if c.muxClient then
    match remote.fetchBlock i contentHash busSeq with
    | .ok data => (c, .ok (some data))
    | .error e => (c, .error s!"Remote fetch failed: {display e}")
  else
    match c.localBlockStore with
    | some store =>
        let (found, store) := store.fetch i
        let c := { c with localBlockStore := some store }
        match found with
        | some block => (c, .ok (some block.data))
        | none => (c, .error s!"Block {i.val} not found in local block store")
    | none => (c, .ok none)

/-- `restore_block` (`ram_raid.rs:852-1028`). -/
def restoreBlock (c : RamRaidController cfg) (i : Fin cfg.blockCount) (nowNs : UInt64) :
    RamRaidController cfg × FaultResult :=
  match (c.blocks i).location with
  | .resident => (c, .alreadyResident i)
  | .virgin => (c.fillVirgin i nowNs, .zeroFilled i)
  | .localStore _ _ => (c.arriveLocal i nowNs, .restoredLocal i)
  | .remoteKernel _ _ _ =>
      let contentHash := (c.blocks i).contentHash
      match fetchRemote remote c.nextSeq i contentHash c.busSeq with
      | (c, .error reason) => (c, .failed i reason)
      | (c, .ok none) => (c.arriveRemote i nowNs (c.blocks i).size, .restoredRemote i)
      | (c, .ok (some data)) =>
          match contentHash with
          | some expected =>
              if sha256Hex data != expected then
                (c, .failed i
                  s!"Integrity check failed: expected {expected}, got {sha256Hex data}")
              else
                (c.arriveRemote i nowNs data.length, .restoredRemote i)
          | none => (c.arriveRemote i nowNs data.length, .restoredRemote i)
  | .fetching => (c, .failed i "Block already being fetched (concurrent fault)")

/-- `restore_block_inner` (`ram_raid.rs:757-849`): the restore of the production path, with the
data to inject. Without a MUX client a remote block comes back as zeros; the local block store
is not consulted. -/
def restoreBlockInner (c : RamRaidController cfg) (i : Fin cfg.blockCount) (nowNs : UInt64) :
    RamRaidController cfg × FaultResult × List UInt8 :=
  match (c.blocks i).location with
  | .resident => (c, .alreadyResident i, [])
  | .virgin => (c.fillVirgin i nowNs, .zeroFilled i, List.replicate (c.blocks i).size 0)
  | .localStore _ _ =>
      let (c', result) := restoreBlock sha256Hex remote c i nowNs
      (c', result, List.replicate (c.blocks i).size 0)
  | .remoteKernel _ _ _ =>
      let contentHash := (c.blocks i).contentHash
      let busSeq := c.busSeq
      let c := c.nextSeq
      let fetched :=
        if c.muxClient then remote.fetchBlock i contentHash busSeq
        else .ok (List.replicate (c.blocks i).size 0)
      match fetched with
      | .error e => (c, .failed i s!"Remote fetch failed: {display e}", [])
      | .ok data =>
          match contentHash with
          | some expected =>
              if sha256Hex data != expected then
                (c, .failed i s!"Integrity: expected {expected}, got {sha256Hex data}", [])
              else
                (c.arriveRemote i nowNs data.length, .restoredRemote i, data)
          | none => (c.arriveRemote i nowNs data.length, .restoredRemote i, data)
  | .fetching => (c, .failed i "Already fetching", [])

/-! ## Evicting -/

/-- One iteration of the scan of `evict_coldest` (`ram_raid.rs:1048-1054`). -/
def coldestStep (c : RamRaidController cfg) (idx : Fin cfg.blockCount)
    (acc : Option (Fin cfg.blockCount) × UInt64) : Option (Fin cfg.blockCount) × UInt64 :=
  let block := c.blocks idx
  if block.location = .resident ∧ block.accessCount < acc.2 then (some idx, block.accessCount)
  else acc

/-- The scan of `evict_coldest`, from the position of the clock. -/
def coldest (c : RamRaidController cfg) : Option (Fin cfg.blockCount) :=
  if h : 0 < cfg.blockCount then
    let start := c.lruClock.toNat % cfg.blockCount
    ((List.range cfg.blockCount).foldl
      (fun acc i => c.coldestStep ⟨(start + i) % cfg.blockCount, Nat.mod_lt _ h⟩ acc)
      (none, 0xFFFFFFFFFFFFFFFF)).1
  else none

/-- The clean victim of `evict_coldest` (`ram_raid.rs:1070-1085`). -/
def evictClean (c : RamRaidController cfg) (i : Fin cfg.blockCount) :
    RamRaidController cfg × EvictionResult :=
  ({ c.modifyBlock i (fun b => b.drop i) with
      residentCount := c.residentCount - 1
      evictionsPerformed := c.evictionsPerformed + 1 },
    .dropped i)

/-- The dirty data of a block (`ram_raid.rs:1090`). -/
def simulatedData (b : RaidBlock) : List UInt8 := List.replicate b.size 42

/-- Send a dirty block to RAM B (`ram_raid.rs:1117-1141`). -/
def storeRemote (c : RamRaidController cfg) (i : Fin cfg.blockCount) (data : List UInt8)
    (hash edSeal : String) (seq : UInt64) : RamRaidController cfg × Except String Unit :=
  if c.muxClient then
    match remote.storeBlock i data hash edSeal (c.blocks i).size seq with
    | .ok () => (c, .ok ())
    | .error e => (c, .error s!"Remote store failed: {display e}")
  else
    match c.localBlockStore with
    | some store =>
        let store := store.store i data hash edSeal (c.blocks i).size cfg.fromAint seq
        ({ c with localBlockStore := some store }, .ok ())
    | none => (c, .ok ())

/-- The location of a block sent to RAM B (`ram_raid.rs:1146-1153`). -/
def remoteLocation (cfg : RaidConfig) (seq : UInt64) : BlockLocation :=
  .remoteKernel (cfg.ramBKernelId.getD "") (cfg.ramBEndpoint.getD "") s!"raid_fork_remote_{seq}"

/-- The location of a block stored locally (`ram_raid.rs:1175-1180`). -/
def localLocation (idx : Nat) (seq : UInt64) : BlockLocation :=
  .localStore s!"/var/lib/airlock/raid/block_{idx}_seq{seq}.tza" s!"raid_fork_local_{seq}"

/-- The dirty victim of `evict_coldest` (`ram_raid.rs:1087-1197`). -/
def evictDirty (c : RamRaidController cfg) (i : Fin cfg.blockCount) :
    RamRaidController cfg × EvictionResult :=
  let block := c.blocks i
  let data := simulatedData block
  let compressedSize := (simulateZstdCompress data).length
  let contentHash := simulateSha256 data
  let edSeal := simulateEd25519Sign contentHash
  let seq := c.busSeq
  let c := c.nextSeq
  if cfg.ramBEndpoint.isSome ∧ block.stripe = .ramB then
    let realHash := sha256Hex data
    match storeRemote remote c i data realHash edSeal seq with
    | (c, .error reason) => (c, .failed i reason)
    | (c, .ok ()) =>
        ({ c.modifyBlock i (fun b => b.store (remoteLocation cfg seq) realHash edSeal) with
            residentCount := c.residentCount - 1
            evictionsPerformed := c.evictionsPerformed + 1
            bytesCompressed := c.bytesCompressed + UInt64.ofNat block.size
            remoteTransfers := c.remoteTransfers + 1 },
          .evictedRemote i compressedSize)
  else
    ({ c.modifyBlock i (fun b => b.store (localLocation i seq) contentHash edSeal) with
        residentCount := c.residentCount - 1
        evictionsPerformed := c.evictionsPerformed + 1
        bytesCompressed := c.bytesCompressed + UInt64.ofNat block.size },
      .evictedLocal i compressedSize)

/-- The eviction of a chosen victim, kept in the history. -/
def evictVictim (c : RamRaidController cfg) (i : Fin cfg.blockCount) :
    RamRaidController cfg × EvictionResult :=
  let (c', result) :=
    if (c.blocks i).dirty then evictDirty sha256Hex remote c i else evictClean c i
  let eviction := ⟨i, c.blocks i, result, (c'.blocks i).location⟩
  ({ c' with evictions := c'.evictions ++ [eviction] }, result)

/-- `evict_coldest` (`ram_raid.rs:1034-1197`). -/
def evictColdest (c : RamRaidController cfg) : RamRaidController cfg × EvictionResult :=
  match c.coldest with
  | none => (c, .nothingToEvict)
  | some i =>
      evictVictim sha256Hex remote { c with lruClock := UInt64.ofNat (i + 1) } i

/-- `evict_coldest` called `k` times, results dropped (`ram_raid.rs:1308-1310`). -/
def evictTimes : Nat → RamRaidController cfg → RamRaidController cfg
  | 0, c => c
  | k + 1, c => evictTimes k (evictColdest sha256Hex remote c).1

/-- The loop of `proactive_evict` (`ram_raid.rs:1216-1222`). -/
def evictUpTo : Nat → RamRaidController cfg → RamRaidController cfg × List EvictionResult
  | 0, c => (c, [])
  | k + 1, c =>
      match evictColdest sha256Hex remote c with
      | (c, .nothingToEvict) => (c, [])
      | (c, result) =>
          let (c, results) := evictUpTo k c
          (c, result :: results)

/-- `proactive_evict` (`ram_raid.rs:1203-1226`). -/
def proactiveEvict (c : RamRaidController cfg) : RamRaidController cfg × List EvictionResult :=
  let resident := Float.ofNat c.residentCount.toNat
  let max := Float.ofNat cfg.maxResidentBlocks
  let utilization := (resident / max) * 100.0
  if utilization < 75.0 then (c, [])
  else
    let target := (max * 0.6).toUInt64.toNat
    let toEvict := resident.toUInt64.toNat - target
    evictUpTo sha256Hex remote toEvict c

/-! ## Faults -/

/-- The controller is at capacity (`ram_raid.rs:678-679`, `741-742`). -/
def atCapacity (c : RamRaidController cfg) : Bool :=
  decide (c.residentCount ≥ UInt64.ofNat cfg.maxResidentBlocks)

/-- The block an eviction freed, if it freed one. -/
def freed : EvictionResult → Option Nat
  | .evictedLocal i _ => some i
  | .evictedRemote i _ => some i
  | .dropped i => some i
  | .nothingToEvict => none
  | .failed _ _ => none

/-- `handle_fault` (`ram_raid.rs:664-722`). -/
def handleFault (c : RamRaidController cfg) (nowNs : UInt64) (faultAddr : Nat) :
    RamRaidController cfg × FaultResult :=
  let blockIdx := blockIndexForAddr cfg faultAddr
  if h : blockIdx < cfg.blockCount then
    if c.atCapacity then
      let (c, evictResult) := evictColdest sha256Hex remote c
      match freed evictResult with
      | none => (c, .failed blockIdx "Cannot evict block to make room")
      | some evictedIdx =>
          let (c, _) := restoreBlock sha256Hex remote c ⟨blockIdx, h⟩ nowNs
          (c, .evictedThenRestored evictedIdx blockIdx)
    else
      restoreBlock sha256Hex remote c ⟨blockIdx, h⟩ nowNs
  else
    (c, .failed blockIdx
      s!"Block index {blockIdx} out of range (max {cfg.blockCount})")

/-- `handle_fault_production` (`ram_raid.rs:729-748`): an eviction that fails is not noticed. -/
def handleFaultProduction (c : RamRaidController cfg) (nowNs : UInt64) (faultAddr : Nat) :
    RamRaidController cfg × FaultResult × List UInt8 :=
  let blockIdx := blockIndexForAddr cfg faultAddr
  if h : blockIdx < cfg.blockCount then
    let c := if c.atCapacity then (evictColdest sha256Hex remote c).1 else c
    restoreBlockInner sha256Hex remote c ⟨blockIdx, h⟩ nowNs
  else
    (c, .failed blockIdx s!"Block index {blockIdx} out of range", [])

/-! ## Workloads -/

/-- `simulate_write` (`ram_raid.rs:1229-1247`). It does not look at the capacity. -/
def simulateWrite (c : RamRaidController cfg) (nowNs : UInt64) (blockIdx : Nat) :
    RamRaidController cfg :=
  if h : blockIdx < cfg.blockCount then
    let i : Fin cfg.blockCount := ⟨blockIdx, h⟩
    let wasResident := (c.blocks i).location = .resident
    { c.modifyBlock i (fun b => b.write blockIdx nowNs) with
      residentCount := if wasResident then c.residentCount else c.residentCount + 1 }
  else c

/-- `simulate_read` (`ram_raid.rs:1250-1268`). -/
def simulateRead (c : RamRaidController cfg) (nowNs : UInt64) (blockIdx : Nat) :
    RamRaidController cfg × FaultResult :=
  if h : blockIdx < cfg.blockCount then
    let i : Fin cfg.blockCount := ⟨blockIdx, h⟩
    if (c.blocks i).location = .resident then
      (c.modifyBlock i (fun b => b.touch nowNs), .alreadyResident i)
    else
      handleFault sha256Hex remote c nowNs (blockIdx * cfg.blockSize)
  else
    (c, .failed blockIdx "Out of range")

/-- Apply a restoring function to the blocks of a list, one after the other. -/
def forBlocks (f : RamRaidController cfg → Fin cfg.blockCount → RamRaidController cfg × FaultResult) :
    RamRaidController cfg → List (Fin cfg.blockCount) → RamRaidController cfg × List FaultResult
  | c, [] => (c, [])
  | c, i :: is =>
      let (c, result) := f c i
      let (c, results) := forBlocks f c is
      (c, result :: results)

/-- One fetched block of `batch_restore_remote` (`ram_raid.rs:1371-1401`). -/
def batchArrive (nowNs : UInt64) (c : RamRaidController cfg) (i : Fin cfg.blockCount)
    (data : List UInt8) : RamRaidController cfg × FaultResult :=
  match (c.blocks i).contentHash with
  | some expected =>
      if sha256Hex data != expected then
        (c, .failed i s!"Batch integrity failed: expected {expected}, got {sha256Hex data}")
      else
        (c.arriveRemote i nowNs data.length, .restoredRemote i)
  | none => (c.arriveRemote i nowNs data.length, .restoredRemote i)

/-- The loop over the fetched blocks. An index outside the table would panic in the source; by
`fetchBatch_indices` it cannot occur, and the loop ends there. -/
def batchArriveAll (nowNs : UInt64) :
    RamRaidController cfg → List (Nat × List UInt8) → RamRaidController cfg × List FaultResult
  | c, [] => (c, [])
  | c, (blockIndex, data) :: fetched =>
      if h : blockIndex < cfg.blockCount then
        let (c, result) := batchArrive sha256Hex nowNs c ⟨blockIndex, h⟩ data
        let (c, results) := batchArriveAll nowNs c fetched
        (c, result :: results)
      else (c, [])

/-- `batch_restore_remote` (`ram_raid.rs:1350-1420`). -/
def batchRestoreRemote (c : RamRaidController cfg) (nowNs : UInt64)
    (blockIndices : List (Fin cfg.blockCount)) : RamRaidController cfg × List FaultResult :=
  let busSeqBase := c.busSeq
  let c := { c with busSeq := c.busSeq + UInt64.ofNat blockIndices.length }
  if c.muxClient then
    let requests := blockIndices.mapIdx (fun k i => (i.val, busSeqBase + UInt64.ofNat k))
    match remote.fetchBatch requests with
    | .ok fetched => batchArriveAll sha256Hex nowNs c fetched
    | .error e =>
        (c, blockIndices.map (fun i => .failed i s!"Batch fetch failed: {display e}"))
  else
    forBlocks (fun c i => restoreBlock sha256Hex remote c i nowNs) c blockIndices

/-- The entries of a list that are blocks of the table and have a location of the given kind
(`ram_raid.rs:1290-1299`). -/
def partition (c : RamRaidController cfg) (blockIndices : List Nat) (kind : BlockLocation → Bool) :
    List (Fin cfg.blockCount) :=
  blockIndices.filterMap (fun idx =>
    if h : idx < cfg.blockCount then
      if kind (c.blocks ⟨idx, h⟩).location then some ⟨idx, h⟩ else none
    else none)

/-- The location is `Resident`. -/
def isResident : BlockLocation → Bool
  | .resident => true
  | _ => false

/-- The location is `LocalStore`. -/
def isLocal : BlockLocation → Bool
  | .localStore _ _ => true
  | _ => false

/-- The location is `RemoteKernel`. -/
def isRemote : BlockLocation → Bool
  | .remoteKernel _ _ _ => true
  | _ => false

/-- The location is `Virgin`. -/
def isVirgin : BlockLocation → Bool
  | .virgin => true
  | _ => false

/-- `simulate_read_batch` (`ram_raid.rs:1280-1344`). -/
def simulateReadBatch (c : RamRaidController cfg) (nowNs : UInt64) (blockIndices : List Nat) :
    RamRaidController cfg × List FaultResult :=
  let alreadyResident := c.partition blockIndices isResident
  let needLocalRestore := c.partition blockIndices isLocal
  let needRemoteFetch := c.partition blockIndices isRemote
  let needVirginFill := c.partition blockIndices isVirgin
  let totalToRestore := needLocalRestore.length + needRemoteFetch.length + needVirginFill.length
  let resident := c.residentCount.toNat
  let needSlots := totalToRestore - (cfg.maxResidentBlocks - resident)
  let c := evictTimes sha256Hex remote needSlots c
  let (c, touched) := forBlocks
    (fun c i => (c.modifyBlock i (fun b => b.touch nowNs), .alreadyResident i)) c alreadyResident
  let (c, filled) := forBlocks
    (fun c i => (c.fillVirgin i nowNs, .zeroFilled i)) c needVirginFill
  let (c, restored) := forBlocks
    (fun c i => restoreBlock sha256Hex remote c i nowNs) c needLocalRestore
  let (c, fetched) :=
    if needRemoteFetch.isEmpty then (c, [])
    else batchRestoreRemote sha256Hex remote c nowNs needRemoteFetch
  (c, touched ++ filled ++ restored ++ fetched)

/-- The result is not a failure. -/
def succeeded : FaultResult → Bool
  | .failed _ _ => false
  | _ => true

/-- `prefetch` (`ram_raid.rs:1428-1448`). -/
def prefetch (c : RamRaidController cfg) (nowNs : UInt64) (blockIndices : List Nat) :
    RamRaidController cfg × Nat :=
  let toPrefetch := blockIndices.filter (fun idx =>
    if h : idx < cfg.blockCount then decide ((c.blocks ⟨idx, h⟩).location ≠ .resident) else false)
  if toPrefetch.isEmpty then (c, 0)
  else
    let (c, results) := simulateReadBatch sha256Hex remote c nowNs toPrefetch
    (c, results.countP succeeded)

end RamRaidController

end Spaceshuttle.Raid
