import Mathlib.Data.Fintype.Basic
import Spaceshuttle.Cluster.MuxClient

/-!
# RAID blocks

The data model of `crates/trust-kernel/src/ram_raid.rs:117-375`: stripes, block locations, block
metadata, the configuration, fault and eviction results, and the simulated crypto that eviction
runs over a block. Measured times are left out of the results; the intent of the arena and the
flags `proactive_eviction` and `track_writes` are read by no modelled function.
-/

namespace Spaceshuttle.Raid

open Cluster

/-- `RaidStripe` (`ram_raid.rs:125-130`). -/
inductive RaidStripe where
  | ramA
  | ramB
  deriving DecidableEq, Repr

/-- `RaidStripe::from_block_index` (`ram_raid.rs:134-136`). -/
def RaidStripe.fromBlockIndex (idx : Nat) : RaidStripe :=
  if idx % 2 = 0 then .ramA else .ramB

/-- `BlockLocation` (`ram_raid.rs:141-152`). -/
inductive BlockLocation where
  | resident
  | localStore (tzaPath forkTokenId : String)
  | remoteKernel (kernelId endpoint forkTokenId : String)
  | fetching
  | virgin
  deriving DecidableEq, Repr

/-- `RaidBlock` (`ram_raid.rs:156-179`). -/
structure RaidBlock where
  index : Nat
  stripe : RaidStripe
  vaOffset : Nat
  size : Nat
  location : BlockLocation
  contentHash : Option String
  edSeal : Option String
  accessCount : UInt64
  lastAccessNs : UInt64
  writeCount : UInt64
  dirty : Bool
  deriving DecidableEq, Repr

/-- `RaidConfig` (`ram_raid.rs:183-202`). Sizes are `usize`, and a block has at least one byte:
the code divides by `block_size`. -/
structure RaidConfig where
  arenaSize : Nat
  blockSize : Nat
  maxResidentBlocks : Nat
  ramBEndpoint : Option String
  ramBKernelId : Option String
  fromAint : String
  arenaSize_lt : arenaSize < 2 ^ 64
  maxResidentBlocks_lt : maxResidentBlocks < 2 ^ 64
  blockSize_pos : 0 < blockSize

/-- `RaidConfig::block_count` (`ram_raid.rs:237-239`). -/
def RaidConfig.blockCount (cfg : RaidConfig) : Nat := cfg.arenaSize / cfg.blockSize

theorem RaidConfig.blockCount_lt (cfg : RaidConfig) : cfg.blockCount < 2 ^ 64 :=
  Nat.lt_of_le_of_lt (Nat.div_le_self _ _) cfg.arenaSize_lt

/-- `FaultResult` (`ram_raid.rs:263-301`). -/
inductive FaultResult where
  | alreadyResident (blockIndex : Nat)
  | restoredLocal (blockIndex : Nat)
  | restoredRemote (blockIndex : Nat)
  | zeroFilled (blockIndex : Nat)
  | evictedThenRestored (evictedBlock restoredBlock : Nat)
  | failed (blockIndex : Nat) (reason : String)
  deriving DecidableEq, Repr

/-- `EvictionResult` (`ram_raid.rs:305-333`). -/
inductive EvictionResult where
  | evictedLocal (blockIndex compressedSize : Nat)
  | evictedRemote (blockIndex compressedSize : Nat)
  | dropped (blockIndex : Nat)
  | nothingToEvict
  | failed (blockIndex : Nat) (reason : String)
  deriving DecidableEq, Repr

/-- `Display` of `MuxError` (`cluster_mux.rs:767-779`). -/
def display : MuxError → String
  | .connect e => s!"Connect: {e}"
  | .notConnected => "Not connected"
  | .io e => s!"I/O: {e}"
  | .protocol e => s!"Protocol: {e}"
  | .remote e => s!"Remote: {e}"
  | .remoteStatus status error => s!"Remote {status}: {error}"
  | .integrityFailed expected got => s!"Integrity: expected {expected}, got {got}"

/-! ## Simulated crypto -/

/-- `{:016x}` of a word. -/
def hex16 (w : UInt64) : String :=
  let digits := Nat.toDigits 16 w.toNat
  String.ofList (List.replicate (16 - digits.length) '0' ++ digits)

/-- `u64::rotate_left`. -/
def rotateLeft (w : UInt64) (n : UInt64) : UInt64 :=
  (w <<< n) ||| (w >>> (64 - n))

/-- `simulate_sha256` (`ram_raid.rs:339-347`): FNV-1a, printed four times under rotation. -/
def simulateSha256 (data : List UInt8) : String :=
  let hash := data.foldl
    (fun (h : UInt64) byte => (h ^^^ byte.toUInt64) * 0x100000001b3) 0xcbf29ce484222325
  "sha256:" ++ hex16 hash ++ hex16 (rotateLeft hash 16) ++ hex16 (rotateLeft hash 32) ++
    hex16 (rotateLeft hash 48)

/-- `simulate_ed25519_sign` (`ram_raid.rs:349-352`) of the bytes of a string. -/
def simulateEd25519Sign (text : String) : String :=
  let hash := simulateSha256 (text.toList.map (fun c => UInt8.ofNat c.toNat))
  "ed25519_raid:" ++ String.ofList ((hash.toList.drop 7).take 32)

/-- The compressed bytes of `simulate_zstd_compress` (`ram_raid.rs:354-370`). -/
def simulateZstdCompress (data : List UInt8) : List UInt8 :=
  let zeroCount := data.countP (fun b => b == 0)
  let zeroRatio := Float.ofNat zeroCount / Float.ofNat (max data.length 1)
  let ratio : Float :=
    if zeroRatio > 0.9 then 8.0
    else if zeroRatio > 0.7 then 5.0
    else if zeroRatio > 0.5 then 3.5
    else 2.5
  let compressedSize := (Float.ofNat data.length / ratio).toUInt64.toNat
  let fill := min compressedSize data.length
  data.take fill ++ List.replicate (compressedSize - fill) 0

/-! ## Updates of a block -/

namespace RaidBlock

/-- A virgin block becomes resident (`ram_raid.rs:769-771`, `866-868`, `1323-1325`). -/
def zeroFill (b : RaidBlock) (nowNs : UInt64) : RaidBlock :=
  { b with location := .resident, accessCount := 1, lastAccessNs := nowNs }

/-- An evicted block becomes resident and clean (`ram_raid.rs:823-826`, `906-909`, `997-1000`,
`1387-1390`). -/
def restore (b : RaidBlock) (nowNs : UInt64) : RaidBlock :=
  { b with
    location := .resident
    accessCount := b.accessCount + 1
    lastAccessNs := nowNs
    dirty := false }

/-- An access to a resident block (`ram_raid.rs:1260-1261`, `1316-1317`). -/
def touch (b : RaidBlock) (nowNs : UInt64) : RaidBlock :=
  { b with accessCount := b.accessCount + 1, lastAccessNs := nowNs }

/-- The body of `simulate_write` (`ram_raid.rs:1235-1242`). -/
def write (b : RaidBlock) (blockIdx : Nat) (nowNs : UInt64) : RaidBlock :=
  { b with
    location := .resident
    dirty := true
    writeCount := b.writeCount + 1
    accessCount := b.accessCount + 1
    lastAccessNs := nowNs
    contentHash := some s!"sha256:dirty_block_{blockIdx}_write_{b.writeCount + 1}" }

/-- Where a clean block goes (`ram_raid.rs:1073-1080`). -/
def dropTarget (b : RaidBlock) (idx : Nat) : BlockLocation :=
  if b.contentHash.isSome then
    .localStore s!"/var/lib/airlock/raid/block_{idx}.tza" s!"raid_fork_{idx}"
  else
    .virgin

/-- A clean block is dropped. -/
def drop (b : RaidBlock) (idx : Nat) : RaidBlock :=
  { b with location := b.dropTarget idx }

/-- A dirty block has been stored away (`ram_raid.rs:1149-1156`, `1177-1183`). -/
def store (b : RaidBlock) (location : BlockLocation) (contentHash edSeal : String) : RaidBlock :=
  { b with
    location := location
    contentHash := some contentHash
    edSeal := some edSeal
    dirty := false }

end RaidBlock

end Spaceshuttle.Raid
