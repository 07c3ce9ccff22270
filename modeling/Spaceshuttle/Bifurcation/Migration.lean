import Spaceshuttle.Bifurcation.Envelope
import Spaceshuttle.Lib.Machine
import Spaceshuttle.Lib.Mirror
import Spaceshuttle.Lib.Sweep

/-!
# Live migration

`LiveMigration` of `crates/trust-kernel/src/bifurcation.rs:1448-1646`: a bitmap of the blocks
written since they were last sent, a table of the hashes of the blocks as they were sent, and a
phase. Counters wrap around, as in a release build. `Migrating` puts it between a source server and
a destination server; its results say that the destination is a plain copy of the source, with the
bitmap as its stale entries: skipping the blocks whose hash is already known changes nothing.
-/

namespace Spaceshuttle.Bifurcation

/-! ## `quick_hash` -/

/-- The loop body of `quick_hash` (`bifurcation.rs:1631-1637`) for the byte at `i`. -/
def mixByte (state : Vector UInt64 4) (i : Nat) (byte : UInt8) : Vector UInt64 4 :=
  let idx := Fin.ofNat 4 i
  let mixed := state[idx] * 0x100000001b3 + byte.toUInt64
  let next : Fin 4 := idx + 1
  let rotated := UInt64.ofBitVec (mixed.toBitVec.rotateLeft 17)
  (state.set idx mixed).set next (state[next] ^^^ rotated)

/-- `LiveMigration::quick_hash` (`bifurcation.rs:1622-1645`). -/
def quickHash (data : List UInt8) : Bytes32 :=
  let state := data.zipIdx.foldl (fun state b => mixByte state b.2 b.1)
    #v[0x243F6A8885A308D3, 0x13198A2E03707344, 0xA4093822299F31D0, 0x082EFA98EC4E6C89]
  -- `to_le_bytes` of the four words
  Vector.ofFn fun k : Fin 32 =>
    (state.get ⟨k.val / 8, by omega⟩ >>> (8 * (k.val % 8)).toUInt64).toUInt8

/-- `[0u8; 32]`, the hash of a block that was never sent. -/
def zeroHash : Bytes32 := Vector.replicate 32 0

/-! ## The controller -/

/-- `MigrationPhase` (`bifurcation.rs:1477-1490`). -/
inductive MigrationPhase where
  | bulkSync
  | deltaSync
  | microFreeze
  | handoff
  | complete
  | aborted (reason : String)
  deriving DecidableEq

/-- `LiveMigration` (`bifurcation.rs:1460-1473`) of `n` blocks: both vectors get the length `n` in
`new` and keep it. -/
structure LiveMigration (n : Nat) where
  sourceBlockHashes : Fin n → Bytes32
  dirtyBitmap : Fin n → Bool
  bytesTransferred : UInt64
  bytesSkipped : UInt64
  syncRounds : UInt32
  phase : MigrationPhase

/-- `SyncRound` (`bifurcation.rs:1494-1509`). -/
structure SyncRound where
  phase : MigrationPhase
  round : UInt32
  blocksTransferred : Nat
  blocksSkipped : Nat
  bytesTransferred : UInt64
  remainingDirty : Nat

namespace LiveMigration

variable {n : Nat}

/-- `LiveMigration::new` (`bifurcation.rs:1513-1522`). -/
def new (n : Nat) : LiveMigration n where
  sourceBlockHashes := fun _ => zeroHash
  dirtyBitmap := fun _ => true
  bytesTransferred := 0
  bytesSkipped := 0
  syncRounds := 0
  phase := .bulkSync

/-- `LiveMigration::mark_dirty` (`bifurcation.rs:1525-1529`). -/
def markDirty (m : LiveMigration n) (blockIndex : Nat) : LiveMigration n :=
  if h : blockIndex < n then
    { m with dirtyBitmap := Function.update m.dirtyBitmap ⟨blockIndex, h⟩ true }
  else m

/-- The variables of the loop of `sync_round`, and the blocks it handed to the transport. -/
structure SyncLoop (n : Nat) where
  hashes : Fin n → Bytes32
  dirty : Fin n → Bool
  transferred : Nat
  skipped : Nat
  bytes : UInt64
  sent : List (Fin n × List UInt8)

/-- The loop body of `sync_round` (`bifurcation.rs:1548-1566`). The loop ends with the shorter of
the bitmap and `block_data`: for an index past `block_data` nothing happens. -/
def syncBlock (blockData : List (List UInt8)) (s : SyncLoop n) (i : Fin n) : SyncLoop n :=
  match blockData[i.val]? with
  | none => s
  | some block =>
    if s.dirty i then
      let hash := quickHash block
      let s :=
        if hash ≠ s.hashes i then
          { s with
            hashes := Function.update s.hashes i hash
            bytes := s.bytes + block.length.toUInt64
            transferred := s.transferred + 1
            sent := s.sent ++ [(i, block)] }
        else { s with skipped := s.skipped + 1 }
      { s with dirty := Function.update s.dirty i false }
    else { s with skipped := s.skipped + 1 }

/-- The loop of `sync_round`. -/
def syncBlocks (m : LiveMigration n) (blockData : List (List UInt8)) : SyncLoop n :=
  (List.finRange n).foldl (syncBlock blockData)
    { hashes := m.sourceBlockHashes, dirty := m.dirtyBitmap, transferred := 0, skipped := 0,
      bytes := 0, sent := [] }

/-- The number of dirty blocks. -/
def countDirty (dirty : Fin n → Bool) : Nat := (List.ofFn dirty).countP id

/-- The phase after a round that leaves `remaining` dirty blocks (`bifurcation.rs:1574-1596`). -/
def nextPhase (n remaining : Nat) : MigrationPhase → MigrationPhase
  | .bulkSync => if remaining = 0 then .deltaSync else .bulkSync
  | .deltaSync =>
    let dirtyPct := Float.ofNat remaining / Float.ofNat n * 100.0
    if dirtyPct < 1.0 then .microFreeze else .deltaSync
  | .microFreeze => if remaining = 0 then .handoff else .microFreeze
  | .handoff => .complete
  | phase => phase

/-- `LiveMigration::sync_round` (`bifurcation.rs:1536-1607`), and the blocks it handed to the
transport, in order. -/
def syncRound (m : LiveMigration n) (blockData : List (List UInt8)) (blockSize : UInt64) :
    LiveMigration n × SyncRound × List (Fin n × List UInt8) :=
  let s := m.syncBlocks blockData
  let remaining := countDirty s.dirty
  let m' : LiveMigration n :=
    { sourceBlockHashes := s.hashes
      dirtyBitmap := s.dirty
      bytesTransferred := m.bytesTransferred + s.bytes
      bytesSkipped := m.bytesSkipped + s.skipped.toUInt64 * blockSize
      syncRounds := m.syncRounds + 1
      phase := nextPhase n remaining m.phase }
  (m', { phase := m'.phase, round := m'.syncRounds, blocksTransferred := s.transferred,
         blocksSkipped := s.skipped, bytesTransferred := s.bytes, remainingDirty := remaining },
    s.sent)

/-- `LiveMigration::complete_handoff` (`bifurcation.rs:1610-1612`). -/
def completeHandoff (m : LiveMigration n) : LiveMigration n := { m with phase := .complete }

/-! ## What a round does to a block -/

/-- The destination takes a block from the transport. -/
def receive (blocks : Fin n → List UInt8) (arrived : Fin n × List UInt8) : Fin n → List UInt8 :=
  Function.update blocks arrived.1 arrived.2

/-- One block on both sides: its entries in the vectors of the source, and the data at the
destination. -/
structure BlockView where
  hash : Bytes32
  dirty : Bool
  received : List UInt8

/-- The view of block `i` in the loop, for a destination that had `blocks` before the round. -/
def SyncLoop.view (blocks : Fin n → List UInt8) (s : SyncLoop n) (i : Fin n) : BlockView :=
  ⟨s.hashes i, s.dirty i, s.sent.foldl receive blocks i⟩

/-- What its own iteration makes of the view of block `i`. -/
def syncView (blockData : List (List UInt8)) (i : Fin n) (v : BlockView) : BlockView :=
  match blockData[i.val]? with
  | none => v
  | some block =>
    if v.dirty then
      if quickHash block ≠ v.hash then ⟨quickHash block, false, block⟩ else { v with dirty := false }
    else v

theorem syncBlock_pointwise (blockData : List (List UInt8)) (blocks : Fin n → List UInt8) :
    Sweep.Pointwise (syncBlock blockData) (SyncLoop.view blocks) (syncView blockData) := by
  intro s i
  funext j
  unfold syncBlock syncView
  cases blockData[i.val]? with
  | none => rw [Function.update_eq_self]
  | some block =>
    by_cases hdirty : s.dirty i = true
    · by_cases hhash : quickHash block = s.hashes i
      · by_cases hj : j = i
        · subst hj
          simp [SyncLoop.view, hdirty, hhash]
        · simp [SyncLoop.view, hdirty, hhash, hj]
      · by_cases hj : j = i
        · subst hj
          simp [SyncLoop.view, hdirty, hhash, receive]
        · simp [SyncLoop.view, hdirty, hhash, hj, receive]
    · by_cases hj : j = i
      · subst hj
        simp [SyncLoop.view, hdirty]
      · simp [SyncLoop.view, hdirty, hj]

/-- A round treats every block on its own. -/
theorem syncBlocks_view (m : LiveMigration n) (blockData : List (List UInt8))
    (blocks : Fin n → List UInt8) (i : Fin n) :
    (m.syncBlocks blockData).view blocks i =
      syncView blockData i ⟨m.sourceBlockHashes i, m.dirtyBitmap i, blocks i⟩ :=
  Sweep.foldl_finRange (syncBlock_pointwise blockData blocks) _ i

/-- The report counts the blocks that were handed to the transport. -/
theorem syncRound_blocksTransferred (m : LiveMigration n) (blockData : List (List UInt8))
    (blockSize : UInt64) :
    (m.syncRound blockData blockSize).2.1.blocksTransferred =
      (m.syncRound blockData blockSize).2.2.length := by
  have hstep : ∀ (s : SyncLoop n) (i : Fin n), s.transferred = s.sent.length →
      (syncBlock blockData s i).transferred = (syncBlock blockData s i).sent.length := by
    intro s i hs
    unfold syncBlock
    split
    · exact hs
    · split
      · dsimp only
        split
        · simp [hs]
        · exact hs
      · exact hs
  show (m.syncBlocks blockData).transferred = (m.syncBlocks blockData).sent.length
  unfold syncBlocks
  refine List.foldlRecOn (motive := fun s : SyncLoop n => s.transferred = s.sent.length) _ _ rfl ?_
  exact fun s hs i _ => hstep s i hs

/-- A round clears the bits of the blocks it was given data for. -/
theorem syncRound_dirtyBitmap (m : LiveMigration n) (blockData : List (List UInt8))
    (blockSize : UInt64) (i : Fin n) :
    (m.syncRound blockData blockSize).1.dirtyBitmap i = true ↔
      m.dirtyBitmap i = true ∧ blockData.length ≤ i := by
  have hview := syncBlocks_view m blockData (fun _ => []) i
  have hdirty : (m.syncRound blockData blockSize).1.dirtyBitmap i =
      (syncView blockData i ⟨m.sourceBlockHashes i, m.dirtyBitmap i, []⟩).dirty := by
    rw [← hview]
    rfl
  rw [hdirty, syncView]
  by_cases hi : i.val < blockData.length
  · rw [List.getElem?_eq_getElem hi]
    by_cases hd : m.dirtyBitmap i = true
    · by_cases hh : quickHash blockData[i.val] = m.sourceBlockHashes i
      · simp [hd, hh, hi]
      · simp [hd, hh, hi]
    · simp [hd]
  · rw [List.getElem?_eq_none (Nat.le_of_not_lt hi)]
    simp [Nat.le_of_not_lt hi]

/-! ## Phases -/

theorem countDirty_eq_zero (dirty : Fin n → Bool) : countDirty dirty = 0 ↔ ∀ i, dirty i = false := by
  rw [countDirty, List.countP_eq_zero, List.forall_mem_ofFn_iff]
  simp

/-- The report of a round says whether a block is left dirty. -/
theorem syncRound_remainingDirty (m : LiveMigration n) (blockData : List (List UInt8))
    (blockSize : UInt64) :
    (m.syncRound blockData blockSize).2.1.remainingDirty = 0 ↔
      ∀ i, (m.syncRound blockData blockSize).1.dirtyBitmap i = false :=
  countDirty_eq_zero _

theorem nextPhase_eq_complete (remaining : Nat) (phase : MigrationPhase) :
    nextPhase n remaining phase = .complete ↔ phase = .handoff ∨ phase = .complete := by
  cases phase <;> simp only [nextPhase] <;> (try split) <;> simp


end LiveMigration

end Spaceshuttle.Bifurcation
