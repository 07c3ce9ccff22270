import Mathlib.Data.List.AList

/-!
# The block store of the remote kernel

`BlockStore` of `crates/trust-kernel/src/cluster_transport.rs:84-166`: the map from block index
to stored block that backs RAM B. The map sits behind one lock, so `store` and `fetch` are
atomic. The store time of a block (`stored_at`) is written and never read; it is left out.
-/

namespace Spaceshuttle.Cluster

/-- `StoredBlock` (`cluster_transport.rs:84-103`). -/
structure StoredBlock where
  blockIndex : Nat
  data : List UInt8
  contentHash : String
  ed25519Seal : String
  rawSize : Nat
  storedBy : String
  busSeq : UInt64
  accessCount : UInt64
  deriving DecidableEq, Repr

/-- `BlockStore` (`cluster_transport.rs:106-114`). -/
structure BlockStore where
  blocks : AList (fun _ : Nat => StoredBlock)
  totalBytes : UInt64
  blocksServed : UInt64
  blocksStored : UInt64

namespace BlockStore

/-- `BlockStore::new` (`cluster_transport.rs:117-124`). -/
def new : BlockStore where
  blocks := ∅
  totalBytes := 0
  blocksServed := 0
  blocksStored := 0

/-- `BlockStore::store` (`cluster_transport.rs:127-144`). -/
def store (s : BlockStore) (blockIndex : Nat) (data : List UInt8)
    (contentHash ed25519Seal : String) (rawSize : Nat) (fromAint : String) (busSeq : UInt64) :
    BlockStore :=
  let stored : StoredBlock :=
    { blockIndex, data, contentHash, ed25519Seal, rawSize, storedBy := fromAint, busSeq,
      accessCount := 0 }
  { s with
    blocks := s.blocks.insert blockIndex stored
    totalBytes := s.totalBytes + UInt64.ofNat data.length
    blocksStored := s.blocksStored + 1 }

/-- `BlockStore::fetch` (`cluster_transport.rs:147-156`): a hit counts the access and returns
the block with the new count. -/
def fetch (s : BlockStore) (blockIndex : Nat) : Option StoredBlock × BlockStore :=
  match s.blocks.lookup blockIndex with
  | some block =>
      let block := { block with accessCount := block.accessCount + 1 }
      (some block,
        { s with
          blocks := s.blocks.insert blockIndex block
          blocksServed := s.blocksServed + 1 })
  | none => (none, s)

/-- What a reader of the store can observe of a block: its bytes, the hash recorded for them
and the recorded size. -/
def content (s : BlockStore) (i : Nat) : Option (List UInt8 × String × Nat) :=
  (s.blocks.lookup i).map (fun b => (b.data, b.contentHash, b.rawSize))

@[simp] theorem content_new (i : Nat) : new.content i = none := by
  simp [content, new]

theorem content_store (s : BlockStore) (i : Nat) (data : List UInt8) (hash edSeal : String)
    (rawSize : Nat) (aint : String) (seq : UInt64) (j : Nat) :
    (s.store i data hash edSeal rawSize aint seq).content j =
      if j = i then some (data, hash, rawSize) else s.content j := by
  by_cases h : j = i
  · subst h
    simp [content, store]
  · simp [content, store, h, AList.lookup_insert_ne h]

/-- Fetching does not change what can be observed of any block. -/
@[simp] theorem content_fetch (s : BlockStore) (i j : Nat) :
    (s.fetch i).2.content j = s.content j := by
  unfold fetch
  cases h : s.blocks.lookup i with
  | none => rfl
  | some b =>
    by_cases hj : j = i
    · subst hj
      simp [content, h]
    · simp [content, AList.lookup_insert_ne hj]

theorem fetch_none {s : BlockStore} {i : Nat} (h : s.content i = none) : s.fetch i = (none, s) := by
  have hl : s.blocks.lookup i = none := by simpa [content] using h
  simp [fetch, hl]

theorem fetch_some {s : BlockStore} {i : Nat} {c : List UInt8 × String × Nat}
    (h : s.content i = some c) :
    ∃ b : StoredBlock, (s.fetch i).1 = some b ∧ b.data = c.1 ∧ b.contentHash = c.2.1 ∧
      b.rawSize = c.2.2 := by
  obtain ⟨b, hl, rfl⟩ : ∃ b, s.blocks.lookup i = some b ∧ (b.data, b.contentHash, b.rawSize) = c := by
    simpa [content] using h
  exact ⟨{ b with accessCount := b.accessCount + 1 }, by simp [fetch, hl], rfl, rfl, rfl⟩

end BlockStore

end Spaceshuttle.Cluster
