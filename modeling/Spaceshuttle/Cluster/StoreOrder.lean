import Mathlib.Data.Finset.Max
import Spaceshuttle.Cluster.MuxRefinement
import Spaceshuttle.Cluster.SharedStore

/-!
# Which store of a block is kept

A request carries a bus sequence number for ordering (`cluster_transport.rs:46-47`), and a stored
block records the one it came with. `BlockStore::store` does not look at it: what is stored for a
block is what the last call for that block brought (`cluster_transport.rs:127-144`), in the order in
which the handlers reach the store.
-/

namespace Spaceshuttle.Cluster

/-- The call of `BlockStore::store` that a stored block came with. -/
def StoredBlock.call (b : StoredBlock) : StoreCall where
  blockIndex := b.blockIndex
  data := b.data
  contentHash := b.contentHash
  ed25519Seal := b.ed25519Seal
  rawSize := b.rawSize
  fromAint := b.storedBy
  busSeq := b.busSeq

/-- The call that the block stored under `i` came with. -/
def BlockStore.held (s : BlockStore) (i : Nat) : Option StoreCall :=
  (s.blocks.lookup i).map StoredBlock.call

@[simp] theorem BlockStore.held_new (i : Nat) : BlockStore.new.held i = none := by
  simp [held, new]

theorem BlockStore.held_accept (s : BlockStore) (c : StoreCall) (i : Nat) :
    (s.accept c).held i = if i = c.blockIndex then some c else s.held i := by
  by_cases hi : i = c.blockIndex
  · subst hi
    simp [held, accept, store, StoredBlock.call]
  · simp [held, accept, store, hi, AList.lookup_insert_ne hi]

/-- A fetch counts the access and leaves the block what it was. -/
@[simp] theorem BlockStore.held_fetch (s : BlockStore) (j i : Nat) :
    (s.fetch j).2.held i = s.held i := by
  unfold fetch
  cases hj : s.blocks.lookup j with
  | none => rfl
  | some b =>
    by_cases hi : i = j
    · subst hi
      simp [held, hj, StoredBlock.call]
    · simp [held, AList.lookup_insert_ne hi]

/-- The calls among `calls` that are for block `i`. -/
def callsFor (i : Nat) (calls : List StoreCall) : List StoreCall :=
  calls.filter (fun c => c.blockIndex = i)

theorem Task.perform_held (task : Task) (elapsedUs : UInt64) (store : BlockStore) (i : Nat) :
    (task.perform elapsedUs store).1.held i =
      ((callsFor i (task.perform elapsedUs store).2.1.toList).getLast?).or (store.held i) := by
  cases task with
  | fetch j reply => exact store.held_fetch j i
  | store call reply =>
    show (store.accept call).held i = ((callsFor i [call]).getLast?).or (store.held i)
    rw [store.held_accept]
    by_cases hi : call.blockIndex = i
    · simp [callsFor, hi]
    · simp [callsFor, hi, Ne.symm hi]
  | answer reply => rfl
  | ignore => rfl

namespace Servers

variable (libs : ServerLibs) (kernelAint : String)

theorem step_held (s : Servers) (e : Event) (i : Nat) :
    (step libs kernelAint s e).1.store.held i =
      ((callsFor i (step libs kernelAint s e).2.toList).getLast?).or (s.store.held i) := by
  cases e with
  | accept protocol => rfl
  | move j m =>
    cases hc : s.conns[j]? with
    | none =>
      simp only [step, hc]
      rfl
    | some c =>
      rw [step_move hc]
      rcases c.step_store s.store m with h | ⟨request, task, store', call, answer, us, -, hperform, h⟩
      · rw [h]
        rfl
      · rw [h]
        have hheld := task.perform_held us s.store i
        rw [hperform] at hheld
        exact hheld

/-- The calls of `BlockStore::store` for block `i` in a run, in the order in which they reached the
store. -/
def storesTo (events : List Event) (i : Nat) : List StoreCall :=
  callsFor i ((Machine.history (step libs kernelAint) new events).filterMap Prod.snd)

/-- What is stored for a block is what the last call for it brought. -/
theorem held_after (events : List Event) (i : Nat) :
    (after libs kernelAint events).store.held i = (storesTo libs kernelAint events i).getLast? := by
  induction events using List.reverseRecOn with
  | nil => exact BlockStore.held_new i
  | append_singleton events e ih =>
    unfold after storesTo callsFor at *
    rw [Machine.run_concat, step_held, ih, Machine.history_concat, List.filterMap_append,
      List.filter_append, List.getLast?_append]
    cases (step libs kernelAint (Machine.run (step libs kernelAint) new events) e).2 <;> rfl

/-- Among the stores of a block the one with the highest sequence number is the one that is kept. -/
def NewestKept (events : List Event) (i : Nat) : Prop :=
  ∀ newest ∈ storesTo libs kernelAint events i,
    (∀ c ∈ storesTo libs kernelAint events i, c.busSeq ≤ newest.busSeq) →
      (after libs kernelAint events).store.held i = some newest

/-- The last store of a block to reach the store has the highest sequence number of them. -/
def NewestLast (events : List Event) (i : Nat) : Prop :=
  ∀ last ∈ (storesTo libs kernelAint events i).getLast?,
    ∀ c ∈ storesTo libs kernelAint events i, c.busSeq ≤ last.busSeq

end Servers

theorem exists_newest {calls : List StoreCall} (h : calls ≠ []) :
    ∃ newest ∈ calls, ∀ c ∈ calls, c.busSeq ≤ newest.busSeq := by
  obtain ⟨newest, hmem, hmax⟩ := Finset.exists_max_image calls.toFinset (fun c => c.busSeq.toNat)
    (List.toFinset_nonempty_iff calls |>.mpr h)
  refine ⟨newest, List.mem_toFinset.mp hmem, fun c hc => ?_⟩
  exact UInt64.le_iff_toNat_le.mpr (hmax c (List.mem_toFinset.mpr hc))

open Servers in
/-- For stores with distinct sequence numbers, the newest is kept exactly when it is the last to
reach the store. -/
theorem newest_kept_iff (libs : ServerLibs) (kernelAint : String) (events : List Event) (i : Nat)
    (hdistinct : ((storesTo libs kernelAint events i).map StoreCall.busSeq).Nodup) :
    NewestKept libs kernelAint events i ↔ NewestLast libs kernelAint events i := by
  unfold NewestKept NewestLast
  rw [held_after]
  generalize storesTo libs kernelAint events i = calls at hdistinct ⊢
  constructor
  · intro h last hlast c hc
    obtain ⟨newest, hmem, hmax⟩ := exists_newest (List.ne_nil_of_mem hc)
    obtain rfl := Option.some.inj (hlast.symm.trans (h newest hmem hmax))
    exact hmax c hc
  · intro h newest hmem hmax
    cases hlast : calls.getLast? with
    | none => exact absurd (List.getLast?_eq_none_iff.mp hlast) (List.ne_nil_of_mem hmem)
    | some last =>
      have hle : newest.busSeq ≤ last.busSeq := h last hlast newest hmem
      have hge : last.busSeq ≤ newest.busSeq := hmax last (List.mem_of_getLast? hlast)
      have heq : last.busSeq = newest.busSeq := UInt64.le_antisymm hge hle
      rw [List.inj_on_of_nodup_map hdistinct (List.mem_of_getLast? hlast) hmem heq]

/-! ## Two streams of one connection -/

namespace Demo

/-- Two stores of block 3 and their JSON. -/
def olderFrame : MuxFrame × List UInt8 :=
  (.store 1 3 "root_idd.aint" 5 5 helloHash "seal" 1,
    dump 221
      [0x7b2274797065223a2253746f7265222c226368616e6e656c5f6964223a312c22,
       0x626c6f636b5f696e646578223a332c2266726f6d5f61696e74223a22726f6f74,
       0x5f6964642e61696e74222c227061796c6f61645f73697a65223a352c22726177,
       0x5f73697a65223a352c22636f6e74656e745f68617368223a2232636632346462,
       0x6135666230613330653236653833623261633562396532396531623136316535,
       0x63316661373432356537333034333336323933386239383234222c2265643235,
       0x3531395f7365616c223a227365616c222c226275735f736571223a317d])

def newerFrame : MuxFrame × List UInt8 :=
  (.store 2 3 "root_idd.aint" 5 5 worldHash "seal" 2,
    dump 221
      [0x7b2274797065223a2253746f7265222c226368616e6e656c5f6964223a322c22,
       0x626c6f636b5f696e646578223a332c2266726f6d5f61696e74223a22726f6f74,
       0x5f6964642e61696e74222c227061796c6f61645f73697a65223a352c22726177,
       0x5f73697a65223a352c22636f6e74656e745f68617368223a2234383665613436,
       0x3232346431626234666236383066333466376339616439366138663234656338,
       0x38626537336561386535613663363532363065396362386137222c2265643235,
       0x3531395f7365616c223a227365616c222c226275735f736571223a327d])

def storeFrames : List (MuxFrame × List UInt8) := [olderFrame, newerFrame]

/-- The libraries of the servers, with `serde_json` on the frames of `table`. -/
def serverLibs (table : List (MuxFrame × List UInt8)) : ServerLibs where
  json := json table
  sha256 := sha256
  requestFromSlice := fun _ => .error "expected value at line 1 column 1"
  responseToVec := fun _ => []

def newer : StoreCall := ⟨3, world, worldHash, "seal", 5, "root_idd.aint", 2⟩
def older : StoreCall := ⟨3, hello, helloHash, "seal", 5, "root_idd.aint", 1⟩

/-- Two evictions of block 3 on two streams of a QUIC connection. Both handlers have read their
request when that of stream `first` reaches the store, and that of stream `second` after it. -/
def evictions (first second : Nat) : List Event :=
  [.accept .quic, .accept .quic,
   .move 0 (.arrive (ByteStream.prefixed olderFrame.2 ++ hello)),
   .move 1 (.arrive (ByteStream.prefixed newerFrame.2 ++ world)),
   .move 0 .read, .move 1 .read,
   .move first (.access 40), .move first (.reply true),
   .move second (.access 60), .move second (.reply true)]

end Demo

section

open Demo Servers

theorem storesTo_inOrder :
    storesTo (serverLibs storeFrames) "kernel_b.aint" (evictions 0 1) 3 = [older, newer] := by
  decide +kernel

theorem storesTo_overtaken :
    storesTo (serverLibs storeFrames) "kernel_b.aint" (evictions 1 0) 3 = [newer, older] := by
  decide +kernel

theorem newest_kept_in_order :
    NewestKept (serverLibs storeFrames) "kernel_b.aint" (evictions 0 1) 3 := by
  refine (newest_kept_iff _ _ _ _ ?_).mpr ?_
  · rw [storesTo_inOrder]
    decide
  · unfold NewestLast
    rw [storesTo_inOrder]
    decide

/-- The newer eviction is answered, and the older one then replaces it. -/
theorem newest_not_kept :
    ¬ NewestKept (serverLibs storeFrames) "kernel_b.aint" (evictions 1 0) 3 := by
  intro h
  have hheld := h newer
  rw [held_after, storesTo_overtaken] at hheld
  exact absurd (hheld (by decide) (by decide)) (by decide)

end

end Spaceshuttle.Cluster
