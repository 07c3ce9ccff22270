import Spaceshuttle.Lib.Machine
import Spaceshuttle.Lib.Threads
import Spaceshuttle.Cluster.Handlers

/-!
# The block store, access by access

`BlockStore::store` and `BlockStore::fetch` (`crates/trust-kernel/src/cluster_transport.rs:127-156`)
reach the map under its lock and count in atomics beside it, `store` after it has given the lock up
and `fetch` before. In every interleaving of these accesses the map is that of a store that gets the
calls one at a time, in the order in which they reach the map, and a call returns what it returns
there. A counter lags behind by what the calls on their way have still to add.
-/

namespace Spaceshuttle.Cluster

open Threads

/-! ## Calls -/

/-- A call of the store. -/
inductive StoreOp where
  | store (call : StoreCall)
  | fetch (blockIndex : Nat)
  deriving DecidableEq, Repr

/-- The counters of the store. -/
inductive StoreCounter where
  | totalBytes
  | blocksServed
  | blocksStored
  deriving DecidableEq, Repr

/-- What a counter stands at. -/
def BlockStore.counter (s : BlockStore) : StoreCounter → UInt64
  | .totalBytes => s.totalBytes
  | .blocksServed => s.blocksServed
  | .blocksStored => s.blocksStored

/-- A call that no other one interrupts. -/
def StoreOp.apply (s : BlockStore) : StoreOp → BlockStore × Option StoredBlock
  | .store call => (s.accept call, none)
  | .fetch i => (s.fetch i).swap

/-- The block that a call brings (`cluster_transport.rs:130-140`). -/
def StoreCall.stored (call : StoreCall) : StoredBlock where
  blockIndex := call.blockIndex
  data := call.data
  contentHash := call.contentHash
  ed25519Seal := call.ed25519Seal
  rawSize := call.rawSize
  storedBy := call.fromAint
  busSeq := call.busSeq
  accessCount := 0

/-- The store with the lock of its map. -/
structure GuardedStore where
  store : BlockStore
  locked : Bool

/-- A call on its way, at the access it is about to make. -/
inductive StoreTask where
  | lock (op : StoreOp)
  | addBytes (call : StoreCall)
  | addStored (call : StoreCall)
  /-- The lock is held. -/
  | addServed (blockIndex : Nat) (block : StoredBlock)
  | ended (op : StoreOp) (result : Option StoredBlock)

namespace StoreTask

/-- The next access of a call. The insertion of `store` and the lookup of `fetch` that misses are
done when the lock is given up again. -/
def step (_ : Unit) (t : StoreTask) (g : GuardedStore) : Option (StoreTask × GuardedStore) :=
  match t with
  | .lock op =>
      if g.locked then none
      else
        match op with
        | .store call =>
            let blocks := g.store.blocks.insert call.blockIndex call.stored
            some (.addBytes call, { g with store := { g.store with blocks } })
        | .fetch i =>
            match g.store.blocks.lookup i with
            | some block =>
                let block := { block with accessCount := block.accessCount + 1 }
                let blocks := g.store.blocks.insert i block
                some (.addServed i block, ⟨{ g.store with blocks }, true⟩)
            | none => some (.ended (.fetch i) none, g)
  | .addBytes call =>
      let totalBytes := g.store.totalBytes + UInt64.ofNat call.data.length
      some (.addStored call, { g with store := { g.store with totalBytes } })
  | .addStored call =>
      let blocksStored := g.store.blocksStored + 1
      some (.ended (.store call) none, { g with store := { g.store with blocksStored } })
  | .addServed i block =>
      let blocksServed := g.store.blocksServed + 1
      some (.ended (.fetch i) (some block), ⟨{ g.store with blocksServed }, false⟩)
  | .ended _ _ => none

/-- The call, if it is about to reach the map. -/
def access : StoreTask → Option StoreOp
  | .lock op => some op
  | _ => none

/-- The call with its result, if it has reached the map. -/
def accessed : StoreTask → Option (StoreOp × Option StoredBlock)
  | .lock _ => none
  | .addBytes call | .addStored call => some (.store call, none)
  | .addServed i block => some (.fetch i, some block)
  | .ended op result => some (op, result)

/-- What the call has still to add to a counter. -/
def owed : StoreTask → StoreCounter → Nat
  | .addBytes call, .totalBytes => call.data.length
  | .addBytes _, .blocksStored | .addStored _, .blocksStored => 1
  | .addServed _ _, .blocksServed => 1
  | _, _ => 0

/-- The call holds the lock of the map: `fetch` counts before it gives it up. -/
def holdsLock : StoreTask → Bool
  | .addServed _ _ => true
  | _ => false

/-- The call has returned. -/
def isEnded : StoreTask → Bool
  | .ended _ _ => true
  | _ => false

/-- The accesses that are left, at most. -/
def togo : StoreTask → Nat
  | .lock _ => 3
  | .addBytes _ => 2
  | .addStored _ | .addServed _ _ => 1
  | .ended _ _ => 0

end StoreTask

/-- What happens next: a call is made, or one that is on its way makes its next access. -/
inductive StoreEvent where
  | call (op : StoreOp)
  | run (i : Nat)
  deriving DecidableEq, Repr

/-- The event of a pool of calls. -/
def StoreEvent.toEvent : StoreEvent → Threads.Event StoreTask Unit
  | .call op => .spawn (.lock op)
  | .run i => .run i ()

/-- The store after a run that starts with the empty one. -/
def storeCalls (events : List StoreEvent) : Pool GuardedStore StoreTask :=
  .after StoreTask.step ⟨⟨.new, false⟩, []⟩ (events.map StoreEvent.toEvent)

/-- The calls in the order in which they reach the map. -/
def mapAccesses (events : List StoreEvent) : List StoreOp :=
  Pool.trace StoreTask.access StoreTask.step ⟨⟨.new, false⟩, []⟩ (events.map StoreEvent.toEvent)

/-! ## What one access does -/

theorem BlockStore.eq_of_counters {s s' : BlockStore} (hblocks : s.blocks = s'.blocks)
    (hcounters : ∀ counter, s.counter counter = s'.counter counter) : s = s' := by
  obtain ⟨blocks, totalBytes, blocksServed, blocksStored⟩ := s
  obtain rfl : blocks = s'.blocks := hblocks
  obtain rfl : totalBytes = s'.totalBytes := hcounters .totalBytes
  obtain rfl : blocksServed = s'.blocksServed := hcounters .blocksServed
  obtain rfl : blocksStored = s'.blocksStored := hcounters .blocksStored
  rfl

/-- An access, by what it does to the map and to the counters. -/
inductive AccessStep (t : StoreTask) (g : GuardedStore) (t' : StoreTask) (g' : GuardedStore) :
    Prop where
  /-- The map is reached, and the counters are still as they were. -/
  | map (op : StoreOp) (ht : t = .lock op)
      (happly : ∀ s : BlockStore, s.blocks = g.store.blocks →
        (op.apply s).1.blocks = g'.store.blocks ∧ t'.accessed = some (op, (op.apply s).2) ∧
          ∀ counter, (op.apply s).1.counter counter = s.counter counter + .ofNat (t'.owed counter))
      (hcounters : ∀ counter, g'.store.counter counter = g.store.counter counter)
  /-- Something is counted. -/
  | count (haccess : t.access = none) (haccessed : t'.accessed = t.accessed)
      (hmap : g'.store.blocks = g.store.blocks)
      (hcounters : ∀ counter, g'.store.counter counter + .ofNat (t'.owed counter) =
        g.store.counter counter + .ofNat (t.owed counter))

namespace StoreTask

variable {x : Unit} {t t' : StoreTask} {g g' : GuardedStore}

theorem step_access (h : step x t g = some (t', g')) : AccessStep t g t' g' := by
  cases t with simp only [step] at h
  | lock op =>
    split at h
    · cases h
    · cases op with
      | store call =>
        cases h
        refine .map (.store call) rfl ?_ fun counter => by cases counter <;> rfl
        intro s hs
        have hinsert : (s.accept call).blocks = g.store.blocks.insert call.blockIndex call.stored := by
          rw [← hs]
          rfl
        refine ⟨hinsert, rfl, fun counter => ?_⟩
        cases counter with
        | totalBytes => rfl
        | blocksServed => exact (UInt64.add_zero _).symm
        | blocksStored => rfl
      | fetch i =>
        cases hfound : g.store.blocks.lookup i with
        | none =>
          simp only [hfound] at h
          cases h
          refine .map (.fetch i) rfl ?_ fun _ => rfl
          intro s hs
          have hmiss : s.fetch i = (none, s) := by rw [BlockStore.fetch, hs, hfound]
          rw [StoreOp.apply, hmiss]
          exact ⟨hs, rfl, fun counter => (UInt64.add_zero _).symm⟩
        | some block =>
          simp only [hfound] at h
          cases h
          refine .map (.fetch i) rfl ?_ fun counter => by cases counter <;> rfl
          intro s hs
          rw [StoreOp.apply, BlockStore.fetch, hs, hfound]
          refine ⟨rfl, rfl, fun counter => ?_⟩
          cases counter with
          | blocksServed => rfl
          | totalBytes => exact (UInt64.add_zero _).symm
          | blocksStored => exact (UInt64.add_zero _).symm
  | addBytes call =>
    cases h
    refine .count rfl rfl rfl fun counter => ?_
    cases counter with
    | totalBytes => exact UInt64.add_zero _
    | blocksServed => rfl
    | blocksStored => rfl
  | addStored call =>
    cases h
    refine .count rfl rfl rfl fun counter => ?_
    cases counter with
    | blocksStored => exact UInt64.add_zero _
    | totalBytes => rfl
    | blocksServed => rfl
  | addServed i block =>
    cases h
    refine .count rfl rfl rfl fun counter => ?_
    cases counter with
    | blocksServed => exact UInt64.add_zero _
    | totalBytes => rfl
    | blocksStored => rfl
  | ended op result => cases h

/-- An access leaves the lock alone, takes it when it is free, or gives it up. -/
theorem step_lock (h : step x t g = some (t', g')) :
    (g'.locked = g.locked ∧ t'.holdsLock = t.holdsLock) ∨
    (g.locked = false ∧ g'.locked = true ∧ t.holdsLock = false ∧ t'.holdsLock = true) ∨
    (g'.locked = false ∧ t.holdsLock = true ∧ t'.holdsLock = false) := by
  cases t with simp only [step] at h
  | lock op =>
    split at h
    · cases h
    · next hfree =>
      cases op with dsimp only at h
      | store call =>
        cases h
        exact .inl ⟨rfl, rfl⟩
      | fetch i =>
        split at h
        · cases h
          exact .inr (.inl ⟨Bool.eq_false_iff.mpr hfree, rfl, rfl, rfl⟩)
        · cases h
          exact .inl ⟨rfl, rfl⟩
  | addServed i block =>
    cases h
    exact .inr (.inr ⟨rfl, rfl, rfl⟩)
  | ended op result => cases h
  | addBytes call | addStored call =>
    cases h
    exact .inl ⟨rfl, rfl⟩

/-- An access brings its call nearer to the end. -/
theorem step_togo (h : step x t g = some (t', g')) : t'.togo < t.togo := by
  cases t with simp only [step] at h
  | lock op =>
    split at h
    · cases h
    · cases op with dsimp only at h
      | store call =>
        cases h
        exact Nat.lt_succ_self 2
      | fetch i => split at h <;> cases h <;> simp [togo]
  | ended op result => cases h
  | addBytes call | addStored call | addServed i block =>
    cases h
    exact Nat.lt_succ_self _

/-- A call that has not ended can go on, unless it waits for the lock. -/
theorem step_isSome (x : Unit) (t : StoreTask) (g : GuardedStore) (ht : ¬ t.isEnded = true)
    (hlock : g.locked = true → t.holdsLock = true) : ∃ t' g', step x t g = some (t', g') := by
  cases t with simp only [step]
  | lock op =>
    rw [if_neg fun hlocked => absurd (hlock hlocked) Bool.false_ne_true]
    cases op with dsimp only
    | store call => exact ⟨_, _, rfl⟩
    | fetch i => split <;> exact ⟨_, _, rfl⟩
  | ended op result => exact absurd rfl ht
  | addBytes call | addStored call | addServed i block => exact ⟨_, _, rfl⟩

/-- A call that was just made. -/
def Starts (t : StoreTask) : Prop := ∃ op, t = .lock op

theorem spawns_calls (events : List StoreEvent) :
    Pool.Spawns Starts (events.map StoreEvent.toEvent) := by
  intro t ht
  obtain ⟨e, -, he⟩ := List.mem_map.mp ht
  cases e with
  | call op =>
    cases he
    exact ⟨op, rfl⟩
  | run i => cases he

end StoreTask

/-! ## Runs -/

/-- The pool is that of the calls made one at a time, save for what is still owed to the counters. -/
structure Refines (p : Pool GuardedStore StoreTask) (ops : List StoreOp) : Prop where
  map : p.shared.store.blocks = (Machine.run StoreOp.apply .new ops).blocks
  results : (p.threads.filterMap StoreTask.accessed).Perm (Machine.history StoreOp.apply .new ops)
  counters : ∀ counter, (Machine.run StoreOp.apply .new ops).counter counter =
    p.shared.store.counter counter + .ofNat (p.threads.map fun t => t.owed counter).sum

namespace Refines

variable {g g' : GuardedStore} {front back : List StoreTask} {t t' : StoreTask} {ops : List StoreOp}

theorem add_owed (total : UInt64) (front back : List StoreTask) (t : StoreTask)
    (counter : StoreCounter) :
    total + .ofNat ((front ++ t :: back).map fun t => t.owed counter).sum =
      total + .ofNat (t.owed counter) +
        .ofNat ((front ++ back).map fun t => t.owed counter).sum := by
  rw [UInt64.add_assoc, ← UInt64.ofNat_add]
  simp only [List.map_append, List.map_cons, List.sum_append, List.sum_cons]
  congr 2
  omega

theorem step (h : Refines ⟨g, front ++ t :: back⟩ ops) (hstep : AccessStep t g t' g') :
    Refines ⟨g', front ++ t' :: back⟩ (ops ++ t.access.toList) := by
  obtain ⟨hmap, hresults, hcounters⟩ := h
  cases hstep with
  | map op ht happly hsame =>
    subst ht
    obtain ⟨hblocks, haccessed, hadds⟩ := happly _ hmap.symm
    have haccess : (StoreTask.lock op).access.toList = [op] := rfl
    rw [haccess]
    refine ⟨?_, ?_, fun counter => ?_⟩
    · exact hblocks.symm.trans (congrArg BlockStore.blocks (Machine.run_concat _ _ _).symm)
    · rw [Machine.history_concat]
      simp only [List.filterMap_append, List.filterMap_cons, haccessed] at hresults ⊢
      exact List.perm_middle.trans ((hresults.cons _).trans (List.perm_append_singleton _ _).symm)
    · have hbefore := hcounters counter
      have hnone : UInt64.ofNat ((StoreTask.lock op).owed counter) = 0 := rfl
      rw [add_owed, hnone, UInt64.add_zero] at hbefore
      rw [Machine.run_concat, hadds, hbefore, add_owed, hsame, UInt64.add_assoc,
        UInt64.add_comm (.ofNat _), ← UInt64.add_assoc]
  | count haccess haccessed hmap' hadds =>
    rw [haccess, Option.toList_none, List.append_nil]
    refine ⟨hmap'.trans hmap, ?_, fun counter => ?_⟩
    · simpa only [List.filterMap_append, List.filterMap_cons, haccessed] using hresults
    · rw [hcounters, add_owed, add_owed, ← hadds]

theorem spawn {threads : List StoreTask} (h : Refines ⟨g, threads⟩ ops) (ht : t.Starts) :
    Refines ⟨g, threads ++ [t]⟩ ops := by
  obtain ⟨op, rfl⟩ := ht
  obtain ⟨hmap, hresults, hcounters⟩ := h
  refine ⟨hmap, ?_, fun counter => ?_⟩
  · simpa only [List.filterMap_append, List.filterMap_cons, StoreTask.accessed, List.filterMap_nil,
      List.append_nil] using hresults
  · rw [hcounters counter, List.map_append, List.sum_append]
    rfl

end Refines

theorem storeCalls_refines (events : List StoreEvent) :
    Refines (storeCalls events) (mapAccesses events) := by
  have hlocal : Local StoreTask.step StoreTask.Starts fun _ => True :=
    ⟨fun _ _ => trivial, fun _ _ _ _ _ _ _ => trivial⟩
  refine @Pool.trace_keeps _ _ _ StoreTask.step StoreTask.Starts _ _ _ _ StoreTask.access Refines
    (fun _ => True) hlocal (fun _ _ => trivial) ?_ ?_ ?_ (StoreTask.spawns_calls events)
  · intro g threads t ops ht h
    exact h.spawn ht
  · intro g front t back x t' g' ops _ _ hstep h
    exact h.step (StoreTask.step_access hstep)
  · exact ⟨rfl, .nil, fun counter => by cases counter <;> rfl⟩

/-- The lock is held by one call while it is taken, and by none while it is free. -/
theorem storeCalls_lock (events : List StoreEvent) :
    (storeCalls events).threads.countP StoreTask.holdsLock =
      (storeCalls events).shared.locked.toNat := by
  refine Pool.after_lock ?_ (fun _ _ _ _ _ h => StoreTask.step_lock h) rfl
    (StoreTask.spawns_calls events)
  rintro t ⟨op, rfl⟩
  rfl

/-- All calls that have been made can end. -/
theorem storeCalls_end (events : List StoreEvent) :
    ∃ moves : List Nat,
      ∀ t ∈ (storeCalls (events ++ moves.map .run)).threads, t.isEnded = true := by
  have hend := @Pool.can_end _ _ _ StoreTask.step (fun p => ∃ events, p = storeCalls events)
    (fun t => t.isEnded = true) StoreTask.togo ?_ ?_ ?_ _ ⟨events, rfl⟩
  · obtain ⟨moves, hmoves⟩ := hend
    refine ⟨moves.map Prod.fst, ?_⟩
    have hrun : storeCalls (events ++ (moves.map Prod.fst).map .run) =
        (storeCalls events).after StoreTask.step (moves.map fun m => .run m.1 m.2) := by
      rw [storeCalls, List.map_append, Pool.after_append, List.map_map, List.map_map]
      rfl
    rwa [hrun]
  · rintro p i x ⟨before, rfl⟩
    refine ⟨before ++ [.run i], ?_⟩
    rw [storeCalls, storeCalls, List.map_append]
    exact (Pool.after_concat _ _ _).symm
  · rintro p ⟨before, rfl⟩ hnot
    refine Pool.exists_move (storeCalls_lock before) ?_ ?_ hnot
    · intro t hholds hended
      cases t with
      | addServed i block => cases hended
      | _ => cases hholds
    · intro t ht hlock
      exact ⟨(), StoreTask.step_isSome () t _ ht hlock⟩
  · exact fun _ _ _ _ _ h => StoreTask.step_togo h

theorem owed_eq_zero {threads : List StoreTask} {counter : StoreCounter}
    (h : ∀ t ∈ threads, t.owed counter = 0) : (threads.map fun t => t.owed counter).sum = 0 := by
  refine List.sum_eq_zero fun n hn => ?_
  obtain ⟨t, ht, rfl⟩ := List.mem_map.mp hn
  exact h t ht

/-- In every interleaving the map is that of the calls made one at a time, in the order in which they
reach it, and the calls that have reached it have the results they get there. A counter lags behind
by what is still owed to it, the served blocks only while the lock is held. When all calls have ended,
as they always can, the store is the same altogether. -/
theorem store_accesses_atomic (events : List StoreEvent) :
    let p := storeCalls events
    let sequential := Machine.run StoreOp.apply .new (mapAccesses events)
    p.shared.store.blocks = sequential.blocks ∧
    (p.threads.filterMap StoreTask.accessed).Perm
      (Machine.history StoreOp.apply .new (mapAccesses events)) ∧
    (∀ counter, sequential.counter counter =
      p.shared.store.counter counter + .ofNat (p.threads.map fun t => t.owed counter).sum) ∧
    (p.shared.locked = false → p.shared.store.blocksServed = sequential.blocksServed) ∧
    ((∀ t ∈ p.threads, t.isEnded = true) → p.shared.store = sequential) ∧
    ∃ moves : List Nat,
      ∀ t ∈ (storeCalls (events ++ moves.map .run)).threads, t.isEnded = true := by
  intro p sequential
  obtain ⟨hmap, hresults, hcounters⟩ := storeCalls_refines events
  have hpaid : ∀ counter, (∀ t ∈ p.threads, t.owed counter = 0) →
      p.shared.store.counter counter = sequential.counter counter := by
    intro counter hzero
    rw [show sequential.counter counter = _ from hcounters counter, owed_eq_zero hzero]
    exact (UInt64.add_zero _).symm
  refine ⟨hmap, hresults, hcounters, fun hfree => ?_, fun hended => ?_, storeCalls_end events⟩
  · have hcount := storeCalls_lock events
    rw [show (storeCalls events).shared.locked = false from hfree, Bool.toNat_false,
      List.countP_eq_zero] at hcount
    refine hpaid .blocksServed fun t ht => ?_
    cases t with
    | addServed i block => exact absurd rfl (hcount _ ht)
    | _ => rfl
  · refine BlockStore.eq_of_counters hmap fun counter => hpaid counter fun t ht => ?_
    cases t with
    | ended op result => rfl
    | _ => cases hended _ ht

end Spaceshuttle.Cluster
