import Spaceshuttle.Lib.Machine
import Spaceshuttle.Lib.Table
import Spaceshuttle.Raid.Transitions

/-!
# Accounting

The resident count is kept beside the block table and adjusted by every operation on its own.
Over runs of the operations that restore one block at a time it agrees with the table, no block is
left in the middle of a fetch, the identity of a block never changes, and the eviction counter
counts the evictions.
-/

namespace Spaceshuttle.Raid

open RamRaidController

/-! ## Runs -/

/-- The operations of the controller. -/
inductive Op where
  | handleFault (faultAddr : Nat)
  | handleFaultProduction (faultAddr : Nat)
  | evictColdest
  | proactiveEvict
  | simulateWrite (blockIdx : Nat)
  | simulateRead (blockIdx : Nat)
  | simulateReadBatch (blockIndices : List Nat)
  | prefetch (blockIndices : List Nat)
  deriving DecidableEq, Repr

/-- The operation reads a list of blocks at once. -/
def Op.isBatch : Op → Bool
  | .simulateReadBatch _ => true
  | .prefetch _ => true
  | _ => false

/-- An operation with the time at which it runs and what the remote kernel answers meanwhile. -/
structure Request where
  op : Op
  nowNs : UInt64
  remote : Remote

/-- What an operation returns. -/
inductive Outcome where
  | fault (result : FaultResult)
  | production (result : FaultResult) (data : List UInt8)
  | eviction (result : EvictionResult)
  | evictions (results : List EvictionResult)
  | written
  | faults (results : List FaultResult)
  | prefetched (count : Nat)
  deriving DecidableEq, Repr

variable {cfg : RaidConfig} (sha256Hex : List UInt8 → String)

/-- Run an operation. -/
def exec (c : RamRaidController cfg) (r : Request) : RamRaidController cfg × Outcome :=
  match r.op with
  | .handleFault faultAddr =>
      let (c, result) := handleFault sha256Hex r.remote c r.nowNs faultAddr
      (c, .fault result)
  | .handleFaultProduction faultAddr =>
      let (c, result, data) := handleFaultProduction sha256Hex r.remote c r.nowNs faultAddr
      (c, .production result data)
  | .evictColdest =>
      let (c, result) := evictColdest sha256Hex r.remote c
      (c, .eviction result)
  | .proactiveEvict =>
      let (c, results) := proactiveEvict sha256Hex r.remote c
      (c, .evictions results)
  | .simulateWrite blockIdx => (simulateWrite c r.nowNs blockIdx, .written)
  | .simulateRead blockIdx =>
      let (c, result) := simulateRead sha256Hex r.remote c r.nowNs blockIdx
      (c, .fault result)
  | .simulateReadBatch blockIndices =>
      let (c, results) := simulateReadBatch sha256Hex r.remote c r.nowNs blockIndices
      (c, .faults results)
  | .prefetch blockIndices =>
      let (c, count) := prefetch sha256Hex r.remote c r.nowNs blockIndices
      (c, .prefetched count)

/-- A new controller with any transport attached. -/
def start (cfg : RaidConfig) (muxClient : Bool) (localBlockStore : Option Cluster.BlockStore) :
    RamRaidController cfg :=
  let c := if muxClient then (new cfg).withMuxTransport else new cfg
  match localBlockStore with
  | some store => c.withLocalBlockStore store
  | none => c

theorem start_eq (muxClient : Bool) (localBlockStore : Option Cluster.BlockStore) :
    start cfg muxClient localBlockStore =
      { new cfg with muxClient := muxClient, localBlockStore := localBlockStore } := by
  cases muxClient <;> cases localBlockStore <;> rfl

theorem exec_trace_single (c : RamRaidController cfg) {r : Request} (hr : r.op.isBatch = false) :
    Trace false c (exec sha256Hex c r).1 := by
  obtain ⟨op, nowNs, remote⟩ := r
  cases op with
  | handleFault faultAddr => exact handleFault_trace sha256Hex remote c nowNs faultAddr
  | handleFaultProduction faultAddr =>
    exact handleFaultProduction_trace sha256Hex remote c nowNs faultAddr
  | evictColdest => exact evictColdest_trace sha256Hex remote c
  | proactiveEvict => exact proactiveEvict_trace sha256Hex remote c
  | simulateWrite blockIdx => exact simulateWrite_trace c nowNs blockIdx
  | simulateRead blockIdx => exact simulateRead_trace sha256Hex remote c nowNs blockIdx
  | simulateReadBatch _ => cases hr
  | prefetch _ => cases hr

/-! ## The invariant -/

/-- The fields of a block that are never written. -/
def RaidBlock.identity (b : RaidBlock) : Nat × RaidStripe × Nat × Nat :=
  (b.index, b.stripe, b.vaOffset, b.size)

namespace RamRaidController

/-- The number of blocks at a location of the given kind. -/
def located (c : RamRaidController cfg) (kind : BlockLocation → Bool) : Nat :=
  Table.count (fun b : RaidBlock => kind b.location) c.blocks

/-- The number of evictions so far that moved a block out of the arena. -/
def evicted (c : RamRaidController cfg) : Nat :=
  c.evictions.countP (fun e => (freed e.result).isSome)

/-- What holds after every call: the count of resident blocks, no block left in `Fetching`, blocks that keep
their identity, and the count of evictions. -/
structure Accounting (c : RamRaidController cfg) : Prop where
  count : c.residentCount.toNat = c.located isResident
  settled : ∀ i, (c.blocks i).location ≠ .fetching
  identity : ∀ i : Fin cfg.blockCount, (c.blocks i).identity = (freshBlock cfg i).identity
  performed : c.evictionsPerformed = UInt64.ofNat c.evicted

end RamRaidController

theorem located_le (c : RamRaidController cfg) (kind : BlockLocation → Bool) :
    c.located kind ≤ cfg.blockCount := by
  have h := Table.count_le (fun b : RaidBlock => kind b.location) c.blocks
  rwa [Fintype.card_fin] at h

theorem isResident_iff (l : BlockLocation) : isResident l = true ↔ l = .resident := by
  cases l <;> simp [isResident]

/-- The resident count when one block is replaced by `b`. -/
theorem located_update {c c' : RamRaidController cfg} {i : Fin cfg.blockCount} {b : RaidBlock}
    (hblocks : c'.blocks = Function.update c.blocks i b) (kind : BlockLocation → Bool) :
    c'.located kind + (if kind (c.blocks i).location then 1 else 0) =
      c.located kind + (if kind b.location then 1 else 0) := by
  unfold located
  rw [hblocks]
  exact Table.count_update _ c.blocks i b

section Counting

variable {c c' : RamRaidController cfg} {i : Fin cfg.blockCount} {b : RaidBlock}

/-- One block is replaced and the count follows. -/
theorem accounting_replace (hc : Accounting c) (hblocks : c'.blocks = Function.update c.blocks i b)
    (hsettled : b.location ≠ .fetching) (hid : b.identity = (c.blocks i).identity)
    (hcount : c'.residentCount.toNat + (if isResident (c.blocks i).location then 1 else 0) =
      c.residentCount.toNat + (if isResident b.location then 1 else 0))
    (hperformed : c'.evictionsPerformed = UInt64.ofNat c'.evicted) : Accounting c' where
  count := by
    have hupd := located_update hblocks isResident
    have hc := hc.count
    omega
  settled := by
    rw [hblocks]
    refine (Function.forall_update_iff c.blocks (fun _ b => b.location ≠ .fetching)).mpr ⟨hsettled, ?_⟩
    exact fun j _ => hc.settled j
  identity := by
    rw [hblocks]
    refine (Function.forall_update_iff c.blocks
      (fun j b => b.identity = (freshBlock cfg j).identity)).mpr ⟨hid.trans (hc.identity i), ?_⟩
    exact fun j _ => hc.identity j
  performed := hperformed

theorem evicted_of_puts {count : UInt64} (hc : Accounting c) (h : Puts c i b count c') :
    c'.evictionsPerformed = UInt64.ofNat c'.evicted := by
  unfold evicted
  rw [h.evictionsPerformed, h.evictions]
  exact hc.performed

/-- A block that was away becomes resident: the counter has room for it. -/
theorem accounting_arrive (hc : Accounting c) (h : Puts c i b (c.residentCount + 1) c')
    (haway : (c.blocks i).location ≠ .resident) (hb : b.location = .resident)
    (hid : b.identity = (c.blocks i).identity) : Accounting c' := by
  have hold : isResident (c.blocks i).location = false := by
    simpa using mt (isResident_iff _).mp haway
  have hnew : isResident b.location = true := (isResident_iff _).mpr hb
  refine accounting_replace hc h.blocks (by rw [hb]; simp) hid ?_ (evicted_of_puts hc h)
  have hupd := located_update h.blocks isResident
  have hle := located_le c' isResident
  have hlt := cfg.blockCount_lt
  have hcount := hc.count
  rw [hold, hnew] at hupd ⊢
  rw [h.residentCount, UInt64.toNat_add]
  simp only [Bool.false_eq_true, if_false, if_true, UInt64.reduceToNat] at hupd ⊢
  omega

/-- A block keeps its residence. -/
theorem accounting_same (hc : Accounting c) (h : Puts c i b c.residentCount c')
    (hb : b.location = (c.blocks i).location) (hid : b.identity = (c.blocks i).identity) :
    Accounting c' := by
  refine accounting_replace hc h.blocks ?_ hid ?_ (evicted_of_puts hc h)
  · rw [hb]
    exact hc.settled i
  · rw [hb, h.residentCount]

/-- A resident block leaves the arena; the counter is at least one. -/
theorem accounting_evict {result : EvictionResult} (hc : Accounting c)
    (h : Evicts c i b result c') (hres : (c.blocks i).location = .resident)
    (hb : b.location ≠ .resident) (hsettled : b.location ≠ .fetching)
    (hid : b.identity = (c.blocks i).identity) (hresult : (freed result).isSome) :
    Accounting c' := by
  have hold : isResident (c.blocks i).location = true := (isResident_iff _).mpr hres
  have hnew : isResident b.location = false := by
    simpa using mt (isResident_iff _).mp hb
  have hpos : 0 < c.residentCount.toNat := by
    rw [hc.count]
    exact Table.count_pos hold
  have hone : (1 : UInt64) ≤ c.residentCount := by
    rw [UInt64.le_iff_toNat_le]
    exact hpos
  refine accounting_replace hc h.blocks hsettled hid ?_ ?_
  · rw [hold, hnew, h.residentCount, UInt64.toNat_sub_of_le _ _ hone]
    simp only [Bool.false_eq_true, if_false, if_true, UInt64.reduceToNat]
    omega
  · unfold evicted
    rw [h.evictionsPerformed, hc.performed, h.evictions, List.countP_append, UInt64.ofNat_add]
    simp [hresult, evicted]

/-- A change that leaves the table alone. -/
theorem accounting_keep (hc : Accounting c) (hblocks : c'.blocks = c.blocks)
    (hcount : c'.residentCount = c.residentCount)
    (hperformed : c'.evictionsPerformed = c.evictionsPerformed)
    (hevicted : c'.evicted = c.evicted) : Accounting c' where
  count := by
    unfold located
    rw [hcount, hblocks]
    exact hc.count
  settled := by
    rw [hblocks]
    exact hc.settled
  identity := by
    rw [hblocks]
    exact hc.identity
  performed := by rw [hperformed, hevicted, hc.performed]

theorem placedBy_away {k : Nat} {result : EvictionResult} {location : BlockLocation}
    (h : PlacedBy cfg k result location) :
    location ≠ .resident ∧ location ≠ .fetching ∧ (freed result).isSome := by
  cases h <;> simp [localLocation, remoteLocation, freed]

theorem dropTarget_away (b : RaidBlock) (k : Nat) :
    b.dropTarget k ≠ .resident ∧ b.dropTarget k ≠ .fetching := by
  unfold RaidBlock.dropTarget
  split <;> simp

theorem step_accounting (h : Step false c c') (hc : Accounting c) : Accounting c' := by
  cases h with
  | quiet h =>
    apply accounting_keep hc h.blocks h.residentCount h.evictionsPerformed
    unfold evicted
    rw [h.evictions]
  | touch i nowNs h => exact accounting_same hc h rfl rfl
  | fill i nowNs hvirgin h =>
    have haway : (c.blocks i).location ≠ .resident := by
      rw [hvirgin]
      simp
    exact accounting_arrive hc h haway rfl rfl
  | restore i nowNs haway h => exact accounting_arrive hc h haway rfl rfl
  | write i nowNs h =>
    by_cases hres : (c.blocks i).location = .resident
    · rw [if_pos hres] at h
      exact accounting_same hc h hres.symm rfl
    · rw [if_neg hres] at h
      exact accounting_arrive hc h hres rfl rfl
  | drop i hresident hclean h =>
    obtain ⟨hb, hsettled⟩ := dropTarget_away (c.blocks i) i
    exact accounting_evict hc h hresident hb hsettled rfl rfl
  | store i location hash edSeal result hresident hdirty hplaced h =>
    obtain ⟨hb, hsettled, hfreed⟩ := placedBy_away hplaced
    exact accounting_evict hc h hresident hb hsettled rfl hfreed
  | stuck i reason hblocks hcount hperformed hevictions =>
    apply accounting_keep hc hblocks hcount hperformed
    unfold evicted
    rw [hevictions, List.countP_append]
    simp [freed]
  | refill i nowNs hbatch => cases hbatch
  | rerestore i nowNs hbatch => cases hbatch

end Counting

/-! ## Over runs -/

theorem start_accounting (cfg : RaidConfig) (muxClient : Bool)
    (localBlockStore : Option Cluster.BlockStore) :
    Accounting (start cfg muxClient localBlockStore) := by
  rw [start_eq]
  refine ⟨?_, fun i => by simp [new, freshBlock], fun i => rfl, rfl⟩
  simp [new, freshBlock, located, Table.count, isResident]

theorem run_accounting {c : RamRaidController cfg} (h : Accounting c) {rs : List Request}
    (hrs : ∀ r ∈ rs, r.op.isBatch = false) :
    Accounting (Machine.run (exec sha256Hex) c rs) := by
  refine Machine.run_invariant ?_ h hrs
  intro c r hr hc
  exact (exec_trace_single sha256Hex c hr).invariant (fun _ _ hs => step_accounting hs) hc

/-- The four kinds of settled locations share out the blocks. -/
theorem located_sum {c : RamRaidController cfg} (h : ∀ i, (c.blocks i).location ≠ .fetching) :
    c.located isResident + c.located isVirgin + c.located isLocal + c.located isRemote =
      cfg.blockCount := by
  unfold located
  have hcases : ∀ l : BlockLocation, l ≠ .fetching →
      (((isResident l || isVirgin l) || isLocal l) || isRemote l) = true := by
    intro l hl
    cases l <;> simp_all [isResident, isVirgin, isLocal, isRemote]
  have hexcl₁ : ∀ b : RaidBlock, isResident b.location = true → isVirgin b.location = false := by
    intro b
    cases b.location <;> simp [isResident, isVirgin]
  have hexcl₂ : ∀ b : RaidBlock, (isResident b.location || isVirgin b.location) = true →
      isLocal b.location = false := by
    intro b
    cases b.location <;> simp [isResident, isVirgin, isLocal]
  have hexcl₃ : ∀ b : RaidBlock,
      ((isResident b.location || isVirgin b.location) || isLocal b.location) = true →
      isRemote b.location = false := by
    intro b
    cases b.location <;> simp [isResident, isVirgin, isLocal, isRemote]
  rw [← Table.count_or c.blocks hexcl₁, ← Table.count_or c.blocks hexcl₂,
    ← Table.count_or c.blocks hexcl₃]
  have hall : ∀ i, (((isResident (c.blocks i).location || isVirgin (c.blocks i).location) ||
      isLocal (c.blocks i).location) || isRemote (c.blocks i).location) = true :=
    fun i => hcases _ (h i)
  exact (Table.count_true hall).trans (Fintype.card_fin _)

/-- The eviction counter moves with the result of `evict_coldest`. -/
theorem evictColdest_performed (remote : Remote) (c : RamRaidController cfg) :
    (evictColdest sha256Hex remote c).1.evictionsPerformed =
      c.evictionsPerformed +
        if (freed (evictColdest sha256Hex remote c).2).isSome then 1 else 0 := by
  unfold evictColdest
  cases c.coldest with
  | none => simp [freed]
  | some i =>
    unfold evictVictim
    by_cases hdirty : (c.blocks i).dirty = true
    · simp only [hdirty, if_true]
      rcases evictDirty_cases sha256Hex remote i with
        ⟨location, hash, edSeal, result, hplaced, hresult, -, -, hperf, -⟩ |
        ⟨reason, hresult, hkeeps⟩
      · rw [hperf, hresult, if_pos (placedBy_away hplaced).2.2]
      · rw [hkeeps.evictionsPerformed, hresult]
        simp [freed]
    · simp only [hdirty, Bool.false_eq_true, if_false]
      simp [evictClean, freed]

/-- Over every run of the operations that restore one block at a time, with any remote answers:
the resident count is the number of resident blocks, so that a decrement never wraps; no block is
being fetched; every block is resident, virgin, local or remote; the identity of a block is what
it was at the start; and the eviction counter has grown by one for each eviction that succeeded. -/
theorem accounting_of_run (muxClient : Bool) (localBlockStore : Option Cluster.BlockStore)
    (rs : List Request) (hrs : ∀ r ∈ rs, r.op.isBatch = false) :
    let c := Machine.run (exec sha256Hex) (start cfg muxClient localBlockStore) rs
    (c.residentCount.toNat = c.located isResident ∧
      ∀ i, (c.blocks i).location = .resident → 1 ≤ c.residentCount) ∧
    (∀ i, (c.blocks i).location ≠ .fetching) ∧
    c.located isResident + c.located isVirgin + c.located isLocal + c.located isRemote =
      cfg.blockCount ∧
    (∀ i : Fin cfg.blockCount, (c.blocks i).index = i ∧
      (c.blocks i).stripe = RaidStripe.fromBlockIndex i ∧
      (c.blocks i).vaOffset = i * cfg.blockSize ∧ (c.blocks i).size = cfg.blockSize) ∧
    (c.evictionsPerformed = UInt64.ofNat c.evicted ∧
      ∀ remote, (evictColdest sha256Hex remote c).1.evictionsPerformed = c.evictionsPerformed +
        if (freed (evictColdest sha256Hex remote c).2).isSome then 1 else 0) := by
  intro c
  have hc : Accounting c :=
    run_accounting sha256Hex (start_accounting cfg muxClient localBlockStore) hrs
  refine ⟨⟨hc.count, ?_⟩, hc.settled, located_sum hc.settled, ?_,
    hc.performed, fun remote => evictColdest_performed sha256Hex remote c⟩
  · intro i hi
    rw [UInt64.le_iff_toNat_le, hc.count]
    exact Table.count_pos ((isResident_iff _).mpr hi)
  · intro i
    have hid := hc.identity i
    simp only [RaidBlock.identity, freshBlock, Prod.mk.injEq] at hid
    exact hid

/-- An arena of two blocks with room for one, and a run in which a read evicts. -/
def smallArena : RaidConfig where
  arenaSize := 8192
  blockSize := 4096
  maxResidentBlocks := 1
  ramBEndpoint := none
  ramBKernelId := none
  fromAint := "root_idd.aint"
  arenaSize_lt := by decide
  maxResidentBlocks_lt := by decide
  blockSize_pos := by decide

/-- A remote kernel that cannot be reached. -/
def unreachable : Remote where
  fetchBlock := fun _ _ _ => .error (.connect "Connection refused (os error 111)")
  storeBlock := fun _ _ _ _ _ _ => .error (.connect "Connection refused (os error 111)")
  fetchBatch := fun _ => .error (.connect "Connection refused (os error 111)")
  fetchBatch_indices := fun _ _ h => nomatch h

/-- SHA-256 of the one block content that evictions of this arena hash. -/
def arenaSha256 (_ : List UInt8) : String :=
  "fa348f8e8bdec968196a69ee608e4844220726ebfc003ba533594f8d5f1be16e"

theorem accounting_of_small_run :
    let c := Machine.run (exec arenaSha256) (start smallArena false none)
      [⟨.simulateRead 0, 1, unreachable⟩, ⟨.handleFault 4096, 2, unreachable⟩]
    c.located isResident + c.located isVirgin + c.located isLocal + c.located isRemote = 2 :=
  (accounting_of_run arenaSha256 false none _ (by simp [Op.isBatch])).2.2.1

end Spaceshuttle.Raid
