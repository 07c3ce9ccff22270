import Spaceshuttle.Lib.Machine
import Spaceshuttle.Llm.Transitions
import Spaceshuttle.Raid.Plain

/-!
# The aperture and the controller

The aperture calls a block `Resident` once it was loaded, and the controller evicts by its own
counts without telling the aperture. The two agree until a load or a cold eviction pushes out a
block that the aperture still calls `Resident`, or a load brings nothing in.
-/

namespace Spaceshuttle.Llm

open Raid
open Raid.RamRaidController (PlainWith coldestFirst)

variable {manifest : ModelManifest} {cfg : RaidConfig}

/-- The aperture has a `Resident` block at the index. -/
def ResidentAt (aperture : Fin manifest.blocks.length → ApertureBlock) (i : Nat) : Prop :=
  ∃ h : i < manifest.blocks.length, (aperture ⟨i, h⟩).status = .resident

/-- Every `Resident` block of the aperture is resident in the controller. -/
def Agrees (aperture : Fin manifest.blocks.length → ApertureBlock) (raid : RamRaidController cfg) :
    Prop :=
  ∀ i, ResidentAt aperture i → raid.Holds i

/-- The tables before a move allow it. A load needs a block of the controller's table, and that the
controller has it, has room for it, or has a coldest block that is not `Resident`. A cold eviction
needs that none of the blocks the controller ranks coldest, as many as `proactive_evict` takes, is
`Resident`, the evicted block apart. -/
def Move.Safe (move : Move manifest cfg) : Prop :=
  match move.kind with
  | .load => move.block < cfg.blockCount ∧
      (move.raid.Holds move.block ∨ move.raid.atCapacity = false ∨
        ∃ v, move.raid.coldest = some v ∧ ¬ ResidentAt move.aperture v)
  | .evict => ∀ v ∈ coldestFirst move.raid.proactiveCount move.raid,
      v.val ≠ move.block → ¬ ResidentAt move.aperture v

/-! ## One change -/

section Change

variable {sha256Hex : List UInt8 → String} {env : Env} {m : LlmMemoryMapper manifest cfg}
  {i : Fin manifest.blocks.length} {p : Nat → Prop}

theorem residentAt_load (j : Nat) :
    ResidentAt (m.load sha256Hex env i).aperture j ↔ j = i ∨ ResidentAt m.aperture j := by
  simp only [ResidentAt, LlmMemoryMapper.load_status]
  by_cases hj : j = i
  · subst hj
    simp
  · have hne : ∀ h : j < manifest.blocks.length, (⟨j, h⟩ : Fin manifest.blocks.length) ≠ i :=
      fun h heq => hj (congrArg Fin.val heq)
    simp [hj, hne]

theorem residentAt_evictBlock (j : Nat) :
    ResidentAt (m.evictBlock sha256Hex env i).aperture j ↔ ResidentAt m.aperture j ∧ j ≠ i := by
  simp only [ResidentAt, LlmMemoryMapper.evictBlock_status]
  by_cases hj : j = i
  · subst hj
    simp
  · have hne : ∀ h : j < manifest.blocks.length, (⟨j, h⟩ : Fin manifest.blocks.length) ≠ i :=
      fun h heq => hj (congrArg Fin.val heq)
    simp [hj, hne]

/-- From tables that agree, a load leads to tables that agree if the tables allow it, and only
then. -/
theorem agrees_load (hc : PlainWith m.raidController p) (h : Agrees m.aperture m.raidController) :
    Agrees (m.load sha256Hex env i).aperture (m.load sha256Hex env i).raidController ↔
      Move.Safe ⟨.load, i, m.aperture, m.raidController⟩ := by
  obtain ⟨q, hread, hq⟩ := RamRaidController.simulateRead_plain sha256Hex env.remote
    (env.clock m.stats.faultsHandled.toNat) hc i
  have hp : ∀ j, ResidentAt m.aperture j → p j := fun j hj => (hc.holds j).mp (h j hj)
  have hagrees : Agrees (m.load sha256Hex env i).aperture (m.load sha256Hex env i).raidController ↔
      ∀ j : Nat, j = i ∨ ResidentAt m.aperture j → q j := by
    apply forall_congr'
    intro j
    rw [residentAt_load, LlmMemoryMapper.load_raidController, hq.holds]
  rw [hagrees, hread.covers_iff hc hp]
  unfold Move.Safe
  simp only [hc.holds]

/-- From tables that agree, a cold eviction leads to tables that agree if the tables allow it, and
only then. -/
theorem agrees_evictBlock (hc : PlainWith m.raidController p)
    (h : Agrees m.aperture m.raidController) :
    Agrees (m.evictBlock sha256Hex env i).aperture (m.evictBlock sha256Hex env i).raidController ↔
      Move.Safe ⟨.evict, i, m.aperture, m.raidController⟩ := by
  have hq := RamRaidController.evictUpTo_plain sha256Hex env.remote m.raidController.proactiveCount hc
  rw [← RamRaidController.proactiveEvict_eq] at hq
  unfold Agrees Move.Safe
  simp only [residentAt_evictBlock, LlmMemoryMapper.evictBlock_raidController, hq.holds]
  constructor
  · intro hall v hv hne hres
    exact (hall v ⟨hres, hne⟩).2 v hv rfl
  · rintro hsafe j ⟨hj, hne⟩
    refine ⟨(hc.holds j).mp (h j hj), ?_⟩
    rintro v hv rfl
    exact hsafe v hv hne hj

theorem agrees_undisturbed {m' : LlmMemoryMapper manifest cfg} (h : Undisturbed m m') :
    Agrees m'.aperture m'.raidController ↔ Agrees m.aperture m.raidController := by
  unfold Agrees ResidentAt
  simp only [h.status, h.raidController]

end Change

/-! ## Over runs -/

/-- Nothing was ever written to the controller. The tables agreed before every move so far and
agree now if every move so far was safe, and only then. -/
structure Tracked (m : LlmMemoryMapper manifest cfg) : Prop where
  plain : ∃ p, PlainWith m.raidController p
  agrees : ((∀ move ∈ m.moves, Agrees move.aperture move.raid) ∧
    Agrees m.aperture m.raidController) ↔ ∀ move ∈ m.moves, move.Safe

/-- A move from a tracked state. -/
theorem tracked_move {m m' : LlmMemoryMapper manifest cfg} (hm : Tracked m)
    {move : Move manifest cfg} (haperture : move.aperture = m.aperture)
    (hraid : move.raid = m.raidController) (hmoves : m'.moves = m.moves ++ [move])
    (hplain : ∃ p, PlainWith m'.raidController p)
    (hsafe : Agrees m.aperture m.raidController →
      (Agrees m'.aperture m'.raidController ↔ move.Safe)) : Tracked m' where
  plain := hplain
  agrees := by
    rw [hmoves, List.forall_mem_append, List.forall_mem_singleton, List.forall_mem_append,
      List.forall_mem_singleton, haperture, hraid, hm.agrees.symm]
    constructor
    · rintro ⟨hbefore, hnow⟩
      exact ⟨hbefore, (hsafe hbefore.2).mp hnow⟩
    · rintro ⟨hbefore, hmove⟩
      exact ⟨hbefore, (hsafe hbefore.2).mpr hmove⟩

variable {sha256Hex : List UInt8 → String}

theorem tracked_step {m m' : LlmMemoryMapper manifest cfg} (h : MapperStep sha256Hex m m')
    (hm : Tracked m) : Tracked m' := by
  obtain ⟨p, hc⟩ := hm.plain
  cases h with
  | quiet h =>
    refine ⟨⟨p, ?_⟩, ?_⟩
    · rw [h.raidController]
      exact hc
    · rw [agrees_undisturbed h, h.moves]
      exact hm.agrees
  | load env i =>
    refine tracked_move hm rfl rfl (LlmMemoryMapper.load_moves sha256Hex env m i) ?_ (agrees_load hc)
    obtain ⟨q, -, hq⟩ := RamRaidController.simulateRead_plain sha256Hex env.remote
      (env.clock m.stats.faultsHandled.toNat) hc i
    exact ⟨q, hq⟩
  | evict env i =>
    refine tracked_move hm rfl rfl (LlmMemoryMapper.evictBlock_moves sha256Hex env m i) ?_
      (agrees_evictBlock hc)
    rw [LlmMemoryMapper.evictBlock_raidController, RamRaidController.proactiveEvict_eq]
    exact ⟨_, RamRaidController.evictUpTo_plain sha256Hex env.remote _ hc⟩

theorem tracked_run {m : LlmMemoryMapper manifest cfg} (hm : Tracked m)
    (requests : List (MapperOp × Env)) : Tracked (Machine.run (mapperStep sha256Hex) m requests) := by
  refine Machine.run_keeps ?_ hm requests
  intro m request hm
  exact (mapperStep_trace sha256Hex m request).invariant (fun _ _ => tracked_step) hm

theorem tracked_new (manifest : ModelManifest) (budget : Option UInt64) (muxClient : Bool)
    (localStore : Option Cluster.BlockStore) (prefetchWindow : Nat) :
    Tracked (LlmMemoryMapper.new manifest budget muxClient localStore prefetchWindow) where
  plain := by
    refine ⟨fun _ => False, ?_⟩
    simp only [LlmMemoryMapper.new, start_eq]
    exact RamRaidController.plainWith_new _ muxClient localStore
  agrees := by
    have hnone : ∀ q : Move manifest (manifest.budgetConfig budget) → Prop,
        ∀ move ∈ (LlmMemoryMapper.new manifest budget muxClient localStore prefetchWindow).moves,
          q move :=
      fun q => List.forall_mem_nil q
    refine iff_of_true ⟨hnone _, ?_⟩ (hnone _)
    rintro j ⟨_, hres⟩
    cases hres

theorem moves_run (m : LlmMemoryMapper manifest cfg) (requests : List (MapperOp × Env)) :
    m.moves <+: (Machine.run (mapperStep sha256Hex) m requests).moves := by
  refine Machine.run_keeps (p := fun m₁ : LlmMemoryMapper manifest cfg => m.moves <+: m₁.moves) ?_
    (List.prefix_refl m.moves) requests
  exact fun m₁ request h => h.trans (mapperStep_moves sha256Hex m₁ request)

/-- In a run of the requests the tables agree before every load and eviction, and between any two
operations. -/
def AgreesThroughout (sha256Hex : List UInt8 → String) (m : LlmMemoryMapper manifest cfg)
    (requests : List (MapperOp × Env)) : Prop :=
  (∀ move ∈ (Machine.run (mapperStep sha256Hex) m requests).moves,
    Agrees move.aperture move.raid) ∧
  ∀ done, done <+: requests →
    Agrees (Machine.run (mapperStep sha256Hex) m done).aperture
      (Machine.run (mapperStep sha256Hex) m done).raidController

/-- In every run of a new mapper, of any model, with any budget, transports and prefetch window and
any remote answers, every `Resident` block of the aperture is resident in the controller
throughout if and only if every load and every cold eviction of the run was safe. -/
theorem agreesThroughout_iff (manifest : ModelManifest) (budget : Option UInt64)
    (muxClient : Bool) (localStore : Option Cluster.BlockStore) (prefetchWindow : Nat)
    (sha256Hex : List UInt8 → String) (requests : List (MapperOp × Env)) :
    AgreesThroughout sha256Hex
        (LlmMemoryMapper.new manifest budget muxClient localStore prefetchWindow) requests ↔
      ∀ move ∈ (Machine.run (mapperStep sha256Hex)
        (LlmMemoryMapper.new manifest budget muxClient localStore prefetchWindow) requests).moves,
        move.Safe := by
  have hnew := tracked_new manifest budget muxClient localStore prefetchWindow
  constructor
  · rintro ⟨hmoves, hstates⟩
    exact (tracked_run hnew requests).agrees.mp ⟨hmoves, hstates requests (List.prefix_refl _)⟩
  · intro hsafe
    refine ⟨((tracked_run hnew requests).agrees.mpr hsafe).1, ?_⟩
    rintro done ⟨rest, rfl⟩
    -- the moves up to here are among those of the whole run
    refine ((tracked_run hnew done).agrees.mpr fun move hmove => hsafe move ?_).2
    rw [Machine.run_append]
    exact (moves_run _ rest).subset hmove

/-- A model of two blocks and two layers. -/
def tinyModel : ModelManifest := .synthetic "tiny" (4 * 1024 * 1024) 2 "Q4_K_M"

/-- The mapper of the model with room for one block, after its two blocks were loaded. -/
def tinyRun : LlmMemoryMapper tinyModel (tinyModel.budgetConfig (some 1)) :=
  Machine.run (mapperStep arenaSha256) (.new tinyModel (some 1) false none LlmMemoryMapper.defaultPrefetchWindow)
    [(.materializeBlock 0, ⟨fun _ => 1, unreachable⟩),
      (.materializeBlock 1, ⟨fun _ => 2, unreachable⟩)]

/-- Loading the second block pushes out the first, which stays `Resident` in the aperture. -/
theorem pushed_out_unnoticed : ¬ Agrees tinyRun.aperture tinyRun.raidController := by
  intro h
  have haway : (tinyRun.raidController.blocks ⟨0, by decide⟩).location ≠ .resident := by
    decide
  obtain ⟨_, hres⟩ := h 0 ⟨by decide, by decide⟩
  exact haway hres

end Spaceshuttle.Llm
