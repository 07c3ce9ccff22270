import Spaceshuttle.Llm.Budget

/-!
# Conservation

The aperture keeps a status for each block, and the statistics count loads, evictions, bytes and
prefetches apart from it. What they say together is told by the history of loads and evictions. The
counters are `u64` and hold these counts modulo `2 ^ 64`.
-/

namespace Spaceshuttle.Llm

open Raid
open LlmMemoryMapper

variable {manifest : ModelManifest} {cfg : RaidConfig}

namespace LlmMemoryMapper

/-- The number of materializations so far. -/
def loads (m : LlmMemoryMapper manifest cfg) : Nat := m.moves.countP (fun move => move.kind == .load)

/-- The number of evictions so far. -/
def evictions (m : LlmMemoryMapper manifest cfg) : Nat :=
  m.moves.countP (fun move => move.kind == .evict)

/-- The sizes of the materialized blocks, once for each materialization. -/
def loadedBytes (m : LlmMemoryMapper manifest cfg) : Nat :=
  ((m.moves.filter (fun move => move.kind == .load)).map
    (fun move => (manifest.blocks.get move.block).size)).sum

end LlmMemoryMapper

/-- No block is `Loading`. Of the blocks loaded those that were not evicted are resident, and the
counters hold the numbers of loads, evictions and bytes. Some of the loads were prefetches. -/
structure Conserved (m : LlmMemoryMapper manifest cfg) : Prop where
  settled : ∀ i, (m.aperture i).status ≠ .loading
  resident : m.residentCount + m.evictions = m.loads
  materialized : m.stats.blocksMaterialized = UInt64.ofNat m.loads
  evicted : m.stats.blocksEvicted = UInt64.ofNat m.evictions
  bytes : m.stats.bytesFromRemote + m.stats.bytesFromLocal = UInt64.ofNat m.loadedBytes
  prefetched : ∃ n ≤ m.loads, m.stats.blocksPrefetched = UInt64.ofNat n

section Change

variable (sha256Hex : List UInt8 → String) (env : Env) {m m' : LlmMemoryMapper manifest cfg}

/-! ## One change -/

theorem load_counts (i : Fin manifest.blocks.length) :
    (m.load sha256Hex env i).loads = m.loads + 1 ∧
      (m.load sha256Hex env i).evictions = m.evictions ∧
      (m.load sha256Hex env i).loadedBytes = m.loadedBytes + (manifest.blocks.get i).size := by
  simp [loads, evictions, loadedBytes, load_moves]

theorem evictBlock_counts (i : Fin manifest.blocks.length) :
    (m.evictBlock sha256Hex env i).loads = m.loads ∧
      (m.evictBlock sha256Hex env i).evictions = m.evictions + 1 ∧
      (m.evictBlock sha256Hex env i).loadedBytes = m.loadedBytes := by
  simp [loads, evictions, loadedBytes, evictBlock_moves]

theorem residentCount_of_undisturbed (h : Undisturbed m m') :
    m'.residentCount = m.residentCount := by
  rw [residentCount_eq, residentCount_eq, Table.count_eq_sum, Table.count_eq_sum]
  simp only [h.status]

theorem residentCount_load {i : Fin manifest.blocks.length} (h : (m.aperture i).status.Fetchable) :
    (m.load sha256Hex env i).residentCount = m.residentCount + 1 := by
  have hcount := Table.count_update (fun b => isResident b.status) m.aperture i
    { m.aperture i with status := .resident, accessCount := (m.aperture i).accessCount + 1 }
  have hbefore : isResident (m.aperture i).status = false := by
    cases hstatus : (m.aperture i).status with
    | resident =>
      rw [hstatus] at h
      cases h
    | _ => rfl
  have hafter : isResident .resident = true := rfl
  simp only [hbefore, hafter, if_true, Bool.false_eq_true, if_false] at hcount
  rw [residentCount_eq, residentCount_eq, load_aperture]
  exact hcount

theorem load_stats (i : Fin manifest.blocks.length) :
    (m.load sha256Hex env i).stats.blocksMaterialized = m.stats.blocksMaterialized + 1 ∧
      (m.load sha256Hex env i).stats.blocksEvicted = m.stats.blocksEvicted ∧
      (m.load sha256Hex env i).stats.blocksPrefetched = m.stats.blocksPrefetched ∧
      (m.load sha256Hex env i).stats.bytesFromRemote +
          (m.load sha256Hex env i).stats.bytesFromLocal =
        m.stats.bytesFromRemote + m.stats.bytesFromLocal +
          UInt64.ofNat (m.aperture i).size := by
  refine ⟨rfl, rfl, rfl, ?_⟩
  have hremote : (m.load sha256Hex env i).stats.bytesFromRemote =
      if (m.aperture i).stripe = .ramB then
        m.stats.bytesFromRemote + UInt64.ofNat (m.aperture i).size
      else m.stats.bytesFromRemote := rfl
  have hlocal : (m.load sha256Hex env i).stats.bytesFromLocal =
      if (m.aperture i).stripe = .ramB then m.stats.bytesFromLocal
      else m.stats.bytesFromLocal + UInt64.ofNat (m.aperture i).size := rfl
  rw [hremote, hlocal]
  split
  · rw [UInt64.add_assoc, UInt64.add_comm (UInt64.ofNat _), UInt64.add_assoc]
  · rw [UInt64.add_assoc]

theorem conserved_load (hd : Described m) (hm : Conserved m) {i : Fin manifest.blocks.length}
    (h : (m.aperture i).status.Fetchable) : Conserved (m.load sha256Hex env i) := by
  obtain ⟨hloads, hevictions, hbytes⟩ := load_counts sha256Hex env i
  obtain ⟨hmat, hev, hpre, hby⟩ := load_stats sha256Hex env i
  have hsize : (m.aperture i).size = (manifest.blocks.get i).size := by
    obtain ⟨status, accessCount, heq⟩ := hd i
    rw [heq]
    rfl
  refine ⟨?_, ?_, ?_, ?_, ?_, ?_⟩
  · intro j
    rw [load_status]
    split
    · exact fun h => nomatch h
    · exact hm.settled j
  · rw [residentCount_load sha256Hex env h, hevictions, hloads, ← hm.resident]
    omega
  · rw [hmat, hloads, hm.materialized, UInt64.ofNat_add]
    rfl
  · rw [hev, hevictions, hm.evicted]
  · rw [hby, hbytes, hm.bytes, hsize, UInt64.ofNat_add]
  · obtain ⟨n, hn, heq⟩ := hm.prefetched
    exact ⟨n, by omega, hpre.trans heq⟩

variable {sha256Hex} in
theorem conserved_fetch {p : Nat → Prop} (h : FetchStep sha256Hex p m m')
    (hm : Described m ∧ Conserved m) : Described m' ∧ Conserved m' := by
  refine ⟨described_fetch h hm.1, ?_⟩
  obtain ⟨hd, hm⟩ := hm
  cases h with
  | touch i _ =>
    have htouch := touch_undisturbed m i
    refine ⟨fun j => ?_, ?_, hm.materialized, hm.evicted, hm.bytes, hm.prefetched⟩
    · rw [htouch.status]
      exact hm.settled j
    · rw [residentCount_of_undisturbed htouch]
      exact hm.resident
  | load env i _ hfetchable => exact conserved_load sha256Hex env hd hm hfetchable
  | note _ _ => exact ⟨hm.settled, hm.resident, hm.materialized, hm.evicted, hm.bytes, hm.prefetched⟩

/-- Evicting a resident block. -/
theorem conserved_evictBlock (hm : Conserved m) {i : Fin manifest.blocks.length}
    (hi : isResident (m.aperture i).status = true) : Conserved (m.evictBlock sha256Hex env i) := by
  obtain ⟨hloads, hevictions, hbytes⟩ :=
    evictBlock_counts sha256Hex env i
  have hcount := residentCount_evictBlock sha256Hex env hi
  refine ⟨?_, ?_, ?_, ?_, ?_, ?_⟩
  · intro j
    rw [evictBlock_status]
    split
    · exact fun h => nomatch h
    · exact hm.settled j
  · rw [hevictions, hloads, ← hm.resident]
    omega
  · rw [hloads]
    exact hm.materialized
  · rw [hevictions, UInt64.ofNat_add, ← hm.evicted]
    rfl
  · rw [hbytes]
    exact hm.bytes
  · rw [hloads]
    exact hm.prefetched

theorem conserved_evictAll {blocks : List (Fin manifest.blocks.length)} (hblocks : blocks.Nodup)
    (hresident : ∀ i ∈ blocks, isResident (m.aperture i).status = true) (hm : Conserved m) :
    Conserved (m.evictAll sha256Hex env blocks) := by
  induction blocks generalizing m with
  | nil => exact hm
  | cons i blocks ih =>
    obtain ⟨hi, hblocks⟩ := List.nodup_cons.mp hblocks
    rw [List.forall_mem_cons] at hresident
    refine ih hblocks (fun j hj => ?_) (conserved_evictBlock sha256Hex env hm hresident.1)
    have hne : j ≠ i := fun heq => hi (heq ▸ hj)
    rw [evictBlock_aperture, Function.update_of_ne hne]
    exact hresident.2 j hj

theorem conserved_evict (hmanifest : manifest.IsSynthetic) (hd : Described m) (hm : Conserved m)
    (targetFree : Nat) : Conserved (m.evictColdBlocks sha256Hex env targetFree).1 := by
  obtain ⟨hnodup, hresident⟩ :=
    take_coldFirst_spec m (min targetFree (m.residentCount - minResidentBlocks))
  rw [evictColdBlocks_eq sha256Hex env hd hmanifest]
  exact conserved_evictAll sha256Hex env hnodup hresident hm

/-! ## Prefetching -/

/-- A block that needs data is loaded. -/
theorem materializeBlock_of_needsData {idx : Nat} (h : m.needsData idx = true) :
    ∃ i, (m.materializeBlock sha256Hex env idx).1 = m.load sha256Hex env i := by
  unfold needsData at h
  split at h
  · next hlt =>
    refine ⟨⟨idx, hlt⟩, ?_⟩
    unfold materializeBlock
    rw [dif_pos hlt]
    cases hstatus : (m.aperture ⟨idx, hlt⟩).status with
    | unmapped expectedHash size => simp only [hstatus]
    | evicted => simp only [hstatus]
    | resident =>
      rw [hstatus] at h
      cases h
    | loading =>
      rw [hstatus] at h
      cases h
  · cases h

theorem prefetchBlocks_total (m : LlmMemoryMapper manifest cfg) (indices : List Nat) :
    ∃ n, (m.prefetchBlocks sha256Hex env indices).1.loads = m.loads + n ∧
      (m.prefetchBlocks sha256Hex env indices).2 = UInt64.ofNat n := by
  induction indices generalizing m with
  | nil => exact ⟨0, rfl, rfl⟩
  | cons idx indices ih =>
    rw [prefetchBlocks]
    split
    · next hneeds =>
      obtain ⟨i, hload⟩ := materializeBlock_of_needsData sha256Hex env hneeds
      obtain ⟨n, hloads, htotal⟩ := ih (m.load sha256Hex env i)
      simp only [hload]
      refine ⟨n + 1, ?_, ?_⟩
      · rw [hloads, (load_counts sha256Hex env i).1]
        omega
      · rw [htotal, UInt64.add_comm, UInt64.ofNat_add]
        rfl
    · exact ih m

/-- What prefetching counts is what it loads. -/
theorem prefetchLoop_total (m : LlmMemoryMapper manifest cfg) (layers : List Nat) :
    ∃ n, (m.prefetchLoop sha256Hex env layers).1.loads = m.loads + n ∧
      (m.prefetchLoop sha256Hex env layers).2.1 = UInt64.ofNat n := by
  induction layers generalizing m with
  | nil => exact ⟨0, rfl, rfl⟩
  | cons layer layers ih =>
    rw [prefetchLoop]
    split
    · exact ⟨0, rfl, rfl⟩
    · obtain ⟨n, hloads, htotal⟩ :=
        prefetchBlocks_total sha256Hex env m (manifest.layerBlocks layer)
      obtain ⟨k, hrest, htotals⟩ := ih (m.prefetchBlocks sha256Hex env (manifest.layerBlocks layer)).1
      refine ⟨n + k, ?_, ?_⟩
      · simp only
        rw [hrest, hloads]
        omega
      · simp only
        rw [htotal, htotals, UInt64.ofNat_add]

variable {sha256Hex} in
theorem blocksPrefetched_fetches {p : Nat → Prop} (h : FetchTrace sha256Hex p m m') :
    m'.stats.blocksPrefetched = m.stats.blocksPrefetched := by
  refine h.invariant (q := fun m₁ => m₁.stats.blocksPrefetched = m.stats.blocksPrefetched) ?_ rfl
  intro m₁ m₂ hs h₁
  cases hs with
  | touch _ _ => exact h₁
  | load env i _ _ => exact (load_stats _ env i).2.2.1.trans h₁
  | note _ _ => exact h₁

theorem conserved_prefetch (hd : Described m) (hm : Conserved m) (layer : Nat) :
    Conserved (m.prefetchLayers sha256Hex env layer).1 := by
  unfold prefetchLayers
  simp only
  generalize List.range' _ _ = layers
  have hfetches := prefetchLoop_fetches sha256Hex env m layers
  have hm₁ := (hfetches.invariant (fun _ _ => conserved_fetch) ⟨hd, hm⟩).2
  refine ⟨hm₁.settled, hm₁.resident, hm₁.materialized, hm₁.evicted, hm₁.bytes, ?_⟩
  obtain ⟨n, hn, hbefore⟩ := hm.prefetched
  obtain ⟨k, hloads, htotal⟩ := prefetchLoop_total sha256Hex env m layers
  refine ⟨n + k, ?_, ?_⟩
  · show n + k ≤ (m.prefetchLoop sha256Hex env layers).1.loads
    omega
  · simp only
    rw [blocksPrefetched_fetches hfetches, hbefore, htotal, UInt64.ofNat_add]

end Change

/-! ## Over runs -/

theorem conserved_new (manifest : ModelManifest) (budget : Option UInt64) (muxClient : Bool)
    (localStore : Option Cluster.BlockStore) (prefetchWindow : Nat) :
    Conserved (LlmMemoryMapper.new manifest budget muxClient localStore prefetchWindow) := by
  have hnone : (LlmMemoryMapper.new manifest budget muxClient localStore
      prefetchWindow).residentCount = 0 := by
    rw [residentCount_eq, Table.count_eq_sum]
    exact Finset.sum_eq_zero fun i _ => rfl
  refine ⟨fun i => ?_, hnone, rfl, rfl, rfl, 0, Nat.le_refl 0, rfl⟩
  exact fun h => nomatch h

theorem conserved_run {sha256Hex : List UInt8 → String} {m : LlmMemoryMapper manifest cfg}
    (hmanifest : manifest.IsSynthetic) (hd : Described m) (hm : Conserved m)
    (requests : List (MapperOp × Env)) :
    Conserved (Machine.run (mapperStep sha256Hex) m requests) := by
  refine (Machine.run_keeps (p := fun m => Described m ∧ Conserved m) ?_ ⟨hd, hm⟩ requests).2
  intro m₁ request h₁
  exact mapperStep_keeps (fun _ _ => conserved_fetch)
    (fun env m₂ layer h₂ => ⟨described_prefetch sha256Hex env h₂.1 layer,
      conserved_prefetch sha256Hex env h₂.1 h₂.2 layer⟩)
    (fun env m₂ targetFree h₂ => ⟨described_evict sha256Hex hmanifest env h₂.1 targetFree,
      conserved_evict sha256Hex env hmanifest h₂.1 h₂.2 targetFree⟩) h₁ request

/-- Every status but `Loading` is counted once. -/
theorem counts_sum {m : LlmMemoryMapper manifest cfg} (hm : Conserved m) :
    m.unmappedCount + m.residentCount + m.evictedCount = manifest.blocks.length := by
  have hunmapped : m.unmappedCount = Table.count (fun b => isUnmapped b.status) m.aperture :=
    Table.countP_ofFn _ _
  have hevicted : m.evictedCount = Table.count (fun b => isEvicted b.status) m.aperture :=
    Table.countP_ofFn _ _
  rw [hunmapped, residentCount_eq, hevicted, ← Table.count_or, ← Table.count_or, Table.count_true,
    Fintype.card_fin]
  · intro i
    have hsettled := hm.settled i
    cases hstatus : (m.aperture i).status with
    | loading => exact absurd hstatus hsettled
    | _ => rfl
  · intro b
    cases b.status <;> simp [isUnmapped, isResident, isEvicted]
  · intro b
    cases b.status <;> simp [isUnmapped, isResident]

/-- In every state between the operations of a run, of a mapper of any synthetic manifest with any
budget, transports and prefetch window: no block is `Loading`; the unmapped, resident and evicted
blocks are all blocks; the resident ones are those materialized less those evicted; the bytes from
the two sources add up to the sizes of all materializations; and the prefetches are among the
materializations, as the two counters have them. -/
theorem aperture_conserved (name : String) (totalBytes numLayers : Nat) (quantization : String)
    (budget : Option UInt64) (muxClient : Bool) (localStore : Option Cluster.BlockStore)
    (prefetchWindow : Nat) (sha256Hex : List UInt8 → String) (requests : List (MapperOp × Env)) :
    let manifest := ModelManifest.synthetic name totalBytes numLayers quantization
    let m := Machine.run (mapperStep sha256Hex)
      (.new manifest budget muxClient localStore prefetchWindow) requests
    (∀ i, (m.aperture i).status ≠ .loading) ∧
    m.unmappedCount + m.residentCount + m.evictedCount = manifest.numBlocks ∧
    m.residentCount = (m.stats.blocksMaterialized - m.stats.blocksEvicted).toNat ∧
    m.stats.bytesFromRemote + m.stats.bytesFromLocal = UInt64.ofNat m.loadedBytes ∧
    (∃ prefetches ≤ m.loads, m.stats.blocksPrefetched = UInt64.ofNat prefetches ∧
      m.stats.blocksMaterialized = UInt64.ofNat m.loads) ∧
    (m.loads < 2 ^ 64 → m.stats.blocksPrefetched ≤ m.stats.blocksMaterialized) := by
  intro manifest m
  have hmanifest : manifest.IsSynthetic :=
    ModelManifest.isSynthetic name totalBytes numLayers quantization
  have hm : Conserved m := conserved_run hmanifest (described_new _ _ _ _ _)
    (conserved_new _ _ _ _ _) requests
  have hsum := counts_sum hm
  have hblocks : manifest.numBlocks < 2 ^ 64 :=
    Nat.lt_of_le_of_lt (Nat.div_le_self _ _) (Nat.mod_lt _ (by norm_num))
  rw [hmanifest.length_blocks] at hsum
  obtain ⟨n, hn, hprefetched⟩ := hm.prefetched
  refine ⟨hm.settled, hsum, ?_, hm.bytes, ⟨n, hn, hprefetched, hm.materialized⟩, ?_⟩
  · rw [hm.materialized, hm.evicted, ← hm.resident, UInt64.ofNat_add, UInt64.add_sub_cancel,
      UInt64.toNat_ofNat_of_lt' (show m.residentCount < UInt64.size by
        rw [show UInt64.size = 2 ^ 64 from rfl]
        omega)]
  · intro hloads
    rw [hprefetched, hm.materialized, UInt64.le_iff_toNat_le,
      UInt64.toNat_ofNat_of_lt' (Nat.lt_of_le_of_lt hn hloads), UInt64.toNat_ofNat_of_lt' hloads]
    exact hn

end Spaceshuttle.Llm
