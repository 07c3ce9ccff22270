import Spaceshuttle.Lib.Scan
import Spaceshuttle.Raid.Transitions

/-!
# The victim of an eviction

`evict_coldest` looks for its victim with a scan that starts at the clock, and then moves it out of
the arena or leaves everything as it was. This module says which block the scan settles on, when it
leaves the arena, and what the controller is afterwards.
-/

namespace Spaceshuttle.Raid

namespace RamRaidController

variable {cfg : RaidConfig}

/-! ## The scan -/

theorem scanned_lt (c : RamRaidController cfg) (h : 0 < cfg.blockCount) (k : Nat) :
    (c.lruClock.toNat % cfg.blockCount + k) % cfg.blockCount < cfg.blockCount := Nat.mod_lt _ h

/-- The block at place `k` of the scan. -/
def scanned (c : RamRaidController cfg) (h : 0 < cfg.blockCount) (k : Nat) : Fin cfg.blockCount :=
  ⟨(c.lruClock.toNat % cfg.blockCount + k) % cfg.blockCount, scanned_lt c h k⟩

/-- The blocks in the order of the scan. -/
def scanOrder (c : RamRaidController cfg) (h : 0 < cfg.blockCount) : List (Fin cfg.blockCount) :=
  (List.range cfg.blockCount).map (c.scanned h)

/-- What the scan looks for. -/
abbrev Candidate (c : RamRaidController cfg) (i : Fin cfg.blockCount) : Prop :=
  (c.blocks i).location = .resident

theorem coldest_eq_scan (c : RamRaidController cfg) (h : 0 < cfg.blockCount) :
    c.coldest = ((c.scanOrder h).foldl (Scan.step c.Candidate fun i => (c.blocks i).accessCount)
      (none, 0xFFFFFFFFFFFFFFFF)).1 := by
  rw [coldest, dif_pos h, scanOrder, List.foldl_map]
  rfl

/-- The scan comes by every block. -/
theorem mem_scanOrder (c : RamRaidController cfg) (h : 0 < cfg.blockCount)
    (i : Fin cfg.blockCount) : i ∈ c.scanOrder h := by
  have hstart := Nat.mod_lt c.lruClock.toNat h
  refine List.mem_map.mpr ⟨(i.val + cfg.blockCount - c.lruClock.toNat % cfg.blockCount) %
    cfg.blockCount, List.mem_range.mpr (Nat.mod_lt _ h), Fin.ext ?_⟩
  simp only [scanned]
  rw [Nat.add_mod_mod, ← Nat.add_sub_assoc (by omega), Nat.add_sub_cancel_left,
    Nat.add_mod_right, Nat.mod_eq_of_lt i.isLt]

/-- The victim of the scan: a resident block of least access count, and the first such one from the
clock on. -/
structure Coldest (c : RamRaidController cfg) (v : Fin cfg.blockCount) : Prop where
  resident : (c.blocks v).location = .resident
  least : ∀ i, (c.blocks i).location = .resident →
    (c.blocks v).accessCount ≤ (c.blocks i).accessCount
  first : ∃ k < cfg.blockCount,
    v.val = (c.lruClock.toNat % cfg.blockCount + k) % cfg.blockCount ∧
      ∀ m < k, ∀ i : Fin cfg.blockCount,
        i.val = (c.lruClock.toNat % cfg.blockCount + m) % cfg.blockCount →
          (c.blocks i).location = .resident → (c.blocks v).accessCount < (c.blocks i).accessCount

/-- The victim has an access count below the bound that the scan starts with. -/
structure Victim (c : RamRaidController cfg) (v : Fin cfg.blockCount) : Prop extends
    c.Coldest v where
  below : (c.blocks v).accessCount < 0xFFFFFFFFFFFFFFFF

theorem victim_of_coldest {c : RamRaidController cfg} {v : Fin cfg.blockCount}
    (h : c.coldest = some v) : c.Victim v := by
  have hpos : 0 < cfg.blockCount := Nat.zero_lt_of_lt v.isLt
  rw [coldest_eq_scan c hpos] at h
  obtain ⟨⟨hresident, hleast, before, after, hsplit, hbefore⟩, hbelow⟩ :=
    Scan.firstLeast_of_foldl h
  have hplace : before.length < cfg.blockCount := by
    have hlength := congrArg List.length hsplit
    simp only [scanOrder, List.length_map, List.length_range, List.length_append,
      List.length_cons] at hlength
    omega
  have hscanned : ∀ k < cfg.blockCount, (c.scanOrder hpos)[k]? = some (c.scanned hpos k) := by
    intro k hk
    rw [scanOrder, List.getElem?_map, List.getElem?_range hk, Option.map_some]
  refine ⟨⟨hresident, fun i hi => hleast i (mem_scanOrder c hpos i) hi, before.length, hplace, ?_,
    ?_⟩, hbelow⟩
  · have hv := hscanned before.length hplace
    rw [hsplit, List.getElem?_append_right (Nat.le_refl _), Nat.sub_self,
      List.getElem?_cons_zero] at hv
    rw [Option.some.inj hv]
    rfl
  · intro m hm i hi hres
    refine hbefore i ?_ hres
    have hmth := hscanned m (by omega)
    rw [hsplit, List.getElem?_append_left hm] at hmth
    have hsame : c.scanned hpos m = i := Fin.ext hi.symm
    rw [hsame] at hmth
    exact List.mem_of_getElem? hmth

/-- There is at most one victim. -/
theorem Coldest.unique {c : RamRaidController cfg} {v w : Fin cfg.blockCount} (hv : c.Coldest v)
    (hw : c.Coldest w) : v = w := by
  obtain ⟨k, -, hvk, hfirstv⟩ := hv.first
  obtain ⟨m, -, hwm, hfirstw⟩ := hw.first
  rcases Nat.lt_trichotomy k m with hlt | rfl | hlt
  · have hless := hfirstw k hlt v hvk hv.resident
    exact absurd (Std.lt_of_lt_of_le hless (hv.least w hw.resident)) Std.lt_irrefl
  · exact Fin.ext (hvk.trans hwm.symm)
  · have hless := hfirstv m hlt w hwm hw.resident
    exact absurd (Std.lt_of_lt_of_le hless (hw.least v hv.resident)) Std.lt_irrefl

/-- The scan finds nothing exactly if every resident block is at the bound. -/
theorem coldest_eq_none {c : RamRaidController cfg} :
    c.coldest = none ↔ ∀ i, (c.blocks i).location = .resident →
      0xFFFFFFFFFFFFFFFF ≤ (c.blocks i).accessCount := by
  by_cases hpos : 0 < cfg.blockCount
  · rw [coldest_eq_scan c hpos, Scan.foldl_eq_none_iff]
    exact ⟨fun h i => h i (mem_scanOrder c hpos i), fun h i _ => h i⟩
  · refine iff_of_true (dif_neg hpos) fun i => ?_
    exact absurd (Nat.zero_lt_of_lt i.isLt) hpos

theorem coldest_eq_some_iff {c : RamRaidController cfg} {v : Fin cfg.blockCount} :
    c.coldest = some v ↔ c.Victim v := by
  refine ⟨victim_of_coldest, fun hv => ?_⟩
  cases hcold : c.coldest with
  | none =>
    have hbound := coldest_eq_none.mp hcold v hv.resident
    exact absurd (Std.lt_of_lt_of_le hv.below hbound) Std.lt_irrefl
  | some w => rw [hv.unique (victim_of_coldest hcold).toColdest]

/-- When every access count is below the bound, the scan finds nothing exactly if nothing is
resident. -/
theorem coldest_eq_none_iff {c : RamRaidController cfg}
    (hcounts : ∀ i, (c.blocks i).accessCount < 0xFFFFFFFFFFFFFFFF) :
    c.coldest = none ↔ ∀ i, (c.blocks i).location ≠ .resident := by
  rw [coldest_eq_none]
  refine ⟨fun h i hi => ?_, fun h i hi => absurd hi (h i)⟩
  exact Std.lt_irrefl (Std.lt_of_lt_of_le (hcounts i) (h i hi))

/-! ## Leaving the arena -/

section Leaving

variable (sha256Hex : List UInt8 → String) (remote : Remote)

/-- The block is sent to RAM B when it is evicted dirty (`ram_raid.rs:1111-1112`). -/
abbrev ToRemote (c : RamRaidController cfg) (v : Fin cfg.blockCount) : Prop :=
  cfg.ramBEndpoint.isSome ∧ (c.blocks v).stripe = .ramB

/-- The seal of the dirty data of a block (`ram_raid.rs:1099-1100`). -/
def dirtySeal (b : RaidBlock) : String := simulateEd25519Sign (simulateSha256 (simulatedData b))

/-- The block leaves the arena when it is evicted: a MUX client that has to store it does so. -/
def Leaves (c : RamRaidController cfg) (v : Fin cfg.blockCount) : Prop :=
  (c.blocks v).dirty = true → c.ToRemote v → c.muxClient = true →
    remote.storeBlock v (simulatedData (c.blocks v)) (sha256Hex (simulatedData (c.blocks v)))
      (dirtySeal (c.blocks v)) (c.blocks v).size c.busSeq = .ok ()

/-- A block that has left the arena. -/
def departed (c : RamRaidController cfg) (v : Fin cfg.blockCount) : RaidBlock :=
  let b := c.blocks v
  if b.dirty then
    if c.ToRemote v then
      b.store (remoteLocation cfg c.busSeq) (sha256Hex (simulatedData b)) (dirtySeal b)
    else b.store (localLocation v c.busSeq) (simulateSha256 (simulatedData b)) (dirtySeal b)
  else b.drop v

/-- The bus sequence number after that. -/
def seqAfter (c : RamRaidController cfg) (v : Fin cfg.blockCount) : UInt64 :=
  if (c.blocks v).dirty then c.busSeq + 1 else c.busSeq

/-- The local block store after that. -/
def storeAfter (c : RamRaidController cfg) (v : Fin cfg.blockCount) : Option Cluster.BlockStore :=
  let b := c.blocks v
  if b.dirty ∧ c.ToRemote v ∧ c.muxClient = false then
    c.localBlockStore.map fun store => store.store v (simulatedData b)
      (sha256Hex (simulatedData b)) (dirtySeal b) b.size cfg.fromAint c.busSeq
  else c.localBlockStore

/-- The victim has left the arena. -/
structure Departs (c : RamRaidController cfg) (v : Fin cfg.blockCount)
    (c' : RamRaidController cfg) : Prop where
  blocks : c'.blocks = Function.update c.blocks v (departed sha256Hex c v)
  residentCount : c'.residentCount = c.residentCount - 1
  lruClock : c'.lruClock = UInt64.ofNat (v + 1)
  muxClient : c'.muxClient = c.muxClient
  busSeq : c'.busSeq = c.seqAfter v
  localBlockStore : c'.localBlockStore = storeAfter sha256Hex c v

variable {c : RamRaidController cfg} {v : Fin cfg.blockCount}

/-- Away from the arena a block is clean. -/
theorem departed_away (c : RamRaidController cfg) (v : Fin cfg.blockCount) :
    (departed sha256Hex c v).location ≠ .resident ∧ (departed sha256Hex c v).dirty = false := by
  unfold departed
  by_cases hdirty : (c.blocks v).dirty = true
  · simp only [if_pos hdirty]
    split
    · exact ⟨by simp [RaidBlock.store, remoteLocation], rfl⟩
    · exact ⟨by simp [RaidBlock.store, localLocation], rfl⟩
  · simp only [if_neg hdirty]
    refine ⟨?_, Bool.eq_false_of_not_eq_true hdirty⟩
    simp only [RaidBlock.drop, RaidBlock.dropTarget]
    split
    · simp
    · simp

/-- Storing remotely changes the local store alone, and only if it stands in for RAM B. -/
theorem storeRemote_ok {i : Fin cfg.blockCount} {data : List UInt8} {hash edSeal : String}
    {seq : UInt64} (hstore : c.muxClient = true →
      remote.storeBlock i data hash edSeal (c.blocks i).size seq = .ok ()) :
    storeRemote remote c i data hash edSeal seq =
      ({ c with
          localBlockStore :=
            if c.muxClient = false then
              c.localBlockStore.map fun store =>
                store.store i data hash edSeal (c.blocks i).size cfg.fromAint seq
            else c.localBlockStore }, .ok ()) := by
  unfold storeRemote
  by_cases hmux : c.muxClient = true
  · rw [if_pos hmux, hstore hmux, if_neg (by simp [hmux])]
  · rw [if_neg hmux, if_pos (Bool.eq_false_of_not_eq_true hmux)]
    cases hlocal : c.localBlockStore with
    | none =>
      show (c, Except.ok ()) = ({ c with localBlockStore := none }, Except.ok ())
      rw [← hlocal]
    | some store => rfl

/-- A victim that leaves the arena. -/
theorem evictColdest_leaves (hcold : c.coldest = some v) (hleaves : Leaves sha256Hex remote c v) :
    freed (evictColdest sha256Hex remote c).2 = some v.val ∧
      Departs sha256Hex c v (evictColdest sha256Hex remote c).1 := by
  simp only [evictColdest, hcold, evictVictim]
  by_cases hdirty : (c.blocks v).dirty = true
  · simp only [if_pos hdirty, evictDirty]
    by_cases hremote : c.ToRemote v
    · have hstored := @storeRemote_ok cfg remote
        ({ c with lruClock := UInt64.ofNat (v + 1) } : RamRaidController cfg).nextSeq v _ _ _ _
        (hleaves hdirty hremote)
      simp only [dirtySeal] at hstored
      rw [if_pos hremote, hstored]
      refine ⟨rfl, ?_, rfl, rfl, rfl, ?_, ?_⟩
      · simp only [modifyBlock, nextSeq, departed, if_pos hdirty, if_pos hremote, dirtySeal]
      · simp only [seqAfter, if_pos hdirty, modifyBlock, nextSeq]
      · have hstandsIn : ((c.blocks v).dirty = true ∧ c.ToRemote v ∧ c.muxClient = false) ↔
            c.muxClient = false := by rw [and_iff_right hdirty, and_iff_right hremote]
        simp only [storeAfter, modifyBlock, nextSeq, hstandsIn, dirtySeal]
        congr
    · rw [if_neg hremote]
      refine ⟨rfl, ?_, rfl, rfl, rfl, ?_, ?_⟩
      · simp only [modifyBlock, nextSeq, departed, if_pos hdirty, if_neg hremote, dirtySeal]
      · simp only [seqAfter, if_pos hdirty, modifyBlock, nextSeq]
      · simp [storeAfter, modifyBlock, nextSeq, hremote]
  · simp only [if_neg hdirty, evictClean]
    refine ⟨rfl, ?_, rfl, rfl, rfl, ?_, ?_⟩
    · simp only [modifyBlock, departed, if_neg hdirty]
    · simp only [seqAfter, if_neg hdirty, modifyBlock]
    · simp [storeAfter, modifyBlock, hdirty]

/-- The MUX client refuses a dirty victim: nothing happens but that the clock and the bus sequence
number move on. -/
theorem evictColdest_refused (hcold : c.coldest = some v) (hdirty : (c.blocks v).dirty = true)
    (hremote : c.ToRemote v) (hmux : c.muxClient = true) {e : Cluster.MuxError}
    (hrefused : remote.storeBlock v (simulatedData (c.blocks v))
      (sha256Hex (simulatedData (c.blocks v))) (dirtySeal (c.blocks v)) (c.blocks v).size c.busSeq =
        .error e) :
    ∃ history, evictColdest sha256Hex remote c =
      ({ c with
          busSeq := c.busSeq + 1
          lruClock := UInt64.ofNat (v + 1)
          evictions := history },
        .failed v s!"Remote store failed: {display e}") := by
  simp only [dirtySeal] at hrefused
  refine ⟨c.evictions ++ [⟨v, c.blocks v, .failed v s!"Remote store failed: {display e}",
    (c.blocks v).location⟩], ?_⟩
  simp only [evictColdest, hcold, evictVictim, if_pos hdirty, evictDirty, if_pos hremote,
    storeRemote, nextSeq, hmux, if_true, hrefused]

theorem not_leaves_iff : ¬ Leaves sha256Hex remote c v ↔
    (c.blocks v).dirty = true ∧ c.ToRemote v ∧ c.muxClient = true ∧ ∃ e,
      remote.storeBlock v (simulatedData (c.blocks v)) (sha256Hex (simulatedData (c.blocks v)))
        (dirtySeal (c.blocks v)) (c.blocks v).size c.busSeq = .error e := by
  unfold Leaves
  cases remote.storeBlock v (simulatedData (c.blocks v)) (sha256Hex (simulatedData (c.blocks v)))
    (dirtySeal (c.blocks v)) (c.blocks v).size c.busSeq with
  | ok u => simp
  | error e => simp [ToRemote, and_assoc]

/-- A victim that stays. -/
theorem evictColdest_stays (hcold : c.coldest = some v)
    (hstays : ¬ Leaves sha256Hex remote c v) :
    ∃ history reason, evictColdest sha256Hex remote c =
      ({ c with
          busSeq := c.busSeq + 1
          lruClock := UInt64.ofNat (v + 1)
          evictions := history },
        .failed v reason) := by
  obtain ⟨hdirty, hremote, hmux, e, hrefused⟩ := (not_leaves_iff sha256Hex remote).mp hstays
  obtain ⟨history, heq⟩ :=
    evictColdest_refused sha256Hex remote hcold hdirty hremote hmux hrefused
  exact ⟨history, _, heq⟩

end Leaving

/-! ## Victim selection -/

/-- The block an eviction picked. -/
def picked : EvictionResult → Option Nat
  | .evictedLocal i _ => some i
  | .evictedRemote i _ => some i
  | .dropped i => some i
  | .nothingToEvict => none
  | .failed i _ => some i

/-- The eviction of `v` touches no other entry of the table: `v` leaves the arena and is clean, or
everything stays. -/
structure EvictsOnly (c : RamRaidController cfg) (v : Fin cfg.blockCount)
    (c' : RamRaidController cfg) (result : EvictionResult) : Prop where
  picked : picked result = some v.val
  others : ∀ i, i ≠ v → c'.blocks i = c.blocks i
  success : (freed result).isSome → (c'.blocks v).location ≠ .resident ∧ (c'.blocks v).dirty = false
  failure : freed result = none → c'.blocks = c.blocks
  lruClock : c'.lruClock.toNat = v + 1

variable (sha256Hex : List UInt8 → String) (remote : Remote)

theorem picked_of_freed {result : EvictionResult} {i : Nat} (h : freed result = some i) :
    picked result = some i := by
  cases result with
  | evictedLocal k size => exact h
  | evictedRemote k size => exact h
  | dropped k => exact h
  | nothingToEvict => cases h
  | failed k reason => cases h

/-- The clock behind a block. -/
theorem toNat_clockBehind (v : Fin cfg.blockCount) : (UInt64.ofNat (v + 1)).toNat = v + 1 := by
  have hlt := cfg.blockCount_lt
  have hv := v.isLt
  rw [UInt64.toNat_ofNat']
  exact Nat.mod_eq_of_lt (by omega)

theorem evictColdest_only {c : RamRaidController cfg} {v : Fin cfg.blockCount}
    (hcold : c.coldest = some v) :
    EvictsOnly c v (evictColdest sha256Hex remote c).1 (evictColdest sha256Hex remote c).2 := by
  by_cases hleaves : Leaves sha256Hex remote c v
  · obtain ⟨hfreed, hdeparts⟩ := evictColdest_leaves sha256Hex remote hcold hleaves
    refine ⟨picked_of_freed hfreed, ?_, ?_, ?_, ?_⟩
    · intro i hi
      rw [hdeparts.blocks, Function.update_of_ne hi]
    · intro _
      rw [hdeparts.blocks, Function.update_self]
      exact departed_away sha256Hex c v
    · intro hnone
      rw [hfreed] at hnone
      cases hnone
    · rw [hdeparts.lruClock, toNat_clockBehind]
  · obtain ⟨history, reason, heq⟩ := evictColdest_stays sha256Hex remote hcold hleaves
    rw [heq]
    refine ⟨rfl, fun i _ => rfl, ?_, fun _ => rfl, toNat_clockBehind v⟩
    intro hfreed
    cases hfreed

/-- `evict_coldest` finds nothing exactly if nothing is resident. Otherwise it picks a resident
block of least access count, the first such one from the clock on, changes no other block, and
leaves the clock behind its victim; unless the store of the victim failed, the victim is away and
clean. -/
theorem evicts_coldest (c : RamRaidController cfg)
    (hcounts : ∀ i, (c.blocks i).accessCount < 0xFFFFFFFFFFFFFFFF) :
    ((evictColdest sha256Hex remote c).2 = .nothingToEvict ↔
        ∀ i, (c.blocks i).location ≠ .resident) ∧
      ((∃ i, (c.blocks i).location = .resident) → ∃ v, c.Coldest v ∧
        EvictsOnly c v (evictColdest sha256Hex remote c).1 (evictColdest sha256Hex remote c).2) := by
  have hnone := coldest_eq_none_iff hcounts
  cases hcold : c.coldest with
  | none =>
    have haway := hnone.mp hcold
    refine ⟨iff_of_true ?_ haway, fun ⟨i, hi⟩ => absurd hi (haway i)⟩
    simp only [evictColdest, hcold]
  | some v =>
    have honly := evictColdest_only sha256Hex remote hcold
    have hvictim := victim_of_coldest hcold
    refine ⟨iff_of_false ?_ fun haway => ?_, fun _ => ⟨v, hvictim.toColdest, honly⟩⟩
    · intro hnothing
      have hpicked := honly.picked
      rw [hnothing] at hpicked
      cases hpicked
    · exact haway v hvictim.resident

namespace Demo

theorem oneResident_lt : 1 < 2 ^ 64 := by decide

/-- Two blocks of four bytes, striped over a RAM B. -/
def stripedPair : RaidConfig where
  arenaSize := 8
  blockSize := 4
  maxResidentBlocks := 1
  ramBEndpoint := some "192.168.4.85:4430"
  ramBKernelId := some "kernel_b"
  fromAint := "root_idd.aint"
  arenaSize_lt := by decide
  maxResidentBlocks_lt := oneResident_lt
  blockSize_pos := by decide

/-- SHA-256 of four bytes that a restore or an eviction of `stripedPair` hashes: all 42, or all
zero. -/
def stripedSha256 (data : List UInt8) : String :=
  if data = [42, 42, 42, 42] then
    "69bf0bc46f51b33377c4f3d92caf876714f6bbbe99e7544487327920873f9820"
  else "df3f619804a92fdb4057192dc43dd748ea778adc52bc498ce80524c014b81119"

theorem offline_indices (requests : List (Nat × UInt64)) (results : List (Nat × List UInt8))
    (h : Except.error Cluster.MuxError.notConnected = .ok results) :
    results.map Prod.fst = requests.map Prod.fst := nomatch h

/-- A remote kernel that cannot be reached. -/
def offline : Remote where
  fetchBlock := fun _ _ _ => .error .notConnected
  storeBlock := fun _ _ _ _ _ _ => .error .notConnected
  fetchBatch := fun _ => .error .notConnected
  fetchBatch_indices := offline_indices

/-- Both blocks were written, the first one twice. -/
def written : RamRaidController stripedPair :=
  simulateWrite (simulateWrite (simulateWrite (new stripedPair).withMuxTransport 1 0) 2 0) 3 1

end Demo

open Demo in
/-- The block that was written once is the victim. Its store fails. -/
theorem evicts_coldest_written : ∃ v, written.Coldest v ∧
    EvictsOnly written v (evictColdest stripedSha256 offline written).1
      (evictColdest stripedSha256 offline written).2 :=
  (evicts_coldest stripedSha256 offline written (by decide)).2
    ⟨⟨1, by decide⟩, by decide⟩

end RamRaidController

end Spaceshuttle.Raid
