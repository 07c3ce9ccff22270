import Spaceshuttle.Raid.Accounting

/-!
# Written blocks stay

No operation loses a write: a dirty block is resident until an eviction has stored it, and a block
that was once written keeps a content hash and never becomes virgin again. Batch reads restore
from lists computed before their own evictions, so their chains of changes are found here, from
states in which the invariant holds.
-/

namespace Spaceshuttle.Raid

open RamRaidController

variable {cfg : RaidConfig} (sha256Hex : List UInt8 → String)

/-! ## The invariant -/

/-- Dirty blocks are resident and virgin blocks have no content. -/
structure Sound (c : RamRaidController cfg) : Prop where
  dirty : ∀ i, (c.blocks i).dirty = true → (c.blocks i).location = .resident
  virgin : ∀ i, (c.blocks i).location = .virgin → (c.blocks i).contentHash = none

section Steps

variable {c c' : RamRaidController cfg} {i : Fin cfg.blockCount} {b : RaidBlock}

theorem sound_update (hc : Sound c) (hblocks : c'.blocks = Function.update c.blocks i b)
    (hdirty : b.dirty = true → b.location = .resident)
    (hvirgin : b.location = .virgin → b.contentHash = none) : Sound c' := by
  constructor
  · rw [hblocks]
    refine (Function.forall_update_iff c.blocks
      (fun _ b => b.dirty = true → b.location = .resident)).mpr ⟨hdirty, ?_⟩
    exact fun j _ => hc.dirty j
  · rw [hblocks]
    refine (Function.forall_update_iff c.blocks
      (fun _ b => b.location = .virgin → b.contentHash = none)).mpr ⟨hvirgin, ?_⟩
    exact fun j _ => hc.virgin j

theorem sound_of_blocks (hc : Sound c) (hblocks : c'.blocks = c.blocks) : Sound c' := by
  constructor <;> rw [hblocks]
  · exact hc.dirty
  · exact hc.virgin

theorem step_sound {batch : Bool} (h : Step batch c c') (hc : Sound c) : Sound c' := by
  cases h with
  | quiet h => exact sound_of_blocks hc h.blocks
  | touch i nowNs h => exact sound_update hc h.blocks (hc.dirty i) (hc.virgin i)
  | fill i nowNs hvirgin h => exact sound_update hc h.blocks (fun _ => rfl) (fun h => nomatch h)
  | restore i nowNs haway h => exact sound_update hc h.blocks (fun _ => rfl) (fun h => nomatch h)
  | write i nowNs h => exact sound_update hc h.blocks (fun _ => rfl) (fun h => nomatch h)
  | drop i hresident hclean h =>
    refine sound_update hc h.blocks ?_ ?_
    · intro hdirty
      exact absurd (hclean.symm.trans hdirty) (by simp)
    · intro hvirgin
      simp only [RaidBlock.drop, RaidBlock.dropTarget] at hvirgin ⊢
      split at hvirgin
      · cases hvirgin
      · next hnone => exact Option.not_isSome_iff_eq_none.mp hnone
  | store i location hash edSeal result hresident hdirty hplaced h =>
    apply sound_update hc h.blocks (fun h => nomatch h)
    intro hvirgin
    cases hplaced <;> cases hvirgin
  | stuck i reason hblocks => exact sound_of_blocks hc hblocks
  | refill i nowNs hbatch hresident hclean hhash h =>
    exact sound_update hc h.blocks (fun _ => rfl) (fun h => nomatch h)
  | rerestore i nowNs hbatch hresident hclean h =>
    exact sound_update hc h.blocks (fun _ => rfl) (fun h => nomatch h)

theorem Trace.sound {batch : Bool} (h : Trace batch c c') (hc : Sound c) : Sound c' :=
  Trace.invariant (fun _ _ hs => step_sound hs) h hc

/-- A content hash is never taken away. -/
theorem step_contentHash {batch : Bool} (h : Step batch c c') (j : Fin cfg.blockCount)
    (hj : (c.blocks j).contentHash.isSome) : (c'.blocks j).contentHash.isSome := by
  have hupdate : ∀ {i b}, c'.blocks = Function.update c.blocks i b →
      ((c.blocks i).contentHash.isSome → b.contentHash.isSome) →
      (c'.blocks j).contentHash.isSome := by
    intro i b hblocks hb
    rw [hblocks]
    by_cases hji : j = i
    · subst hji
      rw [Function.update_self]
      exact hb hj
    · rw [Function.update_of_ne hji]
      exact hj
  cases h with
  | quiet h => rwa [h.blocks]
  | touch i nowNs h => exact hupdate h.blocks id
  | fill i nowNs hvirgin h => exact hupdate h.blocks id
  | restore i nowNs haway h => exact hupdate h.blocks id
  | write i nowNs h => exact hupdate h.blocks (fun _ => rfl)
  | drop i hresident hclean h => exact hupdate h.blocks id
  | store i location hash edSeal result hresident hdirty hplaced h =>
    exact hupdate h.blocks (fun _ => rfl)
  | stuck i reason hblocks => rwa [hblocks]
  | refill i nowNs hbatch hresident hclean hhash h => exact hupdate h.blocks id
  | rerestore i nowNs hbatch hresident hclean h => exact hupdate h.blocks id

theorem trace_contentHash {batch : Bool} (h : Trace batch c c') (j : Fin cfg.blockCount)
    (hj : (c.blocks j).contentHash.isSome) : (c'.blocks j).contentHash.isSome :=
  Trace.invariant (p := fun c => (c.blocks j).contentHash.isSome)
    (fun _ _ hs => step_contentHash hs j) h hj

end Steps

/-! ## Batch reads -/

section Batch

variable (remote : Remote)

theorem touch_trace (nowNs : UInt64) (c : RamRaidController cfg) (i : Fin cfg.blockCount) :
    Trace false c (c.modifyBlock i (fun b => b.touch nowNs)) :=
  .single (.touch i nowNs ⟨rfl, rfl, rfl, rfl⟩)

/-- A block on the zero-fill list: virgin, or filled already by an earlier occurrence. -/
def Fillable (c : RamRaidController cfg) (i : Fin cfg.blockCount) : Prop :=
  ((c.blocks i).location = .virgin ∨ (c.blocks i).location = .resident) ∧
    (c.blocks i).dirty = false ∧ (c.blocks i).contentHash = none

theorem fillVirgin_trace {c : RamRaidController cfg} {i : Fin cfg.blockCount} (h : Fillable c i)
    (nowNs : UInt64) : Trace true c (c.fillVirgin i nowNs) := by
  obtain ⟨hloc | hloc, hclean, hhash⟩ := h
  · exact .single (.fill i nowNs hloc ⟨rfl, rfl, rfl, rfl⟩)
  · exact .single (.refill i nowNs rfl hloc hclean hhash ⟨rfl, rfl, rfl, rfl⟩)

theorem Fillable.fill {c : RamRaidController cfg} {j : Fin cfg.blockCount} (h : Fillable c j)
    (i : Fin cfg.blockCount) (nowNs : UInt64) : Fillable (c.fillVirgin i nowNs) j := by
  unfold Fillable fillVirgin modifyBlock
  simp only
  by_cases hji : j = i
  · subst hji
    rw [Function.update_self]
    exact ⟨.inr rfl, h.2.1, h.2.2⟩
  · rw [Function.update_of_ne hji]
    exact h

theorem fillAll_trace (nowNs : UInt64) (is : List (Fin cfg.blockCount)) {c : RamRaidController cfg}
    (h : ∀ i ∈ is, Fillable c i) :
    Trace true c (forBlocks (fun c i => (c.fillVirgin i nowNs, .zeroFilled i)) c is).1 := by
  induction is generalizing c with
  | nil => exact .refl
  | cons i is ih =>
    refine (fillVirgin_trace (h i (by simp)) nowNs).trans (ih ?_)
    intro j hj
    exact (h j (by simp [hj])).fill i nowNs

/-- A fetched block is restored whether it is still away or came back by an earlier occurrence;
either way it is clean. -/
theorem batchArrive_trace {c : RamRaidController cfg} {i : Fin cfg.blockCount}
    (hclean : (c.blocks i).dirty = false) (nowNs : UInt64) (data : List UInt8) :
    Trace true c (batchArrive sha256Hex nowNs c i data).1 := by
  have harrive : Trace true c (c.arriveRemote i nowNs data.length) := by
    by_cases hres : (c.blocks i).location = .resident
    · exact .single (.rerestore i nowNs rfl hres hclean ⟨rfl, rfl, rfl, rfl⟩)
    · exact .single (.restore i nowNs hres ⟨rfl, rfl, rfl, rfl⟩)
  unfold batchArrive
  split
  · split
    · exact .refl
    · exact harrive
  · exact harrive

theorem batchArrive_clean {c : RamRaidController cfg} {j : Fin cfg.blockCount}
    (hj : (c.blocks j).dirty = false) (nowNs : UInt64) (i : Fin cfg.blockCount)
    (data : List UInt8) : ((batchArrive sha256Hex nowNs c i data).1.blocks j).dirty = false := by
  have harrive : ((c.arriveRemote i nowNs data.length).blocks j).dirty = false := by
    unfold arriveRemote modifyBlock
    simp only
    by_cases hji : j = i
    · subst hji
      rw [Function.update_self]
      rfl
    · rw [Function.update_of_ne hji]
      exact hj
  unfold batchArrive
  split
  · split
    · exact hj
    · exact harrive
  · exact harrive

theorem batchArriveAll_trace (nowNs : UInt64) (fetched : List (Nat × List UInt8))
    {c : RamRaidController cfg}
    (h : ∀ e ∈ fetched, ∀ hlt : e.1 < cfg.blockCount, (c.blocks ⟨e.1, hlt⟩).dirty = false) :
    Trace true c (batchArriveAll sha256Hex nowNs c fetched).1 := by
  induction fetched generalizing c with
  | nil => exact .refl
  | cons e fetched ih =>
    obtain ⟨k, data⟩ := e
    unfold batchArriveAll
    split
    · next hlt =>
      refine (batchArrive_trace sha256Hex (h (k, data) (by simp) hlt) nowNs data).trans (ih ?_)
      intro e he hlt'
      exact batchArrive_clean sha256Hex (h e (by simp [he]) hlt') nowNs _ data
    · exact .refl

theorem batchRestoreRemote_trace (nowNs : UInt64) (is : List (Fin cfg.blockCount))
    {c : RamRaidController cfg} (h : ∀ i ∈ is, (c.blocks i).dirty = false) :
    Trace true c (batchRestoreRemote sha256Hex remote c nowNs is).1 := by
  unfold batchRestoreRemote
  simp only
  refine .head (b := { c with busSeq := c.busSeq + UInt64.ofNat is.length })
    (.quiet ⟨rfl, rfl, rfl, rfl⟩) ?_
  split
  · split
    · next fetched hfetched =>
      apply batchArriveAll_trace sha256Hex nowNs fetched
      intro e he hlt
      -- The entries of the answer are those of the request list.
      have hmem : e.1 ∈ fetched.map Prod.fst := List.mem_map_of_mem he
      rw [remote.fetchBatch_indices _ _ hfetched, List.mem_map] at hmem
      obtain ⟨request, hrequest, hfst⟩ := hmem
      obtain ⟨k, hk, rfl⟩ := List.mem_mapIdx.mp hrequest
      have hi : (⟨e.1, hlt⟩ : Fin cfg.blockCount) = is[k] := Fin.ext hfst.symm
      rw [hi]
      exact h is[k] (List.getElem_mem hk)
    · exact .refl
  · exact Trace.mono (forBlocks_trace (fun c i => restoreBlock_trace sha256Hex remote c i nowNs) is _)
      true

/-- A loop whose answers do not depend on the state. -/
theorem forBlocks_results {f : RamRaidController cfg → Fin cfg.blockCount → RamRaidController cfg}
    {g : Fin cfg.blockCount → FaultResult} (is : List (Fin cfg.blockCount))
    (c : RamRaidController cfg) : (forBlocks (fun c i => (f c i, g i)) c is).2 = is.map g := by
  induction is generalizing c with
  | nil => rfl
  | cons i is ih => exact congrArg (g i :: ·) (ih (f c i))

theorem isVirgin_iff (l : BlockLocation) : isVirgin l = true ↔ l = .virgin := by
  cases l <;> simp [isVirgin]

theorem mem_partition {c : RamRaidController cfg} {blockIndices : List Nat}
    {kind : BlockLocation → Bool} {i : Fin cfg.blockCount}
    (h : i ∈ c.partition blockIndices kind) : kind (c.blocks i).location = true := by
  obtain ⟨idx, -, hidx⟩ := List.mem_filterMap.mp h
  split at hidx
  · split at hidx
    · next hkind =>
      obtain rfl := Option.some.inj hidx
      exact hkind
    · cases hidx
  · cases hidx

/-- The states between the loops of `simulate_read_batch`: after the evictions and the touched
blocks, after the zero-filled blocks and after the blocks of the local store. -/
structure BatchPhases (c : RamRaidController cfg) (nowNs : UInt64) (blockIndices : List Nat)
    (c₁ c₂ c₃ : RamRaidController cfg) : Prop where
  touched : Trace true c c₁
  away : ∀ i, (c.blocks i).location ≠ .resident → c₁.blocks i = c.blocks i
  filled : c₂ = (forBlocks (fun c i => (c.fillVirgin i nowNs, .zeroFilled i)) c₁
    (c.partition blockIndices isVirgin)).1
  restored : c₃ = (forBlocks (fun c i => restoreBlock sha256Hex remote c i nowNs) c₂
    (c.partition blockIndices isLocal)).1

/-- The number of evictions of `simulate_read_batch` (`ram_raid.rs:1302-1306`). -/
def slotsNeeded (c : RamRaidController cfg) (blockIndices : List Nat) : Nat :=
  (c.partition blockIndices isLocal).length + (c.partition blockIndices isRemote).length +
      (c.partition blockIndices isVirgin).length -
    (cfg.maxResidentBlocks - c.residentCount.toNat)

/-- Room has been made, and the blocks found resident have been touched. -/
def roomMade (c : RamRaidController cfg) (nowNs : UInt64) (blockIndices : List Nat) :
    RamRaidController cfg :=
  (forBlocks (fun c i => (c.modifyBlock i (fun b => b.touch nowNs), .alreadyResident i))
    (evictTimes sha256Hex remote (slotsNeeded c blockIndices) c)
    (c.partition blockIndices isResident)).1

theorem roomMade_trace (c : RamRaidController cfg) (nowNs : UInt64) (blockIndices : List Nat) :
    Trace false c (roomMade sha256Hex remote c nowNs blockIndices) :=
  (evictTimes_trace sha256Hex remote _ c).trans (forBlocks_trace (touch_trace nowNs) _ _)

theorem simulateReadBatch_phases (c : RamRaidController cfg) (nowNs : UInt64)
    (blockIndices : List Nat) :
    let c₁ := roomMade sha256Hex remote c nowNs blockIndices
    ∃ c₂ c₃, BatchPhases sha256Hex remote c nowNs blockIndices c₁ c₂ c₃ ∧
      let fetched :=
        if (c.partition blockIndices isRemote).isEmpty then (c₃, [])
        else batchRestoreRemote sha256Hex remote c₃ nowNs (c.partition blockIndices isRemote)
      simulateReadBatch sha256Hex remote c nowNs blockIndices = (fetched.1,
        (c.partition blockIndices isResident).map (fun i => .alreadyResident i) ++
        (c.partition blockIndices isVirgin).map (fun i => .zeroFilled i) ++
        (forBlocks (fun c i => restoreBlock sha256Hex remote c i nowNs) c₂
          (c.partition blockIndices isLocal)).2 ++ fetched.2) := by
  intro c₁
  refine ⟨_, _, ⟨?_, ?_, rfl, rfl⟩, ?_⟩
  · exact Trace.mono (roomMade_trace sha256Hex remote c nowNs blockIndices) true
  · intro i hi
    have hout : i ∉ c.partition blockIndices isResident := by
      intro hmem
      exact hi ((isResident_iff _).mp (mem_partition hmem))
    exact (forBlocks_changesOnly (fun _ _ => changesOnly_update rfl) _ _ hout).trans
      (evictTimes_away sha256Hex remote _ c hi)
  · rw [← forBlocks_results (f := fun c i => c.modifyBlock i (fun b => b.touch nowNs))
        (c.partition blockIndices isResident)
        (evictTimes sha256Hex remote (slotsNeeded c blockIndices) c),
      ← forBlocks_results (f := fun c i => c.fillVirgin i nowNs)
        (c.partition blockIndices isVirgin) c₁]
    rfl

section Phases

variable {remote}
variable {c c₁ c₂ c₃ : RamRaidController cfg} {nowNs : UInt64} {blockIndices : List Nat}

theorem BatchPhases.filled_trace (h : BatchPhases sha256Hex remote c nowNs blockIndices c₁ c₂ c₃)
    (hc : Sound c) : Trace true c c₂ := by
  apply h.touched.trans
  rw [h.filled]
  apply fillAll_trace nowNs _
  intro i hi
  have hvirgin : (c.blocks i).location = .virgin := (isVirgin_iff _).mp (mem_partition hi)
  have hclean : (c.blocks i).dirty = false := by
    by_contra hdirty
    have hres := hc.dirty i (by simpa using hdirty)
    rw [hvirgin] at hres
    cases hres
  unfold Fillable
  rw [h.away i (by simp [hvirgin])]
  exact ⟨.inl hvirgin, hclean, hc.virgin i hvirgin⟩

theorem BatchPhases.restored_trace (h : BatchPhases sha256Hex remote c nowNs blockIndices c₁ c₂ c₃)
    (hc : Sound c) : Trace true c c₃ := by
  apply (h.filled_trace sha256Hex hc).trans
  rw [h.restored]
  exact Trace.mono
    (forBlocks_trace (fun c i => restoreBlock_trace sha256Hex remote c i nowNs) _ _) true

/-- The blocks to fetch from RAM B are still as they were when the lists were made. -/
theorem BatchPhases.remote_away (h : BatchPhases sha256Hex remote c nowNs blockIndices c₁ c₂ c₃)
    {i : Fin cfg.blockCount} (hi : i ∈ c.partition blockIndices isRemote) :
    c₃.blocks i = c.blocks i := by
  have hkind : isRemote (c.blocks i).location = true := mem_partition hi
  have hvirgin : i ∉ c.partition blockIndices isVirgin := by
    intro hmem
    rw [(isVirgin_iff _).mp (mem_partition hmem)] at hkind
    cases hkind
  have hlocal : i ∉ c.partition blockIndices isLocal := by
    intro hmem
    have hloc := mem_partition hmem
    revert hkind hloc
    cases (c.blocks i).location <;> simp [isRemote, isLocal]
  have haway : (c.blocks i).location ≠ .resident := by
    intro hres
    rw [hres] at hkind
    cases hkind
  rw [h.restored, forBlocks_changesOnly
      (fun c i => restoreBlock_changesOnly sha256Hex remote c i nowNs) _ _ hlocal,
    h.filled, forBlocks_changesOnly (fun _ _ => changesOnly_update rfl) _ _ hvirgin, h.away i haway]

theorem simulateReadBatch_trace (hc : Sound c) (nowNs : UInt64) (blockIndices : List Nat) :
    Trace true c (simulateReadBatch sha256Hex remote c nowNs blockIndices).1 := by
  obtain ⟨c₂, c₃, hphases, heq⟩ :=
    simulateReadBatch_phases sha256Hex remote c nowNs blockIndices
  rw [heq]
  have htrace := hphases.restored_trace sha256Hex hc
  simp only
  split
  · exact htrace
  · refine htrace.trans (batchRestoreRemote_trace sha256Hex remote nowNs _ ?_)
    intro i hi
    rw [hphases.remote_away sha256Hex hi]
    by_contra hdirty
    have hkind : isRemote (c.blocks i).location = true := mem_partition hi
    rw [hc.dirty i (by simpa using hdirty)] at hkind
    cases hkind

end Phases

theorem prefetch_trace {c : RamRaidController cfg} (hc : Sound c) (nowNs : UInt64)
    (blockIndices : List Nat) :
    Trace true c (prefetch sha256Hex remote c nowNs blockIndices).1 := by
  unfold prefetch
  simp only
  split
  · exact .refl
  · exact simulateReadBatch_trace sha256Hex hc nowNs _

end Batch

theorem exec_trace {c : RamRaidController cfg} (hc : Sound c) (r : Request) :
    Trace true c (exec sha256Hex c r).1 := by
  by_cases hr : r.op.isBatch = true
  · obtain ⟨op, nowNs, remote⟩ := r
    cases op with
    | simulateReadBatch blockIndices =>
      exact simulateReadBatch_trace sha256Hex hc nowNs blockIndices
    | prefetch blockIndices => exact prefetch_trace sha256Hex remote hc nowNs blockIndices
    | _ => cases hr
  · exact Trace.mono (exec_trace_single sha256Hex c (by simpa using hr)) true

theorem exec_sound {c : RamRaidController cfg} (hc : Sound c) (r : Request) :
    Sound (exec sha256Hex c r).1 :=
  Trace.sound (exec_trace sha256Hex hc r) hc

theorem run_sound {c : RamRaidController cfg} (hc : Sound c) (rs : List Request) :
    Sound (Machine.run (exec sha256Hex) c rs) :=
  Machine.run_keeps (p := Sound) (fun _ r hc => exec_sound sha256Hex hc r) hc rs

theorem run_contentHash {c : RamRaidController cfg} (hc : Sound c) (rs : List Request)
    {i : Fin cfg.blockCount} (hi : (c.blocks i).contentHash.isSome) :
    ((Machine.run (exec sha256Hex) c rs).blocks i).contentHash.isSome := by
  have hkeeps : ∀ (c : RamRaidController cfg) (r : Request),
      (Sound c ∧ (c.blocks i).contentHash.isSome) →
      Sound (exec sha256Hex c r).1 ∧ ((exec sha256Hex c r).1.blocks i).contentHash.isSome := by
    intro c r ⟨hc, hi⟩
    exact ⟨exec_sound sha256Hex hc r, trace_contentHash (exec_trace sha256Hex hc r) i hi⟩
  exact (Machine.run_keeps hkeeps ⟨hc, hi⟩ rs).2

/-! ## Cleaning -/

/-- The block an eviction stored away with its data, if it stored one. -/
def storedAway : EvictionResult → Option Nat
  | .evictedLocal i _ => some i
  | .evictedRemote i _ => some i
  | _ => none

/-- The eviction found block `i` dirty and stored it. -/
structure Eviction.Stores {n : Nat} (e : Eviction n) (i : Fin n) : Prop where
  block : e.block = i
  dirty : e.before.dirty = true
  stored : storedAway e.result = some i.val

section Cleaning

variable {c c' : RamRaidController cfg} {i : Fin cfg.blockCount} {batch : Bool}

/-- The history of evictions only grows. -/
theorem step_evictions (h : Step batch c c') : ∃ new, c'.evictions = c.evictions ++ new := by
  cases h with
  | quiet h => exact ⟨[], by rw [h.evictions, List.append_nil]⟩
  | touch i nowNs h => exact ⟨[], by rw [h.evictions, List.append_nil]⟩
  | fill i nowNs hvirgin h => exact ⟨[], by rw [h.evictions, List.append_nil]⟩
  | restore i nowNs haway h => exact ⟨[], by rw [h.evictions, List.append_nil]⟩
  | write i nowNs h => exact ⟨[], by rw [h.evictions, List.append_nil]⟩
  | drop i hresident hclean h => exact ⟨_, h.evictions⟩
  | store i location hash edSeal result hresident hdirty hplaced h => exact ⟨_, h.evictions⟩
  | stuck i reason hblocks hcount hperformed hevictions => exact ⟨_, hevictions⟩
  | refill i nowNs hbatch hresident hclean hhash h =>
    exact ⟨[], by rw [h.evictions, List.append_nil]⟩
  | rerestore i nowNs hbatch hresident hclean h =>
    exact ⟨[], by rw [h.evictions, List.append_nil]⟩

theorem trace_evictions (h : Trace batch c c') : ∃ new, c'.evictions = c.evictions ++ new := by
  induction h with
  | refl => exact ⟨[], by simp⟩
  | tail _ hs ih =>
    obtain ⟨old, hold⟩ := ih
    obtain ⟨new, hnew⟩ := step_evictions hs
    exact ⟨old ++ new, by rw [hnew, hold, List.append_assoc]⟩

/-- The only change that cleans a dirty block stores it. -/
theorem step_cleaned (h : Step batch c c') (hc : Sound c) (hi : (c.blocks i).dirty = true)
    (hi' : (c'.blocks i).dirty = false) :
    ∃ e, c'.evictions = c.evictions ++ [e] ∧ e.Stores i := by
  -- A change of another block, or one that keeps the flag, cannot clean this block.
  have hkept : ∀ {k b}, c'.blocks = Function.update c.blocks k b →
      (k = i → b.dirty = true) → False := by
    intro k b hblocks hb
    rw [hblocks] at hi'
    by_cases hik : i = k
    · rw [hik, Function.update_self, hb hik.symm] at hi'
      cases hi'
    · rw [Function.update_of_ne hik, hi] at hi'
      cases hi'
  have hres : (c.blocks i).location = .resident := hc.dirty i hi
  cases h with
  | quiet h =>
    rw [h.blocks, hi] at hi'
    cases hi'
  | stuck k reason hblocks =>
    rw [hblocks, hi] at hi'
    cases hi'
  | touch k nowNs h => exact (hkept h.blocks (fun hk => hk ▸ hi)).elim
  | fill k nowNs hvirgin h => exact (hkept h.blocks (fun hk => hk ▸ hi)).elim
  | write k nowNs h => exact (hkept h.blocks (fun _ => rfl)).elim
  | drop k hresident hclean h => exact (hkept h.blocks (fun hk => hk ▸ hi)).elim
  | refill k nowNs hbatch hresident hclean hhash h =>
    exact (hkept h.blocks (fun hk => hk ▸ hi)).elim
  | restore k nowNs haway h =>
    refine (hkept h.blocks ?_).elim
    rintro rfl
    exact absurd hres haway
  | rerestore k nowNs hbatch hresident hclean h =>
    refine (hkept h.blocks ?_).elim
    rintro rfl
    exact absurd (hclean.symm.trans hi) (by simp)
  | store k location hash edSeal result hresident hdirty hplaced h =>
    by_cases hki : k = i
    · subst hki
      refine ⟨_, h.evictions, rfl, hdirty, ?_⟩
      cases hplaced <;> rfl
    · exact (hkept h.blocks (fun hk => absurd hk hki)).elim

theorem trace_cleaned (h : Trace batch c c') (hc : Sound c) (hi : (c.blocks i).dirty = true)
    (hi' : (c'.blocks i).dirty = false) :
    ∃ new, c'.evictions = c.evictions ++ new ∧ ∃ e ∈ new, e.Stores i := by
  induction h with
  | refl =>
    rw [hi] at hi'
    cases hi'
  | @tail c₁ c' htrace hs ih =>
    by_cases hmid : (c₁.blocks i).dirty = true
    · obtain ⟨old, hold⟩ := trace_evictions htrace
      obtain ⟨e, he, hstores⟩ := step_cleaned hs (Trace.sound htrace hc) hmid hi'
      exact ⟨old ++ [e], by rw [he, hold, List.append_assoc], e, by simp, hstores⟩
    · obtain ⟨old, hold, e, he, hstores⟩ := ih (by simpa using hmid)
      obtain ⟨new, hnew⟩ := step_evictions hs
      exact ⟨old ++ new, by rw [hnew, hold, List.append_assoc], e, by simp [he], hstores⟩

end Cleaning

/-! ## Zero-filled answers -/

/-- The fault results an operation returns. -/
def Outcome.faultResults : Outcome → List FaultResult
  | .fault result => [result]
  | .production result _ => [result]
  | .faults results => results
  | _ => []

section ZeroFilled

variable (remote : Remote)

theorem restoreBlock_zeroFilled {c : RamRaidController cfg} {i : Fin cfg.blockCount}
    {nowNs : UInt64} {k : Nat} (h : (restoreBlock sha256Hex remote c i nowNs).2 = .zeroFilled k) :
    k = i ∧ (c.blocks i).location = .virgin := by
  unfold restoreBlock at h
  cases hloc : (c.blocks i).location with
  | virgin =>
    rw [hloc] at h
    exact ⟨(FaultResult.zeroFilled.inj h).symm, rfl⟩
  | resident =>
    rw [hloc] at h
    cases h
  | localStore path token =>
    rw [hloc] at h
    cases h
  | fetching =>
    rw [hloc] at h
    cases h
  | remoteKernel kernelId endpoint token =>
    rw [hloc] at h
    simp only at h
    -- A remote block is restored or fails, whatever was fetched.
    rcases hfetch : fetchRemote remote c.nextSeq i (c.blocks i).contentHash c.busSeq with
      ⟨c₁, reason | _ | data⟩
    · rw [hfetch] at h
      cases h
    · rw [hfetch] at h
      cases h
    · rw [hfetch] at h
      cases hhash : (c.blocks i).contentHash with
      | none =>
        rw [hhash] at h
        cases h
      | some expected =>
        rw [hhash] at h
        simp only at h
        split at h <;> cases h

theorem restoreBlockInner_zeroFilled {c : RamRaidController cfg} {i : Fin cfg.blockCount}
    {nowNs : UInt64} {k : Nat}
    (h : (restoreBlockInner sha256Hex remote c i nowNs).2.1 = .zeroFilled k) :
    k = i ∧ (c.blocks i).location = .virgin := by
  unfold restoreBlockInner at h
  cases hloc : (c.blocks i).location with
  | virgin =>
    rw [hloc] at h
    exact ⟨(FaultResult.zeroFilled.inj h).symm, rfl⟩
  | resident =>
    rw [hloc] at h
    cases h
  | localStore path token =>
    rw [hloc] at h
    obtain ⟨-, hvirgin⟩ := restoreBlock_zeroFilled sha256Hex remote h
    rw [hloc] at hvirgin
    cases hvirgin
  | fetching =>
    rw [hloc] at h
    cases h
  | remoteKernel kernelId endpoint token =>
    rw [hloc] at h
    simp only at h
    split at h
    · cases h
    · split at h
      · split at h <;> cases h
      · cases h

theorem batchArriveAll_not_zeroFilled (nowNs : UInt64) (fetched : List (Nat × List UInt8))
    (c : RamRaidController cfg) (k : Nat) :
    .zeroFilled k ∉ (batchArriveAll sha256Hex nowNs c fetched).2 := by
  induction fetched generalizing c with
  | nil => simp [batchArriveAll]
  | cons e fetched ih =>
    unfold batchArriveAll
    split
    · next hlt =>
      have hhead : (batchArrive sha256Hex nowNs c ⟨e.1, hlt⟩ e.2).2 ≠ .zeroFilled k := by
        unfold batchArrive
        split
        · split <;> simp
        · simp
      simp only [List.mem_cons, not_or]
      exact ⟨hhead.symm, ih _⟩
    · simp

/-- A block that is found virgin on the way of an operation had no content at its start. -/
theorem contentHash_none_of_trace {c c' : RamRaidController cfg} (hc : Sound c)
    (h : Trace true c c') {i : Fin cfg.blockCount} (hi : (c'.blocks i).location = .virgin) :
    (c.blocks i).contentHash = none := by
  by_contra hsome
  have hkept := trace_contentHash h i (Option.isSome_iff_ne_none.mpr hsome)
  rw [(Trace.sound h hc).virgin i hi] at hkept
  cases hkept

theorem batchRestoreRemote_zeroFilled {c : RamRaidController cfg} (hc : Sound c) (nowNs : UInt64)
    (is : List (Fin cfg.blockCount)) {k : Nat}
    (h : .zeroFilled k ∈ (batchRestoreRemote sha256Hex remote c nowNs is).2) :
    ∃ i : Fin cfg.blockCount, k = i ∧ (c.blocks i).contentHash = none := by
  unfold batchRestoreRemote at h
  simp only at h
  split at h
  · split at h
    · exact absurd h (batchArriveAll_not_zeroFilled sha256Hex nowNs _ _ k)
    · simp at h
  · obtain ⟨c₁, i, htrace, -, hresult⟩ :=
      mem_forBlocks (fun c i => restoreBlock_trace sha256Hex remote c i nowNs) h
    obtain ⟨hk, hvirgin⟩ := restoreBlock_zeroFilled sha256Hex remote hresult
    refine ⟨i, hk, contentHash_none_of_trace hc ?_ hvirgin⟩
    refine .head ?_ (Trace.mono htrace true)
    exact .quiet ⟨rfl, rfl, rfl, rfl⟩

theorem simulateReadBatch_zeroFilled {c : RamRaidController cfg} (hc : Sound c) (nowNs : UInt64)
    (blockIndices : List Nat) {k : Nat}
    (h : .zeroFilled k ∈ (simulateReadBatch sha256Hex remote c nowNs blockIndices).2) :
    ∃ i : Fin cfg.blockCount, k = i ∧ (c.blocks i).contentHash = none := by
  obtain ⟨c₂, c₃, hphases, heq⟩ :=
    simulateReadBatch_phases sha256Hex remote c nowNs blockIndices
  rw [heq] at h
  simp only [List.mem_append, List.mem_map] at h
  rcases h with ((⟨i, -, hi⟩ | ⟨i, hi, heq⟩) | h) | h
  · cases hi
  · have hvirgin := (isVirgin_iff _).mp (mem_partition hi)
    exact ⟨i, (FaultResult.zeroFilled.inj heq).symm, hc.virgin i hvirgin⟩
  · obtain ⟨d, i, htrace, -, hresult⟩ :=
      mem_forBlocks (fun c i => restoreBlock_trace sha256Hex remote c i nowNs) h
    obtain ⟨hk, hvirgin⟩ := restoreBlock_zeroFilled sha256Hex remote hresult
    refine ⟨i, hk, contentHash_none_of_trace hc ?_ hvirgin⟩
    exact (hphases.filled_trace sha256Hex hc).trans (Trace.mono htrace true)
  · have htrace := hphases.restored_trace sha256Hex hc
    split at h
    · simp at h
    · obtain ⟨i, hk, hnone⟩ :=
        batchRestoreRemote_zeroFilled sha256Hex remote (Trace.sound htrace hc) nowNs _ h
      refine ⟨i, hk, ?_⟩
      by_contra hsome
      have hkept := trace_contentHash htrace i (Option.isSome_iff_ne_none.mpr hsome)
      rw [hnone] at hkept
      cases hkept

theorem handleFault_zeroFilled {c : RamRaidController cfg} (hc : Sound c) (nowNs : UInt64)
    (faultAddr : Nat) {k : Nat}
    (h : (handleFault sha256Hex remote c nowNs faultAddr).2 = .zeroFilled k) :
    ∃ i : Fin cfg.blockCount, k = i ∧ (c.blocks i).contentHash = none := by
  unfold handleFault at h
  simp only at h
  split at h
  · split at h
    · split at h <;> cases h
    · obtain ⟨hk, hvirgin⟩ := restoreBlock_zeroFilled sha256Hex remote h
      exact ⟨_, hk, hc.virgin _ hvirgin⟩
  · cases h

theorem handleFaultProduction_zeroFilled {c : RamRaidController cfg} (hc : Sound c)
    (nowNs : UInt64) (faultAddr : Nat) {k : Nat}
    (h : (handleFaultProduction sha256Hex remote c nowNs faultAddr).2.1 = .zeroFilled k) :
    ∃ i : Fin cfg.blockCount, k = i ∧ (c.blocks i).contentHash = none := by
  unfold handleFaultProduction at h
  simp only at h
  split at h
  · next hlt =>
    obtain ⟨hk, hvirgin⟩ := restoreBlockInner_zeroFilled sha256Hex remote h
    refine ⟨_, hk, contentHash_none_of_trace hc ?_ hvirgin⟩
    split
    · exact Trace.mono (evictColdest_trace sha256Hex remote c) true
    · exact .refl
  · cases h

theorem simulateRead_zeroFilled {c : RamRaidController cfg} (hc : Sound c) (nowNs : UInt64)
    (blockIdx : Nat) {k : Nat}
    (h : (simulateRead sha256Hex remote c nowNs blockIdx).2 = .zeroFilled k) :
    ∃ i : Fin cfg.blockCount, k = i ∧ (c.blocks i).contentHash = none := by
  unfold simulateRead at h
  split at h
  · simp only at h
    split at h
    · cases h
    · exact handleFault_zeroFilled sha256Hex remote hc nowNs _ h
  · cases h

end ZeroFilled

/-- Zeros are only ever the answer for a block that had no content when the operation began. -/
theorem exec_zeroFilled {c : RamRaidController cfg} (hc : Sound c) (r : Request) {k : Nat}
    (h : .zeroFilled k ∈ (exec sha256Hex c r).2.faultResults) :
    ∃ i : Fin cfg.blockCount, k = i ∧ (c.blocks i).contentHash = none := by
  obtain ⟨op, nowNs, remote⟩ := r
  cases op with
  | handleFault faultAddr =>
    exact handleFault_zeroFilled sha256Hex remote hc nowNs faultAddr (List.mem_singleton.mp h).symm
  | handleFaultProduction faultAddr =>
    exact handleFaultProduction_zeroFilled sha256Hex remote hc nowNs faultAddr
      (List.mem_singleton.mp h).symm
  | simulateRead blockIdx =>
    exact simulateRead_zeroFilled sha256Hex remote hc nowNs blockIdx (List.mem_singleton.mp h).symm
  | simulateReadBatch blockIndices =>
    exact simulateReadBatch_zeroFilled sha256Hex remote hc nowNs blockIndices h
  | evictColdest => cases h
  | proactiveEvict => cases h
  | simulateWrite blockIdx => cases h
  | prefetch blockIndices => cases h

/-! ## Over runs -/

theorem start_sound (cfg : RaidConfig) (muxClient : Bool)
    (localBlockStore : Option Cluster.BlockStore) :
    Sound (start cfg muxClient localBlockStore) := by
  rw [start_eq]
  exact ⟨fun _ h => (nomatch h), fun _ _ => rfl⟩

theorem simulateWrite_contentHash (c : RamRaidController cfg) (nowNs : UInt64)
    (i : Fin cfg.blockCount) : ((simulateWrite c nowNs i).blocks i).contentHash.isSome := by
  unfold simulateWrite
  rw [dif_pos i.isLt]
  simp [modifyBlock, RaidBlock.write]

/-- No written block is dropped. In every state reached by any operations with any remote
answers, dirty blocks are resident; an operation that cleans a block has stored it by an eviction
that found it dirty; and after a write to a block its content hash stays, it never is virgin
again, and no operation answers with zeros for it. -/
theorem writes_survive (muxClient : Bool) (localBlockStore : Option Cluster.BlockStore)
    (pre : List Request) (r : Request) :
    let c := Machine.run (exec sha256Hex) (start cfg muxClient localBlockStore) pre
    let c' := (exec sha256Hex c r).1
    (∀ i, (c.blocks i).dirty = true → (c.blocks i).location = .resident) ∧
    (∀ i, (c.blocks i).dirty = true → (c'.blocks i).dirty = false →
      ∃ new, c'.evictions = c.evictions ++ new ∧ ∃ e ∈ new, e.Stores i) ∧
    (∀ i : Fin cfg.blockCount, r.op = .simulateWrite i → ∀ post later,
      let d := Machine.run (exec sha256Hex) c' post
      (d.blocks i).contentHash.isSome ∧ (d.blocks i).location ≠ .virgin ∧
        .zeroFilled i ∉ (exec sha256Hex d later).2.faultResults) := by
  intro c c'
  have hc : Sound c := run_sound sha256Hex (start_sound cfg muxClient localBlockStore) pre
  have hc' : Sound c' := exec_sound sha256Hex hc r
  refine ⟨hc.dirty, fun i => trace_cleaned (exec_trace sha256Hex hc r) hc, ?_⟩
  intro i hop post later d
  have hwritten : (c'.blocks i).contentHash.isSome := by
    obtain ⟨op, nowNs, remote⟩ := r
    obtain rfl : op = .simulateWrite i := hop
    exact simulateWrite_contentHash c nowNs i
  have hhash : (d.blocks i).contentHash.isSome := run_contentHash sha256Hex hc' post hwritten
  have hd : Sound d := run_sound sha256Hex hc' post
  refine ⟨hhash, ?_, ?_⟩
  · intro hvirgin
    rw [hd.virgin i hvirgin] at hhash
    cases hhash
  · intro hzero
    obtain ⟨k, hk, hnone⟩ := exec_zeroFilled sha256Hex hd later hzero
    obtain rfl : i = k := Fin.ext hk
    rw [hnone] at hhash
    cases hhash

end Spaceshuttle.Raid
