import Spaceshuttle.Raid.Durability

/-!
# Where the data of a block is

A dirty eviction puts the data of a block somewhere and records the place in `location`. A later
clean eviction of the same block moves no data, but records a place of its own. As long as no
such eviction happens, the recorded location is the place of the last dirty eviction.
-/

namespace Spaceshuttle.Raid

open RamRaidController

variable {cfg : RaidConfig} (sha256Hex : List UInt8 → String)

/-- The most recent eviction that stored block `i`. -/
def lastStore {n : Nat} (evictions : List (Eviction n)) (i : Fin n) : Option (Eviction n) :=
  (evictions.filter (fun e => decide (e.block = i) && (storedAway e.result).isSome)).getLast?

/-- The location names the place where the eviction put the data: RAM B, or the `.tza` file it
wrote. -/
def namesPlace {n : Nat} (e : Eviction n) (location : BlockLocation) : Bool :=
  match e.result, e.placed, location with
  | .evictedRemote _ _, _, .remoteKernel _ _ _ => true
  | .evictedLocal _ _, .localStore path _, .localStore path' _ => decide (path' = path)
  | _, _, _ => false

/-- A block that is not resident but was stored once has a location that names the place of its
last store. -/
def LocatedRight (c : RamRaidController cfg) (i : Fin cfg.blockCount) : Prop :=
  ∀ e ∈ lastStore c.evictions i, (c.blocks i).location ≠ .resident →
    namesPlace e (c.blocks i).location = true

instance (c : RamRaidController cfg) (i : Fin cfg.blockCount) : Decidable (LocatedRight c i) :=
  inferInstanceAs (Decidable (∀ e ∈ lastStore c.evictions i, _ → _))

/-- The eviction is not a clean drop of a block that has content elsewhere. -/
def Eviction.MovesOrEmpty {n : Nat} (e : Eviction n) : Prop :=
  e.before.dirty = true ∨ e.before.contentHash = none

theorem lastStore_concat {n : Nat} (evictions : List (Eviction n)) (e : Eviction n) (i : Fin n) :
    lastStore (evictions ++ [e]) i =
      if e.block = i ∧ (storedAway e.result).isSome then some e else lastStore evictions i := by
  unfold lastStore
  rw [List.filter_append]
  by_cases h : e.block = i ∧ (storedAway e.result).isSome
  · rw [if_pos h, List.filter_cons_of_pos (by simpa using h)]
    exact List.getLast?_concat
  · rw [if_neg h, List.filter_cons_of_neg (by simpa using h)]
    simp

/-- A block that was stored has content, and is located right. -/
structure Placed (c : RamRaidController cfg) : Prop where
  content : ∀ i, (lastStore c.evictions i).isSome → (c.blocks i).contentHash.isSome
  located : ∀ i, LocatedRight c i

section Steps

variable {c c' : RamRaidController cfg} {i : Fin cfg.blockCount} {b : RaidBlock}

/-- A block becomes resident, or keeps its location; the history is unchanged. -/
theorem placed_puts {count : UInt64} (hc : Placed c) (h : Puts c i b count c')
    (hhash : (c.blocks i).contentHash.isSome → b.contentHash.isSome)
    (hloc : b.location = .resident ∨ b.location = (c.blocks i).location) : Placed c' := by
  constructor
  · intro j hj
    rw [h.evictions] at hj
    have hcontent := hc.content j hj
    rw [h.blocks]
    by_cases hji : j = i
    · subst hji
      rw [Function.update_self]
      exact hhash hcontent
    · rwa [Function.update_of_ne hji]
  · intro j e he haway
    rw [h.evictions] at he
    rw [h.blocks] at haway ⊢
    by_cases hji : j = i
    · subst hji
      rw [Function.update_self] at haway ⊢
      rcases hloc with hres | hsame
      · exact absurd hres haway
      · rw [hsame] at haway ⊢
        exact hc.located j e he haway
    · rw [Function.update_of_ne hji] at haway ⊢
      exact hc.located j e he haway

/-- The table is unchanged and the history has no new store. -/
theorem placed_same (hc : Placed c) (hblocks : c'.blocks = c.blocks)
    (hlast : ∀ j, lastStore c'.evictions j = lastStore c.evictions j) : Placed c' := by
  constructor
  · intro j hj
    rw [hlast] at hj
    rw [hblocks]
    exact hc.content j hj
  · intro j e he haway
    rw [hlast] at he
    rw [hblocks] at haway ⊢
    exact hc.located j e he haway

/-- A dropped block that has no content was never stored. -/
theorem placed_drop (hc : Placed c) (h : Evicts c i ((c.blocks i).drop i) (.dropped i) c')
    (hnone : (c.blocks i).contentHash = none) : Placed c' := by
  have hlast : ∀ j, lastStore c'.evictions j = lastStore c.evictions j := by
    intro j
    rw [h.evictions, lastStore_concat]
    simp [storedAway]
  have hnever : lastStore c.evictions i = none := by
    by_contra hsome
    have hcontent := hc.content i (Option.isSome_iff_ne_none.mpr hsome)
    rw [hnone] at hcontent
    cases hcontent
  constructor
  · intro j hj
    rw [hlast] at hj
    rw [h.blocks]
    by_cases hji : j = i
    · rw [hji, hnever] at hj
      cases hj
    · rw [Function.update_of_ne hji]
      exact hc.content j hj
  · intro j e he haway
    rw [hlast] at he
    by_cases hji : j = i
    · rw [hji, hnever] at he
      cases he
    · rw [h.blocks, Function.update_of_ne hji] at haway ⊢
      exact hc.located j e he haway

/-- A dirty eviction records the place it put the data. -/
theorem placed_store (hc : Placed c) {location : BlockLocation} {hash edSeal : String}
    {result : EvictionResult} (hplaced : PlacedBy cfg i result location)
    (h : Evicts c i ((c.blocks i).store location hash edSeal) result c') : Placed c' := by
  have hstored : (storedAway result).isSome := by cases hplaced <;> rfl
  constructor
  · intro j hj
    rw [h.blocks]
    by_cases hji : j = i
    · rw [hji, Function.update_self]
      rfl
    · rw [h.evictions, lastStore_concat, if_neg (fun hi => hji hi.1.symm)] at hj
      rw [Function.update_of_ne hji]
      exact hc.content j hj
  · intro j e he haway
    rw [h.evictions, lastStore_concat] at he
    by_cases hji : j = i
    · subst hji
      rw [if_pos ⟨rfl, hstored⟩] at he
      obtain rfl := Option.some.inj he
      rw [h.blocks, Function.update_self]
      cases hplaced <;> simp [namesPlace, RaidBlock.store, localLocation, remoteLocation]
    · rw [if_neg (fun hi => hji hi.1.symm)] at he
      rw [h.blocks, Function.update_of_ne hji] at haway ⊢
      exact hc.located j e he haway

theorem step_placed {batch : Bool} (h : Step batch c c') (hc : Placed c)
    (hmoves : ∀ e ∈ c'.evictions, e.MovesOrEmpty) : Placed c' := by
  cases h with
  | quiet h => exact placed_same hc h.blocks (fun j => by rw [h.evictions])
  | touch i nowNs h => exact placed_puts hc h id (.inr rfl)
  | fill i nowNs hvirgin h => exact placed_puts hc h id (.inl rfl)
  | restore i nowNs haway h => exact placed_puts hc h id (.inl rfl)
  | write i nowNs h => exact placed_puts hc h (fun _ => rfl) (.inl rfl)
  | drop i hresident hclean h =>
    rcases hmoves _ (by rw [h.evictions]; exact List.mem_append_right _ (List.mem_singleton_self _))
      with hdirty | hnone
    · exact absurd (hclean.symm.trans hdirty) (by simp)
    · exact placed_drop hc h hnone
  | store i location hash edSeal result hresident hdirty hplaced h =>
    exact placed_store hc hplaced h
  | stuck i reason hblocks hcount hperformed hevictions =>
    refine placed_same hc hblocks (fun j => ?_)
    rw [hevictions, lastStore_concat]
    simp [storedAway]
  | refill i nowNs hbatch hresident hclean hhash h => exact placed_puts hc h id (.inl rfl)
  | rerestore i nowNs hbatch hresident hclean h => exact placed_puts hc h id (.inl rfl)

theorem trace_placed {batch : Bool} (h : Trace batch c c') (hc : Placed c)
    (hmoves : ∀ e ∈ c'.evictions, e.MovesOrEmpty) : Placed c' := by
  induction h with
  | refl => exact hc
  | tail _ hs ih =>
    obtain ⟨new, hnew⟩ := step_evictions hs
    refine step_placed hs (ih ?_) hmoves
    intro e he
    exact hmoves e (by rw [hnew]; exact List.mem_append_left _ he)

end Steps

/-! ## Over runs -/

theorem run_evictions {c : RamRaidController cfg} (hc : Sound c) (rs : List Request) :
    ∃ new, (Machine.run (exec sha256Hex) c rs).evictions = c.evictions ++ new := by
  induction rs generalizing c with
  | nil => exact ⟨[], by simp⟩
  | cons r rs ih =>
    obtain ⟨old, hold⟩ := trace_evictions (exec_trace sha256Hex hc r)
    obtain ⟨new, hnew⟩ := ih (exec_sound sha256Hex hc r)
    refine ⟨old ++ new, ?_⟩
    rw [Machine.run_cons, hnew, hold, List.append_assoc]

theorem run_placed {c : RamRaidController cfg} (hc : Sound c) (hplaced : Placed c)
    (rs : List Request)
    (hmoves : ∀ e ∈ (Machine.run (exec sha256Hex) c rs).evictions, e.MovesOrEmpty) :
    Placed (Machine.run (exec sha256Hex) c rs) := by
  induction rs generalizing c with
  | nil => exact hplaced
  | cons r rs ih =>
    have hc' := exec_sound sha256Hex hc r
    obtain ⟨new, hnew⟩ := run_evictions sha256Hex hc' rs
    refine ih hc' (trace_placed (exec_trace sha256Hex hc r) hplaced ?_) hmoves
    intro e he
    apply hmoves e
    rw [Machine.run_cons, hnew]
    exact List.mem_append_left _ he

/-- In a run that never drops a clean block with content, the recorded location of a block names
the place of its last dirty eviction in every state reached. -/
theorem locations_right (muxClient : Bool) (localBlockStore : Option Cluster.BlockStore)
    (rs : List Request)
    (hmoves : ∀ e ∈ (Machine.run (exec sha256Hex)
      (start cfg muxClient localBlockStore) rs).evictions, e.MovesOrEmpty)
    (pre post : List Request) (hrs : rs = pre ++ post) (i : Fin cfg.blockCount) :
    LocatedRight (Machine.run (exec sha256Hex) (start cfg muxClient localBlockStore) pre) i := by
  have hstart := start_sound cfg muxClient localBlockStore
  have hplaced : Placed (start cfg muxClient localBlockStore) := by
    rw [start_eq]
    exact ⟨fun _ h => (nomatch h), fun _ _ he => (nomatch he)⟩
  obtain ⟨new, hnew⟩ := run_evictions sha256Hex (run_sound sha256Hex hstart pre) post
  refine (run_placed sha256Hex hstart hplaced pre ?_).located i
  intro e he
  apply hmoves e
  rw [hrs, Machine.run_append, hnew]
  exact List.mem_append_left _ he

/-- `smallArena` with a RAM B. -/
def pairedArena : RaidConfig :=
  { smallArena with ramBEndpoint := some "192.168.4.85:4430", ramBKernelId := some "kernel_b" }

/-- Block 1 is written, evicted to RAM B, read back and evicted clean. -/
def readBack : List Request :=
  [⟨.simulateWrite 1, 1, unreachable⟩, ⟨.evictColdest, 2, unreachable⟩,
    ⟨.simulateRead 1, 3, unreachable⟩, ⟨.evictColdest, 4, unreachable⟩]

theorem locations_right_once :
    LocatedRight (Machine.run (exec arenaSha256) (start pairedArena false (some .new))
      (readBack.take 2)) ⟨1, by decide⟩ :=
  locations_right arenaSha256 false (some .new) (readBack.take 2)
    (by simp only [Eviction.MovesOrEmpty]; decide) _ [] (by simp) _

/-- The data is in RAM B, the location names a file that was never written. -/
theorem readBack_misplaces :
    ¬ LocatedRight (Machine.run (exec arenaSha256) (start pairedArena false (some .new)) readBack)
      ⟨1, by decide⟩ := by
  decide

end Spaceshuttle.Raid
