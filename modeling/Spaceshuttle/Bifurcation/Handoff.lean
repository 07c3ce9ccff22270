import Spaceshuttle.Bifurcation.Migration

/-!
# The destination of a migration, and its end

A source server is written while `sync_round` sends its blocks to a destination server. As long as
`quick_hash` tells the data of the run apart, the pair of servers is a `Mirror`: a round refreshes
the copy, whatever blocks it skips. The phases have no such guard: `complete_handoff` ends the
migration in any phase, and a round that starts in `Handoff` ends it without looking at the bitmap.
-/

namespace Spaceshuttle.Bifurcation

/-! ## Source and destination -/

/-- A migration with the blocks of the source server and of the destination server. -/
structure Migrating (n : Nat) where
  source : Fin n → List UInt8
  migration : LiveMigration n
  destination : Fin n → List UInt8

namespace Migrating

variable {n : Nat}

/-- A migration starts with arbitrary blocks at the destination. -/
def start (source destination : Fin n → List UInt8) : Migrating n :=
  ⟨source, LiveMigration.new n, destination⟩

/-- A write to a block of the source, with the `mark_dirty` that follows it, or a round over the
current data of all blocks. -/
inductive Event (n : Nat) where
  | write (i : Fin n) (data : List UInt8)
  | sync (blockSize : UInt64)

/-- A write marks its block dirty (`mark_dirty`); a round of `sync_round` sends what it finds changed, and
the destination keeps it. -/
def step (s : Migrating n) : Event n → Migrating n
  | .write i data =>
    { s with source := Function.update s.source i data, migration := s.migration.markDirty i }
  | .sync blockSize =>
    let (migration, _, sent) := s.migration.syncRound (List.ofFn s.source) blockSize
    { s with migration, destination := sent.foldl LiveMigration.receive s.destination }

/-- The servers after a run. -/
def after (s : Migrating n) (events : List (Event n)) : Migrating n := events.foldl step s

/-- The block data of a run: what the source holds at the start, and what is written. -/
def dataOf (source : Fin n → List UInt8) (events : List (Event n)) : List (List UInt8) :=
  List.ofFn source ++ events.filterMap fun
    | .write _ data => some data
    | .sync _ => none

/-- `quick_hash` tells the data apart, and is never the hash of a block that was never sent. -/
structure HashedApart (data : List (List UInt8)) : Prop where
  inj : ∀ x ∈ data, ∀ y ∈ data, quickHash x = quickHash y → x = y
  ne_zero : ∀ x ∈ data, quickHash x ≠ zeroHash

/-- The table of hashes is right about the destination: a block that was sent is there as it was
hashed. -/
structure Known (data : List (List UInt8)) (s : Migrating n) : Prop where
  source : ∀ i, s.source i ∈ data
  sent : ∀ i, s.migration.sourceBlockHashes i ≠ zeroHash →
    s.destination i ∈ data ∧ s.migration.sourceBlockHashes i = quickHash (s.destination i)

/-- The two servers as a table and its copy. -/
def mirror (s : Migrating n) : Mirror (Fin n) (List UInt8) :=
  ⟨s.source, s.destination, {i | s.migration.dirtyBitmap i = true}⟩

/-- What an event means for the copy. -/
def Event.op : Event n → Mirror.Op (Fin n) (List UInt8)
  | .write i data => .write i data
  | .sync _ => .refresh

variable {data : List (List UInt8)}

/-! ### A round -/

/-- What a round over the current data does to the view of a block. -/
theorem step_sync_view (s : Migrating n) (blockSize : UInt64) (i : Fin n) :
    (⟨(s.step (.sync blockSize)).migration.sourceBlockHashes i,
      (s.step (.sync blockSize)).migration.dirtyBitmap i,
      (s.step (.sync blockSize)).destination i⟩ : LiveMigration.BlockView) =
      LiveMigration.syncView (List.ofFn s.source) i
        ⟨s.migration.sourceBlockHashes i, s.migration.dirtyBitmap i, s.destination i⟩ :=
  LiveMigration.syncBlocks_view s.migration (List.ofFn s.source) s.destination i

/-- A block whose bit is clear is skipped. -/
theorem step_sync_of_clean (s : Migrating n) (blockSize : UInt64) {i : Fin n}
    (hclean : s.migration.dirtyBitmap i = false) :
    (s.step (.sync blockSize)).migration.sourceBlockHashes i = s.migration.sourceBlockHashes i ∧
      (s.step (.sync blockSize)).migration.dirtyBitmap i = false ∧
      (s.step (.sync blockSize)).destination i = s.destination i := by
  have h := step_sync_view s blockSize i
  simp only [LiveMigration.syncView, List.getElem?_ofFn, i.isLt, dif_pos, hclean,
    Bool.false_eq_true, if_false, LiveMigration.BlockView.mk.injEq] at h
  exact h

/-- A block whose bit is set ends up hashed and at the destination: it is sent unless it is there
already. -/
theorem step_sync_of_dirty (hdata : HashedApart data) {s : Migrating n} (hs : Known data s)
    (blockSize : UInt64) {i : Fin n} (hdirty : s.migration.dirtyBitmap i = true) :
    (s.step (.sync blockSize)).migration.sourceBlockHashes i = quickHash (s.source i) ∧
      (s.step (.sync blockSize)).migration.dirtyBitmap i = false ∧
      (s.step (.sync blockSize)).destination i = s.source i := by
  have h := step_sync_view s blockSize i
  simp only [LiveMigration.syncView, List.getElem?_ofFn, i.isLt, dif_pos, hdirty, if_true] at h
  by_cases hhash : quickHash (s.source i) = s.migration.sourceBlockHashes i
  · -- the block is skipped: its hash is the one recorded when the destination got its data
    simp only [hhash, ne_eq, not_true, if_false, LiveMigration.BlockView.mk.injEq] at h
    have hsent := hs.sent i (hhash ▸ hdata.ne_zero _ (hs.source i))
    have hsame := hdata.inj _ (hs.source i) _ hsent.1 (hhash.trans hsent.2)
    exact ⟨h.1.trans hhash.symm, h.2.1, h.2.2.trans hsame.symm⟩
  · simp only [ne_eq, hhash, not_false_eq_true, if_true, LiveMigration.BlockView.mk.injEq] at h
    exact h

/-! ### Runs -/

theorem known_start {source : Fin n → List UInt8} (destination : Fin n → List UInt8)
    (hsource : ∀ i, source i ∈ data) : Known data (start source destination) :=
  ⟨hsource, fun _ h => absurd rfl h⟩

theorem mirror_start (source destination : Fin n → List UInt8) :
    (start source destination).mirror = Mirror.start source destination := by
  have hstale : {i | (start source destination).migration.dirtyBitmap i = true} = Set.univ := by
    ext i
    exact iff_of_true rfl trivial
  exact congrArg (Mirror.mk source destination) hstale

theorem Known.step (hdata : HashedApart data) {s : Migrating n} (hs : Known data s) {e : Event n}
    (he : ∀ i block, e = .write i block → block ∈ data) : Known data (s.step e) := by
  cases e with
  | write i block =>
    constructor
    · intro j
      show Function.update s.source i block j ∈ data
      by_cases hj : j = i
      · subst hj
        rw [Function.update_self]
        exact he j block rfl
      · rw [Function.update_of_ne hj]
        exact hs.source j
    · intro j hj
      have hhashes : (s.migration.markDirty i).sourceBlockHashes = s.migration.sourceBlockHashes := by
        unfold LiveMigration.markDirty
        split <;> rfl
      simp only [Migrating.step, hhashes] at hj ⊢
      exact hs.sent j hj
  | sync blockSize =>
    constructor
    · exact hs.source
    · intro j hj
      cases hdirty : s.migration.dirtyBitmap j with
      | false =>
        obtain ⟨hhash, -, hdest⟩ := step_sync_of_clean s blockSize hdirty
        rw [hhash] at hj ⊢
        rw [hdest]
        exact hs.sent j hj
      | true =>
        obtain ⟨hhash, -, hdest⟩ := step_sync_of_dirty hdata hs blockSize hdirty
        rw [hhash, hdest]
        exact ⟨hs.source j, rfl⟩

/-- Each event does to the two servers what its operation does to a copy. -/
theorem mirror_step (hdata : HashedApart data) {s : Migrating n} (hs : Known data s)
    (e : Event n) : (s.step e).mirror = s.mirror.apply e.op := by
  cases e with
  | write i block =>
    have hdirty : (s.migration.markDirty i).dirtyBitmap =
        Function.update s.migration.dirtyBitmap i true := by
      rw [LiveMigration.markDirty, dif_pos i.isLt]
    have hstale : {j | (s.migration.markDirty i).dirtyBitmap j = true} =
        insert i {j | s.migration.dirtyBitmap j = true} := by
      ext j
      rw [hdirty]
      by_cases hj : j = i
      · simp [hj]
      · simp [hj]
    exact congrArg (Mirror.mk (Function.update s.source i block) s.destination) hstale
  | sync blockSize =>
    have hcopy : (s.step (.sync blockSize)).destination = s.mirror.refresh.copy := by
      funext i
      cases hdirty : s.migration.dirtyBitmap i with
      | false =>
        rw [(step_sync_of_clean s blockSize hdirty).2.2]
        exact (if_neg (by simp [mirror, hdirty])).symm
      | true =>
        rw [(step_sync_of_dirty hdata hs blockSize hdirty).2.2]
        exact (if_pos (by simp [mirror, hdirty])).symm
    have hstale : {i | (s.step (.sync blockSize)).migration.dirtyBitmap i = true} = ∅ := by
      ext i
      cases hdirty : s.migration.dirtyBitmap i with
      | false => simp [(step_sync_of_clean s blockSize hdirty).2.1]
      | true => simp [(step_sync_of_dirty hdata hs blockSize hdirty).2.1]
    show Mirror.mk s.source _ _ = Mirror.mk s.source _ _
    rw [hcopy, hstale]
    rfl

theorem mem_dataOf_write {source : Fin n → List UInt8} {events : List (Event n)} {i : Fin n}
    {block : List UInt8} (h : Event.write i block ∈ events) : block ∈ dataOf source events :=
  List.mem_append_right _ (List.mem_filterMap.mpr ⟨_, h, rfl⟩)

theorem mem_dataOf_source (source : Fin n → List UInt8) (events : List (Event n)) (i : Fin n) :
    source i ∈ dataOf source events :=
  List.mem_append_left _ (List.mem_ofFn.mpr ⟨i, rfl⟩)

theorem after_concat (s : Migrating n) (events : List (Event n)) (e : Event n) :
    s.after (events ++ [e]) = (s.after events).step e :=
  List.foldl_concat step s e events

/-- The servers of a migration are a table and its copy: skipping known blocks changes nothing. -/
theorem mirror_after (source destination : Fin n → List UInt8) (events : List (Event n))
    (hdata : HashedApart (dataOf source events)) :
    Known (dataOf source events) ((start source destination).after events) ∧
      ((start source destination).after events).mirror =
        (Mirror.start source destination).run (events.map Event.op) := by
  suffices ∀ pre, pre <+: events →
      Known (dataOf source events) ((start source destination).after pre) ∧
        ((start source destination).after pre).mirror =
          (Mirror.start source destination).run (pre.map Event.op) from this events List.prefix_rfl
  intro pre
  induction pre using List.reverseRecOn with
  | nil =>
    intro _
    exact ⟨known_start destination (mem_dataOf_source source events),
      mirror_start source destination⟩
  | append_singleton pre e ih =>
    intro hpre
    obtain ⟨hknown, hmirror⟩ := ih ((List.prefix_append pre [e]).trans hpre)
    have hmem : e ∈ events := hpre.subset (by simp)
    rw [after_concat, List.map_append, List.map_singleton, Mirror.run_concat, ← hmirror]
    constructor
    · apply hknown.step hdata
      rintro i block rfl
      exact mem_dataOf_write hmem
    · exact mirror_step hdata hknown e

/-- At every moment of a run the clean blocks are the same on both servers, and when a round moves
the migration to `Handoff` or `Complete`, all blocks are. -/
theorem migration_converges (source destination : Fin n → List UInt8) (events : List (Event n))
    (hdata : HashedApart (dataOf source events)) :
    let s := (start source destination).after events
    (∀ i, s.migration.dirtyBitmap i = false → s.destination i = s.source i) ∧
      ∀ blockSize, let s' := s.step (.sync blockSize)
        s'.migration.phase ≠ s.migration.phase →
          s'.migration.phase = .handoff ∨ s'.migration.phase = .complete →
            s'.destination = s'.source := by
  intro s
  obtain ⟨hknown, hmirror⟩ := mirror_after source destination events hdata
  have hagrees : s.mirror.Agrees := by
    rw [show s.mirror = _ from hmirror]
    exact (Mirror.agrees_start source destination).run (events.map Event.op)
  constructor
  · intro i hclean
    exact hagrees i (by simp [mirror, hclean])
  · intro blockSize s' _ _
    have hrefresh : s'.mirror = s.mirror.refresh := mirror_step hdata hknown (.sync blockSize)
    calc s'.destination = s.mirror.refresh.copy := congrArg Mirror.copy hrefresh
      _ = s.mirror.refresh.source := hagrees.refresh_copy
      _ = s'.source := (congrArg Mirror.source hrefresh).symm

namespace Demo

/-- Three blocks of one byte. -/
def threeBlocks (i : Fin 3) : List UInt8 := [UInt8.ofNat i.val]

/-- Between two rounds the last of them is rewritten. -/
def rewritten : List (Event 3) := [.sync 1, .write 2 [4], .sync 1]

end Demo

open Migrating.Demo in
/-- The third round moves the migration to `Handoff`, and the destination has all blocks. -/
theorem migration_converges_three_blocks :
    let s := (start threeBlocks (fun _ => [])).after rewritten
    s.migration.phase = .microFreeze ∧ (s.step (.sync 1)).migration.phase = .handoff ∧
      (s.step (.sync 1)).destination = (s.step (.sync 1)).source := by
  have hdata : HashedApart (dataOf threeBlocks rewritten) := ⟨by decide, by decide⟩
  refine ⟨by decide, by decide, ?_⟩
  exact (migration_converges threeBlocks (fun _ => []) rewritten hdata).2 1 (by decide)
    (by decide)

end Migrating

/-! ## The end of a migration -/

namespace LiveMigration

variable {n : Nat}

/-- A call of a method that may change the phase or the bitmap. -/
inductive Call where
  | markDirty (blockIndex : Nat)
  | syncRound (blockData : List (List UInt8)) (blockSize : UInt64)
  | completeHandoff

/-- The migration after a call. -/
def perform (m : LiveMigration n) : Call → LiveMigration n
  | .markDirty blockIndex => m.markDirty blockIndex
  | .syncRound blockData blockSize => (m.syncRound blockData blockSize).1
  | .completeHandoff => m.completeHandoff

/-- A new migration after a run of calls. -/
def after (n : Nat) (calls : List Call) : LiveMigration n := calls.foldl perform (new n)

/-- If a call completes the migration, it does so from `Handoff` and with no block dirty. -/
def CompletesSafely (m : LiveMigration n) (c : Call) : Prop :=
  m.phase ≠ .complete → (m.perform c).phase = .complete →
    m.phase = .handoff ∧ ∀ i, (m.perform c).dirtyBitmap i = false

/-- What the methods leave to their caller: `complete_handoff` is called in `Handoff` and with no
block dirty, and a round in `Handoff` is given the data of every dirty block. -/
def Guarded (m : LiveMigration n) : Call → Prop
  | .markDirty _ => True
  | .syncRound blockData _ =>
    m.phase = .handoff → ∀ i, m.dirtyBitmap i = true → i.val < blockData.length
  | .completeHandoff =>
    m.phase = .complete ∨ m.phase = .handoff ∧ ∀ i, m.dirtyBitmap i = false

theorem markDirty_phase (m : LiveMigration n) (blockIndex : Nat) :
    (m.markDirty blockIndex).phase = m.phase := by
  unfold markDirty
  split <;> rfl

/-- A round that starts in `Handoff` completes the migration, and leaves dirty what it was given no
data for. -/
theorem completesSafely_syncRound (m : LiveMigration n) (blockData : List (List UInt8))
    (blockSize : UInt64) :
    m.CompletesSafely (.syncRound blockData blockSize) ↔
      m.Guarded (.syncRound blockData blockSize) := by
  have hphase : (m.perform (.syncRound blockData blockSize)).phase = .complete ↔
      m.phase = .handoff ∨ m.phase = .complete := nextPhase_eq_complete _ m.phase
  have hdirty : (∀ i, (m.perform (.syncRound blockData blockSize)).dirtyBitmap i = false) ↔
      ∀ i, m.dirtyBitmap i = true → i.val < blockData.length := by
    refine forall_congr' fun i => ?_
    rw [← Bool.not_eq_true, ← Nat.not_le, ← not_and]
    exact not_congr (syncRound_dirtyBitmap m blockData blockSize i)
  simp only [CompletesSafely, Guarded, hphase, hdirty]
  constructor
  · intro h hhandoff
    exact (h (by simp [hhandoff]) (Or.inl hhandoff)).2
  · intro h hne hend
    have hhandoff := hend.resolve_right hne
    exact ⟨hhandoff, h hhandoff⟩

/-- A call completes the migration safely exactly if its caller sees to it. -/
theorem completesSafely_iff (m : LiveMigration n) (c : Call) : m.CompletesSafely c ↔ m.Guarded c := by
  cases c with
  | markDirty blockIndex =>
    refine iff_of_true ?_ trivial
    intro hne hcomplete
    exact absurd ((m.markDirty_phase blockIndex).symm.trans hcomplete) hne
  | syncRound blockData blockSize => exact completesSafely_syncRound m blockData blockSize
  | completeHandoff =>
    constructor
    · intro h
      by_cases hphase : m.phase = .complete
      · exact Or.inl hphase
      · exact Or.inr (h hphase rfl)
    · rintro (hphase | hsafe) hne _
      · exact absurd hphase hne
      · exact hsafe

/-- In a run of calls the migration completes from `Handoff` only, and with no block dirty, if and
only if the caller guards every call. -/
theorem completes_safely_iff_guarded (n : Nat) (calls : List Call) :
    Machine.AtEach (fun before c => (after n before).CompletesSafely c) calls ↔
      Machine.AtEach (fun before c => (after n before).Guarded c) calls := by
  simp only [Machine.AtEach, completesSafely_iff]

/-- `complete_handoff` as the first call: the migration is complete and nothing was ever sent. And
a block that is dirtied in `Handoff`, followed by a round without data. -/
theorem completes_unsafely :
    ¬ Machine.AtEach (fun before c => (after 1 before).CompletesSafely c) [.completeHandoff] ∧
      ¬ Machine.AtEach (fun before c => (after 1 before).CompletesSafely c)
        [.syncRound [[1]] 1, .syncRound [[1]] 1, .syncRound [[1]] 1, .markDirty 0,
          .syncRound [] 1] := by
  constructor
  · intro h
    have hsafe := h [] .completeHandoff [] rfl
    exact absurd (hsafe (by decide) rfl).1 (by decide)
  · intro h
    have hsafe := h [.syncRound [[1]] 1, .syncRound [[1]] 1, .syncRound [[1]] 1, .markDirty 0]
      (.syncRound [] 1) [] rfl
    have hclean := (hsafe (by decide) (by decide)).2 0
    exact absurd hclean (by decide)

end LiveMigration

end Spaceshuttle.Bifurcation
