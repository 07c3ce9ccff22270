import Spaceshuttle.Raid.Eviction

/-!
# Restores from a remote kernel

A block on a remote kernel is restored from what the transport answers, if the answer passes the
check against the content hash. `restore_block` and `restore_block_inner` differ in the transport
they ask when no MUX client is attached. A restore or an eviction that fails leaves the table and
the statistics as they were.
-/

namespace Spaceshuttle.Raid

namespace RamRaidController

variable {cfg : RaidConfig}

/-! ## Answers -/

/-- What a transport answers when it is asked for a block. `assumed` is the answer without any
transport in simulation mode: the block counts as fetched. -/
inductive Answer where
  | refused
  | data (bytes : List UInt8)
  | assumed
  deriving DecidableEq, Repr

/-- The check against the content hash of a block, if it has one. -/
def Accepts (sha256Hex : List UInt8 → String) (contentHash : Option String) (data : List UInt8) :
    Prop :=
  ∀ expected, contentHash = some expected → sha256Hex data = expected

instance (sha256Hex : List UInt8 → String) (contentHash : Option String) (data : List UInt8) :
    Decidable (Accepts sha256Hex contentHash data) :=
  match contentHash with
  | none => .isTrue fun _ h => nomatch h
  | some expected =>
      decidable_of_iff (sha256Hex data = expected)
        ⟨fun h _ he => h.trans (Option.some.inj he), fun h => h expected rfl⟩

/-- No usable data: the transport has none, or what it has fails the check. -/
def Answer.Fails (sha256Hex : List UInt8 → String) (contentHash : Option String) : Answer → Prop
  | .refused => True
  | .data bytes => ¬ Accepts sha256Hex contentHash bytes
  | .assumed => False

/-- The number of bytes that arrive for a block of the given size. -/
def Answer.length (size : Nat) : Answer → Nat
  | .refused => 0
  | .data bytes => bytes.length
  | .assumed => size

/-- The answer of the MUX client. -/
def muxAnswer (remote : Remote) (i : Nat) (contentHash : Option String) (seq : UInt64) : Answer :=
  match remote.fetchBlock i contentHash seq with
  | .ok data => .data data
  | .error _ => .refused

/-- The answer of the local block store, if there is one. -/
def localAnswer (c : RamRaidController cfg) (i : Fin cfg.blockCount) : Answer :=
  match c.localBlockStore with
  | some store =>
      match store.content i with
      | some block => .data block.1
      | none => .refused
  | none => .assumed

/-- The transport of `restore_block`. -/
def answer (remote : Remote) (c : RamRaidController cfg) (i : Fin cfg.blockCount) (seq : UInt64) :
    Answer :=
  if c.muxClient then muxAnswer remote i (c.blocks i).contentHash seq else localAnswer c i

/-- The transport of `restore_block_inner`. -/
def answerInner (remote : Remote) (c : RamRaidController cfg) (i : Fin cfg.blockCount)
    (seq : UInt64) : Answer :=
  if c.muxClient then muxAnswer remote i (c.blocks i).contentHash seq
  else .data (List.replicate (c.blocks i).size 0)

/-- `restore_block` has asked for block `i`: a local block store counts the access. -/
def asked (c : RamRaidController cfg) (i : Fin cfg.blockCount) : RamRaidController cfg :=
  { c with
    busSeq := c.busSeq + 1
    localBlockStore :=
      if c.muxClient then c.localBlockStore
      else c.localBlockStore.map fun store => (store.fetch i).2 }

section Asking

variable (sha256Hex : List UInt8 → String) (remote : Remote)
variable {c : RamRaidController cfg} {i : Fin cfg.blockCount}

theorem bne_of_not_accepts {contentHash : Option String} {data : List UInt8}
    (h : ¬ Accepts sha256Hex contentHash data) :
    ∃ expected, contentHash = some expected ∧ (sha256Hex data != expected) = true := by
  cases contentHash with
  | none => exact absurd (fun e he => nomatch he) h
  | some expected =>
    refine ⟨expected, rfl, bne_iff_ne.mpr fun heq => h fun e he => ?_⟩
    rw [← Option.some.inj he]
    exact heq

theorem bne_of_accepts {expected : String} {data : List UInt8}
    (h : Accepts sha256Hex (some expected) data) : (sha256Hex data != expected) = false := by
  rw [h expected rfl]
  exact bne_self_eq_false expected

/-- What `restore_block` gets to see of the answer. -/
theorem fetchRemote_eq (c : RamRaidController cfg) (i : Fin cfg.blockCount) :
    (fetchRemote remote c.nextSeq i (c.blocks i).contentHash c.busSeq).1 = c.asked i ∧
      match answer remote c i c.busSeq with
      | .refused => ∃ reason,
          (fetchRemote remote c.nextSeq i (c.blocks i).contentHash c.busSeq).2 = .error reason
      | .data bytes =>
          (fetchRemote remote c.nextSeq i (c.blocks i).contentHash c.busSeq).2 = .ok (some bytes)
      | .assumed =>
          (fetchRemote remote c.nextSeq i (c.blocks i).contentHash c.busSeq).2 = .ok none := by
  unfold fetchRemote answer asked
  by_cases hmux : c.muxClient = true
  · simp only [nextSeq, hmux, if_true, muxAnswer]
    cases remote.fetchBlock i (c.blocks i).contentHash c.busSeq with
    | ok data => exact ⟨rfl, rfl⟩
    | error e => exact ⟨rfl, _, rfl⟩
  · simp only [nextSeq, hmux, Bool.false_eq_true, if_false, localAnswer]
    cases c.localBlockStore with
    | none => exact ⟨rfl, rfl⟩
    | some store =>
      cases hcontent : store.content i with
      | none =>
        simp only [hcontent, Cluster.BlockStore.fetch_none hcontent, Option.map_some]
        exact ⟨trivial, _, rfl⟩
      | some block =>
        obtain ⟨b, hfound, hdata, -⟩ := Cluster.BlockStore.fetch_some hcontent
        simp only [hcontent, hfound, hdata, Option.map_some]
        exact ⟨trivial, trivial⟩

/-- The restore of a remote block goes by what it fetches, once it has asked. -/
theorem restoreBlock_fetched (hremote : isRemote (c.blocks i).location = true) (nowNs : UInt64) :
    restoreBlock sha256Hex remote c i nowNs =
      match (fetchRemote remote c.nextSeq i (c.blocks i).contentHash c.busSeq).2 with
      | .error reason => (c.asked i, .failed i reason)
      | .ok none =>
          ((c.asked i).arriveRemote i nowNs ((c.asked i).blocks i).size, .restoredRemote i)
      | .ok (some data) =>
          match (c.blocks i).contentHash with
          | some expected =>
              if sha256Hex data != expected then
                (c.asked i, .failed i
                  s!"Integrity check failed: expected {expected}, got {sha256Hex data}")
              else ((c.asked i).arriveRemote i nowNs data.length, .restoredRemote i)
          | none => ((c.asked i).arriveRemote i nowNs data.length, .restoredRemote i) := by
  obtain ⟨hstate, -⟩ := fetchRemote_eq remote c i
  cases hloc : (c.blocks i).location with
  | resident | localStore | fetching | virgin =>
    rw [hloc] at hremote
    cases hremote
  | remoteKernel kernelId endpoint token =>
    simp only [restoreBlock, hloc]
    rcases hfetch : fetchRemote remote c.nextSeq i (c.blocks i).contentHash c.busSeq with ⟨c₁, r⟩
    rw [hfetch] at hstate
    obtain rfl : c₁ = c.asked i := hstate
    rcases r with reason | (_ | data) <;> rfl

/-- An unusable answer: nothing but the asking has happened. -/
theorem restoreBlock_fails (hremote : isRemote (c.blocks i).location = true)
    (hfails : (answer remote c i c.busSeq).Fails sha256Hex (c.blocks i).contentHash)
    (nowNs : UInt64) :
    ∃ reason, restoreBlock sha256Hex remote c i nowNs = (c.asked i, .failed i reason) := by
  obtain ⟨-, hanswer⟩ := fetchRemote_eq remote c i
  rw [restoreBlock_fetched sha256Hex remote hremote]
  cases hans : answer remote c i c.busSeq with
  | refused =>
    rw [hans] at hanswer
    obtain ⟨reason, hfetch⟩ := hanswer
    rw [hfetch]
    exact ⟨reason, rfl⟩
  | assumed =>
    rw [hans] at hfails
    exact hfails.elim
  | data bytes =>
    rw [hans] at hanswer hfails
    dsimp only at hanswer
    obtain ⟨expected, hhash, hne⟩ := bne_of_not_accepts sha256Hex hfails
    rw [hanswer]
    simp only [hhash, hne, if_true]
    exact ⟨_, rfl⟩

/-- A usable answer: the block arrives. -/
theorem restoreBlock_arrives (hremote : isRemote (c.blocks i).location = true)
    (husable : ¬ (answer remote c i c.busSeq).Fails sha256Hex (c.blocks i).contentHash)
    (nowNs : UInt64) :
    restoreBlock sha256Hex remote c i nowNs =
      ((c.asked i).arriveRemote i nowNs ((answer remote c i c.busSeq).length (c.blocks i).size),
        .restoredRemote i) := by
  obtain ⟨-, hanswer⟩ := fetchRemote_eq remote c i
  rw [restoreBlock_fetched sha256Hex remote hremote]
  cases hans : answer remote c i c.busSeq with
  | refused =>
    rw [hans] at husable
    exact absurd trivial husable
  | assumed =>
    rw [hans] at hanswer
    dsimp only at hanswer
    rw [hanswer]
    rfl
  | data bytes =>
    rw [hans] at hanswer husable
    dsimp only at hanswer
    have haccepts : Accepts sha256Hex (c.blocks i).contentHash bytes := not_not.mp husable
    rw [hanswer]
    cases hhash : (c.blocks i).contentHash with
    | none => rfl
    | some expected =>
      rw [hhash] at haccepts
      simp only [bne_of_accepts sha256Hex haccepts, Bool.false_eq_true, if_false]
      rfl

theorem restoreBlockInner_fails (hremote : isRemote (c.blocks i).location = true)
    (hfails : (answerInner remote c i c.busSeq).Fails sha256Hex (c.blocks i).contentHash)
    (nowNs : UInt64) :
    ∃ reason, restoreBlockInner sha256Hex remote c i nowNs = (c.nextSeq, .failed i reason, []) := by
  cases hloc : (c.blocks i).location with
  | resident | localStore | fetching | virgin =>
    rw [hloc] at hremote
    cases hremote
  | remoteKernel kernelId endpoint token =>
    simp only [restoreBlockInner, hloc]
    by_cases hmux : c.muxClient = true
    · simp only [answerInner, hmux, if_true, muxAnswer] at hfails
      simp only [nextSeq, hmux, if_true]
      cases hfetch : remote.fetchBlock i (c.blocks i).contentHash c.busSeq with
      | error e => exact ⟨_, rfl⟩
      | ok data =>
        rw [hfetch] at hfails
        obtain ⟨expected, hhash, hne⟩ := bne_of_not_accepts sha256Hex hfails
        simp only [hhash, hne, if_true]
        exact ⟨_, rfl⟩
    · simp only [answerInner, hmux, Bool.false_eq_true, if_false] at hfails
      obtain ⟨expected, hhash, hne⟩ := bne_of_not_accepts sha256Hex hfails
      simp only [nextSeq, hmux, Bool.false_eq_true, if_false, hhash, hne, if_true]
      exact ⟨_, rfl⟩

theorem restoreBlockInner_arrives (hremote : isRemote (c.blocks i).location = true)
    (husable : ¬ (answerInner remote c i c.busSeq).Fails sha256Hex (c.blocks i).contentHash)
    (nowNs : UInt64) :
    ∃ data, restoreBlockInner sha256Hex remote c i nowNs =
      (c.nextSeq.arriveRemote i nowNs
        ((answerInner remote c i c.busSeq).length (c.blocks i).size), .restoredRemote i, data) := by
  cases hloc : (c.blocks i).location with
  | resident | localStore | fetching | virgin =>
    rw [hloc] at hremote
    cases hremote
  | remoteKernel kernelId endpoint token =>
    simp only [restoreBlockInner, hloc]
    by_cases hmux : c.muxClient = true
    · simp only [answerInner, hmux, if_true, muxAnswer] at husable ⊢
      simp only [nextSeq, hmux, if_true]
      cases hfetch : remote.fetchBlock i (c.blocks i).contentHash c.busSeq with
      | error e =>
        rw [hfetch] at husable
        exact absurd trivial husable
      | ok data =>
        rw [hfetch] at husable
        have haccepts : Accepts sha256Hex (c.blocks i).contentHash data := not_not.mp husable
        cases hhash : (c.blocks i).contentHash with
        | none => exact ⟨_, rfl⟩
        | some expected =>
          rw [hhash] at haccepts
          simp only [bne_of_accepts sha256Hex haccepts, Bool.false_eq_true, if_false]
          exact ⟨_, rfl⟩
    · simp only [answerInner, hmux, Bool.false_eq_true, if_false] at husable ⊢
      simp only [nextSeq, hmux, Bool.false_eq_true, if_false]
      have haccepts := not_not.mp husable
      cases hhash : (c.blocks i).contentHash with
      | none => exact ⟨_, rfl⟩
      | some expected =>
        rw [hhash] at haccepts
        simp only [bne_of_accepts sha256Hex haccepts, Bool.false_eq_true, if_false]
        exact ⟨_, rfl⟩

end Asking

/-! ## Failures -/

/-- The same block table, resident count and statistics. -/
structure SameTable (c c' : RamRaidController cfg) : Prop where
  blocks : c'.blocks = c.blocks
  residentCount : c'.residentCount = c.residentCount
  faultsHandled : c'.faultsHandled = c.faultsHandled
  evictionsPerformed : c'.evictionsPerformed = c.evictionsPerformed
  bytesCompressed : c'.bytesCompressed = c.bytesCompressed
  bytesDecompressed : c'.bytesDecompressed = c.bytesDecompressed
  remoteTransfers : c'.remoteTransfers = c.remoteTransfers
  zeroPagesServed : c'.zeroPagesServed = c.zeroPagesServed

/-- The table and the statistics are as before, and so are the transports and what the local block
store holds. -/
structure Undisturbed (c c' : RamRaidController cfg) : Prop where
  table : SameTable c c'
  muxClient : c'.muxClient = c.muxClient
  held : ∀ j, c'.localBlockStore.map (fun store => store.content j) =
    c.localBlockStore.map (fun store => store.content j)

/-- A restore that failed: only the bus sequence number has moved on. -/
structure Fruitless (c : RamRaidController cfg) (i : Fin cfg.blockCount)
    (outcome : RamRaidController cfg × FaultResult) : Prop where
  failed : ∃ reason, outcome.2 = .failed i reason
  undisturbed : Undisturbed c outcome.1
  busSeq : outcome.1.busSeq = c.busSeq + 1
  lruClock : outcome.1.lruClock = c.lruClock

section Failures

variable (sha256Hex : List UInt8 → String) (remote : Remote)

theorem undisturbed_asked (c : RamRaidController cfg) (i : Fin cfg.blockCount) :
    Undisturbed c (c.asked i) := by
  refine ⟨⟨rfl, rfl, rfl, rfl, rfl, rfl, rfl, rfl⟩, rfl, fun j => ?_⟩
  simp only [asked]
  split
  · rfl
  · cases c.localBlockStore with
    | none => rfl
    | some store => simp

theorem restoreBlock_fruitless {c : RamRaidController cfg} {i : Fin cfg.blockCount}
    (hremote : isRemote (c.blocks i).location = true)
    (hfails : (answer remote c i c.busSeq).Fails sha256Hex (c.blocks i).contentHash)
    (nowNs : UInt64) : Fruitless c i (restoreBlock sha256Hex remote c i nowNs) := by
  obtain ⟨reason, heq⟩ := restoreBlock_fails sha256Hex remote hremote hfails nowNs
  rw [heq]
  exact ⟨⟨reason, rfl⟩, undisturbed_asked c i, rfl, rfl⟩

/-- A list of blocks in two parts. -/
theorem forBlocks_append
    (f : RamRaidController cfg → Fin cfg.blockCount → RamRaidController cfg × FaultResult)
    (c : RamRaidController cfg) (before after : List (Fin cfg.blockCount)) :
    forBlocks f c (before ++ after) =
      ((forBlocks f (forBlocks f c before).1 after).1,
        (forBlocks f c before).2 ++ (forBlocks f (forBlocks f c before).1 after).2) := by
  induction before generalizing c with
  | nil => rfl
  | cons i before ih =>
    simp only [List.cons_append, forBlocks, ih]

/-- Fetched blocks in two parts, the first of them in the table. -/
theorem batchArriveAll_append (nowNs : UInt64) (c : RamRaidController cfg)
    {before : List (Nat × List UInt8)} (after : List (Nat × List UInt8))
    (hbefore : ∀ e ∈ before, e.1 < cfg.blockCount) :
    batchArriveAll sha256Hex nowNs c (before ++ after) =
      ((batchArriveAll sha256Hex nowNs (batchArriveAll sha256Hex nowNs c before).1 after).1,
        (batchArriveAll sha256Hex nowNs c before).2 ++
          (batchArriveAll sha256Hex nowNs (batchArriveAll sha256Hex nowNs c before).1 after).2) := by
  induction before generalizing c with
  | nil => rfl
  | cons e before ih =>
    rw [List.forall_mem_cons] at hbefore
    simp only [List.cons_append, batchArriveAll, dif_pos hbefore.1, ih _ hbefore.2]

theorem batchArrive_contentHash (nowNs : UInt64) (c : RamRaidController cfg)
    (i : Fin cfg.blockCount) (data : List UInt8) (j : Fin cfg.blockCount) :
    ((batchArrive sha256Hex nowNs c i data).1.blocks j).contentHash =
      (c.blocks j).contentHash := by
  have harrived : ((c.arriveRemote i nowNs data.length).blocks j).contentHash =
      (c.blocks j).contentHash := by
    by_cases hj : j = i
    · subst hj
      simp [arriveRemote, modifyBlock, RaidBlock.restore]
    · simp [arriveRemote, modifyBlock, Function.update_of_ne hj]
  unfold batchArrive
  split
  · split
    · rfl
    · exact harrived
  · exact harrived

theorem batchArriveAll_contentHash (nowNs : UInt64) (c : RamRaidController cfg)
    (fetched : List (Nat × List UInt8)) (j : Fin cfg.blockCount) :
    ((batchArriveAll sha256Hex nowNs c fetched).1.blocks j).contentHash =
      (c.blocks j).contentHash := by
  induction fetched generalizing c with
  | nil => rfl
  | cons e fetched ih =>
    unfold batchArriveAll
    split
    · exact (ih _).trans (batchArrive_contentHash sha256Hex nowNs c _ e.2 j)
    · rfl

/-- A fetched block with the wrong data leaves the controller exactly as it was. -/
theorem batchArrive_fails {c : RamRaidController cfg} {i : Fin cfg.blockCount}
    {data : List UInt8} (hbad : ¬ Accepts sha256Hex (c.blocks i).contentHash data)
    (nowNs : UInt64) :
    ∃ reason, batchArrive sha256Hex nowNs c i data = (c, .failed i reason) := by
  obtain ⟨expected, hhash, hne⟩ := bne_of_not_accepts sha256Hex hbad
  simp only [batchArrive, hhash, hne, if_true]
  exact ⟨_, rfl⟩

/-- The requests of a batch. -/
def batchRequests (c : RamRaidController cfg) (blockIndices : List (Fin cfg.blockCount)) :
    List (Nat × UInt64) :=
  blockIndices.mapIdx fun k i => (i.val, c.busSeq + UInt64.ofNat k)

/-- The sequence numbers of a batch are taken. -/
def reserved (c : RamRaidController cfg) (blockIndices : List (Fin cfg.blockCount)) :
    RamRaidController cfg :=
  { c with busSeq := c.busSeq + UInt64.ofNat blockIndices.length }

theorem batchRequests_indices (c : RamRaidController cfg)
    (blockIndices : List (Fin cfg.blockCount)) :
    (c.batchRequests blockIndices).map Prod.fst = blockIndices.map Fin.val := by
  unfold batchRequests
  apply List.ext_getElem (by simp)
  intro k hk hk'
  simp

theorem batchRestoreRemote_client {c : RamRaidController cfg} (hmux : c.muxClient = true)
    {is : List (Fin cfg.blockCount)} {fetched : List (Nat × List UInt8)}
    (hfetch : remote.fetchBatch (c.batchRequests is) = .ok fetched) (nowNs : UInt64) :
    batchRestoreRemote sha256Hex remote c nowNs is =
      batchArriveAll sha256Hex nowNs (c.reserved is) fetched := by
  simp only [batchRequests] at hfetch
  simp only [batchRestoreRemote]
  rw [if_pos hmux, hfetch]
  rfl

/-- Everything that is fetched is in the table. -/
theorem lt_of_fetched {c : RamRaidController cfg} {is : List (Fin cfg.blockCount)}
    {fetched : List (Nat × List UInt8)}
    (hfetch : remote.fetchBatch (c.batchRequests is) = .ok fetched) :
    ∀ e ∈ fetched, e.1 < cfg.blockCount := by
  intro e he
  have hmem := List.mem_map_of_mem (f := Prod.fst) he
  rw [remote.fetchBatch_indices _ _ hfetch, batchRequests_indices, List.mem_map] at hmem
  obtain ⟨i, -, hi⟩ := hmem
  rw [← hi]
  exact i.isLt

/-- A fetched block with the wrong data: the batch goes on from where it was. -/
theorem batchRestoreRemote_skips {c : RamRaidController cfg} (hmux : c.muxClient = true)
    {is : List (Fin cfg.blockCount)} {before after : List (Nat × List UInt8)}
    {i : Fin cfg.blockCount} {data : List UInt8}
    (hfetch : remote.fetchBatch (c.batchRequests is) = .ok (before ++ (i.val, data) :: after))
    (hbad : ¬ Accepts sha256Hex (c.blocks i).contentHash data) (nowNs : UInt64) :
    ∃ reason,
      let c₁ := (batchArriveAll sha256Hex nowNs (c.reserved is) before).1
      batchRestoreRemote sha256Hex remote c nowNs is =
        ((batchArriveAll sha256Hex nowNs c₁ after).1,
          (batchArriveAll sha256Hex nowNs (c.reserved is) before).2 ++
            .failed i reason :: (batchArriveAll sha256Hex nowNs c₁ after).2) := by
  have hlt := lt_of_fetched remote hfetch
  have hkept := batchArriveAll_contentHash sha256Hex nowNs (c.reserved is) before i
  have hbad' : ¬ Accepts sha256Hex
      ((batchArriveAll sha256Hex nowNs (c.reserved is) before).1.blocks i).contentHash data := by
    rw [hkept]
    exact hbad
  obtain ⟨reason, hskip⟩ := batchArrive_fails sha256Hex hbad' nowNs
  refine ⟨reason, ?_⟩
  rw [batchRestoreRemote_client sha256Hex remote hmux hfetch,
    batchArriveAll_append sha256Hex nowNs _ _ fun e he => hlt e (List.mem_append_left _ he)]
  simp only [batchArriveAll, dif_pos i.isLt, Fin.eta, hskip]

/-- The whole batch fails when the fetch of it does. -/
theorem batchRestoreRemote_error {c : RamRaidController cfg} (hmux : c.muxClient = true)
    {is : List (Fin cfg.blockCount)} {e : Cluster.MuxError}
    (hfetch : remote.fetchBatch (c.batchRequests is) = .error e) (nowNs : UInt64) :
    ∃ reason, batchRestoreRemote sha256Hex remote c nowNs is =
      (c.reserved is, is.map fun i : Fin cfg.blockCount => .failed i reason) := by
  simp only [batchRequests] at hfetch
  refine ⟨s!"Batch fetch failed: {display e}", ?_⟩
  simp only [batchRestoreRemote]
  rw [if_pos hmux, hfetch]
  simp only [List.bind_eq_flatMap, List.pure_def, ← List.map_eq_flatMap, List.map_map]
  rfl

/-- Without a client a batch restores its blocks one by one. -/
theorem batchRestoreRemote_local {c : RamRaidController cfg} (hmux : c.muxClient = false)
    (is : List (Fin cfg.blockCount)) (nowNs : UInt64) :
    batchRestoreRemote sha256Hex remote c nowNs is =
      forBlocks (fun c i => restoreBlock sha256Hex remote c i nowNs) (c.reserved is) is := by
  simp only [batchRestoreRemote]
  rw [if_neg (by rw [hmux]; exact Bool.false_ne_true)]
  rfl

/-- A dirty victim whose store the MUX client refuses. -/
theorem evictColdest_undisturbed {c : RamRaidController cfg} {v : Fin cfg.blockCount}
    (hcold : c.coldest = some v) (hstays : ¬ Leaves sha256Hex remote c v) :
    let outcome := evictColdest sha256Hex remote c
    (∃ reason, outcome.2 = .failed v reason) ∧ Undisturbed c outcome.1 ∧
      outcome.1.busSeq = c.busSeq + 1 ∧ outcome.1.lruClock.toNat = v + 1 ∧
      (outcome.1.blocks v).dirty = true ∧ (outcome.1.blocks v).location = .resident := by
  have hdirty := ((not_leaves_iff sha256Hex remote).mp hstays).1
  have hres := coldest_resident hcold
  obtain ⟨history, reason, heq⟩ := evictColdest_stays sha256Hex remote hcold hstays
  rw [heq]
  refine ⟨⟨reason, rfl⟩, ?_, rfl, toNat_clockBehind v, hdirty, hres⟩
  exact ⟨⟨rfl, rfl, rfl, rfl, rfl, rfl, rfl, rfl⟩, rfl, fun _ => rfl⟩

/-- Whatever goes wrong with the remote kernel: a restore that gets no usable answer fails and
leaves the table and all statistics alone, also as one step of a batch, which goes on with the
next block; and a victim whose store is refused is still dirty and resident. -/
theorem failures_undisturbed (c : RamRaidController cfg) (nowNs : UInt64) :
    (∀ i, isRemote (c.blocks i).location = true →
      (answer remote c i c.busSeq).Fails sha256Hex (c.blocks i).contentHash →
      Fruitless c i (restoreBlock sha256Hex remote c i nowNs)) ∧
    (∀ i, isRemote (c.blocks i).location = true →
      (answerInner remote c i c.busSeq).Fails sha256Hex (c.blocks i).contentHash →
      let outcome := restoreBlockInner sha256Hex remote c i nowNs
      Fruitless c i (outcome.1, outcome.2.1)) ∧
    (∀ is e, c.muxClient = true → remote.fetchBatch (c.batchRequests is) = .error e →
      ∃ reason, batchRestoreRemote sha256Hex remote c nowNs is =
        (c.reserved is, is.map fun i : Fin cfg.blockCount => .failed i reason)) ∧
    (∀ is before after i data, c.muxClient = true →
      remote.fetchBatch (c.batchRequests is) = .ok (before ++ (Fin.val i, data) :: after) →
      ¬ Accepts sha256Hex (c.blocks i).contentHash data →
      ∃ reason,
        let c₁ := (batchArriveAll sha256Hex nowNs (c.reserved is) before).1
        batchRestoreRemote sha256Hex remote c nowNs is =
          ((batchArriveAll sha256Hex nowNs c₁ after).1,
            (batchArriveAll sha256Hex nowNs (c.reserved is) before).2 ++
              .failed i reason :: (batchArriveAll sha256Hex nowNs c₁ after).2)) ∧
    (∀ before i after, c.muxClient = false →
      let is := before ++ i :: after
      let restore := fun c i => restoreBlock sha256Hex remote c i nowNs
      let c₁ := (forBlocks restore (c.reserved is) before).1
      isRemote (c₁.blocks i).location = true →
      (answer remote c₁ i c₁.busSeq).Fails sha256Hex (c₁.blocks i).contentHash →
      Fruitless c₁ i (restore c₁ i) ∧
        batchRestoreRemote sha256Hex remote c nowNs is =
          ((forBlocks restore (restore c₁ i).1 after).1,
            (forBlocks restore (c.reserved is) before).2 ++
              (restore c₁ i).2 :: (forBlocks restore (restore c₁ i).1 after).2)) ∧
    (∀ v, c.coldest = some v → (c.blocks v).dirty = true → c.ToRemote v → c.muxClient = true →
      (∃ e, remote.storeBlock v (simulatedData (c.blocks v))
        (sha256Hex (simulatedData (c.blocks v))) (dirtySeal (c.blocks v)) (c.blocks v).size
        c.busSeq = .error e) →
      let outcome := evictColdest sha256Hex remote c
      (∃ reason, outcome.2 = .failed v reason) ∧ Undisturbed c outcome.1 ∧
        outcome.1.busSeq = c.busSeq + 1 ∧ outcome.1.lruClock.toNat = v + 1 ∧
        (outcome.1.blocks v).dirty = true ∧ (outcome.1.blocks v).location = .resident) := by
  refine ⟨?_, ?_, ?_, ?_, ?_, ?_⟩
  · exact fun i hremote hfails => restoreBlock_fruitless sha256Hex remote hremote hfails nowNs
  · intro i hremote hfails
    obtain ⟨reason, heq⟩ := restoreBlockInner_fails sha256Hex remote hremote hfails nowNs
    simp only [heq]
    refine ⟨⟨reason, rfl⟩, ?_, rfl, rfl⟩
    exact ⟨⟨rfl, rfl, rfl, rfl, rfl, rfl, rfl, rfl⟩, rfl, fun _ => rfl⟩
  · exact fun is e hmux hfetch => batchRestoreRemote_error sha256Hex remote hmux hfetch nowNs
  · exact fun is before after i data hmux hfetch hbad =>
      batchRestoreRemote_skips sha256Hex remote hmux hfetch hbad nowNs
  · intro before i after hmux is restore c₁ hremote hfails
    refine ⟨restoreBlock_fruitless sha256Hex remote hremote hfails nowNs, ?_⟩
    rw [batchRestoreRemote_local sha256Hex remote hmux, forBlocks_append]
    rfl
  · intro v hcold hdirty htoRemote hmux hrefused
    exact evictColdest_undisturbed sha256Hex remote hcold
      ((not_leaves_iff sha256Hex remote).mpr ⟨hdirty, htoRemote, hmux, hrefused⟩)

end Failures

open Demo in
/-- The store of block 1 is refused. -/
theorem failures_undisturbed_written :
    let outcome := evictColdest stripedSha256 offline written
    (∃ reason, outcome.2 = .failed 1 reason) ∧ Undisturbed written outcome.1 ∧
      outcome.1.busSeq = written.busSeq + 1 ∧ outcome.1.lruClock.toNat = 2 ∧
      (outcome.1.blocks ⟨1, by decide⟩).dirty = true ∧
      (outcome.1.blocks ⟨1, by decide⟩).location = .resident :=
  (failures_undisturbed stripedSha256 offline written 4).2.2.2.2.2 ⟨1, by decide⟩
    (by decide) (by decide) (by decide) rfl ⟨_, rfl⟩

/-! ## The two restores -/

/-- A fault result up to the reason of a failure. -/
def variant : FaultResult → FaultResult
  | .failed i _ => .failed i ""
  | result => result

/-- Both restores of a block change the table and the counters alike and return the same variant
for the same block. -/
structure Agree (sha256Hex : List UInt8 → String) (remote : Remote) (c : RamRaidController cfg)
    (i : Fin cfg.blockCount) (nowNs : UInt64) : Prop where
  table : SameTable (restoreBlock sha256Hex remote c i nowNs).1
    (restoreBlockInner sha256Hex remote c i nowNs).1
  busSeq : (restoreBlockInner sha256Hex remote c i nowNs).1.busSeq =
    (restoreBlock sha256Hex remote c i nowNs).1.busSeq
  variant : variant (restoreBlockInner sha256Hex remote c i nowNs).2.1 =
    variant (restoreBlock sha256Hex remote c i nowNs).2

/-- Zeros pass for the block exactly if what `restore_block` finds without a MUX client does, and
then it is as long. -/
def ZerosDo (sha256Hex : List UInt8 → String) (c : RamRaidController cfg)
    (i : Fin cfg.blockCount) : Prop :=
  let b := c.blocks i
  let zeros := Answer.data (List.replicate b.size 0)
  ((localAnswer c i).Fails sha256Hex b.contentHash ↔ zeros.Fails sha256Hex b.contentHash) ∧
    (¬ zeros.Fails sha256Hex b.contentHash →
      UInt64.ofNat ((localAnswer c i).length b.size) = UInt64.ofNat b.size)

section Agreement

variable (sha256Hex : List UInt8 → String) (remote : Remote)
variable {c : RamRaidController cfg} {i : Fin cfg.blockCount}

/-- A block that is not on a remote kernel is restored in the same way. -/
theorem agree_of_not_remote (hremote : isRemote (c.blocks i).location = false) (nowNs : UInt64) :
    Agree sha256Hex remote c i nowNs := by
  cases hloc : (c.blocks i).location with
  | remoteKernel kernelId endpoint token =>
    rw [hloc] at hremote
    cases hremote
  | resident | localStore | fetching | virgin =>
    constructor
    · simp only [restoreBlock, restoreBlockInner, hloc]
      exact ⟨rfl, rfl, rfl, rfl, rfl, rfl, rfl, rfl⟩
    · simp only [restoreBlock, restoreBlockInner, hloc]
    · simp only [restoreBlock, restoreBlockInner, hloc, variant]

/-- Two usable answers: the controllers differ at most in the bytes counted. -/
theorem sameTable_arrive_iff (c : RamRaidController cfg) (i : Fin cfg.blockCount)
    (nowNs : UInt64) (bytes bytes' : Nat) :
    SameTable ((c.asked i).arriveRemote i nowNs bytes) (c.nextSeq.arriveRemote i nowNs bytes') ↔
      UInt64.ofNat bytes = UInt64.ofNat bytes' := by
  constructor
  · intro h
    have hbytes := h.bytesDecompressed
    simp only [arriveRemote] at hbytes
    exact (UInt64.add_right_inj _).mp hbytes.symm
  · intro h
    refine ⟨rfl, rfl, rfl, rfl, rfl, ?_, rfl, rfl⟩
    simp only [arriveRemote, h]
    rfl

/-- A block on a remote kernel: the two answers decide. -/
theorem agree_remote_iff (hremote : isRemote (c.blocks i).location = true) (nowNs : UInt64) :
    Agree sha256Hex remote c i nowNs ↔
      ((answer remote c i c.busSeq).Fails sha256Hex (c.blocks i).contentHash ↔
        (answerInner remote c i c.busSeq).Fails sha256Hex (c.blocks i).contentHash) ∧
      (¬ (answerInner remote c i c.busSeq).Fails sha256Hex (c.blocks i).contentHash →
        UInt64.ofNat ((answer remote c i c.busSeq).length (c.blocks i).size) =
          UInt64.ofNat ((answerInner remote c i c.busSeq).length (c.blocks i).size)) := by
  by_cases hfails : (answer remote c i c.busSeq).Fails sha256Hex (c.blocks i).contentHash
  · obtain ⟨reason, heq⟩ := restoreBlock_fails sha256Hex remote hremote hfails nowNs
    by_cases hinner : (answerInner remote c i c.busSeq).Fails sha256Hex (c.blocks i).contentHash
    · obtain ⟨reason', hinnerEq⟩ :=
        restoreBlockInner_fails sha256Hex remote hremote hinner nowNs
      refine iff_of_true ?_ ⟨iff_of_true hfails hinner, fun husable => absurd hinner husable⟩
      constructor
      · rw [heq, hinnerEq]
        exact ⟨rfl, rfl, rfl, rfl, rfl, rfl, rfl, rfl⟩
      · rw [heq, hinnerEq]
        rfl
      · rw [heq, hinnerEq]
        rfl
    · obtain ⟨data, hinnerEq⟩ :=
        restoreBlockInner_arrives sha256Hex remote hremote hinner nowNs
      refine iff_of_false (fun h => ?_) fun h => hinner (h.1.mp hfails)
      have hvariant := h.variant
      rw [heq, hinnerEq] at hvariant
      cases hvariant
  · have heq := restoreBlock_arrives sha256Hex remote hremote hfails nowNs
    by_cases hinner : (answerInner remote c i c.busSeq).Fails sha256Hex (c.blocks i).contentHash
    · obtain ⟨reason', hinnerEq⟩ :=
        restoreBlockInner_fails sha256Hex remote hremote hinner nowNs
      refine iff_of_false (fun h => ?_) fun h => hfails (h.1.mpr hinner)
      have hvariant := h.variant
      rw [heq, hinnerEq] at hvariant
      cases hvariant
    · obtain ⟨data, hinnerEq⟩ :=
        restoreBlockInner_arrives sha256Hex remote hremote hinner nowNs
      constructor
      · intro h
        have htable := h.table
        rw [heq, hinnerEq] at htable
        exact ⟨iff_of_false hfails hinner,
          fun _ => (sameTable_arrive_iff c i nowNs _ _).mp htable⟩
      · intro h
        constructor
        · rw [heq, hinnerEq]
          exact (sameTable_arrive_iff c i nowNs _ _).mpr (h.2 hinner)
        · rw [heq, hinnerEq]
          rfl
        · rw [heq, hinnerEq]

/-- The restore of the production path agrees with `restore_block` exactly if the block is not on
a remote kernel, or a MUX client is attached, or the zeros that are made up without a client do
for what `restore_block` would have found. -/
theorem restores_agree_iff (c : RamRaidController cfg) (i : Fin cfg.blockCount) (nowNs : UInt64) :
    Agree sha256Hex remote c i nowNs ↔
      (isRemote (c.blocks i).location = true → c.muxClient = false → ZerosDo sha256Hex c i) := by
  cases hremote : isRemote (c.blocks i).location with
  | false =>
    apply iff_of_true (agree_of_not_remote sha256Hex remote hremote nowNs)
    intro hfalse
    cases hfalse
  | true =>
    rw [agree_remote_iff sha256Hex remote hremote nowNs]
    cases hmux : c.muxClient with
    | true =>
      simp [answer, answerInner, hmux]
    | false =>
      simp only [answer, answerInner, hmux, Bool.false_eq_true, if_false, ZerosDo, Answer.length,
        List.length_replicate, forall_const]

end Agreement

namespace Demo

/-- Block 1 was written and evicted without any transport attached. -/
def simulated : RamRaidController stripedPair :=
  (evictColdest stripedSha256 offline (simulateWrite (new stripedPair) 1 1)).1

end Demo

open Demo in
/-- `restore_block` restores the block, the production path fails on made-up zeros. -/
theorem restores_disagree_simulated :
    ¬ ∀ (c : RamRaidController stripedPair) (i : Fin stripedPair.blockCount) (nowNs : UInt64),
      Agree stripedSha256 offline c i nowNs := by
  intro hall
  have hvariant := (hall simulated ⟨1, by decide⟩ 2).variant
  revert hvariant
  decide

end RamRaidController

end Spaceshuttle.Raid
