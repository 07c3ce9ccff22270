import Spaceshuttle.Kernel.Snaft
import Spaceshuttle.Lib.Machine
import Spaceshuttle.Lib.Selection
import Spaceshuttle.Recovery.Snapshot

/-!
# The git store

`GitStore` of `crates/trust-kernel/src/git_store.rs`. A commit keeps the intent of its snapshot only in
the names of its branch and its file, and the searches look for parts of these names. The clock is an
argument; measured times are left out.
-/

namespace Spaceshuttle.Recovery

open Kernel (startsWith containsText)

/-- `GitCommit` (`git_store.rs:29-46`), without the message, which nothing reads. -/
structure GitCommit where
  hash : String
  shortHash : String
  branch : String
  filePath : String
  fileSize : UInt64
  committedAt : String
  pushed : Bool
  deriving DecidableEq, Repr

/-- `GitStoreResult` (`git_store.rs:50-66`). -/
inductive GitStoreResult where
  | committed (commit : GitCommit)
  | committedAndPushed (commit : GitCommit)
  | disabled
  | failed (reason : String)
  deriving DecidableEq, Repr

/-- `GitSearchResult` (`git_store.rs:70-80`). -/
inductive GitSearchResult where
  | found (commits : List GitCommit)
  | notFound (intent : String)
  | unavailable
  deriving DecidableEq, Repr

/-- `GitStore` (`git_store.rs:86-99`). -/
structure GitStore where
  repoPath : String
  remoteUrl : Option String
  autoPush : Bool
  commits : List GitCommit
  commitCounter : UInt64
  initialized : Bool
  deriving DecidableEq, Repr

/-! ## Names -/

/-- `replace(':', other)` for a text `other` of one character. -/
def replaceColon (text : String) (other : Char) : String :=
  String.ofList (text.toList.map fun c => if c = ':' then other else c)

/-- The branch of an intent. -/
def branchOf (intent : String) : String := "snap/" ++ replaceColon intent '_'

/-- The path of the file of a snapshot. -/
def filePathOf (snapshot : Snapshot) : String :=
  replaceColon snapshot.intent '/' ++ "/" ++ snapshot.id ++ ".tza"

/-- `{:08x}` of a word of 32 bits. -/
def hex8 (w : UInt32) : String :=
  let digits := Nat.toDigits 16 w.toNat
  String.ofList (List.replicate (8 - digits.length) '0' ++ digits)

/-- `simulate_git_hash` (`git_store.rs:298-309`). -/
def simulateGitHash (content : String) (counter : UInt64) : String :=
  let hash := (asBytes content).foldl
    (fun (h : UInt64) byte => (h ^^^ byte.toUInt64) * 0x100000001b3) 0x6c62272e07bb0142
  let hash := hash ^^^ counter
  Raid.hex16 hash ++ Raid.hex16 (Raid.rotateLeft hash 32) ++ hex8 (hash >>> 16).toUInt32

namespace GitStore

/-- `GitStore::new` (`git_store.rs:105-114`). -/
def new (repoPath : String) (remoteUrl : Option String) (autoPush : Bool) : GitStore where
  repoPath := repoPath
  remoteUrl := remoteUrl
  autoPush := autoPush
  commits := []
  commitCounter := 0
  initialized := true

/-- `commit_snapshot` (`git_store.rs:124-198`). -/
def commitSnapshot (store : GitStore) (snapshot : Snapshot) (now : String) :
    GitStore × GitStoreResult :=
  if !store.initialized then (store, .disabled)
  else
    let counter := store.commitCounter + 1
    let hash := simulateGitHash snapshot.id counter
    let commit : GitCommit :=
      { hash
        shortHash := String.ofList (hash.toList.take 8)
        branch := branchOf snapshot.intent
        filePath := filePathOf snapshot
        fileSize := snapshot.compressedSize + tzaHeaderSize
        committedAt := now
        pushed := false }
    if store.autoPush && store.remoteUrl.isSome then
      let pushedCommit := { commit with pushed := true }
      ({ store with commitCounter := counter, commits := store.commits ++ [pushedCommit] },
        .committedAndPushed pushedCommit)
    else
      ({ store with commitCounter := counter, commits := store.commits ++ [commit] },
        .committed commit)

/-- `search_by_intent` (`git_store.rs:217-236`). -/
def searchByIntent (store : GitStore) (intent : String) : GitSearchResult :=
  let matching := store.commits.filter fun c =>
    containsText c.branch (replaceColon intent '_') || startsWith c.filePath (replaceColon intent '/')
  if matching.isEmpty then .notFound intent else .found matching

/-- `find_latest` (`git_store.rs:243-247`). -/
def findLatest (store : GitStore) (intent : String) : Option GitCommit :=
  (store.commits.filter fun c => containsText c.branch (replaceColon intent '_')).getLast?

end GitStore

/-! ## Runs -/

/-- A call of `commit_snapshot`. -/
structure CommitRequest where
  snapshot : Snapshot
  now : String
  deriving DecidableEq, Repr

/-- Run a call. -/
def gitStep (store : GitStore) (request : CommitRequest) : GitStore × GitStoreResult :=
  store.commitSnapshot request.snapshot request.now

/-- The names that a commit keeps. -/
def GitCommit.names (c : GitCommit) : String × String := (c.branch, c.filePath)

/-- The names of the commit of a snapshot. -/
def namesOf (snapshot : Snapshot) : String × String := (branchOf snapshot.intent, filePathOf snapshot)

/-- There is a commit for each snapshot, in order, under its names. -/
structure Committed (snapshots : List Snapshot) (store : GitStore) : Prop where
  initialized : store.initialized = true
  names : store.commits.map GitCommit.names = snapshots.map namesOf

theorem Committed.step {snapshots : List Snapshot} {store : GitStore}
    (h : Committed snapshots store) (request : CommitRequest) :
    Committed (snapshots ++ [request.snapshot]) (gitStep store request).1 := by
  have hinit : ¬ (!store.initialized) = true := by simp [h.initialized]
  unfold gitStep GitStore.commitSnapshot
  rw [if_neg hinit]
  dsimp only
  split
  all_goals
    refine ⟨h.initialized, ?_⟩
    rw [List.map_append, h.names, List.map_append]
    rfl

theorem committed_run (repoPath : String) (remoteUrl : Option String) (autoPush : Bool)
    (requests : List CommitRequest) :
    Committed (requests.map CommitRequest.snapshot)
      (Machine.run gitStep (.new repoPath remoteUrl autoPush) requests) := by
  induction requests using List.reverseRecOn with
  | nil => exact ⟨rfl, rfl⟩
  | append_singleton requests request ih =>
    rw [Machine.run_concat, List.map_append]
    exact ih.step request

/-! ## Intents and names -/

/-- The two replacements together determine a text. -/
theorem eq_of_replaced {l l' : List Char}
    (hbranch : (l.map fun c => if c = ':' then '_' else c) = l'.map fun c => if c = ':' then '_' else c)
    (hpath : (l.map fun c => if c = ':' then '/' else c) = l'.map fun c => if c = ':' then '/' else c) :
    l = l' := by
  induction l generalizing l' with
  | nil => exact (List.map_eq_nil_iff.mp hbranch.symm).symm
  | cons c l ih =>
    cases l' with
    | nil => cases hbranch
    | cons d l' =>
      rw [List.map_cons, List.map_cons, List.cons.injEq] at hbranch hpath
      rw [ih hbranch.2 hpath.2]
      have hhead : c = d := by
        have hunderscore := hbranch.1
        have hslash := hpath.1
        by_cases hc : c = ':' <;> by_cases hd : d = ':' <;>
          simp only [hc, hd, if_true, if_false] at hunderscore hslash ⊢
        · exact absurd (hunderscore.trans hslash.symm) (by decide)
        · exact absurd (hunderscore.symm.trans hslash) (by decide)
        · exact hslash
      rw [hhead]

/-- Snapshots with the same names have the same intent. -/
theorem intent_eq_of_names {s t : Snapshot} (h : namesOf s = namesOf t) : s.intent = t.intent := by
  rw [namesOf, namesOf, Prod.mk.injEq] at h
  obtain ⟨hbranch, hpath⟩ := h
  rw [branchOf, branchOf, ← String.toList_inj, String.toList_append, String.toList_append,
    List.append_cancel_left_eq, replaceColon, replaceColon, String.toList_ofList,
    String.toList_ofList] at hbranch
  have hlength := congrArg List.length hbranch
  rw [List.length_map, List.length_map] at hlength
  rw [filePathOf, filePathOf, ← String.toList_inj] at hpath
  simp only [String.toList_append, replaceColon, String.toList_ofList, List.append_assoc] at hpath
  have hslash := (List.append_inj hpath (by rw [List.length_map, List.length_map, hlength])).1
  exact String.toList_inj.mp (eq_of_replaced hbranch hslash)

/-! ## What a search finds -/

section Search

variable {snapshots : List Snapshot} {store : GitStore} {intent : String} {c : GitCommit} {s : Snapshot}

/-- The commit was made for a snapshot of the intent. -/
def MadeFor (snapshots : List Snapshot) (store : GitStore) (intent : String) (c : GitCommit) : Prop :=
  ∃ before s after, snapshots = before ++ s :: after ∧ store.commits[before.length]? = some c ∧
    s.intent = intent

/-- The searches for an intent find commits of snapshots of that very intent, and of these the latest. -/
structure Isolated (snapshots : List Snapshot) (store : GitStore) (intent : String) : Prop where
  search : ∀ commits, store.searchByIntent intent = .found commits →
    ∀ c ∈ commits, MadeFor snapshots store intent c
  latest : ∀ c, store.findLatest intent = some c → ∃ before s after, snapshots = before ++ s :: after ∧
    store.commits[before.length]? = some c ∧ s.intent = intent ∧ ∀ t ∈ after, t.intent ≠ intent
  nothing : store.findLatest intent = none → ∀ s ∈ snapshots, s.intent ≠ intent

/-- The branch of the snapshot contains the name of the intent. -/
def onBranch (intent : String) (snapshot : Snapshot) : Bool :=
  containsText (branchOf snapshot.intent) (replaceColon intent '_')

/-- The branch of the snapshot contains the name of the intent, or its path begins with it. -/
def foundFor (intent : String) (snapshot : Snapshot) : Bool :=
  onBranch intent snapshot || startsWith (filePathOf snapshot) (replaceColon intent '/')

theorem onBranch_self (s : Snapshot) : onBranch s.intent s = true := by
  rw [onBranch, containsText, decide_eq_true_iff, branchOf, String.toList_append]
  exact (List.suffix_append _ _).isInfix

/-- A snapshot is found for every text that its intent begins with. -/
theorem onBranch_of_startsWith (h : startsWith s.intent intent = true) : onBranch intent s = true := by
  rw [startsWith, List.isPrefixOf_iff_prefix] at h
  obtain ⟨rest, hrest⟩ := h
  have hname : (replaceColon intent '_').toList <:+: (replaceColon s.intent '_').toList := by
    rw [replaceColon, replaceColon, String.toList_ofList, String.toList_ofList, ← hrest,
      List.map_append]
    exact (List.prefix_append _ _).isInfix
  rw [onBranch, containsText, decide_eq_true_iff, branchOf, String.toList_append]
  exact hname.trans (List.suffix_append _ _).isInfix

/-- Where a commit stands, its snapshot stands. -/
theorem Committed.snapshot_of (h : Committed snapshots store) {before after : List GitCommit}
    (hsplit : store.commits = before ++ c :: after) :
    ∃ earlier s later, snapshots = earlier ++ s :: later ∧
      store.commits[earlier.length]? = some c ∧
      namesOf s = c.names ∧ later.map namesOf = after.map GitCommit.names := by
  have hnames := h.names
  rw [hsplit, List.map_append, List.map_cons] at hnames
  obtain ⟨earlier, rest, hsnapshots, hearlier, hrest⟩ := List.map_eq_append_iff.mp hnames.symm
  obtain ⟨s, later, rfl, hs, hlater⟩ := List.map_eq_cons_iff.mp hrest
  have hlength := congrArg List.length hearlier
  rw [List.length_map, List.length_map] at hlength
  refine ⟨earlier, s, later, hsnapshots, ?_, hs, hlater⟩
  rw [hlength, hsplit, List.getElem?_append_right (Nat.le_refl _), Nat.sub_self,
    List.getElem?_cons_zero]

/-- Where a snapshot stands, its commit stands. -/
theorem Committed.commit_of (h : Committed snapshots store) {before after : List Snapshot}
    (hsplit : snapshots = before ++ s :: after) :
    ∃ c, store.commits[before.length]? = some c ∧ c.names = namesOf s := by
  have hnames := congrArg (fun names => names[before.length]?) h.names
  simp only [List.getElem?_map, hsplit, List.getElem?_append_right (Nat.le_refl _), Nat.sub_self,
    List.getElem?_cons_zero, Option.map_some] at hnames
  exact Option.map_eq_some_iff.mp hnames

theorem onBranch_of_names (h : namesOf s = c.names) :
    containsText c.branch (replaceColon intent '_') = onBranch intent s := by
  rw [onBranch, show c.branch = branchOf s.intent from (congrArg Prod.fst h).symm]

theorem foundFor_of_names (h : namesOf s = c.names) :
    (containsText c.branch (replaceColon intent '_') ||
      startsWith c.filePath (replaceColon intent '/')) = foundFor intent s := by
  rw [onBranch_of_names h, foundFor, show c.filePath = filePathOf s from (congrArg Prod.snd h).symm]

/-- A commit that a search for the intent finds. -/
theorem mem_search_iff : (∃ commits, store.searchByIntent intent = .found commits ∧ c ∈ commits) ↔
    c ∈ store.commits ∧ (containsText c.branch (replaceColon intent '_') ||
      startsWith c.filePath (replaceColon intent '/')) = true := by
  have hmatching : c ∈ store.commits.filter (fun c => containsText c.branch (replaceColon intent '_') ||
      startsWith c.filePath (replaceColon intent '/')) ↔ _ := List.mem_filter
  rw [← hmatching, GitStore.searchByIntent]
  split
  · next hempty =>
    rw [List.isEmpty_iff] at hempty
    rw [hempty]
    refine iff_of_false ?_ List.not_mem_nil
    rintro ⟨commits, hfound, -⟩
    cases hfound
  · constructor
    · rintro ⟨commits, hfound, hmem⟩
      cases hfound
      exact hmem
    · exact fun hmem => ⟨_, rfl, hmem⟩

/-- Where the search keeps to the intent, only its snapshots are found. -/
theorem Committed.intent_of_found (h : Committed snapshots store)
    (hsearch : ∀ commits, store.searchByIntent intent = .found commits →
      ∀ c ∈ commits, MadeFor snapshots store intent c)
    (hs : s ∈ snapshots) (hfound : foundFor intent s = true) : s.intent = intent := by
  obtain ⟨before, after, hsplit⟩ := List.append_of_mem hs
  obtain ⟨c, hc, hnames⟩ := h.commit_of hsplit
  rw [← foundFor_of_names hnames.symm] at hfound
  obtain ⟨commits, hcommits, hmem⟩ := mem_search_iff.mpr ⟨List.mem_of_getElem? hc, hfound⟩
  obtain ⟨before', t, after', hsplit', hc', hintent⟩ := hsearch commits hcommits c hmem
  obtain ⟨d, hd, hnames'⟩ := h.commit_of hsplit'
  rw [hc'] at hd
  cases hd
  rw [← hintent]
  exact intent_eq_of_names (hnames.symm.trans hnames')

section Clear

variable (h : Committed snapshots store)
  (hclear : ∀ s ∈ snapshots, foundFor intent s = true → s.intent = intent)

include h hclear

theorem Committed.search_keeps {commits : List GitCommit}
    (hsearch : store.searchByIntent intent = .found commits) (hc : c ∈ commits) :
    MadeFor snapshots store intent c := by
  obtain ⟨hstored, hfound⟩ := mem_search_iff.mp ⟨commits, hsearch, hc⟩
  obtain ⟨before, after, hsplit⟩ := List.append_of_mem hstored
  obtain ⟨earlier, s, later, hsnapshots, hstands, hnames, -⟩ := h.snapshot_of hsplit
  rw [foundFor_of_names hnames] at hfound
  have hs : s ∈ snapshots := by
    rw [hsnapshots]
    exact List.mem_append_right _ List.mem_cons_self
  exact ⟨earlier, s, later, hsnapshots, hstands, hclear s hs hfound⟩

/-- What `find_latest` finds is the last on a branch of the intent, and every snapshot of the intent is on
one. -/
theorem Committed.latest_keeps (hlatest : store.findLatest intent = some c) :
    ∃ before s after, snapshots = before ++ s :: after ∧ store.commits[before.length]? = some c ∧
      s.intent = intent ∧ ∀ t ∈ after, t.intent ≠ intent := by
  obtain ⟨hbranch, before, after, hsplit, hafter⟩ := Selection.getLast?_filter_eq_some_iff.mp hlatest
  obtain ⟨earlier, s, later, hsnapshots, hstands, hnames, hlater⟩ := h.snapshot_of hsplit
  rw [onBranch_of_names hnames] at hbranch
  have hfound : foundFor intent s = true := by rw [foundFor, hbranch, Bool.true_or]
  have hs : s ∈ snapshots := by
    rw [hsnapshots]
    exact List.mem_append_right _ List.mem_cons_self
  refine ⟨earlier, s, later, hsnapshots, hstands, hclear s hs hfound, ?_⟩
  rintro t ht rfl
  have hname : namesOf t ∈ after.map GitCommit.names := hlater ▸ List.mem_map_of_mem ht
  obtain ⟨d, hd, hdnames⟩ := List.mem_map.mp hname
  apply hafter d hd
  rw [onBranch_of_names hdnames.symm]
  exact onBranch_self t

end Clear

theorem Committed.nothing_keeps (h : Committed snapshots store)
    (hnone : store.findLatest intent = none) (hs : s ∈ snapshots) : s.intent ≠ intent := by
  rintro rfl
  obtain ⟨before, after, hsplit⟩ := List.append_of_mem hs
  obtain ⟨c, hc, hnames⟩ := h.commit_of hsplit
  rw [GitStore.findLatest, List.getLast?_eq_none_iff, List.filter_eq_nil_iff] at hnone
  apply hnone c (List.mem_of_getElem? hc)
  rw [onBranch_of_names hnames.symm]
  exact onBranch_self s

/-- The searches keep to the intent if and only if no snapshot of another intent is found for it. -/
theorem Committed.isolated_iff (h : Committed snapshots store) :
    Isolated snapshots store intent ↔
      ∀ s ∈ snapshots, foundFor intent s = true → s.intent = intent := by
  constructor
  · exact fun hisolated _ => h.intent_of_found hisolated.search
  · intro hclear
    exact
      { search := fun _ hsearch _ => h.search_keeps hclear hsearch
        latest := fun _ => h.latest_keeps hclear
        nothing := fun hnone _ => h.nothing_keeps hnone }

/-- After every run of commits, the searches for an intent keep to it if and only if no snapshot of
another intent has a branch that contains its name or a path that begins with it. -/
theorem isolated_run_iff (repoPath : String) (remoteUrl : Option String) (autoPush : Bool)
    (requests : List CommitRequest) (intent : String) :
    Isolated (requests.map CommitRequest.snapshot)
        (Machine.run gitStep (.new repoPath remoteUrl autoPush) requests) intent ↔
      ∀ request ∈ requests, foundFor intent request.snapshot = true →
        request.snapshot.intent = intent := by
  rw [(committed_run repoPath remoteUrl autoPush requests).isolated_iff, List.forall_mem_map]

end Search

/-- A snapshot of code that was executed. -/
def executed : Snapshot := ⟨"snap_1", "code:execute", 1, 4, 4, "", "", [1, 2, 3, 4]⟩

/-- A search for one intent finds the snapshot of another whose name begins with it. -/
theorem search_crosses_intents :
    ¬ Isolated [executed] (Machine.run gitStep (.new "/git" none false) [⟨executed, ""⟩]) "code:exec" := by
  intro h
  have hcommitted := committed_run "/git" none false [⟨executed, ""⟩]
  have hbranch : onBranch "code:exec" executed = true := onBranch_of_startsWith (by decide)
  have hfound : foundFor "code:exec" executed = true := by rw [foundFor, hbranch, Bool.true_or]
  have hintent := hcommitted.isolated_iff.mp h executed (List.mem_singleton_self _) hfound
  exact absurd hintent (by decide)

end Spaceshuttle.Recovery
