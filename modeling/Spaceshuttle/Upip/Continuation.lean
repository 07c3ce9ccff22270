import Spaceshuttle.Upip.Assembly

/-!
# Multi-kernel continuations

`prepare_continuation` hands a copy of a token to another kernel and writes down where the chunk went.
No operation reads that, and it asks nothing about the state of the token. A chunk is used on one kernel
only if the owner sees to it: it hands over what is paged out and was not handed over before, and does
not restore what it handed over.
-/

namespace Spaceshuttle.Upip

open UpipPager

/-! ## Two kernels -/

/-- The ids of the tokens that were paged in between two states: `page_in` counts every chunk that it
restores in `access_count` (`upip_pager.rs:523`). -/
def restoredBy (p p' : UpipPager) : List String :=
  ((p.tokens.zip p'.tokens).filter (fun (t, t') => t.accessCount ≠ t'.accessCount)).map
    (fun (t, _) => t.id)

/-- The pager that owns the tokens, the continuations it handed over, and the ids of the chunks
restored on its kernel and on others. -/
structure Kernels where
  owner : UpipPager
  handed : List ForkToken
  restoredHere : List String
  restoredThere : List String

/-- An operation of the owner, or the kernel that received the continuation at a position puts its
token behind its own and pages it in. -/
inductive KernelEvent where
  | owner (op : PagerOp)
  | receive (receiver : UpipPager) (position : Nat)

namespace Kernels

/-- Nothing was handed over yet. -/
def new (chunkSize : Nat) : Kernels := ⟨.new chunkSize, [], [], []⟩

/-- What a kernel answers that pages in a token it received. -/
def pageInReceived (receiver : UpipPager) (token : ForkToken) : PageInResult :=
  ({ receiver with tokens := receiver.tokens ++ [token] }.pageIn token.id).2

/-- The continuation that an operation answers with. -/
def handedBy : PagerOutcome → List ForkToken
  | .continued (some token) => [token]
  | _ => []

/-- Run an event. -/
def step (s : Kernels) : KernelEvent → Kernels × PagerOutcome
  | .owner op =>
      let (owner, outcome) := pagerStep s.owner op
      ({ s with
          owner := owner
          handed := s.handed ++ handedBy outcome
          restoredHere := s.restoredHere ++ restoredBy s.owner owner },
        outcome)
  | .receive receiver position =>
      match s.handed[position]? with
      | none => (s, .continued none)
      | some token =>
          let result := pageInReceived receiver token
          match result with
          | .success id _ _ =>
              ({ s with restoredThere := s.restoredThere ++ [id] }, .pagedIn result)
          | _ => (s, .pagedIn result)

/-- The kernels after a run. -/
def after (chunkSize : Nat) (events : List KernelEvent) : Kernels :=
  Machine.run step (new chunkSize) events

end Kernels

namespace PagerOp

/-- The tokens that an operation restores: `page_in` a token that is not consumed and carries its seal,
`assemble` the live tokens of its task in front of the first that does not. -/
def restores (tokens : List ForkToken) : PagerOp → List ForkToken
  | .pageIn id => tokens.filter (fun t => t.id = id ∧ t.state ≠ .consumed ∧ t.Sealed)
  | .assemble intent busSeq =>
      (tokens.filter (ForkToken.isLive intent busSeq)).takeWhile (fun t => t.Sealed)
  | _ => []

/-- The tokens that an operation hands over. -/
def HandsOver (t : ForkToken) : PagerOp → Prop
  | .prepareContinuation id _ _ => t.id = id
  | _ => False

end PagerOp

/-- The owner restores no chunk that it handed over, and hands over only chunks that are paged out and
that it did not hand over before. -/
def Careful (s : Kernels) : KernelEvent → Prop
  | .owner op =>
      (∀ t ∈ op.restores s.owner.tokens, t.isTransferred = false) ∧
        ∀ t ∈ s.owner.tokens, op.HandsOver t → t.state = .pagedOut ∧ t.isTransferred = false
  | .receive _ _ => True

/-- No chunk was restored on both kernels. -/
def RestoredOnce (s : Kernels) : Prop := ∀ id ∈ s.restoredHere, id ∉ s.restoredThere

/-- What is handed over was not consumed, invalid or handed over before. -/
def HandsOverValid (s : Kernels) (event : KernelEvent) : Prop :=
  ∀ id targetKernel endpoint token,
    event = .owner (.prepareContinuation id targetKernel endpoint) →
    (s.owner.prepareContinuation id targetKernel endpoint).2 = some token →
    ∃ t, Registry.lookup ForkToken.id id s.owner.tokens = some t ∧ t.state ≠ .consumed ∧
      (∀ reason, t.state ≠ .invalid reason) ∧ t.isTransferred = false

/-! ## What an operation restores -/

section Restored

variable {p p' : UpipPager}

theorem mem_restoredBy {id : String} : id ∈ restoredBy p p' ↔
    ∃ (i : Nat) (t t' : ForkToken), p.tokens[i]? = some t ∧ p'.tokens[i]? = some t' ∧
      t.accessCount ≠ t'.accessCount ∧ t.id = id := by
  unfold restoredBy
  rw [List.mem_map]
  constructor
  · rintro ⟨⟨t, t'⟩, hmem, rfl⟩
    obtain ⟨hzip, hne⟩ := List.mem_filter.mp hmem
    obtain ⟨i, hi⟩ := List.mem_iff_getElem?.mp hzip
    obtain ⟨ht, ht'⟩ := List.getElem?_zip_eq_some.mp hi
    exact ⟨i, t, t', ht, ht', by simpa using hne, rfl⟩
  · rintro ⟨i, t, t', ht, ht', hne, rfl⟩
    refine ⟨(t, t'), List.mem_filter.mpr ⟨?_, by simpa using hne⟩, rfl⟩
    exact List.mem_of_getElem? (List.getElem?_zip_eq_some.mpr ⟨ht, ht'⟩)

/-- What was counted was restored. -/
theorem mem_restoredBy_of_counts {ids : List String} (h : Counts ids p.tokens p'.tokens) {id : String} :
    id ∈ restoredBy p p' ↔ id ∈ ids ∧ ∃ t ∈ p.tokens, t.id = id := by
  rw [mem_restoredBy]
  constructor
  · rintro ⟨i, t, t', ht, ht', hne, rfl⟩
    obtain ⟨hi, hti⟩ := List.getElem?_eq_some_iff.mp ht
    obtain ⟨hi', hti'⟩ := List.getElem?_eq_some_iff.mp ht'
    have hcount := h.get hi hi'
    rw [List.get_eq_getElem, List.get_eq_getElem, hti, hti'] at hcount
    by_cases hin : t.id ∈ ids
    · exact ⟨hin, t, List.mem_of_getElem? ht, rfl⟩
    · rw [if_neg hin] at hcount
      exact absurd hcount.symm hne
  · rintro ⟨hin, t, ht, rfl⟩
    obtain ⟨i, hi⟩ := List.mem_iff_getElem?.mp ht
    obtain ⟨t', ht', hcount⟩ := Registry.Extends.of_forall₂ h i t hi
    refine ⟨i, t, t', hi, ht', ?_, rfl⟩
    rw [hcount, if_pos hin]
    simp

/-- A change that pages nothing in restores nothing. -/
theorem restoredBy_of_evolves (h : Evolves (fun _ => False) p p') {id : String} :
    id ∉ restoredBy p p' := by
  intro hid
  obtain ⟨i, t, t', ht, ht', hne, -⟩ := mem_restoredBy.mp hid
  obtain ⟨u, hu, -, hcount⟩ := h.counts i t ht
  rw [ht'] at hu
  cases hu
  rcases hcount with hsame | ⟨hin, -⟩
  · exact hne hsame.symm
  · exact hin

theorem mem_restoredBy_pageIn (hp : Numbered p) (target : String) {id : String} :
    id ∈ restoredBy p (p.pageIn target).1 ↔
      ∃ t ∈ (PagerOp.pageIn target).restores p.tokens, t.id = id := by
  have hone : ∀ t ∈ p.tokens, ∀ u ∈ p.tokens, u.id = t.id → u = t := fun t ht u hu heq =>
    List.inj_on_of_nodup_map hp.nodup hu ht heq
  simp only [PagerOp.restores, List.mem_filter, decide_eq_true_eq]
  by_cases hsome : ∃ t ∈ p.tokens, t.id = target ∧ t.state ≠ .consumed ∧ t.Sealed
  · obtain ⟨t, ht, rfl, hstate, hseal⟩ := hsome
    obtain ⟨htokens, -⟩ := pageIn_of_sealed hp.nodup ht hstate hseal
    have hcounts : Counts [t.id] p.tokens (p.pageIn t.id).1.tokens := by
      unfold Counts
      rw [htokens, List.forall₂_map_right_iff]
      refine List.forall₂_same.mpr fun u _ => ?_
      by_cases hu : u.id = t.id
      · simp [hu]
      · simp [hu]
    rw [mem_restoredBy_of_counts hcounts]
    constructor
    · rintro ⟨hin, -⟩
      obtain rfl := List.mem_singleton.mp hin
      exact ⟨t, ⟨ht, rfl, hstate, hseal⟩, rfl⟩
    · rintro ⟨u, ⟨hu, heq, -⟩, rfl⟩
      exact ⟨List.mem_singleton.mpr heq, u, hu, rfl⟩
  · refine iff_of_false ?_ (fun ⟨t, ⟨ht, h⟩, _⟩ => hsome ⟨t, ht, h⟩)
    cases hlookup : Registry.lookup ForkToken.id target p.tokens with
    | none =>
      refine restoredBy_of_evolves (revises_pageIn p fun t ht heq => ?_).evolves
      exact Registry.lookup_none_iff.mp hlookup t ht heq
    | some t =>
      obtain ⟨ht, rfl⟩ := Registry.lookup_some hlookup
      by_cases hstate : t.state = .consumed
      · have hsame : (p.pageIn t.id).1 = p := by
          unfold UpipPager.pageIn
          rw [hlookup]
          exact congrArg Prod.fst (if_pos hstate)
        rw [hsame]
        exact restoredBy_of_evolves .refl
      · have hseal : ¬ t.Sealed := fun hseal => hsome ⟨t, ht, rfl, hstate, hseal⟩
        obtain ⟨htokens, -⟩ := pageIn_of_not_sealed hp.nodup ht hstate hseal
        have hcounts : Counts [] p.tokens (p.pageIn t.id).1.tokens := by
          unfold Counts
          rw [htokens, List.forall₂_map_right_iff]
          refine List.forall₂_same.mpr fun u _ => ?_
          rw [if_neg List.not_mem_nil]
          split <;> rfl
        rw [mem_restoredBy_of_counts hcounts]
        exact fun h => List.not_mem_nil h.1

theorem mem_restoredBy_assemble (hp : Numbered p) (intent : String) (busSeq : UInt64) {id : String} :
    id ∈ restoredBy p (p.assemble intent busSeq).1 ↔
      ∃ t ∈ (PagerOp.assemble intent busSeq).restores p.tokens, t.id = id := by
  have hlive : ∀ t ∈ p.tokens.filter (ForkToken.isLive intent busSeq),
      t ∈ p.tokens ∧ t.state ≠ .consumed := by
    intro t ht
    obtain ⟨ht, hlive⟩ := List.mem_filter.mp ht
    exact ⟨ht, (ForkToken.isLive_iff.mp hlive).2.2.1⟩
  have hnodup : ((p.tokens.filter (ForkToken.isLive intent busSeq)).map ForkToken.id).Nodup :=
    (List.filter_sublist.map _).nodup hp.nodup
  have hcounts := assembleLoop_counts hp.nodup hlive hnodup 0
  have htokens : (p.assemble intent busSeq).1.tokens = (p.assembleLoop
      ((p.tokens.filter (ForkToken.isLive intent busSeq)).map ForkToken.id) 0).1.tokens := by
    by_cases hsome : ∃ t ∈ p.tokens, t.isLive intent busSeq = true
    · rw [assemble_some hsome]
      split
      · next heq => rw [heq]
      · next heq => rw [heq]
    · have hnone : ∀ t ∈ p.tokens, t.isLive intent busSeq = false := by simpa using hsome
      have hempty : p.tokens.filter (ForkToken.isLive intent busSeq) = [] :=
        List.filter_eq_nil_iff.mpr fun t ht => by simp [hnone t ht]
      rw [assemble_none hnone, hempty]
      rfl
  rw [← htokens] at hcounts
  rw [mem_restoredBy_of_counts hcounts, List.mem_map]
  constructor
  · rintro ⟨hin, -⟩
    exact hin
  · rintro ⟨t, ht, rfl⟩
    exact ⟨⟨t, ht, rfl⟩, t, (hlive t (List.takeWhile_subset _ ht)).1, rfl⟩

/-- What an operation pages in is what it restores. -/
theorem mem_restoredBy_step (hp : Numbered p) (op : PagerOp) {id : String} :
    id ∈ restoredBy p (pagerStep p op).1 ↔ ∃ t ∈ op.restores p.tokens, t.id = id := by
  have hnone : ∀ {op : PagerOp}, op.restores p.tokens = [] →
      Evolves (fun _ => False) p (pagerStep p op).1 →
      (id ∈ restoredBy p (pagerStep p op).1 ↔ ∃ t ∈ op.restores p.tokens, t.id = id) := by
    intro op hrestores hevolves
    rw [hrestores]
    exact iff_of_false (restoredBy_of_evolves hevolves) (fun ⟨_, ht, _⟩ => List.not_mem_nil ht)
  cases op with
  | pageOut chunkData memoryOffset intent fromAint busSeq =>
    exact hnone rfl (evolves_pageOut p _ _ _ _ _)
  | pageOutBulk data baseOffset intent fromAint busSeq =>
    refine hnone rfl ?_
    rw [pagerStep]
    split
    · exact .refl
    · next heq => exact evolves_pageOutBulk heq
  | pageIn target => exact mem_restoredBy_pageIn hp target
  | consume target => exact hnone rfl (revises_consume p target).evolves
  | assemble intent busSeq => exact mem_restoredBy_assemble hp intent busSeq
  | prepareContinuation target targetKernel endpoint =>
    exact hnone rfl (revises_prepareContinuation p target targetKernel endpoint).evolves
  | tamper position ed25519Seal => exact hnone rfl (revises_tamper p position ed25519Seal).evolves

theorem restores_subset (op : PagerOp) (tokens : List ForkToken) : op.restores tokens ⊆ tokens := by
  cases op with
  | pageIn target => exact List.filter_sublist.subset
  | assemble intent busSeq =>
    exact List.Subset.trans (List.takeWhile_subset _) List.filter_sublist.subset
  | _ => exact List.nil_subset _

/-- What an operation restored is not out any more. -/
theorem state_of_restored {op : PagerOp} {id : String} (hid : id ∈ restoredBy p (pagerStep p op).1) :
    ∃ t' ∈ (pagerStep p op).1.tokens, t'.id = id ∧ t'.state ≠ .pagedOut := by
  obtain ⟨i, t, t', ht, ht', hne, rfl⟩ := mem_restoredBy.mp hid
  obtain ⟨u, hu, hrevised, hcount⟩ := (evolves_step p op).counts i t ht
  rw [ht'] at hu
  cases hu
  rcases hcount with hsame | ⟨-, hstate⟩
  · exact absurd hsame.symm hne
  · exact ⟨t', List.mem_of_getElem? ht', congrArg Prod.fst hrevised.name, hstate⟩

/-- A `page_in` that succeeds restores its token. -/
theorem restored_of_pageIn (hp : Numbered p) {t : ForkToken} (ht : t ∈ p.tokens)
    (hstate : t.state ≠ .consumed) (hseal : t.Sealed) : t.id ∈ restoredBy p (p.pageIn t.id).1 :=
  (mem_restoredBy_pageIn hp t.id).mpr
    ⟨t, List.mem_filter.mpr ⟨ht, decide_eq_true ⟨rfl, hstate, hseal⟩⟩, rfl⟩

end Restored

/-! ## Runs -/

/-- What holds in every careful run: what was restored here is not out and was not handed over, and
what was handed over is written down as gone. -/
structure Settled (s : Kernels) : Prop where
  numbered : Numbered s.owner
  here : ∀ id ∈ s.restoredHere, (∃ t ∈ s.owner.tokens, t.id = id ∧ t.state ≠ .pagedOut) ∧
    ∀ u ∈ s.handed, u.id ≠ id
  handed : ∀ u ∈ s.handed, ∃ t ∈ s.owner.tokens, t.id = u.id ∧ t.isTransferred = true
  there : ∀ id ∈ s.restoredThere, ∃ u ∈ s.handed, u.id = id

section Runs

variable {s : Kernels}

theorem Settled.restoredOnce (hs : Settled s) : RestoredOnce s := by
  intro id hhere hthere
  obtain ⟨u, hu, hid⟩ := hs.there id hthere
  exact (hs.here id hhere).2 u hu hid

theorem settled_new (chunkSize : Nat) : Settled (.new chunkSize) :=
  ⟨numbered_new chunkSize, fun _ h => absurd h List.not_mem_nil,
    fun _ h => absurd h List.not_mem_nil, fun _ h => absurd h List.not_mem_nil⟩

/-- A token that is there stays there. -/
theorem mem_of_grows {p p' : UpipPager} (h : Grows p p') {t : ForkToken} (ht : t ∈ p.tokens) :
    ∃ t' ∈ p'.tokens, Revised t t' := by
  obtain ⟨i, hi⟩ := List.mem_iff_getElem?.mp ht
  obtain ⟨t', ht', hrevised⟩ := h i t hi
  exact ⟨t', List.mem_of_getElem? ht', hrevised⟩

theorem mem_handedBy {outcome : PagerOutcome} {token : ForkToken}
    (h : token ∈ Kernels.handedBy outcome) : outcome = .continued (some token) := by
  unfold Kernels.handedBy at h
  split at h
  · obtain rfl := List.mem_singleton.mp h
    rfl
  · cases h

/-- What an operation hands over was its to hand over, and is written down as gone. -/
theorem continued_step {p : UpipPager} (hp : Numbered p) {op : PagerOp} {token : ForkToken}
    (h : (pagerStep p op).2 = .continued (some token)) :
    (∃ t ∈ p.tokens, t.id = token.id ∧ op.HandsOver t) ∧
      ∃ t' ∈ (pagerStep p op).1.tokens, t'.id = token.id ∧ t'.isTransferred = true := by
  cases op with
  | prepareContinuation id targetKernel endpoint =>
    have hsome : (p.prepareContinuation id targetKernel endpoint).2 = some token :=
      PagerOutcome.continued.inj h
    show _ ∧ ∃ t' ∈ (p.prepareContinuation id targetKernel endpoint).1.tokens, _
    unfold UpipPager.prepareContinuation at hsome ⊢
    cases hlookup : Registry.lookup ForkToken.id id p.tokens with
    | none =>
      rw [hlookup] at hsome
      cases hsome
    | some t =>
      rw [hlookup] at hsome
      cases hsome
      obtain ⟨ht, rfl⟩ := Registry.lookup_some hlookup
      refine ⟨⟨t, ht, rfl, rfl⟩,
        { t with storage := .remoteKernel targetKernel endpoint }, ?_, rfl, rfl⟩
      show _ ∈ (p.updateToken t.id _).tokens
      rw [updateToken_tokens hp.nodup]
      exact List.mem_map.mpr ⟨t, ht, if_pos rfl⟩
  | pageOutBulk data baseOffset intent fromAint busSeq =>
    rw [pagerStep] at h
    split at h <;> cases h
  | _ => cases h

theorem restores_of_handsOver {op : PagerOp} {t : ForkToken} (h : op.HandsOver t)
    (tokens : List ForkToken) : op.restores tokens = [] := by
  cases op with
  | prepareContinuation _ _ _ => rfl
  | _ => exact absurd h id

theorem pageIn_success {p : UpipPager} {id id' : String} {bytesRestored : Nat}
    {memoryOffset : UInt64} (h : (p.pageIn id).2 = .success id' bytesRestored memoryOffset) :
    id' = id := by
  unfold UpipPager.pageIn at h
  split at h
  · cases h
  · split at h
    · cases h
    · split at h
      · cases h
      · cases h
        rfl

theorem Settled.owner (hs : Settled s) {op : PagerOp} (hcareful : Careful s (.owner op)) :
    Settled (s.step (.owner op)).1 := by
  have hevolves := evolves_step s.owner op
  have hnew : ∀ u ∈ Kernels.handedBy (pagerStep s.owner op).2, _ := fun u hu =>
    continued_step hs.numbered (mem_handedBy hu)
  -- tokens with one id are one token
  have hone : ∀ t ∈ s.owner.tokens, ∀ t' ∈ s.owner.tokens, t.id = t'.id → t = t' :=
    fun t ht t' ht' heq => List.inj_on_of_nodup_map hs.numbered.nodup ht ht' heq
  refine ⟨hevolves.numbered hs.numbered, fun id hid => ?_, fun u hu => ?_, fun id hid => ?_⟩
  · rcases List.mem_append.mp hid with hold | hrestored
    · obtain ⟨⟨t, ht, rfl, hstate⟩, hkept⟩ := hs.here id hold
      obtain ⟨t', ht', hrevised⟩ := mem_of_grows hevolves.grows ht
      have hids : t'.id = t.id := congrArg Prod.fst hrevised.name
      refine ⟨⟨t', ht', hids, fun hout => hstate (hrevised.state hout)⟩, fun u hu heq => ?_⟩
      rcases List.mem_append.mp hu with hu | hu
      · exact hkept u hu heq
      · obtain ⟨⟨t₁, ht₁, hid₁, hover⟩, -⟩ := hnew u hu
        rw [hone t ht t₁ ht₁ (heq.symm.trans hid₁.symm)] at hstate
        exact hstate (hcareful.2 t₁ ht₁ hover).1
    · have hafter := state_of_restored hrestored
      obtain ⟨t, hrestores, rfl⟩ := (mem_restoredBy_step hs.numbered op).mp hrestored
      have ht := restores_subset op s.owner.tokens hrestores
      refine ⟨hafter, fun u hu heq => ?_⟩
      rcases List.mem_append.mp hu with hu | hu
      · obtain ⟨t₁, ht₁, hid₁, hgone⟩ := hs.handed u hu
        rw [hone t₁ ht₁ t ht (hid₁.trans heq), hcareful.1 t hrestores] at hgone
        cases hgone
      · obtain ⟨⟨t₁, ht₁, -, hover⟩, -⟩ := hnew u hu
        rw [restores_of_handsOver hover] at hrestores
        cases hrestores
  · rcases List.mem_append.mp hu with hu | hu
    · obtain ⟨t, ht, hid, hgone⟩ := hs.handed u hu
      obtain ⟨t', ht', hrevised⟩ := mem_of_grows hevolves.grows ht
      have hids : t'.id = t.id := congrArg Prod.fst hrevised.name
      exact ⟨t', ht', hids.trans hid, hrevised.transferred hgone⟩
    · exact (hnew u hu).2
  · obtain ⟨u, hu, heq⟩ := hs.there id hid
    exact ⟨u, List.mem_append_left _ hu, heq⟩

theorem Settled.receive (hs : Settled s) (receiver : UpipPager) (position : Nat) :
    Settled (s.step (.receive receiver position)).1 := by
  rw [Kernels.step]
  split
  · exact hs
  · next token htoken =>
    dsimp only
    split
    · next id bytesRestored memoryOffset hsuccess =>
      refine ⟨hs.numbered, hs.here, hs.handed, fun id' hid' => ?_⟩
      rcases List.mem_append.mp hid' with hold | hnew
      · exact hs.there id' hold
      · obtain rfl := List.mem_singleton.mp hnew
        exact ⟨token, List.mem_of_getElem? htoken, (pageIn_success hsuccess).symm⟩
    · exact hs

theorem Settled.step (hs : Settled s) {event : KernelEvent} (hcareful : Careful s event) :
    Settled (s.step event).1 := by
  cases event with
  | owner op => exact hs.owner hcareful
  | receive receiver position => exact hs.receive receiver position

/-- A careful owner hands over only what may be handed over. -/
theorem Careful.handsOverValid {event : KernelEvent} (h : Careful s event) :
    HandsOverValid s event := by
  rintro id targetKernel endpoint token rfl hsome
  unfold UpipPager.prepareContinuation at hsome
  cases hlookup : Registry.lookup ForkToken.id id s.owner.tokens with
  | none =>
    rw [hlookup] at hsome
    cases hsome
  | some t =>
    obtain ⟨ht, hid⟩ := Registry.lookup_some hlookup
    obtain ⟨hout, hhere⟩ := h.2 t ht hid
    exact ⟨t, rfl, by simp [hout], by simp [hout], hhere⟩

end Runs

/-- Whatever the interleaving, a careful owner shares no chunk with the kernels it hands chunks to. -/
theorem fork_token_used_once (chunkSize : Nat) (events : List KernelEvent)
    (hcareful : Machine.AtEach (fun pre event => Careful (Kernels.after chunkSize pre) event) events) :
    (∀ pre post, events = pre ++ post → RestoredOnce (Kernels.after chunkSize pre)) ∧
      Machine.AtEach (fun pre event => HandsOverValid (Kernels.after chunkSize pre) event)
        events := by
  constructor
  · rintro pre post rfl
    have hpre : Machine.AtEach (fun pre event => Careful (Kernels.after chunkSize pre) event) pre := by
      rintro before event rest rfl
      exact hcareful before event (rest ++ post) (by simp)
    have hsettled : Settled (Kernels.after chunkSize pre) := by
      refine Machine.run_of_atEach (q := fun pre => Settled (Kernels.after chunkSize pre))
        (settled_new chunkSize) (fun before event hevent hbefore => ?_) hpre
      unfold Kernels.after at hbefore hevent ⊢
      rw [Machine.run_concat]
      exact hbefore.step hevent
    exact hsettled.restoredOnce
  · intro pre event post hsplit
    exact (hcareful pre event post hsplit).handsOverValid

namespace Demo

/-- The owner hands its only chunk over, consumes its token and then pages it in, which restores
nothing; the other kernel pages the chunk in. -/
def handedOver : List KernelEvent :=
  [.owner (.pageOut [1] 0 "ai:inference" "kernel_a.aint" 100),
    .owner (.prepareContinuation (tokenId "ai:inference" 0) "kernel_b" "192.168.4.85:4430"),
    .owner (.consume (tokenId "ai:inference" 0)), .owner (.pageIn (tokenId "ai:inference" 0)),
    .receive (.new 4096) 0]

end Demo

open Demo in
theorem fork_token_used_once_handed :
    Machine.AtEach (fun pre event => Careful (Kernels.after 4096 pre) event) handedOver ∧
      (∀ pre post, handedOver = pre ++ post → RestoredOnce (Kernels.after 4096 pre)) ∧
      Machine.AtEach (fun pre event => HandsOverValid (Kernels.after 4096 pre) event) handedOver := by
  have hconsumed : ∀ t ∈ (Kernels.after 4096 (handedOver.take 3)).owner.tokens,
      t.state = .consumed := by
    decide +kernel
  have hcareful : Machine.AtEach (fun pre event => Careful (Kernels.after 4096 pre) event)
      handedOver := by
    unfold handedOver
    simp only [Machine.atEach_cons]
    refine ⟨⟨?_, ?_⟩, ⟨?_, ?_⟩, ⟨?_, ?_⟩, ⟨?_, ?_⟩, trivial, Machine.atEach_nil⟩
    · exact fun t ht => absurd ht List.not_mem_nil
    · exact fun t ht => absurd ht List.not_mem_nil
    · exact fun t ht => absurd ht List.not_mem_nil
    · intro t ht _
      obtain rfl := List.mem_singleton.mp ht
      exact ⟨rfl, rfl⟩
    · exact fun t ht => absurd ht List.not_mem_nil
    · exact fun _ _ hover => absurd hover id
    · intro t ht
      obtain ⟨hmem, hkept⟩ := List.mem_filter.mp ht
      exact absurd (hconsumed t hmem) (of_decide_eq_true hkept).2.1
    · exact fun _ _ hover => absurd hover id
  exact ⟨hcareful, fork_token_used_once 4096 handedOver hcareful⟩

section Careless

variable {p : UpipPager}

theorem prepareContinuation_of_mem (hids : (p.tokens.map ForkToken.id).Nodup) {t : ForkToken}
    (ht : t ∈ p.tokens) (targetKernel endpoint : String) :
    (p.prepareContinuation t.id targetKernel endpoint).1.tokens =
        p.tokens.map (fun u =>
          if u.id = t.id then { u with storage := .remoteKernel targetKernel endpoint } else u) ∧
      (p.prepareContinuation t.id targetKernel endpoint).2 =
        some { t with storage := .remoteKernel targetKernel endpoint } := by
  unfold UpipPager.prepareContinuation
  rw [Registry.lookup_of_mem hids ht]
  exact ⟨updateToken_tokens hids _ _, rfl⟩

/-- Any chunk that can be paged in can be handed over and then restored on both kernels. -/
theorem restored_on_both (hp : Numbered p) {t : ForkToken} (ht : t ∈ p.tokens)
    (hstate : t.state ≠ .consumed) (hseal : t.Sealed) (targetKernel endpoint : String)
    (chunkSize : Nat) :
    ∃ s : Kernels, Machine.run Kernels.step ⟨p, [], [], []⟩
        [.owner (.prepareContinuation t.id targetKernel endpoint), .owner (.pageIn t.id),
          .receive (.new chunkSize) 0] = s ∧
      t.id ∈ s.restoredHere ∧ t.id ∈ s.restoredThere := by
  let u : ForkToken := { t with storage := .remoteKernel targetKernel endpoint }
  obtain ⟨htokens, hhanded⟩ := prepareContinuation_of_mem hp.nodup ht targetKernel endpoint
  have hp₁ : Numbered (p.prepareContinuation t.id targetKernel endpoint).1 :=
    hp.step (.prepareContinuation t.id targetKernel endpoint)
  have hfirst : (Kernels.step ⟨p, [], [], []⟩
      (.owner (.prepareContinuation t.id targetKernel endpoint))).1 =
      ⟨(p.prepareContinuation t.id targetKernel endpoint).1, [u],
        restoredBy p (p.prepareContinuation t.id targetKernel endpoint).1, []⟩ := by
    show Kernels.mk _ (Kernels.handedBy
      (.continued (p.prepareContinuation t.id targetKernel endpoint).2)) _ _ = _
    rw [hhanded]
    rfl
  generalize (p.prepareContinuation t.id targetKernel endpoint).1 = p₁ at htokens hp₁ hfirst
  have hu : u ∈ p₁.tokens := by
    rw [htokens]
    exact List.mem_map.mpr ⟨t, ht, if_pos rfl⟩
  have hsecond : (Kernels.step ⟨p₁, [u], restoredBy p p₁, []⟩ (.owner (.pageIn t.id))).1 =
      ⟨(p₁.pageIn t.id).1, [u], restoredBy p p₁ ++ restoredBy p₁ (p₁.pageIn t.id).1, []⟩ := rfl
  have hhere : t.id ∈ restoredBy p₁ (p₁.pageIn t.id).1 :=
    restored_of_pageIn (t := u) hp₁ hu hstate hseal
  have hthere : Kernels.pageInReceived (.new chunkSize) u = .success t.id t.rawSize t.memoryOffset :=
    (pageIn_of_sealed (p := { UpipPager.new chunkSize with tokens := [u] }) (t := u) (by simp)
      (by simp) hstate hseal).2
  refine ⟨_, rfl, ?_, ?_⟩
  · rw [Machine.run_cons, hfirst, Machine.run_cons, hsecond, Machine.run_cons, Kernels.step]
    dsimp only [List.getElem?_cons_zero]
    rw [hthere]
    exact List.mem_append_right _ hhere
  · rw [Machine.run_cons, hfirst, Machine.run_cons, hsecond, Machine.run_cons, Kernels.step]
    dsimp only [List.getElem?_cons_zero]
    rw [hthere]
    exact List.mem_singleton_self _

/-- Any token can be consumed and then handed over. -/
theorem consumed_handed_over (hp : Numbered p) {t : ForkToken} (ht : t ∈ p.tokens)
    (targetKernel endpoint : String) :
    ¬ HandsOverValid (Machine.run Kernels.step ⟨p, [], [], []⟩ [.owner (.consume t.id)])
      (.owner (.prepareContinuation t.id targetKernel endpoint)) := by
  intro hvalid
  have hp₁ : Numbered (p.consume t.id).1 := hp.step (.consume t.id)
  have ht₁ : { t with state := .consumed } ∈ (p.consume t.id).1.tokens := by
    rw [consume_of_mem hp.nodup ht]
    exact List.mem_map.mpr ⟨t, ht, if_pos rfl⟩
  have hsome := (prepareContinuation_of_mem hp₁.nodup ht₁ targetKernel endpoint).2
  obtain ⟨u, hu, hlive, -⟩ := hvalid _ _ _ _ rfl hsome
  have hlookup := Registry.lookup_of_mem hp₁.nodup ht₁
  obtain rfl := Option.some.inj (hlookup.symm.trans hu)
  exact hlive rfl

end Careless

/-- A chunk is handed over, paged in by its owner and paged in by the kernel that received it; and one
that was consumed is handed over. -/
theorem chunk_restored_on_both_kernels :
    ¬ RestoredOnce (Kernels.after 4096
      [.owner (.pageOut [1] 0 "ai:inference" "kernel_a.aint" 100),
        .owner (.prepareContinuation (tokenId "ai:inference" 0) "kernel_b" "192.168.4.85:4430"),
        .owner (.pageIn (tokenId "ai:inference" 0)), .receive (.new 4096) 0]) ∧
    ¬ HandsOverValid (Kernels.after 4096
      [.owner (.pageOut [1] 0 "ai:inference" "kernel_a.aint" 100),
        .owner (.consume (tokenId "ai:inference" 0))])
      (.owner (.prepareContinuation (tokenId "ai:inference" 0) "kernel_b" "192.168.4.85:4430")) := by
  let t := mint 0 [1] 0 "ai:inference" "kernel_a.aint" 100
  let p := ((UpipPager.new 4096).pageOut [1] 0 "ai:inference" "kernel_a.aint" 100).1
  have hp : Numbered p :=
    (numbered_new 4096).step (.pageOut [1] 0 "ai:inference" "kernel_a.aint" 100)
  have ht : t ∈ p.tokens := List.mem_singleton_self t
  have hid : t.id = tokenId "ai:inference" 0 := rfl
  have hstart : ∀ events, Kernels.after 4096
      (.owner (.pageOut [1] 0 "ai:inference" "kernel_a.aint" 100) :: events) =
        Machine.run Kernels.step ⟨p, [], [], []⟩ events := fun _ => rfl
  rw [← hid, hstart, hstart]
  refine ⟨fun honce => ?_, consumed_handed_over hp ht "kernel_b" "192.168.4.85:4430"⟩
  obtain ⟨s, rfl, hhere, hthere⟩ := restored_on_both hp ht (by simp [t, mint]) rfl "kernel_b"
    "192.168.4.85:4430" 4096
  exact honce t.id hhere hthere

end Spaceshuttle.Upip
