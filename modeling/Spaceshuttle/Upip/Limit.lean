import Spaceshuttle.Upip.Assembly
import Spaceshuttle.Upip.Bulk

/-!
# The paging limit

No operation takes a token out of the table, so the limit is on all the chunks that a pager ever
paged out. It is on those that are out at the same time only as long as none comes back.
-/

namespace Spaceshuttle.Upip

open UpipPager

namespace PagerOp

/-- `page_out` of a chunk that is not empty. -/
def pagesOut : PagerOp → Bool
  | .pageOut chunkData _ _ _ _ => !chunkData.isEmpty
  | _ => false

/-- `page_out`, `page_in`, `consume` or `assemble`. -/
def IsPaging : PagerOp → Prop
  | .pageOut .. | .pageIn _ | .consume _ | .assemble .. => True
  | _ => False

/-- An operation that finds a token to restore or to consume. -/
def Takes (p : UpipPager) : PagerOp → Prop
  | .pageIn id | .consume id => ∃ t ∈ p.tokens, t.id = id
  | .assemble intent busSeq => ∃ t ∈ p.tokens, t.isLive intent busSeq = true
  | _ => False

end PagerOp

/-- Every chunk is out. -/
def AllOut (p : UpipPager) : Prop := ∀ t ∈ p.tokens, t.state = .pagedOut

/-- On a chunk that is not empty, `page_out` gives the limit error only when as many chunks are out as
there may be, and pages out when fewer are. -/
structure LimitRight (p : UpipPager) (chunkData : List UInt8) (memoryOffset : UInt64)
    (intent fromAint : String) (busSeq : UInt64) : Prop where
  limit : (p.pageOut chunkData memoryOffset intent fromAint busSeq).2 = .failed limitReached →
    p.activeTokens = maxPagedChunks
  capacity : p.activeTokens < maxPagedChunks → ∃ token,
    (p.pageOut chunkData memoryOffset intent fromAint busSeq).2 = .success token chunkData.length

section Step

variable {S : String → Prop} {p p' : UpipPager}

theorem activeTokens_eq_length_iff : p.activeTokens = p.tokens.length ↔ AllOut p := by
  unfold UpipPager.activeTokens AllOut
  rw [List.countP_eq_length]
  simp

/-- A token that is not out does not get out again. -/
theorem Revises.not_allOut (h : Revises S p p') (hp : ¬ AllOut p) : ¬ AllOut p' := by
  intro hall
  refine hp fun t ht => ?_
  obtain ⟨i, hi, rfl⟩ := List.mem_iff_getElem.mp ht
  obtain ⟨t', ht', hrevised⟩ := h.evolves.grows i _ (List.getElem?_eq_getElem hi)
  exact hrevised.state (hall t' (List.mem_of_getElem? ht'))

theorem updateToken_not_allOut {t : ForkToken} {f : ForkToken → ForkToken} (hp : Numbered p)
    (ht : t ∈ p.tokens) (hf : (f t).state ≠ .pagedOut) : ¬ AllOut (p.updateToken t.id f) := by
  intro hall
  refine hf (hall (f t) ?_)
  rw [updateToken_tokens hp.nodup]
  exact List.mem_map.mpr ⟨t, ht, if_pos rfl⟩

theorem pageIn_not_allOut {t : ForkToken} (hp : Numbered p) (ht : t ∈ p.tokens) :
    ¬ AllOut (p.pageIn t.id).1 := by
  unfold UpipPager.pageIn
  rw [Registry.lookup_of_mem hp.nodup ht]
  dsimp only
  split
  · next hconsumed =>
    intro hall
    have hstate := hall t ht
    rw [hconsumed] at hstate
    cases hstate
  · split
    · exact updateToken_not_allOut hp ht (by simp)
    · exact updateToken_not_allOut hp ht (by simp)

theorem consume_not_allOut {t : ForkToken} (hp : Numbered p) (ht : t ∈ p.tokens) :
    ¬ AllOut (p.consume t.id).1 := by
  unfold UpipPager.consume
  rw [Registry.lookup_of_mem hp.nodup ht]
  exact updateToken_not_allOut hp ht (by simp)

theorem assembleLoop_not_allOut {t : ForkToken} (hp : Numbered p) (ht : t ∈ p.tokens)
    (ids : List String) (totalBytes : Nat) :
    ¬ AllOut (p.assembleLoop (t.id :: ids) totalBytes).1 := by
  have hin := pageIn_not_allOut hp ht
  have hrest : ∀ (p₂ : UpipPager) (total : Nat),
      Revises (fun _ => True) p₂ (p₂.assembleLoop ids total).1 :=
    fun p₂ total => revises_assembleLoop p₂ (fun _ _ => trivial) total
  rw [UpipPager.assembleLoop]
  rcases heq : p.pageIn t.id with ⟨p₁, result⟩
  rw [heq] at hin
  cases result with
  | success _ bytesRestored _ =>
    exact ((revises_consume p₁ _).trans (hrest _ _)).not_allOut hin
  | integrityViolation _ _ _ => exact hin
  | tokenNotFound _ => exact (hrest p₁ _).not_allOut hin
  | alreadyConsumed _ => exact (hrest p₁ _).not_allOut hin

theorem assemble_not_allOut {intent : String} {busSeq : UInt64} (hp : Numbered p)
    (hsome : ∃ t ∈ p.tokens, t.isLive intent busSeq = true) :
    ¬ AllOut (p.assemble intent busSeq).1 := by
  obtain ⟨t₀, ht₀, hlive⟩ := hsome
  unfold UpipPager.assemble
  dsimp only
  rcases hfilter : p.tokens.filter (ForkToken.isLive intent busSeq) with _ | ⟨t, tokens⟩
  · exact absurd hlive (List.filter_eq_nil_iff.mp hfilter t₀ ht₀)
  · have ht : t ∈ p.tokens := by
      refine (List.mem_filter (p := ForkToken.isLive intent busSeq)).mp ?_ |>.1
      rw [hfilter]
      exact List.mem_cons_self
    have hloop := assembleLoop_not_allOut hp ht (tokens.map ForkToken.id) 0
    rw [List.map_cons, if_neg (by simp)]
    split
    · next heq =>
      rw [heq] at hloop
      exact hloop
    · next heq =>
      rw [heq] at hloop
      exact hloop

theorem allOut_iff_of_takes {takes : Prop} (hsome : takes → ¬ AllOut p')
    (hnone : ¬ takes → p' = p) : AllOut p' ↔ AllOut p ∧ ¬ takes := by
  constructor
  · intro hall
    have htakes : ¬ takes := fun htakes => hsome htakes hall
    exact ⟨hnone htakes ▸ hall, htakes⟩
  · rintro ⟨hall, htakes⟩
    rwa [hnone htakes]

/-- Every chunk is out after a step if every chunk was and the step found nothing to take. -/
theorem allOut_step (hp : Numbered p) {op : PagerOp} (hop : op.IsPaging) :
    AllOut (pagerStep p op).1 ↔ AllOut p ∧ ¬ op.Takes p := by
  cases op with
  | pageOut chunkData memoryOffset intent fromAint busSeq =>
    rw [and_iff_left (by simp [PagerOp.Takes])]
    show AllOut (p.pageOut chunkData memoryOffset intent fromAint busSeq).1 ↔ AllOut p
    unfold UpipPager.pageOut
    split
    · exact .rfl
    · split
      · exact .rfl
      · show (∀ t ∈ p.tokens ++ [_], _) ↔ _
        rw [List.forall_mem_append, List.forall_mem_singleton]
        exact and_iff_left rfl
  | pageIn id =>
    refine allOut_iff_of_takes ?_ fun hnone => ?_
    · rintro ⟨t, ht, rfl⟩
      exact pageIn_not_allOut hp ht
    · have hlookup : Registry.lookup ForkToken.id id p.tokens = none :=
        Registry.lookup_none_iff.mpr fun t ht heq => hnone ⟨t, ht, heq⟩
      show (p.pageIn id).1 = p
      simp [UpipPager.pageIn, hlookup]
  | consume id =>
    refine allOut_iff_of_takes ?_ fun hnone => ?_
    · rintro ⟨t, ht, rfl⟩
      exact consume_not_allOut hp ht
    · have hlookup : Registry.lookup ForkToken.id id p.tokens = none :=
        Registry.lookup_none_iff.mpr fun t ht heq => hnone ⟨t, ht, heq⟩
      show (p.consume id).1 = p
      simp [UpipPager.consume, hlookup]
  | assemble intent busSeq =>
    refine allOut_iff_of_takes (assemble_not_allOut hp) fun hnone => ?_
    have hdead : ∀ t ∈ p.tokens, t.isLive intent busSeq = false := by
      intro t ht
      exact Bool.eq_false_iff.mpr fun hlive => hnone ⟨t, ht, hlive⟩
    show (p.assemble intent busSeq).1 = p
    rw [assemble_none hdead]
  | pageOutBulk _ _ _ _ _ => cases hop
  | prepareContinuation _ _ _ => cases hop
  | tamper _ _ => cases hop

/-- The table grows with every chunk paged out until it is full. -/
theorem length_step (hroom : p.tokens.length ≤ maxPagedChunks) {op : PagerOp}
    (hop : op.IsPaging) :
    (pagerStep p op).1.tokens.length =
      min maxPagedChunks (p.tokens.length + if op.pagesOut then 1 else 0) := by
  have hsame : ∀ p' : UpipPager, Revises (fun _ => True) p p' →
      p'.tokens.length = min maxPagedChunks (p.tokens.length + 0) := by
    intro p' h
    rw [← h.tokens.length_eq]
    omega
  cases op with
  | pageOut chunkData memoryOffset intent fromAint busSeq =>
    show (p.pageOut chunkData memoryOffset intent fromAint busSeq).1.tokens.length = _
    by_cases hne : chunkData = []
    · subst hne
      exact hsame p (.refl p)
    · have hpages : (PagerOp.pageOut chunkData memoryOffset intent fromAint busSeq).pagesOut = true := by
        simp [PagerOp.pagesOut, hne]
      rw [if_pos hpages]
      by_cases hfull : p.tokens.length < maxPagedChunks
      · rw [pageOut_room hne hfull, List.length_append, List.length_singleton]
        omega
      · rw [pageOut_full hne (not_lt.mp hfull)]
        show p.tokens.length = _
        omega
  | pageIn id => exact hsame _ (revises_pageIn p fun _ _ _ => trivial)
  | consume id => exact hsame _ (revises_consume p id)
  | assemble intent busSeq => exact hsame _ (revises_assemble p intent busSeq fun _ _ _ => trivial)
  | pageOutBulk _ _ _ _ _ => cases hop
  | prepareContinuation _ _ _ => cases hop
  | tamper _ _ => cases hop

theorem limitRight_iff {chunkData : List UInt8} {memoryOffset : UInt64} {intent fromAint : String}
    {busSeq : UInt64} (hne : chunkData ≠ []) (hroom : p.tokens.length ≤ maxPagedChunks) :
    LimitRight p chunkData memoryOffset intent fromAint busSeq ↔
      p.tokens.length < maxPagedChunks ∨ AllOut p := by
  by_cases hfull : p.tokens.length < maxPagedChunks
  · refine iff_of_true ⟨fun hfailed => ?_, fun _ => ?_⟩ (.inl hfull)
    · rw [pageOut_room hne hfull] at hfailed
      cases hfailed
    · rw [pageOut_room hne hfull]
      exact ⟨_, rfl⟩
  · have hlength : p.tokens.length = maxPagedChunks := by omega
    rw [or_iff_right hfull, ← activeTokens_eq_length_iff, hlength]
    constructor
    · intro h
      exact h.limit (by rw [pageOut_full hne (not_lt.mp hfull)])
    · intro hactive
      exact ⟨fun _ => hactive, fun hlt => absurd hactive hlt.ne⟩

end Step

/-! ## Runs -/

/-- Nothing was taken in a run. -/
def NothingTaken (chunkSize : Nat) (ops : List PagerOp) : Prop :=
  Machine.AtEach (fun pre op => ¬ op.Takes (Machine.run pagerStep (.new chunkSize) pre)) ops

/-- If the operation pages out, fewer chunks were paged out before it than there may be, or nothing
was taken before it. -/
def RoomAt (chunkSize : Nat) (pre : List PagerOp) (op : PagerOp) : Prop :=
  op.pagesOut = true →
    pre.countP PagerOp.pagesOut < maxPagedChunks ∨ NothingTaken chunkSize pre

/-- The limit is right at an operation. -/
def LimitAt (chunkSize : Nat) (pre : List PagerOp) (op : PagerOp) : Prop :=
  ∀ chunkData memoryOffset intent fromAint busSeq,
    op = .pageOut chunkData memoryOffset intent fromAint busSeq → chunkData ≠ [] →
      LimitRight (Machine.run pagerStep (.new chunkSize) pre) chunkData memoryOffset intent fromAint
        busSeq

section Runs

variable {chunkSize : Nat} {ops : List PagerOp}

theorem length_run (chunkSize : Nat) (hops : ∀ op ∈ ops, op.IsPaging) :
    (Machine.run pagerStep (.new chunkSize) ops).tokens.length =
      min maxPagedChunks (ops.countP PagerOp.pagesOut) := by
  induction ops using List.reverseRecOn with
  | nil => rfl
  | append_singleton ops op ih =>
    rw [List.forall_mem_append, List.forall_mem_singleton] at hops
    rw [Machine.run_concat, length_step (numbered_run chunkSize ops).room hops.2, ih hops.1,
      List.countP_append, List.countP_singleton]
    omega

theorem allOut_run (hops : ∀ op ∈ ops, op.IsPaging) :
    AllOut (Machine.run pagerStep (.new chunkSize) ops) ↔ NothingTaken chunkSize ops := by
  unfold NothingTaken
  induction ops using List.reverseRecOn with
  | nil => exact iff_of_true (fun t ht => absurd ht List.not_mem_nil) Machine.atEach_nil
  | append_singleton ops op ih =>
    rw [List.forall_mem_append, List.forall_mem_singleton] at hops
    rw [Machine.run_concat, allOut_step (numbered_run chunkSize ops) hops.2, ih hops.1,
      Machine.atEach_concat]

theorem limitAt_iff (hops : ∀ op ∈ ops, op.IsPaging) (op : PagerOp) :
    LimitAt chunkSize ops op ↔ RoomAt chunkSize ops op := by
  have hroom := (numbered_run chunkSize ops).room
  have hlength := length_run chunkSize hops
  have hcount : (Machine.run pagerStep (.new chunkSize) ops).tokens.length < maxPagedChunks ↔
      ops.countP PagerOp.pagesOut < maxPagedChunks := by omega
  constructor
  · intro h hpages
    cases op with
    | pageOut chunkData memoryOffset intent fromAint busSeq =>
      have hne : chunkData ≠ [] := by simpa [PagerOp.pagesOut] using hpages
      have hright := (limitRight_iff hne hroom).mp (h _ _ _ _ _ rfl hne)
      rwa [hcount, allOut_run hops] at hright
    | _ => cases hpages
  · rintro h chunkData memoryOffset intent fromAint busSeq rfl hne
    have hright := h (by simp [PagerOp.pagesOut, hne])
    rw [← hcount, ← allOut_run hops] at hright
    exact (limitRight_iff hne hroom).mpr hright

end Runs

/-- In a run of the four operations the limit is right at every one of them exactly when every
page-out is among the first that there is room for or comes before anything was taken. -/
theorem limit_is_on_simultaneous_iff (chunkSize : Nat) (ops : List PagerOp)
    (hops : ∀ op ∈ ops, op.IsPaging) :
    Machine.AtEach (LimitAt chunkSize) ops ↔ Machine.AtEach (RoomAt chunkSize) ops := by
  constructor
  · intro h pre op post hsplit
    have hpre : ∀ op ∈ pre, op.IsPaging := fun op hop =>
      hops op (hsplit ▸ List.mem_append_left _ hop)
    exact (limitAt_iff hpre op).mp (h pre op post hsplit)
  · intro h pre op post hsplit
    have hpre : ∀ op ∈ pre, op.IsPaging := fun op hop =>
      hops op (hsplit ▸ List.mem_append_left _ hop)
    exact (limitAt_iff hpre op).mpr (h pre op post hsplit)

/-- Two chunks that are paged out around an assembly. -/
def outAndBack : List PagerOp :=
  [.pageOut [1] 0 "code:execute" "sender.aint" 7, .assemble "code:execute" 7,
    .pageOut [2] 1 "code:execute" "sender.aint" 8]

/-- There is room for both. -/
theorem limit_is_on_simultaneous_iff_two : Machine.AtEach (LimitAt 4096) outAndBack := by
  refine (limit_is_on_simultaneous_iff 4096 outAndBack (by simp [outAndBack, PagerOp.IsPaging])).mpr ?_
  intro pre op post hsplit _
  have hlength := congrArg List.length hsplit
  rw [List.length_append] at hlength
  have hthree : outAndBack.length = 3 := rfl
  have hcount : pre.countP PagerOp.pagesOut ≤ pre.length := List.countP_le_length
  exact .inl (show _ < 256 by omega)

/-- Page a chunk out and consume it, the first `n` times. -/
def rounds (n : Nat) : List PagerOp :=
  (List.range n).flatMap (fun i =>
    [.pageOut [1] 0 "code:execute" "sender.aint" 7,
      .consume (tokenId "code:execute" (UInt64.ofNat i))])

theorem rounds_consumed {n : Nat} (hn : n ≤ maxPagedChunks) :
    (Machine.run pagerStep (.new 4096) (rounds n)).tokens.length = n ∧
      ∀ t ∈ (Machine.run pagerStep (.new 4096) (rounds n)).tokens, t.state = .consumed := by
  induction n with
  | zero => exact ⟨rfl, fun t ht => absurd ht List.not_mem_nil⟩
  | succ n ih =>
    obtain ⟨hlength, hconsumed⟩ := ih (by omega)
    have hp := numbered_run 4096 (rounds n)
    have hrounds : rounds (n + 1) = rounds n ++ [.pageOut [1] 0 "code:execute" "sender.aint" 7,
        .consume (tokenId "code:execute" (UInt64.ofNat n))] := by
      rw [rounds, List.range_succ, List.flatMap_append]
      rfl
    rw [hrounds, Machine.run_append]
    generalize Machine.run pagerStep (.new 4096) (rounds n) = p at hlength hconsumed hp
    let t := mint p.nextTokenId [1] 0 "code:execute" "sender.aint" 7
    have hid : t.id = tokenId "code:execute" (UInt64.ofNat n) := by
      show tokenId "code:execute" p.nextTokenId = _
      rw [hp.next, hlength]
    have hout : (p.pageOut [1] 0 "code:execute" "sender.aint" 7).1.tokens = p.tokens ++ [t] := by
      rw [pageOut_room (by decide) (by omega)]
    have hp' : Numbered (p.pageOut [1] 0 "code:execute" "sender.aint" 7).1 :=
      hp.step (.pageOut [1] 0 "code:execute" "sender.aint" 7)
    have hafter := consume_of_mem hp'.nodup (t := t) (by rw [hout]; simp)
    show ((p.pageOut [1] 0 "code:execute" "sender.aint" 7).1.consume _).1.tokens.length = n + 1 ∧
      ∀ u ∈ ((p.pageOut [1] 0 "code:execute" "sender.aint" 7).1.consume _).1.tokens, _
    rw [← hid, hafter, hout]
    refine ⟨by simp [hlength], fun u hu => ?_⟩
    obtain ⟨v, hv, rfl⟩ := List.mem_map.mp hu
    rcases List.mem_append.mp hv with hold | hnew
    · split
      · rfl
      · exact hconsumed v hold
    · obtain rfl := List.mem_singleton.mp hnew
      rw [if_pos rfl]

/-- A pager that consumes every chunk right after paging it out gets the limit error at the 257th,
with no chunk out. -/
theorem consumed_chunks_fill_the_table :
    (Machine.run pagerStep (.new 4096) (rounds 256)).activeTokens = 0 ∧
    ((Machine.run pagerStep (.new 4096) (rounds 256)).pageOut [1] 0 "code:execute" "sender.aint" 7).2 =
      .failed limitReached ∧
    ¬ Machine.AtEach (LimitAt 4096)
      (rounds 256 ++ [.pageOut [1] 0 "code:execute" "sender.aint" 7]) := by
  obtain ⟨hlength, hconsumed⟩ := rounds_consumed (n := 256) (by decide)
  have hactive : (Machine.run pagerStep (.new 4096) (rounds 256)).activeTokens = 0 :=
    List.countP_eq_zero.mpr fun t ht => by simp [hconsumed t ht]
  have hfull : ((Machine.run pagerStep (.new 4096) (rounds 256)).pageOut [1] 0 "code:execute"
      "sender.aint" 7).2 = .failed limitReached := by
    rw [pageOut_full (by decide) hlength.ge]
  refine ⟨hactive, hfull, fun hall => ?_⟩
  have hlast := hall (rounds 256) _ [] rfl [1] 0 "code:execute" "sender.aint" 7 rfl (by decide)
  have hlimit := hlast.limit hfull
  rw [hactive] at hlimit
  exact absurd hlimit (by decide)

end Spaceshuttle.Upip
