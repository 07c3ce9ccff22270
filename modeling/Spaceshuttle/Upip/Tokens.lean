import Spaceshuttle.Lib.Machine
import Spaceshuttle.Lib.Text
import Spaceshuttle.Upip.Pager

/-!
# The token table

Tokens are only ever put behind the others, and no operation changes what a token was minted with. So
the number of a token is its position, and the ids, which end in that number, are distinct.
-/

namespace Spaceshuttle.Upip

/-! ## Ids -/

theorem tokenId_toList (intent : String) (num : UInt64) :
    (tokenId intent num).toList =
      ("upip_fork_".toList ++ (replaceColon intent '_').toList) ++
        '_' :: Nat.toDigits 10 num.toNat := by
  have happend : tokenId intent num =
      "upip_fork_" ++ replaceColon intent '_' ++ "_" ++ Nat.repr num.toNat := rfl
  rw [happend, String.toList_append, String.toList_append, String.toList_append, Nat.toList_repr,
    List.append_assoc]
  rfl

/-- The number is what stands behind the last underscore, whatever the intent. -/
theorem tokenId_num {intent intent' : String} {num num' : UInt64}
    (h : tokenId intent num = tokenId intent' num') : num = num' := by
  have hplain : ∀ n, '_' ∉ Nat.toDigits 10 n := by
    intro n hmem
    have hdigit := Nat.isDigit_of_mem_toDigits (by decide) (by decide) hmem
    exact absurd hdigit (by decide)
  have hlists := congrArg String.toList h
  rw [tokenId_toList, tokenId_toList] at hlists
  have hdigits := Text.append_separator_inj hlists (hplain _) (hplain _)
  have hnat := congrArg (fun digits => Nat.ofDigitChars 10 digits 0) hdigits
  simp only [Nat.ofDigitChars_ten_toDigits] at hnat
  exact UInt64.toNat_inj.mp hnat

/-! ## The table -/

/-- What a token is known by. -/
def ForkToken.name (t : ForkToken) : String × String × UInt64 := (t.id, t.intent, t.chunkSeq)

/-- The table is within its room, the number of a token is its position and the id of a token is made
of its intent and its number. -/
structure Numbered (p : UpipPager) : Prop where
  room : p.tokens.length ≤ maxPagedChunks
  next : p.nextTokenId = UInt64.ofNat p.tokens.length
  seq : p.tokens.map ForkToken.chunkSeq = (List.range p.tokens.length).map UInt64.ofNat
  id : ∀ t ∈ p.tokens, t.id = tokenId t.intent t.chunkSeq

section Table

variable {p p' : UpipPager}

theorem ofNat_injOn_room {i j : Nat} (hi : i < maxPagedChunks) (hj : j < maxPagedChunks)
    (h : UInt64.ofNat i = UInt64.ofNat j) : i = j := by
  have hroom : maxPagedChunks < UInt64.size := by decide
  have hnat := congrArg UInt64.toNat h
  rwa [UInt64.toNat_ofNat_of_lt' (hi.trans hroom), UInt64.toNat_ofNat_of_lt' (hj.trans hroom)]
    at hnat

theorem Numbered.seq_nodup (hp : Numbered p) : (p.tokens.map ForkToken.chunkSeq).Nodup := by
  rw [hp.seq]
  refine List.Nodup.map_on (fun i hi j hj h => ?_) List.nodup_range
  have hroom := hp.room
  exact ofNat_injOn_room ((List.mem_range.mp hi).trans_le hroom)
    ((List.mem_range.mp hj).trans_le hroom) h

theorem Numbered.nodup (hp : Numbered p) : (p.tokens.map ForkToken.id).Nodup := by
  refine List.Nodup.map_on (fun t ht t' ht' h => ?_) hp.seq_nodup.of_map
  rw [hp.id t ht, hp.id t' ht'] at h
  exact List.inj_on_of_nodup_map hp.seq_nodup ht ht' (tokenId_num h)

theorem Numbered.chunkSeq (hp : Numbered p) {i : Nat} {t : ForkToken} (h : p.tokens[i]? = some t) :
    t.chunkSeq = UInt64.ofNat i := by
  obtain ⟨hi, rfl⟩ := List.getElem?_eq_some_iff.mp h
  have hseq := congrArg (fun l => l[i]?) hp.seq
  simpa [hi] using hseq

/-- A change that keeps what the tokens are known by. -/
theorem Numbered.of_names (hp : Numbered p) (hnext : p'.nextTokenId = p.nextTokenId)
    (hnames : p'.tokens.map ForkToken.name = p.tokens.map ForkToken.name) : Numbered p' := by
  have hlength : p'.tokens.length = p.tokens.length := by
    simpa using congrArg List.length hnames
  have hseq : p'.tokens.map ForkToken.chunkSeq = p.tokens.map ForkToken.chunkSeq := by
    have hmap := congrArg (List.map (fun name : String × String × UInt64 => name.2.2)) hnames
    rw [List.map_map, List.map_map] at hmap
    exact hmap
  refine ⟨?_, ?_, ?_, ?_⟩
  · rw [hlength]
    exact hp.room
  · rw [hnext, hlength]
    exact hp.next
  · rw [hseq, hlength]
    exact hp.seq
  · intro t ht
    have hname : t.name ∈ p.tokens.map ForkToken.name := hnames ▸ List.mem_map_of_mem ht
    obtain ⟨t₀, ht₀, heq⟩ := List.mem_map.mp hname
    have hid : t₀.id = t.id := congrArg (fun name => name.1) heq
    have hintent : t₀.intent = t.intent := congrArg (fun name => name.2.1) heq
    have hnum : t₀.chunkSeq = t.chunkSeq := congrArg (fun name => name.2.2) heq
    rw [← hid, ← hintent, ← hnum]
    exact hp.id t₀ ht₀

/-- A token with the next number is put behind the others. -/
theorem Numbered.push (hp : Numbered p) (hroom : p.tokens.length < maxPagedChunks) {t : ForkToken}
    (hseq : t.chunkSeq = p.nextTokenId) (hid : t.id = tokenId t.intent t.chunkSeq)
    (htokens : p'.tokens = p.tokens ++ [t]) (hnext : p'.nextTokenId = p.nextTokenId + 1) :
    Numbered p' := by
  have hlength : p'.tokens.length = p.tokens.length + 1 := by simp [htokens]
  refine ⟨by omega, ?_, ?_, ?_⟩
  · rw [hnext, hp.next, hlength, UInt64.ofNat_add]
    rfl
  · rw [hlength, List.range_succ, List.map_append, ← hp.seq, htokens, List.map_append,
      List.map_singleton, List.map_singleton, hseq, hp.next]
  · rw [htokens, List.forall_mem_append, List.forall_mem_singleton]
    exact ⟨hp.id, hid⟩

end Table

/-! ## Revisions -/

/-- The chunk is on another kernel. -/
def ForkToken.isTransferred (t : ForkToken) : Bool :=
  match t.storage with
  | .remoteKernel _ _ => true
  | _ => false

/-- What the operations change in a token: it keeps what it was minted with, does not become
`PagedOut` again, keeps a total once it has one and does not come back from another kernel. -/
structure Revised (t t' : ForkToken) : Prop where
  same : t' = { t with
    totalChunks := t'.totalChunks, ed25519Seal := t'.ed25519Seal, storage := t'.storage,
    state := t'.state, accessCount := t'.accessCount }
  state : t'.state = .pagedOut → t.state = .pagedOut
  total : t.totalChunks ≠ none → t'.totalChunks = t.totalChunks
  transferred : t.isTransferred = true → t'.isTransferred = true

theorem Revised.refl (t : ForkToken) : Revised t t := ⟨rfl, id, fun _ => rfl, id⟩

theorem Revised.trans {t₁ t₂ t₃ : ForkToken} (h₁₂ : Revised t₁ t₂) (h₂₃ : Revised t₂ t₃) :
    Revised t₁ t₃ := by
  refine ⟨?_, fun h => h₁₂.state (h₂₃.state h), fun h => ?_,
    fun h => h₂₃.transferred (h₁₂.transferred h)⟩
  · rw [h₂₃.same, h₁₂.same]
  · have htotal := h₁₂.total h
    rw [h₂₃.total (htotal ▸ h), htotal]

/-! ### The changes that the operations make -/

theorem revised_pagedIn (t : ForkToken) :
    Revised t { t with state := .pagedIn, accessCount := t.accessCount + 1 } :=
  ⟨rfl, fun h => (nomatch h), fun _ => rfl, fun h => h⟩

theorem revised_invalid (reason : String) (t : ForkToken) :
    Revised t { t with state := .invalid reason } :=
  ⟨rfl, fun h => (nomatch h), fun _ => rfl, fun h => h⟩

theorem revised_consumed (t : ForkToken) : Revised t { t with state := .consumed } :=
  ⟨rfl, fun h => (nomatch h), fun _ => rfl, fun h => h⟩

theorem revised_remote (kernelId endpoint : String) (t : ForkToken) :
    Revised t { t with storage := .remoteKernel kernelId endpoint } :=
  ⟨rfl, fun h => h, fun _ => rfl, fun _ => rfl⟩

theorem revised_seal (ed25519Seal : String) (t : ForkToken) : Revised t { t with ed25519Seal } :=
  ⟨rfl, fun h => h, fun _ => rfl, fun h => h⟩

theorem Revised.name {t t' : ForkToken} (h : Revised t t') : t'.name = t.name := by
  rw [h.same]
  rfl

/-- A token is revised, and paged in only if its id is in `S`; it is not out then. -/
def Counted (S : String → Prop) (t t' : ForkToken) : Prop :=
  Revised t t' ∧ (t'.accessCount = t.accessCount ∨ S t.id ∧ t'.state ≠ .pagedOut)

section Counted

variable {S : String → Prop} {t₁ t₂ t₃ : ForkToken}

theorem Counted.refl (t : ForkToken) : Counted S t t := ⟨.refl t, .inl rfl⟩

theorem Counted.trans (h₁₂ : Counted S t₁ t₂) (h₂₃ : Counted S t₂ t₃) : Counted S t₁ t₃ := by
  obtain ⟨hrev₁₂, hcount₁₂⟩ := h₁₂
  obtain ⟨hrev₂₃, hcount₂₃⟩ := h₂₃
  have hid : t₂.id = t₁.id := congrArg Prod.fst hrev₁₂.name
  refine ⟨hrev₁₂.trans hrev₂₃, ?_⟩
  rcases hcount₂₃ with hsame | ⟨hin, hstate⟩
  · rcases hcount₁₂ with hsame' | ⟨hin, hstate⟩
    · exact .inl (hsame.trans hsame')
    · exact .inr ⟨hin, fun hout => hstate (hrev₂₃.state hout)⟩
  · exact .inr ⟨hid ▸ hin, hstate⟩

end Counted

/-- What an operation that mints nothing does to the table: it pages in only tokens whose ids are in
`S`. -/
structure Revises (S : String → Prop) (p p' : UpipPager) : Prop where
  tokens : List.Forall₂ (Counted S) p.tokens p'.tokens
  next : p'.nextTokenId = p.nextTokenId
  chunkSize : p'.chunkSize = p.chunkSize

section Revises

variable {S : String → Prop} {p p₁ p₂ p' : UpipPager}

theorem Revises.refl (p : UpipPager) : Revises S p p :=
  ⟨List.forall₂_same.mpr fun t _ => .refl t, rfl, rfl⟩

theorem forall₂_counted_trans {l₁ l₂ l₃ : List ForkToken} (h₁₂ : List.Forall₂ (Counted S) l₁ l₂)
    (h₂₃ : List.Forall₂ (Counted S) l₂ l₃) : List.Forall₂ (Counted S) l₁ l₃ := by
  induction h₁₂ generalizing l₃ with
  | nil => exact h₂₃
  | cons hcounted _ ih =>
    cases h₂₃ with
    | cons hcounted' hrest => exact .cons (hcounted.trans hcounted') (ih hrest)

theorem Revises.trans (h₁ : Revises S p p₁) (h₂ : Revises S p₁ p₂) : Revises S p p₂ :=
  ⟨forall₂_counted_trans h₁.tokens h₂.tokens, h₂.next.trans h₁.next,
    h₂.chunkSize.trans h₁.chunkSize⟩

theorem names_of_counted {tokens tokens' : List ForkToken}
    (h : List.Forall₂ (Counted S) tokens tokens') :
    tokens'.map ForkToken.name = tokens.map ForkToken.name := by
  induction h with
  | nil => rfl
  | cons hcounted _ ih => rw [List.map_cons, List.map_cons, ih, hcounted.1.name]

theorem Numbered.revises (hp : Numbered p) (h : Revises S p p') : Numbered p' :=
  hp.of_names h.next (names_of_counted h.tokens)

theorem revises_updateToken (p : UpipPager) (id : String) {f : ForkToken → ForkToken}
    (hf : ∀ t ∈ p.tokens, t.id = id → Counted S t (f t)) : Revises S p (p.updateToken id f) :=
  ⟨Registry.forall₂_update .refl hf, rfl, rfl⟩

theorem revises_pageIn (p : UpipPager) {id : String} (hid : ∀ t ∈ p.tokens, t.id = id → S id) :
    Revises S p (p.pageIn id).1 := by
  unfold UpipPager.pageIn
  split
  · exact .refl p
  · split
    · exact .refl p
    · split
      · have h := revises_updateToken (S := S) p id fun t _ _ =>
          ⟨revised_invalid "Ed25519 signature mismatch" t, .inl rfl⟩
        exact ⟨h.tokens, h.next, h.chunkSize⟩
      · have h := revises_updateToken p id fun t ht heq =>
          ⟨revised_pagedIn t, .inr ⟨heq ▸ hid t ht heq, by simp⟩⟩
        exact ⟨h.tokens, h.next, h.chunkSize⟩

theorem revises_consume (p : UpipPager) (id : String) : Revises S p (p.consume id).1 := by
  unfold UpipPager.consume
  split
  · exact .refl p
  · exact revises_updateToken p id fun t _ _ => ⟨revised_consumed t, .inl rfl⟩

theorem revises_assembleLoop (p : UpipPager) {ids : List String} (hids : ∀ id ∈ ids, S id)
    (totalBytes : Nat) : Revises S p (p.assembleLoop ids totalBytes).1 := by
  induction ids generalizing p totalBytes with
  | nil => exact .refl p
  | cons id ids ih =>
    rw [List.forall_mem_cons] at hids
    have hin := revises_pageIn p fun _ _ _ => hids.1
    rw [UpipPager.assembleLoop]
    rcases heq : p.pageIn id with ⟨p₁, result⟩
    rw [heq] at hin
    cases result with
    | success _ bytesRestored _ =>
      exact hin.trans ((revises_consume p₁ id).trans (ih _ hids.2 _))
    | integrityViolation _ _ _ => exact hin
    | tokenNotFound _ => exact hin.trans (ih _ hids.2 _)
    | alreadyConsumed _ => exact hin.trans (ih _ hids.2 _)

theorem revises_assemble (p : UpipPager) (intent : String) (busSeq : UInt64)
    (hids : ∀ t ∈ p.tokens, t.isLive intent busSeq = true → S t.id) :
    Revises S p (p.assemble intent busSeq).1 := by
  have hin : ∀ id ∈ (p.tokens.filter (ForkToken.isLive intent busSeq)).map ForkToken.id, S id := by
    intro id hid
    obtain ⟨t, ht, rfl⟩ := List.mem_map.mp hid
    exact hids t (List.mem_filter.mp ht).1 (List.mem_filter.mp ht).2
  have hloop := revises_assembleLoop p hin 0
  unfold UpipPager.assemble
  dsimp only
  split
  · exact .refl p
  · split
    · next heq =>
      rw [heq] at hloop
      exact hloop
    · next heq =>
      rw [heq] at hloop
      exact hloop

theorem revises_prepareContinuation (p : UpipPager) (id targetKernel endpoint : String) :
    Revises S p (p.prepareContinuation id targetKernel endpoint).1 := by
  unfold UpipPager.prepareContinuation
  split
  · exact .refl p
  · have h := revises_updateToken (S := S) p id fun t _ _ =>
      ⟨revised_remote targetKernel endpoint t, .inl rfl⟩
    exact ⟨h.tokens, h.next, h.chunkSize⟩

theorem revises_tamper (p : UpipPager) (position : Nat) (ed25519Seal : String) :
    Revises S p (pagerStep p (.tamper position ed25519Seal)).1 :=
  ⟨Registry.forall₂_modify .refl (fun t => ⟨revised_seal ed25519Seal t, .inl rfl⟩) position p.tokens,
    rfl, rfl⟩

end Revises

/-! ## Runs -/

/-- The tokens that an operation may page in. -/
def PagerOp.Selects (t : ForkToken) : PagerOp → Prop
  | .pageIn id => t.id = id
  | .assemble intent busSeq => t.isLive intent busSeq = true
  | _ => False

/-- What any number of operations make of a pager: they revise its tokens and mint new ones. -/
inductive Evolves (S : String → Prop) (p : UpipPager) : UpipPager → Prop
  | refl : Evolves S p p
  | revises {p₁ p₂ : UpipPager} (h : Evolves S p p₁) (hrevises : Revises S p₁ p₂) : Evolves S p p₂
  | mints {p₁ : UpipPager} (h : Evolves S p p₁) (hroom : p₁.tokens.length < maxPagedChunks)
      (chunkData : List UInt8) (memoryOffset : UInt64) (intent fromAint : String)
      (busSeq : UInt64) :
      Evolves S p { p₁ with
        nextTokenId := p₁.nextTokenId + 1
        tokens := p₁.tokens ++ [mint p₁.nextTokenId chunkData memoryOffset intent fromAint busSeq]
        pagesOut := p₁.pagesOut + 1
        bytesPagedOut := p₁.bytesPagedOut + UInt64.ofNat chunkData.length }

/-- Every token is still in its place. -/
def Grows (p p' : UpipPager) : Prop := Registry.Extends Revised p.tokens p'.tokens

theorem Grows.refl (p : UpipPager) : Grows p p := Registry.Extends.refl Revised.refl _

theorem Grows.trans {p₁ p₂ p₃ : UpipPager} (h₁₂ : Grows p₁ p₂) (h₂₃ : Grows p₂ p₃) : Grows p₁ p₃ :=
  Registry.Extends.trans (fun _ _ _ => Revised.trans) h₁₂ h₂₃

namespace Evolves

variable {S S' : String → Prop} {p p₁ p' : UpipPager}

theorem trans (h₁ : Evolves S p p₁) (h₂ : Evolves S p₁ p') : Evolves S p p' := by
  induction h₂ with
  | refl => exact h₁
  | revises _ hrevises ih => exact ih.revises hrevises
  | mints _ hroom chunkData memoryOffset intent fromAint busSeq ih =>
    exact ih.mints hroom chunkData memoryOffset intent fromAint busSeq

theorem numbered (h : Evolves S p p') (hp : Numbered p) : Numbered p' := by
  induction h with
  | refl => exact hp
  | revises _ hrevises ih => exact ih.revises hrevises
  | mints _ hroom chunkData memoryOffset intent fromAint busSeq ih =>
    exact ih.push hroom rfl rfl rfl rfl

theorem counts (h : Evolves S p p') : Registry.Extends (Counted S) p.tokens p'.tokens := by
  induction h with
  | refl => exact Registry.Extends.refl .refl _
  | revises _ hrevises ih => exact ih.trans (fun _ _ _ => .trans) (.of_forall₂ hrevises.tokens)
  | mints _ _ chunkData memoryOffset intent fromAint busSeq ih =>
    exact ih.trans (fun _ _ _ => .trans) (.append .refl _ _)

theorem grows (h : Evolves S p p') : Grows p p' := by
  intro i t ht
  obtain ⟨t', ht', hcounted⟩ := h.counts i t ht
  exact ⟨t', ht', hcounted.1⟩

theorem chunkSize (h : Evolves S p p') : p'.chunkSize = p.chunkSize := by
  induction h with
  | refl => rfl
  | revises _ hrevises ih => exact hrevises.chunkSize.trans ih
  | mints _ _ _ _ _ _ _ ih => exact ih

end Evolves

section Steps

variable {S : String → Prop} {p p' : UpipPager}

theorem Revises.evolves (h : Revises S p p') : Evolves S p p' := Evolves.refl.revises h

theorem evolves_pageOut (p : UpipPager) (chunkData : List UInt8) (memoryOffset : UInt64)
    (intent fromAint : String) (busSeq : UInt64) :
    Evolves S p (p.pageOut chunkData memoryOffset intent fromAint busSeq).1 := by
  unfold UpipPager.pageOut
  split
  · exact .refl
  · split
    · exact .refl
    · next hroom => exact Evolves.refl.mints (not_le.mp hroom) _ _ _ _ _

/-- What `page_out` keeps, the loop keeps. -/
theorem pageOutLoop_keeps {P : UpipPager → Prop} {data : List UInt8} {baseOffset : UInt64}
    {intent fromAint : String} {busSeq : UInt64}
    (hstep : ∀ p chunk offset, P p → P (p.pageOut chunk offset intent fromAint busSeq).1)
    {fuel offset : Nat} {results : List PageOutResult} (hp : P p)
    (h : UpipPager.pageOutLoop data baseOffset intent fromAint busSeq fuel p offset =
      some (p', results)) : P p' := by
  induction fuel generalizing p offset results with
  | zero =>
    rw [UpipPager.pageOutLoop] at h
    split at h
    · cases h
    · cases h
      exact hp
  | succ fuel ih =>
    rw [UpipPager.pageOutLoop] at h
    split at h
    · obtain ⟨⟨p₁, rest⟩, hloop, heq⟩ := Option.map_eq_some_iff.mp h
      cases heq
      exact ih (hstep _ _ _ hp) hloop
    · cases h
      exact hp

/-- Set a total on a token that has none, if its number is not before `startSeq`. -/
def setTotal (startSeq total : UInt64) (t : ForkToken) : ForkToken :=
  if t.chunkSeq ≥ startSeq ∧ t.totalChunks = none then { t with totalChunks := some total } else t

theorem counted_setTotal (startSeq total : UInt64) (t : ForkToken) :
    Counted S t (setTotal startSeq total t) := by
  unfold setTotal
  split
  · next hnone =>
    exact ⟨⟨rfl, fun h => h, fun hsome => absurd hnone.2 hsome, fun h => h⟩, .inl rfl⟩
  · exact .refl t

/-- A bulk is its loop, and then a total on some of the tokens. -/
theorem pageOutBulk_eq (data : List UInt8) (baseOffset : UInt64) (intent fromAint : String)
    (busSeq : UInt64) (p : UpipPager) :
    p.pageOutBulk data baseOffset intent fromAint busSeq =
      (UpipPager.pageOutLoop data baseOffset intent fromAint busSeq data.length p 0).map
        (fun (p, results) => ({ p with tokens := p.tokens.map (setTotal
          (p.nextTokenId - UInt64.ofNat results.length) (UInt64.ofNat results.length)) },
          results)) := rfl

theorem pageOutBulk_cases {data : List UInt8} {baseOffset : UInt64} {intent fromAint : String}
    {busSeq : UInt64} {results : List PageOutResult}
    (h : p.pageOutBulk data baseOffset intent fromAint busSeq = some (p', results)) :
    ∃ p₁ startSeq total, UpipPager.pageOutLoop data baseOffset intent fromAint busSeq data.length p 0 =
        some (p₁, results) ∧
      p' = { p₁ with tokens := p₁.tokens.map (setTotal startSeq total) } := by
  rw [pageOutBulk_eq] at h
  obtain ⟨⟨p₁, rest⟩, hloop, heq⟩ := Option.map_eq_some_iff.mp h
  cases heq
  exact ⟨p₁, _, _, hloop, rfl⟩

theorem evolves_pageOutBulk {data : List UInt8} {baseOffset : UInt64} {intent fromAint : String}
    {busSeq : UInt64} {results : List PageOutResult}
    (h : p.pageOutBulk data baseOffset intent fromAint busSeq = some (p', results)) :
    Evolves S p p' := by
  obtain ⟨p₁, startSeq, total, hloop, rfl⟩ := pageOutBulk_cases h
  have hkeeps := pageOutLoop_keeps (P := Evolves S p)
    (fun p₁ chunk offset hp => hp.trans (evolves_pageOut p₁ chunk offset _ _ _)) .refl hloop
  refine hkeeps.revises ⟨?_, rfl, rfl⟩
  rw [List.forall₂_map_right_iff]
  exact List.forall₂_same.mpr fun t _ => counted_setTotal startSeq total t

/-- An operation pages in no tokens but those that it selects. -/
theorem evolves_step (p : UpipPager) (op : PagerOp) :
    Evolves (fun id => ∃ t ∈ p.tokens, t.id = id ∧ op.Selects t) p (pagerStep p op).1 := by
  cases op with
  | pageOut chunkData memoryOffset intent fromAint busSeq => exact evolves_pageOut p _ _ _ _ _
  | pageOutBulk data baseOffset intent fromAint busSeq =>
    rw [pagerStep]
    split
    · exact .refl
    · next heq => exact evolves_pageOutBulk heq
  | pageIn id => exact (revises_pageIn p fun t ht heq => ⟨t, ht, heq, heq⟩).evolves
  | consume id => exact (revises_consume p id).evolves
  | assemble intent busSeq =>
    exact (revises_assemble p intent busSeq fun t ht hlive => ⟨t, ht, rfl, hlive⟩).evolves
  | prepareContinuation id targetKernel endpoint =>
    exact (revises_prepareContinuation p id targetKernel endpoint).evolves
  | tamper position ed25519Seal => exact (revises_tamper p position ed25519Seal).evolves

theorem grows_run (p : UpipPager) (ops : List PagerOp) : Grows p (Machine.run pagerStep p ops) :=
  Machine.run_keeps (fun p₁ op hp => hp.trans (evolves_step p₁ op).grows) (.refl p) ops

theorem numbered_new (chunkSize : Nat) : Numbered (.new chunkSize) :=
  ⟨Nat.zero_le _, rfl, rfl, fun _ ht => absurd ht List.not_mem_nil⟩

theorem Numbered.step (hp : Numbered p) (op : PagerOp) : Numbered (pagerStep p op).1 :=
  (evolves_step p op).numbered hp

theorem Numbered.run (hp : Numbered p) (ops : List PagerOp) :
    Numbered (Machine.run pagerStep p ops) :=
  Machine.run_keeps (fun _ op hp => hp.step op) hp ops

theorem numbered_run (chunkSize : Nat) (ops : List PagerOp) :
    Numbered (Machine.run pagerStep (.new chunkSize) ops) :=
  (numbered_new chunkSize).run ops

theorem chunkSize_run (chunkSize : Nat) (ops : List PagerOp) :
    (Machine.run pagerStep (.new chunkSize) ops).chunkSize = chunkSize :=
  Machine.run_keeps (p := fun p => p.chunkSize = chunkSize)
    (fun p op hp => (evolves_step p op).chunkSize.trans hp) rfl ops

end Steps

end Spaceshuttle.Upip
