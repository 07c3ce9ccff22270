import Spaceshuttle.Lib.Segment
import Spaceshuttle.Upip.RoundTrip

/-!
# Complete assemblies

`assemble` takes whatever is live of a task and calls it complete. It is complete when the live tokens
are those of one bulk that found room; a chunk that was consumed before, is invalid or got no
token is not missed.
-/

namespace Spaceshuttle.Upip

open UpipPager

/-- A call of `assemble` that took the pager from `p` to `p'` restored the `k` chunks at the positions
from `start` on, and its answer says so. -/
structure Whole (p p' : UpipPager) (start k n totalChunks totalBytes : Nat) : Prop where
  chunks : totalChunks = k
  bytes : totalBytes = n
  restored : ∀ i < k, ∃ t, p.tokens[start + i]? = some t ∧
    p'.tokens[start + i]? = some t.restored
  totals : ∀ i < k, ∀ t, p.tokens[start + i]? = some t →
    t.totalChunks = some (UInt64.ofNat totalChunks)

/-- Every complete answer for the task is about the whole bulk at these positions. -/
def AllOrNothing (p : UpipPager) (intent : String) (busSeq : UInt64) (start k n : Nat) : Prop :=
  ∀ (chunks bytes : Nat) (allVerified : Bool),
    (p.assemble intent busSeq).2 = .complete chunks bytes allVerified →
      Whole p (p.assemble intent busSeq).1 start k n chunks bytes

/-- Nothing of the task is live, or something of it that is live has lost its seal, or what is live is
exactly a bulk that found room. -/
def LivesWhole (p : UpipPager) (intent : String) (busSeq : UInt64) (start k : Nat) : Prop :=
  (∀ t ∈ p.tokens, t.isLive intent busSeq = false) ∨
    (∃ t ∈ p.tokens, t.isLive intent busSeq = true ∧ ¬ t.Sealed) ∨
      start + k ≤ maxPagedChunks ∧ Segment.Exactly (ForkToken.isLive intent busSeq) p.tokens start k

section Assemble

variable {data : List UInt8} {baseOffset : UInt64} {intent fromAint : String} {busSeq : UInt64}
  {p p₁ p₂ : UpipPager} {results : List PageOutResult}

theorem Revised.rawSize {t t' : ForkToken} (h : Revised t t') : t'.rawSize = t.rawSize := by
  rw [h.same]

/-- A token that is not live is left as it is. -/
theorem isLive_of_restored {p' : UpipPager} {i : Nat} {t : ForkToken}
    (htokens : p'.tokens = p.tokens.map (fun u => if u.isLive intent busSeq then u.restored else u))
    (ht : p.tokens[i]? = some t) (ht' : p'.tokens[i]? = some t.restored) :
    t.isLive intent busSeq = true := by
  by_contra hlive
  rw [htokens, List.getElem?_map, ht, Option.map_some, if_neg hlive] at ht'
  have hcount := congrArg ForkToken.accessCount (Option.some.inj ht')
  have hne : t.accessCount + 1 ≠ t.accessCount := by simp
  exact hne hcount.symm

/-- What became of the tokens of a bulk that found room. -/
theorem Bulked.later (hp : Numbered p)
    (h : Bulked data baseOffset intent fromAint busSeq p p₁ results) (hgrows : Grows p₁ p₂)
    (hfits : p.tokens.length + data.length ⌈/⌉ p.chunkSize ≤ maxPagedChunks) {i : Nat}
    (hi : i < data.length ⌈/⌉ p.chunkSize) :
    ∃ t, p₂.tokens[p.tokens.length + i]? = some t ∧
      Revised (taskToken data baseOffset intent fromAint busSeq p i) t := by
  apply hgrows
  rw [h.fits hp hfits, List.getElem?_append_right (Nat.le_add_right _ _), Nat.add_sub_cancel_left,
    List.getElem?_map, List.getElem?_range hi]
  rfl

/-- The sizes of the tokens of a bulk that found room, at any later time. -/
theorem Bulked.later_rawSize (hp : Numbered p)
    (h : Bulked data baseOffset intent fromAint busSeq p p₁ results) (hgrows : Grows p₁ p₂)
    (hfits : p.tokens.length + data.length ⌈/⌉ p.chunkSize ≤ maxPagedChunks) :
    ((p₂.tokens.drop p.tokens.length).take (data.length ⌈/⌉ p.chunkSize)).map ForkToken.rawSize =
      (List.range (data.length ⌈/⌉ p.chunkSize)).map (Tiles.size data.length p.chunkSize) := by
  apply List.ext_getElem?
  intro i
  rw [List.getElem?_map, List.getElem?_take, List.getElem?_map]
  split
  · next hi =>
    obtain ⟨t, ht, hrevised⟩ := h.later hp hgrows hfits hi
    rw [List.getElem?_drop, ht, List.getElem?_range hi, Option.map_some, hrevised.rawSize]
    exact congrArg some (length_chunk data p.chunkSize i)
  · next hi =>
    rw [List.getElem?_eq_none (by rw [List.length_range]; omega)]
    rfl

theorem allOrNothing_iff (hp : Numbered p) (hc : 0 < p.chunkSize)
    (h : Bulked data baseOffset intent fromAint busSeq p p₁ results) (hgrows : Grows p₁ p₂)
    (hp₂ : Numbered p₂) :
    AllOrNothing p₂ intent busSeq p.tokens.length (data.length ⌈/⌉ p.chunkSize) data.length ↔
      LivesWhole p₂ intent busSeq p.tokens.length (data.length ⌈/⌉ p.chunkSize) := by
  by_cases hnone : ∀ t ∈ p₂.tokens, t.isLive intent busSeq = false
  · refine iff_of_true (fun chunks bytes allVerified hcomplete => ?_) (.inl hnone)
    rw [assemble_none hnone] at hcomplete
    cases hcomplete
  by_cases hbad : ∃ t ∈ p₂.tokens, t.isLive intent busSeq = true ∧ ¬ t.Sealed
  · refine iff_of_true (fun chunks bytes allVerified hcomplete => ?_) (.inr (.inl hbad))
    obtain ⟨failed, hfailed⟩ := assemble_not_sealed hp₂.nodup hbad
    rw [hfailed] at hcomplete
    cases hcomplete
  -- otherwise the answer is complete, with the live tokens
  have hsome : ∃ t ∈ p₂.tokens, t.isLive intent busSeq = true := by simpa using hnone
  have hsealed : ∀ t ∈ p₂.tokens, t.isLive intent busSeq = true → t.Sealed := by
    intro t ht hlive
    by_contra hun
    exact hbad ⟨t, ht, hlive, hun⟩
  obtain ⟨hafter, hresult⟩ := assemble_sealed hp₂.nodup hsome hsealed
  have hroom := hp₂.room
  constructor
  · intro hall
    have hwhole := hall _ _ _ hresult
    refine .inr (.inr ⟨?_, ?_⟩)
    · obtain ⟨t, ht, hlive⟩ := hsome
      have hpos : 0 < data.length ⌈/⌉ p.chunkSize := by
        rw [← hwhole.chunks]
        exact List.length_pos_of_mem (List.mem_filter.mpr ⟨ht, hlive⟩)
      obtain ⟨u, hu, -⟩ := hwhole.restored (data.length ⌈/⌉ p.chunkSize - 1) (by omega)
      obtain ⟨hlt, -⟩ := List.getElem?_eq_some_iff.mp hu
      omega
    · refine Segment.exactly_of_countP ?_ fun i hi => ?_
      · rw [List.countP_eq_length_filter, hwhole.chunks]
      · obtain ⟨t, ht, ht'⟩ := hwhole.restored i hi
        exact ⟨t, ht, isLive_of_restored hafter ht ht'⟩
  · rintro (hdead | hlost | ⟨hfits, hexact⟩) chunks bytes allVerified hcomplete
    · exact absurd hdead hnone
    · exact absurd hlost hbad
    · rw [hresult, hexact.filter, h.later_rawSize hp hgrows hfits, Tiles.sum_size hc] at hcomplete
      have hlength := congrArg List.length (h.later_rawSize hp hgrows hfits)
      rw [List.length_map, List.length_map, List.length_range] at hlength
      rw [hlength] at hcomplete
      cases hcomplete
      refine ⟨rfl, rfl, fun i hi => ?_, fun i hi t ht => ?_⟩
      · obtain ⟨t, ht, -⟩ := h.later hp hgrows hfits hi
        have hlive := (hexact _ _ ht).mpr ⟨Nat.le_add_right _ _, by omega⟩
        refine ⟨t, ht, ?_⟩
        rw [hafter, List.getElem?_map, ht, Option.map_some, if_pos hlive]
      · obtain ⟨u, hu, hrevised⟩ := h.later hp hgrows hfits hi
        rw [ht] at hu
        cases hu
        exact hrevised.total (Option.some_ne_none _)

end Assemble

/-- After any run, a bulk, and any run again: every complete answer for the task of the bulk is about
the whole bulk exactly when the task lives as a whole or not at all, or an assembly of it fails. -/
theorem assemble_all_or_nothing_iff (chunkSize : Nat) (hc : 0 < chunkSize) (before : List PagerOp)
    (data : List UInt8) (baseOffset : UInt64) (intent fromAint : String) (busSeq : UInt64)
    (between : List PagerOp) :
    ∃ p₁ results,
      (Machine.run pagerStep (.new chunkSize) before).pageOutBulk data baseOffset intent fromAint
        busSeq = some (p₁, results) ∧
      (AllOrNothing (Machine.run pagerStep p₁ between) intent busSeq
          (Machine.run pagerStep (.new chunkSize) before).tokens.length
          (data.length ⌈/⌉ chunkSize) data.length ↔
        LivesWhole (Machine.run pagerStep p₁ between) intent busSeq
          (Machine.run pagerStep (.new chunkSize) before).tokens.length
          (data.length ⌈/⌉ chunkSize)) := by
  have hp := numbered_run chunkSize before
  have hsize := chunkSize_run chunkSize before
  obtain ⟨p₁, results, hbulk, hbulked⟩ :=
    pageOutBulk_bulked data baseOffset intent fromAint busSeq hp (hsize.symm ▸ hc)
  have hiff := allOrNothing_iff hp (hsize.symm ▸ hc) hbulked (grows_run p₁ between)
    (hbulked.numbered.run between)
  rw [hsize] at hiff
  exact ⟨p₁, results, hbulk, hiff⟩

/-- Both chunks of a bulk that found room are live. -/
theorem assemble_all_or_nothing_iff_two :
    ∃ p₁ results,
      (UpipPager.new 1).pageOutBulk [1, 2] 0 "code:execute" "sender.aint" 7 = some (p₁, results) ∧
      AllOrNothing p₁ "code:execute" 7 0 2 2 := by
  obtain ⟨p₁, results, hbulk, hiff⟩ :=
    assemble_all_or_nothing_iff 1 (by decide) [] [1, 2] 0 "code:execute" "sender.aint" 7 []
  obtain ⟨p, results', hbulk', hbulked⟩ := pageOutBulk_bulked [1, 2] 0 "code:execute" "sender.aint" 7
    (numbered_new 1) Nat.one_pos
  have hsame : p = p₁ := congrArg Prod.fst (Option.some.inj (hbulk'.symm.trans hbulk))
  have htokens : p.tokens = (List.range 2).map
      (taskToken [1, 2] 0 "code:execute" "sender.aint" 7 (.new 1)) :=
    hbulked.fits (numbered_new 1) (by decide)
  refine ⟨p₁, results, hbulk, hiff.mpr (.inr (.inr ⟨by decide, ?_⟩))⟩
  intro i t ht
  change p₁.tokens[i]? = some t at ht
  rw [← hsame, htokens, List.getElem?_map, Option.map_eq_some_iff] at ht
  obtain ⟨j, hj, rfl⟩ := ht
  obtain ⟨hlt, rfl⟩ := List.getElem?_eq_some_iff.mp hj
  rw [List.length_range] at hlt
  exact iff_of_true (isLive_taskToken _) ⟨Nat.zero_le _, hlt⟩

/-- Two chunks, of which the first is consumed: the assembly of the other one is called complete,
though both have the total two. -/
theorem assembly_without_first_chunk :
    ∃ p₁ results,
      (UpipPager.new 1).pageOutBulk [1, 2] 0 "code:execute" "sender.aint" 7 = some (p₁, results) ∧
      (Machine.run pagerStep p₁ [.consume (tokenId "code:execute" 0)]).tokens.map
        ForkToken.totalChunks = [some 2, some 2] ∧
      ((Machine.run pagerStep p₁ [.consume (tokenId "code:execute" 0)]).assemble "code:execute" 7).2 =
        .complete 1 1 true ∧
      ¬ AllOrNothing (Machine.run pagerStep p₁ [.consume (tokenId "code:execute" 0)])
        "code:execute" 7 0 2 2 := by
  obtain ⟨p₁, results, hbulk, hbulked⟩ := pageOutBulk_bulked [1, 2] 0 "code:execute"
    "sender.aint" 7 (numbered_new 1) Nat.one_pos
  let first := taskToken [1, 2] 0 "code:execute" "sender.aint" 7 (.new 1) 0
  let second := taskToken [1, 2] 0 "code:execute" "sender.aint" 7 (.new 1) 1
  have htokens : p₁.tokens = [first, second] := hbulked.fits (numbered_new 1) (by decide)
  have hids := hbulked.numbered.nodup
  have hne : second.id ≠ first.id := by
    intro heq
    rw [htokens] at hids
    simp [heq] at hids
  have hafter : (Machine.run pagerStep p₁ [.consume (tokenId "code:execute" 0)]).tokens =
      [{ first with state := .consumed }, second] := by
    show (p₁.consume first.id).1.tokens = _
    rw [consume_of_mem hids (by simp [htokens]), htokens]
    simp [hne]
  have hlive : second.isLive "code:execute" 7 = true := isLive_taskToken 1
  have hfilter : ([{ first with state := .consumed }, second] : List ForkToken).filter
      (ForkToken.isLive "code:execute" 7) = [second] := by
    rw [List.filter_cons_of_neg (by simp [ForkToken.isLive]), List.filter_cons_of_pos hlive]
    rfl
  have hsealed : ∀ t ∈ ([{ first with state := .consumed }, second] : List ForkToken),
      t.isLive "code:execute" 7 = true → t.Sealed := by
    intro t ht _
    rcases List.mem_cons.mp ht with rfl | ht
    · rfl
    · obtain rfl := List.mem_singleton.mp ht
      rfl
  have hlater := hbulked.numbered.run [.consume (tokenId "code:execute" 0)]
  obtain ⟨-, hresult⟩ := assemble_sealed hlater.nodup (hafter ▸ ⟨second, by simp, hlive⟩)
    (hafter ▸ hsealed)
  rw [hafter, hfilter] at hresult
  refine ⟨p₁, results, hbulk, ?_, hresult, fun hall => ?_⟩
  · rw [hafter]
    rfl
  · exact absurd (hall 1 1 true hresult).chunks (by decide)

end Spaceshuttle.Upip
