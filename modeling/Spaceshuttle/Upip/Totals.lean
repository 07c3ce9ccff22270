import Spaceshuttle.Upip.Bulk

/-!
# Chunk totals

A bulk counts back from the next number by the number of its chunks. That finds its own tokens when
all its chunks got one. When some did not, it goes too far back, below zero if there are more chunks
than numbers.
-/

namespace Spaceshuttle.Upip

open UpipPager

/-- After a bulk of this data on `p`, the tokens of the bulk have the number of its chunks as total,
the total of every other token is as before, and counting back did not go below zero. -/
structure TotalsRight (p : UpipPager) (data : List UInt8) (p' : UpipPager) : Prop where
  noUnderflow : data.length ⌈/⌉ p.chunkSize ≤ p'.nextTokenId.toNat
  created : ∀ (i : Nat) (t : ForkToken), p.tokens.length ≤ i → p'.tokens[i]? = some t →
    t.totalChunks = some (UInt64.ofNat (data.length ⌈/⌉ p.chunkSize))
  others : ∀ i < p.tokens.length,
    p'.tokens[i]?.map ForkToken.totalChunks = p.tokens[i]?.map ForkToken.totalChunks

/-- There is room for all the chunks, or there are no more of them than numbers and the tokens that
are found too many have a total already. -/
def CountsBackRight (p : UpipPager) (data : List UInt8) : Prop :=
  p.tokens.length + data.length ⌈/⌉ p.chunkSize ≤ maxPagedChunks ∨
    data.length ⌈/⌉ p.chunkSize ≤ maxPagedChunks ∧
      ∀ (i : Nat) (t : ForkToken), maxPagedChunks - data.length ⌈/⌉ p.chunkSize ≤ i →
        p.tokens[i]? = some t → t.totalChunks ≠ none

section Bulk

variable {data : List UInt8} {baseOffset : UInt64} {intent fromAint : String} {busSeq : UInt64}
  {p p' : UpipPager} {results : List PageOutResult}

theorem toNat_nextTokenId (hp : Numbered p) : p.nextTokenId.toNat = p.tokens.length := by
  have hroom := hp.room
  have hsize : maxPagedChunks < UInt64.size := by decide
  rw [hp.next, UInt64.toNat_ofNat_of_lt' (by omega)]

/-- The condition in terms of how far the bulk counts back. -/
theorem countsBackRight_iff (hp : Numbered p) {k : Nat} (hk : data.length ⌈/⌉ p.chunkSize = k) :
    CountsBackRight p data ↔ k ≤ p.tokens.length + stored p k ∧
      ∀ (i : Nat) (t : ForkToken), p.tokens.length + stored p k - k ≤ i → p.tokens[i]? = some t →
        t.totalChunks ≠ none := by
  have hroom := hp.room
  unfold CountsBackRight stored
  rw [hk]
  by_cases hfits : p.tokens.length + k ≤ maxPagedChunks
  · refine iff_of_true (.inl hfits) ⟨by omega, fun i t hi ht => ?_⟩
    obtain ⟨hlt, -⟩ := List.getElem?_eq_some_iff.mp ht
    omega
  · have hfull : p.tokens.length + min k (maxPagedChunks - p.tokens.length) = maxPagedChunks := by
      omega
    rw [hfull]
    exact or_iff_right hfits

theorem totalsRight_iff (hp : Numbered p)
    (h : Bulked data baseOffset intent fromAint busSeq p p' results) :
    TotalsRight p data p' ↔ CountsBackRight p data := by
  have hlength := h.length
  have hroom' := h.numbered.room
  rw [countsBackRight_iff hp rfl]
  constructor
  · intro hright
    have hunder := hright.noUnderflow
    rw [toNat_nextTokenId h.numbered] at hunder
    refine ⟨by omega, fun i t hi ht hnone => ?_⟩
    obtain ⟨hlt, -⟩ := List.getElem?_eq_some_iff.mp ht
    have hmark : t.chunkSeq ≥ p'.nextTokenId - UInt64.ofNat (data.length ⌈/⌉ p.chunkSize) := by
      rw [hp.chunkSeq ht, h.numbered.countBack hunder (by omega)]
      omega
    have hsame := hright.others i hlt
    rw [h.getElem?_old hlt, ht, Option.map_some, setTotal_none hmark hnone, Option.map_some,
      Option.map_some, hnone] at hsame
    cases hsame
  · rintro ⟨hunder, htotals⟩
    rw [← hlength] at hunder
    have hcount := fun i => h.numbered.countBack (i := i) hunder
    refine ⟨?_, fun i t hi ht => ?_, fun i hi => ?_⟩
    · rw [toNat_nextTokenId h.numbered]
      exact hunder
    · obtain ⟨hlt, -⟩ := List.getElem?_eq_some_iff.mp ht
      obtain ⟨j, rfl⟩ := Nat.exists_eq_add_of_le hi
      have hj : j < stored p (data.length ⌈/⌉ p.chunkSize) := by omega
      have hle : stored p (data.length ⌈/⌉ p.chunkSize) ≤ data.length ⌈/⌉ p.chunkSize :=
        min_le_left _ _
      rw [h.getElem?_new hj, setTotal_none ((hcount _ (by omega)).mpr (by omega)) rfl] at ht
      cases ht
      rfl
    · rw [h.getElem?_old hi]
      obtain ⟨t, ht⟩ : ∃ t, p.tokens[i]? = some t := ⟨_, List.getElem?_eq_getElem hi⟩
      rw [ht, Option.map_some]
      by_cases hmark : t.chunkSeq ≥ p'.nextTokenId - UInt64.ofNat (data.length ⌈/⌉ p.chunkSize)
      · have hmark' := hmark
        rw [hp.chunkSeq ht, hcount i (by omega), hlength] at hmark'
        rw [setTotal_known (htotals i t hmark' ht)]
      · rw [setTotal_before hmark]

end Bulk

/-- After any run, a bulk sets the totals right exactly when the tokens it finds by counting back
are its own, or have a total. -/
theorem bulk_totals_right_iff (chunkSize : Nat) (hc : 0 < chunkSize) (ops : List PagerOp)
    (data : List UInt8) (baseOffset : UInt64) (intent fromAint : String) (busSeq : UInt64) :
    ∃ p' results,
      (Machine.run pagerStep (.new chunkSize) ops).pageOutBulk data baseOffset intent fromAint
        busSeq = some (p', results) ∧
      (TotalsRight (Machine.run pagerStep (.new chunkSize) ops) data p' ↔
        CountsBackRight (Machine.run pagerStep (.new chunkSize) ops) data) := by
  have hp := numbered_run chunkSize ops
  have hsize := chunkSize_run chunkSize ops
  obtain ⟨p', results, hbulk, hbulked⟩ :=
    pageOutBulk_bulked data baseOffset intent fromAint busSeq hp (hsize.symm ▸ hc)
  exact ⟨p', results, hbulk, totalsRight_iff hp hbulked⟩

/-- Beside a chunk of another task, the totals of three chunks come out right. -/
theorem bulk_totals_right_iff_five :
    ∃ p' results,
      (Machine.run pagerStep (.new 2) [.pageOut [9] 64 "math_calculation" "sender.aint" 6]).pageOutBulk
        [1, 2, 3, 4, 5] 0 "code:execute" "sender.aint" 7 = some (p', results) ∧
      TotalsRight
        (Machine.run pagerStep (.new 2) [.pageOut [9] 64 "math_calculation" "sender.aint" 6])
        [1, 2, 3, 4, 5] p' := by
  obtain ⟨p', results, hbulk, hiff⟩ := bulk_totals_right_iff 2 (by decide)
    [.pageOut [9] 64 "math_calculation" "sender.aint" 6] [1, 2, 3, 4, 5] 0 "code:execute"
    "sender.aint" 7
  exact ⟨p', results, hbulk, hiff.mpr (.inl (by decide))⟩

/-- 257 chunks in an empty table: the 257th gets no token, and counting back 257 from 256 goes below
zero. -/
theorem bulk_of_257_underflows :
    ∃ p' results,
      (UpipPager.new 1).pageOutBulk (List.replicate 257 0) 0 "code:execute" "sender.aint" 7 =
        some (p', results) ∧
      p'.nextTokenId.toNat < results.length ∧
      ¬ TotalsRight (.new 1) (List.replicate 257 0) p' := by
  obtain ⟨p', results, hbulk, hbulked⟩ := pageOutBulk_bulked (List.replicate 257 0) 0 "code:execute"
    "sender.aint" 7 (numbered_new 1) Nat.one_pos
  have hcount : (List.replicate 257 (0 : UInt8)).length ⌈/⌉ (UpipPager.new 1).chunkSize = 257 := by
    rw [List.length_replicate]
    rfl
  have hroom := hbulked.numbered.room
  refine ⟨p', results, hbulk, ?_, ?_⟩
  · rw [toNat_nextTokenId hbulked.numbered, hbulked.results, List.length_map, List.length_range,
      hcount]
    exact Nat.lt_succ_of_le hroom
  · rw [totalsRight_iff (numbered_new 1) hbulked, CountsBackRight, hcount]
    rintro (hfits | ⟨hle, -⟩)
    · exact absurd hfits (by decide)
    · exact absurd hle (by decide)

end Spaceshuttle.Upip
