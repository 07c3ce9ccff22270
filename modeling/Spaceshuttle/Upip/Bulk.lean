import Spaceshuttle.Lib.Tiles
import Spaceshuttle.Upip.Tokens

/-!
# Bulk page-outs

A bulk pages out the tiles of its data one after the other, as far as there is room, and then sets
a total. The tokens it sets it on are found by counting back from the next number, over every tile and
not only over those that got a token.
-/

namespace Spaceshuttle.Upip

open UpipPager

/-! ## Chunks -/

/-- Chunk `i` of the data. -/
def chunk (data : List UInt8) (c i : Nat) : List UInt8 :=
  (data.take (min ((i + 1) * c) data.length)).drop (i * c)

theorem length_chunk (data : List UInt8) (c i : Nat) :
    (chunk data c i).length = Tiles.size data.length c i := by
  unfold chunk Tiles.size
  rw [List.length_drop, List.length_take, Nat.succ_mul]
  omega

theorem chunk_ne_nil {data : List UInt8} {c i : Nat} (hc : 0 < c) (hi : i < data.length ⌈/⌉ c) :
    chunk data c i ≠ [] := by
  have hpos := Tiles.size_pos hc hi
  rw [← length_chunk] at hpos
  exact List.ne_nil_of_length_pos hpos

/-! ## One page-out -/

section PageOut

variable {p : UpipPager} {chunkData : List UInt8} {memoryOffset : UInt64} {intent fromAint : String}
  {busSeq : UInt64}

theorem pageOut_full (hne : chunkData ≠ []) (hroom : maxPagedChunks ≤ p.tokens.length) :
    p.pageOut chunkData memoryOffset intent fromAint busSeq = (p, .failed limitReached) := by
  unfold UpipPager.pageOut
  rw [if_neg (by simpa using hne), if_pos hroom]

theorem pageOut_room (hne : chunkData ≠ []) (hroom : p.tokens.length < maxPagedChunks) :
    p.pageOut chunkData memoryOffset intent fromAint busSeq =
      ({ p with
          nextTokenId := p.nextTokenId + 1
          tokens := p.tokens ++ [mint p.nextTokenId chunkData memoryOffset intent fromAint busSeq]
          pagesOut := p.pagesOut + 1
          bytesPagedOut := p.bytesPagedOut + UInt64.ofNat chunkData.length },
        .success (mint p.nextTokenId chunkData memoryOffset intent fromAint busSeq)
          chunkData.length) := by
  unfold UpipPager.pageOut
  rw [if_neg (by simpa using hne), if_neg (not_le.mpr hroom)]

end PageOut

/-! ## The loop -/

section Loop

variable (data : List UInt8) (baseOffset : UInt64) (intent fromAint : String) (busSeq : UInt64)

/-- Page out chunk `i`. -/
def pageOutChunk (c : Nat) (p : UpipPager) (i : Nat) : UpipPager × PageOutResult :=
  p.pageOut (chunk data c i) (baseOffset + UInt64.ofNat (i * c)) intent fromAint busSeq

/-- The token of chunk `i`, if there is room for it behind the tokens of `p`. -/
def bulkToken (p : UpipPager) (i : Nat) : ForkToken :=
  mint (UInt64.ofNat (p.tokens.length + i)) (chunk data p.chunkSize i)
    (baseOffset + UInt64.ofNat (i * p.chunkSize)) intent fromAint busSeq

/-- The answer for chunk `i`. -/
def bulkResult (p : UpipPager) (i : Nat) : PageOutResult :=
  if p.tokens.length + i < maxPagedChunks then
    .success (bulkToken data baseOffset intent fromAint busSeq p i)
      (Tiles.size data.length p.chunkSize i)
  else .failed limitReached

/-- How many of `k` chunks there is room for. -/
def stored (p : UpipPager) (k : Nat) : Nat := min k (maxPagedChunks - p.tokens.length)

variable {p : UpipPager} {c : Nat}

/-- The loop pages out one chunk after the other. -/
theorem pageOutLoop_eq (hc : 0 < c) {fuel i : Nat} (hsize : p.chunkSize = c)
    (hi : i ≤ data.length ⌈/⌉ c) (hfuel : data.length ⌈/⌉ c ≤ i + fuel) :
    pageOutLoop data baseOffset intent fromAint busSeq fuel p (min (i * c) data.length) =
      some (Machine.run (pageOutChunk data baseOffset intent fromAint busSeq c) p
          (List.range' i (data.length ⌈/⌉ c - i)),
        (Machine.history (pageOutChunk data baseOffset intent fromAint busSeq c) p
          (List.range' i (data.length ⌈/⌉ c - i))).map Prod.snd) := by
  have hmore := Tiles.lt_count_iff (n := data.length) (i := i) hc
  induction fuel generalizing i p with
  | zero =>
    have hlast : i = data.length ⌈/⌉ c := by omega
    rw [hlast, Nat.sub_self, ← hlast, UpipPager.pageOutLoop, if_neg (by omega)]
    rfl
  | succ fuel ih =>
    rw [UpipPager.pageOutLoop]
    by_cases hlt : i < data.length ⌈/⌉ c
    · have hoffset : i * c < data.length := hmore.mp hlt
      have hstart : min (i * c) data.length = i * c := min_eq_left hoffset.le
      have hend : min (i * c + p.chunkSize) data.length = min ((i + 1) * c) data.length := by
        rw [hsize, Nat.succ_mul]
      obtain ⟨rest, hrest⟩ : ∃ rest, data.length ⌈/⌉ c - i = rest + 1 :=
        ⟨data.length ⌈/⌉ c - (i + 1), by omega⟩
      have hrest' : data.length ⌈/⌉ c - (i + 1) = rest := by omega
      have hnext := ih (p := (pageOutChunk data baseOffset intent fromAint busSeq c p i).1)
        (i := i + 1) ((evolves_step p (.pageOut _ _ _ _ _)).chunkSize.trans hsize) hlt (by omega)
        (Tiles.lt_count_iff hc)
      rw [hrest'] at hnext
      rw [if_pos (by omega), hstart, hend, hrest, List.range'_succ]
      show Option.map _ (pageOutLoop data baseOffset intent fromAint busSeq fuel
        (pageOutChunk data baseOffset intent fromAint busSeq c p i).1 _) = _
      rw [hnext]
      rfl
    · have hlast : data.length ⌈/⌉ c - i = 0 := by omega
      rw [hlast, if_neg (by omega)]
      rfl

/-- The tokens and the answers of the first `j` chunks. -/
theorem run_pageOutChunk (hp : Numbered p) (hc : 0 < p.chunkSize) {j : Nat}
    (hj : j ≤ data.length ⌈/⌉ p.chunkSize) :
    (Machine.run (pageOutChunk data baseOffset intent fromAint busSeq p.chunkSize) p
        (List.range j)).tokens =
      p.tokens ++ (List.range (stored p j)).map (bulkToken data baseOffset intent fromAint busSeq p) ∧
    (Machine.history (pageOutChunk data baseOffset intent fromAint busSeq p.chunkSize) p
        (List.range j)).map Prod.snd =
      (List.range j).map (bulkResult data baseOffset intent fromAint busSeq p) := by
  induction j with
  | zero => simp [Machine.history, stored]
  | succ j ih =>
    obtain ⟨htokens, hresults⟩ := ih (by omega)
    have hnumbered : Numbered (Machine.run
        (pageOutChunk data baseOffset intent fromAint busSeq p.chunkSize) p (List.range j)) :=
      Machine.run_keeps (fun p i hp => hp.step (.pageOut _ _ _ _ _)) hp _
    have hlength := congrArg List.length htokens
    rw [List.length_append, List.length_map, List.length_range] at hlength
    have hne : chunk data p.chunkSize j ≠ [] := chunk_ne_nil hc (by omega)
    have hroom := hp.room
    rw [List.range_succ, Machine.run_concat, Machine.history_concat, List.map_append, hresults,
      List.map_append]
    by_cases hfull : p.tokens.length + j < maxPagedChunks
    · have hstored : stored p j = j := by
        unfold stored
        omega
      have hstored' : stored p (j + 1) = j + 1 := by
        unfold stored
        omega
      rw [hstored] at htokens hlength
      rw [pageOutChunk, pageOut_room hne (by omega), hnumbered.next, hlength, hstored',
        List.range_succ, List.map_append, ← List.append_assoc, ← htokens]
      simp [bulkResult, hfull, bulkToken, length_chunk]
    · have hstored : stored p (j + 1) = stored p j := by
        unfold stored
        omega
      rw [pageOutChunk, pageOut_full hne (by unfold stored at hlength; omega), htokens, hstored]
      simp [bulkResult, hfull]

end Loop

/-! ## The whole bulk -/

section SetTotal

variable {startSeq total : UInt64} {t : ForkToken}

theorem setTotal_before (h : ¬ t.chunkSeq ≥ startSeq) : setTotal startSeq total t = t :=
  if_neg fun hmark => h hmark.1

theorem setTotal_known (h : t.totalChunks ≠ none) : setTotal startSeq total t = t :=
  if_neg fun hmark => h hmark.2

theorem setTotal_none (h : t.chunkSeq ≥ startSeq) (hnone : t.totalChunks = none) :
    setTotal startSeq total t = { t with totalChunks := some total } :=
  if_pos ⟨h, hnone⟩

end SetTotal

section Bulk

variable {data : List UInt8} {baseOffset : UInt64} {intent fromAint : String} {busSeq : UInt64}
  {p p' : UpipPager}

/-- What a bulk does to a pager `p` and what it returns. -/
structure Bulked (data : List UInt8) (baseOffset : UInt64) (intent fromAint : String)
    (busSeq : UInt64) (p p' : UpipPager) (results : List PageOutResult) : Prop where
  results : results = (List.range (data.length ⌈/⌉ p.chunkSize)).map
    (bulkResult data baseOffset intent fromAint busSeq p)
  tokens : p'.tokens =
    (p.tokens ++ (List.range (stored p (data.length ⌈/⌉ p.chunkSize))).map
      (bulkToken data baseOffset intent fromAint busSeq p)).map
      (setTotal (p'.nextTokenId - UInt64.ofNat (data.length ⌈/⌉ p.chunkSize))
        (UInt64.ofNat (data.length ⌈/⌉ p.chunkSize)))
  numbered : Numbered p'

/-- A bulk returns unless the chunk size is 0. -/
theorem pageOutBulk_bulked (data : List UInt8) (baseOffset : UInt64) (intent fromAint : String)
    (busSeq : UInt64) (hp : Numbered p) (hc : 0 < p.chunkSize) :
    ∃ p' results, p.pageOutBulk data baseOffset intent fromAint busSeq = some (p', results) ∧
      Bulked data baseOffset intent fromAint busSeq p p' results := by
  have hcount : data.length ⌈/⌉ p.chunkSize ≤ 0 + data.length := by
    rw [Nat.zero_add]
    exact Tiles.count_le hc
  have hloop := pageOutLoop_eq data baseOffset intent fromAint busSeq (p := p) hc rfl
    (Nat.zero_le _) hcount
  obtain ⟨htokens, hresults⟩ := run_pageOutChunk data baseOffset intent fromAint busSeq hp hc le_rfl
  rw [Nat.zero_mul, Nat.zero_min, Nat.sub_zero, ← List.range_eq_range', hresults] at hloop
  have hbulk := pageOutBulk_eq data baseOffset intent fromAint busSeq p
  rw [hloop, Option.map_some] at hbulk
  dsimp only at hbulk
  rw [List.length_map, List.length_range, htokens] at hbulk
  have hstep := hp.step (.pageOutBulk data baseOffset intent fromAint busSeq)
  rw [pagerStep, hbulk] at hstep
  exact ⟨_, _, hbulk, rfl, rfl, hstep⟩

variable {results : List PageOutResult}

theorem Bulked.length (h : Bulked data baseOffset intent fromAint busSeq p p' results) :
    p'.tokens.length = p.tokens.length + stored p (data.length ⌈/⌉ p.chunkSize) := by
  simp [h.tokens]

/-- The tokens that were there before. -/
theorem Bulked.getElem?_old (h : Bulked data baseOffset intent fromAint busSeq p p' results) {i : Nat}
    (hi : i < p.tokens.length) :
    p'.tokens[i]? = p.tokens[i]?.map
      (setTotal (p'.nextTokenId - UInt64.ofNat (data.length ⌈/⌉ p.chunkSize))
        (UInt64.ofNat (data.length ⌈/⌉ p.chunkSize))) := by
  rw [h.tokens, List.getElem?_map, List.getElem?_append_left hi]

/-- The tokens of this bulk. -/
theorem Bulked.getElem?_new (h : Bulked data baseOffset intent fromAint busSeq p p' results) {i : Nat}
    (hi : i < stored p (data.length ⌈/⌉ p.chunkSize)) :
    p'.tokens[p.tokens.length + i]? =
      some (setTotal (p'.nextTokenId - UInt64.ofNat (data.length ⌈/⌉ p.chunkSize))
        (UInt64.ofNat (data.length ⌈/⌉ p.chunkSize))
        (bulkToken data baseOffset intent fromAint busSeq p i)) := by
  rw [h.tokens, List.getElem?_map, List.getElem?_append_right (Nat.le_add_right _ _),
    Nat.add_sub_cancel_left, List.getElem?_map, List.getElem?_range hi]
  rfl

/-- When the counter has gone through all `k` numbers of a bulk, counting back by `k` gives the number
of the position `k` before the end. -/
theorem Numbered.countBack (hp : Numbered p) {k i : Nat} (hk : k ≤ p.tokens.length)
    (hi : i < maxPagedChunks) :
    UInt64.ofNat i ≥ p.nextTokenId - UInt64.ofNat k ↔ p.tokens.length - k ≤ i := by
  have hroom := hp.room
  have hsize : maxPagedChunks < UInt64.size := by decide
  rw [hp.next, ← UInt64.ofNat_sub hk, ge_iff_le, UInt64.le_iff_toNat_le,
    UInt64.toNat_ofNat_of_lt' (by omega), UInt64.toNat_ofNat_of_lt' (hi.trans hsize)]

/-- The token of chunk `i` after a bulk that finds room for all its chunks. -/
def taskToken (data : List UInt8) (baseOffset : UInt64) (intent fromAint : String)
    (busSeq : UInt64) (p : UpipPager) (i : Nat) : ForkToken :=
  { bulkToken data baseOffset intent fromAint busSeq p i with
    totalChunks := some (UInt64.ofNat (data.length ⌈/⌉ p.chunkSize)) }

/-- A bulk that finds room for all its chunks. -/
theorem Bulked.fits (hp : Numbered p)
    (h : Bulked data baseOffset intent fromAint busSeq p p' results)
    (hfits : p.tokens.length + data.length ⌈/⌉ p.chunkSize ≤ maxPagedChunks) :
    p'.tokens = p.tokens ++ (List.range (data.length ⌈/⌉ p.chunkSize)).map
      (taskToken data baseOffset intent fromAint busSeq p) := by
  have hstored : stored p (data.length ⌈/⌉ p.chunkSize) = data.length ⌈/⌉ p.chunkSize := by
    unfold stored
    omega
  have hlength := h.length
  rw [hstored] at hlength
  have hcount := fun i => h.numbered.countBack (k := data.length ⌈/⌉ p.chunkSize) (i := i) (by omega)
  rw [h.tokens, hstored, List.map_append, List.map_map]
  congr 1
  · conv_rhs => rw [← List.map_id p.tokens]
    apply List.map_congr_left
    intro t ht
    obtain ⟨i, hi, rfl⟩ := List.mem_iff_getElem.mp ht
    rw [id_eq, setTotal_before]
    rw [hp.chunkSeq (List.getElem?_eq_getElem hi), hcount i (by omega)]
    omega
  · apply List.map_congr_left
    intro i hi
    have hlt := List.mem_range.mp hi
    exact setTotal_none ((hcount (p.tokens.length + i) (by omega)).mpr (by omega)) rfl

end Bulk

end Spaceshuttle.Upip
