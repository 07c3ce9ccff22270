import Spaceshuttle.Upip.Assembly
import Spaceshuttle.Upip.Bulk

/-!
# From page-out to assembly

A bulk that finds room pages its data out as tiles of the memory it came from, and `assemble` takes
exactly these tiles back, once.
-/

namespace Spaceshuttle.Upip

open UpipPager

/-- The tokens cover `n` bytes of memory from `baseOffset` on, in order: each starts where those before
it end. -/
structure TilesRange (baseOffset : UInt64) (n : Nat) (tokens : List ForkToken) : Prop where
  starts : ∀ (i : Nat) (t : ForkToken), tokens[i]? = some t →
    t.memoryOffset = baseOffset + UInt64.ofNat ((tokens.take i).map ForkToken.rawSize).sum
  pos : ∀ t ∈ tokens, 0 < t.rawSize
  total : (tokens.map ForkToken.rawSize).sum = n

/-- The ids are distinct and the number of a token is its position. -/
structure Distinct (p : UpipPager) : Prop where
  ids : (p.tokens.map ForkToken.id).Nodup
  seqs : ∀ (i : Nat) (t : ForkToken), p.tokens[i]? = some t → t.chunkSeq = UInt64.ofNat i

/-- A bulk took the pager from `p` to `p'` with these results, and `assemble` undoes it. -/
structure RoundTrip (data : List UInt8) (baseOffset : UInt64) (intent : String) (busSeq : UInt64)
    (p p' : UpipPager) (results : List PageOutResult) : Prop where
  pagedOut : ∃ tokens : List ForkToken, tokens.length = data.length ⌈/⌉ p.chunkSize ∧
    TilesRange baseOffset data.length tokens ∧
    results = tokens.map (fun t => .success t t.rawSize)
  assembled : (p'.assemble intent busSeq).2 =
    .complete (data.length ⌈/⌉ p.chunkSize) data.length true
  length : (p'.assemble intent busSeq).1.tokens.length =
    p.tokens.length + data.length ⌈/⌉ p.chunkSize
  consumed : ∀ (i : Nat) (t : ForkToken), p.tokens.length ≤ i →
    (p'.assemble intent busSeq).1.tokens[i]? = some t → t.state = .consumed
  others : ∀ i < p.tokens.length, (p'.assemble intent busSeq).1.tokens[i]? = p.tokens[i]?
  again : ((p'.assemble intent busSeq).1.assemble intent busSeq).2 = .incomplete 0 [0]

section Bulk

variable {data : List UInt8} {baseOffset : UInt64} {intent fromAint : String} {busSeq : UInt64}
  {p p' : UpipPager} {results : List PageOutResult}

theorem Numbered.distinct (hp : Numbered p) : Distinct p := ⟨hp.nodup, fun _ _ h => hp.chunkSeq h⟩

theorem bulkToken_rawSize (i : Nat) :
    (bulkToken data baseOffset intent fromAint busSeq p i).rawSize =
      Tiles.size data.length p.chunkSize i :=
  length_chunk data p.chunkSize i

/-- The sizes of the first `k` chunks. -/
theorem sum_rawSize (k : Nat) :
    (((List.range k).map (bulkToken data baseOffset intent fromAint busSeq p)).map
      ForkToken.rawSize).sum = min data.length (k * p.chunkSize) := by
  rw [List.map_map, ← Tiles.sum_size_range]
  congr 1
  exact List.map_congr_left fun i _ => bulkToken_rawSize i

theorem tilesRange_bulk (hc : 0 < p.chunkSize) :
    TilesRange baseOffset data.length ((List.range (data.length ⌈/⌉ p.chunkSize)).map
      (bulkToken data baseOffset intent fromAint busSeq p)) := by
  refine ⟨fun i t ht => ?_, fun t ht => ?_, ?_⟩
  · obtain ⟨j, hj, rfl⟩ := Option.map_eq_some_iff.mp (List.getElem?_map ▸ ht)
    obtain ⟨hlt, hij⟩ := List.getElem?_eq_some_iff.mp hj
    rw [List.getElem_range] at hij
    subst hij
    rw [List.length_range] at hlt
    have hbefore : i * p.chunkSize < data.length := (Tiles.lt_count_iff hc).mp hlt
    rw [← List.map_take, List.take_range, min_eq_left hlt.le, sum_rawSize,
      min_eq_right hbefore.le]
    rfl
  · obtain ⟨i, hi, rfl⟩ := List.mem_map.mp ht
    rw [bulkToken_rawSize]
    exact Tiles.size_pos hc (List.mem_range.mp hi)
  · have hall := Tiles.sum_size (n := data.length) hc
    rw [Tiles.sum_size_range] at hall
    rw [sum_rawSize, hall]

/-- The answers of a bulk that finds room for all its chunks. -/
theorem Bulked.successes (h : Bulked data baseOffset intent fromAint busSeq p p' results)
    (hfits : p.tokens.length + data.length ⌈/⌉ p.chunkSize ≤ maxPagedChunks) :
    results = ((List.range (data.length ⌈/⌉ p.chunkSize)).map
      (bulkToken data baseOffset intent fromAint busSeq p)).map
        (fun t => .success t t.rawSize) := by
  rw [h.results, List.map_map]
  apply List.map_congr_left
  intro i hi
  have hlt := List.mem_range.mp hi
  rw [bulkResult, if_pos (by omega), Function.comp_apply, bulkToken_rawSize]

theorem isLive_taskToken (i : Nat) :
    (taskToken data baseOffset intent fromAint busSeq p i).isLive intent busSeq = true := by
  simp [taskToken, bulkToken, mint, ForkToken.isLive]

theorem map_rawSize_taskToken (k : Nat) :
    ((List.range k).map (taskToken data baseOffset intent fromAint busSeq p)).map
        ForkToken.rawSize =
      ((List.range k).map (bulkToken data baseOffset intent fromAint busSeq p)).map
        ForkToken.rawSize := by
  rw [List.map_map, List.map_map]
  rfl

theorem isLive_of_fresh {t : ForkToken} (h : ¬ (t.intent = intent ∧ t.busSeq = busSeq)) :
    t.isLive intent busSeq = false := by
  apply Bool.eq_false_iff.mpr
  intro hlive
  obtain ⟨hintent, hseq, -⟩ := ForkToken.isLive_iff.mp hlive
  exact h ⟨hintent, hseq⟩

/-- The live tokens of a new task are those of its bulk. -/
theorem filter_isLive {tokens new : List ForkToken}
    (hfresh : ∀ t ∈ tokens, ¬ (t.intent = intent ∧ t.busSeq = busSeq))
    (hnew : ∀ t ∈ new, t.isLive intent busSeq = true) :
    (tokens ++ new).filter (ForkToken.isLive intent busSeq) = new := by
  have hold : tokens.filter (ForkToken.isLive intent busSeq) = [] :=
    List.filter_eq_nil_iff.mpr fun t ht => by simp [isLive_of_fresh (hfresh t ht)]
  rw [List.filter_append, hold, List.nil_append, List.filter_eq_self.mpr hnew]

theorem Bulked.roundTrip (hp : Numbered p) (hc : 0 < p.chunkSize)
    (h : Bulked data baseOffset intent fromAint busSeq p p' results) (hdata : data ≠ [])
    (hfits : p.tokens.length + data.length ⌈/⌉ p.chunkSize ≤ maxPagedChunks)
    (hfresh : ∀ t ∈ p.tokens, ¬ (t.intent = intent ∧ t.busSeq = busSeq)) :
    RoundTrip data baseOffset intent busSeq p p' results := by
  have htokens := h.fits hp hfits
  have hdead : ∀ t ∈ p.tokens, t.isLive intent busSeq = false := fun t ht =>
    isLive_of_fresh (hfresh t ht)
  have hnew : ∀ t ∈ (List.range (data.length ⌈/⌉ p.chunkSize)).map
      (taskToken data baseOffset intent fromAint busSeq p),
      t.isLive intent busSeq = true ∧ t.Sealed := by
    intro t ht
    obtain ⟨i, -, rfl⟩ := List.mem_map.mp ht
    exact ⟨isLive_taskToken i, rfl⟩
  have hlive := filter_isLive hfresh fun t ht => (hnew t ht).1
  rw [← htokens] at hlive
  have hsome : ∃ t ∈ p'.tokens, t.isLive intent busSeq = true := by
    have hcount : 0 < data.length ⌈/⌉ p.chunkSize := by
      rw [Tiles.lt_count_iff hc, Nat.zero_mul]
      exact List.length_pos_of_ne_nil hdata
    have hfirst := List.mem_map_of_mem
      (f := taskToken data baseOffset intent fromAint busSeq p) (List.mem_range.mpr hcount)
    exact ⟨_, htokens ▸ List.mem_append_right _ hfirst, (hnew _ hfirst).1⟩
  have hsealed : ∀ t ∈ p'.tokens, t.isLive intent busSeq = true → t.Sealed := by
    intro t ht hlivet
    have hin : t ∈ p'.tokens.filter (ForkToken.isLive intent busSeq) :=
      List.mem_filter.mpr ⟨ht, hlivet⟩
    rw [hlive] at hin
    exact (hnew t hin).2
  obtain ⟨hafter, hresult⟩ := assemble_sealed h.numbered.nodup hsome hsealed
  rw [hlive, map_rawSize_taskToken] at hresult
  have hsplit : (p'.assemble intent busSeq).1.tokens =
      p.tokens ++ ((List.range (data.length ⌈/⌉ p.chunkSize)).map
        (taskToken data baseOffset intent fromAint busSeq p)).map ForkToken.restored := by
    rw [hafter, htokens, List.map_append]
    congr 1
    · conv_rhs => rw [← List.map_id p.tokens]
      exact List.map_congr_left fun t ht => if_neg (by simp [hdead t ht])
    · exact List.map_congr_left fun t ht => if_pos (hnew t ht).1
  refine ⟨?_, ?_, ?_, ?_, ?_, ?_⟩
  · exact ⟨_, by simp, tilesRange_bulk hc, h.successes hfits⟩
  · rw [hresult, (tilesRange_bulk hc).total]
    simp
  · simp [hsplit]
  · intro i t hi ht
    rw [hsplit, List.getElem?_append_right hi] at ht
    obtain ⟨u, -, rfl⟩ := List.mem_map.mp (List.mem_of_getElem? ht)
    rfl
  · intro i hi
    rw [hsplit, List.getElem?_append_left hi]
  · have hnone : ∀ t ∈ (p'.assemble intent busSeq).1.tokens, t.isLive intent busSeq = false := by
      intro t ht
      rw [hsplit] at ht
      rcases List.mem_append.mp ht with hold | hrestored
      · exact hdead t hold
      · obtain ⟨u, -, rfl⟩ := List.mem_map.mp hrestored
        simp [ForkToken.isLive, ForkToken.restored]
    rw [assemble_none hnone]

end Bulk

/-- Over any run the tokens are distinct and numbered by position; and after any run, a bulk of a new
task that finds room is taken back by `assemble`, once. -/
theorem page_out_assemble_round_trip (chunkSize : Nat) (hc : 0 < chunkSize) :
    (∀ ops, Distinct (Machine.run pagerStep (.new chunkSize) ops)) ∧
    ∀ (ops : List PagerOp) (data : List UInt8) (baseOffset : UInt64) (intent fromAint : String)
      (busSeq : UInt64), data ≠ [] →
      (Machine.run pagerStep (.new chunkSize) ops).tokens.length + data.length ⌈/⌉ chunkSize ≤
        maxPagedChunks →
      (∀ t ∈ (Machine.run pagerStep (.new chunkSize) ops).tokens,
        ¬ (t.intent = intent ∧ t.busSeq = busSeq)) →
      ∃ p' results,
        (Machine.run pagerStep (.new chunkSize) ops).pageOutBulk data baseOffset intent fromAint
          busSeq = some (p', results) ∧
        RoundTrip data baseOffset intent busSeq (Machine.run pagerStep (.new chunkSize) ops) p'
          results := by
  refine ⟨fun ops => (numbered_run chunkSize ops).distinct, ?_⟩
  intro ops data baseOffset intent fromAint busSeq hdata hfits hfresh
  have hp := numbered_run chunkSize ops
  have hsize := chunkSize_run chunkSize ops
  obtain ⟨p', results, hbulk, hbulked⟩ :=
    pageOutBulk_bulked data baseOffset intent fromAint busSeq hp (hsize.symm ▸ hc)
  exact ⟨p', results, hbulk,
    hbulked.roundTrip hp (hsize.symm ▸ hc) hdata (hsize.symm ▸ hfits) hfresh⟩

/-- Three bytes in chunks of two, behind a chunk of another task. -/
theorem page_out_assemble_round_trip_three :
    0 < 2 ∧ ([1, 2, 3] : List UInt8) ≠ [] ∧
      ∃ p' results,
        (Machine.run pagerStep (.new 2) [.pageOut [9] 0 "ai:inference" "other.aint" 3]).pageOutBulk
          [1, 2, 3] 4096 "code:execute" "sender.aint" 7 = some (p', results) ∧
        RoundTrip [1, 2, 3] 4096 "code:execute" 7
          (Machine.run pagerStep (.new 2) [.pageOut [9] 0 "ai:inference" "other.aint" 3]) p'
          results := by
  refine ⟨by decide, by decide, ?_⟩
  refine (page_out_assemble_round_trip 2 (by decide)).2
    [.pageOut [9] 0 "ai:inference" "other.aint" 3] [1, 2, 3] 4096 "code:execute" "sender.aint" 7
    (by decide) ?_ ?_
  · exact Nat.le_of_ble_eq_true rfl
  · intro t ht hsame
    obtain rfl := List.mem_singleton.mp ht
    exact absurd hsame.1 (by decide)

end Spaceshuttle.Upip
