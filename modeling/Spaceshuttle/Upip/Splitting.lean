import Spaceshuttle.Upip.Bulk

/-!
# Splitting into chunks

The loop of `page_out_bulk` goes on by one chunk in every round, so it ends unless the chunk size is
0: nothing checks that. Then every round tries an empty chunk, fails and starts again where it was.
The sum of the offset and the chunk size does not wrap: after the first round the chunk size is less
than the length of the data, which is below `2 ^ 63`.
-/

namespace Spaceshuttle.Upip

open UpipPager

section Splitting

variable (data : List UInt8) (baseOffset : UInt64) (intent fromAint : String) (busSeq : UInt64)

/-- Page out pieces one after the other, each at the offset behind the pieces before it. -/
def pageOutPieces : UpipPager → Nat → List (List UInt8) → UpipPager × List PageOutResult
  | p, _, [] => (p, [])
  | p, offset, piece :: pieces =>
      let (p, result) := p.pageOut piece (baseOffset + UInt64.ofNat offset) intent fromAint busSeq
      let (p, results) := pageOutPieces p (offset + piece.length) pieces
      (p, result :: results)

/-- The loop ends after some number of rounds, and what it did was to page out, in order, pieces that
make up the data and of which none is empty. -/
def CoversOnce (p : UpipPager) : Prop :=
  ∃ fuel pieces, [] ∉ pieces ∧ pieces.flatten = data ∧
    pageOutLoop data baseOffset intent fromAint busSeq fuel p 0 =
      some (pageOutPieces baseOffset intent fromAint busSeq p 0 pieces)

variable {p : UpipPager}

/-- The piece that a round takes. -/
theorem length_piece {offset stop : Nat} (hle : offset ≤ stop) (hstop : stop ≤ data.length) :
    offset + ((data.take stop).drop offset).length = stop := by
  rw [List.length_drop, List.length_take]
  omega

theorem piece_append_drop {offset stop : Nat} (hle : offset ≤ stop) :
    (data.take stop).drop offset ++ data.drop stop = data.drop offset := by
  conv_rhs => rw [← List.take_append_drop stop data]
  rcases Nat.le_total stop data.length with hstop | hstop
  · rw [List.drop_append_of_le_length (by rw [List.length_take]; omega)]
  · rw [List.drop_of_length_le hstop, List.append_nil, List.append_nil]

theorem pageOutLoop_pieces (hc : 0 < p.chunkSize) {fuel offset : Nat} (hoffset : offset ≤ data.length)
    (hfuel : data.length ≤ offset + fuel) :
    ∃ pieces, [] ∉ pieces ∧ pieces.flatten = data.drop offset ∧
      pageOutLoop data baseOffset intent fromAint busSeq fuel p offset =
        some (pageOutPieces baseOffset intent fromAint busSeq p offset pieces) := by
  induction fuel generalizing p offset with
  | zero =>
    refine ⟨[], by simp, ?_, ?_⟩
    · rw [List.drop_of_length_le (by omega)]
      rfl
    · rw [UpipPager.pageOutLoop, if_neg (by omega)]
      rfl
  | succ fuel ih =>
    by_cases hmore : offset < data.length
    · have hend : offset < min (offset + p.chunkSize) data.length := by omega
      have hkeep := (evolves_step p (.pageOut ((data.take (min (offset + p.chunkSize)
        data.length)).drop offset) (baseOffset + UInt64.ofNat offset) intent fromAint busSeq)).chunkSize
      have hlength := length_piece data hend.le (Nat.min_le_right _ _)
      have hchunk : 0 < (p.pageOut _ _ intent fromAint busSeq).1.chunkSize := hkeep.symm ▸ hc
      obtain ⟨pieces, hne, hflat, hloop⟩ :=
        ih hchunk (Nat.min_le_right (offset + p.chunkSize) data.length) (by omega)
      refine ⟨(data.take (min (offset + p.chunkSize) data.length)).drop offset :: pieces, ?_, ?_, ?_⟩
      · rw [List.mem_cons, not_or]
        refine ⟨fun hnil => ?_, hne⟩
        rw [← hnil, List.length_nil] at hlength
        omega
      · rw [List.flatten_cons, hflat, piece_append_drop data hend.le]
      · rw [UpipPager.pageOutLoop, if_pos hmore, pageOutPieces, hlength]
        simp only [hloop, Option.map_some]
    · refine ⟨[], by simp, ?_, ?_⟩
      · rw [List.drop_of_length_le (by omega)]
        rfl
      · rw [UpipPager.pageOutLoop, if_neg hmore]
        rfl

/-- With chunks of no bytes the loop goes round and round. -/
theorem pageOutLoop_stuck (hc : p.chunkSize = 0) {offset : Nat} (hmore : offset < data.length)
    (fuel : Nat) : pageOutLoop data baseOffset intent fromAint busSeq fuel p offset = none := by
  induction fuel with
  | zero => rw [UpipPager.pageOutLoop, if_pos hmore]
  | succ fuel ih =>
    have hend : min (offset + p.chunkSize) data.length = offset := by omega
    have hempty : (data.take offset).drop offset = [] :=
      List.drop_of_length_le (List.length_take_le _ _)
    rw [UpipPager.pageOutLoop, if_pos hmore, hend]
    dsimp only
    rw [hempty]
    show Option.map _ (pageOutLoop data baseOffset intent fromAint busSeq fuel p offset) = none
    rw [ih]
    rfl

theorem coversOnce_iff : CoversOnce data baseOffset intent fromAint busSeq p ↔
    0 < p.chunkSize ∨ data = [] := by
  constructor
  · rintro ⟨fuel, pieces, -, -, hloop⟩
    by_contra hstuck
    obtain ⟨hc, hdata⟩ := not_or.mp hstuck
    rw [pageOutLoop_stuck data baseOffset intent fromAint busSeq (by omega)
      (List.length_pos_iff.mpr hdata) fuel] at hloop
    cases hloop
  · rintro (hc | rfl)
    · obtain ⟨pieces, hne, hflat, hloop⟩ := pageOutLoop_pieces data baseOffset intent fromAint busSeq
        hc (Nat.zero_le _) (Nat.zero_add _).ge
      exact ⟨data.length, pieces, hne, hflat, hloop⟩
    · exact ⟨0, [], by simp, rfl, rfl⟩

theorem pageOutBulk_isSome_iff :
    (p.pageOutBulk data baseOffset intent fromAint busSeq).isSome ↔ 0 < p.chunkSize ∨ data = [] := by
  unfold UpipPager.pageOutBulk
  rw [Option.isSome_map]
  constructor
  · intro hsome
    by_contra hstuck
    obtain ⟨hc, hdata⟩ := not_or.mp hstuck
    rw [pageOutLoop_stuck data baseOffset intent fromAint busSeq (by omega)
      (List.length_pos_iff.mpr hdata) data.length] at hsome
    cases hsome
  · rintro (hc | rfl)
    · obtain ⟨pieces, -, -, hloop⟩ := pageOutLoop_pieces data baseOffset intent fromAint busSeq
        hc (Nat.zero_le _) (Nat.zero_add _).ge
      rw [hloop]
      rfl
    · rfl

end Splitting

/-- In every reachable state of a pager with any chunk size, for any data: the loop of a bulk ends
after covering the data exactly once if and only if the chunk size is not 0 or there is no data; and
that is exactly when the bulk returns. -/
theorem bulk_covers_once_iff (chunkSize : Nat) (ops : List PagerOp) (data : List UInt8)
    (baseOffset : UInt64) (intent fromAint : String) (busSeq : UInt64) :
    let p := Machine.run pagerStep (.new chunkSize) ops
    (CoversOnce data baseOffset intent fromAint busSeq p ↔ 0 < chunkSize ∨ data = []) ∧
      ((p.pageOutBulk data baseOffset intent fromAint busSeq).isSome ↔
        0 < chunkSize ∨ data = []) := by
  intro p
  have hsize : p.chunkSize = chunkSize := by
    apply Machine.run_keeps (p := fun p : UpipPager => p.chunkSize = chunkSize) ?_ rfl
    intro p op hp
    exact (evolves_step p op).chunkSize.trans hp
  rw [coversOnce_iff, pageOutBulk_isSome_iff, hsize]
  exact ⟨Iff.rfl, Iff.rfl⟩

/-- One byte on a new pager with chunk size 0: no number of rounds is enough. -/
theorem bulk_without_chunk_size :
    (∀ fuel, pageOutLoop [1] 0 "code:execute" "sender.aint" 7 fuel (.new 0) 0 = none) ∧
      ¬ CoversOnce [1] 0 "code:execute" "sender.aint" 7 (.new 0) := by
  refine ⟨pageOutLoop_stuck [1] 0 "code:execute" "sender.aint" 7 rfl (by decide), ?_⟩
  rw [coversOnce_iff]
  decide

end Spaceshuttle.Upip
