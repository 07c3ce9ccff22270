import Spaceshuttle.Lib.ByteStream

/-!
# Filling a buffer from a stream

A buffer of known size is allocated first and then filled in place, slice after slice, while every
slice that has arrived is passed on. The loop is total, and what it does to the stream and returns
is what reading and appending piece after piece does.
-/

namespace ByteStream

/-! ## Slices of a buffer -/

section Slices

variable {α : Type}

/-- The elements of the buffer from `start` up to `stop`. -/
def slice (buffer : List α) (start stop : Nat) : List α := (buffer.take stop).drop start

/-- The buffer with `piece` in the place of as many elements from `start` on. -/
def writeAt (buffer : List α) (start : Nat) (piece : List α) : List α :=
  buffer.take start ++ piece ++ buffer.drop (start + piece.length)

variable {front old piece back : List α}

theorem writeAt_append (h : old.length = piece.length) :
    writeAt (front ++ (old ++ back)) front.length piece = front ++ piece ++ back := by
  have hfront : (front ++ (old ++ back)).take front.length = front := List.take_left
  have hback : (front ++ (old ++ back)).drop (front.length + piece.length) = back := by
    rw [← List.append_assoc]
    exact List.drop_left' (by rw [List.length_append, h])
  unfold writeAt
  rw [hfront, hback]

theorem slice_append :
    slice (front ++ piece ++ back) front.length (front.length + piece.length) = piece := by
  have htake : (front ++ piece ++ back).take (front.length + piece.length) = front ++ piece :=
    List.take_left' List.length_append
  unfold slice
  rw [htake]
  exact List.drop_left

end Slices

/-! ## The loop -/

section Fill

variable {ε τ : Type}

/-- Fill the buffer from `offset` up to `size` in slices of at most `chunk` bytes, passing every
slice to `absorb` once it has arrived. A read that stops is reported as `wrap` words it. -/
def fillPieces (wrap : Stop → ε) {chunk : Nat} (hchunk : 0 < chunk) (size : Nat)
    (absorb : τ → List UInt8 → τ) (offset : Nat) (buffer : List UInt8) (acc : τ) :
    EStateM ε Inbound (List UInt8 × τ) :=
  if offset < size then do
    let stop := min (offset + chunk) size
    let piece ← (readExact (stop - offset)).adaptExcept wrap
    let buffer := writeAt buffer offset piece
    fillPieces wrap hchunk size absorb stop buffer (absorb acc (slice buffer offset stop))
  else
    pure (buffer, acc)
termination_by size - offset

theorem adaptExcept_ok {α ε' : Type} {f : ε → ε'} {x : EStateM ε Inbound α} {s s' : Inbound}
    {a : α} (h : x.run s = .ok a s') : (x.adaptExcept f).run s = .ok a s' := by
  simp only [EStateM.run] at h
  simp only [EStateM.run, EStateM.adaptExcept, h]

theorem adaptExcept_error {α ε' : Type} {f : ε → ε'} {x : EStateM ε Inbound α} {s s' : Inbound}
    {e : ε} (h : x.run s = .error e s') : (x.adaptExcept f).run s = .error (f e) s' := by
  simp only [EStateM.run] at h
  simp only [EStateM.run, EStateM.adaptExcept, h]

/-- A sequence that agrees part by part with one whose errors are reworded agrees with it whole. -/
theorem bind_run_adaptExcept {α β ε' : Type} {f : ε → ε'} {x : EStateM ε' Inbound α}
    {y : EStateM ε Inbound α} {k : α → EStateM ε' Inbound β} {k' : α → EStateM ε Inbound β}
    {s : Inbound} (hfirst : x.run s = (y.adaptExcept f).run s)
    (hrest : ∀ a s', y.run s = .ok a s' → (k a).run s' = ((k' a).adaptExcept f).run s') :
    (x >>= k).run s = ((y >>= k').adaptExcept f).run s := by
  cases hread : y.run s with
  | ok a s' =>
    have hbind : (y >>= k').run s = (k' a).run s' := bind_ok hread
    rw [adaptExcept_ok hread] at hfirst
    rw [bind_ok hfirst, hrest a s' hread]
    simp only [EStateM.run] at hbind
    simp only [EStateM.run, EStateM.adaptExcept, hbind]
  | error e s' =>
    rw [adaptExcept_error hread] at hfirst
    rw [bind_error hfirst, adaptExcept_error (bind_error hread)]

/-- An exact read returns as many bytes as were asked for. -/
theorem length_of_readExact_ok {n : Nat} {bytes : List UInt8} {s s' : Inbound}
    (h : (readExact n).run s = .ok bytes s') : bytes.length = n := by
  simp only [readExact, EStateM.run] at h
  split at h
  · next hle =>
    cases h
    exact List.length_take_of_le hle
  · cases h

variable (wrap : Stop → ε) {chunk : Nat} (hchunk : 0 < chunk) {size : Nat}
  (absorb : τ → List UInt8 → τ)

/-- Filling in place is reading piece by piece: the buffer holds what has been read so far and then
as many bytes as are missing. -/
theorem fillPieces_run {fuel : Nat} (data tail : List UInt8) (acc : τ) (s : Inbound)
    (hsize : data.length + tail.length = size) (hfuel : tail.length ≤ fuel) :
    (fillPieces wrap hchunk size absorb data.length (data ++ tail) acc).run s =
      ((readPieces chunk size absorb (fuel + 1) data.length data acc).adaptExcept wrap).run s := by
  induction fuel generalizing data tail acc s with
  | zero =>
    obtain rfl : tail = [] := List.eq_nil_of_length_eq_zero (by omega)
    rw [fillPieces, readPieces, if_neg (by simp_all), if_neg (by simp_all), List.append_nil]
    rfl
  | succ fuel ih =>
    rw [fillPieces, readPieces]
    by_cases hlt : data.length < size
    · rw [if_pos hlt, if_pos hlt]
      refine bind_run_adaptExcept rfl fun piece s' hread => ?_
      have hpiece := length_of_readExact_ok hread
      have hstop : min (data.length + chunk) size = (data ++ piece).length := by
        rw [List.length_append]
        omega
      have htail : tail = tail.take piece.length ++ tail.drop piece.length :=
        (List.take_append_drop _ _).symm
      have hwrite : writeAt (data ++ tail) data.length piece =
          data ++ piece ++ tail.drop piece.length := by
        conv_lhs => rw [htail]
        exact writeAt_append (List.length_take_of_le (by omega))
      have hslice : slice (data ++ piece ++ tail.drop piece.length) data.length
          (data ++ piece).length = piece := by
        rw [List.length_append]
        exact slice_append
      simp only [hwrite]
      rw [hstop, hslice]
      exact ih _ _ _ _ (by rw [List.length_append, List.length_drop]; omega)
        (by rw [List.length_drop]; omega)
    · obtain rfl : tail = [] := List.eq_nil_of_length_eq_zero (by omega)
      rw [if_neg hlt, if_neg hlt, List.append_nil]
      rfl

/-- Over a fresh buffer. -/
theorem fillPieces_fresh (acc : τ) (s : Inbound) :
    (fillPieces wrap hchunk size absorb 0 (List.replicate size 0) acc).run s =
      ((readPieces chunk size absorb (size + 1) 0 [] acc).adaptExcept wrap).run s :=
  fillPieces_run wrap hchunk absorb [] (List.replicate size 0) acc s
    (by rw [List.length_nil, List.length_replicate, Nat.zero_add])
    (le_of_eq List.length_replicate)

end Fill

/-! ## Exactness -/

/-- The reader takes exactly the next `n` bytes off a stream that holds them, and returns `result` of
them. On a stream that holds fewer it returns nothing: it fails if the stream has ended, and waits
otherwise. -/
structure ReadsExactly {ε α : Type} (wrap : Stop → ε) (x : EStateM ε Inbound α) (n : Nat)
    (result : List UInt8 → α) : Prop where
  full : ∀ bytes closed, n ≤ bytes.length →
    x.run ⟨bytes, closed⟩ = .ok (result (bytes.take n)) ⟨bytes.drop n, closed⟩
  short : ∀ bytes closed, bytes.length < n →
    ∃ s', x.run ⟨bytes, closed⟩ = .error (wrap (if closed then .eof else .pending)) s'

section Exactness

variable {ε τ : Type} {wrap : Stop → ε}

theorem ReadsExactly.congr {α : Type} {x : EStateM ε Inbound α} {n : Nat}
    {result result' : List UInt8 → α} (h : ∀ bytes, bytes.length = n → result bytes = result' bytes)
    (hx : ReadsExactly wrap x n result) : ReadsExactly wrap x n result' where
  full := by
    intro bytes closed hle
    rw [hx.full bytes closed hle, h _ (List.length_take_of_le hle)]
  short := hx.short

/-- What is computed from the bytes afterwards reads nothing. -/
theorem ReadsExactly.map {α β : Type} {x : EStateM ε Inbound α} {n : Nat}
    {result : List UInt8 → α} (hx : ReadsExactly wrap x n result) (f : α → β) :
    ReadsExactly wrap (do let a ← x; pure (f a)) n (fun bytes => f (result bytes)) where
  full := by
    intro bytes closed h
    rw [bind_ok (hx.full bytes closed h)]
    rfl
  short := by
    intro bytes closed h
    obtain ⟨s', hs'⟩ := hx.short bytes closed h
    exact ⟨s', bind_error hs'⟩

/-- A stream that holds too little stops the loop. -/
theorem readPieces_short {chunk size : Nat} {absorb : τ → List UInt8 → τ} (hchunk : 0 < chunk)
    {fuel offset : Nat} {data : List UInt8} {acc : τ} {s : Inbound}
    (h : s.bytes.length < size - offset) (hfuel : size - offset ≤ fuel) :
    ∃ s', (readPieces chunk size absorb fuel offset data acc).run s =
      .error (if s.closed then .eof else .pending) s' := by
  induction fuel generalizing offset data acc s with
  | zero => omega
  | succ fuel ih =>
    rw [readPieces, if_pos (by omega)]
    cases hread : (readExact (min (offset + chunk) size - offset)).run s with
    | error stop s' =>
      rw [bind_error hread]
      by_cases hle : min (offset + chunk) size - offset ≤ s.bytes.length
      · simp [readExact, EStateM.run, hle] at hread
      · rw [readExact_short (by omega)] at hread
        cases hread
        exact ⟨s, rfl⟩
    | ok piece s' =>
      have hbytes := congrArg List.length (readExact_ok hread)
      have hpiece := length_of_readExact_ok hread
      have hclosed : s'.closed = s.closed := by
        simp only [readExact, EStateM.run] at hread
        split at hread <;> cases hread
        rfl
      rw [List.length_append] at hbytes
      rw [bind_ok hread, ← hclosed]
      exact ih (by omega) (by omega)

/-- The loop over a fresh buffer reads exactly its size, and has absorbed what it has read. -/
theorem readsExactly_fillPieces {chunk : Nat} (hchunk : 0 < chunk) (size : Nat)
    {absorb : τ → List UInt8 → τ} (hnil : ∀ acc, absorb acc [] = acc)
    (happ : ∀ acc a b, absorb acc (a ++ b) = absorb (absorb acc a) b) (acc : τ) :
    ReadsExactly wrap (fillPieces wrap hchunk size absorb 0 (List.replicate size 0) acc) size
      (fun bytes => (bytes, absorb acc bytes)) where
  full := by
    intro bytes closed h
    have hlength : (bytes.take size).length = size := List.length_take_of_le h
    have hspec := readPieces_spec hchunk hnil happ size 0 [] (bytes.take size) (bytes.drop size) acc
      closed (by rw [hlength, Nat.zero_add]) (le_of_eq hlength)
    rw [List.take_append_drop] at hspec
    rw [fillPieces_fresh, adaptExcept_ok hspec]
    rfl
  short := by
    intro bytes closed h
    have hshort : ∃ s', (readPieces chunk size absorb (size + 1) 0 [] acc).run ⟨bytes, closed⟩ =
        .error (if closed then .eof else .pending) s' :=
      readPieces_short hchunk h (Nat.le_succ size)
    obtain ⟨s', hs'⟩ := hshort
    exact ⟨s', (fillPieces_fresh wrap hchunk absorb acc _).trans (adaptExcept_error hs')⟩

end Exactness

end ByteStream
