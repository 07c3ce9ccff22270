import Mathlib.Algebra.Ring.Nat

/-!
# Short reads

A source that is read in calls, each of which may return less than it was asked for: at least one
element while there are any, and never more than were requested. How much a call returns is the
source's choice.
-/

namespace ShortReads

/-- How much a call returns, by the number of the call, what is requested and what is left. -/
structure Source where
  count : (call requested left : Nat) → Nat
  count_le : ∀ call requested left, count call requested left ≤ min requested left
  count_pos : ∀ call requested left, 0 < requested → 0 < left → 0 < count call requested left

/-- A source that returns as much as it can. -/
def Source.full : Source where
  count := fun _ requested left => min requested left
  count_le := fun _ _ _ => Nat.le_refl _
  count_pos := fun _ _ _ hrequested hleft => Nat.lt_min.mpr ⟨hrequested, hleft⟩

/-- An open source: what is left to read, and the number of calls so far. -/
structure Handle (α : Type) where
  left : List α
  calls : Nat
  deriving DecidableEq, Repr

/-- A source before the first call. -/
def Handle.start {α : Type} (content : List α) : Handle α := ⟨content, 0⟩

section Reads

variable {α : Type} (S : Source) (requested : Nat)

/-- One call. -/
def read (h : Handle α) : List α × Handle α :=
  let n := S.count h.calls requested h.left.length
  (h.left.take n, ⟨h.left.drop n, h.calls + 1⟩)

/-- What each of `k` calls returns. -/
def chunks : Nat → Handle α → List (List α)
  | 0, _ => []
  | k + 1, h => (read S requested h).1 :: chunks k (read S requested h).2

/-- The source after `k` calls. -/
def after : Nat → Handle α → Handle α
  | 0, h => h
  | k + 1, h => after k (read S requested h).2

theorem read_append (h : Handle α) : (read S requested h).1 ++ (read S requested h).2.left = h.left :=
  List.take_append_drop _ _

theorem length_read_le (h : Handle α) : (read S requested h).1.length ≤ requested := by
  have hcount := S.count_le h.calls requested h.left.length
  rw [read, List.length_take]
  omega

@[simp] theorem length_chunks (k : Nat) (h : Handle α) : (chunks S requested k h).length = k := by
  induction k generalizing h with
  | zero => rfl
  | succ k ih => rw [chunks, List.length_cons, ih]

variable {S requested} in
theorem length_le_of_mem_chunks {k : Nat} {h : Handle α} {chunk : List α}
    (hchunk : chunk ∈ chunks S requested k h) : chunk.length ≤ requested := by
  induction k generalizing h with
  | zero => cases hchunk
  | succ k ih =>
    rcases List.mem_cons.mp hchunk with rfl | hrest
    · exact length_read_le S requested h
    · exact ih hrest

/-- The calls return what is in front, in order. -/
theorem flatten_chunks_append (k : Nat) (h : Handle α) :
    (chunks S requested k h).flatten ++ (after S requested k h).left = h.left := by
  induction k generalizing h with
  | zero => rfl
  | succ k ih => rw [chunks, after, List.flatten_cons, List.append_assoc, ih, read_append]

end Reads

/-! ## How far the calls fall short -/

section Shortfall

variable {α : Type}

/-- What the chunks are short of `requested` elements each, all together. -/
def shortfall (requested : Nat) (chunks : List (List α)) : Nat :=
  (chunks.map (fun chunk => requested - chunk.length)).sum

theorem length_flatten_add_shortfall {requested : Nat} {chunks : List (List α)}
    (h : ∀ chunk ∈ chunks, chunk.length ≤ requested) :
    chunks.flatten.length + shortfall requested chunks = chunks.length * requested := by
  induction chunks with
  | nil => simp [shortfall]
  | cons chunk chunks ih =>
    have hchunk : chunk.length ≤ requested := h chunk List.mem_cons_self
    have hrest := ih fun c hc => h c (List.mem_cons_of_mem chunk hc)
    unfold shortfall at hrest ⊢
    rw [List.flatten_cons, List.length_append, List.map_cons, List.sum_cons, List.length_cons,
      Nat.succ_mul]
    omega

variable {S : Source} {requested : Nat}

/-- The calls return everything exactly if they fall short by no more than there is room for. -/
theorem flatten_chunks_eq_iff (k : Nat) (h : Handle α) :
    (chunks S requested k h).flatten = h.left ↔
      h.left.length + shortfall requested (chunks S requested k h) ≤ k * requested := by
  have hsplit := flatten_chunks_append S requested k h
  have htotal : (chunks S requested k h).flatten.length + shortfall requested (chunks S requested k h) =
      k * requested := by
    rw [length_flatten_add_shortfall fun chunk => length_le_of_mem_chunks, length_chunks]
  have hlength := congrArg List.length hsplit
  rw [List.length_append] at hlength
  constructor
  · intro heq
    rw [heq] at htotal
    omega
  · intro hroom
    have hnil : (after S requested k h).left = [] := List.length_eq_zero_iff.mp (by omega)
    rw [hnil, List.append_nil] at hsplit
    exact hsplit

/-- A source that returns as much as it can is read completely when it is not longer than the calls
ask for. -/
theorem flatten_chunks_full {k : Nat} {h : Handle α} (hlength : h.left.length ≤ k * requested) :
    (chunks .full requested k h).flatten = h.left := by
  induction k generalizing h with
  | zero =>
    rw [Nat.zero_mul, Nat.le_zero, List.length_eq_zero_iff] at hlength
    exact hlength.symm
  | succ k ih =>
    rw [Nat.succ_mul] at hlength
    have hleft : (read .full requested h).2.left.length ≤ k * requested := by
      simp only [read, Source.full, List.length_drop]
      omega
    rw [chunks, List.flatten_cons, ih hleft, read_append]

end Shortfall

end ShortReads
