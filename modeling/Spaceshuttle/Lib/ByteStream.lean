import Mathlib.Data.List.Basic
import Mathlib.Tactic.Ring

/-!
# Byte streams

The receiving end of an ordered, reliable byte stream, and readers over it. A reader is a
computation in `EStateM Stop Inbound`: it consumes bytes from the front of the stream, and
when it stops early the bytes consumed so far stay consumed. Running out of bytes means
`pending` while the peer may still write, and `eof` once it has closed its side.

The second half is what protocols put on such a stream: big-endian lengths, length-prefixed
records, and payloads read piece by piece through an incremental digest.
-/

namespace ByteStream

/-- Why a reader stopped without a value. -/
inductive Stop where
  /-- The stream is open and has no further byte: the reader waits. -/
  | pending
  /-- The stream ended before the requested number of bytes. -/
  | eof
  /-- The bytes were read and rejected. -/
  | invalid (message : String)
  deriving DecidableEq, Repr

/-- The unread bytes of one direction of a connection. -/
structure Inbound where
  bytes : List UInt8
  closed : Bool
  deriving DecidableEq, Repr

/-- A reader of the stream. -/
abbrev Read (α : Type) := EStateM Stop Inbound α

/-! ## Sequencing -/

section Sequencing

variable {ε σ α β : Type}

theorem bind_ok {x : EStateM ε σ α} {f : α → EStateM ε σ β} {s s' : σ} {a : α}
    (h : x.run s = .ok a s') : (x >>= f).run s = (f a).run s' := by
  rw [EStateM.run_bind, h]

theorem bind_error {x : EStateM ε σ α} {f : α → EStateM ε σ β} {s s' : σ} {e : ε}
    (h : x.run s = .error e s') : (x >>= f).run s = .error e s' := by
  rw [EStateM.run_bind, h]

/-- A sequence that returns has a first part that returns. -/
theorem of_bind_ok {x : EStateM ε σ α} {f : α → EStateM ε σ β} {s s' : σ} {b : β}
    (h : (x >>= f).run s = .ok b s') : ∃ a s₁, x.run s = .ok a s₁ ∧ (f a).run s₁ = .ok b s' := by
  cases hx : x.run s with
  | ok a s₁ => exact ⟨a, s₁, rfl, by rw [← h, bind_ok hx]⟩
  | error e s₁ =>
    rw [bind_error hx] at h
    cases h

/-- A sequence that fails does so in its first part or after it. -/
theorem of_bind_error {x : EStateM ε σ α} {f : α → EStateM ε σ β} {s s' : σ} {e : ε}
    (h : (x >>= f).run s = .error e s') :
    x.run s = .error e s' ∨ ∃ a s₁, x.run s = .ok a s₁ ∧ (f a).run s₁ = .error e s' := by
  cases hx : x.run s with
  | ok a s₁ => exact .inr ⟨a, s₁, rfl, by rw [← h, bind_ok hx]⟩
  | error e' s₁ =>
    rw [bind_error hx] at h
    cases h
    exact .inl rfl

/-- The state a computation leaves, with or without a value. -/
def finalState : EStateM.Result ε σ α → σ
  | .ok _ s => s
  | .error _ s => s

/-- A sequence ends where its first part stops, or where the second part ends after it. -/
theorem finalState_bind {p : σ → Prop} {x : EStateM ε σ α} {f : α → EStateM ε σ β} {s : σ}
    (hx : p (finalState (x.run s)))
    (hf : ∀ a s', x.run s = .ok a s' → p (finalState ((f a).run s'))) :
    p (finalState ((x >>= f).run s)) := by
  cases hrun : x.run s with
  | ok a s' =>
    rw [bind_ok hrun]
    exact hf a s' hrun
  | error e s' =>
    rw [hrun] at hx
    rw [bind_error hrun]
    exact hx

/-- A computation that moves the state along `R`, wherever it starts and however it ends. -/
def Along (R : σ → σ → Prop) (x : EStateM ε σ α) : Prop :=
  ∀ s, R s (finalState (x.run s))

theorem Along.bind {R : σ → σ → Prop} (htrans : ∀ {a b c}, R a b → R b c → R a c)
    {x : EStateM ε σ α} {f : α → EStateM ε σ β} (hx : Along R x) (hf : ∀ a, Along R (f a)) :
    Along R (x >>= f) := by
  intro s
  have hxs := hx s
  apply finalState_bind hxs
  intro a s' hrun
  rw [hrun] at hxs
  exact htrans hxs (hf a s')

end Sequencing

/-! ## Exact reads -/

/-- Take exactly `n` bytes from the front of the stream. -/
def readExact (n : Nat) : Read (List UInt8) := fun s =>
  if n ≤ s.bytes.length then .ok (s.bytes.take n) { s with bytes := s.bytes.drop n }
  else .error (if s.closed then .eof else .pending) s

theorem readExact_append (p rest : List UInt8) (closed : Bool) {n : Nat} (hn : p.length = n) :
    (readExact n).run ⟨p ++ rest, closed⟩ = .ok p ⟨rest, closed⟩ := by
  subst hn
  simp [readExact, EStateM.run]

theorem readExact_short {n : Nat} {s : Inbound} (h : s.bytes.length < n) :
    (readExact n).run s = .error (if s.closed then .eof else .pending) s := by
  exact if_neg (by omega)

theorem readExact_ok {n : Nat} {bytes : List UInt8} {s s' : Inbound}
    (h : (readExact n).run s = .ok bytes s') : s.bytes = bytes ++ s'.bytes := by
  simp only [readExact, EStateM.run] at h
  split at h
  · cases h
    exact (List.take_append_drop n s.bytes).symm
  · cases h

/-! ## Big-endian lengths and length-prefixed records -/

/-- The four bytes of `n` modulo `2 ^ 32`, most significant first. -/
def be32 (n : Nat) : List UInt8 :=
  [UInt8.ofNat (n / 2 ^ 24), UInt8.ofNat (n / 2 ^ 16), UInt8.ofNat (n / 2 ^ 8), UInt8.ofNat n]

/-- The number whose big-endian bytes are given. -/
def fromBe (bs : List UInt8) : Nat :=
  bs.foldl (fun acc b => acc * 256 + b.toNat) 0

@[simp] theorem length_be32 (n : Nat) : (be32 n).length = 4 := rfl

theorem fromBe_be32_mod (n : Nat) : fromBe (be32 n) = n % 2 ^ 32 := by
  simp only [fromBe, be32, List.foldl_cons, List.foldl_nil, UInt8.toNat_ofNat']
  omega

theorem fromBe_be32 {n : Nat} (h : n < 2 ^ 32) : fromBe (be32 n) = n := by
  rw [fromBe_be32_mod, Nat.mod_eq_of_lt h]

/-- A record with its length in front. -/
def prefixed (record : List UInt8) : List UInt8 :=
  be32 record.length ++ record

/-- Read a length-prefixed record of at most `limit` bytes. -/
def readPrefixed (limit : Nat) (tooLarge : Nat → String) : Read (List UInt8) := do
  let lenBuf ← readExact 4
  let len := fromBe lenBuf
  if len > limit then
    throw (.invalid (tooLarge len))
  readExact len

theorem readPrefixed_prefixed {limit : Nat} (tooLarge : Nat → String) {record : List UInt8}
    (rest : List UInt8) (closed : Bool) (hlimit : limit < 2 ^ 32) (h : record.length ≤ limit) :
    (readPrefixed limit tooLarge).run ⟨prefixed record ++ rest, closed⟩ = .ok record ⟨rest, closed⟩ := by
  have hlen : fromBe (be32 record.length) = record.length := fromBe_be32 (by omega)
  unfold readPrefixed prefixed
  rw [List.append_assoc, bind_ok (readExact_append _ _ closed (length_be32 _))]
  simp only [hlen]
  rw [if_neg (by omega)]
  exact readExact_append record rest closed rfl

theorem readPrefixed_empty (limit : Nat) (tooLarge : Nat → String) (closed : Bool) :
    (readPrefixed limit tooLarge).run ⟨[], closed⟩ =
      .error (if closed then .eof else .pending) ⟨[], closed⟩ := by
  unfold readPrefixed
  exact bind_error (readExact_short (by simp))

/-! ## Payloads in pieces -/

/-- Read `size` bytes in pieces of at most `chunk`, passing every piece to `absorb`. The loop
has read `offset` bytes so far; `fuel` bounds the number of further pieces. -/
def readPieces {τ : Type} (chunk size : Nat) (absorb : τ → List UInt8 → τ) :
    Nat → Nat → List UInt8 → τ → Read (List UInt8 × τ)
  | 0, _, data, acc => pure (data, acc)
  | fuel + 1, offset, data, acc =>
      if offset < size then do
        let stop := min (offset + chunk) size
        let piece ← readExact (stop - offset)
        readPieces chunk size absorb fuel stop (data ++ piece) (absorb acc piece)
      else
        pure (data, acc)

/-- With enough fuel the loop consumes exactly the missing bytes, whatever the piece size, and
has absorbed them as if they had come in one piece. -/
theorem readPieces_spec {τ : Type} {chunk size : Nat} {absorb : τ → List UInt8 → τ}
    (hchunk : 0 < chunk) (hnil : ∀ acc, absorb acc [] = acc)
    (happ : ∀ acc a b, absorb acc (a ++ b) = absorb (absorb acc a) b) :
    ∀ (fuel offset : Nat) (data payload rest : List UInt8) (acc : τ) (closed : Bool),
      offset + payload.length = size → payload.length ≤ fuel →
      (readPieces chunk size absorb (fuel + 1) offset data acc).run ⟨payload ++ rest, closed⟩ =
        .ok (data ++ payload, absorb acc payload) ⟨rest, closed⟩ := by
  intro fuel
  induction fuel with
  | zero =>
    intro offset data payload rest acc closed hsize hfuel
    obtain rfl : payload = [] := List.eq_nil_of_length_eq_zero (by omega)
    simp only [List.length_nil] at hsize
    simp [readPieces, ← hsize, hnil]
  | succ fuel ih =>
    intro offset data payload rest acc closed hsize hfuel
    rw [readPieces]
    by_cases hlt : offset < size
    · rw [if_pos hlt]
      obtain ⟨k, hk⟩ : ∃ k, min (offset + chunk) size = offset + k :=
        ⟨min (offset + chunk) size - offset, by omega⟩
      have hkpos : 0 < k := by omega
      have hkle : k ≤ payload.length := by omega
      have hread : (readExact (min (offset + chunk) size - offset)).run ⟨payload ++ rest, closed⟩ =
          .ok (payload.take k) ⟨payload.drop k ++ rest, closed⟩ := by
        have hsplit : payload ++ rest = payload.take k ++ (payload.drop k ++ rest) := by
          rw [← List.append_assoc, List.take_append_drop]
        rw [hsplit]
        exact readExact_append _ _ _ (by rw [List.length_take]; omega)
      rw [bind_ok hread, ih _ _ _ _ _ _ (by rw [List.length_drop]; omega)
        (by rw [List.length_drop]; omega)]
      rw [List.append_assoc, List.take_append_drop, ← happ, List.take_append_drop]
    · rw [if_neg hlt]
      obtain rfl : payload = [] := List.eq_nil_of_length_eq_zero (by omega)
      simp [hnil]

/-- Whatever the stream holds, a loop that returns has absorbed what it has read. -/
theorem readPieces_ok {τ : Type} {chunk size : Nat} {absorb : τ → List UInt8 → τ}
    (hnil : ∀ acc, absorb acc [] = acc)
    (happ : ∀ acc a b, absorb acc (a ++ b) = absorb (absorb acc a) b) {fuel offset : Nat}
    {data data' : List UInt8} {acc acc' : τ} {s s' : Inbound}
    (h : (readPieces chunk size absorb fuel offset data acc).run s = .ok (data', acc') s') :
    ∃ payload, data' = data ++ payload ∧ acc' = absorb acc payload ∧
      s.bytes = payload ++ s'.bytes := by
  induction fuel generalizing offset data acc s with
  | zero =>
    rw [readPieces, EStateM.run_pure] at h
    cases h
    exact ⟨[], by simp, (hnil _).symm, rfl⟩
  | succ fuel ih =>
    rw [readPieces] at h
    by_cases hlt : offset < size
    · rw [if_pos hlt] at h
      obtain ⟨piece, s₁, hpiece, h⟩ := of_bind_ok h
      obtain ⟨payload, rfl, rfl, hrest⟩ := ih h
      refine ⟨piece ++ payload, by rw [List.append_assoc], (happ acc piece payload).symm, ?_⟩
      rw [readExact_ok hpiece, hrest, List.append_assoc]
    · rw [if_neg hlt, EStateM.run_pure] at h
      cases h
      exact ⟨[], by simp, (hnil _).symm, rfl⟩

/-! ## Reading what has arrived so far -/

/-- A reader whose answer does not depend on what comes later: if it returns or rejects on the
first part of an open stream, it does the same on the whole stream, and leaves the rest of it. -/
structure Steady {α : Type} (x : Read α) : Prop where
  ok : ∀ {part : List UInt8} {a : α} {s : Inbound}, x.run ⟨part, false⟩ = .ok a s →
    s.closed = false ∧ ∀ later closed,
      x.run ⟨part ++ later, closed⟩ = .ok a ⟨s.bytes ++ later, closed⟩
  error : ∀ {part : List UInt8} {stop : Stop} {s : Inbound},
    x.run ⟨part, false⟩ = .error stop s → stop = .pending ∨
      ∀ later closed, ∃ s', x.run ⟨part ++ later, closed⟩ = .error stop s'

section Steady

variable {α β : Type}

/-- On the first part of a stream, a reader waits or has the answer it has on the whole stream. -/
theorem Steady.of_append {x : Read α} (hx : Steady x) {part later : List UInt8} {closed : Bool}
    {a : α} {s : Inbound} (h : x.run ⟨part ++ later, closed⟩ = .ok a s) :
    (∃ s', x.run ⟨part, false⟩ = .error .pending s') ∨
      ∃ rest, x.run ⟨part, false⟩ = .ok a ⟨rest, false⟩ ∧ s = ⟨rest ++ later, closed⟩ := by
  cases hpart : x.run ⟨part, false⟩ with
  | error stop s' =>
    rcases hx.error hpart with rfl | hstop
    · exact .inl ⟨s', rfl⟩
    · obtain ⟨s'', hs''⟩ := hstop later closed
      rw [h] at hs''
      cases hs''
  | ok b s' =>
    obtain ⟨hopen, hok⟩ := hx.ok hpart
    have hsame := (hok later closed).symm.trans h
    cases hsame
    refine .inr ⟨s'.bytes, ?_, rfl⟩
    rw [← hopen]

theorem Steady.bind {x : Read α} {f : α → Read β} (hx : Steady x) (hf : ∀ a, Steady (f a)) :
    Steady (x >>= f) where
  ok := by
    intro part b s h
    obtain ⟨a, s₁, hfirst, hsecond⟩ := of_bind_ok h
    obtain ⟨hopen, hok⟩ := hx.ok hfirst
    have hs₁ : s₁ = ⟨s₁.bytes, false⟩ := by rw [← hopen]
    rw [hs₁] at hsecond
    refine ⟨((hf a).ok hsecond).1, fun later closed => ?_⟩
    rw [bind_ok (hok later closed)]
    exact ((hf a).ok hsecond).2 later closed
  error := by
    intro part stop s h
    rcases of_bind_error h with hfirst | ⟨a, s₁, hfirst, hsecond⟩
    · refine (hx.error hfirst).imp_right fun hstop later closed => ?_
      obtain ⟨s', hs'⟩ := hstop later closed
      exact ⟨s', bind_error hs'⟩
    · obtain ⟨hopen, hok⟩ := hx.ok hfirst
      have hs₁ : s₁ = ⟨s₁.bytes, false⟩ := by rw [← hopen]
      rw [hs₁] at hsecond
      refine ((hf a).error hsecond).imp_right fun hstop later closed => ?_
      rw [bind_ok (hok later closed)]
      exact hstop later closed

theorem steady_pure (a : α) : Steady (pure a : Read α) where
  ok := by
    intro part b s h
    cases h
    exact ⟨rfl, fun _ _ => rfl⟩
  error := by
    intro part stop s h
    cases h

theorem steady_throw (e : Stop) : Steady (throw e : Read α) where
  ok := by
    intro part b s h
    cases h
  error := by
    intro part stop s h
    cases h
    exact .inr fun _ _ => ⟨_, rfl⟩

theorem steady_readExact (n : Nat) : Steady (readExact n) where
  ok := by
    intro part bytes s h
    simp only [readExact, EStateM.run] at h ⊢
    split at h
    · next hle =>
      cases h
      refine ⟨rfl, fun later closed => ?_⟩
      rw [if_pos (by rw [List.length_append]; omega), List.take_append_of_le_length hle,
        List.drop_append_of_le_length hle]
    · cases h
  error := by
    intro part stop s h
    simp only [readExact, EStateM.run] at h
    split at h
    · cases h
    · cases h
      exact .inl rfl

theorem steady_readPrefixed (limit : Nat) (tooLarge : Nat → String) :
    Steady (readPrefixed limit tooLarge) := by
  refine .bind (steady_readExact 4) (fun lenBuf => ?_)
  by_cases hlarge : fromBe lenBuf > limit
  · rw [if_pos hlarge]
    exact .bind (steady_throw _) (fun _ => steady_readExact _)
  · rw [if_neg hlarge]
    exact steady_readExact _

theorem steady_readPieces {τ : Type} (chunk size : Nat) (absorb : τ → List UInt8 → τ)
    (fuel offset : Nat) (data : List UInt8) (acc : τ) :
    Steady (readPieces chunk size absorb fuel offset data acc) := by
  induction fuel generalizing offset data acc with
  | zero => exact steady_pure _
  | succ fuel ih =>
    rw [readPieces]
    split
    · exact .bind (steady_readExact _) (fun piece => ih _ _ _)
    · exact steady_pure _

end Steady

/-! ## Incremental digests -/

/-- A hash function computed incrementally: feeding two pieces one after the other is feeding
their concatenation. -/
structure Digest where
  State : Type
  new : State
  update : State → List UInt8 → State
  finalize : State → String
  update_nil : ∀ s, update s [] = s
  update_append : ∀ s a b, update s (a ++ b) = update (update s a) b

/-- The digest of a whole message. -/
def Digest.hex (d : Digest) (data : List UInt8) : String :=
  d.finalize (d.update d.new data)

/-- The digest given by a function on whole messages, collecting the message as its state. -/
def Digest.ofFun (f : List UInt8 → String) : Digest where
  State := List UInt8
  new := []
  update := fun s bs => s ++ bs
  finalize := f
  update_nil := by simp
  update_append := by simp

end ByteStream
