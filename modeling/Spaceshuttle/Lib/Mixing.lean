import Mathlib.Logic.Function.Basic
import Mathlib.Data.List.Basic

/-!
# Hashes that mix in one letter at a time

A hash that starts from a word and mixes in the letters of a text one after the other. If the mixing
loses neither the word nor the letter, then what comes after a difference cannot make up for it, and a
text with one letter altered has another hash. FNV-1a mixes so, because its prime is odd.
-/

namespace Mixing

variable {σ β : Type}

/-- Neither the word nor the letter is lost. -/
structure Faithful (mix : σ → β → σ) : Prop where
  word : ∀ b, Function.Injective fun s => mix s b
  letter : ∀ s, Function.Injective (mix s)

/-- Two texts that differ in one letter. -/
def OneAltered (text altered : List β) : Prop :=
  ∃ pre a b post, a ≠ b ∧ text = pre ++ a :: post ∧ altered = pre ++ b :: post

namespace Faithful

variable {mix : σ → β → σ}

/-- Two words stay apart under one text. -/
theorem foldl_inj (h : Faithful mix) {s s' : σ} (text : List β) :
    text.foldl mix s = text.foldl mix s' ↔ s = s' := by
  induction text generalizing s s' with
  | nil => exact Iff.rfl
  | cons b text ih => exact ih.trans (h.word b).eq_iff

/-- One altered letter alters the hash. -/
theorem foldl_ne (h : Faithful mix) {text altered : List β} (halter : OneAltered text altered)
    (s : σ) : text.foldl mix s ≠ altered.foldl mix s := by
  obtain ⟨pre, a, b, post, hne, rfl, rfl⟩ := halter
  rw [List.foldl_append, List.foldl_append, List.foldl_cons, List.foldl_cons]
  intro heq
  exact hne (h.letter _ ((h.foldl_inj post).mp heq))

end Faithful

/-! ## FNV-1a -/

/-- One round of FNV-1a. -/
def xorMul (prime : UInt64) (h : UInt64) (byte : UInt8) : UInt64 :=
  (h ^^^ byte.toUInt64) * prime

theorem mul_right_inj_of_inverse {prime inverse : UInt64} (h : prime * inverse = 1) {a b : UInt64} :
    a * prime = b * prime ↔ a = b := by
  refine ⟨fun heq => ?_, congrArg (· * prime)⟩
  have hback := congrArg (· * inverse) heq
  simpa only [UInt64.mul_assoc, h, UInt64.mul_one] using hback

theorem faithful_xorMul {prime inverse : UInt64} (h : prime * inverse = 1) :
    Faithful (xorMul prime) where
  word := by
    intro byte a b heq
    have hxor := (mul_right_inj_of_inverse h).mp heq
    have hback := congrArg (· ^^^ byte.toUInt64) hxor
    simpa only [UInt64.xor_assoc, UInt64.xor_self, UInt64.xor_zero] using hback
  letter := by
    intro word a b heq
    have hxor := (mul_right_inj_of_inverse h).mp heq
    have hback := congrArg (word ^^^ ·) hxor
    simp only [← UInt64.xor_assoc, UInt64.xor_self, UInt64.zero_xor] at hback
    have hnat := congrArg UInt64.toNat hback
    simpa only [UInt8.toNat_toUInt64, UInt8.toNat_inj] using hnat

end Mixing
