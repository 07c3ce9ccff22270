import Mathlib.Data.Nat.Bitwise

/-!
# Word arithmetic in two builds

A debug build stops at an operation whose result leaves the word; a release build wraps around. A
computation is written once over the operations of a build. If the debug build completes it, the release
build has the same result.
-/

namespace WordArithmetic

/-- The operations of a build. -/
structure Arithmetic (m : Type → Type) where
  add : UInt64 → UInt64 → m UInt64
  sub : UInt64 → UInt64 → m UInt64

/-- The operations of a release build. -/
def wrapping : Arithmetic Id where
  add a b := a + b
  sub a b := a - b

/-- The operations of a debug build. -/
def checked : Arithmetic Option where
  add a b := if a.toNat + b.toNat < 2 ^ 64 then some (a + b) else none
  sub a b := if b ≤ a then some (a - b) else none

variable {a b c : UInt64}

theorem checked_add_eq_some (h : a.toNat + b.toNat < 2 ^ 64) : checked.add a b = some (a + b) :=
  if_pos h

theorem checked_add_eq_none (h : 2 ^ 64 ≤ a.toNat + b.toNat) : checked.add a b = none :=
  if_neg (Nat.not_lt.mpr h)

theorem checked_sub_eq_some (h : b ≤ a) : checked.sub a b = some (a - b) := if_pos h

theorem toNat_add (h : a.toNat + b.toNat < 2 ^ 64) : (a + b).toNat = a.toNat + b.toNat := by
  rw [UInt64.toNat_add, Nat.mod_eq_of_lt h]

/-! ## The two builds agree -/

/-- The wrapped computation has the result of the checked one, if that completes. -/
def Agree {α : Type} (x : Option α) (y : Id α) : Prop := ∀ v, x = some v → y = v

section Agree

variable {α β : Type}

theorem agree_pure (v : α) : Agree (pure v) (pure v) := by
  rintro w ⟨⟩
  rfl

theorem Agree.bind {x : Option α} {y : Id α} {f : α → Option β} {g : α → Id β} (h : Agree x y)
    (hnext : ∀ v, Agree (f v) (g v)) : Agree (x >>= f) (y >>= g) := by
  intro w hw
  obtain ⟨v, hv, hfv⟩ := Option.bind_eq_some_iff.mp hw
  obtain rfl := h v hv
  exact hnext y w hfv

theorem Agree.ite {p : Prop} [Decidable p] {x x' : Option α} {y y' : Id α} (h : Agree x y)
    (h' : Agree x' y') : Agree (if p then x else x') (if p then y else y') := by
  by_cases hp : p
  · rwa [if_pos hp, if_pos hp]
  · rwa [if_neg hp, if_neg hp]

theorem agree_add (a b : UInt64) : Agree (checked.add a b) (wrapping.add a b) := by
  intro v hv
  unfold checked at hv
  dsimp only at hv
  split at hv
  · exact Option.some.inj hv
  · cases hv

theorem agree_sub (a b : UInt64) : Agree (checked.sub a b) (wrapping.sub a b) := by
  intro v hv
  unfold checked at hv
  dsimp only at hv
  split at hv
  · exact Option.some.inj hv
  · cases hv

end Agree

/-! ## Alignment -/

/-- The least multiple of `page` from `n` on. -/
def alignUp (page n : Nat) : Nat := (n + page - 1) / page * page

theorem le_alignUp {page : Nat} (hpage : 0 < page) (n : Nat) : n ≤ alignUp page n := by
  have hdiv := Nat.div_add_mod (n + page - 1) page
  have hmod := Nat.mod_lt (n + page - 1) hpage
  rw [alignUp, Nat.mul_comm]
  omega

theorem dvd_alignUp (page n : Nat) : page ∣ alignUp page n := Nat.dvd_mul_left page _

/-- Clearing the low bits rounds down to a multiple of their power of two. -/
theorem and_clear_low {x k : Nat} (hx : x < 2 ^ 64) (hk : k ≤ 64) :
    x &&& (2 ^ 64 - 1 - (2 ^ k - 1)) = x / 2 ^ k * 2 ^ k := by
  have hlow : 2 ^ k - 1 < 2 ^ 64 := by
    have hpow : 2 ^ k ≤ 2 ^ 64 := Nat.pow_le_pow_right (by decide) hk
    omega
  have hmask : 2 ^ 64 - 1 - (2 ^ k - 1) = 2 ^ 64 - (2 ^ k - 1 + 1) := by omega
  apply Nat.eq_of_testBit_eq
  intro i
  rw [Nat.testBit_and, hmask, Nat.testBit_two_pow_sub_succ hlow, Nat.testBit_two_pow_sub_one,
    Nat.testBit_mul_two_pow, Nat.testBit_div_two_pow]
  by_cases hki : k ≤ i
  · rw [Nat.sub_add_cancel hki]
    by_cases hi : i < 64
    · simp [hi, hki]
    · have hhigh : x.testBit i = false :=
        Nat.testBit_lt_two_pow (hx.trans_le (Nat.pow_le_pow_right (by decide) (Nat.not_lt.mp hi)))
      simp [hhigh]
  · simp [hki, Nat.not_le.mp hki]

theorem toNat_and_not_low {x page : UInt64} {k : Nat} (hpage : page.toNat = 2 ^ k) :
    (x &&& ~~~(page - 1)).toNat = x.toNat / page.toNat * page.toNat := by
  have hpos : 0 < page.toNat := hpage ▸ Nat.two_pow_pos k
  have hk : k ≤ 64 := by
    have hlt : 2 ^ k < 2 ^ 64 := hpage ▸ page.toNat_lt
    exact ((Nat.pow_lt_pow_iff_right (by decide)).mp hlt).le
  have hone : (1 : UInt64) ≤ page := UInt64.le_iff_toNat_le.mpr hpos
  rw [UInt64.toNat_and, UInt64.toNat_not, UInt64.toNat_sub_of_le page 1 hone, hpage]
  exact and_clear_low x.toNat_lt hk

end WordArithmetic
