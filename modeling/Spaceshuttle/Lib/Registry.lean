import Mathlib.Data.List.Forall2

/-!
# Lists with keys

The entries of a list are found by a key, and a change by key changes the first entry that has it.
When the keys are distinct it is a change of every entry that has it. Entries that are put behind
the others leave these in their places.
-/

namespace Registry

variable {α β κ : Type} [DecidableEq κ] (key : α → κ)

/-- The first entry of a key. -/
def lookup (k : κ) (l : List α) : Option α := l.find? (fun a => decide (key a = k))

/-- Change the first entry of a key. -/
def update (k : κ) (f : α → α) : List α → List α
  | [] => []
  | a :: l => if key a = k then f a :: l else a :: update k f l

variable {key} {k : κ} {f : α → α} {l : List α} {a : α}

theorem lookup_some (h : lookup key k l = some a) : a ∈ l ∧ key a = k := by
  unfold lookup at h
  exact ⟨List.mem_of_find?_eq_some h, by simpa using List.find?_some h⟩

theorem lookup_none_iff : lookup key k l = none ↔ ∀ a ∈ l, key a ≠ k := by
  simp [lookup, List.find?_eq_none]

theorem lookup_of_mem (hl : (l.map key).Nodup) (ha : a ∈ l) : lookup key (key a) l = some a := by
  induction l with
  | nil => cases ha
  | cons b l ih =>
    rw [List.map_cons, List.nodup_cons] at hl
    rcases List.mem_cons.mp ha with rfl | ha
    · simp [lookup]
    · have hne : key b ≠ key a := fun heq => hl.1 (heq ▸ List.mem_map_of_mem ha)
      have hrest := ih hl.2 ha
      simpa [lookup, hne] using hrest

theorem update_eq_map (hl : (l.map key).Nodup) :
    update key k f l = l.map (fun a => if key a = k then f a else a) := by
  induction l with
  | nil => rfl
  | cons b l ih =>
    rw [List.map_cons, List.nodup_cons] at hl
    rw [update, List.map_cons]
    split
    · next hb =>
      have hrest : ∀ a ∈ l, (if key a = k then f a else a) = a := by
        intro a ha
        have hne : key a ≠ k := by
          intro heq
          refine hl.1 ?_
          rw [hb, ← heq]
          exact List.mem_map_of_mem ha
        rw [if_neg hne]
      rw [List.map_congr_left hrest, List.map_id']
    · rw [ih hl.2]

/-- A relation between the entries before and after. -/
theorem forall₂_update {R : α → α → Prop} (hrefl : ∀ a, R a a)
    (hf : ∀ a ∈ l, key a = k → R a (f a)) : List.Forall₂ R l (update key k f l) := by
  induction l with
  | nil => exact .nil
  | cons b l ih =>
    rw [List.forall_mem_cons] at hf
    rw [update]
    split
    · next hb => exact .cons (hf.1 hb) (List.forall₂_same.mpr fun a _ => hrefl a)
    · exact .cons (hrefl b) (ih hf.2)

/-- It is enough to know the entry that is found. -/
theorem forall₂_update_lookup {R : α → α → Prop} (hrefl : ∀ a, R a a)
    (h : lookup key k l = some a) (ha : R a (f a)) : List.Forall₂ R l (update key k f l) := by
  induction l with
  | nil => exact .nil
  | cons b l ih =>
    unfold lookup at h ih
    rw [update]
    cases hb : decide (key b = k) with
    | true =>
      rw [List.find?_cons, hb] at h
      obtain rfl := Option.some.inj h
      rw [if_pos (of_decide_eq_true hb)]
      exact .cons ha (List.forall₂_same.mpr fun c _ => hrefl c)
    | false =>
      rw [List.find?_cons, hb] at h
      rw [if_neg (of_decide_eq_false hb)]
      exact .cons (hrefl b) (ih h)

/-- The same for a change by position. -/
theorem forall₂_modify {R : α → α → Prop} (hrefl : ∀ a, R a a) (hf : ∀ a, R a (f a)) (i : Nat)
    (l : List α) : List.Forall₂ R l (l.modify i f) := by
  induction l generalizing i with
  | nil =>
    rw [List.modify_nil]
    exact .nil
  | cons a l ih =>
    cases i with
    | zero =>
      rw [List.modify_zero_cons]
      exact .cons (hf a) (List.forall₂_same.mpr fun b _ => hrefl b)
    | succ i =>
      rw [List.modify_succ_cons]
      exact .cons (hrefl a) (ih i)

/-! ## Lists that grow -/

/-- Every entry of `l` is still in its place in `l'`, changed by `R`. -/
def Extends (R : α → α → Prop) (l l' : List α) : Prop :=
  ∀ (i : Nat) (a : α), l[i]? = some a → ∃ b, l'[i]? = some b ∧ R a b

namespace Extends

variable {R : α → α → Prop} {l₁ l₂ l₃ : List α}

theorem refl (hrefl : ∀ a, R a a) (l : List α) : Extends R l l := fun _ a h => ⟨a, h, hrefl a⟩

theorem trans (htrans : ∀ a b c, R a b → R b c → R a c) (h₁₂ : Extends R l₁ l₂)
    (h₂₃ : Extends R l₂ l₃) : Extends R l₁ l₃ := by
  intro i a ha
  obtain ⟨b, hb, hab⟩ := h₁₂ i a ha
  obtain ⟨c, hc, hbc⟩ := h₂₃ i b hb
  exact ⟨c, hc, htrans a b c hab hbc⟩

theorem of_forall₂ (h : List.Forall₂ R l₁ l₂) : Extends R l₁ l₂ := by
  intro i a ha
  obtain ⟨hi, rfl⟩ := List.getElem?_eq_some_iff.mp ha
  have hi' : i < l₂.length := h.length_eq ▸ hi
  exact ⟨_, List.getElem?_eq_getElem hi', h.get hi hi'⟩

theorem append (hrefl : ∀ a, R a a) (l l' : List α) : Extends R l (l ++ l') := by
  intro i a ha
  rw [List.getElem?_append_left (List.getElem?_eq_some_iff.mp ha).1]
  exact ⟨a, ha, hrefl a⟩

end Extends

end Registry
