import Mathlib.Data.List.DropRight

/-!
# Questions about a history

What was the last input of a kind, what came since, and what came before each input.
-/

namespace History

variable {ι : Type}

/-- The last input of a kind. -/
def last (p : ι → Bool) (is : List ι) : Option ι := (is.filter p).getLast?

theorem last_concat (p : ι → Bool) (is : List ι) (i : ι) :
    last p (is ++ [i]) = if p i then some i else last p is := by
  unfold last
  rw [List.filter_append]
  cases hp : p i with
  | true =>
    rw [List.filter_cons_of_pos hp, List.filter_nil, List.getLast?_concat]
    rfl
  | false =>
    rw [List.filter_cons_of_neg (by simp [hp]), List.filter_nil, List.append_nil]
    rfl

/-- The inputs since the last of a kind. -/
def since (r : ι → Bool) (is : List ι) : List ι := is.rtakeWhile fun i => !r i

theorem since_concat (r : ι → Bool) (is : List ι) (i : ι) :
    since r (is ++ [i]) = if r i then [] else since r is ++ [i] := by
  unfold since
  cases hr : r i with
  | true => exact List.rtakeWhile_concat_neg _ _ _ (by simp [hr])
  | false => exact List.rtakeWhile_concat_pos _ _ _ (by simp [hr])

/-- Every input with the inputs before it, `before` ahead of them. -/
def contextsFrom (before : List ι) : List ι → List (List ι × ι)
  | [] => []
  | i :: is => (before, i) :: contextsFrom (before ++ [i]) is

/-- Every input with the inputs before it. -/
def contexts (is : List ι) : List (List ι × ι) := contextsFrom [] is

theorem contexts_concat (is : List ι) (i : ι) : contexts (is ++ [i]) = contexts is ++ [(is, i)] := by
  have hgeneral : ∀ before : List ι, contextsFrom before (is ++ [i]) =
      contextsFrom before is ++ [(before ++ is, i)] := by
    induction is with
    | nil =>
      intro before
      rw [List.nil_append, List.append_nil]
      rfl
    | cons j is ih =>
      intro before
      rw [List.cons_append, contextsFrom, ih, contextsFrom, List.append_assoc, List.singleton_append]
      rfl
  exact hgeneral []

end History
