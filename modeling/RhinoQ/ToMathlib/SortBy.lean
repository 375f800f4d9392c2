import Mathlib.Data.List.Sort

/-! # Sorting by a key

A list sorted by a key in a linear order. When the key tells the elements apart, the result depends on
the elements alone and not on their order.
-/

namespace RhinoQ

variable {α β : Type*} [LinearOrder β] (key : α → β)

/-- The elements in the order of their keys. -/
def sortBy (l : List α) : List α := l.insertionSort fun a b => key a ≤ key b

theorem perm_sortBy (l : List α) : (sortBy key l).Perm l := List.perm_insertionSort _ l

theorem pairwise_sortBy (l : List α) : (sortBy key l).Pairwise fun a b => key a ≤ key b := by
  have total : Std.Total fun a b => key a ≤ key b := ⟨fun a b => le_total (key a) (key b)⟩
  have trans : IsTrans α fun a b => key a ≤ key b := ⟨fun _ _ _ first second => first.trans second⟩
  exact List.pairwise_insertionSort _ l

theorem sortBy_eq_of_perm {first second : List α} (perm : first.Perm second)
    (injective : ∀ a ∈ first, ∀ b ∈ first, key a = key b → a = b) : sortBy key first = sortBy key second := by
  refine List.Perm.eq_of_pairwise ?_ (pairwise_sortBy key first) (pairwise_sortBy key second) ?_
  · intro a b memberA memberB below above
    have isFirst : a ∈ first := (perm_sortBy key first).mem_iff.mp memberA
    have isSecond : b ∈ first := perm.mem_iff.mpr ((perm_sortBy key second).mem_iff.mp memberB)
    exact injective a isFirst b isSecond (le_antisymm below above)
  · exact ((perm_sortBy key first).trans perm).trans (perm_sortBy key second).symm

/-- Selecting before sorting or after it is the same. -/
theorem sortBy_filter (keep : α → Bool) {l : List α} (injective : ∀ a ∈ l, ∀ b ∈ l, key a = key b → a = b) :
    sortBy key (l.filter keep) = (sortBy key l).filter keep := by
  refine List.Perm.eq_of_pairwise ?_ (pairwise_sortBy key _) ((pairwise_sortBy key l).filter keep) ?_
  · intro a b memberA memberB below above
    have isFirst : a ∈ l := List.mem_of_mem_filter ((perm_sortBy key _).mem_iff.mp memberA)
    have isSecond : b ∈ l := (perm_sortBy key l).mem_iff.mp (List.mem_of_mem_filter memberB)
    exact injective a isFirst b isSecond (le_antisymm below above)
  · exact (perm_sortBy key _).trans ((perm_sortBy key l).symm.filter keep)

end RhinoQ
