import Mathlib.Data.List.DropRight

/-! # Lists and texts: trimming at both ends, splitting at a separator -/

namespace RhinoQ

variable {α : Type*} {p q : α → Bool} {l : List α}

theorem head_dropWhile_not {x : α} (first : (l.dropWhile q).head? = some x) : q x = false := by
  induction l with
  | nil => cases first
  | cons y rest ih =>
    rw [List.dropWhile_cons] at first
    split at first
    · exact ih first
    rename_i kept
    cases first
    exact Bool.not_eq_true _ ▸ kept

/-- Trimming what a coarser predicate trimmed already changes nothing. -/
theorem trim_trim (coarser : ∀ x, p x = true → q x = true) :
    (((l.dropWhile q).rdropWhile q).dropWhile p).rdropWhile p = (l.dropWhile q).rdropWhile q := by
  have fine (x : α) (kept : q x = false) : p x = false := by
    cases trims : p x with
    | false => rfl
    | true => exact absurd (coarser x trims) (by simp [kept])
  have left : ((l.dropWhile q).rdropWhile q).dropWhile p = (l.dropWhile q).rdropWhile q := by
    cases trimmed : (l.dropWhile q).rdropWhile q with
    | nil => rfl
    | cons x rest =>
      obtain ⟨suffix, whole⟩ := List.rdropWhile_prefix q (l.dropWhile q)
      have first : (l.dropWhile q).head? = some x := by
        rw [← whole, trimmed]
        rfl
      rw [List.dropWhile_cons_of_neg]
      simp [fine x (head_dropWhile_not first)]
  rw [left, List.rdropWhile_eq_self_iff]
  intro some_left
  have last := List.rdropWhile_last_not q (l.dropWhile q) some_left
  simp [fine _ (Bool.not_eq_true _ ▸ last)]

/-- What stands before the first separator, and what after it. -/
theorem append_cons_cancel {c : α} {x y z w : List α} (outside : c ∉ x) (apart : c ∉ y)
    (same : x ++ c :: z = y ++ c :: w) : x = y ∧ z = w := by
  rcases List.append_eq_append_iff.mp same with ⟨rest, rfl, tail⟩ | ⟨rest, rfl, tail⟩
  · cases rest with
    | nil => exact ⟨(List.append_nil x).symm, (List.cons.inj tail).2⟩
    | cons d rest =>
      obtain rfl := (List.cons.inj tail).1
      exact absurd (List.mem_append_right x (.head rest)) apart
  · cases rest with
    | nil => exact ⟨List.append_nil y, (List.cons.inj tail).2.symm⟩
    | cons d rest =>
      obtain rfl := (List.cons.inj tail).1
      exact absurd (List.mem_append_right y (.head rest)) outside

/-- The decimal text of a number names it. -/
theorem toString_inj_of_nonneg {a b : ℤ} (left : 0 ≤ a) (right : 0 ≤ b) (same : toString a = toString b) : a = b := by
  rw [Int.toString_eq_repr, Int.toString_eq_repr, Int.repr_eq_if, Int.repr_eq_if, if_pos left, if_pos right] at same
  have digits : Nat.toDigits 10 a.toNat = Nat.toDigits 10 b.toNat := by
    simpa only [Nat.repr, String.toList_ofList] using congrArg String.toList same
  have numbers : a.toNat = b.toNat := by
    rw [← Nat.ofDigitChars_ten_toDigits (n := a.toNat), digits, Nat.ofDigitChars_ten_toDigits]
  omega

end RhinoQ
