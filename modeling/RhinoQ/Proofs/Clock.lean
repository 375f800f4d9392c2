import Mathlib.Data.Nat.Digits.Defs
import RhinoQ.Model.Rule.Cursor
import RhinoQ.ToMathlib.Trim

/-! # Written instants

The text of an instant names it: each number of it stands between characters that no number has.
-/

namespace RhinoQ

namespace Model.Rule.Clock

open Duration

/-! ## Dates -/

theorem daysBeforeMonth_succ (month : ℕ) (year : ℤ) : daysBeforeMonth month year ≤ daysBeforeMonth (month + 1) year := by
  cases month with
  | zero => exact le_rfl
  | succ before =>
    unfold daysBeforeMonth
    rw [Nat.add_sub_cancel, Nat.add_sub_cancel, List.range_succ, List.map_append, List.sum_append]
    exact Nat.le_add_right _ _

/-- The last step of a growing count that stays below a bound. -/
theorem count_steps_le (grows : Monotone f) {bound : ℕ} (start : f 0 ≤ bound) (n : ℕ) :
    f ((List.range n).filter fun m => f (m + 1) ≤ bound).length ≤ bound := by
  induction n with
  | zero => exact start
  | succ n ih =>
    by_cases below : f (n + 1) ≤ bound
    · have all : (List.range (n + 1)).filter (fun m => f (m + 1) ≤ bound) = List.range (n + 1) := by
        refine List.filter_eq_self.mpr fun m member => decide_eq_true ?_
        exact (grows (List.mem_range.mp member)).trans below
      rw [all, List.length_range]
      exact below
    · rw [List.range_succ, List.filter_append, List.filter_singleton, decide_eq_false below, cond_false, List.append_nil]
      exact ih

theorem daysBefore_cycles (centuries : 0 ≤ n100 ∧ n100 ≤ 3) (fours : 0 ≤ n4 ∧ n4 ≤ 24) (years : 0 ≤ n1 ∧ n1 ≤ 3) :
    daysBefore (400 * n400 + 100 * n100 + 4 * n4 + n1 + 1) = 146097 * n400 + 36524 * n100 + 1461 * n4 + 365 * n1 := by
  simp only [daysBefore]
  omega

theorem date_day (days : ℤ) : daysBefore (date days).1 + daysBeforeMonth (date days).2.1 (date days).1 +
    ((date days).2.2 - 1) = days := by
  set r400 := days % 146097 with r400_eq
  set n100 := min (r400 / 36524) 3 with n100_eq
  set r100 := r400 - n100 * 36524 with r100_eq
  set n4 := r100 / 1461 with n4_eq
  set r4 := r100 - n4 * 1461 with r4_eq
  set n1 := min (r4 / 365) 3 with n1_eq
  set year := 400 * (days / 146097) + 100 * n100 + 4 * n4 + n1 + 1 with year_eq
  have centuries : 0 ≤ n100 ∧ n100 ≤ 3 := by omega
  have fours : 0 ≤ n4 ∧ n4 ≤ 24 := by omega
  have years : 0 ≤ n1 ∧ n1 ≤ 3 := by omega
  have before : daysBefore year = 146097 * (days / 146097) + 36524 * n100 + 1461 * n4 + 365 * n1 :=
    daysBefore_cycles centuries fours years
  set month := ((List.range 12).filter fun m => daysBeforeMonth (m + 1) year ≤ (r4 - n1 * 365).toNat).length
  have begun : daysBeforeMonth month year ≤ (r4 - n1 * 365).toNat :=
    count_steps_le (monotone_nat_of_le_succ fun m => daysBeforeMonth_succ m year) (Nat.zero_le _) 12
  change daysBefore year + daysBeforeMonth month year +
    (((r4 - n1 * 365).toNat - daysBeforeMonth month year + 1 : ℕ) - 1) = days
  omega

theorem date_injective : Function.Injective date := by
  intro a b same
  rw [← date_day a, ← date_day b, same]

/-! ## Numbers -/

variable {c : Char} {width n : ℕ}

theorem isDigit_of_mem_padded (member : c ∈ padded width n) : c.isDigit := by
  rcases List.mem_append.mp member with zero | digit
  · obtain rfl := (List.mem_replicate.mp zero).2
    rfl
  · exact Nat.isDigit_of_mem_toDigits (by decide) (by decide) digit

theorem notMem_padded (other : c.isDigit = false) : c ∉ padded width n := by
  intro member
  rw [isDigit_of_mem_padded member] at other
  cases other

theorem padded_injective (width : ℕ) : Function.Injective (padded width) := by
  intro a b same
  have value (n : ℕ) : Nat.ofDigitChars 10 (padded width n) 0 = n := by
    simp [padded, Nat.ofDigitChars_append, Nat.ofDigitChars_replicate_zero]
  rw [← value a, same, value b]

theorem length_padded (positive : 0 < width) (fits : n < 10 ^ width) : (padded width n).length = width := by
  have short := Nat.toDigits_length 10 n width positive fits
  simp only [padded, List.length_append, List.length_replicate]
  omega

theorem padded_ne_nil (n : ℕ) : padded 4 n ≠ [] := by
  intro empty
  have length := congrArg List.length empty
  simp only [padded, List.length_append, List.length_replicate, List.length_nil] at length
  omega

/-- Zeros at the end of a fraction may be left out. -/
theorem eq_of_rdropWhile [BEq α] [LawfulBEq α] {a b : List α} (length : a.length = b.length)
    (same : a.rdropWhile (· == zero) = b.rdropWhile (· == zero)) : a = b := by
  have split (l : List α) : l = l.rdropWhile (· == zero) ++ List.replicate (l.rtakeWhile (· == zero)).length zero := by
    conv_lhs => rw [← List.rdropWhile_append_rtakeWhile (p := (· == zero)) (l := l)]
    congr 1
    exact List.eq_replicate_iff.mpr ⟨rfl, fun x member => eq_of_beq (List.mem_rtakeWhile_imp (p := (· == zero)) member)⟩
  have lengths := length
  rw [split a, split b, List.length_append, List.length_append, List.length_replicate, List.length_replicate,
    same] at lengths
  rw [split a, split b, same, Nat.add_left_cancel lengths]

/-! ## Texts -/

theorem fraction_injective {a b : ℕ} (small : a < 10 ^ 9) (little : b < 10 ^ 9)
    (same : (padded 9 a).rdropWhile (· == '0') = (padded 9 b).rdropWhile (· == '0')) : a = b := by
  refine padded_injective 9 (eq_of_rdropWhile ?_ same)
  rw [length_padded (by decide) small, length_padded (by decide) little]

/-- The end of a text: the fraction, unless it is zero, and the zone. -/
theorem zoned_injective (same : (if a = [] then [] else '.' :: a) ++ ['Z'] = (if b = [] then [] else '.' :: b) ++ ['Z']) :
    a = b := by
  have bodies := List.append_cancel_right same
  split_ifs at bodies with left right right
  · rw [left, right]
  · exact (List.cons.inj bodies).2

/-- The beginning of a text: the year with its sign. -/
theorem year_injective {a b : ℤ}
    (same : (if a < 0 then ['-'] else []) ++ (padded 4 a.natAbs ++ '-' :: rest) =
      (if b < 0 then ['-'] else []) ++ (padded 4 b.natAbs ++ '-' :: tail)) : a = b ∧ rest = tail := by
  have dash {n : ℕ} : '-' ∉ padded 4 n := notMem_padded rfl
  -- a text with a sign begins with what no number has
  have signed {n : ℕ} {front back : List Char} : '-' :: front ≠ padded 4 n ++ '-' :: back := by
    intro same
    exact padded_ne_nil n (append_cons_cancel (x := []) List.not_mem_nil dash same).1.symm
  split_ifs at same with left right right
  · obtain ⟨numbers, rests⟩ := append_cons_cancel dash dash (List.cons.inj same).2
    have size := padded_injective 4 numbers
    exact ⟨by omega, rests⟩
  · exact absurd same signed
  · exact absurd same.symm signed
  · obtain ⟨numbers, rests⟩ := append_cons_cancel dash dash same
    have size := padded_injective 4 numbers
    exact ⟨by omega, rests⟩

theorem nanos_lt (t : Time) : (t % second).toNat < 10 ^ 9 := by
  simp only [second, millisecond]
  omega

theorem clock_eq (hours : a / 3600 = b / 3600) (minutes : a / 60 % 60 = b / 60 % 60) (seconds : a % 60 = b % 60) :
    a = b := by
  omega

theorem instant_eq {a b : ℤ} (days : a / second / 86400 = b / second / 86400)
    (clocks : (a / second % 86400).toNat = (b / second % 86400).toNat)
    (nanos : (a % second).toNat = (b % second).toNat) : a = b := by
  simp only [second, millisecond] at days clocks nanos
  omega

theorem formatRFC3339Nano_injective : Function.Injective formatRFC3339Nano := by
  intro a b same
  have texts := String.ofList_injective same
  simp only [List.append_assoc, List.cons_append] at texts
  obtain ⟨years, texts⟩ := year_injective texts
  obtain ⟨months, texts⟩ := append_cons_cancel (notMem_padded rfl) (notMem_padded rfl) texts
  obtain ⟨days, texts⟩ := append_cons_cancel (notMem_padded rfl) (notMem_padded rfl) texts
  obtain ⟨hours, texts⟩ := append_cons_cancel (notMem_padded rfl) (notMem_padded rfl) texts
  obtain ⟨minutes, texts⟩ := append_cons_cancel (notMem_padded rfl) (notMem_padded rfl) texts
  -- the seconds are the first two characters of the rest
  have two (n : ℕ) : (padded 2 (n % 60)).length = 2 := length_padded (by decide) (by omega)
  obtain ⟨seconds, texts⟩ := List.append_inj texts ((two _).trans (two _).symm)
  have nanos : (a % second).toNat = (b % second).toNat :=
    fraction_injective (nanos_lt a) (nanos_lt b) (zoned_injective texts)
  have clocks := clock_eq (padded_injective 2 hours) (padded_injective 2 minutes) (padded_injective 2 seconds)
  have dates := date_injective (Prod.ext years (Prod.ext (padded_injective 2 months) (padded_injective 2 days)))
  exact instant_eq dates clocks nanos

end Model.Rule.Clock
end RhinoQ
