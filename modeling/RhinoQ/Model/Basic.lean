import Mathlib.Data.List.DropRight

/-! # Instants, durations and text

Instants and durations are whole nanoseconds, and the instant `0` is Go's zero `time.Time`, which the code
uses as "not set". The arithmetic is exact: the saturation of `Sub` and the wrap of `Duration` after 292 years
are outside the model.
-/

namespace RhinoQ.Model

theorem exists_of_bind_eq_ok {f : α → Except ε β}
    (success : x >>= f = .ok b) : ∃ a, x = .ok a ∧ f a = .ok b := by
  cases x with
  | error e => cases success
  | ok a => exact ⟨a, rfl, success⟩

/-- `time.Time` as nanoseconds after the zero instant. -/
abbrev Time := ℤ

/-- `time.Duration` in nanoseconds. -/
abbrev Duration := ℤ

namespace Time

def isZero (t : Time) : Bool := t == 0

@[simp] theorem isZero_eq_true (t : Time) : t.isZero = true ↔ t = 0 := by simp [isZero]

end Time

namespace Duration

def millisecond : Duration := 1000000

def second : Duration := 1000 * millisecond

def minute : Duration := 60 * second

def hour : Duration := 3600 * second

end Duration

namespace Text

/-- `unicode.IsSpace`. -/
def isSpace (c : Char) : Bool :=
  let code := c.toNat
  (9 ≤ code && code ≤ 13) || code == 0x20 || code == 0x85 || code == 0xA0 || code == 0x1680 ||
    (0x2000 ≤ code && code ≤ 0x200A) || code == 0x2028 || code == 0x2029 || code == 0x202F ||
    code == 0x205F || code == 0x3000

/-- `strings.TrimSpace`. -/
def trimSpace (text : String) : String :=
  String.ofList ((text.toList.dropWhile isSpace).rdropWhile isSpace)

/-- `fmt.Sprintf("%06d", n)`. -/
def sixDigits (n : ℕ) : String :=
  let digits := Nat.toDigits 10 n
  String.ofList (List.replicate (6 - digits.length) '0' ++ digits)

theorem sixDigits_injective (same : sixDigits a = sixDigits b) : a = b := by
  have value (n : ℕ) : Nat.ofDigitChars 10 (sixDigits n).toList 0 = n := by
    simp [sixDigits, Nat.ofDigitChars_append, Nat.ofDigitChars_replicate_zero]
  rw [← value a, same, value b]

theorem append_sixDigits_injective (stem : String) (same : stem ++ sixDigits a = stem ++ sixDigits b) : a = b := by
  have lists : stem.toList ++ (sixDigits a).toList = stem.toList ++ (sixDigits b).toList := by
    rw [← String.toList_append, ← String.toList_append, same]
  exact sixDigits_injective (String.toList_inj.mp (List.append_cancel_left lists))

end Text
end RhinoQ.Model
