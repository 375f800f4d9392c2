import RhinoQ.Model.Basic
import Mathlib.Algebra.GroupWithZero.Nat

/-! # Resume tokens

`EncodeCursor` and `DecodeCursor`, with the part of Go's `time` package they use. `time.Parse` is more liberal
than the layout looks: the hour may have one digit, the fraction any number of digits after a point or a
comma, and the zone is `Z` or a signed offset.
-/

namespace RhinoQ.Model.Rule

namespace Clock

def digit (c : Char) : Option ℕ := if '0' ≤ c ∧ c ≤ '9' then some (c.toNat - '0'.toNat) else none

/-- `getnum` with a fixed width of two digits. -/
def twoDigits : List Char → Option (ℕ × List Char)
  | a :: b :: rest => do
    let tens ← digit a
    let ones ← digit b
    return (10 * tens + ones, rest)
  | _ => none

/-- `getnum` with one or two digits. -/
def oneOrTwoDigits : List Char → Option (ℕ × List Char)
  | a :: rest => (digit a).map fun first =>
    match rest with
    | b :: tail =>
      match digit b with
      | some second => (10 * first + second, tail)
      | none => (first, rest)
    | [] => (first, [])
  | [] => none

def fourDigits (value : List Char) : Option (ℕ × List Char) := do
  let (century, rest) ← twoDigits value
  let (year, tail) ← twoDigits rest
  return (100 * century + year, tail)

def literal (c : Char) : List Char → Option (List Char)
  | first :: rest => if first = c then some rest else none
  | [] => none

/-- The value of the first nine digits of a fraction, in nanoseconds. -/
def nanoseconds (digits : List Char) : ℕ :=
  let kept := digits.take 9
  kept.foldl (fun n c => 10 * n + (c.toNat - '0'.toNat)) 0 * 10 ^ (9 - kept.length)

/-- An optional fraction of a second. -/
def fraction : List Char → ℕ × List Char
  | mark :: first :: rest =>
    if (mark = '.' ∨ mark = ',') ∧ (digit first).isSome then
      let digits := (first :: rest).takeWhile fun c => (digit c).isSome
      (nanoseconds digits, (first :: rest).drop digits.length)
    else (0, mark :: first :: rest)
  | value => (0, value)

/-- `Z07:00`: the offset in seconds. -/
def zone : List Char → Option (ℤ × List Char)
  | 'Z' :: rest => some (0, rest)
  | sign :: h1 :: h2 :: ':' :: m1 :: m2 :: rest => do
    let (hour, _) ← twoDigits [h1, h2]
    let (minute, _) ← twoDigits [m1, m2]
    let offset : ℤ := (hour * 60 + minute) * 60
    if 24 < hour ∨ 60 < minute then none
    else if sign = '+' then some (offset, rest)
    else if sign = '-' then some (-offset, rest)
    else none
  | _ => none

def isLeap (year : ℤ) : Bool := year % 4 == 0 && (year % 100 != 0 || year % 400 == 0)

def daysIn (month : ℕ) (year : ℤ) : ℕ :=
  if month = 2 then (if isLeap year then 29 else 28)
  else if month = 4 ∨ month = 6 ∨ month = 9 ∨ month = 11 then 30 else 31

/-- Days from 1 January of year 1 to 1 January of `year`. -/
def daysBefore (year : ℤ) : ℤ :=
  let past := year - 1
  365 * past + past / 4 - past / 100 + past / 400

/-- Days of the year before `month`. -/
def daysBeforeMonth (month : ℕ) (year : ℤ) : ℕ := ((List.range (month - 1)).map fun m => daysIn (m + 1) year).sum

/-- `time.Parse(time.RFC3339Nano, value)`. -/
def parseRFC3339Nano (text : String) : Option Time := do
  let (year, value) ← fourDigits text.toList
  let value ← literal '-' value
  let (month, value) ← twoDigits value
  let value ← literal '-' value
  let (day, value) ← twoDigits value
  let value ← literal 'T' value
  let (hour, value) ← oneOrTwoDigits value
  let value ← literal ':' value
  let (minute, value) ← twoDigits value
  let value ← literal ':' value
  let (second, value) ← twoDigits value
  let (nanos, value) := fraction value
  let (offset, value) ← zone value
  if value = [] ∧ 1 ≤ month ∧ month ≤ 12 ∧ hour < 24 ∧ minute < 60 ∧ second < 60 ∧ 1 ≤ day ∧ day ≤ daysIn month year then
    let days : ℤ := daysBefore year + daysBeforeMonth month year + (day - 1)
    some ((days * 86400 + hour * 3600 + minute * 60 + second - offset) * Duration.second + nanos)
  else none

/-- The date of a day, counted from 1 January of year 1. -/
def date (days : ℤ) : ℤ × ℕ × ℕ :=
  let n400 := days / 146097
  let r := days % 146097
  let n100 := min (r / 36524) 3
  let r := r - n100 * 36524
  let n4 := r / 1461
  let r := r - n4 * 1461
  let n1 := min (r / 365) 3
  let year := 400 * n400 + 100 * n100 + 4 * n4 + n1 + 1
  let day := (r - n1 * 365).toNat
  let month := ((List.range 12).filter fun m => daysBeforeMonth (m + 1) year ≤ day).length
  (year, month, day - daysBeforeMonth month year + 1)

/-- A number with at least `width` digits. -/
def padded (width n : ℕ) : List Char :=
  let digits := Nat.toDigits 10 n
  List.replicate (width - digits.length) '0' ++ digits

/-- `Format(time.RFC3339Nano)` of a time in UTC. -/
def formatRFC3339Nano (t : Time) : String :=
  let seconds := t / Duration.second
  let (year, month, day) := date (seconds / 86400)
  let clock := (seconds % 86400).toNat
  let sign := if year < 0 then ['-'] else []
  let nanos := (padded 9 (t % Duration.second).toNat).rdropWhile (· == '0')
  String.ofList (sign ++ padded 4 year.natAbs ++ '-' :: padded 2 month ++ '-' :: padded 2 day ++
    'T' :: padded 2 (clock / 3600) ++ ':' :: padded 2 (clock / 60 % 60) ++ ':' :: padded 2 (clock % 60) ++
    (if nanos = [] then [] else '.' :: nanos) ++ ['Z'])

example : parseRFC3339Nano "2026-01-01T0:00:00,5+00:00" =
    some (63902822400 * Duration.second + 500 * Duration.millisecond) := by
  decide

example : formatRFC3339Nano (63902822400 * Duration.second + 500 * Duration.millisecond) = "2026-01-01T00:00:00.5Z" := by
  decide

end Clock

def cursorSeparator : Char := '|'

/-- `strings.Cut` at the separator. -/
def cut (cursor : String) : Option (String × String) :=
  match cursor.toList.dropWhile (· != cursorSeparator) with
  | [] => none
  | _ :: rest => some (String.ofList (cursor.toList.takeWhile (· != cursorSeparator)), String.ofList rest)

def encodeCursor (changedAt : Time) (subjectID : String) : String :=
  if changedAt.isZero && subjectID == "" then ""
  else Clock.formatRFC3339Nano changedAt ++ String.singleton cursorSeparator ++ subjectID

def decodeCursor (cursor : String) : Time × String :=
  match cut cursor with
  | none => (0, cursor)
  | some (stamp, subject) =>
    match Clock.parseRFC3339Nano stamp with
    | none => (0, cursor)
    | some changedAt => (changedAt, subject)

end RhinoQ.Model.Rule
