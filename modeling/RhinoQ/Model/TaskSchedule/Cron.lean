import RhinoQ.Model.Rule.Cursor
import Mathlib.Algebra.Group.Int.Defs

/-! # Calendars of recurring tasks

A five-field calendar in a timezone and the next minute that it names. The timezone database is a
parameter: a location gives its offset from UTC at each instant.
-/

namespace RhinoQ.Model.TaskSchedule

open Rule Duration

/-- `time.Location`: the offset from UTC in seconds. -/
abbrev Location := Time → ℤ

/-- The wall minute of an instant. -/
structure Wall where
  year : ℤ
  month : ℕ
  day : ℕ
  hour : ℕ
  minute : ℕ
  weekday : ℕ
  deriving DecidableEq

/-- `t.In(location)`. 1 January of year 1 is a Monday. -/
def Wall.at (location : Location) (t : Time) : Wall :=
  let seconds := t / second + location t
  let days := seconds / 86400
  let (year, month, day) := Clock.date days
  let clock := (seconds % 86400).toNat
  { year, month, day, hour := clock / 3600, minute := clock / 60 % 60, weekday := ((days + 1) % 7).toNat }

/-- `AddDate(years, 0, 0)`. A day that the month does not have counts on into the next. -/
def addYears (years : ℤ) (t : Time) : Time :=
  let day := 86400 * second
  let (year, month, dayOfMonth) := Clock.date (t / day)
  (Clock.daysBefore (year + years) + Clock.daysBeforeMonth month (year + years) + (dayOfMonth - 1)) * day + t % day

/-- `strings.Cut`: what stands before the first separator, and what after it if there is one. -/
def cut (separator : Char) (text : List Char) : List Char × Option (List Char) :=
  match text.dropWhile (· != separator) with
  | [] => (text, none)
  | _ :: rest => (text.takeWhile (· != separator), some rest)

def digits (text : List Char) : Option ℤ :=
  if text ≠ [] ∧ text.all Char.isDigit then some (Nat.ofDigitChars 10 text 0) else none

/-- `strconv.Atoi`. -/
def atoi (text : List Char) : Option ℤ := do
  let value ← match text with
    | '+' :: rest => digits rest
    | '-' :: rest => (digits rest).map Neg.neg
    | _ => digits text
  if -2 ^ 63 ≤ value ∧ value < 2 ^ 63 then some value else none

def cronStep : Option (List Char) → Option ℤ
  | none => some 1
  | some raw => (atoi raw).filter (1 ≤ ·)

def cronEnds (least most : ℤ) (base : List Char) : Option (ℤ × ℤ) :=
  if base = ['*'] then some (least, most)
  else
    let (left, right) := cut '-' base
    (atoi left).bind fun start => (right.elim (some start) atoi).map (start, ·)

/-- What one item of a field says: a number, a range or all, each with an optional step. -/
def cronRange (least most : ℤ) (item : List Char) : Option (ℤ × ℤ × ℤ) := do
  let step ← cronStep (cut '/' item).2
  let (start, stop) ← cronEnds least most (cut '/' item).1
  if start < least ∨ most < stop ∨ stop < start then none else some (start, stop, step)

/-- The counting loop. Its `int` wraps around. -/
def cronValues (stop step : ℤ) : ℕ → ℤ → Option (List ℤ)
  | 0, _ => none
  | rounds + 1, value =>
    if value ≤ stop then (cronValues stop step rounds (Int.bmod (value + step) (2 ^ 64))).map (value :: ·) else some []

/-- The values of one item. A loop that has not ended after `2 ^ 64` rounds comes back to a value and never does. -/
def cronItem (least most : ℤ) (item : List Char) : Option (List ℤ) := do
  let (start, stop, step) ← cronRange least most item
  cronValues stop step (2 ^ 64) start

/-- `cronField`. Sunday is `0` and `7`. -/
def cronField (least most : ℤ) (weekday : Bool) (raw : List Char) : Option (List ℤ) := do
  let items ← (raw.splitOnP (· == ',')).mapM (cronItem least most)
  let values := items.flatten.map fun value => if weekday ∧ value = 7 then 0 else value
  if values = [] then none else some values

structure Cron where
  location : Location
  minutes : List ℤ
  hours : List ℤ
  days : List ℤ
  months : List ℤ
  weekdays : List ℤ

/-- `strings.Fields`. -/
def fields (text : String) : List (List Char) := (text.toList.splitOnP Text.isSpace).filter (· ≠ [])

/-- `ParseCron`, with `time.LoadLocation` as a parameter. -/
def parseCron (loadLocation : String → Option Location) (expression timezone : String) : Option Cron := do
  let location ← if Text.trimSpace timezone = "" then none else loadLocation (Text.trimSpace timezone)
  match fields expression with
  | [minute, hour, day, month, weekday] =>
    let minutes ← cronField 0 59 false minute
    let hours ← cronField 0 23 false hour
    let days ← cronField 1 31 false day
    let months ← cronField 1 12 false month
    let weekdays ← cronField 0 7 true weekday
    some { location, minutes, hours, days, months, weekdays }
  | _ => none

namespace Cron

/-- The fields name this minute, and it is not the wall minute that ran before (a clock set back repeats it). -/
def names (cron : Cron) (previous wall : Wall) : Bool :=
  wall != previous && cron.minutes.contains wall.minute && cron.hours.contains wall.hour && cron.days.contains wall.day &&
    cron.months.contains wall.month && cron.weekdays.contains wall.weekday

/-- `Next`: the first minute after `after` that the fields name, within two years. -/
def next (cron : Cron) (after : Time) : Option Time :=
  if after.isZero then none
  else
    let previous := Wall.at cron.location after
    let candidate := after - after % minute + minute
    let limit := addYears 2 candidate
    let candidates := (List.range ((limit - candidate) / minute + 1).toNat).map fun i => candidate + i * minute
    candidates.find? fun t => cron.names previous (Wall.at cron.location t)

end Cron

end RhinoQ.Model.TaskSchedule
