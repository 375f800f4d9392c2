import RhinoQ.Model.Basic

/-! # Admission policies

The per-lane budget a producer is checked against before a job is stored.
-/

namespace RhinoQ.Model.Admission

open Duration

/-- What a full lane does with new work; `unset` is the empty mode a caller may leave. -/
inductive Mode
  | unset | reject | delay
  | other (text : String)
  deriving DecidableEq

def defaultRetryAfter : Duration := 30 * second

def defaultDelayBy : Duration := 30 * second

def errInvalidPolicy : String :=
  "admission policy requires a positive max pending, a reserved critical budget below it and a supported overflow mode"

structure Policy where
  maxPending : ℤ
  reservedCritical : ℤ := 0
  onOverflow : Mode := .unset
  delayBy : Duration := 0
  retryAfter : Duration := 0
  deriving DecidableEq

namespace Policy

variable (p : Policy)

def validate : Except String Unit :=
  if p.maxPending ≤ 0 ∨ p.reservedCritical < 0 ∨ p.reservedCritical ≥ p.maxPending then
    .error errInvalidPolicy
  else if p.onOverflow ≠ .reject ∧ p.onOverflow ≠ .delay then .error errInvalidPolicy
  else if p.delayBy < 0 ∨ p.retryAfter < 0 then .error errInvalidPolicy
  else .ok ()

def normalize : Policy :=
  { p with
    onOverflow := if p.onOverflow = .unset then .reject else p.onOverflow
    delayBy := if p.delayBy ≤ 0 then defaultDelayBy else p.delayBy
    retryAfter := if p.retryAfter ≤ 0 then defaultRetryAfter else p.retryAfter }

/-- Critical work may use the whole budget; everything else stops at the reserved line. -/
def capacity (critical : Bool) : ℤ :=
  if critical then p.maxPending else p.maxPending - p.reservedCritical

end Policy

/-- How far an admitted job's earliest run time is pushed out. -/
structure Decision where
  deferBy : Duration := 0

/-- The rejection a producer receives from a full lane. -/
structure OverCapacityError where
  queue : String
  pending : ℤ
  capacity : ℤ
  critical : Bool
  retryAfter : Duration
  deriving DecidableEq

namespace Policy

variable (p : Policy)

/-- Whether a lane holding `pending` jobs accepts one more. -/
def decide (queue : String) (pending : ℤ) (critical : Bool) : Except OverCapacityError Decision :=
  let policy := p.normalize
  let capacity := policy.capacity critical
  if pending < capacity then .ok {}
  else if policy.onOverflow = .delay then .ok { deferBy := policy.delayBy }
  else .error { queue, pending, capacity, critical, retryAfter := policy.retryAfter }

theorem decide_ok_iff (queue : String) (pending : ℤ) (critical : Bool) :
    (∃ decision, p.decide queue pending critical = .ok decision) ↔
      pending < p.capacity critical ∨ p.normalize.onOverflow = .delay := by
  change (∃ decision, (if pending < p.capacity critical then _ else _) = Except.ok decision) ↔ _
  by_cases room : pending < p.capacity critical
  · simp [room]
  · by_cases delays : p.normalize.onOverflow = .delay <;> simp [room, delays]

theorem normalize_normalize : p.normalize.normalize = p.normalize := by
  have mode : (if p.normalize.onOverflow = .unset then .reject else p.normalize.onOverflow) = p.normalize.onOverflow := by
    by_cases unset : p.onOverflow = .unset <;> simp [normalize, unset]
  have delay : (if p.normalize.delayBy ≤ 0 then defaultDelayBy else p.normalize.delayBy) = p.normalize.delayBy := by
    by_cases none : p.delayBy ≤ 0 <;> simp [normalize, none, defaultDelayBy, second, millisecond]
  have retry : (if p.normalize.retryAfter ≤ 0 then defaultRetryAfter
    else p.normalize.retryAfter) = p.normalize.retryAfter := by
    by_cases none : p.retryAfter ≤ 0 <;> simp [normalize, none, defaultRetryAfter, second, millisecond]
  conv_lhs => rw [normalize, mode, delay, retry]

end Policy
end RhinoQ.Model.Admission
