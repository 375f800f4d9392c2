import RhinoQ.Model.Job.Ports
import Mathlib.Data.Rat.Floor

/-! # The retry policy

What becomes of a failed execution. The policy compares the attempt it is given with its own limit. Jitter is
an exact rational for the source's `float64`, and its random sample is an argument.
-/

namespace RhinoQ.Model.Retry

open Ports

/-- A failure class. Go's type is a string, so a caller may bring any other text. -/
inductive Class
  | transient | permanent | rateLimited | dependencyDown | unknown | cancelled
  | other (text : String)
  deriving DecidableEq

def Class.text : Class → String
  | .transient => "transient"
  | .permanent => "permanent"
  | .rateLimited => "rate_limited"
  | .dependencyDown => "dependency_down"
  | .unknown => "unknown"
  | .cancelled => "cancelled"
  | .other text => text

def unknownMaxAttempts : ℤ := 2

structure Policy where
  maxAttempts : ℤ
  baseDelay : Duration := 0
  maxDelay : Duration := 0
  jitter : ℚ := 0

structure Decision where
  retry : Bool := false
  dead : Bool := false
  blocked : Bool := false
  delay : Duration := 0
  reason : String

/-- `delay *= 2` in the 64 bits of a `time.Duration`. -/
def doubled (delay : ℤ) : ℤ := Int.bmod (delay * 2) (2 ^ 64)

/-- The doubling loop, `left` rounds of it. -/
def backoff (maxDelay delay : ℤ) : ℕ → ℤ
  | 0 => delay
  | left + 1 => if 0 < maxDelay ∧ maxDelay ≤ doubled delay then maxDelay else backoff maxDelay (doubled delay) left

namespace Policy

variable (p : Policy)

def applyJitter (sample : ℚ) (delay : Duration) : Duration :=
  if delay ≤ 0 ∨ p.jitter ≤ 0 then delay
  else
    let jitter := min p.jitter 1
    let sample := min (max sample 0) 1
    ⌊(delay : ℚ) * (1 - jitter * sample)⌋

def delay (sample : ℚ) (attempt : ℤ) : Duration :=
  let delay := backoff p.maxDelay p.baseDelay (attempt - 1).toNat
  p.applyJitter sample (if 0 < p.maxDelay ∧ p.maxDelay < delay then p.maxDelay else delay)

def decide (cls : Class) (attempt : ℤ) (retryAfter : Duration) (sample : ℚ) : Decision :=
  if attempt ≤ 0 ∨ p.maxAttempts ≤ 0 ∨ p.maxAttempts ≤ attempt then
    { dead := cls != .cancelled, reason := "attempt limit reached" }
  else
    match cls with
    | .permanent => { dead := true, reason := "permanent error" }
    | .cancelled => { reason := "cancelled" }
    | .unknown =>
      if attempt < unknownMaxAttempts then
        { retry := true, delay := p.delay sample attempt, reason := "unclassified error, retrying cautiously" }
      else { blocked := true, reason := "unknown error requires decision" }
    | .rateLimited =>
      { retry := true, delay := if retryAfter ≤ 0 then p.delay sample attempt else retryAfter,
        reason := "provider rate limit" }
    | .transient | .dependencyDown =>
      { retry := true, delay := p.delay sample attempt, reason := "retryable dependency error" }
    | .other _ => { blocked := true, reason := "unclassified error" }

/-- Where a failed execution parks its job: the switch that the worker and the remote API share. -/
def transition (cls : Class) (attempt : ℤ) (retryAfter : Duration) (sample : ℚ) : FailureTransition :=
  let decision := p.decide cls attempt retryAfter sample
  let parked : FailureTransition :=
    if decision.retry then { state := .retryWait, retryIn := decision.delay }
    else if decision.dead then { state := .dead }
    else if cls = .cancelled then { state := .cancelled }
    else { state := .blocked, blockedReason := .unclassified }
  { parked with failureClass := cls.text }

theorem lt_of_transition_retryWait
    (scheduled : (p.transition cls attempt retryAfter sample).state = .retryWait) :
    0 < attempt ∧ attempt < p.maxAttempts := by
  by_contra outside
  have limited : attempt ≤ 0 ∨ p.maxAttempts ≤ 0 ∨ p.maxAttempts ≤ attempt := by omega
  simp only [transition, decide, if_pos limited, Bool.false_eq_true, if_false] at scheduled
  split_ifs at scheduled

end Policy

end RhinoQ.Model.Retry
