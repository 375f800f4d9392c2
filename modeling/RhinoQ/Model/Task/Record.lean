import RhinoQ.Model.Basic

/-! # Tasks

The task aggregate: lifecycle, progress, the outcome of a cancellation and the counters of its executions. A
state or a status outside the constants of the source is `other`.
-/

namespace RhinoQ.Model.Task

open Text

abbrev ID := String

inductive State
  | pending | queued | running | uncertain | succeeded | failed | cancelRequested | cancelled
  | other (text : String)
  deriving DecidableEq

namespace State

def text : State → String
  | .pending => "pending"
  | .queued => "queued"
  | .running => "running"
  | .uncertain => "uncertain"
  | .succeeded => "succeeded"
  | .failed => "failed"
  | .cancelRequested => "cancel_requested"
  | .cancelled => "cancelled"
  | .other text => text

def valid : State → Bool
  | .other _ => false
  | _ => true

/-- The lifecycle table. -/
def canTransition : State → State → Bool
  | .pending, .queued | .pending, .cancelled => true
  | .queued, .running | .queued, .cancelRequested | .queued, .cancelled => true
  | .running, .uncertain | .running, .succeeded | .running, .failed | .running, .cancelRequested => true
  | .uncertain, .succeeded | .uncertain, .failed => true
  | .cancelRequested, .uncertain | .cancelRequested, .succeeded | .cancelRequested, .failed
  | .cancelRequested, .cancelled => true
  | .failed, .queued => true
  | .cancelled, .queued => true
  | _, _ => false

def transition (source target : State) : Except String State :=
  if !source.valid || !target.valid || !canTransition source target then
    .error ("invalid task transition: " ++ source.text ++ " -> " ++ target.text)
  else .ok target

end State

inductive CancellationStatus
  | none | requested | acknowledged | cancelled | tooLate | cannotCancel | failed
  | other (text : String)
  deriving DecidableEq

def CancellationStatus.valid : CancellationStatus → Bool
  | .other _ => false
  | _ => true

structure Progress where
  completed : ℤ := 0
  total : ℤ := 0
  hasTotal : Bool := false
  message : String := ""
  deriving DecidableEq

def Progress.valid (p : Progress) : Bool :=
  if p.completed < 0 || p.total < 0 then false else !p.hasTotal || p.total ≥ p.completed

structure ExecutionCounts where
  total : ℤ := 0
  pendingDispatch : ℤ := 0
  dispatched : ℤ := 0
  running : ℤ := 0
  succeeded : ℤ := 0
  failed : ℤ := 0
  stalled : ℤ := 0
  cancelled : ℤ := 0
  deriving DecidableEq

def ExecutionCounts.valid (c : ExecutionCounts) : Bool :=
  let states := [c.pendingDispatch, c.dispatched, c.running, c.succeeded, c.failed, c.stalled, c.cancelled]
  (c.total :: states).all (· ≥ 0) && states.foldl (· + ·) 0 == c.total

structure Record where
  id : ID := ""
  type : String := ""
  ownerID : String := ""
  definitionVersion : ℤ := 0
  state : State := .other ""
  progress : Progress := {}
  executionCounts : ExecutionCounts := {}
  resultRef : String := ""
  cancellationStatus : CancellationStatus := .other ""
  cancellationReason : String := ""
  version : ℤ := 0
  createdAt : Time := 0
  updatedAt : Time := 0
  deriving DecidableEq

structure Spec where
  id : ID
  type : String
  ownerID : String := ""
  definitionVersion : ℤ
  now : Time

def errInvalidRecord : String := "invalid task record"

def errInvalidProgress : String := "invalid task progress"

def errProgressRegression : String := "task progress cannot move backwards"

def errProgressTotal : String := "task progress total cannot change once known"

def errInvalidResult : String := "invalid task result reference"

def errProgressState : String := "task does not accept progress in its current state"

def errInvalidCancellation : String := "invalid task cancellation transition"

def newRecord (spec : Spec) : Except String Record :=
  if spec.id = "" ∨ trimSpace spec.type = "" ∨ spec.definitionVersion ≤ 0 ∨ spec.now.isZero then
    .error errInvalidRecord
  else
    .ok { id := spec.id, type := trimSpace spec.type, ownerID := trimSpace spec.ownerID
          definitionVersion := spec.definitionVersion, state := .pending, cancellationStatus := .none
          version := 1, createdAt := spec.now, updatedAt := spec.now }

namespace Record

variable (r : Record)

/-- What every command checks of the record it changes. -/
def validate (now : Time) : Except String Unit :=
  if r.id = "" ∨ trimSpace r.type = "" ∨ r.definitionVersion ≤ 0 ∨ !r.state.valid ∨ r.version ≤ 0 ∨
      r.createdAt.isZero ∨ r.updatedAt.isZero ∨ now.isZero then
    .error (errInvalidRecord ++ ": malformed record")
  else if !r.cancellationStatus.valid then .error (errInvalidRecord ++ ": malformed cancellation")
  else if !r.progress.valid then .error (errInvalidRecord ++ ": malformed progress")
  else if !r.executionCounts.valid then .error (errInvalidRecord ++ ": malformed execution counts")
  else .ok ()

/-- The cancellation outcome that a lifecycle step implies. -/
def cancellationAfter (next : State) : CancellationStatus × String :=
  match r.state, next with
  | .failed, .queued | .cancelled, .queued => (.none, "")
  | .cancelRequested, .cancelled => (.cancelled, r.cancellationReason)
  | .cancelRequested, .succeeded => (.tooLate, r.cancellationReason)
  | .cancelRequested, .failed => (.failed, r.cancellationReason)
  | _, .cancelRequested =>
    if r.cancellationStatus = .none then (.requested, r.cancellationReason)
    else (r.cancellationStatus, r.cancellationReason)
  | _, _ => (r.cancellationStatus, r.cancellationReason)

def transition (target : State) (now : Time) : Except String Record :=
  match r.validate now with
  | .error text => .error text
  | .ok () =>
    match State.transition r.state target with
    | .error text => .error text
    | .ok next =>
      let (cancellationStatus, cancellationReason) := r.cancellationAfter next
      .ok { r with
        state := next, cancellationStatus, cancellationReason, version := r.version + 1, updatedAt := now }

def acceptsProgress : Bool := r.state == .running || r.state == .cancelRequested

/-- The progress is stored already, so that writing it would change nothing. -/
def progressIsCurrent (progress : Progress) : Bool :=
  r.acceptsProgress && progress.valid && progress == r.progress

def applyProgress (progress : Progress) (now : Time) : Except String Record :=
  match r.validate now with
  | .error text => .error text
  | .ok () =>
    if !progress.valid then .error errInvalidProgress
    else if !r.acceptsProgress then .error errProgressState
    else if progress.completed < r.progress.completed then .error errProgressRegression
    else if r.progress.hasTotal ∧ (!progress.hasTotal ∨ progress.total ≠ r.progress.total) then
      .error errProgressTotal
    else if progress = r.progress then .ok r
    else .ok { r with progress, version := r.version + 1, updatedAt := now }

def attachResult (resultRef : String) (now : Time) : Except String Record :=
  match r.validate now with
  | .error text => .error text
  | .ok () =>
    if trimSpace resultRef = "" then .error errInvalidResult
    else .ok { r with resultRef := trimSpace resultRef, version := r.version + 1, updatedAt := now }

def cancellationIsRequested : Bool := r.state == .cancelRequested

def requestCancellation (now : Time) : Except String Record :=
  match r.validate now with
  | .error text => .error text
  | .ok () => if r.cancellationIsRequested then .ok r else r.transition .cancelRequested now

def resolveCancellation (status : CancellationStatus) (reason : String) (now : Time) : Except String Record :=
  match r.validate now with
  | .error text => .error text
  | .ok () =>
    if r.state ≠ .cancelRequested ∨ (r.cancellationStatus ≠ .requested ∧ r.cancellationStatus ≠ .acknowledged) then
      .error errInvalidCancellation
    else if status ≠ .acknowledged ∧ status ≠ .cannotCancel ∧ status ≠ .failed then .error errInvalidCancellation
    else
      .ok { r with
        cancellationStatus := status, cancellationReason := trimSpace reason
        version := r.version + 1, updatedAt := now }

end Record
end RhinoQ.Model.Task
