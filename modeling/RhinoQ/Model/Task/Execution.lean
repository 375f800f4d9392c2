import RhinoQ.Model.Task.Trace

/-! # Executions

One attempt to run a task. A retry makes a new execution; an ended one is never reopened. A state outside the
constants of the source is `other`, and a missing map entry reads as the zero record.
-/

namespace RhinoQ.Model.Execution

open Text

abbrev ID := String

inductive State
  | pendingDispatch | dispatched | running | succeeded | failed | stalled | cancelled
  | other (text : String)
  deriving DecidableEq

namespace State

def text : State → String
  | .pendingDispatch => "pending_dispatch"
  | .dispatched => "dispatched"
  | .running => "running"
  | .succeeded => "succeeded"
  | .failed => "failed"
  | .stalled => "stalled"
  | .cancelled => "cancelled"
  | .other text => text

def valid : State → Bool
  | .other _ => false
  | _ => true

def canTransition : State → State → Bool
  | .pendingDispatch, .dispatched | .pendingDispatch, .cancelled => true
  | .dispatched, .running | .dispatched, .failed | .dispatched, .stalled | .dispatched, .cancelled => true
  | .running, .succeeded | .running, .failed | .running, .stalled | .running, .cancelled => true
  | .stalled, .dispatched | .stalled, .failed | .stalled, .cancelled => true
  | _, _ => false

def transition (source target : State) : Except String State :=
  if !source.valid || !target.valid || !canTransition source target then
    .error ("invalid execution transition: " ++ source.text ++ " -> " ++ target.text)
  else .ok target

end State

def runtimeNative : String := "native"

def maxFailureReasonLength : ℕ := 512

def errInvalidRecord : String := "invalid execution record"

def errInvalidReference : String := "invalid execution runtime reference"

def errAlreadyBound : String := "execution runtime reference is already bound"

def errInvalidResult : String := "invalid execution result reference"

/-- The work item of a runtime that an execution stands for. -/
structure RuntimeReference where
  runtime : String := ""
  jobID : String := ""
  externalID : String := ""
  deriving DecidableEq

namespace RuntimeReference

def empty (r : RuntimeReference) : Bool := trimSpace r.jobID == "" && trimSpace r.externalID == ""

/-- A native reference names a job; any other names the runtime's own identifier. -/
def valid (r : RuntimeReference) : Bool :=
  let runtime := trimSpace r.runtime
  let jobID := trimSpace r.jobID
  let externalID := trimSpace r.externalID
  if runtime = "" then false
  else if runtime = runtimeNative then jobID != "" && externalID == ""
  else externalID != "" && jobID == ""

end RuntimeReference

structure Record where
  id : ID := ""
  taskID : String := ""
  attempt : ℕ := 0
  runtime : String := ""
  resultRef : String := ""
  failureReason : String := ""
  reference : RuntimeReference := {}
  trace : Correlation.TraceContext := {}
  state : State := .other ""
  version : ℤ := 0
  createdAt : Time := 0
  updatedAt : Time := 0
  deriving DecidableEq

structure Spec where
  id : ID
  taskID : String
  attempt : ℕ
  runtime : String
  trace : Correlation.TraceContext := {}
  now : Time

/-- A new execution. The task identifier is stored without surrounding space. -/
def newRecord (spec : Spec) : Except String Record :=
  let runtime := trimSpace spec.runtime
  if spec.id = "" ∨ trimSpace spec.taskID = "" ∨ spec.attempt ≤ 0 ∨ runtime = "" ∨ spec.now.isZero then
    .error errInvalidRecord
  else
    let trace := spec.trace.normalize.toOption.getD {}
    .ok { id := spec.id, taskID := trimSpace spec.taskID, attempt := spec.attempt, runtime, trace
          state := .pendingDispatch, version := 1, createdAt := spec.now, updatedAt := spec.now }

/-- At most `limit` characters, with an ellipsis in place of the rest. -/
def truncate (value : String) (limit : ℕ) : String :=
  let runes := value.toList
  if runes.length ≤ limit then value else String.ofList (runes.take limit) ++ "…"

namespace Record

variable (r : Record)

def validate (now : Time) : Except String Unit :=
  if r.id = "" ∨ trimSpace r.taskID = "" ∨ r.attempt ≤ 0 ∨ trimSpace r.runtime = "" ∨ !r.state.valid ∨
      r.version ≤ 0 ∨ r.createdAt.isZero ∨ r.updatedAt.isZero ∨ now.isZero then
    .error (errInvalidRecord ++ ": malformed record")
  else if !r.reference.empty ∧ (r.reference.runtime ≠ r.runtime ∨ !r.reference.valid) then
    .error (errInvalidRecord ++ ": malformed runtime reference")
  else if r.trace.zero then .ok ()
  else
    match r.trace.normalize with
    | .error text => .error (errInvalidRecord ++ ": malformed trace context: " ++ text)
    | .ok _ => .ok ()

def bind (reference : RuntimeReference) (now : Time) : Except String Record :=
  match r.validate now with
  | .error text => .error text
  | .ok () =>
    if !r.reference.empty ∨ r.state ≠ .pendingDispatch then .error errAlreadyBound
    else
      let reference : RuntimeReference :=
        { runtime := trimSpace reference.runtime, jobID := trimSpace reference.jobID
          externalID := trimSpace reference.externalID }
      if reference.runtime ≠ r.runtime ∨ !reference.valid then .error errInvalidReference
      else .ok { r with reference, state := .dispatched, version := r.version + 1, updatedAt := now }

def transition (r : Record) (target : State) (now : Time) : Except String Record :=
  match r.validate now with
  | .error text => .error text
  | .ok () =>
    match State.transition r.state target with
    | .error text => .error text
    | .ok next =>
      if next ≠ .pendingDispatch ∧ next ≠ .cancelled ∧ !r.reference.valid then .error errInvalidReference
      else .ok { r with state := next, version := r.version + 1, updatedAt := now }

def attachResult (resultRef : String) (now : Time) : Except String Record :=
  match r.validate now with
  | .error text => .error text
  | .ok () =>
    let reference := trimSpace resultRef
    if reference = "" then .error errInvalidResult
    else if reference = r.resultRef then .ok r
    else .ok { r with resultRef := reference, version := r.version + 1, updatedAt := now }

def fail (reason : String) (now : Time) : Except String Record :=
  match r.transition .failed now with
  | .error text => .error text
  | .ok next => .ok { next with failureReason := truncate (trimSpace reason) maxFailureReasonLength }

end Record
end RhinoQ.Model.Execution
