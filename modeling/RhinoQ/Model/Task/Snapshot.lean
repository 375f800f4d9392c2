import RhinoQ.Model.Task.Record
import RhinoQ.Model.Task.Execution
import Mathlib.Data.List.Sort

/-! # The read contract of a task

What a caller sees of a task: its own fields and one entry for each execution, under the version of
the task as `entityVersion`. The mapping refuses an execution that does not name the task.
-/

namespace RhinoQ.Model.TaskContract

structure Progress where
  completed : ℤ
  total : Option ℤ
  message : String
  deriving DecidableEq

structure Execution where
  id : String
  attempt : ℕ
  runtime : String
  state : String
  version : ℤ
  hasResult : Bool
  failureReason : String
  traceID : String
  deriving DecidableEq

structure Snapshot where
  schemaVersion : ℤ
  entityVersion : ℤ
  id : String
  type : String
  ownerID : String
  state : String
  cancellation : Task.CancellationStatus
  cancellationReason : String
  progress : Progress
  hasResult : Bool
  executions : List Execution
  createdAt : Time
  updatedAt : Time
  deriving DecidableEq

structure Result where
  schemaVersion : ℤ
  entityVersion : ℤ
  taskID : String
  reference : String
  updatedAt : Time
  deriving DecidableEq

def snapshotSchemaVersion : ℤ := 1

def resultSchemaVersion : ℤ := 1

def errInvalidSnapshot : String := "invalid task snapshot"

def errInvalidResult : String := "invalid task result"

def Execution.valid (e : Execution) : Bool :=
  e.id != "" && decide (e.attempt > 0) && e.runtime != "" && e.state != "" && decide (e.version > 0)

def Snapshot.validate (s : Snapshot) : Except String Unit :=
  if s.schemaVersion ≠ snapshotSchemaVersion ∨ s.entityVersion ≤ 0 ∨ s.id = "" ∨ s.type = "" ∨ s.state = "" ∨
      !s.cancellation.valid ∨ s.createdAt.isZero ∨ s.updatedAt.isZero ∨ s.progress.completed < 0 then
    .error errInvalidSnapshot
  else if s.progress.total.any (· < s.progress.completed) then .error errInvalidSnapshot
  else if !s.executions.all (·.valid) then .error errInvalidSnapshot
  else .ok ()

def Result.validate (r : Result) : Except String Unit :=
  if r.schemaVersion ≠ resultSchemaVersion ∨ r.entityVersion ≤ 0 ∨ r.taskID = "" ∨ r.reference = "" ∨
      r.updatedAt.isZero then
    .error errInvalidResult
  else .ok ()

/-- The mapping of one execution. -/
def ofExecution (attempt : Model.Execution.Record) : Execution :=
  { id := attempt.id, attempt := attempt.attempt, runtime := attempt.runtime, state := attempt.state.text
    version := attempt.version, hasResult := attempt.resultRef != "", failureReason := attempt.failureReason
    traceID := attempt.trace.traceID }

variable (record : Task.Record)

/-- The executions a snapshot of `record` may list. -/
def mappable (attempt : Model.Execution.Record) : Bool :=
  attempt.taskID == record.id && attempt.id != "" && decide (attempt.attempt > 0) && attempt.state.valid &&
    decide (attempt.version > 0)

instance : DecidableRel fun a b : Execution => a.attempt ≤ b.attempt := fun _ _ => inferInstanceAs (Decidable (_ ≤ _))

/-- The fields of a snapshot, before its validation. -/
def render (attempts : List Model.Execution.Record) : Snapshot :=
  { schemaVersion := snapshotSchemaVersion, entityVersion := record.version, id := record.id, type := record.type
    ownerID := record.ownerID, state := record.state.text, cancellation := record.cancellationStatus
    cancellationReason := record.cancellationReason
    progress :=
      { completed := record.progress.completed, message := record.progress.message
        total := if record.progress.hasTotal then some record.progress.total else none }
    hasResult := record.resultRef != ""
    executions := (attempts.map ofExecution).insertionSort fun a b => a.attempt ≤ b.attempt
    createdAt := record.createdAt, updatedAt := record.updatedAt }

def newSnapshot (attempts : List Model.Execution.Record) : Except String Snapshot :=
  if record.id = "" ∨ !record.state.valid ∨ record.version ≤ 0 ∨ record.createdAt.isZero ∨ record.updatedAt.isZero then
    .error errInvalidSnapshot
  else if !attempts.all (mappable record) then .error errInvalidSnapshot
  else
    match (render record attempts).validate with
    | .error text => .error text
    | .ok () => .ok (render record attempts)

def newResult : Except String Result :=
  let result : Result :=
    { schemaVersion := resultSchemaVersion, entityVersion := record.version, taskID := record.id
      reference := record.resultRef, updatedAt := record.updatedAt }
  match result.validate with
  | .error text => .error text
  | .ok () => .ok result

end RhinoQ.Model.TaskContract
