import RhinoQ.ToMathlib.FiniteMap
import RhinoQ.Model.Task.Record
import RhinoQ.Model.Task.Execution
import RhinoQ.Model.Task.Waitpoint
import Mathlib.Data.List.Sort

/-! # The memory task store

Tasks, executions and waitpoints under one lock. A task is overwritten under a version check. Every write of
an execution or a waitpoint also gives the stored task a version and, for executions, moves the counters. A
missing map entry reads as the zero record.
-/

namespace RhinoQ.Model

inductive TaskError
  | message (text : String)
  | taskNotFound
  | executionNotFound
  | waitpointNotFound
  | waitpointConflict
  | versionConflict
  | alreadyExists (detail : String)
  deriving DecidableEq

/-- The digest of a retry or a resolution, and the check of its JSON payload. -/
structure Task.Codec where
  digest : List UInt8 → String
  jsonValid : List UInt8 → Bool

structure TaskRetryInput where
  commandID : String
  taskID : Task.ID
  expectedVersion : ℤ
  executionID : Execution.ID
  runtime : String
  queue : String
  jobName : String
  payload : List UInt8
  trace : Correlation.TraceContext := {}
  now : Time
  deriving DecidableEq

structure TaskRetryResult where
  task : Task.Record := {}
  execution : Execution.Record := {}
  replayed : Bool := false

structure ExecutionCreateInput where
  id : Execution.ID
  taskID : String
  runtime : String
  trace : Correlation.TraceContext := {}
  now : Time

structure TaskStore where
  tasks : FiniteMap Task.ID Task.Record := ∅
  executions : FiniteMap Execution.ID Execution.Record := ∅
  attempts : FiniteMap String (FiniteMap ℕ Execution.ID) := ∅
  retries : FiniteMap String TaskRetryResult := ∅
  retryFingerprints : FiniteMap String String := ∅
  waitpoints : FiniteMap Waitpoint.ID Waitpoint.Record := ∅
  waitpointKeys : FiniteMap String Waitpoint.ID := ∅

/-- The parent of a child write: one version on, and no earlier than the write. -/
def Task.Record.touch (parent : Task.Record) (now : Time) : Task.Record :=
  { parent with version := parent.version + 1, updatedAt := if now > parent.updatedAt then now else parent.updatedAt }

/-- Move the counter of one state. -/
def Task.ExecutionCounts.adjust (counts : Task.ExecutionCounts) (state : Execution.State) (delta : ℤ) :
    Task.ExecutionCounts :=
  match state with
  | .pendingDispatch => { counts with pendingDispatch := counts.pendingDispatch + delta }
  | .dispatched => { counts with dispatched := counts.dispatched + delta }
  | .running => { counts with running := counts.running + delta }
  | .succeeded => { counts with succeeded := counts.succeeded + delta }
  | .failed => { counts with failed := counts.failed + delta }
  | .stalled => { counts with stalled := counts.stalled + delta }
  | .cancelled => { counts with cancelled := counts.cancelled + delta }
  | .other _ => counts

/-- A new execution in the counters of its task. -/
def Task.Record.addExecution (parent : Task.Record) : Task.Record :=
  { parent with
    executionCounts := { parent.executionCounts with
      total := parent.executionCounts.total + 1
      pendingDispatch := parent.executionCounts.pendingDispatch + 1 } }

/-- A change of an execution in the counters of its task. -/
def Task.Record.moveExecution (parent : Task.Record) (source target : Execution.State) : Task.Record :=
  if source ≠ target then
    { parent with executionCounts := (parent.executionCounts.adjust source (-1)).adjust target 1 }
  else parent

namespace TaskStore

variable (s : TaskStore)

def task (id : Task.ID) : Task.Record := (s.tasks.lookup id).getD {}

def byAttempt (taskID : String) : FiniteMap ℕ Execution.ID := (s.attempts.lookup taskID).getD ∅

/-- One past the highest attempt, and 1 without any. -/
def nextAttempt (byAttempt : FiniteMap ℕ Execution.ID) : ℕ :=
  byAttempt.keys.foldl (fun attempt number => if number ≥ attempt then number + 1 else attempt) 1

def createTask (record : Task.Record) : Except TaskError Task.Record × TaskStore :=
  if record.id = "" ∨ record.version ≠ 1 then (.error (.message Task.errInvalidRecord), s)
  else
    match s.tasks.lookup record.id with
    | some _ => (.error (.alreadyExists ("task " ++ record.id)), s)
    | none => (.ok record, { s with tasks := s.tasks.insert record.id record })

def getTask (id : Task.ID) : Option Task.Record := s.tasks.lookup id

/-- Replace the whole record over the version the caller read. -/
def updateTask (record : Task.Record) (expectedVersion : ℤ) : Except TaskError Task.Record × TaskStore :=
  match s.tasks.lookup record.id with
  | none => (.error .taskNotFound, s)
  | some current =>
    if current.version ≠ expectedVersion ∨ record.version ≠ expectedVersion + 1 then (.error .versionConflict, s)
    else (.ok record, { s with tasks := s.tasks.insert record.id record })

/-- Store a new execution of the task under its attempt, with the task it leaves. -/
def addExecution (taskID : Task.ID) (parent : Task.Record) (record : Execution.Record) : TaskStore :=
  { s with
    tasks := s.tasks.insert taskID parent
    executions := s.executions.insert record.id record
    attempts := s.attempts.insert taskID ((s.byAttempt taskID).insert record.attempt record.id) }

def createNextExecution (input : ExecutionCreateInput) : Except TaskError (Execution.Record × ℤ) × TaskStore :=
  match s.tasks.lookup input.taskID with
  | none => (.error .taskNotFound, s)
  | some parent =>
    match s.executions.lookup input.id with
    | some _ => (.error (.alreadyExists ("execution " ++ input.id)), s)
    | none =>
      match Execution.newRecord
          { id := input.id, taskID := input.taskID, attempt := nextAttempt (s.byAttempt input.taskID)
            runtime := input.runtime, trace := input.trace, now := input.now } with
      | .error text => (.error (.message text), s)
      | .ok record =>
        let parent := parent.addExecution.touch input.now
        (.ok (record, parent.version), s.addExecution input.taskID parent record)

def getExecution (id : Execution.ID) : Option Execution.Record := s.executions.lookup id

/-- The first execution under the reference, in the order in which the map happens to be walked. -/
def findExecutionByExternalReference (walk : List Execution.Record) (runtime externalID : String) :
    Option Execution.Record :=
  walk.find? fun record => record.runtime = runtime ∧ record.reference.externalID = externalID

def updateExecution (record : Execution.Record) (expectedVersion : ℤ) :
    Except TaskError (Execution.Record × ℤ) × TaskStore :=
  match s.executions.lookup record.id with
  | none => (.error .executionNotFound, s)
  | some current =>
    if current.version ≠ expectedVersion ∨ record.version ≠ expectedVersion + 1 then (.error .versionConflict, s)
    else if current.taskID ≠ record.taskID ∨ current.attempt ≠ record.attempt then
      (.error (.message Execution.errInvalidRecord), s)
    else
      match s.tasks.lookup record.taskID with
      | none => (.error .taskNotFound, s)
      | some parent =>
        let parent := (parent.moveExecution current.state record.state).touch record.updatedAt
        (.ok (record, parent.version),
          { s with
            tasks := s.tasks.insert record.taskID parent
            executions := s.executions.insert record.id record })

/-- Executions in the order of their attempts. -/
def attemptOrder (a b : Execution.Record) : Prop := a.attempt < b.attempt ∨ a.attempt = b.attempt ∧ a.id ≤ b.id

instance : DecidableRel attemptOrder := fun _ _ => inferInstanceAs (Decidable (_ ∨ _))

def listTaskExecutions (taskID : String) : List Execution.Record :=
  ((FiniteMap.values (s.byAttempt taskID)).map fun id => (s.executions.lookup id).getD {}).insertionSort attemptOrder

/-- What identifies a repeated retry command. -/
def retryFingerprint (codec : Task.Codec) (input : TaskRetryInput) : String :=
  codec.digest ((input.runtime ++ "\x00" ++ input.queue ++ "\x00" ++ input.jobName ++ "\x00").toUTF8.toList ++
    input.payload)

def retryTask (codec : Task.Codec) (s : TaskStore) (input : TaskRetryInput) : Except TaskError TaskRetryResult × TaskStore :=
  if input.commandID = "" ∨ input.taskID = "" ∨ input.executionID = "" ∨ input.runtime = "" ∨ input.queue = "" ∨
      input.jobName = "" ∨ input.payload = [] ∨ !codec.jsonValid input.payload ∨ input.expectedVersion ≤ 0 ∨
      input.now.isZero then
    (.error (.message "valid retry input is required"), s)
  else
    let fingerprint := retryFingerprint codec input
    match s.retries.lookup input.commandID with
    | some prior =>
      if prior.task.id ≠ input.taskID ∨ prior.execution.id ≠ input.executionID ∨
          s.retryFingerprints.lookup input.commandID ≠ some fingerprint then
        (.error (.alreadyExists "retry command identity reused with different input"), s)
      else (.ok { prior with replayed := true }, s)
    | none =>
      match s.tasks.lookup input.taskID with
      | none => (.error .taskNotFound, s)
      | some parent =>
        if parent.version ≠ input.expectedVersion then (.error .versionConflict, s)
        else
          match parent.transition .queued input.now with
          | .error text => (.error (.message text), s)
          | .ok next =>
            match s.executions.lookup input.executionID with
            | some _ => (.error (.alreadyExists ""), s)
            | none =>
              match Execution.newRecord
                  { id := input.executionID, taskID := input.taskID
                    attempt := nextAttempt (s.byAttempt input.taskID), runtime := input.runtime
                    trace := input.trace, now := input.now } with
              | .error text => (.error (.message text), s)
              | .ok record =>
                let result : TaskRetryResult := { task := next.addExecution, execution := record }
                let t := s.addExecution input.taskID next.addExecution record
                (.ok result, { t with
                  retries := t.retries.insert input.commandID result
                  retryFingerprints := t.retryFingerprints.insert input.commandID fingerprint })

def waitpointKey (taskID key : String) : String := taskID ++ "\x00" ++ key

variable (record : Waitpoint.Record)

/-- Store a waitpoint and touch its task. -/
def saveWaitpoint : TaskStore :=
  let parent := (s.task record.taskID).touch record.updatedAt
  { s with waitpoints := s.waitpoints.insert record.id record, tasks := s.tasks.insert parent.id parent }

def createWaitpoint : Except TaskError (Waitpoint.Record × Bool) × TaskStore :=
  match s.tasks.lookup record.taskID with
  | none => (.error .taskNotFound, s)
  | some _ =>
    match s.waitpointKeys.lookup (waitpointKey record.taskID record.key) with
    | some id =>
      let prior := (s.waitpoints.lookup id).getD {}
      if prior.id ≠ record.id ∨ prior.kind ≠ record.kind ∨ prior.schemaVersion ≠ record.schemaVersion ∨
          prior.deadline ≠ record.deadline then
        (.error .waitpointConflict, s)
      else (.ok (prior, true), s)
    | none =>
      match s.waitpoints.lookup record.id with
      | some _ => (.error (.alreadyExists ""), s)
      | none =>
        let keys := s.waitpointKeys.insert (waitpointKey record.taskID record.key) record.id
        (.ok (record, false), { s.saveWaitpoint record with waitpointKeys := keys })

def getWaitpoint (id : Waitpoint.ID) : Option Waitpoint.Record := s.waitpoints.lookup id

/-- Replace a waitpoint over the version the caller read; a repeat of the stored outcome writes nothing. -/
def updateWaitpoint (expectedVersion : ℤ) :
    Except TaskError Waitpoint.Record × TaskStore :=
  match s.waitpoints.lookup record.id with
  | none => (.error .waitpointNotFound, s)
  | some current =>
    if record.version = expectedVersion ∧ current.id = record.id ∧ current.state = record.state ∧
        current.resolutionID = record.resolutionID ∧ current.resolutionHash = record.resolutionHash ∧
        current.resolution = record.resolution then
      (.ok current, s)
    else if current.version ≠ expectedVersion ∨ record.version ≠ expectedVersion + 1 then
      (.error .versionConflict, s)
    else (.ok record, s.saveWaitpoint record)

def deadlineOrder (a b : Waitpoint.Record) : Prop := a.deadline < b.deadline ∨ a.deadline = b.deadline ∧ a.id ≤ b.id

instance : DecidableRel deadlineOrder := fun _ _ => inferInstanceAs (Decidable (_ ∨ _))

def listDueWaitpoints (now : Time) (limit : ℤ) : Except TaskError (List Waitpoint.Record) :=
  if now.isZero ∨ limit ≤ 0 then .error (.message "time and positive limit are required")
  else
    let due := (FiniteMap.values s.waitpoints).filter fun w =>
      w.state == .waiting && !w.deadline.isZero && !decide (now < w.deadline)
    .ok ((due.insertionSort deadlineOrder).take limit.toNat)

end TaskStore
end RhinoQ.Model
