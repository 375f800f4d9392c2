import RhinoQ.Model.TaskSchema.Task
import Mathlib.Data.List.MinMax
import Mathlib.Data.Prod.Lex
import Mathlib.Data.String.Basic

/-! # Execution commands

The commands that write attempts, in their current definitions, with the statement triggers that keep the
aggregates. An insert, and an update that moves a state, also moves the version of the task.
-/

namespace RhinoQ.Model.TaskSchema

/-- Of all orders of the integers, the one that is computed. -/
local instance attemptOrder : PartialOrder ℤ := Int.instLinearOrder.toPartialOrder

namespace ExecutionState

/-- The transition table of `transition_execution` and `transition_execution_for_owner`. -/
def canTransition (bound : Bool) : ExecutionState → ExecutionState → Bool
  | .pendingDispatch, .cancelled => true
  | .pendingDispatch, .running | .pendingDispatch, .succeeded | .pendingDispatch, .failed
  | .pendingDispatch, .stalled => bound
  | .dispatched, .running | .dispatched, .succeeded | .dispatched, .failed | .dispatched, .stalled
  | .dispatched, .cancelled => true
  | .running, .succeeded | .running, .failed | .running, .stalled | .running, .cancelled => true
  | .stalled, .dispatched | .stalled, .failed | .stalled, .cancelled => true
  | _, _ => false

end ExecutionState

/-- The row after a transition. -/
def ExecutionRow.moved (row : ExecutionRow) (now : Timestamp) (target : ExecutionState) (reason : Option String) :
    ExecutionRow :=
  { row with
    state := target
    failureReason :=
      if target = .failed then (nullIfEmpty (btrim (reason.getD ""))).map (left · 512) else row.failureReason
    version := row.version + 1
    updatedAt := now }

/-- The row of a superseded attempt. -/
def ExecutionRow.superseded (row : ExecutionRow) (now : Timestamp) : ExecutionRow :=
  { row with supersededAt := some now, version := row.version + 1, updatedAt := now }

/-- The row after one more effect was claimed. -/
def ExecutionRow.claimed (row : ExecutionRow) (now : Timestamp) (effectKey : String) : ExecutionRow :=
  { row with effectKeys := row.effectKeys ++ [effectKey], version := row.version + 1, updatedAt := now }

/-- The next attempt of the same item, under the same reference. -/
def ExecutionRow.next (row : ExecutionRow) (now : Timestamp) (attempt : ℤ) : ExecutionRow where
  taskID := row.taskID
  tenantID := row.tenantID
  itemKey := row.itemKey
  attempt
  runtime := row.runtime
  runtimeScope := row.runtimeScope
  externalID := row.externalID
  state := .dispatched
  createdAt := now
  updatedAt := now

/-- What `execution_counts_inserted` writes for one attempt. -/
def TaskRow.countInserted (task : TaskRow) (now : Timestamp) (state : ExecutionState) : TaskRow :=
  { task with
    counts := { task.counts.add 1 state with total := task.counts.total + 1 }
    version := task.version + 1
    updatedAt := now }

/-- What `execution_counts_updated` writes for one attempt that moved. -/
def TaskRow.countMoved (task : TaskRow) (now : Timestamp) (before after : ExecutionState) : TaskRow :=
  { task with counts := (task.counts.add 1 after).add (-1) before, version := task.version + 1, updatedAt := now }

/-- The parameters of `create_execution`. -/
structure CreateRequest where
  id : String
  taskID : String
  itemKey : Option String
  runtime : Option String
  runtimeScope : Option String
  externalID : Option String
  deriving DecidableEq

namespace CreateRequest

variable (request : CreateRequest)

def item : String := btrim (request.itemKey.getD "default")

def invalid : Bool := btrim request.id == "" || blank request.runtime || request.item == ""

/-- The row that is inserted. -/
def row (now : Timestamp) (tenantID : String) (attempt : ℤ) : ExecutionRow where
  taskID := request.taskID
  tenantID
  itemKey := request.item
  attempt
  runtime := btrim (request.runtime.getD "")
  runtimeScope := btrim (request.runtimeScope.getD "")
  externalID := nullIfEmpty (btrim (request.externalID.getD ""))
  state := .pendingDispatch
  createdAt := now
  updatedAt := now

end CreateRequest

namespace Database

/-- The attempts of one item, with their ids. -/
def attemptsOfItem (db : Database) (taskID itemKey : String) : List (String × ExecutionRow) :=
  (db.executions.entries.map fun entry => (entry.1, entry.2)).filter fun entry =>
    entry.2.taskID == taskID && entry.2.itemKey == itemKey

/-- `COALESCE(MAX(attempt), 0) + 1`. -/
def nextAttempt (db : Database) (taskID itemKey : String) : ℤ :=
  ((db.attemptsOfItem taskID itemKey).map (·.2.attempt)).maximum.unbotD 0 + 1

/-- A live attempt that stands for the same work item of a runtime: `executions_runtime_ref_live_unique`. -/
def sharesReference (a b : ExecutionRow) : Bool :=
  a.externalID.isSome && a.live && b.live && a.runtime == b.runtime && a.runtimeScope == b.runtimeScope &&
    a.externalID == b.externalID

/-- The row breaks a unique index when it is stored under `id`. -/
def clashes (db : Database) (id : String) (row : ExecutionRow) : Bool :=
  db.executions.entries.any fun entry => entry.1 != id &&
    ((entry.2.taskID == row.taskID && entry.2.itemKey == row.itemKey && entry.2.attempt == row.attempt) ||
      sharesReference row entry.2)

/-- An insert of one attempt, with `execution_counts_inserted`. -/
def insertExecution (db : Database) (now : Timestamp) (id : String) (row : ExecutionRow) : Except Failure Database := do
  refuse ((db.executions.lookup id).isSome || db.clashes id row) (.violated "unique_violation")
  let stored := { db with executions := db.executions.insert id row }
  return stored.updateTask row.taskID fun task => task.countInserted now row.state

/-- An update of one attempt, with `execution_counts_updated`. -/
def updateExecution (db : Database) (now : Timestamp) (id : String) (before after : ExecutionRow) : Database :=
  let stored := { db with executions := db.executions.insert id after }
  if before.state = after.state then stored
  else stored.updateTask after.taskID fun task => task.countMoved now before.state after.state

section
variable (db : Database) (now : Timestamp) (id : String) (expected : Option ℤ)

def execution : Except Failure ExecutionRow := found (db.executions.lookup id) (.raised "RHINOQ_EXECUTION_NOT_FOUND" id)

/-- The conflict of an execution command, which looks whether the version is that of the task. -/
def executionConflict (operation : String) (row : ExecutionRow) : Failure :=
  let taskVersion := (db.tasks.lookup row.taskID).map (·.version)
  failVersion operation id expected row.version "Execution"
    (if expected.isSome && taskVersion == expected then some "Task" else none)

/-- A unique violation inside a command whose handler names the id. -/
def orExists (detail : String) (result : Except Failure Database) : Except Failure Database :=
  match result with
  | .error (.violated "unique_violation") => .error (.raised "RHINOQ_EXECUTION_ALREADY_EXISTS" detail)
  | other => other

/-- `create_execution`. An item that has attempts gets one more; nothing is superseded. -/
def createExecution (taskID : String) (itemKey runtime runtimeScope externalID : Option String) :
    Except Failure Database := do
  let request : CreateRequest := { id, taskID, itemKey, runtime, runtimeScope, externalID }
  refuse request.invalid (.raised "RHINOQ_INVALID_EXECUTION")
  let task ← db.task taskID
  orExists id (db.insertExecution now id (request.row now task.tenantID (db.nextAttempt taskID request.item)))

/-- `bind_execution`. -/
def bindExecution (runtime runtimeScope externalID : Option String) : Except Failure Database := do
  let row ← db.execution id
  refuse (stale row.version expected) (db.executionConflict id expected "bindTaskExecution" row)
  refuse (row.state != .pendingDispatch || row.runtime != btrim (runtime.getD ""))
    (.raised "RHINOQ_INVALID_EXECUTION_BINDING" id)
  refuse (row.externalID.any fun bound => bound != btrim (externalID.getD "") ||
    row.runtimeScope != btrim (runtimeScope.getD ""))
    (.raised "RHINOQ_EXECUTION_ALREADY_BOUND" id)
  refuse (blank externalID) (.raised "RHINOQ_INVALID_EXECUTION_BINDING" id)
  let after :=
    { row with
      runtimeScope := btrim (runtimeScope.getD ""), externalID := some (btrim (externalID.getD ""))
      state := .dispatched, version := row.version + 1, updatedAt := now }
  refuse (db.clashes id after) (.violated "unique_violation")
  return db.updateExecution now id row after

/-- What both transition commands do with the row they found. Neither reads `superseded_at`. -/
def moveExecution (operation : String) (row : ExecutionRow) (target : ExecutionState) (reason : Option String)
    (finish : Database → Database) : Except Failure Database := do
  if row.state = target then return db
  else
    refuse (stale row.version expected) (db.executionConflict id expected operation row)
    refuse (!row.state.canTransition row.externalID.isSome target)
      (.raised "RHINOQ_INVALID_EXECUTION_TRANSITION" (row.state.text ++ " -> " ++ target.text))
    return finish (db.updateExecution now id row (row.moved now target reason))

/-- `transition_execution`. -/
def transitionExecution (target : ExecutionState) (reason : Option String) : Except Failure Database := do
  let row ← db.execution id
  db.moveExecution now id expected "transitionTaskExecution" row target reason fun after => after

/-- `transition_execution_for_owner`. It still moves the version of the task itself, after the trigger did. -/
def transitionExecutionForOwner (tenantID ownerID : Option String) (target : ExecutionState) (reason : Option String) :
    Except Failure Database := do
  refuse (blank tenantID) (.raised "RHINOQ_INVALID_TENANT" id)
  let row ← db.execution id
  let owned := (db.tasks.lookup row.taskID).any fun task =>
    some task.tenantID == tenantID && task.ownerID.isSome && task.ownerID == ownerID
  refuse (!owned) (.raised "RHINOQ_EXECUTION_NOT_FOUND" id)
  db.moveExecution now id expected "transitionTaskExecutionForOwner" row target reason fun after =>
    after.bumpTask row.taskID now

/-- `attach_execution_result`. -/
def attachExecutionResult (reference : Option String) : Except Failure Database := do
  let reference' := btrim (reference.getD "")
  let row ← db.execution id
  refuse (reference' == "") (.raised "RHINOQ_INVALID_RESULT")
  if row.resultRef = some reference' then return db
  else
    refuse (stale row.version expected) (db.executionConflict id expected "attachTaskExecutionResult" row)
    let after := { row with resultRef := some reference', version := row.version + 1, updatedAt := now }
    return (db.updateExecution now id row after).bumpTask row.taskID now

/-- The item carries the effect, on whichever attempt. -/
def itemCarries (taskID itemKey effectKey : String) : Bool :=
  (db.attemptsOfItem taskID itemKey).any fun entry => entry.2.effectKeys.contains effectKey

/-- `ORDER BY attempt DESC, id DESC LIMIT 1` over the live attempts of an item. -/
def currentAttempt (taskID itemKey : String) : Option (String × ExecutionRow) :=
  ((db.attemptsOfItem taskID itemKey).filter (·.2.live)).argmax fun entry => toLex (entry.2.attempt, entry.1)

/-- `claim_item_effect`. It tells whether the caller has the effect. -/
def claimItemEffect (effectKey : Option String) : Except Failure (Bool × Database) := do
  let effectKey' := btrim (effectKey.getD "")
  refuse (btrim id == "" || effectKey' == "" || decide (256 < effectKey'.length)) (.raised "RHINOQ_INVALID_ITEM_EFFECT")
  let row ← db.execution id
  let _ ← db.task row.taskID
  if db.itemCarries row.taskID row.itemKey effectKey' then return (false, db)
  else
    let (currentID, current) ← found (db.currentAttempt row.taskID row.itemKey) (.raised "RHINOQ_EXECUTION_NOT_FOUND" id)
    refuse (decide (256 ≤ current.effectKeys.length)) (.violated "executions_effect_keys_cardinality_check")
    return (true, db.updateExecution now currentID current (current.claimed now effectKey'))

/-- `retry_execution`: supersede a finished attempt and dispatch the next one. -/
def retryExecution (newID : String) : Except Failure Database := do
  refuse (btrim newID == "") (.raised "RHINOQ_INVALID_EXECUTION")
  let row ← db.execution id
  refuse row.supersededAt.isSome (.raised "RHINOQ_EXECUTION_SUPERSEDED" id)
  refuse (stale row.version expected) (db.executionConflict id expected "retryTaskExecution" row)
  refuse (!row.state.finished) (.raised "RHINOQ_INVALID_EXECUTION_TRANSITION" (row.state.text ++ " -> superseded"))
  let superseded := db.updateExecution now id row (row.superseded now)
  orExists newID (superseded.insertExecution now newID (row.next now (superseded.nextAttempt row.taskID row.itemKey)))

end

end Database

end RhinoQ.Model.TaskSchema
