import RhinoQ.Model.TaskSchema.Execution

/-! # The execution commands before migration 016

The four commands that migration 016 replaces, of 015 and 007, with the row trigger `update_execution_counts`,
which writes the counters only; each command moves the version of the task itself. What the commands return is
part of the model. A null id finds no row.
-/

namespace RhinoQ.Model.TaskSchema

/-- The state a text names. -/
def ExecutionState.ofText : String → Option ExecutionState
  | "pending_dispatch" => some .pendingDispatch
  | "dispatched" => some .dispatched
  | "running" => some .running
  | "succeeded" => some .succeeded
  | "failed" => some .failed
  | "stalled" => some .stalled
  | "cancelled" => some .cancelled
  | _ => none

/-- A null state adds to no bucket. -/
def Counts.addTo (counts : Counts) (n : ℤ) : Option ExecutionState → Counts
  | none => counts
  | some state => counts.add n state

/-- The row trigger `update_execution_counts`: `before` is null for an insert. -/
def TaskRow.updateCounts (task : TaskRow) (total : ℤ) (before : Option ExecutionState) (after : ExecutionState) : TaskRow :=
  { task with counts := { ((task.counts.addTo (-1) before).add 1 after) with total := task.counts.total + total } }

/-- A target that is no state. A text that names none is refused. With a null the test for a legal move is null unless no
branch of it matches, and then the update runs into the constraint of the column. -/
def ExecutionRow.moveNowhere (row : ExecutionRow) (target : Option String) : Failure :=
  if target.isSome || row.state.done then
    .raised "RHINOQ_INVALID_EXECUTION_TRANSITION" (row.state.text ++ " -> " ++ target.getD "")
  else .violated "not_null_violation"

namespace Database

section
variable (db : Database) (now : Timestamp) (id : String) (expected : Option ℤ)

namespace Legacy

/-- An insert of one attempt, with the row trigger. -/
def insertExecution (row : ExecutionRow) : Except Failure Database := do
  refuse ((db.executions.lookup id).isSome || db.clashes id row) (.violated "unique_violation")
  let stored := { db with executions := db.executions.insert id row }
  return stored.updateTask row.taskID fun task => task.updateCounts 1 none row.state

/-- An update of one attempt, with the row trigger, which returns early when the state is the same. -/
def updateExecution (before after : ExecutionRow) : Database :=
  let stored := { db with executions := db.executions.insert id after }
  if before.state = after.state then stored
  else stored.updateTask after.taskID fun task => task.updateCounts 0 (some before.state) after.state

/-- A unique violation inside a command whose handler names the id. -/
def orExists (detail : String) (result : Except Failure (ℤ × Database)) : Except Failure (ℤ × Database) :=
  match result with
  | .error (.violated "unique_violation") => .error (.raised "RHINOQ_EXECUTION_ALREADY_EXISTS" detail)
  | other => other

/-- `create_execution` of 015. It returns the number of the attempt. -/
def createExecution (taskID : String) (itemKey runtime runtimeScope externalID : Option String) :
    Except Failure (ℤ × Database) := do
  let request : CreateRequest := { id, taskID, itemKey, runtime, runtimeScope, externalID }
  refuse request.invalid (.raised "RHINOQ_INVALID_EXECUTION")
  let task ← db.task taskID
  let attempt := db.nextAttempt taskID request.item
  orExists id do
    let inserted ← insertExecution db id (request.row now task.tenantID attempt)
    return (attempt, inserted.bumpTask taskID now)

/-- `bind_execution` of 007. It returns the version of the attempt, which an attempt that already
carries the reference and has moved on keeps. -/
def bindExecution (runtime runtimeScope externalID : Option String) : Except Failure (ℤ × Database) := do
  let row ← db.execution id
  refuse (stale row.version expected) (db.executionConflict id expected "bindTaskExecution" row)
  refuse (row.runtime != btrim (runtime.getD "")) (.raised "RHINOQ_INVALID_EXECUTION_BINDING" id)
  refuse (row.externalID.any fun bound => bound != btrim (externalID.getD "") ||
    row.runtimeScope != btrim (runtimeScope.getD ""))
    (.raised "RHINOQ_EXECUTION_ALREADY_BOUND" id)
  if row.state ≠ .pendingDispatch then
    if row.externalID = some (btrim (externalID.getD "")) then return (row.version, db)
    else .error (.raised "RHINOQ_INVALID_EXECUTION_BINDING" id)
  else
    refuse (blank externalID) (.raised "RHINOQ_INVALID_EXECUTION_BINDING" id)
    let after :=
      { row with
        runtimeScope := btrim (runtimeScope.getD ""), externalID := some (btrim (externalID.getD ""))
        state := .dispatched, version := row.version + 1, updatedAt := now }
    refuse (db.clashes id after) (.violated "unique_violation")
    return (after.version, (updateExecution db id row after).bumpTask row.taskID now)

/-- `transition_execution` of 007. It returns the version of the attempt. -/
def transitionExecution (target reason : Option String) : Except Failure (ℤ × Database) := do
  let row ← db.execution id
  match target.bind ExecutionState.ofText with
  | none =>
    refuse (stale row.version expected) (db.executionConflict id expected "transitionTaskExecution" row)
    .error (row.moveNowhere target)
  | some state =>
    if row.state = state then return (row.version, db)
    else
      refuse (stale row.version expected) (db.executionConflict id expected "transitionTaskExecution" row)
      refuse (!row.state.canTransition row.externalID.isSome state)
        (.raised "RHINOQ_INVALID_EXECUTION_TRANSITION" (row.state.text ++ " -> " ++ state.text))
      let after := row.moved now state reason
      return (after.version, (updateExecution db id row after).bumpTask row.taskID now)

/-- `retry_execution` of 015. It returns the number of the new attempt. -/
def retryExecution (newID : String) : Except Failure (ℤ × Database) := do
  refuse (btrim newID == "") (.raised "RHINOQ_INVALID_EXECUTION")
  let row ← db.execution id
  refuse row.supersededAt.isSome (.raised "RHINOQ_EXECUTION_SUPERSEDED" id)
  refuse (stale row.version expected) (db.executionConflict id expected "retryTaskExecution" row)
  refuse (!row.state.finished) (.raised "RHINOQ_INVALID_EXECUTION_TRANSITION" (row.state.text ++ " -> superseded"))
  let superseded := updateExecution db id row (row.superseded now)
  let attempt := superseded.nextAttempt row.taskID row.itemKey
  orExists newID do
    let inserted ← insertExecution superseded newID (row.next now attempt)
    return (attempt, inserted.bumpTask row.taskID now)

end Legacy

/-! ## What the current definitions return -/

/-- `create_execution` returns the number it read before the insert. -/
def createExecutionReturning (taskID : String) (itemKey runtime runtimeScope externalID : Option String) :
    Except Failure (ℤ × Database) := do
  let request : CreateRequest := { id, taskID, itemKey, runtime, runtimeScope, externalID }
  let after ← db.createExecution now id taskID itemKey runtime runtimeScope externalID
  return (db.nextAttempt taskID request.item, after)

/-- `bind_execution` returns the version its update wrote. -/
def bindExecutionReturning (runtime runtimeScope externalID : Option String) : Except Failure (ℤ × Database) := do
  let row ← db.execution id
  let after ← db.bindExecution now id expected runtime runtimeScope externalID
  return (row.version + 1, after)

/-- `transition_execution` returns the version it found or the one its update wrote. -/
def transitionExecutionReturning (target reason : Option String) : Except Failure (ℤ × Database) := do
  let row ← db.execution id
  match target.bind ExecutionState.ofText with
  | none =>
    refuse (stale row.version expected) (db.executionConflict id expected "transitionTaskExecution" row)
    .error (row.moveNowhere target)
  | some state =>
    let after ← db.transitionExecution now id expected state reason
    return (if row.state = state then row.version else row.version + 1, after)

/-- `retry_execution` returns the number it read between its update and its insert. -/
def retryExecutionReturning (newID : String) : Except Failure (ℤ × Database) := do
  let after ← db.retryExecution now id expected newID
  let row ← db.execution id
  return ((db.updateExecution now id row (row.superseded now)).nextAttempt row.taskID row.itemKey, after)

end

end Database

end RhinoQ.Model.TaskSchema
