import RhinoQ.Model.TaskSchema.Tables

/-! # Task commands

The commands that write the row of one task. A version that a caller expects is compared as SQL
compares it: a null expectation is never a conflict.
-/

namespace RhinoQ.Model.TaskSchema

/-- `current <> expected`, null and so not true when nothing is expected. -/
def stale (current : ℤ) (expected : Option ℤ) : Bool := expected.any (· != current)

/-- `fail_version`. The hint names the entity whose version was passed by mistake. -/
def failVersion (operation id : String) (expected : Option ℤ) (current : ℤ) (scope : String) (hint : Option String := none) :
    Failure :=
  let expectedText := toString (expected.getD 0)
  match hint with
  | some wrong =>
    .raised "RHINOQ_WRONG_VERSION_SCOPE"
      (operation ++ "(" ++ id ++ "): expected version " ++ expectedText ++ " is the current " ++ wrong ++
        " version, not the " ++ scope ++ " version " ++ toString current ++ ". " ++
        "An Execution command fences on TaskExecution.version; only a Task command " ++
        "fences on TaskSnapshot.entityVersion.")
  | none =>
    .raised "RHINOQ_VERSION_CONFLICT"
      (operation ++ "(" ++ id ++ "): expected " ++ scope ++ " version " ++ expectedText ++ ", current version " ++
        toString current ++ ". Re-read the entity and retry the command with the version it returned.")

namespace TaskState

/-- The transition table of `transition_task`. -/
def canTransition : TaskState → TaskState → Bool
  | .pending, .queued => true
  | .queued, .running | .queued, .cancelRequested => true
  | .running, .uncertain | .running, .succeeded | .running, .failed | .running, .cancelRequested => true
  | .uncertain, .succeeded | .uncertain, .failed => true
  | .cancelRequested, .uncertain | .cancelRequested, .succeeded | .cancelRequested, .failed
  | .cancelRequested, .cancelled => true
  | .failed, .queued | .cancelled, .queued => true
  | _, _ => false

/-- A failed or cancelled task that is queued again. -/
def requeues (source target : TaskState) : Bool :=
  target == .queued && (source == .failed || source == .cancelled)

end TaskState

/-- The cancellation status after a transition. -/
def CancellationStatus.afterTransition (status : CancellationStatus) (source target : TaskState) : CancellationStatus :=
  if TaskState.requeues source target then .absent
  else if target = .cancelRequested ∧ status = .absent then .requested
  else if source = .cancelRequested ∧ target = .cancelled then .cancelled
  else if source = .cancelRequested ∧ target = .succeeded then .tooLate
  else if source = .cancelRequested ∧ target = .failed then .failed
  else status

namespace Database

section
variable (db : Database) (now : Timestamp) (id : String) (expected : Option ℤ)

/-- `SELECT * INTO v_task ... WHERE id = p_id FOR UPDATE`. -/
def task : Except Failure TaskRow := found (db.tasks.lookup id) (.raised "RHINOQ_TASK_NOT_FOUND" id)

/-- An update of the task that moves its version. -/
def writeTask (row : TaskRow) : Database :=
  { db with tasks := db.tasks.insert id { row with version := row.version + 1, updatedAt := now } }

/-- `create_task`. It tells whether the task was there already. -/
def createTask (type tenantID : String) (ownerID : Option String) (definitionVersion : ℤ) :
    Except Failure (Bool × Database) := do
  refuse (btrim tenantID == "") (.raised "RHINOQ_INVALID_TENANT")
  refuse (btrim type == "" || decide (definitionVersion ≤ 0)) (.violated "tasks_check")
  match db.tasks.lookup id with
  | none =>
    let row : TaskRow := { type, tenantID, ownerID, definitionVersion, createdAt := now, updatedAt := now }
    return (false, { db with tasks := db.tasks.insert id row })
  | some row =>
    refuse (row.type != type || row.tenantID != tenantID || row.ownerID != ownerID ||
      row.definitionVersion != definitionVersion) (.raised "RHINOQ_TASK_CONFLICT" id)
    return (true, db)

/-- `transition_task`. -/
def transitionTask (target : TaskState) : Except Failure Database := do
  let row ← db.task id
  refuse (stale row.version expected) (failVersion "transitionTask" id expected row.version "Task")
  refuse (!row.state.canTransition target)
    (.raised "RHINOQ_INVALID_TASK_TRANSITION" (row.state.text ++ " -> " ++ target.text))
  return db.writeTask now id
    { row with
      state := target
      cancellationStatus := row.cancellationStatus.afterTransition row.state target
      cancellationReason := if row.state.requeues target then none else row.cancellationReason }

/-- The detail of `RHINOQ_PROGRESS_STATE`. -/
def progressStateDetail (state : TaskState) : String :=
  "reportTaskProgress(" ++ id ++ "): cannot report progress while the task is '" ++ state.text ++
    "'. Progress is accepted only while a task is 'running' or 'cancel_requested'. Move the task to 'running' first — " ++
    "a freshly created task goes pending -> queued -> running via transitionTask — then report progress."

/-- `report_progress`. The same report again changes nothing, even with a stale version. -/
def reportProgress (completed : ℤ) (total : Option ℤ) (hasTotal : Bool) (message : Option String) :
    Except Failure Database := do
  let total' := if hasTotal then total else none
  let message' := nullIfEmpty (message.getD "")
  let row ← db.task id
  refuse (row.state != .running && row.state != .cancelRequested)
    (.raised "RHINOQ_PROGRESS_STATE" (progressStateDetail id row.state))
  refuse (decide (completed < 0) || total'.any fun t => decide (t < 0) || decide (t < completed))
    (.raised "RHINOQ_INVALID_PROGRESS")
  if row.progressCompleted = completed ∧ row.progressTotal = total' ∧ row.progressMessage = message' then
    return db
  else
    refuse (stale row.version expected) (failVersion "reportTaskProgress" id expected row.version "Task")
    refuse (decide (completed < row.progressCompleted)) (.raised "RHINOQ_PROGRESS_REGRESSION" id)
    refuse (row.progressTotal.isSome && row.progressTotal != total') (.raised "RHINOQ_PROGRESS_TOTAL_CHANGED" id)
    return db.writeTask now id
      { row with progressCompleted := completed, progressTotal := total', progressMessage := message' }

/-- `request_cancellation`. -/
def requestCancellation : Except Failure Database := do
  let row ← db.task id
  if row.state = .cancelRequested then return db
  else
    refuse (stale row.version expected) (failVersion "requestTaskCancellation" id expected row.version "Task")
    refuse (row.state != .queued && row.state != .running) (.raised "RHINOQ_INVALID_TASK_TRANSITION" row.state.text)
    return db.writeTask now id { row with state := .cancelRequested, cancellationStatus := .requested }

/-- `resolve_cancellation`. -/
def resolveCancellation (status : CancellationStatus) (reason : Option String) : Except Failure Database := do
  let row ← db.task id
  refuse (stale row.version expected) (failVersion "resolveTaskCancellation" id expected row.version "Task")
  refuse (row.state != .cancelRequested ||
      (status != .acknowledged && status != .cannotCancelSafely && status != .failed))
    (.raised "RHINOQ_INVALID_CANCELLATION" status.text)
  return db.writeTask now id
    { row with cancellationStatus := status, cancellationReason := nullIfEmpty (btrim (reason.getD "")) }

/-- `attach_task_result`. -/
def attachTaskResult (reference : Option String) : Except Failure Database := do
  let reference' := btrim (reference.getD "")
  let row ← db.task id
  refuse (reference' == "") (.raised "RHINOQ_INVALID_RESULT")
  if row.resultRef = some reference' then return db
  else
    refuse (stale row.version expected) (failVersion "attachTaskResult" id expected row.version "Task")
    return db.writeTask now id { row with resultRef := some reference' }

/-- The attempts of a task that are not superseded. -/
def liveExecutions : List ExecutionRow :=
  (FiniteMap.values db.executions).filter fun row => row.taskID == id && row.live

/-- `settle_items`. The version does not move. -/
def settleItems : Bool × Database :=
  match db.tasks.lookup id with
  | none => (false, db)
  | some row =>
    let live := db.liveExecutions id
    if row.itemsSettledAt.isNone && !live.isEmpty && live.all (·.state.done) then
      (true, { db with tasks := db.tasks.insert id { row with itemsSettledAt := some now, updatedAt := now } })
    else (false, db)

/-- `sync_item_progress`. -/
def syncItemProgress : Except Failure Database := do
  let row ← db.task id
  if row.state ≠ .running ∧ row.state ≠ .cancelRequested then return db
  else
    let live := db.liveExecutions id
    let completed : ℤ := live.countP (·.state.done)
    let total : ℤ := live.length
    if total = 0 ∨ completed < row.progressCompleted ∨
        (row.progressCompleted = completed ∧ row.progressTotal = some total) then return db
    else return db.writeTask now id { row with progressCompleted := completed, progressTotal := some total }

end

end Database

end RhinoQ.Model.TaskSchema
