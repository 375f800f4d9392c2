import RhinoQ.Model.TaskSchema.Task
import Mathlib.Data.List.MinMax

/-! # Durable steps

A step is acquired under a lease, attempt after attempt, until one completes or cancels it. All five commands lock the
row of the step first, so each is one transition; the clock is read before and may lie behind. When it acquires a step
again, `acquire_durable_step` names `id` and `version`, which are also columns that it returns. They are read as the
columns of the tables, as under `variable_conflict = use_column`; under the default, that call raises 42702.
-/

namespace RhinoQ.Model.TaskSchema

/-- Of all orders of the integers, the one that is computed. -/
local instance stepOrder : PartialOrder ℤ := Int.instLinearOrder.toPartialOrder

/-- The parameters of `acquire_durable_step`. -/
structure AcquireRequest where
  id : Option String
  taskID : Option String
  executionID : Option String
  itemKey : Option String
  taskVersion : Option ℤ
  stepKey : Option String
  stepVersion : Option ℤ
  leaseOwner : Option String
  leaseMs : Option ℤ
  maxAttempts : Option ℤ
  deriving DecidableEq

/-- The lease that a worker presents. -/
structure StepLease where
  stepID : Option String
  attemptID : Option String
  owner : Option String
  epoch : Option ℤ
  deriving DecidableEq

/-- What `acquire_durable_step` returns. -/
inductive Acquired
  | reused (stepID : String) (step : StepRow)
  | acquired (stepID : String) (step : StepRow) (attemptID : String) (attempt : AttemptRow)

/-- The value is null or out of its range. -/
def outside (low high : ℤ) (value : Option ℤ) : Bool := value.all fun n => decide (n < low) || decide (high < n)

namespace AcquireRequest

variable (request : AcquireRequest)

def item : String := btrim (request.itemKey.getD "default")

def key : String := btrim (request.stepKey.getD "")

def invalid : Bool :=
  blank request.id || blank request.taskID || blank request.executionID || request.item == "" || request.key == "" ||
    decide (256 < request.item.length) || decide (256 < request.key.length) || request.taskVersion.all (· < 1) ||
    request.stepVersion.all (· < 1) || blank request.leaseOwner || outside 1000 3600000 request.leaseMs ||
    outside 1 100 request.maxAttempts

end AcquireRequest

namespace StepLease

/-- The parameters that every settlement checks. -/
def invalid (lease : StepLease) : Bool :=
  blank lease.stepID || blank lease.attemptID || blank lease.owner || lease.epoch.all (· < 1)

/-- The attempt was granted to the presenter of the lease. -/
def presents (lease : StepLease) (attempt : AttemptRow) : Bool :=
  attempt.leaseOwner == btrim (lease.owner.getD "") && some attempt.leaseEpoch == lease.epoch

end StepLease

/-- `step_id || ':attempt:' || number`. -/
def attemptID (stepID : String) (number : ℤ) : String := stepID ++ ":attempt:" ++ toString number

/-- The text of a timestamp in a message. -/
def timestampText (t : Timestamp) : String := toString t

namespace Database

variable (db : Database)

/-- The step of an item, by its key. -/
def stepOf (taskID itemKey stepKey : String) : Option (String × StepRow) :=
  (db.steps.entries.find? fun entry =>
    entry.2.taskID == taskID && entry.2.itemKey == itemKey && entry.2.stepKey == stepKey).map fun entry => (entry.1, entry.2)

/-- The attempts of a step, with their ids. -/
def attemptsOf (stepID : String) : List (String × AttemptRow) :=
  (db.attempts.entries.map fun entry => (entry.1, entry.2)).filter fun entry => entry.2.stepID == stepID

/-- `ORDER BY attempt DESC LIMIT 1`. -/
def latestAttempt (stepID : String) : Option (String × AttemptRow) :=
  (db.attemptsOf stepID).argmax fun entry => entry.2.attempt

/-- The unique indexes of `durable_step_attempts` allow the row. -/
def attemptTaken (id stepID : String) (number : ℤ) : Bool :=
  (db.attempts.lookup id).isSome || (db.attemptsOf stepID).any fun entry => entry.2.attempt == number

def holdsLease (previous : Option (String × AttemptRow)) (now : Timestamp) : Bool :=
  previous.any fun entry => entry.2.state == .running && decide (now < entry.2.leaseUntil)

variable (now : Timestamp)

/-- A running attempt whose lease has run out becomes expired. -/
def expirePrevious (previous : Option (String × AttemptRow)) : Database :=
  match previous with
  | none => db
  | some (id, row) =>
    if row.state = .running then
      { db with attempts := db.attempts.insert id { row with state := .expired, updatedAt := now, completedAt := some now } }
    else db

/-- The first attempt of a step that was not there. -/
def createStep (request : AcquireRequest) (taskID executionID tenantID : String) :
    Except Failure (Acquired × Database) := do
  let id := request.id.getD ""
  let attemptID' := attemptID id 1
  refuse ((db.steps.lookup id).isSome || db.attemptTaken attemptID' id 1) (.raised "RHINOQ_DURABLE_STEP_ID_CONFLICT" id)
  let step : StepRow :=
    { tenantID, taskID, executionID, itemKey := request.item, stepKey := request.key
      taskVersion := request.taskVersion.getD 0, stepVersion := request.stepVersion.getD 0, state := .running, attempt := 1
      createdAt := now, updatedAt := now }
  let attempt : AttemptRow :=
    { tenantID, stepID := id, executionID, attempt := 1, state := .running, leaseOwner := btrim (request.leaseOwner.getD "")
      leaseEpoch := 1, leaseUntil := now + milliseconds (request.leaseMs.getD 0), createdAt := now, updatedAt := now }
  return (.acquired id step attemptID' attempt,
    Database.bumpTask { db with steps := db.steps.insert id step, attempts := db.attempts.insert attemptID' attempt }
      taskID now)

/-- The next attempt of a step. -/
def continueStep (request : AcquireRequest) (taskID executionID tenantID stepID : String)
    (step : StepRow) : Except Failure (Acquired × Database) := do
  let previous := db.latestAttempt stepID
  refuse (holdsLease previous now) (.raised "RHINOQ_DURABLE_STEP_LEASE_HELD"
    ("Step " ++ request.key ++ " is leased by " ++ (previous.elim "" (·.2.leaseOwner)) ++ " until " ++
      previous.elim "" (fun entry => timestampText entry.2.leaseUntil) ++ "."))
  refuse (decide (request.maxAttempts.getD 0 ≤ step.attempt)) (.raised "RHINOQ_DURABLE_STEP_RETRY_EXHAUSTED"
    ("Step " ++ request.key ++ " used " ++ toString step.attempt ++ " of " ++ toString (request.maxAttempts.getD 0) ++
      " allowed attempts."))
  let number := step.attempt + 1
  let attemptID' := attemptID stepID number
  let expired := db.expirePrevious now previous
  refuse (expired.attemptTaken attemptID' stepID number) (.raised "RHINOQ_DURABLE_STEP_ID_CONFLICT" (request.id.getD ""))
  let step' : StepRow :=
    { step with
      executionID, state := .running, failureReason := none, attempt := number, version := step.version + 1
      updatedAt := now, completedAt := none }
  let attempt : AttemptRow :=
    { tenantID, stepID, executionID, attempt := number, state := .running, leaseOwner := btrim (request.leaseOwner.getD "")
      leaseEpoch := previous.elim 0 (·.2.leaseEpoch) + 1, leaseUntil := now + milliseconds (request.leaseMs.getD 0)
      createdAt := now, updatedAt := now }
  return (.acquired stepID step' attemptID' attempt,
    Database.bumpTask
      { expired with
        steps := expired.steps.insert stepID step', attempts := expired.attempts.insert attemptID' attempt } taskID now)

/-- `acquire_durable_step`. -/
def acquireDurableStep (request : AcquireRequest) : Except Failure (Acquired × Database) := do
  refuse request.invalid (.raised "RHINOQ_INVALID_DURABLE_STEP")
  let taskID := request.taskID.getD ""
  let executionID := request.executionID.getD ""
  let taskVersion := request.taskVersion.getD 0
  let stepVersion := request.stepVersion.getD 0
  let task ← db.task taskID
  refuse (task.definitionVersion != taskVersion) (.raised "RHINOQ_DURABLE_STEP_TASK_VERSION_MISMATCH"
    ("Task definition is version " ++ toString task.definitionVersion ++ "; worker declared version " ++
      toString taskVersion ++ "."))
  refuse (!(db.executions.lookup executionID).any fun row =>
    row.taskID == taskID && row.itemKey == request.item && row.tenantID == task.tenantID)
    (.raised "RHINOQ_DURABLE_STEP_EXECUTION_MISMATCH")
  match db.stepOf taskID request.item request.key with
  | none => db.createStep now request taskID executionID task.tenantID
  | some (stepID, step) =>
    refuse (step.taskVersion != taskVersion || step.stepVersion != stepVersion)
      (.raised "RHINOQ_DURABLE_STEP_VERSION_MISMATCH"
      ("Step " ++ request.key ++ " is stored as task version " ++ toString step.taskVersion ++ ", step version " ++
        toString step.stepVersion ++ "; worker declared task version " ++ toString taskVersion ++ ", step version " ++
        toString stepVersion ++ "."))
    if step.state = .completed then return (.reused stepID step, db)
    else
      refuse (step.state == .cancelled) (.raised "RHINOQ_DURABLE_STEP_CANCELLED" request.key)
      db.continueStep now request taskID executionID task.tenantID stepID step

/-- The rows of the step and the attempt that a lease names. -/
def leasedRows (lease : StepLease) : Except Failure (StepRow × AttemptRow) := do
  let stepID := lease.stepID.getD ""
  let attemptID' := lease.attemptID.getD ""
  let step ← found (db.steps.lookup stepID) (.raised "RHINOQ_DURABLE_STEP_NOT_FOUND" stepID)
  let attempt ← found ((db.attempts.lookup attemptID').filter fun row => row.stepID == stepID)
    (.raised "RHINOQ_DURABLE_STEP_ATTEMPT_NOT_FOUND" attemptID')
  return (step, attempt)

/-- `renew_durable_step`. A lease that ends now is over. -/
def renewDurableStep (lease : StepLease) (leaseMs : Option ℤ) : Except Failure Database := do
  refuse (lease.invalid || outside 1000 3600000 leaseMs) (.raised "RHINOQ_INVALID_DURABLE_STEP_RENEWAL")
  let (step, attempt) ← db.leasedRows lease
  refuse (step.state != .running || attempt.state != .running || !lease.presents attempt ||
    decide (attempt.leaseUntil ≤ now))
    (.raised "RHINOQ_DURABLE_STEP_LEASE_FENCED" (lease.stepID.getD ""))
  let after := { attempt with leaseUntil := now + milliseconds (leaseMs.getD 0), updatedAt := now }
  return { db with attempts := db.attempts.insert (lease.attemptID.getD "") after }

/-- The three settlements end the attempt and the step together. Unlike a renewal they accept a lease
that ends now. -/
def settleStep (lease : StepLease) (step : StepRow) (attempt : AttemptRow)
    (endAttempt : AttemptRow → AttemptRow) (endStep : StepRow → StepRow) : Except Failure Database := do
  refuse (step.state != .running || attempt.state != .running || !lease.presents attempt ||
    decide (attempt.leaseUntil < now))
    (.raised "RHINOQ_DURABLE_STEP_LEASE_FENCED" (lease.stepID.getD ""))
  let attempt' := { endAttempt attempt with updatedAt := now, completedAt := some now }
  let step' := { endStep step with version := step.version + 1, updatedAt := now }
  return Database.bumpTask
    { db with
      attempts := db.attempts.insert (lease.attemptID.getD "") attempt'
      steps := db.steps.insert (lease.stepID.getD "") step' } step.taskID now

/-- `complete_durable_step`. -/
def completeDurableStep (lease : StepLease) (result resultRef : Option String) :
    Except Failure Database := do
  refuse (lease.invalid || result.all (fun text => decide (65536 < text.utf8ByteSize)) ||
    decide (2048 < (resultRef.getD "").length)) (.raised "RHINOQ_INVALID_DURABLE_STEP_COMPLETION")
  let resultRef' := resultRef.bind fun text => nullIfEmpty (btrim text)
  let (step, attempt) ← db.leasedRows lease
  if step.state = .completed ∧ attempt.state = .completed ∧ lease.presents attempt = true ∧ step.result = result ∧
      step.resultRef = resultRef' then return db
  else
    db.settleStep now lease step attempt (fun row => { row with state := .completed }) fun row =>
      { row with state := .completed, result, resultRef := resultRef', failureReason := none, completedAt := some now }

/-- `fail_durable_step`. -/
def failDurableStep (lease : StepLease) (reason : Option String) : Except Failure Database := do
  let reason' := left ((nullIfEmpty (btrim (reason.getD ""))).getD "Step handler failed.") 2048
  refuse (lease.invalid) (.raised "RHINOQ_INVALID_DURABLE_STEP_FAILURE")
  let (step, attempt) ← db.leasedRows lease
  if (step.state = .completed ∨ step.state = .failed) ∧ (attempt.state = .completed ∨ attempt.state = .failed) ∧
      lease.presents attempt = true then return db
  else
    db.settleStep now lease step attempt (fun row => { row with state := .failed, failureReason := some reason' }) fun row =>
      { row with state := .failed, failureReason := some reason' }

/-- `cancel_durable_step`. -/
def cancelDurableStep (lease : StepLease) (reason : Option String) : Except Failure Database := do
  let reason' := left ((nullIfEmpty (btrim (reason.getD ""))).getD "Task cancelled by user.") 2048
  refuse (lease.invalid) (.raised "RHINOQ_INVALID_DURABLE_STEP_CANCELLATION")
  let (step, attempt) ← db.leasedRows lease
  if step.state = .cancelled ∧ attempt.state = .cancelled ∧ lease.presents attempt = true then return db
  else
    db.settleStep now lease step attempt (fun row => { row with state := .cancelled, failureReason := some reason' })
      fun row =>
      { row with state := .cancelled, failureReason := some reason', completedAt := some now }

end Database

end RhinoQ.Model.TaskSchema
