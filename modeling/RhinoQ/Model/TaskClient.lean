import RhinoQ.Machine.Program
import RhinoQ.Model.TaskSchema.Command
import RhinoQ.Model.TaskSchema.Read

/-! # The PostgreSQL Task client

A method of the client is a program of SQL statements; whatever other sessions commit between two of them is
part of the model. What the application supplies, its queue included, is a callback whose answer the
environment chooses.
-/

namespace RhinoQ.Model

open TaskSchema

/-- `String.prototype.trim`. -/
def jsTrim (text : String) : String := String.ofList ((text.toList.dropWhile jsSpace).rdropWhile jsSpace)

/-- What BullMQ publishes of a job. Data and return value are read by callbacks only. -/
structure BullMQ.Event where
  jobID : String
  attempt : Option ℤ := none
  failedReason : Option String := none

namespace TaskClient

structure TaskExecution where
  id : String
  taskID : String
  itemKey : String
  attempt : ℤ
  runtime : String
  runtimeScope : Option String
  externalID : Option String
  state : ExecutionState
  version : ℤ

def mapExecution (id : String) (row : ExecutionRow) : TaskExecution where
  id
  taskID := row.taskID
  itemKey := row.itemKey
  attempt := row.attempt
  runtime := row.runtime
  runtimeScope := given (some row.runtimeScope)
  externalID := given row.externalID
  state := row.state
  version := row.version

structure TaskProgress where
  completed : ℤ
  total : Option ℤ := none
  message : Option String := none
  deriving DecidableEq

/-- What a client, an adapter or a callback throws. `outOfRounds` is the model's: a loop that had none left. -/
inductive Error
  | typeError (message : String)
  | rangeError (message : String)
  | error (message : String)
  | rhinoq (code detail : String)
  | outOfRounds
  deriving DecidableEq

def Error.isCode (code : String) : Error → Bool
  | .rhinoq thrown _ => thrown == code
  | _ => false

/-- `mapDatabaseError`. A constraint has no code of its own. -/
def mapDatabaseError : Failure → Error
  | .raised code detail => .rhinoq code detail
  | .violated constraint => .rhinoq "RHINOQ_POSTGRES_UNREACHABLE" constraint

inductive CancelResult
  | acknowledged
  | cannotCancelSafely (reason : String)
  | failed (reason : String)
  | invalid

/-- What the adapters ask of the application: its queue, its readers and its classifiers. -/
inductive Callback
  | queueAdd (name jobID : String)
  | cancelJob (jobID : String) (execution : TaskExecution)
  | isTerminalFailure (event : BullMQ.Event)
  | runtimeAttempt (event : BullMQ.Event)
  | progress (event : BullMQ.Event)
  | resultReference (event : BullMQ.Event)
  | onItemsSettled (task : TaskSnapshot)
  | onUnboundEvent

@[reducible] def Callback.Reply : Callback → Type
  | .queueAdd _ _ | .onItemsSettled _ | .onUnboundEvent => Unit
  | .cancelJob _ _ => CancelResult
  | .isTerminalFailure _ => Bool
  | .runtimeAttempt _ => Option ℤ
  | .progress _ => Option TaskProgress
  | .resultReference _ => Option String

/-- One SQL statement, or one callback. -/
inductive Query
  | snapshot (taskID : String)
  | summary (taskID : String)
  | execution (id : String)
  | reference (runtime scope externalID : String)
  | command (command : Command)
  | settle (taskID : String)
  | callback (callback : Callback)

@[reducible] def Query.Answer : Query → Type
  | .snapshot _ => Option TaskSnapshot
  | .summary _ => Option TaskSummary
  | .execution _ => Option TaskExecution
  | .reference _ _ _ => Option TaskExecution
  | .command _ => Except Failure Unit
  | .settle _ => Bool
  | .callback asked => Except Error asked.Reply

/-- The clock of a statement, and what a callback answers. -/
structure Choice where
  now : Timestamp
  answer (callback : Callback) : Except Error callback.Reply

end TaskClient

open TaskClient

/-- The live attempt of a reference: `executions_runtime_ref_live_unique` leaves at most one. -/
def TaskSchema.Database.liveReference (db : Database) (runtime scope externalID : String) : Option (String × ExecutionRow) :=
  (db.executions.entries.map fun entry => (entry.1, entry.2)).find? fun entry =>
    entry.2.runtime == runtime && entry.2.runtimeScope == scope && entry.2.externalID == some externalID && entry.2.live

namespace TaskClient

def serve (choice : Choice) (db : Database) : (query : Query) → query.Answer × Database
  | .snapshot taskID => (db.snapshot taskID none none, db)
  | .summary taskID => ((db.visibleTask taskID none none).map fun row => mapSummary taskID row (db.itemCounts taskID), db)
  | .execution id => ((db.executions.lookup id).map (mapExecution id), db)
  | .reference runtime scope externalID =>
    ((db.liveReference runtime scope externalID).map fun entry => mapExecution entry.1 entry.2, db)
  | .command command =>
    match command.execute db choice.now with
    | .error failure => (.error failure, db)
    | .ok after => (.ok (), after)
  | .settle taskID => db.settleItems choice.now taskID
  | .callback callback => (choice.answer callback, db)

/-- A method of the client or of an adapter. -/
abbrev Async := ExceptT Error (Program Query Query.Answer)

def ask (q : Query) : Async q.Answer := query q

def execute (command : Command) : Async Unit := do
  match ← ask (.command command) with
  | .ok () => pure ()
  | .error failure => throw (mapDatabaseError failure)

/-- Call what the application supplied. -/
def call (callback : Callback) : Async callback.Reply := do
  match ← ask (.callback callback) with
  | .ok reply => pure reply
  | .error error => throw error

def validateVersion (version : ℤ) (name : String := "expectedTaskVersion") : Async Unit :=
  if version ≤ 0 then throw (.rangeError (name ++ " must be a positive integer")) else pure ()

variable (taskID : String)

def getTask : Async TaskSnapshot :=
  if untold taskID then throw (.typeError "task id is required")
  else do
    match ← ask (.snapshot taskID) with
    | none => throw (.rhinoq "RHINOQ_TASK_NOT_FOUND" taskID)
    | some snapshot => pure snapshot

def getTaskSummary : Async TaskSummary :=
  if untold taskID then throw (.typeError "task id is required")
  else do
    match ← ask (.summary taskID) with
    | none => throw (.rhinoq "RHINOQ_TASK_NOT_FOUND" taskID)
    | some summary => pure summary

variable (executionID : String)

def getTaskExecution : Async TaskExecution := do
  match ← ask (.execution executionID) with
  | none => throw (.rhinoq "RHINOQ_EXECUTION_NOT_FOUND" executionID)
  | some execution => pure execution

def lookupTaskExecution (runtime externalID scope : String) : Async TaskExecution := do
  match ← ask (.reference runtime scope externalID) with
  | none => throw (.rhinoq "RHINOQ_EXECUTION_NOT_FOUND" externalID)
  | some execution => pure execution

structure TaskCreateRequest where
  id : String
  type : String
  tenantID : Option String := none
  ownerID : Option String := none
  definitionVersion : Option ℤ := none
  deriving DecidableEq

def createTask (request : TaskCreateRequest) : Async TaskSnapshot :=
  let definitionVersion := request.definitionVersion.getD 1
  let tenantID := jsTrim (request.tenantID.getD "")
  if request.id = "" ∨ request.type = "" then throw (.typeError "task id and type are required")
  else if definitionVersion ≤ 0 then throw (.rangeError "task definitionVersion must be a positive integer")
  else do
    execute (.createTask request.id request.type (if tenantID = "" then "default" else tenantID) request.ownerID
      definitionVersion)
    getTask request.id

structure TaskExecutionCreateRequest where
  id : String
  runtime : String
  itemKey : Option String := none
  runtimeScope : Option String := none
  externalID : Option String := none

def createTaskExecutionAck (request : TaskExecutionCreateRequest) : Async Unit :=
  if untold taskID ∨ untold request.id ∨ untold request.runtime then
    throw (.typeError "task id, execution id and runtime are required")
  else
    execute (.createExecution request.id taskID (some (request.itemKey.getD "default")) (some request.runtime)
      (some (request.runtimeScope.getD "")) request.externalID)

/-- `bind_execution` with the version the client just read. -/
def bindExecution (execution : TaskExecution) (runtime : String) (runtimeScope : Option String) (externalID : String) :
    Async Unit :=
  execute (.bindExecution execution.id (some execution.version) (some runtime) (some (runtimeScope.getD ""))
    (some externalID))

/-- The read comes before the check of the parameters. -/
def bindTaskExecution (executionID runtime : String) (runtimeScope : Option String) (externalID : String) :
    Async TaskSnapshot := do
  let execution ← getTaskExecution executionID
  if runtime = "" ∨ externalID = "" then throw (.typeError "execution runtime and external id are required")
  else do
    bindExecution execution runtime runtimeScope externalID
    getTask execution.taskID

def bindTaskExecutionAck (executionID runtime : String) (runtimeScope : Option String) (externalID : String) : Async Unit :=
  if runtime = "" ∨ externalID = "" then throw (.typeError "execution runtime and external id are required")
  else do
    let execution ← getTaskExecution executionID
    bindExecution execution runtime runtimeScope externalID

def transitionTaskExecutionAck (expected : ℤ) (target : ExecutionState) (reason : Option String := none) :
    Async Unit := do
  validateVersion expected "expectedExecutionVersion"
  execute (.transitionExecution executionID (some expected) target reason)

def transitionTaskExecution (expected : ℤ) (target : ExecutionState) (reason : Option String := none) :
    Async TaskSnapshot := do
  validateVersion expected "expectedExecutionVersion"
  let execution ← getTaskExecution executionID
  execute (.transitionExecution executionID (some expected) target reason)
  getTask execution.taskID

def attachTaskExecutionResultAck (expected : ℤ) (reference : String) : Async Unit := do
  validateVersion expected "expectedExecutionVersion"
  if untold reference then throw (.typeError "execution result reference is required")
  else execute (.attachExecutionResult executionID (some expected) (some reference))

def attachTaskExecutionResult (expected : ℤ) (reference : String) : Async TaskSnapshot := do
  validateVersion expected "expectedExecutionVersion"
  if untold reference then throw (.typeError "execution result reference is required")
  else do
    let execution ← getTaskExecution executionID
    execute (.attachExecutionResult executionID (some expected) (some reference))
    getTask execution.taskID

/-- The version is the caller's; the read serves the answer only. -/
def retryTaskExecution (expected : ℤ) (nextExecutionID : String) : Async TaskSnapshot := do
  let execution ← getTaskExecution executionID
  execute (.retryExecution executionID (some expected) nextExecutionID)
  getTask execution.taskID

/-- A pending task that is to run is queued first. -/
def transitionTask (taskID : String) (expected : ℤ) (target : TaskState) : Async TaskSnapshot := do
  validateVersion expected
  let direct : Async TaskSnapshot := do
    execute (.transitionTask taskID (some expected) target)
    getTask taskID
  if target = .running then do
    let current ← getTask taskID
    if current.state = .pending ∧ current.entityVersion = expected then do
      execute (.transitionTask taskID (some expected) .queued)
      execute (.transitionTask taskID (some (expected + 1)) target)
      getTask taskID
    else direct
  else direct

def validateProgress (progress : TaskProgress) : Async Unit :=
  if progress.completed < 0 then throw (.rangeError "task progress completed must be a non-negative integer")
  else if progress.total.any fun total => decide (total < progress.completed) then
    throw (.rangeError "task progress total must be at least completed")
  else pure ()

def reportTaskProgress (expected : ℤ) (progress : TaskProgress) : Async TaskSnapshot := do
  validateVersion expected
  validateProgress progress
  execute (.reportProgress taskID (some expected) progress.completed
    (some (progress.total.getD 0)) progress.total.isSome progress.message)
  getTask taskID

def requestTaskCancellation (expected : ℤ) : Async TaskSnapshot := do
  validateVersion expected
  execute (.requestCancellation taskID (some expected))
  getTask taskID

def resolveTaskCancellation (expected : ℤ) (status : CancellationStatus) (reason : Option String) :
    Async TaskSnapshot := do
  validateVersion expected
  execute (.resolveCancellation taskID (some expected) status reason)
  getTask taskID

/-- The answer is read back; its own fields are not used here. -/
def attachTaskResult (taskID : String) (expected : ℤ) (reference : String) : Async TaskSnapshot := do
  validateVersion expected
  if untold reference then throw (.typeError "task result reference is required")
  else do
    execute (.attachTaskResult taskID (some expected) (some reference))
    getTask taskID

def settleTaskItems : Async Bool :=
  if untold taskID then throw (.typeError "task id is required") else ask (.settle taskID)

def syncTaskItemProgress : Async Unit :=
  if untold taskID then throw (.typeError "task id is required") else execute (.syncItemProgress taskID)

/-- The loop of both adapters: a version conflict is tried again, at most `left` times more. -/
def convergeWith {α : Type} (operation : Async α) (left : ℕ) : Async α :=
  tryCatch operation fun error =>
    if error.isCode "RHINOQ_VERSION_CONFLICT" then
      match left with
      | 0 => throw error
      | left + 1 => convergeWith operation left
    else throw error

/-- Ten tries. -/
def converge {α : Type} (operation : Async α) : Async α := convergeWith operation 9

/-- The read of both adapters that takes a missing attempt for none. -/
def findExecution (runtime externalID scope : String) : Async (Option TaskExecution) :=
  tryCatch (some <$> lookupTaskExecution runtime externalID scope) fun error =>
    if error.isCode "RHINOQ_EXECUTION_NOT_FOUND" then pure none else throw error

end TaskClient

end RhinoQ.Model
