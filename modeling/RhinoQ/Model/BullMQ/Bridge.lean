import RhinoQ.Model.TaskClient

/-! # The BullMQ task bridge

The methods of the bridge are programs over the client. Two of its loops have no bound of their own: the
fallback of `ensureExecution` and the loop that opens attempts. Both take the rounds they may spend, which
are no part of the source.
-/

namespace RhinoQ.Model.BullMQ

open TaskSchema TaskClient

inductive TerminalProjection
  | singleExecution | executionOnly
  deriving DecidableEq

inductive AggregateTerminal
  | manual | allSucceeded | atLeastOneSucceeded
  deriving DecidableEq

inductive RetryProjection
  | newAttempt | ignore
  deriving DecidableEq

def defaultFailureReason (event : Event) : Option String := given (event.failedReason.map jsTrim)

/-- The options of a bridge. A callback is `true` when it was supplied. -/
structure Bridge where
  queue : Bool := true
  runtimeScope : Option String := none
  terminalProjection : TerminalProjection
  aggregateProgress : Bool := false
  aggregateTerminal : AggregateTerminal := .manual
  isTerminalFailure : Bool := false
  runtimeAttempt : Bool := false
  resultReference : Bool := false
  failureReason : Event → Option String := defaultFailureReason
  cancelJob : Bool := false
  terminalizeOnCancel : Bool := false
  retryProjection : RetryProjection := .newAttempt
  retryExecutionID : TaskExecution → ℤ → String := fun previous attempt => previous.id ++ "#" ++ toString attempt
  onItemsSettled : Bool := false

structure Binding where
  task : TaskCreateRequest
  executionID : String
  itemKey : Option String := none
  jobID : String
  deriving DecidableEq

structure Dispatch extends Binding where
  jobName : String
  deriving DecidableEq

/-- The attempts with the highest number, one for each item, in the order of the items. -/
def insertLatest : List TaskExecutionSummary → TaskExecutionSummary → List TaskExecutionSummary
  | [], execution => [execution]
  | current :: rest, execution =>
    if current.itemKey = execution.itemKey then (if current.attempt < execution.attempt then execution else current) :: rest
    else current :: insertLatest rest execution

def latestExecutions (executions : List TaskExecutionSummary) : List TaskExecutionSummary := executions.foldl insertLatest []

def sameProgress (current next : TaskProgress) : Bool :=
  current.completed == next.completed && current.total == next.total && current.message.getD "" == next.message.getD ""

def progressOf (task : TaskSnapshot) : TaskProgress :=
  { completed := task.progressCompleted, total := task.progressTotal, message := task.progressMessage }

/-- One `if` of the sequence that brings a task forward. -/
def moveTask (task : TaskSnapshot) (applies : Bool) (target : TaskState) : Async TaskSnapshot :=
  if applies then transitionTask task.id task.entityVersion target else pure task

def ensureTask (taskID : String) (target : TaskState) : Async TaskSnapshot := converge do
  let task ← getTask taskID
  if task.state = target then pure task
  else do
    let task ← moveTask task (task.state == .pending) .queued
    let task ← moveTask task ((target == .running || target == .succeeded || target == .failed) &&
      task.state == .queued) .running
    moveTask task ((target == .succeeded || target == .failed) &&
      (task.state == .running || task.state == .cancelRequested)) target

/-- The moves that the bridge tries. `pending_dispatch` is among the sources: a worker may finish before the bind. -/
def legalMove (state target : ExecutionState) : Bool :=
  state == .pendingDispatch || state == .dispatched || state == .running && target != .running

/-- The fallback is the two steps that an older schema needs. -/
def ensureExecution : ℕ → String → ExecutionState → Option String → Async Unit
  | 0, _, _, _ => throw .outOfRounds
  | rounds + 1, executionID, target, reason => converge do
    let execution ← getTaskExecution executionID
    if execution.state = target then pure ()
    else if !legalMove execution.state target then pure ()
    else tryCatch (transitionTaskExecutionAck execution.id execution.version target reason) fun error =>
      if execution.state = .running ∨ target = .running ∨
        !error.isCode "RHINOQ_INVALID_EXECUTION_TRANSITION" then throw error
      else do
        ensureExecution rounds executionID .running none
        ensureExecution rounds executionID target reason

namespace Bridge

variable (bridge : Bridge) (rounds : ℕ) (taskID jobID : String) (event : Event)

/-- The scope as the constructor stores it. -/
def scope : String := jsTrim (bridge.runtimeScope.getD "")

def find : Async (Option TaskExecution) := findExecution "bullmq" jobID bridge.scope

/-- `this.runtimeScope ? { runtimeScope } : {}`. -/
def scopeOption : Option String := given (some bridge.scope)

/-! ## Dispatch -/

def assertExistingBinding (existing : TaskExecution) (binding : Binding) (taskID : String) : Async Unit :=
  if existing.taskID ≠ taskID then
    throw (.error ("BullMQ job " ++ binding.jobID ++ " is already bound to Task " ++ existing.taskID))
  else if existing.id ≠ binding.executionID then
    throw (.error ("BullMQ job " ++ binding.jobID ++ " is already bound to Execution " ++ existing.id))
  else pure ()

/-- The request of a new attempt, with the job id or without. -/
def createRequest (binding : Binding) (externalID : Option String) : TaskExecutionCreateRequest :=
  { id := binding.executionID, runtime := "bullmq", itemKey := given binding.itemKey,
    runtimeScope := bridge.scopeOption, externalID }

/-- What a concurrent bridge may have bound in the meantime decides; otherwise the error stands. -/
def acceptRaced (binding : Binding) (taskID : String) (error : Error) : Async Unit := do
  match ← bridge.find binding.jobID with
  | none => throw error
  | some raced => assertExistingBinding raced binding taskID

def track (binding : Binding) : Async TaskSnapshot := do
  if binding.itemKey.any untold then
    throw (.typeError "BullMQTaskBridge.track itemKey must be a non-empty string when supplied")
  else do
    let snapshot ← tryCatch (getTask binding.task.id) fun error =>
      if error.isCode "RHINOQ_TASK_NOT_FOUND" then createTask binding.task else throw error
    match ← bridge.find binding.jobID with
    | some existing =>
      assertExistingBinding existing binding snapshot.id
      ensureTask snapshot.id .queued
    | none =>
      if binding.itemKey.isNone && snapshot.executions.any (·.itemKey == "default") then
        throw (.typeError ("BullMQTaskBridge.track requires itemKey for a second job on Task " ++ snapshot.id ++ "; " ++
          "use a stable itemKey for every fan-out item or use dispatchMany()"))
      else do
        tryCatch (do
          createTaskExecutionAck snapshot.id (bridge.createRequest binding none)
          let _ ← bindTaskExecution binding.executionID "bullmq" bridge.scopeOption binding.jobID
          pure ()) (bridge.acceptRaced binding snapshot.id)
        ensureTask snapshot.id .queued

def assertDispatchReady : Async Unit :=
  if !bridge.queue then throw (.typeError "BullMQTaskBridge dispatch requires a queue")
  else if bridge.scope = "" then throw (.typeError "BullMQTaskBridge dispatch requires runtimeScope")
  else pure ()

/-- BullMQ takes an id with `:` only when it has exactly three parts. -/
def assertDispatchableJobID : Async Unit :=
  let colons := jobID.toList.count ':'
  if colons ≠ 0 ∧ colons ≠ 2 then
    throw (.typeError ("BullMQ rejects the job ID " ++ jobID ++ ": a custom ID may not contain ':' unless it splits into " ++
      "exactly three parts."))
  else pure ()

/-- Reserve one item and return the id of its task. -/
def reserve (binding : Binding) : Async String := do
  let taskID ← tryCatch (do return (← getTaskSummary binding.task.id).summary.id) fun error =>
    if error.isCode "RHINOQ_TASK_NOT_FOUND" then do return (← createTask binding.task).id else throw error
  match ← bridge.find binding.jobID with
  | some existing =>
    assertExistingBinding existing binding taskID
    pure taskID
  | none =>
    tryCatch (createTaskExecutionAck taskID (bridge.createRequest binding (some binding.jobID)))
      (bridge.acceptRaced binding taskID)
    pure taskID

/-- Add the job unless its attempt crossed the dispatch boundary already. -/
def dispatchReserved (input : Dispatch) : Async Unit := do
  let execution ← getTaskExecution input.executionID
  if execution.state ≠ .pendingDispatch then pure ()
  else do
    call (.queueAdd input.jobName input.jobID)
    tryCatch (bindTaskExecutionAck input.executionID "bullmq" (some bridge.scope) input.jobID) fun error => do
      let latest ← getTaskExecution input.executionID
      if latest.state ≠ .pendingDispatch ∧ latest.runtime = "bullmq" ∧ latest.runtimeScope.getD "" = bridge.scope ∧
          latest.externalID = some input.jobID then pure ()
      else throw error

def dispatch (input : Dispatch) : Async TaskSnapshot := do
  bridge.assertDispatchReady
  assertDispatchableJobID input.jobID
  let taskID ← bridge.reserve input.toBinding
  bridge.dispatchReserved input
  ensureTask taskID .queued

/-! ## Projection -/

def queueJob : Async Unit := do
  match ← bridge.find jobID with
  | none => pure ()
  | some execution =>
    let _ ← ensureTask execution.taskID .queued
    pure ()

/-- The attempt goes first: the task moves with a later version. -/
def activate (execution : TaskExecution) : Async TaskSnapshot := do
  ensureExecution rounds execution.id .running none
  ensureTask execution.taskID .running

/-- Supersede a finished attempt. `none` is an attempt that is not to move, or that another bridge moved. -/
def openRetryAttempt (previous : TaskExecution) : Async (Option TaskExecution) :=
  if bridge.retryProjection = .ignore then pure none
  else
    match previous.externalID with
    | none => pure none
    | some externalID => do
      tryCatch (do
        let _ ← retryTaskExecution previous.id previous.version (bridge.retryExecutionID previous (previous.attempt + 1))
        pure ()) fun error =>
          if error.isCode "RHINOQ_VERSION_CONFLICT" || error.isCode "RHINOQ_EXECUTION_SUPERSEDED" ||
              error.isCode "RHINOQ_EXECUTION_ALREADY_EXISTS" then pure ()
          else throw error
      match ← bridge.find externalID with
      | none => pure none
      | some replacement => if replacement.id = previous.id then pure none else pure (some replacement)

/-- The `while` loop, `left` rounds of it. -/
def openRetryLoop (externalID : String) (observed : Option ℤ) : ℕ → TaskExecution → Async (Option TaskExecution)
  | 0, _ => throw .outOfRounds
  | left + 1, current =>
    if current.state.finished || observed.any fun n => decide (current.attempt < n) then
      if !current.state.finished then do
        -- nothing ended the earlier attempt: close it before the next one is opened
        ensureExecution rounds current.id .stalled none
        match ← bridge.find externalID with
        | none => pure none
        | some stalled => openRetryLoop externalID observed left stalled
      else do
        match ← bridge.openRetryAttempt current with
        | none => pure none
        | some next =>
          if observed.all fun n => decide (n ≤ next.attempt) then pure (some next)
          else openRetryLoop externalID observed left next
    else pure (some current)

def openRetryAttempts (execution : TaskExecution) (observed : Option ℤ) : Async (Option TaskExecution) :=
  if observed.any fun n => decide (n < 1) then throw (.rangeError "BullMQ runtime attempt must be a positive integer")
  else bridge.openRetryLoop rounds (execution.externalID.getD "") observed rounds execution

def startJob (attempt : Option ℤ) : Async Unit := do
  match ← bridge.find jobID with
  | none => pure ()
  | some execution =>
    match ← bridge.openRetryAttempts rounds execution attempt with
    | none => pure ()
    | some current =>
      let _ ← activate rounds current
      pure ()

/-- The attempt number of an `active` event. A callback that throws gives none. -/
def observedAttempt : Async (Option ℤ) :=
  if event.attempt.isSome then pure event.attempt
  else if !bridge.runtimeAttempt then pure none
  else tryCatch (call (.runtimeAttempt event)) fun _ => pure none

def reportProgress : Async Unit := do
  match ← call (.progress event) with
  | none => pure ()
  | some progress => converge do
    match ← bridge.find event.jobID with
    | none => pure ()
    | some execution =>
      let task ← activate rounds execution
      if task.state ≠ .running ∧ task.state ≠ .cancelRequested then pure ()
      else if sameProgress (progressOf task) progress then pure ()
      else do
        let _ ← reportTaskProgress task.id task.entityVersion progress
        pure ()

/-- `onItemsSettled`, for the one caller whose statement settled the items. -/
def signalSettlement : Async Unit :=
  if !bridge.onItemsSettled then pure ()
  else do
    if !(← settleTaskItems taskID) then pure ()
    else do
      (if bridge.aggregateProgress then syncTaskItemProgress taskID else pure ())
      call (.onItemsSettled (← getTask taskID))

/-- The verdict over the latest attempts, all of which are done. -/
def verdict (latest : List TaskExecutionSummary) : TaskState :=
  let succeeded := latest.countP (·.state == .succeeded)
  if bridge.aggregateTerminal = .allSucceeded then (if succeeded = latest.length then .succeeded else .failed)
  else (if 0 < succeeded then .succeeded else .failed)

def reportAggregate (task : TaskSnapshot) (progress : TaskProgress) : Async TaskSnapshot :=
  if bridge.aggregateProgress && (task.state == .running || task.state == .cancelRequested) &&
      !sameProgress (progressOf task) progress then
    reportTaskProgress task.id task.entityVersion progress
  else pure task

def updateAggregate : Async Unit :=
  if !bridge.aggregateProgress && bridge.aggregateTerminal == .manual then pure ()
  else if bridge.aggregateProgress && bridge.aggregateTerminal == .manual then syncTaskItemProgress taskID
  else converge do
    let task ← getTask taskID
    let latest := latestExecutions task.executions
    let terminal := latest.filter (·.state.done)
    let progress : TaskProgress := { completed := terminal.length, total := some (latest.length : ℤ) }
    if latest.length = 0 then pure ()
    else do
      let task ← bridge.reportAggregate task progress
      if terminal.length ≠ latest.length ∨ bridge.aggregateTerminal = .manual then pure ()
      else do
        -- the task is read again here, and the move is fenced on that later version
        let _ ← ensureTask task.id (bridge.verdict latest)
        pure ()

/-- The aggregate and then the settlement, which runs even when the aggregate throws. -/
def aggregateAndSettle : Async Unit := lastly (bridge.updateAggregate taskID) (bridge.signalSettlement taskID)

/-- The reference belongs to the attempt that produced it. -/
def attachReference (executionID : String) : Option String → Async Unit
  | none => pure ()
  | some reference => converge do
    let current ← getTaskExecution executionID
    attachTaskExecutionResultAck current.id current.version reference

def attachTaskReference : Option String → Async Unit
  | none => pure ()
  | some reference => converge do
    let task ← getTask taskID
    if task.hasResult then pure ()
    else do
      let _ ← attachTaskResult task.id task.entityVersion reference
      pure ()

def complete : Async Unit := do
  match ← bridge.find event.jobID with
  | none => pure ()
  | some execution =>
    ensureExecution rounds execution.id .succeeded none
    let _ ← ensureTask execution.taskID .running
    let reference ← (if bridge.resultReference then call (.resultReference event) else pure none)
    attachReference execution.id (given reference)
    if bridge.terminalProjection = .executionOnly then bridge.aggregateAndSettle execution.taskID
    else do
      bridge.signalSettlement execution.taskID
      let _ ← ensureTask execution.taskID .succeeded
      attachTaskReference execution.taskID (given reference)

def fail (terminal : Bool) : Async Unit := do
  match ← bridge.find event.jobID with
  | none => pure ()
  | some execution =>
    ensureExecution rounds execution.id .failed (bridge.failureReason event)
    let _ ← ensureTask execution.taskID .running
    if !terminal then pure ()
    else if bridge.terminalProjection = .singleExecution then do
      let _ ← ensureTask execution.taskID .failed
      bridge.signalSettlement execution.taskID
    else bridge.aggregateAndSettle execution.taskID

/-- Every failed event ends the attempt; the classifier decides only whether it ends the task too. -/
def failIfTerminal : Async Unit := do
  let terminal ← (if bridge.isTerminalFailure then call (.isTerminalFailure event) else pure false)
  bridge.fail rounds event terminal

/-- A `delayed` event ends the attempt that ran, if one did. -/
def endAttemptForRetry : Async Unit :=
  if bridge.retryProjection = .ignore then pure ()
  else do
    match ← bridge.find event.jobID with
    | none => pure ()
    | some execution =>
      if execution.state ≠ .running then pure () else ensureExecution rounds execution.id .stalled none

end Bridge

inductive QueueEvent
  | waiting | active | progress | completed | failed | delayed
  deriving DecidableEq

namespace Bridge

variable (bridge : Bridge) (rounds : ℕ)

def project (kind : QueueEvent) (event : Event) : Async Unit :=
  match kind with
  | .waiting => bridge.queueJob event.jobID
  | .active => do bridge.startJob rounds event.jobID (← bridge.observedAttempt event)
  | .progress => bridge.reportProgress rounds event
  | .completed => bridge.complete rounds event
  | .failed => bridge.failIfTerminal rounds event
  | .delayed => bridge.endAttemptForRetry rounds event

end Bridge

inductive ObservedState
  | waiting | active | completed | failed

structure Observation extends Event where
  state : ObservedState
  terminal : Bool := false

/-- What the jobs of a cancellation answered so far. -/
structure CancelOutcome where
  worst : CancellationStatus := .acknowledged
  reason : Option String := none
  stopped : List String := []

/-- The worst answer stands: a failure over a refusal over an acknowledgement. -/
def CancelOutcome.record (outcome : CancelOutcome) (status : CancellationStatus) (why : Option String) : CancelOutcome :=
  if status = .acknowledged then outcome
  else if outcome.worst = .acknowledged ∨ (status = .failed ∧ outcome.worst ≠ .failed) then
    { outcome with worst := status, reason := why }
  else outcome

namespace Bridge

variable (bridge : Bridge) (rounds : ℕ) (taskID : String)

/-- A failed observation is projected only when it is terminal. -/
def reconcile (observation : Observation) : Async Unit :=
  match observation.state with
  | .waiting => bridge.queueJob observation.jobID
  | .active => bridge.startJob rounds observation.jobID observation.attempt
  | .completed => bridge.complete rounds observation.toEvent
  | .failed => if observation.terminal then bridge.fail rounds observation.toEvent true else pure ()

/-! ## Cancellation -/

def resolveCancellation (status : CancellationStatus) (reason : Option String) : Async TaskSnapshot := converge do
  let task ← getTask taskID
  resolveTaskCancellation task.id task.entityVersion status reason

/-- Ask every job to stop. `none` is a job that does not belong to the task. -/
def cancelJobs (taskID : String) : List String → CancelOutcome → Async (Except String CancelOutcome)
  | [], outcome => pure (.ok outcome)
  | jobID :: rest, outcome => do
    match ← bridge.find jobID with
    | none => pure (.error jobID)
    | some execution =>
      if execution.taskID ≠ taskID then pure (.error jobID)
      else do
        let outcome ← tryCatch (do
          match ← call (.cancelJob jobID execution) with
          | .acknowledged => pure { outcome with stopped := outcome.stopped ++ [jobID] }
          | .cannotCancelSafely reason => pure (outcome.record .cannotCancelSafely (some reason))
          | .failed reason => pure (outcome.record .failed (some reason))
          | .invalid =>
            pure (outcome.record .failed (some ("BullMQ cancellation returned an invalid status for job " ++ jobID))))
              fun _ =>
              pure (outcome.record .failed (some ("BullMQ cancellation failed for job " ++ jobID)))
        cancelJobs taskID rest outcome

/-- Close the attempt of a job that stopped. -/
def closeJob (jobID : String) : Async Unit := do
  match ← bridge.find jobID with
  | none => pure ()
  | some execution =>
    if execution.state.done then pure ()
    else converge do
      let current ← getTaskExecution execution.id
      if current.state.done then pure () else transitionTaskExecutionAck current.id current.version .cancelled

def closeStopped : List String → Async Unit
  | [] => pure ()
  | jobID :: rest => do
    bridge.closeJob jobID
    closeStopped rest

/-- Close a task whose latest attempts are all done. The move is fenced on the version of the read. -/
def closeCancelled : Async TaskSnapshot := converge do
  let task ← getTask taskID
  if task.state ≠ .cancelRequested then pure task
  else if (latestExecutions task.executions).any (!·.state.done) then pure task
  else transitionTask task.id task.entityVersion .cancelled

def terminalizeCancellation (jobIDs : List String) : Async TaskSnapshot := do
  bridge.closeStopped jobIDs
  closeCancelled taskID

def cancel (jobIDs : List String) : Async TaskSnapshot :=
  if !bridge.cancelJob then throw (.typeError "BullMQTaskBridge cancel requires cancelJob")
  else if jobIDs.length = 0 then throw (.rangeError "BullMQTaskBridge cancel requires at least one known job id")
  else do
    let task ← converge do
      let current ← getTask taskID
      if current.state = .cancelRequested then pure current else requestTaskCancellation current.id current.entityVersion
    -- a terminal task answers a late request, and the runtime is left alone
    if task.state ≠ .cancelRequested then pure task
    else do
      match ← bridge.cancelJobs taskID jobIDs.eraseDups {} with
      | .error jobID =>
        resolveCancellation taskID .failed (some ("BullMQ job " ++ jobID ++ " is not bound to Task " ++ taskID))
      | .ok outcome =>
        let resolved ← resolveCancellation taskID outcome.worst outcome.reason
        if !bridge.terminalizeOnCancel then pure resolved else bridge.terminalizeCancellation taskID outcome.stopped

end Bridge

end RhinoQ.Model.BullMQ
