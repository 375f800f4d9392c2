import RhinoQ.Model.TaskClient

/-! # The runtime task projector

The projector brings executions and tasks to the states that the reported facts imply. It serializes the events of one
reference, so one event is one program over the client. Notifications of mutations are left out. The fallback of
`ensureExecution` and the loop that opens attempts take the rounds that they may spend.
-/

namespace RhinoQ.Model.RuntimeTaskProjector

open TaskSchema TaskClient

inductive TerminalProjection
  | singleExecution | executionOnly
  deriving DecidableEq

structure RuntimeRef where
  runtime : String
  scope : String
  externalID : String

inductive AttemptOutcome
  | failed | cancelled | unknown
  deriving DecidableEq

/-- The type of an event, with what an event of that type carries. -/
inductive RuntimeFact
  | accepted
  | started
  | progressed (progress : TaskProgress)
  | attemptEnded (outcome : AttemptOutcome) (reason : Option String)
  | succeeded (resultRef : Option String)
  | failed (terminal : Bool) (reason : Option String)
  | cancelled
  | uncertain (reason : String)

/-- An event. Its time is checked to be one and not used. -/
structure RuntimeEvent where
  ref : RuntimeRef
  attempt : Option ℤ := none
  fact : RuntimeFact

structure Projector where
  terminalProjection : TerminalProjection
  onUnboundEvent : Bool := false

/-! ## Validation -/

def requireText (value field : String) : Async Unit :=
  if untold value then throw (.typeError (field ++ " must be a non-empty string")) else pure ()

def validateRuntimeRef (ref : RuntimeRef) : Async Unit := do
  requireText ref.runtime "ref.runtime"
  requireText ref.scope "ref.scope"
  requireText ref.externalID "ref.externalId"

def validateFact : RuntimeFact → Async Unit
  | .progressed progress =>
    if progress.completed < 0 then throw (.rangeError "progress.completed must be a non-negative integer")
    else if progress.total.any fun total => decide (total < progress.completed) then
      throw (.rangeError "progress.total must be an integer greater than or equal to completed")
    else pure ()
  | .uncertain reason => requireText reason "uncertain event.reason"
  | _ => pure ()

def validateRuntimeEvent (event : RuntimeEvent) : Async Unit := do
  validateRuntimeRef event.ref
  if event.attempt.any fun attempt => decide (attempt < 1) then
    throw (.rangeError "event.attempt must be a positive integer")
  else validateFact event.fact

/-! ## Convergence of one record -/

/-- The comparison of the projector, which does not take an empty message for a missing one. -/
def sameProgress (left right : TaskProgress) : Bool := left == right

def progressOf (task : TaskSnapshot) : TaskProgress :=
  { completed := task.progressCompleted, total := task.progressTotal, message := task.progressMessage }

def find (ref : RuntimeRef) : Async (Option TaskExecution) := findExecution ref.runtime ref.externalID ref.scope

def ensureExecution : ℕ → String → ExecutionState → Option String → Async Unit
  | 0, _, _, _ => throw .outOfRounds
  | rounds + 1, executionID, target, reason => converge do
    let execution ← getTaskExecution executionID
    if execution.state = target ∨ execution.state.finished then pure ()
    else tryCatch (do
      let _ ← transitionTaskExecution execution.id execution.version target reason
      pure ()) fun error =>
        if execution.state ≠ .running ∧ target ≠ .running ∧ target ≠ .dispatched ∧
            error.isCode "RHINOQ_INVALID_EXECUTION_TRANSITION" then do
          ensureExecution rounds executionID .running none
          ensureExecution rounds executionID target reason
        else throw error

def terminalTask : TaskState → Bool
  | .succeeded | .failed | .cancelled => true
  | _ => false

/-- One `if` of the sequence that brings a task forward. -/
def moveTask (task : TaskSnapshot) (source target : TaskState) : Async TaskSnapshot :=
  if task.state = source then transitionTask task.id task.entityVersion target else pure task

def ensureTask (taskID : String) (target : TaskState) : Async TaskSnapshot := converge do
  let task ← getTask taskID
  if task.state = target ∨ terminalTask task.state then pure task
  else do
    let task ← moveTask task .pending .queued
    if target = .queued then pure task
    else do
      let task ← moveTask task .queued .running
      if target = .running then pure task
      else if target = .cancelled ∧ task.state ≠ .cancelRequested then pure task
      else if task.state = .running ∨ task.state = .uncertain ∨ task.state = .cancelRequested then
        transitionTask task.id task.entityVersion target
      else pure task

def attachExecutionResult (executionID reference : String) : Async Unit := converge do
  let execution ← getTaskExecution executionID
  let _ ← attachTaskExecutionResult execution.id execution.version reference
  pure ()

def attachResult (taskID reference : String) : Async Unit := converge do
  let task ← getTask taskID
  if task.hasResult then pure ()
  else do
    let _ ← attachTaskResult task.id task.entityVersion reference
    let _ ← getTask task.id

/-- `if (event.resultRef) await ...`. -/
def whenGiven (reference : Option String) (attach : String → Async Unit) : Async Unit :=
  match given reference with
  | none => pure ()
  | some reference => attach reference

def synchronizeSuccessfulProgress (taskID : String) : Async TaskSnapshot := converge do
  let task ← getTask taskID
  if task.state ≠ .running ∧ task.state ≠ .cancelRequested then pure task
  else
    let total := task.progressTotal.getD (max 1 task.progressCompleted)
    if total ≤ task.progressCompleted then pure task
    else reportTaskProgress task.id task.entityVersion { progressOf task with completed := total, total := some total }

def reportProgress (taskID : String) (progress : TaskProgress) : Async TaskSnapshot := converge do
  let current ← getTask taskID
  if current.state ≠ .running ∧ current.state ≠ .cancelRequested then pure current
  else if sameProgress (progressOf current) progress then pure current
  else reportTaskProgress current.id current.entityVersion progress

def activate (rounds : ℕ) (execution : TaskExecution) : Async TaskSnapshot := do
  ensureExecution rounds execution.id .running none
  ensureTask execution.taskID .running

/-! ## Events -/

def isConvergenceError (error : Error) : Bool :=
  error.isCode "RHINOQ_VERSION_CONFLICT" || error.isCode "RHINOQ_EXECUTION_SUPERSEDED" ||
    error.isCode "RHINOQ_EXECUTION_ALREADY_EXISTS"

def closeAttempt (rounds : ℕ) (current : TaskExecution) : Async Unit :=
  if current.state.finished then pure () else ensureExecution rounds current.id .stalled none

/-- The `while` loop, `left` rounds of it. The retry brings the version that was read before the attempt was stalled. -/
def openAttempts (rounds : ℕ) (observedAttempt : ℤ) : ℕ → TaskExecution → Async TaskExecution
  | 0, current => if observedAttempt ≤ current.attempt then pure current else throw .outOfRounds
  | left + 1, current =>
    if observedAttempt ≤ current.attempt then pure current
    else do
      closeAttempt rounds current
      match current.externalID with
      | none => pure current
      | some externalID => do
        tryCatch (do
          let _ ← retryTaskExecution current.id current.version (current.id ++ "#" ++ toString (current.attempt + 1))
          pure ()) fun error => if isConvergenceError error then pure () else throw error
        match ← find { runtime := current.runtime, scope := current.runtimeScope.getD "", externalID } with
        | none => pure current
        | some replacement =>
          if replacement.id = current.id then pure current else openAttempts rounds observedAttempt left replacement

namespace Projector

variable (projector : Projector) (rounds : ℕ)

/-- The `switch` over the type of the event. -/
def apply (execution : TaskExecution) : RuntimeFact → Async Unit
  | .accepted => do
    ensureExecution rounds execution.id .dispatched none
    let _ ← ensureTask execution.taskID .queued
  | .started => do
    let _ ← activate rounds execution
  | .progressed progress => do
    let task ← activate rounds execution
    if task.state ≠ .running ∧ task.state ≠ .cancelRequested then pure ()
    else if sameProgress (progressOf task) progress then pure ()
    else do
      let _ ← reportProgress task.id progress
  | .attemptEnded outcome reason => do
    let target := match outcome with | .cancelled => .cancelled | .failed => .failed | .unknown => .stalled
    ensureExecution rounds execution.id target reason
    let _ ← ensureTask execution.taskID (if outcome = .unknown then .uncertain else .running)
  | .succeeded resultRef => do
    ensureExecution rounds execution.id .succeeded none
    let _ ← ensureTask execution.taskID .running
    whenGiven resultRef (attachExecutionResult execution.id)
    if projector.terminalProjection = .singleExecution then do
      let _ ← synchronizeSuccessfulProgress execution.taskID
      let _ ← ensureTask execution.taskID .succeeded
      whenGiven resultRef (attachResult execution.taskID)
    else pure ()
  | .failed terminal reason => do
    ensureExecution rounds execution.id .failed reason
    let _ ← ensureTask execution.taskID .running
    if terminal ∧ projector.terminalProjection = .singleExecution then do
      let _ ← ensureTask execution.taskID .failed
    else pure ()
  | .cancelled => do
    ensureExecution rounds execution.id .cancelled none
    let task ← getTask execution.taskID
    if projector.terminalProjection = .singleExecution ∧ task.state = .cancelRequested then do
      let _ ← ensureTask task.id .cancelled
    else pure ()
  | .uncertain reason => do
    ensureExecution rounds execution.id .stalled (some reason)
    let _ ← ensureTask execution.taskID .uncertain

/-- An event that finds no execution is told to the application, which may bind one in the meantime. -/
def findOrTell (ref : RuntimeRef) : Async (Option TaskExecution) := do
  match ← find ref with
  | some execution => pure (some execution)
  | none =>
    if projector.onUnboundEvent then do
      call .onUnboundEvent
      find ref
    else find ref

def projectOne (event : RuntimeEvent) : Async Unit := do
  match ← projector.findOrTell event.ref with
  | none => pure ()
  | some execution =>
    match event.attempt with
    | none => projector.apply rounds execution event.fact
    | some attempt => do
      let current ← openAttempts rounds attempt rounds execution
      projector.apply rounds current event.fact

def project (event : RuntimeEvent) : Async Unit := do
  validateRuntimeEvent event
  projector.projectOne rounds event

end Projector

end RhinoQ.Model.RuntimeTaskProjector
