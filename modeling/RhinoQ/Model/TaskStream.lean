import RhinoQ.Machine.Path
import RhinoQ.Model.TaskSchema.Tables

/-! # The event stream of one task

The loop of `taskEventResponse`. It reads the task, sends what is new and waits for a change, a timeout or the end of the
request. Between two of its steps the subscription may be told of changes.
-/

namespace RhinoQ.Model.TaskStream

open TaskSchema (TaskState)

structure Config where
  taskID : String
  tenantID : String
  pollMs : ℤ
  idlePollMs : ℤ
  heartbeatMs : ℤ

structure Change where
  taskID : String
  tenantID : String

/-- What the loop uses of a `TaskSummary`. -/
structure Summary where
  entityVersion : ℤ
  state : TaskState

/-- What the variable `wake` holds. -/
inductive Wake
  | undefined
  | finish
  | settled

/-- Where the loop stands: its read is under way, it is blocked in `waitForChange`, that has resolved, or it has returned. -/
inductive Phase
  | reading
  | waiting (budget : ℤ)
  | resolved (value : Bool)
  | returned
  deriving DecidableEq

/-- The variables of the loop, what it has sent, and whether it was told of a change after its last read began. -/
structure Stream where
  version : ℤ
  heartbeatAt : ℤ
  touched : Bool := false
  wake : Wake := .undefined
  aborted : Bool := false
  phase : Phase := .reading
  snapshots : List ℤ := []
  heartbeats : List ℤ := []
  announced : Bool := false

/-- `announce` is a notification; the others settle the read, fire the timer, abort the request and resume after the wait.
The clock stands still while a step is taken. -/
inductive Event
  | announce (change : Change)
  | read (answer : Option Summary) (now : ℤ) (connected : Bool)
  | timeout
  | abort
  | resume

def isTerminal : TaskState → Bool
  | .succeeded | .failed | .cancelled => true
  | _ => false

namespace Stream

variable (config : Config) (s : Stream)

/-- `finish` of `waitForChange`. -/
def finish (value : Bool) : Stream :=
  match s.phase with
  | .waiting _ => { s with phase := .resolved value, wake := .settled }
  | _ => s

def callWake : Stream :=
  match s.wake with
  | .finish => s.finish true
  | _ => s

/-- The head of the loop. -/
def again : Stream :=
  if s.aborted then { s with phase := .returned } else { s with phase := .reading, announced := false }

def sendSnapshot (task : Summary) : Stream :=
  if task.entityVersion > s.version then
    { s with
      version := task.entityVersion, snapshots := if s.aborted then s.snapshots else s.snapshots ++ [task.entityVersion] }
  else s

def sendHeartbeat (now : ℤ) : Stream :=
  if now ≥ s.heartbeatAt then
    { s with
      heartbeatAt := now + config.heartbeatMs, heartbeats := if s.aborted then s.heartbeats else s.heartbeats ++ [now] }
  else s

/-- The end of the body: a change since then is read at once. -/
def await (now : ℤ) (connected : Bool) : Stream :=
  if s.touched then { s with touched := false }.again
  else if s.aborted then { s with phase := .returned }
  else
    let budget := if connected then min config.idlePollMs (max 50 (s.heartbeatAt - now)) else config.pollMs
    { s with phase := .waiting budget, wake := .finish }

def step : Event → Option Stream
  | .announce change =>
    match s.phase with
    | .returned => none
    | _ =>
      if change.taskID ≠ config.taskID ∨ change.tenantID ≠ config.tenantID then some s
      else some { s with touched := true, announced := true }.callWake
  | .read answer now connected =>
    match s.phase, answer with
    | .reading, none => some { s with phase := .returned }
    | .reading, some task =>
      let sent := sendHeartbeat config (s.sendSnapshot task) now
      some (if isTerminal task.state then { sent with phase := .returned } else await config sent now connected)
    | _, _ => none
  | .timeout =>
    match s.phase with
    | .waiting _ => some (s.finish true)
    | _ => none
  | .abort => some ({ s with aborted := true }.finish false)
  | .resume =>
    match s.phase with
    | .resolved true => some { s with wake := .undefined }.again
    | .resolved false => some { s with phase := .returned }
    | _ => none

end Stream

/-- The loop after the version that the browser has seen. -/
def machine (config : Config) (lastVersion now : ℤ) : Machine Stream Event where
  start := { version := lastVersion, heartbeatAt := now + config.heartbeatMs }
  step := Stream.step config

end RhinoQ.Model.TaskStream
