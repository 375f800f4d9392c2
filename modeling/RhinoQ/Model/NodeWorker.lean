import RhinoQ.Machine.Path
import Mathlib.Data.Nat.Notation

/-! # The processes of a Node worker

`RhinoQWorker` runs each claimed job in a `process`, beside a heartbeat of its lease. A shutdown reaches the handlers
through the map of executions, whose keys are job ids.
-/

namespace RhinoQ.Model.RhinoQWorker

inductive Thrown
  | undefined
  | value (text : String)
  deriving DecidableEq

inductive HandlerResult
  | fulfilled
  | rejected (error : Thrown)
  deriving DecidableEq

inductive FailCause
  | cancelled | shutdown
  | handler (error : Thrown)
  deriving DecidableEq

inductive SettleCall
  | complete
  | fail (cause : FailCause)
  deriving DecidableEq

/-- Where a process stands: its handler runs, it waits for its heartbeat to end, it has deleted its entry, it has made its
call, if any. -/
inductive Phase
  | idle | handling
  | returned (result : HandlerResult)
  | left (result : HandlerResult)
  | settled (result : HandlerResult) (call : Option SettleCall)
  deriving DecidableEq

/-- The heartbeat loop waits for its interval, for an answer, or has returned. -/
inductive Heartbeat
  | waiting | asking | ended
  deriving DecidableEq

structure Process where
  job : String := ""
  phase : Phase := .idle
  heartbeat : Heartbeat := .ended
  leaseUnsafe : Bool := false
  cancelRequested : Bool := false
  forceStopped : Bool := false
  aborted : Bool := false

namespace Process

variable (p : Process)

/-- `heartbeatController` was aborted. -/
def stopped : Bool := p.phase != .handling || p.forceStopped

/-- `handlerError`, which is `undefined` unless the handler threw something else. -/
def handlerError : HandlerResult → Thrown
  | .fulfilled => .undefined
  | .rejected error => error

def settleCall (result : HandlerResult) : Option SettleCall :=
  if p.leaseUnsafe then none
  else if p.cancelRequested then some (.fail .cancelled)
  else if p.forceStopped then some (.fail .shutdown)
  else if handlerError result ≠ .undefined then some (.fail (.handler (handlerError result)))
  else some .complete

/-- The process has an entry in the map, unless another one took it. -/
def entered : Prop := p.phase = .handling ∨ ∃ result, p.phase = .returned result

end Process

/-- What a heartbeat answers: whether a cancellation is requested, or an error. -/
inductive Beat
  | renewed (cancelRequested : Bool)
  | failed
  deriving DecidableEq

def Process.beat (p : Process) : Beat → Process
  | .renewed false => { p with heartbeat := .waiting }
  | .renewed true => { p with heartbeat := .ended, cancelRequested := true, aborted := true }
  | .failed => { p with heartbeat := .ended, leaseUnsafe := true, aborted := true }

inductive Action
  | ask
  | answer (beat : Beat)
  | endHeartbeat
  | handled (result : HandlerResult)
  | forceStop | leave | settle
  deriving DecidableEq

/-- One step of a process, of its heartbeat or handler, or of the shutdown that has found its entry. -/
def Process.advance (p : Process) : Action → Option Process
  | .ask => if p.heartbeat = .waiting ∧ p.stopped = false then some { p with heartbeat := .asking } else none
  | .answer beat => if p.heartbeat = .asking then some (p.beat beat) else none
  | .endHeartbeat => if p.heartbeat = .waiting ∧ p.stopped then some { p with heartbeat := .ended } else none
  | .handled result => if p.phase = .handling then some { p with phase := .returned result } else none
  | .forceStop => some { p with forceStopped := true, aborted := true }
  | .leave =>
    match p.phase, p.heartbeat with
    | .returned result, .ended => some { p with phase := .left result }
    | _, _ => none
  | .settle =>
    match p.phase with
    | .left result => some { p with phase := .settled result (p.settleCall result) }
    | _ => none

def dispatched (job : String) : Process := { job, phase := .handling, heartbeat := .waiting }

def processMachine (job : String) : Machine Process Action := { start := dispatched job, step := Process.advance }

structure Worker where
  process : ℕ → Process := fun _ => {}
  executions : String → Option ℕ := fun _ => none

inductive Event
  | dispatch (i : ℕ) (job : String)
  | act (i : ℕ) (action : Action)
  | graceElapsed

/-- A process is among the values of the map exactly if the entry of its job is its own. -/
def Worker.forceStop (s : Worker) (i : ℕ) : Process :=
  if s.executions (s.process i).job = some i then ((s.process i).advance .forceStop).getD (s.process i) else s.process i

def step (s : Worker) : Event → Option Worker
  | .dispatch i job =>
    if (s.process i).phase = .idle then
      some { process := Function.update s.process i (dispatched job),
             executions := Function.update s.executions job (some i) }
    else none
  | .act _ .forceStop => none
  | .act i action => ((s.process i).advance action).map fun p =>
      { process := Function.update s.process i p
        executions := if action = .leave then Function.update s.executions p.job none else s.executions }
  | .graceElapsed => some { s with process := s.forceStop }

def machine : Machine Worker Event := { start := {}, step }

end RhinoQ.Model.RhinoQWorker
