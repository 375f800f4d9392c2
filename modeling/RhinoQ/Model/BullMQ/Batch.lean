import RhinoQ.Model.BullMQ.Bridge

/-! # The events of a batch

One bridge dispatches or tracks the jobs of its batches and projects their events one after the other. The
state keeps what was observed last of each job. A classifier answers `isTerminalFailure`.
-/

namespace RhinoQ.Model.BullMQ

open TaskSchema TaskClient

/-- The environment, with a classifier for failures. -/
def classifying (classify : Event → Bool) (choice : Choice) : Choice where
  now := choice.now
  answer
    | .isTerminalFailure event => .ok (classify event)
    | other => choice.answer other

/-- The last event of a job. `terminal` is the verdict of the classifier. -/
structure LastEvent where
  kind : QueueEvent
  terminal : Bool

structure Batch where
  db : Database := {}
  recent : FiniteMap String LastEvent := ∅

inductive BatchEvent
  | dispatch (input : Dispatch)
  | track (binding : Binding)
  | project (kind : QueueEvent) (event : Event)

section
variable (bridge : Bridge) (rounds : ℕ) (classify : Event → Bool)

def BatchEvent.program : BatchEvent → Async Unit
  | .dispatch input => do let _ ← bridge.dispatch input
  | .track binding => do let _ ← bridge.track binding
  | .project kind event => bridge.project rounds kind event

namespace Batch

variable (b : Batch)

/-- An event of a job becomes its most recent one. -/
def observe : BatchEvent → Batch
  | .project kind event => { b with recent := b.recent.insert event.jobID { kind, terminal := classify event } }
  | _ => b

/-- The choices of a step, with the answers of the classifier. -/
def choices (choices : ℕ → Choice) (i : ℕ) : Choice := classifying classify (choices i)

def step (e : BatchEvent × (ℕ → Choice)) : Option Batch :=
  some { b.observe classify e.1 with db := ((e.1.program bridge rounds).run.play serve (choices classify e.2) b.db).2 }

/-- The statements of a step, each with the tables that it meets. -/
def statements (e : BatchEvent × (ℕ → Choice)) : List (Database × Query) :=
  (e.1.program bridge rounds).run.trace serve (choices classify e.2) b.db

/-- Some job of the task failed last, not for good, and its retry has not started. -/
def retryPending (taskID : String) : Bool :=
  b.recent.entries.any fun entry => entry.2.kind == .failed && !entry.2.terminal &&
    (b.db.liveReference "bullmq" bridge.scope entry.1).any (·.2.taskID == taskID)

end Batch

def batch : Machine Batch (BatchEvent × (ℕ → Choice)) := { start := {}, step := Batch.step bridge rounds classify }

end

end RhinoQ.Model.BullMQ
