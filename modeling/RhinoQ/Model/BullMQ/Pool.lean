import RhinoQ.Machine.Threads
import RhinoQ.Model.BullMQ.Bridge

/-! # Bridges that share a database

Any number of bridges run their operations over one database, interleaved statement by statement. `client`
stands for every other session: it may run any program of statements.
-/

namespace RhinoQ.Model.BullMQ

open TaskSchema TaskClient

inductive Operation
  | dispatch (bridge : Bridge) (input : Dispatch)
  | track (bridge : Bridge) (binding : Binding)
  | project (bridge : Bridge) (rounds : ℕ) (kind : QueueEvent) (event : Event)
  | reconcile (bridge : Bridge) (rounds : ℕ) (observation : Observation)
  | updateAggregate (bridge : Bridge) (taskID : String)
  | cancel (bridge : Bridge) (taskID : String) (jobIDs : List String)
  | client (program : Async Unit)

namespace Operation

/-- What an operation runs. Nobody reads the snapshot that it may return. -/
def program : Operation → Async Unit
  | .dispatch bridge input => do let _ ← bridge.dispatch input
  | .track bridge binding => do let _ ← bridge.track binding
  | .project bridge rounds kind event => bridge.project rounds kind event
  | .reconcile bridge rounds observation => bridge.reconcile rounds observation
  | .updateAggregate bridge taskID => bridge.updateAggregate taskID
  | .cancel bridge taskID jobIDs => do let _ ← bridge.cancel taskID jobIDs
  | .client program => program

def code (op : Operation) : Program Query Query.Answer (Except Error Unit) := op.program.run

end Operation

abbrev Sessions := Threads.State Operation Query Query.Answer Database (Except Error Unit)

/-- The sessions over a database that starts empty. -/
def sessions : Machine Sessions (Threads.Event Operation Choice) := Threads.machine serve Operation.code {}

end RhinoQ.Model.BullMQ
