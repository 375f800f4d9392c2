import RhinoQ.Machine.Path
import RhinoQ.Model.TaskSchema.Execution
import RhinoQ.Model.TaskSchema.Step
import RhinoQ.Model.TaskSchema.Waitpoint

/-! # Sequences of commands

Every command of the schema with its parameters, run one after the other. A command that raises is
rolled back.
-/

namespace RhinoQ.Model.TaskSchema

inductive Command
  | createTask (id type tenantID : String) (ownerID : Option String) (definitionVersion : ℤ)
  | transitionTask (id : String) (expected : Option ℤ) (target : TaskState)
  | reportProgress (id : String) (expected : Option ℤ) (completed : ℤ) (total : Option ℤ) (hasTotal : Bool)
      (message : Option String)
  | requestCancellation (id : String) (expected : Option ℤ)
  | resolveCancellation (id : String) (expected : Option ℤ) (status : CancellationStatus) (reason : Option String)
  | attachTaskResult (id : String) (expected : Option ℤ) (reference : Option String)
  | settleItems (id : String)
  | syncItemProgress (id : String)
  | createExecution (id taskID : String) (itemKey runtime runtimeScope externalID : Option String)
  | bindExecution (id : String) (expected : Option ℤ) (runtime runtimeScope externalID : Option String)
  | transitionExecution (id : String) (expected : Option ℤ) (target : ExecutionState) (reason : Option String)
  | transitionExecutionForOwner (id : String) (tenantID ownerID : Option String) (expected : Option ℤ)
      (target : ExecutionState) (reason : Option String)
  | attachExecutionResult (id : String) (expected : Option ℤ) (reference : Option String)
  | claimItemEffect (id : String) (effectKey : Option String)
  | retryExecution (id : String) (expected : Option ℤ) (newID : String)
  | createWaitpoint (id taskID key : String) (kind : WaitpointKind) (payloadVersion : ℤ) (deadline : Option Timestamp)
  | resolveWaitpoint (id : String) (tenantID ownerID : Option String) (expected : Option ℤ)
      (resolutionID actor value hash : String)
  | expireWaitpoints (limit : Option ℤ)
  | acquireDurableStep (request : AcquireRequest)
  | renewDurableStep (lease : StepLease) (leaseMs : Option ℤ)
  | completeDurableStep (lease : StepLease) (result resultRef : Option String)
  | failDurableStep (lease : StepLease) (reason : Option String)
  | cancelDurableStep (lease : StepLease) (reason : Option String)
  deriving DecidableEq

/-- The tables that a command leaves, or what it raises. -/
def Command.execute (db : Database) (now : Timestamp) : Command → Except Failure Database
  | .createTask id type tenantID ownerID definitionVersion =>
    (db.createTask now id type tenantID ownerID definitionVersion).map Prod.snd
  | .transitionTask id expected target => db.transitionTask now id expected target
  | .reportProgress id expected completed total hasTotal message =>
    db.reportProgress now id expected completed total hasTotal message
  | .requestCancellation id expected => db.requestCancellation now id expected
  | .resolveCancellation id expected status reason => db.resolveCancellation now id expected status reason
  | .attachTaskResult id expected reference => db.attachTaskResult now id expected reference
  | .settleItems id => .ok (db.settleItems now id).2
  | .syncItemProgress id => db.syncItemProgress now id
  | .createExecution id taskID itemKey runtime runtimeScope externalID =>
    db.createExecution now id taskID itemKey runtime runtimeScope externalID
  | .bindExecution id expected runtime runtimeScope externalID =>
    db.bindExecution now id expected runtime runtimeScope externalID
  | .transitionExecution id expected target reason => db.transitionExecution now id expected target reason
  | .transitionExecutionForOwner id tenantID ownerID expected target reason =>
    db.transitionExecutionForOwner now id expected tenantID ownerID target reason
  | .attachExecutionResult id expected reference => db.attachExecutionResult now id expected reference
  | .claimItemEffect id effectKey => (db.claimItemEffect now id effectKey).map Prod.snd
  | .retryExecution id expected newID => db.retryExecution now id expected newID
  | .createWaitpoint id taskID key kind payloadVersion deadline =>
    (db.createWaitpoint now id taskID key kind payloadVersion deadline).map Prod.snd
  | .resolveWaitpoint id tenantID ownerID expected resolutionID actor value hash =>
    db.resolveWaitpoint now id tenantID ownerID expected resolutionID actor value hash
  | .expireWaitpoints limit => db.expireWaitpoints now limit
  | .acquireDurableStep request => (db.acquireDurableStep now request).map Prod.snd
  | .renewDurableStep lease leaseMs => db.renewDurableStep now lease leaseMs
  | .completeDurableStep lease result resultRef => db.completeDurableStep now lease result resultRef
  | .failDurableStep lease reason => db.failDurableStep now lease reason
  | .cancelDurableStep lease reason => db.cancelDurableStep now lease reason

/-- A command and the time at which it reads the clock. -/
structure Event where
  now : Timestamp
  command : Command

def step (db : Database) (event : Event) : Option Database :=
  match event.command.execute db event.now with
  | .error _ => some db
  | .ok after => some after

def machine (initial : Database) : Machine Database Event where
  start := initial
  step := step

theorem step_cases {db after : Database} {event : Event} (taken : step db event = some after) :
    after = db ∨ event.command.execute db event.now = .ok after := by
  unfold step at taken
  split at taken
  · exact .inl (Option.some.inj taken).symm
  rename_i stored
  cases taken
  exact .inr stored

end RhinoQ.Model.TaskSchema
