import RhinoQ.Machine.Threads
import RhinoQ.Model.TaskSchedule.Schedule

/-! # Schedulers that share the table

Any number of schedulers, interleaved call by call, beside the creation, the pause and the resumption of
schedules. The list of dispatches is read by no program.
-/

namespace RhinoQ.Model.TaskSchedule

/-- One call of `Dispatch` and the error that it returned. -/
structure Dispatched where
  lease : Lease
  occurrenceID : String
  failure : Option String

structure Site where
  table : Table := ∅
  dispatches : List Dispatched := []

/-- A call that fails either has no effect or has taken effect before its answer was lost. -/
inductive Fault
  | none
  | refused
  | lost

/-- What is decided outside for one call. -/
structure Choice where
  clock : Time := 0
  locked : Key → Bool := fun _ => false
  rank : Key → ℕ := fun _ => 0
  fault : Fault := .none
  dispatch : Option String := none

inductive Query
  | claim (owner : String) (now : Time) (leaseFor : Duration) (limit : ℤ)
  | dispatch (lease : Lease) (occurrenceID : String)
  | complete (lease : Lease) (next : Time)
  | fail (lease : Lease) (retryAfter : Duration) (message : String)
  | save (record : Record)
  | setEnabled (tenantID id : String) (version : ℤ) (enabled : Bool)

def Query.Answer : Query → Type
  | .claim .. => Except Error (List Lease)
  | .dispatch .. => Option String
  | .complete .. | .fail .. => Option Error
  | .save .. | .setEnabled .. => Except Error Unit

/-- A statement on the table, or its failure. -/
def execute {α : Type} (choice : Choice) (s : Site) (failed : α) (statement : Table → α × Table) : α × Site :=
  match choice.fault with
  | .none => ((statement s.table).1, { s with table := (statement s.table).2 })
  | .refused => (failed, s)
  | .lost => (failed, { s with table := (statement s.table).2 })

def serve (platform : Platform) : Server Choice Site Query Query.Answer
  | choice, s, .claim owner now leaseFor limit =>
    execute choice s (.error .database) fun table =>
      Store.claimDue platform table choice.clock choice.locked choice.rank owner now leaseFor limit
  | choice, s, .dispatch lease occurrenceID =>
    (choice.dispatch, { s with dispatches := s.dispatches ++ [{ lease, occurrenceID, failure := choice.dispatch }] })
  | choice, s, .complete lease next =>
    execute choice s (some .database) fun table => Store.complete platform table lease next
  | choice, s, .fail lease retryAfter message =>
    execute choice s (some .database) fun table => Store.fail platform table choice.clock lease retryAfter message
  | choice, s, .save record => execute choice s (.error .database) fun table => Store.save platform table record
  | choice, s, .setEnabled tenantID id version enabled =>
    execute choice s (.error .database) fun table => Store.setEnabled table tenantID id version enabled

abbrev Pass := Program Query Query.Answer

def ask (query : Query) : Pass query.Answer := .ask query .done

structure Config where
  owner : String
  pollInterval : Duration := 0
  lease : Duration := 0
  errorBackoff : Duration := 0
  claimBatch : ℤ := 0

/-- `taskscheduler.New`: the defaults, and the checks after them. -/
def Config.new (config : Config) : Option Config :=
  let filled :=
    { config with
      pollInterval := if config.pollInterval ≤ 0 then Duration.second else config.pollInterval
      lease := if config.lease ≤ 0 then Duration.minute else config.lease
      errorBackoff := if config.errorBackoff ≤ 0 then 30 * Duration.second else config.errorBackoff
      claimBatch := if config.claimBatch ≤ 0 then 16 else config.claimBatch }
  if Text.trimSpace config.owner = "" ∨ 100 < filled.claimBatch ∨
    filled.lease ≤ filled.pollInterval then none else some filled

section
variable (platform : Platform) (config : Config)

/-- What `RunOnce` does with a lease once `Dispatch` has returned: the errors that it joins. -/
def settle (lease : Lease) : Option String → Pass (List String)
  | some dispatchErr => do
    let settleErr ← ask (.fail lease config.errorBackoff dispatchErr)
    pure (dispatchErr :: (settleErr.map Error.text).toList)
  | none =>
    match lease.timing.nextAfter platform lease.occurrence with
    | .error nextErr => do
      let settleErr ← ask (.fail lease config.errorBackoff nextErr.text)
      pure (nextErr.text :: (settleErr.map Error.text).toList)
    | .ok next => do
      let settleErr ← ask (.complete lease next)
      pure (settleErr.map Error.text).toList

/-- The body of the loop of `RunOnce`. -/
def runLease (lease : Lease) : Pass (List String) :=
  match occurrenceID platform lease.tenantID lease.scheduleID lease.occurrence with
  | .error identityErr => pure [identityErr.text]
  | .ok occurrenceID => do
    let dispatchErr ← ask (.dispatch lease occurrenceID)
    settle platform config lease dispatchErr

def runLeases : List Lease → Pass (List String)
  | [] => pure []
  | lease :: rest => do
    let errors ← runLease platform config lease
    let others ← runLeases rest
    pure (errors ++ others)

def runClaimed : Except Error (List Lease) → Pass (List String)
  | .error claimErr => pure [claimErr.text]
  | .ok leases => runLeases platform config leases

/-- `RunOnce`, at the time its clock shows. -/
def runOnce (now : Time) : Pass (List String) := do
  let claimed ← ask (.claim config.owner now config.lease config.claimBatch)
  runClaimed platform config claimed

end

def errorsOf : Except Error Unit → List String
  | .error error => [error.text]
  | .ok _ => []

inductive Operation
  | runOnce (config : Config) (now : Time)
  | create (spec : Spec) (now : Time)
  | setEnabled (tenantID id : String) (version : ℤ) (enabled : Bool)

/-- `RunOnce` of a configured scheduler, `CreateRecurringTask`, and `PauseRecurringTask` or `ResumeRecurringTask`. -/
def Operation.code (platform : Platform) : Operation → Pass (List String)
  | .runOnce config now =>
    match config.new with
    | none => pure []
    | some config => TaskSchedule.runOnce platform config now
  | .create spec now =>
    match Record.new platform spec now with
    | .error error => pure [error.text]
    | .ok record => do
      let saved ← ask (.save record)
      pure (errorsOf saved)
  | .setEnabled tenantID id version enabled => do
    let changed ← ask (.setEnabled tenantID id version enabled)
    pure (errorsOf changed)

abbrev Schedulers := Threads.State Operation Query Query.Answer Site (List String)

/-- The schedulers over a table that starts empty. -/
def schedulers (platform : Platform) : Machine Schedulers (Threads.Event Operation Choice) :=
  Threads.machine (serve platform) (Operation.code platform) {}

end RhinoQ.Model.TaskSchedule
