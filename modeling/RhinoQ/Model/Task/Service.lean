import RhinoQ.Machine.Pool
import RhinoQ.Model.Task.Snapshot
import RhinoQ.Model.Task.Store

/-! # Task commands

The commands of the task service as programs over the store, one step for each store call; a command may stop
between two of them. The past stores and the snapshots answered so far are read by no command.
-/

namespace RhinoQ.Model

open TaskContract

namespace TaskService

structure ResolveWaitpointInput where
  id : String
  ownerID : String
  resolutionID : String
  actor : String
  expectedVersion : ℤ
  resolution : List UInt8
  deriving DecidableEq

/-- The commands, with their inputs. Times are read when a step needs them. -/
inductive Command
  | create (id : Task.ID) (type ownerID : String) (definitionVersion : ℤ)
  | get (id : Task.ID)
  | createExecution (id : Execution.ID) (taskID : Task.ID) (runtime : String) (trace : Correlation.TraceContext)
  | bindExecution (id : Execution.ID) (reference : Execution.RuntimeReference)
  | transition (id : Task.ID) (expectedVersion : ℤ) (target : Task.State)
  | requestCancellation (id : Task.ID) (expectedVersion : ℤ)
  | updateProgress (id : Task.ID) (expectedVersion : ℤ) (progress : Task.Progress)
  | resolveCancellation (id : Task.ID) (expectedVersion : ℤ) (status : Task.CancellationStatus) (reason : String)
  | attachResult (id : Task.ID) (expectedVersion : ℤ) (reference : String)
  | transitionExecution (id : Execution.ID) (expectedVersion : ℤ) (target : Execution.State)
  | failExecution (id : Execution.ID) (expectedVersion : ℤ) (reason : String)
  | attachExecutionResult (id : Execution.ID) (expectedVersion : ℤ) (reference : String)
  | retry (input : TaskRetryInput)
  | createWaitpoint (spec : Waitpoint.Spec)
  | resolveWaitpoint (input : ResolveWaitpointInput)
  | cancelWaitpoint (id ownerID : String) (expectedVersion : ℤ)
  | expireDueWaitpoints (limit : ℤ)
  deriving DecidableEq

inductive Answer
  | failed (error : TaskError)
  | snapshot (snapshot : Snapshot)
  | result (result : Result)
  | waitpoint (record : Waitpoint.Record) (replayed : Bool)
  | expired (count : ℕ) (error : Option TaskError)
  deriving DecidableEq

/-- Where a command is suspended. -/
inductive Phase
  | start
  | creatingExecution
  | savingTask (next : Task.Record) (expectedVersion : ℤ)
  | savingExecution (next : Execution.Record) (expectedVersion : ℤ)
  | creatingWaitpoint
  | checkingOwner (current : Waitpoint.Record)
  | savingWaitpoint (next : Waitpoint.Record) (expectedVersion : ℤ)
  | expiring (now : Time) (due : List Waitpoint.Record) (count : ℕ)
  | getting (id : Task.ID)
  | listing (record : Task.Record)
  | answered (answer : Answer)
  deriving DecidableEq

def fail (text : String) : Phase := .answered (.failed (.message text))

/-- A task command fenced by the caller's version: the copy it would write, or the answer. -/
def fencedTask (record : Task.Record) (expectedVersion : ℤ) (next : Except String Task.Record) : Phase :=
  if record.version ≠ expectedVersion then .answered (.failed .versionConflict)
  else
    match next with
    | .error text => fail text
    | .ok next => .savingTask next expectedVersion

/-- What a task command does with the record it read. -/
def afterTask (record : Task.Record) (now : Time) : Command → Phase
  | .get _ => .listing record
  | .createExecution _ _ _ _ => .creatingExecution
  | .transition _ expectedVersion target => fencedTask record expectedVersion (record.transition target now)
  | .requestCancellation _ expectedVersion =>
    if record.cancellationIsRequested then .listing record
    else fencedTask record expectedVersion (record.requestCancellation now)
  | .updateProgress _ expectedVersion progress =>
    if record.progressIsCurrent progress then .listing record
    else fencedTask record expectedVersion (record.applyProgress progress now)
  | .resolveCancellation _ expectedVersion status reason =>
    fencedTask record expectedVersion (record.resolveCancellation status reason now)
  | .attachResult _ expectedVersion reference =>
    fencedTask record expectedVersion (record.attachResult reference now)
  | .createWaitpoint _ => .creatingWaitpoint
  | _ => .getting record.id

/-- A fenced execution command; one that changes nothing answers from the store. -/
def fencedExecution (record : Execution.Record) (expectedVersion : ℤ) (next : Except String Execution.Record) : Phase :=
  if record.version ≠ expectedVersion then .answered (.failed .versionConflict)
  else
    match next with
    | .error text => fail text
    | .ok next => if next.version = record.version then .getting record.taskID else .savingExecution next expectedVersion

/-- What an execution command does with the record it read. -/
def afterExecution (record : Execution.Record) (now : Time) : Command → Phase
  | .bindExecution _ reference =>
    match record.bind reference now with
    | .error text => fail text
    | .ok next => .savingExecution next record.version
  | .transitionExecution _ expectedVersion target =>
    if record.version ≠ expectedVersion then .answered (.failed .versionConflict)
    else
      match record.transition target now with
      | .error text => fail text
      | .ok next => .savingExecution next expectedVersion
  | .failExecution _ expectedVersion reason => fencedExecution record expectedVersion (record.fail reason now)
  | .attachExecutionResult _ expectedVersion reference =>
    fencedExecution record expectedVersion (record.attachResult reference now)
  | _ => .getting record.taskID

def maxWaitpointResolutionBytes : ℕ := 65536

variable (codec : Task.Codec)

/-- What a waitpoint command does once the owner of its task is checked. -/
def afterOwner (current : Waitpoint.Record) (now : Time) : Command → Phase
  | .resolveWaitpoint input =>
    if current.state ≠ .resolved ∧ current.version ≠ input.expectedVersion then .answered (.failed .versionConflict)
    else
      match current.resolve input.resolution (codec.digest input.resolution) input.resolutionID input.actor now with
      | .error text => fail text
      | .ok next =>
        if current.state = .resolved then .answered (.waitpoint next false) else .savingWaitpoint next current.version
  | .cancelWaitpoint _ _ expectedVersion =>
    if expectedVersion ≤ 0 ∨ current.version ≠ expectedVersion then .answered (.failed .versionConflict)
    else
      match current.cancel now with
      | .error text => fail text
      | .ok next => .savingWaitpoint next current.version
  | _ => .answered (.waitpoint current false)

/-- The owner that a waitpoint command presents. -/
def Command.owner : Command → String
  | .resolveWaitpoint input => Text.trimSpace input.ownerID
  | .cancelWaitpoint _ ownerID _ => Text.trimSpace ownerID
  | _ => ""

structure Shared where
  store : TaskStore := {}
  past : List TaskStore := [{}]
  snapshots : List Snapshot := []

variable (s : Shared)

/-- Continue with another store. -/
def Shared.write (store : TaskStore) : Shared := { s with store, past := s.past ++ [store] }

/-- Answer with a snapshot, or with the error of its mapping. -/
def Shared.answer : Except String Snapshot → Shared × Phase
  | .error text => (s, fail text)
  | .ok snapshot => ({ s with snapshots := s.snapshots ++ [snapshot] }, .answered (.snapshot snapshot))

/-- Read a task, and go on with it if it is there. -/
def Shared.withTask (id : Task.ID) (next : Task.Record → Phase) : Shared × Phase :=
  match s.store.getTask id with
  | none => (s, .answered (.failed .taskNotFound))
  | some record => (s, next record)

def Shared.withExecution (id : Execution.ID) (next : Execution.Record → Phase) : Shared × Phase :=
  match s.store.getExecution id with
  | none => (s, .answered (.failed .executionNotFound))
  | some record => (s, next record)

def Shared.withWaitpoint (id : Waitpoint.ID) (next : Waitpoint.Record → Phase) : Shared × Phase :=
  match s.store.getWaitpoint id with
  | none => (s, .answered (.failed .waitpointNotFound))
  | some record => (s, next record)

/-- The first store call of a command. -/
def firstCall (now : Time) (command : Command) : Shared × Phase :=
  match command with
  | .create id type ownerID definitionVersion =>
    match Task.newRecord { id, type, ownerID, definitionVersion, now } with
    | .error text => (s, fail text)
    | .ok record =>
      match s.store.createTask record with
      | (.error error, _) => (s, .answered (.failed error))
      | (.ok record, store) => (s.write store).answer (newSnapshot record [])
  | .get id => s.withTask id (afterTask · now command)
  | .createExecution _ taskID _ _ => s.withTask taskID (afterTask · now command)
  | .transition id _ _ => s.withTask id (afterTask · now command)
  | .requestCancellation id _ => s.withTask id (afterTask · now command)
  | .updateProgress id _ _ => s.withTask id (afterTask · now command)
  | .resolveCancellation id _ _ _ => s.withTask id (afterTask · now command)
  | .attachResult id _ _ => s.withTask id (afterTask · now command)
  | .createWaitpoint spec => s.withTask (Text.trimSpace spec.taskID) (afterTask · now command)
  | .bindExecution id _ => s.withExecution id (afterExecution · now command)
  | .transitionExecution id _ _ => s.withExecution id (afterExecution · now command)
  | .failExecution id _ _ => s.withExecution id (afterExecution · now command)
  | .attachExecutionResult id _ _ => s.withExecution id (afterExecution · now command)
  | .retry input =>
    match s.store.retryTask codec { input with now } with
    | (.error error, _) => (s, .answered (.failed error))
    | (.ok result, store) => (s.write store, .listing result.task)
  | .resolveWaitpoint input =>
    if input.expectedVersion ≤ 0 ∨ input.resolution = [] ∨ input.resolution.length > maxWaitpointResolutionBytes ∨
        !codec.jsonValid input.resolution then
      (s, fail "valid waitpoint version and JSON resolution up to 64 KiB are required")
    else s.withWaitpoint input.id .checkingOwner
  | .cancelWaitpoint id _ _ => s.withWaitpoint id .checkingOwner
  | .expireDueWaitpoints limit =>
    match s.store.listDueWaitpoints now limit with
    | .error error => (s, .answered (.expired 0 (some error)))
    | .ok due => (s, .expiring now due 0)

/-- The next store call of a command. -/
def advance (now : Time) (command : Command) : Phase → Option (Shared × Phase)
  | .start => some (firstCall codec s now command)
  | .creatingExecution =>
    match command with
    | .createExecution id taskID runtime trace =>
      match s.store.createNextExecution { id, taskID, runtime, trace, now } with
      | (.error error, _) => some (s, .answered (.failed error))
      | (.ok _, store) => some (s.write store, .getting taskID)
    | _ => none
  | .savingTask next expectedVersion =>
    match s.store.updateTask next expectedVersion with
    | (.error error, _) => some (s, .answered (.failed error))
    | (.ok saved, store) =>
      match command with
      | .attachResult _ _ _ =>
        match newResult saved with
        | .error text => some (s.write store, fail text)
        | .ok result => some (s.write store, .answered (.result result))
      | _ => some (s.write store, .listing saved)
  | .savingExecution next expectedVersion =>
    match s.store.updateExecution next expectedVersion with
    | (.error error, _) => some (s, .answered (.failed error))
    | (.ok (record, _), store) => some (s.write store, .getting record.taskID)
  | .creatingWaitpoint =>
    match command with
    | .createWaitpoint spec =>
      match Waitpoint.new { spec with now } with
      | .error text => some (s, fail text)
      | .ok record =>
        match s.store.createWaitpoint record with
        | (.error error, _) => some (s, .answered (.failed error))
        | (.ok (record, replayed), store) => some (s.write store, .answered (.waitpoint record replayed))
    | _ => none
  | .checkingOwner current =>
    match s.store.getTask current.taskID with
    | none => some (s, .answered (.failed .waitpointNotFound))
    | some parent =>
      if command.owner = "" ∨ parent.ownerID ≠ command.owner then some (s, .answered (.failed .waitpointNotFound))
      else some (s, afterOwner codec current now command)
  | .savingWaitpoint next expectedVersion =>
    match s.store.updateWaitpoint next expectedVersion with
    | (.error error, _) => some (s, .answered (.failed error))
    | (.ok record, store) => some (s.write store, .answered (.waitpoint record false))
  | .expiring ticked due count =>
    match due with
    | [] => some (s, .answered (.expired count none))
    | current :: rest =>
      match current.expire ticked with
      | .error _ => some (s, .expiring ticked rest count)
      | .ok next =>
        match s.store.updateWaitpoint next current.version with
        | (.ok _, store) => some (s.write store, .expiring ticked rest (count + 1))
        | (.error .versionConflict, _) => some (s, .expiring ticked rest count)
        | (.error error, _) => some (s, .answered (.expired count (some error)))
  | .getting id => some (s.withTask id .listing)
  | .listing record => some (s.answer (newSnapshot record (s.store.listTaskExecutions record.id)))
  | .answered _ => none

inductive Thread
  | idle
  | running (command : Command) (phase : Phase)
  deriving DecidableEq

inductive Event
  | start (t : ℕ) (command : Command)
  | advance (t : ℕ) (now : Time)
  | crash (t : ℕ)

abbrev State := Pool Shared Thread

def step (p : State) : Event → Option State
  | .start t command =>
    match p.thread t with
    | .idle => some (p.move t p.shared (.running command .start))
    | _ => none
  | .advance t now =>
    match p.thread t with
    | .running command phase =>
      (TaskService.advance codec p.shared now command phase).map fun (s, phase) => p.move t s (.running command phase)
    | .idle => none
  | .crash t => some (p.move t p.shared .idle)

def machine : Machine State Event :=
  { start := { shared := {}, thread := fun _ => .idle }, step := step codec }

end TaskService
end RhinoQ.Model
