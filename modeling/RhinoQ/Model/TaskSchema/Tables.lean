import RhinoQ.Model.Basic
import RhinoQ.ToMathlib.FiniteMap

/-! # The tables of the task schema

A table is a map from primary keys to rows, a nullable column or parameter is an `Option`, and a command that
raises leaves the tables as they were. Timestamps are whole microseconds. Row level security is left out: a
session that may not see a row gets the error for a missing one.
-/

namespace RhinoQ.Model.TaskSchema

/-- A `timestamptz`. -/
abbrev Timestamp := ℤ

/-- `make_interval(secs => ms / 1000.0)`. -/
def milliseconds (ms : ℤ) : ℤ := ms * 1000

/-- An exception: `rhinoq_task.fail` and its relatives, or a constraint. -/
inductive Failure
  | raised (code : String) (detail : String := "")
  | violated (constraint : String)
  deriving DecidableEq

/-- `IF condition THEN PERFORM rhinoq_task.fail(...) END IF`. -/
def refuse (condition : Bool) (failure : Failure) : Except Failure Unit := if condition then .error failure else .ok ()

variable {failure : Failure} {α β : Type} {condition : Bool} {row : Option α} {next : Unit → Except Failure α}

theorem refuse_bind_eq_ok :
    (refuse condition failure >>= next) = .ok result ↔ condition = false ∧ next () = .ok result := by
  cases condition with
  | true =>
    constructor
    · rintro ⟨⟩
    · rintro ⟨⟨⟩, _⟩
  | false => exact ⟨fun success => ⟨rfl, success⟩, fun both => both.2⟩

theorem refuse_bind_of_false (passes : condition = false) : (refuse condition failure >>= next) = next () := by
  subst passes
  rfl

/-- A row that has to be there. -/
def found {α : Type} (row : Option α) (failure : Failure) : Except Failure α :=
  match row with
  | none => .error failure
  | some value => .ok value

theorem found_bind_eq_ok {next : α → Except Failure β} :
    (found row failure >>= next) = .ok result ↔ ∃ value, row = some value ∧ next value = .ok result := by
  cases row with
  | none =>
    constructor
    · rintro ⟨⟩
    · rintro ⟨_, ⟨⟩, _⟩
  | some value =>
    constructor
    · exact fun success => ⟨value, rfl, success⟩
    · rintro ⟨_, ⟨⟩, success⟩
      exact success

theorem found_bind_of_some {next : α → Except Failure β}
    (present : row = some value) : (found row failure >>= next) = next value := by
  subst present
  rfl

/-- `btrim(text)`: spaces only. -/
def btrim (text : String) : String := String.ofList ((text.toList.dropWhile (· == ' ')).rdropWhile (· == ' '))

/-- `btrim(COALESCE(text, '')) = ''`. -/
def blank (text : Option String) : Bool := btrim (text.getD "") == ""

/-- `NULLIF(text, '')`. -/
def nullIfEmpty (text : String) : Option String := if text == "" then none else some text

/-- `left(text, n)`. -/
def left (text : String) (n : ℕ) : String := String.ofList (text.toList.take n)

inductive TaskState
  | pending | queued | running | uncertain | succeeded | failed | cancelRequested | cancelled
  deriving DecidableEq

def TaskState.text : TaskState → String
  | .pending => "pending"
  | .queued => "queued"
  | .running => "running"
  | .uncertain => "uncertain"
  | .succeeded => "succeeded"
  | .failed => "failed"
  | .cancelRequested => "cancel_requested"
  | .cancelled => "cancelled"

inductive CancellationStatus
  | absent | requested | acknowledged | cancelled | tooLate | cannotCancelSafely | failed
  deriving DecidableEq

def CancellationStatus.text : CancellationStatus → String
  | .absent => "none"
  | .requested => "requested"
  | .acknowledged => "acknowledged"
  | .cancelled => "cancelled"
  | .tooLate => "too_late"
  | .cannotCancelSafely => "cannot_cancel_safely"
  | .failed => "failed"

inductive ExecutionState
  | pendingDispatch | dispatched | running | succeeded | failed | stalled | cancelled
  deriving DecidableEq

namespace ExecutionState

def text : ExecutionState → String
  | .pendingDispatch => "pending_dispatch"
  | .dispatched => "dispatched"
  | .running => "running"
  | .succeeded => "succeeded"
  | .failed => "failed"
  | .stalled => "stalled"
  | .cancelled => "cancelled"

/-- The states in which an item counts as done. -/
def done : ExecutionState → Bool
  | .succeeded | .failed | .cancelled => true
  | _ => false

/-- The states in which an attempt may be superseded. -/
def finished : ExecutionState → Bool
  | .succeeded | .failed | .stalled | .cancelled => true
  | _ => false

end ExecutionState

/-- The stored aggregates over all attempts of a task. -/
structure Counts where
  total : ℤ := 0
  pendingDispatch : ℤ := 0
  dispatched : ℤ := 0
  running : ℤ := 0
  succeeded : ℤ := 0
  failed : ℤ := 0
  stalled : ℤ := 0
  cancelled : ℤ := 0
  deriving DecidableEq

/-- Add to the bucket of a state. -/
def Counts.add (counts : Counts) (n : ℤ) : ExecutionState → Counts
  | .pendingDispatch => { counts with pendingDispatch := counts.pendingDispatch + n }
  | .dispatched => { counts with dispatched := counts.dispatched + n }
  | .running => { counts with running := counts.running + n }
  | .succeeded => { counts with succeeded := counts.succeeded + n }
  | .failed => { counts with failed := counts.failed + n }
  | .stalled => { counts with stalled := counts.stalled + n }
  | .cancelled => { counts with cancelled := counts.cancelled + n }

/-- A row of `tasks`, without its id. -/
structure TaskRow where
  type : String
  tenantID : String
  ownerID : Option String
  definitionVersion : ℤ
  state : TaskState := .pending
  progressCompleted : ℤ := 0
  progressTotal : Option ℤ := none
  progressMessage : Option String := none
  resultRef : Option String := none
  cancellationStatus : CancellationStatus := .absent
  cancellationReason : Option String := none
  version : ℤ := 1
  createdAt : Timestamp
  updatedAt : Timestamp
  counts : Counts := {}
  itemsSettledAt : Option Timestamp := none
  deriving DecidableEq

/-- A row of `executions`, without its id. -/
structure ExecutionRow where
  taskID : String
  tenantID : String
  itemKey : String
  attempt : ℤ
  runtime : String
  runtimeScope : String
  externalID : Option String
  state : ExecutionState
  resultRef : Option String := none
  failureReason : Option String := none
  effectKeys : List String := []
  supersededAt : Option Timestamp := none
  version : ℤ := 1
  createdAt : Timestamp
  updatedAt : Timestamp
  deriving DecidableEq

/-- The attempt of an item that is not superseded. -/
def ExecutionRow.live (row : ExecutionRow) : Bool := row.supersededAt.isNone

inductive WaitpointKind
  | input | approval | webhook
  deriving DecidableEq

inductive WaitpointState
  | waiting | resolved | expired | cancelled
  deriving DecidableEq

/-- The columns that a resolution fills. The text stands for the `jsonb` value. -/
structure Resolution where
  value : String
  hash : String
  id : String
  resolvedBy : String
  resolvedAt : Timestamp

/-- A row of `waitpoints`, without its id. -/
structure WaitpointRow where
  taskID : String
  tenantID : String
  key : String
  kind : WaitpointKind
  payloadVersion : ℤ
  state : WaitpointState := .waiting
  deadline : Option Timestamp
  resolution : Option Resolution := none
  version : ℤ := 1
  createdAt : Timestamp
  updatedAt : Timestamp

inductive StepState
  | pending | running | completed | failed | cancelled
  deriving DecidableEq

/-- A row of `durable_steps`, without its id. The text of a result stands for the `jsonb` value. -/
structure StepRow where
  tenantID : String
  taskID : String
  executionID : String
  itemKey : String
  stepKey : String
  taskVersion : ℤ
  stepVersion : ℤ
  state : StepState
  result : Option String := none
  resultRef : Option String := none
  failureReason : Option String := none
  attempt : ℤ := 0
  version : ℤ := 1
  createdAt : Timestamp
  updatedAt : Timestamp
  completedAt : Option Timestamp := none

inductive AttemptState
  | running | completed | failed | cancelled | expired
  deriving DecidableEq

/-- A row of `durable_step_attempts`, without its id. -/
structure AttemptRow where
  tenantID : String
  stepID : String
  executionID : String
  attempt : ℤ
  state : AttemptState
  leaseOwner : String
  leaseEpoch : ℤ
  leaseUntil : Timestamp
  failureReason : Option String := none
  createdAt : Timestamp
  updatedAt : Timestamp
  completedAt : Option Timestamp := none

structure Database where
  tasks : FiniteMap String TaskRow := ∅
  executions : FiniteMap String ExecutionRow := ∅
  waitpoints : FiniteMap String WaitpointRow := ∅
  steps : FiniteMap String StepRow := ∅
  attempts : FiniteMap String AttemptRow := ∅

namespace Database

/-- `UPDATE rhinoq_task.tasks SET ... WHERE id = id`. -/
def updateTask (db : Database) (id : String) (change : TaskRow → TaskRow) : Database :=
  match db.tasks.lookup id with
  | none => db
  | some row => { db with tasks := db.tasks.insert id (change row) }

/-- `version = version + 1, updated_at = clock_timestamp()`. -/
def bumpTask (db : Database) (id : String) (now : Timestamp) : Database :=
  db.updateTask id fun row => { row with version := row.version + 1, updatedAt := now }

end Database

end RhinoQ.Model.TaskSchema
