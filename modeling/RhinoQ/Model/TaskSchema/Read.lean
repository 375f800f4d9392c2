import RhinoQ.Model.TaskSchema.Tables
import RhinoQ.ToMathlib.SortBy
import Mathlib.Data.Prod.Lex
import Mathlib.Data.String.Basic

/-! # Reads of one task

The snapshot and the summary that the client maps from its queries. A `Date` has whole milliseconds,
and an optional text that is empty is left out of what is mapped.
-/

namespace RhinoQ.Model.TaskSchema

/-- The JavaScript `Date` that the driver makes of a `timestamptz`. -/
def date (t : Timestamp) : ℤ := t / 1000

/-- `value ? { field: value } : {}`. -/
def given (text : Option String) : Option String := text.filter (· != "")

/-- The characters that `String.prototype.trim` drops. -/
def jsSpace (c : Char) : Bool :=
  [0x09, 0x0a, 0x0b, 0x0c, 0x0d, 0x20, 0xa0, 0x1680, 0x2000, 0x2001, 0x2002, 0x2003, 0x2004, 0x2005, 0x2006, 0x2007, 0x2008,
    0x2009, 0x200a, 0x2028, 0x2029, 0x202f, 0x205f, 0x3000, 0xfeff].contains c.toNat

/-- `!text?.trim()`. -/
def untold (text : String) : Bool := text.toList.all jsSpace

/-- What a read of the client throws. -/
inductive ReadError
  | typeError (message : String)
  | rangeError (message : String)
  | task (code detail : String)
  deriving DecidableEq

structure TaskExecutionSummary where
  id : String
  itemKey : String
  attempt : ℤ
  runtime : String
  runtimeScope : Option String
  state : ExecutionState
  version : ℤ
  hasResult : Bool
  failureReason : Option String
  deriving DecidableEq

structure TaskSnapshot where
  schemaVersion : ℕ := 1
  entityVersion : ℤ
  id : String
  type : String
  ownerID : Option String
  state : TaskState
  cancellationStatus : CancellationStatus
  cancellationReason : Option String
  progressCompleted : ℤ
  progressTotal : Option ℤ
  progressMessage : Option String
  hasResult : Bool
  executions : List TaskExecutionSummary
  createdAt : ℤ
  updatedAt : ℤ
  deriving DecidableEq

/-- The counts once for each item, and how many attempts are retries. -/
structure ItemCounts where
  counts : Counts
  retries : ℤ

/-- A snapshot without its executions, and the counts. -/
structure TaskSummary where
  summary : TaskSnapshot
  executionCounts : Counts
  itemCounts : ItemCounts

def mapExecutionSummary (id : String) (row : ExecutionRow) : TaskExecutionSummary where
  id
  itemKey := row.itemKey
  attempt := row.attempt
  runtime := row.runtime
  runtimeScope := given (some row.runtimeScope)
  state := row.state
  version := row.version
  hasResult := row.resultRef.isSome
  failureReason := given row.failureReason

def mapSnapshot (id : String) (row : TaskRow) (executions : List TaskExecutionSummary) : TaskSnapshot where
  entityVersion := row.version
  id
  type := row.type
  ownerID := given row.ownerID
  state := row.state
  cancellationStatus := row.cancellationStatus
  cancellationReason := given row.cancellationReason
  progressCompleted := row.progressCompleted
  progressTotal := row.progressTotal
  progressMessage := given row.progressMessage
  hasResult := row.resultRef.isSome
  executions
  createdAt := date row.createdAt
  updatedAt := date row.updatedAt

/-- `ORDER BY e.item_key, e.attempt, e.id`. -/
def TaskExecutionSummary.position (summary : TaskExecutionSummary) : Lex (String × Lex (ℤ × String)) :=
  toLex (summary.itemKey, toLex (summary.attempt, summary.id))

def mapSummary (id : String) (row : TaskRow) (items : Counts) : TaskSummary where
  summary := mapSnapshot id row []
  executionCounts := row.counts
  itemCounts := { counts := items, retries := max 0 (row.counts.total - items.total) }

namespace Database

variable (db : Database)

variable (taskID : String)

/-- The attempts of a task, as the snapshot lists them. -/
def executionSummaries : List TaskExecutionSummary :=
  sortBy TaskExecutionSummary.position
    ((db.executions.entries.filter fun entry => entry.2.taskID == taskID).map fun entry =>
      mapExecutionSummary entry.1 entry.2)

/-- `WHERE t.id = $1 AND ($2 IS NULL OR t.owner_id = $2) AND ($3 IS NULL OR t.tenant_id = $3)`. -/
def visibleTask (ownerID tenantID : Option String) : Option TaskRow :=
  (db.tasks.lookup taskID).filter fun row => ownerID.all (row.ownerID == some ·) && tenantID.all (row.tenantID == ·)

/-- The row of `SNAPSHOT_SQL`, mapped. -/
def snapshot (ownerID tenantID : Option String) : Option TaskSnapshot :=
  (db.visibleTask taskID ownerID tenantID).map fun row => mapSnapshot taskID row (db.executionSummaries taskID)

def readTask (ownerID tenantID : Option String) : Except ReadError TaskSnapshot :=
  if untold taskID then .error (.typeError "task id is required")
  else
    match db.snapshot taskID ownerID tenantID with
    | none => .error (.task "RHINOQ_TASK_NOT_FOUND" taskID)
    | some snapshot => .ok snapshot

/-- `readTaskIfNewer`, with the tables of the probe and those of the read that may follow it. -/
def readTaskIfNewer (db later : Database) (taskID : String) (sinceVersion : ℤ) (ownerID tenantID : Option String) :
    Except ReadError (Option TaskSnapshot) :=
  if untold taskID then .error (.typeError "task id is required")
  else if sinceVersion < 0 then .error (.rangeError "sinceVersion must be a non-negative integer")
  else
    match db.visibleTask taskID ownerID tenantID with
    | none => .error (.task "RHINOQ_TASK_NOT_FOUND" taskID)
    | some row =>
      if row.version ≤ sinceVersion then .ok none else (later.readTask taskID ownerID tenantID).map some

/-- `getTaskIfNewerThan`. -/
def getTaskIfNewerThan (db later : Database) (taskID : String) (sinceVersion : ℤ) : Except ReadError (Option TaskSnapshot) :=
  readTaskIfNewer db later taskID sinceVersion none none

/-- The lateral join of `SUMMARY_SQL`: the live attempts of a task, by state. -/
def itemCounts : Counts :=
  let live := (FiniteMap.values db.executions).filter fun row => row.taskID == taskID && row.live
  let count (state : ExecutionState) : ℤ := live.countP (·.state == state)
  { total := live.length
    pendingDispatch := count .pendingDispatch
    dispatched := count .dispatched
    running := count .running
    succeeded := count .succeeded
    failed := count .failed
    stalled := count .stalled
    cancelled := count .cancelled }

/-- `readTaskSummary`. -/
def readTaskSummary (ownerID tenantID : Option String) : Except ReadError TaskSummary :=
  if untold taskID then .error (.typeError "task id is required")
  else
    match db.visibleTask taskID ownerID tenantID with
    | none => .error (.task "RHINOQ_TASK_NOT_FOUND" taskID)
    | some row => .ok (mapSummary taskID row (db.itemCounts taskID))

end Database

end RhinoQ.Model.TaskSchema
