import RhinoQ.Machine.Pool
import RhinoQ.Machine.RowLocks
import RhinoQ.Model.TaskSchema.Execution
import RhinoQ.Model.TaskSchema.Read

/-! # The statements of concurrent transactions

Transactions that claim the effect of an item, create, retry or move an execution, or settle a task, statement
by statement under READ COMMITTED. Every query takes a new snapshot; a statement waits for a row that another
transaction holds and for the advisory lock of an item. A transaction may be rolled back at any time.
-/

namespace RhinoQ.Model.TaskSchema

/-- What the transactions share. The last two fields record the claims that executed and the tasks that were settled. -/
structure Shared where
  tasks : VersionedTable String TaskRow := ∅
  executions : VersionedTable String ExecutionRow := ∅
  advisory : ℤ → Option ℕ := fun _ => none
  claims : List (String × String × String) := []
  settlements : List String := []

namespace Shared

variable (s : Shared) (i : ℕ)

/-- The snapshot of a statement. -/
def view : Database where
  tasks := s.tasks.snapshot i
  executions := s.executions.snapshot i

/-- `pg_advisory_xact_lock(item_lock_key(...))`, for any hash. -/
def lockItem {φ : Type} (hash : String → ℤ) (taskID itemKey : String) (next : φ) : Reply Shared Failure φ :=
  let key := hash (taskID ++ ":" ++ itemKey)
  if (s.advisory key).all (· == i) then .moved { s with advisory := Function.update s.advisory key (some i) } next
  else .blocked

/-- `SELECT ... FROM executions WHERE id = id FOR UPDATE`. -/
def lockExecution {φ : Type} (id : String) (next : ExecutionRow → Shared → Reply Shared Failure φ) :
    Reply Shared Failure φ :=
  match (s.executions.row id).visible i with
  | none => .raised (.raised "RHINOQ_EXECUTION_NOT_FOUND" id)
  | some row =>
    if (s.executions.row id).free i then next row { s with executions := s.executions.lock i id } else .blocked

/-- `UPDATE executions SET ... WHERE id = id` on a row that the transaction holds. -/
def updateExecution {φ : Type} (id : String) (change : ExecutionRow → ExecutionRow) (next : ExecutionRow → φ) :
    Reply Shared Failure φ :=
  match (s.executions.row id).visible i with
  | none => .raised (.raised "RHINOQ_EXECUTION_NOT_FOUND" id)
  | some row =>
    if (s.executions.row id).free i then .moved { s with executions := s.executions.write i id (change row) } (next row)
    else .blocked

/-- Another transaction has a version, not yet committed, that bears on the unique indexes. -/
def contested (id : String) (row : ExecutionRow) : Bool :=
  s.executions.entries.any fun entry =>
    entry.2.holder.any (· != i) && entry.2.written.isSome &&
      [entry.2.committed, entry.2.written].any fun version => version.any fun other =>
        entry.1 == id || (other.taskID == row.taskID && other.itemKey == row.itemKey && other.attempt == row.attempt) ||
          Database.sharesReference row other

/-- `INSERT INTO executions`, with the handler of `unique_violation`. -/
def insertExecution {φ : Type} (id : String) (row : ExecutionRow) (next : φ) : Reply Shared Failure φ :=
  if s.contested i id row then .blocked
  else if ((s.executions.row id).visible i).isSome || (s.view i).clashes id row then
    .raised (.raised "RHINOQ_EXECUTION_ALREADY_EXISTS" id)
  else if (s.executions.row id).free i then .moved { s with executions := s.executions.write i id row } next
  else .blocked

/-- `UPDATE tasks SET ... WHERE id = id`, as the triggers do it. -/
def updateTask {φ : Type} (id : String) (change : TaskRow → TaskRow) (next : φ) : Reply Shared Failure φ :=
  match (s.tasks.row id).visible i with
  | none => .moved s next
  | some row => if (s.tasks.row id).free i then .moved { s with tasks := s.tasks.write i id (change row) } next else .blocked

/-- The advisory locks that are left when the transaction has ended. -/
def release : ℤ → Option ℕ := fun key => if s.advisory key = some i then none else s.advisory key

def abort : Shared := { s with tasks := s.tasks.abort i, executions := s.executions.abort i, advisory := s.release i }

def commit : Shared := { s with tasks := s.tasks.commit i, executions := s.executions.commit i, advisory := s.release i }

end Shared

/-- What a call answers. `lost` is for a failure from outside, such as a timeout, a deadlock or a broken connection. -/
inductive Answer
  | executed (first : Bool)
  | attempt (number : ℤ)
  | moved
  | settled (first : Bool)
  | typeError (message : String)
  | thrown (failure : Failure)
  | lost
  deriving DecidableEq

/-- The statements of `onceForItem`. The callback runs in the same transaction. -/
inductive OncePhase
  | read
  | lockItem (taskID itemKey : String)
  | lockNamed (taskID itemKey : String)
  | findTask (taskID itemKey : String)
  | check (taskID itemKey : String)
  | findCurrent (taskID itemKey : String)
  | lockCurrent (taskID itemKey : String) (candidates : List String)
  | append (taskID itemKey currentID : String)
  | callback (taskID itemKey : String)
  | seen
  deriving DecidableEq

inductive CreatePhase
  | lockItem
  | findTask
  | number (tenantID : String)
  | insert (tenantID : String) (attempt : ℤ)
  | count (attempt : ℤ)
  | ready (attempt : ℤ)
  deriving DecidableEq

inductive RetryPhase
  | read
  | lockItem (taskID itemKey : String)
  | lockNamed
  | supersede (row : ExecutionRow)
  | number (row : ExecutionRow)
  | insert (row : ExecutionRow) (attempt : ℤ)
  | count (row : ExecutionRow) (attempt : ℤ)
  | ready (row : ExecutionRow) (attempt : ℤ)
  deriving DecidableEq

inductive MovePhase
  | lockNamed
  | update
  | count (taskID : String) (before : ExecutionState)
  | ready
  deriving DecidableEq

/-- The one statement of `settle_items`. Its subqueries keep the snapshot that `scan` takes, while
`lock` looks at the row of the task again once it holds it. -/
inductive SettlePhase
  | scan
  | lock
  | answered (first : Bool)
  deriving DecidableEq

/-- The live attempts of an item, `ORDER BY attempt DESC, id DESC`. -/
def Database.liveAttempts (db : Database) (taskID itemKey : String) : List String :=
  let live := (db.attemptsOfItem taskID itemKey).filter (·.2.live)
  (sortBy (fun entry => toLex (entry.2.attempt, entry.1)) live).reverse.map (·.1)

section
variable (hash : String → ℤ) (s : Shared) (i : ℕ) (now : Timestamp)

def onceForItem (executionID effectKey : String) : OncePhase → Reply Shared Failure OncePhase
  | .read =>
    if btrim executionID == "" || btrim effectKey == "" || decide (256 < (btrim effectKey).length) then
      .raised (.raised "RHINOQ_INVALID_ITEM_EFFECT")
    else
      match (s.view i).executions.lookup executionID with
      | none => .raised (.raised "RHINOQ_EXECUTION_NOT_FOUND" executionID)
      | some row => .moved s (.lockItem row.taskID row.itemKey)
  | .lockItem taskID itemKey => s.lockItem i hash taskID itemKey (.lockNamed taskID itemKey)
  | .lockNamed taskID itemKey => s.lockExecution i executionID fun _ locked => .moved locked (.findTask taskID itemKey)
  | .findTask taskID itemKey =>
    match (s.view i).tasks.lookup taskID with
    | none => .raised (.raised "RHINOQ_TASK_NOT_FOUND" taskID)
    | some _ => .moved s (.check taskID itemKey)
  | .check taskID itemKey =>
    if (s.view i).itemCarries taskID itemKey (btrim effectKey) then .moved s .seen
    else .moved s (.findCurrent taskID itemKey)
  | .findCurrent taskID itemKey => .moved s (.lockCurrent taskID itemKey ((s.view i).liveAttempts taskID itemKey))
  | .lockCurrent _ _ [] => .raised (.raised "RHINOQ_EXECUTION_NOT_FOUND" executionID)
  | .lockCurrent taskID itemKey (currentID :: others) =>
    -- `LIMIT 1 FOR UPDATE` checks the row it has locked again, and goes on to the next of its snapshot
    s.lockExecution i currentID fun row locked =>
      if row.taskID == taskID && row.itemKey == itemKey && row.live then .moved locked (.append taskID itemKey currentID)
      else .moved locked (.lockCurrent taskID itemKey others)
  | .append taskID itemKey currentID =>
    if ((s.executions.row currentID).visible i).any fun row => decide (256 ≤ row.effectKeys.length) then
      .raised (.violated "executions_effect_keys_cardinality_check")
    else s.updateExecution i currentID (fun row => row.claimed now (btrim effectKey)) fun _ => .callback taskID itemKey
  | .callback _ _ => .blocked
  | .seen => .blocked

def createExecution (request : CreateRequest) : CreatePhase → Reply Shared Failure CreatePhase
  | .lockItem =>
    if request.invalid then .raised (.raised "RHINOQ_INVALID_EXECUTION")
    else s.lockItem i hash request.taskID request.item .findTask
  | .findTask =>
    match (s.view i).tasks.lookup request.taskID with
    | none => .raised (.raised "RHINOQ_TASK_NOT_FOUND" request.taskID)
    | some task => .moved s (.number task.tenantID)
  | .number tenantID => .moved s (.insert tenantID ((s.view i).nextAttempt request.taskID request.item))
  | .insert tenantID attempt => s.insertExecution i request.id (request.row now tenantID attempt) (.count attempt)
  | .count attempt => s.updateTask i request.taskID (fun task => task.countInserted now .pendingDispatch) (.ready attempt)
  | .ready _ => .blocked

def retryExecution (id : String) (expected : Option ℤ) (newID : String) : RetryPhase → Reply Shared Failure RetryPhase
  | .read =>
    if btrim newID == "" then .raised (.raised "RHINOQ_INVALID_EXECUTION")
    else
      match (s.view i).executions.lookup id with
      | none => .raised (.raised "RHINOQ_EXECUTION_NOT_FOUND" id)
      | some row => .moved s (.lockItem row.taskID row.itemKey)
  | .lockItem taskID itemKey => s.lockItem i hash taskID itemKey .lockNamed
  | .lockNamed => s.lockExecution i id fun row locked =>
    if row.supersededAt.isSome then .raised (.raised "RHINOQ_EXECUTION_SUPERSEDED" id)
    else if stale row.version expected then .raised ((s.view i).executionConflict id expected "retryTaskExecution" row)
    else if !row.state.finished then
      .raised (.raised "RHINOQ_INVALID_EXECUTION_TRANSITION" (row.state.text ++ " -> superseded"))
    else .moved locked (.supersede row)
  | .supersede row => s.updateExecution i id (fun row => row.superseded now) fun _ => .number row
  | .number row => .moved s (.insert row ((s.view i).nextAttempt row.taskID row.itemKey))
  | .insert row attempt => s.insertExecution i newID (row.next now attempt) (.count row attempt)
  | .count row attempt => s.updateTask i row.taskID (fun task => task.countInserted now .dispatched) (.ready row attempt)
  | .ready _ _ => .blocked

def transitionExecution (id : String) (expected : Option ℤ) (target : ExecutionState) (reason : Option String) :
    MovePhase → Reply Shared Failure MovePhase
  | .lockNamed => s.lockExecution i id fun row locked =>
    if row.state = target then .moved locked .ready
    else if stale row.version expected then .raised ((s.view i).executionConflict id expected "transitionTaskExecution" row)
    else if !row.state.canTransition row.externalID.isSome target then
      .raised (.raised "RHINOQ_INVALID_EXECUTION_TRANSITION" (row.state.text ++ " -> " ++ target.text))
    else .moved locked .update
  | .update => s.updateExecution i id (fun row => row.moved now target reason) fun row => .count row.taskID row.state
  | .count taskID before => s.updateTask i taskID (fun task => task.countMoved now before target) .ready
  | .ready => .blocked

def settleItems (id : String) : SettlePhase → Reply Shared Failure SettlePhase
  | .scan =>
    let ready := ((s.view i).tasks.lookup id).any fun row => row.itemsSettledAt.isNone &&
      !((s.view i).liveExecutions id).isEmpty && ((s.view i).liveExecutions id).all (·.state.done)
    .moved s (if ready then .lock else .answered false)
  | .lock =>
    match (s.tasks.row id).visible i with
    | none => .moved s (.answered false)
    | some row =>
      if (s.tasks.row id).free i then
        if row.itemsSettledAt.isNone then
          .moved { s with tasks := s.tasks.write i id { row with itemsSettledAt := some now, updatedAt := now } }
            (.answered true)
        else .moved { s with tasks := s.tasks.lock i id } (.answered false)
      else .blocked
  | .answered _ => .blocked

end

/-- A call with its arguments. -/
inductive Call
  | onceForItem (executionID effectKey : String)
  | createExecution (request : CreateRequest)
  | retryExecution (id : String) (expected : Option ℤ) (newID : String)
  | transitionExecution (id : String) (expected : Option ℤ) (target : ExecutionState) (reason : Option String)
  | settleItems (id : String)

/-- A session: a transaction and where it stands, or the answer of the last one. -/
inductive Txn
  | idle
  | once (executionID effectKey : String) (phase : OncePhase)
  | create (request : CreateRequest) (phase : CreatePhase)
  | retry (id : String) (expected : Option ℤ) (newID : String) (phase : RetryPhase)
  | move (id : String) (expected : Option ℤ) (target : ExecutionState) (reason : Option String) (phase : MovePhase)
  | settle (id : String) (phase : SettlePhase)
  | ended (answer : Answer)
  deriving DecidableEq

def Call.start : Call → Txn
  | .onceForItem executionID effectKey =>
    if untold executionID || untold effectKey then
      .ended (.typeError "executionId and effectKey are required")
    else .once executionID effectKey .read
  | .createExecution request => .create request .lockItem
  | .retryExecution id expected newID => .retry id expected newID .read
  | .transitionExecution id expected target reason => .move id expected target reason .lockNamed
  | .settleItems id => .settle id .scan

namespace Txn

/-- No transaction is open. -/
def resting : Txn → Bool
  | .idle | .ended _ => true
  | _ => false

/-- The next statement of the transaction. -/
def statement (hash : String → ℤ) (s : Shared) (i : ℕ) (now : Timestamp) : Txn → Reply Shared Failure Txn
  | .once executionID effectKey phase => (onceForItem hash s i now executionID effectKey phase).map
    (.once executionID effectKey)
  | .create request phase => (createExecution hash s i now request phase).map (.create request)
  | .retry id expected newID phase => (retryExecution hash s i now id expected newID phase).map (.retry id expected newID)
  | .move id expected target reason phase =>
    (transitionExecution s i now id expected target reason phase).map (.move id expected target reason)
  | .settle id phase => (settleItems s i now id phase).map (.settle id)
  | .idle | .ended _ => .blocked

/-- The answer of a transaction that has only its commit left. For a claim that is when the callback
has returned. -/
def answer : Txn → Option Answer
  | .once _ _ (.callback _ _) => some (.executed true)
  | .once _ _ .seen => some (.executed false)
  | .create _ (.ready attempt) => some (.attempt attempt)
  | .retry _ _ _ (.ready _ attempt) => some (.attempt attempt)
  | .move _ _ _ _ .ready => some .moved
  | .settle _ (.answered first) => some (.settled first)
  | _ => none

/-- What the commit of a transaction adds to the record. -/
def record (s : Shared) : Txn → Shared
  | .once _ effectKey (.callback taskID itemKey) => { s with claims := s.claims ++ [(taskID, itemKey, btrim effectKey)] }
  | .settle id (.answered true) => { s with settlements := s.settlements ++ [id] }
  | _ => s

end Txn

namespace Transaction

inductive Event
  | start (i : ℕ) (call : Call)
  | statement (i : ℕ) (now : Timestamp)
  | commit (i : ℕ)
  | rollback (i : ℕ)

def step (hash : String → ℤ) (p : Pool Shared Txn) : Event → Option (Pool Shared Txn)
  | .start i call => if (p.thread i).resting then some (p.move i p.shared call.start) else none
  | .statement i now =>
    match (p.thread i).statement hash p.shared i now with
    | .blocked => none
    | .raised failure => some (p.move i (p.shared.abort i) (.ended (.thrown failure)))
    | .moved shared next => some (p.move i shared next)
  | .commit i =>
    match (p.thread i).answer with
    | none => none
    | some answer => some (p.move i ((p.thread i).record (p.shared.commit i)) (.ended answer))
  | .rollback i => if (p.thread i).resting then none else some (p.move i (p.shared.abort i) (.ended .lost))

/-- Sessions over tables in which nothing is held. -/
def machine (hash : String → ℤ) (db : Database) : Machine (Pool Shared Txn) Event where
  start :=
    { shared := { tasks := .stored db.tasks, executions := .stored db.executions }
      thread := fun _ => .idle }
  step := step hash

end Transaction

end RhinoQ.Model.TaskSchema
