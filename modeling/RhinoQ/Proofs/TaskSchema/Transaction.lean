import RhinoQ.Model.TaskSchema.Transaction

/-! # What a statement of a transaction does

Every statement that goes through is one of the moves of `Statement`. It locks or writes at most one
row and takes at most one advisory lock, and it never changes what is committed.
-/

namespace RhinoQ.Model.TaskSchema

open Shared

variable {s s' : Shared} {i : ℕ} {now : Timestamp} {φ : Type} {hash : String → ℤ}

namespace Shared

variable {id : String} {next : φ}

variable {result : φ}

@[simp] theorem view_executions (id : String) : (s.view i).executions.lookup id = (s.executions.row id).visible i :=
  VersionedTable.lookup_snapshot

@[simp] theorem view_tasks (id : String) : (s.view i).tasks.lookup id = (s.tasks.row id).visible i :=
  VersionedTable.lookup_snapshot

/-- The lock of an item as a state. -/
def takeItem (s : Shared) (hash : String → ℤ) (i : ℕ) (taskID itemKey : String) : Shared :=
  { s with advisory := Function.update s.advisory (hash (taskID ++ ":" ++ itemKey)) (some i) }

theorem lockItem_eq_moved (moved : s.lockItem i hash taskID itemKey next = .moved s' result) :
    (s.advisory (hash (taskID ++ ":" ++ itemKey))).all (· == i) = true ∧ s' = s.takeItem hash i taskID itemKey ∧
      result = next := by
  unfold lockItem at moved
  dsimp only at moved
  split_ifs at moved with free
  cases moved
  exact ⟨free, rfl, rfl⟩

/-- An execution is locked. -/
def lockRow (s : Shared) (i : ℕ) (id : String) : Shared := { s with executions := s.executions.lock i id }

/-- An execution is written. -/
def writeRow (s : Shared) (i : ℕ) (id : String) (row : ExecutionRow) :
    Shared := { s with executions := s.executions.write i id row }

theorem lockExecution_eq_moved {next : ExecutionRow → Shared → Reply Shared Failure φ}
    (moved : s.lockExecution i id next = .moved s' result) : ∃ row, s.executions.Reads i id (some row) ∧
      next row (s.lockRow i id) = .moved s' result := by
  unfold lockExecution at moved
  split at moved
  · cases moved
  rename_i row seen
  split_ifs at moved with free
  exact ⟨row, ⟨seen, free⟩, moved⟩

theorem updateExecution_eq_moved {next : ExecutionRow → φ}
    (moved : s.updateExecution i id change next = .moved s' result) : ∃ row, s.executions.Reads i id (some row) ∧
      s' = s.writeRow i id (change row) ∧ result = next row := by
  unfold updateExecution at moved
  split at moved
  · cases moved
  rename_i row seen
  split_ifs at moved with free
  cases moved
  exact ⟨row, ⟨seen, free⟩, rfl, rfl⟩

theorem insertExecution_eq_moved (moved : s.insertExecution i id row next = .moved s' result) :
    s.executions.Reads i id none ∧ s' = s.writeRow i id row ∧ result = next := by
  unfold insertExecution at moved
  split_ifs at moved with contested clash free
  cases moved
  rw [Bool.or_eq_true, not_or, Bool.not_eq_true, Option.isSome_eq_false_iff, Option.isNone_iff_eq_none] at clash
  exact ⟨⟨clash.1, free⟩, rfl, rfl⟩

/-- The triggers write the row of the task, if there is one. -/
inductive Counted (i : ℕ) (id : String) (s : Shared) : Shared → Prop
  | missing (unseen : (s.tasks.row id).visible i = none) : Counted i id s s
  | written (change : TaskRow → TaskRow) (reads : s.tasks.Reads i id (some row))
    (kept : (change row).itemsSettledAt = row.itemsSettledAt) :
    Counted i id s { s with tasks := s.tasks.write i id (change row) }

theorem updateTask_eq_moved (moved : s.updateTask i id change next = .moved s' result)
    (keeps : ∀ row, (change row).itemsSettledAt = row.itemsSettledAt) : Counted i id s s' ∧ result = next := by
  unfold updateTask at moved
  split at moved
  next unseen =>
    cases moved
    exact ⟨.missing unseen, rfl⟩
  next row seen =>
    split_ifs at moved with free
    cases moved
    exact ⟨.written change ⟨seen, free⟩ (keeps row), rfl⟩

end Shared

/-- The task has live attempts in a view, and all of them are done. -/
def Database.settled (db : Database) (id : String) : Bool :=
  !(db.liveExecutions id).isEmpty && (db.liveExecutions id).all (·.state.done)

variable (hash : String → ℤ) (i : ℕ) (now : Timestamp) (s : Shared) in
/-- The statements that go through, with what each has checked. -/
inductive Statement : Txn → Shared → Txn → Prop
  | onceRead {id : String} (valid : btrim key ≠ "" ∧ (btrim key).length ≤ 256)
    (seen : (s.executions.row id).visible i = some row) :
    Statement (.once id key .read) s (.once id key (.lockItem row.taskID row.itemKey))
  | onceLockItem {id : String} (free : (s.advisory (hash (taskID ++ ":" ++ itemKey))).all (· == i) = true) :
    Statement (.once id key (.lockItem taskID itemKey)) (s.takeItem hash i taskID itemKey)
      (.once id key (.lockNamed taskID itemKey))
  | onceLockNamed {id : String} (free : (s.executions.row id).free i = true) :
    Statement (.once id key (.lockNamed taskID itemKey)) (s.lockRow i id) (.once id key (.findTask taskID itemKey))
  | onceFindTask {id : String} (seen : (s.tasks.row taskID).visible i = some task) :
    Statement (.once id key (.findTask taskID itemKey)) s (.once id key (.check taskID itemKey))
  | onceSeen {id : String} (carried : (s.view i).itemCarries taskID itemKey (btrim key) = true) :
    Statement (.once id key (.check taskID itemKey)) s (.once id key .seen)
  | onceUnseen {id : String} (carried : (s.view i).itemCarries taskID itemKey (btrim key) = false) :
    Statement (.once id key (.check taskID itemKey)) s (.once id key (.findCurrent taskID itemKey))
  | onceFindCurrent {id : String} (candidates : List String) :
    Statement (.once id key (.findCurrent taskID itemKey)) s (.once id key (.lockCurrent taskID itemKey candidates))
  | onceLockCurrent {id : String} (reads : s.executions.Reads i currentID (some row))
    (belongs : row.taskID = taskID ∧ row.itemKey = itemKey) :
    Statement (.once id key (.lockCurrent taskID itemKey (currentID :: others)))
      (s.lockRow i currentID) (.once id key (.append taskID itemKey currentID))
  | oncePass {id : String} (free : (s.executions.row currentID).free i = true) :
    Statement (.once id key (.lockCurrent taskID itemKey (currentID :: others)))
      (s.lockRow i currentID) (.once id key (.lockCurrent taskID itemKey others))
  | onceAppend {id : String} (reads : s.executions.Reads i currentID (some row)) :
    Statement (.once id key (.append taskID itemKey currentID))
      (s.writeRow i currentID (row.claimed now (btrim key))) (.once id key (.callback taskID itemKey))
  | createLockItem (free : (s.advisory (hash (request.taskID ++ ":" ++ request.item))).all (· == i) = true) :
    Statement (.create request .lockItem) (s.takeItem hash i request.taskID request.item) (.create request .findTask)
  | createFindTask (tenantID : String) : Statement (.create request .findTask) s (.create request (.number tenantID))
  | createNumber (attempt : ℤ) : Statement (.create request (.number tenantID)) s
    (.create request (.insert tenantID attempt))
  | createInsert (reads : s.executions.Reads i request.id none) : Statement (.create request (.insert tenantID attempt))
      (s.writeRow i request.id (request.row now tenantID attempt)) (.create request (.count attempt))
  | createCount (counted : s.Counted i request.taskID after) :
    Statement (.create request (.count attempt)) after (.create request (.ready attempt))
  | retryRead {id : String} (taskID itemKey : String) :
    Statement (.retry id expected newID .read) s (.retry id expected newID (.lockItem taskID itemKey))
  | retryLockItem {id : String} (free : (s.advisory (hash (taskID ++ ":" ++ itemKey))).all (· == i) = true) :
    Statement (.retry id expected newID (.lockItem taskID itemKey)) (s.takeItem hash i taskID itemKey)
      (.retry id expected newID .lockNamed)
  | retryLockNamed {id : String} (reads : s.executions.Reads i id (some row)) :
    Statement (.retry id expected newID .lockNamed) (s.lockRow i id) (.retry id expected newID (.supersede row))
  | retrySupersede {id : String} {found : ExecutionRow} (reads : s.executions.Reads i id (some found)) :
    Statement (.retry id expected newID (.supersede row))
      (s.writeRow i id (found.superseded now)) (.retry id expected newID (.number row))
  | retryNumber {id : String} (attempt : ℤ) :
    Statement (.retry id expected newID (.number row)) s (.retry id expected newID (.insert row attempt))
  | retryInsert {id : String} (reads : s.executions.Reads i newID none) :
    Statement (.retry id expected newID (.insert row attempt))
      (s.writeRow i newID (row.next now attempt)) (.retry id expected newID (.count row attempt))
  | retryCount {id : String} (counted : s.Counted i row.taskID after) :
    Statement (.retry id expected newID (.count row attempt)) after (.retry id expected newID (.ready row attempt))
  | moveSame {id : String} (free : (s.executions.row id).free i = true) :
    Statement (.move id expected target reason .lockNamed) (s.lockRow i id) (.move id expected target reason .ready)
  | moveLockNamed {id : String} (reads : s.executions.Reads i id (some row)) (open' : row.state.done = false) :
    Statement (.move id expected target reason .lockNamed) (s.lockRow i id) (.move id expected target reason .update)
  | moveUpdate {id : String} (reads : s.executions.Reads i id (some row)) : Statement
    (.move id expected target reason .update)
      (s.writeRow i id (row.moved now target reason)) (.move id expected target reason (.count row.taskID row.state))
  | moveCount {id : String} (counted : s.Counted i taskID after) :
    Statement (.move id expected target reason (.count taskID before)) after (.move id expected target reason .ready)
  | settleScan {id : String} (ready : (s.view i).settled id = true) : Statement (.settle id .scan) s (.settle id .lock)
  | settleUnready {id : String} : Statement (.settle id .scan) s (.settle id (.answered false))
  | settleMissing {id : String} : Statement (.settle id .lock) s (.settle id (.answered false))
  | settleWrite {id : String} (reads : s.tasks.Reads i id (some row)) (unsettled : row.itemsSettledAt = none) :
    Statement (.settle id .lock)
      { s with tasks := s.tasks.write i id { row with itemsSettledAt := some now, updatedAt := now } }
        (.settle id (.answered true))
  | settlePass {id : String} (free : (s.tasks.row id).free i = true) :
    Statement (.settle id .lock) { s with tasks := s.tasks.lock i id } (.settle id (.answered false))

/-- No transition leaves a state in which an attempt is done. -/
theorem ExecutionState.done_of_canTransition {before target : ExecutionState}
    (moves : before.canTransition bound target = true) : before.done = false := by
  cases before with
  | succeeded | failed | cancelled => cases moves
  | pendingDispatch | dispatched | running | stalled => rfl

section
variable {id key newID : String} {expected : Option ℤ} {target : ExecutionState} {reason : Option String}
    {request : CreateRequest}

theorem onceForItem_statement (moved : onceForItem hash s i now id key phase = .moved s' next) :
    Statement hash i now s (.once id key phase) s' (.once id key next) := by
  cases phase with
  | read =>
    rw [onceForItem] at moved
    split_ifs at moved with invalid
    rw [view_executions] at moved
    simp only [Bool.or_eq_true, beq_iff_eq, decide_eq_true_eq, not_or, not_lt] at invalid
    split at moved
    · cases moved
    rename_i row seen
    cases moved
    exact .onceRead ⟨invalid.1.2, invalid.2⟩ seen
  | lockItem taskID itemKey =>
    rw [onceForItem] at moved
    obtain ⟨free, rfl, rfl⟩ := lockItem_eq_moved moved
    exact .onceLockItem free
  | lockNamed taskID itemKey =>
    rw [onceForItem] at moved
    obtain ⟨row, reads, moved⟩ := lockExecution_eq_moved moved
    cases moved
    exact .onceLockNamed reads.free
  | findTask taskID itemKey =>
    rw [onceForItem, view_tasks] at moved
    split at moved
    · cases moved
    rename_i task seen
    cases moved
    exact .onceFindTask seen
  | check taskID itemKey =>
    rw [onceForItem] at moved
    split_ifs at moved with carried
    · cases moved
      exact .onceSeen carried
    · cases moved
      exact .onceUnseen (Bool.not_eq_true _ ▸ carried)
  | findCurrent taskID itemKey =>
    cases moved
    exact .onceFindCurrent _
  | lockCurrent taskID itemKey candidates =>
    cases candidates with
    | nil => cases moved
    | cons currentID others =>
      rw [onceForItem] at moved
      obtain ⟨row, reads, moved⟩ := lockExecution_eq_moved moved
      split_ifs at moved with current
      · cases moved
        simp only [Bool.and_eq_true, beq_iff_eq] at current
        exact .onceLockCurrent reads current.1
      · cases moved
        exact .oncePass reads.free
  | append taskID itemKey currentID =>
    rw [onceForItem] at moved
    split_ifs at moved with full
    obtain ⟨row, reads, rfl, rfl⟩ := updateExecution_eq_moved moved
    exact .onceAppend reads
  | callback taskID itemKey => cases moved
  | seen => cases moved

theorem createExecution_statement (moved : createExecution hash s i now request phase = .moved s' next) :
    Statement hash i now s (.create request phase) s' (.create request next) := by
  cases phase with
  | lockItem =>
    rw [createExecution] at moved
    split_ifs at moved with invalid
    obtain ⟨free, rfl, rfl⟩ := lockItem_eq_moved moved
    exact .createLockItem free
  | findTask =>
    rw [createExecution] at moved
    split at moved
    · cases moved
    rename_i task seen
    cases moved
    exact .createFindTask _
  | number tenantID =>
    cases moved
    exact .createNumber _
  | insert tenantID attempt =>
    rw [createExecution] at moved
    obtain ⟨reads, rfl, rfl⟩ := insertExecution_eq_moved moved
    exact .createInsert reads
  | count attempt =>
    rw [createExecution] at moved
    obtain ⟨counted, rfl⟩ := updateTask_eq_moved moved fun _ => rfl
    exact .createCount counted
  | ready attempt => cases moved

theorem retryExecution_statement (moved : retryExecution hash s i now id expected newID phase = .moved s' next) :
    Statement hash i now s (.retry id expected newID phase) s' (.retry id expected newID next) := by
  cases phase with
  | read =>
    rw [retryExecution] at moved
    split_ifs at moved with invalid
    split at moved
    · cases moved
    cases moved
    exact .retryRead _ _
  | lockItem taskID itemKey =>
    rw [retryExecution] at moved
    obtain ⟨free, rfl, rfl⟩ := lockItem_eq_moved moved
    exact .retryLockItem free
  | lockNamed =>
    rw [retryExecution] at moved
    obtain ⟨row, reads, moved⟩ := lockExecution_eq_moved moved
    split_ifs at moved
    cases moved
    exact .retryLockNamed reads
  | supersede row =>
    rw [retryExecution] at moved
    obtain ⟨found, reads, rfl, rfl⟩ := updateExecution_eq_moved moved
    exact .retrySupersede reads
  | number row =>
    cases moved
    exact .retryNumber _
  | insert row attempt =>
    rw [retryExecution] at moved
    obtain ⟨reads, rfl, rfl⟩ := insertExecution_eq_moved moved
    exact .retryInsert reads
  | count row attempt =>
    rw [retryExecution] at moved
    obtain ⟨counted, rfl⟩ := updateTask_eq_moved moved fun _ => rfl
    exact .retryCount counted
  | ready row attempt => cases moved

theorem transitionExecution_statement (moved : transitionExecution s i now id expected target reason phase = .moved s'
    next) :
    Statement hash i now s (.move id expected target reason phase) s' (.move id expected target reason next) := by
  cases phase with
  | lockNamed =>
    rw [transitionExecution] at moved
    obtain ⟨row, reads, moved⟩ := lockExecution_eq_moved moved
    split_ifs at moved with same conflict refused
    · cases moved
      exact .moveSame reads.free
    · cases moved
      rw [Bool.not_eq_true', Bool.not_eq_false] at refused
      exact .moveLockNamed reads (ExecutionState.done_of_canTransition refused)
  | update =>
    rw [transitionExecution] at moved
    obtain ⟨row, reads, rfl, rfl⟩ := updateExecution_eq_moved moved
    exact .moveUpdate reads
  | count taskID before =>
    rw [transitionExecution] at moved
    obtain ⟨counted, rfl⟩ := updateTask_eq_moved moved fun _ => rfl
    exact .moveCount counted
  | ready => cases moved

theorem settleItems_statement (moved : settleItems s i now id phase = .moved s' next) :
    Statement hash i now s (.settle id phase) s' (.settle id next) := by
  cases phase with
  | scan =>
    simp only [settleItems, Reply.moved.injEq] at moved
    obtain ⟨rfl, rfl⟩ := moved
    split_ifs with ready
    · obtain ⟨row, _, ready⟩ := (Option.any_eq_true _ _).mp ready
      rw [Bool.and_assoc, Bool.and_eq_true] at ready
      exact .settleScan ready.2
    · exact .settleUnready
  | lock =>
    rw [settleItems] at moved
    split at moved
    · cases moved
      exact .settleMissing
    next row seen =>
      split_ifs at moved with free unsettled
      · cases moved
        exact .settleWrite ⟨seen, free⟩ (Option.isNone_iff_eq_none.mp unsettled)
      · cases moved
        exact .settlePass free
  | answered first => cases moved

end

theorem Txn.statement_eq_moved (moved : txn.statement hash s i now = .moved s' next) :
    Statement hash i now s txn s' next := by
  cases txn with
  | idle => cases moved
  | ended answer => cases moved
  | once id key phase =>
    obtain ⟨phase', ran, rfl⟩ := Reply.map_eq_moved moved
    exact onceForItem_statement ran
  | create request phase =>
    obtain ⟨phase', ran, rfl⟩ := Reply.map_eq_moved moved
    exact createExecution_statement ran
  | retry id expected newID phase =>
    obtain ⟨phase', ran, rfl⟩ := Reply.map_eq_moved moved
    exact retryExecution_statement ran
  | move id expected target reason phase =>
    obtain ⟨phase', ran, rfl⟩ := Reply.map_eq_moved moved
    exact transitionExecution_statement ran
  | settle id phase =>
    obtain ⟨phase', ran, rfl⟩ := Reply.map_eq_moved moved
    exact settleItems_statement ran

end RhinoQ.Model.TaskSchema
