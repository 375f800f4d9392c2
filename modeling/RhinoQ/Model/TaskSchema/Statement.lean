import RhinoQ.Machine.Path
import RhinoQ.Model.TaskSchema.Execution
import RhinoQ.ToMathlib.FiniteMapBatch

/-! # Statements on the executions table

`INSERT`, `UPDATE` and `DELETE` statements on any number of rows, with the statement triggers of migration 016.
A statement that breaks a key, a unique index or the reference to its task fails as a whole. An `INSERT`
carries no `ON CONFLICT`.
-/

namespace RhinoQ.Model.TaskSchema

namespace Counts

/-- `count(*)` and `count(*) FILTER (WHERE state = ...)` over the rows of a group. -/
def tally (rows : List ExecutionRow) : Counts where
  total := rows.length
  pendingDispatch := rows.countP (·.state == .pendingDispatch)
  dispatched := rows.countP (·.state == .dispatched)
  running := rows.countP (·.state == .running)
  succeeded := rows.countP (·.state == .succeeded)
  failed := rows.countP (·.state == .failed)
  stalled := rows.countP (·.state == .stalled)
  cancelled := rows.countP (·.state == .cancelled)

def plus (a b : Counts) : Counts where
  total := a.total + b.total
  pendingDispatch := a.pendingDispatch + b.pendingDispatch
  dispatched := a.dispatched + b.dispatched
  running := a.running + b.running
  succeeded := a.succeeded + b.succeeded
  failed := a.failed + b.failed
  stalled := a.stalled + b.stalled
  cancelled := a.cancelled + b.cancelled

def minus (a b : Counts) : Counts where
  total := a.total - b.total
  pendingDispatch := a.pendingDispatch - b.pendingDispatch
  dispatched := a.dispatched - b.dispatched
  running := a.running - b.running
  succeeded := a.succeeded - b.succeeded
  failed := a.failed - b.failed
  stalled := a.stalled - b.stalled
  cancelled := a.cancelled - b.cancelled

end Counts

/-- The rows of one task. -/
def ofTask (taskID : String) (rows : List ExecutionRow) : List ExecutionRow := rows.filter (·.taskID == taskID)

/-- A row as the transition tables show it, with its id. -/
abbrev Tuple := String × ExecutionRow

/-- What an `UPDATE` does to one row. It may write any column, the id among them. -/
structure RowUpdate where
  id : String
  newID : String
  row : ExecutionRow

inductive RowStatement
  | insert (rows : List Tuple)
  | update (rows : List RowUpdate)
  | delete (ids : List String)

namespace Database

variable (db : Database)

/-- The stored rows under the ids. -/
def tuples (ids : List String) : List Tuple :=
  ids.filterMap fun id => (db.executions.lookup id).map fun row => (id, row)

variable (now : Timestamp)

/-- Write a task once for each group of the delta, with its counters and its version. -/
def countGroups (groups : List String) (change : String → Counts → Counts) : Database :=
  groups.dedup.foldl (fun db taskID => db.updateTask taskID fun task =>
    { task with counts := change taskID task.counts, version := task.version + 1, updatedAt := now }) db

/-- `execution_counts_inserted`. -/
def countsInserted (inserted : List Tuple) : Database :=
  let rows := inserted.map Prod.snd
  db.countGroups now (rows.map ExecutionRow.taskID) fun taskID counts => counts.plus (.tally (ofTask taskID rows))

/-- `updated JOIN superseded USING (id) WHERE before.state IS DISTINCT FROM after.state`. -/
def movedRows (superseded updated : List Tuple) : List (ExecutionRow × ExecutionRow) :=
  updated.flatMap fun after =>
    (superseded.filter fun before => before.1 == after.1 && before.2.state != after.2.state).map fun before =>
      (before.2, after.2)

/-- `execution_counts_updated`. The total is not written. -/
def countsUpdated (superseded updated : List Tuple) : Database :=
  let moved := movedRows superseded updated
  db.countGroups now (moved.map (·.2.taskID)) fun taskID counts =>
    let group := moved.filter (·.2.taskID == taskID)
    { (counts.plus (.tally (group.map Prod.snd))).minus (.tally (group.map Prod.fst)) with total := counts.total }

/-- `execution_counts_deleted`. -/
def countsDeleted (removed : List Tuple) : Database :=
  let rows := removed.map Prod.snd
  db.countGroups now (rows.map ExecutionRow.taskID) fun taskID counts => counts.minus (.tally (ofTask taskID rows))

/-- Take rows out of the table and put rows in, or fail on a constraint. -/
def replaceRows (gone : List String) (new : List Tuple) : Except Failure Database := do
  refuse (!decide gone.Nodup || gone.any fun id => (db.executions.lookup id).isNone) (.violated "no_such_row")
  let rest := FiniteMap.eraseAll db.executions gone
  refuse (!decide (new.map Prod.fst).Nodup || new.any fun tuple => (rest.lookup tuple.1).isSome)
    (.violated "unique_violation")
  let stored := { db with executions := FiniteMap.insertAll rest new }
  refuse (new.any fun tuple => stored.clashes tuple.1 tuple.2) (.violated "unique_violation")
  refuse (new.any fun tuple => (db.tasks.lookup tuple.2.taskID).isNone) (.violated "foreign_key_violation")
  return stored

/-- Run a statement and its trigger. A statement that names a row twice or one that is not there is none. -/
def runStatement : RowStatement → Except Failure Database
  | .insert rows => do
    let stored ← db.replaceRows [] rows
    return stored.countsInserted now rows
  | .update rows => do
    let stored ← db.replaceRows (rows.map RowUpdate.id) (rows.map fun change => (change.newID, change.row))
    return stored.countsUpdated now (db.tuples (rows.map RowUpdate.id)) (rows.map fun change => (change.newID, change.row))
  | .delete ids => do
    let stored ← db.replaceRows ids []
    return stored.countsDeleted now (db.tuples ids)

/-- The counters as migration 002 fills them in for the tasks that have executions. -/
def backfill : Database :=
  let rows := FiniteMap.values db.executions
  (rows.map ExecutionRow.taskID).dedup.foldl (fun db taskID => db.updateTask taskID fun task =>
    { task with counts := .tally (ofTask taskID rows) }) db

end Database

/-- A statement and the clock its trigger reads. -/
structure StatementEvent where
  now : Timestamp
  statement : RowStatement

/-- Sequences of statements. One that fails changes nothing and is no step. -/
def statements (db : Database) : Machine Database StatementEvent where
  start := db
  step db event := (db.runStatement event.now event.statement).toOption

end RhinoQ.Model.TaskSchema
