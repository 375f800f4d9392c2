import RhinoQ.Proofs.TaskSchema.Statement

/-! # Exact execution counters

The statement triggers of migration 016 add signed deltas over transition tables to the counters of a task.
Pairing old and new rows by id needs an `UPDATE` to leave the ids alone, grouping them by the new task needs it
to leave the tasks alone.
-/

namespace RhinoQ.Model.TaskSchema

open Database Counts

namespace Database

/-- The executions of a task. -/
def executionsOf (db : Database) (taskID : String) : List ExecutionRow := ofTask taskID (FiniteMap.values db.executions)

/-- The state an id has among the executions of a task. -/
def stateIn (db : Database) (taskID id : String) : Option ExecutionState :=
  (db.executions.lookup id).bind fun row => if row.taskID = taskID then some row.state else none

end Database

/-- Every task counts its executions, in total and in each state. -/
def Counted (db : Database) : Prop :=
  ∀ taskID task, db.tasks.lookup taskID = some task → task.counts = .tally (db.executionsOf taskID)

/-- An execution of the task was inserted, was deleted or is in another state. -/
def Affected (before after : Database) (taskID : String) : Prop :=
  ∃ id, before.stateIn taskID id ≠ after.stateIn taskID id

/-- The counters are exact after a statement, and the version of a task moved if and only if it was affected. -/
structure Recounted (before after : Database) : Prop where
  counted : Counted after
  affected : ∀ taskID task, before.tasks.lookup taskID = some task → Affected before after taskID →
    ∃ next, after.tasks.lookup taskID = some next ∧ next.version = task.version + 1
  unaffected : ∀ taskID task, before.tasks.lookup taskID = some task → ¬Affected before after taskID →
    ∃ next, after.tasks.lookup taskID = some next ∧ next.version = task.version

section
variable {db stored : Database} {now : Timestamp}
variable {change : RowUpdate} {id : String} {row : ExecutionRow} {after : Database}

/-- A trigger is right when its groups are the affected tasks and its change of a group is the change of its tally. -/
theorem recounted_of_groups {change : String → Counts → Counts} (counted : Counted db)
    (tasks : stored.tasks = db.tasks) (grouped : ∀ taskID, taskID ∈ groups ↔ Affected db stored taskID)
    (changed : ∀ taskID ∈ groups, change taskID (.tally (db.executionsOf taskID)) = .tally (stored.executionsOf taskID))
    (same : ∀ taskID, taskID ∉ groups → tally (stored.executionsOf taskID) = .tally (db.executionsOf taskID)) :
    Recounted db (stored.countGroups now groups change) := by
  have executions (taskID : String) :
      (stored.countGroups now groups change).executionsOf taskID = stored.executionsOf taskID := by
    rw [executionsOf, executions_countGroups, executionsOf]
  have affected (taskID : String) : Affected db (stored.countGroups now groups change) taskID ↔ taskID ∈ groups := by
    rw [grouped, Affected, Affected]
    simp only [stateIn, executions_countGroups]
  refine ⟨?_, ?_, ?_⟩
  · intro taskID task found
    rw [lookup_countGroups, tasks] at found
    rw [executions]
    split at found
    next member =>
      obtain ⟨old, present, rfl⟩ := Option.map_eq_some_iff.mp found
      rw [← changed taskID member, counted taskID old present]
    next absent => rw [same taskID absent, counted taskID task found]
  · intro taskID task found moved
    rw [lookup_countGroups, if_pos ((affected taskID).mp moved), tasks, found]
    exact ⟨_, rfl, rfl⟩
  · intro taskID task found still
    rw [lookup_countGroups, if_neg fun member => still ((affected taskID).mpr member), tasks]
    exact ⟨task, found, rfl⟩

namespace Replaces

variable {gone : List String} {taskID : String}

section
variable (replaces : Replaces db gone new stored)
include replaces

theorem lookup_new (member : (id, row) ∈ new) :
    stored.executions.lookup id = some row := (replaces.lookup id row).mpr (.inl member)

theorem lookup_gone (member : id ∈ gone) (absent : id ∉ new.map Prod.fst) : stored.executions.lookup id = none := by
  apply Option.eq_none_iff_forall_ne_some.mpr
  intro row found
  rcases (replaces.lookup id row).mp found with inserted | ⟨_, kept, _⟩
  · exact absent (List.mem_map_of_mem inserted)
  · exact kept member

theorem lookup_kept (kept : id ∉ gone) (absent : id ∉ new.map Prod.fst) :
    stored.executions.lookup id = db.executions.lookup id := by
  apply Option.ext
  intro row
  rw [replaces.lookup]
  constructor
  · rintro (inserted | ⟨_, _, found⟩)
    · exact absurd (List.mem_map_of_mem inserted) absent
    · exact found
  · exact fun found => .inr ⟨absent, kept, found⟩

/-- Only an id that the statement names can tell the tables apart. -/
theorem affected_iff : Affected db stored taskID ↔
      ∃ id, (id ∈ gone ∨ id ∈ new.map Prod.fst) ∧ db.stateIn taskID id ≠ stored.stateIn taskID id := by
  constructor
  · rintro ⟨id, differs⟩
    refine ⟨id, ?_, differs⟩
    by_contra untouched
    rw [not_or] at untouched
    exact differs (by rw [stateIn, stateIn, replaces.lookup_kept untouched.1 untouched.2])
  · rintro ⟨id, _, differs⟩
    exact ⟨id, differs⟩

/-- The executions of a task before and after, around the rows that stayed. -/
theorem executionsOf (taskID : String) :
    ∃ rest, (db.executionsOf taskID).Perm (ofTask taskID (gone.filterMap db.executions.lookup ++ rest)) ∧
      (stored.executionsOf taskID).Perm (ofTask taskID (new.map Prod.snd ++ rest)) := by
  obtain ⟨rest, before, after⟩ := replaces.rows
  exact ⟨rest, before.filter _, after.filter _⟩

theorem tallies (taskID : String) :
    ∃ rest, tally (db.executionsOf taskID) = (tally (ofTask taskID (gone.filterMap db.executions.lookup))).plus rest ∧
      tally (stored.executionsOf taskID) = (tally (ofTask taskID (new.map Prod.snd))).plus rest := by
  obtain ⟨rest, before, after⟩ := replaces.executionsOf taskID
  refine ⟨.tally (ofTask taskID rest), ?_, ?_⟩
  · rw [tally_perm before, ofTask, List.filter_append, tally_append]
    rfl
  · rw [tally_perm after, ofTask, List.filter_append, tally_append]
    rfl

end

end Replaces

theorem stateIn_of_lookup (found : db.executions.lookup id = some row) (taskID : String) :
    db.stateIn taskID id = if row.taskID = taskID then some row.state else none := by
  rw [stateIn, found, Option.bind_some]

theorem stateIn_of_none (absent : db.executions.lookup id = none) (taskID : String) : db.stateIn taskID id = none := by
  rw [stateIn, absent, Option.bind_none]

theorem ofTask_eq_nil (absent : taskID ∉ rows.map ExecutionRow.taskID) : ofTask taskID rows = [] := by
  apply List.filter_eq_nil_iff.mpr
  intro row member same
  exact absent (List.mem_map.mpr ⟨row, member, beq_iff_eq.mp same⟩)

/-! ## The statements -/

theorem recounted_insert (counted : Counted db) (replaces : Replaces db [] rows stored) :
    Recounted db (stored.countsInserted now rows) := by
  unfold countsInserted
  apply recounted_of_groups counted replaces.tasks
  · intro taskID
    rw [replaces.affected_iff]
    constructor
    · intro member
      obtain ⟨row, listed, rfl⟩ := List.mem_map.mp member
      obtain ⟨⟨id, row⟩, inserted, rfl⟩ := List.mem_map.mp listed
      refine ⟨id, .inr (List.mem_map_of_mem inserted), ?_⟩
      rw [stateIn_of_none (replaces.fresh _ inserted List.not_mem_nil),
        stateIn_of_lookup (replaces.lookup_new inserted), if_pos rfl]
      exact (Option.some_ne_none _).symm
    · rintro ⟨id, named, differs⟩
      obtain ⟨⟨id, row⟩, inserted, rfl⟩ := List.mem_map.mp (named.resolve_left List.not_mem_nil)
      rw [stateIn_of_none (replaces.fresh _ inserted List.not_mem_nil),
        stateIn_of_lookup (replaces.lookup_new inserted)] at differs
      split at differs
      next own => exact List.mem_map.mpr ⟨row, List.mem_map.mpr ⟨(id, row), inserted, rfl⟩, own⟩
      next => exact absurd rfl differs
  · intro taskID _
    obtain ⟨rest, before, after⟩ := replaces.tallies taskID
    rw [before, after, List.filterMap_nil, ofTask, List.filter_nil, tally_nil_plus]
    exact plus_comm ..
  · intro taskID absent
    obtain ⟨rest, before, after⟩ := replaces.tallies taskID
    rw [before, after, ofTask_eq_nil absent]
    rfl

theorem tuples_snd (ids : List String) : (db.tuples ids).map Prod.snd = ids.filterMap db.executions.lookup := by
  rw [tuples, List.map_filterMap]
  congr 1
  funext id
  cases db.executions.lookup id <;> rfl

theorem recounted_delete (counted : Counted db) (replaces : Replaces db ids [] stored) :
    Recounted db (stored.countsDeleted now (db.tuples ids)) := by
  unfold countsDeleted
  rw [tuples_snd]
  apply recounted_of_groups counted replaces.tasks
  · intro taskID
    rw [replaces.affected_iff]
    constructor
    · intro member
      obtain ⟨row, listed, rfl⟩ := List.mem_map.mp member
      obtain ⟨id, removed, found⟩ := List.mem_filterMap.mp listed
      refine ⟨id, .inl removed, ?_⟩
      rw [stateIn_of_lookup found, stateIn_of_none (replaces.lookup_gone removed List.not_mem_nil), if_pos rfl]
      exact Option.some_ne_none _
    · rintro ⟨id, named, differs⟩
      have removed : id ∈ ids := named.resolve_right List.not_mem_nil
      obtain ⟨row, found⟩ := Option.isSome_iff_exists.mp (replaces.present id removed)
      rw [stateIn_of_lookup found, stateIn_of_none (replaces.lookup_gone removed List.not_mem_nil)] at differs
      split at differs
      next own => exact List.mem_map.mpr ⟨row, List.mem_filterMap.mpr ⟨id, removed, found⟩, own⟩
      next => exact absurd rfl differs
  · intro taskID _
    obtain ⟨rest, before, after⟩ := replaces.tallies taskID
    rw [before, after, plus_minus, List.map_nil, ofTask, List.filter_nil, tally_nil_plus]
  · intro taskID absent
    obtain ⟨rest, before, after⟩ := replaces.tallies taskID
    rw [before, after, ofTask_eq_nil absent]
    rfl

/-- Every row keeps its id and its task. -/
def keepsIdentity (db : Database) : RowStatement → Bool
  | .update rows => rows.all fun change =>
    change.newID == change.id && (db.executions.lookup change.id).all fun row => row.taskID == change.row.taskID
  | _ => true

section
variable {rows : List RowUpdate} (distinct : (rows.map RowUpdate.id).Nodup)
include distinct

/-- With distinct ids, the filter by one of them keeps at most its own element. -/
theorem filter_of_id (keep : RowUpdate → Bool) (member : change ∈ rows) :
    rows.filter (fun other => other.id == change.id && keep other) = if keep change then [change] else [] := by
  induction rows with
  | nil => cases member
  | cons first rest ih =>
    rw [List.map_cons, List.nodup_cons] at distinct
    rcases List.mem_cons.mp member with rfl | later
    · have others : rest.filter (fun other => other.id == change.id && keep other) = [] := by
        apply List.filter_eq_nil_iff.mpr
        intro other among same
        rw [Bool.and_eq_true, beq_iff_eq] at same
        exact distinct.1 (List.mem_map.mpr ⟨other, among, same.1⟩)
      rw [List.filter_cons, others, beq_self_eq_true, Bool.true_and]
    · have different : (first.id == change.id) = false := by
        apply beq_eq_false_iff_ne.mpr
        intro same
        exact distinct.1 (same ▸ List.mem_map_of_mem later)
      rw [List.filter_cons, different, Bool.false_and, if_neg Bool.false_ne_true, ih distinct.2 later]

/-- The join over the transition tables of an `UPDATE` that keeps the ids. -/
theorem movedRows_eq (old : RowUpdate → ExecutionRow) :
    movedRows (rows.map fun change => (change.id, old change)) (rows.map fun change => (change.id, change.row)) =
      (rows.map fun change => (old change, change.row)).filter fun pair => pair.1.state != pair.2.state := by
  have joined (change : RowUpdate) (member : change ∈ rows) :
      ((rows.map fun change => (change.id, old change)).filter fun before =>
          before.1 == change.id && before.2.state != change.row.state).map (fun before => (before.2, change.row)) =
        if (old change).state != change.row.state then [(old change, change.row)] else [] := by
    rw [List.filter_map]
    refine (congrArg _ (congrArg _ (filter_of_id distinct
      (fun other => (old other).state != change.row.state) member))).trans ?_
    split <;> rfl
  rw [movedRows, List.flatMap_map, List.filter_map]
  refine (List.flatMap_congr joined).trans ?_
  clear joined distinct
  induction rows with
  | nil => rfl
  | cons change rest ih =>
    rw [List.flatMap_cons, ih, List.filter_cons, Function.comp_apply]
    split <;> rfl

end

/-- The row an update found. -/
def foundRow (db : Database) (change : RowUpdate) : ExecutionRow := (db.executions.lookup change.id).getD change.row

/-- The rows of an update, each as found and as written. -/
def changes (db : Database) (rows : List RowUpdate) : List (ExecutionRow × ExecutionRow) :=
  rows.map fun change => (foundRow db change, change.row)

section
variable {rows : List RowUpdate} {taskID : String}

section
variable {new : List Tuple} (replaces : Replaces db (rows.map RowUpdate.id) new stored)
include replaces

theorem lookup_foundRow (member : change ∈ rows) : db.executions.lookup change.id = some (foundRow db change) := by
  obtain ⟨row, found⟩ := Option.isSome_iff_exists.mp (replaces.present change.id (List.mem_map_of_mem member))
  rw [foundRow, found, Option.getD_some]

theorem tuples_foundRow : db.tuples (rows.map RowUpdate.id) = rows.map fun change => (change.id, foundRow db change) := by
  rw [tuples, List.filterMap_map, ← List.filterMap_eq_map]
  apply List.filterMap_congr
  intro change member
  rw [Function.comp_apply, lookup_foundRow replaces member]
  rfl

theorem same_of_keepsIdentity (kept : keepsIdentity db (.update rows) = true) (member : change ∈ rows) :
    change.newID = change.id ∧ (foundRow db change).taskID = change.row.taskID := by
  have both := List.all_eq_true.mp kept change member
  rw [lookup_foundRow replaces member, Option.all_some, Bool.and_eq_true, beq_iff_eq, beq_iff_eq] at both
  exact both

end

variable (replaces : Replaces db (rows.map RowUpdate.id) (rows.map fun change => (change.id, change.row)) stored)
  (task : ∀ change ∈ rows, (foundRow db change).taskID = change.row.taskID)
include replaces

/-- The tallies around an update, over the rows that stayed. -/
theorem tallies_changes (taskID : String) : ∃ rest,
    tally (db.executionsOf taskID) = .tally (ofTask taskID ((changes db rows).map Prod.fst ++ rest)) ∧
      tally (stored.executionsOf taskID) = .tally (ofTask taskID ((changes db rows).map Prod.snd ++ rest)) := by
  obtain ⟨rest, before, after⟩ := replaces.executionsOf taskID
  have gone : (rows.map RowUpdate.id).filterMap db.executions.lookup = (changes db rows).map Prod.fst := by
    rw [← tuples_snd, tuples_foundRow replaces, changes, List.map_map, List.map_map]
    rfl
  have new : (rows.map fun change => (change.id, change.row)).map Prod.snd = (changes db rows).map Prod.snd := by
    rw [changes, List.map_map, List.map_map]
    rfl
  rw [gone] at before
  rw [new] at after
  exact ⟨rest, tally_perm before, tally_perm after⟩

include task

/-- The groups of the trigger are the affected tasks. -/
theorem mem_groups_iff : taskID ∈ ((changes db rows).filter fun pair => pair.1.state != pair.2.state).map (·.2.taskID) ↔
    Affected db stored taskID := by
  have written {change : RowUpdate} (member : change ∈ rows) : stored.executions.lookup change.id = some change.row :=
    replaces.lookup_new (List.mem_map_of_mem member)
  rw [replaces.affected_iff]
  constructor
  · intro member
    obtain ⟨pair, listed, rfl⟩ := List.mem_map.mp member
    obtain ⟨among, moved⟩ := List.mem_filter.mp listed
    obtain ⟨change, changed, rfl⟩ := List.mem_map.mp among
    refine ⟨change.id, .inl (List.mem_map_of_mem changed), ?_⟩
    rw [stateIn_of_lookup (lookup_foundRow replaces changed), stateIn_of_lookup (written changed),
      if_pos (task change changed), if_pos rfl]
    simpa using moved
  · rintro ⟨id, named, differs⟩
    have listed : id ∈ rows.map RowUpdate.id := by simpa using named
    obtain ⟨change, changed, rfl⟩ := List.mem_map.mp listed
    rw [stateIn_of_lookup (lookup_foundRow replaces changed), stateIn_of_lookup (written changed),
      task change changed] at differs
    split at differs
    next own =>
      refine List.mem_map.mpr ⟨_, List.mem_filter.mpr ⟨List.mem_map_of_mem changed, ?_⟩, own⟩
      simpa using differs
    next => exact absurd rfl differs

end

theorem recounted_update (counted : Counted db) (kept : keepsIdentity db (.update rows) = true)
    (replaces : Replaces db (rows.map RowUpdate.id) (rows.map fun change => (change.newID, change.row)) stored) :
    Recounted db (stored.countsUpdated now (db.tuples (rows.map RowUpdate.id))
      (rows.map fun change => (change.newID, change.row))) := by
  have same (change : RowUpdate) (member : change ∈ rows) := same_of_keepsIdentity replaces kept member
  have renamed : (rows.map fun change => (change.newID, change.row)) = rows.map fun change => (change.id, change.row) :=
    List.map_congr_left fun change member => by rw [(same change member).1]
  rw [renamed] at replaces ⊢
  unfold countsUpdated
  rw [tuples_foundRow replaces, movedRows_eq replaces.distinct]
  have tallied (taskID : String) := tally_updated (changes db rows) taskID (by
    intro pair member
    obtain ⟨change, listed, rfl⟩ := List.mem_map.mp member
    exact (same change listed).2)
  apply recounted_of_groups counted replaces.tasks
  · exact fun taskID => mem_groups_iff replaces fun change member => (same change member).2
  · intro taskID _
    obtain ⟨rest, before, after⟩ := tallies_changes replaces taskID
    rw [before, after]
    exact tallied taskID rest
  · intro taskID absent
    obtain ⟨rest, before, after⟩ := tallies_changes replaces taskID
    rw [before, after, ← tallied taskID rest]
    have empty : ((changes db rows).filter fun pair => pair.1.state != pair.2.state).filter (·.2.taskID == taskID) = [] := by
      apply List.filter_eq_nil_iff.mpr
      intro pair member own
      exact absent (List.mem_map.mpr ⟨pair, member, beq_iff_eq.mp own⟩)
    rw [empty]
    apply ext_get
    · rfl
    · intro s
      simp

theorem recounted_of_runStatement (counted : Counted db)
    (kept : keepsIdentity db statement = true) (success : db.runStatement now statement = .ok after) :
    Recounted db after := by
  cases statement with
  | insert rows =>
    obtain ⟨stored, replaced, written⟩ := exists_of_bind_eq_ok success
    cases written
    exact recounted_insert counted (replaceRows_eq_ok replaced)
  | update rows =>
    obtain ⟨stored, replaced, written⟩ := exists_of_bind_eq_ok success
    cases written
    exact recounted_update counted kept (replaceRows_eq_ok replaced)
  | delete ids =>
    obtain ⟨stored, replaced, written⟩ := exists_of_bind_eq_ok success
    cases written
    exact recounted_delete counted (replaceRows_eq_ok replaced)

theorem step_recounted (counted : Counted db)
    (kept : keepsIdentity db event.statement = true) (ran : (statements start).step db event = some after) :
    Recounted db after := by
  cases success : db.runStatement event.now event.statement with
  | error failure =>
    simp only [statements, success] at ran
    cases ran
  | ok result =>
    simp only [statements, success] at ran
    cases ran
    exact recounted_of_runStatement counted kept success

/-- The counters are exact once migration 002 has added them with zeros and filled them in. -/
theorem counted_backfill (zero : ∀ taskID task, db.tasks.lookup taskID = some task → task.counts = {}) :
    Counted db.backfill := by
  intro taskID task found
  have executions : db.backfill.executions = db.executions := executions_foldl_updateTask _ _ db
  unfold backfill at found
  rw [lookup_foldl_updateTask _ (List.nodup_dedup _)] at found
  rw [executionsOf, executions]
  split at found
  next =>
    obtain ⟨old, present, rfl⟩ := Option.map_eq_some_iff.mp found
    rfl
  next absent =>
    rw [List.mem_dedup] at absent
    rw [zero taskID task found, ofTask_eq_nil absent]
    rfl

end

/-- After each statement of a sequence in which every `UPDATE` keeps the ids and tasks of its rows, the
counters of every task are exact, and its version has moved by one if an execution of it was inserted,
deleted or moved, and not at all otherwise. -/
theorem execution_counters_exact {start db after : Database} {events : List StatementEvent} {event : StatementEvent}
    (counted : Counted start)
    (path : (statements start).Path (fun db event => keepsIdentity db event.statement = true) start events db)
    (kept : keepsIdentity db event.statement = true) (ran : (statements start).step db event = some after) :
    Recounted db after := by
  have reached : Counted db := path.invariant Counted (fun _ _ _ kept ran counted =>
    (step_recounted counted kept ran).counted) counted
  exact step_recounted reached kept ran

/-- Tasks `t1` and `t2`, and an execution `e1` of the first. -/
def twoTasks : Database where
  tasks := AList.insert "t1" { type := "import", tenantID := "acme", ownerID := none, definitionVersion := 1, version := 2,
                               createdAt := 0, updatedAt := 0, counts := { total := 1, pendingDispatch := 1 } }
    (AList.insert "t2" { type := "import", tenantID := "acme", ownerID := none, definitionVersion := 1, createdAt := 0,
                         updatedAt := 0 } ∅)
  executions := AList.insert "e1" (waitingRow "t1") ∅
where
  waitingRow (taskID : String) : ExecutionRow :=
    { taskID, tenantID := "acme", itemKey := "a", attempt := 1, runtime := "bullmq", runtimeScope := "", externalID := none,
      state := .pendingDispatch, createdAt := 0, updatedAt := 0 }

theorem counted_twoTasks : Counted twoTasks := by
  unfold Counted
  decide

/-- An `UPDATE` that gives `e1` to the other task, and one that starts it under another id: the first
leaves both tasks with wrong totals, the second its task with a pending execution that is not there. -/
theorem identity_changes_miscounted : Counted twoTasks ∧
      (∃ after, (statements twoTasks).step twoTasks ⟨1, .update [⟨"e1", "e1", twoTasks.waitingRow "t2"⟩]⟩ = some after ∧
        ¬Counted after ∧ (after.tasks.lookup "t1").map (·.counts.total) = some 1 ∧ (after.executionsOf "t1").length = 0) ∧
      ∃ after, (statements twoTasks).step twoTasks
          ⟨1, .update [⟨"e1", "e9", { twoTasks.waitingRow "t1" with state := .running }⟩]⟩ = some after ∧
        ¬Counted after ∧ (after.tasks.lookup "t1").map (·.counts.pendingDispatch) = some 1 ∧
        (after.executionsOf "t1").countP (·.state == .pendingDispatch) = 0 := by
  unfold Counted
  decide

/-- Two statements that keep ids and tasks: `e1` starts while `e2` joins the second task. -/
theorem two_statements_recounted :
    ∃ db after, (statements twoTasks).step db ⟨2, .update
      [⟨"e1", "e1", { twoTasks.waitingRow "t1" with state := .running }⟩]⟩ =
        some after ∧ Recounted db after ∧ (after.tasks.lookup "t1").map (·.version) = some 3 ∧
      (after.tasks.lookup "t2").map (·.version) = some 2 := by
  obtain ⟨db, path, kept, after, ran, versions⟩ :
      ∃ db, (statements twoTasks).runChecked (fun db event => keepsIdentity db event.statement) twoTasks
          [⟨1, .insert [("e2", twoTasks.waitingRow "t2")]⟩] = some db ∧
        keepsIdentity db (.update [⟨"e1", "e1", { twoTasks.waitingRow "t1" with state := .running }⟩]) = true ∧
        ∃ after, (statements twoTasks).step db ⟨2, .update
          [⟨"e1", "e1", { twoTasks.waitingRow "t1" with state := .running }⟩]⟩ =
          some after ∧ (after.tasks.lookup "t1").map (·.version) = some 3 ∧
            (after.tasks.lookup "t2").map (·.version) = some 2 := by
    decide
  refine ⟨db, after, ran, ?_, versions⟩
  exact execution_counters_exact counted_twoTasks (Machine.path_of_runChecked (fun _ _ kept => kept) path) kept ran

end RhinoQ.Model.TaskSchema
