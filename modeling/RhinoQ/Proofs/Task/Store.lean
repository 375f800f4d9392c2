import RhinoQ.Model.Task.Store

/-! # What a write does to the task store

One inversion for the store's writes: a task is created or replaced, or an execution or a waitpoint is stored
together with its task.
-/

namespace RhinoQ.Model

open Execution

variable {record : Task.Record}

theorem Execution.newRecord_eq_ok {record : Record} (success : newRecord spec = .ok record) :
    record.id = spec.id ∧ record.taskID = Text.trimSpace spec.taskID ∧ record.attempt = spec.attempt ∧
      record.state = .pendingDispatch ∧ record.reference = {} := by
  unfold newRecord at success
  dsimp only at success
  split at success
  · cases success
  cases success
  exact ⟨rfl, rfl, rfl, rfl, rfl⟩

theorem Task.newRecord_eq_ok (success : Task.newRecord spec = .ok record) :
    record.id = spec.id ∧ record.executionCounts = {} := by
  unfold Task.newRecord at success
  split at success
  · cases success
  cases success
  exact ⟨rfl, rfl⟩

namespace TaskStore

/-- The maps a write of a task alone leaves. -/
structure SameChildren (s t : TaskStore) : Prop where
  executions : t.executions = s.executions
  attempts : t.attempts = s.attempts
  waitpoints : t.waitpoints = s.waitpoints

/-- A new task. -/
structure Created (s t : TaskStore) (record : Task.Record) : Prop extends SameChildren s t where
  fresh : s.tasks.lookup record.id = none
  tasks : t.tasks = s.tasks.insert record.id record

/-- A task replaced by its next version. -/
structure Replaced (s t : TaskStore) (current next : Task.Record) : Prop extends SameChildren s t where
  found : s.tasks.lookup next.id = some current
  newer : current.version < next.version
  tasks : t.tasks = s.tasks.insert next.id next

/-- A new execution under the next attempt of its task. -/
structure Added (s t : TaskStore) (taskID : Task.ID) (parent after : Task.Record) (record : Record) : Prop where
  found : s.tasks.lookup taskID = some parent
  id : after.id = parent.id
  newer : parent.version < after.version
  counts : after.executionCounts = parent.addExecution.executionCounts
  fresh : s.executions.lookup record.id = none
  owner : record.taskID = Text.trimSpace taskID
  attempt : record.attempt = nextAttempt (s.byAttempt taskID)
  state : record.state = .pendingDispatch
  unbound : record.reference = {}
  tasks : t.tasks = s.tasks.insert taskID after
  executions : t.executions = s.executions.insert record.id record
  attempts : t.attempts = s.attempts.insert taskID ((s.byAttempt taskID).insert record.attempt record.id)
  waitpoints : t.waitpoints = s.waitpoints

/-- An execution replaced by its next version. -/
structure Moved (s t : TaskStore) (current record : Record) (parent after : Task.Record) : Prop where
  stored : s.executions.lookup record.id = some current
  owner : current.taskID = record.taskID
  attempt : current.attempt = record.attempt
  found : s.tasks.lookup record.taskID = some parent
  id : after.id = parent.id
  newer : parent.version < after.version
  counts : after.executionCounts = (parent.moveExecution current.state record.state).executionCounts
  tasks : t.tasks = s.tasks.insert record.taskID after
  executions : t.executions = s.executions.insert record.id record
  attempts : t.attempts = s.attempts
  waitpoints : t.waitpoints = s.waitpoints

/-- A waitpoint stored, new or over its last version. -/
structure Waited (s t : TaskStore) (record : Waitpoint.Record) : Prop where
  tasks : t.tasks = (s.saveWaitpoint record).tasks
  executions : t.executions = s.executions
  attempts : t.attempts = s.attempts
  waitpoints : t.waitpoints = s.waitpoints.insert record.id record

/-- The call leaves the tasks and their children. -/
structure Kept (s t : TaskStore) : Prop extends SameChildren s t where
  tasks : t.tasks = s.tasks

theorem Kept.refl (s : TaskStore) : Kept s s := ⟨⟨rfl, rfl, rfl⟩, rfl⟩

section
variable {s t : TaskStore}
variable {expected : ℤ} {saved : Task.Record}

theorem createTask_eq_ok (success : s.createTask record = (.ok saved, t)) : saved = record ∧ Created s t record := by
  unfold createTask at success
  split at success
  · cases success
  split at success
  · cases success
  rename_i fresh
  cases success
  exact ⟨rfl, ⟨rfl, rfl, rfl⟩, fresh, rfl⟩

theorem updateTask_eq_ok (success : s.updateTask record expected = (.ok saved, t)) :
    saved = record ∧ ∃ current, current.version = expected ∧ Replaced s t current record := by
  unfold updateTask at success
  split at success
  · cases success
  rename_i current found
  split at success
  · cases success
  rename_i guard
  cases success
  push Not at guard
  exact ⟨rfl, current, guard.1, ⟨rfl, rfl, rfl⟩, found, by omega, rfl⟩

theorem touch_version (parent : Task.Record) (now : Time) : parent.version < (parent.touch now).version := by
  change parent.version < parent.version + 1
  omega

theorem createNextExecution_eq_ok (success : s.createNextExecution input = (.ok created, t)) :
    ∃ parent after, Added s t input.taskID parent after created.1 := by
  unfold createNextExecution at success
  split at success
  · cases success
  rename_i parent found
  split at success
  · cases success
  rename_i fresh
  split at success
  · cases success
  rename_i record built
  cases success
  obtain ⟨id, owner, attempt, state, unbound⟩ := newRecord_eq_ok built
  have fresh : s.executions.lookup record.id = none := id ▸ fresh
  exact ⟨parent, parent.addExecution.touch input.now, found, rfl, touch_version parent.addExecution input.now, rfl,
    fresh, owner, attempt, state, unbound, rfl, rfl, rfl, rfl⟩

theorem updateExecution_eq_ok {record : Record} {saved : Record × ℤ}
    (success : s.updateExecution record expected = (.ok saved, t)) :
    saved.1 = record ∧ ∃ current parent after, Moved s t current record parent after := by
  unfold updateExecution at success
  split at success
  · cases success
  rename_i current stored
  split at success
  · cases success
  split at success
  · cases success
  rename_i same
  split at success
  · cases success
  rename_i parent found
  cases success
  push Not at same
  have version (target : State) : (parent.moveExecution current.state target).version = parent.version := by
    unfold Task.Record.moveExecution
    split <;> rfl
  have id (target : State) : (parent.moveExecution current.state target).id = parent.id := by
    unfold Task.Record.moveExecution
    split <;> rfl
  let after := (parent.moveExecution current.state record.state).touch record.updatedAt
  have newer : parent.version < after.version := version record.state ▸ touch_version _ _
  exact ⟨rfl, current, parent, after, stored, same.1, same.2, found, id record.state, newer, rfl, rfl, rfl, rfl, rfl⟩

theorem transition_eq_ok {r next : Task.Record}
    (success : r.transition target now = .ok next) : r.state.canTransition target = true ∧ next = { r with
      state := target, cancellationStatus := (r.cancellationAfter target).1
      cancellationReason := (r.cancellationAfter target).2, version := r.version + 1, updatedAt := now } := by
  unfold Task.Record.transition at success
  split at success
  · cases success
  split at success
  · cases success
  rename_i reached
  cases success
  unfold Task.State.transition at reached
  split at reached
  · cases reached
  rename_i allowed
  cases reached
  simp only [Bool.or_eq_true, Bool.not_eq_true', not_or, Bool.not_eq_false] at allowed
  exact ⟨allowed.2, rfl⟩

/-- A retry adds an execution, or answers from its command's first run. -/
theorem retryTask_eq_ok
    (success : s.retryTask codec input = (.ok result, t)) :
    (t = s ∧ ∃ prior, s.retries.lookup input.commandID = some prior ∧ result = { prior with replayed := true } ∧
        prior.task.id = input.taskID ∧ prior.execution.id = input.executionID ∧
        s.retryFingerprints.lookup input.commandID = some (retryFingerprint codec input)) ∨
      s.retries.lookup input.commandID = none ∧ (t.retries = s.retries.insert input.commandID result ∧
        t.retryFingerprints = s.retryFingerprints.insert input.commandID (retryFingerprint codec input) ∧
        result.execution.id = input.executionID) ∧ ∃ parent, Added s t input.taskID parent result.task result.execution := by
  unfold retryTask at success
  split at success
  · cases success
  dsimp only at success
  split at success
  next prior found =>
    split at success
    · cases success
    rename_i same
    cases success
    push Not at same
    exact .inl ⟨rfl, prior, found, rfl, same⟩
  next free =>
    split at success
    · cases success
    rename_i parent found
    split at success
    · cases success
    split at success
    · cases success
    rename_i next queued
    split at success
    · cases success
    rename_i fresh
    split at success
    · cases success
    rename_i record built
    cases success
    obtain ⟨id, owner, attempt, state, unbound⟩ := newRecord_eq_ok built
    obtain ⟨_, rfl⟩ := transition_eq_ok queued
    have fresh : s.executions.lookup record.id = none := id ▸ fresh
    exact .inr ⟨free, ⟨rfl, rfl, id⟩, parent, found, rfl, Int.lt_succ parent.version, rfl, fresh, owner, attempt, state,
      unbound, rfl, rfl, rfl, rfl⟩

theorem createWaitpoint_eq_ok {record : Waitpoint.Record}
    (success : s.createWaitpoint record = (.ok created, t)) :
    Kept s t ∨ s.waitpoints.lookup record.id = none ∧ (s.tasks.lookup record.taskID).isSome ∧ Waited s t record := by
  unfold createWaitpoint at success
  split at success
  · cases success
  rename_i parent found
  split at success
  · dsimp only at success
    split at success
    · cases success
    cases success
    exact .inl (.refl s)
  · split at success
    · cases success
    next fresh =>
      cases success
      exact .inr ⟨fresh, by rw [found]; rfl, rfl, rfl, rfl, rfl⟩

theorem updateWaitpoint_eq_ok {record saved : Waitpoint.Record}
    (success : s.updateWaitpoint record expected = (.ok saved, t)) :
    Kept s t ∨ (∃ current, s.waitpoints.lookup record.id = some current) ∧ Waited s t record := by
  unfold updateWaitpoint at success
  split at success
  · cases success
  rename_i current found
  split at success
  · cases success
    exact .inl (.refl s)
  · split at success
    · cases success
    · cases success
      exact .inr ⟨⟨current, found⟩, rfl, rfl, rfl, rfl⟩

end

end TaskStore
end RhinoQ.Model
