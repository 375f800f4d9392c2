import RhinoQ.Proofs.TaskSchema.Evolves

/-! # When a transition and a retry succeed

On consistent tables a caller that brings the version of the row gets its transition if the table of states
allows it, and its retry if the attempt is finished and the new id is free.
-/

namespace RhinoQ.Model.TaskSchema

open FiniteMap

variable {db after : Database} {now : Timestamp} {id newID t k : String} {row : ExecutionRow}

theorem stale_self (version : ℤ) : stale version (some version) = false := by
  simp [stale]

theorem nextAttempt_congr
    (same : ∀ n, (∃ i a, OfItem after.executions t k i a ∧ a.attempt = n) ↔ ∃ i a, OfItem db.executions t k i a ∧
      a.attempt = n) :
    after.nextAttempt t k = db.nextAttempt t k := by
  have members (d : Database) (n : ℤ) : n ∈ (d.attemptsOfItem t k).map (·.2.attempt) ↔
    ∃ i a, OfItem d.executions t k i a ∧ a.attempt = n := by
    rw [List.mem_map]
    constructor
    · rintro ⟨⟨i, a⟩, present, attempt⟩
      exact ⟨i, a, mem_attemptsOfItem_iff.mp present, attempt⟩
    · rintro ⟨i, a, ofItem, attempt⟩
      exact ⟨(i, a), mem_attemptsOfItem_iff.mpr ofItem, attempt⟩
  have below {d e : Database} (covers : ∀ n, (∃ i a, OfItem d.executions t k i a ∧ a.attempt = n) →
    ∃ i a, OfItem e.executions t k i a ∧ a.attempt = n) :
      ((d.attemptsOfItem t k).map (·.2.attempt)).maximum ≤ ((e.attemptsOfItem t k).map (·.2.attempt)).maximum :=
    List.maximum_le_of_forall_le fun n member => List.le_maximum_of_mem'
      ((members e n).mpr (covers n ((members d n).mp member)))
  unfold Database.nextAttempt
  rw [le_antisymm (below fun n => (same n).mp) (below fun n => (same n).mpr)]

theorem nextAttempt_rewrite (stored : db.executions.lookup id = some row)
    (executions : after.executions = db.executions.insert id next) (task : next.taskID = row.taskID)
      (item : next.itemKey = row.itemKey)
    (attempt : next.attempt = row.attempt) : after.nextAttempt t k = db.nextAttempt t k := by
  refine nextAttempt_congr fun n => ?_
  constructor
  · rintro ⟨i, a, ofItem, rfl⟩
    obtain ⟨_, rfl⟩ | ⟨_, found⟩ := lookup_insert_cases executions ofItem.stored
    · exact ⟨id, row, ⟨stored, task ▸ ofItem.taskID, item ▸ ofItem.itemKey⟩, attempt.symm⟩
    · exact ⟨i, a, ⟨found, ofItem.taskID, ofItem.itemKey⟩, rfl⟩
  · rintro ⟨i, a, ofItem, rfl⟩
    by_cases same : i = id
    · subst same
      cases stored.symm.trans ofItem.stored
      refine ⟨i, next, ⟨?_, task.trans ofItem.taskID, item.trans ofItem.itemKey⟩, attempt⟩
      rw [executions, lookup_insert, if_pos rfl]
    · refine ⟨i, a, ⟨?_, ofItem.taskID, ofItem.itemKey⟩, rfl⟩
      rw [executions, lookup_insert, if_neg same]
      exact ofItem.stored

/-- The number after one that no other exceeds. -/
theorem nextAttempt_of_highest (ofItem : OfItem db.executions t k id row)
    (highest : ∀ i a, OfItem db.executions t k i a → a.attempt ≤ row.attempt) : db.nextAttempt t k = row.attempt + 1 := by
  have above := lt_nextAttempt ofItem
  unfold Database.nextAttempt at above ⊢
  cases most : ((db.attemptsOfItem t k).map (·.2.attempt)).maximum with
  | bot =>
    have member := List.mem_map_of_mem (f := (·.2.attempt)) (mem_attemptsOfItem_iff.mpr ofItem)
    rw [List.maximum_eq_bot.mp most] at member
    exact absurd member List.not_mem_nil
  | coe n =>
    obtain ⟨⟨i, a⟩, present, rfl⟩ := List.mem_map.mp (List.maximum_mem most)
    have bound := highest i a (mem_attemptsOfItem_iff.mp present)
    rw [most, WithBot.unbotD_coe] at above
    rw [WithBot.unbotD_coe]
    exact congrArg (· + 1) (le_antisymm bound (Int.lt_add_one_iff.mp above))

theorem transitionTask_succeeds (now : Timestamp) (stored : db.tasks.lookup id = some task)
    (allowed : task.state.canTransition target = true) :
    ∃ next : TaskRow, (Command.transitionTask id (some task.version) target).execute db now = .ok
      { db with tasks := db.tasks.insert id next } ∧
      next.state = target ∧ next.version = task.version + 1 := by
  refine ⟨{ task with
    state := target
    cancellationStatus := task.cancellationStatus.afterTransition task.state target
    cancellationReason := if task.state.requeues target then none else task.cancellationReason
    version := task.version + 1
    updatedAt := now }, ?_, rfl, rfl⟩
  simp only [Command.execute, Database.transitionTask, Database.task, found_bind_eq_ok, refuse_bind_eq_ok]
  exact ⟨task, stored, stale_self _, by simp [allowed], rfl⟩

theorem transitionExecution_succeeds (stored : db.executions.lookup id = some row)
    (differs : row.state ≠ target) (allowed : row.state.canTransition row.externalID.isSome target = true) :
    (Command.transitionExecution id (some row.version) target reason).execute db now =
      .ok (db.updateExecution now id row (row.moved now target reason)) := by
  simp only [Command.execute, Database.transitionExecution, Database.execution, found_bind_eq_ok]
  refine ⟨row, stored, ?_⟩
  simp only [Database.moveExecution, if_neg differs, refuse_bind_eq_ok]
  exact ⟨stale_self _, by simp [allowed], rfl⟩

section
variable {runtime scope external : String}

/-- Only a retry takes a reference from its attempt. -/
theorem LiveAt.step {command : Command} (live : LiveAt db runtime scope external id row)
    (success : command.execute db now = .ok after)
    (noRetry : ∀ id expected newID, command ≠ .retryExecution id expected newID) :
    ∃ next, LiveAt after runtime scope external id next ∧ row.Evolves next := by
  obtain ⟨next, stored, evolves⟩ := (Evolves.step success).rows id row live.stored
  obtain ⟨external', scope'⟩ := evolves.bound external live.externalID
  refine ⟨next, ⟨stored, ?_, evolves.runtime.trans live.runtime, scope'.trans live.runtimeScope, external'⟩, evolves⟩
  have kept (same : db.executions.lookup id = some next) : next.supersededAt = none := by
    cases live.stored.symm.trans same
    exact live.live
  cases (wrote_of_execute success).executionMove with
  | kept executions => exact kept (executions ▸ stored)
  | added j written asked alive absent executions =>
    obtain ⟨_, rfl⟩ | ⟨_, same⟩ := lookup_insert_cases executions stored
    · exact alive
    · exact kept same
  | rewrote j before written found rewrites moves executions =>
    obtain ⟨rfl, rfl⟩ | ⟨_, same⟩ := lookup_insert_cases executions stored
    · cases found.symm.trans live.stored
      exact rewrites.supersededAt.trans live.live
    · exact kept same
  | retried j newID before written found current finished named alive numbered absent executions asked =>
    obtain ⟨_, asked⟩ := asked
    exact absurd asked (noRetry _ _ _)

theorem retryExecution_succeeds (now : Timestamp) (consistent : Consistent db)
    (live : LiveAt db runtime scope external id row)
    (finished : row.state.finished = true) (named : btrim newID ≠ "") (absent : db.executions.lookup newID = none) :
    ∃ after, (Command.retryExecution id (some row.version) newID).execute db now = .ok after ∧
      after.executions = (db.executions.insert id (row.superseded now)).insert newID
        (row.next now (db.nextAttempt row.taskID row.itemKey)) := by
  let mid := db.putExecution id (row.superseded now)
  have number : mid.nextAttempt row.taskID row.itemKey = db.nextAttempt row.taskID row.itemKey :=
    nextAttempt_rewrite live.stored rfl rfl rfl rfl
  have away : newID ≠ id := by
    rintro rfl
    cases absent.symm.trans live.stored
  have absent' : mid.executions.lookup newID = none := (AList.lookup_insert_ne away).trans absent
  -- nobody has the number, and the superseded attempt gave up the reference
  have unclashed : mid.clashes newID (row.next now (mid.nextAttempt row.taskID row.itemKey)) = false := by
    refine unclashed_iff.mpr fun j b found _ => ⟨?_, ?_⟩
    · rintro ⟨task, item, attempt⟩
      have ofItem : OfItem mid.executions row.taskID row.itemKey j b := ⟨found, task, item⟩
      exact absurd attempt (ne_of_lt (lt_nextAttempt ofItem))
    · rw [Bool.eq_false_iff]
      intro shared
      simp only [Database.sharesReference, ExecutionRow.next, ExecutionRow.live, Bool.and_eq_true, beq_iff_eq,
        Option.isNone_iff_eq_none] at shared
      obtain ⟨⟨⟨⟨_, alive⟩, runtime'⟩, scope'⟩, external'⟩ := shared
      obtain ⟨_, rfl⟩ | ⟨other, stored⟩ := lookup_insert_cases rfl found
      · cases alive
      · have other' : LiveAt db runtime scope external j b :=
          ⟨stored, alive, runtime'.symm.trans live.runtime, scope'.symm.trans live.runtimeScope,
            external'.symm.trans live.externalID⟩
        exact other (other'.unique consistent live).1
  refine ⟨(mid.putExecution newID (row.next now (mid.nextAttempt row.taskID row.itemKey))).updateTask row.taskID fun task =>
    task.countInserted now .dispatched, ?_, ?_⟩
  · simp only [Command.execute, Database.retryExecution, Database.execution, found_bind_eq_ok, refuse_bind_eq_ok]
    refine ⟨by simpa using named, row, live.stored, by simp [live.live], stale_self _, by simp [finished], ?_⟩
    have written : db.updateExecution now id row (row.superseded now) = mid := updateExecution_of_same rfl
    rw [written]
    have inserted : mid.insertExecution now newID (row.next now (mid.nextAttempt row.taskID row.itemKey)) =
        .ok ((mid.putExecution newID (row.next now (mid.nextAttempt row.taskID row.itemKey))).updateTask row.taskID
          fun task =>
          task.countInserted now .dispatched) := by
      rw [Database.insertExecution, refuse_bind_eq_ok, absent', unclashed]
      exact ⟨rfl, rfl⟩
    rw [inserted]
    rfl
  · rw [← number]
    exact (Database.updateTask_frame _ _ _).executions

/-- The reference has its next attempt, and the item its next number. -/
theorem retryExecution_opens (now : Timestamp) (consistent : Consistent db) (live : LiveAt db runtime scope external id row)
    (finished : row.state.finished = true) (named : btrim newID ≠ "") (absent : db.executions.lookup newID = none) :
    ∃ after, (Command.retryExecution id (some row.version) newID).execute db now = .ok after ∧ Consistent after ∧
      LiveAt after runtime scope external newID (row.next now (db.nextAttempt row.taskID row.itemKey)) ∧
      after.nextAttempt row.taskID row.itemKey = db.nextAttempt row.taskID row.itemKey + 1 := by
  obtain ⟨after, success, executions⟩ := retryExecution_succeeds now consistent live finished named absent
  have stored : after.executions.lookup newID = some (row.next now (db.nextAttempt row.taskID row.itemKey)) := by
    rw [executions, lookup_insert, if_pos rfl]
  refine ⟨after, success, consistent.step success, ⟨stored, rfl, live.runtime, live.runtimeScope, live.externalID⟩, ?_⟩
  refine nextAttempt_of_highest ⟨stored, rfl, rfl⟩ fun i a ofItem => ?_
  obtain ⟨_, rfl⟩ | ⟨_, found⟩ := lookup_insert_cases executions ofItem.stored
  · exact le_rfl
  obtain ⟨_, rfl⟩ | ⟨_, found⟩ := lookup_insert_cases rfl found
  · exact (lt_nextAttempt ⟨live.stored, rfl, rfl⟩).le
  · exact (lt_nextAttempt ⟨found, ofItem.taskID, ofItem.itemKey⟩).le

theorem retryExecution_unnamed (unnamed : btrim newID = "") :
    (Command.retryExecution id expected newID).execute db now = .error (.raised "RHINOQ_INVALID_EXECUTION") := by
  simp [Command.execute, Database.retryExecution, refuse, unnamed]
  rfl

theorem retryExecution_taken (stored : db.executions.lookup id = some row) (live : row.supersededAt = none)
    (finished : row.state.finished = true) (named : btrim newID ≠ "") (taken : db.executions.lookup newID = some other) :
    (Command.retryExecution id (some row.version) newID).execute db now = .error
      (.raised "RHINOQ_EXECUTION_ALREADY_EXISTS" newID) := by
  have written : db.updateExecution now id row (row.superseded now) = db.putExecution id (row.superseded now) :=
    updateExecution_of_same rfl
  have present : ((db.putExecution id (row.superseded now)).executions.lookup newID).isSome = true := by
    change ((db.executions.insert id (row.superseded now)).lookup newID).isSome = true
    rw [lookup_insert]
    split
    next => rfl
    next => rw [taken, Option.isSome_some]
  have refused : (db.putExecution id (row.superseded now)).insertExecution now newID
      (row.next now ((db.putExecution id (row.superseded now)).nextAttempt row.taskID row.itemKey)) = .error
        (.violated "unique_violation") := by
    simp only [Database.insertExecution, present, Bool.true_or, refuse, if_true]
    rfl
  change db.retryExecution now id (some row.version) newID = _
  rw [Database.retryExecution, refuse_bind_of_false (by simpa using named), Database.execution, found_bind_of_some stored,
    refuse_bind_of_false (by simp [live]), refuse_bind_of_false (stale_self _), refuse_bind_of_false (by simp [finished])]
  simp only [written, refused, Database.orExists]

end

end RhinoQ.Model.TaskSchema
