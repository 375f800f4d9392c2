import RhinoQ.Proofs.TaskSchema.Change

/-! # What a command changes

Every command that succeeds makes one of a few changes. A change says what it checked in the tables before it and
what it leaves; the invariants of the schema are proved change by change.
-/

namespace RhinoQ.Model.TaskSchema

open FiniteMap Database Aside

variable {tenantID : Option String}

variable {row : ExecutionRow} {reason reference ownerID : Option String} {taskID id t k : String} {db : Database}
    {now : Timestamp}

/-- An attempt of an item. -/
structure OfItem (executions : FiniteMap String ExecutionRow) (t k id : String) (row : ExecutionRow) : Prop where
  stored : executions.lookup id = some row
  taskID : row.taskID = t
  itemKey : row.itemKey = k

theorem mem_attemptsOfItem_iff : (id, row) ∈ db.attemptsOfItem t k ↔ OfItem db.executions t k id row := by
  rw [attemptsOfItem, List.mem_filter, Bool.and_eq_true, beq_iff_eq, beq_iff_eq, List.mem_map]
  constructor
  · rintro ⟨⟨entry, present, same⟩, task, item⟩
    cases same
    exact ⟨mem_entries_iff.mp present, task, item⟩
  · rintro ⟨stored, task, item⟩
    exact ⟨⟨_, mem_entries_iff.mpr stored, rfl⟩, task, item⟩

theorem lt_nextAttempt (ofItem : OfItem db.executions t k id row) : row.attempt < db.nextAttempt t k := by
  have member : row.attempt ∈ (db.attemptsOfItem t k).map (·.2.attempt) :=
    List.mem_map.mpr ⟨_, mem_attemptsOfItem_iff.mpr ofItem, rfl⟩
  unfold nextAttempt
  cases highest : ((db.attemptsOfItem t k).map (·.2.attempt)).maximum with
  | bot =>
    rw [List.maximum_eq_bot.mp highest] at member
    exact absurd member List.not_mem_nil
  | coe most =>
    have bound : row.attempt ≤ most := List.le_maximum_of_mem member highest
    rw [WithBot.unbotD_coe]
    omega

theorem clashes_eq_true : db.clashes id row = true ↔ ∃ k other, db.executions.lookup k = some other ∧ k ≠ id ∧
      ((other.taskID == row.taskID && other.itemKey == row.itemKey && other.attempt == row.attempt) ||
        sharesReference row other) = true := by
  rw [clashes, List.any_eq_true]
  constructor
  · rintro ⟨⟨k, other⟩, member, clash⟩
    rw [Bool.and_eq_true, bne_iff_ne] at clash
    exact ⟨k, other, mem_entries_iff.mp member, clash⟩
  · rintro ⟨k, other, found, different, clash⟩
    refine ⟨⟨k, other⟩, mem_entries_iff.mpr found, ?_⟩
    rw [Bool.and_eq_true, bne_iff_ne]
    exact ⟨different, clash⟩

theorem executions_settleItems : (db.settleItems now id).2.executions = db.executions := by
  unfold settleItems
  split
  · rfl
  dsimp only
  split <;> rfl

/-- The row that a bind leaves. -/
def ExecutionRow.boundTo (row : ExecutionRow) (now : Timestamp) (runtimeScope externalID : Option String) : ExecutionRow :=
  { row with
    runtimeScope := btrim (runtimeScope.getD ""), externalID := some (btrim (externalID.getD ""))
    state := .dispatched, version := row.version + 1, updatedAt := now }

theorem rewrites_boundTo : Rewrites row (row.boundTo now runtimeScope externalID) := by
  unfold ExecutionRow.boundTo
  exact ⟨rfl, rfl, rfl, rfl⟩

/-- A write that leaves what an attempt stands for and refers to. -/
structure Annotates (row next : ExecutionRow) : Prop where
  rewrites : Rewrites row next
  state : next.state = row.state
  runtime : next.runtime = row.runtime
  runtimeScope : next.runtimeScope = row.runtimeScope
  externalID : next.externalID = row.externalID
  version : next.version = row.version + 1

variable (db : Database) (now : Timestamp) (after : Database) in
/-- What a command that succeeds writes. -/
inductive Wrote : Command → Prop
  | kept (executions : after.executions = db.executions) (beside : Aside db now after ∨ Silent db now command after) :
      Wrote command
  | created (request : CreateRequest) (task : TaskRow) (valid : request.invalid = false)
    (owner : db.tasks.lookup request.taskID = some task)
      (absent : db.executions.lookup request.id = none)
      (unclashed : db.clashes request.id (request.row now task.tenantID
        (db.nextAttempt request.taskID request.item)) = false)
      (executions : after.executions =
        db.executions.insert request.id (request.row now task.tenantID (db.nextAttempt request.taskID request.item)))
      (touches : Touches db after request.taskID) :
      Wrote (.createExecution request.id request.taskID request.itemKey request.runtime request.runtimeScope
        request.externalID)
  | bound {id : String} (row : ExecutionRow) (stored : db.executions.lookup id = some row)
      (current : stale row.version expected = false)
      (pending : row.state = .pendingDispatch) (sameRuntime : row.runtime = btrim (runtime.getD ""))
      (same : ∀ external, row.externalID = some external →
        external = btrim (externalID.getD "") ∧ row.runtimeScope = btrim (runtimeScope.getD ""))
      (told : btrim (externalID.getD "") ≠ "") (unclashed : db.clashes id (row.boundTo now runtimeScope externalID) = false)
      (executions : after.executions = db.executions.insert id (row.boundTo now runtimeScope externalID))
      (touches : Touches db after row.taskID) :
      Wrote (.bindExecution id expected runtime runtimeScope externalID)
  | moved {id : String} (row : ExecutionRow) (reason : Option String)
      (asked : command.transitions = some (id, target)) (stored : db.executions.lookup id = some row)
        (differs : row.state ≠ target)
      (allowed : row.state.canTransition row.externalID.isSome target = true)
      (executions : after.executions = db.executions.insert id (row.moved now target reason))
        (touches : Touches db after row.taskID) :
      Wrote command
  | annotated (id : String) (row next : ExecutionRow) (stored : db.executions.lookup id = some row)
      (annotates : Annotates row next) (executions : after.executions = db.executions.insert id next)
      (touches : Touches db after row.taskID ∨ Silent db now command after) : Wrote command
  | retried {id newID : String} (row : ExecutionRow) (stored : db.executions.lookup id = some row)
      (live : row.supersededAt = none) (current : stale row.version expected = false) (finished : row.state.finished = true)
      (named : btrim newID ≠ "") (absent : (db.executions.insert id (row.superseded now)).lookup newID = none)
      (unclashed : (db.putExecution id (row.superseded now)).clashes newID
        (row.next now ((db.putExecution id (row.superseded now)).nextAttempt row.taskID row.itemKey)) = false)
      (executions : after.executions = (db.executions.insert id (row.superseded now)).insert newID
        (row.next now ((db.putExecution id (row.superseded now)).nextAttempt row.taskID row.itemKey)))
      (touches : Touches db after row.taskID) : Wrote (.retryExecution id expected newID)

section
variable {db after : Database} {now : Timestamp} {command : Command} {id : String} {expected : Option ℤ}
variable {runtime runtimeScope externalID : Option String} {target : ExecutionState}

theorem Aside.kept (aside : Aside db now after) : Wrote db now after command := .kept aside.executions (.inl aside)

theorem wrote_same : Wrote db now db command := kept (.same rfl)

theorem settleItems_wrote : Wrote db now (db.settleItems now id).2 (.settleItems id) := by
  unfold settleItems
  split
  · exact wrote_same
  rename_i row stored
  dsimp only
  split
  next ready => exact .kept rfl (.inr (.settled id row rfl stored ready rfl))
  next => exact wrote_same

section
variable {itemKey : Option String}
  (success : db.createExecution now id taskID itemKey runtime runtimeScope externalID = .ok after)
include success

theorem createExecution_eq_ok :
    ∃ request : CreateRequest, ∃ task, request = { id, taskID, itemKey, runtime, runtimeScope, externalID } ∧
      request.invalid = false ∧
      db.tasks.lookup taskID = some task ∧
      db.insertExecution now id (request.row now task.tenantID (db.nextAttempt taskID request.item)) = .ok after := by
  simp only [createExecution, task, found_bind_eq_ok, refuse_bind_eq_ok] at success
  obtain ⟨valid, task, owner, success⟩ := success
  exact ⟨_, task, rfl, valid, owner, orExists_eq_ok success⟩

theorem createExecution_wrote : Wrote db now after (.createExecution id taskID itemKey runtime runtimeScope externalID) := by
  obtain ⟨request, task, rfl, valid, owner, inserted⟩ := createExecution_eq_ok success
  obtain ⟨absent, unclashed, executions, touches⟩ := insertExecution_eq_ok inserted
  exact .created _ task valid owner absent unclashed executions touches

end

section
variable (success : db.bindExecution now id expected runtime runtimeScope externalID = .ok after)
include success

theorem bindExecution_eq_ok :
    ∃ row, db.executions.lookup id = some row ∧ stale row.version expected = false ∧ row.state = .pendingDispatch ∧
      row.runtime = btrim (runtime.getD "") ∧ (∀ external, row.externalID = some external →
        external = btrim (externalID.getD "") ∧ row.runtimeScope = btrim (runtimeScope.getD "")) ∧
      btrim (externalID.getD "") ≠ "" ∧ db.clashes id (row.boundTo now runtimeScope externalID) = false ∧
      after = db.updateExecution now id row (row.boundTo now runtimeScope externalID) := by
  simp only [bindExecution, execution, found_bind_eq_ok, refuse_bind_eq_ok, Bool.or_eq_false_iff,
    bne_eq_false_iff_eq] at success
  obtain ⟨row, stored, current, ⟨pending, runtime⟩, same, told, unclashed, written⟩ := success
  refine ⟨row, stored, current, pending, runtime, ?_, ?_, unclashed, (Except.ok.inj written).symm⟩
  · intro external held
    simpa [held] using same
  · simpa [blank] using told

theorem bindExecution_wrote : Wrote db now after (.bindExecution id expected runtime runtimeScope externalID) := by
  obtain ⟨row, stored, current, pending, runtime, same, told, unclashed, rfl⟩ := bindExecution_eq_ok success
  have moved : row.state ≠ .dispatched := by
    rw [pending]
    decide
  exact .bound row stored current pending runtime same told unclashed executions_updateExecution
    (updateExecution_touches moved)

end

section
variable {finish : Database → Database}
  (success : db.moveExecution now id expected operation row target reason finish = .ok after)
include success

/-- A transition that succeeds: the attempt is there already, or it moves. -/
theorem moveExecution_eq_ok : row.state = target ∧ after = db ∨ row.state ≠ target ∧ stale row.version expected = false ∧
      row.state.canTransition row.externalID.isSome target = true ∧
      after = finish (db.updateExecution now id row (row.moved now target reason)) := by
  unfold moveExecution at success
  split at success
  next there => exact .inl ⟨there, (Except.ok.inj success).symm⟩
  rename_i differs
  simp only [refuse_bind_eq_ok] at success
  obtain ⟨current, allowed, written⟩ := success
  exact .inr ⟨differs, current, by simpa using allowed, (Except.ok.inj written).symm⟩

theorem moveExecution_wrote (asked : command.transitions = some (id, target)) (stored : db.executions.lookup id = some row)
    (executions : ∀ t, (finish t).executions = t.executions)
    (touches : ∀ t, Touches db t row.taskID → Touches db (finish t) row.taskID) : Wrote db now after command := by
  obtain ⟨_, rfl⟩ | ⟨differs, _, allowed, rfl⟩ := moveExecution_eq_ok success
  · exact wrote_same
  · exact .moved row reason asked stored differs allowed ((executions _).trans executions_updateExecution)
      (touches _ (updateExecution_touches differs))

end

section
variable (success : db.transitionExecution now id expected target reason = .ok after)
include success

theorem transitionExecution_eq_ok : ∃ row, db.executions.lookup id = some row ∧ (row.state = target ∧ after = db ∨
      row.state ≠ target ∧ stale row.version expected = false ∧ row.state.canTransition row.externalID.isSome target = true ∧
        after = db.updateExecution now id row (row.moved now target reason)) := by
  simp only [transitionExecution, execution, found_bind_eq_ok] at success
  obtain ⟨row, stored, success⟩ := success
  exact ⟨row, stored, moveExecution_eq_ok success⟩

theorem transitionExecution_wrote : Wrote db now after (.transitionExecution id expected target reason) := by
  simp only [transitionExecution, execution, found_bind_eq_ok] at success
  obtain ⟨row, stored, success⟩ := success
  exact moveExecution_wrote success rfl stored (fun _ => rfl) fun _ touches => touches

end

theorem transitionExecutionForOwner_wrote
    (success : db.transitionExecutionForOwner now id expected tenantID ownerID target reason = .ok after) :
    Wrote db now after (.transitionExecutionForOwner id tenantID ownerID expected target reason) := by
  simp only [transitionExecutionForOwner, execution, found_bind_eq_ok, refuse_bind_eq_ok] at success
  obtain ⟨_, row, stored, _, success⟩ := success
  exact moveExecution_wrote success rfl stored (fun t => (t.updateTask_frame ..).executions) fun _ touches =>
    touches.bumpTask

section
variable (success : db.attachExecutionResult now id expected reference = .ok after)
include success

theorem attachExecutionResult_eq_ok :
    ∃ row, db.executions.lookup id = some row ∧ (row.resultRef = some (btrim (reference.getD "")) ∧ after = db ∨
      row.resultRef ≠ some (btrim (reference.getD "")) ∧ after = (db.putExecution id { row with
        resultRef := some (btrim (reference.getD "")), version := row.version + 1, updatedAt := now }).bumpTask
          row.taskID now) := by
  simp only [attachExecutionResult, execution, found_bind_eq_ok, refuse_bind_eq_ok] at success
  obtain ⟨row, stored, _, success⟩ := success
  refine ⟨row, stored, ?_⟩
  split at success
  next attached => exact .inl ⟨attached, (Except.ok.inj success).symm⟩
  next other =>
    rw [refuse_bind_eq_ok] at success
    exact .inr ⟨other, (Except.ok.inj success.2).symm.trans
      (congrArg (bumpTask · row.taskID now) (updateExecution_of_same rfl))⟩

theorem attachExecutionResult_wrote : Wrote db now after (.attachExecutionResult id expected reference) := by
  obtain ⟨row, stored, ⟨_, rfl⟩ | ⟨_, rfl⟩⟩ := attachExecutionResult_eq_ok success
  · exact wrote_same
  · refine .annotated id row _ stored ?_ (updateTask_frame _ row.taskID _).executions
      (.inl (.updateTask db _ fun _ => Int.lt_succ _))
    exact ⟨⟨rfl, rfl, rfl, rfl⟩, rfl, rfl, rfl, rfl, rfl⟩

end

theorem claimItemEffect_wrote
    (success : db.claimItemEffect now id effectKey = .ok (claimed, after)) :
    Wrote db now after (.claimItemEffect id effectKey) := by
  simp only [claimItemEffect, task, execution, found_bind_eq_ok, refuse_bind_eq_ok] at success
  obtain ⟨_, named, addressed, _, _, success⟩ := success
  split at success
  · cases success
    exact wrote_same
  next fresh =>
    simp only [found_bind_eq_ok, refuse_bind_eq_ok] at success
    obtain ⟨⟨currentID, row⟩, current, _, written⟩ := success
    cases written
    have stored := (mem_attemptsOfItem_iff.mp (List.mem_filter.mp (List.argmax_mem current)).1).stored
    refine .annotated currentID row _ stored ?_ executions_updateExecution
      (.inr (.claimed id currentID effectKey named row rfl addressed (by simpa using fresh) stored
        (updateExecution_of_same rfl)))
    exact ⟨⟨rfl, rfl, rfl, rfl⟩, rfl, rfl, rfl, rfl, rfl⟩

section
variable {newID : String} (success : db.retryExecution now id expected newID = .ok after)
include success

theorem retryExecution_eq_ok :
    ∃ row, btrim newID ≠ "" ∧ db.executions.lookup id = some row ∧ row.supersededAt = none ∧
      stale row.version expected = false ∧
      row.state.finished = true ∧ (db.putExecution id (row.superseded now)).insertExecution now newID
        (row.next now ((db.putExecution id (row.superseded now)).nextAttempt row.taskID row.itemKey)) = .ok after := by
  have written (row : ExecutionRow) :
      db.updateExecution now id row (row.superseded now) = db.putExecution id (row.superseded now) :=
    updateExecution_of_same rfl
  simp only [retryExecution, execution, found_bind_eq_ok, refuse_bind_eq_ok, written] at success
  obtain ⟨named, row, stored, live, current, finished, success⟩ := success
  exact ⟨row, by simpa using named, stored, by simpa using live, current, by simpa using finished, orExists_eq_ok success⟩

theorem retryExecution_wrote : Wrote db now after (.retryExecution id expected newID) := by
  obtain ⟨row, named, stored, live, current, finished, inserted⟩ := retryExecution_eq_ok success
  obtain ⟨absent, unclashed, executions, ⟨steps, attempts, advanced, bumped⟩⟩ := insertExecution_eq_ok inserted
  exact .retried row stored live current finished named absent unclashed executions ⟨steps, attempts, advanced, bumped⟩

end

end

theorem wrote_of_execute (success : command.execute db now = .ok after) :
    Wrote db now after command := by
  cases command with
  | createTask => exact (exists_answer success).elim fun _ created => (createTask_aside created).kept
  | transitionTask => exact (transitionTask_aside success).kept
  | reportProgress => exact (reportProgress_aside success).kept
  | requestCancellation => exact (requestCancellation_aside success).kept
  | resolveCancellation => exact (resolveCancellation_aside success).kept
  | attachTaskResult => exact (attachTaskResult_aside success).kept
  | settleItems => exact Except.ok.inj success ▸ settleItems_wrote
  | syncItemProgress => exact (syncItemProgress_aside success).kept
  | createExecution => exact createExecution_wrote success
  | bindExecution => exact bindExecution_wrote success
  | transitionExecution => exact transitionExecution_wrote success
  | transitionExecutionForOwner => exact transitionExecutionForOwner_wrote success
  | attachExecutionResult => exact attachExecutionResult_wrote success
  | claimItemEffect => exact (exists_answer success).elim fun _ claimed => claimItemEffect_wrote claimed
  | retryExecution => exact retryExecution_wrote success
  | createWaitpoint => exact (exists_answer success).elim fun _ created => (createWaitpoint_aside created).kept
  | resolveWaitpoint => exact (resolveWaitpoint_aside success).kept
  | expireWaitpoints => exact (expireWaitpoints_aside success).kept
  | acquireDurableStep =>
    exact (exists_answer success).elim fun _ acquired => kept (.stepped (acquireDurableStep_stepped acquired))
  | renewDurableStep => exact kept (.stepped (renewDurableStep_stepped success).1)
  | completeDurableStep =>
    exact kept ((completeDurableStep_stepped success).elim .same fun both => .stepped both.1)
  | failDurableStep => exact kept ((failDurableStep_stepped success).elim .same fun both => .stepped both.1)
  | cancelDurableStep => exact kept ((cancelDurableStep_stepped success).elim .same fun both => .stepped both.1)

section
variable {after : Database} {command : Command} (wrote : Wrote db now after command)
include wrote

theorem Wrote.beside : Aside db now after ∨ Silent db now command after ∨ ∃ t, Touches db after t := by
  cases wrote with
  | kept executions beside => exact beside.imp_right .inl
  | annotated id row next stored annotates executions touches =>
    exact .inr (touches.symm.imp_right fun touches => ⟨_, touches⟩)
  | created | bound | moved | retried => exact .inr (.inr ⟨_, ‹_›⟩)

/-- Whatever a command changes, it makes at most one move on steps and attempts. -/
theorem Wrote.stepMove : StepMove db now after := by
  obtain aside | silent | ⟨_, touches⟩ := wrote.beside
  · cases aside with
    | same written | created _ _ _ written | wrote _ _ _ _ _ written => exact written ▸ .kept rfl rfl
    | waited executions steps attempts => exact .kept steps attempts
    | stepped stepped => exact stepped.move
  · obtain ⟨_, _, _, _, _, _, _, _, _, rfl⟩ | ⟨_, _, _, _, _, rfl⟩ := silent
    · exact .kept rfl rfl
    · exact .kept rfl rfl
  · exact .kept touches.steps touches.attempts

/-- The moves on executions. -/
inductive ExecutionMove (db : Database) (now : Timestamp) (command : Command) (after : Database) : Prop
  | kept (executions : after.executions = db.executions)
  | added (id : String) (row : ExecutionRow)
      (asked : ∃ itemKey runtime runtimeScope externalID,
        command = .createExecution id row.taskID itemKey runtime runtimeScope externalID ∧
          row.itemKey = btrim (itemKey.getD "default"))
      (live : row.supersededAt = none) (absent : db.executions.lookup id = none)
      (executions : after.executions = db.executions.insert id row)
  | rewrote (id : String) (row next : ExecutionRow) (stored : db.executions.lookup id = some row)
    (rewrites : Rewrites row next)
      (moves : next.state = row.state ∨ row.state = .pendingDispatch ∨
        command.transitions = some (id, next.state) ∧ row.state.canTransition row.externalID.isSome next.state = true)
      (executions : after.executions = db.executions.insert id next)
  | retried (id newID : String) (row next : ExecutionRow) (stored : db.executions.lookup id = some row)
      (current : row.supersededAt = none) (finished : row.state.finished = true)
      (named : next.taskID = row.taskID ∧ next.itemKey = row.itemKey) (live : next.supersededAt = none)
      (numbered : next.attempt = (db.putExecution id (row.superseded now)).nextAttempt row.taskID row.itemKey)
      (absent : (db.executions.insert id (row.superseded now)).lookup newID = none)
      (executions : after.executions = (db.executions.insert id (row.superseded now)).insert newID next)
      (asked : ∃ expected, command = .retryExecution id expected newID)

theorem Wrote.executionMove : ExecutionMove db now command after := by
  cases wrote with
  | kept executions => exact .kept executions
  | created request task valid owner absent unclashed executions =>
    exact .added request.id _ ⟨_, _, _, _, rfl, rfl⟩ rfl absent executions
  | bound row stored current pending runtime same told unclashed executions =>
    exact .rewrote _ row (row.boundTo now _ _) stored rewrites_boundTo (.inr (.inl pending)) executions
  | moved row reason asked stored differs allowed executions =>
    exact .rewrote _ row (row.moved now _ reason) stored ⟨rfl, rfl, rfl, rfl⟩ (.inr (.inr ⟨asked, allowed⟩)) executions
  | annotated id row next stored annotates executions =>
    exact .rewrote id row next stored annotates.rewrites (.inl annotates.state) executions
  | retried row stored live current finished named absent unclashed executions =>
    exact .retried _ _ row (row.next now _) stored live finished ⟨rfl, rfl⟩ rfl rfl absent executions ⟨_, rfl⟩

end

theorem step_executionMove (taken : step db event = some after) :
    ExecutionMove db event.now event.command after := by
  rcases step_cases taken with same | success
  · exact same ▸ .kept rfl
  · exact (wrote_of_execute success).executionMove

end RhinoQ.Model.TaskSchema
