import RhinoQ.Proofs.TaskSchema.Step

/-! # What a command changes beside the attempts

A command that writes an attempt moves the version of its task, and two writes move no version. The commands that
write no attempt do one of a few things.
-/

namespace RhinoQ.Model.TaskSchema

open Database

variable {existed : Bool} {tenantID : Option String} {taskID : String} {after db : Database}

/-- The execution that a transition command addresses, and where it is to go. -/
def Command.transitions : Command → Option (String × ExecutionState)
  | .transitionExecution id _ target _ => some (id, target)
  | .transitionExecutionForOwner id _ _ _ target _ => some (id, target)
  | _ => none

/-- An attempt was written in place: its name, its number and whether it is superseded stay. -/
structure Rewrites (row next : ExecutionRow) : Prop where
  taskID : next.taskID = row.taskID
  itemKey : next.itemKey = row.itemKey
  attempt : next.attempt = row.attempt
  supersededAt : next.supersededAt = row.supersededAt

def Database.putExecution (db : Database) (id : String) (row : ExecutionRow) : Database :=
  { db with executions := db.executions.insert id row }

/-- The other tables stay, and the version of the task moves. -/
structure Touches (db after : Database) (taskID : String) : Prop where
  steps : after.steps = db.steps
  attempts : after.attempts = db.attempts
  advanced : Advanced db after
  bumped : Bumped db after taskID

/-- The two writes that leave the version of the task. -/
inductive Silent (db : Database) (now : Timestamp) (command : Command) (after : Database) : Prop
  | claimed (id currentID : String) (effectKey : Option String) (named row : ExecutionRow)
      (asked : command = .claimItemEffect id effectKey) (addressed : db.executions.lookup id = some named)
      (fresh : db.itemCarries named.taskID named.itemKey (btrim (effectKey.getD "")) = false)
      (stored : db.executions.lookup currentID = some row)
      (written : after = db.putExecution currentID (row.claimed now (btrim (effectKey.getD ""))))
  | settled (id : String) (row : TaskRow) (asked : command = .settleItems id) (stored : db.tasks.lookup id = some row)
      (ready : (row.itemsSettledAt.isNone && !(db.liveExecutions id).isEmpty &&
        (db.liveExecutions id).all (·.state.done)) = true)
      (written : after = { db with tasks := db.tasks.insert id { row with itemsSettledAt := some now, updatedAt := now } })

/-- What a command may do that writes no attempt. -/
inductive Aside (db : Database) (now : Timestamp) (after : Database) : Prop
  | same (unchanged : after = db)
  | created (id : String) (row : TaskRow) (absent : db.tasks.lookup id = none)
      (written : after = { db with tasks := db.tasks.insert id row }) (initial : row.version = 1)
  | wrote (id : String) (row next : TaskRow) (stored : db.tasks.lookup id = some row)
      (version : next.version = row.version) (written : after = db.writeTask now id next)
  | waited (executions : after.executions = db.executions) (steps : after.steps = db.steps)
      (attempts : after.attempts = db.attempts) (advanced : Advanced db after)
  | stepped (stepped : Stepped db now after)

section
variable {db after : Database} {now : Timestamp} {id : String} {expected : Option ℤ}
variable {ownerID reason reference : Option String} {row next : ExecutionRow} {target : ExecutionState}

theorem Aside.executions (aside : Aside db now after) : after.executions = db.executions := by
  cases aside with
  | same written | created _ _ _ written | wrote _ _ _ _ _ written => exact written ▸ rfl
  | waited executions => exact executions
  | stepped stepped => exact stepped.executions

theorem createTask_aside {type tenantID : String}
    (success : db.createTask now id type tenantID ownerID definitionVersion = .ok (existed, after)) :
    Aside db now after := by
  rw [createTask, refuse_bind_eq_ok, refuse_bind_eq_ok] at success
  obtain ⟨_, _, success⟩ := success
  split at success
  next absent =>
    cases success
    exact .created id _ absent rfl rfl
  · rw [refuse_bind_eq_ok] at success
    cases success.2
    exact .same rfl

theorem transitionTask_aside {target : TaskState} (success : db.transitionTask now id expected target = .ok after) :
    Aside db now after := by
  simp only [transitionTask, task, found_bind_eq_ok, refuse_bind_eq_ok] at success
  obtain ⟨row, stored, _, _, written⟩ := success
  refine .wrote id row _ stored ?_ (Except.ok.inj written).symm
  rfl

theorem reportProgress_aside
    (success : db.reportProgress now id expected completed total hasTotal message = .ok after) : Aside db now after := by
  simp only [reportProgress, task, found_bind_eq_ok, refuse_bind_eq_ok] at success
  obtain ⟨row, stored, _, _, success⟩ := success
  generalize (if hasTotal = true then total else none) = total' at success
  split at success
  · exact .same (Except.ok.inj success).symm
  simp only [refuse_bind_eq_ok] at success
  obtain ⟨_, _, _, written⟩ := success
  refine .wrote id row _ stored ?_ (Except.ok.inj written).symm
  rfl

theorem requestCancellation_aside (success : db.requestCancellation now id expected = .ok after) : Aside db now after := by
  simp only [requestCancellation, task, found_bind_eq_ok] at success
  obtain ⟨row, stored, success⟩ := success
  split at success
  · exact .same (Except.ok.inj success).symm
  simp only [refuse_bind_eq_ok] at success
  obtain ⟨_, _, written⟩ := success
  refine .wrote id row _ stored ?_ (Except.ok.inj written).symm
  rfl

theorem resolveCancellation_aside
    (success : db.resolveCancellation now id expected status reason = .ok after) : Aside db now after := by
  simp only [resolveCancellation, task, found_bind_eq_ok, refuse_bind_eq_ok] at success
  obtain ⟨row, stored, _, _, written⟩ := success
  refine .wrote id row _ stored ?_ (Except.ok.inj written).symm
  rfl

theorem attachTaskResult_aside (success : db.attachTaskResult now id expected reference = .ok after) :
    Aside db now after := by
  simp only [attachTaskResult, task, found_bind_eq_ok, refuse_bind_eq_ok] at success
  obtain ⟨row, stored, _, success⟩ := success
  split at success
  · exact .same (Except.ok.inj success).symm
  simp only [refuse_bind_eq_ok] at success
  refine .wrote id row _ stored ?_ (Except.ok.inj success.2).symm
  rfl

theorem syncItemProgress_aside (success : db.syncItemProgress now id = .ok after) : Aside db now after := by
  simp only [syncItemProgress, task, found_bind_eq_ok] at success
  obtain ⟨row, stored, success⟩ := success
  split at success
  · exact .same (Except.ok.inj success).symm
  split at success
  · exact .same (Except.ok.inj success).symm
  refine .wrote id row _ stored ?_ (Except.ok.inj success).symm
  rfl

theorem Touches.updateTask (db : Database) (executions : FiniteMap String ExecutionRow)
    (raises : ∀ task, task.version < (change task).version) :
    Touches db (updateTask { db with executions } taskID change) taskID := by
  have frame := updateTask_frame { db with executions } taskID change
  obtain ⟨advanced, bumped⟩ := updateTask_advanced { db with executions } taskID change raises
  exact ⟨frame.steps, frame.attempts, advanced, bumped⟩

theorem Touches.bumpTask (touches : Touches db between taskID) : Touches db (between.bumpTask taskID now) taskID := by
  have frame := between.updateTask_frame taskID fun task => { task with version := task.version + 1, updatedAt := now }
  have further := (between.bumpTask_advanced taskID now).1
  exact ⟨frame.steps.trans touches.steps, frame.attempts.trans touches.attempts, touches.advanced.trans further,
    touches.bumped.trans_advanced further⟩

theorem executions_updateExecution : (db.updateExecution now id row next).executions = db.executions.insert id next := by
  unfold updateExecution
  dsimp only
  split
  · rfl
  · exact ((db.putExecution id next).updateTask_frame _ _).executions

theorem updateExecution_of_same (same : row.state = next.state) :
    db.updateExecution now id row next = db.putExecution id next := if_pos same

theorem updateExecution_touches (moved : row.state ≠ next.state) :
    Touches db (db.updateExecution now id row next) next.taskID := by
  unfold updateExecution
  rw [if_neg moved]
  exact .updateTask db _ fun _ => Int.lt_succ _

theorem insertExecution_eq_ok (inserted : db.insertExecution now id row = .ok after) :
    db.executions.lookup id = none ∧ db.clashes id row = false ∧ after.executions = db.executions.insert id row ∧
      Touches db after row.taskID := by
  rw [insertExecution, refuse_bind_eq_ok, Bool.or_eq_false_iff] at inserted
  obtain ⟨⟨fresh, unclashed⟩, written⟩ := inserted
  cases written
  exact ⟨by simpa using fresh, unclashed, ((db.putExecution id row).updateTask_frame _ _).executions,
    .updateTask db _ fun _ => Int.lt_succ _⟩

theorem orExists_eq_ok (success : orExists detail result = .ok after) : result = .ok after := by
  unfold orExists at success
  split at success
  · cases success
  · exact success

theorem waitpoint_frame (db : Database) (now : Timestamp) (waitpoints : FiniteMap String WaitpointRow) (taskID : String) :
    (bumpTask { db with waitpoints } taskID now).executions = db.executions ∧
      (bumpTask { db with waitpoints } taskID now).steps = db.steps ∧
      (bumpTask { db with waitpoints } taskID now).attempts = db.attempts ∧
      Advanced db (bumpTask { db with waitpoints } taskID now) := by
  have frame := updateTask_frame { db with waitpoints } taskID fun task =>
    { task with version := task.version + 1, updatedAt := now }
  exact ⟨frame.executions, frame.steps, frame.attempts, (bumpTask_advanced { db with waitpoints } taskID now).1⟩

theorem createWaitpoint_aside
    (success : db.createWaitpoint now id taskID key kind payloadVersion deadline = .ok (existed, after)) :
    Aside db now after := by
  rw [createWaitpoint, refuse_bind_eq_ok] at success
  replace success := success.2
  split at success
  · rw [found_bind_eq_ok] at success
    obtain ⟨task, _, written⟩ := success
    cases written
    obtain ⟨executions, steps, attempts, advanced⟩ := waitpoint_frame db now _ taskID
    exact .waited executions steps attempts advanced
  · rw [refuse_bind_eq_ok] at success
    cases success.2
    exact .same rfl

theorem resolveWaitpoint_aside {resolutionID actor value hash : String}
    (success : db.resolveWaitpoint now id tenantID ownerID expected resolutionID actor value hash = .ok after) :
    Aside db now after := by
  rw [resolveWaitpoint, refuse_bind_eq_ok, found_bind_eq_ok] at success
  obtain ⟨_, row, _, success⟩ := success
  rw [refuse_bind_eq_ok] at success
  replace success := success.2
  split at success
  · rw [refuse_bind_eq_ok] at success
    cases success.2
    exact .same rfl
  · simp only [refuse_bind_eq_ok] at success
    obtain ⟨_, _, _, written⟩ := success
    cases written
    obtain ⟨executions, steps, attempts, advanced⟩ := waitpoint_frame db now _ row.taskID
    exact .waited executions steps attempts advanced

theorem expire_frame (now : Timestamp) (due : List (String × WaitpointRow)) (db : Database) :
    (due.foldl (fun state entry => state.expireWaitpoint now entry) db).executions = db.executions ∧
      (due.foldl (fun state entry => state.expireWaitpoint now entry) db).steps = db.steps ∧
      (due.foldl (fun state entry => state.expireWaitpoint now entry) db).attempts = db.attempts ∧
      Advanced db (due.foldl (fun state entry => state.expireWaitpoint now entry) db) := by
  induction due generalizing db with
  | nil => exact ⟨rfl, rfl, rfl, .refl db⟩
  | cons entry rest ih =>
    rw [List.foldl_cons]
    obtain ⟨executions, steps, attempts, advanced⟩ := waitpoint_frame db now
      (db.waitpoints.insert entry.1 { entry.2 with
        state := .expired, version := entry.2.version + 1, updatedAt := now }) entry.2.taskID
    obtain ⟨executions', steps', attempts', advanced'⟩ := ih (db.expireWaitpoint now entry)
    exact ⟨executions'.trans executions, steps'.trans steps, attempts'.trans attempts, advanced.trans advanced'⟩

theorem expireWaitpoints_aside (success : db.expireWaitpoints now limit = .ok after) : Aside db now after := by
  unfold expireWaitpoints at success
  rw [refuse_bind_eq_ok] at success
  cases success.2
  obtain ⟨executions, steps, attempts, advanced⟩ := expire_frame now _ db
  exact .waited executions steps attempts advanced

end

theorem exists_answer {result : Except Failure (α × Database)} (mapped : result.map Prod.snd = .ok after) :
    ∃ answer, result = .ok (answer, after) := by
  cases result with
  | error failure => cases mapped
  | ok pair => exact ⟨pair.1, by rw [← Except.ok.inj mapped]⟩

end RhinoQ.Model.TaskSchema
