import RhinoQ.Proofs.BullMQ.Bridge
import RhinoQ.Proofs.BullMQ.Sessions

/-! # Dispatching the same job again

A dispatch looks the job up and accepts only the attempt that it names itself. Once a retry gave the job to a
later attempt, the same dispatch is refused; so is one whose job id the database trims.
-/

namespace RhinoQ.Model.BullMQ

open TaskSchema TaskClient Bridge

/-- The same binding is submitted twice, by a dispatch or by a track. -/
inductive Repeats (bridge : Bridge) (binding : Binding) : Operation → Operation → Prop
  | dispatch (first second : String) :
      Repeats bridge binding (.dispatch bridge { binding with jobName := first })
        (.dispatch bridge { binding with jobName := second })
  | track : Repeats bridge binding (.track bridge binding) (.track bridge binding)

/-- The job id is stored as it is. -/
def StoredAsIs (jobID : String) : Prop := jobID ≠ "" ∧ btrim jobID = jobID

/-- The job id is stored as it is, and the attempt that the binding names was not superseded. -/
structure Repeatable (binding : Binding) (db : Database) : Prop where
  asIs : StoredAsIs binding.jobID
  current : ∀ row, db.executions.lookup binding.executionID = some row → row.supersededAt = none

/-- The attempt that the binding names, once the binding was accepted. -/
structure Established (bridge : Bridge) (binding : Binding) (db : Database) (row : ExecutionRow) : Prop where
  stored : db.executions.lookup binding.executionID = some row
  taskID : row.taskID = binding.task.id
  reference : StoredAsIs binding.jobID →
    row.runtime = "bullmq" ∧ row.runtimeScope = bridge.scope ∧ row.externalID = some binding.jobID

/-- No job is added. -/
def AddsNone (query : Query) : Prop := ∀ name jobID, query ≠ .callback (.queueAdd name jobID)

theorem btrim_scope (bridge : Bridge) : btrim bridge.scope = bridge.scope := by
  unfold btrim scope jsTrim
  rw [String.toList_ofList, trim_trim]
  intro c space
  rw [beq_iff_eq.mp space]
  decide

theorem btrim_bullmq : btrim "bullmq" = "bullmq" := by decide

theorem scopeOption_getD (bridge : Bridge) : bridge.scopeOption.getD "" = bridge.scope := by
  rw [scopeOption, given, Option.filter_some]
  split
  next => rfl
  next empty => simpa using empty

theorem btrim_scopeOption (bridge : Bridge) : btrim (bridge.scopeOption.getD "") = bridge.scope := by
  rw [scopeOption_getD, btrim_scope]

section
variable {bridge : Bridge} {binding : Binding} {db after : Database} {id : String} {row : ExecutionRow} {error : Error}
variable {taskID : String} {input : Dispatch} {existing : TaskExecution} {task : TaskRow}

namespace Established

theorem of_liveAt (live : LiveAt db "bullmq" bridge.scope binding.jobID binding.executionID row)
    (task : row.taskID = binding.task.id) :
    Established bridge binding db row where
  stored := live.stored
  taskID := task
  reference _ := ⟨live.runtime, live.runtimeScope, live.externalID⟩

theorem evolves (held : Established bridge binding db row) (evolves : Evolves db after) :
    ∃ next, Established bridge binding after next ∧ row.Evolves next := by
  obtain ⟨next, stored, kept⟩ := evolves.rows _ row held.stored
  refine ⟨next, ⟨stored, kept.taskID.trans held.taskID, fun asIs => ?_⟩, kept⟩
  obtain ⟨runtime, scope, external⟩ := held.reference asIs
  obtain ⟨external', scope'⟩ := kept.bound _ external
  exact ⟨kept.runtime.trans runtime, scope'.trans scope, external'⟩

end Established

/-- The attempt that the binding names is one of its task. -/
def Owned (binding : Binding) (db : Database) : Prop :=
  ∃ row, db.executions.lookup binding.executionID = some row ∧ row.taskID = binding.task.id

theorem Owned.evolves (owned : Owned binding db) (evolves : Evolves db after) : Owned binding after := by
  obtain ⟨row, stored, task⟩ := owned
  obtain ⟨next, stored', kept⟩ := evolves.rows _ row stored
  exact ⟨next, stored', kept.taskID.trans task⟩

/-! ## What a success leaves -/

/-- The binding was accepted. -/
def Accepted (bridge : Bridge) (binding : Binding) (db : Database) : Prop := ∃ row, Established bridge binding db row

theorem accepted_stable (db after : Database) (evolves : Evolves db after) (held : Accepted bridge binding db) :
    Accepted bridge binding after := by
  obtain ⟨row, established⟩ := held
  obtain ⟨next, established', -⟩ := established.evolves evolves
  exact ⟨next, established'⟩

/-- The others let the tables evolve; nothing is asked of the statements. -/
abbrev anyQuery : Law Database Query := among fun _ _ => True

theorem framed_accepted : Framed anyQuery fun t => Consistent t ∧ Accepted bridge binding t :=
    framed_evolving accepted_stable

theorem leads_find : Leads (bridge.find jobID)
    (fun found t => ∀ execution, found = some execution → ∃ id row, execution = mapExecution id row ∧
      LiveAt t "bullmq" bridge.scope jobID id row)
    db := by
  refine meets_findExecution fun t between => ⟨trivial, fun _ => ⟨between.1, ?_⟩, fun id row found => ⟨between.1, ?_⟩⟩
  · rintro _ ⟨⟩ _ ⟨⟩
  · rintro _ ⟨⟩ _ ⟨⟩
    exact ⟨id, row, rfl, (liveReference_eq_some between.1).mp found⟩

theorem assertExistingBinding_own (held : Established bridge binding db row) :
    assertExistingBinding (mapExecution binding.executionID row) binding binding.task.id = pure () :=
  (if_neg (not_not.mpr held.taskID)).trans (if_neg (not_not.mpr rfl))

theorem assertExistingBinding_other (taskID : String) (other : existing.id ≠ binding.executionID) :
    ∃ error, assertExistingBinding existing binding taskID = throw error := by
  unfold assertExistingBinding
  split
  next => exact ⟨_, rfl⟩
  next => exact ⟨_, rfl⟩

theorem assertExistingBinding_accepts (consistent : Consistent db)
    (live : LiveAt db "bullmq" bridge.scope binding.jobID id row) :
    Leads (assertExistingBinding (mapExecution id row) binding binding.task.id)
      (fun _ t => Accepted bridge binding t) db := by
  refine .branch (fun _ => .throw consistent) fun task => .branch (fun _ => .throw consistent) fun same =>
    .pure consistent ⟨row, ?_⟩
  refine .of_liveAt ?_ (not_not.mp task)
  rwa [← not_not.mp same]

theorem acceptRaced_establishes :
    Leads (bridge.acceptRaced binding binding.task.id error) (fun _ t => Accepted bridge binding t) db := by
  refine .bind leads_find fun found t consistent named => ?_
  cases found with
  | none => exact .throw consistent
  | some raced =>
    obtain ⟨id, row, rfl, live⟩ := named raced rfl
    exact assertExistingBinding_accepts consistent live

section
variable (consistent : Consistent db)
include consistent

theorem createTaskExecutionAck_creates :
    Leads (createTaskExecutionAck taskID request) (fun _ t =>
      ∃ row, t.executions.lookup request.id = some row ∧ row.taskID = taskID ∧ row.runtime = btrim request.runtime ∧
        row.runtimeScope = btrim (request.runtimeScope.getD "") ∧
          row.externalID = nullIfEmpty (btrim (request.externalID.getD ""))) db := by
  refine .ite (.throw consistent) <| executing consistent fun t now after success => ?_
  obtain ⟨_, task, rfl, -, -, inserted⟩ := createExecution_eq_ok success
  obtain ⟨-, -, executions, -⟩ := insertExecution_eq_ok inserted
  refine ⟨_, executions ▸ AList.lookup_insert _, ?_⟩
  simp only [CreateRequest.row, Option.getD_some, and_self]

/-- The reservation of a dispatch: the row is created with the job id. -/
theorem createReserved_establishes :
    Leads (createTaskExecutionAck binding.task.id (bridge.createRequest binding (some binding.jobID)))
      (fun _ t => Accepted bridge binding t) db := by
  refine (createTaskExecutionAck_creates consistent).mono ?_
  rintro _ t _ ⟨row, stored, task, runtime, scope, external⟩
  simp only [createRequest, btrim_bullmq, btrim_scopeOption, Option.getD_some] at runtime scope external
  refine ⟨row, stored, task, fun asIs => ⟨runtime, scope, ?_⟩⟩
  rw [external, asIs.2, nullIfEmpty, if_neg (by simpa using asIs.1)]

end

theorem bindExecution_establishes {scope : String} (owned : Owned binding db)
    (trimmed : btrim scope = bridge.scope) (success : (Command.bindExecution binding.executionID expected
      (some "bullmq") (some scope)
      (some binding.jobID)).execute db now = .ok after) : ∃ row, Established bridge binding after row ∧
        row.state ≠ .pendingDispatch := by
  obtain ⟨bound, stored, -, -, runtime, -, -, -, written⟩ := bindExecution_eq_ok success
  obtain ⟨row, stored', task⟩ := owned
  obtain rfl : bound = row := Option.some.inj (stored.symm.trans stored')
  simp only [Option.getD_some, btrim_bullmq] at runtime
  have executions := (congrArg Database.executions written).trans executions_updateExecution
  simp only [ExecutionRow.boundTo, Option.getD_some, trimmed] at executions
  have written := (congrArg (AList.lookup binding.executionID) executions).trans (AList.lookup_insert _)
  refine ⟨_, ⟨written, task, fun asIs => ⟨runtime, rfl, congrArg some asIs.2⟩⟩, ?_⟩
  simp

theorem bindTaskExecution_establishes (consistent : Consistent db) (owned : Owned binding db) :
    Leads (bindTaskExecution binding.executionID "bullmq" bridge.scopeOption binding.jobID)
      (fun _ t => Accepted bridge binding t) db := by
  have stable (s t : Database) (evolves : Evolves s t) (owned : Owned binding s) : Owned binding t := owned.evolves evolves
  refine .bind (leads_of ((framed_evolving stable).getTaskExecution ⟨consistent, owned⟩)) fun execution t consistent
    ⟨named, owned⟩ => ?_
  refine .ite (.throw consistent) <| .bind (leads_of ((framed_evolving stable).executes (admits_evolving stable)
    ⟨consistent, owned⟩ fun u now after held success => ?_)) fun _ u consistent accepted =>
      evolving accepted_stable _ consistent accepted.1
  rw [named] at success
  obtain ⟨row, established, -⟩ := bindExecution_establishes held.2 (btrim_scopeOption bridge) success
  exact ⟨row, established⟩

section
variable (consistent : Consistent db)
include consistent

/-- The row of a track is created without a job id, which it gets when it is bound. -/
theorem createBound_establishes : Leads (do
      createTaskExecutionAck binding.task.id (bridge.createRequest binding none)
      let _ ← bindTaskExecution binding.executionID "bullmq" bridge.scopeOption binding.jobID
      pure ()) (fun _ t => Accepted bridge binding t) db := by
  refine .bind (createTaskExecutionAck_creates consistent) fun _ s consistent ⟨row, stored, task, _⟩ => ?_
  exact .bind (bindTaskExecution_establishes consistent ⟨row, stored, task⟩) fun _ t consistent accepted =>
    .pure consistent accepted

/-- The snapshot is one of the task, whose id is not blank. -/
theorem getTask_told : Leads (getTask id) (fun task _ => task.id = id ∧ untold id = false) db := by
  refine meets_getTask (fun _ => ⟨consistent, fun _ same => nomatch same⟩) fun told t between =>
    ⟨trivial, fun _ => ⟨between.1, fun _ same => nomatch same⟩, ?_⟩
  rintro row _
  exact ⟨between.1, fun task same => Except.ok.inj same ▸ ⟨rfl, told⟩⟩

theorem createTask_told : Leads (createTask request) (fun task _ => task.id = request.id ∧ untold request.id = false) db :=
  .ite (.throw consistent) <| .ite (.throw consistent) <|
    .bind (runs _ consistent) fun _ _ consistent _ => getTask_told consistent

/-- The id that a reservation goes on with. -/
theorem taskID_told : Leads (tryCatch (do return (← getTaskSummary binding.task.id).summary.id) fun error =>
      if error.isCode "RHINOQ_TASK_NOT_FOUND" then do return (← createTask binding.task).id else throw error)
      (fun id _ => id = binding.task.id ∧ untold binding.task.id = false) db := by
  have summarized : Leads (getTaskSummary binding.task.id)
      (fun summary _ => summary.summary.id = binding.task.id ∧ untold binding.task.id = false) db := by
    refine meets_getTaskSummary (fun _ => ⟨consistent, fun _ same => nomatch same⟩) fun told t between =>
    ⟨trivial, fun _ => ⟨between.1, fun _ same => nomatch same⟩, ?_⟩
    rintro row _
    exact ⟨between.1, fun summary same => Except.ok.inj same ▸ ⟨rfl, told⟩⟩
  refine .tryCatch (.bind summarized fun _ _ consistent told => .pure consistent told) fun error t consistent => ?_
  exact .ite (.bind (createTask_told consistent) fun _ _ consistent told => .pure consistent told) <| .throw consistent

theorem reserve_establishes : Leads (bridge.reserve binding)
      (fun id t => id = binding.task.id ∧ untold binding.task.id = false ∧ Accepted bridge binding t) db := by
  refine .bind (taskID_told consistent) fun id s _ ⟨same, told⟩ => .bind leads_find fun found t consistent named => ?_
  subst same
  cases found with
  | none =>
    refine .bind (.tryCatch (createReserved_establishes consistent) fun _ _ _ => acceptRaced_establishes)
      fun _ _ consistent accepted => ?_
    exact .pure consistent ⟨rfl, told, accepted⟩
  | some existing =>
    obtain ⟨id, row, rfl, live⟩ := named existing rfl
    exact .bind (assertExistingBinding_accepts consistent live) fun _ _ consistent accepted =>
      .pure consistent ⟨rfl, told, accepted⟩

end

/-- The attempt crossed the dispatch boundary. -/
def Crossed (bridge : Bridge) (binding : Binding) (db : Database) : Prop :=
  ∃ row, Established bridge binding db row ∧ row.state ≠ .pendingDispatch

theorem crossed_stable (db after : Database) (evolves : Evolves db after) (held : Crossed bridge binding db) :
    Crossed bridge binding after := by
  obtain ⟨row, established, away⟩ := held
  obtain ⟨next, established', kept⟩ := established.evolves evolves
  exact ⟨next, established', kept.crossed away⟩

/-- An attempt that is read away from `pending_dispatch` has crossed. -/
theorem getTaskExecution_crossed (accepted : Accepted bridge binding db) :
    Settles serve anyQuery (fun t => Consistent t ∧ Accepted bridge binding t) (getTaskExecution binding.executionID)
      (fun execution t => execution.state ≠ .pendingDispatch → Crossed bridge binding t) db := by
  refine meets_getTaskExecution fun t between => ?_
  obtain ⟨row, established⟩ := accepted_stable db t between.2 accepted
  refine ⟨trivial, fun _ => ⟨⟨between.1, row, established⟩, fun _ same => nomatch same⟩, fun row' stored =>
    ⟨⟨between.1, row, established⟩, ?_⟩⟩
  rintro _ ⟨⟩ away
  cases stored.symm.trans established.stored
  exact ⟨row, established, away⟩

theorem bindTaskExecutionAck_crosses (held : Consistent db ∧ Accepted bridge binding db) :
    Settles serve anyQuery (fun t => Consistent t ∧ Accepted bridge binding t)
      (bindTaskExecutionAck binding.executionID "bullmq" (some bridge.scope) binding.jobID)
        (fun _ t => Crossed bridge binding t) db := by
  refine .ite (.throw held) <| .bind (framed_accepted.getTaskExecution held) fun execution t held named => ?_
  refine framed_accepted.executes (admits_evolving accepted_stable) held fun u now after ⟨_, row, established⟩ success => ?_
  rw [named] at success
  exact bindExecution_establishes ⟨row, established.stored, established.taskID⟩ (btrim_scope bridge) success

theorem dispatchReserved_crosses (held : Consistent db ∧ Accepted bridge input.toBinding db) :
    Leads (bridge.dispatchReserved input) (fun _ t => Crossed bridge input.toBinding t) db := by
  refine Settles.weaken (.bind (getTaskExecution_crossed held.2) fun execution t held crossed =>
    .branch (fun away => .pure held (crossed away)) fun _ => .bind (framed_accepted.call held) fun _ u held _ => ?_)
      fun _ held => held.1
  refine .tryCatch (bindTaskExecutionAck_crosses held) fun error v held =>
    .bind (getTaskExecution_crossed held.2) fun latest w held crossed => ?_
  exact .branch (fun same => .pure held (crossed same.1)) fun _ => .throw held

/-! ## Submissions that succeed -/

theorem assertDispatchReady_leads (consistent : Consistent db) :
    Leads bridge.assertDispatchReady (fun _ _ => bridge.assertDispatchReady = pure ()) db := by
  unfold assertDispatchReady
  generalize bridge.scope = scope
  split
  next => exact .throw consistent
  split
  next => exact .throw consistent
  next => exact .pure consistent rfl

theorem assertDispatchableJobID_leads (consistent : Consistent db) :
    Leads (assertDispatchableJobID jobID) (fun _ _ => assertDispatchableJobID jobID = pure ()) db := by
  unfold assertDispatchableJobID
  dsimp only
  split
  next => exact .throw consistent
  next => exact .pure consistent rfl

/-- The checks that a dispatch makes before it asks the database. -/
structure Dispatchable (bridge : Bridge) (jobID : String) : Prop where
  ready : bridge.assertDispatchReady = pure ()
  jobID : assertDispatchableJobID jobID = pure ()

theorem dispatch_establishes (consistent : Consistent db) : Leads (bridge.dispatch input) (fun _ t =>
      Dispatchable bridge input.jobID ∧ untold input.task.id = false ∧ Crossed bridge input.toBinding t) db := by
  refine .bind (assertDispatchReady_leads consistent) fun _ _ consistent ready => ?_
  refine .bind (assertDispatchableJobID_leads consistent) fun _ _ consistent jobID => ?_
  refine .bind (reserve_establishes consistent) fun id s consistent ⟨_, told, accepted⟩ => ?_
  refine .bind (dispatchReserved_crosses ⟨consistent, accepted⟩) fun _ t consistent crossed => ?_
  exact (evolving crossed_stable _ consistent crossed).mono fun _ _ _ held => ⟨⟨ready, jobID⟩, told, held⟩

/-- What a track leaves. -/
def Tracked (bridge : Bridge) (binding : Binding) (t : Database) : Prop :=
  binding.itemKey.any untold = false ∧ untold binding.task.id = false ∧ Accepted bridge binding t

theorem track_establishes (consistent : Consistent db) :
    Leads (bridge.track binding) (fun _ => Tracked bridge binding) db := by
  refine .branch (fun _ => .throw consistent) fun keyed => .bind (.tryCatch (getTask_told consistent) fun _ _ consistent =>
    .ite (createTask_told consistent) <| .throw consistent) fun snapshot s _ ⟨same, told⟩ => ?_
  have keyed : binding.itemKey.any untold = false := Bool.not_eq_true _ ▸ keyed
  have queued (t : Database) (consistent : Consistent t) (accepted : Accepted bridge binding t) :
      Leads (ensureTask snapshot.id .queued) (fun _ => Tracked bridge binding) t :=
    (evolving accepted_stable _ consistent accepted).mono fun _ _ _ held => ⟨keyed, told, held⟩
  refine .bind leads_find fun found t consistent named => ?_
  cases found with
  | none =>
    refine .ite (.throw consistent) ?_
    rw [same] at queued ⊢
    exact .bind (.tryCatch (createBound_establishes consistent) fun _ _ _ => acceptRaced_establishes) fun _ => queued
  | some existing =>
    obtain ⟨id, row, rfl, live⟩ := named existing rfl
    change Leads (do
      assertExistingBinding (mapExecution id row) binding snapshot.id
      ensureTask snapshot.id .queued) _ t
    rw [same] at queued ⊢
    exact .bind (assertExistingBinding_accepts consistent live) fun _ => queued

/-! ## What a repetition meets -/

/-- Alone, and without adding a job. -/
abbrev addsNone : Law Database Query := .alone fun _ => AddsNone

theorem Established.live (held : Established bridge binding db row) (repeatable : Repeatable binding db) :
    LiveAt db "bullmq" bridge.scope binding.jobID binding.executionID row := by
  obtain ⟨runtime, scope, external⟩ := held.reference repeatable.asIs
  exact ⟨held.stored, repeatable.current row held.stored, runtime, scope, external⟩

/-- The call succeeds and writes no attempt. -/
abbrev Again {α : Type} (x : Async α) (db : Database) : Prop :=
  Meets serve addsNone x (fun result t => (∃ value, result = .ok value) ∧ t.executions = db.executions) db

theorem ensureTask_again (consistent : Consistent db) (told : untold id = false) (stored : db.tasks.lookup id = some task) :
    Again (ensureTask id .queued) db := by
  refine meets_converge_of_ok (meets_bind.mpr (getTask_alone nofun told stored ?_))
  change Meets serve addsNone (if _ then _ else _) _ db
  split
  next => exact ⟨⟨_, rfl⟩, rfl⟩
  -- only the first of the three moves applies, and only to a task that is pending
  have moved : Again (moveTask (mapSnapshot id task (db.executionSummaries id)) (task.state == .pending) .queued) db := by
    unfold moveTask
    split
    next pending =>
      have allowed : task.state.canTransition .queued = true := by
        rw [beq_iff_eq.mp pending]
        rfl
      refine meets_bind.mpr (meets_validateVersion (fun _ => ?_) fun small => ?_)
      · change Meets serve addsNone (do execute (.transitionTask id (some task.version) .queued); getTask id) _ db
        refine meets_bind.mpr (execute_alone nofun (fun now after success => ?_) fun now failure failed => ?_)
        · obtain ⟨next, success', -⟩ := transitionTask_succeeds now stored allowed
          cases success'.symm.trans success
          exact getTask_alone nofun told (AList.lookup_insert _) ⟨⟨_, rfl⟩, rfl⟩
        · obtain ⟨next, success, -⟩ := transitionTask_succeeds now stored allowed
          cases success.symm.trans failed
      · exact absurd small (not_le.mpr (consistent.versions id task stored))
    next => exact ⟨⟨_, rfl⟩, rfl⟩
  refine moved.bind ?_ ?_
  · rintro snapshot t ⟨-, executions⟩
    exact ⟨⟨_, rfl⟩, executions⟩
  · rintro error t ⟨⟨_, ⟨⟩⟩, -⟩

/-- The result is an error. -/
def Throws {α : Type} (result : Except Error α) (_ : Database) : Prop := ∃ error, result = .error error

theorem throws_bind (thrown : Meets serve solo x Throws db) :
    Meets serve solo (x >>= f) Throws db := by
  refine thrown.bind ?_ fun _ _ _ => ⟨_, rfl⟩
  rintro _ _ ⟨_, ⟨⟩⟩

section
variable (consistent : Consistent db) (refused : ¬Repeatable binding db)
include consistent refused

/-- Otherwise the job belongs to another attempt, if to any. -/
theorem ne_of_not_repeatable (live : LiveAt db "bullmq" bridge.scope binding.jobID id row) : id ≠ binding.executionID := by
  rintro rfl
  obtain ⟨trimmed, told⟩ := consistent.external _ row _ live.stored live.externalID
  refine refused ⟨⟨told, trimmed⟩, fun row' stored => ?_⟩
  obtain rfl : row = row' := Option.some.inj (live.stored.symm.trans stored)
  exact live.live

theorem found_refused (found : db.liveReference "bullmq" bridge.scope binding.jobID = some (id, row)) (taskID : String) :
    Meets serve solo (assertExistingBinding (mapExecution id row) binding taskID) Throws db := by
  have other : (mapExecution id row).id ≠ binding.executionID :=
    ne_of_not_repeatable consistent refused ((liveReference_eq_some consistent).mp found)
  obtain ⟨error, thrown⟩ := assertExistingBinding_other taskID other
  rw [thrown]
  exact ⟨error, rfl⟩

theorem orRaced_refused
    (fails : Meets serve solo x (fun result t => t = db ∧ Throws result t) db) :
    Meets serve solo (tryCatch x (bridge.acceptRaced binding taskID)) Throws db := by
  refine meets_tryCatch.mpr (fails.mono ?_)
  rintro _ _ ⟨rfl, error, rfl⟩
  refine meets_bind.mpr (meets_findExecution fun t between => ⟨trivial, fun _ => ⟨error, rfl⟩, fun id row found => ?_⟩)
  cases between
  exact found_refused consistent refused found taskID

end

/-- The attempt that the binding names is there already. -/
theorem create_refused (held : Established bridge binding db row) :
    Meets serve solo (createTaskExecutionAck taskID (bridge.createRequest binding externalID))
      (fun result t => t = db ∧ Throws result t) db := by
  unfold createTaskExecutionAck
  split
  next => exact ⟨rfl, _, rfl⟩
  refine execute_alone trivial (fun now after success => ?_) fun _ _ _ => ⟨rfl, _, rfl⟩
  obtain ⟨_, _, -, -, -, inserted⟩ := createExecution_eq_ok success
  cases (insertExecution_eq_ok inserted).1.symm.trans held.stored

/-! ## The same submission again -/

section
variable (consistent : Consistent db) (told : untold binding.task.id = false) (held : Established bridge binding db row)
include consistent told held

theorem reserve_again (stored : db.tasks.lookup binding.task.id = some task) (repeatable : Repeatable binding db) :
    Meets serve addsNone (bridge.reserve binding) (fun result t => result = .ok binding.task.id ∧ t = db) db := by
  refine meets_bind.mpr (meets_tryCatch.mpr (meets_bind.mpr (getTaskSummary_alone nofun told stored ?_)))
  refine meets_bind.mpr (find_alone nofun consistent (held.live repeatable) (meets_bind.mpr ?_))
  change Meets serve addsNone (assertExistingBinding (mapExecution binding.executionID row) binding binding.task.id) _ db
  rw [assertExistingBinding_own held]
  exact ⟨rfl, rfl⟩

theorem track_again (keyed : binding.itemKey.any untold = false) (repeatable : Repeatable binding db) :
    Again (bridge.track binding) db := by
  obtain ⟨task, stored⟩ := held.taskID ▸ consistent.owned _ row held.stored
  unfold track
  rw [if_neg (by simp [keyed])]
  refine meets_bind.mpr (meets_tryCatch.mpr (getTask_alone nofun told stored ?_))
  refine meets_bind.mpr (find_alone nofun consistent (held.live repeatable) ?_)
  change Meets serve addsNone (do
    assertExistingBinding (mapExecution binding.executionID row) binding binding.task.id
    ensureTask binding.task.id .queued) _ db
  rw [assertExistingBinding_own held]
  exact ensureTask_again consistent told stored

theorem reserve_refused (refused : ¬Repeatable binding db) : Meets serve solo (bridge.reserve binding) Throws db := by
  obtain ⟨task, stored⟩ := held.taskID ▸ consistent.owned _ row held.stored
  refine meets_bind.mpr (meets_tryCatch.mpr (meets_bind.mpr (getTaskSummary_alone trivial told stored ?_)))
  refine meets_bind.mpr (meets_findExecution fun t between => ⟨trivial, fun _ => ?_, fun id row found => ?_⟩)
  · cases between
    exact throws_bind (orRaced_refused consistent refused (create_refused held))
  · cases between
    exact throws_bind (found_refused consistent refused found _)

theorem track_refused (refused : ¬Repeatable binding db) : Meets serve solo (bridge.track binding) Throws db := by
  obtain ⟨task, stored⟩ := held.taskID ▸ consistent.owned _ row held.stored
  unfold track
  split
  next => exact ⟨_, rfl⟩
  refine meets_bind.mpr (meets_tryCatch.mpr (getTask_alone trivial told stored ?_))
  refine meets_bind.mpr (meets_findExecution fun t between => ⟨trivial, fun _ => ?_, fun id row found => ?_⟩)
  · cases between
    change Meets serve solo (if _ then _ else _) _ db
    split
    next => exact ⟨_, rfl⟩
    refine throws_bind (orRaced_refused consistent refused
      ((create_refused held).bind ?_ fun _ _ thrown => ⟨thrown.1, _, rfl⟩))
    rintro _ _ ⟨-, _, ⟨⟩⟩
  · cases between
    exact throws_bind (found_refused consistent refused found _)

end

section
attribute [local irreducible] reserve

variable (consistent : Consistent db) (checks : Dispatchable bridge input.jobID)
variable (told : untold input.task.id = false) (crossed : Crossed bridge input.toBinding db)
include consistent checks told crossed

theorem dispatch_again (repeatable : Repeatable input.toBinding db) : Again (bridge.dispatch input) db := by
  obtain ⟨row, held, away⟩ := crossed
  obtain ⟨task, stored⟩ := held.taskID ▸ consistent.owned _ row held.stored
  unfold dispatch
  rw [checks.ready, checks.jobID]
  refine (reserve_again consistent told held stored repeatable).bind ?_ ?_
  · rintro _ _ ⟨⟨⟩, rfl⟩
    refine meets_bind.mpr (meets_bind.mpr (getTaskExecution_alone nofun held.stored ?_))
    change Meets serve addsNone (if _ then _ else _) _ _
    split
    next => exact ensureTask_again consistent told stored
    next pending => exact absurd away pending
  · rintro _ _ ⟨⟨⟩, -⟩

theorem dispatch_refused (refused : ¬Repeatable input.toBinding db) :
    Meets serve solo (bridge.dispatch input) Throws db := by
  obtain ⟨row, held, -⟩ := crossed
  unfold dispatch
  rw [checks.ready, checks.jobID]
  refine (reserve_refused consistent told held refused).bind ?_ fun _ _ _ => ⟨_, rfl⟩
  rintro _ _ ⟨_, ⟨⟩⟩

end

end

/-! ## The result -/

/-- The repetition succeeds, writes no attempt and adds no job. -/
def Safe (op : Operation) (db : Database) : Prop := ∀ choices,
  (op.code.play serve choices db).1 = .ok () ∧ (op.code.play serve choices db).2.executions = db.executions ∧
    ∀ entry ∈ op.code.trace serve choices db, AddsNone entry.2

section
variable {op : Operation} {x : Async α} {db : Database}

theorem safe_of_meets (code : op.code = (do let _ ← x).run) (again : Again x db) : Safe op db := by
  have whole : op.code.wp serve addsNone (fun result t => result = .ok () ∧ t.executions = db.executions) db := by
    rw [code]
    refine again.bind (fun _ _ held => ⟨rfl, held.2⟩) ?_
    rintro _ _ ⟨⟨_, ⟨⟩⟩, -⟩
  intro choices
  obtain ⟨succeeds, executions⟩ := Program.wp.play whole choices
  exact ⟨succeeds, executions, Program.wp.trace whole choices⟩

theorem not_safe_of_throws (code : op.code = (do let _ ← x).run) (thrown : Meets serve solo x Throws db) : ¬Safe op db := by
  have whole : op.code.wp serve solo Throws db := by
    rw [code]
    exact throws_bind thrown
  intro safe
  obtain ⟨error, same⟩ := Program.wp.play whole fun _ => obliging
  cases same.symm.trans (safe fun _ => obliging).1

end

/-- After a dispatch or a track succeeded, whatever happened since, it can be repeated exactly if its attempt was not
superseded and its job id is stored as it is. -/
theorem repeated_safe_iff {p : Sessions} {t : ℕ} {bridge : Bridge} {binding : Binding} {first again : Operation}
    (reached : sessions.Reaches Machine.anyStep p) (repeats : Repeats bridge binding first again)
    (succeeded : p.ended t = some (first, .ok ())) : Safe again p.shared ↔ Repeatable binding p.shared := by
  have consistent := consistent_of_reaches reached
  cases repeats with
  | dispatch name again =>
    have sound : ∀ s, Consistent s → (Operation.dispatch bridge { binding with jobName := name }).code.wp serve anyQuery
        (fun result t => result = .ok () →
          Dispatchable bridge binding.jobID ∧ untold binding.task.id = false ∧ Crossed bridge binding t) s :=
            fun s consistent =>
      Meets.bind (dispatch_establishes consistent) (fun task _ held _ => held.2 task rfl) fun _ _ _ => nofun
    obtain ⟨base, evolves, held⟩ := steady.post_of_ended .empty sound reached succeeded
    obtain ⟨checks, told, crossed⟩ := held rfl
    have crossed := crossed_stable base p.shared evolves crossed
    constructor
    · intro safe
      by_contra refused
      exact not_safe_of_throws rfl (dispatch_refused consistent checks told crossed refused) safe
    · exact fun repeatable => safe_of_meets rfl (dispatch_again consistent checks told crossed repeatable)
  | track =>
    have sound : ∀ s, Consistent s → (Operation.track bridge binding).code.wp serve anyQuery
      (fun result t => result = .ok () → Tracked bridge binding t) s :=
      fun s consistent => Meets.bind (track_establishes consistent) (fun task _ held _ => held.2 task rfl) fun _ _ _ => nofun
    obtain ⟨base, evolves, held⟩ := steady.post_of_ended .empty sound reached succeeded
    obtain ⟨keyed, told, established⟩ := held rfl
    obtain ⟨row, established⟩ := accepted_stable base p.shared evolves established
    constructor
    · intro safe
      by_contra refused
      exact not_safe_of_throws rfl (track_refused consistent told established refused) safe
    · exact fun repeatable => safe_of_meets rfl (track_again consistent told established keyed repeatable)

/-- The entry of a dispatch of the job that succeeded. -/
def dispatched (test : Bridge → Bool) : Operation × Except Error Unit → Bool
  | (.dispatch bridge input, .ok ()) => decide (input = jobOfBatch "a") && test bridge
  | _ => false

theorem exists_of_dispatched (passed : dispatched test entry = true) :
    ∃ bridge, entry = (.dispatch bridge (jobOfBatch "a"), .ok ()) ∧ test bridge = true := by
  unfold dispatched at passed
  split at passed
  next bridge input =>
    obtain ⟨same, held⟩ := Bool.and_eq_true_iff.mp passed
    obtain rfl := of_decide_eq_true same
    exact ⟨bridge, rfl, held⟩
  next => cases passed

/-- The job was dispatched, ran and completed. -/
theorem repeated_safe_after_completion : ∃ p : Sessions, ∃ bridge, sessions.Reaches Machine.anyStep p ∧
    p.ended 0 = some (.dispatch bridge (jobOfBatch "a"), .ok ()) ∧ Safe (.dispatch bridge (jobOfBatch "a")) p.shared := by
  obtain ⟨p, reached, ⟨row, found, current⟩, entry, ended, passed⟩ := Machine.exists_reached (m := sessions)
    (oneJob .completed)
    (P := fun p => (∃ row, p.shared.executions.lookup "a" = some row ∧ row.supersededAt = none) ∧
      ∃ entry, p.ended 0 = some entry ∧ dispatched (fun _ => true) entry = true) (by decide +kernel)
  obtain ⟨bridge, rfl, -⟩ := exists_of_dispatched passed
  have repeatable : Repeatable (jobOfBatch "a").toBinding p.shared := by
    refine ⟨⟨by decide, by decide⟩, fun row' stored => ?_⟩
    obtain rfl : row = row' := Option.some.inj (found.symm.trans stored)
    exact current
  exact ⟨p, bridge, reached, ended, (repeated_safe_iff reached (.dispatch "run" "run") ended).mpr repeatable⟩

/-- The job was dispatched and failed, and its retry runs. The dispatch again is refused. -/
theorem repeated_dispatch_refused : ∃ p : Sessions, ∃ bridge, sessions.Reaches Machine.anyStep p ∧
    p.ended 0 = some (.dispatch bridge (jobOfBatch "a"), .ok ()) ∧ ¬Safe (.dispatch bridge (jobOfBatch "a")) p.shared := by
  obtain ⟨p, reached, entry, ended, passed⟩ := Machine.exists_reached (m := sessions) (oneJob .failed ++
      inTurn 3 [(.project projectingBridge 2 .active { jobID := "a", attempt := some 2 }, 8)])
    (P := fun p => ∃ entry, p.ended 0 = some entry ∧ dispatched (fun bridge => !((Operation.dispatch bridge
      (jobOfBatch "a")).code.play serve (fun _ => obliging) p.shared).1.toOption.isSome) entry = true) (by decide +kernel)
  obtain ⟨bridge, rfl, fails⟩ := exists_of_dispatched passed
  refine ⟨p, bridge, reached, ended, fun safe => ?_⟩
  rw [(safe fun _ => obliging).1] at fails
  cases fails

end RhinoQ.Model.BullMQ
