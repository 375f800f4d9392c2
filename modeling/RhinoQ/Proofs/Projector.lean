import RhinoQ.Model.Projector
import RhinoQ.Proofs.TaskClient

/-! # What the projector leaves

Each method of the projector is followed over five fields of the live attempt and its task: where it leaves them
when it returns, and which it leaves alone. A method that returned finds nothing to do when it is called again.
-/

namespace RhinoQ.Model.RuntimeTaskProjector

open TaskSchema TaskClient FiniteMap Settles Database

variable {task : TaskSnapshot} {source : TaskState} {expected : ℤ}

/-! ## What the projector asks -/

variable {target : TaskState} {reason : Option String} {progress : TaskProgress} {reference : String}
  {attach : String → Async Unit} {state : TaskState}

/-- No attempt is superseded. -/
def RetriesNone (command : Command) : Prop := ∀ id expected newID, command ≠ .retryExecution id expected newID

section
variable {id : String}

theorem asks_ensureExecution {P : Command → Prop} (may : ∀ id version target reason,
    P (.transitionExecution id (some version) target reason))
    (rounds : ℕ) (id : String) (target : ExecutionState) (reason : Option String) :
    Asks (Within P) (ensureExecution rounds id target reason) := by
  induction rounds generalizing target reason with
  | zero => exact .throw
  | succ rounds ih =>
    refine asks_converge (.bind asks_getTaskExecution fun execution => .ite .pure ?_)
    refine .tryCatch (.bind ?_ fun _ => .pure) fun error => ?_
    · refine .bind asks_validateVersion fun _ => .bind asks_getTaskExecution fun _ => ?_
      exact .bind (asks_execute (may _ _ _ _)) fun _ => asks_getTask
    · exact .ite (.bind (ih .running none) fun _ => ih target reason) .throw

theorem asks_ensureTask : Asks (Within RetriesNone) (ensureTask id target) := by
  have transitions (task : TaskSnapshot) (target : TaskState) :
      Asks (Within RetriesNone) (transitionTask task.id task.entityVersion target) :=
        asks_transitionTask (fun _ => nofun) fun _ _ => nofun
  have moves (task : TaskSnapshot) (source target : TaskState) : Asks (Within RetriesNone) (moveTask task source target) :=
    .ite (transitions task target) .pure
  refine asks_converge (.bind asks_getTask fun task => .ite .pure ?_)
  refine .bind (moves task .pending .queued) fun task => .ite .pure ?_
  refine .bind (moves task .queued .running) fun task => .ite .pure ?_
  exact .ite .pure <| .ite (transitions task target) .pure

theorem asks_reportProgress : Asks (Within RetriesNone) (reportProgress id progress) :=
  asks_converge (.bind asks_getTask fun _ => .ite .pure <| .ite .pure <| asks_reportTaskProgress nofun)

theorem asks_synchronizeSuccessfulProgress : Asks (Within RetriesNone) (synchronizeSuccessfulProgress id) :=
  asks_converge (.bind asks_getTask fun _ => .ite .pure <| .ite .pure <| asks_reportTaskProgress nofun)

theorem asks_attachExecutionResult : Asks (Within RetriesNone) (attachExecutionResult id reference) := by
  refine asks_converge (.bind asks_getTaskExecution fun execution => .bind ?_ fun _ => .pure)
  refine .bind asks_validateVersion fun _ => .ite .throw <| .bind asks_getTaskExecution fun _ => ?_
  exact .bind (asks_execute nofun) fun _ => asks_getTask

theorem asks_attachResult : Asks (Within RetriesNone) (attachResult id reference) := by
  refine asks_converge (.bind asks_getTask fun task => .ite .pure <| .bind ?_ fun _ => .bind asks_getTask fun _ => .pure)
  exact .bind asks_validateVersion fun _ => .ite .throw <| .bind (asks_execute nofun) fun _ => asks_getTask

theorem asks_whenGiven {reference : Option String} (asks : ∀ reference, Asks (Within RetriesNone) (attach reference)) :
    Asks (Within RetriesNone) (whenGiven reference attach) := by
  unfold whenGiven
  split
  next => exact .pure
  next => exact asks _

end

theorem asks_apply (projector : Projector) (rounds : ℕ) (execution : TaskExecution) (fact : RuntimeFact) :
    Asks (Within RetriesNone) (projector.apply rounds execution fact) := by
  have executions (id : String) (target : ExecutionState) (reason : Option String) :
      Asks (Within RetriesNone) (ensureExecution rounds id target reason) := asks_ensureExecution (fun _ _ _ _ => nofun) ..
  have activates : Asks (Within RetriesNone) (activate rounds execution) := .bind (executions ..) fun _ => asks_ensureTask
  cases fact with
  | accepted => exact .bind (executions ..) fun _ => .bind asks_ensureTask fun _ => .pure
  | started => exact .bind activates fun _ => .pure
  | progressed progress =>
    exact .bind activates fun task => .ite .pure <| .ite .pure <| .bind asks_reportProgress fun _ => .pure
  | attemptEnded outcome reason => exact .bind (executions ..) fun _ => .bind asks_ensureTask fun _ => .pure
  | succeeded resultRef =>
    refine .bind (executions ..) fun _ => .bind asks_ensureTask fun _ => ?_
    refine .bind (asks_whenGiven fun _ => asks_attachExecutionResult) fun _ => .ite ?_ .pure
    refine .bind asks_synchronizeSuccessfulProgress fun _ => .bind asks_ensureTask fun _ => ?_
    exact asks_whenGiven fun _ => asks_attachResult
  | failed terminal reason =>
    refine .bind (executions ..) fun _ => .bind asks_ensureTask fun _ => ?_
    exact .ite (.bind asks_ensureTask fun _ => .pure) .pure
  | cancelled =>
    refine .bind (executions ..) fun _ => .bind asks_getTask fun task => ?_
    exact .ite (.bind asks_ensureTask fun _ => .pure) .pure
  | uncertain reason => exact .bind (executions ..) fun _ => .bind asks_ensureTask fun _ => .pure

/-! ## What the projector goes by -/

/-- The live attempt of a reference. -/
abbrev LiveRef (db : Database) (ref : RuntimeRef) (id : String) (row : ExecutionRow) : Prop :=
  LiveAt db ref.runtime ref.scope ref.externalID id row

structure Standing where
  state : ExecutionState
  result : Option String
  taskState : TaskState
  taskResult : Option String
  progress : TaskProgress

def standing (row : ExecutionRow) (task : TaskRow) : Standing where
  state := row.state
  result := row.resultRef
  taskState := task.state
  taskResult := task.resultRef
  progress := { completed := task.progressCompleted, total := task.progressTotal, message := task.progressMessage }

/-- The names of an attempt. -/
structure Place where
  ref : RuntimeRef
  attempt : ℤ
  id : String
  taskID : String

/-- The attempt of the task is the live one of the reference, and this is how both stand. -/
structure Stands (p : Place) (v : Standing) (db : Database) : Prop where
  consistent : Consistent db
  rows : ∃ row task, LiveRef db p.ref p.id row ∧ row.attempt = p.attempt ∧ row.taskID = p.taskID ∧
    db.tasks.lookup p.taskID = some task ∧ v = standing row task

/-- A snapshot shows how the task stands. -/
structure Shows (p : Place) (v : Standing) (task : TaskSnapshot) : Prop where
  id : task.id = p.taskID
  state : task.state = v.taskState
  hasResult : task.hasResult = v.taskResult.isSome
  progress : progressOf task = { v.progress with message := given v.progress.message }

namespace Stands

variable {p : Place} {v : Standing} {db after : Database} {now : Timestamp} {expected : Option ℤ}

theorem of_live {id : String} (consistent : Consistent db) (live : LiveRef db ref id row) :
    ∃ task, Stands ⟨ref, row.attempt, id, row.taskID⟩ (standing row task) db := by
  obtain ⟨task, stored⟩ := consistent.owned id row live.stored
  exact ⟨task, consistent, row, task, live, rfl, rfl, stored, rfl⟩

theorem updateExecution (now : Timestamp) (id : String) (row next : ExecutionRow) {task : TaskRow}
    (stored : db.tasks.lookup next.taskID = some task) :
    ∃ task' : TaskRow, (db.updateExecution now id row next).tasks.lookup next.taskID = some task' ∧
      standing next task' = standing next task := by
  unfold Database.updateExecution
  dsimp only
  split
  next => exact ⟨task, stored, rfl⟩
  refine ⟨task.countMoved now row.state next.state, ?_, rfl⟩
  rw [lookup_updateTask, if_pos rfl]
  exact congrArg (Option.map _) stored

variable (stands : Stands p v db)
include stands

theorem transitionTask
    (success : (Command.transitionTask p.taskID expected target).execute db now = .ok after) :
    Stands p { v with taskState := target } after ∧ v.taskState.canTransition target = true := by
  have consistent := stands.consistent.step success
  obtain ⟨row, task, live, number, owner, stored, rfl⟩ := stands.rows
  simp only [Command.execute, Database.transitionTask, Database.task, found_bind_eq_ok, refuse_bind_eq_ok] at success
  obtain ⟨_, stored', _, allowed, written⟩ := success
  cases stored.symm.trans stored'
  cases written
  refine ⟨⟨consistent, row, _, { live with stored := live.stored }, number, owner, AList.lookup_insert _, rfl⟩, ?_⟩
  change task.state.canTransition target = true
  simpa using allowed

theorem reportProgress {total : Option ℤ}
    (success : (Command.reportProgress p.taskID expected completed total hasTotal message).execute db now = .ok
      after) : Stands p
      { v with progress :=
        { completed, total := if hasTotal then total else none, message := nullIfEmpty (message.getD "") } } after := by
  have consistent := stands.consistent.step success
  obtain ⟨row, task, live, number, owner, stored, rfl⟩ := stands.rows
  simp only [Command.execute, Database.reportProgress, Database.task, found_bind_eq_ok, refuse_bind_eq_ok] at success
  obtain ⟨_, stored', _, _, success⟩ := success
  cases stored.symm.trans stored'
  generalize (if hasTotal = true then total else none) = total' at success ⊢
  generalize nullIfEmpty (message.getD "") = message' at success ⊢
  split at success
  next same =>
    cases success
    obtain ⟨rfl, rfl, rfl⟩ := same
    exact ⟨consistent, row, task, live, number, owner, stored, rfl⟩
  next =>
    simp only [refuse_bind_eq_ok] at success
    obtain ⟨_, _, _, written⟩ := success
    cases written
    exact ⟨consistent, row, _, { live with stored := live.stored }, number, owner, AList.lookup_insert _, rfl⟩

theorem attachTaskResult (success : (Command.attachTaskResult p.taskID expected (some reference)).execute db now = .ok
    after) :
    Stands p { v with taskResult := some (btrim reference) } after := by
  have consistent := stands.consistent.step success
  obtain ⟨row, task, live, number, owner, stored, rfl⟩ := stands.rows
  simp only [Command.execute, Database.attachTaskResult, Database.task, found_bind_eq_ok, refuse_bind_eq_ok,
    Option.getD_some] at success
  obtain ⟨_, stored', _, success⟩ := success
  cases stored.symm.trans stored'
  split at success
  next same =>
    cases success
    exact ⟨consistent, row, task, live, number, owner, stored, by rw [← same]; rfl⟩
  next =>
    simp only [refuse_bind_eq_ok] at success
    cases success.2
    exact ⟨consistent, row, _, { live with stored := live.stored }, number, owner, AList.lookup_insert _, rfl⟩

theorem transitionExecution {target : ExecutionState} (success : (Command.transitionExecution p.id expected target
    reason).execute db now = .ok after) :
    Stands p { v with state := target } after := by
  have consistent := stands.consistent.step success
  obtain ⟨ref, n, id, taskID⟩ := p
  obtain ⟨row, task, live, number, rfl, stored, rfl⟩ := stands.rows
  obtain ⟨_, stored', ⟨same, rfl⟩ | ⟨_, _, _, rfl⟩⟩ := transitionExecution_eq_ok success
  · cases live.stored.symm.trans stored'
    cases same
    exact ⟨consistent, row, task, live, number, rfl, stored, rfl⟩
  · cases live.stored.symm.trans stored'
    obtain ⟨task', found, same⟩ := updateExecution now id row (row.moved now target reason) stored
    have moved : (db.updateExecution now id row (row.moved now target reason)).executions.lookup id =
        some (row.moved now target reason) := by
      rw [executions_updateExecution, lookup_insert, if_pos rfl]
    exact ⟨consistent, _, task', { live with stored := moved }, number, rfl, found, same.symm⟩

theorem attachExecutionResult (success : (Command.attachExecutionResult p.id expected (some reference)).execute db
    now = .ok after) :
    Stands p { v with result := some (btrim reference) } after := by
  have consistent := stands.consistent.step success
  obtain ⟨ref, n, id, taskID⟩ := p
  obtain ⟨row, task, live, number, rfl, stored, rfl⟩ := stands.rows
  obtain ⟨_, stored', ⟨same, rfl⟩ | ⟨_, rfl⟩⟩ := attachExecutionResult_eq_ok success
  · cases live.stored.symm.trans stored'
    exact ⟨consistent, row, task, live, number, rfl, stored, same ▸ rfl⟩
  · cases live.stored.symm.trans stored'
    let task' : TaskRow := { task with version := task.version + 1, updatedAt := now }
    let next : ExecutionRow := { row with resultRef := some (btrim reference), version := row.version + 1, updatedAt := now }
    refine ⟨consistent, next, task', { live with stored := ?_ }, number, rfl, ?_, rfl⟩
    · rw [bumpTask, (updateTask_frame _ row.taskID _).executions]
      exact AList.lookup_insert _
    · rw [bumpTask, lookup_updateTask, if_pos rfl]
      exact congrArg (Option.map _) stored

end Stands

/-! ## Where the methods leave an attempt and its task -/

/-- The states of a task in which a call for `target` has nothing to do. -/
def rests : TaskState → TaskState → Bool
  | .queued, state => state != .pending
  | .running, state => state != .pending && state != .queued
  | .cancelled, state => state != .pending && state != .queued && state != .cancelRequested
  | target, state => state == target || terminalTask state

theorem rests_of_done (done : state = target ∨ terminalTask state = true) : rests target state = true := by
  cases target <;> cases state <;> simp_all [rests, terminalTask]

theorem cases_of_rests (rest : rests target state = true) :
    (state = target ∨ terminalTask state = true) ∨ state ≠ .pending ∧
      (target = .queued ∨ state ≠ .queued ∧ (target = .running ∨ target = .cancelled ∧ state ≠ .cancelRequested)) := by
  cases target <;> cases state <;> simp_all [rests, terminalTask]

/-- The report is stored, or the task takes none. -/
def Reported (progress : TaskProgress) (v : Standing) : Prop :=
  (v.taskState ≠ .running ∧ v.taskState ≠ .cancelRequested) ∨
    { v.progress with message := given v.progress.message } = progress ∨
    v.progress = { progress with message := nullIfEmpty (progress.message.getD "") }

section
variable {p : Place} {v w : Standing} {db : Database} {inv : Database → Prop} {rounds : ℕ} {P : ExecutionState → Prop}

theorem settles_read (held : inv db) (stands : Stands p v db) :
    Leaves inv (getTask p.taskID) (fun task t => Stands p v t ∧ Shows p v task) db := by
  obtain ⟨row, task, _, _, _, stored, rfl⟩ := stands.rows
  exact settles_getTask held stored ⟨stands, rfl, rfl, rfl, rfl⟩

theorem settles_executeThenGet (held : inv db)
    (steps : ∀ now t, command.execute db now = .ok t → Stands p w t) (keeps : ∀ t, Stands p w t → inv t) :
    Leaves inv (do execute command; getTask p.taskID) (fun task t => Stands p w t ∧ Shows p w task) db := by
  refine .bind (settles_execute held fun now t success => ?_) fun _ t held stands => settles_read held stands
  exact ⟨keeps t (steps now t success), steps now t success⟩

/-- The task may be in any state, and the rest stands. -/
def TaskMoves (p : Place) (v : Standing) (db : Database) : Prop :=
  ∃ state, Stands p { v with taskState := state } db

theorem settles_transitionTask (stands : Stands p { v with taskState := state } db) :
    Leaves (TaskMoves p v) (transitionTask p.taskID expected target)
      (fun task t => Stands p { v with taskState := target } t ∧ Shows p { v with taskState := target } task) db := by
  have moves {t : Database} {version : Option ℤ} (moved : TaskMoves p v t) :
      Leaves (TaskMoves p v) (do execute (.transitionTask p.taskID version target); getTask p.taskID)
        (fun task t => Stands p { v with taskState := target } t ∧ Shows p { v with taskState := target } task) t := by
    have ⟨state, stands⟩ := moved
    exact settles_executeThenGet moved (fun now u success => (stands.transitionTask success).1) fun u stands =>
      ⟨target, stands⟩
  refine .bind (settles_validateVersion ⟨state, stands⟩) ?_
  rintro _ _ held rfl
  refine .ite (.bind (settles_read held stands) ?_) <| moves held
  rintro current t held ⟨stands, _⟩
  have queues : Leaves (TaskMoves p v) (execute (.transitionTask p.taskID (some expected) .queued))
      (fun _ _ => True) t := settles_execute held fun now u success =>
        ⟨⟨.queued, (stands.transitionTask success).1⟩, trivial⟩
  exact .ite (queues.bind fun _ _ held _ => moves held) <| moves held

theorem settles_moveTask (shows : Shows p { v with taskState := state } task)
    (stands : Stands p { v with taskState := state } db) : Leaves (TaskMoves p v) (moveTask task source target)
      (fun task' t => ∃ next, next = (if state = source then target else state) ∧
        Stands p { v with taskState := next } t ∧ Shows p { v with taskState := next } task') db := by
  unfold moveTask
  rw [shows.state, shows.id]
  split
  next => exact (settles_transitionTask stands).mono fun task' t _ after => ⟨target, rfl, after⟩
  next => exact .pure ⟨state, stands⟩ ⟨state, rfl, stands, shows⟩

theorem settles_ensureTask (target : TaskState) (stands : Stands p v db) :
    Leaves (TaskMoves p v) (ensureTask p.taskID target)
      (fun task t => ∃ state, rests target state = true ∧
        Stands p { v with taskState := state } t ∧ Shows p { v with taskState := state } task) db := by
  refine settles_converge (fun s held => ?_) ⟨v.taskState, stands⟩
  have ⟨first, stands⟩ := held
  refine .bind (settles_read held stands) ?_
  rintro task t held ⟨stands, shows⟩
  rw [shows.state]
  refine .branch (fun done => .pure held ⟨first, rests_of_done done, stands, shows⟩) fun _ =>
    .bind (settles_moveTask shows stands) ?_
  rintro task t held ⟨second, secondEq, stands, shows⟩
  have away : second ≠ .pending := by
    rw [secondEq]
    split
    next => nofun
    next other => exact other
  refine .branch (fun queued => .pure held ⟨second, by simpa [queued, rests] using away, stands, shows⟩) fun _ =>
    .bind (settles_moveTask shows stands) ?_
  rintro task t held ⟨third, thirdEq, stands, shows⟩
  have away' : third ≠ .pending ∧ third ≠ .queued := by
    rw [thirdEq]
    split
    next => exact ⟨nofun, nofun⟩
    next other => exact ⟨away, other⟩
  refine .branch (fun running => .pure held ⟨third, by simpa [running, rests] using away', stands, shows⟩) fun _ => ?_
  rw [shows.state, shows.id]
  refine .branch (fun cancelled => .pure held ⟨third, by simpa [cancelled.1, rests] using ⟨away', cancelled.2⟩, stands,
    shows⟩) fun _ => ?_
  refine .branch (fun _ => (settles_transitionTask stands).mono fun task t _ after =>
    ⟨target, rests_of_done (.inl rfl), after⟩) fun others => ?_
  have terminal : terminalTask third = true := by
    clear thirdEq shows stands
    cases third <;> simp_all [terminalTask]
  exact .pure held ⟨third, rests_of_done (.inr terminal), stands, shows⟩

theorem quiet_moveTask (differs : task.state ≠ source) :
    Quiet (moveTask task source target) (· = task) db := by
  unfold moveTask
  rw [if_neg differs]
  exact .pure rfl rfl

theorem quiet_ensureTask (stands : Stands p v db) (rest : rests target v.taskState = true) :
    Quiet (ensureTask p.taskID target) (Shows p v) db := by
  refine settles_converge (fun s held => ?_) rfl
  cases held
  refine .bind_same (settles_read rfl stands) fun task ⟨_, shows⟩ => ?_
  rw [shows.state]
  refine .branch (fun _ => .pure rfl shows) fun ongoing => ?_
  obtain ⟨unmoved, further⟩ := (cases_of_rests rest).resolve_left ongoing
  refine .bind_same (quiet_moveTask (shows.state.trans_ne unmoved)) ?_
  rintro _ rfl
  refine .branch (fun _ => .pure rfl shows) fun other => ?_
  obtain ⟨unmoved', further⟩ := further.resolve_left other
  refine .bind_same (quiet_moveTask (shows.state.trans_ne unmoved')) ?_
  rintro _ rfl
  refine .branch (fun _ => .pure rfl shows) fun other => ?_
  have left := further.resolve_left other
  rw [if_pos ⟨left.1, shows.state.trans_ne left.2⟩]
  exact .pure rfl shows

/-- An execution that is read shows how the attempt stands. -/
structure ShowsAttempt (p : Place) (v : Standing) (execution : TaskExecution) : Prop where
  id : execution.id = p.id
  taskID : execution.taskID = p.taskID
  state : execution.state = v.state

theorem settles_readExecution (held : inv db) (stands : Stands p v db) :
    Leaves inv (getTaskExecution p.id) (fun execution t => Stands p v t ∧ ShowsAttempt p v execution) db := by
  obtain ⟨row, task, live, _, owner, _, rfl⟩ := stands.rows
  exact getTaskExecution_alone trivial live.stored ⟨held, fun _ same => Except.ok.inj same ▸ ⟨stands, rfl, owner, rfl⟩⟩

/-- The attempt may be in any of these states, and the rest stands. -/
def AttemptMoves (p : Place) (v : Standing) (P : ExecutionState → Prop) (db : Database) : Prop :=
  ∃ state, P state ∧ Stands p { v with state := state } db

variable {target : ExecutionState}

theorem settles_transitionTaskExecution (wanted : P target) (held : AttemptMoves p v P db) :
    Leaves (AttemptMoves p v P) (transitionTaskExecution p.id expected target reason)
      (fun _ t => Stands p { v with state := target } t) db := by
  refine .bind (settles_validateVersion held) ?_
  rintro _ _ held rfl
  have ⟨state, _, stands⟩ := held
  refine .bind (settles_readExecution held stands) ?_
  rintro execution t held ⟨stands, shows⟩
  rw [shows.taskID]
  have moves (now : Timestamp) (u : Database) (success : (Command.transitionExecution p.id
    (some expected) target reason).execute t now = .ok u) :
      Stands p { v with state := target } u := stands.transitionExecution success
  refine (settles_executeThenGet held moves fun u stands => ⟨target, wanted, stands⟩).mono fun _ u _ after => after.1

theorem settles_ensureExecution (running : P .running) (rounds : ℕ) (wanted : P target) (held : AttemptMoves p v P db) :
    Leaves (AttemptMoves p v P) (ensureExecution rounds p.id target reason)
      (fun _ t => ∃ state, P state ∧ (state = target ∨ state.finished = true) ∧ Stands p { v with state := state } t)
        db := by
  induction rounds generalizing target reason db with
  | zero => exact .throw held
  | succ rounds ih =>
    refine settles_converge (fun s held => ?_) held
    have ⟨state, may, stands⟩ := held
    refine .bind (settles_readExecution held stands) ?_
    rintro execution t held ⟨stands, shows⟩
    rw [shows.state, shows.id]
    refine .branch (fun done => .pure held ⟨state, may, done, stands⟩) fun _ => ?_
    refine .tryCatch (.bind (settles_transitionTaskExecution wanted held) fun _ u held moved => ?_) fun error u held => ?_
    · exact .pure held ⟨target, wanted, .inl rfl, moved⟩
    · exact .ite (.bind (ih running held) fun _ w held _ => ih wanted held) <| .throw held

/-- From the dispatch on, nothing else ends the attempt. -/
theorem settles_ensureExecution_dispatched (dispatched : v.state = .dispatched) (stands : Stands p v db) :
    Leaves (fun _ => True) (ensureExecution rounds p.id target reason)
      (fun _ t => Stands p { v with state := target } t) db := by
  let P (state : ExecutionState) : Prop := state = .dispatched ∨ state = .running ∨ state = target
  have held : AttemptMoves p v P db := ⟨v.state, .inl dispatched, stands⟩
  refine (forget (settles_ensureExecution (.inr (.inl rfl)) rounds (.inr (.inr rfl)) held)).mono ?_
  rintro _ t _ ⟨state, may, done, stands⟩
  have there : state = target := by
    rcases may with rfl | rfl | rfl
    · exact done.resolve_right nofun
    · exact done.resolve_right nofun
    · rfl
  exact there ▸ stands

theorem quiet_ensureExecution (stands : Stands p v db)
    (there : v.state = target) : Quiet (ensureExecution rounds p.id target reason) (fun _ => True) db := by
  cases rounds with
  | zero => exact .throw rfl
  | succ rounds =>
    refine settles_converge (fun s held => ?_) rfl
    cases held
    refine .bind_same (settles_readExecution rfl stands) fun execution ⟨_, shows⟩ => ?_
    rw [if_pos (.inl (shows.state.trans there))]
    exact .pure rfl trivial

theorem settles_attachExecutionResult {done : Database → Prop} (held : inv db) (stands : ∀ s, inv s → ∃ v, Stands p v s)
    (steps : ∀ s expected now t, inv s → (Command.attachExecutionResult p.id expected (some reference)).execute s
      now = .ok t → inv t ∧ done t) :
    Leaves inv (attachExecutionResult p.id reference) (fun _ t => done t) db := by
  refine settles_converge (fun s held => ?_) held
  obtain ⟨v, stands⟩ := stands s held
  refine .bind (settles_readExecution held stands) ?_
  rintro execution t held ⟨stands, shows⟩
  rw [shows.id]
  have attaches (version : ℤ) : Leaves inv (attachTaskExecutionResult p.id version reference) (fun _ t => done t) t := by
    refine .bind (settles_validateVersion held) ?_
    rintro _ _ held rfl
    refine .ite (.throw held) <| .bind (settles_readExecution held stands) ?_
    rintro execution t held ⟨stands, _⟩
    have executes : Leaves inv (execute (.attachExecutionResult p.id (some version) (some reference)))
        (fun _ t => done t) t := settles_execute held fun now u success => steps t _ now u held success
    exact executes.bind fun _ u held attached => reads_solo asks_getTask fun _ => ⟨held, fun _ _ => attached⟩
  exact .bind (attaches execution.version) fun _ u held attached => .pure held attached

theorem settles_attached (stands : Stands p v db) :
    Leaves (fun t => ∃ result, Stands p { v with result := result } t) (attachExecutionResult p.id reference)
      (fun _ t => Stands p { v with result := some (btrim reference) } t) db := by
  refine settles_attachExecutionResult ⟨v.result, stands⟩ (fun s ⟨result, stands⟩ => ⟨_, stands⟩) ?_
  rintro s expected now t ⟨result, stands⟩ success
  exact ⟨⟨_, stands.attachExecutionResult success⟩, stands.attachExecutionResult success⟩

theorem quiet_attached (stands : Stands p v db) (attached : v.result = some (btrim reference)) :
    Quiet (attachExecutionResult p.id reference) (fun _ => True) db := by
  refine settles_attachExecutionResult rfl (fun s held => ⟨v, held ▸ stands⟩) ?_
  rintro s expected now t rfl success
  refine ⟨?_, trivial⟩
  obtain ⟨row, task, live, _, _, _, rfl⟩ := stands.rows
  obtain ⟨_, stored, ⟨_, same⟩ | ⟨other, _⟩⟩ := attachExecutionResult_eq_ok success
  · exact same
  · cases live.stored.symm.trans stored
    exact absurd attached other

theorem settles_validateProgress (held : inv db) : Leaves inv (validateProgress progress) (fun _ t => t = db) db := by
  unfold validateProgress
  split
  next => exact .throw held
  split
  next => exact .throw held
  next => exact .pure held rfl

theorem total_sent (progress : TaskProgress) :
    (if progress.total.isSome = true then some (progress.total.getD 0) else none) = progress.total := by
  cases progress.total <;> rfl

/-- The task may show any progress, and the rest stands. -/
def ProgressMoves (p : Place) (v : Standing) (db : Database) : Prop :=
  ∃ progress, Stands p { v with progress := progress } db

theorem settles_reportTaskProgress (stands : Stands p { v with progress := stored } db) :
    Leaves (ProgressMoves p v) (reportTaskProgress p.taskID expected progress) (fun _ t => Stands p
        { v with progress := { progress with message := nullIfEmpty (progress.message.getD "") } } t) db := by
  refine .bind (settles_validateVersion ⟨stored, stands⟩) ?_
  rintro _ _ held rfl
  refine .bind (settles_validateProgress held) ?_
  rintro _ _ held rfl
  refine (settles_executeThenGet held (fun now t success => ?_) fun t stands => ⟨_, stands⟩).mono fun _ t _ after => after.1
  have reported := stands.reportProgress success
  rw [total_sent] at reported
  exact reported

section
variable (stands : Stands p v db)
include stands

theorem settles_synchronizeSuccessfulProgress : Leaves (ProgressMoves p v) (synchronizeSuccessfulProgress p.taskID)
      (fun _ t => ProgressMoves p v t) db := by
  refine settles_converge (fun s held => ?_) ⟨v.progress, stands⟩
  have ⟨progress, stands⟩ := held
  refine .bind (settles_read held stands) ?_
  rintro task t held ⟨stands, shows⟩
  refine .ite (.pure held held) <| .ite (.pure held held) ?_
  rw [shows.id]
  exact (settles_reportTaskProgress stands).mono fun _ t _ stands => ⟨_, stands⟩

theorem quiet_synchronizeSuccessfulProgress (ended : v.taskState ≠ .running ∧ v.taskState ≠ .cancelRequested) :
    Quiet (synchronizeSuccessfulProgress p.taskID) (fun _ => True) db := by
  refine settles_converge (fun s held => ?_) rfl
  cases held
  refine .bind_same (settles_read rfl stands) fun task ⟨_, shows⟩ => ?_
  rw [shows.state, if_pos ended]
  exact .pure rfl trivial

theorem settles_reportProgress : Leaves (ProgressMoves p v) (reportProgress p.taskID progress)
      (fun _ t => ∃ stored, Reported progress { v with progress := stored } ∧ Stands p { v with progress := stored } t)
        db := by
  refine settles_converge (fun s held => ?_) ⟨v.progress, stands⟩
  have ⟨stored, stands⟩ := held
  refine .bind (settles_read held stands) ?_
  rintro task t held ⟨stands, shows⟩
  rw [shows.state, shows.id]
  refine .branch (fun ended => .pure held ⟨stored, .inl ended, stands⟩) fun _ => .branch (fun same => ?_) fun _ => ?_
  · exact .pure held ⟨stored, .inr (.inl (shows.progress.symm.trans (eq_of_beq same))), stands⟩
  · exact (settles_reportTaskProgress stands).mono fun _ t _ stands => ⟨_, .inr (.inr rfl), stands⟩

theorem quiet_reportTaskProgress
    (stored : v.progress = { progress with message := nullIfEmpty (progress.message.getD "") }) :
    Quiet (reportTaskProgress p.taskID expected progress) (fun _ => True) db := by
  refine .bind_same (settles_validateVersion rfl) fun _ _ => .bind_same (settles_validateProgress rfl) fun _ _ => ?_
  have unchanged (now : Timestamp) (t : Database)
      (success : (Command.reportProgress p.taskID (some expected) progress.completed
        (some (progress.total.getD 0)) progress.total.isSome
        progress.message).execute db now = .ok t) : t = db := by
    obtain ⟨row, task, _, _, _, found, rfl⟩ := stands.rows
    simp only [Command.execute, Database.reportProgress, Database.task, found_bind_eq_ok, refuse_bind_eq_ok,
      total_sent] at success
    obtain ⟨_, found', _, _, success⟩ := success
    cases found.symm.trans found'
    simp only [standing, TaskProgress.mk.injEq] at stored
    rw [if_pos stored] at success
    exact (Except.ok.inj success).symm
  have executes : Quiet (execute (.reportProgress p.taskID (some expected) progress.completed
      (some (progress.total.getD 0)) progress.total.isSome progress.message)) (fun _ => True) db :=
    settles_execute rfl fun now t success => ⟨unchanged now t success, trivial⟩
  exact executes.bind_same fun _ _ => reads_solo asks_getTask fun _ => ⟨rfl, fun _ _ => trivial⟩

theorem quiet_reportProgress (reported : Reported progress v) :
    Quiet (reportProgress p.taskID progress) (fun _ => True) db := by
  refine settles_converge (fun s held => ?_) rfl
  cases held
  refine .bind_same (settles_read rfl stands) fun task ⟨_, shows⟩ => ?_
  rw [shows.state, shows.id]
  refine .branch (fun _ => .pure rfl trivial) fun ongoing => .branch (fun _ => .pure rfl trivial) fun differs => ?_
  refine quiet_reportTaskProgress stands ((reported.resolve_left ongoing).resolve_left fun same => differs ?_)
  exact beq_iff_eq.mpr (shows.progress.trans same)

theorem settles_attachResult :
    Leaves (fun t => ∃ result, Stands p { v with taskResult := result } t) (attachResult p.taskID reference)
      (fun _ t => ∃ result, result.isSome = true ∧ Stands p { v with taskResult := result } t) db := by
  refine settles_converge (fun s held => ?_) ⟨v.taskResult, stands⟩
  have ⟨result, stands⟩ := held
  refine .bind (settles_read held stands) ?_
  rintro task t held ⟨stands, shows⟩
  rw [shows.hasResult, shows.id]
  refine .branch (fun present => .pure held ⟨result, present, stands⟩) fun _ => ?_
  have attaches (version : ℤ) : Leaves (fun t => ∃ result, Stands p { v with taskResult := result } t)
      (attachTaskResult p.taskID version reference)
      (fun _ t => Stands p { v with taskResult := some (btrim reference) } t) t := by
    refine .bind (settles_validateVersion held) ?_
    rintro _ _ held rfl
    refine .ite (.throw held) ?_
    exact (settles_executeThenGet held (fun now t success => stands.attachTaskResult success) fun t stands =>
      ⟨_, stands⟩).mono
      fun _ t _ after => after.1
  refine .bind (attaches task.entityVersion) fun _ t held stands => ?_
  exact .bind (settles_read held stands) fun _ t held after => .pure held ⟨_, rfl, after.1⟩

theorem quiet_attachResult (present : v.taskResult.isSome = true) :
    Quiet (attachResult p.taskID reference) (fun _ => True) db := by
  refine settles_converge (fun s held => ?_) rfl
  cases held
  refine .bind_same (settles_read rfl stands) fun task ⟨_, shows⟩ => ?_
  rw [if_pos (shows.hasResult.trans present)]
  exact .pure rfl trivial

end

end

/-! ## Events -/

/-- The state of an execution that an event implies. -/
def implied : RuntimeFact → ExecutionState
  | .accepted => .dispatched
  | .started | .progressed _ => .running
  | .attemptEnded .failed _ | .failed _ _ => .failed
  | .attemptEnded .cancelled _ | .cancelled => .cancelled
  | .attemptEnded .unknown _ | .uncertain _ => .stalled
  | .succeeded _ => .succeeded

/-- Beside the state of the attempt, an event asks for these. -/
def Asked (projector : Projector) (v : Standing) : RuntimeFact → Prop
  | .accepted => rests .queued v.taskState = true
  | .started => rests .running v.taskState = true
  | .progressed progress => rests .running v.taskState = true ∧ Reported progress v
  | .attemptEnded outcome _ => rests (if outcome = .unknown then .uncertain else .running) v.taskState = true
  | .succeeded resultRef => rests .running v.taskState = true ∧ (∀ r, given resultRef = some r → v.result = some (btrim r)) ∧
      (projector.terminalProjection = .singleExecution → terminalTask v.taskState = true ∧
        ∀ r, given resultRef = some r → v.taskResult.isSome = true)
  | .failed terminal _ => rests .running v.taskState = true ∧
      (terminal = true ∧ projector.terminalProjection = .singleExecution → rests .failed v.taskState = true)
  | .cancelled => projector.terminalProjection = .singleExecution → v.taskState ≠ .cancelRequested
  | .uncertain _ => rests .uncertain v.taskState = true

section
variable {p : Place} {v : Standing} {db : Database} {projector : Projector} {rounds : ℕ} {execution : TaskExecution}

theorem settles_whenGiven {reference : Option String} {after : Database → Prop} (absent : given reference = none → after db)
    (present : ∀ r, given reference = some r → Leaves (fun _ => True) (attach r) (fun _ t => after t) db) :
    Leaves (fun _ => True) (whenGiven reference attach) (fun _ t => after t) db := by
  unfold whenGiven
  split
  next none => exact .pure trivial (absent none)
  next r some => exact present r some

/-- What is left of a success once the attempt and the task run. -/
theorem settles_succeed {resultRef : Option String} (stands : Stands p v db) : Leaves (fun _ => True) (do
      let _ ← synchronizeSuccessfulProgress p.taskID
      let _ ← ensureTask p.taskID .succeeded
      whenGiven resultRef (attachResult p.taskID))
      (fun _ t => ∃ w, Stands p w t ∧ w.state = v.state ∧ w.result = v.result ∧ terminalTask w.taskState = true ∧
        ∀ r, given resultRef = some r → w.taskResult.isSome = true) db := by
  refine .bind (forget (settles_synchronizeSuccessfulProgress stands)) ?_
  rintro _ t - ⟨progress, stands⟩
  refine .bind (forget (settles_ensureTask .succeeded stands)) ?_
  rintro _ t - ⟨state, rest, stands, _⟩
  have terminal : terminalTask state = true := by
    cases state <;> first | rfl | cases rest
  refine settles_whenGiven (fun absent => ⟨_, stands, rfl, rfl, terminal, fun r present => ?_⟩) fun r present => ?_
  · cases absent.symm.trans present
  · refine (forget (settles_attachResult stands)).mono ?_
    rintro _ t - ⟨result, attached, stands⟩
    exact ⟨_, stands, rfl, rfl, terminal, fun _ _ => attached⟩

section
variable (shows : ShowsAttempt p v execution) (dispatched : v.state = .dispatched) (stands : Stands p v db)
include shows dispatched stands

theorem settles_activate :
    Leaves (fun _ => True) (activate rounds execution)
      (fun task t => ∃ w, Stands p w t ∧ Shows p w task ∧ w.state = .running ∧ rests .running w.taskState = true) db := by
  unfold activate
  rw [shows.id, shows.taskID]
  refine .bind (settles_ensureExecution_dispatched dispatched stands) fun _ t _ stands => ?_
  refine (forget (settles_ensureTask .running stands)).mono ?_
  rintro task t - ⟨reached, rest, stands, shown⟩
  exact ⟨_, stands, shown, rfl, rest⟩

/-- An event that is applied to a dispatched attempt brings what it asks for. -/
theorem settles_apply (fact : RuntimeFact) : Leaves (fun _ => True) (projector.apply rounds execution fact)
      (fun _ t => ∃ w, Stands p w t ∧ w.state = implied fact ∧ Asked projector w fact) db := by
  -- every branch brings the attempt to the implied state and then the task to a state of its own
  have both (target : ExecutionState) (reason : Option String) (state : TaskState) {α : Type} {rest : TaskSnapshot → Async α}
      {after : α → Database → Prop}
      (next : ∀ task w t, Stands p w t → Shows p w task → w.state = target → rests state w.taskState = true →
        Leaves (fun _ => True) (rest task) after t) : Leaves (fun _ => True) (do
        ensureExecution rounds execution.id target reason
        let task ← ensureTask execution.taskID state
        rest task) after db := by
    rw [shows.id, shows.taskID]
    refine .bind (settles_ensureExecution_dispatched dispatched stands) fun _ t _ stands => ?_
    refine .bind (forget (settles_ensureTask state stands)) ?_
    rintro task t - ⟨reached, rest, stands, shown⟩
    exact next task _ t stands shown rfl rest
  cases fact with
  | accepted => exact both .dispatched none .queued fun _ w t stands _ there rest => .pure trivial ⟨w, stands, there, rest⟩
  | started =>
    refine .bind (settles_activate shows dispatched stands) ?_
    rintro task t - ⟨w, stands, _, there, rest⟩
    exact .pure trivial ⟨w, stands, there, rest⟩
  | progressed progress =>
    refine .bind (settles_activate shows dispatched stands) ?_
    rintro task t - ⟨w, stands, shown, there, rest⟩
    rw [shown.state, shown.id]
    refine .branch (fun ended => .pure trivial ⟨w, stands, there, rest, .inl ended⟩) fun _ =>
      .branch (fun same => ?_) fun _ => ?_
    · exact .pure trivial ⟨w, stands, there, rest, .inr (.inl (shown.progress.symm.trans (eq_of_beq same)))⟩
    · refine .bind (forget (settles_reportProgress stands)) ?_
      rintro _ t - ⟨stored, reported, stands⟩
      exact .pure trivial ⟨_, stands, there, rest, reported⟩
  | attemptEnded outcome reason =>
    cases outcome with
    | failed => exact both .failed reason .running fun _ w t stands _ there rest => .pure trivial ⟨w, stands, there, rest⟩
    | cancelled =>
      exact both .cancelled reason .running fun _ w t stands _ there rest => .pure trivial ⟨w, stands, there, rest⟩
    | unknown =>
      exact both .stalled reason .uncertain fun _ w t stands _ there rest => .pure trivial ⟨w, stands, there, rest⟩
  | succeeded resultRef =>
    refine both .succeeded none .running fun _ w t stands _ there rest => ?_
    have attaches : Leaves (fun _ => True) (whenGiven resultRef (attachExecutionResult execution.id))
        (fun _ t => ∃ x, Stands p x t ∧ x.state = .succeeded ∧ rests .running x.taskState = true ∧
          ∀ r, given resultRef = some r → x.result = some (btrim r)) t := by
      refine settles_whenGiven (fun absent => ⟨w, stands, there, rest, fun r present => ?_⟩) fun r present => ?_
      · cases absent.symm.trans present
      · rw [shows.id]
        refine (forget (settles_attached stands)).mono fun _ t _ stands => ⟨_, stands, there, rest, fun r' present' => ?_⟩
        cases present.symm.trans present'
        rfl
    refine .bind attaches ?_
    rintro _ t - ⟨x, stands, there, rest, attached⟩
    rw [shows.taskID]
    refine .branch (fun _ => (settles_succeed stands).mono ?_) fun other =>
      .pure trivial ⟨x, stands, there, rest, attached, fun single => absurd single other⟩
    rintro _ t - ⟨y, stands, state, result, terminal, given⟩
    exact ⟨y, stands, state.trans there, rests_of_done (.inr terminal), fun r present => result.trans (attached r present),
      fun _ => ⟨terminal, given⟩⟩
  | failed terminal reason =>
    refine both .failed reason .running fun _ w t stands _ there rest => ?_
    rw [shows.taskID]
    refine .branch (fun _ => .bind (forget (settles_ensureTask .failed stands)) ?_) fun other =>
      .pure trivial ⟨w, stands, there, rest, fun both => absurd both other⟩
    rintro _ t - ⟨state, rest', stands, _⟩
    have terminal : terminalTask state = true := by
      cases state <;> first | rfl | cases rest'
    exact .pure trivial ⟨_, stands, there, rests_of_done (.inr terminal), fun _ => rest'⟩
  | cancelled =>
    rw [Projector.apply, shows.id, shows.taskID]
    refine .bind (settles_ensureExecution_dispatched dispatched stands) fun _ t _ stands => ?_
    refine .bind (settles_read trivial stands) ?_
    rintro task t - ⟨stands, shown⟩
    rw [shown.state, shown.id]
    refine .branch (fun _ => .bind (forget (settles_ensureTask .cancelled stands)) ?_) fun other =>
      .pure trivial ⟨_, stands, rfl, fun single requested => other ⟨single, requested⟩⟩
    rintro _ t - ⟨state, rest, stands, _⟩
    refine .pure trivial ⟨_, stands, rfl, fun _ requested => ?_⟩
    cases requested
    cases rest
  | uncertain reason =>
    exact both .stalled (some reason) .uncertain fun _ w t stands _ there rest => .pure trivial ⟨w, stands, there, rest⟩

end

theorem quiet_whenGiven {reference : Option String}
    (present : ∀ r, given reference = some r → Quiet (attach r) (fun _ => True) db) :
    Quiet (whenGiven reference attach) (fun _ => True) db := by
  unfold whenGiven
  split
  next => exact .pure rfl trivial
  next r some => exact present r some

theorem quiet_activate (shows : ShowsAttempt p v execution) (stands : Stands p v db) (there : v.state = .running)
    (rest : rests .running v.taskState = true) : Quiet (activate rounds execution) (Shows p v) db := by
  unfold activate
  rw [shows.id, shows.taskID]
  exact .bind_same (quiet_ensureExecution stands there) fun _ _ => quiet_ensureTask stands rest

/-- An event whose askings are met changes nothing. -/
theorem quiet_apply (fact : RuntimeFact) (shows : ShowsAttempt p v execution) (stands : Stands p v db)
    (there : v.state = implied fact) (asked : Asked projector v fact) :
    Quiet (projector.apply rounds execution fact) (fun _ => True) db := by
  have both (reason : Option String) (state : TaskState) (rest : rests state v.taskState = true)
    {next : TaskSnapshot → Async Unit}
      (quiet : ∀ task, Shows p v task → Quiet (next task) (fun _ => True) db) : Quiet (do
        ensureExecution rounds execution.id (implied fact) reason
        let task ← ensureTask execution.taskID state
        next task) (fun _ => True) db := by
    rw [shows.id, shows.taskID]
    exact .bind_same (quiet_ensureExecution stands there) fun _ _ => .bind_same (quiet_ensureTask stands rest) quiet
  cases fact with
  | accepted => exact both none .queued asked fun _ _ => .pure rfl trivial
  | started =>
    exact .bind_same (quiet_activate shows stands there asked) fun _ _ => .pure rfl trivial
  | progressed progress =>
    refine .bind_same (quiet_activate shows stands there asked.1) fun task shown => ?_
    refine .ite (.pure rfl trivial) <| .ite (.pure rfl trivial) ?_
    rw [shown.id]
    exact .bind_same (quiet_reportProgress stands asked.2) fun _ _ => .pure rfl trivial
  | attemptEnded outcome reason =>
    cases outcome with
    | failed => exact both reason .running asked fun _ _ => .pure rfl trivial
    | cancelled => exact both reason .running asked fun _ _ => .pure rfl trivial
    | unknown => exact both reason .uncertain asked fun _ _ => .pure rfl trivial
  | succeeded resultRef =>
    obtain ⟨rest, attached, single⟩ := asked
    refine both none .running rest fun _ _ => ?_
    rw [shows.id, shows.taskID]
    refine .bind_same (quiet_whenGiven fun r present => quiet_attached stands (attached r present)) fun _ _ => ?_
    refine .branch (fun projected => ?_) fun _ => .pure rfl trivial
    obtain ⟨terminal, present⟩ := single projected
    have ended : v.taskState ≠ .running ∧ v.taskState ≠ .cancelRequested := by
      constructor
      · intro running
        cases running ▸ terminal
      · intro requested
        cases requested ▸ terminal
    refine .bind_same (quiet_synchronizeSuccessfulProgress stands ended) fun _ _ => ?_
    refine .bind_same (quiet_ensureTask stands (rests_of_done (.inr terminal))) fun _ _ => ?_
    exact quiet_whenGiven fun r given => quiet_attachResult stands (present r given)
  | failed terminal reason =>
    refine both reason .running asked.1 fun _ _ => ?_
    rw [shows.taskID]
    refine .branch (fun projected => ?_) fun _ => .pure rfl trivial
    exact .bind_same (quiet_ensureTask stands (asked.2 projected)) fun _ _ => .pure rfl trivial
  | cancelled =>
    rw [Projector.apply, shows.id, shows.taskID]
    refine .bind_same (quiet_ensureExecution stands there) fun _ _ =>
      .bind_same (settles_read rfl stands) fun task ⟨_, shown⟩ => ?_
    rw [shown.state, if_neg fun both => asked both.1 both.2]
    exact .pure rfl trivial
  | uncertain reason => exact both (some reason) .uncertain asked fun _ _ => .pure rfl trivial

end

end RhinoQ.Model.RuntimeTaskProjector
