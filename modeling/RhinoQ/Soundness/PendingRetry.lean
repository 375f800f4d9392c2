import RhinoQ.Model.BullMQ.Batch
import RhinoQ.Proofs.BullMQ.Bridge
import RhinoQ.Proofs.BullMQ.Latest
import RhinoQ.Proofs.BullMQ.Sessions

/-! # A batch with a pending retry

A failure that the classifier calls no end is stored like one that is, so the item counts as done until its
retry starts. As long as another item is not done whenever an item ends, the bridge keeps the batch open.
-/

namespace RhinoQ.Model.BullMQ

open TaskSchema TaskClient FiniteMap Batch

variable {command : Command} {next row : ExecutionRow} {kind : QueueEvent} {target : TaskState} {choices : ℕ → Choice}

variable {event : Event} {q : Query}

/-- The statement moves the task to `succeeded` or `failed`, or settles its items. -/
def closes (now : Timestamp) (db : Database) (taskID : String) : Query → Bool
  | .command (.transitionTask id expected target) => id == taskID && (target == .succeeded || target == .failed) &&
    ((Command.transitionTask id expected target).execute db now).toOption.isSome
  | .settle id => id == taskID && (db.settleItems now id).1
  | _ => false

/-- The statement closes no task whose retry is pending. -/
def Quiet (pending : String → Prop) (db : Database) (q : Query) :
    Prop := ∀ taskID now, closes now db taskID q = true → ¬pending taskID

/-- An item ends while a retry of its task is pending only if an item other than its own is not done. -/
def Batch.Guarded (bridge : Bridge) (classify : Event → Bool) (b : Batch) (e : BatchEvent × (ℕ → Choice)) : Prop :=
  match e.1 with
  | .project kind event => (kind = .completed ∨ kind = .failed ∧ classify event = true) →
    ∀ id row, LiveAt b.db "bullmq" bridge.scope event.jobID id row →
      (b.observe classify e.1).retryPending bridge row.taskID = true →
      ∃ otherID other, Highest b.db row.taskID otherID other ∧ other.itemKey ≠ row.itemKey ∧ other.state.done = false
  | _ => True

/-! ## An item that is not done -/

/-- Some item is not done with its highest attempt, and that attempt is not `own`. -/
def Blocked (db : Database) (t own : String) : Prop := ∃ id row, id ≠ own ∧ Highest db t id row ∧ row.state.done = false

/-- A command that adds no attempt and moves none but `own`. -/
def Leaves (own : String) : Command → Prop
  | .createExecution .. | .bindExecution .. | .retryExecution .. => False
  | .transitionExecution id .. | .transitionExecutionForOwner id .. => id = own
  | _ => True

section
variable {db after : Database} {t own id : String} {now : Timestamp}

theorem Highest.rewrite (stored : db.executions.lookup j = some row)
    (executions : after.executions = db.executions.insert j next) (rewrites : Rewrites row next) (other : id ≠ j)
    (top : Highest db t id highest) : Highest after t id highest := by
  refine ⟨?_, top.taskID, fun k b found belongs item => ?_⟩
  · rw [executions, lookup_insert, if_neg other]
    exact top.stored
  · obtain ⟨_, rfl⟩ | ⟨_, found⟩ := lookup_insert_cases executions found
    · rw [rewrites.attempt]
      exact top.top j row stored (rewrites.taskID ▸ belongs) (rewrites.itemKey ▸ item)
    · exact top.top k b found belongs item

theorem Highest.annotate (executions : after.executions = db.executions.insert id next)
    (rewrites : Rewrites row next) (top : Highest db t id row) : Highest after t id next := by
  refine ⟨?_, rewrites.taskID.trans top.taskID, fun k b found belongs item => ?_⟩
  · rw [executions, lookup_insert, if_pos rfl]
  · obtain ⟨_, rfl⟩ | ⟨_, found⟩ := lookup_insert_cases executions found
    · exact le_rfl
    · rw [rewrites.attempt]
      exact top.top k b found belongs (item.trans rewrites.itemKey)

theorem Blocked.of_executions (same : after.executions = db.executions) (blocked : Blocked db t own) :
    Blocked after t own := by
  obtain ⟨id, row, other, top, open_⟩ := blocked
  exact ⟨id, row, other, ⟨same ▸ top.stored, top.taskID, same ▸ top.top⟩, open_⟩

theorem Blocked.step (blocked : Blocked db t own) (success : command.execute db now = .ok after)
    (leaves : Leaves own command) : Blocked after t own := by
  have wrote := wrote_of_execute success
  obtain ⟨id, row, other, top, open_⟩ := id blocked
  cases wrote with
  | kept executions => exact blocked.of_executions executions
  | created | bound | retried => exact leaves.elim
  | @moved _ target j moved reason asked stored differs allowed executions =>
    have same : j = own := by
      cases command <;> cases asked <;> exact leaves
    exact ⟨id, row, other, top.rewrite stored executions ⟨rfl, rfl, rfl, rfl⟩ (same ▸ other), open_⟩
  | annotated j before next stored annotates executions =>
    by_cases same : id = j
    · subst same
      cases top.stored.symm.trans stored
      exact ⟨id, next, other, top.annotate executions annotates.rewrites, annotates.state ▸ open_⟩
    · exact ⟨id, row, other, top.rewrite stored executions annotates.rewrites same, open_⟩

/-- Items that are not all done are not settled: the highest attempt of an item is live. -/
theorem Blocked.unsettled (topped : Topped db) (blocked : Blocked db t own) : (db.settleItems now t).1 = false := by
  obtain ⟨id, row, _, top, open_⟩ := blocked
  have live : row.supersededAt = none := by
    by_contra superseded
    obtain ⟨j, b, ofItem, later⟩ := topped id row top.stored superseded
    have below := top.top j b ofItem.stored (ofItem.taskID.trans top.taskID) ofItem.itemKey
    omega
  have member : row ∈ db.liveExecutions t := by
    refine List.mem_filter.mpr ⟨mem_values_iff.mpr ⟨id, top.stored⟩, ?_⟩
    simp [ExecutionRow.live, live, top.taskID]
  have unfinished : (db.liveExecutions t).all (·.state.done) = false := List.all_eq_false.mpr ⟨row, member, by simp [open_]⟩
  unfold Database.settleItems
  split
  next => rfl
  next => simp [unfinished]

end

/-! ## The end of an item -/

/-- While `own` ends: the tables are sound, and a pending retry of the task has its item that is not done. -/
structure Holding (pending : String → Prop) (t own : String) (db : Database) : Prop where
  consistent : Consistent db
  topped : Topped db
  blocked : pending t → Blocked db t own

section
variable {pending : String → Prop} {t own : String} {db s : Database} {bridge : Bridge} {rounds : ℕ}

theorem quiet_of_free (free : Within (fun _ => False) q) : Quiet pending db q := by
  cases q with
  | command => exact free.elim
  | settle => exact free.elim
  | snapshot | summary | execution | reference | callback => exact nofun

theorem framed_holding : Framed (.alone (Quiet pending)) (Holding pending t own) where
  stable _ _ held between := between ▸ held
  free _ _ _ free := quiet_of_free free

/-- A command that leaves the other attempts and is quiet. -/
theorem admits_holding (leaves : Leaves own command) (quiet : ∀ u, Holding pending t own u →
    Quiet pending u (.command command)) :
    Admits (.alone (Quiet pending)) (Holding pending t own) command := by
  intro u held
  refine ⟨quiet u held, fun now after success => ⟨held.consistent.step success, held.topped.step success, fun waits => ?_⟩⟩
  exact (held.blocked waits).step success leaves

/-- A move of the task to a state that is no end, or of a task without a pending retry. -/
theorem quiet_transitionTask (harmless : target = .succeeded ∨ target = .failed → ¬pending t) :
    Quiet pending u (.command (.transitionTask t (some version) target)) := by
  intro taskID now closed
  simp only [closes, Bool.and_eq_true, Bool.or_eq_true, beq_iff_eq] at closed
  obtain ⟨⟨rfl, ends⟩, _⟩ := closed
  exact harmless ends

/-- However the program ends, the attempt is held and every statement was quiet. -/
abbrev StaysOpen {α : Type} (pending : String → Prop) (t own : String) (x : Async α) (s : Database) : Prop :=
  Framed.Keeps (.alone (Quiet pending)) (Holding pending t own) x s

theorem ensureTask_holding (harmless : target = .succeeded ∨ target = .failed → ¬pending t)
    (held : Holding pending t own s) : StaysOpen pending t own (ensureTask t target) s := by
  have admits (target : TaskState) (harmless : target = .succeeded ∨ target = .failed → ¬pending t) (version : ℤ) :
      Admits (.alone (Quiet pending)) (Holding pending t own) (.transitionTask t (some version) target) :=
    admits_holding trivial fun _ _ => quiet_transitionTask harmless
  refine (ensureTask_framed framed_holding (admits .queued (by simp)) (fun _ => admits .running (by simp))
    (fun _ => admits target harmless) held).mono fun _ _ _ _ => trivial

/-- With an item that is not done, the snapshot shows fewer terminal items than items. -/
theorem Blocked.unequal (consistent : Consistent db) (blocked : Blocked db t own) :
    ((latestExecutions (db.executionSummaries t)).filter (·.state.done)).length ≠ (latestExecutions
      (db.executionSummaries t)).length := by
  obtain ⟨id, row, _, top, open_⟩ := blocked
  intro equal
  have done := List.length_filter_eq_length_iff.mp equal _ ((mem_latest_iff consistent).mpr ⟨id, row, top, rfl⟩)
  rw [mapExecutionSummary, open_] at done
  cases done

section
variable (held : Holding pending t own s)
include held

theorem updateAggregate_holding : StaysOpen pending t own (bridge.updateAggregate t) s := by
  refine .ite (.pure held trivial) <| .ite ?_ <| Framed.converge held fun s held => ?_
  · exact framed_holding.syncTaskItemProgress (admits_holding trivial fun _ _ => nofun) held
  refine meets_bind.mpr (meets_getTask (fun _ => ⟨held, fun _ same => nomatch same⟩) fun _ db between => ?_)
  cases between
  refine ⟨nofun, fun _ => ⟨held, fun _ same => nomatch same⟩, fun row stored => Settles.ite (.pure held trivial) ?_⟩
  refine .bind (reportAggregate_framed framed_holding (fun _ _ _ _ _ => admits_holding trivial fun _ _ => nofun) held rfl)
    fun task u after named => .branch (fun _ => .pure after trivial) fun equal => ?_
  -- the snapshot had every item done, so no retry of the task is pending
  have settled : ¬pending t := fun waits => (held.blocked waits).unequal held.consistent (not_not.mp (not_or.mp equal).1)
  rw [named]
  exact .bind (ensureTask_holding (fun _ => settled) after) fun _ _ held _ => .pure held trivial

theorem signalSettlement_holding : StaysOpen pending t own (bridge.signalSettlement t) s := by
  have settle : StaysOpen pending t own (settleTaskItems t) s := by
    refine .ite (.throw held) <| meets_query.mpr fun u between => ?_
    cases between
    refine ⟨fun taskID now closed waits => ?_, fun choice => ⟨?_, fun _ _ => trivial⟩⟩
    · simp only [closes, Bool.and_eq_true, beq_iff_eq] at closed
      obtain ⟨rfl, settled⟩ := closed
      rw [(held.blocked waits).unsettled held.topped] at settled
      cases settled
    · have success : (Command.settleItems t).execute s choice.now = .ok (s.settleItems choice.now t).2 := rfl
      exact ⟨held.consistent.step success, held.topped.step success, fun waits => (held.blocked waits).step success trivial⟩
  refine .ite (.pure held trivial) <| .bind settle fun settled u held _ => .ite (.pure held trivial) ?_
  have synced : StaysOpen pending t own (if bridge.aggregateProgress then syncTaskItemProgress t else pure ()) u :=
    .ite (framed_holding.syncTaskItemProgress (admits_holding trivial fun _ _ => nofun) held) <| .pure held trivial
  exact .bind synced fun _ u held _ => .bind (framed_holding.getTask held) fun _ _ held _ => framed_holding.call held

theorem aggregateAndSettle_holding : StaysOpen pending t own (bridge.aggregateAndSettle t) s := by
  refine Meets.lastly (updateAggregate_holding held) fun result u held =>
    Meets.mono (signalSettlement_holding held.1) fun result u held => ?_
  cases result with
  | ok value => exact ⟨held.1, fun _ _ => trivial⟩
  | error error => exact ⟨held.1, fun _ _ => trivial⟩

end

theorem ensureExecution_holding {target : ExecutionState} (held : Holding pending t own s) :
    StaysOpen pending t own (ensureExecution rounds own target reason) s :=
  ensureExecution_framed framed_holding (fun _ _ _ => admits_holding rfl fun _ _ => nofun) rounds target reason held

section
variable (executionOnly : bridge.terminalProjection = .executionOnly)
  (holding : ∀ id row, LiveAt s "bullmq" bridge.scope event.jobID id row → Holding pending row.taskID id s)
  (consistent : Consistent s)
include executionOnly holding consistent

/-- The last part of both ends. The attempt is closed, the task runs, and the batch is looked at. -/
theorem complete_quiet : Meets serve (.alone (Quiet pending)) (bridge.complete rounds event) (fun _ _ => True) s := by
  refine meets_bind.mpr (meets_findExecution fun u between => ?_)
  cases between
  refine ⟨nofun, fun _ => trivial, fun id row found => ?_⟩
  have held := holding id row ((liveReference_eq_some consistent).mp found)
  suffices rest : StaysOpen pending row.taskID id _ s from Meets.mono rest fun _ _ _ => trivial
  refine .bind (ensureExecution_holding held) fun _ u held _ =>
    .bind (ensureTask_holding (by simp) held) fun _ u held _ => ?_
  have answered : StaysOpen pending row.taskID id
      (if bridge.resultReference then call (.resultReference event) else pure none) u :=
    .ite (framed_holding.call held) <| .pure held trivial
  refine .bind answered fun reference u held _ => ?_
  refine .bind (attachReference_framed framed_holding (fun _ _ => admits_holding trivial fun _ _ => nofun) held)
    fun _ u held _ => ?_
  exact .branch (fun _ => aggregateAndSettle_holding held) fun other => absurd executionOnly other

theorem fail_quiet : Meets serve (.alone (Quiet pending)) (bridge.fail rounds event true) (fun _ _ => True) s := by
  refine meets_bind.mpr (meets_findExecution fun u between => ?_)
  cases between
  refine ⟨nofun, fun _ => trivial, fun id row found => ?_⟩
  have held := holding id row ((liveReference_eq_some consistent).mp found)
  suffices rest : StaysOpen pending row.taskID id _ s from Meets.mono rest fun _ _ _ => trivial
  refine .bind (ensureExecution_holding held) fun _ u held _ =>
    .bind (ensureTask_holding (by simp) held) fun _ u held _ => ?_
  rw [if_neg (by simp), if_neg (by simp [executionOnly])]
  exact aggregateAndSettle_holding held

end

end

/-! ## The other events -/

/-- A command that ends and settles nothing. -/
def NoEnd : Command → Prop
  | .transitionTask _ _ .succeeded | .transitionTask _ _ .failed | .settleItems _ => False
  | _ => True

section
variable {pending : String → Prop} {s : Database} {bridge : Bridge} {rounds : ℕ}
variable {binding : Binding} {jobID : String}

theorem quiet_of_noEnd (within : Within NoEnd q) : Quiet pending s q := by
  intro taskID now closed
  exfalso
  unfold closes at closed
  split at closed
  next id expected target =>
    simp only [Bool.and_eq_true, Bool.or_eq_true, beq_iff_eq] at closed
    rcases closed.1.2 with rfl | rfl
    · exact within
    · exact within
  next => exact within
  next => cases closed

theorem quiet_of_asks {x : Async α} (asks : Asks (Within NoEnd) x) :
    Meets serve (.alone (Quiet pending)) x (fun _ _ => True) s :=
  keeps_of_asks asks (fun _ _ _ _ => trivial) (fun _ _ _ within => quiet_of_noEnd within)
    (fun _ _ _ _ _ _ _ => trivial) trivial

theorem asks_openRetryAttempt : Asks (Within NoEnd) (bridge.openRetryAttempt previous) := by
  refine .ite .pure ?_
  cases previous.externalID with
  | none => exact .pure
  | some externalID =>
    refine .bind (.tryCatch (.bind (.bind asks_getTaskExecution fun _ => .bind (asks_execute trivial) fun _ =>
      asks_getTask) fun _ => .pure) fun _ => .ite .pure .throw) fun _ => ?_
    exact .option asks_findExecution .pure fun _ => .ite .pure .pure

theorem asks_openRetryLoop {observed : Option ℤ} (left : ℕ) (current : TaskExecution) :
    Asks (Within NoEnd) (bridge.openRetryLoop rounds externalID observed left current) := by
  induction left generalizing current with
  | zero => exact .throw
  | succ left ih =>
    refine .ite (.ite ?_ ?_) .pure
    · exact .bind (asks_ensureExecution (fun _ _ _ _ => trivial) _ _ _ _) fun _ =>
        .option asks_findExecution .pure fun stalled => ih stalled
    · exact .option asks_openRetryAttempt .pure fun next => .ite .pure <| ih next

theorem asks_activate_noEnd : Asks (Within NoEnd) (Bridge.activate rounds execution) :=
  asks_activate (fun _ _ _ _ => trivial) (fun _ _ => trivial) fun _ _ => trivial

theorem asks_startJob : Asks (Within NoEnd) (bridge.startJob rounds jobID attempt) := by
  refine .option asks_findExecution .pure fun execution => ?_
  exact .option (.ite .throw <| asks_openRetryLoop _ _) .pure fun current => .bind asks_activate_noEnd fun _ => .pure

theorem asks_reportProgress : Asks (Within NoEnd) (bridge.reportProgress rounds event) := by
  refine .option asks_call .pure fun progress => asks_converge (.option asks_findExecution .pure fun execution => ?_)
  refine .bind asks_activate_noEnd fun task => .ite .pure <| .ite .pure ?_
  exact .bind (asks_reportTaskProgress trivial) fun _ => .pure

theorem asks_queueJob : Asks (Within NoEnd) (bridge.queueJob jobID) := by
  refine .option asks_findExecution .pure fun execution => ?_
  exact .bind (asks_ensureTask (fun _ _ => trivial) (fun _ _ => trivial) (by simp)) fun _ => .pure

theorem asks_endAttemptForRetry : Asks (Within NoEnd) (bridge.endAttemptForRetry rounds event) := by
  refine .ite .pure <| .option asks_findExecution .pure fun execution => ?_
  exact .ite .pure <| asks_ensureExecution (fun _ _ _ _ => trivial) _ _ _ _

/-- A failure that is no end returns before the batch is looked at. -/
theorem asks_fail_false : Asks (Within NoEnd) (bridge.fail rounds event false) := by
  refine .option asks_findExecution .pure fun execution => ?_
  refine .bind (asks_ensureExecution (fun _ _ _ _ => trivial) _ _ _ _) fun _ => ?_
  refine .bind (asks_ensureTask (fun _ _ => trivial) (fun _ _ => trivial) (by simp)) fun _ => ?_
  exact .branch (fun _ => .pure) fun terminal => absurd rfl terminal

theorem asks_acceptRaced : Asks (Within NoEnd) (bridge.acceptRaced binding taskID error) :=
  .option asks_findExecution .throw fun _ => .ite .throw <| .ite .throw .pure

theorem asks_track : Asks (Within NoEnd) (bridge.track binding) := by
  have queued {id : String} : Asks (Within NoEnd) (ensureTask id .queued) :=
    asks_ensureTask (fun _ _ => trivial) (fun _ _ => trivial) (by simp)
  refine .ite .throw ?_
  refine .bind (.tryCatch asks_getTask fun _ => .ite (asks_createTask fun _ _ => trivial) .throw) fun snapshot => ?_
  refine .option asks_findExecution ?_ fun existing => .bind (.ite .throw <| .ite .throw .pure) fun _ => queued
  refine .ite .throw <| .bind (.tryCatch ?_ fun _ => asks_acceptRaced) fun _ => queued
  exact .bind (asks_createTaskExecutionAck fun _ _ _ _ => trivial) fun _ =>
    .bind (.bind asks_getTaskExecution fun _ => .ite .throw <| .bind (asks_execute trivial) fun _ => asks_getTask)
      fun _ => .pure

theorem asks_reserve : Asks (Within NoEnd) (bridge.reserve binding) := by
  refine .bind (.tryCatch (.bind asks_getTaskSummary fun _ => .pure) fun _ => .ite ?_ .throw) fun taskID => ?_
  · exact .bind (asks_createTask fun _ _ => trivial) fun _ => .pure
  refine .option asks_findExecution ?_ fun existing => .bind (.ite .throw <| .ite .throw .pure) fun _ => .pure
  exact .bind (.tryCatch (asks_createTaskExecutionAck fun _ _ _ _ => trivial) fun _ => asks_acceptRaced) fun _ => .pure

theorem asks_assertDispatchReady : Asks (Within NoEnd) bridge.assertDispatchReady := by
  unfold Bridge.assertDispatchReady
  generalize bridge.scope = scope
  exact .ite .throw <| .ite .throw .pure

theorem asks_dispatch : Asks (Within NoEnd) (bridge.dispatch input) := by
  refine .bind asks_assertDispatchReady fun _ => ?_
  refine .bind (.ite .throw .pure) fun _ => .bind asks_reserve fun taskID => .bind ?_ fun _ => ?_
  · refine .bind asks_getTaskExecution fun execution => .ite .pure <| .bind asks_call fun _ => ?_
    refine .tryCatch (.ite .throw <| .bind asks_getTaskExecution fun _ => asks_execute trivial) fun _ =>
      .bind asks_getTaskExecution fun _ => ?_
    exact .ite .pure .throw
  · exact asks_ensureTask (fun _ _ => trivial) (fun _ _ => trivial) (by simp)

end

/-! ## Every event of a batch -/

section
variable {bridge : Bridge} {rounds : ℕ} {classify : Event → Bool} {b : Batch}

theorem sound_of_reaches {guard : Batch → BatchEvent × (ℕ → Choice) → Prop}
    (reached : (batch bridge rounds classify).Reaches guard b) :
    Consistent b.db ∧ Topped b.db := by
  refine reached.invariant (fun b => Consistent b.db ∧ Topped b.db) ⟨.empty, .empty⟩ ?_
  rintro b e next _ ⟨⟩ ⟨consistent, topped⟩
  have kept {inv : Database → Prop} (served : ∀ choice s query, inv s → inv (serve choice s query).2) (initial : inv b.db) :
      inv ((e.1.program bridge rounds).run.play serve (choices classify e.2) b.db).2 :=
    Program.play_invariant served _ _ initial
  exact ⟨kept (fun _ _ query held => consistent_serve held query) consistent,
    kept (fun _ _ query held => topped_serve held query) topped⟩

/-- The guard is what an end needs. -/
theorem holding_of_guarded (sound : Consistent b.db ∧ Topped b.db)
    (guarded : b.Guarded bridge classify (.project kind event, choices))
      (ends : kind = .completed ∨ kind = .failed ∧ classify event = true)
    (id : String) (row : ExecutionRow) (live : LiveAt b.db "bullmq" bridge.scope event.jobID id row) :
    Holding (fun taskID => (b.observe classify (.project kind event)).retryPending bridge taskID = true) row.taskID id
      b.db := by
  refine ⟨sound.1, sound.2, fun waits => ?_⟩
  obtain ⟨otherID, other, top, item, open_⟩ := guarded ends id row live waits
  refine ⟨otherID, other, ?_, top, open_⟩
  rintro rfl
  cases live.stored.symm.trans top.stored
  exact item rfl

theorem project_quiet (executionOnly : bridge.terminalProjection = .executionOnly) (sound : Consistent b.db ∧ Topped b.db)
    (guarded : b.Guarded bridge classify (.project kind event, choices)) :
    Meets (fun choice => serve (classifying classify choice))
      (.alone (Quiet fun taskID => (b.observe classify (.project kind event)).retryPending bridge taskID = true))
      (bridge.project rounds kind event) (fun _ _ => True) b.db := by
  cases kind with
  | waiting => exact (quiet_of_asks asks_queueJob).choose _
  | active =>
    refine (quiet_of_asks (.bind ?_ fun _ => asks_startJob)).choose _
    exact .ite .pure <| .ite .pure <| .tryCatch asks_call fun _ => .pure
  | progress => exact (quiet_of_asks asks_reportProgress).choose _
  | delayed => exact (quiet_of_asks asks_endAttemptForRetry).choose _
  | completed => exact (complete_quiet executionOnly (holding_of_guarded sound guarded (.inl rfl)) sound.1).choose _
  | failed =>
    change Meets _ _ (bridge.failIfTerminal rounds event) _ _
    unfold Bridge.failIfTerminal
    split
    next =>
      -- the classifier answers, and its answer decides
      refine meets_bind.mpr (meets_bind.mpr (meets_query.mpr fun u between => ⟨nofun, fun _ => ?_⟩))
      cases between
      change Meets _ _ (bridge.fail rounds event (classify event)) _ _
      cases terminal : classify event with
      | false => exact (quiet_of_asks asks_fail_false).choose _
      | true => exact (fail_quiet executionOnly (holding_of_guarded sound guarded (.inr ⟨rfl, terminal⟩)) sound.1).choose _
    next =>
      change Meets _ _ (bridge.fail rounds event false) _ _
      exact (quiet_of_asks asks_fail_false).choose _

end

/-- In execution-only mode, and in every run in which an item ends beside a pending retry of its task only while
another item is not done: no statement of a step moves a task to `succeeded` or `failed`, or settles its items, while
a job of the task failed last, not for good. -/
theorem batch_stays_open {bridge : Bridge} {rounds : ℕ} {classify : Event → Bool}
    (executionOnly : bridge.terminalProjection = .executionOnly)
    {b : Batch} (reached : (batch bridge rounds classify).Reaches (Guarded bridge classify) b)
      {e : BatchEvent × (ℕ → Choice)}
    (guarded : b.Guarded bridge classify e) :
    ∀ entry ∈ b.statements bridge rounds classify e, ∀ taskID now, closes now entry.1 taskID entry.2 = true →
      (b.observe classify e.1).retryPending bridge taskID = false := by
  obtain ⟨event, choices⟩ := e
  have sound := sound_of_reaches reached
  have quiet : Meets (fun choice => serve (classifying classify choice))
      (.alone (Quiet fun taskID => (b.observe classify event).retryPending bridge taskID = true))
        (event.program bridge rounds)
      (fun _ _ => True) b.db := by
    cases event with
    | dispatch input => exact (quiet_of_asks (.bind asks_dispatch fun _ => .pure)).choose _
    | track binding => exact (quiet_of_asks (.bind asks_track fun _ => .pure)).choose _
    | project kind event => exact project_quiet executionOnly sound guarded
  intro entry member taskID now closed
  rw [Batch.statements] at member
  have met := Program.wp.trace quiet choices entry ((Program.trace_choose
    (classifying classify) _ choices b.db).symm ▸ member)
  exact Bool.eq_false_iff.mpr (met taskID now closed)

/-! ## Runs on fixed inputs -/

/-- A bridge whose classifier takes no failure for an end, and that is told when its batch is settled. -/
def settlingBridge : Bridge := { closingBridge with isTerminalFailure := true, onItemsSettled := true }

/-- The jobs are dispatched and become active, and the first one fails. -/
def oneFails (names : List String) : List (BatchEvent × (ℕ → Choice)) :=
  (names.map fun name => (.dispatch (jobOfBatch name), fun _ => obliging)) ++
    (names.map fun name => (.project .active { jobID := name, attempt := some 1 }, fun _ => obliging)) ++
    [(.project .failed { jobID := "a" }, fun _ => obliging)]

/-- The event of another job that ends. -/
def otherCompletes : BatchEvent × (ℕ → Choice) := (.project .completed { jobID := "b" }, fun _ => obliging)

/-- The event ends no item for good. -/
def endsNothing (_ : Batch) (e : BatchEvent × (ℕ → Choice)) : Bool :=
  match e.1 with
  | .project .completed _ => false
  | _ => true

theorem guarded_of_endsNothing (b : Batch) (e : BatchEvent × (ℕ → Choice)) (nothing : endsNothing b e = true) :
    b.Guarded settlingBridge (fun _ => false) e := by
  obtain ⟨event, choices⟩ := e
  cases event with
  | dispatch | track => trivial
  | project kind event =>
    rintro (rfl | ⟨_, terminal⟩)
    · cases nothing
    · cases terminal

/-- Of three jobs one failed and waits for its retry, one completes and one still runs. -/
theorem batch_stays_open_running : ∃ b :
    Batch, (batch settlingBridge 2 fun _ => false).Reaches (Guarded settlingBridge fun _ => false) b ∧
    b.Guarded settlingBridge (fun _ => false) otherCompletes ∧
    (b.observe (fun _ => false) otherCompletes.1).retryPending settlingBridge "T" = true ∧
    ∀ entry ∈ b.statements settlingBridge 2 (fun _ => false) otherCompletes, ∀ taskID now,
      closes now entry.1 taskID entry.2 = true →
      (b.observe (fun _ => false) otherCompletes.1).retryPending settlingBridge taskID = false := by
  obtain ⟨b, ran, entry, found, place, ⟨m, member, open_⟩, waits⟩ :
      ∃ b, (batch settlingBridge 2 fun _ => false).runChecked endsNothing {} (oneFails ["a", "b", "c"]) = some b ∧
        ∃ entry, b.db.liveReference "bullmq" settlingBridge.scope "b" = some entry ∧
          (entry.2.taskID = "T" ∧ entry.2.itemKey = "b") ∧
          (∃ m ∈ latestExecutions (b.db.executionSummaries "T"), m.itemKey = "c" ∧ m.state.done = false) ∧
          (b.observe (fun _ => false) otherCompletes.1).retryPending settlingBridge "T" = true := by
    decide +kernel
  have reached : (batch settlingBridge 2 fun _ => false).Reaches (Guarded settlingBridge fun _ => false) b :=
    ⟨_, Machine.path_of_runChecked guarded_of_endsNothing ran⟩
  have consistent := (sound_of_reaches reached).1
  have guarded : b.Guarded settlingBridge (fun _ => false) otherCompletes := by
    rintro _ id row live _
    obtain ⟨rfl, rfl⟩ := ((liveReference_eq_some consistent).mp found).unique consistent live
    obtain ⟨otherID, other, top, rfl⟩ := (mem_latest_iff consistent).mp member
    simp only [mapExecutionSummary] at open_
    refine ⟨otherID, other, place.1 ▸ top, ?_, open_.2⟩
    rw [open_.1, place.2]
    decide
  exact ⟨b, reached, guarded, waits, batch_stays_open rfl reached guarded⟩

/-- The move of a task to `failed`. -/
def failsTask (taskID : String) : Query → Bool
  | .command (.transitionTask id (some _) target) => id == taskID && target == .failed
  | _ => false

/-- The settling of the items of a task. -/
def settlesTask (taskID : String) : Query → Bool
  | .settle id => id == taskID
  | _ => false

/-- Of two jobs one failed and waits for its retry: when the other completes, the task is moved to `failed` and its
items are settled. -/
theorem batch_closes_before_retry : ∃ b : Batch, (batch settlingBridge 2 fun _ => false).Reaches Machine.anyStep b ∧
    (b.observe (fun _ => false) otherCompletes.1).retryPending settlingBridge "T" = true ∧
    (∃ entry ∈ b.statements settlingBridge 2 (fun _ => false) otherCompletes,
      (∃ version, entry.2 = .command (.transitionTask "T" (some version) .failed)) ∧ closes 7 entry.1 "T" entry.2 = true) ∧
    ∃ entry ∈ b.statements settlingBridge 2 (fun _ => false) otherCompletes, entry.2 = .settle "T" ∧
      closes 7 entry.1 "T" entry.2 = true := by
  obtain ⟨b, reached, waits, ⟨⟨db, query⟩, member, shape, closed⟩, ⟨⟨db', query'⟩, member', shape', closed'⟩⟩ :=
    Machine.exists_reached (m := batch settlingBridge 2 fun _ => false) (oneFails ["a", "b"])
      (P := fun b => (b.observe (fun _ => false) otherCompletes.1).retryPending settlingBridge "T" = true ∧
        (∃ entry ∈ b.statements settlingBridge 2 (fun _ => false) otherCompletes,
          failsTask "T" entry.2 = true ∧
            closes 7 entry.1 "T" entry.2 = true) ∧
        ∃ entry ∈ b.statements settlingBridge 2 (fun _ => false) otherCompletes,
          settlesTask "T" entry.2 = true ∧ closes 7 entry.1 "T" entry.2 = true) (by decide +kernel)
  refine ⟨b, reached, waits, ⟨(db, query), member, ?_, closed⟩, ⟨(db', query'), member', ?_, closed'⟩⟩
  · unfold failsTask at shape
    split at shape
    next id version target same =>
      simp only [Bool.and_eq_true, beq_iff_eq] at shape
      obtain ⟨rfl, rfl⟩ := shape
      exact ⟨version, same⟩
    next => cases shape
  · unfold settlesTask at shape'
    split at shape'
    next id same =>
      obtain rfl := beq_iff_eq.mp shape'
      exact same
    next => cases shape'

end RhinoQ.Model.BullMQ
