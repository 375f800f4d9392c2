import RhinoQ.Proofs.BullMQ.Bridge
import RhinoQ.Proofs.BullMQ.Sessions

/-! # The item of a completed job

A `completed` event closes the live attempt of its job unless that is stalled: a `delayed` event ended the attempt and no
`active` event opened the next one. The bridge takes no move from there and reports nothing.
-/

namespace RhinoQ.Model.BullMQ

open TaskSchema TaskClient FiniteMap

/-- A command that moves, binds and supersedes no attempt. -/
def Calm : Command → Prop
  | .transitionExecution .. | .transitionExecutionForOwner .. | .bindExecution .. | .retryExecution .. => False
  | _ => True

/-- The state of the live attempt of the job. -/
def Bridge.liveState (bridge : Bridge) (jobID : String) (db : Database) : Option ExecutionState :=
  (db.liveReference "bullmq" bridge.scope jobID).map (·.2.state)

/-- The same, told of the rows. -/
def LiveIn (bridge : Bridge) (jobID : String) (state : ExecutionState) (db : Database) : Prop :=
  ∃ id row, LiveAt db "bullmq" bridge.scope jobID id row ∧ row.state = state

section
variable {bridge : Bridge} {db after : Database} {jobID id : String} {row : ExecutionRow} {state : ExecutionState}
  {rounds : ℕ} {event : Event} {reference : Option String}

theorem LiveIn.liveState (live : LiveIn bridge jobID state db) (consistent : Consistent db) :
    bridge.liveState jobID db = some state := by
  obtain ⟨id, row, live, rfl⟩ := live
  rw [Bridge.liveState, (liveReference_eq_some consistent).mpr live, Option.map_some]

theorem LiveIn.step (live : LiveIn bridge jobID state db)
    (success : command.execute db now = .ok after) (calm : Calm command) : LiveIn bridge jobID state after := by
  obtain ⟨id, row, live, rfl⟩ := live
  obtain ⟨next, live', -⟩ := live.step success fun _ _ _ retries => by subst retries; exact calm
  refine ⟨id, next, live', ?_⟩
  have stored := live'.stored
  -- a row that was written at this attempt is one in the same state
  have written {j : String} {written : ExecutionRow} (executions : after.executions = db.executions.insert j written)
      (same : ∀ before, db.executions.lookup j = some before → written.state = before.state) : next.state = row.state := by
    obtain ⟨rfl, rfl⟩ | ⟨_, stored⟩ := lookup_insert_cases executions stored
    · exact same row live.stored
    · exact congrArg _ (Option.some.inj (stored.symm.trans live.stored))
  cases wrote_of_execute success with
  | kept executions => exact congrArg _ (Option.some.inj (stored.symm.trans (executions ▸ live.stored)))
  | created request task valid owner absent unclashed executions =>
    exact written executions fun before found => nomatch absent.symm.trans found
  | bound | retried => exact calm.elim
  | moved row reason asked => cases command <;> cases asked <;> exact calm.elim
  | annotated j before next found annotates executions =>
    refine written executions fun other found' => ?_
    cases found.symm.trans found'
    exact annotates.state

/-! ## What follows the attempt -/

theorem asks_calmTask : Asks (Within Calm) (ensureTask id target) :=
  asks_ensureTask (fun _ _ => trivial) (fun _ _ => trivial) fun _ _ _ => trivial

theorem asks_calmSync : Asks (Within Calm) (syncTaskItemProgress id) := asks_syncTaskItemProgress trivial

theorem asks_updateAggregate : Asks (Within Calm) (bridge.updateAggregate id) := by
  refine .ite .pure <| .ite asks_calmSync <| asks_converge (.bind asks_getTask fun task => .ite .pure ?_)
  refine .bind (.ite (asks_reportTaskProgress trivial) .pure) fun task => .ite .pure ?_
  exact .bind asks_calmTask fun _ => .pure

theorem asks_signalSettlement : Asks (Within Calm) (bridge.signalSettlement id) := by
  refine .ite .pure <| .bind (.ite .throw <| .query trivial) fun settled => .ite .pure ?_
  exact .bind (.ite asks_calmSync .pure) fun _ => .bind asks_getTask fun _ => asks_call

theorem asks_attachReference : Asks (Within Calm) (Bridge.attachReference id reference) := by
  cases reference with
  | none => exact .pure
  | some reference =>
    refine asks_converge (.bind asks_getTaskExecution fun current => .bind asks_validateVersion fun _ => .ite .throw ?_)
    exact asks_execute trivial

theorem asks_attachTaskReference : Asks (Within Calm) (Bridge.attachTaskReference id reference) := by
  cases reference with
  | none => exact .pure
  | some reference =>
    refine asks_converge (.bind asks_getTask fun task => .ite .pure <|
      .bind (.bind asks_validateVersion fun _ => .ite .throw ?_) fun _ => .pure)
    exact .bind (asks_execute trivial) fun _ => asks_getTask

/-! ## The attempt -/

/-- Where the event leaves the attempt. -/
def closed (state : ExecutionState) : ExecutionState := if state.finished then state else .succeeded

theorem ensureExecution_closes (consistent : Consistent db) (live : LiveAt db "bullmq" bridge.scope jobID id row) :
    Leaves (fun _ => True) (ensureExecution rounds id .succeeded none)
      (fun _ t => LiveIn bridge jobID (closed row.state) t) db := by
  have legal : legalMove row.state .succeeded = !row.state.finished := by cases row.state <;> rfl
  have allowed : row.state.canTransition true .succeeded = !row.state.finished := by cases row.state <;> rfl
  cases rounds with
  | zero => exact .throw trivial
  | succ rounds =>
    cases finished : row.state.finished with
    | true =>
      refine meets_converge_of_ok (meets_bind.mpr (getTaskExecution_alone trivial live.stored ?_))
      change Meets serve solo (if row.state = .succeeded then pure ()
        else if (!legalMove row.state .succeeded) = true then pure () else _) _ db
      rw [legal, finished, Bool.not_not, if_pos rfl, ite_self]
      exact ⟨trivial, fun _ _ => ⟨id, row, live, (if_pos finished).symm⟩⟩
    | false =>
      have differs : row.state ≠ .succeeded := fun same =>
        nomatch (same ▸ finished : ExecutionState.succeeded.finished = false)
      rw [finished] at legal allowed
      refine ensureExecution_solo consistent live.stored differs legal (live.externalID ▸ allowed) fun now =>
        ⟨trivial, fun _ _ => ?_⟩
      have moved : (db.updateExecution now id row (row.moved now .succeeded none)).executions.lookup id =
          some (row.moved now .succeeded none) := by
        rw [executions_updateExecution, lookup_insert, if_pos rfl]
      exact ⟨id, _, { live with stored := moved }, (if_neg (by simp [finished])).symm⟩

/-- A bridge that is alone leaves the live attempt of the job there, if it returns. -/
theorem complete_closes (consistent : Consistent db) (live : LiveAt db "bullmq" bridge.scope event.jobID id row) :
    Leaves (fun _ => True) (bridge.complete rounds event)
      (fun _ t => LiveIn bridge event.jobID (closed row.state) t) db := by
  refine meets_bind.mpr (find_alone trivial consistent live ?_)
  refine (ensureExecution_closes consistent live).bind fun _ t _ held => ?_
  -- nothing moves the attempt again
  suffices asks : Asks (Within Calm) _ from (keeps_of_asks asks (fun _ _ held same => same ▸ held) (fun _ _ _ _ => trivial)
    (fun _ _ _ _ held calm success => held.step success calm) held).mono fun _ _ kept => ⟨trivial, fun _ _ => kept⟩
  refine .bind asks_calmTask fun _ => .bind (.ite asks_call .pure) fun reference => .bind asks_attachReference fun _ => ?_
  refine .ite (.lastly asks_updateAggregate asks_signalSettlement) <| .bind asks_signalSettlement fun _ =>
    .bind asks_calmTask fun _ => ?_
  exact asks_attachTaskReference

end

/-- In every state that sessions reach, a `completed` event that is projected without error leaves the live attempt of its
job succeeded, failed or cancelled exactly if it did not find it stalled. -/
theorem completed_closes_iff {p : Sessions} {bridge : Bridge} {rounds : ℕ} {event : Event} {state : ExecutionState}
    {choices : ℕ → Choice}
    (reached : sessions.Reaches Machine.anyStep p) (bound : bridge.liveState event.jobID p.shared = some state)
    (returned : ((Operation.project bridge rounds .completed event).code.play serve choices p.shared).1 = .ok ()) :
    (bridge.liveState event.jobID ((Operation.project bridge rounds .completed event).code.play serve choices
      p.shared).2).any (·.done) = true ↔
      state ≠ .stalled := by
  have consistent := consistent_of_reaches reached
  obtain ⟨⟨id, row⟩, found, rfl⟩ := Option.map_eq_some_iff.mp bound
  have live := (liveReference_eq_some consistent).mp found
  have after := ((Program.wp.play (complete_closes consistent live) choices).2 () returned).liveState
    (consistent_play _ _ consistent)
  change (bridge.liveState event.jobID ((bridge.complete rounds event).run.play serve choices p.shared).2).any
    _ = true ↔ row.state ≠ _
  rw [after]
  cases row.state <;> decide

/-- A job that was started, and what came then. -/
def startedJob (later : List (Operation × ℕ)) : List (Threads.Event Operation Choice) :=
  inTurn 0 ((.dispatch projectingBridge (jobOfBatch "a"), 12) ::
    (.project projectingBridge 2 .active { jobID := "a", attempt := some 1 }, 7) :: later)

/-- What the `completed` event of the job returns, and the tables that it leaves. -/
def completedJob (p : Sessions) : Except Error Unit × Database :=
  (Operation.project projectingBridge 2 .completed { jobID := "a" }).code.play serve (fun _ => obliging) p.shared

theorem running_job_closed : ∃ p : Sessions, sessions.Reaches Machine.anyStep p ∧
    (projectingBridge.liveState "a" p.shared = some .running ∧ (completedJob p).1 = .ok ()) ∧
      (projectingBridge.liveState "a" (completedJob p).2).any (·.done) = true :=
  Machine.exists_reached_and (startedJob []) (by decide +kernel) fun _ reached held =>
    (completed_closes_iff reached held.1 held.2).mpr nofun

/-- The job is delayed for a retry, and its `completed` event comes without one that starts the retry. The projection
returns, and the attempt stays stalled. -/
theorem delayed_job_left_stalled : ∃ p : Sessions, sessions.Reaches Machine.anyStep p ∧
    (completedJob p).1 = .ok () ∧ projectingBridge.liveState "a" (completedJob p).2 = some .stalled :=
  Machine.exists_reached (startedJob [(.project projectingBridge 2 .delayed { jobID := "a" }, 3)]) (by decide +kernel)

end RhinoQ.Model.BullMQ
