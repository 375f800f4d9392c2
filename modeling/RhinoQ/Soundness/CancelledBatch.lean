import RhinoQ.Proofs.BullMQ.Latest
import RhinoQ.Proofs.BullMQ.Sessions

/-! # A cancellation closes a stopped batch

`cancel` reads the attempts of a task in one statement and closes the task in a later one. The conclusion of
the read holds at the close because every command that adds or moves an attempt raises the version of the task.
-/

namespace RhinoQ.Model.BullMQ

open TaskSchema TaskClient Command

/-- The statement may close no task but a stopped one. -/
def ClosesStopped (t : String) (db : Database) (q : Query) : Prop :=
  ∀ id expected now after, q = .command (.transitionTask id expected .cancelled) →
    (transitionTask id expected .cancelled).execute db now = .ok after → id = t ∧ Stopped db t

/-- A command other than a close. -/
def NoClose (command : Command) : Prop := ∀ id expected, command ≠ .transitionTask id expected .cancelled

theorem closesStopped_of_within (within : Within NoClose q) : ClosesStopped t db q := by
  rintro id expected _ _ rfl _
  exact absurd rfl (within id expected)

theorem transitionTask_current {id : String}
    (success : (transitionTask id expected target).execute db now = .ok after) :
    ∃ row, db.tasks.lookup id = some row ∧ stale row.version expected = false := by
  simp only [Command.execute, Database.transitionTask, Database.task, found_bind_eq_ok, refuse_bind_eq_ok] at success
  obtain ⟨row, stored, current, _⟩ := success
  exact ⟨row, stored, current⟩

section
variable {t : String} {s : Database}
variable {bridge : Bridge}

theorem keeps_among {x : Async α} (asks : Asks (Within NoClose) x) (consistent : Consistent s) :
    Meets serve (among (ClosesStopped t)) x (fun _ db => Consistent db) s :=
  keeps_of_asks asks (fun _ _ _ between => between.1) (fun _ _ _ within => closesStopped_of_within within)
    (fun _ _ _ _ held _ success => held.step success) consistent

/-- The close is fenced on the version of the read, so what the read showed still stands. -/
theorem closeCancelled_meets (consistent : Consistent s) :
    Meets serve (among (ClosesStopped t)) (Bridge.closeCancelled t) (fun _ db => Consistent db) s := by
  refine meets_convergeWith (fun s consistent => ?_) 9 consistent
  refine meets_bind.mpr (meets_getTask (fun _ => ⟨consistent, consistent⟩) fun _ db between => ⟨nofun, ?_, ?_⟩)
  · exact fun _ => ⟨between.1, between.1⟩
  intro row stored
  change Meets serve _ (if _ then _ else if _ then _ else _) _ db
  split
  next => exact between.1
  split
  next => exact between.1
  rename_i _ done
  have stopped : Stopped db t := (stopped_iff between.1).mpr (by simpa [mapSnapshot] using done)
  refine meets_bind.mpr (meets_validateVersion (fun _ => ?_) fun _ => ⟨between.1, between.1⟩)
  change Meets serve _ (if _ then _ else _) _ db
  rw [if_neg (by decide)]
  refine meets_bind.mpr (meets_execute fun later since =>
    ⟨?_, fun now => ⟨fun after success => ?_, fun _ _ => ⟨since.1, since.1⟩⟩⟩)
  · rintro id expected now after ⟨⟩ success
    obtain ⟨current, present, same⟩ := transitionTask_current success
    obtain ⟨next, found, fenced⟩ := since.2.tasks t row stored
    cases present.symm.trans found
    have version : row.version = current.version := by simpa [stale, mapSnapshot] using same
    rcases fenced with grown | ⟨_, standing⟩
    · omega
    · exact ⟨rfl, stopped.of_sameStanding standing⟩
  · refine (keeps_among asks_getTask (since.1.step success)).mono fun result db held => ?_
    cases result with
    | ok => exact held
    | error => exact ⟨held, held⟩

theorem asks_cancelJobs (jobIDs : List String) (outcome : CancelOutcome) :
    Asks (Within NoClose) (bridge.cancelJobs t jobIDs outcome) := by
  induction jobIDs generalizing outcome with
  | nil => exact .pure
  | cons jobID rest ih =>
    refine .option asks_findExecution .pure fun execution => .ite .pure ?_
    refine .bind (.tryCatch (.bind asks_call fun answer => ?_) fun _ => .pure) fun outcome => ih outcome
    cases answer <;> exact .pure

theorem asks_closeStopped (jobIDs : List String) : Asks (Within NoClose) (bridge.closeStopped jobIDs) := by
  induction jobIDs with
  | nil => exact .pure
  | cons jobID rest ih =>
    refine .bind (.option asks_findExecution .pure fun execution => .ite .pure ?_) fun _ => ih
    exact asks_converge (.bind asks_getTaskExecution fun current => .ite .pure <| asks_transitionTaskExecutionAck nofun)

theorem asks_resolveCancellation : Asks (Within NoClose) (Bridge.resolveCancellation t status reason) :=
  asks_converge (.bind asks_getTask fun _ => asks_fenced nofun)

/-- Everything before the close asks for no close. -/
theorem cancel_meets (consistent : Consistent s) :
    Meets serve (among (ClosesStopped t)) (bridge.cancel t jobIDs) (fun _ db => Consistent db) s := by
  unfold Bridge.cancel
  split
  next => exact consistent
  split
  next => exact consistent
  have request : Asks (Within NoClose) (converge do
      let current ← getTask t
      if current.state = .cancelRequested then pure current else requestTaskCancellation current.id current.entityVersion) :=
    asks_converge (.bind asks_getTask fun _ => .ite .pure <| asks_fenced nofun)
  refine (keeps_among request consistent).bind (fun task db consistent => ?_) fun _ _ held => held
  split
  next => exact consistent
  refine (keeps_among (asks_cancelJobs _ _) consistent).bind (fun answers db consistent => ?_) fun _ _ held => held
  cases answers with
  | error jobID => exact keeps_among asks_resolveCancellation consistent
  | ok outcome =>
    refine (keeps_among asks_resolveCancellation consistent).bind (fun resolved db consistent => ?_) fun _ _ held => held
    split
    next => exact consistent
    exact (keeps_among (asks_closeStopped _) consistent).bind (fun _ db consistent => closeCancelled_meets consistent)
      fun _ _ held => held

end

/-- Whenever a cancellation moves a task to `cancelled`, the highest attempt of each of its items is
`succeeded`, `failed` or `cancelled` at that moment, whatever other sessions ran meanwhile. -/
theorem cancel_closes_stopped {p : Sessions} (reached : sessions.Reaches Machine.anyStep p) {session : ℕ} {bridge : Bridge}
    {taskID id : String} {jobIDs : List String} {expected : Option ℤ}
    (asks : p.pending session = some (.cancel bridge taskID jobIDs, .command (.transitionTask id expected .cancelled)))
    {now : Timestamp} {after : Database}
    (success : (transitionTask id expected .cancelled).execute p.shared now = .ok after) :
    id = taskID ∧ ∀ executionID row, Highest p.shared taskID executionID row →
      row.state = .succeeded ∨ row.state = .failed ∨ row.state = .cancelled := by
  have sound (s : Database) (consistent : Consistent s) : (Operation.cancel bridge taskID jobIDs).code.wp serve
      (among (ClosesStopped taskID)) (fun _ db => Consistent db) s :=
    (cancel_meets consistent).bind (fun _ _ held => held) fun _ _ held => held
  obtain ⟨same, stopped⟩ := steady.ok_of_pending .empty sound reached asks id expected now after rfl success
  refine ⟨same, fun executionID row highest => ?_⟩
  have done := stopped executionID row highest
  cases state : row.state <;> simp_all [ExecutionState.done]

/-- The session is about to close `T`. -/
def closing : Operation × Query → Bool
  | (.cancel _ taskID jobIDs, .command command) =>
    taskID == "T" && jobIDs == ["a"] && command == .transitionTask "T" (some 7) .cancelled
  | _ => false

theorem exists_of_closing (asked : closing entry = true) :
    ∃ bridge, entry = (.cancel bridge "T" ["a"], .command (.transitionTask "T" (some 7) .cancelled)) := by
  unfold closing at asked
  split at asked
  next bridge taskID jobIDs command =>
    simp only [Bool.and_eq_true, beq_iff_eq] at asked
    obtain ⟨⟨rfl, rfl⟩, rfl⟩ := asked
    exact ⟨bridge, rfl⟩
  next => cases asked

/-- A job is dispatched and its task cancelled; the next statement closes the task. -/
theorem cancel_closes_stopped_acknowledged : ∃ p : Sessions, ∃ bridge now after, sessions.Reaches Machine.anyStep p ∧
    p.pending 1 = some (.cancel bridge "T" ["a"], .command (.transitionTask "T" (some 7) .cancelled)) ∧
    (transitionTask "T" (some 7) .cancelled).execute p.shared now = .ok after ∧
    ∀ executionID row, Highest p.shared "T" executionID row →
      row.state = .succeeded ∨ row.state = .failed ∨ row.state = .cancelled := by
  obtain ⟨p, reached, closes, entry, asks, asked⟩ := Machine.exists_reached (m := sessions)
    (inTurn 0 [(.dispatch closingBridge (jobOfBatch "a"), 12), (.cancel closingBridge "T" ["a"], 12)])
    (P := fun p => ((transitionTask "T" (some 7) .cancelled).execute p.shared 7).toOption.isSome = true ∧
      ∃ entry, p.pending 1 = some entry ∧ closing entry = true) (by decide)
  obtain ⟨bridge, rfl⟩ := exists_of_closing asked
  obtain ⟨after, success⟩ := exists_ok_of_toOption closes
  exact ⟨p, bridge, 7, after, reached, asks, success, (cancel_closes_stopped reached asks success).2⟩

end RhinoQ.Model.BullMQ
