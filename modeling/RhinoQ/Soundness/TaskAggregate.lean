import RhinoQ.Machine.Fence
import RhinoQ.Proofs.Task.Aggregate
import RhinoQ.Proofs.Task.Service

/-! # Task aggregates over whole runs

The counters, the attempts and the version of every stored task agree with its executions and waitpoints. The
store files a new execution under the task named by the command, but the execution names the trimmed task. A
task record is written back whole; the version fence keeps that from undoing a concurrent child write.
-/

namespace RhinoQ.Model.TaskService

open TaskStore Model.Task

/-- The task for which the next store call creates an execution. -/
def createsFor : Command → Phase → Option ID
  | .createExecution _ taskID _ _, .creatingExecution => some taskID
  | .retry input, .start => some input.taskID
  | _, _ => none

/-- No execution is created for a stored task that carries outer blanks in its name. -/
def unpadded (p : State) : Event → Bool
  | .advance t _ =>
    match p.thread t with
    | .idle => true
    | .running command phase =>
      (createsFor command phase).all fun id => (p.shared.store.tasks.lookup id).isNone || Text.trimSpace id == id
  | _ => true

/-- How tasks name their key and version. -/
def taskFence : Fence ID Record := { id := Record.id, version := Record.version }

/-- A draft that waits to be stored was made from a copy of the stored task. -/
def Drafted (s : TaskStore) : Phase → Prop
  | .savingTask next expected =>
    ∃ copy : Record, taskFence.Copied s.tasks copy ∧ copy.version = expected ∧ copy.Drafts next
  | _ => True

/-- A change of the store that keeps its aggregates and fences its tasks. -/
structure Evolves (s t : TaskStore) : Prop where
  aggregate : Aggregate t
  fenced : ∀ id, Fenced s t id

section
variable {s t : TaskStore} {phase : Phase} {record : Waitpoint.Record}

section
variable (agg : Aggregate s)
include agg

theorem Evolves.kept (change : Kept s t) : Evolves s t := ⟨agg.kept change, change.fenced⟩

theorem Evolves.added (sound : Sound s) {record : Execution.Record} (change : Added s t taskID parent after record)
    (trimmed : Text.trimSpace taskID = taskID) : Evolves s t :=
  ⟨agg.added change trimmed, change.fenced sound trimmed⟩

theorem Evolves.waited (sound : Sound s) (placed : Placed s record) (change : Waited s t record) : Evolves s t :=
  ⟨agg.waited sound placed change, change.fenced sound placed⟩

theorem Evolves.settled (sound : Sound s) (read : Read s next) (change : Kept s t ∨ Waited s t next) : Evolves s t := by
  obtain kept | waited := change
  · exact .kept agg kept
  · exact .waited agg sound (read.placed sound) waited

/-- The fence of a task write: the stored record is still the copy that the draft was made from. -/
theorem Evolves.replaced (drafted : Drafted s (.savingTask next expected)) (version : current.version = expected)
    (change : Replaced s t current next) : Evolves s t := by
  obtain ⟨copy, stored, read, drafts⟩ := drafted
  have found : s.tasks.lookup (taskFence.id copy) = some current := by
    change s.tasks.lookup copy.id = some current
    rw [← drafts.1]
    exact change.found
  obtain rfl := stored.eq_of_version found (version.trans read.symm)
  exact ⟨agg.replaced change drafts.2, change.fenced⟩

end

/-- A copy stays a copy: the version it was read at is never stored again with another record. -/
theorem Evolves.copied (step : Evolves s t) (copied : taskFence.Copied s.tasks copy) : taskFence.Copied t.tasks copy := by
  obtain ⟨current, found, older, equal⟩ := copied
  obtain ⟨after, stored, newer | ⟨rfl, _⟩⟩ := step.fenced copy.id current found
  · have later : taskFence.version copy < taskFence.version after := lt_of_le_of_lt older newer
    exact ⟨after, stored, later.le, fun version => absurd version later.ne⟩
  · exact ⟨after, stored, older, equal⟩

theorem Evolves.drafted (step : Evolves s t) (drafted : Drafted s phase) : Drafted t phase := by
  cases phase with
  | savingTask next expected =>
    obtain ⟨copy, copied, version, drafts⟩ := drafted
    exact ⟨copy, step.copied copied, version, drafts⟩
  | _ => trivial

end

section
variable {codec : Codec} {s : Shared} {now : Time} {command : Command} {phase : Phase} {after : Shared × Phase}

section
variable (moved : Advanced codec s now command phase after) (sound : Sound s.store)
include moved sound

/-- A store call keeps the aggregates, given that it creates no execution for a padded name. -/
theorem Advanced.evolves (reads : Reads s.store phase) (agg : Aggregate s.store) (drafted : Drafted s.store phase)
    (trimmed : ∀ id, createsFor command phase = some id → (s.store.tasks.lookup id).isSome → Text.trimSpace id = id) :
    Evolves s.store after.1.store := by
  cases moved with
  | created _ change counts => exact ⟨agg.created change counts, change.fenced⟩
  | retried named _ change | added named change =>
    subst named
    exact .added agg sound change (trimmed _ rfl (by rw [change.found]; rfl))
  | replaced version change | attached _ version change => exact .replaced agg drafted version change
  | moved change => exact ⟨agg.moved change, change.fenced sound⟩
  | waiting _ change =>
    obtain kept | ⟨fresh, task, waited⟩ := change
    · exact .kept agg kept
    · exact .waited agg sound (.of_fresh task fresh) waited
  | settled _ change => exact .settled agg sound reads change
  | expired drafts change => exact .settled agg sound (read_draft (reads _ (.head _)) drafts) change
  | _ => exact .kept agg (.refl _)

/-- The draft that a command holds after a store call. -/
theorem Advanced.drafted : Drafted after.1.store after.2 := by
  cases moved with
  | @drafting record _ _ id found version drafts =>
    refine ⟨record, Fence.copied_of_lookup ?_, version, drafts⟩
    change s.store.tasks.lookup record.id = some record
    rw [sound.named id record found]
    exact found
  | checked goes => cases goes <;> trivial
  | _ => trivial

end

end

/-- The invariant of the runs. -/
structure Consistent (p : State) : Prop where
  steady : Steady p
  aggregate : Aggregate p.shared.store
  drafted : ∀ t command phase, p.thread t = .running command phase → Drafted p.shared.store phase

theorem Consistent.start (codec : Codec) : Consistent (machine codec).start where
  steady := .start codec
  aggregate := .empty
  drafted t command phase running := by cases running

theorem Consistent.step (ok : Consistent p) (guard : unpadded p e = true)
    (moved : (machine codec).step p e = some q) : Evolves p.shared.store q.shared.store ∧ Consistent q := by
  have stepped := step_cases moved
  have steady := ok.steady.step stepped
  -- the drafts of the other threads outlive the change
  have others {t u : ℕ} {s : Shared} {thread : Thread} {command : Command} {phase : Phase}
      (evolves : Evolves p.shared.store s.store) (own : ∀ command phase, thread = .running command phase →
        Drafted s.store phase)
      (running : (p.move t s thread).thread u = .running command phase) : Drafted s.store phase := by
    obtain ⟨_, moved⟩ | ⟨_, before⟩ := running_of_move running
    · exact own command phase moved
    · exact evolves.drafted (ok.drafted u command phase before)
  have same : Evolves p.shared.store p.shared.store := .kept ok.aggregate (.refl _)
  cases stepped with
  | quiet _ fresh =>
    refine ⟨same, steady, ok.aggregate, fun u command phase running => others same ?_ running⟩
    intro command phase own
    rw [fresh _ _ own]
    trivial
  | @advanced t phase after now command running advanced =>
    have trimmed (id : ID) (creates : createsFor command phase = some id)
        (stored : (p.shared.store.tasks.lookup id).isSome) : Text.trimSpace id = id := by
      simp only [unpadded, running, creates, Option.all_some, Bool.or_eq_true, Option.isNone_iff_eq_none] at guard
      obtain absent | same := guard
      · rw [absent] at stored
        cases stored
      · exact beq_iff_eq.mp same
    have evolves := advanced.evolves ok.steady.sound (ok.steady.reads _ _ _ running) ok.aggregate
      (ok.drafted _ _ _ running) trimmed
    refine ⟨evolves, steady, evolves.aggregate, fun u other next running => others evolves ?_ running⟩
    intro other next own
    cases own
    exact advanced.drafted ok.steady.sound

/-- In every state of such a run the counters of each task tally its executions, whose attempts are numbered from one
to their total; and every further step raises the version of a task, or leaves its record, executions and waitpoints.
-/
theorem aggregates_consistent_unless_padded {codec : Codec} {p : State}
    (reached : (machine codec).Reaches (fun p e => unpadded p e = true) p) :
    (∀ id record, p.shared.store.tasks.lookup id = some record →
      let executions := Execution.ofTask p.shared.store.executions id
      (∀ state : Execution.State, state.valid →
          record.executionCounts.ofState state = executions.countP (·.state == state)) ∧
        record.executionCounts.total = executions.length ∧
        (executions.map (·.attempt)).Perm (List.range' 1 executions.length)) ∧
      ∀ e q, unpadded p e = true → (machine codec).step p e = some q →
        ∀ id, Fenced p.shared.store q.shared.store id := by
  have ok : Consistent p :=
    reached.invariant Consistent (.start codec) fun _ _ _ guard step ok => (ok.step guard step).2
  constructor
  · intro id record found
    have tallied := ok.aggregate.tallied id record found
    exact ⟨tallied.byState, tallied.total, ok.aggregate.numbered id⟩
  · intro e q guard step
    exact (ok.step guard step).1.fenced

/-- Two tasks and an execution of one of them, up to the store call that binds it to a job. -/
def bindUnder (taskID : ID) : List Event :=
  [.start 0 (.create "a" "report" "" 1), .advance 0 1, .start 1 (.create " a" "report" "" 1), .advance 1 1,
   .start 2 (.createExecution "e" taskID "native" {}), .advance 2 2, .advance 2 2,
   .start 3 (.bindExecution "e" { runtime := "native", jobID := "j" }), .advance 3 3]

/-- The counters of a stored task. -/
def countsOf (p : State) (id : ID) : Option ExecutionCounts :=
  (p.shared.store.tasks.lookup id).map (·.executionCounts)

theorem bound_execution_counted :
    ∃ p q, (machine plainCodec).runChecked unpadded (machine plainCodec).start (bindUnder "a") = some p ∧
      (machine plainCodec).step p (.advance 3 3) = some q ∧ countsOf p "a" = some { total := 1, pendingDispatch := 1 } ∧
      countsOf q "a" = some { total := 1, dispatched := 1 } ∧ Fenced p.shared.store q.shared.store "a" := by
  obtain ⟨p, run, q, step, guard, before, after⟩ :
      ∃ p, (machine plainCodec).runChecked unpadded (machine plainCodec).start (bindUnder "a") = some p ∧
        ∃ q, (machine plainCodec).step p (.advance 3 3) = some q ∧ unpadded p (.advance 3 3) = true ∧
          countsOf p "a" = some { total := 1, pendingDispatch := 1 } ∧
            countsOf q "a" = some { total := 1, dispatched := 1 } := by
    decide
  have reached : (machine plainCodec).Reaches (fun p e => unpadded p e = true) p :=
    ⟨_, Machine.path_of_runChecked (fun _ _ passed => passed) run⟩
  exact ⟨p, q, run, step, before, after, (aggregates_consistent_unless_padded reached).2 _ q guard step "a"⟩

/-- An execution created for the task `" a"` names the task `"a"`: binding it moves the counters of
`"a"` below zero, while those of `" a"` still count it as pending. -/
theorem padded_execution_miscounted :
    ∃ p, (machine plainCodec).run (machine plainCodec).start (bindUnder " a" ++ [.advance 3 3]) = some p ∧
      countsOf p "a" = some { total := 0, pendingDispatch := -1, dispatched := 1 } ∧
      countsOf p " a" = some { total := 1, pendingDispatch := 1 } ∧
      (Execution.ofTask p.shared.store.executions "a").map (·.state) = [.dispatched] ∧
      Execution.ofTask p.shared.store.executions " a" = [] := by
  decide

end RhinoQ.Model.TaskService
