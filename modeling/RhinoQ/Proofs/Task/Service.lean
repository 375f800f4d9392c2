import RhinoQ.Model.Task.Service
import RhinoQ.Proofs.Task.Versions

/-! # The store calls of the task commands

One inversion for a step of a command. What a command drafts from the record it read keeps the identity and,
for a task, the counters of that record.
-/

namespace RhinoQ.Model

open TaskContract TaskStore Waitpoint

namespace Task.Record

variable {r next : Record} {now : Time}

/-- A draft of a task: the same task with the same counters. -/
def Drafts (r next : Record) : Prop := next.id = r.id ∧ next.executionCounts = r.executionCounts

theorem drafts_transition (success : r.transition target now = .ok next) : r.Drafts next := by
  obtain ⟨_, rfl⟩ := transition_eq_ok success
  exact ⟨rfl, rfl⟩

theorem drafts_requestCancellation (success : r.requestCancellation now = .ok next) : r.Drafts next := by
  unfold requestCancellation at success
  split at success
  · cases success
  split at success
  · cases success
    exact ⟨rfl, rfl⟩
  · exact drafts_transition success

theorem drafts_applyProgress {progress : Progress} (success : r.applyProgress progress now = .ok next) : r.Drafts next := by
  simp only [applyProgress] at success
  repeat (split at success; · cases success)
  split at success <;> cases success <;> exact ⟨rfl, rfl⟩

theorem drafts_resolveCancellation (success : r.resolveCancellation status reason now = .ok next) : r.Drafts next := by
  simp only [resolveCancellation] at success
  repeat (split at success; · cases success)
  cases success
  exact ⟨rfl, rfl⟩

theorem drafts_attachResult (success : r.attachResult reference now = .ok next) : r.Drafts next := by
  simp only [attachResult] at success
  repeat (split at success; · cases success)
  cases success
  exact ⟨rfl, rfl⟩

end Task.Record

theorem Waitpoint.waiting_of_new (made : new spec = .ok record) : record.state = .waiting := by
  unfold new at made
  dsimp only at made
  split at made
  · cases made
  cases made
  rfl

namespace Waitpoint.Record

variable {r next : Record} {now : Time}

/-- A draft of a waitpoint: the same waitpoint of the same task. -/
def Drafts (r next : Record) : Prop := next.id = r.id ∧ next.taskID = r.taskID

theorem drafts_resolve {resolution : List UInt8} {hash resolutionID actor : String}
    (success : r.resolve resolution hash resolutionID actor now = .ok next) : r.Drafts next := by
  unfold resolve at success
  dsimp only at success
  split at success
  · cases success
  split at success
  · split at success
    · cases success
      exact ⟨rfl, rfl⟩
    · cases success
  · repeat (split at success; · cases success)
    cases success
    exact ⟨rfl, rfl⟩

theorem drafts_expire (success : r.expire now = .ok next) : r.Drafts next := by
  unfold expire at success
  repeat (split at success; · cases success)
  cases success
  exact ⟨rfl, rfl⟩

theorem drafts_cancel (success : r.cancel now = .ok next) : r.Drafts next := by
  unfold cancel at success
  repeat (split at success; · cases success)
  cases success
  exact ⟨rfl, rfl⟩

end Waitpoint.Record

namespace TaskService

variable {codec : Task.Codec} {s : Shared} {now : Time} {command : Command} {p q : State} {e : Event}

/-- The waitpoint that a command settles. -/
def Command.waitpoint : Command → Option ID
  | .resolveWaitpoint input => some input.id
  | .cancelWaitpoint id _ _ => some id
  | _ => none

/-- The waitpoint that an answer returns. -/
def Answer.record : Answer → Option Record
  | .waitpoint record _ => some record
  | _ => none

/-- Where a command goes with the waitpoint it read. -/
inductive FromWaitpoint (record : Record) : Phase → Prop
  | saving :
      record.Drafts next → FromWaitpoint record (.savingWaitpoint next expected)
  | answered : FromWaitpoint record (.answered answer)

theorem afterOwner_from (codec : Task.Codec) (record : Record) (now : Time) (command : Command) :
    FromWaitpoint record (afterOwner codec record now command) := by
  cases command with
  | resolveWaitpoint =>
    simp only [afterOwner]
    split
    · exact .answered
    split
    · exact .answered
    rename_i resolved
    split
    · exact .answered
    · exact .saving (Record.drafts_resolve resolved)
  | cancelWaitpoint =>
    simp only [afterOwner]
    split
    · exact .answered
    split
    · exact .answered
    next cancelled => exact .saving (Record.drafts_cancel cancelled)
  | _ => exact .answered

variable (codec s now command) in
/-- What a step of a command does: the call it makes, the store after it and the next phase. -/
inductive Advanced : Phase → Shared × Phase → Prop
  | answered (answer : Answer) (silent : answer.record = none) : Advanced phase (s, .answered answer)
  | created (answer : Answer) :
      Created s.store t record → record.executionCounts = {} → answer.record = none →
      (∀ snapshot ∈ snapshots, snapshot ∈ s.snapshots ∨ newSnapshot record [] = .ok snapshot) →
        Advanced .start ({ s.write t with snapshots }, .answered answer)
  | read {id : Task.ID} : s.store.tasks.lookup id = some record → Advanced phase (s, .listing record)
  | drafting {id : Task.ID} :
      s.store.tasks.lookup id = some record → record.version = expected → record.Drafts next →
        Advanced .start (s, .savingTask next expected)
  | creatingExecution : Advanced .start (s, .creatingExecution)
  | savingExecution : Advanced .start (s, .savingExecution next expected)
  | creatingWaitpoint : Advanced .start (s, .creatingWaitpoint)
  | getting {id : Task.ID} : Advanced .start (s, .getting id)
  | readWaitpoint {id : ID} :
      s.store.waitpoints.lookup id = some record → command.waitpoint = some id →
        Advanced .start (s, .checkingOwner record)
  | readDue :
      s.store.listDueWaitpoints now limit = .ok due → command = .expireDueWaitpoints limit →
        Advanced .start (s, .expiring now due 0)
  | replayed (prior : TaskRetryResult) :
      command = .retry input → s.store.retries.lookup input.commandID = some prior →
        Advanced .start (s.write s.store, .listing prior.task)
  | retried :
      command = .retry input → s.store.retries.lookup input.commandID = none →
      Added s.store t input.taskID parent after record → Advanced .start (s.write t, .listing after)
  | added {id : Execution.ID} :
      command = .createExecution id taskID runtime trace → Added s.store t taskID parent after record →
        Advanced .creatingExecution (s.write t, .getting taskID)
  | replaced :
      current.version = expected → Replaced s.store t current next →
        Advanced (.savingTask next expected) (s.write t, .listing next)
  | attached (answer : Answer) :
      current.version = expected → Replaced s.store t current next → answer.record = none →
        Advanced (.savingTask next expected) (s.write t, .answered answer)
  | moved :
      Moved s.store t current next parent after →
        Advanced (.savingExecution next expected) (s.write t, .getting next.taskID)
  | waiting (answer : Answer) :
      Kept s.store t ∨ s.store.waitpoints.lookup record.id = none ∧
        (s.store.tasks.lookup record.taskID).isSome ∧ Waited s.store t record →
        command.waitpoint = none → record.state = .waiting → Advanced .creatingWaitpoint (s.write t, .answered answer)
  | checked :
      FromWaitpoint current phase → phase = afterOwner codec current now command →
        Advanced (.checkingOwner current) (s, phase)
  | settled (saved : Record) :
      Kept s.store t ∨ Waited s.store t next → s.store.updateWaitpoint next expected = (.ok saved, t) →
        Advanced (.savingWaitpoint next expected) (s.write t, .answered (.waitpoint saved false))
  | skipped (ticked : Time) (current : Record) (rest : List Record) (count : ℕ) :
      Advanced (.expiring ticked (current :: rest) count) (s, .expiring ticked rest count)
  | expired :
      current.Drafts next → Kept s.store t ∨ Waited s.store t next →
      current.expire ticked = .ok next → s.store.updateWaitpoint next current.version = (.ok saved, t) →
        Advanced (.expiring ticked (current :: rest) count) (s.write t, .expiring ticked rest (count + 1))
  | listed :
      newSnapshot record (s.store.listTaskExecutions record.id) = .ok snapshot →
        Advanced (.listing record) ({ s with snapshots := s.snapshots ++ [snapshot] }, .answered (.snapshot snapshot))

section
variable {phase : Phase} {after next : Shared × Phase}

section
variable {id : Task.ID} {record : Task.Record} (found : s.store.tasks.lookup id = some record) {expected : ℤ}
include found

theorem fencedTask_advanced {next : Except String Task.Record} (drafts : ∀ saved, next = .ok saved → record.Drafts saved) :
    Advanced codec s now command .start (s, fencedTask record expected next) := by
  unfold fencedTask
  split
  · exact .answered _ rfl
  rename_i same
  split
  · exact .answered _ rfl
  next saved => exact .drafting found (not_not.mp same) (drafts saved rfl)

theorem afterTask_advanced : Advanced codec s now command .start (s, afterTask record now command) := by
  cases command with
  | get => exact .read found
  | createExecution => exact .creatingExecution
  | transition => exact fencedTask_advanced found fun _ => Task.Record.drafts_transition
  | requestCancellation =>
    simp only [afterTask]
    split
    · exact .read found
    · exact fencedTask_advanced found fun _ => Task.Record.drafts_requestCancellation
  | updateProgress =>
    simp only [afterTask]
    split
    · exact .read found
    · exact fencedTask_advanced found fun _ => Task.Record.drafts_applyProgress
  | resolveCancellation => exact fencedTask_advanced found fun _ => Task.Record.drafts_resolveCancellation
  | attachResult => exact fencedTask_advanced found fun _ => Task.Record.drafts_attachResult
  | createWaitpoint => exact .creatingWaitpoint
  | _ => exact .getting

end

theorem withTask_advanced {id : Task.ID} {next : Task.Record → Phase}
    (goes : ∀ record, s.store.tasks.lookup id = some record → Advanced codec s now command phase (s, next record)) :
    Advanced codec s now command phase (s.withTask id next) := by
  unfold Shared.withTask getTask
  split
  · exact .answered _ rfl
  next record found => exact goes record found

theorem fencedExecution_advanced (record : Execution.Record) (expected : ℤ) (next : Except String Execution.Record) :
    Advanced codec s now command .start (s, fencedExecution record expected next) := by
  unfold fencedExecution
  split
  · exact .answered _ rfl
  split
  · exact .answered _ rfl
  split
  · exact .getting
  · exact .savingExecution

theorem afterExecution_advanced (record : Execution.Record) :
    Advanced codec s now command .start (s, afterExecution record now command) := by
  cases command with
  | bindExecution =>
    simp only [afterExecution]
    split
    · exact .answered _ rfl
    · exact .savingExecution
  | transitionExecution =>
    simp only [afterExecution]
    split
    · exact .answered _ rfl
    split
    · exact .answered _ rfl
    · exact .savingExecution
  | failExecution => exact fencedExecution_advanced record _ _
  | attachExecutionResult => exact fencedExecution_advanced record _ _
  | _ => exact .getting

theorem withExecution_advanced (id : Execution.ID) :
    Advanced codec s now command .start (s.withExecution id (afterExecution · now command)) := by
  unfold Shared.withExecution
  split
  · exact .answered _ rfl
  · exact afterExecution_advanced _

theorem withWaitpoint_advanced {id : ID} (own : command.waitpoint = some id) :
    Advanced codec s now command .start (s.withWaitpoint id .checkingOwner) := by
  unfold Shared.withWaitpoint getWaitpoint
  split
  · exact .answered _ rfl
  next found => exact .readWaitpoint found own

theorem firstCall_advanced : Advanced codec s now command .start (firstCall codec s now command) := by
  cases command with
  | create =>
    simp only [firstCall]
    split
    · exact .answered _ rfl
    rename_i built
    split
    · exact .answered _ rfl
    rename_i saved
    obtain ⟨rfl, change⟩ := createTask_eq_ok saved
    have counts := (Task.newRecord_eq_ok built).2
    unfold Shared.answer
    split
    · exact .created _ change counts rfl fun _ => .inl
    next mapped =>
      refine .created _ change counts rfl fun _ member => (List.mem_append.mp member).imp_right fun new => ?_
      rw [List.mem_singleton.mp new]
      exact mapped
  | retry input =>
    simp only [firstCall]
    split
    · exact .answered _ rfl
    next saved =>
      obtain ⟨rfl, prior, found, rfl, _⟩ | ⟨free, _, parent, change⟩ := retryTask_eq_ok saved
      · exact .replayed prior rfl found
      · exact .retried rfl free change
  | resolveWaitpoint =>
    simp only [firstCall]
    split
    · exact .answered _ rfl
    · exact withWaitpoint_advanced rfl
  | expireDueWaitpoints =>
    simp only [firstCall]
    split
    · exact .answered _ rfl
    next listed => exact .readDue listed rfl
  | cancelWaitpoint => exact withWaitpoint_advanced rfl
  | bindExecution => exact withExecution_advanced _
  | transitionExecution => exact withExecution_advanced _
  | failExecution => exact withExecution_advanced _
  | attachExecutionResult => exact withExecution_advanced _
  | _ => exact withTask_advanced fun _ => afterTask_advanced

variable {due : List Record}

theorem advance_expiring
    (moved : advance codec s now command (.expiring ticked due count) = some next) :
    Advanced codec s now command (.expiring ticked due count) next := by
  cases due with
  | nil =>
    cases moved
    exact .answered _ rfl
  | cons current rest =>
    unfold advance at moved
    dsimp only at moved
    split at moved
    · cases moved
      exact .skipped ticked current rest count
    next expiry =>
      split at moved
      next saved =>
        cases moved
        have change := (updateWaitpoint_eq_ok saved).imp_right And.right
        exact .expired (Record.drafts_expire expiry) change expiry saved
      · cases moved
        exact .skipped ticked current rest count
      · cases moved
        exact .answered _ rfl

theorem advance_savingTask {next : Task.Record} (moved : advance codec s now command
    (.savingTask next expected) = some after) :
    Advanced codec s now command (.savingTask next expected) after := by
  unfold advance at moved
  dsimp only at moved
  split at moved
  · cases moved
    exact .answered _ rfl
  next saved =>
    obtain ⟨rfl, current, version, change⟩ := updateTask_eq_ok saved
    split at moved
    · split at moved
      · cases moved
        exact .attached _ version change rfl
      · cases moved
        exact .attached _ version change rfl
    · cases moved
      exact .replaced version change

theorem advance_creating (moved : advance codec s now command .creatingExecution = some after) :
    Advanced codec s now command .creatingExecution after := by
  cases command with
  | createExecution id taskID runtime trace =>
    unfold advance at moved
    dsimp only at moved
    split at moved
    · cases moved
      exact .answered _ rfl
    next created =>
      cases moved
      obtain ⟨parent, after, change⟩ := createNextExecution_eq_ok created
      exact .added rfl change
  | _ => cases moved

theorem advance_creatingWaitpoint (moved : advance codec s now command .creatingWaitpoint = some after) :
    Advanced codec s now command .creatingWaitpoint after := by
  cases command with
  | createWaitpoint spec =>
    unfold advance at moved
    dsimp only at moved
    split at moved
    · cases moved
      exact .answered _ rfl
    next made =>
      split at moved
      · cases moved
        exact .answered _ rfl
      next created =>
        cases moved
        exact .waiting _ (createWaitpoint_eq_ok created) rfl (waiting_of_new made)
  | _ => cases moved

theorem advance_cases (moved : advance codec s now command phase = some next) : Advanced codec s now command phase next := by
  cases phase with
  | start =>
    cases moved
    exact firstCall_advanced
  | creatingExecution => exact advance_creating moved
  | savingTask => exact advance_savingTask moved
  | savingExecution =>
    unfold advance at moved
    dsimp only at moved
    split at moved
    · cases moved
      exact .answered _ rfl
    next saved =>
      cases moved
      obtain ⟨rfl, current, parent, after, change⟩ := updateExecution_eq_ok saved
      exact .moved change
  | creatingWaitpoint => exact advance_creatingWaitpoint moved
  | checkingOwner current =>
    unfold advance at moved
    dsimp only at moved
    split at moved
    · cases moved
      exact .answered _ rfl
    · split at moved
      · cases moved
        exact .answered _ rfl
      · cases moved
        exact .checked (afterOwner_from ..) rfl
  | savingWaitpoint =>
    unfold advance at moved
    dsimp only at moved
    split at moved
    · cases moved
      exact .answered _ rfl
    next saved =>
      cases moved
      exact .settled _ ((updateWaitpoint_eq_ok saved).imp_right And.right) saved
  | expiring => exact advance_expiring moved
  | getting =>
    cases moved
    exact withTask_advanced fun _ => .read
  | listing record =>
    cases moved
    unfold Shared.answer
    split
    · exact .answered _ rfl
    next mapped => exact .listed mapped
  | answered => cases moved

end

/-- The waitpoints that a suspended command holds are of the tasks of the stored ones. -/
def Reads (s : TaskStore) : Phase → Prop
  | .checkingOwner current => Read s current
  | .savingWaitpoint next _ => Read s next
  | .expiring _ due _ => ∀ current ∈ due, Read s current
  | _ => True

theorem write_store (s : Shared) (t : TaskStore) : (s.write t).store = t := rfl

section
variable {s t : TaskStore} {phase : Phase} {limit : ℤ} {next : Record}

theorem Reads.change (change : Change s t) (reads : Reads s phase) : Reads t phase := by
  cases phase with
  | checkingOwner => exact change.read reads
  | savingWaitpoint => exact change.read reads
  | expiring => exact fun current member => change.read (reads current member)
  | _ => trivial

theorem read_draft (read : Read s record) (drafts : record.Drafts next) : Read s next := by
  rw [Read, drafts.1, drafts.2]
  exact read

theorem stored_of_listDue
    (listed : s.listDueWaitpoints now limit = .ok due) (member : current ∈ due) :
    ∃ id, s.waitpoints.lookup id = some current := by
  unfold listDueWaitpoints at listed
  split at listed
  · cases listed
  cases listed
  have sorted := (List.mem_insertionSort deadlineOrder).mp (List.mem_of_mem_take member)
  exact FiniteMap.mem_values_iff.mp (List.mem_filter.mp sorted).1

theorem read_of_listDue (sound : Sound s)
    (listed : s.listDueWaitpoints now limit = .ok due) : ∀ current ∈ due, Read s current := by
  intro current member
  obtain ⟨id, found⟩ := stored_of_listDue listed member
  exact sound.read found

theorem change_of_settled (sound : Sound s) (read : Read s next) (settled : Kept s t ∨ Waited s t next) : Change s t := by
  obtain kept | waited := settled
  · exact .kept kept
  · exact .waited (read.placed sound) waited

end

section
variable {phase : Phase} {after : Shared × Phase}

theorem Advanced.change (moved : Advanced codec s now command phase after) (sound : Sound s.store)
    (reads : Reads s.store phase) : Change s.store after.1.store := by
  cases moved with
  | created _ change => exact .created change
  | retried _ _ change | added _ change => exact .added change
  | replaced _ change | attached _ _ change => exact .replaced change
  | moved change => exact .moved change
  | waiting _ change =>
    obtain kept | ⟨fresh, task, waited⟩ := change
    · exact .kept kept
    · exact .waited (.of_fresh task fresh) waited
  | settled _ change => exact change_of_settled sound reads change
  | expired drafts change => exact change_of_settled sound (read_draft (reads _ (.head _)) drafts) change
  | _ => exact .kept (.refl _)

theorem Advanced.reads (moved : Advanced codec s now command phase after) (sound : Sound s.store)
    (reads : Reads s.store phase) : Reads after.1.store after.2 := by
  have change := moved.change sound reads
  cases moved with
  | readWaitpoint found => exact sound.read found
  | readDue listed => exact read_of_listDue sound listed
  | checked goes =>
    cases goes with
    | saving drafts => exact read_draft reads drafts
    | answered => trivial
  | skipped => exact fun other member => reads other (.tail _ member)
  | expired => exact fun other member => change.read (reads other (.tail _ member))
  | _ => trivial

end

/-- What holds of the store and the commands in every run. -/
structure Steady (p : State) : Prop where
  sound : Sound p.shared.store
  reads : ∀ t command phase, p.thread t = .running command phase → Reads p.shared.store phase

/-- The thread an event belongs to. -/
def Event.thread? : Event → Option ℕ
  | .start t _ | .advance t _ | .crash t => some t

/-- A step of the system: a thread starts or crashes over the same store, or makes a store call. -/
inductive Stepped (codec : Task.Codec) (p : State) : Event → State → Prop
  | quiet {e : Event} :
      e.thread? = some t → (∀ command phase, thread = .running command phase → phase = .start) →
        Stepped codec p e (p.move t p.shared thread)
  | advanced {now : Time} {command : Command} :
      p.thread t = .running command phase → Advanced codec p.shared now command phase after →
        Stepped codec p (.advance t now) (p.move t after.1 (.running command after.2))

theorem step_cases (moved : (machine codec).step p e = some q) : Stepped codec p e q := by
  cases e with
  | start t command =>
    simp only [machine, step] at moved
    split at moved
    · cases moved
      exact .quiet rfl fun _ _ own => (Thread.running.inj own).2.symm
    · cases moved
  | crash t =>
    cases moved
    exact .quiet rfl fun _ _ own => (by cases own)
  | advance t now =>
    simp only [machine, step] at moved
    split at moved
    next running =>
      obtain ⟨after, advanced, rfl⟩ := Option.map_eq_some_iff.mp moved
      exact .advanced running (advance_cases advanced)
    · cases moved

/-- A codec for closed runs. -/
def plainCodec : Task.Codec := { digest := fun _ => "", jsonValid := fun _ => true }

theorem Steady.start (codec : Task.Codec) : Steady (machine codec).start where
  sound := .empty
  reads t command phase running := by cases running

theorem running_of_move (running : (p.move t s thread).thread u = .running command phase) :
    u = t ∧ thread = .running command phase ∨ u ≠ t ∧ p.thread u = .running command phase := by
  by_cases same : u = t
  · subst same
    rw [Pool.move_thread_self] at running
    exact .inl ⟨rfl, running⟩
  · rw [Pool.move_thread_of_ne same] at running
    exact .inr ⟨same, running⟩

theorem Steady.step (steady : Steady p) (moved : Stepped codec p e q) : Steady q := by
  cases moved with
  | quiet _ fresh =>
    refine ⟨steady.sound, fun u other phase running => ?_⟩
    obtain ⟨_, own⟩ | ⟨_, before⟩ := running_of_move running
    · rw [fresh _ _ own]
      trivial
    · exact steady.reads u other phase before
  | advanced running advanced =>
    have held := steady.reads _ _ _ running
    have change := advanced.change steady.sound held
    refine ⟨change.sound steady.sound, fun u other phase after => ?_⟩
    obtain ⟨rfl, own⟩ | ⟨_, before⟩ := running_of_move after
    · cases own
      exact advanced.reads steady.sound held
    · exact (steady.reads u other phase before).change change

end TaskService
end RhinoQ.Model
