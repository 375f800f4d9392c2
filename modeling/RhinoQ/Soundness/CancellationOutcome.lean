import RhinoQ.Machine.Path
import RhinoQ.Proofs.Task.Store

/-! # The outcome of a cancellation

A transition out of `CancelRequested` decides what became of the request. `Uncertain` decides nothing, and a
task that ends from there keeps the request open.
-/

namespace RhinoQ.Model.Task

/-- The changes of a task record. A retry queues the task again and counts its execution. -/
inductive Command
  | transition (target : State)
  | requestCancellation
  | resolveCancellation (status : CancellationStatus) (reason : String)
  | applyProgress (progress : Progress)
  | retry
  deriving DecidableEq

def Record.command (r : Record) (now : Time) : Command → Except String Record
  | .transition target => r.transition target now
  | .requestCancellation => r.requestCancellation now
  | .resolveCancellation status reason => r.resolveCancellation status reason now
  | .applyProgress progress => r.applyProgress progress now
  | .retry => do
    let parent ← r.transition .queued now
    return parent.addExecution

/-- The commands on a record that succeed. -/
def lifecycle (record : Record) : Machine Record (Time × Command) :=
  { start := record, step := fun r call => (r.command call.1 call.2).toOption }

/-- The request still waits for its outcome. -/
def CancellationStatus.isOpen : CancellationStatus → Bool
  | .requested | .acknowledged => true
  | _ => false

/-- No open request is left behind by a transition to `Uncertain`. -/
def decided (r : Record) (call : Time × Command) : Bool :=
  !(call.2 == .transition .uncertain && r.state == .cancelRequested && r.cancellationStatus.isOpen)

/-- Only a task that is asked to stop has an open request. -/
structure Decided (r : Record) : Prop where
  waits : r.cancellationStatus.isOpen = true → r.state = .cancelRequested
  asked : r.state = .cancelRequested → r.cancellationStatus ≠ .none

section
variable {r next : Record} {now : Time} (held : Decided r)
include held

theorem Decided.transition (success : r.transition target now = .ok next)
    (settles : target = .uncertain → r.state = .cancelRequested → r.cancellationStatus.isOpen = false) : Decided next := by
  obtain ⟨allowed, rfl⟩ := TaskStore.transition_eq_ok success
  unfold Record.cancellationAfter
  split
  · exact ⟨nofun, nofun⟩
  · exact ⟨nofun, nofun⟩
  · exact ⟨nofun, nofun⟩
  · exact ⟨nofun, nofun⟩
  · exact ⟨nofun, nofun⟩
  · split
    · exact ⟨fun _ => rfl, nofun⟩
    next asked => exact ⟨fun _ => rfl, fun _ => asked⟩
  next target _ _ notAsked _ _ notCancelled notSucceeded notFailed =>
    refine ⟨fun isOpen => ?_, fun asked => absurd asked notAsked⟩
    have source := held.waits isOpen
    -- the other ways out of the request have decided it
    cases target with
    | uncertain => cases isOpen.symm.trans (settles rfl source)
    | cancelled => exact (notCancelled source rfl).elim
    | succeeded => exact (notSucceeded source rfl).elim
    | failed => exact (notFailed source rfl).elim
    | _ => simp [source, State.canTransition] at allowed

theorem Decided.command (settles : decided r (now, call) = true)
    (success : r.command now call = .ok next) : Decided next := by
  cases call with
  | transition target =>
    refine held.transition success ?_
    rintro rfl source
    simpa [decided, source] using settles
  | requestCancellation =>
    simp only [Record.command, Record.requestCancellation] at success
    split at success
    · cases success
    split at success
    · cases success
      exact held
    · exact held.transition success nofun
  | resolveCancellation status reason =>
    simp only [Record.command, Record.resolveCancellation] at success
    split at success
    · cases success
    split at success
    · cases success
    rename_i asked
    split at success
    · cases success
    rename_i known
    cases success
    refine ⟨fun _ => (not_or.mp asked).1 |> not_not.mp, fun _ (none : status = _) => ?_⟩
    subst none
    exact known ⟨nofun, nofun, nofun⟩
  | applyProgress progress =>
    simp only [Record.command, Record.applyProgress] at success
    repeat (split at success; · cases success)
    split at success <;> cases success <;> exact ⟨held.waits, held.asked⟩
  | retry =>
    obtain ⟨parent, queued, same⟩ := exists_of_bind_eq_ok success
    cases same
    have kept := held.transition queued nofun
    exact ⟨kept.waits, kept.asked⟩

end

/-- In every record that such commands lead to, an ended task has a decided cancellation, and one that is asked
to stop has a request. -/
theorem cancellation_decided {spec : Spec} {record r : Record} (created : newRecord spec = .ok record)
    (reached : (lifecycle record).Reaches (fun r call => decided r call = true) r) :
    (r.state = .succeeded ∨ r.state = .failed ∨ r.state = .cancelled →
      r.cancellationStatus ≠ .requested ∧ r.cancellationStatus ≠ .acknowledged) ∧
    (r.state = .cancelRequested → r.cancellationStatus ≠ .none) := by
  have fresh : Decided record := by
    unfold newRecord at created
    split at created <;> cases created
    exact ⟨nofun, nofun⟩
  have held : Decided r := by
    refine reached.invariant Decided fresh fun s call t settles moved held => ?_
    change (s.command call.1 call.2).toOption = some t at moved
    cases success : s.command call.1 call.2 <;> rw [success] at moved <;> cases moved
    exact held.command settles success
  refine ⟨fun ended => ?_, held.asked⟩
  have closed : ¬r.cancellationStatus.isOpen = true := by
    intro isOpen
    simp [held.waits isOpen] at ended
  exact ⟨fun status => closed (by rw [status]; rfl), fun status => closed (by rw [status]; rfl)⟩

/-- A new task. -/
def report : Record :=
  { id := "t", type := "report", definitionVersion := 1, state := .pending, cancellationStatus := .none, version := 1
    createdAt := 1, updatedAt := 1 }

theorem newRecord_report : newRecord { id := "t", type := "report", definitionVersion := 1, now := 1 } = .ok report := rfl

/-- It runs and is asked to stop, and what follows. -/
def stopping (rest : List (Time × Command)) : List (Time × Command) :=
  (2, .transition .queued) :: (2, .transition .running) :: (2, .requestCancellation) :: rest

theorem stopped_task_decided : ∃ r, (lifecycle report).Reaches (fun r call => decided r call = true) r ∧
    r.state = .cancelled ∧
      r.cancellationStatus ≠ .requested ∧ r.cancellationStatus ≠ .acknowledged :=
  Machine.exists_checked_and (fun _ _ passed => passed)
    (stopping [(3, .resolveCancellation .acknowledged ""), (3, .transition .cancelled)])
    (by decide) fun _ reached ended => (cancellation_decided newRecord_report reached).1 (.inr (.inr ended))

/-- A task that is asked to stop and ends by way of `Uncertain` keeps its request open. -/
theorem uncertain_task_undecided :
    ∃ r, (lifecycle report).run report (stopping [(3, .transition .uncertain), (3, .transition .succeeded)]) = some r ∧
      r.state = .succeeded ∧ r.cancellationStatus = .requested := by
  decide

end RhinoQ.Model.Task
