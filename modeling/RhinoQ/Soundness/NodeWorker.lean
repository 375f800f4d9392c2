import RhinoQ.Model.NodeWorker
import Mathlib.Tactic.SplitIfs

/-! # Failed handlers and shutdowns of a Node worker

A handler that rejects with `undefined` leaves the variable for its error as it was, and its job is completed. A job that is
dispatched again takes over the entry of its earlier process, which deletes it when it leaves.
-/

namespace RhinoQ.Model.RhinoQWorker

open Process Machine

variable {p q : Process} {action : Action} {result : HandlerResult}

theorem beat_eq (p : Process) (beat : Beat) : (p.beat beat).job = p.job ∧ (p.beat beat).phase = p.phase := by
  rcases beat with (_ | _) | _ <;> exact ⟨rfl, rfl⟩

theorem settleCall_complete (complete : p.settleCall result = some .complete) : handlerError result = .undefined := by
  unfold settleCall at complete
  grind

/-- A process that completed its job found no error. -/
def Process.Completes (p : Process) : Prop :=
  ∀ result, p.phase = .settled result (some .complete) → handlerError result = .undefined

theorem Process.Completes.advance (ok : p.Completes) (advanced : p.advance action = some q) : q.Completes := by
  intro result settled
  cases action with
  | settle =>
    simp only [advance] at advanced
    split at advanced
    next =>
      cases advanced
      obtain ⟨rfl, complete⟩ := Phase.settled.inj settled
      exact settleCall_complete complete
    next => cases advanced
  | ask | answer | endHeartbeat | handled | forceStop | leave =>
    refine ok result ?_
    grind [advance, beat_eq]

def rejectUndefined : List Action := [.handled (.rejected .undefined), .endHeartbeat, .leave, .settle]

/-- Whatever happens to its heartbeat and to the worker, a process completes the job of a rejected handler only if that was
rejected with `undefined`. -/
theorem completed_only_fulfilled_iff (result : HandlerResult) :
    (∀ job p, (processMachine job).Reaches anyStep p → p.phase = .settled result (some .complete) → result = .fulfilled) ↔
      result ≠ .rejected .undefined := by
  constructor
  · rintro only rfl
    obtain ⟨p, ran, settled⟩ : ∃ p, (processMachine "job").run (dispatched "job") rejectUndefined = some p ∧
      p.phase = .settled (.rejected .undefined) (some .complete) := by decide
    cases only "job" p ⟨_, path_of_run ran⟩ settled
  · intro thrown job p reached settled
    have completes : p.Completes := by
      refine reached.invariant Completes (fun _ impossible => ?_) fun _ _ _ _ advanced ok => ok.advance advanced
      cases impossible
    cases result with
    | fulfilled => rfl
    | rejected error => exact absurd (congrArg _ (completes _ settled)) thrown

/-- The handler of the job rejects with `undefined`, and the job is completed. -/
theorem undefined_rejection_completed : ∃ p, (processMachine "job").Reaches anyStep p ∧
    p.phase = .settled (.rejected .undefined) (some .complete) :=
  exists_reached rejectUndefined (by decide)

/-! ## Shutdowns -/

variable {s t : Worker} {e : Event}

/-- The processes whose handler runs or which await their heartbeat have the entry of their job. -/
def Entered (s : Worker) : Prop := ∀ i, (s.process i).entered → s.executions (s.process i).job = some i

/-- A job is dispatched while an earlier process of it has not left. -/
def Redispatches (s : Worker) : Event → Prop
  | .dispatch _ job => ∃ i, (s.process i).job = job ∧ (s.process i).entered
  | _ => False

theorem entered_of_advance (advanced : p.advance action = some q) :
    q.job = p.job ∧ (q.entered → p.entered ∧ action ≠ .leave) ∧ (action = .leave → p.entered) := by
  cases action <;> grind [advance, beat_eq, entered]

theorem Entered.act (ok : Entered s) {i : ℕ} (advanced : (s.process i).advance action = some q) :
    Entered { process := Function.update s.process i q
              executions := if action = .leave then Function.update s.executions q.job none else s.executions } := by
  obtain ⟨job, stays, leaves⟩ := entered_of_advance advanced
  intro j entered
  dsimp only at entered ⊢
  by_cases same : j = i
  · subst same
    rw [Function.update_self] at entered ⊢
    obtain ⟨before, stayed⟩ := stays entered
    rw [if_neg stayed, job]
    exact ok j before
  · rw [Function.update_of_ne same] at entered ⊢
    split_ifs with left
    · -- the process that leaves has the entry of its own job, so this is another job
      have theirs : s.executions q.job = some i := job ▸ ok i (leaves left)
      have other : (s.process j).job ≠ q.job := by
        intro equal
        rw [← equal, ok j entered] at theirs
        exact same (Option.some.inj theirs)
      rw [Function.update_of_ne other]
      exact ok j entered
    · exact ok j entered

theorem forceStop_eq (s : Worker) (i : ℕ) :
    (s.forceStop i).job = (s.process i).job ∧ (s.forceStop i).phase = (s.process i).phase := by
  unfold Worker.forceStop
  split <;> exact ⟨rfl, rfl⟩

theorem Entered.step (ok : Entered s) (careful : ¬ Redispatches s e) (step : step s e = some t) : Entered t := by
  cases e with
  | dispatch i job =>
    simp only [RhinoQWorker.step, Option.ite_none_right_eq_some, Option.some.injEq] at step
    obtain ⟨_, rfl⟩ := step
    intro j entered
    dsimp only at entered ⊢
    by_cases new : j = i
    · subst new
      rw [Function.update_self]
      exact Function.update_self ..
    · rw [Function.update_of_ne new] at entered ⊢
      rw [Function.update_of_ne fun same => careful ⟨j, same, entered⟩]
      exact ok j entered
  | act i action =>
    cases action with
    | forceStop => cases step
    | ask | answer | endHeartbeat | handled | leave | settle =>
      obtain ⟨q, advanced, rfl⟩ := Option.map_eq_some_iff.mp step
      exact ok.act advanced
  | graceElapsed =>
    cases step
    intro i entered
    rw [Process.entered, (forceStop_eq s i).2] at entered
    exact (congrArg s.executions (forceStop_eq s i).1).trans (ok i entered)

/-- In every run in which no job is dispatched beside an earlier process of it, the end of the grace period fires the
signal of every handler that still runs. -/
theorem shutdown_reaches_handlers (reached : machine.Reaches (fun s e => ¬ Redispatches s e) s)
    (elapsed : machine.step s .graceElapsed = some t) (i : ℕ) (running : (t.process i).phase = .handling) :
    (t.process i).aborted = true := by
  have ok : Entered s := by
    refine reached.invariant Entered ?_ fun _ _ _ careful step ok => ok.step careful step
    rintro i (impossible | ⟨_, impossible⟩) <;> cases impossible
  cases elapsed
  have entered : (s.process i).entered := .inl ((forceStop_eq s i).2.symm.trans running)
  change (s.forceStop i).aborted = true
  rw [Worker.forceStop, if_pos (ok i entered)]
  rfl

/-- A job is dispatched again after its first process left, and the second handler runs when the grace period ends. -/
theorem running_handler_reached : ∃ s t, machine.Reaches (fun s e => ¬ Redispatches s e) s ∧
    machine.step s .graceElapsed = some t ∧ (s.process 0).phase = .left .fulfilled ∧ (s.process 0).job = (s.process 1).job ∧
      (t.process 1).phase = .handling ∧ (t.process 1).aborted = true := by
  have careful (s : Worker) (gone : ∀ i, (s.process i).phase = .idle ∨ (s.process i).phase = .left .fulfilled) (i : ℕ) :
      ¬ Redispatches s (.dispatch i "job") := by
    rintro ⟨j, _, entered | ⟨_, entered⟩⟩ <;> cases gone j <;> simp_all
  obtain ⟨s, reached, left, same, t, elapsed, running⟩ : ∃ s, machine.Reaches (fun s e => ¬ Redispatches s e) s ∧
      (s.process 0).phase = .left .fulfilled ∧ (s.process 0).job = (s.process 1).job ∧
      ∃ t, machine.step s .graceElapsed = some t ∧ (t.process 1).phase = .handling := by
    refine ⟨_, ⟨[.dispatch 0 "job", .act 0 (.handled .fulfilled), .act 0 .endHeartbeat, .act 0 .leave, .dispatch 1 "job"],
      .cons (careful _ (fun _ => .inl rfl) 0) rfl (.cons id rfl (.cons id rfl (.cons id rfl
        (.cons (careful _ (fun i => ?_) 1) rfl (.nil _)))))⟩, rfl, rfl, _, rfl, rfl⟩
    cases i with
    | zero => exact .inr rfl
    | succ _ => exact .inl rfl
  exact ⟨s, t, reached, elapsed, left, same, running, shutdown_reaches_handlers reached elapsed 1 running⟩

/-- A job is claimed again while the handler of its lost lease still runs. When that one returns, it deletes the entry of the
second, whose handler is not reached by the shutdown. -/
theorem second_handler_not_reached : ∃ s t, machine.Reaches anyStep s ∧ machine.step s .graceElapsed = some t ∧
    (t.process 1).phase = .handling ∧ (t.process 1).aborted = false := by
  obtain ⟨s, reached, t, elapsed, running⟩ := exists_reached (m := machine)
    [.dispatch 0 "job", .act 0 .ask, .dispatch 1 "job", .act 0 (.answer .failed), .act 0 (.handled .fulfilled),
      .act 0 .leave]
    (P := fun s => ∃ t, machine.step s .graceElapsed = some t ∧ (t.process 1).phase = .handling ∧
      (t.process 1).aborted = false)
    (by decide)
  exact ⟨s, t, reached, elapsed, running⟩

end RhinoQ.Model.RhinoQWorker
