import RhinoQ.Proofs.TaskSchema.Write

/-! # Superseded attempts

A retry supersedes an attempt that has finished, but a stalled attempt is finished here and may still move: the
transition commands never look whether it was superseded.
-/

namespace RhinoQ.Model.TaskSchema

open FiniteMap

variable {db : Database} {event : Event}

/-- What was superseded has finished. -/
def SupersededFinished (db : Database) : Prop :=
  ∀ id row, db.executions.lookup id = some row → row.supersededAt.isSome = true → row.state.finished = true

/-- The event moves an attempt that was superseded while it was stalled. -/
def revives (db : Database) (event : Event) : Bool :=
  match event.command.transitions with
  | none => false
  | some (id, target) =>
    (db.executions.lookup id).any fun row =>
      row.supersededAt.isSome && row.state == .stalled &&
        (target == .dispatched || target == .failed || target == .cancelled)

/-- The attempt is superseded and stands in the state. -/
def StaysSuperseded (id : String) (state : ExecutionState) (db : Database) : Prop :=
  ∃ row, db.executions.lookup id = some row ∧ row.supersededAt.isSome = true ∧ row.state = state

theorem canTransition_of_finished {source target : ExecutionState} (finished : source.finished = true)
    (allowed : source.canTransition bound target = true) :
    source = .stalled ∧ (target = .dispatched ∨ target = .failed ∨ target = .cancelled) := by
  cases source <;> cases target <;> simp_all [ExecutionState.finished, ExecutionState.canTransition]

/-- Writing a superseded attempt keeps its state, unless the event revives it. -/
theorem state_of_rewrote {id : String} {row next : ExecutionRow}
    (quiet : revives db event = false) (stored : db.executions.lookup id = some row)
      (superseded : row.supersededAt.isSome = true)
    (finished : row.state.finished = true) (moves : next.state = row.state ∨ row.state = .pendingDispatch ∨
      event.command.transitions = some (id, next.state) ∧ row.state.canTransition row.externalID.isSome next.state = true) :
    next.state = row.state := by
  rcases moves with same | pending | ⟨asked, allowed⟩
  · exact same
  · rw [pending] at finished
    cases finished
  · obtain ⟨stalled, left⟩ := canTransition_of_finished finished allowed
    simp only [revives, asked, stored, Option.any_some, superseded, stalled, beq_self_eq_true, Bool.true_and,
      Bool.or_eq_false_iff, beq_eq_false_iff_ne] at quiet
    rcases left with target | target | target
    · exact absurd target quiet.1.1
    · exact absurd target quiet.1.2
    · exact absurd target quiet.2

section
variable {after : Database} (quiet : revives db event = false) (taken : step db event = some after)
  (clean : SupersededFinished db)
include quiet taken clean

/-- An event that revives nothing leaves finished what was superseded. -/
theorem supersededFinished_of_step : SupersededFinished after := by
  intro k found lookup superseded
  cases step_executionMove taken with
  | kept executions =>
    rw [executions] at lookup
    exact clean k found lookup superseded
  | added id row asked live absent executions =>
    obtain ⟨_, rfl⟩ | ⟨_, lookup⟩ := lookup_insert_cases executions lookup
    · rw [live] at superseded
      cases superseded
    · exact clean k found lookup superseded
  | rewrote id row next stored rewrites moves executions =>
    obtain ⟨_, rfl⟩ | ⟨_, lookup⟩ := lookup_insert_cases executions lookup
    · rw [rewrites.supersededAt] at superseded
      have finished := clean id row stored superseded
      rw [state_of_rewrote quiet stored superseded finished moves]
      exact finished
    · exact clean k found lookup superseded
  | retried id newID row next stored current finished named live numbered absent executions =>
    obtain ⟨_, rfl⟩ | ⟨_, lookup⟩ := lookup_insert_cases executions lookup
    · rw [live] at superseded
      cases superseded
    obtain ⟨_, rfl⟩ | ⟨_, lookup⟩ := lookup_insert_cases rfl lookup
    · exact finished
    · exact clean k found lookup superseded

/-- An event that revives nothing leaves a superseded attempt in its state. -/
theorem staysSuperseded_of_step {k : String}
    (stays : StaysSuperseded k state db) : StaysSuperseded k state after := by
  obtain ⟨found, lookup, superseded, same⟩ := stays
  -- a write that puts other attempts only
  have elsewhere (kept : after.executions.lookup k = db.executions.lookup k) : StaysSuperseded k state after :=
    ⟨found, kept.trans lookup, superseded, same⟩
  cases step_executionMove taken with
  | kept executions => exact elsewhere (by rw [executions])
  | added id row asked live absent executions =>
    refine elsewhere ?_
    rw [executions, lookup_insert, if_neg]
    rintro rfl
    cases absent.symm.trans lookup
  | rewrote id row next stored rewrites moves executions =>
    by_cases this : k = id
    · subst this
      cases stored.symm.trans lookup
      refine ⟨next, by rw [executions, lookup_insert, if_pos rfl], rewrites.supersededAt ▸ superseded, ?_⟩
      exact (state_of_rewrote quiet stored superseded (clean k _ stored superseded) moves).trans same
    · exact elsewhere (by rw [executions, lookup_insert, if_neg this])
  | retried id newID row next stored current finished named live numbered absent executions =>
    have other : k ≠ id := by
      rintro rfl
      cases stored.symm.trans lookup
      rw [current] at superseded
      cases superseded
    rw [lookup_insert] at absent
    refine elsewhere ?_
    rw [executions, lookup_insert, if_neg, lookup_insert, if_neg other]
    rintro rfl
    rw [if_neg other] at absent
    cases absent.symm.trans lookup

end

/-- In every run in which no transition names a stalled attempt that was superseded, everything
superseded has finished and never changes its state again. -/
theorem superseded_attempts_frozen {initial db : Database} (noExecutions : initial.executions = ∅)
    (reached : (machine initial).Reaches (fun state event => revives state event = false) db) : SupersededFinished db ∧
      ∀ id row, db.executions.lookup id = some row → row.supersededAt.isSome = true → ∀ events later,
        (machine initial).Path (fun state event => revives state event = false) db events later →
          StaysSuperseded id row.state later := by
  have clean : SupersededFinished db := by
    refine reached.invariant SupersededFinished ?_ fun _ _ _ quiet taken => supersededFinished_of_step quiet taken
    intro id row stored
    have nothing : (machine initial).start.executions = ∅ := noExecutions
    rw [nothing] at stored
    cases stored
  refine ⟨clean, fun id row stored superseded events later path => ?_⟩
  have both : SupersededFinished later ∧ StaysSuperseded id row.state later := by
    refine path.invariant (fun state => SupersededFinished state ∧ StaysSuperseded id row.state state) ?_ ⟨clean, ?_⟩
    · rintro source event target quiet taken ⟨cleanSource, stays⟩
      exact ⟨supersededFinished_of_step quiet taken cleanSource, staysSuperseded_of_step quiet taken cleanSource stays⟩
    · exact ⟨row, stored, superseded, rfl⟩
  exact both.2

/-- An attempt that stalls and is retried. -/
def stalledAndRetried : List Event :=
  [⟨0, .createTask "task" "invoice" "tenant" none 1⟩,
    ⟨1, .createExecution "run" "task" (some "item") (some "bullmq") none (some "job")⟩,
    ⟨2, .transitionExecution "run" (some 1) .stalled none⟩,
    ⟨3, .retryExecution "run" (some 2) "again"⟩]

/-- The new attempt runs, and the old one stays stalled. -/
theorem stalledAndRetried_frozen : ∃ db later, (machine {}).Reaches (fun state event => revives state event = false) db ∧
    (machine {}).Path (fun state event => revives state event = false) db
      [⟨4, .transitionExecution "again" (some 1) .running none⟩] later ∧
    SupersededFinished db ∧ StaysSuperseded "run" .stalled later := by
  have sound (state : Database) (event : Event) (checked : (!revives state event) = true) : revives state event = false :=
    (Bool.not_eq_true' _).mp checked
  obtain ⟨db, reached, later, ran, row, stored, superseded, stalled⟩ : ∃ db,
      (machine {}).runChecked (fun state event => !revives state event) {} stalledAndRetried = some db ∧
      ∃ later, (machine {}).runChecked (fun state event => !revives state event) db
        [⟨4, .transitionExecution "again" (some 1) .running none⟩] = some later ∧
      ∃ row, db.executions.lookup "run" = some row ∧ row.supersededAt.isSome = true ∧
        row.state = .stalled := by decide
  have reached : (machine {}).Reaches (fun state event => revives state event = false) db :=
    ⟨_, Machine.path_of_runChecked sound reached⟩
  have path := Machine.path_of_runChecked sound ran
  obtain ⟨finished, frozen⟩ := superseded_attempts_frozen rfl reached
  exact ⟨db, later, reached, path, finished, stalled ▸ frozen "run" row stored superseded _ later path⟩

/-- The superseded attempt is dispatched again, by its own version. -/
theorem superseded_attempt_dispatched : ∃ db after, (machine {}).Reaches Machine.anyStep db ∧
    step db ⟨4, .transitionExecution "run" (some 3) .dispatched none⟩ = some after ∧
    StaysSuperseded "run" .stalled db ∧ StaysSuperseded "run" .dispatched after := by
  simp only [exists_and_left, StaysSuperseded]
  exact Machine.exists_reached stalledAndRetried (by decide)

end RhinoQ.Model.TaskSchema
