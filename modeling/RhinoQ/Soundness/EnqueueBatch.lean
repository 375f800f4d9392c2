import RhinoQ.Model.Job.Store

/-! # A batch is its enqueues, or nothing

An enqueue writes the jobs, the keys and the counter, so that putting these three back undoes any part of a
batch.
-/

namespace RhinoQ.Model.JobStore

open Ports

/-- One `Enqueue` after another, whatever they answer. -/
def enqueueInTurn (s : JobStore) : List (Time × EnqueueInput) → List (Except StoreError Job.ID) × JobStore
  | [] => ([], s)
  | (now, input) :: rest =>
    let (answer, t) := s.enqueue now input
    let (answers, u) := t.enqueueInTurn rest
    (answer :: answers, u)

/-- Putting the jobs, the keys and the counter back. -/
def rollback (s t : JobStore) : JobStore := { t with jobs := s.jobs, byIdem := s.byIdem, nextID := s.nextID }

theorem rollback_enqueueLocked (s t : JobStore) (now : Time) (input : EnqueueInput) :
    s.rollback (t.enqueueLocked now input).2 = s.rollback t := by
  unfold enqueueLocked enqueueNew
  split
  · rfl
  split
  · rfl
  split
  · rfl
  split
  · rfl
  dsimp only
  split
  · rfl
  unfold rememberKey
  split <;> rfl

/-- The loop of a batch stops at an error of an enqueue, and the rollback undoes what was before it, or has answered each
enqueue in turn. -/
theorem enqueueEach_cases (s : JobStore) {t : JobStore} (inputs : List (Time × EnqueueInput)) :
    (∃ error u, t.enqueueEach inputs = (.error error, u) ∧ .error error ∈ (t.enqueueInTurn inputs).1 ∧
        s.rollback u = s.rollback t) ∨
      ∃ ids u, t.enqueueEach inputs = (.ok ids, u) ∧ t.enqueueInTurn inputs = (ids.map .ok, u) := by
  induction inputs generalizing t with
  | nil => exact .inr ⟨[], t, rfl, rfl⟩
  | cons head rest ih =>
    have undone := s.rollback_enqueueLocked t head.1 head.2
    unfold enqueueEach enqueueInTurn enqueue
    generalize t.enqueueLocked head.1 head.2 = outcome at undone ⊢
    obtain ⟨answer, next⟩ := outcome
    cases answer with
    | error error => exact .inl ⟨error, next, rfl, List.mem_cons_self, undone⟩
    | ok id =>
      dsimp only
      obtain ⟨error, u, failed, told, back⟩ | ⟨ids, u, stored, turns⟩ := @ih next
      · rw [failed]
        exact .inl ⟨error, u, rfl, List.mem_cons_of_mem _ told, back.trans undone⟩
      · rw [stored, turns]
        exact .inr ⟨id :: ids, u, rfl, rfl⟩

/-- A batch answers an error over the store it found, or the answers and the store of its enqueues in turn; and it
answers those when it has from one to a thousand inputs and each enqueue succeeds. -/
theorem enqueueBatch_atomic (s : JobStore) (inputs : List (Time × EnqueueInput)) :
    ((∃ error, s.enqueueBatch inputs = (.error error, s)) ∨
      ∃ ids t, s.enqueueBatch inputs = (.ok ids, t) ∧ s.enqueueInTurn inputs = (ids.map .ok, t)) ∧
    ∀ ids t, 1 ≤ inputs.length → inputs.length ≤ maxEnqueueBatch → s.enqueueInTurn inputs = (ids.map .ok, t) →
      s.enqueueBatch inputs = (.ok ids, t) := by
  unfold enqueueBatch
  split
  next none => exact ⟨.inl ⟨_, rfl⟩, fun _ _ some => absurd none (Nat.ne_of_gt some)⟩
  split
  next many => exact ⟨.inl ⟨_, rfl⟩, fun _ _ _ few => absurd few (Nat.not_le_of_gt many)⟩
  obtain ⟨error, u, failed, told, back⟩ | ⟨ids, u, stored, turns⟩ := s.enqueueEach_cases inputs
  · rw [failed]
    refine ⟨.inl ⟨error, congrArg (Prod.mk _) back⟩, fun ids t _ _ turns => ?_⟩
    rw [turns] at told
    obtain ⟨id, _, wrong⟩ := List.mem_map.mp told
    cases wrong
  · rw [stored]
    refine ⟨.inr ⟨ids, u, rfl, turns⟩, fun ids' t _ _ turns' => ?_⟩
    obtain ⟨same, rfl⟩ := Prod.mk.inj (turns.symm.trans turns')
    rw [List.map_injective_iff.mpr (fun _ _ => Except.ok.inj) same]

/-- Two inputs under one key, and one without. -/
def keyedBatch : List (Time × EnqueueInput) :=
  let input : EnqueueInput := { identity := { queueName := "mail", jobName := "send" }, payload := some [] }
  [(1, { input with idempotencyKey := "k" }), (2, { input with idempotencyKey := "k" }), (3, input)]

theorem keyedBatch_accepted : ∃ t, enqueueBatch {} keyedBatch = (.ok ["job_000001", "job_000001", "job_000002"], t) := by
  have answers : (enqueueInTurn {} keyedBatch).1 = ["job_000001", "job_000001", "job_000002"].map .ok := by decide
  exact ⟨_, (enqueueBatch_atomic {} keyedBatch).2 _ _ (by decide) (by decide) (Prod.ext answers rfl)⟩

end RhinoQ.Model.JobStore
