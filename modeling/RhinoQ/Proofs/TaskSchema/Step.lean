import RhinoQ.Model.TaskSchema.Command
import RhinoQ.Proofs.TaskSchema.Tables

/-! # What the durable step commands write

A command that succeeds leaves the steps and attempts alone or makes one of four moves: the first attempt of a
new step, the next attempt, a renewal, or the end of a running attempt and its step.
-/

namespace RhinoQ.Model.TaskSchema

/-- Two steps of the same item under the same key. -/
def SameKey (a b : StepRow) : Prop := a.taskID = b.taskID ∧ a.itemKey = b.itemKey ∧ a.stepKey = b.stepKey

/-- Two versions of one attempt. -/
def SameGrant (a b : AttemptRow) : Prop := a.stepID = b.stepID ∧ a.attempt = b.attempt ∧ a.leaseEpoch = b.leaseEpoch

/-- The lease names the running attempt of a running step and was granted for it. -/
structure Presents (db : Database) (lease : StepLease) (s id : String) (step : StepRow) (attempt : AttemptRow) : Prop where
  names : lease.stepID.getD "" = s ∧ lease.attemptID.getD "" = id
  stored : db.steps.lookup s = some step
  leased : db.attempts.lookup id = some attempt
  belongs : attempt.stepID = s
  running : step.state = .running ∧ attempt.state = .running
  owner : attempt.leaseOwner = btrim (lease.owner.getD "")
  epoch : lease.epoch = some attempt.leaseEpoch

/-- The moves on steps and attempts. -/
inductive StepMove (db : Database) (now : Timestamp) (after : Database) : Prop
  | kept (steps : after.steps = db.steps) (attempts : after.attempts = db.attempts)
  | created (s : String) (step : StepRow) (attempt : AttemptRow) (fresh : db.steps.lookup s = none)
      (keys : ∀ t row, db.steps.lookup t = some row → ¬SameKey row step) (free : db.attempts.lookup (attemptID s 1) = none)
      (first : step.attempt = 1) (running : step.state = .running)
      (granted : attempt.stepID = s ∧ attempt.attempt = 1 ∧ attempt.leaseEpoch = 1)
      (steps : after.steps = db.steps.insert s step) (attempts : after.attempts = db.attempts.insert (attemptID s 1) attempt)
  | continued (s : String) (step next : StepRow) (attempt : AttemptRow) (stored : db.steps.lookup s = some step)
      (unfinished : step.state ≠ .completed ∧ step.state ≠ .cancelled) (key : SameKey next step)
      (free : (db.expirePrevious now (db.latestAttempt s)).attempts.lookup (attemptID s (step.attempt + 1)) = none)
      (numbered : next.attempt = step.attempt + 1) (running : next.state = .running)
      (granted : attempt.stepID = s ∧ attempt.attempt = step.attempt + 1 ∧
        attempt.leaseEpoch = (db.latestAttempt s).elim 0 (·.2.leaseEpoch) + 1)
      (steps : after.steps = db.steps.insert s next)
      (attempts : after.attempts =
        (db.expirePrevious now (db.latestAttempt s)).attempts.insert (attemptID s (step.attempt + 1)) attempt)
  | renewed (lease : StepLease) (s id : String) (step : StepRow) (attempt next : AttemptRow)
      (presents : Presents db lease s id step attempt) (grant : SameGrant next attempt) (steps : after.steps = db.steps)
      (attempts : after.attempts = db.attempts.insert id next)
  | ended (lease : StepLease) (s id : String) (step step' : StepRow) (attempt attempt' : AttemptRow)
      (presents : Presents db lease s id step attempt) (key : SameKey step' step) (numbered : step'.attempt = step.attempt)
      (grant : SameGrant attempt' attempt) (stopped : attempt'.state ≠ .running)
      (steps : after.steps = db.steps.insert s step') (attempts : after.attempts = db.attempts.insert id attempt')

/-- A move on steps and attempts, with the tasks it touched bumped. -/
structure Stepped (db : Database) (now : Timestamp) (after : Database) : Prop where
  move : StepMove db now after
  executions : after.executions = db.executions
  advanced : Advanced db after

namespace Database

variable {reason : Option String} {itemKey stepKey taskID : String}

variable {db after : Database} {now : Timestamp} {lease : StepLease}
variable {step : StepRow} {attempt : AttemptRow}

theorem leasedRows_eq_ok (rows : db.leasedRows lease = .ok (step, attempt)) :
    db.steps.lookup (lease.stepID.getD "") = some step ∧ db.attempts.lookup (lease.attemptID.getD "") = some attempt ∧
      attempt.stepID = lease.stepID.getD "" := by
  simp only [leasedRows, found_bind_eq_ok, Option.filter_eq_some_iff] at rows
  obtain ⟨_, stored, _, ⟨present, belongs⟩, same⟩ := rows
  cases same
  exact ⟨stored, present, beq_iff_eq.mp belongs⟩

/-- What a fence that lets a lease pass has checked. -/
theorem presents_of_fence (rows : db.leasedRows lease = .ok (step, attempt))
    (fence : (step.state != .running || attempt.state != .running || !lease.presents attempt || late) = false) :
    Presents db lease (lease.stepID.getD "") (lease.attemptID.getD "") step attempt := by
  obtain ⟨stored, present, belongs⟩ := leasedRows_eq_ok rows
  simp only [Bool.or_eq_false_iff, bne_eq_false_iff_eq, Bool.not_eq_false', StepLease.presents, Bool.and_eq_true,
    beq_iff_eq] at fence
  obtain ⟨⟨running, owner, epoch⟩, _⟩ := fence
  exact ⟨⟨rfl, rfl⟩, stored, present, belongs, running, owner, epoch.symm⟩

/-- The lease moved the step that it holds. -/
abbrev SteppedBy (db : Database) (now : Timestamp) (lease : StepLease) (after : Database) : Prop :=
  Stepped db now after ∧ ∃ s id step attempt, Presents db lease s id step attempt

theorem renewDurableStep_stepped (renewed : db.renewDurableStep now lease leaseMs = .ok after) :
    SteppedBy db now lease after := by
  rw [renewDurableStep, refuse_bind_eq_ok] at renewed
  obtain ⟨⟨step, attempt⟩, rows, written⟩ := exists_of_bind_eq_ok renewed.2
  rw [refuse_bind_eq_ok] at written
  have presents := presents_of_fence rows written.1
  cases written.2
  refine ⟨⟨.renewed lease _ _ step attempt _ presents ?_ rfl rfl, rfl, .refl db⟩, _, _, step, attempt, presents⟩
  exact ⟨rfl, rfl, rfl⟩

/-- A settlement that is no repetition keeps the names of the rows and ends the attempt. -/
theorem settleStep_stepped [Decidable again]
    (rows : db.leasedRows lease = .ok (step, attempt))
    (settled : (if again then .ok db else db.settleStep now lease step attempt endAttempt endStep) = .ok after)
    (grant : SameGrant (endAttempt attempt) attempt) (stopped : (endAttempt attempt).state ≠ .running)
    (key : SameKey (endStep step) step) (numbered : (endStep step).attempt = step.attempt) :
    after = db ∨ SteppedBy db now lease after := by
  split at settled
  · exact .inl (Except.ok.inj settled).symm
  rw [settleStep, refuse_bind_eq_ok] at settled
  have presents := presents_of_fence rows settled.1
  cases settled.2
  have frame := updateTask_frame
  refine .inr ⟨⟨.ended lease _ _ step _ attempt _ presents ?_ ?_ ?_ ?_ (frame ..).steps (frame ..).attempts,
    (frame ..).executions,
    (bumpTask_advanced _ _ _).1⟩, _, _, step, attempt, presents⟩
  · exact key
  · exact numbered
  · exact grant
  · exact stopped

theorem completeDurableStep_stepped (completed : db.completeDurableStep now lease result resultRef = .ok after) :
    after = db ∨ SteppedBy db now lease after := by
  rw [completeDurableStep, refuse_bind_eq_ok] at completed
  obtain ⟨⟨step, attempt⟩, rows, written⟩ := exists_of_bind_eq_ok completed.2
  exact settleStep_stepped rows written ⟨rfl, rfl, rfl⟩ (by simp) ⟨rfl, rfl, rfl⟩ rfl

theorem failDurableStep_stepped (failed : db.failDurableStep now lease reason = .ok after) :
    after = db ∨ SteppedBy db now lease after := by
  rw [failDurableStep, refuse_bind_eq_ok] at failed
  obtain ⟨⟨step, attempt⟩, rows, written⟩ := exists_of_bind_eq_ok failed.2
  exact settleStep_stepped rows written ⟨rfl, rfl, rfl⟩ (by simp) ⟨rfl, rfl, rfl⟩ rfl

theorem cancelDurableStep_stepped (cancelled : db.cancelDurableStep now lease reason = .ok after) :
    after = db ∨ SteppedBy db now lease after := by
  rw [cancelDurableStep, refuse_bind_eq_ok] at cancelled
  obtain ⟨⟨step, attempt⟩, rows, written⟩ := exists_of_bind_eq_ok cancelled.2
  exact settleStep_stepped rows written ⟨rfl, rfl, rfl⟩ (by simp) ⟨rfl, rfl, rfl⟩ rfl

theorem stepOf_eq_none (absent : db.stepOf taskID itemKey stepKey = none)
    (stored : db.steps.lookup t = some row) : ¬(row.taskID = taskID ∧ row.itemKey = itemKey ∧ row.stepKey = stepKey) := by
  rw [stepOf, Option.map_eq_none_iff, List.find?_eq_none] at absent
  have different := absent _ (FiniteMap.mem_entries_iff.mpr stored)
  simpa [and_assoc] using different

theorem stepOf_eq_some (present : db.stepOf taskID itemKey stepKey = some (s, step)) : db.steps.lookup s = some step := by
  obtain ⟨entry, found, same⟩ := Option.map_eq_some_iff.mp present
  cases same
  exact FiniteMap.mem_entries_iff.mp (List.mem_of_find?_eq_some found)

theorem expirePrevious_frame (db : Database) (now : Timestamp) (previous : Option (String × AttemptRow)) :
    (db.expirePrevious now previous).steps = db.steps ∧ (db.expirePrevious now previous).executions = db.executions ∧
      (db.expirePrevious now previous).tasks = db.tasks := by
  unfold expirePrevious
  split
  · exact ⟨rfl, rfl, rfl⟩
  · split <;> exact ⟨rfl, rfl, rfl⟩

theorem acquireDurableStep_stepped
    (acquired : db.acquireDurableStep now request = .ok (answer, after)) : Stepped db now after := by
  have frame := updateTask_frame
  unfold acquireDurableStep at acquired
  rw [refuse_bind_eq_ok] at acquired
  obtain ⟨task, _, acquired⟩ := exists_of_bind_eq_ok acquired.2
  rw [refuse_bind_eq_ok, refuse_bind_eq_ok] at acquired
  obtain ⟨_, _, acquired⟩ := acquired
  split at acquired
  next absent =>
    rw [createStep, refuse_bind_eq_ok, Bool.or_eq_false_iff, attemptTaken, Bool.or_eq_false_iff] at acquired
    obtain ⟨⟨fresh, free, _⟩, written⟩ := acquired
    cases written
    refine ⟨.created (request.id.getD "") _ _ (by simpa using fresh) ?_ (by simpa using free) ?_ ?_ ?_
      (frame ..).steps (frame ..).attempts, (frame ..).executions, (bumpTask_advanced _ _ _).1⟩
    · exact fun t row stored same => stepOf_eq_none absent stored same
    · rfl
    · rfl
    · exact ⟨rfl, rfl, rfl⟩
  next s step present =>
    rw [refuse_bind_eq_ok] at acquired
    replace acquired := acquired.2
    split at acquired
    · cases acquired
      exact ⟨.kept rfl rfl, rfl, .refl db⟩
    next incomplete =>
      rw [refuse_bind_eq_ok, continueStep, refuse_bind_eq_ok, refuse_bind_eq_ok, refuse_bind_eq_ok, attemptTaken,
        Bool.or_eq_false_iff] at acquired
      obtain ⟨uncancelled, _, _, ⟨free, _⟩, written⟩ := acquired
      obtain ⟨steps, executions, tasks⟩ := db.expirePrevious_frame now (db.latestAttempt s)
      cases written
      refine ⟨.continued s step _ _ (stepOf_eq_some present) ⟨incomplete, by simpa using uncancelled⟩ ?_
        (by simpa using free)
        ?_ ?_ ?_ ((frame ..).steps.trans (congrArg (AList.insert s _) steps)) (frame ..).attempts,
        (frame ..).executions.trans executions, ?_⟩
      · exact ⟨rfl, rfl, rfl⟩
      · rfl
      · rfl
      · exact ⟨rfl, rfl, rfl⟩
      · intro k
        rw [← tasks]
        exact (bumpTask_advanced _ _ _).1 k

end Database

end RhinoQ.Model.TaskSchema
