import RhinoQ.Soundness.Timeline

/-! # Cancelling a leased job

`RequestCancel` on a leased job sets a flag that only a worker's heartbeat reads: three of the ways out of a
lease put the job back in `retry_wait`, where the next claim finds it.
-/

namespace RhinoQ.Model

open Ports JobStore Job

namespace JobSystem

variable {s : JobSystem} {id : ID}

/-- The call puts the leased job `id` back to waiting: its lease is released, failed into another
try, or found expired before the crash budget is used up. -/
def Parks (id : ID) (s : JobSystem) : JobCall → Prop
  | .releaseLease lease now =>
    lease.jobID = id ∧ ∃ record, s.jobs.jobs.lookup id = some record ∧ record.Authorises lease now
  | .fail lease now transition =>
    lease.jobID = id ∧ transition.state = .retryWait ∧
      ∃ record, s.jobs.jobs.lookup id = some record ∧ record.Authorises lease now
  | .requeueExpired input _ =>
    ∃ record, s.jobs.jobs.lookup id = some record ∧ isExpired input.now record = true ∧
      input.protection.normalize.isPoisoned (record.crashCount + 1) = false
  | _ => False

/-- The call is an operator's replay of job `id` that the recovery store accepts. -/
def Replays (id : ID) (s : JobSystem) : JobCall → Prop
  | .replay effects request =>
    request.jobID = id ∧ ∃ record, s.jobs.jobs.lookup id = some record ∧
      Recovery.validateReplay record effects request = .ok ()
  | _ => False

/-- The job is in a state no claim takes work from. -/
def Settled (id : ID) (s : JobSystem) : Prop :=
  ∃ record, s.jobs.jobs.lookup id = some record ∧ record.state ≠ .pending ∧ record.state ≠ .retryWait

theorem Settled.of_view {events : List Attempt.Event}
    (view : s.jobs.view id = { record := some record, events }) (pending : record.state ≠ .pending)
    (waiting : record.state ≠ .retryWait) : Settled id s :=
  ⟨record, congrArg JobView.record view, pending, waiting⟩

theorem Settled.step {t : JobSystem}
    (wf : s.jobs.WellFormed) (settled : Settled id s) (step : s.step codec call = some t)
    (kept : ¬Parks id s call) (alone : ¬Replays id s call) : Settled id t := by
  obtain ⟨record, found, pending, waiting⟩ := settled
  have change := step_change wf step id
  rw [view_eq_mk found] at change
  generalize after : t.jobs.view id = view at change
  cases change with
  | same => exact .of_view after pending waiting
  | claimed _ eligible =>
    exact absurd (waiting_of_claimable eligible) (not_or.mpr ⟨pending, waiting⟩)
  | renewed _ held => exact .of_view after (by simp [renewRecord, held.leased]) (by simp [renewRecord, held.leased])
  | completed => exact .of_view after (by rintro ⟨⟩) (by rintro ⟨⟩)
  | released _ own held => exact absurd ⟨own, record, found, held⟩ kept
  | @failed kind lease now transition _ _ _ own held closing =>
    have retried : transition.state ≠ .retryWait := fun retry => kept ⟨own, retry, record, found, held⟩
    refine .of_view after ?_ retried
    intro state
    change transition.state = .pending at state
    rw [state] at closing
    cases closing
  | cancelled => exact .of_view after (by rintro ⟨⟩) (by rintro ⟨⟩)
  | flagged leased => exact .of_view after (by simp [leased]) (by simp [leased])
  | @expired _ input _ _ _ late =>
    have poisoned : input.protection.normalize.isPoisoned (record.crashCount + 1) = true := by
      by_contra spared
      exact kept ⟨record, found, late, Bool.eq_false_iff.mpr spared⟩
    have state : (expireRecord input record).state = .blocked := by
      rw [expireRecord_state, if_pos poisoned]
    exact .of_view after (by simp [state]) (by simp [state])
  | replayed own accepted => exact absurd ⟨own, record, found, accepted⟩ alone

theorem Settled.not_claimed (wf : s.jobs.WellFormed) (settled : Settled id s)
    (input : ClaimInput) (success : (s.jobs.claim input).1 = .ok claimed) :
    ∀ record ∈ claimed, record.id ≠ id := by
  obtain ⟨record, found, pending, waiting⟩ := settled
  rcases claim_view wf input id with ⟨_, unreported⟩ | ⟨other, _, present, eligible, _⟩
  · exact unreported claimed success
  · cases found.symm.trans present
    exact absurd (waiting_of_claimable eligible) (not_or.mpr ⟨pending, waiting⟩)

/-- After a cancel request on a leased job, and as long as no call parks the job in `retry_wait` and
no operator replays it, no claim leases it again. -/
theorem cancellation_sticks_unless_parked {codec : Recovery.Codec} {id : ID} {s t u : JobSystem}
    {calls : List JobCall} (reached : (machine codec).Reaches Machine.anyStep s)
    (leased : ∃ record, s.jobs.jobs.lookup id = some record ∧ record.state = .leased)
    (cancel : s.step codec (.requestCancel id) = some t)
    (path : (machine codec).Path (fun s call => ¬Parks id s call ∧ ¬Replays id s call) t calls u) (input : ClaimInput) :
    ∀ claimed, (u.jobs.claim input).1 = .ok claimed → ∀ record ∈ claimed, record.id ≠ id := by
  have wf := wellFormed_of_reaches reached
  have initial : Settled id s := by
    obtain ⟨record, found, state⟩ := leased
    exact ⟨record, found, by simp [state], by simp [state]⟩
  have final := path.invariant (fun s => s.jobs.WellFormed ∧ Settled id s) (fun s call t guard step inv =>
      ⟨step_wellFormed inv.1 step, inv.2.step inv.1 step guard.1 guard.2⟩)
    ⟨step_wellFormed wf cancel, initial.step wf cancel nofun nofun⟩
  intro claimed success
  exact final.2.not_claimed final.1 input success

/-- The worker that holds the cancelled lease completes its job, and a later claim comes back empty. -/
theorem completed_after_cancel_not_claimed : ∃ s t u, (machine .plain).run {} enqueueAndClaim = some s ∧
      s.step .plain (.requestCancel "job_000001") = some t ∧
      t.step .plain (.complete { jobID := "job_000001", owner := "w", epoch := 1 } 3) = some u ∧
      ∀ claimed, (u.jobs.claim { owner := "v", now := 100, limit := 1, leaseDuration := 10 }).1 = .ok claimed →
        ∀ record ∈ claimed, record.id ≠ "job_000001" := by
  obtain ⟨s, run, leased⟩ : ∃ s, (machine .plain).run {} enqueueAndClaim = some s ∧
      ∃ record, s.jobs.jobs.lookup "job_000001" = some record ∧ record.state = .leased := by decide
  let finished := JobCall.complete { jobID := "job_000001", owner := "w", epoch := 1 } 3
  have path {t u : JobSystem} (step : t.step .plain finished = some u) :
      (machine .plain).Path (fun s call => ¬Parks "job_000001" s call ∧ ¬Replays "job_000001" s call) t [finished] u :=
    .cons ⟨nofun, nofun⟩ step (.nil u)
  exact ⟨s, _, _, run, rfl, rfl, cancellation_sticks_unless_parked
    ⟨enqueueAndClaim, Machine.path_of_run run⟩ leased rfl (path rfl) _⟩

/-- A leased job is cancelled, its worker then reports a retryable failure, and the next claim leases
it again. -/
theorem cancelled_job_leased_again : ∃ s t u, (machine .plain).run {} enqueueAndClaim = some s ∧
      (s.jobs.jobs.lookup "job_000001").map (·.state) = some .leased ∧
        (s.jobs.requestCancel "job_000001").1.toOption = some () ∧
      s.step .plain (.requestCancel "job_000001") = some t ∧
      t.step .plain (.fail { jobID := "job_000001", owner := "w", epoch := 1 } 3 { state := .retryWait }) = some u ∧
      (u.jobs.claim { owner := "v", now := 3, limit := 1, leaseDuration := 10 }).1.toOption.map
        (·.map (·.id)) = some ["job_000001"] := by
  simp only [exists_and_left]
  decide

end JobSystem
end RhinoQ.Model
