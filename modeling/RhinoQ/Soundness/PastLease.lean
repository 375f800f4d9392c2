import RhinoQ.Proofs.Job.Worker
import RhinoQ.Soundness.Timeline

/-! # Leases that are over

A lease ends when its epoch is closed or another one is claimed. From then on no call that presents it changes anything.
-/

namespace RhinoQ.Model.JobSystem

open Job Machine Ports

/-- A lease that was closed, has expired or was followed by another changes no job in any later state. -/
theorem past_lease_never_acts {lease : Lease} (reached : (machine codec).Reaches anyStep s)
    (stored : s.jobs.jobs.lookup lease.jobID = some record)
    (past : lease.epoch < record.leaseEpoch ∨ lease.epoch = record.leaseEpoch ∧ record.state ≠ .leased)
    (path : (machine codec).Path anyStep s calls t) (presents : call.lease? = some (lease, now))
      (taken : t.step codec call = some u) (id : ID) :
    u.jobs.view id = t.jobs.view id := by
  -- the record is a copy of this epoch whatever its number of attempts, so the epoch is not open
  let copy (attempts : ℕ) : Record := { record with leaseEpoch := lease.epoch, attempts }
  have copied (n : ℕ) : (s.jobs.view lease.jobID).Copied (copy n) := by
    refine ⟨record, stored, past.elim le_of_lt fun both => both.1.le, fun leased equal => ?_⟩
    rcases past with later | ⟨_, closed⟩
    · exact absurd equal later.ne'
    · exact absurd leased closed
  obtain ⟨wf, later⟩ := path.invariant (fun t => t.jobs.WellFormed ∧ ∀ n, (t.jobs.view lease.jobID).Copied (copy n))
    (fun s call t _ taken held => ⟨step_wellFormed held.1 taken, fun n => (step_change held.1 taken _).copied (held.2 n)⟩)
    ⟨wellFormed_of_reaches reached, copied⟩
  by_contra moved
  obtain ⟨rfl, current, found, held⟩ := (step_change wf taken id).presented presents moved
  have attempts (n : ℕ) : current.attempts = n := by
    obtain ⟨_, found', _, same⟩ := later n
    cases found.symm.trans found'
    exact same held.leased held.epoch
  exact absurd ((attempts 0).symm.trans (attempts 1)) nofun

def firstLease : Lease := { jobID := "job_000001", owner := "w", epoch := 1 }

/-- The worker of `enqueueAndClaim` completes the job twice. -/
theorem completed_lease_never_acts : ∃ s u : JobSystem, (machine .plain).Reaches anyStep s ∧
    s.step .plain (.complete firstLease 4) = some u ∧ ∀ id, u.jobs.view id = s.jobs.view id := by
  obtain ⟨s, reached, record, stored, past⟩ := exists_reached (m := machine .plain)
    (enqueueAndClaim ++ [.complete firstLease 3])
    (P := fun s => ∃ record, s.jobs.jobs.lookup firstLease.jobID = some record ∧
      (firstLease.epoch = record.leaseEpoch ∧ record.state ≠ .leased))
    (by decide)
  have presents : (JobCall.complete firstLease 4).lease? = some (firstLease, 4) := rfl
  exact ⟨s, _, reached, rfl, past_lease_never_acts reached stored (.inr past) (.nil s) presents rfl⟩

end RhinoQ.Model.JobSystem
