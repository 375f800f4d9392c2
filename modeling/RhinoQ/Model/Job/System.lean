import RhinoQ.Machine.Path
import RhinoQ.Model.Recovery

/-! # Runs of the job store

The job store and the audit log as a machine: one event per call, with its arguments, clock readings and map
order. A replay carries the effects the ledger holds for its job. The view of one job is its record with its
attempt events.
-/

namespace RhinoQ.Model

open Ports Job

/-- A call of the job store, its lane controls, or the operator's replay. -/
inductive JobCall
  | enqueue (now : Time) (input : EnqueueInput)
  | enqueueBatch (inputs : List (Time × EnqueueInput))
  | claim (input : ClaimInput)
  | renewLease (lease : Lease) (now : Time) (extension : Duration)
  | complete (lease : Lease) (now : Time)
  | releaseLease (lease : Lease) (now : Time)
  | fail (lease : Lease) (now : Time) (transition : FailureTransition)
  | requestCancel (id : ID)
  | requeueExpired (input : ReapInput) (order : List ID)
  | replay (effects : List Effect.Record) (request : Recovery.ReplayRequest)
  | setQueueRateLimit (name : String) (limit : QueueRateLimit)
  | removeQueueRateLimit (name : String)
  | setQueueAdmission (name : String) (policy : Admission.Policy)
  | removeQueueAdmission (name : String)
  | pauseQueue (name : String)
  | resumeQueue (name : String)
  deriving DecidableEq

structure JobSystem where
  jobs : JobStore := {}
  audit : Recovery.AuditLog := {}

namespace JobSystem

/-- The store a call leaves, whatever it answers. The reaper visits each job once, in any order. -/
def step (codec : Recovery.Codec) (s : JobSystem) : JobCall → Option JobSystem
  | .enqueue now input => some { s with jobs := (s.jobs.enqueue now input).2 }
  | .enqueueBatch inputs => some { s with jobs := (s.jobs.enqueueBatch inputs).2 }
  | .claim input => some { s with jobs := (s.jobs.claim input).2 }
  | .renewLease lease now extension => some { s with jobs := (s.jobs.renewLease lease now extension).2 }
  | .complete lease now => some { s with jobs := (s.jobs.complete lease now).2 }
  | .releaseLease lease now => some { s with jobs := (s.jobs.releaseLease lease now).2 }
  | .fail lease now transition => some { s with jobs := (s.jobs.fail lease now transition).2 }
  | .requestCancel id => some { s with jobs := (s.jobs.requestCancel id).2 }
  | .requeueExpired input order =>
    if order.Perm s.jobs.jobs.keys then some { s with jobs := (s.jobs.requeueExpired input order).2 } else none
  | .replay effects request =>
    let (_, jobs, audit) := Recovery.replay codec s.jobs effects s.audit request
    some { jobs, audit }
  | .setQueueRateLimit name limit => some { s with jobs := (s.jobs.setQueueRateLimit name limit).2 }
  | .removeQueueRateLimit name => some { s with jobs := (s.jobs.removeQueueRateLimit name).2 }
  | .setQueueAdmission name policy => some { s with jobs := (s.jobs.setQueueAdmission name policy).2 }
  | .removeQueueAdmission name => some { s with jobs := (s.jobs.removeQueueAdmission name).2 }
  | .pauseQueue name => some { s with jobs := (s.jobs.pauseQueue name).2 }
  | .resumeQueue name => some { s with jobs := (s.jobs.resumeQueue name).2 }

/-- Runs start from an empty store. -/
def machine (codec : Recovery.Codec) : Machine JobSystem JobCall := { start := {}, step := step codec }

end JobSystem

/-- The record and the attempt events of one job. -/
@[ext] structure JobView where
  record : Option Record
  events : List Attempt.Event

namespace JobStore

variable (s : JobStore)

def view (id : ID) : JobView := { record := s.jobs.lookup id, events := s.events id }

@[simp] theorem view_record (id : ID) : (s.view id).record = s.jobs.lookup id := rfl

theorem view_insertJob (key id : ID) (record : Record) : { s with jobs := s.jobs.insert key record }.view id =
      if id = key then { record := some record, events := s.events id } else s.view id := by
  simp only [view, FiniteMap.lookup_insert]
  split <;> rfl

theorem view_putJob (record : Record) (id : ID) : (s.putJob record).view id =
      if id = record.id then { record := some record, events := s.events id } else s.view id :=
  view_insertJob s record.id id record

theorem view_appendAttempt (event : Attempt.Event) (id : ID) : (s.appendAttempt event).view id =
      if id = event.jobID then
        { record := s.jobs.lookup id
          events := s.events id ++ [{ event with sequence := s.nextEvent + 1 }] }
      else s.view id := by
  simp only [view, appendAttempt, events, FiniteMap.lookup_insert]
  split
  next same =>
    subst same
    rw [Option.getD_some]
  next => rfl

theorem view_put_append (record : Record) (event : Attempt.Event) (id : ID)
    (own : event.jobID = record.id) : ((s.putJob record).appendAttempt event).view id =
      if id = record.id then
        { record := some record
          events := s.events id ++ [{ event with sequence := s.nextEvent + 1 }] }
      else s.view id := by
  rw [view_appendAttempt, own]
  split
  next same => rw [same]; simp [putJob, events]
  next other => rw [view_putJob, if_neg other]

end JobStore

/-- The stored record resolves the presented lease at the presented time. -/
structure Job.Record.Authorises (record : Record) (lease : Lease) (now : Time) : Prop where
  leased : record.state = .leased
  owner : record.leaseOwner = lease.owner
  epoch : record.leaseEpoch = lease.epoch
  unexpired : now < record.leaseUntil

theorem JobStore.authoritative_eq_ok {s : JobStore} :
    s.authoritative lease now = .ok record ↔ s.jobs.lookup lease.jobID = some record ∧ record.Authorises lease now := by
  constructor
  · intro success
    unfold authoritative at success
    split at success
    next => cases success
    rename_i found present
    split_ifs at success with state owner epoch unexpired
    cases success
    exact ⟨present, not_not.mp state, not_not.mp owner, not_not.mp epoch, unexpired⟩
  · rintro ⟨present, leased, owner, epoch, unexpired⟩
    simp [authoritative, present, leased, owner, epoch, unexpired]

end RhinoQ.Model
