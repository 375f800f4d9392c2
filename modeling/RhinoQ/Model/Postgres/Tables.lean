import RhinoQ.Model.Job.Store

/-! # The PostgreSQL tables of the job store

The tables that the enqueue statements read and write. A nullable column is an `Option`. Keys,
unique constraints and checks are part of the rows and tables, so that a table that breaks them cannot be
built. The rows of one tenant are the whole table.
-/

namespace RhinoQ.Model.Postgres

open Ports FiniteMap Job

/-- A row of `rhinoq_jobs`. -/
structure JobRow where
  id : ID
  queueName : String
  jobName : String
  groupKey : Option String := none
  payload : List UInt8
  state : State
  resourceClass : Job.Class
  priority : ℤ
  attempts : ℕ := 0
  crashCount : ℕ := 0
  blockedReason : Option BlockedReason := none
  idempotencyKey : Option String := none
  correlationID : Option String := none
  createdAt : Time
  notBefore : Time
  leaseOwner : Option String := none
  leaseEpoch : ℤ := 0
  leaseUntil : Option Time := none
  cancelRequested : Bool := false
  deriving DecidableEq

/-- The record that the memory store keeps of a job: a lease that was never taken has the zero deadline. -/
def JobRow.inMemory (row : JobRow) : Record :=
  { id := row.id
    identity := { queueName := row.queueName, jobName := row.jobName, groupKey := row.groupKey.getD ""
                  resourceClass := row.resourceClass }
    payload := row.payload, state := row.state, priority := row.priority, attempts := row.attempts
    crashCount := row.crashCount, blockedReason := row.blockedReason.getD .unset
    idempotencyKey := row.idempotencyKey.getD "", correlationID := row.correlationID.getD ""
    createdAt := row.createdAt, notBefore := row.notBefore, leaseOwner := row.leaseOwner.getD ""
    leaseEpoch := row.leaseEpoch, leaseUntil := row.leaseUntil.getD 0
    cancelRequested := row.cancelRequested }

/-- A row of `rhinoq_queue_controls`. The two rate limit columns are set and cleared together. -/
structure QueueControlRow where
  queueName : String
  pausedAt : Option Time := none
  rateLimitMax : Option ℤ := none
  rateLimitWindowMs : Option ℤ := none
  rateWindowStartedAt : Option Time := none
  rateWindowCount : ℕ := 0
  admissionMaxPending : Option ℤ := none
  admissionReservedCritical : Option ℤ := none
  admissionOverflowMode : Option Admission.Mode := none
  admissionDelayMs : Option ℤ := none
  admissionRetryAfterMs : Option ℤ := none
  updatedAt : Time := 0
  max_pos : ∀ max, rateLimitMax = some max → 0 < max := by simp
  window_pos : ∀ window, rateLimitWindowMs = some window → 0 < window := by simp
  limit_whole : rateLimitMax.isSome = rateLimitWindowMs.isSome := by simp
  admission_pos : ∀ max, admissionMaxPending = some max → 0 < max := by simp
  reserved_below : ∀ max reserved, admissionMaxPending = some max → admissionReservedCritical = some reserved →
    0 ≤ reserved ∧ reserved < max := by simp

/-- The unique constraint on `(queue_name, idempotency_key)`; null keys are distinct. -/
def KeysUnique (jobs : FiniteMap ID JobRow) : Prop :=
  ∀ a b first second key, jobs.lookup a = some first → jobs.lookup b = some second →
    first.queueName = second.queueName → first.idempotencyKey = some key → second.idempotencyKey = some key → a = b

structure Tables where
  jobs : FiniteMap ID JobRow := ∅
  controls : FiniteMap String QueueControlRow := ∅
  events : List Attempt.Event := []
  nextEvent : ℕ := 0
  jobs_key : ∀ id row, jobs.lookup id = some row → row.id = id := by nofun
  controls_key : ∀ name row, controls.lookup name = some row → row.queueName = name := by nofun
  keys_unique : KeysUnique jobs := by nofun

/-- `rate_limit_window_ms * interval '1 millisecond'`. -/
def milliseconds (count : ℤ) : Duration := count * Duration.millisecond

/-- The memory store's copy of a lane's rate limit. -/
def QueueControlRow.rateLimitState (control : QueueControlRow) : Option QueueRateLimitState :=
  match control.rateLimitMax, control.rateLimitWindowMs with
  | some max, some window =>
    some { limit := { max, window := milliseconds window }
           windowStarted := control.rateWindowStartedAt.getD 0, count := control.rateWindowCount }
  | _, _ => none

namespace Tables

/-- The rows under their primary keys. -/
def jobsOf (rows : List JobRow) : FiniteMap ID JobRow := rows.foldr (fun row jobs => jobs.insert row.id row) ∅

def controlsOf (rows : List QueueControlRow) : FiniteMap String QueueControlRow :=
  rows.foldr (fun row controls => controls.insert row.queueName row) ∅

/-- The idempotency keys of two rows do not clash. -/
def KeysApart (a b : JobRow) : Prop := a.idempotencyKey = none ∨ a.queueName ≠ b.queueName ∨
    a.idempotencyKey ≠ b.idempotencyKey

instance : DecidableRel KeysApart := fun _ _ => inferInstanceAs (Decidable (_ ∨ _))

instance : Std.Symm KeysApart where
  symm x y apart := by
    obtain keyless | lanes | keys := apart
    · by_cases same : y.idempotencyKey = none
      · exact .inl same
      · exact .inr (.inr fun equal => same (equal.trans keyless))
    · exact .inr (.inl lanes.symm)
    · exact .inr (.inr keys.symm)

/-- Tables with the given rows. -/
def ofRows (rows : List JobRow) (controls : List QueueControlRow) (distinct : rows.Pairwise KeysApart) : Tables where
  jobs := jobsOf rows
  controls := controlsOf controls
  jobs_key _ _ found := (lookup_foldr_insert found).2
  controls_key _ _ found := (lookup_foldr_insert found).2
  keys_unique a b first second key left right lane own other := by
    obtain ⟨here, rfl⟩ := lookup_foldr_insert left
    obtain ⟨there, rfl⟩ := lookup_foldr_insert right
    by_contra apart
    obtain keyless | lanes | keys := distinct.forall here there fun same => apart (congrArg JobRow.id same)
    · rw [keyless] at own
      cases own
    · exact lanes lane
    · exact keys (own.trans other.symm)

variable (db : Tables)

/-- An update of job rows that leaves the columns of their keys. -/
def updateJobs (f : JobRow → JobRow)
    (keeps : ∀ row, (f row).id = row.id ∧ (f row).queueName = row.queueName ∧ (f row).idempotencyKey = row.idempotencyKey) :
    Tables :=
  { db with
    jobs := FiniteMap.mapValues f db.jobs
    jobs_key := by
      intro id row found
      rw [FiniteMap.lookup_mapValues] at found
      obtain ⟨before, stored, rfl⟩ := Option.map_eq_some_iff.mp found
      rw [(keeps before).1]
      exact db.jobs_key id before stored
    keys_unique := by
      intro a b first second key left right lane own other
      rw [FiniteMap.lookup_mapValues] at left right
      obtain ⟨one, stored, rfl⟩ := Option.map_eq_some_iff.mp left
      obtain ⟨two, present, rfl⟩ := Option.map_eq_some_iff.mp right
      rw [(keeps one).2.1, (keeps two).2.1] at lane
      rw [(keeps one).2.2] at own
      rw [(keeps two).2.2] at other
      exact db.keys_unique a b one two key stored present lane own other }

/-- A memory store with the contents of the tables. -/
def toStore : JobStore :=
  { jobs := FiniteMap.mapValues JobRow.inMemory db.jobs
    paused := FiniteMap.mapValues (fun control => control.pausedAt.isSome) db.controls
    rateLimits := FiniteMap.filterMapValues QueueControlRow.rateLimitState db.controls }

end Tables
end RhinoQ.Model.Postgres
