import RhinoQ.Model.Postgres.Enqueue

/-! # Enqueueing a key again

On a key that its lane already holds, the memory store answers with the job it holds. The enqueue transaction
asks the lane's admission policy first and then writes the job name of the new input over the stored one.
-/

namespace RhinoQ.Model.Postgres.Tables

open Ports QueueControlRow FiniteMap

variable {db : Tables} {s : JobStore} {now : Time} {id : Job.ID} {input : EnqueueInput} {identity : Job.Identity}
  {payload : List UInt8} {held row : JobRow} {key : String}

/-- The memory store finds the keyed rows under their lane and key. -/
def KeysIndexed (db : Tables) (s : JobStore) : Prop :=
  ∀ id row key, db.jobs.lookup id = some row → row.idempotencyKey = some key →
    s.byIdem.lookup (row.queueName ++ "\x00" ++ key) = some id

/-- The lane has no policy, is below its capacity, or defers what it cannot take. -/
def Admits (db : Tables) (queueName : String) (critical : Bool) : Prop :=
  ∀ policy, (db.controls.lookup queueName).bind admissionPolicy = some policy →
    (db.pendingCount queueName : ℤ) < policy.capacity critical ∨ policy.onOverflow = .delay

/-- Every column of every row is the same. -/
def Unchanged (db after : Tables) : Prop :=
  (∀ id, after.jobs.lookup id = db.jobs.lookup id) ∧ after.controls = db.controls

/-- The transaction answers with the stored job and changes nothing. -/
def Replays (db : Tables) (now : Time) (id : Job.ID) (input : EnqueueInput) (held : JobRow) : Prop :=
  (db.enqueue now id input).1 = .ok held.id ∧ db.Unchanged (db.enqueue now id input).2

theorem normalize_admissionPolicy {control : QueueControlRow} {policy : Admission.Policy}
    (found : control.admissionPolicy = some policy) : policy.normalize = policy := by
  obtain ⟨_, _, rfl⟩ := Option.map_eq_some_iff.mp found
  exact Admission.Policy.normalize_normalize _

theorem admitTx_ok_iff (queueName : String) (critical : Bool) :
    (∃ deferBy, db.admitTx queueName critical = .ok deferBy) ↔ db.Admits queueName critical := by
  unfold admitTx Admits
  cases found : (db.controls.lookup queueName).bind admissionPolicy with
  | none => simp
  | some policy =>
    obtain ⟨control, _, limited⟩ := Option.bind_eq_some_iff.mp found
    have decided := policy.decide_ok_iff queueName (min (db.pendingCount queueName)
      (policy.capacity critical).toNat : ℕ) critical
    rw [normalize_admissionPolicy limited] at decided
    -- the count stops at the capacity, which does not change the comparison
    have capped : ((min (db.pendingCount queueName) (policy.capacity critical).toNat : ℕ) : ℤ) < policy.capacity critical ↔
        (db.pendingCount queueName : ℤ) < policy.capacity critical := by omega
    rw [capped] at decided
    simp only [Option.some.injEq, forall_eq', ← decided]
    split
    next rejected refused =>
      rw [refused]
      simp
    next decision accepted => exact ⟨fun _ => ⟨decision, accepted⟩, fun _ => ⟨decision.deferBy, rfl⟩⟩

/-- The unique constraint leaves one row to conflict with. -/
theorem conflicting_eq_some (stored : db.jobs.lookup held.id = some held) (own : held.idempotencyKey = some key)
    (lane : row.queueName = held.queueName) (same : row.idempotencyKey = some key) : db.conflicting row = some held := by
  cases clash : db.conflicting row with
  | none => exact (conflicting_eq_none clash stored lane.symm own same).elim
  | some other =>
    obtain ⟨otherID, found⟩ := mem_values_iff.mp (List.mem_of_find?_eq_some clash)
    have passed := List.find?_some clash
    simp only [Bool.and_eq_true, beq_iff_eq] at passed
    have equal := db.keys_unique otherID held.id other held key found stored (passed.1.2.trans lane)
      (passed.2.trans same) own
    rw [equal] at found
    exact found.symm.trans stored

theorem insertJob_of_conflict (clash : db.conflicting row = some held) :
    db.insertJob row = (.ok held.id, db.updateJobs (rename held.id row.jobName) (rename_key held.id row.jobName)) := by
  unfold insertJob
  split
  next other found =>
    cases found.symm.trans clash
    rfl
  next found => cases found.symm.trans clash

theorem unchanged_rename_iff (stored : db.jobs.lookup held.id = some held) (jobName : String) :
    db.Unchanged (db.updateJobs (rename held.id jobName) (rename_key held.id jobName)) ↔ jobName = held.jobName := by
  have lookup : ∀ id, (db.updateJobs (rename held.id jobName) (rename_key held.id jobName)).jobs.lookup id =
      (db.jobs.lookup id).map (rename held.id jobName) := lookup_mapValues _ _
  constructor
  · intro unchanged
    have renamed := unchanged.1 held.id
    rw [lookup, stored, Option.map_some, rename, if_pos rfl] at renamed
    exact congrArg JobRow.jobName (Option.some.inj renamed)
  · rintro rfl
    refine ⟨fun id => ?_, rfl⟩
    rw [lookup]
    cases found : db.jobs.lookup id with
    | none => rfl
    | some row =>
      rw [Option.map_some, rename]
      split
      next same =>
        rw [db.jobs_key id row found] at same
        cases found.symm.trans (same ▸ stored)
        rfl
      · rfl

theorem enqueue_of_prepared (valid : prepare input = .ok (identity, payload)) : db.enqueue now id input =
      match db.enqueueItem now { input, identity, payload, id } with
      | (.error error, _) => (.error error, db)
      | (.ok id, after) => (.ok id, after) := by
  have prepared : prepareEach [(id, input)] = .ok [{ input, identity, payload, id }] := by
    simp only [prepareEach, valid]
  have small : ¬[(id, input)].length > maxEnqueueBatch := by simp [maxEnqueueBatch]
  unfold enqueue enqueueBatch
  rw [if_neg (by simp), if_neg small, prepared]
  simp only [enqueueItems]
  obtain ⟨_ | _, after⟩ := db.enqueueItem now { input, identity, payload, id } <;> rfl

theorem queueName_of_prepared (valid : prepare input = .ok (identity, payload)) :
    identity.queueName = Text.trimSpace input.identity.queueName := by
  unfold prepare at valid
  split at valid
  · cases valid
  rename_i normal accepted
  have kept : normal = identity := by
    repeat' split at valid
    all_goals cases valid
    rfl
  rw [← kept]
  exact Job.Identity.queueName_of_normalize accepted

/-- The memory store answers a key it holds before it looks at anything else of the input. -/
theorem KeysIndexed.enqueue (indexed : db.KeysIndexed s) (stored : db.jobs.lookup held.id = some held)
    (own : held.idempotencyKey = some key) (valid : prepare input = .ok (identity, payload))
    (lane : identity.queueName = held.queueName) (keyed : nullableString input.idempotencyKey = some key) :
    s.enqueue now input = (.ok held.id, s) := by
  have text : input.idempotencyKey = key ∧ input.idempotencyKey ≠ "" := by
    unfold nullableString at keyed
    split at keyed
    · cases keyed
    next nonempty => exact ⟨Option.some.inj keyed, nonempty⟩
  have scope : JobStore.idempotencyScope input = held.queueName ++ "\x00" ++ key := by
    rw [JobStore.idempotencyScope, ← queueName_of_prepared valid, lane, text.1]
  unfold JobStore.enqueue JobStore.enqueueLocked
  rw [if_pos text.2, scope, indexed held.id held key stored own]

/-- A valid input with the lane and key of a stored job: the memory store returns the job and changes
nothing, and the transaction does so exactly when the lane admits or defers it and the names agree. -/
theorem replays_iff (indexed : db.KeysIndexed s) (stored : db.jobs.lookup held.id = some held)
    (own : held.idempotencyKey = some key) (valid : prepare input = .ok (identity, payload))
    (lane : identity.queueName = held.queueName) (keyed : nullableString input.idempotencyKey = some key) :
    s.enqueue now input = (.ok held.id, s) ∧ (db.Replays now id input held ↔
        db.Admits held.queueName identity.resourceClass.isCritical ∧ identity.jobName = held.jobName) := by
  refine ⟨indexed.enqueue stored own valid lane keyed, ?_⟩
  have clash (deferBy : Duration) : db.conflicting (Prepared.row { input, identity, payload, id } now deferBy) = some held :=
    conflicting_eq_some stored own lane keyed
  rw [Replays, enqueue_of_prepared valid, enqueueItem, ← admitTx_ok_iff, ← lane,
    ← unchanged_rename_iff stored identity.jobName]
  cases admitted : db.admitTx identity.queueName identity.resourceClass.isCritical with
  | error refused => simp
  | ok deferBy =>
    simp only [insertJob_of_conflict (clash deferBy)]
    simp [Prepared.row]

/-- A pending job of the lane with a key. -/
def keyedJob : JobRow :=
  { id := "job_1", queueName := "mail", jobName := "send", payload := [], state := .pending, resourceClass := .standard
    priority := 0, idempotencyKey := some "order-7", createdAt := 1, notBefore := 1 }

/-- A lane that refuses work beyond its job and `spare` others. -/
def boundedLane (spare : ℕ) : QueueControlRow :=
  { queueName := "mail", admissionMaxPending := some (spare + 1), admissionReservedCritical := some 0
    admissionOverflowMode := some .reject
    admission_pos := by
      rintro _ ⟨⟩
      omega
    reserved_below := by
      rintro _ _ ⟨⟩ ⟨⟩
      omega }

def mail (spare : ℕ) : Tables := ofRows [keyedJob] [boundedLane spare] (by decide)

/-- The memory store of the lane, with its policy and the key of its job. -/
def mailStore (spare : ℕ) : JobStore :=
  { (mail spare).toStore with
    byIdem := (∅ : FiniteMap String Job.ID).insert "mail\x00order-7" "job_1"
    admission := filterMapValues admissionPolicy (mail spare).controls }

theorem keysIndexed_mail (spare : ℕ) : (mail spare).KeysIndexed (mailStore spare) := by
  intro id row key found own
  obtain ⟨member, rfl⟩ := lookup_foldr_insert found
  obtain rfl := List.mem_singleton.mp member
  cases own
  rfl

def resend (jobName : String) : EnqueueInput :=
  { identity := { queueName := "mail", jobName }, payload := some [], idempotencyKey := "order-7" }

/-- With a place left in the lane and the same job name both stores replay. -/
theorem replays_below_capacity : (mailStore 1).enqueue 2 (resend "send") = (.ok "job_1", mailStore 1) ∧
      (mail 1).Replays 2 "job_2" (resend "send") keyedJob := by
  have both := @replays_iff (mail 1) (mailStore 1) 2 "job_2" (resend "send")
    { queueName := "mail", jobName := "send", resourceClass := .standard } [] keyedJob "order-7"
    (keysIndexed_mail 1) (by decide) rfl (by decide) rfl (by decide)
  refine ⟨both.1, both.2.mpr ⟨?_, rfl⟩⟩
  intro policy found
  left
  cases found
  decide

/-- In a full lane the transaction refuses the replay that the memory store answers; below the
capacity it overwrites the stored job name. -/
theorem full_lane_refuses_replay : ((mailStore 0).enqueue 2 (resend "send")).1 = .ok "job_1" ∧
      ((mail 0).enqueue 2 "job_2" (resend "send")).1 =
        .error (.overCapacity { queue := "mail", pending := 1, capacity := 1, critical := false
                                retryAfter := Admission.defaultRetryAfter }) ∧
      ((mail 1).enqueue 2 "job_2" (resend "notify")).2.jobs.lookup "job_1" = some { keyedJob with jobName := "notify" } := by
  decide

end RhinoQ.Model.Postgres.Tables
