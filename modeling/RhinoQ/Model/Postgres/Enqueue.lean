import RhinoQ.Model.Postgres.Tables

/-! # The enqueue transaction

A batch is validated, then each job is checked against its lane's admission policy and inserted, in one
transaction. A key that its lane already holds turns the insert into an update of that row. The identifiers
are generated before the transaction, so they are inputs.
-/

namespace RhinoQ.Model.Postgres

open Ports Job

/-- The lane's admission policy, absent without a maximum. -/
def QueueControlRow.admissionPolicy (control : QueueControlRow) : Option Admission.Policy :=
  control.admissionMaxPending.map fun maxPending =>
    Admission.Policy.normalize
      { maxPending
        reservedCritical := control.admissionReservedCritical.getD 0
        onOverflow := control.admissionOverflowMode.getD .unset
        delayBy := milliseconds (control.admissionDelayMs.getD 0)
        retryAfter := milliseconds (control.admissionRetryAfterMs.getD 0) }

/-- `nullableString`. -/
def nullableString (text : String) : Option String := if text = "" then none else some text

/-- The checks of one input, before the transaction. -/
def prepare (input : EnqueueInput) : Except String (Identity × List UInt8) :=
  match input.identity.normalize with
  | .error text => .error text
  | .ok identity =>
    match validatePayload input.payload defaultMaxPayloadBytes with
    | .error text => .error text
    | .ok payload =>
      if input.priority < minPriority ∨ input.priority > maxPriority then .error errInvalidPriority
      else if input.runAfter < 0 then .error "run-after delay must not be negative"
      else .ok (identity, payload)

/-- A prepared item of a batch. -/
structure Prepared where
  input : EnqueueInput
  identity : Identity
  payload : List UInt8
  id : ID

/-- The row that an item inserts. -/
def Prepared.row (item : Prepared) (now : Time) (deferBy : Duration) : JobRow :=
  { id := item.id, queueName := item.identity.queueName, jobName := item.identity.jobName
    groupKey := nullableString item.identity.groupKey, payload := item.payload, state := .pending
    resourceClass := item.identity.resourceClass, priority := item.input.priority
    idempotencyKey := nullableString item.input.idempotencyKey
    correlationID := nullableString item.input.correlationID, createdAt := now
    notBefore := now + milliseconds
      (item.input.runAfter.tdiv Duration.millisecond + deferBy.tdiv Duration.millisecond) }

namespace Tables

variable (db : Tables)

/-- Jobs of the lane that wait to be claimed. -/
def pendingCount (queueName : String) : ℕ :=
  FiniteMap.count (fun row : JobRow => row.queueName == queueName && (row.state == .pending || row.state == .retryWait))
    db.jobs

/-- The deferral of a job that the lane admits. The count stops at the capacity. -/
def admitTx (queueName : String) (critical : Bool) : Except StoreError Duration :=
  match (db.controls.lookup queueName).bind QueueControlRow.admissionPolicy with
  | none => .ok 0
  | some policy =>
    let pending := min (db.pendingCount queueName) (policy.capacity critical).toNat
    match policy.decide queueName pending critical with
    | .error rejected => .error (.overCapacity rejected)
    | .ok decision => .ok decision.deferBy

/-- The row whose `(queue_name, idempotency_key)` a new row repeats. -/
def conflicting (row : JobRow) : Option JobRow :=
  (FiniteMap.values db.jobs).find? fun held =>
    held.idempotencyKey.isSome && held.queueName == row.queueName && held.idempotencyKey == row.idempotencyKey

/-- `job_name = EXCLUDED.job_name` on one row. -/
def rename (id : ID) (jobName : String) (row : JobRow) : JobRow := if row.id = id then { row with jobName } else row

theorem rename_key (id : ID) (jobName : String) (row : JobRow) :
    (rename id jobName row).id = row.id ∧ (rename id jobName row).queueName = row.queueName ∧
      (rename id jobName row).idempotencyKey = row.idempotencyKey := by
  unfold rename
  split <;> exact ⟨rfl, rfl, rfl⟩

theorem conflicting_eq_none {db : Tables} {row held : JobRow} {id : ID} {key : String}
    (free : db.conflicting row = none) (found : db.jobs.lookup id = some held) (lane : held.queueName = row.queueName)
    (own : held.idempotencyKey = some key) : row.idempotencyKey ≠ some key := by
  intro same
  have passed := List.find?_eq_none.mp free held (FiniteMap.mem_values_iff.mpr ⟨id, found⟩)
  simp [lane, own, same] at passed

/-- Insert a row with a new identifier and a new key. -/
def addJob (row : JobRow) (free : db.conflicting row = none) : Tables :=
  { db with
    jobs := db.jobs.insert row.id row
    jobs_key := FiniteMap.forall_insert rfl rfl db.jobs_key
    keys_unique := by
      intro a b first second key left right lane own other
      rw [FiniteMap.lookup_insert] at left right
      split at left
      next here =>
        cases left
        split at right
        next there => exact here.trans there.symm
        · exact (conflicting_eq_none free right lane.symm other own).elim
      · split at right
        · cases right
          exact (conflicting_eq_none free left lane own other).elim
        · exact db.keys_unique a b first second key left right lane own other }

/-- `INSERT ... ON CONFLICT (queue_name, idempotency_key) DO UPDATE ... RETURNING id`. -/
def insertJob (row : JobRow) : Except StoreError ID × Tables :=
  match clash : db.conflicting row with
  | some held => (.ok held.id, db.updateJobs (rename held.id row.jobName) (rename_key held.id row.jobName))
  | none =>
    if (db.jobs.lookup row.id).isSome then (.error (.message "duplicate key value violates unique constraint"), db)
    else (.ok row.id, db.addJob row clash)

/-- One item of the transaction. -/
def enqueueItem (now : Time) (item : Prepared) : Except StoreError ID × Tables :=
  match db.admitTx item.identity.queueName item.identity.resourceClass.isCritical with
  | .error error => (.error error, db)
  | .ok deferBy => db.insertJob (item.row now deferBy)

/-- The items in order, stopped at the first error. -/
def enqueueItems (db : Tables) (now : Time) : List Prepared → Except StoreError (List ID) × Tables
  | [] => (.ok [], db)
  | item :: rest =>
    match db.enqueueItem now item with
    | (.error error, after) => (.error error, after)
    | (.ok id, after) =>
      match after.enqueueItems now rest with
      | (.error error, last) => (.error error, last)
      | (.ok ids, last) => (.ok (id :: ids), last)

/-- The preparation of a batch, each input with its generated identifier. -/
def prepareEach : List (ID × EnqueueInput) → Except String (List Prepared)
  | [] => .ok []
  | (id, input) :: rest =>
    match prepare input with
    | .error text => .error text
    | .ok (identity, payload) =>
      match prepareEach rest with
      | .error text => .error text
      | .ok items => .ok ({ input, identity, payload, id } :: items)

def enqueueBatch (now : Time) (inputs : List (ID × EnqueueInput)) : Except StoreError (List ID) × Tables :=
  if inputs.length = 0 then (.error (.message "enqueue batch must contain at least one job"), db)
  else if inputs.length > maxEnqueueBatch then (.error (.message "enqueue batch exceeds 1000 jobs"), db)
  else
    match prepareEach inputs with
    | .error text => (.error (.message text), db)
    | .ok items =>
      match db.enqueueItems now items with
      | (.error error, _) => (.error error, db)
      | (.ok ids, after) => (.ok ids, after)

def enqueue (now : Time) (id : ID) (input : EnqueueInput) : Except StoreError ID × Tables :=
  match db.enqueueBatch now [(id, input)] with
  | (.error error, after) => (.error error, after)
  | (.ok ids, after) => (.ok (ids.headD ""), after)

end Tables
end RhinoQ.Model.Postgres
