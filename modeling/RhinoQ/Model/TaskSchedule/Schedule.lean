import RhinoQ.Model.TaskSchedule.Cron
import RhinoQ.ToMathlib.FiniteMapBatch
import RhinoQ.ToMathlib.SortBy
import Mathlib.Data.Prod.Lex
import Mathlib.Data.String.Basic

/-! # Recurring task schedules

A schedule, the lease of one occurrence, and the PostgreSQL store. A store call is one statement that commits
by itself; what it finds locked, its clock and whether it or its answer is lost are decided outside. The zone
database, JSON and the digest are parameters.
-/

namespace RhinoQ.Model.TaskSchedule

open Rule Text Duration

/-- The libraries that the source builds on. -/
structure Platform where
  /-- `time.LoadLocation`. -/
  loadLocation : String → Option Location
  /-- `json.Valid`. -/
  jsonValid : String → Bool
  /-- What a `jsonb` column gives back for a text, unless it refuses the text. -/
  jsonb : String → Option String
  /-- `hex.EncodeToString(sha256.Sum256(text)[:16])`. -/
  digest : String → String

inductive Error
  | invalid
  | versionConflict
  | leaseLost
  | database

/-- `ErrInvalid`, `ErrVersionConflict`, `ErrLeaseLost`, and a text for every error of the database. -/
def Error.text : Error → String
  | .invalid => "invalid recurring task schedule"
  | .versionConflict => "RHINOQ_VERSION_CONFLICT"
  | .leaseLost => "RHINOQ_LEASE_LOST"
  | .database => "database"

/-- The row of a schedule. -/
@[ext]
structure Key where
  id : String
  tenantID : String
  deriving DecidableEq

def minimumInterval : Duration := minute

def maximumInterval : Duration := 365 * 24 * hour

structure Spec where
  id : String := ""
  taskName : String := ""
  ownerID : String := ""
  tenantID : String := ""
  every : Duration := 0
  cron : String := ""
  timezone : String := ""
  startAt : Time := 0
  payload : String := ""

structure Record where
  spec : Spec
  enabled : Bool
  nextRunAt : Time
  version : ℤ

structure Lease where
  scheduleID : String
  taskName : String
  ownerID : String
  tenantID : String
  occurrence : Time
  every : Duration
  cron : String
  timezone : String
  leaseOwner : String
  epoch : ℤ
  expiresAt : Time
  payload : String

/-- The row that the lease was taken of. -/
def Lease.key (lease : Lease) : Key := { id := lease.scheduleID, tenantID := lease.tenantID }

/-- The timing of a lease, as the specification that `RunOnce` advances it with. -/
def Lease.timing (lease : Lease) : Spec := { every := lease.every, cron := lease.cron, timezone := lease.timezone }

section
variable (platform : Platform)

/-- What `Spec.Validate` and `Lease.Validate` ask of the timing and the payload. -/
def validTiming (every : Duration) (cron timezone payload : String) : Bool :=
  (decide (cron = "") != decide (every = 0)) &&
    (decide (cron ≠ "") || (decide (minimumInterval ≤ every) && decide (every ≤ maximumInterval))) &&
    (decide (cron = "") || (parseCron platform.loadLocation cron timezone).isSome) &&
    decide (payload.utf8ByteSize ≤ 1048576) && (decide (payload = "") || platform.jsonValid payload)

def Spec.validate (spec : Spec) : Bool :=
  decide (trimSpace spec.id ≠ "") && decide (trimSpace spec.taskName ≠ "") && decide (trimSpace spec.ownerID ≠ "") &&
    decide (trimSpace spec.tenantID ≠ "") && validTiming platform spec.every spec.cron spec.timezone spec.payload

def Lease.validate (lease : Lease) : Bool :=
  decide (trimSpace lease.scheduleID ≠ "") && decide (trimSpace lease.taskName ≠ "") &&
    decide (trimSpace lease.ownerID ≠ "") && decide (trimSpace lease.tenantID ≠ "") &&
    decide (trimSpace lease.leaseOwner ≠ "") && !lease.occurrence.isZero && !lease.expiresAt.isZero &&
    decide (1 ≤ lease.epoch) && validTiming platform lease.every lease.cron lease.timezone lease.payload

def Spec.nextAfter (spec : Spec) (after : Time) : Except Error Time :=
  if spec.cron ≠ "" then
    match parseCron platform.loadLocation spec.cron spec.timezone with
    | none => .error .invalid
    | some cron =>
      match cron.next after with
      | none => .error .invalid
      | some next => .ok next
  else if spec.every < minimumInterval ∨ after.isZero then .error .invalid
  else .ok (after + spec.every)

/-- The text that the digest of an occurrence is taken of. -/
def occurrenceText (tenantID scheduleID : String) (occurrence : Time) : String :=
  trimSpace tenantID ++ "\x00" ++ trimSpace scheduleID ++ "\x00" ++ Clock.formatRFC3339Nano occurrence

def occurrenceID (tenantID scheduleID : String) (occurrence : Time) : Except Error String :=
  if trimSpace tenantID = "" ∨ trimSpace scheduleID = "" ∨ occurrence.isZero then .error .invalid
  else .ok ("rqs_" ++ platform.digest (occurrenceText tenantID scheduleID occurrence))

/-- `normalized`. -/
def Spec.normalized (spec : Spec) : Spec :=
  { spec with
    id := trimSpace spec.id
    taskName := trimSpace spec.taskName
    ownerID := trimSpace spec.ownerID
    tenantID := trimSpace spec.tenantID
    cron := " ".intercalate ((fields spec.cron).map String.ofList)
    timezone := trimSpace spec.timezone }

/-- The first occurrence of a new schedule. -/
def Spec.firstRun (spec : Spec) (now : Time) : Except Error Time :=
  if spec.cron ≠ "" then spec.nextAfter platform (if spec.startAt.isZero then now else spec.startAt - minute)
  else .ok (if spec.startAt.isZero then now else spec.startAt)

/-- `taskschedule.New`. -/
def Record.new (spec : Spec) (now : Time) : Except Error Record := do
  if ¬spec.validate platform ∨ now.isZero then throw .invalid
  let nextRunAt ← spec.firstRun platform now
  pure { spec := spec.normalized, enabled := true, nextRunAt, version := 1 }

end

/-! ## The table -/

/-- A row of `rhinoq_task_schedules`. -/
structure Row where
  taskName : String
  ownerID : String
  payload : String
  everyMs : Option ℤ
  cronExpression : Option String
  timezone : Option String
  enabled : Bool
  nextRunAt : Time
  leaseOwner : Option String := none
  leaseEpoch : ℤ := 0
  leaseExpiresAt : Option Time := none
  lastError : String := ""
  version : ℤ

abbrev Table := FiniteMap Key Row

/-- A `timestamptz` keeps whole microseconds. -/
def wholeMicros (t : Time) : Time := t - t % 1000

/-- The calendar and the interval of a row, as `Scan` reads them. -/
def Row.timing (row : Row) : Spec :=
  { every := row.everyMs.getD 0 * millisecond, cron := row.cronExpression.getD "", timezone := row.timezone.getD "" }

/-- A `text` column cannot hold the NUL character. -/
def storable (text : String) : Bool := !text.toList.contains '\x00'

def nullableEvery (every : Duration) : Option ℤ := if every = 0 then none else some (every / millisecond)

def scheduleNullableString (text : String) : Option String :=
  if trimSpace text = "" then none else some (trimSpace text)

/-- What `length(btrim(text)) > 0` checks. -/
def filled (text : String) : Bool := text.toList.any (· != ' ')

/-- The checks of the table on an inserted row. -/
def Row.admissible (key : Key) (row : Row) : Bool :=
  filled key.id && filled row.taskName && filled row.ownerID && decide (0 < row.version) &&
    match row.everyMs, row.cronExpression, row.timezone with
    | some every, none, none => decide (60000 ≤ every) && decide (every ≤ 31536000000)
    | none, some cron, some timezone => filled cron && filled timezone
    | _, _, _ => false

def Record.key (record : Record) : Key := { id := record.spec.id, tenantID := record.spec.tenantID }

/-- The inserted row, unless the text of a column is refused. -/
def Record.row (platform : Platform) (record : Record) : Option Row := do
  let payload ← platform.jsonb record.spec.payload
  let texts := [record.spec.id, record.spec.tenantID, record.spec.taskName, record.spec.ownerID, record.spec.cron,
    record.spec.timezone]
  if texts.all storable then
    some {
      taskName := record.spec.taskName
      ownerID := record.spec.ownerID
      payload
      everyMs := nullableEvery record.spec.every
      cronExpression := scheduleNullableString record.spec.cron
      timezone := scheduleNullableString record.spec.timezone
      enabled := record.enabled
      nextRunAt := wholeMicros record.nextRunAt
      version := record.version }
  else none

/-! ## The store -/

namespace Store

variable (platform : Platform) (table : Table)

/-- `SaveTaskSchedule`. -/
def save (record : Record) : Except Error Unit × Table :=
  if ¬record.spec.validate platform ∨ record.version < 1 ∨ record.nextRunAt.isZero then (.error .invalid, table)
  else
    match record.row platform with
    | none => (.error .database, table)
    | some row =>
      if row.admissible record.key ∧ (table.lookup record.key).isNone then (.ok (), table.insert record.key row)
      else (.error .database, table)

/-- `SetTaskScheduleEnabled`. -/
def setEnabled (tenantID id : String) (version : ℤ) (enabled : Bool) : Except Error Unit × Table :=
  if trimSpace tenantID = "" ∨ trimSpace id = "" ∨ version < 1 then (.error .invalid, table)
  else
    match table.lookup { id, tenantID } with
    | none => (.error .versionConflict, table)
    | some row =>
      if row.version ≠ version then (.error .versionConflict, table)
      else
        (.ok (), table.insert { id, tenantID }
          { row with enabled, version := row.version + 1, leaseOwner := none, leaseExpiresAt := none })

def due (clock : Time) (row : Row) : Bool :=
  row.enabled && decide (row.nextRunAt ≤ clock) && row.leaseExpiresAt.all (· ≤ clock)

/-- `WITH due AS (… ORDER BY next_run_at, id FOR UPDATE SKIP LOCKED LIMIT …)`. -/
def dueRows (clock : Time) (locked : Key → Bool) (limit : ℤ) : List (Sigma fun _ : Key => Row) :=
  let candidates := table.entries.filter fun entry => due clock entry.2 && !locked entry.1
  (sortBy (fun entry => toLex (entry.2.nextRunAt, entry.1.id)) candidates).take limit.toNat

def leased (owner : String) (expiresAt : Time) (row : Row) : Row :=
  { row with
    leaseOwner := some owner
    leaseEpoch := row.leaseEpoch + 1
    leaseExpiresAt := some expiresAt
    lastError := "" }

/-- The lease that a row returned by the update is read into. -/
def leaseOf (owner : String) (expiresAt : Time) (key : Key) (row : Row) : Lease :=
  { scheduleID := key.id
    taskName := row.taskName
    ownerID := row.ownerID
    tenantID := key.tenantID
    occurrence := row.nextRunAt
    every := row.timing.every
    cron := row.timing.cron
    timezone := row.timing.timezone
    leaseOwner := owner
    epoch := row.leaseEpoch + 1
    expiresAt
    payload := row.payload }

/-- `ClaimDueTaskSchedules`. `RETURNING` gives the rows in no order of its own: they come by `rank`. A row that is
no lease fails the call after the update. -/
def claimDue (clock : Time) (locked : Key → Bool) (rank : Key → ℕ) (owner : String) (now : Time) (leaseFor : Duration)
    (limit : ℤ) :
    Except Error (List Lease) × Table :=
  if trimSpace owner = "" ∨ now.isZero ∨ leaseFor ≤ 0 ∨ limit < 1 ∨ 100 < limit then (.error .invalid, table)
  else
    let expiresAt := wholeMicros (clock + leaseFor)
    let picked := dueRows table clock locked limit
    let leases := (sortBy (fun entry => rank entry.1) picked).map fun entry => leaseOf owner expiresAt entry.1 entry.2
    let after := FiniteMap.insertAll table (picked.map fun entry => (entry.1, leased owner expiresAt entry.2))
    (if leases.all (Lease.validate platform) then .ok leases else .error .invalid, after)

/-- `WHERE id … AND tenant_id … AND lease_owner … AND lease_epoch …`, and the error when no row is affected. -/
def fenced (lease : Lease) (change : Row → Row) : Option Error × Table :=
  match table.lookup lease.key with
  | none => (some .leaseLost, table)
  | some row =>
    if row.leaseOwner = some lease.leaseOwner ∧ row.leaseEpoch = lease.epoch then (none, table.insert lease.key (change row))
    else (some .leaseLost, table)

/-- `CompleteTaskSchedule`. A zero `next` is answered with the error of the lease's check, which is none. -/
def complete (lease : Lease) (next : Time) : Option Error × Table :=
  if ¬lease.validate platform then (some .invalid, table)
  else if next.isZero then (none, table)
  else
    fenced table lease fun row =>
      { row with
        nextRunAt := wholeMicros next
        leaseOwner := none
        leaseExpiresAt := none
        lastError := ""
        version := row.version + 1 }

/-- The characters of the first `size` bytes, unless the last of them is cut. -/
def firstBytes : ℕ → List Char → Option (List Char)
  | _, [] => some []
  | size, c :: rest =>
    if size = 0 then some []
    else if c.utf8Size ≤ size then (firstBytes (size - c.utf8Size) rest).map (c :: ·)
    else none

/-- `FailTaskSchedule`. The database refuses a message that is no text any more after the cut to 4096 bytes. -/
def fail (clock : Time) (lease : Lease) (retryAfter : Duration) (message : String) : Option Error × Table :=
  if ¬lease.validate platform ∨ retryAfter ≤ 0 then (some .invalid, table)
  else
    match (firstBytes 4096 message.toList).map String.ofList with
    | none => (some .database, table)
    | some lastError =>
      if ¬storable lastError then (some .database, table)
      else fenced table lease fun row => { row with leaseExpiresAt := some (wholeMicros (clock + retryAfter)), lastError }

end Store

end RhinoQ.Model.TaskSchedule
