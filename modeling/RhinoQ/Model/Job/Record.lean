import Mathlib.Algebra.Order.Ring.Unbundled.Rat
import RhinoQ.Model.Basic

/-! # Job records

States, the four-part identity, the record with the constructor that validates a specification, the
claim-order priority, and crash protection. Effective priority is exact; the source computes it in `float64`.
-/

namespace RhinoQ.Model.Job

abbrev ID := String

inductive State
  | pending | leased | succeeded | retryWait | dead | cancelled | blocked
  deriving DecidableEq

def State.text : State → String
  | .pending => "pending"
  | .leased => "leased"
  | .succeeded => "succeeded"
  | .retryWait => "retry_wait"
  | .dead => "dead"
  | .cancelled => "cancelled"
  | .blocked => "blocked"

def canTransition : State → State → Bool
  | .pending, .leased | .pending, .cancelled => true
  | .leased, .succeeded | .leased, .retryWait | .leased, .dead | .leased, .blocked | .leased, .cancelled => true
  | .retryWait, .leased | .retryWait, .cancelled | .retryWait, .dead => true
  | .blocked, .leased | .blocked, .cancelled => true
  | _, _ => false

/-- A resource class as a producer may send it: left out, one of the five, or any other text. -/
inductive Class
  | unset | critical | interactive | standard | batch | maintenance
  | other (text : String)
  deriving DecidableEq

def errInvalidClass : String := "job class must be critical, interactive, standard, batch or maintenance"

def normalizeClass : Class → Except String Class
  | .unset => .ok .standard
  | .other _ => .error errInvalidClass
  | chosen => .ok chosen

def Class.isCritical (c : Class) : Bool := c == .critical

structure Identity where
  queueName : String
  jobName : String
  groupKey : String := ""
  resourceClass : Class := .unset
  deriving DecidableEq

def errEmptyQueueName : String := "queue name is required"

def errEmptyJobName : String := "job name is required"

def errIdentityTooLong : String := "queue name, job name and group key must each be at most 128 characters"

def maxIdentityPartBytes : ℕ := 128

/-- Trim each part, apply the default class, and refuse an identity that cannot be routed. -/
def Identity.normalize (identity : Identity) : Except String Identity := do
  let queueName := Text.trimSpace identity.queueName
  let jobName := Text.trimSpace identity.jobName
  let groupKey := Text.trimSpace identity.groupKey
  if queueName = "" then throw errEmptyQueueName
  if jobName = "" then throw errEmptyJobName
  if queueName.utf8ByteSize > maxIdentityPartBytes ∨ jobName.utf8ByteSize > maxIdentityPartBytes ∨
      groupKey.utf8ByteSize > maxIdentityPartBytes then
    throw errIdentityTooLong
  let resourceClass ← normalizeClass identity.resourceClass
  return { queueName, jobName, groupKey, resourceClass }

theorem Identity.queueName_of_normalize {identity normal : Identity} (accepted : identity.normalize = .ok normal) :
    normal.queueName = Text.trimSpace identity.queueName := by
  unfold normalize at accepted
  cases routed : normalizeClass identity.resourceClass <;> simp only [routed] at accepted
  all_goals repeat' split at accepted
  all_goals cases accepted
  rfl

def errNilPayload : String := "job payload is required"

def errPayloadTooLarge : String := "job payload exceeds configured size limit"

def errInvalidState : String := "invalid initial job state"

def errInvalidPriority : String := "job priority must be between -100 and 100"

def defaultMaxPayloadBytes : ℤ := 1048576

def minPriority : ℤ := -100

def maxPriority : ℤ := 100

/-- The payload is `none` for a nil slice. -/
def validatePayload (payload : Option (List UInt8)) (maxBytes : ℤ) : Except String (List UInt8) :=
  match payload with
  | none => .error errNilPayload
  | some bytes =>
    if maxBytes ≤ 0 then .error "payload size limit must be positive"
    else if bytes.length > maxBytes then .error errPayloadTooLarge
    else .ok bytes

/-- Why a job was parked instead of retried; `unset` on every record that is not blocked. -/
inductive BlockedReason
  | unset | unclassified | poisonJob
  | other (text : String)
  deriving DecidableEq

structure Record where
  id : ID
  identity : Identity
  payload : List UInt8
  state : State
  priority : ℤ
  attempts : ℕ := 0
  crashCount : ℕ := 0
  blockedReason : BlockedReason := .unset
  idempotencyKey : String := ""
  correlationID : String := ""
  createdAt : Time
  notBefore : Time
  leaseOwner : String := ""
  leaseEpoch : ℤ := 0
  leaseUntil : Time := 0
  cancelRequested : Bool := false
  deriving DecidableEq

namespace Record

def queueName (record : Record) : String := record.identity.queueName

end Record

/-- The validated input required to admit a new job. -/
structure Spec where
  id : ID
  identity : Identity
  payload : Option (List UInt8)
  now : Time
  notBefore : Time
  priority : ℤ

def newRecord (spec : Spec) : Except String Record := do
  let identity ← spec.identity.normalize
  let payload ← validatePayload spec.payload defaultMaxPayloadBytes
  if spec.id = "" ∨ spec.now.isZero then throw errInvalidState
  if spec.priority < minPriority ∨ spec.priority > maxPriority then throw errInvalidPriority
  let notBefore := if spec.notBefore.isZero then spec.now else spec.notBefore
  return { id := spec.id, identity, payload, state := .pending, priority := spec.priority,
           createdAt := spec.now, notBefore }

def agingBoostPerHour : ℚ := 1

def maxAgingBoost : ℚ := 5

/-- The ordering key of every claim, without rounding: priority plus one per hour of waiting, at most five. -/
def effectivePriority (priority : ℤ) (notBefore now : Time) : ℚ :=
  let waited : Duration := now - notBefore
  if waited ≤ 0 then priority
  else
    let boost := (waited : ℚ) / (Duration.hour : ℚ) * agingBoostPerHour
    priority + if boost > maxAgingBoost then maxAgingBoost else boost

/-- How often one job may take its worker down before it is parked. -/
structure Protection where
  maxWorkerCrashesPerJob : ℤ := 0
  deriving DecidableEq

def defaultMaxWorkerCrashesPerJob : ℤ := 3

def Protection.normalize (p : Protection) : Protection :=
  if p.maxWorkerCrashesPerJob ≤ 0 then { maxWorkerCrashesPerJob := defaultMaxWorkerCrashesPerJob } else p

/-- `crashCount` includes the crash being recorded. -/
def Protection.isPoisoned (p : Protection) (crashCount : ℕ) : Bool :=
  decide (p.normalize.maxWorkerCrashesPerJob ≤ crashCount)

end RhinoQ.Model.Job
