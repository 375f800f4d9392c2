import RhinoQ.Model.TaskClient

/-! # The notification outbox of tasks

`rhinoq_task.notification_outbox` and the statements of the client on it. The claims that were granted are written down
beside the rows, the newest first; a claim is known by the attempt that it began.
-/

namespace RhinoQ.Model.NotificationOutbox

open TaskSchema
open TaskClient (Error)

inductive State
  | pending | leased | sent | failed
  deriving DecidableEq

structure Row where
  state : State := .pending
  attempts : ℤ := 0
  availableAt : Timestamp
  leaseOwner : Option String := none
  leaseUntil : Option Timestamp := none
  lastError : Option String := none
  updatedAt : Timestamp

structure Claim where
  id : String
  owner : String
  attempt : ℤ
  deriving DecidableEq

structure Outbox where
  rows : FiniteMap String Row := ∅
  claims : List Claim := []

/-- A row that `claimTaskNotification` may take. -/
def Row.isCandidate (row : Row) (now : Timestamp) : Bool :=
  match row.state with
  | .pending | .failed => decide (row.availableAt ≤ now)
  | .leased => row.leaseUntil.any (· ≤ now)
  | .sent => false

namespace Outbox

variable (s : Outbox)

/-- The last claim of a notification. -/
def latest (id : String) : Option Claim := s.claims.find? (·.id == id)

/-- The insert of `queueTaskNotification`, with the defaults of the table. A row of this identifier stays as it is. -/
def insertRow (id : String) (now : Timestamp) : Outbox :=
  if (s.rows.lookup id).isSome then s else { s with rows := s.rows.insert id { availableAt := now, updatedAt := now } }

/-- `chosen` is the candidate that the query returns. It may be any: those before it may be locked, and are skipped. -/
def claimTaskNotification (owner : String) (leaseMs : ℤ) (now : Timestamp) (chosen : String) : Except Error Outbox :=
  if untold owner then .error (.typeError "notification lease owner is required")
  else if leaseMs < 1000 ∨ leaseMs > 3600000 then .error (.rangeError "notification leaseMs must be 1000..3600000")
  else match s.rows.lookup chosen with
    | none => .ok s
    | some row =>
      if row.isCandidate now then
        .ok { rows := s.rows.insert chosen { row with
                state := .leased, attempts := row.attempts + 1, leaseOwner := some owner
                leaseUntil := some (now + milliseconds leaseMs), updatedAt := now }
              claims := { id := chosen, owner, attempt := row.attempts + 1 } :: s.claims }
      else .ok s

/-- The update of a row that is leased to the owner. -/
def release (id owner : String) (update : Row → Row) : Except Error Outbox :=
  match s.rows.lookup id with
  | none => .error (.rhinoq "RHINOQ_NOTIFICATION_LEASE_CONFLICT" id)
  | some row =>
    if row.state = .leased ∧ row.leaseOwner = some owner then .ok { s with rows := s.rows.insert id (update row) }
    else .error (.rhinoq "RHINOQ_NOTIFICATION_LEASE_CONFLICT" id)

def completeTaskNotification (id owner : String) (now : Timestamp) : Except Error Outbox :=
  s.release id owner ({ · with state := .sent, leaseOwner := none, leaseUntil := none, updatedAt := now })

/-- `slice(0, n)` counts UTF-16 units; half of a pair is sent as the replacement character. -/
def slice (n : ℕ) : List Char → List Char
  | [] => []
  | c :: rest =>
    if n = 0 then []
    else if c.val < 0x10000 then c :: slice (n - 1) rest
    else if n = 1 then ['\uFFFD'] else c :: slice (n - 2) rest

def failTaskNotification (id owner error : String) (retryAfterMs : ℤ) (now : Timestamp) : Except Error Outbox :=
  if untold error then .error (.typeError "notification failure reason is required")
  else if retryAfterMs < 0 ∨ retryAfterMs > 86400000 then .error (.rangeError "retryAfterMs must be 0..86400000")
  else s.release id owner ({ · with
    state := .failed, leaseOwner := none, leaseUntil := none, availableAt := now + milliseconds retryAfterMs
    lastError := some (String.ofList (slice 2048 error.toList)), updatedAt := now })

end Outbox

inductive Event
  | insert (id : String) (now : Timestamp)
  | claim (owner : String) (leaseMs : ℤ) (now : Timestamp) (chosen : String)
  | complete (id owner : String) (now : Timestamp)
  | fail (id owner error : String) (retryAfterMs : ℤ) (now : Timestamp)

def Event.call (s : Outbox) : Event → Except Error Outbox
  | .insert id now => .ok (s.insertRow id now)
  | .claim owner leaseMs now chosen => s.claimTaskNotification owner leaseMs now chosen
  | .complete id owner now => s.completeTaskNotification id owner now
  | .fail id owner error retryAfterMs now => s.failTaskNotification id owner error retryAfterMs now

/-- Calls in any order; one that throws changes nothing. -/
def machine : Machine Outbox Event where
  start := {}
  step s event := some ((event.call s).toOption.getD s)

end RhinoQ.Model.NotificationOutbox
