import RhinoQ.Model.Job.Store
import RhinoQ.Model.Effect.Record

/-! # Operator replay

The recovery store puts a dead or blocked job back to pending once no effect of it is open, uncertain or
confirmed, and appends a hash-chained audit row. Digest and timestamp format are parameters.
-/

namespace RhinoQ.Model.Recovery

open Job

structure ReplayRequest where
  jobID : ID
  actor : String
  reason : String
  requestedAt : Time
  deriving DecidableEq

structure AuditRecord where
  id : String
  jobID : ID
  action : String
  actor : String
  reason : String
  occurredAt : Time
  prevHash : String := ""
  rowHash : String := ""

def errInvalidReplayRequest : String := "replay requires job id, actor, reason and requested time"

def errReplayState : String := "only dead or blocked jobs can be replayed"

def errConfirmedEffect : String := "replay denied: a confirmed effect requires resume"

def errUncertainEffect : String := "replay denied: an uncertain effect requires operator decision"

def errUnresolvedEffect : String := "replay denied: a pending effect is unresolved"

/-- Why one effect forbids a replay; an effect that did not happen or was rejected does not. -/
def effectDenial : Effect.State → Option String
  | .confirmed => some errConfirmedEffect
  | .uncertain => some errUncertainEffect
  | .pending => some errUnresolvedEffect
  | .rejected | .notHappened => none

def validateReplay (record : Record) (effects : List Effect.Record) (request : ReplayRequest) : Except String Unit :=
  if request.jobID = "" ∨ Text.trimSpace request.actor = "" ∨ Text.trimSpace request.reason = "" ∨
      request.requestedAt.isZero then
    .error errInvalidReplayRequest
  else if record.id ≠ request.jobID ∨ (record.state ≠ .dead ∧ record.state ≠ .blocked) then
    .error errReplayState
  else
    match effects.findSome? fun item => effectDenial item.state with
    | some denial => .error denial
    | none => .ok ()

/-- SHA-256 in hexadecimal and the RFC 3339 format of an instant. -/
structure Codec where
  digest : String → String
  format : Time → String

def hashAudit (codec : Codec) (previous : String) (record : AuditRecord) : String :=
  codec.digest ("\n".intercalate [previous, record.id, record.jobID, record.action, record.actor,
    record.reason, codec.format record.occurredAt])

/-- The audit half of the recovery store. -/
structure AuditLog where
  nextID : ℕ := 0
  audits : FiniteMap ID (List AuditRecord) := ∅

def AuditLog.history (log : AuditLog) (id : ID) : List AuditRecord := (log.audits.lookup id).getD []

/-- The chained audit row of a replay. -/
def auditRow (codec : Codec) (log : AuditLog) (request : ReplayRequest) (id : ID) : AuditRecord :=
  let row : AuditRecord :=
    { id := "audit_" ++ Text.sixDigits (log.nextID + 1), jobID := id, action := "job_replayed"
      actor := request.actor, reason := request.reason, occurredAt := request.requestedAt
      prevHash := ((log.history id).getLast?.map (·.rowHash)).getD "" }
  { row with rowHash := hashAudit codec row.prevHash row }

/-- A replayed job starts its crash budget again and forgets a cancel request. -/
def replayRecord (request : ReplayRequest) (record : Record) : Record :=
  { record with
    state := .pending
    notBefore := request.requestedAt
    leaseOwner := ""
    leaseUntil := 0
    cancelRequested := false
    blockedReason := .unset
    crashCount := 0 }

/-- Replay against a job store, the effects the ledger holds for the job and the audit log. -/
def replay (codec : Codec) (jobs : JobStore) (effects : List Effect.Record) (log : AuditLog)
    (request : ReplayRequest) : Except String (Record × AuditRecord) × JobStore × AuditLog :=
  match jobs.jobs.lookup request.jobID with
  | none => (.error "job not found", jobs, log)
  | some record =>
    match validateReplay record effects request with
    | .error text => (.error text, jobs, log)
    | .ok () =>
      let row := auditRow codec log request record.id
      let record := replayRecord request record
      (.ok (record, row), jobs.putJob record,
        { nextID := log.nextID + 1, audits := log.audits.insert record.id (log.history record.id ++ [row]) })

end RhinoQ.Model.Recovery
