import RhinoQ.Model.Basic

/-! # Effect records

An effect is one external side effect of a job, identified by the job, a name and an idempotency key.
-/

namespace RhinoQ.Model

namespace Correlation

def maxTypeBytes : ℕ := 64

def maxIDBytes : ℕ := 256

def maxSourceBytes : ℕ := 64

def errSubjectRequired : String := "subject type and id are required"

def errExecutionInvalid : String := "execution reference needs both a source system and a source id"

def errCorrelationBounds : String := "correlation field exceeds its length bound"

/-- The business thing an effect acts on. -/
structure SubjectRef where
  type : String := ""
  id : String := ""
  deriving DecidableEq

def SubjectRef.zero (s : SubjectRef) : Bool := Text.trimSpace s.type == "" && Text.trimSpace s.id == ""

/-- The run that acted on a subject, in the system that performed it. -/
structure ExecutionRef where
  sourceSystem : String := ""
  sourceID : String := ""
  deriving DecidableEq

def sourceRhinoQ : String := "rhinoq"

def forJob (jobID : String) : ExecutionRef := { sourceSystem := sourceRhinoQ, sourceID := jobID }

/-- Two trimmed parts, both present and within their bounds. -/
def normalizePair (left right : String) (leftBytes rightBytes : ℕ) (missing : String) : Except String (String × String) :=
  let left := Text.trimSpace left
  let right := Text.trimSpace right
  if left = "" ∨ right = "" then .error missing
  else if left.utf8ByteSize > leftBytes ∨ right.utf8ByteSize > rightBytes then .error errCorrelationBounds
  else .ok (left, right)

def SubjectRef.normalize (s : SubjectRef) : Except String SubjectRef := do
  let (type, id) ← normalizePair s.type s.id maxTypeBytes maxIDBytes errSubjectRequired
  return { type, id }

def ExecutionRef.normalize (e : ExecutionRef) : Except String ExecutionRef := do
  let (sourceSystem, sourceID) ←
    normalizePair e.sourceSystem e.sourceID maxSourceBytes maxIDBytes errExecutionInvalid
  return { sourceSystem, sourceID }

def ExecutionRef.isRhinoQJob (e : ExecutionRef) : Bool := Text.trimSpace e.sourceSystem == sourceRhinoQ

/-- The job a reference points at, if it is one this runtime leased. -/
def ExecutionRef.jobID (e : ExecutionRef) : Option String :=
  if !e.isRhinoQJob then none
  else
    let id := Text.trimSpace e.sourceID
    if id = "" then none else some id

end Correlation

namespace Effect

inductive State
  | pending | confirmed | uncertain | rejected | notHappened
  deriving DecidableEq

def State.text : State → String
  | .pending => "pending"
  | .confirmed => "confirmed"
  | .uncertain => "uncertain"
  | .rejected => "rejected"
  | .notHappened => "not_happened"

inductive ConfirmationKind
  | onReturn | externalSignal | verify | predicate
  | other (text : String)
  deriving DecidableEq

structure ConfirmationPolicy where
  kind : ConfirmationKind
  completedStatus : String := ""

structure Record where
  id : String
  jobID : String := ""
  execution : Correlation.ExecutionRef
  subject : Correlation.SubjectRef := {}
  businessKey : String := ""
  name : String
  idempotencyKey : String
  state : State
  irreversible : Bool := false
  externalRef : String := ""
  createdAt : Time
  /-- Written by the store from the fencing token. -/
  leaseEpoch : ℤ := 0
  deriving DecidableEq

def errInvalidRecord : String := "effect execution, name, idempotency key and created time are required"

def errInvalidTransition : String := "invalid effect transition"

def errConfirmationPolicy : String := "unsupported confirmation policy"

/-- A subject is optional; one that is given must be complete. -/
def optionalSubject (subject : Correlation.SubjectRef) : Except String Correlation.SubjectRef :=
  if subject.zero then .ok {} else subject.normalize

/-- Open an effect for an execution in any system. -/
def newExternalRecord (id : String) (execution : Correlation.ExecutionRef) (subject : Correlation.SubjectRef)
    (businessKey name key : String) (irreversible : Bool) (now : Time) : Except String Record :=
  if id = "" ∨ name = "" ∨ key = "" ∨ now.isZero then .error errInvalidRecord
  else do
    let execution ← execution.normalize
    let subject ← optionalSubject subject
    return { id, execution, subject, businessKey, name, idempotencyKey := key, state := .pending,
             irreversible, createdAt := now, jobID := execution.jobID.getD "" }

/-- Open an effect for a job. -/
def newRecord (id jobID name key : String) (irreversible : Bool) (now : Time) : Except String Record :=
  if jobID = "" then .error errInvalidRecord
  else newExternalRecord id (Correlation.forJob jobID) {} "" name key irreversible now

namespace Record

/-- Apply the declared evidence to a pending record; any other state refuses. -/
def confirm (r : Record) (policy : ConfirmationPolicy) (status : String) : Except String Record :=
  if r.state ≠ .pending then .error (errInvalidTransition ++ ": " ++ r.state.text ++ " -> confirmation")
  else
    match policy.kind with
    | .onReturn => .ok { r with state := .confirmed, externalRef := status }
    | .externalSignal | .verify => .ok r
    | .predicate =>
      if policy.completedStatus ≠ "" ∧ status = policy.completedStatus then
        .ok { r with state := .confirmed, externalRef := status }
      else .ok r
    | .other _ => .error errConfirmationPolicy

def markUncertain (r : Record) : Except String Record :=
  if r.state ≠ .pending then .error (errInvalidTransition ++ ": " ++ r.state.text ++ " -> uncertain")
  else .ok { r with state := .uncertain }

theorem confirm_eq_ok {r updated : Record}
    (success : r.confirm policy status = .ok updated) :
    r.state = .pending ∧ (updated = r ∨ updated = { r with state := .confirmed, externalRef := status }) := by
  rw [confirm] at success
  split at success
  next => cases success
  next isPending =>
    refine ⟨not_not.mp isPending, ?_⟩
    split at success
    · exact .inr (Except.ok.inj success).symm
    · exact .inl (Except.ok.inj success).symm
    · exact .inl (Except.ok.inj success).symm
    · split at success
      · exact .inr (Except.ok.inj success).symm
      · exact .inl (Except.ok.inj success).symm
    · cases success

theorem markUncertain_eq_ok {r updated : Record} (success : r.markUncertain = .ok updated) :
    r.state = .pending ∧ updated = { r with state := .uncertain } := by
  rw [markUncertain] at success
  split at success
  next => cases success
  next isPending => exact ⟨not_not.mp isPending, (Except.ok.inj success).symm⟩

end Record
end Effect
end RhinoQ.Model
