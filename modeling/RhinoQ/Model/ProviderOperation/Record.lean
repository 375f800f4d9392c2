import RhinoQ.Model.Basic

/-! # Provider operations

One idempotent call to an external provider. Every transition that changes the record takes one version.
-/

namespace RhinoQ.Model.ProviderOperation

open Text

inductive State
  | pending | accepted | confirmed | failed | notHappened | rejected | uncertain
  deriving DecidableEq

def State.text : State → String
  | .pending => "pending"
  | .accepted => "accepted"
  | .confirmed => "confirmed"
  | .failed => "failed"
  | .notHappened => "not_happened"
  | .rejected => "rejected"
  | .uncertain => "uncertain"

inductive ConfirmationPolicy
  | onReturn | readback | webhook
  | other (text : String)
  deriving DecidableEq

def ConfirmationPolicy.valid : ConfirmationPolicy → Bool
  | .other _ => false
  | _ => true

inductive RetryPolicy
  | never | whenAbsent
  | other (text : String)
  deriving DecidableEq

def RetryPolicy.valid : RetryPolicy → Bool
  | .other _ => false
  | _ => true

structure Evidence where
  sequence : ℤ := 0
  operationID : String
  kind : String
  payload : String
  createdAt : Time
  deriving DecidableEq

structure Record where
  id : String
  taskID : String := ""
  provider : String
  operation : String
  idempotencyKey : String
  requestFingerprint : String := ""
  confirmation : ConfirmationPolicy
  retryPolicy : RetryPolicy
  state : State
  providerID : String := ""
  evidence : String := ""
  reason : String := ""
  version : ℤ
  createdAt : Time
  updatedAt : Time
  deriving DecidableEq

def maxFingerprintBytes : ℕ := 128

def errInvalidRecord : String := "provider operation requires id, provider, operation, idempotency key and time"

def errInvalidTransition : String := "invalid provider operation transition"

def newWithFingerprint (id taskID provider operation key fingerprint : String) (confirmation : ConfirmationPolicy)
    (retryPolicy : RetryPolicy) (now : Time) : Except String Record :=
  if trimSpace id = "" ∨ trimSpace provider = "" ∨ trimSpace operation = "" ∨
      trimSpace key = "" ∨ trimSpace fingerprint ≠ fingerprint ∨
      fingerprint.utf8ByteSize > maxFingerprintBytes ∨ !confirmation.valid ∨ !retryPolicy.valid ∨ now.isZero then
    .error errInvalidRecord
  else
    .ok { id, taskID := trimSpace taskID, provider, operation, idempotencyKey := key
          requestFingerprint := fingerprint, confirmation, retryPolicy, state := .pending, version := 1
          createdAt := now, updatedAt := now }

namespace Record

variable (r : Record)

def accept (providerID : String) (now : Time) : Except String Record :=
  if r.state = .accepted ∧ r.providerID = providerID then .ok r
  else if r.state ≠ .pending ∨ trimSpace providerID = "" ∨ now.isZero then .error errInvalidTransition
  else .ok { r with state := .accepted, providerID, version := r.version + 1, updatedAt := now }

def confirm (evidence : String) (now : Time) : Except String Record :=
  if r.state = .confirmed then .ok r
  else if (r.state ≠ .accepted ∧ r.state ≠ .uncertain) ∨ trimSpace evidence = "" ∨ now.isZero then
    .error errInvalidTransition
  else .ok { r with state := .confirmed, evidence, reason := "", version := r.version + 1, updatedAt := now }

def resolve (state : State) (reason : String) (now : Time) : Except String Record :=
  if state ≠ .notHappened ∧ state ≠ .rejected ∧ state ≠ .failed ∧ state ≠ .uncertain then
    .error errInvalidTransition
  else if r.state ≠ .pending ∧ r.state ≠ .accepted ∧ r.state ≠ .uncertain then .error errInvalidTransition
  else if (state ≠ .uncertain ∧ trimSpace reason = "") ∨ now.isZero then .error errInvalidTransition
  else if r.state = state ∧ r.reason = reason then .ok r
  else .ok { r with state, reason, version := r.version + 1, updatedAt := now }

def retry (now : Time) : Except String Record :=
  if r.state ≠ .notHappened ∨ r.retryPolicy ≠ .whenAbsent ∨ now.isZero then .error errInvalidTransition
  else
    .ok { r with
      state := .pending, reason := "", providerID := "", evidence := ""
      version := r.version + 1, updatedAt := now }

/-- The provider, operation and idempotency key a record is looked up by. -/
def key : String := r.provider ++ "\x00" ++ r.operation ++ "\x00" ++ r.idempotencyKey

/-- A transition that changes the record keeps its identity and takes one version. -/
structure Advances (r next : Record) : Prop where
  id : next.id = r.id
  key : next.key = r.key
  version : next.version = r.version + 1

variable {now : Time} {next r : Record}

theorem accept_of_pending {providerID : String} (pending : r.state = .pending)
    (success : r.accept providerID now = .ok next) : Advances r next ∧ next.state = .accepted := by
  unfold accept at success
  split at success
  next already =>
    rw [pending] at already
    cases already.1
  next =>
    split at success
    · cases success
    cases success
    exact ⟨⟨rfl, rfl, rfl⟩, rfl⟩

theorem confirm_of_ne {evidence : String} (open_state : r.state ≠ .confirmed) (success : r.confirm evidence now = .ok next) :
    Advances r next ∧ (r.state = .accepted ∨ r.state = .uncertain) ∧ next.state = .confirmed := by
  unfold confirm at success
  rw [if_neg open_state] at success
  split at success
  · cases success
  rename_i guard
  cases success
  have waiting := (not_or.mp guard).1
  exact ⟨⟨rfl, rfl, rfl⟩, by tauto, rfl⟩

theorem resolve_of_ne {state : State} {reason : String} (change : r.state ≠ state)
    (success : r.resolve state reason now = .ok next) : Advances r next ∧ next.state = state := by
  unfold resolve at success
  split at success
  · cases success
  split at success
  · cases success
  split at success
  · cases success
  rw [if_neg fun same => change same.1] at success
  cases success
  exact ⟨⟨rfl, rfl, rfl⟩, rfl⟩

theorem retry_eq_ok (success : r.retry now = .ok next) :
    Advances r next ∧ r.state = .notHappened ∧ next.state = .pending := by
  unfold retry at success
  split at success
  · cases success
  rename_i guard
  cases success
  exact ⟨⟨rfl, rfl, rfl⟩, not_not.mp (not_or.mp guard).1, rfl⟩

end Record
end RhinoQ.Model.ProviderOperation
