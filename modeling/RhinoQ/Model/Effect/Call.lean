import RhinoQ.Model.Effect.Store

/-! # Running an effect under the ledger

`Job.Effect` and `Client.ConfirmEffect` as programs over the ledger. A call is suspended in one of the phases
below between two store calls and around the provider callback. Answers carry the errors in the order the
source joins them.
-/

namespace RhinoQ.Model.Effect

open Ports

structure EffectRequest where
  name : String
  key : String
  irreversible : Bool := false
  /-- `none` is the empty policy, which defaults to on-return. -/
  confirm : Option ConfirmationKind := none
  completedStatus : String := ""
  deriving DecidableEq

def EffectRequest.policy (r : EffectRequest) : ConfirmationPolicy :=
  { kind := r.confirm.getD .onReturn, completedStatus := r.completedStatus }

def EffectRequest.normalize (r : EffectRequest) : Except String EffectRequest :=
  if r.name = "" ∨ r.key = "" then .error "effect name and idempotency key are required"
  else
    match r.policy.kind with
    | .other text => .error ("unsupported confirmation policy: " ++ text)
    | .predicate =>
      if r.completedStatus = "" then
        .error "ConfirmWhenStatus requires a completed status to compare against"
      else .ok { r with confirm := some .predicate }
    | kind => .ok { r with confirm := some kind }

/-- What the caller sees of a ledger record; the zero result has no state. -/
structure EffectResult where
  id : String := ""
  name : String := ""
  state : Option State := none
  externalRef : String := ""
  irreversible : Bool := false
  deriving DecidableEq

def effectResult (record : Record) : EffectResult :=
  { id := record.id, name := record.name, state := some record.state
    externalRef := record.externalRef, irreversible := record.irreversible }

inductive EffectError
  | message (text : String)
  | uncertain (name key : String)
  | unresolved (name key : String)
  | store (error : StoreError)
  | provider (text : String)
  deriving DecidableEq

structure Answer where
  result : EffectResult := {}
  errors : List EffectError := []
  deriving DecidableEq

/-- How the provider callback returned: a reference, an error, or an error wrapped by `NotHappened`. -/
inductive ProviderReturn
  | reference (text : String)
  | failed (text : String)
  | notHappened (text : String)
  deriving DecidableEq

def ProviderReturn.errors : ProviderReturn → List EffectError
  | .reference _ => []
  | .failed text => [.provider text]
  | .notHappened text => [.provider text]

/-- A call of `Job.Effect` under a lease, with its normalized request. -/
structure EffectCall where
  lease : Lease
  request : EffectRequest
  deriving DecidableEq

namespace EffectCall

variable (call : EffectCall)

def key : String :=
  EffectStore.effectKey call.lease.jobID call.request.name call.request.key

def generatedID : String :=
  "effect_" ++ call.lease.jobID ++ "_" ++ call.request.name ++ "_" ++ call.request.key

def lookup (s : EffectStore) : Option Record :=
  s.getEffect call.lease.jobID call.request.name call.request.key

theorem lookup_eq (s : EffectStore) : call.lookup s = s.effects.lookup call.key := rfl

/-- The state switch of `beginEffect`: an answer, or the identifier to open the effect with. -/
def decide (existing : Option Record) : Answer ⊕ String :=
  match existing with
  | none => .inr call.generatedID
  | some record =>
    let id := if record.id = "" then call.generatedID else record.id
    match record.state with
    | .confirmed => .inl { result := effectResult record }
    | .uncertain =>
      .inl { result := effectResult record, errors := [.uncertain call.request.name call.request.key] }
    | .pending =>
      if record.leaseEpoch ≠ call.lease.epoch then
        .inl { result := effectResult record, errors := [.unresolved call.request.name call.request.key] }
      else .inr id
    | .rejected | .notHappened => .inr id

/-- `Service.Begin` up to the fence of its `BeginEffect`: build the record and check the lease. -/
def serviceBegin (jobs : JobStore) (id : String) (now : Time) : Except EffectError Record :=
  match newRecord id call.lease.jobID call.request.name call.request.key call.request.irreversible now with
  | .error text => .error (.message text)
  | .ok record =>
    match EffectStore.checkFence jobs call.lease now record with
    | .error error => .error (.store error)
    | .ok () => .ok record

/-- `Service.MarkUncertain` on the record an unknown result read. -/
def resolveUnknown (s : EffectStore) (record : Record) : Except EffectError Record × EffectStore :=
  match record.markUncertain with
  | .error text => (.error (.message text), s)
  | .ok updated =>
    match s.saveEffect updated with
    | (.error error, t) => (.error (.store error), t)
    | (.ok (), t) => (.ok updated, t)

/-- `Service.Confirm` up to its write: the lease check and the transition of the record read. -/
def checkAndConfirm (jobs : JobStore) (now : Time) (record : Record) (reference : String) :
    Except EffectError Record :=
  match jobs.checkLease call.lease now with
  | .error error => .error (.store error)
  | .ok () =>
    match record.confirm call.request.policy reference with
    | .error text => .error (.message text)
    | .ok updated => .ok updated

/-- The answer after a resolution that read `record`. -/
def answer (record : Record) (returned : ProviderReturn) : Except EffectError Record → Answer
  | .error error => { result := effectResult record, errors := returned.errors ++ [error] }
  | .ok resolved => { result := effectResult resolved, errors := returned.errors }

end EffectCall

/-- A call whose `BeginEffect` returned `opened`, and the place of its invocation among all. -/
structure Flight where
  opened : Record
  index : ℕ
  deriving DecidableEq

/-- Where a call of `Job.Effect` is suspended. The lease is checked in `fencing` and `confirming`, and what it guards is
written in `opening` and `saving`. -/
inductive Phase
  | reading
  | fencing (id : String)
  | opening (record : Record)
  | invoking (opened : Record)
  | running (flight : Flight)
  | returned (flight : Flight) (result : ProviderReturn)
  | resolving (flight : Flight) (result : ProviderReturn) (record : Record)
  | confirming (flight : Flight) (result : ProviderReturn) (now : Time) (record updated : Record)
  | saving (flight : Flight) (result : ProviderReturn) (record updated : Record)
  | answered (answer : Answer)
  deriving DecidableEq

/-- Where a call of `Client.ConfirmEffect` is suspended. -/
inductive SignalPhase
  | reading
  | saving (record updated : Record)
  | answered (answer : Answer)
  deriving DecidableEq

/-- A provider signal for an effect of a job. -/
structure Signal where
  jobID : String
  name : String
  key : String
  reference : String
  deriving DecidableEq

namespace Signal

/-- The read of a signal and its transition of the copy. -/
def read (signal : Signal) (s : EffectStore) : SignalPhase :=
  match s.getEffect signal.jobID signal.name signal.key with
  | none => .answered { errors := [.message "effect not found"] }
  | some record =>
    match record.confirm { kind := .onReturn } signal.reference with
    | .error text => .answered { result := effectResult record, errors := [.message text] }
    | .ok updated => .saving record updated

/-- The write of a signal carries no lease. -/
def save (s : EffectStore) (record updated : Record) : Answer × EffectStore :=
  match s.saveEffect updated with
  | (.error error, t) => ({ result := effectResult record, errors := [.store error] }, t)
  | (.ok (), t) => ({ result := effectResult updated }, t)

end Signal
end RhinoQ.Model.Effect
