import RhinoQ.Machine.Pool
import RhinoQ.Model.ProviderOperation.Store

/-! # Calling a provider once

`IntegrityClient.ProviderOperation` as a program over the store. Every store call, the provider callback and
the readback are steps of their own. The log of callbacks and recorded transitions is read by no program.
-/

namespace RhinoQ.Model

namespace ProviderOperation

/-- `none` is the empty policy. -/
structure Request where
  taskID : String := ""
  provider : String
  operation : String
  idempotencyKey : String
  requestFingerprint : String := ""
  confirmation : Option ConfirmationPolicy := none
  retryPolicy : Option RetryPolicy := none
  deriving DecidableEq

def errConfirmationPolicy : OperationError := .message "unsupported provider confirmation policy"

def errRetryPolicy : OperationError := .message "unsupported provider retry policy"

/-- A request with its defaults applied, and whether the caller gave a readback. -/
structure Call where
  request : Request
  confirmation : ConfirmationPolicy
  retryPolicy : RetryPolicy
  readback : Bool
  deriving DecidableEq

/-- The checks of `ProviderOperation` before its first store call. -/
def Request.validate (request : Request) (callback readback : Bool) : Except OperationError Call :=
  let call : Call :=
    { request, readback, confirmation := request.confirmation.getD .readback
      retryPolicy := request.retryPolicy.getD .whenAbsent }
  if !callback then .error (.message "provider call is required")
  else if !call.retryPolicy.valid then .error errRetryPolicy
  else if !call.confirmation.valid then .error errConfirmationPolicy
  else .ok call

/-- How the provider callback returned: an acceptance, an error, or an error wrapped by `NotHappened`. -/
inductive CallReturn
  | accepted (providerID evidence : String)
  | failed (text : String)
  | notHappened (text : String)

inductive Decision
  | confirmed | pending | rejected | failed | notHappened | unknown
  | other (text : String)

inductive ReadbackReturn
  | failed (text : String)
  | decided (decision : Decision) (evidence reason : String)

/-- What the environment decides at a step. -/
structure Choice where
  body : String := ""
  now : Time := 0
  later : Time := 0
  returned : CallReturn := .failed ""
  readback : ReadbackReturn := .failed ""
  taskError : Option String := none

structure Answer where
  /-- `none` is the zero record. -/
  record : Option Record := none
  errors : List OperationError := []
  deriving DecidableEq

/-- What a call does after the write it waits for. -/
inductive After
  | retried
  | accepted (providerID evidence : String)
  | notHappened (text : String)
  | unknown (text : String)
  | confirmed
  | settled (callError : Option String)
  deriving DecidableEq

/-- Where a call is suspended. -/
inductive Phase
  | beginning
  | getting (id : String)
  | calling (record : Record)
  | called (record : Record)
  | saving (copy next : Record) (evidence : Option Evidence) (after : After)
  | readingBack (record : Record) (callError : Option String)
  | answered (answer : Answer)
  deriving DecidableEq

namespace Call

variable (call : Call)

def key : String :=
  call.request.provider ++ "\x00" ++ call.request.operation ++ "\x00" ++ call.request.idempotencyKey

def newProviderOperationID (body : String) : String := "provider_op_" ++ body

def errReused : OperationError :=
  .message "provider operation idempotency key was reused with a different task, request fingerprint or policy"

/-- `Service.BeginWithFingerprint`: a key is resumed by the command that took it, and by no other. -/
def beginWithFingerprint (s : ProviderOperationStore) (id : String) (now : Time) :
    Except OperationError Record × ProviderOperationStore :=
  match newWithFingerprint id call.request.taskID call.request.provider call.request.operation
      call.request.idempotencyKey call.request.requestFingerprint call.confirmation call.retryPolicy now with
  | .error text => (.error (.message text), s)
  | .ok record =>
    match s.beginProviderOperation record with
    | (.error error, t) => (.error error, t)
    | (.ok stored, t) =>
      if stored.taskID ≠ record.taskID ∨ stored.requestFingerprint ≠ record.requestFingerprint ∨
          stored.confirmation ≠ record.confirmation ∨ stored.retryPolicy ≠ record.retryPolicy then
        (.error errReused, t)
      else (.ok stored, t)

/-- `BeginProviderOperation`, which checks the policies again before it reserves the key. -/
def beginProviderOperation (s : ProviderOperationStore) (choice : Choice) :
    Except OperationError Record × ProviderOperationStore :=
  if !call.confirmation.valid then (.error errConfirmationPolicy, s)
  else if !call.retryPolicy.valid then (.error errRetryPolicy, s)
  else call.beginWithFingerprint s (newProviderOperationID choice.body) choice.now

end Call

/-- The result of a transition on a copy: refused, nothing to write, or a write. -/
inductive Mutation
  | refused (error : OperationError)
  | unchanged
  | save (next : Record) (evidence : Option Evidence)

/-- `Service.mutate` up to its write. -/
def mutate (current : Record) (kind payload : String) (later : Time) : Except String Record → Mutation
  | .error text => .refused (.message text)
  | .ok next =>
    if next.version = current.version then .unchanged
    else if payload ≠ "" then
      .save { next with evidence := payload }
        (some { operationID := current.id, kind, payload, createdAt := later })
    else .save next none

variable (record : Record)

def Record.mutateAccept (providerID evidence : String) (choice : Choice) : Mutation :=
  mutate record "accepted" evidence choice.later (record.accept providerID choice.now)

def Record.mutateConfirm (evidence : String) (choice : Choice) : Mutation :=
  mutate record "confirmed" evidence choice.later (record.confirm evidence choice.now)

def Record.mutateResolve (state : State) (reason : String) (choice : Choice) : Mutation :=
  mutate record "resolution" reason choice.later (record.resolve state reason choice.now)

def Record.mutateRetry (choice : Choice) : Mutation :=
  mutate record "retry_authorized" "provider proved the previous request did not happen" choice.later
    (record.retry choice.now)

/-- Tell the task of an uncertain record about it. -/
def markUncertainTask (choice : Choice) : List OperationError :=
  if record.state ≠ .uncertain ∨ record.taskID = "" then [] else choice.taskError.toList.map .task

/-- The end of a readback: the error of the provider call is dropped only when a confirmation came back. -/
def settle (record : Option Record) (errors : List OperationError) : Option String → Phase
  | none => .answered { record, errors }
  | some text =>
    if errors = [] ∧ record.map (·.state) = some .confirmed then .answered { record }
    else .answered { record, errors := .provider text :: errors }

variable (call : Call)

def startReadback (record : Record) (callError : Option String) (choice : Choice) : Phase :=
  if call.readback then .readingBack record callError
  else settle (some record) (markUncertainTask record choice) callError

/-- A transition on the copy failed, or its write did; a failed write answers with the zero record. -/
def fail (record : Option Record) (error : OperationError) (choice : Choice) : After → Phase
  | .retried => .answered { record, errors := [error] }
  | .accepted _ _ => .answered { record, errors := [error] }
  | .notHappened text => .answered { record, errors := [.provider text, error] }
  | .unknown text => .answered { record, errors := [.provider text, error] }
  | .confirmed => .answered { record, errors := [error] }
  | .settled callError => settle record (error :: (record.map (markUncertainTask · choice)).getD []) callError

/-- What a record allows: a readback, an error, or the provider callback. -/
def proceed (record : Record) (choice : Choice) : Phase :=
  match record.state with
  | .accepted | .uncertain => startReadback call record none choice
  | .pending => .calling record
  | state => .answered { record := some record, errors := [.message ("provider operation is " ++ state.text)] }

/-- Wait for the write of a transition that has one; only the last transition of a call goes here. -/
def dispatchLast (copy : Record) (after : After) (choice : Choice) (done : Phase) : Mutation → Phase
  | .refused error => fail (some copy) error choice after
  | .unchanged => done
  | .save next evidence => .saving copy next evidence after

def confirmOnReturn (providerID evidence : String) (choice : Choice) : Phase :=
  let evidence := if evidence = "" then providerID else evidence
  dispatchLast record .confirmed choice (.answered { record := some record }) (record.mutateConfirm evidence choice)

/-- Go on with the record a transition left. -/
def resume (record : Record) (choice : Choice) : After → Phase
  | .retried => proceed call record choice
  | .accepted providerID evidence =>
    match call.confirmation with
    | .onReturn => confirmOnReturn record providerID evidence choice
    | .webhook => .answered { record := some record }
    | _ => startReadback call record none choice
  | .notHappened text => .answered { record := some record, errors := [.provider text] }
  | .unknown text => startReadback call record (some text) choice
  | .confirmed => .answered { record := some record }
  | .settled callError => settle (some record) (markUncertainTask record choice) callError

/-- Wait for the write of a transition that has one, and go on otherwise. -/
def dispatch (copy : Record) (after : After) (choice : Choice) (mutation : Mutation) : Phase :=
  dispatchLast copy after choice (resume call copy choice after) mutation

/-- The record a call read decides what it may do. -/
def afterGet (record : Record) (choice : Choice) : Phase :=
  match record.state with
  | .confirmed => .answered { record := some record }
  | .notHappened => dispatch call record .retried choice (record.mutateRetry choice)
  | _ => proceed call record choice

def afterCall (record : Record) (choice : Choice) : Phase :=
  match choice.returned with
  | .notHappened text => dispatch call record (.notHappened text) choice (record.mutateResolve .notHappened text choice)
  | .failed text => dispatch call record (.unknown text) choice (record.mutateResolve .uncertain text choice)
  | .accepted providerID evidence =>
    dispatch call record (.accepted providerID evidence) choice (record.mutateAccept providerID evidence choice)

def afterReadback (record : Record) (callError : Option String) (choice : Choice) : Phase :=
  let settled : After := .settled callError
  let kept := resume call record choice settled
  match choice.readback with
  | .failed text => fail (some record) (.readback text) choice settled
  | .decided decision evidence reason =>
    match decision with
    | .confirmed => dispatch call record settled choice (record.mutateConfirm evidence choice)
    | .notHappened => dispatch call record settled choice (record.mutateResolve .notHappened reason choice)
    | .rejected | .failed => dispatch call record settled choice (record.mutateResolve .failed reason choice)
    | .pending => kept
    | .unknown =>
      if record.state ≠ .uncertain then
        dispatch call record settled choice (record.mutateResolve .uncertain reason choice)
      else kept
    | .other _ => fail (some record) (.message "unsupported provider confirmation decision") choice settled

end ProviderOperation

/-- A callback of a key that starts, or a state that a write recorded under a key. -/
inductive OperationEntry
  | invoked (key : String)
  | recorded (key : String) (state : ProviderOperation.State)
  deriving DecidableEq

namespace ProviderOperation

structure Shared where
  store : ProviderOperationStore := {}
  log : List OperationEntry := []

inductive Thread
  | idle
  | operation (call : Call) (phase : Phase)
  | refused (answer : Answer)
  deriving DecidableEq

/-- The next step of a call. -/
def advance (s : Shared) (call : Call) (choice : Choice) : Phase → Option (Shared × Phase)
  | .beginning =>
    match call.beginProviderOperation s.store choice with
    | (.error error, store) => some ({ s with store }, .answered { errors := [error] })
    | (.ok record, store) => some ({ s with store }, .getting record.id)
  | .getting id =>
    match s.store.getProviderOperation id with
    | none => some (s, .answered { errors := [.notFound] })
    | some record => some (s, afterGet call record choice)
  | .calling record => some ({ s with log := s.log ++ [.invoked call.key] }, .called record)
  | .called record => some (s, afterCall call record choice)
  | .saving copy next evidence after =>
    match s.store.saveProviderOperation next copy.version evidence with
    | (.error error, store) => some ({ s with store }, fail none error choice after)
    | (.ok record, store) =>
      some ({ store, log := s.log ++ [.recorded record.key record.state] }, resume call record choice after)
  | .readingBack record callError => some (s, afterReadback call record callError choice)
  | .answered _ => none

inductive Event
  | start (t : ℕ) (request : Request) (callback readback : Bool)
  | advance (t : ℕ) (choice : Choice)
  | crash (t : ℕ)

abbrev System := RhinoQ.Pool Shared Thread

def startThread (request : Request) (callback readback : Bool) : Thread :=
  match request.validate callback readback with
  | .error error => .refused { errors := [error] }
  | .ok call => .operation call .beginning

def step (p : System) : Event → Option System
  | .start t request callback readback =>
    match p.thread t with
    | .idle => some (p.move t p.shared (startThread request callback readback))
    | _ => none
  | .advance t choice =>
    match p.thread t with
    | .operation call phase =>
      (ProviderOperation.advance p.shared call choice phase).map fun (s, phase) => p.move t s (.operation call phase)
    | _ => none
  | .crash t => some (p.move t p.shared .idle)

def machine : Machine System Event := { start := { shared := {}, thread := fun _ => .idle }, step }

end ProviderOperation
end RhinoQ.Model
