import Mathlib.Data.List.Sort
import RhinoQ.ToMathlib.FiniteMap
import RhinoQ.Model.Job.Ports

/-! # The memory job store

Every operation returns its answer with the store it leaves, so that what a failed call leaves is part of the
model. A call is one step, since the source holds the mutex for its whole body. The clock is an argument, and
so is the order in which `RequeueExpired` visits the job map.
-/

namespace RhinoQ.Model

open Ports Job Attempt

structure QueueRateLimitState where
  limit : QueueRateLimit
  windowStarted : Time := 0
  count : ℤ := 0

structure JobStore where
  nextID : ℕ := 0
  nextEvent : ℕ := 0
  jobs : FiniteMap ID Record := ∅
  attempts : FiniteMap ID (List Event) := ∅
  byIdem : FiniteMap String ID := ∅
  paused : FiniteMap String Bool := ∅
  rateLimits : FiniteMap String QueueRateLimitState := ∅
  admission : FiniteMap String Admission.Policy := ∅

namespace JobStore

variable (s : JobStore)

/-- The attempt events of one job, empty for a job without any. -/
def events (id : ID) : List Event := (s.attempts.lookup id).getD []

def putJob (record : Record) : JobStore :=
  { s with jobs := s.jobs.insert record.id record }

/-- Append evidence under the next sequence number. -/
def appendAttempt (event : Event) : JobStore :=
  let event := { event with sequence := s.nextEvent + 1 }
  { s with nextEvent := s.nextEvent + 1
           attempts := s.attempts.insert event.jobID (s.events event.jobID ++ [event]) }

/-- The generated identifier `job_%06d`. -/
def jobID (n : ℕ) : ID := "job_" ++ Text.sixDigits n

/-- A key is scoped to the execution lane, not to the handler contract. -/
def idempotencyScope (input : EnqueueInput) : String :=
  Text.trimSpace input.identity.queueName ++ "\x00" ++ input.idempotencyKey

def isPending (queueName : String) (record : Record) : Bool :=
  record.queueName == queueName && (record.state == .pending || record.state == .retryWait)

def pendingCount (queueName : String) : ℕ := FiniteMap.count (isPending queueName) s.jobs

/-- The lane's admission decision, which is no deferral when the lane has no policy. -/
def admissionDecision (identity : Identity) : Except StoreError Admission.Decision :=
  match s.admission.lookup identity.queueName with
  | none => .ok {}
  | some policy =>
    match policy.decide identity.queueName (s.pendingCount identity.queueName)
        identity.resourceClass.isCritical with
    | .error rejected => .error (.overCapacity rejected)
    | .ok decision => .ok decision

/-- The earliest run time of an admitted job. -/
def eligibleAt (now : Time) (runAfter : Duration) (decision : Admission.Decision) : Time :=
  let notBefore := now + runAfter
  if decision.deferBy > 0 then notBefore + decision.deferBy else notBefore

/-- Bind a non-empty idempotency key to the job it created. -/
def rememberKey (input : EnqueueInput) (id : ID) : JobStore :=
  if input.idempotencyKey ≠ "" then { s with byIdem := s.byIdem.insert (idempotencyScope input) id } else s

/-- The part of an enqueue that stores a job: the identifier counter is taken first and given back
when the specification is refused. -/
def enqueueNew (now : Time) (input : EnqueueInput) : Except StoreError ID × JobStore :=
  match input.identity.normalize with
  | .error text => (.error (.message text), s)
  | .ok identity =>
    if input.runAfter < 0 then (.error (.message "run-after delay must not be negative"), s)
    else
      match s.admissionDecision identity with
      | .error error => (.error error, s)
      | .ok decision =>
        let notBefore := eligibleAt now input.runAfter decision
        let s := { s with nextID := s.nextID + 1 }
        let id := jobID s.nextID
        match newRecord { id, identity, payload := input.payload, now, notBefore,
                              priority := input.priority } with
        | .error text => (.error (.message text), { s with nextID := s.nextID - 1 })
        | .ok record =>
          let record := { record with idempotencyKey := input.idempotencyKey
                                      correlationID := input.correlationID }
          (.ok id, (s.putJob record).rememberKey input id)

def enqueueLocked (now : Time) (input : EnqueueInput) : Except StoreError ID × JobStore :=
  match if input.idempotencyKey ≠ "" then s.byIdem.lookup (idempotencyScope input) else none with
  | some id => (.ok id, s)
  | none => s.enqueueNew now input

def enqueue (now : Time) (input : EnqueueInput) : Except StoreError ID × JobStore :=
  s.enqueueLocked now input

/-- The loop of a batch, stopped at its first error. Each input comes with the clock reading its
turn would take. -/
def enqueueEach (s : JobStore) : List (Time × EnqueueInput) → Except StoreError (List ID) × JobStore
  | [] => (.ok [], s)
  | (now, input) :: rest =>
    match s.enqueueLocked now input with
    | (.error error, t) => (.error error, t)
    | (.ok id, t) =>
      match t.enqueueEach rest with
      | (.error error, u) => (.error error, u)
      | (.ok ids, u) => (.ok (id :: ids), u)

/-- All inputs or none: an error puts the jobs, the keys and the counter back. -/
def enqueueBatch (inputs : List (Time × EnqueueInput)) : Except StoreError (List ID) × JobStore :=
  if inputs.length = 0 then (.error (.message "enqueue batch must contain at least one job"), s)
  else if inputs.length > maxEnqueueBatch then (.error (.message "enqueue batch exceeds 1000 jobs"), s)
  else
    match s.enqueueEach inputs with
    | (.error error, t) => (.error error, { t with jobs := s.jobs, byIdem := s.byIdem, nextID := s.nextID })
    | (.ok ids, t) => (.ok ids, t)

def claimable (record : Record) (now : Time) : Bool :=
  (record.state == .pending || record.state == .retryWait) && decide (record.notBefore ≤ now)

/-- Effective priority first, then creation time, then identifier. -/
def claimLess (now : Time) (a b : Record) : Bool :=
  let left := effectivePriority a.priority a.notBefore now
  let right := effectivePriority b.priority b.notBefore now
  if left ≠ right then decide (left > right)
  else if a.createdAt ≠ b.createdAt then decide (a.createdAt < b.createdAt)
  else decide (a.id < b.id)

def sortByClaimOrder (records : List Record) (now : Time) : List Record :=
  records.insertionSort fun a b => claimLess now b a = false

variable (name : String)

/-- Take one slot of the lane's fixed window; `none` when the window is full. -/
def reserveRateSlot (now : Time) : Option JobStore :=
  match s.rateLimits.lookup name with
  | none => some s
  | some state =>
    if state.windowStarted.isZero ∨ ¬now < state.windowStarted + state.limit.window then
      some { s with rateLimits := s.rateLimits.insert name { state with windowStarted := now, count := 1 } }
    else if state.count ≥ state.limit.max then none
    else some { s with rateLimits := s.rateLimits.insert name { state with count := state.count + 1 } }

variable (input : ClaimInput)

/-- The record a claim stores. -/
def leaseRecord (record : Record) : Record :=
  { record with
    state := .leased
    attempts := record.attempts + 1
    blockedReason := .unset
    leaseOwner := input.owner
    leaseEpoch := record.leaseEpoch + 1
    leaseUntil := input.now + input.leaseDuration }

def claimEvent (record : Record) : Event :=
  { jobID := record.id, attempt := record.attempts, leaseOwner := record.leaseOwner,
    leaseEpoch := record.leaseEpoch, kind := .claimed, resultState := .leased, occurredAt := input.now }

/-- Lease one candidate: the record and its event are written together. -/
def leaseJob (record : Record) : JobStore :=
  (s.putJob (leaseRecord input record)).appendAttempt (claimEvent input (leaseRecord input record))

/-- The claim loop over sorted candidates while `room` jobs may still be leased. -/
def claimEach (s : JobStore) (input : ClaimInput) : ℕ → List Record → List Record × JobStore
  | 0, _ => ([], s)
  | _ + 1, [] => ([], s)
  | room + 1, record :: rest =>
    match s.reserveRateSlot record.queueName input.now with
    | none => s.claimEach input (room + 1) rest
    | some t =>
      let (claimed, final) := (t.leaseJob input record).claimEach input room rest
      (leaseRecord input record :: claimed, final)

def isPaused : Bool := (s.paused.lookup name).getD false

def subscribed (queueNames : List String) (record : Record) : Bool :=
  queueNames.isEmpty || queueNames.contains record.queueName

def candidates : List Record :=
  (FiniteMap.values s.jobs).filter fun record =>
    subscribed input.queueNames record && claimable record input.now && !s.isPaused record.queueName

def validateClaim : Except String Unit := do
  if input.owner = "" ∨ input.limit ≤ 0 ∨ input.leaseDuration ≤ 0 ∨ input.now.isZero then
    throw "claim requires an owner, a positive limit, a lease duration and a current time"
  validateClaimLimit input.limit
  validateClaimQueues input.queueNames

def claim : Except StoreError (List Record) × JobStore :=
  match validateClaim input with
  | .error text => (.error (.message text), s)
  | .ok () =>
    let (claimed, t) := s.claimEach input input.limit.toNat (sortByClaimOrder (s.candidates input) input.now)
    (.ok claimed, t)

def setQueueRateLimit (limit : QueueRateLimit) : Except StoreError Unit × JobStore :=
  if name = "" ∨ limit.max ≤ 0 ∨ limit.window < Duration.millisecond then
    (.error (.message "queue name, positive max and a window of at least one millisecond are required"), s)
  else (.ok (), { s with rateLimits := s.rateLimits.insert name { limit } })

/-- The lane controls that need nothing but a name. -/
def withQueueName (act : JobStore) : Except StoreError Unit × JobStore :=
  if name = "" then (.error (.message "queue name is required"), s) else (.ok (), act)

def removeQueueRateLimit : Except StoreError Unit × JobStore :=
  s.withQueueName name { s with rateLimits := s.rateLimits.erase name }

def setQueueAdmission (policy : Admission.Policy) : Except StoreError Unit × JobStore :=
  if name = "" then (.error (.message "queue name is required"), s)
  else
    match policy.normalize.validate with
    | .error text => (.error (.message text), s)
    | .ok () => (.ok (), { s with admission := s.admission.insert name policy.normalize })

def removeQueueAdmission : Except StoreError Unit × JobStore :=
  s.withQueueName name { s with admission := s.admission.erase name }

def pauseQueue : Except StoreError Unit × JobStore :=
  s.withQueueName name { s with paused := s.paused.insert name true }

def resumeQueue : Except StoreError Unit × JobStore :=
  s.withQueueName name { s with paused := s.paused.erase name }

variable (lease : Lease) (now : Time)

/-- Resolve a fencing token to the live record: owner and epoch must both match and the lease must
not have expired. -/
def authoritative : Except LeaseDetail Record :=
  match s.jobs.lookup lease.jobID with
  | none => .error .noSuchJob
  | some record =>
    if record.state ≠ .leased then .error (.notLeased record.state)
    else if record.leaseOwner ≠ lease.owner then .error (.leasedTo record.leaseOwner)
    else if record.leaseEpoch ≠ lease.epoch then .error (.atEpoch record.leaseEpoch)
    else if ¬record.leaseUntil > now then .error (.expiredAt record.leaseUntil)
    else .ok record

/-- Act on the record a lease resolves to, or refuse and leave the store alone. -/
def fenced {α : Type} (s : JobStore) (lease : Lease) (now : Time) (act : Record → α × JobStore) :
    Except StoreError α × JobStore :=
  match s.authoritative lease now with
  | .error detail => (.error (.leaseLost lease detail), s)
  | .ok record => (.ok (act record).1, (act record).2)

def checkLease : Except StoreError Unit :=
  if !lease.valid ∨ now.isZero then .error (.leaseLost lease .incomplete)
  else (s.fenced lease now fun _ => ((), s)).1

def renewRecord (extension : Duration) (record : Record) : Record :=
  { record with leaseUntil := now + extension }

def renewLease (extension : Duration) : Except StoreError LeaseStatus × JobStore :=
  if !lease.valid ∨ extension ≤ 0 ∨ now.isZero then (.error (.leaseLost lease .incomplete), s)
  else s.fenced lease now fun record =>
    let record := renewRecord now extension record
    ({ expiresAt := record.leaseUntil, cancelRequested := record.cancelRequested }, s.putJob record)

/-- The evidence that closes the execution holding `lease`. -/
def closingEvent (record : Record) (attempt : ℕ) (kind : Kind) : Event :=
  { jobID := record.id, attempt, leaseOwner := lease.owner, leaseEpoch := lease.epoch, kind,
    resultState := record.state, occurredAt := now }

def completeRecord (record : Record) : Record :=
  { record with state := .succeeded, leaseOwner := "", leaseUntil := 0 }

def complete : Except StoreError Unit × JobStore :=
  if !lease.valid ∨ now.isZero then (.error (.leaseLost lease .incomplete), s)
  else s.fenced lease now fun record =>
    let record := completeRecord record
    ((), (s.putJob record).appendAttempt (closingEvent lease now record record.attempts .succeeded))

/-- The attempt is given back with the lease. -/
def releaseRecord (record : Record) : Record :=
  { record with state := .retryWait, notBefore := now, leaseOwner := "", leaseUntil := 0
                attempts := if record.attempts > 0 then record.attempts - 1 else record.attempts }

/-- Return a job that was never executed; the event keeps the attempt's number. -/
def releaseLease : Except StoreError Unit × JobStore :=
  if !lease.valid ∨ now.isZero then (.error (.leaseLost lease .incomplete), s)
  else s.fenced lease now fun record =>
    let releasedAttempt := record.attempts
    let record := releaseRecord now record
    ((), (s.putJob record).appendAttempt (closingEvent lease now record releasedAttempt .released))

/-- The record a failure transition stores. -/
def failRecord (transition : FailureTransition) (record : Record) : Record :=
  let retryIn := if transition.retryIn < 0 then 0 else transition.retryIn
  { record with
    state := transition.state
    notBefore := now + retryIn
    blockedReason :=
      if transition.state = .blocked then
        if transition.blockedReason = .unset then .unclassified else transition.blockedReason
      else .unset
    leaseOwner := ""
    leaseUntil := 0 }

def failEvent (transition : FailureTransition) (record : Record) (kind : Kind) : Event :=
  { closingEvent lease now record record.attempts kind with
    failureClass := transition.failureClass, blockedReason := record.blockedReason }

def fail (transition : FailureTransition) : Except StoreError Unit × JobStore :=
  if !lease.valid ∨ now.isZero then (.error (.leaseLost lease .incomplete), s)
  else
    match resultKind transition.state with
    | none => (.error (.message "invalid failure state"), s)
    | some kind => s.fenced lease now fun record =>
      let record := failRecord now transition record
      ((), (s.putJob record).appendAttempt (failEvent lease now transition record kind))

def cancelRecord (record : Record) : Record :=
  { record with state := .cancelled, blockedReason := .unset, leaseOwner := "", leaseUntil := 0 }

/-- A waiting or blocked job is cancelled at once, a leased one only gets the flag. -/
def requestCancel (id : ID) : Except StoreError Unit × JobStore :=
  match s.jobs.lookup id with
  | none => (.error .jobNotFound, s)
  | some record =>
    match record.state with
    | .pending | .retryWait | .blocked =>
      (.ok (), { s with jobs := s.jobs.insert id (cancelRecord record) })
    | .leased => (.ok (), { s with jobs := s.jobs.insert id { record with cancelRequested := true } })
    | .succeeded | .dead | .cancelled => (.ok (), s)

variable (input : ReapInput)

/-- The record an expired lease leaves: parked once the job is poisoned, otherwise waiting again. -/
def expireRecord (record : Record) : Record :=
  let record := { record with crashCount := record.crashCount + 1, leaseOwner := "", leaseUntil := 0
                              notBefore := input.now }
  if input.protection.normalize.isPoisoned record.crashCount then
    { record with state := .blocked, blockedReason := .poisonJob }
  else { record with state := .retryWait }

def isExpired (now : Time) (record : Record) : Bool :=
  record.state == .leased && !record.leaseUntil.isZero && decide (record.leaseUntil ≤ now)

/-- The evidence of an expired lease, under the owner that lost it. -/
def expireEvent (id : ID) (record : Record) : Event :=
  let expired := expireRecord input record
  { jobID := id, attempt := expired.attempts, leaseOwner := record.leaseOwner,
    leaseEpoch := expired.leaseEpoch, kind := .leaseExpired, resultState := expired.state,
    blockedReason := expired.blockedReason, occurredAt := input.now }

/-- Count one expired lease in the batch. -/
def countExpired (id : ID) (record : Record) (result : ReapResult) : ReapResult :=
  let expired := expireRecord input record
  { result with
    expired := result.expired ++ [{ jobID := id, epoch := expired.leaseEpoch }]
    blocked := if expired.state = .blocked then result.blocked + 1 else result.blocked
    requeued := if expired.state = .blocked then result.requeued else result.requeued + 1 }

def expireJob (id : ID) (record : Record) : JobStore :=
  { s with jobs := s.jobs.insert id (expireRecord input record) }.appendAttempt (expireEvent input id record)

/-- The reaper's loop over the job map in the given order, stopped when the batch is full. -/
def requeueEach (input : ReapInput) (limit : ℤ) : JobStore → ReapResult → List ID → ReapResult × JobStore
  | s, result, [] => (result, s)
  | s, result, id :: rest =>
    if result.expired.length ≥ limit then (result, s)
    else
      match s.jobs.lookup id with
      | none => requeueEach input limit s result rest
      | some record =>
        if isExpired input.now record then
          requeueEach input limit (s.expireJob input id record) (countExpired input id record result) rest
        else requeueEach input limit s result rest

def requeueExpired (order : List ID) : Except StoreError ReapResult × JobStore :=
  if input.now.isZero then (.error (.message "reaper time is required"), s)
  else
    let limit := normalizeReapLimit input.limit
    let (result, t) := requeueEach input limit s {} order
    (.ok { result with saturated := decide (result.expired.length ≥ limit) }, t)

end JobStore
end RhinoQ.Model
