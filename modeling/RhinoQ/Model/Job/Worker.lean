import RhinoQ.Machine.Pool
import RhinoQ.Model.Job.Retry
import RhinoQ.Model.Job.System

/-! # In-process workers and the remote worker API

An in-process worker claims jobs and gives each claimed record to a goroutine, which hands the job back or
runs its handler and writes the result. A panic of a handler and the death of a process both end a goroutine
where it stands. A remote worker reports failures with `FailJob`, which takes the attempt from the report.
-/

namespace RhinoQ.Model

open Ports Job Duration

/-- The fencing token of a claimed record. -/
def Ports.leaseFor (record : Record) : Lease :=
  { jobID := record.id, owner := record.leaseOwner, epoch := record.leaseEpoch, expiresAt := record.leaseUntil }

namespace Worker

/-- What bounds the executions of a job, as the settings of a runtime give it. -/
structure Config where
  maxAttempts : ℤ := 0
  retryBaseDelay : Duration := 0
  retryMaxDelay : Duration := 0
  reapBatchLimit : ℤ := 0
  maxWorkerCrashes : ℤ := 0

namespace Config

variable (config : Config)

def withDefaults : Config :=
  { config with
    maxAttempts := if config.maxAttempts ≤ 0 then 3 else config.maxAttempts
    retryBaseDelay := if config.retryBaseDelay ≤ 0 then second else config.retryBaseDelay
    retryMaxDelay := if config.retryMaxDelay ≤ 0 then minute else config.retryMaxDelay }

/-- The policy `RunWorker` gives its worker. -/
def policy : Retry.Policy :=
  let settings := config.withDefaults
  { maxAttempts := settings.maxAttempts, baseDelay := settings.retryBaseDelay,
    maxDelay := settings.retryMaxDelay, jitter := 1 / 5 }

/-- The protection `RunWorker` gives its reaper, as the reaper normalizes it. -/
def protection : Protection := Protection.normalize { maxWorkerCrashesPerJob := config.withDefaults.maxWorkerCrashes }

def reapInput (now : Time) : ReapInput :=
  { now, protection := config.protection, limit := normalizeReapLimit config.withDefaults.reapBatchLimit }

end Config

/-- What a handler returned. An error that was not classified is `unknown`. -/
inductive Result
  | ok
  | failed (cls : Retry.Class) (retryAfter : Duration)
  deriving DecidableEq

/-- What the heartbeat has learned. -/
structure Beat where
  lost : Bool := false
  cancelled : Bool := false

/-- Where the goroutine of one claimed record stands. -/
inductive Goroutine
  | idle
  | dispatched (record : Record)
  | running (record : Record) (beat : Beat)
  | closing (record : Record) (beat : Beat) (result : Result)

/-- The calls that clients and operators make themselves. A replay is not among them. -/
def outside : JobCall → Bool
  | .enqueue _ _ | .enqueueBatch _ | .requestCancel _ => true
  | .setQueueRateLimit _ _ | .removeQueueRateLimit _ | .setQueueAdmission _ _ | .removeQueueAdmission _ => true
  | .pauseQueue _ | .resumeQueue _ => true
  | _ => false

inductive Event
  | call (call : JobCall)
  | claim (input : ClaimInput) (goroutines : List ℕ)
  | release (t : ℕ) (now : Time)
  | start (t : ℕ) (registered : Bool)
  | heartbeat (t : ℕ) (now : Time) (extension : Duration)
  | returned (t : ℕ) (result : Result)
  | close (t : ℕ) (now : Time) (sample : ℚ)
  | crash (t : ℕ)
  | reap (now : Time) (order : List ID)

abbrev State := Pool JobSystem Goroutine

/-- Give each record to a goroutine that is not in use. Records without one are lost with their process. -/
def dispatch (p : State) : List (ℕ × Record) → Option State
  | [] => some p
  | (t, record) :: rest =>
    match p.thread t with
    | .idle => dispatch (p.move t p.shared (.dispatched record)) rest
    | _ => none

/-- The write that ends an execution, from the attempt that was claimed. A lost lease writes nothing. -/
def closingCall (policy : Retry.Policy) (record : Record) (beat : Beat) (result : Result) (now : Time) (sample : ℚ) :
    Option JobCall :=
  if beat.lost then none
  else if beat.cancelled then some (.fail (leaseFor record) now { state := .cancelled })
  else
    match result with
    | .ok => some (.complete (leaseFor record) now)
    | .failed cls retryAfter => some (.fail (leaseFor record) now (policy.transition cls record.attempts retryAfter sample))

/-- What a renewal tells the heartbeat. -/
def Beat.after (beat : Beat) : Except StoreError LeaseStatus → Beat
  | .error (.leaseLost _ _) => { beat with lost := true }
  | .error _ => beat
  | .ok status => { beat with cancelled := status.cancelRequested }

section
variable (codec : Recovery.Codec) (config : Config)

/-- A store call of goroutine `t`, after which it stands at `next`. -/
def callFrom (p : State) (t : ℕ) (call : JobCall) (next : Goroutine) : Option State :=
  (p.shared.step codec call).map fun shared => p.move t shared next

def step (p : State) : Event → Option State
  | .call call => if outside call then (p.shared.step codec call).map p.update else none
  | .claim input goroutines =>
    let (answer, jobs) := p.shared.jobs.claim input
    dispatch (p.update { p.shared with jobs }) (goroutines.zip (answer.toOption.getD []))
  | .release t now =>
    match p.thread t with
    | .dispatched record => callFrom codec p t (.releaseLease (leaseFor record) now) .idle
    | _ => none
  | .start t registered =>
    match p.thread t with
    | .dispatched record =>
      some (p.move t p.shared (if registered then .running record {} else .closing record {} (.failed .permanent 0)))
    | _ => none
  | .heartbeat t now extension =>
    match p.thread t with
    | .running record beat =>
      if beat.lost || beat.cancelled then none
      else
        let answer := (p.shared.jobs.renewLease (leaseFor record) now extension).1
        callFrom codec p t (.renewLease (leaseFor record) now extension) (.running record (beat.after answer))
    | _ => none
  | .returned t result =>
    match p.thread t with
    | .running record beat => some (p.move t p.shared (.closing record beat result))
    | _ => none
  | .close t now sample =>
    match p.thread t with
    | .closing record beat result =>
      match closingCall config.policy record beat result now sample with
      | none => some (p.move t p.shared .idle)
      | some call => callFrom codec p t call .idle
    | _ => none
  | .crash t => some (p.move t p.shared .idle)
  | .reap now order => (p.shared.step codec (.requeueExpired (config.reapInput now) order)).map p.update

def machine : Machine State Event := { start := { shared := {}, thread := fun _ => .idle }, step := step codec config }

end

end Worker

namespace Remote

/-- What `FailJob` reads of the error envelope. -/
structure FailureReport where
  retryClass : String
  retryAfter : Duration := 0
  attempt : ℤ := 0
  deriving DecidableEq

/-- An empty or unrecognised class is unknown. -/
def FailureReport.cls (report : FailureReport) : Retry.Class :=
  match report.retryClass with
  | "transient" => .transient
  | "permanent" => .permanent
  | "rate_limited" => .rateLimited
  | "dependency_down" => .dependencyDown
  | "cancelled" => .cancelled
  | _ => .unknown

/-- The policy of a client, which has a default until one is set. -/
def retryPolicy (configured : Retry.Policy) : Retry.Policy :=
  if 0 < configured.maxAttempts then configured
  else { maxAttempts := 3, baseDelay := second, maxDelay := minute, jitter := 1 / 5 }

/-- The attempt a report is decided with: its own, or the stored one when it brings none. -/
def reportedAttempt (s : JobStore) (token : Lease) (report : FailureReport) : Except StoreError ℤ :=
  if report.attempt ≤ 0 then
    match s.jobs.lookup token.jobID with
    | none => .error .jobNotFound
    | some record => .ok record.attempts
  else .ok report.attempt

/-- `FailJob`. It answers with the job as it is afterwards. -/
def failJob (configured : Retry.Policy) (s : JobStore) (token : Lease) (report : FailureReport) (now : Time) (sample : ℚ) :
    Except StoreError (Option Record) × JobStore :=
  match reportedAttempt s token report with
  | .error error => (.error error, s)
  | .ok attempt =>
    match s.fail token now ((retryPolicy configured).transition report.cls attempt report.retryAfter sample) with
    | (.error error, t) => (.error error, t)
    | (.ok (), t) => (.ok (t.jobs.lookup token.jobID), t)

inductive Event
  | call (call : JobCall)
  | failJob (token : Lease) (report : FailureReport) (now : Time) (sample : ℚ)

/-- The calls besides `FailJob`: claims, heartbeats, completions, releases, the reaper, clients. A replay is not among
them. -/
def allowed : JobCall → Bool
  | .fail _ _ _ | .replay _ _ => false
  | _ => true

def step (codec : Recovery.Codec) (configured : Retry.Policy) (s : JobSystem) : Event → Option JobSystem
  | .call call => if allowed call then s.step codec call else none
  | .failJob token report now sample => some { s with jobs := (failJob configured s.jobs token report now sample).2 }

def machine (codec : Recovery.Codec) (configured : Retry.Policy) : Machine JobSystem Event :=
  { start := {}, step := step codec configured }

end Remote

end RhinoQ.Model
