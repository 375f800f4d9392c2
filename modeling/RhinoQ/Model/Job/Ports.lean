import RhinoQ.Model.Job.Record
import RhinoQ.Model.Job.Admission

/-! # The job store port and the attempt timeline

The types that cross the job store interface, and the append-only attempt events. A lost lease carries what
the store saw as a constructor; `LeaseDetail.text` is the sentence the source puts there.
-/

namespace RhinoQ.Model

open Job

namespace Attempt

/-- One fact in an execution lifecycle. -/
inductive Kind
  | claimed | succeeded | retryScheduled | dead | blocked | cancelled | released | leaseExpired
  deriving DecidableEq

/-- Evidence for one lease epoch. `sequence` is assigned by the store. -/
structure Event where
  sequence : ℕ := 0
  jobID : ID
  attempt : ℕ
  leaseOwner : String
  leaseEpoch : ℤ
  kind : Kind
  resultState : State
  failureClass : String := ""
  blockedReason : BlockedReason := .unset
  occurredAt : Time

/-- The timeline event of a failure transition. -/
def resultKind : State → Option Kind
  | .retryWait => some .retryScheduled
  | .dead => some .dead
  | .blocked => some .blocked
  | .cancelled => some .cancelled
  | _ => none

end Attempt

namespace Ports

structure EnqueueInput where
  identity : Identity
  payload : Option (List UInt8)
  idempotencyKey : String := ""
  runAfter : Duration := 0
  correlationID : String := ""
  priority : ℤ := 0
  deriving DecidableEq

structure ClaimInput where
  owner : String
  now : Time
  limit : ℤ
  leaseDuration : Duration
  queueNames : List String := []
  deriving DecidableEq

def maxClaimQueues : ℕ := 256

def maxClaimLimit : ℤ := 1000

def validateClaimLimit (limit : ℤ) : Except String Unit :=
  if limit ≤ 0 then .error "claim limit must be positive"
  else if limit > maxClaimLimit then .error "claim limit exceeds 1000 jobs"
  else .ok ()

def validateClaimQueues (queueNames : List String) : Except String Unit :=
  if queueNames.length > maxClaimQueues then .error "claim queue filter exceeds 256 names"
  else if "" ∈ queueNames then .error "claim queue names must not be empty"
  else .ok ()

/-- The fencing token of one execution of one job. -/
structure Lease where
  jobID : ID
  owner : String
  epoch : ℤ
  expiresAt : Time := 0
  deriving DecidableEq

def Lease.valid (l : Lease) : Bool := l.jobID ≠ "" && l.owner ≠ "" && decide (0 < l.epoch)

structure LeaseStatus where
  expiresAt : Time
  cancelRequested : Bool

/-- Where a failed execution parks the job. -/
structure FailureTransition where
  state : State
  retryIn : Duration := 0
  blockedReason : BlockedReason := .unset
  failureClass : String := ""
  deriving DecidableEq

structure QueueRateLimit where
  max : ℤ
  window : Duration
  deriving DecidableEq

def maxEnqueueBatch : ℕ := 1000

structure ReapInput where
  now : Time
  protection : Protection := {}
  limit : ℤ := 0
  deriving DecidableEq

def defaultReapBatchLimit : ℤ := 500

def maxReapBatchLimit : ℤ := 1000

def normalizeReapLimit (limit : ℤ) : ℤ :=
  if limit ≤ 0 then defaultReapBatchLimit
  else if limit > maxReapBatchLimit then maxReapBatchLimit
  else limit

/-- An execution that died: only work opened at or before this epoch belonged to it. -/
structure ExpiredLease where
  jobID : ID
  epoch : ℤ
  deriving DecidableEq

structure ReapResult where
  requeued : ℕ := 0
  blocked : ℕ := 0
  expired : List ExpiredLease := []
  saturated : Bool := false
  deriving DecidableEq

/-- What the store saw when it refused a lease. -/
inductive LeaseDetail
  | incomplete
  | noSuchJob
  | notLeased (state : State)
  | leasedTo (owner : String)
  | atEpoch (epoch : ℤ)
  | expiredAt (instant : Time)
  | effectOfJob (jobID : String)
  deriving DecidableEq

/-- The sentence of the refusal, given the RFC 3339 formatter of instants. -/
def LeaseDetail.text (format : Time → String) : LeaseDetail → String
  | .incomplete => "the presented lease is incomplete"
  | .noSuchJob => "the job no longer exists"
  | .notLeased state => "the job is " ++ state.text ++ ", not leased"
  | .leasedTo owner => "the job is leased to " ++ owner
  | .atEpoch epoch => "the job is at epoch " ++ toString epoch
  | .expiredAt instant => "the lease expired at " ++ format instant
  | .effectOfJob jobID => "the effect belongs to job " ++ jobID

inductive StoreError
  | message (text : String)
  | leaseLost (lease : Lease) (detail : LeaseDetail)
  | jobNotFound
  | overCapacity (error : Admission.OverCapacityError)
  deriving DecidableEq

end Ports
end RhinoQ.Model
