import RhinoQ.Model.Job.Store
import RhinoQ.Model.Effect.Record

/-! # The memory effect ledger

Opening and confirming an effect are fenced by the job store's lease check, which lets go of that store before
the write it guards; saving one and downgrading the pending effects of dead executions are not fenced.
-/

namespace RhinoQ.Model

open Ports Effect

structure EffectStore where
  effects : FiniteMap String Record := ∅

namespace EffectStore

def effectKey (jobID name idempotencyKey : String) : String :=
  jobID ++ "\x00" ++ name ++ "\x00" ++ idempotencyKey

end EffectStore

def Effect.Record.key (record : Record) : String :=
  EffectStore.effectKey record.jobID record.name record.idempotencyKey

namespace EffectStore

def errEffectConflict : StoreError := .message "effect already exists with different identity"

/-- How `BeginEffect` and `ConfirmEffect` start: a live lease, and on the effect's own job. -/
def checkFence (jobs : JobStore) (lease : Lease) (now : Time) (record : Record) : Except StoreError Unit :=
  match jobs.checkLease lease now with
  | .error error => .error error
  | .ok () =>
    if lease.jobID ≠ record.jobID then .error (.leaseLost lease (.effectOfJob record.jobID)) else .ok ()

variable (s : EffectStore)

/-- `BeginEffect` past its fence. An existing record with the same identifier is returned as it stands. -/
def beginEffect (lease : Lease) (record : Record) : Except StoreError Record × EffectStore :=
  match s.effects.lookup record.key with
  | some existing => (if existing.id ≠ record.id then .error errEffectConflict else .ok existing, s)
  | none =>
    let record := { record with leaseEpoch := lease.epoch }
    (.ok record, { effects := s.effects.insert record.key record })

def getEffect (jobID name idempotencyKey : String) : Option Record :=
  s.effects.lookup (effectKey jobID name idempotencyKey)

/-- Write a whole record back; only the epoch of the stored one is kept. This is also `ConfirmEffect` past its fence. -/
def saveEffect (record : Record) : Except StoreError Unit × EffectStore :=
  match s.effects.lookup record.key with
  | none => (.error (.message "effect does not exist"), s)
  | some existing =>
    (.ok (), { effects := s.effects.insert record.key { record with leaseEpoch := existing.leaseEpoch } })

/-- One listed execution raises the bound of its own job. -/
def raiseBound (jobID : String) (current : Option ℤ) (item : ExpiredLease) : Option ℤ :=
  if item.jobID ≠ jobID then current
  else
    match current with
    | none => some item.epoch
    | some epoch => if item.epoch > epoch then some item.epoch else some epoch

variable (expired : List ExpiredLease)

/-- The highest epoch listed for a job. -/
def epochBound (jobID : String) : Option ℤ :=
  expired.foldl (raiseBound jobID) none

/-- The record a sweep leaves: a pending effect at or below its job's listed epoch is downgraded. -/
def downgrade (record : Record) : Record :=
  match epochBound expired record.jobID with
  | none => record
  | some epoch =>
    if record.state ≠ .pending ∨ record.leaseEpoch > epoch then record else { record with state := .uncertain }

def isDowngraded (record : Record) : Bool :=
  match epochBound expired record.jobID with
  | none => false
  | some epoch => record.state == .pending && decide (record.leaseEpoch ≤ epoch)

/-- Downgrade the open effects of dead executions and count them. -/
def markPendingUncertain : ℕ × EffectStore :=
  if expired.length = 0 then (0, s)
  else
    (FiniteMap.count (isDowngraded expired) s.effects, { effects := FiniteMap.mapValues (downgrade expired) s.effects })

/-- The effects the ledger holds for one job. -/
def ofJob (jobID : String) : List Record :=
  (FiniteMap.values s.effects).filter (·.jobID == jobID)

end EffectStore
end RhinoQ.Model
