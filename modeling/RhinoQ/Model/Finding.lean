import RhinoQ.Model.Basic
import RhinoQ.ToMathlib.FiniteMap

/-! # Findings

The lifecycle of a finding, and the in-memory store that keeps one record and one event list for each
rendered key. The zero status that the store writes for a missing map entry is `other ""`.
-/

namespace RhinoQ.Model

namespace Finding

/-- `Open` of the source is `opened`. -/
inductive Status
  | opened | acknowledged | repairProposed | repairing | resolved | falsePositive | ignored | regressed
  | other (text : String)
  deriving DecidableEq

def Status.suppressed : Status → Bool
  | .falsePositive | .ignored => true
  | _ => false

def Status.valid : Status → Bool
  | .other _ => false
  | _ => true

inductive Error
  | invalidKey | observationTime | evidenceTooLarge | invalidStatus | regressedByHand | actorRequired | actorTooLarge
  | reasonTooLarge | expiryRequired | expiryInThePast | reasonRequired | notFound
  | invalidTransition (source target : Status)
  deriving DecidableEq

def maxRuleIDBytes : ℕ := 128
def maxSubjectTypeBytes : ℕ := 64
def maxSubjectIDBytes : ℕ := 256
def maxEvidenceBytes : ℕ := 64 * 1024
def maxActorBytes : ℕ := 256
def maxReasonBytes : ℕ := 4 * 1024

structure Key where
  ruleID : String
  subjectType : String
  subjectID : String
  observedInvariantVersion : ℤ
  deriving DecidableEq

namespace Key

def validate (k : Key) : Except Error Unit :=
  if Text.trimSpace k.ruleID == "" || Text.trimSpace k.subjectType == "" || Text.trimSpace k.subjectID == "" ||
      decide (k.observedInvariantVersion < 0) || decide (k.ruleID.utf8ByteSize > maxRuleIDBytes) ||
      decide (k.subjectType.utf8ByteSize > maxSubjectTypeBytes) ||
      decide (k.subjectID.utf8ByteSize > maxSubjectIDBytes) then .error .invalidKey
  else .ok ()

/-- `Key.String`. -/
def text (k : Key) : String :=
  k.ruleID ++ "/" ++ k.subjectType ++ "/" ++ k.subjectID ++ "@v" ++ toString k.observedInvariantVersion

end Key

structure Record where
  key : Key
  status : Status
  firstSeen : Time
  lastSeen : Time
  occurrenceCount : ℕ
  latestEvidence : String
  actor : String := ""
  reason : String := ""
  suppressedUntil : Time := 0
  resolvedAt : Time := 0
  updatedAt : Time
  deriving DecidableEq

inductive EventKind
  | observed | transition | passed

structure Event where
  sequence : ℕ
  key : Key
  kind : EventKind
  fromStatus : Status
  toStatus : Status
  actor : String := ""
  reason : String := ""
  evidence : String := ""
  untilAt : Time := 0
  occurredAt : Time

structure Observation where
  key : Key
  evidence : String
  observedAt : Time

def Observation.validate (o : Observation) : Except Error Unit :=
  match o.key.validate with
  | .error error => .error error
  | .ok () =>
    if o.observedAt.isZero then .error .observationTime
    else if o.evidence.utf8ByteSize > maxEvidenceBytes then .error .evidenceTooLarge
    else .ok ()

/-- The record of a drift that is seen again. -/
def seenAgain (existing : Record) (observation : Observation) : Record :=
  let updated := { existing with
    lastSeen := observation.observedAt
    occurrenceCount := existing.occurrenceCount + 1
    latestEvidence := if observation.evidence ≠ "" then observation.evidence else existing.latestEvidence
    updatedAt := observation.observedAt }
  if existing.status = .resolved then
    { updated with status := .regressed, actor := "", reason := "the drift returned after it was resolved", resolvedAt := 0 }
  else if existing.status.suppressed && decide (existing.suppressedUntil ≤ observation.observedAt) then
    { updated with
      status := .opened, reason := "the suppression expired and the drift is still present", suppressedUntil := 0 }
  else updated

def apply (existing : Option Record) (observation : Observation) : Except Error Record :=
  match observation.validate with
  | .error error => .error error
  | .ok () =>
    match existing with
    | none => .ok
      { key := observation.key, status := .opened, firstSeen := observation.observedAt, lastSeen := observation.observedAt
        occurrenceCount := 1, latestEvidence := observation.evidence, updatedAt := observation.observedAt }
    | some record => .ok (seenAgain record observation)

/-- The record of a finding whose rule passes; `none` when nothing changes. -/
def applyPass (existing : Option Record) (key : Key) (observedAt : Time) : Except Error (Option Record) :=
  match key.validate with
  | .error error => .error error
  | .ok () =>
    if observedAt.isZero then .error .observationTime
    else match existing with
      | none => .ok none
      | some record =>
        if record.status = .resolved then .ok none
        else .ok (some { record with
          status := .resolved, actor := "rhinoq:rule", reason := "the rule passed", resolvedAt := observedAt
          suppressedUntil := 0, updatedAt := observedAt })

/-- What an operator decides. -/
structure Transition where
  status : Status
  actor : String
  reason : String := ""
  untilAt : Time := 0
  occurredAt : Time

def allowedTransitions : Status → List Status
  | .opened | .regressed => [.acknowledged, .repairProposed, .resolved, .falsePositive, .ignored]
  | .acknowledged => [.repairProposed, .repairing, .resolved, .falsePositive, .ignored]
  | .repairProposed => [.repairing, .acknowledged, .resolved, .falsePositive, .ignored]
  | .repairing => [.resolved, .acknowledged, .falsePositive, .ignored]
  | .falsePositive | .ignored => [.opened, .acknowledged]
  | .resolved => [.acknowledged]
  | .other _ => []

def applyTransition (existing : Record) (t : Transition) : Except Error Record :=
  if !t.status.valid then .error .invalidStatus
  else if t.status = .regressed then .error .regressedByHand
  else if Text.trimSpace t.actor = "" then .error .actorRequired
  else if t.actor.utf8ByteSize > maxActorBytes then .error .actorTooLarge
  else if t.reason.utf8ByteSize > maxReasonBytes then .error .reasonTooLarge
  else if t.occurredAt.isZero then .error .observationTime
  else if t.status ∉ allowedTransitions existing.status then .error (.invalidTransition existing.status t.status)
  else if t.status.suppressed ∧ t.untilAt.isZero then .error .expiryRequired
  else if t.status.suppressed ∧ t.untilAt ≤ t.occurredAt then .error .expiryInThePast
  else if (t.status.suppressed ∨ t.status = .resolved) ∧ Text.trimSpace t.reason = "" then .error .reasonRequired
  else .ok { existing with
    status := t.status, actor := t.actor, reason := t.reason, updatedAt := t.occurredAt
    suppressedUntil := if t.status.suppressed then t.untilAt else 0
    resolvedAt := if t.status = .resolved then t.occurredAt else 0 }

end Finding

open Finding

structure FindingStore where
  records : FiniteMap String Finding.Record := ∅
  events : FiniteMap String (List Finding.Event) := ∅
  nextSeq : ℕ := 0

namespace FindingStore

variable (s : FindingStore)

/-- Store a record and append the event that explains it. -/
def write (mapKey : String) (updated : Finding.Record) (event : Finding.Event) : FindingStore :=
  { records := s.records.insert mapKey updated
    events := s.events.insert mapKey ((s.events.lookup mapKey).getD [] ++ [event])
    nextSeq := s.nextSeq + 1 }

def statusOf (existing : Option Finding.Record) : Finding.Status :=
  (existing.map (·.status)).getD (.other "")

def observeFinding (observation : Finding.Observation) : Except Finding.Error Finding.Record × FindingStore :=
  match observation.validate with
  | .error error => (.error error, s)
  | .ok () =>
    let mapKey := observation.key.text
    let existing := s.records.lookup mapKey
    match apply existing observation with
    | .error error => (.error error, s)
    | .ok updated => (.ok updated, s.write mapKey updated
        { sequence := s.nextSeq + 1, key := observation.key, kind := .observed, fromStatus := statusOf existing
          toStatus := updated.status, evidence := observation.evidence, occurredAt := observation.observedAt })

/-- The changed record, if any, and the store. -/
def observeFindingPass (key : Finding.Key) (observedAt : Time) :
    Except Finding.Error (Option Finding.Record) × FindingStore :=
  match key.validate with
  | .error error => (.error error, s)
  | .ok () =>
    let mapKey := key.text
    let existing := s.records.lookup mapKey
    match applyPass existing key observedAt with
    | .error error => (.error error, s)
    | .ok none => (.ok none, s)
    | .ok (some updated) => (.ok (some updated), s.write mapKey updated
        { sequence := s.nextSeq + 1, key, kind := .passed, fromStatus := statusOf existing, toStatus := updated.status
          actor := updated.actor, reason := updated.reason, occurredAt := observedAt })

def transitionFinding (key : Finding.Key) (transition : Transition) : Except Finding.Error Finding.Record × FindingStore :=
  match key.validate with
  | .error error => (.error error, s)
  | .ok () =>
    let mapKey := key.text
    match s.records.lookup mapKey with
    | none => (.error .notFound, s)
    | some existing =>
      match applyTransition existing transition with
      | .error error => (.error error, s)
      | .ok updated => (.ok updated, s.write mapKey updated
          { sequence := s.nextSeq + 1, key, kind := .transition, fromStatus := existing.status, toStatus := updated.status
            actor := transition.actor, reason := transition.reason, untilAt := transition.untilAt
            occurredAt := transition.occurredAt })

def getFinding (key : Finding.Key) : Except Finding.Error (Option Finding.Record) := do
  key.validate
  return s.records.lookup key.text

/-- The stored findings of the keys, under their subject ids. -/
def getFindingsForSubjects (keys : List Finding.Key) :
    Except Finding.Error (FiniteMap String Finding.Record) :=
  if keys.all fun key => decide (key.validate = .ok ()) then
    .ok (FiniteMap.gather (fun key => s.records.lookup key.text) (·.subjectID) keys)
  else .error .invalidKey

end FindingStore
end RhinoQ.Model
