import RhinoQ.Model.Rule.Record
import RhinoQ.ToMathlib.FiniteMap

/-! # Subject outcomes

The state of one rule version and one subject. A record replaces the stored one unless that was observed later.
-/

namespace RhinoQ.Model

open Rule

namespace SubjectOutcome

structure Key where
  ruleID : String
  ruleVersion : ℤ
  subjectType : String
  subjectID : String

def Key.valid (k : Key) : Bool :=
  Text.trimSpace k.ruleID != "" && decide (1 ≤ k.ruleVersion) && Text.trimSpace k.subjectType != "" &&
    Text.trimSpace k.subjectID != ""

inductive Error
  | invalidKey | observationTime
  | rule (error : Rule.Error)

structure Record where
  key : Key
  status : ObservationStatus
  reason : String
  evidence : String
  firstUnknownAt : Time
  lastObservedAt : Time
  unknownCount : ℕ
  updatedAt : Time

/-- The start and the length of the streak of inconclusive observations that ends with `observation`. -/
def unknownStreak (existing : Option Record) (observation : Observation) (observedAt : Time) : Time × ℕ :=
  if observation.status = .unknown then
    match existing with
    | none => (observedAt, 1)
    | some record =>
      if record.status ≠ .unknown ∨ record.firstUnknownAt.isZero then (observedAt, 1)
      else (record.firstUnknownAt, record.unknownCount + 1)
  else (0, 0)

def apply (existing : Option Record) (key : Key) (observation : Observation) (observedAt : Time) : Except Error Record :=
  if !key.valid then .error .invalidKey
  else match observation.validate with
    | .error error => .error (.rule error)
    | .ok () =>
      if observedAt.isZero then .error .observationTime
      else
        let streak := unknownStreak existing observation observedAt
        .ok { key := (existing.map (·.key)).getD key, status := observation.status, reason := observation.reason
              evidence := if observation.status = .passed then "" else observation.evidence
              firstUnknownAt := streak.1, lastObservedAt := observedAt, unknownCount := streak.2
              updatedAt := observedAt }

def Record.unknownEscalationDue (r : Record) (grace : Duration) (now : Time) : Bool :=
  r.status == .unknown && !r.firstUnknownAt.isZero && (decide (grace ≤ 0) || decide (r.firstUnknownAt + grace ≤ now))

end SubjectOutcome

open SubjectOutcome

structure SubjectOutcomeStore where
  records : FiniteMap String SubjectOutcome.Record := ∅

namespace SubjectOutcomeStore

/-- The map key, with its parts between NUL characters. -/
def subjectOutcomeKey (key : SubjectOutcome.Key) : String :=
  key.ruleID ++ "\x00" ++ toString key.ruleVersion ++ "\x00" ++ key.subjectType ++ "\x00" ++ key.subjectID

/-- The stored outcomes of the keys, under their subject ids. -/
def getSubjectOutcomes (s : SubjectOutcomeStore) (keys : List SubjectOutcome.Key) :
    Except SubjectOutcome.Error (FiniteMap String SubjectOutcome.Record) :=
  if keys.all (·.valid) then .ok (FiniteMap.gather (fun key => s.records.lookup (subjectOutcomeKey key)) (·.subjectID) keys)
  else .error .invalidKey

/-- The stored outcome was observed after `at_`. -/
def newer (s : SubjectOutcomeStore) (key : SubjectOutcome.Key) (at_ : Time) : Bool :=
  (s.records.lookup (subjectOutcomeKey key)).any fun existing => at_ < existing.lastObservedAt

/-- Store the records that no newer one stands against and list the subjects of those that were stored.
An invalid key stops the loop and keeps what was stored before it. -/
def saveSubjectOutcomes (s : SubjectOutcomeStore) :
    List SubjectOutcome.Record → List String → SubjectOutcomeStore × Except SubjectOutcome.Error (List String)
  | [], applied => (s, .ok applied)
  | record :: rest, applied =>
    if !record.key.valid then (s, .error .invalidKey)
    else if s.newer record.key record.lastObservedAt then s.saveSubjectOutcomes rest applied
    else
      let saved : SubjectOutcomeStore := { records := s.records.insert (subjectOutcomeKey record.key) record }
      saved.saveSubjectOutcomes rest (record.key.subjectID :: applied)

end SubjectOutcomeStore
end RhinoQ.Model
