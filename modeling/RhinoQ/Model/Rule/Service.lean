import RhinoQ.Machine.Pool
import RhinoQ.Model.Finding
import RhinoQ.Model.SubjectOutcome

/-! # Folding one page of observations

`evaluateRecord` as a program over the outcome store and the finding store, one step for each store call. An
evaluation starts with whatever page the evaluator returned.
-/

namespace RhinoQ.Model.RuleService

open Rule

structure Stores where
  outcomes : SubjectOutcomeStore := {}
  findings : FindingStore := {}

inductive Error
  | outcome (error : SubjectOutcome.Error)
  | finding (error : Finding.Error)

section
variable (record : Rule.Record)

def outcomeKey (subjectID : String) : SubjectOutcome.Key :=
  { ruleID := record.id, ruleVersion := record.version, subjectType := record.subjectType, subjectID }

def findingKey (subjectID : String) : Finding.Key :=
  { ruleID := record.id, subjectType := record.subjectType, subjectID, observedInvariantVersion := record.version }

/-- The outcome records of a page, from the stored outcomes that were read for it. -/
def materialize (existing : FiniteMap String SubjectOutcome.Record) (evaluatedAt : Time) :
    List Observation → Except SubjectOutcome.Error (List SubjectOutcome.Record)
  | [] => .ok []
  | observation :: rest =>
    match SubjectOutcome.apply (existing.lookup observation.subjectID) (outcomeKey record observation.subjectID)
        observation evaluatedAt with
    | .error error => .error error
    | .ok next => (materialize existing evaluatedAt rest).map (next :: ·)

/-- The finding call that one observation of the page asks for. -/
inductive Call
  | observe (observation : Finding.Observation)
  | pass (key : Finding.Key) (observedAt : Time)

/-- A page whose outcomes have been saved. -/
structure Page where
  evaluation : Evaluation
  materialized : List SubjectOutcome.Record
  applied : List String

variable (unknownEvidence : Observation → String)

/-- The body of the last loop of `evaluateRecord`; `none` is `continue`. -/
def call (page : Page) (existing : FiniteMap String Finding.Record) (observation : Observation)
    (materialized : SubjectOutcome.Record) : Option Call :=
  let key := findingKey record observation.subjectID
  let at_ := page.evaluation.evaluatedAt
  if observation.subjectID ∉ page.applied then none
  else match observation.status with
    | .violated => some (.observe { key, evidence := observation.evidence, observedAt := at_ })
    | .unknown =>
      if record.onUnknown ≠ .opensFinding then none
      else if !materialized.unknownEscalationDue record.unknownGrace at_ then none
      else some (.observe { key, evidence := unknownEvidence observation, observedAt := at_ })
    | _ =>
      match existing.lookup observation.subjectID with
      | none => none
      | some finding => if finding.status = .resolved then none else some (.pass key at_)

/-- Where an evaluation stands. Each constructor but the first and the last is the call that comes next. -/
inductive Stage
  | idle
  | getOutcomes (evaluation : Evaluation)
  | saveOutcomes (evaluation : Evaluation) (materialized : List SubjectOutcome.Record)
  | getFindings (page : Page)
  | fold (page : Page) (existing : FiniteMap String Finding.Record)
      (remaining : List (Observation × SubjectOutcome.Record)) (changed : List Finding.Record)
  | finished (changed : List Finding.Record) (error : Option Error)

/-- An evaluation is not under way. -/
def Stage.atRest : Stage → Bool
  | .idle | .finished .. => true
  | _ => false

/-- Carry out a finding call. -/
def perform (findings : FindingStore) : Call → Except Finding.Error (Option Finding.Record) × FindingStore
  | .observe observation =>
    let (answer, after) := findings.observeFinding observation
    (answer.map some, after)
  | .pass key observedAt => findings.observeFindingPass key observedAt

/-- Fold one observation into the findings, with the record it changed. -/
def foldOne (page : Page) (existing : FiniteMap String Finding.Record) (findings : FindingStore)
    (observation : Observation) (materialized : SubjectOutcome.Record) :
    Except Finding.Error (Option Finding.Record) × FindingStore :=
  match call record unknownEvidence page existing observation materialized with
  | none => (.ok none, findings)
  | some next => perform findings next

/-- The next step of an evaluation. An observation that asks for no call is passed over in a step that
leaves the stores alone. -/
def advance (stores : Stores) : Stage → Option (Stores × Stage)
  | .idle => none
  | .finished .. => none
  | .getOutcomes evaluation =>
    match stores.outcomes.getSubjectOutcomes (evaluation.observations.map fun o => outcomeKey record o.subjectID) with
    | .error error => some (stores, .finished [] (some (.outcome error)))
    | .ok existing =>
      match materialize record existing evaluation.evaluatedAt evaluation.observations with
      | .error error => some (stores, .finished [] (some (.outcome error)))
      | .ok materialized => some (stores, .saveOutcomes evaluation materialized)
  | .saveOutcomes evaluation materialized =>
    match stores.outcomes.saveSubjectOutcomes materialized [] with
    | (outcomes, .error error) => some ({ stores with outcomes }, .finished [] (some (.outcome error)))
    | (outcomes, .ok applied) => some ({ stores with outcomes }, .getFindings { evaluation, materialized, applied })
  | .getFindings page =>
    match stores.findings.getFindingsForSubjects (page.evaluation.observations.map fun o =>
      findingKey record o.subjectID) with
    | .error error => some (stores, .finished [] (some (.finding error)))
    | .ok existing => some (stores, .fold page existing (page.evaluation.observations.zip page.materialized) [])
  | .fold _ _ [] changed => some (stores, .finished changed none)
  | .fold page existing ((observation, materialized) :: rest) changed =>
    match foldOne record unknownEvidence page existing stores.findings observation materialized with
    | (.error error, findings) => some ({ stores with findings }, .finished changed (some (.finding error)))
    | (.ok item, findings) => some ({ stores with findings }, .fold page existing rest (changed ++ item.toList))

/-- The evaluator returned a page to evaluation `i`, or evaluation `i` takes its next step. -/
inductive Event
  | begin (i : ℕ) (evaluation : Evaluation)
  | advance (i : ℕ)

def step (p : Pool Stores Stage) : Event → Option (Pool Stores Stage)
  | .begin i evaluation =>
    match p.thread i with
    | .idle =>
      some (p.move i p.shared (if evaluation.observations = [] then .finished [] none else .getOutcomes evaluation))
    | _ => none
  | .advance i => (advance record unknownEvidence p.shared (p.thread i)).map fun next => p.move i next.1 next.2

def machine (initial : Stores) : Machine (Pool Stores Stage) Event where
  start := { shared := initial, thread := fun _ => .idle }
  step := step record unknownEvidence

end

end RhinoQ.Model.RuleService
