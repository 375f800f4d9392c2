import RhinoQ.Model.Basic
import Mathlib.Data.Rat.Defs

/-! # Integrity rules

A versioned rule and the page of observations that one evaluation returns. Lengths are in bytes. The two
regular expressions are predicates on the characters; a status, scope or mode outside the constants is
`other`.
-/

namespace RhinoQ.Model.Rule

inductive Scope
  | job | table
  | other (text : String)
  deriving DecidableEq

def Scope.valid : Scope → Bool
  | .other _ => false
  | _ => true

inductive Status
  | draft | enabled | disabled
  | other (text : String)
  deriving DecidableEq

def Status.valid : Status → Bool
  | .other _ => false
  | _ => true

/-- What an inconclusive observation does. -/
inductive UnknownPolicy
  | retries | opensFinding
  | other (text : String)
  deriving DecidableEq

def UnknownPolicy.valid : UnknownPolicy → Bool
  | .other _ => false
  | _ => true

/-- How a table rule walks its subjects. -/
inductive CursorMode
  | subject | changed
  | other (text : String)
  deriving DecidableEq

def CursorMode.valid : CursorMode → Bool
  | .other _ => false
  | _ => true

inductive Error
  | invalidRule | unsafeQuery | baselineRequired | intervalRequired | leaseLost
  | notFound
  | message (text : String)
  deriving DecidableEq

def maxIDBytes : ℕ := 128
def maxNameBytes : ℕ := 200
def maxSubjectTypeBytes : ℕ := 64
def maxJobNameBytes : ℕ := 128
def maxQueryBytes : ℕ := 32 * 1024
def defaultMaxRows : ℤ := 500
def maximumMaxRows : ℤ := 1000
def defaultStatementLimit : Duration := 5 * Duration.second
def maximumStatementLimit : Duration := 30 * Duration.second
def defaultMaxPlanCost : ℚ := 100000
def defaultMaxSeqScanRows : ℤ := 10000
def maximumUnknownGrace : Duration := 30 * 24 * Duration.hour

/-- The characters of `[a-z0-9]`. -/
def isIDStart (c : Char) : Bool := ('a' ≤ c && c ≤ 'z') || ('0' ≤ c && c ≤ '9')

/-- `idPattern`: `^[a-z0-9][a-z0-9._-]*$`. -/
def idMatches (id : String) : Bool :=
  match id.toList with
  | [] => false
  | first :: rest => isIDStart first && rest.all fun c => isIDStart c || c == '.' || c == '_' || c == '-'

/-- The white space of `\s`. -/
def isPatternSpace (c : Char) : Bool :=
  c == ' ' || c == '\t' || c == '\n' || c == Char.ofNat 12 || c == '\r'

/-- `queryStartPattern`: `(?is)^(select|with)\s`. Under `i` the letter `s` also matches `ſ`. -/
def queryStarts (query : String) : Bool :=
  let starts (word : List Char) : Bool :=
    let front := query.toList.take word.length
    front.map (fun c => if c == 'ſ' then 's' else c.toLower) == word &&
      (query.toList.drop word.length).head?.any isPatternSpace
  starts "select".toList || starts "with".toList

/-- `strings.Contains`. -/
def contains (text part : String) : Bool := text.toList.tails.any fun tail => part.toList.isPrefixOf tail

/-- `ValidateQuery`. -/
def validateQuery (query : String) : Except Error Unit :=
  let trimmed := Text.trimSpace query
  if trimmed == "" || decide (trimmed.utf8ByteSize > maxQueryBytes) || !queryStarts trimmed || contains trimmed ";" ||
      contains trimmed "--" || contains trimmed "/*" || contains trimmed "*/" || !contains trimmed "$1" then
    .error .unsafeQuery
  else .ok ()

structure Record where
  id : String
  version : ℤ
  name : String
  scope : Scope
  status : Status
  subjectType : String
  jobName : String := ""
  query : String
  baselineAt : Time := 0
  every : Duration := 0
  within : Duration := 0
  maxRows : ℤ := 0
  onUnknown : UnknownPolicy := .other ""
  unknownGrace : Duration := 0
  cursor : CursorMode := .other ""
  statementTimeout : Duration := 0
  maxPlanCost : ℚ := 0
  maxSeqScanRows : ℤ := 0
  createdAt : Time := 0
  updatedAt : Time := 0
  deriving DecidableEq

namespace Record

variable (r : Record)

def withDefaults : Record :=
  { r with
    cursor := if r.cursor = .other "" then .subject else r.cursor
    onUnknown := if r.onUnknown = .other "" then .retries else r.onUnknown
    status := if r.status = .other "" then .draft else r.status
    maxRows := if r.maxRows = 0 then defaultMaxRows else r.maxRows
    statementTimeout := if r.statementTimeout = 0 then defaultStatementLimit else r.statementTimeout
    maxPlanCost := if r.maxPlanCost = 0 then defaultMaxPlanCost else r.maxPlanCost
    maxSeqScanRows := if r.maxSeqScanRows = 0 then defaultMaxSeqScanRows else r.maxSeqScanRows }

/-- The first block of `Validate`: the identity of a rule. -/
def identified : Bool :=
  r.id != "" && decide (r.id.utf8ByteSize ≤ maxIDBytes) && idMatches r.id && decide (1 ≤ r.version) &&
    Text.trimSpace r.name != "" && decide (r.name.utf8ByteSize ≤ maxNameBytes) && r.scope.valid && r.status.valid &&
    Text.trimSpace r.subjectType != "" && decide (r.subjectType.utf8ByteSize ≤ maxSubjectTypeBytes)

/-- The block of `Validate` on bounds and policies. -/
def bounded : Bool :=
  decide (0 ≤ r.within) && decide (0 < r.maxRows) && decide (r.maxRows ≤ maximumMaxRows) &&
    decide (0 < r.statementTimeout) && decide (r.statementTimeout ≤ maximumStatementLimit) &&
    decide (0 < r.maxPlanCost) && decide (0 < r.maxSeqScanRows) && r.onUnknown.valid && decide (0 ≤ r.unknownGrace) &&
    decide (r.unknownGrace ≤ maximumUnknownGrace) &&
    (r.onUnknown == .opensFinding || decide (r.unknownGrace ≤ 0)) && r.cursor.valid

def validateTable : Except Error Unit :=
  if r.baselineAt.isZero then .error .baselineRequired
  else if r.every ≤ 0 then .error .intervalRequired
  else if !contains r.query "$2" || !contains r.query "$3" then .error .unsafeQuery
  else .ok ()

def validate : Except Error Unit :=
  if !r.identified then .error .invalidRule
  else if r.jobName != "" && decide (r.jobName.utf8ByteSize > maxJobNameBytes) then .error .invalidRule
  else if r.scope == .job && Text.trimSpace r.jobName == "" then .error .invalidRule
  else match if r.scope = .table then r.validateTable else .ok () with
    | .error error => .error error
    | .ok () => if !r.bounded then .error .invalidRule else validateQuery r.query

/-- What `Validate` guarantees about a rule it accepts. -/
theorem of_validate {r : Record} (valid : r.validate = .ok ()) :
    r.identified = true ∧ r.bounded = true ∧ (r.scope = .table → r.validateTable = .ok ()) := by
  unfold validate at valid
  split at valid
  · cases valid
  rename_i identified
  split at valid
  · cases valid
  split at valid
  · cases valid
  split at valid
  · cases valid
  rename_i table
  split at valid
  · cases valid
  rename_i bounded
  refine ⟨by simpa using identified, by simpa using bounded, ?_⟩
  intro scope
  rw [if_pos scope] at table
  exact table

end Record

inductive ObservationStatus
  | passed | violated | unknown
  | other (text : String)
  deriving DecidableEq

def ObservationStatus.valid : ObservationStatus → Bool
  | .other _ => false
  | _ => true

def maxSubjectIDBytes : ℕ := 256
def maxEvidenceBytes : ℕ := 64 * 1024
def maxUnknownReasonBytes : ℕ := 128
def unknownUnspecified : String := "unspecified"

structure Observation where
  subjectID : String
  status : ObservationStatus
  evidence : String := ""
  reason : String := ""

def Observation.validate (o : Observation) : Except Error Unit :=
  if Text.trimSpace o.subjectID == "" || decide (o.subjectID.utf8ByteSize > maxSubjectIDBytes) ||
      decide (o.evidence.utf8ByteSize > maxEvidenceBytes) then .error .invalidRule
  else if !o.status.valid then .error .invalidRule
  else if o.reason.utf8ByteSize > maxUnknownReasonBytes then .error .invalidRule
  else if o.status != .unknown && o.reason != "" then .error .invalidRule
  else .ok ()

/-- One page of observations. -/
structure Evaluation where
  observations : List Observation := []
  nextCursor : String := ""
  hasMore : Bool := false
  evaluatedAt : Time

/-- The fence of one scheduler execution. -/
structure ScheduleLease where
  ruleID : String
  version : ℤ
  owner : String
  epoch : ℤ
  cursor : String
  every : Duration
  claimedAt : Time
  expiresAt : Time

def ScheduleLease.validate (l : ScheduleLease) : Except Error Unit :=
  if l.ruleID == "" || decide (l.version < 1) || Text.trimSpace l.owner == "" || decide (l.epoch < 1) ||
      decide (l.every ≤ 0) || l.claimedAt.isZero || l.expiresAt.isZero then .error .invalidRule
  else .ok ()

end RhinoQ.Model.Rule
