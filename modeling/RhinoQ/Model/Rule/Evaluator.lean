import RhinoQ.Model.Rule.Cursor
import RhinoQ.Model.Rule.Record

/-! # Evaluating one page of a rule

`RuleEvaluator.EvaluateRule`. The query of a rule is a function from its parameters to rows, and may fail; so
do the transaction around it, the statement timeout and a scan. The column name of an error is quoted without
the escapes of `%q`.
-/

namespace RhinoQ.Model.Rule

/-- A parameter of a query. -/
inductive Argument
  | text (value : String)
  | time (value : Time)
  | count (value : ℤ)

/-- A row of a query: the three fixed columns and the two optional ones, null where absent. -/
structure Row where
  subjectID : String
  violated : Option Bool
  evidence : String
  unknownReason : Option String := none
  changedAt : Option Time := none

/-- The names of the columns after the third, and the rows. -/
structure QueryResult where
  optional : List String := []
  rows : List Row

/-- What the loop of `EvaluateRule` carries from row to row. -/
structure Scan where
  previous : String
  previousChangedAt : Time
  lastChangedAt : Time := 0
  observations : List Observation := []

/-- The observation of a row. A null verdict is unknown, with its reason or a default one. -/
def observationOf (row : Row) : Observation :=
  match row.violated with
  | none =>
    let reason := Text.trimSpace (row.unknownReason.getD "")
    { subjectID := row.subjectID, status := .unknown, evidence := row.evidence
      reason := if reason == "" then unknownUnspecified else reason }
  | some true => { subjectID := row.subjectID, status := .violated, evidence := row.evidence }
  | some false => { subjectID := row.subjectID, status := .passed, evidence := row.evidence }

section
variable (record : Record) (subjectID : String)

/-- The order that a row has to keep with the rows before it, and the state after it. -/
def order (scan : Scan) (row : Row) : Except Error Scan :=
  let next := { scan with previous := row.subjectID, observations := scan.observations ++ [observationOf row] }
  if record.scope = .job then
    if row.subjectID ≠ subjectID ∨ scan.observations ≠ [] then
      .error (.message "job-scoped rule must return at most one row for the requested subject")
    else .ok next
  else if record.cursor = .changed then
    match row.changedAt with
    | none => .error (.message "changed-since Rule must return a non-null changed_at for every row")
    | some changedAt =>
      if changedAt < scan.previousChangedAt ∨ (changedAt = scan.previousChangedAt ∧ row.subjectID ≤ scan.previous) then
        .error (.message "changed-since Rule must return (changed_at, subject_id) in strict ascending cursor order")
      else .ok { next with previousChangedAt := changedAt, lastChangedAt := changedAt }
  else if row.subjectID ≤ scan.previous then
    .error (.message "table-scoped rule must return subject_id in strict ascending cursor order")
  else .ok next

/-- The loop over the rows. -/
def scanRows (scan : Scan) : List Row → Except Error Scan
  | [] => .ok scan
  | row :: rest =>
    match (observationOf row).validate with
    | .error error => .error error
    | .ok () =>
      match order record subjectID scan row with
      | .error error => .error error
      | .ok next => scanRows next rest

/-- The parameters of the query, with the timestamp from which a changed-since walk resumes. -/
def parameters (cursorChangedAt : Time) (cursorSubject : String) : Except Error (List Argument × Time) :=
  if record.scope = .table then
    let base := [.time record.baselineAt, .text cursorSubject, .count record.maxRows]
    if contains record.query "$4" then
      if record.cursor = .changed then
        if !contains record.query "$5" then
          .error (.message "changed-since Rule must page on $5, the cursor timestamp, together with $2")
        else
          let start := if cursorChangedAt.isZero then record.baselineAt else cursorChangedAt
          .ok (base ++ [.text subjectID, .time start], start)
      else .ok (base ++ [.text subjectID], cursorChangedAt)
    else if Text.trimSpace subjectID != "" then
      .error (.message "table Rule is not signal-capable: add a $4 subject filter")
    else if record.cursor = .changed then
      if !contains record.query "$5" then
        .error (.message "changed-since Rule must page on $5, the cursor timestamp, together with $2")
      else .error (.message "changed-since Rule must also accept $4, the single subject filter")
    else .ok (base, cursorChangedAt)
  else .ok ([.text subjectID], cursorChangedAt)

/-- The columns of a result are known. A column that is not is noticed at the first row. -/
def checkColumns (result : QueryResult) : Except Error Unit :=
  if record.cursor = .changed ∧ "changed_at" ∉ result.optional then
    .error (.message "changed-since Rule must return changed_at so its cursor can resume")
  else match result.optional.find? fun name => name ≠ "unknown_reason" ∧ name ≠ "changed_at" with
    | some name =>
      if result.rows = [] then .ok ()
      else .error (.message ("rule query returned an unrecognised column \"" ++ name ++ "\""))
    | none => .ok ()

/-- The page that a finished scan amounts to. -/
def pageOf (scan : Scan) (evaluatedAt : Time) : Evaluation :=
  if record.scope = .table ∧ scan.observations ≠ [] then
    { observations := scan.observations, evaluatedAt
      nextCursor := if record.cursor = .changed then encodeCursor scan.lastChangedAt scan.previous else scan.previous
      hasMore := decide ((scan.observations.length : ℤ) = record.maxRows) }
  else { observations := scan.observations, evaluatedAt }

end

/-- The rows of an enabled, valid rule. -/
def evaluateRows (query : List Argument → Except Error QueryResult) (evaluatedAt : Time) (record : Record)
    (subjectID cursor : String) : Except Error Evaluation :=
  let (cursorChangedAt, cursorSubject) := decodeCursor cursor
  match parameters record subjectID cursorChangedAt cursorSubject with
  | .error error => .error error
  | .ok (arguments, start) =>
    match query arguments with
    | .error error => .error error
    | .ok result =>
      -- the statement is wrapped in a LIMIT
      let limited := { result with rows := result.rows.take record.maxRows.toNat }
      match checkColumns record limited with
      | .error error => .error error
      | .ok () =>
        match scanRows record subjectID { previous := cursorSubject, previousChangedAt := start } limited.rows with
        | .error error => .error error
        | .ok scan => .ok (pageOf record scan evaluatedAt)

/-- `RuleEvaluator.EvaluateRule`. -/
def evaluateRule (query : List Argument → Except Error QueryResult) (evaluatedAt : Time) (record : Record)
    (subjectID cursor : String) : Except Error Evaluation :=
  let record := record.withDefaults
  match record.validate with
  | .error error => .error error
  | .ok () =>
    if record.status ≠ .enabled then .error (.message "only an enabled rule can be evaluated")
    else if record.scope = .job ∧ Text.trimSpace subjectID = "" then
      .error (.message "job-scoped rule requires a subject id")
    else evaluateRows query evaluatedAt record subjectID cursor

end RhinoQ.Model.Rule
