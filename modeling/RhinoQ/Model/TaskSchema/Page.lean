import RhinoQ.Model.TaskSchema.Read

/-! # Pages of the task list

`listTasksPage` and a reader that follows its cursors. The encoding of a cursor loses nothing, so a cursor is
its value here. Its time is a `Date`: the stored time in whole milliseconds.
-/

namespace RhinoQ.Model.TaskSchema

structure TaskCursor where
  updatedAt : ℤ
  id : String

structure TaskPage where
  schemaVersion : ℕ := 1
  tasks : List TaskSnapshot
  nextCursor : Option TaskCursor

def encodeTaskCursor (entry : String × TaskRow) : TaskCursor := ⟨date entry.2.updatedAt, entry.1⟩

def decodeTaskCursor (value : Option TaskCursor) : Except ReadError (Option TaskCursor) :=
  match value with
  | none => .ok none
  | some cursor => if cursor.id == "" then .error (.typeError "invalid task cursor") else .ok (some cursor)

/-- `(updated_at, id)`. -/
def listPosition (entry : String × TaskRow) : Lex (ℤ × String) := toLex (entry.2.updatedAt, entry.1)

/-- `($4::timestamptz, $5::text)`. -/
def TaskCursor.position (cursor : TaskCursor) : Lex (ℤ × String) := toLex (milliseconds cursor.updatedAt, cursor.id)

namespace Database

variable (db : Database)

/-- `WHERE owner_id = $1 AND tenant_id = $2`. -/
def ownedTasks (ownerID tenantID : String) : List (String × TaskRow) :=
  (db.tasks.entries.map fun entry => (entry.1, entry.2)).filter fun entry =>
    entry.2.ownerID == some ownerID && entry.2.tenantID == tenantID

/-- The rows of `LIST_SNAPSHOTS_KEYSET_SQL`. -/
def selectPage (ownerID tenantID : String) (limit : ℕ) (after : Option TaskCursor) : List (String × TaskRow) :=
  (sortBy (fun entry => OrderDual.toDual (listPosition entry)) ((db.ownedTasks ownerID tenantID).filter fun entry =>
    after.all fun cursor => decide (listPosition entry < cursor.position))).take limit

def listedSnapshot (entry : String × TaskRow) : TaskSnapshot := mapSnapshot entry.1 entry.2 (db.executionSummaries entry.1)

/-- `listTasksPage`. -/
def listTasksPage (ownerID : String) (cursor : Option TaskCursor) (limit : Option ℤ) (tenantID : Option String) :
    Except ReadError TaskPage := do
  let limit' := limit.getD 50
  if untold ownerID then .error (.typeError "owner id is required")
  else if limit' ≤ 0 ∨ 200 < limit' then .error (.rangeError "limit must be 1..200")
  else
    let after ← decodeTaskCursor cursor
    let result := db.selectPage ownerID (tenantID.getD "default") (limit'.toNat + 1) after
    let more := decide (limit'.toNat < result.length)
    let rows := if more then result.take limit'.toNat else result
    .ok { tasks := rows.map db.listedSnapshot, nextCursor := if more then rows.getLast?.map encodeTaskCursor else none }

/-- A reader that follows the cursors to the end: the tasks of all pages, or the error of one. -/
def walkTasks (ownerID : String) (limit : Option ℤ) (tenantID : Option String) :
    ℕ → Option TaskCursor → Option (Except ReadError (List TaskSnapshot))
  | 0, _ => none
  | fuel + 1, cursor =>
    match db.listTasksPage ownerID cursor limit tenantID with
    | .error failure => some (.error failure)
    | .ok page =>
      match page.nextCursor with
      | none => some (.ok page.tasks)
      | some next => (walkTasks ownerID limit tenantID fuel (some next)).map fun others => others.map (page.tasks ++ ·)

end Database

end RhinoQ.Model.TaskSchema
