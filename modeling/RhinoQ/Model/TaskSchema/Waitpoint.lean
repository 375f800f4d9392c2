import RhinoQ.Model.TaskSchema.Task

/-! # Waitpoint commands -/

namespace RhinoQ.Model.TaskSchema.Database

section
variable (db : Database) (now : Timestamp) (id : String)

/-- The waitpoint of a task under a key. -/
def waitpointOf (taskID key : String) : Option (String × WaitpointRow) :=
  (db.waitpoints.entries.find? fun entry => entry.2.taskID == taskID && entry.2.key == key).map fun entry =>
    (entry.1, entry.2)

/-- `create_waitpoint`. It tells whether the waitpoint was there already. -/
def createWaitpoint (taskID key : String) (kind : WaitpointKind) (payloadVersion : ℤ) (deadline : Option Timestamp) :
    Except Failure (Bool × Database) := do
  refuse (btrim id == "" || btrim key == "" || decide (payloadVersion ≤ 0) || deadline.any fun t => decide (t ≤ now))
    (.violated "waitpoints_check")
  if (db.waitpoints.lookup id).isNone && (db.waitpointOf taskID key).isNone then
    let task ← found (db.tasks.lookup taskID) (.violated "waitpoints_task_tenant_fkey")
    let row : WaitpointRow :=
      { taskID, tenantID := task.tenantID, key, kind, payloadVersion, deadline, createdAt := now, updatedAt := now }
    return (false, Database.bumpTask { db with waitpoints := db.waitpoints.insert id row } taskID now)
  else
    let same := (db.waitpointOf taskID key).any fun entry =>
      entry.1 == id && entry.2.kind == kind && entry.2.payloadVersion == payloadVersion && entry.2.deadline == deadline
    refuse (!same) (.raised "RHINOQ_WAITPOINT_CONFLICT" id)
    return (true, db)

/-- `resolve_waitpoint`, the variant that knows the tenant; the older one only raises. -/
def resolveWaitpoint (tenantID ownerID : Option String) (expected : Option ℤ) (resolutionID actor value hash : String) :
    Except Failure Database := do
  refuse (blank tenantID) (.raised "RHINOQ_INVALID_TENANT" id)
  let row ← found (db.waitpoints.lookup id) (.raised "RHINOQ_WAITPOINT_NOT_FOUND" id)
  let owned := (db.tasks.lookup row.taskID).any fun task =>
    some task.tenantID == tenantID && task.ownerID.isSome && task.ownerID == ownerID
  refuse (!owned) (.raised "RHINOQ_WAITPOINT_NOT_FOUND" id)
  if row.state = .resolved then
    let same := row.resolution.any fun resolution =>
      resolution.id == resolutionID && resolution.hash == hash && resolution.value == value
    refuse (!same) (.raised "RHINOQ_WAITPOINT_CONFLICT" id)
    return db
  else
    refuse (stale row.version expected) (.raised "RHINOQ_VERSION_CONFLICT" id)
    refuse (row.state != .waiting || row.deadline.any fun t => decide (t ≤ now)) (.raised "RHINOQ_WAITPOINT_SETTLED" id)
    let taken := db.waitpoints.entries.any fun entry => entry.2.resolution.any fun resolution =>
      resolution.id == resolutionID
    refuse taken (.violated "waitpoints_resolution_id_uq")
    let after : WaitpointRow :=
      { row with
        state := .resolved, resolution := some { value, hash, id := resolutionID, resolvedBy := actor, resolvedAt := now }
        version := row.version + 1, updatedAt := now }
    return Database.bumpTask { db with waitpoints := db.waitpoints.insert id after } row.taskID now

/-- A waitpoint whose deadline has passed. -/
def isOverdue (row : WaitpointRow) : Bool := row.state == .waiting && row.deadline.any fun t => decide (t ≤ now)

/-- The overdue waitpoints, in the order of their deadlines. -/
def overdue : List (String × WaitpointRow) :=
  ((db.waitpoints.entries.map fun entry => (entry.1, entry.2)).filter fun entry => isOverdue now entry.2).mergeSort
    fun a b =>
    decide (a.2.deadline.getD 0 < b.2.deadline.getD 0 ∨ (a.2.deadline.getD 0 = b.2.deadline.getD 0 ∧ a.1 ≤ b.1))

/-- The body of the loop of `expire_waitpoints`. -/
def expireWaitpoint (entry : String × WaitpointRow) : Database :=
  let after := { entry.2 with state := .expired, version := entry.2.version + 1, updatedAt := now }
  Database.bumpTask { db with waitpoints := db.waitpoints.insert entry.1 after } entry.2.taskID now

/-- `expire_waitpoints`. -/
def expireWaitpoints (limit : Option ℤ) : Except Failure Database := do
  refuse (limit.any fun n => decide (n < 1) || decide (n > 500)) (.raised "RHINOQ_INVALID_REQUEST" "limit")
  -- a null limit does not limit
  let due := match limit with
    | none => db.overdue now
    | some n => (db.overdue now).take n.toNat
  return due.foldl (fun state entry => state.expireWaitpoint now entry) db

end

end RhinoQ.Model.TaskSchema.Database
