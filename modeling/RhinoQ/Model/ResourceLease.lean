import RhinoQ.Machine.Pool
import RhinoQ.Machine.RowLocks
import RhinoQ.Model.TaskSchema.Tables
import RhinoQ.ToMathlib.FiniteMapTotal

/-! # Leases on shared worker capacity

`acquire_resource_lease`, `renew_resource_lease` and `release_resource_lease`, statement by statement under
READ COMMITTED. Each reads the clock once, before it waits for anything. The sweep of an admission finds the
leases that have run out in its snapshot and looks at each again once it has the row. The first two name columns of
their result without a table: what such a name means is a setting of the server.
-/

namespace RhinoQ.Model.ResourceLease

open TaskSchema (Timestamp Failure btrim blank refuse found)

/-- The four dimensions of a pool. The columns are checked not to be negative. -/
structure Resources where
  cpu : ℕ
  memory : ℕ
  disk : ℕ
  network : ℕ
  deriving DecidableEq

inductive Dimension
  | cpu | memory | disk | network

namespace Resources

def get (r : Resources) : Dimension → ℕ
  | .cpu => r.cpu
  | .memory => r.memory
  | .disk => r.disk
  | .network => r.network

/-- `IS NULL` or negative in some dimension, or zero in all of them, is no vector. -/
def parse (cpu memory disk network : Option ℤ) : Option Resources :=
  match cpu, memory, disk, network with
  | some c, some m, some d, some n =>
    if c < 0 || m < 0 || d < 0 || n < 0 || (c == 0 && m == 0 && d == 0 && n == 0) then none
    else some ⟨c.toNat, m.toNat, d.toNat, n.toNat⟩
  | _, _, _, _ => none

/-- Some dimension of the first is greater. -/
def exceeds (a b : Resources) : Bool :=
  decide (b.cpu < a.cpu) || decide (b.memory < a.memory) || decide (b.disk < a.disk) || decide (b.network < a.network)

end Resources

inductive LeaseState
  | active | released | expired
  deriving DecidableEq

/-- The primary key of `resource_pools`. -/
structure PoolKey where
  tenantID : String
  key : String
  deriving DecidableEq

/-- `UNIQUE (tenant_id, task_id, execution_id, pool_key)`: what a row of `resource_leases` stays with. -/
structure LeaseKey where
  pool : PoolKey
  taskID : String
  executionID : String
  deriving DecidableEq

/-- What the holder of a lease shows. -/
structure Grant where
  id : String
  owner : String
  epoch : ℤ
  deriving DecidableEq

/-- A row of `resource_leases`, without its unique key and the times that nothing reads. -/
structure LeaseRow where
  grant : Grant
  resources : Resources
  state : LeaseState
  leaseUntil : Timestamp

/-- `state = 'active' AND lease_until > now`. -/
def LeaseRow.holds (row : LeaseRow) (now : Timestamp) : Bool := row.state == .active && decide (now < row.leaseUntil)

/-- `state = 'active' AND lease_until <= now`. -/
def LeaseRow.ranOut (row : LeaseRow) (now : Timestamp) : Bool := row.state == .active && decide (row.leaseUntil ≤ now)

/-- What a lease takes of a pool at a time. -/
def held (pool : PoolKey) (now : Timestamp) (d : Dimension) (k : LeaseKey) (row : LeaseRow) : ℕ :=
  if k.pool = pool && row.holds now then row.resources.get d else 0

/-- The sums over the leases of a pool. -/
def used (leases : FiniteMap LeaseKey LeaseRow) (pool : PoolKey) (now : Timestamp) : Resources where
  cpu := FiniteMap.total (held pool now .cpu) leases
  memory := FiniteMap.total (held pool now .memory) leases
  disk := FiniteMap.total (held pool now .disk) leases
  network := FiniteMap.total (held pool now .network) leases

/-- What the transactions share, with the database clock. The last field records the grants that have committed. -/
structure Shared where
  clock : Timestamp := 0
  pools : VersionedTable PoolKey Resources := ∅
  leases : VersionedTable LeaseKey LeaseRow := ∅
  grants : List (LeaseKey × Grant) := []

/-- `plpgsql.variable_conflict`: a name that is a variable as well as a column is refused, or it is the column. -/
inductive VariableConflict
  | error | useColumn

/-- The tenant of each task, the task and tenant of each execution, and the setting. -/
structure Server where
  task : String → Option String
  execution : String → Option (String × String)
  conflict : VariableConflict := .error

/-- The parameters of `acquire_resource_lease`. -/
structure AcquireRequest where
  id : Option String
  poolKey : Option String
  taskID : Option String
  executionID : Option String
  owner : Option String
  cpuCapacity : Option ℤ
  memoryCapacity : Option ℤ
  diskCapacity : Option ℤ
  networkCapacity : Option ℤ
  cpu : Option ℤ
  memory : Option ℤ
  disk : Option ℤ
  network : Option ℤ
  leaseMs : Option ℤ

/-- `p_lease_ms IS NULL OR p_lease_ms < 1000 OR p_lease_ms > 3600000` is no duration. The result is in microseconds. -/
def duration (leaseMs : Option ℤ) : Option ℤ :=
  match leaseMs with
  | some ms => if ms < 1000 || 3600000 < ms then none else some (ms * 1000)
  | none => none

/-- A request that has passed its checks, with the time at which the function was entered. -/
structure Admission where
  id : String
  key : LeaseKey
  owner : String
  capacity : Resources
  resources : Resources
  duration : ℤ
  now : Timestamp

/-- The checks of `acquire_resource_lease` and its two lookups. -/
def AcquireRequest.admission (request : AcquireRequest) (server : Server) (now : Timestamp) : Except Failure Admission := do
  let invalid := Failure.raised "RHINOQ_INVALID_RESOURCE_LEASE"
  let poolKey := btrim (request.poolKey.getD "")
  refuse (blank request.id || poolKey == "" || blank request.taskID || blank request.executionID || blank request.owner ||
    decide (128 < poolKey.length)) invalid
  let duration ← found (duration request.leaseMs) invalid
  let capacity ← found (Resources.parse request.cpuCapacity request.memoryCapacity request.diskCapacity
    request.networkCapacity) invalid
  let resources ← found (Resources.parse request.cpu request.memory request.disk request.network) invalid
  let taskID := request.taskID.getD ""
  let executionID := request.executionID.getD ""
  let tenantID ← found (server.task taskID) (.raised "RHINOQ_TASK_NOT_FOUND" taskID)
  refuse (server.execution executionID != some (taskID, tenantID)) (.raised "RHINOQ_RESOURCE_LEASE_EXECUTION_MISMATCH")
  return { id := request.id.getD "", key := ⟨⟨tenantID, poolKey⟩, taskID, executionID⟩,
           owner := btrim (request.owner.getD "")
           capacity, resources, duration, now }

/-- The row that an admission writes, over the one that was there. -/
def Admission.row (a : Admission) (existing : Option LeaseRow) : LeaseRow where
  grant := ⟨a.id, a.owner, existing.elim 1 fun row => row.grant.epoch + 1⟩
  resources := a.resources
  state := .active
  leaseUntil := a.now + a.duration

inductive AcquirePhase
  | insertPool
  | lockPool
  | sweep
  | expire (candidates : List LeaseKey)
  | lockOwn
  | sum (existing : Option LeaseRow)
  | write (existing : Option LeaseRow)
  | granted (row : LeaseRow)
  | replayed (row : LeaseRow)

/-- The statements of a renewal and of a release. -/
inductive PresentPhase
  | find
  | lock (key : LeaseKey)
  | update (key : LeaseKey)
  | ready (key : LeaseKey) (row : LeaseRow)

/-- The grant that a caller shows to renew or to release. -/
def shown (id owner : Option String) (epoch : Option ℤ) : Option Grant :=
  match epoch with
  | some epoch => if blank id || blank owner || epoch < 1 then none else some ⟨id.getD "", btrim (owner.getD ""), epoch⟩
  | none => none

namespace Resources

def add (a b : Resources) : Resources := ⟨a.cpu + b.cpu, a.memory + b.memory, a.disk + b.disk, a.network + b.network⟩

end Resources

namespace Shared

variable (s : Shared) (i : ℕ)

/-- The leases of a pool that have run out, in the snapshot of the sweep. -/
def candidates (pool : PoolKey) (now : Timestamp) : List LeaseKey :=
  ((s.leases.snapshot i).entries.filter fun entry => entry.1.pool == pool && entry.2.ranOut now).map (·.1)

/-- Another row has the primary key. -/
def clashes (own : LeaseKey) (id : String) : Bool :=
  (s.leases.snapshot i).entries.any fun entry => entry.1 != own && entry.2.grant.id == id

/-- Another transaction has a version, not yet committed, that bears on the primary key. -/
def contested (own : LeaseKey) (id : String) : Bool :=
  s.leases.entries.any fun entry => entry.1 != own && entry.2.holder.any (· != i) && entry.2.written.isSome &&
    [entry.2.committed, entry.2.written].any fun version => version.any (·.grant.id == id)

/-- `WHERE id = id` in a snapshot. -/
def findLease (id : String) : Option LeaseKey :=
  ((s.leases.snapshot i).entries.find? fun entry => entry.2.grant.id == id).map (·.1)

/-- The row of a lease under its lock, in its latest version. -/
def lockLease {φ : Type} (key : LeaseKey) (missing : Reply Shared Failure φ) (next : LeaseRow → Reply Shared Failure φ) :
    Reply Shared Failure φ :=
  match (s.leases.row key).visible i with
  | none => missing
  | some row => if (s.leases.row key).free i then next row else .blocked

def abort : Shared := { s with pools := s.pools.abort i, leases := s.leases.abort i }

def commit : Shared := { s with pools := s.pools.commit i, leases := s.leases.commit i }

end Shared

section
variable (s : Shared) (i : ℕ)

/-- A statement that names the column of a result. -/
def named {φ : Type} (conflict : VariableConflict) (column : String) (reply : Reply Shared Failure φ) :
    Reply Shared Failure φ :=
  match conflict with
  | .error => .raised (.raised "42702" ("column reference \"" ++ column ++ "\" is ambiguous"))
  | .useColumn => reply

/-- The statements of `acquire_resource_lease`. -/
def acquireResourceLease (conflict : VariableConflict) (a : Admission) : AcquirePhase → Reply Shared Failure AcquirePhase
  | .insertPool => named conflict "pool_key" <|
    -- `ON CONFLICT DO NOTHING` waits for an insert of the same pool that is not committed
    match (s.pools.row a.key.pool).visible i with
    | some _ => .moved s .lockPool
    | none =>
      if (s.pools.row a.key.pool).free i then .moved { s with pools := s.pools.write i a.key.pool a.capacity } .lockPool
      else .blocked
  | .lockPool =>
    match (s.pools.row a.key.pool).visible i with
    | none => .raised (.raised "RHINOQ_RESOURCE_POOL_NOT_FOUND" a.key.pool.key)
    | some capacity =>
      if (s.pools.row a.key.pool).free i then
        if capacity ≠ a.capacity then .raised (.raised "RHINOQ_RESOURCE_POOL_CONFIG_MISMATCH" a.key.pool.key)
        else if a.resources.exceeds capacity then .raised (.raised "RHINOQ_RESOURCE_REQUEST_EXCEEDS_CAPACITY" a.key.pool.key)
        else .moved { s with pools := s.pools.lock i a.key.pool } .sweep
      else .blocked
  | .sweep => .moved s (.expire (s.candidates i a.key.pool a.now))
  | .expire [] => .moved s .lockOwn
  | .expire (key :: rest) => s.lockLease i key (.moved s (.expire rest)) fun row =>
    if row.ranOut a.now then .moved { s with leases := s.leases.write i key { row with state := .expired } } (.expire rest)
    else .moved { s with leases := s.leases.lock i key } (.expire rest)
  | .lockOwn => s.lockLease i a.key (.moved s (.sum none)) fun row =>
    if row.holds a.now then
      if row.grant.owner = a.owner ∧ row.resources = a.resources then
        .moved { s with leases := s.leases.lock i a.key } (.replayed row)
      else .raised (.raised "RHINOQ_RESOURCE_LEASE_HELD" a.key.pool.key)
    else .moved { s with leases := s.leases.lock i a.key } (.sum (some row))
  | .sum existing =>
    if ((used (s.leases.snapshot i) a.key.pool a.now).add a.resources).exceeds a.capacity then
      .raised (.raised "RHINOQ_RESOURCE_UNAVAILABLE" a.key.pool.key)
    else .moved s (.write existing)
  | .write existing =>
    if s.contested i a.key a.id then .blocked
    else if s.clashes i a.key a.id then .raised (.violated "resource_leases_pkey")
    else if existing.isNone && ((s.leases.row a.key).visible i).isSome then
      .raised (.violated "resource_leases_tenant_id_task_id_execution_id_pool_key_key")
    else if (s.leases.row a.key).free i then
      .moved { s with leases := s.leases.write i a.key (a.row existing) } (.granted (a.row existing))
    else .blocked
  | .granted _ | .replayed _ => .blocked

/-- The statements of `renew_resource_lease`. -/
def renewResourceLease (conflict : VariableConflict) (grant : Grant) (duration : ℤ) (now : Timestamp) :
    PresentPhase → Reply Shared Failure PresentPhase
  | .find =>
    match s.findLease i grant.id with
    | none => .raised (.raised "RHINOQ_RESOURCE_LEASE_FENCED" grant.id)
    | some key => .moved s (.lock key)
  | .lock key => s.lockLease i key (.raised (.raised "RHINOQ_RESOURCE_LEASE_FENCED" grant.id)) fun row =>
    -- a row that has got another id in the meantime is not found any more
    if row.grant = grant ∧ row.holds now then .moved { s with leases := s.leases.lock i key } (.update key)
    else .raised (.raised "RHINOQ_RESOURCE_LEASE_FENCED" grant.id)
  | .update key => named conflict "id" <|
    s.lockLease i key (.raised (.raised "RHINOQ_RESOURCE_LEASE_FENCED" grant.id)) fun row =>
      .moved { s with leases := s.leases.write i key { row with leaseUntil := now + duration } }
        (.ready key { row with leaseUntil := now + duration })
  | .ready _ _ => .blocked

/-- The statements of `release_resource_lease`. A lease that was released by its grant may be released again. -/
def releaseResourceLease (grant : Grant) (now : Timestamp) : PresentPhase → Reply Shared Failure PresentPhase
  | .find =>
    match s.findLease i grant.id with
    | none => .raised (.raised "RHINOQ_RESOURCE_LEASE_FENCED" grant.id)
    | some key => .moved s (.lock key)
  | .lock key => s.lockLease i key (.raised (.raised "RHINOQ_RESOURCE_LEASE_FENCED" grant.id)) fun row =>
    if row.grant ≠ grant then .raised (.raised "RHINOQ_RESOURCE_LEASE_FENCED" grant.id)
    else if row.state = .released then .moved { s with leases := s.leases.lock i key } (.ready key row)
    else if row.holds now then .moved { s with leases := s.leases.lock i key } (.update key)
    else .raised (.raised "RHINOQ_RESOURCE_LEASE_FENCED" grant.id)
  | .update key => s.lockLease i key (.raised (.raised "RHINOQ_RESOURCE_LEASE_FENCED" grant.id)) fun row =>
    .moved { s with leases := s.leases.write i key { row with state := .released, leaseUntil := now } }
      (.ready key { row with state := .released, leaseUntil := now })
  | .ready _ _ => .blocked

end

/-- A call with its arguments. -/
inductive Call
  | acquire (request : AcquireRequest)
  | renew (id owner : Option String) (epoch leaseMs : Option ℤ)
  | release (id owner : Option String) (epoch : Option ℤ)

/-- What a call answers. `lost` is for a failure from outside. -/
inductive Answer
  | leased (row : LeaseRow)
  | renewed (row : LeaseRow)
  | released
  | thrown (failure : Failure)
  | lost

/-- A session: a transaction and where it stands, or the answer of the last one. -/
inductive Txn
  | idle
  | acquire (a : Admission) (phase : AcquirePhase)
  | renew (grant : Grant) (duration : ℤ) (now : Timestamp) (phase : PresentPhase)
  | release (grant : Grant) (now : Timestamp) (phase : PresentPhase)
  | ended (answer : Answer)

variable (server : Server)

/-- The entry of a function: it reads the clock and checks its arguments. -/
def Call.start (now : Timestamp) : Call → Txn
  | .acquire request =>
    match request.admission server now with
    | .error failure => .ended (.thrown failure)
    | .ok a => .acquire a .insertPool
  | .renew id owner epoch leaseMs =>
    match shown id owner epoch, duration leaseMs with
    | some grant, some duration => .renew grant duration now .find
    | _, _ => .ended (.thrown (.raised "RHINOQ_INVALID_RESOURCE_LEASE_RENEWAL"))
  | .release id owner epoch =>
    match shown id owner epoch with
    | some grant => .release grant now .find
    | none => .ended (.thrown (.raised "RHINOQ_INVALID_RESOURCE_LEASE_RELEASE"))

namespace Txn

/-- No transaction is open. -/
def resting : Txn → Bool
  | .idle | .ended _ => true
  | _ => false

/-- The next statement of the transaction. -/
def statement (conflict : VariableConflict) (s : Shared) (i : ℕ) : Txn → Reply Shared Failure Txn
  | .acquire a phase => (acquireResourceLease s i conflict a phase).map (.acquire a)
  | .renew grant duration now phase => (renewResourceLease s i conflict grant duration now phase).map
    (.renew grant duration now)
  | .release grant now phase => (releaseResourceLease s i grant now phase).map (.release grant now)
  | .idle | .ended _ => .blocked

/-- The answer of a transaction that has only its commit left. -/
def answer : Txn → Option Answer
  | .acquire _ (.granted row) | .acquire _ (.replayed row) => some (.leased row)
  | .renew _ _ _ (.ready _ row) => some (.renewed row)
  | .release _ _ (.ready _ _) => some .released
  | _ => none

/-- What the commit of a transaction adds to the record. -/
def record (s : Shared) : Txn → Shared
  | .acquire a (.granted row) => { s with grants := s.grants ++ [(a.key, row.grant)] }
  | _ => s

end Txn

inductive Event
  | tick (now : Timestamp)
  | start (i : ℕ) (call : Call)
  | statement (i : ℕ)
  | commit (i : ℕ)
  | rollback (i : ℕ)

def step (p : Pool Shared Txn) : Event → Option (Pool Shared Txn)
  | .tick now => if p.shared.clock ≤ now then some (p.update { p.shared with clock := now }) else none
  | .start i call =>
    if (p.thread i).resting then some (p.move i p.shared (call.start server p.shared.clock)) else none
  | .statement i =>
    match (p.thread i).statement server.conflict p.shared i with
    | .blocked => none
    | .raised failure => some (p.move i (p.shared.abort i) (.ended (.thrown failure)))
    | .moved shared next => some (p.move i shared next)
  | .commit i =>
    match (p.thread i).answer with
    | none => none
    | some answer => some (p.move i ((p.thread i).record (p.shared.commit i)) (.ended answer))
  | .rollback i => if (p.thread i).resting then none else some (p.move i (p.shared.abort i) (.ended .lost))

/-- Sessions over empty tables. -/
def machine : Machine (Pool Shared Txn) Event where
  start := { shared := {}, thread := fun _ => .idle }
  step := step server

end RhinoQ.Model.ResourceLease
