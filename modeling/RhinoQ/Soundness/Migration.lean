import RhinoQ.Model.TaskSchema.Legacy
import RhinoQ.Proofs.TaskSchema.Tables

/-! # What migration 016 changes

Migration 016 moves the counters of a task and its version into statement triggers. Three of the commands it
replaces agree with their replacements on everything; `bind_execution` lost the branch that let an attempt be
bound to the reference it already has after it moved on, and checks the state first.
-/

namespace RhinoQ.Model.TaskSchema

open Database Counts

variable {new old : ExecutionRow} {runtime : Option String} {expected : Option ℤ}

/-- The code a client sees. -/
def Failure.code : Failure → String
  | .raised code _ => code
  | .violated constraint => constraint

/-- The tables without the versions of the tasks. -/
def Database.unversioned (db : Database) : Database :=
  { db with tasks := FiniteMap.mapValues (fun row => { row with version := 0 }) db.tasks }

/-- What is compared of a command: its error code, or its value and the tables it leaves. -/
def observed : Except Failure (ℤ × Database) → Except String (ℤ × Database)
  | .error failure => .error failure.code
  | .ok (value, after) => .ok (value, after.unversioned)

/-- A call of one of the replaced commands. -/
inductive ReplacedCall
  | createExecution (id taskID : String) (itemKey runtime runtimeScope externalID : Option String)
  | bindExecution (id : String) (expected : Option ℤ) (runtime runtimeScope externalID : Option String)
  | transitionExecution (id : String) (expected : Option ℤ) (target reason : Option String)
  | retryExecution (id : String) (expected : Option ℤ) (newID : String)

namespace ReplacedCall

def before (db : Database) (now : Timestamp) : ReplacedCall → Except Failure (ℤ × Database)
  | .createExecution id taskID itemKey runtime runtimeScope externalID =>
    Legacy.createExecution db now id taskID itemKey runtime runtimeScope externalID
  | .bindExecution id expected runtime runtimeScope externalID =>
    Legacy.bindExecution db now id expected runtime runtimeScope externalID
  | .transitionExecution id expected target reason => Legacy.transitionExecution db now id expected target reason
  | .retryExecution id expected newID => Legacy.retryExecution db now id expected newID

def after (db : Database) (now : Timestamp) : ReplacedCall → Except Failure (ℤ × Database)
  | .createExecution id taskID itemKey runtime runtimeScope externalID =>
    db.createExecutionReturning now id taskID itemKey runtime runtimeScope externalID
  | .bindExecution id expected runtime runtimeScope externalID =>
    db.bindExecutionReturning now id expected runtime runtimeScope externalID
  | .transitionExecution id expected target reason => db.transitionExecutionReturning now id expected target reason
  | .retryExecution id expected newID => db.retryExecutionReturning now id expected newID

/-- A bind that passes the fence and names the runtime of an attempt that left `pending_dispatch` with a reference. -/
def rebinds (db : Database) : ReplacedCall → Bool
  | .bindExecution id expected runtime _ _ =>
    (db.executions.lookup id).any fun row =>
      !stale row.version expected && row.runtime == btrim (runtime.getD "") && row.state != .pendingDispatch &&
        row.externalID.isSome
  | _ => false

end ReplacedCall

/-! ## The triggers -/

/-- Leaving one bucket and entering another, in either order. -/
theorem Counts.leave_enter (counts : Counts) (old new : ExecutionState) :
    { (counts.add (-1) old).add 1 new with total := counts.total + 0 } = (counts.add 1 new).add (-1) old := by
  apply ext_get
  · rw [total_add, total_add, Int.add_zero]
  · intro s
    simp only [get_withTotal, get_add]
    omega

section
variable {db : Database} {now : Timestamp} {id : String}
variable {runtimeScope externalID : Option String}

theorem updateTask_updateTask (f g : TaskRow → TaskRow) :
    (db.updateTask id f).updateTask id g = db.updateTask id fun row => g (f row) := by
  unfold updateTask
  cases stored : db.tasks.lookup id with
  | none => simp only [stored]
  | some row => simp only [AList.lookup_insert, AList.insert_insert]

theorem bumpTask_inserted (state : ExecutionState) :
    (db.updateTask id fun task => task.updateCounts 1 none state).bumpTask id now =
      db.updateTask id fun task => task.countInserted now state := by
  rw [bumpTask, updateTask_updateTask]
  rfl

theorem bumpTask_moved (old new : ExecutionState) :
    (db.updateTask id fun task => task.updateCounts 0 (some old) new).bumpTask id now =
      db.updateTask id fun task => task.countMoved now old new := by
  rw [bumpTask, updateTask_updateTask]
  congr 1
  funext task
  simp only [TaskRow.updateCounts, TaskRow.countMoved, addTo, leave_enter]

theorem insertExecution_bumped (row : ExecutionRow) (value : ℤ) :
    (do let inserted ← Legacy.insertExecution db id row; return (value, inserted.bumpTask row.taskID now)) =
      (db.insertExecution now id row).map (value, ·) := by
  unfold Legacy.insertExecution insertExecution
  cases (db.executions.lookup id).isSome || db.clashes id row with
  | true => rfl
  | false => exact congrArg (fun after => Except.ok (value, after)) (bumpTask_inserted row.state)

theorem updateExecution_bumped (moves : old.state ≠ new.state) :
    (Legacy.updateExecution db id old new).bumpTask new.taskID now = db.updateExecution now id old new := by
  unfold Legacy.updateExecution updateExecution
  simp only [if_neg moves]
  exact bumpTask_moved old.state new.state

theorem updateExecution_same (same : old.state = new.state) :
    Legacy.updateExecution db id old new = db.updateExecution now id old new := by
  unfold Legacy.updateExecution updateExecution
  simp only [if_pos same]

theorem orExists_map (detail : String) (result : Except Failure Database) (value : ℤ) :
    Legacy.orExists detail (result.map (value, ·)) = (orExists detail result).map (value, ·) := by
  unfold Legacy.orExists orExists
  cases result with
  | ok after => rfl
  | error failure =>
    simp only [Except.map]
    split <;> simp_all

/-! ## The commands -/

theorem createExecution_returns (taskID : String) (itemKey runtime runtimeScope externalID : Option String) :
    Legacy.createExecution db now id taskID itemKey runtime runtimeScope externalID =
      db.createExecutionReturning now id taskID itemKey runtime runtimeScope externalID := by
  unfold Legacy.createExecution createExecutionReturning createExecution
  simp only [bind_assoc]
  refine bind_congr fun _ => bind_congr fun task => ?_
  refine (congrArg (Legacy.orExists id) (insertExecution_bumped _ _)).trans ?_
  exact orExists_map id _ _

theorem transitionExecution_returns (expected : Option ℤ) (target reason : Option String) :
    Legacy.transitionExecution db now id expected target reason =
      db.transitionExecutionReturning now id expected target reason := by
  unfold Legacy.transitionExecution transitionExecutionReturning transitionExecution
  cases located : db.execution id with
  | error failure => rfl
  | ok row =>
    simp only [bind, Except.bind, moveExecution]
    cases target.bind ExecutionState.ofText with
    | none => rfl
    | some state =>
      by_cases same : row.state = state
      · simp only [if_pos same]
        rfl
      · simp only [if_neg same]
        cases stale row.version expected with
        | true => rfl
        | false =>
          cases !row.state.canTransition row.externalID.isSome state with
          | true => rfl
          | false => exact congrArg (fun after => Except.ok (row.version + 1, after)) (updateExecution_bumped same)

theorem retryExecution_returns (expected : Option ℤ) (newID : String) :
    Legacy.retryExecution db now id expected newID = db.retryExecutionReturning now id expected newID := by
  unfold Legacy.retryExecution retryExecutionReturning retryExecution
  rw [bind_assoc]
  refine bind_congr fun _ => ?_
  cases located : db.execution id with
  | error failure => rfl
  | ok row =>
    change (refuse _ _ >>= fun _ => refuse _ _ >>= fun _ => refuse _ _ >>= fun _ => _) = _
    simp only [bind_assoc]
    refine bind_congr fun _ => bind_congr fun _ => bind_congr fun _ => ?_
    -- Superseding an attempt leaves its state, so neither trigger counts anything.
    have superseded : Legacy.updateExecution db id row (row.superseded now) =
      db.updateExecution now id row (row.superseded now) := updateExecution_same rfl
    rw [superseded]
    refine (congrArg (Legacy.orExists newID) (insertExecution_bumped _ _)).trans ?_
    exact orExists_map newID _ _

/-- Outside the lost branch the two binds agree. -/
theorem bindExecution_returns
    (first : ReplacedCall.rebinds db (.bindExecution id expected runtime runtimeScope externalID) = false) :
    Legacy.bindExecution db now id expected runtime runtimeScope externalID =
      db.bindExecutionReturning now id expected runtime runtimeScope externalID := by
  unfold Legacy.bindExecution bindExecutionReturning bindExecution execution
  cases stored : db.executions.lookup id with
  | none => rfl
  | some row =>
    simp only [ReplacedCall.rebinds, stored, Option.any_some] at first
    simp only [found, bind, Except.bind]
    cases fence : stale row.version expected with
    | true => rfl
    | false =>
      by_cases named : row.runtime = btrim (runtime.getD "")
      · by_cases pending : row.state = .pendingDispatch
        · simp only [refuse, named, pending, bne_self_eq_false, Bool.or_self, ne_eq, not_true_eq_false,
            Bool.false_eq_true, if_false]
          generalize conflict : Option.any _ row.externalID = bound
          cases bound with
          | true => rfl
          | false =>
            cases blank externalID with
            | true => rfl
            | false =>
              simp only [Bool.false_eq_true, if_false]
              split
              next => rfl
              refine congrArg (fun after => Except.ok (row.version + 1, after)) (updateExecution_bumped ?_)
              rw [pending]
              exact nofun
        · have unbound : row.externalID = none := by simpa [fence, named, pending] using first
          simp [refuse, named, pending, unbound]
      · simp [refuse, named]

/-- In the lost branch the replacement refuses, and what it replaces succeeds or names the other reference. -/
theorem bindExecution_differs
    (again : ReplacedCall.rebinds db (.bindExecution id expected runtime runtimeScope externalID) = true) :
    observed (Legacy.bindExecution db now id expected runtime runtimeScope externalID) ≠
      observed (db.bindExecutionReturning now id expected runtime runtimeScope externalID) := by
  obtain ⟨row, present, again⟩ := (Option.any_eq_true _ _).mp again
  simp only [Bool.and_eq_true, Bool.not_eq_true', beq_iff_eq, bne_iff_ne, Option.isSome_iff_exists] at again
  obtain ⟨⟨⟨fence, named⟩, moved⟩, bound, carries⟩ := again
  have located : db.execution id = .ok row := by rw [execution, present]; rfl
  have refused : db.bindExecutionReturning now id expected runtime runtimeScope externalID =
      .error (.raised "RHINOQ_INVALID_EXECUTION_BINDING" id) := by
    simp [bindExecutionReturning, bindExecution, located, bind, Except.bind, refuse, fence, moved]
  rw [refused]
  unfold Legacy.bindExecution
  simp only [located, bind, Except.bind, fence, named, carries, Option.any_some, bne_self_eq_false, ne_eq, moved,
    not_false_eq_true, if_true]
  cases other : bound != btrim (externalID.getD "") || row.runtimeScope != btrim (runtimeScope.getD "") with
  | true => simp [refuse, observed, Failure.code]
  | false =>
    have same : bound = btrim (externalID.getD "") := by
      rw [Bool.or_eq_false_iff] at other
      simpa using other.1
    simp [refuse, observed, pure, Except.pure, same]

end

/-- A replaced command and its replacement answer alike and leave the same tables, up to the versions of
the tasks, exactly when the call is no bind of an attempt that has moved on with a reference. -/
theorem replacement_observed_iff (db : Database) (now : Timestamp) (call : ReplacedCall) :
    observed (call.before db now) = observed (call.after db now) ↔ call.rebinds db = false := by
  cases call with
  | createExecution => exact iff_of_true (congrArg observed (createExecution_returns ..)) rfl
  | transitionExecution => exact iff_of_true (congrArg observed (transitionExecution_returns ..)) rfl
  | retryExecution => exact iff_of_true (congrArg observed (retryExecution_returns ..)) rfl
  | bindExecution id expected runtime runtimeScope externalID =>
    constructor
    · intro same
      by_contra again
      exact bindExecution_differs (Bool.eq_true_of_not_eq_false again) same
    · exact fun first => congrArg observed (bindExecution_returns first)

/-- A dispatched attempt of job `j1`. -/
def boundAttempt : Database where
  tasks := AList.insert "t1"
    { type := "import", tenantID := "acme", ownerID := none, definitionVersion := 1, state := .running, version := 4
      createdAt := 0, updatedAt := 2, counts := { total := 1, dispatched := 1 } } ∅
  executions := AList.insert "e1"
    { taskID := "t1", tenantID := "acme", itemKey := "a", attempt := 1, runtime := "bullmq", runtimeScope := "imports"
      externalID := some "j1", state := .dispatched, version := 2, createdAt := 1, updatedAt := 2 } ∅

/-- Binding it to the job it is bound to was a success that changed nothing, and is an error now. -/
theorem rebind_refused :
    let call := ReplacedCall.bindExecution "e1" (some 2) (some "bullmq") (some "imports") (some "j1")
    call.before boundAttempt 3 = .ok (2, boundAttempt) ∧
      call.after boundAttempt 3 = .error (.raised "RHINOQ_INVALID_EXECUTION_BINDING" "e1") ∧
      observed (call.before boundAttempt 3) ≠ observed (call.after boundAttempt 3) := by
  refine ⟨rfl, rfl, ?_⟩
  intro same
  cases same

end RhinoQ.Model.TaskSchema
