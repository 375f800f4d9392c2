import RhinoQ.Proofs.TaskSchema.Transaction

/-! # What an open transaction would commit

The version of an execution that a transaction sees is the committed one, or the one change that the
transaction makes to it. A row that it is about to change is held by it, and stays as it was checked.
-/

namespace RhinoQ.Model.TaskSchema

open VersionedTable Shared Txn

variable {s s' : Shared} {i j : ℕ} {now : Timestamp} {hash : String → ℤ} {txn next : Txn}
  {before after : Option ExecutionRow} {id taskID : String} {row : ExecutionRow}

/-- What other transactions can tell of a statement. -/
structure Shared.Acted (i : ℕ) (s s' : Shared) : Prop where
  tasks : Act i s.tasks s'.tasks
  executions : Act i s.executions s'.executions
  advisory : ∀ key j, s.advisory key = some j → s'.advisory key = some j
  claims : s'.claims = s.claims
  settlements : s'.settlements = s.settlements

namespace Shared

variable {id : String}

theorem acted_keep : Acted i s s := ⟨.keep, .keep, fun _ _ held => held, rfl, rfl⟩

theorem acted_takeItem (free : (s.advisory (hash (taskID ++ ":" ++ itemKey))).all (· == i) = true) :
    Acted i s (s.takeItem hash i taskID itemKey) := by
  refine ⟨.keep, .keep, ?_, rfl, rfl⟩
  intro key j held
  change Function.update s.advisory _ _ key = some j
  by_cases same : key = hash (taskID ++ ":" ++ itemKey)
  · subst same
    rw [held, Option.all_some, beq_iff_eq] at free
    rw [Function.update_self, free]
  · rw [Function.update_of_ne same, held]

theorem acted_lockExecution (free : (s.executions.row id).free i = true) : Acted i s (s.lockRow i id) :=
  ⟨.keep, .lock id free, fun _ _ held => held, rfl, rfl⟩

theorem acted_writeTask {row : TaskRow} (free : (s.tasks.row id).free i = true) :
    Acted i s { s with tasks := s.tasks.write i id row } :=
  ⟨.write id row free, .keep, fun _ _ held => held, rfl, rfl⟩

theorem Counted.acted (counted : s.Counted i id s') : Acted i s s' := by
  cases counted with
  | missing unseen => exact acted_keep
  | written change reads => exact acted_writeTask reads.free

theorem Counted.executions (counted : s.Counted i id s') : s'.executions = s.executions := by
  cases counted <;> rfl

end Shared

theorem Statement.acted (ran : Statement hash i now s txn s' next) : s.Acted i s' := by
  cases ran with
  | onceRead | onceFindTask | onceSeen | onceUnseen | onceFindCurrent | createFindTask | createNumber | retryRead
  | retryNumber | settleScan | settleUnready | settleMissing => exact acted_keep
  | onceLockItem free | createLockItem free | retryLockItem free => exact acted_takeItem free
  | onceLockNamed free | oncePass free | moveSame free => exact acted_lockExecution free
  | onceLockCurrent reads | retryLockNamed reads | moveLockNamed reads => exact acted_lockExecution reads.free
  | onceAppend reads | retrySupersede reads | moveUpdate reads | createInsert reads | retryInsert reads =>
    exact ⟨.keep, .write _ _ reads.free, fun _ _ held => held, rfl, rfl⟩
  | createCount counted | retryCount counted | moveCount counted => exact counted.acted
  | settleWrite reads => exact acted_writeTask reads.free
  | settlePass free => exact ⟨.lock _ free, .keep, fun _ _ held => held, rfl, rfl⟩

namespace Txn

/-- The task to which the transaction adds an attempt, once it has begun to write. -/
def adds : Txn → Option String
  | .create request (.count _) | .create request (.ready _) => some request.taskID
  | .retry _ _ _ (.number row) | .retry _ _ _ (.insert row _) | .retry _ _ _ (.count row _) | .retry _ _ _ (.ready row _) =>
    some row.taskID
  | _ => none

/-- The transaction may have moved the state of an attempt. -/
def moves : Txn → Bool
  | .move _ _ _ _ (.count _ _) | .move _ _ _ _ .ready => true
  | _ => false

/-- The committed version of an execution, and the one that the transaction sees. -/
inductive Pending : Txn → Option ExecutionRow → Option ExecutionRow → Prop
  | same (txn : Txn) (row : Option ExecutionRow) : Pending txn row row
  | claimed {id key : String} (row : ExecutionRow) (now : Timestamp) :
    Pending (.once id key (.callback row.taskID row.itemKey)) (some row) (some (row.claimed now (btrim key)))
  | superseded {txn : Txn} (row : ExecutionRow) (now : Timestamp) (adds : txn.adds = some row.taskID) :
    Pending txn (some row) (some (row.superseded now))
  | inserted {txn : Txn} (row : ExecutionRow) (adds : txn.adds = some row.taskID) (fresh : row.effectKeys = []) :
    Pending txn none (some row)
  | moved {txn : Txn} (row : ExecutionRow) (now : Timestamp) (target : ExecutionState) (reason : Option String)
    (moves : txn.moves = true) (open' : row.state.done = false) : Pending txn (some row) (some (row.moved now target reason))

/-- A transaction that has written nothing sees what is committed. -/
def quiet : Txn → Bool
  | .once _ _ (.callback _ _) => false
  | txn => txn.adds.isNone && !txn.moves

theorem Pending.eq_of_quiet (pending : txn.Pending before after) (quiet : txn.quiet = true) : before = after := by
  cases pending with
  | same => rfl
  | claimed row now => cases quiet
  | superseded _ _ adds | inserted _ adds =>
    cases txn with
    | idle | once | move | settle | ended => cases adds
    | create | retry => simp only [Txn.quiet, adds, Option.isNone_some, Bool.false_and, Bool.false_eq_true] at quiet
  | moved row now target reason moves open' =>
    cases txn with
    | idle | once | create | retry | settle | ended => cases moves
    | move => simp only [Txn.quiet, moves, Bool.not_true, Bool.and_false, Bool.false_eq_true] at quiet

/-- A transaction that goes on adding to the same task keeps what it has pending. -/
theorem Pending.of_adds (pending : txn.Pending before after) (adds : txn.adds = some taskID)
    (adds' : next.adds = some taskID) : next.Pending before after := by
  have same : ∀ {row : ExecutionRow}, txn.adds = some row.taskID → next.adds = some row.taskID := by
    intro row added
    rw [adds', ← adds, added]
  cases pending with
  | same => exact .same ..
  | claimed row now => cases adds
  | superseded row now added => exact .superseded row now (same added)
  | inserted row added fresh => exact .inserted row (same added) fresh
  | moved row now target reason moves open' =>
    cases txn with
    | idle | once | create | retry | settle | ended => cases moves
    | move => cases adds

theorem Pending.of_moves (pending : txn.Pending before after) (moves : txn.moves = true) (moves' : next.moves = true) :
    next.Pending before after := by
  have stays : ∀ {taskID : String}, txn.adds ≠ some taskID := by
    intro taskID added
    cases txn with
    | idle | once | create | retry | settle | ended => cases moves
    | move => cases added
  cases pending with
  | same => exact .same ..
  | claimed row now => cases moves
  | superseded _ _ added | inserted _ added => exact absurd added stays
  | moved row now target reason _ open' => exact .moved row now target reason moves' open'

end Txn

/-- The committed version of a task, and the one that the transaction sees. -/
inductive Txn.PendingTask : Txn → String → Option TaskRow → Option TaskRow → Prop
  | same (txn : Txn) (id : String) (row : Option TaskRow) : PendingTask txn id row row
  | counted {txn : Txn} {id : String} {row row' : TaskRow} (kept : row'.itemsSettledAt = row.itemsSettledAt) :
    PendingTask txn id (some row) (some row')
  | settled {id : String} {row row' : TaskRow} (unsettled : row.itemsSettledAt = none)
    (settles : row'.itemsSettledAt ≠ none) :
    PendingTask (.settle id (.answered true)) id (some row) (some row')

/-- A committed row that the transaction holds, with a property that it has checked. -/
def Shared.Held (s : Shared) (i : ℕ) (id : String) (checked : ExecutionRow → Prop) : Prop :=
  (s.executions.row id).holder = some i ∧ ∃ row, (s.executions.row id).committed = some row ∧ checked row

/-- The row that the transaction is about to change is as it was checked. -/
def Txn.Holds (s : Shared) (i : ℕ) : Txn → Prop
  | .once _ _ (.append taskID itemKey currentID) => s.Held i currentID fun row => row.taskID = taskID ∧ row.itemKey = itemKey
  | .retry id _ _ (.supersede row) => s.Held i id (· = row)
  | .move id _ _ _ .update => s.Held i id (·.state.done = false)
  | _ => True

/-- What a transaction relies on. -/
structure Txn.Sound (i : ℕ) (s : Shared) (txn : Txn) : Prop where
  executions : s.executions.Views i fun _ => txn.Pending
  tasks : s.tasks.Views i txn.PendingTask
  holds : txn.Holds s i

theorem Txn.Holds.of_rows (holds : txn.Holds s j)
    (kept : ∀ id, (s.executions.row id).holder = some j → s'.executions.row id = s.executions.row id) : txn.Holds s' j := by
  have held : ∀ {id : String} {checked : ExecutionRow → Prop}, s.Held j id checked → s'.Held j id checked := by
    intro id checked held
    rw [Held, kept id held.1]
    exact held
  unfold Holds at holds ⊢
  split
  · exact held holds
  · exact held holds
  · exact held holds
  · trivial

namespace Txn.Sound

theorem of_ended {answer : Answer} (executions : ∀ id, (s.executions.row id).holder ≠ some i)
    (tasks : ∀ id, (s.tasks.row id).holder ≠ some i) : (ended answer).Sound i s where
  executions := views_of_released executions fun _ => .same _
  tasks := views_of_released tasks (.same _)
  holds := trivial

variable (sound : txn.Sound j s)
include sound

theorem of_acted (acted : s.Acted i s') (other : j ≠ i) : txn.Sound j s' where
  executions := sound.executions.of_act acted.executions other
  tasks := sound.tasks.of_act acted.tasks other
  holds := sound.holds.of_rows fun _ held => acted.executions.row_of_holder held other

theorem of_commit (other : j ≠ i) : txn.Sound j (s.commit i) where
  executions := sound.executions.of_commit fun _ => .same _
  tasks := sound.tasks.of_commit (.same _)
  holds := sound.holds.of_rows fun _ held => row_commit_of_holder held other

theorem of_abort (other : j ≠ i) : txn.Sound j (s.abort i) where
  executions := sound.executions.of_abort other
  tasks := sound.tasks.of_abort other
  holds := sound.holds.of_rows fun _ held => row_abort_of_holder held other

theorem of_tables (executions : s'.executions = s.executions) (tasks : s'.tasks = s.tasks) :
    txn.Sound j s' where
  executions := executions ▸ sound.executions
  tasks := tasks ▸ sound.tasks
  holds := sound.holds.of_rows fun _ _ => by rw [executions]

theorem committed_eq (quiet : txn.quiet = true) (id : String) :
    (s.executions.row id).committed = (s.executions.row id).visible j :=
  (sound.executions id).eq_of_quiet quiet

theorem held_lock (quiet : txn.quiet = true)
    (seen : (s.executions.row id).visible j = some row) (fact : checked row) : (s.lockRow j id).Held j id checked := by
  refine ⟨?_, row, ?_, fact⟩
  · rw [lockRow, row_lock_self, Versions.holder_lock]
  · rw [lockRow, row_lock_self, Versions.committed_lock, sound.committed_eq quiet, seen]

/-- No transaction adds a task or takes one away. -/
theorem task_eq_none_iff (id : String) :
    (s.tasks.row id).visible j = none ↔ (s.tasks.row id).committed = none := by
  have pending := sound.tasks id
  generalize (s.tasks.row id).committed = before at pending ⊢
  generalize (s.tasks.row id).visible j = after at pending ⊢
  cases pending with
  | same => rfl
  | counted | settled => exact iff_of_false (Option.some_ne_none _) (Option.some_ne_none _)

end Txn.Sound

/-- Transactions that have written nothing stay so, whatever they are about to do. -/
theorem Txn.Pending.of_quiet (quiet : txn.quiet = true) (_ : String) (before after : Option ExecutionRow)
    (pending : txn.Pending before after) : next.Pending before after := by
  rw [pending.eq_of_quiet quiet]
  exact .same ..

/-- A settlement is all that a transaction may not carry over to its next statement. -/
theorem Txn.PendingTask.of_unsettled (unsettled : ∀ id, txn ≠ .settle id (.answered true)) (id : String)
    (before after : Option TaskRow)
    (pending : txn.PendingTask id before after) : next.PendingTask id before after := by
  cases pending with
  | same => exact .same ..
  | counted kept => exact .counted kept
  | settled => exact absurd rfl (unsettled id)

section
variable (ran : Statement hash i now s txn s' next)
include ran

theorem Statement.unsettled (id : String) : txn ≠ .settle id (.answered true) := by
  rintro rfl
  cases ran

variable (sound : txn.Sound i s)
include sound

theorem Statement.views_executions : s'.executions.Views i fun _ => next.Pending := by
  cases ran with
  | onceRead | onceFindTask | onceSeen | onceUnseen | onceFindCurrent | createFindTask | createNumber | retryRead
  | settleScan | settleUnready | settleMissing | onceLockItem | createLockItem | retryLockItem | settleWrite | settlePass =>
    exact sound.executions.mono (Pending.of_quiet rfl)
  | onceLockNamed free | oncePass free | moveSame free => exact sound.executions.lock (Pending.of_quiet rfl) free
  | onceLockCurrent reads | retryLockNamed reads | moveLockNamed reads =>
    exact sound.executions.lock (Pending.of_quiet rfl) reads.free
  | onceAppend reads =>
    refine sound.executions.write_checked (Pending.of_quiet rfl) (sound.committed_eq rfl _) sound.holds.2 reads.seen ?_
    rintro ⟨rfl, rfl⟩
    exact .claimed _ now
  | retrySupersede reads =>
    refine sound.executions.write_checked (Pending.of_quiet rfl) (sound.committed_eq rfl _) sound.holds.2 reads.seen ?_
    rintro rfl
    exact .superseded _ now rfl
  | moveUpdate reads =>
    refine sound.executions.write_checked (Pending.of_quiet rfl) (sound.committed_eq rfl _) sound.holds.2 reads.seen ?_
    exact fun open' => .moved _ now _ _ rfl open'
  | createInsert reads =>
    refine sound.executions.write (Pending.of_quiet rfl) ?_
    rw [sound.committed_eq rfl, reads.seen]
    exact .inserted _ rfl rfl
  | @retryInsert newID _ _ _ _ reads =>
    refine sound.executions.write (fun _ before after pending => pending.of_adds rfl rfl) ?_
    -- the new id is not one that the transaction sees, so nobody has committed it either
    have absent := sound.executions newID
    rw [reads.seen] at absent
    generalize (s.executions.row newID).committed = committed at absent ⊢
    cases absent with
    | same => exact .inserted _ rfl rfl
  | retryNumber attempt => exact sound.executions.mono fun _ before after pending => pending.of_adds rfl rfl
  | createCount counted | retryCount counted =>
    rw [counted.executions]
    exact sound.executions.mono fun _ before after pending => pending.of_adds rfl rfl
  | moveCount counted =>
    rw [counted.executions]
    exact sound.executions.mono fun _ before after pending => pending.of_moves rfl rfl

/-- A trigger counts on top of the version that the transaction sees. -/
theorem Statement.views_counted (counted : s.Counted i id s') : s'.tasks.Views i next.PendingTask := by
  have weaker : ∀ id before after, txn.PendingTask id before after → next.PendingTask id before after :=
    PendingTask.of_unsettled ran.unsettled
  cases counted with
  | missing unseen => exact sound.tasks.mono weaker
  | written change reads kept =>
    refine sound.tasks.write weaker ?_
    have pending := sound.tasks id
    rw [reads.seen] at pending
    generalize (s.tasks.row id).committed = committed at pending ⊢
    cases pending with
    | same => exact .counted kept
    | counted before => exact .counted (kept.trans before)
    | settled => exact absurd rfl (ran.unsettled id)

theorem Statement.views_tasks : s'.tasks.Views i next.PendingTask := by
  have weaker : ∀ id before after, txn.PendingTask id before after → next.PendingTask id before after :=
    PendingTask.of_unsettled ran.unsettled
  cases id ran with
  | createCount counted | retryCount counted | moveCount counted => exact ran.views_counted sound counted
  | @settleWrite row id reads unsettled =>
    refine sound.tasks.write weaker ?_
    have pending := sound.tasks id
    rw [reads.seen] at pending
    generalize (s.tasks.row id).committed = committed at pending ⊢
    cases pending with
    | same => exact .settled unsettled (Option.some_ne_none now)
    | counted kept => exact .settled (kept.symm.trans unsettled) (Option.some_ne_none now)
  | settlePass free => exact sound.tasks.lock weaker free
  | _ => exact sound.tasks.mono weaker

theorem Statement.holds : next.Holds s' i := by
  cases ran with
  | onceLockCurrent reads belongs => exact sound.held_lock rfl reads.seen belongs
  | retryLockNamed reads => exact sound.held_lock rfl reads.seen rfl
  | moveLockNamed reads open' => exact sound.held_lock rfl reads.seen open'
  | _ => trivial

end

theorem Statement.sound (ran : Statement hash i now s txn s' next) (sound : txn.Sound i s) : next.Sound i s' :=
  ⟨ran.views_executions sound, ran.views_tasks sound, ran.holds sound⟩

namespace Transaction

variable {p q : Pool Shared Txn} {event : Event} {db : Database}

/-- The steps of the sessions. -/
inductive Moved (hash : String → ℤ) (p : Pool Shared Txn) : Event → Pool Shared Txn → Prop
  | start (i : ℕ) (call : Call) (resting : (p.thread i).resting = true) : Moved hash p (.start i call)
    (p.move i p.shared call.start)
  | statement {i : ℕ} {now : Timestamp} {after : Shared} {next : Txn}
    (ran : Statement hash i now p.shared (p.thread i) after next)
    (taken : (p.thread i).statement hash p.shared i now = .moved after next) :
    Moved hash p (.statement i now) (p.move i after next)
  | raise {i : ℕ} {now : Timestamp} {failure : Failure}
    (raised : (p.thread i).statement hash p.shared i now = .raised failure) :
    Moved hash p (.statement i now) (p.move i (p.shared.abort i) (.ended (.thrown failure)))
  | commit {i : ℕ} {answer : Answer} (ready : (p.thread i).answer = some answer) :
    Moved hash p (.commit i) (p.move i ((p.thread i).record (p.shared.commit i)) (.ended answer))
  | rollback (i : ℕ) : Moved hash p (.rollback i) (p.move i (p.shared.abort i) (.ended .lost))

theorem step_moved (stepped : step hash p event = some q) : Moved hash p event q := by
  cases event with
  | start i call =>
    rw [step] at stepped
    split_ifs at stepped with resting
    cases stepped
    exact .start i call resting
  | statement i now =>
    rw [step] at stepped
    split at stepped
    · cases stepped
    next failure raised =>
      cases stepped
      exact .raise raised
    next after next ran =>
      cases stepped
      exact .statement (statement_eq_moved ran) ran
  | commit i =>
    rw [step] at stepped
    split at stepped
    · cases stepped
    rename_i answer ready
    cases stepped
    exact .commit ready
  | rollback i =>
    rw [step] at stepped
    split_ifs at stepped with resting
    cases stepped
    exact .rollback i

theorem record_executions : (txn.record s).executions = s.executions := by
  unfold record
  split <;> rfl

theorem record_tasks : (txn.record s).tasks = s.tasks := by
  unfold record
  split <;> rfl

theorem Call.start_cases {motive : Txn → Prop} (call : Call) (ended : ∀ answer, motive (.ended answer))
    (once : ∀ id key, motive (.once id key .read)) (create : ∀ request, motive (.create request .lockItem))
    (retry : ∀ id expected newID, motive (.retry id expected newID .read))
    (move : ∀ id expected target reason, motive (.move id expected target reason .lockNamed))
    (settle : ∀ id, motive (.settle id .scan)) : motive call.start := by
  cases call with
  | onceForItem executionID effectKey =>
    rw [Call.start]
    split_ifs
    · exact ended _
    · exact once _ _
  | createExecution request => exact create request
  | retryExecution id expected newID => exact retry id expected newID
  | transitionExecution id expected target reason => exact move id expected target reason
  | settleItems id => exact settle id

theorem sound_of_start (call : Call) (sound : txn.Sound i s) (resting : txn.resting = true) : call.start.Sound i s := by
  have quiet : txn.quiet = true := by
    cases txn with
    | idle | ended => rfl
    | once | create | retry | move | settle => cases resting
  refine ⟨sound.executions.mono (Pending.of_quiet quiet), sound.tasks.mono (PendingTask.of_unsettled ?_), ?_⟩
  · rintro id rfl
    cases resting
  · exact Call.start_cases (motive := Holds s i) call (fun _ => trivial) (fun _ _ => trivial) (fun _ => trivial)
      (fun _ _ _ => trivial) (fun _ _ _ _ => trivial) fun _ => trivial

theorem Moved.sound (moved : Moved hash p event q) (sound : ∀ j, (p.thread j).Sound j p.shared) (j : ℕ) :
    (q.thread j).Sound j q.shared := by
  cases moved with
  | start i call resting =>
    exact Pool.forall_move_index Sound sound (sound_of_start call (sound i) resting) (fun _ _ kept => kept) j
  | statement ran =>
    exact Pool.forall_move_index Sound sound (ran.sound (sound _)) (fun _ other kept => kept.of_acted ran.acted other) j
  | raise | rollback =>
    exact Pool.forall_move_index Sound sound (.of_ended released_abort released_abort)
      (fun _ other kept => kept.of_abort other) j
  | @commit i answer ready =>
    have ended : (ended answer).Sound i (p.shared.commit i) :=
      .of_ended released_commit released_commit
    exact Pool.forall_move_index Sound sound (ended.of_tables record_executions record_tasks)
      (fun _ other kept => (kept.of_commit other).of_tables record_executions record_tasks) j

theorem sound_start (j : ℕ) : idle.Sound j (machine hash db).start.shared where
  executions := views_of_released
    (fun id held => Option.some_ne_none j (held.symm.trans (holder_stored db.executions id))) fun _ => .same _
  tasks := views_of_released
    (fun id held => Option.some_ne_none j (held.symm.trans (holder_stored db.tasks id))) (.same _)
  holds := trivial

/-- A task with one attempt in the given state. -/
def oneAttempt (state : ExecutionState) : Database where
  tasks := (∅ : FiniteMap String TaskRow).insert "task"
    { type := "invoice", tenantID := "tenant", ownerID := none, definitionVersion := 1, createdAt := 0, updatedAt := 0 }
  executions := (∅ : FiniteMap String ExecutionRow).insert "first"
    { taskID := "task", tenantID := "tenant", itemKey := "item", attempt := 1, runtime := "bullmq", runtimeScope := ""
      externalID := some "job", state, createdAt := 0, updatedAt := 0 }

end Transaction

end RhinoQ.Model.TaskSchema
