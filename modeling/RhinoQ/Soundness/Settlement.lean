import RhinoQ.Proofs.TaskSchema.Pending

/-! # A settlement and the attempts of its task

`settle_items` looks at the attempts in the snapshot of its statement and then waits for the row of the task. A
creation or a retry that holds that row commits in between, and the settlement looks again at
`items_settled_at` only.
-/

namespace RhinoQ.Model.TaskSchema

open VersionedTable Pool Txn Machine

variable {s s' : Shared} {i j : ℕ} {now : Timestamp} {hash : String → ℤ} {txn next : Txn} {taskID id : String}

/-- A live attempt of the task. -/
def ExecutionRow.LiveFor (row : ExecutionRow) (taskID : String) : Prop := row.taskID = taskID ∧ row.live = true

namespace Shared

/-- The task has a live attempt, and all of them have succeeded, failed or been cancelled. -/
structure Settled (s : Shared) (taskID : String) : Prop where
  exist : ∃ id row, (s.executions.row id).committed = some row ∧ row.LiveFor taskID
  done : ∀ id row, (s.executions.row id).committed = some row → row.LiveFor taskID → row.state.done = true

/-- The transaction has settled the task, and nobody had before. -/
structure Closing (s : Shared) (i : ℕ) (taskID : String) : Prop where
  holds : (s.tasks.row taskID).holder = some i
  unsettled : ∃ task, (s.tasks.row taskID).committed = some task ∧ task.itemsSettledAt = none
  settles : ∃ task, (s.tasks.row taskID).visible i = some task ∧ task.itemsSettledAt ≠ none

/-- The transaction has the row of the task, if there is one. -/
def HasTask (s : Shared) (i : ℕ) (taskID : String) : Prop :=
  (s.tasks.row taskID).holder = some i ∨ (s.tasks.row taskID).committed = none

theorem mem_liveExecutions {row : ExecutionRow} : row ∈ (s.view i).liveExecutions taskID ↔
    ∃ id, (s.executions.row id).visible i = some row ∧ row.LiveFor taskID := by
  simp only [Database.liveExecutions, List.mem_filter, FiniteMap.mem_values_iff, view_executions, Bool.and_eq_true,
    beq_iff_eq, ExecutionRow.LiveFor]
  constructor
  · rintro ⟨⟨id, seen⟩, live⟩
    exact ⟨id, seen, live⟩
  · rintro ⟨id, seen, live⟩
    exact ⟨⟨id, seen⟩, live⟩

end Shared

/-- A transaction that has written nothing sees whether the task is settled. -/
theorem Txn.Sound.settled (sound : txn.Sound i s) (quiet : txn.quiet = true) (ready : (s.view i).settled taskID = true) :
    s.Settled taskID := by
  rw [Database.settled, Bool.and_eq_true, Bool.not_eq_true', List.isEmpty_eq_false_iff, List.all_eq_true] at ready
  obtain ⟨row, member⟩ := List.exists_mem_of_ne_nil _ ready.1
  obtain ⟨id, seen, live⟩ := Shared.mem_liveExecutions.mp member
  constructor
  · exact ⟨id, row, (sound.committed_eq quiet id).trans seen, live⟩
  · intro id' row' committed live'
    rw [sound.committed_eq quiet] at committed
    exact ready.2 row' (Shared.mem_liveExecutions.mpr ⟨id', committed, live'⟩)

/-- A transaction that adds nothing to a settled task leaves it settled: what is done does not move. -/
theorem Shared.Settled.commit (settled : s.Settled taskID) (sound : txn.Sound i s) (adds : txn.adds ≠ some taskID) :
    (s.commit i).Settled taskID := by
  have committed : ∀ id, ((s.commit i).executions.row id).committed = (s.executions.row id).visible i := by
    intro id
    rw [Shared.commit, committed_commit]
  constructor
  · obtain ⟨id, row, stored, live⟩ := settled.exist
    have pending := sound.executions id
    have done := settled.done id row stored live
    rw [stored] at pending
    refine ⟨id, ?_⟩
    rw [committed]
    generalize (s.executions.row id).visible i = visible at pending ⊢
    cases pending with
    | same => exact ⟨row, rfl, live⟩
    | claimed _ now => exact ⟨_, rfl, live⟩
    | superseded _ now added => exact absurd (added.trans (congrArg some live.1)) adds
    | moved _ now target reason moves open' => exact Bool.noConfusion (open'.symm.trans done)
  · intro id row stored live
    rw [committed] at stored
    have pending := sound.executions id
    have done := settled.done id
    rw [stored] at pending
    generalize (s.executions.row id).committed = before at pending done
    cases pending with
    | same => exact done row rfl live
    | claimed row' now => exact done row' rfl live
    | superseded row' now added => exact absurd (added.trans (congrArg some live.1)) adds
    | inserted _ added fresh => exact absurd (added.trans (congrArg some live.1)) adds
    | moved row' now target reason moves open' => exact Bool.noConfusion (open'.symm.trans (done row' rfl live))

/-- What a transaction has of the tasks when it is ready to commit. -/
def Txn.Locks (i : ℕ) (s : Shared) : Txn → Prop
  | .settle id (.answered true) => s.Closing i id
  | .create request (.ready _) => s.HasTask i request.taskID
  | .retry _ _ _ (.ready row _) => s.HasTask i row.taskID
  | _ => True

namespace Txn.Locks

/-- A row of a task stays with its holder, and a task that is missing stays so. -/
theorem of_tasks (locks : txn.Locks j s) (kept : ∀ id, (s.tasks.row id).holder = some j → s'.tasks.row id = s.tasks.row id)
    (missing : ∀ id, (s.tasks.row id).committed = none → (s'.tasks.row id).committed = none) : txn.Locks j s' := by
  have hasTask : ∀ {id : String}, s.HasTask j id → s'.HasTask j id := by
    intro id has
    rcases has with held | absent
    · exact .inl ((kept id held).symm ▸ held)
    · exact .inr (missing id absent)
  unfold Locks at locks ⊢
  split
  · have same := kept _ locks.holds
    exact ⟨same ▸ locks.holds, same ▸ locks.unsettled, same ▸ locks.settles⟩
  · exact hasTask locks
  · exact hasTask locks
  · trivial

theorem of_acted (locks : txn.Locks j s) (acted : s.Acted i s') (other : j ≠ i) : txn.Locks j s' := by
  refine locks.of_tasks (fun id held => acted.tasks.row_of_holder held other) fun id absent => ?_
  rw [acted.tasks.committed, absent]

theorem of_abort (locks : txn.Locks j s) (other : j ≠ i) : txn.Locks j (s.abort i) := by
  refine locks.of_tasks (fun id held => row_abort_of_holder held other) fun id absent => ?_
  rw [Shared.abort, committed_abort, absent]

theorem of_commit {committing : Txn} (locks : txn.Locks j s) (sound : committing.Sound i s) (other : j ≠ i) :
    txn.Locks j (s.commit i) := by
  refine locks.of_tasks (fun id held => row_commit_of_holder held other) fun id absent => ?_
  rw [Shared.commit, committed_commit]
  exact (sound.task_eq_none_iff id).mpr absent

end Txn.Locks

theorem Shared.Counted.hasTask (counted : s.Counted i id s') (sound : txn.Sound i s) : s'.HasTask i id := by
  cases counted with
  | missing unseen => exact .inr ((sound.task_eq_none_iff id).mp unseen)
  | written =>
    left
    rw [row_write_self, Versions.holder_write]

theorem closing_settled {row : TaskRow} (sound : (settle id .lock).Sound i s)
    (seen : (s.tasks.row id).visible i = some row) (unsettled : row.itemsSettledAt = none) :
    ({ s with tasks := s.tasks.write i id { row with itemsSettledAt := some now, updatedAt := now } } : Shared).Closing
      i id := by
  constructor
  · rw [row_write_self, Versions.holder_write]
  · rw [row_write_self, Versions.committed_write]
    have pending := sound.tasks id
    rw [seen] at pending
    generalize (s.tasks.row id).committed = before at pending ⊢
    cases pending with
    | same => exact ⟨row, rfl, unsettled⟩
    | counted kept => exact ⟨_, rfl, kept.symm.trans unsettled⟩
  · rw [row_write_self, Versions.visible_write_self]
    exact ⟨_, rfl, Option.some_ne_none now⟩

theorem Statement.locks (ran : Statement hash i now s txn s' next) (sound : txn.Sound i s) : next.Locks i s' := by
  cases ran with
  | createCount counted | retryCount counted => exact counted.hasTask sound
  | settleWrite reads unsettled => exact closing_settled sound reads.seen unsettled
  | _ => trivial

namespace Transaction

variable {p q : Pool Shared Txn} {event : Event} {db : Database}
variable {answer : Answer} {t : String}

/-- What holds of the settlements in every state of a run. -/
structure Settlements (p : Pool Shared Txn) : Prop where
  sound : ∀ j, (p.thread j).Sound j p.shared
  locks : ∀ j, (p.thread j).Locks j p.shared
  once : p.shared.settlements.Nodup
  kept : ∀ t ∈ p.shared.settlements, ∃ task, (p.shared.tasks.row t).committed = some task ∧ task.itemsSettledAt ≠ none

theorem locks_start (call : Call) : call.start.Locks i s :=
  Call.start_cases call (fun _ => trivial) (fun _ _ => trivial) (fun _ => trivial) (fun _ _ _ => trivial)
    (fun _ _ _ _ => trivial)
    fun _ => trivial

theorem locks_ended : (ended answer).Locks i s := trivial

theorem Moved.locks (moved : Moved hash p event q) (before : Settlements p) (j : ℕ) : (q.thread j).Locks j q.shared := by
  cases moved with
  | start i call resting => exact forall_move_index Locks before.locks (locks_start call) (fun _ _ kept => kept) j
  | statement ran =>
    exact forall_move_index Locks before.locks (ran.locks (before.sound _))
      (fun _ other kept => kept.of_acted ran.acted other) j
  | raise | rollback => exact forall_move_index Locks before.locks locks_ended (fun _ other kept => kept.of_abort other) j
  | @commit i answer ready =>
    refine forall_move_index Locks before.locks locks_ended (fun _ other kept => ?_) j
    refine (kept.of_commit (before.sound i) other).of_tasks (fun id _ => ?_) fun id absent => ?_
    · rw [record_tasks]
    · rw [record_tasks, absent]

/-- A commit adds to the record only for a settlement that answered true. -/
theorem record_settlements : (txn.record s).settlements = s.settlements ∨
    ∃ t, txn = .settle t (.answered true) ∧ (txn.record s).settlements = s.settlements ++ [t] := by
  unfold record
  split
  · exact .inl rfl
  · exact .inr ⟨_, rfl, rfl⟩
  · exact .inl rfl

theorem Moved.settlements (moved : Moved hash p event q) (before : Settlements p) : q.shared.settlements.Nodup ∧
    ∀ t ∈ q.shared.settlements, ∃ task, (q.shared.tasks.row t).committed = some task ∧ task.itemsSettledAt ≠ none := by
  cases moved with
  | start i call resting => exact ⟨before.once, before.kept⟩
  | statement ran =>
    refine ⟨ran.acted.settlements.symm ▸ before.once, ?_⟩
    intro t member
    rw [move_shared, ran.acted.settlements] at member
    rw [move_shared, ran.acted.tasks.committed]
    exact before.kept t member
  | raise | rollback =>
    refine ⟨before.once, ?_⟩
    intro t member
    rw [move_shared, Shared.abort, committed_abort]
    exact before.kept t member
  | @commit i answer ready =>
    rw [move_shared, record_tasks]
    have old : ∀ t ∈ p.shared.settlements, ∃ task, ((p.shared.commit i).tasks.row t).committed = some task ∧
      task.itemsSettledAt ≠ none := by
      intro t member
      obtain ⟨task, committed, settled⟩ := before.kept t member
      have pending := (before.sound i).tasks t
      rw [committed] at pending
      rw [Shared.commit, committed_commit]
      generalize p.thread i = txn at pending
      generalize (p.shared.tasks.row t).visible i = visible at pending ⊢
      cases pending with
      | same => exact ⟨task, rfl, settled⟩
      | counted kept => exact ⟨_, rfl, kept ▸ settled⟩
      | settled unsettled settles => exact ⟨_, rfl, settles⟩
    rcases @record_settlements (p.shared.commit i) (p.thread i) with same | ⟨t, settling, added⟩
    · rw [same]
      exact ⟨before.once, old⟩
    · -- the task was not settled when the settlement took its row, and nobody else could write it since
      have closing : p.shared.Closing i t := by
        have locks := before.locks i
        rwa [settling] at locks
      obtain ⟨task, committed, unsettled⟩ := closing.unsettled
      have absent : t ∉ p.shared.settlements := by
        intro member
        obtain ⟨task', committed', settled⟩ := before.kept t member
        cases committed.symm.trans committed'
        exact settled unsettled
      rw [added]
      constructor
      · exact List.nodup_append.mpr ⟨before.once, List.nodup_singleton _, fun a isOld b isNew same =>
          absent (List.mem_singleton.mp isNew ▸ same ▸ isOld)⟩
      · intro t' member
        rcases List.mem_append.mp member with isOld | isNew
        · exact old t' isOld
        · cases List.mem_singleton.mp isNew
          rw [Shared.commit, committed_commit]
          exact closing.settles

theorem Moved.settles (moved : Moved hash p event q) (before : Settlements p) : Settlements q where
  sound := moved.sound before.sound
  locks := moved.locks before
  once := (moved.settlements before).1
  kept := (moved.settlements before).2

theorem settlements_start : Settlements (machine hash db).start where
  sound := sound_start
  locks _ := trivial
  once := List.nodup_nil
  kept _ member := absurd member List.not_mem_nil

theorem settlements_of_reaches (reached : (machine hash db).Reaches ok p) : Settlements p :=
  Reaches.invariant Settlements settlements_start (fun _ _ _ _ stepped before => (step_moved stepped).settles before) reached

/-- A creation or a retry commits for a task while a settlement of it has its snapshot and not yet the row of the task. -/
def overtakes (p : Pool Shared Txn) : Event → Prop
  | .commit j => ∃ t, (p.thread j).adds = some t ∧ ∃ i, p.thread i = .settle t .lock
  | _ => False

/-- A settlement that goes on has found its task settled, and it still is. -/
def Ready (s : Shared) : Txn → Prop
  | .settle id .lock | .settle id (.answered true) => s.Settled id
  | _ => True

theorem ready_ended : Ready s (.ended answer) := trivial

theorem ready_start (call : Call) : Ready s call.start :=
  Call.start_cases call (fun _ => trivial) (fun _ _ => trivial) (fun _ => trivial) (fun _ _ _ => trivial)
    (fun _ _ _ _ => trivial)
    fun _ => trivial

/-- Only a change of the committed attempts matters. -/
theorem Ready.of_settled (ready : Ready s txn)
    (kept : ∀ t, txn = .settle t .lock ∨ txn = .settle t (.answered true) → s.Settled t → s'.Settled t) : Ready s' txn := by
  unfold Ready at ready ⊢
  split
  · exact kept _ (.inl rfl) ready
  · exact kept _ (.inr rfl) ready
  · trivial

theorem settled_of_committed (settled : s.Settled t)
    (same : ∀ id, (s'.executions.row id).committed = (s.executions.row id).committed) : s'.Settled t := by
  constructor
  · obtain ⟨id, row, committed, live⟩ := settled.exist
    exact ⟨id, row, (same id).trans committed, live⟩
  · intro id row committed
    exact settled.done id row ((same id).symm.trans committed)

theorem ready_of_statement (ran : Statement hash i now s txn s' next) (sound : txn.Sound i s) (ready : Ready s txn) :
    Ready s' next := by
  cases ran with
  | settleScan found => exact sound.settled rfl found
  | settleWrite => exact settled_of_committed ready fun _ => rfl
  | _ => trivial

/-- A transaction that adds to a task has the row of that task when it commits. -/
theorem hasTask_of_adds (locks : txn.Locks i s) (ready : txn.answer = some answer) (adds : txn.adds = some t) :
    s.HasTask i t := by
  cases txn with
  | idle | once | move | settle | ended => cases adds
  | create request phase =>
    cases phase with
    | lockItem | findTask | number | insert | count => cases ready
    | ready attempt =>
      cases adds
      exact locks
  | retry id expected newID phase =>
    cases phase with
    | read | lockItem | lockNamed | supersede | number | insert | count => cases ready
    | ready row attempt =>
      cases adds
      exact locks

theorem Moved.ready (moved : Moved hash p event q) (inOrder : ¬ overtakes p event) (before : Settlements p)
    (ready : ∀ j, Ready p.shared (p.thread j)) (j : ℕ) : Ready q.shared (q.thread j) := by
  cases moved with
  | start i call resting => exact forall_move Ready ready (ready_start call) (fun _ _ kept => kept) j
  | statement ran =>
    refine forall_move Ready ready (ready_of_statement ran (before.sound _) (ready _)) (fun _ _ kept => ?_) j
    exact kept.of_settled fun t _ settled => settled_of_committed settled ran.acted.executions.committed
  | raise | rollback =>
    refine forall_move Ready ready ready_ended (fun _ _ kept => kept.of_settled fun t _ settled => ?_) j
    refine settled_of_committed settled fun id => ?_
    rw [Shared.abort, committed_abort]
  | @commit i answer answered =>
    refine forall_move Ready ready ready_ended (fun j' other kept => kept.of_settled fun t settling settled => ?_) j
    have adds : (p.thread i).adds ≠ some t := by
      intro adds
      rcases settling with waiting | closing
      · exact inOrder ⟨t, adds, j', waiting⟩
      · -- both would have the row of the task
        have mine : p.shared.Closing j' t := by
          have locks := before.locks j'
          rwa [closing] at locks
        rcases hasTask_of_adds (before.locks i) answered adds with held | absent
        · exact other (Option.some.inj (mine.holds.symm.trans held))
        · obtain ⟨task, committed, _⟩ := mine.unsettled
          exact Option.some_ne_none task (committed.symm.trans absent)
    refine settled_of_committed (settled.commit (before.sound i) adds) fun id => ?_
    rw [record_executions]

theorem ready_of_reaches (reached : (machine hash db).Reaches (fun p event => ¬ overtakes p event) p) (j : ℕ) :
    Ready p.shared (p.thread j) := by
  have both : Settlements p ∧ ∀ j, Ready p.shared (p.thread j) := by
    refine Reaches.invariant (fun p => Settlements p ∧ ∀ j, Ready p.shared (p.thread j)) ?_ ?_ reached
    · exact ⟨settlements_start, fun _ => trivial⟩
    · intro p event q inOrder stepped ⟨before, ready⟩
      have moved : Moved hash p event q := step_moved stepped
      exact ⟨moved.settles before, moved.ready inOrder before ready⟩
  exact both.2 j

/-- A task is settled at most once in every run. In every run without an overtaking commit, a settlement that returns
true leaves a committed state in which the task has live attempts and all of them are done. -/
theorem settlement_means_settled {hash : String → ℤ} {db : Database} :
    (∀ p, (machine hash db).Reaches anyStep p → p.shared.settlements.Nodup) ∧
      ∀ p, (machine hash db).Reaches (fun p event => ¬ overtakes p event) p →
        ∀ i t q, p.thread i = .settle t (.answered true) →
        (machine hash db).step p (.commit i) = some q → q.thread i = .ended (.settled true) ∧ q.shared.Settled t := by
  refine ⟨fun p reached => (settlements_of_reaches reached).once, ?_⟩
  intro p reached i t q settling stepped
  have ready : Ready p.shared (.settle t (.answered true)) := settling ▸ ready_of_reaches reached i
  have moved : Moved hash p (.commit i) q := step_moved stepped
  cases moved with
  | commit answered =>
    have sound := (settlements_of_reaches reached).sound i
    rw [settling] at answered sound
    cases answered
    refine ⟨move_thread_self, ?_⟩
    have settled : (p.shared.commit i).Settled t := Shared.Settled.commit ready sound (Option.some_ne_none t).symm
    refine settled_of_committed settled fun id => ?_
    rw [move_shared, record_executions]

/-- The request for an attempt of a second item. -/
def secondItem : CreateRequest where
  id := "second"
  taskID := "task"
  itemKey := some "other"
  runtime := some "bullmq"
  runtimeScope := none
  externalID := none

/-- The last item succeeds and the task is settled, while a creation has inserted its attempt and waits for the task. -/
def lastItemSucceeds : List Event :=
  [.start 0 (.transitionExecution "first" (some 1) .succeeded none)] ++ List.replicate 3 (.statement 0 1) ++
    [.start 2 (.createExecution secondItem)] ++ List.replicate 4 (.statement 2 2) ++
    [.commit 0, .start 1 (.settleItems "task"), .statement 1 3, .statement 1 4]

/-- The commit does not add an attempt to any task. -/
def addsNothing (p : Pool Shared Txn) : Event → Bool
  | .commit j => (p.thread j).adds.isNone
  | _ => true

theorem not_overtakes_of_addsNothing (p : Pool Shared Txn) (event : Event) (checked : addsNothing p event = true) :
    ¬ overtakes p event := by
  intro overtaken
  cases event with
  | start | statement | rollback => exact overtaken
  | commit j =>
    obtain ⟨t, adds, _⟩ := overtaken
    rw [addsNothing, adds] at checked
    cases checked

theorem lastItemSucceeds_settled :
    ∃ p q, (machine (fun _ => 0) (oneAttempt .running)).Reaches (fun p event => ¬ overtakes p event) p ∧
    (machine (fun _ => 0) (oneAttempt .running)).step p (.commit 1) = some q ∧ q.thread 1 = .ended (.settled true) ∧
    q.shared.Settled "task" := by
  let m := machine (fun _ => 0) (oneAttempt .running)
  obtain ⟨p, ran, q, stepped, settling⟩ : ∃ p, m.runChecked addsNothing m.start lastItemSucceeds = some p ∧
      ∃ q, m.step p (.commit 1) = some q ∧ p.thread 1 = .settle "task" (.answered true) := by decide
  have reached : m.Reaches (fun p event => ¬ overtakes p event) p := ⟨_, path_of_runChecked not_overtakes_of_addsNothing ran⟩
  exact ⟨p, q, reached, stepped, settlement_means_settled.2 p reached 1 "task" q settling stepped⟩

/-- The settlement takes its snapshot while the creation has the row of the task, and waits for that row. -/
def overtakenSettlement : List Event :=
  [.start 0 (.createExecution secondItem)] ++ List.replicate 5 (.statement 0 1) ++
    [.start 1 (.settleItems "task"), .statement 1 2, .commit 0, .statement 1 3]

/-- It returns true with an attempt that is still to be dispatched. -/
theorem overtaken_settlement_unsettled : ∃ p q, (machine (fun _ => 0) (oneAttempt .succeeded)).Reaches anyStep p ∧
    (machine (fun _ => 0) (oneAttempt .succeeded)).step p (.commit 1) = some q ∧ q.thread 1 = .ended (.settled true) ∧
    ¬ q.shared.Settled "task" := by
  let m := machine (fun _ => 0) (oneAttempt .succeeded)
  obtain ⟨p, reached, q, stepped, answered, row, committed, live, pending⟩ := exists_reached (m := m) overtakenSettlement
    (P := fun p => ∃ q, m.step p (.commit 1) = some q ∧ q.thread 1 = .ended (.settled true) ∧
      ∃ row, (q.shared.executions.row "second").committed = some row ∧ (row.taskID = "task" ∧ row.live = true) ∧
        row.state = .pendingDispatch) (by decide)
  refine ⟨p, q, reached, stepped, answered, fun settled => ?_⟩
  have finished := settled.done "second" row committed live
  rw [pending] at finished
  cases finished

end Transaction

end RhinoQ.Model.TaskSchema
