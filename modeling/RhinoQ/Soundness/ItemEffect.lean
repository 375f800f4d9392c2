import RhinoQ.Proofs.TaskSchema.Pending

/-! # One effect for each item

A claim holds the advisory lock of its item from before its check until it commits, so it still finds the item
without the key then, and the next check sees the key, on whichever attempt it was written.
-/

namespace RhinoQ.Model.TaskSchema

open VersionedTable Pool Txn Reply Shared Machine

variable {s s' : Shared} {i j : ℕ} {now : Timestamp} {hash : String → ℤ} {txn next : Txn} {taskID itemKey effect : String}
variable {row : ExecutionRow} {after before : Option ExecutionRow} {id key : String}

/-- The attempt belongs to the item and carries the effect. -/
def ExecutionRow.Carries (row : ExecutionRow) (taskID itemKey effect : String) : Prop :=
  row.taskID = taskID ∧ row.itemKey = itemKey ∧ effect ∈ row.effectKeys

namespace Shared

/-- A committed attempt of the item carries the effect. -/
def Carried (s : Shared) (taskID itemKey effect : String) : Prop :=
  ∃ id row, (s.executions.row id).committed = some row ∧ row.Carries taskID itemKey effect

/-- The transaction sees an attempt of the item that carries the effect. -/
def Sees (s : Shared) (i : ℕ) (taskID itemKey effect : String) : Prop :=
  ∃ id row, (s.executions.row id).visible i = some row ∧ row.Carries taskID itemKey effect

theorem itemCarries_iff : (s.view i).itemCarries taskID itemKey effect = true ↔ s.Sees i taskID itemKey effect := by
  simp only [Database.itemCarries, Database.attemptsOfItem, List.any_eq_true, List.mem_filter, List.mem_map,
    Bool.and_eq_true, beq_iff_eq, List.contains_iff_mem]
  constructor
  · rintro ⟨entry, ⟨⟨stored, member, rfl⟩, task, item⟩, carries⟩
    refine ⟨stored.1, stored.2, ?_, task, item, carries⟩
    rw [← view_executions]
    exact FiniteMap.mem_entries_iff.mp member
  · rintro ⟨id, row, seen, task, item, carries⟩
    rw [← view_executions] at seen
    exact ⟨(id, row), ⟨⟨⟨id, row⟩, FiniteMap.mem_entries_iff.mpr seen, rfl⟩, task, item⟩, carries⟩

theorem carried_commit : (s.commit i).Carried taskID itemKey effect ↔ s.Sees i taskID itemKey effect := by
  unfold Carried Sees commit
  simp only [committed_commit]

theorem carried_abort : (s.abort i).Carried taskID itemKey effect ↔ s.Carried taskID itemKey effect := by
  unfold Carried abort
  simp only [committed_abort]

theorem Acted.carried_iff (acted : s.Acted i s') : s'.Carried taskID itemKey effect ↔ s.Carried taskID itemKey effect := by
  unfold Carried
  simp only [acted.executions.committed]

end Shared

namespace Txn

theorem Pending.carries (pending : txn.Pending (some row) after)
    (carries : row.Carries taskID itemKey effect) : ∃ row', after = some row' ∧ row'.Carries taskID itemKey effect := by
  cases pending with
  | same => exact ⟨row, rfl, carries⟩
  | claimed _ now => exact ⟨_, rfl, carries.1, carries.2.1, List.mem_append_left _ carries.2.2⟩
  | superseded | moved => exact ⟨_, rfl, carries⟩

/-- A key is new only to the transaction that claims it. -/
theorem Pending.gains (pending : txn.Pending before (some row)) (carries : row.Carries taskID itemKey effect) :
    (∃ row', before = some row' ∧ row'.Carries taskID itemKey effect) ∨
      ∃ id key, txn = .once id key (.callback taskID itemKey) ∧ effect = btrim key := by
  cases pending with
  | same => exact .inl ⟨row, rfl, carries⟩
  | @claimed id key row' now =>
    obtain ⟨task, item, member⟩ := carries
    rcases List.mem_append.mp member with old | new
    · exact .inl ⟨row', rfl, task, item, old⟩
    · subst task item
      exact .inr ⟨id, key, rfl, List.mem_singleton.mp new⟩
  | superseded row' | moved row' => exact .inl ⟨row', rfl, carries⟩
  | inserted _ adds fresh =>
    obtain ⟨_, _, member⟩ := carries
    rw [fresh] at member
    cases member

section
variable (sound : txn.Sound i s)
include sound

theorem Sound.sees (carried : s.Carried taskID itemKey effect) : s.Sees i taskID itemKey effect := by
  obtain ⟨id, row, committed, carries⟩ := carried
  have pending := sound.executions id
  rw [committed] at pending
  obtain ⟨row', seen, carries'⟩ := pending.carries carries
  exact ⟨id, row', seen, carries'⟩

theorem Sound.carried_or (sees : s.Sees i taskID itemKey effect) :
    s.Carried taskID itemKey effect ∨ ∃ id key, txn = .once id key (.callback taskID itemKey) ∧ effect = btrim key := by
  obtain ⟨id, row, seen, carries⟩ := sees
  have pending := sound.executions id
  rw [seen] at pending
  rcases pending.gains carries with ⟨row', committed, carries'⟩ | claims
  · exact .inl ⟨id, row', committed, carries'⟩
  · exact .inr claims

/-- A task that a transaction sees is committed, since none is inserted here. -/
theorem Sound.task_committed (seen : (s.tasks.row id).visible i = some task) : (s.tasks.row id).committed ≠ none := by
  intro absent
  exact Option.some_ne_none task (seen.symm.trans ((sound.task_eq_none_iff id).mpr absent))

end

end Txn

namespace OncePhase

/-- The item whose lock the claim has. -/
def item : OncePhase → Option (String × String)
  | .lockNamed taskID itemKey | .findTask taskID itemKey | .check taskID itemKey | .findCurrent taskID itemKey
  | .lockCurrent taskID itemKey _ | .append taskID itemKey _ | .callback taskID itemKey => some (taskID, itemKey)
  | .read | .lockItem _ _ | .seen => none

/-- The claim has found its task. -/
def found : OncePhase → Bool
  | .check _ _ | .findCurrent _ _ | .lockCurrent _ _ _ | .append _ _ _ | .callback _ _ => true
  | _ => false

/-- The claim has passed its check. -/
def passed : OncePhase → Bool
  | .findCurrent _ _ | .lockCurrent _ _ _ | .append _ _ _ | .callback _ _ => true
  | _ => false

end OncePhase

/-- What a claim relies on. -/
structure ClaimSound (hash : String → ℤ) (i : ℕ) (s : Shared) (key : String) (phase : OncePhase) : Prop where
  valid : phase ≠ .read → btrim key ≠ "" ∧ (btrim key).length ≤ 256
  locked : ∀ t k, phase.item = some (t, k) → s.advisory (hash (t ++ ":" ++ k)) = some i
  stored : ∀ t k, phase.item = some (t, k) → phase.found = true → (s.tasks.row t).committed ≠ none
  fresh : ∀ t k, phase.item = some (t, k) → phase.passed = true → ¬ s.Carried t k (btrim key)
  marked : ∀ t k, phase = .callback t k → s.Sees i t k (btrim key)

def Txn.Claims (hash : String → ℤ) (i : ℕ) (s : Shared) (txn : Txn) : Prop :=
  ∀ id key phase, txn = .once id key phase → ClaimSound hash i s key phase

namespace ClaimSound

variable {key : String} {phase : OncePhase}

theorem release_of_ne (other : j ≠ i) {lock : ℤ} (held : s.advisory lock = some j) : s.release i lock = some j := by
  unfold release
  rw [if_neg fun mine => other (Option.some.inj (held.symm.trans mine)), held]

variable (sound : ClaimSound hash j s key phase)
include sound

theorem of_acted (acted : s.Acted i s') (other : j ≠ i) : ClaimSound hash j s' key phase where
  valid := sound.valid
  locked t k held := acted.advisory _ _ (sound.locked t k held)
  stored t k held found := by
    rw [acted.tasks.committed]
    exact sound.stored t k held found
  fresh t k held passed := by
    rw [acted.carried_iff]
    exact sound.fresh t k held passed
  marked t k same := by
    obtain ⟨id, row, seen, carries⟩ := sound.marked t k same
    exact ⟨id, row, (acted.executions.visible_of_ne other id).trans seen, carries⟩

theorem of_abort (other : j ≠ i) : ClaimSound hash j (s.abort i) key phase where
  valid := sound.valid
  locked t k held := release_of_ne other (sound.locked t k held)
  stored t k held found := by
    rw [Shared.abort, committed_abort]
    exact sound.stored t k held found
  fresh t k held passed := by
    rw [Shared.carried_abort]
    exact sound.fresh t k held passed
  marked t k same := by
    obtain ⟨id, row, seen, carries⟩ := sound.marked t k same
    refine ⟨id, row, ?_, carries⟩
    rw [Shared.abort, row_abort, Versions.visible_abort other]
    exact seen

/-- The commit of another transaction. A claim among these is for another item or key, since both have the lock of
their item. -/
theorem of_commit (committing : txn.Sound i s) (claims : txn.Claims hash i s) (other : j ≠ i) :
    ClaimSound hash j (s.commit i) key phase where
  valid := sound.valid
  locked t k held := release_of_ne other (sound.locked t k held)
  stored t k held found := by
    rw [Shared.commit, committed_commit]
    exact mt (committing.task_eq_none_iff t).mp (sound.stored t k held found)
  fresh t k held passed carried := by
    rcases committing.carried_or (carried_commit.mp carried) with before | ⟨id, key', rfl, same⟩
    · exact sound.fresh t k held passed before
    · have mine := (claims id key' _ rfl).locked t k rfl
      exact other (Option.some.inj ((sound.locked t k held).symm.trans mine))
  marked t k same := by
    obtain ⟨id, row, seen, carries⟩ := sound.marked t k same
    by_cases held : (s.executions.row id).holder = some i
    · rw [Versions.visible_of_holder held other] at seen
      have pending := committing.executions id
      rw [seen] at pending
      obtain ⟨row', seen', carries'⟩ := pending.carries carries
      refine ⟨id, row', ?_, carries'⟩
      rw [Shared.commit, row_commit, Versions.visible_commit, if_pos held]
      exact seen'
    · refine ⟨id, row, ?_, carries⟩
      rw [Shared.commit, row_commit, Versions.visible_commit, if_neg held]
      exact seen

theorem of_tables (executions : s'.executions = s.executions) (tasks : s'.tasks = s.tasks)
    (advisory : s'.advisory = s.advisory) : ClaimSound hash j s' key phase where
  valid := sound.valid
  locked := advisory ▸ sound.locked
  stored := tasks ▸ sound.stored
  fresh t k held passed carried := by
    unfold Carried at carried
    rw [executions] at carried
    exact sound.fresh t k held passed carried
  marked t k same := by
    unfold Sees
    rw [executions]
    exact sound.marked t k same

/-- A claim that goes on with the same item has not lost anything by its own statement. -/
theorem advance (acted : s.Acted j s') (begun : phase ≠ .read)
    (item : phase'.item = phase.item) (found : phase'.found = true → phase.found = true)
    (passed : phase'.passed = true → phase.passed = true)
      (unmarked : ∀ t k, phase' ≠ .callback t k) : ClaimSound hash j s' key phase' where
  valid _ := sound.valid begun
  locked t k held := acted.advisory _ _ (sound.locked t k (item.symm.trans held))
  stored t k held isFound := by
    rw [acted.tasks.committed]
    exact sound.stored t k (item.symm.trans held) (found isFound)
  fresh t k held isPassed := by
    rw [acted.carried_iff]
    exact sound.fresh t k (item.symm.trans held) (passed isPassed)
  marked t k same := absurd same (unmarked t k)

end ClaimSound

/-- A claim that has no lock relies on its arguments only. -/
theorem claimSound_of_unlocked (valid : phase ≠ .read → btrim key ≠ "" ∧ (btrim key).length ≤ 256)
    (unlocked : phase.item = none) : ClaimSound hash i s key phase where
  valid := valid
  locked t k held := absurd (unlocked.symm.trans held) (Option.some_ne_none _).symm
  stored t k held := absurd (unlocked.symm.trans held) (Option.some_ne_none _).symm
  fresh t k held := absurd (unlocked.symm.trans held) (Option.some_ne_none _).symm
  marked t k same := by
    subst same
    cases unlocked

theorem sees_claimed (sound : (once id key (.append taskID itemKey currentID)).Sound i s)
    (seen : (s.executions.row currentID).visible i = some row) :
    (s.writeRow i currentID (row.claimed now (btrim key))).Sees i taskID itemKey (btrim key) := by
  obtain ⟨_, row', committed, task, item⟩ := sound.holds
  rw [← sound.committed_eq rfl, committed] at seen
  cases seen
  refine ⟨currentID, row.claimed now (btrim key), ?_, task, item, ?_⟩
  · rw [writeRow, row_write_self, Versions.visible_write_self]
  · exact List.mem_append_right _ (List.mem_singleton_self _)

theorem Statement.claims (ran : Statement hash i now s txn s' next) (sound : txn.Sound i s) (claims : txn.Claims hash i s) :
    next.Claims hash i s' := by
  intro id key phase same
  have acted := ran.acted
  cases ran with
  | onceRead valid seen =>
    cases same
    exact claimSound_of_unlocked (fun _ => valid) rfl
  | @onceLockItem taskID itemKey _ _ free =>
    cases same
    have before := claims _ _ _ rfl
    refine ⟨fun _ => before.valid nofun, ?_, ?_, ?_, ?_⟩
    · intro t k held
      cases held
      exact Function.update_self ..
    · intro t k _ found
      cases found
    · intro t k _ passed
      cases passed
    · intro t k marked
      cases marked
  | onceLockNamed free =>
    cases same
    exact (claims _ _ _ rfl).advance acted nofun rfl nofun nofun nofun
  | onceFindTask seen =>
    cases same
    have before := claims _ _ _ rfl
    refine ⟨fun _ => before.valid nofun, before.locked, ?_, ?_, ?_⟩
    · intro t k held _
      cases held
      exact sound.task_committed seen
    · intro t k _ passed
      cases passed
    · intro t k marked
      cases marked
  | onceSeen carried =>
    cases same
    exact claimSound_of_unlocked (fun _ => (claims _ _ _ rfl).valid nofun) rfl
  | onceUnseen carried =>
    cases same
    have before := claims _ _ _ rfl
    refine ⟨fun _ => before.valid nofun, before.locked, fun t k held _ => before.stored t k held rfl, ?_, ?_⟩
    · intro t k held _ present
      cases held
      have found := itemCarries_iff.mpr (sound.sees present)
      exact Bool.noConfusion (found.symm.trans carried)
    · intro t k marked
      cases marked
  | onceFindCurrent | onceLockCurrent | oncePass =>
    cases same
    exact (claims _ _ _ rfl).advance acted nofun rfl (fun _ => rfl) (fun _ => rfl) nofun
  | onceAppend reads =>
    cases same
    have before := claims _ _ _ rfl
    refine ⟨fun _ => before.valid nofun, before.locked, before.stored, ?_, ?_⟩
    · intro t k held passed
      rw [acted.carried_iff]
      exact before.fresh t k held passed
    · intro t k marked
      cases marked
      exact sees_claimed sound reads.seen
  | _ => cases same

namespace Transaction

variable {p q : Pool Shared Txn} {event : Event} {db : Database}

/-- What holds of the claims in every state of a run. -/
structure Effects (hash : String → ℤ) (p : Pool Shared Txn) : Prop where
  sound : ∀ j, (p.thread j).Sound j p.shared
  claims : ∀ j, (p.thread j).Claims hash j p.shared
  once : p.shared.claims.Nodup
  kept : ∀ t k e, (t, k, e) ∈ p.shared.claims →
    p.shared.Carried t k e ∧ (p.shared.tasks.row t).committed ≠ none ∧ e ≠ "" ∧ e.length ≤ 256

theorem claims_ended {answer : Answer} : (ended answer).Claims hash i s := nofun

theorem claims_start (call : Call) : call.start.Claims hash i s := by
  intro id key phase same
  cases call with
  | onceForItem executionID effectKey =>
    rw [Call.start] at same
    split_ifs at same
    cases same
    exact claimSound_of_unlocked (fun begun => absurd rfl begun) rfl
  | createExecution | retryExecution | transitionExecution | settleItems => cases same

theorem record_advisory : (txn.record s).advisory = s.advisory := by
  unfold record
  split <;> rfl

/-- A commit adds to the record only for a claim whose callback has returned. -/
theorem record_claims : (txn.record s).claims = s.claims ∨
    ∃ id key t k, txn = .once id key (.callback t k) ∧ (txn.record s).claims = s.claims ++ [(t, k, btrim key)] := by
  unfold record
  split
  · exact .inr ⟨_, _, _, _, rfl, rfl⟩
  · exact .inl rfl
  · exact .inl rfl

theorem Moved.claims (moved : Moved hash p event q) (effects : Effects hash p) (j : ℕ) :
    (q.thread j).Claims hash j q.shared := by
  cases moved with
  | start i call resting => exact forall_move_index (Claims hash) effects.claims (claims_start call) (fun _ _ kept => kept) j
  | statement ran =>
    refine forall_move_index (Claims hash) effects.claims (ran.claims (effects.sound _) (effects.claims _)) ?_ j
    exact fun _ other kept id key phase same => (kept id key phase same).of_acted ran.acted other
  | raise | rollback =>
    refine forall_move_index (Claims hash) effects.claims claims_ended ?_ j
    exact fun _ other kept id key phase same => (kept id key phase same).of_abort other
  | @commit i answer ready =>
    refine forall_move_index (Claims hash) effects.claims claims_ended ?_ j
    intro j' other kept id key phase same
    have committed := (kept id key phase same).of_commit (effects.sound i) (effects.claims i) other
    exact committed.of_tables record_executions record_tasks record_advisory

/-- What a recorded claim leaves behind is not lost by a commit. -/
theorem kept_commit (sound : txn.Sound i s) (carried : s.Carried t k e) (stored : (s.tasks.row t).committed ≠ none) :
    (s.commit i).Carried t k e ∧ ((s.commit i).tasks.row t).committed ≠ none := by
  refine ⟨Shared.carried_commit.mpr (sound.sees carried), ?_⟩
  rw [Shared.commit, committed_commit]
  exact mt (sound.task_eq_none_iff t).mp stored

theorem Moved.recorded (moved : Moved hash p event q) (effects : Effects hash p) : q.shared.claims.Nodup ∧
    ∀ t k e, (t, k, e) ∈ q.shared.claims →
      q.shared.Carried t k e ∧ (q.shared.tasks.row t).committed ≠ none ∧ e ≠ "" ∧ e.length ≤ 256 := by
  cases moved with
  | start i call resting => exact ⟨effects.once, effects.kept⟩
  | statement ran =>
    refine ⟨ran.acted.claims.symm ▸ effects.once, ?_⟩
    intro t k e member
    rw [move_shared, ran.acted.claims] at member
    rw [move_shared, ran.acted.carried_iff, ran.acted.tasks.committed]
    exact effects.kept t k e member
  | raise | rollback =>
    refine ⟨effects.once, ?_⟩
    intro t k e member
    rw [move_shared, Shared.carried_abort, Shared.abort, committed_abort]
    exact effects.kept t k e member
  | @commit i answer ready =>
    have old : ∀ t k e, (t, k, e) ∈ p.shared.claims → ((p.thread i).record (p.shared.commit i)).Carried t k e ∧
        (((p.thread i).record (p.shared.commit i)).tasks.row t).committed ≠ none ∧ e ≠ "" ∧ e.length ≤ 256 := by
      intro t k e member
      obtain ⟨carried, stored, valid⟩ := effects.kept t k e member
      have after := kept_commit (effects.sound i) carried stored
      rw [Carried, record_executions, record_tasks]
      exact ⟨after.1, after.2, valid⟩
    rcases @record_claims (p.shared.commit i) (p.thread i) with same | ⟨id, key, t, k, claiming, added⟩
    · rw [move_shared, same]
      exact ⟨effects.once, old⟩
    · -- the claim still finds its item without the key, so it is not on the record yet
      have claim := effects.claims i id key _ claiming
      have absent : (t, k, btrim key) ∉ p.shared.claims :=
        fun member => claim.fresh t k rfl rfl (effects.kept t k _ member).1
      rw [move_shared, added]
      constructor
      · exact List.nodup_append.mpr ⟨effects.once, List.nodup_singleton _, fun a isOld b isNew same =>
          absent (List.mem_singleton.mp isNew ▸ same ▸ isOld)⟩
      · intro t' k' e' member
        rcases List.mem_append.mp member with isOld | isNew
        · exact old t' k' e' isOld
        · cases List.mem_singleton.mp isNew
          rw [Carried, record_executions, record_tasks]
          refine ⟨carried_commit.mpr (claim.marked t k rfl), ?_, claim.valid nofun⟩
          rw [Shared.commit, committed_commit]
          exact mt ((effects.sound i).task_eq_none_iff t).mp (claim.stored t k rfl rfl)

theorem Moved.effects (moved : Moved hash p event q) (effects : Effects hash p) : Effects hash q where
  sound := moved.sound effects.sound
  claims := moved.claims effects
  once := (moved.recorded effects).1
  kept := (moved.recorded effects).2

theorem effects_start : Effects hash (machine hash db).start where
  sound := sound_start
  claims := nofun
  once := List.nodup_nil
  kept _ _ _ member := absurd member List.not_mem_nil

theorem effects_of_reaches (reached : (machine hash db).Reaches ok p) : Effects hash p :=
  Reaches.invariant (Effects hash) effects_start (fun _ _ _ _ stepped effects => (step_moved stepped).effects effects)
    reached

/-- A call for an effect, through an attempt of its item. -/
structure LaterCall where
  taskID : String
  itemKey : String
  id : String
  key : String

/-- The statements that a claim has before it when the effect was executed already. -/
inductive Late (c : LaterCall) : ℕ → Txn → Prop
  | seen : Late c 0 (.once c.id c.key .seen)
  | check : Late c 1 (.once c.id c.key (.check c.taskID c.itemKey))
  | findTask : Late c 2 (.once c.id c.key (.findTask c.taskID c.itemKey))
  | lockNamed : Late c 3 (.once c.id c.key (.lockNamed c.taskID c.itemKey))
  | lockItem : Late c 4 (.once c.id c.key (.lockItem c.taskID c.itemKey))
  | read : Late c 5 (.once c.id c.key .read)

/-- A state in which the effect was executed, and an attempt of the item. -/
structure Executed (hash : String → ℤ) (c : LaterCall) (p : Pool Shared Txn) : Prop where
  effects : Effects hash p
  recorded : (c.taskID, c.itemKey, btrim c.key) ∈ p.shared.claims
  names : ∃ row, (p.shared.executions.row c.id).committed = some row ∧ row.taskID = c.taskID ∧ row.itemKey = c.itemKey

/-- Nobody else has the locks that the claim asks for. -/
def Available (hash : String → ℤ) (i : ℕ) (taskID itemKey id : String) (s : Shared) : Prop :=
  (s.advisory (hash (taskID ++ ":" ++ itemKey))).all (· == i) = true ∧ (s.executions.row id).free i = true

section
variable {c : LaterCall}

theorem names_pending (pending : txn.Pending before after)
    (committed : before = some row) : ∃ row', after = some row' ∧ row'.taskID = row.taskID ∧ row'.itemKey = row.itemKey := by
  subst committed
  cases pending with
  | same => exact ⟨row, rfl, rfl, rfl⟩
  | claimed | superseded | moved => exact ⟨_, rfl, rfl, rfl⟩

theorem Moved.executed (moved : Moved hash p event q) (executed : Executed hash c p) : Executed hash c q := by
  refine ⟨moved.effects executed.effects, ?_, ?_⟩
  · cases moved with
    | start | raise | rollback => exact executed.recorded
    | statement ran => exact ran.acted.claims.symm ▸ executed.recorded
    | @commit i answer ready =>
      rw [move_shared]
      rcases @record_claims (p.shared.commit i) (p.thread i) with same | ⟨_, _, _, _, _, added⟩
      · exact same.symm ▸ executed.recorded
      · exact added.symm ▸ List.mem_append_left _ executed.recorded
  · obtain ⟨row, committed, task, item⟩ := executed.names
    cases moved with
    | start => exact ⟨row, committed, task, item⟩
    | statement ran => exact ⟨row, (ran.acted.executions.committed c.id).trans committed, task, item⟩
    | raise | rollback =>
      refine ⟨row, ?_, task, item⟩
      rw [move_shared, Shared.abort, committed_abort, committed]
    | @commit i answer ready =>
      obtain ⟨row', seen, task', item'⟩ := names_pending (executed.effects.sound i |>.executions c.id) committed
      refine ⟨row', ?_, task'.trans task, item'.trans item⟩
      rw [move_shared, record_executions, Shared.commit, committed_commit, seen]

variable {n : ℕ} (executed : Executed hash c p) {events : List Event}
include executed

theorem Executed.visible (i : ℕ) :
    ∃ row, (p.shared.executions.row c.id).visible i = some row ∧ row.taskID = c.taskID ∧ row.itemKey = c.itemKey := by
  obtain ⟨row, committed, task, item⟩ := executed.names
  obtain ⟨row', seen, task', item'⟩ := names_pending (executed.effects.sound i |>.executions c.id) committed
  exact ⟨row', seen, task'.trans task, item'.trans item⟩

section
variable (told : btrim c.id ≠ "")
include told

/-- The next statement of such a claim: it waits for a lock or goes on, and it does not raise. -/
theorem Executed.statement (late : Late c (n + 1) (p.thread i)) (now : Timestamp) :
    ((p.thread i).statement hash p.shared i now = .blocked ∧ ¬ Available hash i c.taskID c.itemKey c.id p.shared) ∨
      ∃ after next, (p.thread i).statement hash p.shared i now = .moved after next ∧ Late c n next ∧
        (Available hash i c.taskID c.itemKey c.id p.shared → Available hash i c.taskID c.itemKey c.id after) := by
  obtain ⟨carried, stored, nonempty, short⟩ := executed.effects.kept _ _ _ executed.recorded
  obtain ⟨row, seen, task, item⟩ := executed.visible i
  have sound := executed.effects.sound i
  generalize p.thread i = txn at late sound ⊢
  cases late with
  | read =>
    refine .inr ⟨p.shared, _, ?_, .lockItem, fun free => free⟩
    have valid : (btrim c.id == "" || btrim c.key == "" || decide (256 < (btrim c.key).length)) = false := by
      simp only [Bool.or_eq_false_iff, beq_eq_false_iff_ne, decide_eq_false_iff_not, not_lt]
      exact ⟨⟨told, nonempty⟩, short⟩
    simp only [statement, onceForItem, valid, Bool.false_eq_true, ↓reduceIte, view_executions, seen, map, task, item]
  | lockItem =>
    by_cases free : (p.shared.advisory (hash (c.taskID ++ ":" ++ c.itemKey))).all (· == i) = true
    · refine .inr ⟨p.shared.takeItem hash i c.taskID c.itemKey, _, ?_, .lockNamed, fun available => ⟨?_, available.2⟩⟩
      · simp only [statement, onceForItem, lockItem, free, ↓reduceIte, map, takeItem]
      · change (Function.update p.shared.advisory _ (some i) _).all _ = true
        rw [Function.update_self, Option.all_some, beq_self_eq_true]
    · refine .inl ⟨?_, fun available => free available.1⟩
      simp only [statement, onceForItem, lockItem, free, Bool.false_eq_true, ↓reduceIte, map]
  | lockNamed =>
    by_cases free : (p.shared.executions.row c.id).free i = true
    · refine .inr ⟨{ p.shared with executions := p.shared.executions.lock i c.id }, _, ?_, .findTask, fun available =>
        ⟨available.1, ?_⟩⟩
      · simp only [statement, onceForItem, lockExecution, seen, free, ↓reduceIte, map]
      · rw [row_lock_self, Versions.free, Versions.holder_lock, Option.all_some, beq_self_eq_true]
    · refine .inl ⟨?_, fun available => free available.2⟩
      simp only [statement, onceForItem, lockExecution, seen, free, Bool.false_eq_true, ↓reduceIte, map]
  | findTask =>
    obtain ⟨task, seenTask⟩ := Option.ne_none_iff_exists'.mp (mt (sound.task_eq_none_iff _).mp stored)
    refine .inr ⟨p.shared, _, ?_, .check, fun free => free⟩
    simp only [statement, onceForItem, view_tasks, seenTask, map]
  | check =>
    have carries := itemCarries_iff.mpr (sound.sees carried)
    refine .inr ⟨p.shared, _, ?_, .seen, fun free => free⟩
    simp only [statement, onceForItem, carries, ↓reduceIte, map]

/-- The claim is on its way to its answer or has it, or was `rolled` back. -/
inductive Answering (c : LaterCall) (rolled : Prop) : Txn → Prop
  | late (n : ℕ) {claim : Txn} (late : Late c n claim) : Answering c rolled claim
  | answered : Answering c rolled (.ended (.executed false))
  | lost (back : rolled) : Answering c rolled (.ended .lost)

omit executed told in
theorem Answering.imp (answering : Answering c rolled txn) (weaker : rolled → rolled') : Answering c rolled' txn := by
  cases answering with
  | late n late => exact .late n late
  | answered => exact .answered
  | lost back => exact .lost (weaker back)

variable {rolled : Prop} (begun : Answering c rolled (p.thread i))
include begun

/-- Such a claim waits, or goes on towards its answer. -/
theorem Executed.reply (now : Timestamp) : (p.thread i).statement hash p.shared i now = .blocked ∨
      ∃ after next, (p.thread i).statement hash p.shared i now = .moved after next ∧ Answering c rolled next := by
  generalize current : p.thread i = txn at begun ⊢
  cases begun with
  | answered | lost => exact .inl rfl
  | late n late =>
    cases n with
    | zero =>
      cases late
      exact .inl rfl
    | succ n =>
      subst current
      rcases executed.statement told late now with ⟨blocked, _⟩ | ⟨after, next, moved, late', _⟩
      · exact .inl blocked
      · exact .inr ⟨after, next, moved, .late n late'⟩

theorem Executed.answering (moved : Moved hash p event q) (goesOn : ∀ call, event ≠ .start i call) :
    Answering c (rolled ∨ event = .rollback i) (q.thread i) := by
  -- a step of another session leaves this one as it is
  have others {j : ℕ} {after : Shared} {next : Txn} (other : i ≠ j) :
      Answering c (rolled ∨ event = .rollback i) ((p.move j after next).thread i) := by
    rw [move_thread_of_ne other]
    exact begun.imp .inl
  cases moved with
  | start j call resting =>
    apply others
    rintro rfl
    exact goesOn call rfl
  | @statement j now after next ran taken =>
    by_cases own : i = j
    · subst own
      rw [move_thread_self]
      rcases executed.reply told begun now with blocked | ⟨_, _, moved, answering⟩
      · cases blocked.symm.trans taken
      · cases moved.symm.trans taken
        exact answering.imp .inl
    · exact others own
  | @raise j now failure raised =>
    by_cases own : i = j
    · subst own
      rcases executed.reply told begun now with blocked | ⟨_, _, moved, _⟩
      · cases blocked.symm.trans raised
      · cases moved.symm.trans raised
    · exact others own
  | @commit j answer ready =>
    by_cases own : i = j
    · subst own
      rw [move_thread_self]
      generalize p.thread i = txn at begun ready
      cases begun with
      | answered | lost => cases ready
      | late n late =>
        cases late with
        | seen =>
          cases ready
          exact .answered
        | check | findTask | lockNamed | lockItem | read => cases ready
    · exact others own
  | rollback j =>
    by_cases own : i = j
    · subst own
      rw [move_thread_self]
      exact .lost (.inr rfl)
    · exact others own

theorem Executed.run (path : (machine hash db).Path anyStep p events q) (goesOn : ∀ call, .start i call ∉ events) :
    Executed hash c q ∧ Answering c (rolled ∨ .rollback i ∈ events) (q.thread i) := by
  induction path generalizing rolled with
  | nil => exact ⟨executed, begun.imp .inl⟩
  | cons _ stepped _ ih =>
    have moved := step_moved stepped
    have next := executed.answering told begun moved fun call same => goesOn call (same ▸ .head _)
    obtain ⟨executed', answering⟩ := ih (moved.executed executed) next fun call member => goesOn call (.tail _ member)
    refine ⟨executed', answering.imp ?_⟩
    rintro ((old | rfl) | later)
    exacts [.inl old, .inr (.head _), .inr (.tail _ later)]

omit begun in
/-- With its locks available, the claim gets its answer by statements of its own. -/
theorem Executed.finish (late : Late c n (p.thread i)) (available : Available hash i c.taskID c.itemKey c.id p.shared) :
    ∃ events q, (machine hash db).Path anyStep p events q ∧ q.thread i = .ended (.executed false) := by
  induction n generalizing p with
  | zero =>
    have ready : (p.thread i).answer = some (.executed false) := by
      generalize p.thread i = txn at late ⊢
      cases late
      rfl
    have committed : (machine hash db).step p (.commit i) =
        some (p.move i ((p.thread i).record (p.shared.commit i)) (.ended (.executed false))) := by
      simp only [machine, step, ready]
    exact ⟨[.commit i], _, .cons trivial committed (.nil _), move_thread_self⟩
  | succ n ih =>
    rcases executed.statement told late 0 with ⟨_, taken⟩ | ⟨after, next, moved, late', stays⟩
    · exact absurd available taken
    · have stepped : (machine hash db).step p (.statement i 0) = some (p.move i after next) := by
        simp only [machine, step, moved]
      have run : Moved hash p (.statement i 0) (p.move i after next) := .statement (statement_eq_moved moved) moved
      have late'' : Late c n ((p.move i after next).thread i) := by rwa [move_thread_self]
      obtain ⟨events, q, path, ended⟩ := ih (run.executed executed) late'' (stays available)
      exact ⟨.statement i 0 :: events, q, .cons trivial stepped path, ended⟩

end

end

/-- The effect of an item is executed once, and every later call for it gets that answer. -/
structure AtMostOnce (hash : String → ℤ) (db : Database) (p : Pool Shared Txn) : Prop where
  /-- No two claims that executed for the same task, item and trimmed key have committed. -/
  once : p.shared.claims.Nodup
  /-- A call that is made after one has committed, through any attempt of the item that is there by then: it answers
  that it did not execute, unless its connection or its wait for a lock fails. It gets that answer as soon as its locks
  are free. -/
  later : ∀ key i id row, (row.taskID, row.itemKey, btrim key) ∈ p.shared.claims →
    (p.shared.executions.row id).committed = some row →
    untold id = false → untold key = false → ∀ called events q,
      (machine hash db).step p (.start i (.onceForItem id key)) = some called →
      (machine hash db).Path anyStep called events q → (∀ call, .start i call ∉ events) →
      (∀ answer, q.thread i = .ended answer → answer = .executed false ∨ answer = .lost ∧ .rollback i ∈ events) ∧
      ((q.thread i).resting = false → Available hash i row.taskID row.itemKey id q.shared →
        ∃ more last, (machine hash db).Path anyStep q more last ∧ last.thread i = .ended (.executed false))

/-- A text that is not blank to the client is not blank to the database. -/
theorem btrim_ne_empty (told : untold text = false) : btrim text ≠ "" := by
  intro empty
  have trimmed : (text.toList.dropWhile (· == ' ')).rdropWhile (· == ' ') = [] := by
    rw [btrim, ← String.ofList_nil] at empty
    exact String.ofList_injective empty
  have spaces : text.toList.dropWhile (· == ' ') = [] := by
    by_contra rest
    have first := List.head_dropWhile_not (· == ' ') rest
    have all := List.rdropWhile_eq_nil_iff.mp trimmed _ (List.head_mem rest)
    exact Bool.noConfusion (all.symm.trans first)
  have blank : untold text = true := by
    rw [untold, List.all_eq_true]
    intro c member
    rw [beq_iff_eq.mp (List.dropWhile_eq_nil_iff.mp spaces c member)]
    rfl
  exact Bool.noConfusion (blank.symm.trans told)

/-- For every interleaving of the statements of claims, creations, retries, transitions and settlements. -/
theorem item_effect_at_most_once {hash : String → ℤ} {db : Database} {p : Pool Shared Txn}
    (reached : (machine hash db).Reaches anyStep p) : AtMostOnce hash db p where
  once := (effects_of_reaches reached).once
  later key i id row recorded committed toldID toldKey called events q started path goesOn := by
    have moved : Moved hash p (.start i (.onceForItem id key)) called := step_moved started
    have executed : Executed hash ⟨row.taskID, row.itemKey, id, key⟩ p :=
      ⟨effects_of_reaches reached, recorded, row, committed, rfl, rfl⟩
    have told := btrim_ne_empty toldID
    have begins : called.thread i = .once id key .read := by
      cases moved with
      | start =>
        rw [move_thread_self, Call.start, toldID, toldKey]
        rfl
    have begun : Answering ⟨row.taskID, row.itemKey, id, key⟩ False (called.thread i) := .late 5 (begins ▸ .read)
    obtain ⟨executed', result⟩ := (moved.executed executed).run told begun path goesOn
    constructor
    · intro answer ended
      rw [ended] at result
      cases result with
      | late n late => cases late
      | answered => exact .inl rfl
      | lost rolled => exact .inr ⟨rfl, rolled.resolve_left not_false⟩
    · intro busy available
      generalize current : q.thread i = txn at result busy
      cases result with
      | late n late => exact executed'.finish told (current ▸ late) available
      | answered | lost => cases busy

/-- A task with one attempt, which has failed. -/
def failedAttempt : Database := oneAttempt .failed

/-- An effect of the first attempt, a retry that waits for the item, and a call for the effect through the second attempt. -/
def retriedEffect : List Event :=
  [.start 0 (.onceForItem "first" "charge"), .start 1 (.retryExecution "first" none "second")] ++
    List.replicate 8 (.statement 0 1) ++ [.statement 1 2, .commit 0] ++ List.replicate 6 (.statement 1 3) ++
    [.commit 1, .start 2 (.onceForItem "second" " charge ")] ++ List.replicate 5 (.statement 2 4) ++ [.commit 2]

theorem retriedEffect_at_most_once : ∃ p, (machine (fun _ => 0) failedAttempt).Reaches anyStep p ∧
    (p.shared.claims == [("task", "item", "charge")] && p.thread 2 == .ended (.executed false)) = true ∧
    AtMostOnce (fun _ => 0) failedAttempt p := by
  exact exists_reached_and retriedEffect (by decide) fun p reached _ => item_effect_at_most_once reached

end Transaction

end RhinoQ.Model.TaskSchema
