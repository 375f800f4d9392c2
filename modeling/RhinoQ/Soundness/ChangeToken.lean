import RhinoQ.Model.TaskSchema.Read
import RhinoQ.Proofs.TaskSchema.Told

/-! # The version of a task as a change token

Every command that changes what a snapshot shows moves the version of the task, apart from two: a claim of an
effect moves the version of an execution alone, and a settlement the time of the last update alone.
-/

namespace RhinoQ.Model.TaskSchema

variable {ownerID tenantID : Option String}

variable {db after : Database} {t : String}

/-- The event changes what a snapshot shows and leaves the version of the task. -/
def silent (db : Database) (event : Event) : Bool :=
  match event.command with
  | .claimItemEffect id effectKey =>
    (db.executions.lookup id).any fun row => !db.itemCarries row.taskID row.itemKey (btrim (effectKey.getD ""))
  | .settleItems id =>
    (db.tasks.lookup id).any fun row =>
      row.itemsSettledAt.isNone && !(db.liveExecutions id).isEmpty && (db.liveExecutions id).all (·.state.done)
  | _ => false

theorem told_of_step (quiet : silent db event = false) (taken : step db event = some after)
    (t : String) : Told t db after := by
  rcases step_cases taken with same | success
  · exact same ▸ told_of_kept (.refl _) rfl
  obtain told | silent := (wrote_of_execute success).told_or_silent t
  · exact told
  cases silent with
  | claimed id currentID effectKey named row asked addressed fresh stored written =>
    rw [silent, asked] at quiet
    dsimp only at quiet
    rw [addressed, Option.any_some, fresh] at quiet
    cases quiet
  | settled id row asked stored ready written =>
    rw [silent, asked] at quiet
    dsimp only at quiet
    rw [stored, Option.any_some, ready] at quiet
    cases quiet

/-- The same attempts are listed the same way. -/
theorem executionSummaries_eq (same : SameAttempts t db.executions after.executions) :
    after.executionSummaries t = db.executionSummaries t := by
  have members (entry : Sigma fun _ : String => ExecutionRow) :
      entry ∈ (after.executions.entries.filter fun entry => entry.2.taskID == t) ↔
        entry ∈ (db.executions.entries.filter fun entry => entry.2.taskID == t) := by
    obtain ⟨id, row⟩ := entry
    simp only [List.mem_filter, beq_iff_eq, FiniteMap.mem_entries_iff]
    constructor
    · rintro ⟨stored, belongs⟩
      exact ⟨(same id row belongs).mp stored, belongs⟩
    · rintro ⟨stored, belongs⟩
      exact ⟨(same id row belongs).mpr stored, belongs⟩
  have perm : (after.executions.entries.filter fun entry => entry.2.taskID == t).Perm
      (db.executions.entries.filter fun entry => entry.2.taskID == t) :=
    (List.perm_ext_iff_of_nodup (after.executions.nodupKeys.nodup.filter _)
      (db.executions.nodupKeys.nodup.filter _)).mpr members
  refine sortBy_eq_of_perm _ (perm.map _) fun a memberA b memberB key => ?_
  obtain ⟨⟨i, row⟩, presentA, rfl⟩ := List.mem_map.mp memberA
  obtain ⟨⟨j, row'⟩, presentB, rfl⟩ := List.mem_map.mp memberB
  -- the id of an attempt is part of its position
  have ids : i = j := congrArg (fun position => (ofLex (ofLex position).2).2) key
  subst ids
  rw [List.mem_filter, FiniteMap.mem_entries_iff] at presentA presentB
  cases presentA.1.symm.trans presentB.1
  rfl

/-- Along a path of events that are not silent, a task that has a row tells. -/
theorem told_of_path
    (path : (machine initial).Path (fun state event => silent state event = false) db events later)
    (stored : db.tasks.lookup t = some row) : ∃ next, later.tasks.lookup t = some next ∧
      (row.version < next.version ∨ next = row ∧ SameAttempts t db.executions later.executions) := by
  refine path.invariant (fun state => ∃ next, state.tasks.lookup t = some next ∧
    (row.version < next.version ∨ next = row ∧ SameAttempts t db.executions state.executions)) ?_
    ⟨row, stored, .inr ⟨rfl, fun _ _ _ => Iff.rfl⟩⟩
  rintro source event target quiet taken ⟨next, present, so⟩
  obtain ⟨last, found, told⟩ := told_of_step quiet taken t next present
  refine ⟨last, found, ?_⟩
  rcases so with before | ⟨rfl, same⟩
  · rcases told with after | ⟨rfl, _⟩
    · exact .inl (before.trans after)
    · exact .inl before
  · exact told.imp id fun kept => ⟨kept.1, same.trans kept.2⟩

theorem snapshot_eq_some (read : db.snapshot t ownerID tenantID = some snapshot) :
    ∃ row, db.tasks.lookup t = some row ∧ snapshot = mapSnapshot t row (db.executionSummaries t) := by
  obtain ⟨row, visible, same⟩ := Option.map_eq_some_iff.mp read
  exact ⟨row, (Option.filter_eq_some_iff.mp visible).1, same.symm⟩

theorem readTaskIfNewer_eq_none (answer : db.readTaskIfNewer after t since ownerID tenantID = .ok none) :
    ∃ row, db.tasks.lookup t = some row ∧ row.version ≤ since ∧
      db.snapshot t ownerID tenantID = some (mapSnapshot t row (db.executionSummaries t)) := by
  unfold Database.readTaskIfNewer at answer
  split at answer
  · cases answer
  split at answer
  · cases answer
  split at answer
  · cases answer
  rename_i row visible
  split at answer
  next old => exact ⟨row, (Option.filter_eq_some_iff.mp visible).1, old, by rw [Database.snapshot, visible]; rfl⟩
  cases rest : after.readTask t ownerID tenantID with
  | error error =>
    rw [rest] at answer
    cases answer
  | ok value =>
    rw [rest] at answer
    cases answer

/-- In every run without silent events, two snapshots of a task with the same version are equal, and a
reader that is told that there is nothing newer holds the snapshot that it would read. -/
theorem entityVersion_faithful {initial db later : Database} {events : List Event} {taskID : String}
    {snapshot : TaskSnapshot}
    {ownerID tenantID : Option String}
    (path : (machine initial).Path (fun state event => silent state event = false) db events later)
    (read : db.snapshot taskID ownerID tenantID = some snapshot) (ownerID' tenantID' : Option String) :
    (∀ snapshot', later.snapshot taskID ownerID' tenantID' = some snapshot' →
      snapshot'.entityVersion = snapshot.entityVersion → snapshot' = snapshot) ∧
    (∀ after, later.readTaskIfNewer after taskID snapshot.entityVersion ownerID' tenantID' = .ok none →
      later.snapshot taskID ownerID' tenantID' = some snapshot) ∧
    ∀ after, later.getTaskIfNewerThan after taskID snapshot.entityVersion = .ok none →
      later.snapshot taskID none none = some snapshot := by
  obtain ⟨row, stored, rfl⟩ := snapshot_eq_some read
  obtain ⟨next, present, told⟩ := told_of_path path stored
  -- with the version that was read, nothing was told
  have exact' (same : next.version ≤ row.version) :
      mapSnapshot taskID next (later.executionSummaries taskID) = mapSnapshot taskID row (db.executionSummaries taskID) := by
    obtain ⟨rfl, attempts⟩ := told.resolve_left same.not_gt
    rw [executionSummaries_eq attempts]
  have exactIfNone (after : Database) (ownerID tenantID : Option String)
      (answer : later.readTaskIfNewer after taskID row.version ownerID tenantID = .ok none) :
      later.snapshot taskID ownerID tenantID = some (mapSnapshot taskID row (db.executionSummaries taskID)) := by
    obtain ⟨found, lookup, old, reads⟩ := readTaskIfNewer_eq_none answer
    cases present.symm.trans lookup
    rw [reads, exact' old]
  refine ⟨fun snapshot' read' version => ?_, fun after => exactIfNone after ownerID' tenantID', fun after =>
    exactIfNone after none none⟩
  obtain ⟨found, lookup, rfl⟩ := snapshot_eq_some read'
  cases present.symm.trans lookup
  exact exact' (le_of_eq version)

/-- A task with an attempt that is cancelled. -/
def cancelledAttempt : List Event :=
  [⟨0, .createTask "task" "invoice" "tenant" none 1⟩,
    ⟨1000, .createExecution "run" "task" (some "item") (some "bullmq") none none⟩,
    ⟨2000, .transitionExecution "run" (some 1) .cancelled none⟩]

theorem cancelledAttempt_faithful : ∃ db later snapshot,
    (machine {}).Path (fun state event => silent state event = false) db [⟨3000, .syncItemProgress "task"⟩] later ∧
    db.snapshot "task" none none = some snapshot ∧
    later.getTaskIfNewerThan later "task" snapshot.entityVersion = .ok none ∧
      later.snapshot "task" none none = some snapshot := by
  obtain ⟨db, _, snapshot, read, later, ran, answer⟩ : ∃ db, (machine {}).run {} cancelledAttempt = some db ∧
      ∃ snapshot, db.snapshot "task" none none = some snapshot ∧ ∃ later,
        (machine {}).runChecked (fun state event => !silent state event) db [⟨3000, .syncItemProgress "task"⟩] = some later ∧
          later.getTaskIfNewerThan later "task" snapshot.entityVersion = .ok none := by
    decide
  have path := Machine.path_of_runChecked (fun _ _ checked => (Bool.not_eq_true' _).mp checked) ran
  exact ⟨db, later, snapshot, path, read, answer, (entityVersion_faithful path read none none).2.2 later answer⟩

/-- Two snapshots of the task with one version that differ. -/
def Disagree (db after : Database) : Prop :=
  ∃ snapshot snapshot', db.snapshot "task" none none = some snapshot ∧ after.snapshot "task" none none = some snapshot' ∧
    snapshot'.entityVersion = snapshot.entityVersion ∧ snapshot' ≠ snapshot

/-- A claim of an effect and a settlement both change the snapshot behind its version. -/
theorem silent_events_disagree : ∃ db claimed settled, (machine {}).Reaches Machine.anyStep db ∧
    step db ⟨3000, .claimItemEffect "run" (some "charge")⟩ = some claimed ∧ Disagree db claimed ∧
    step db ⟨4000, .settleItems "task"⟩ = some settled ∧ Disagree db settled := by
  simp only [exists_and_left, Disagree]
  exact Machine.exists_reached cancelledAttempt (by decide)

end RhinoQ.Model.TaskSchema
