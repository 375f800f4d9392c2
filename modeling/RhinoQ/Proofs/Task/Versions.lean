import RhinoQ.Proofs.Task.Store

/-! # What every write of the task store keeps

Each write stores one task under its own name with a higher version. With that go the facts that every run
keeps about where tasks, waitpoints and attempts are filed.
-/

namespace RhinoQ.Model.TaskStore

open FiniteMap Model.Task

variable {taskID : String} {id : ID} {after next parent : Record}

/-- What holds of the store in every run. -/
structure Sound (s : TaskStore) : Prop where
  named : ∀ id record, s.tasks.lookup id = some record → record.id = id
  awaited : ∀ id record, s.waitpoints.lookup id = some record →
    record.id = id ∧ (s.tasks.lookup record.taskID).isSome
  filed : ∀ taskID, ∀ id ∈ values (s.byAttempt taskID), (s.executions.lookup id).isSome
  attempted : ∀ taskID, (s.attempts.lookup taskID).isSome → (s.tasks.lookup taskID).isSome

theorem Sound.empty : Sound {} where
  named id record found := by cases found
  awaited id record found := by cases found
  filed taskID id member := by cases member
  attempted taskID present := by cases present

/-- A write of one task. -/
structure Wrote (s t : TaskStore) (id : ID) (after : Record) : Prop where
  name : after.id = id
  newer : ∀ before, s.tasks.lookup id = some before → before.version < after.version
  tasks : t.tasks = s.tasks.insert id after

/-- A waitpoint that was read is of the same task as the one stored under its name. -/
def Read (s : TaskStore) (record : Waitpoint.Record) : Prop :=
  ∃ stored, s.waitpoints.lookup record.id = some stored ∧ stored.taskID = record.taskID

/-- A waitpoint that may be stored: its task is stored, and it takes no other task's waitpoint. -/
structure Placed (s : TaskStore) (record : Waitpoint.Record) : Prop where
  task : (s.tasks.lookup record.taskID).isSome
  owner : ∀ stored, s.waitpoints.lookup record.id = some stored → stored.taskID = record.taskID

/-- What a store call can do. -/
inductive Change (s t : TaskStore) : Prop
  | kept (change : Kept s t)
  | created (change : Created s t record)
  | replaced {next : Record} (change : Replaced s t current next)
  | added {taskID : ID} {parent after : Record}
      (change : Added s t taskID parent after record)
  | moved {parent after : Record} (change : Moved s t current record parent after)
  | waited (placed : Placed s record) (change : Waited s t record)

section
variable {s t : TaskStore}
variable {record : Waitpoint.Record} {id : Waitpoint.ID}

/-- After a write every stored task is newer, or the same where it is not the one written. -/
theorem Wrote.newer_or_same (wrote : Wrote s t key next) (found : s.tasks.lookup id = some before) :
    ∃ after, t.tasks.lookup id = some after ∧ (before.version < after.version ∨ after = before ∧ id ≠ key) := by
  rw [wrote.tasks, lookup_insert]
  split
  next same => exact ⟨next, rfl, .inl (wrote.newer before (same ▸ found))⟩
  next other => exact ⟨before, found, .inr ⟨rfl, other⟩⟩

theorem Placed.of_fresh (task : (s.tasks.lookup record.taskID).isSome)
    (fresh : s.waitpoints.lookup record.id = none) : Placed s record := by
  refine ⟨task, fun stored found => ?_⟩
  rw [fresh] at found
  cases found

theorem Sound.read (sound : Sound s) (found : s.waitpoints.lookup id = some record) : Read s record := by
  refine ⟨record, ?_, rfl⟩
  rw [(sound.awaited id record found).1]
  exact found

theorem Read.placed (read : Read s record) (sound : Sound s) : Placed s record := by
  obtain ⟨stored, found, owner⟩ := read
  constructor
  · rw [← owner]
    exact (sound.awaited record.id stored found).2
  · intro other present
    cases found.symm.trans present
    exact owner

theorem Created.wrote {record : Record} (change : Created s t record) : Wrote s t record.id record where
  name := rfl
  newer before found := by
    rw [change.fresh] at found
    cases found
  tasks := change.tasks

theorem Replaced.wrote (change : Replaced s t current next) : Wrote s t next.id next where
  name := rfl
  newer before found := by
    cases change.found.symm.trans found
    exact change.newer
  tasks := change.tasks

theorem Change.waitpoints (change : Change s t) : t.waitpoints = s.waitpoints ∨
      ∃ record, Placed s record ∧ t.waitpoints = s.waitpoints.insert record.id record := by
  cases change with
  | kept change => exact .inl change.waitpoints
  | created change => exact .inl change.waitpoints
  | replaced change => exact .inl change.waitpoints
  | added change => exact .inl change.waitpoints
  | moved change => exact .inl change.waitpoints
  | waited placed change => exact .inr ⟨_, placed, change.waitpoints⟩

theorem Change.read (change : Change s t) (read : Read s record) : Read t record := by
  obtain ⟨stored, found, owner⟩ := read
  obtain same | ⟨written, placed, inserted⟩ := change.waitpoints
  · rw [Read, same]
    exact ⟨stored, found, owner⟩
  · rw [Read, inserted, lookup_insert]
    split
    next same =>
      refine ⟨written, rfl, ?_⟩
      rw [← owner]
      exact (placed.owner stored (same ▸ found)).symm
    · exact ⟨stored, found, owner⟩

theorem mem_values_insert [DecidableEq κ] {k : κ}
    (member : w ∈ values (m.insert k v)) : w = v ∨ w ∈ values m := by
  obtain ⟨key, found⟩ := mem_values_iff.mp member
  obtain ⟨_, same⟩ | ⟨_, found⟩ := lookup_insert_cases rfl found
  · exact .inl same
  · exact .inr (mem_values_iff.mpr ⟨key, found⟩)

section
variable (sound : Sound s)
include sound

theorem Added.wrote {record : Execution.Record} (change : Added s t taskID parent after record) :
    Wrote s t taskID after where
  name := change.id.trans (sound.named taskID parent change.found)
  newer before found := by
    cases change.found.symm.trans found
    exact change.newer
  tasks := change.tasks

theorem Moved.wrote {current record : Execution.Record}
    (change : Moved s t current record parent after) : Wrote s t record.taskID after where
  name := change.id.trans (sound.named record.taskID parent change.found)
  newer before found := by
    cases change.found.symm.trans found
    exact change.newer
  tasks := change.tasks

theorem Waited.wrote (placed : Placed s record) (change : Waited s t record) :
    ∃ parent, s.tasks.lookup record.taskID = some parent ∧ Wrote s t record.taskID (parent.touch record.updatedAt) := by
  obtain ⟨parent, found⟩ := Option.isSome_iff_exists.mp placed.task
  have name : (parent.touch record.updatedAt).id = record.taskID := sound.named record.taskID parent found
  refine ⟨parent, found, name, ?_, ?_⟩
  · intro before stored
    cases found.symm.trans stored
    exact touch_version parent record.updatedAt
  · rw [change.tasks, saveWaitpoint, task, found]
    dsimp only [Option.getD_some]
    rw [name]

variable (change : Change s t)
include change

/-- Every change but a kept store writes one task. -/
theorem Change.wrote : Kept s t ∨ ∃ id after, Wrote s t id after := by
  cases change with
  | kept change => exact .inl change
  | created change => exact .inr ⟨_, _, change.wrote⟩
  | replaced change => exact .inr ⟨_, _, change.wrote⟩
  | added change => exact .inr ⟨_, _, change.wrote sound⟩
  | moved change => exact .inr ⟨_, _, change.wrote sound⟩
  | waited placed change =>
    obtain ⟨parent, _, wrote⟩ := change.wrote sound placed
    exact .inr ⟨_, _, wrote⟩

theorem Change.named {record : Record} (found : t.tasks.lookup id = some record) : record.id = id := by
  obtain kept | ⟨key, after, wrote⟩ := change.wrote sound
  · rw [kept.tasks] at found
    exact sound.named id record found
  · exact forall_insert wrote.tasks wrote.name sound.named id record found

theorem Change.isSome (present : (s.tasks.lookup id).isSome) : (t.tasks.lookup id).isSome := by
  obtain kept | ⟨key, after, wrote⟩ := change.wrote sound
  · rw [kept.tasks]
    exact present
  · rw [wrote.tasks]
    exact isSome_lookup_insert after (.inr present)

theorem Change.awaited (found : t.waitpoints.lookup id = some record) :
    record.id = id ∧ (t.tasks.lookup record.taskID).isSome := by
  obtain same | ⟨written, placed, inserted⟩ := change.waitpoints
  · rw [same] at found
    exact (sound.awaited id record found).imp_right (change.isSome sound)
  · obtain ⟨rfl, rfl⟩ | ⟨_, found⟩ := lookup_insert_cases inserted found
    · exact ⟨rfl, change.isSome sound placed.task⟩
    · exact (sound.awaited id record found).imp_right (change.isSome sound)

theorem Change.filed {id : Execution.ID}
    (member : id ∈ values (t.byAttempt taskID)) : (t.executions.lookup id).isSome := by
  have same (executions : t.executions = s.executions) (attempts : t.attempts = s.attempts) :
      (t.executions.lookup id).isSome := by
    rw [byAttempt, attempts] at member
    rw [executions]
    exact sound.filed taskID id member
  cases change with
  | kept change => exact same change.executions change.attempts
  | created change => exact same change.executions change.attempts
  | replaced change => exact same change.executions change.attempts
  | added change =>
    rw [change.executions]
    rw [byAttempt, change.attempts, lookup_insert] at member
    split at member
    · obtain rfl | old := mem_values_insert member
      · rw [lookup_insert, if_pos rfl]
        rfl
      · exact isSome_lookup_insert _ (.inr (sound.filed _ id old))
    · exact isSome_lookup_insert _ (.inr (sound.filed taskID id member))
  | moved change =>
    rw [change.executions]
    rw [byAttempt, change.attempts] at member
    exact isSome_lookup_insert _ (.inr (sound.filed taskID id member))
  | waited _ change => exact same change.executions change.attempts

theorem Change.attempted (present : (t.attempts.lookup taskID).isSome) : (t.tasks.lookup taskID).isSome := by
  have same (attempts : t.attempts = s.attempts) : (t.tasks.lookup taskID).isSome := by
    rw [attempts] at present
    exact change.isSome sound (sound.attempted taskID present)
  cases change with
  | kept change => exact same change.attempts
  | created change => exact same change.attempts
  | replaced change => exact same change.attempts
  | added change =>
    rw [change.attempts, lookup_insert] at present
    rw [change.tasks, lookup_insert]
    split at present
    next own =>
      rw [if_pos own]
      rfl
    next other =>
      rw [if_neg other]
      exact sound.attempted taskID present
  | moved change => exact same change.attempts
  | waited _ change => exact same change.attempts

end

theorem Change.sound (sound : Sound s) (change : Change s t) : Sound t where
  named _ _ found := change.named sound found
  awaited _ _ found := change.awaited sound found
  filed _ _ member := change.filed sound member
  attempted _ present := change.attempted sound present

end
end RhinoQ.Model.TaskStore
