import RhinoQ.Model.TaskSchema.Task
import Mathlib.Data.Int.Order.Basic

/-! # Updates of tasks

An update of one task leaves the other tables, and a task row that moved has a higher version.
-/

namespace RhinoQ.Model.TaskSchema

variable {a b c : Database} {t : String}

/-- The task row is the same, or there is one with a higher version. -/
def Newer (before after : Option TaskRow) : Prop :=
  after = before ∨ ∃ row next, before = some row ∧ after = some next ∧ row.version < next.version

/-- Only the tasks were written, and each row that moved has a higher version. -/
def Advanced (db after : Database) : Prop := ∀ k, Newer (db.tasks.lookup k) (after.tasks.lookup k)

/-- The task has a higher version now, if there is such a task. -/
def Bumped (db after : Database) (t : String) : Prop :=
  ∀ row, db.tasks.lookup t = some row → ∃ next, after.tasks.lookup t = some next ∧ row.version < next.version

theorem Newer.trans {a b c : Option TaskRow} (first : Newer a b) (second : Newer b c) : Newer a c := by
  rcases first with rfl | ⟨row, next, rfl, rfl, less⟩
  · exact second
  · rcases second with rfl | ⟨_, last, ⟨⟩, rfl, more⟩
    · exact .inr ⟨row, next, rfl, rfl, less⟩
    · exact .inr ⟨row, last, rfl, rfl, less.trans more⟩

theorem Advanced.refl (db : Database) : Advanced db db := fun _ => .inl rfl

theorem Advanced.trans (first : Advanced a b) (second : Advanced b c) : Advanced a c :=
  fun k => (first k).trans (second k)

theorem Bumped.trans_advanced (first : Bumped a b t) (second : Advanced b c) : Bumped a c t := by
  intro row stored
  obtain ⟨next, present, less⟩ := first row stored
  rcases second t with same | ⟨_, last, found, latest, more⟩
  · exact ⟨next, same.trans present, less⟩
  · cases present.symm.trans found
    exact ⟨last, latest, less.trans more⟩

namespace Database

variable (db : Database)

/-- The frame of an update of one task. -/
structure TasksOnly (db after : Database) : Prop where
  executions : after.executions = db.executions
  waitpoints : after.waitpoints = db.waitpoints
  steps : after.steps = db.steps
  attempts : after.attempts = db.attempts

section
variable (id : String) (change : TaskRow → TaskRow)
include id change

theorem updateTask_frame : TasksOnly db (db.updateTask id change) := by
  unfold updateTask
  split <;> exact ⟨rfl, rfl, rfl, rfl⟩

theorem lookup_updateTask (k : String) :
    (db.updateTask id change).tasks.lookup k = if k = id then (db.tasks.lookup id).map change else db.tasks.lookup k := by
  unfold updateTask
  cases stored : db.tasks.lookup id with
  | none =>
    dsimp only
    by_cases same : k = id
    · rw [if_pos same, same, stored, Option.map_none]
    · rw [if_neg same]
  | some row =>
    dsimp only
    rw [FiniteMap.lookup_insert, Option.map_some]

theorem updateTask_advanced (raises : ∀ row, row.version < (change row).version) :
    Advanced db (db.updateTask id change) ∧ Bumped db (db.updateTask id change) id := by
  constructor
  · intro k
    rw [lookup_updateTask]
    split
    next same =>
      subst same
      cases stored : db.tasks.lookup k with
      | none => exact .inl rfl
      | some row => exact .inr ⟨row, change row, rfl, rfl, raises row⟩
    next => exact .inl rfl
  · intro row stored
    rw [lookup_updateTask, if_pos rfl, stored]
    exact ⟨change row, rfl, raises row⟩

end

theorem bumpTask_advanced (id : String) (now : Timestamp) :
    Advanced db (db.bumpTask id now) ∧ Bumped db (db.bumpTask id now) id :=
  db.updateTask_advanced id _ fun _ => Int.lt_succ _

theorem writeTask_advanced {db : Database} {now : Timestamp} {id : String} {row next : TaskRow}
    (stored : db.tasks.lookup id = some row)
    (version : next.version = row.version) : Advanced db (db.writeTask now id next) := by
  intro k
  rw [writeTask, FiniteMap.lookup_insert]
  split
  next same => exact .inr ⟨row, _, same ▸ stored, rfl, version ▸ Int.lt_succ _⟩
  next => exact .inl rfl

end Database

namespace Counts

/-- The bucket of a state. -/
def get (counts : Counts) : ExecutionState → ℤ
  | .pendingDispatch => counts.pendingDispatch
  | .dispatched => counts.dispatched
  | .running => counts.running
  | .succeeded => counts.succeeded
  | .failed => counts.failed
  | .stalled => counts.stalled
  | .cancelled => counts.cancelled

theorem ext_get {a b : Counts} (total : a.total = b.total) (buckets : ∀ s, a.get s = b.get s) : a = b := by
  have pendingDispatch := buckets .pendingDispatch
  have dispatched := buckets .dispatched
  have running := buckets .running
  have succeeded := buckets .succeeded
  have failed := buckets .failed
  have stalled := buckets .stalled
  have cancelled := buckets .cancelled
  cases a
  cases b
  simp_all [get]

@[simp] theorem get_add (counts : Counts) (n : ℤ) (s t : ExecutionState) :
    (counts.add n s).get t = counts.get t + if s = t then n else 0 := by
  cases s <;> cases t <;> simp [add, get]

theorem total_add (counts : Counts) (n : ℤ) (s : ExecutionState) : (counts.add n s).total = counts.total := by
  cases s <;> rfl

@[simp] theorem get_withTotal (a : Counts) (n : ℤ) (s : ExecutionState) : { a with total := n }.get s = a.get s := by
  cases s <;> rfl

end Counts

end RhinoQ.Model.TaskSchema
