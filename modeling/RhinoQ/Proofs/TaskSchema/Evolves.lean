import RhinoQ.Proofs.TaskSchema.Consistent
import RhinoQ.Proofs.TaskSchema.Told

/-! # What every command keeps

An attempt keeps its place and, once it has one, its reference; a reference that has a live attempt has one
ever after; and the attempts of a task stand where they stood unless its version grew.
-/

namespace RhinoQ.Model.TaskSchema

open FiniteMap

variable {a b : ExecutionRow} {now : Timestamp} {db : Database}

/-- The attempt of a reference that is not superseded. -/
structure LiveAt (db : Database) (runtime scope external id : String) (row : ExecutionRow) : Prop where
  stored : db.executions.lookup id = some row
  live : row.supersededAt = none
  runtime : row.runtime = runtime
  runtimeScope : row.runtimeScope = scope
  externalID : row.externalID = some external

theorem LiveAt.unique (consistent : Consistent db) {runtime scope external i j : String}
    (left : LiveAt db runtime scope external i a) (right : LiveAt db runtime scope external j b) : i = j ∧ a = b := by
  have same : i = j := by
    refine consistent.referenced i j a b left.stored right.stored ?_
    simp [Database.sharesReference, ExecutionRow.live, left.live, right.live, left.runtime, right.runtime, left.runtimeScope,
      right.runtimeScope, left.externalID, right.externalID]
  subst same
  exact ⟨rfl, Option.some.inj (left.stored.symm.trans right.stored)⟩

/-- What an attempt keeps. -/
structure ExecutionRow.Evolves (row next : ExecutionRow) : Prop where
  taskID : next.taskID = row.taskID
  itemKey : next.itemKey = row.itemKey
  attempt : next.attempt = row.attempt
  runtime : next.runtime = row.runtime
  bound : ∀ text, row.externalID = some text → next.externalID = some text ∧ next.runtimeScope = row.runtimeScope
  crossed : row.state ≠ .pendingDispatch → next.state ≠ .pendingDispatch
  superseded : row.supersededAt ≠ none → next.supersededAt ≠ none

namespace ExecutionRow.Evolves

theorem refl (row : ExecutionRow) : row.Evolves row where
  taskID := rfl
  itemKey := rfl
  attempt := rfl
  runtime := rfl
  bound _ held := ⟨held, rfl⟩
  crossed := id
  superseded := id

theorem trans (first : a.Evolves b) (second : b.Evolves c) : a.Evolves c where
  taskID := second.taskID.trans first.taskID
  itemKey := second.itemKey.trans first.itemKey
  attempt := second.attempt.trans first.attempt
  runtime := second.runtime.trans first.runtime
  bound text held := by
    obtain ⟨still, scope⟩ := first.bound text held
    obtain ⟨last, scope'⟩ := second.bound text still
    exact ⟨last, scope'.trans scope⟩
  crossed away := second.crossed (first.crossed away)
  superseded held := second.superseded (first.superseded held)

/-- A transition never leads back before the dispatch. -/
theorem of_moved {row : ExecutionRow}
    (allowed : row.state.canTransition row.externalID.isSome target = true) : row.Evolves (row.moved now target reason) where
  taskID := rfl
  itemKey := rfl
  attempt := rfl
  runtime := rfl
  bound _ held := ⟨held, rfl⟩
  crossed _ back := by
    replace back : target = .pendingDispatch := back
    subst back
    cases state : row.state <;> rw [state] at allowed <;> cases allowed
  superseded := id

theorem of_annotates {next : ExecutionRow} (annotates : Annotates row next) : row.Evolves next where
  taskID := annotates.rewrites.taskID
  itemKey := annotates.rewrites.itemKey
  attempt := annotates.rewrites.attempt
  runtime := annotates.runtime
  bound _ held := ⟨annotates.externalID.trans held, annotates.runtimeScope⟩
  crossed away := annotates.state ▸ away
  superseded held := annotates.rewrites.supersededAt ▸ held

end ExecutionRow.Evolves

structure Evolves (db after : Database) : Prop where
  rows : ∀ id row, db.executions.lookup id = some row → ∃ next, after.executions.lookup id = some next ∧ row.Evolves next
  live : ∀ runtime scope external id row, LiveAt db runtime scope external id row →
    ∃ id' next, LiveAt after runtime scope external id' next
  tasks : ∀ t, Fenced t db after

namespace Evolves

theorem refl (db : Database) : Evolves db db where
  rows _ row stored := ⟨row, stored, .refl row⟩
  live _ _ _ id row held := ⟨id, row, held⟩
  tasks _ := .refl db

theorem trans {a b c : Database} (first : Evolves a b) (second : Evolves b c) : Evolves a c where
  rows id row stored := by
    obtain ⟨next, present, evolves⟩ := first.rows id row stored
    obtain ⟨last, found, evolves'⟩ := second.rows id next present
    exact ⟨last, found, evolves.trans evolves'⟩
  live runtime scope external id row held := by
    obtain ⟨id', next, held'⟩ := first.live runtime scope external id row held
    exact second.live runtime scope external id' next held'
  tasks t := (first.tasks t).trans (second.tasks t)

section
variable {db after : Database} {id : String} {row next : ExecutionRow}

theorem rows_insert (executions : after.executions = db.executions.insert id next)
    (old : ∀ before, db.executions.lookup id = some before → before.Evolves next) (j : String) (a : ExecutionRow)
    (stored : db.executions.lookup j = some a) : ∃ b, after.executions.lookup j = some b ∧ a.Evolves b := by
  rw [executions, lookup_insert]
  split
  next same => exact ⟨next, rfl, old a (same ▸ stored)⟩
  next => exact ⟨a, stored, .refl a⟩

theorem live_insert (executions : after.executions = db.executions.insert id next)
    (old : ∀ before, db.executions.lookup id = some before → before.Evolves next ∧ next.supersededAt = before.supersededAt)
    (held : LiveAt db runtime scope external j a) : ∃ j' b, LiveAt after runtime scope external j' b := by
  by_cases same : j = id
  · subst same
    obtain ⟨evolves, superseded⟩ := old a held.stored
    obtain ⟨external', scope'⟩ := evolves.bound external held.externalID
    refine ⟨j, next, ?_, superseded.trans held.live, evolves.runtime.trans held.runtime, scope'.trans held.runtimeScope,
      external'⟩
    rw [executions, lookup_insert, if_pos rfl]
  · refine ⟨j, a, ?_, held.live, held.runtime, held.runtimeScope, held.externalID⟩
    rw [executions, lookup_insert, if_neg same]
    exact held.stored

end

section
variable {db after : Database} {now : Timestamp} {command : Command}

theorem step (success : command.execute db now = .ok after) : Evolves db after := by
  have tasks := fenced_of_execute success
  -- one row is written in place of the one that was there, if any
  have written {id : String} {next : ExecutionRow} (executions : after.executions = db.executions.insert id next)
      (old : ∀ before, db.executions.lookup id = some before → before.Evolves next ∧
        next.supersededAt = before.supersededAt) :
      Evolves db after :=
    ⟨rows_insert executions fun before stored => (old before stored).1, fun _ _ _ _ _ held =>
      live_insert executions old held, tasks⟩
  cases wrote_of_execute success with
  | kept executions =>
    refine ⟨fun id row stored => ⟨row, executions ▸ stored, .refl row⟩, fun _ _ _ id row held => ⟨id, row, ?_⟩, tasks⟩
    exact ⟨executions ▸ held.stored, held.live, held.runtime, held.runtimeScope, held.externalID⟩
  | created request task valid owner absent unclashed executions =>
    exact written executions fun before stored => nomatch absent.symm.trans stored
  | bound row stored current pending runtime same told unclashed executions =>
    refine written executions fun before stored' => ?_
    cases stored.symm.trans stored'
    unfold ExecutionRow.boundTo
    refine ⟨⟨rfl, rfl, rfl, rfl, fun text held => ?_, fun _ => nofun, id⟩, rfl⟩
    obtain ⟨external, scope⟩ := same text held
    exact ⟨congrArg some external.symm, scope.symm⟩
  | moved row reason asked stored differs allowed executions =>
    refine written executions fun before stored' => ?_
    cases stored.symm.trans stored'
    exact ⟨.of_moved allowed, rfl⟩
  | annotated id row next stored annotates executions =>
    refine written executions fun before stored' => ?_
    cases stored.symm.trans stored'
    exact ⟨.of_annotates annotates, annotates.rewrites.supersededAt⟩
  | @retried expected id newID row stored live current finished named absent unclashed executions =>
    let mid : Database := db.putExecution id (row.superseded now)
    have other : newID ≠ id := by
      rintro rfl
      rw [lookup_insert, if_pos rfl] at absent
      cases absent
    refine ⟨fun j a held => ?_, fun runtime scope external j a held => ?_, tasks⟩
    · have superseded : row.Evolves (row.superseded now) :=
        ⟨rfl, rfl, rfl, rfl, fun _ held => ⟨held, rfl⟩, fun away => away, fun _ => nofun⟩
      have first : ∃ b, mid.executions.lookup j = some b ∧ a.Evolves b := by
        refine rows_insert rfl (fun before stored' => ?_) j a held
        cases stored.symm.trans stored'
        exact superseded
      obtain ⟨b, present, evolves⟩ := first
      have second : ∃ c, after.executions.lookup j = some c ∧ b.Evolves c :=
        @rows_insert mid after newID _ executions (fun before stored' => nomatch absent.symm.trans stored') j b present
      obtain ⟨c, found, evolves'⟩ := second
      exact ⟨c, found, evolves.trans evolves'⟩
    · by_cases same : j = id
      · -- the superseded attempt hands its reference to the new one
        subst same
        cases stored.symm.trans held.stored
        refine ⟨newID, row.next now (mid.nextAttempt row.taskID row.itemKey), ?_, rfl, held.runtime, held.runtimeScope,
          held.externalID⟩
        rw [executions, lookup_insert, if_pos rfl]
      · have away : j ≠ newID := by
          rintro rfl
          rw [lookup_insert, if_neg same] at absent
          cases absent.symm.trans held.stored
        refine ⟨j, a, ?_, held.live, held.runtime, held.runtimeScope, held.externalID⟩
        rw [executions, lookup_insert, if_neg away, lookup_insert, if_neg same]
        exact held.stored

end

end Evolves

/-- A superseded attempt has a later one. -/
def Topped (db : Database) : Prop :=
  ∀ i a, db.executions.lookup i = some a → a.supersededAt ≠ none →
    ∃ j b, OfItem db.executions a.taskID a.itemKey j b ∧ a.attempt < b.attempt

theorem Topped.step {command : Command} (topped : Topped db) (success : command.execute db now = .ok after) :
    Topped after := by
  have evolves := Evolves.step success
  have carried (i : String) (a : ExecutionRow) (stored : db.executions.lookup i = some a)
    (superseded : a.supersededAt ≠ none) :
      ∃ j b, OfItem after.executions a.taskID a.itemKey j b ∧ a.attempt < b.attempt := by
    obtain ⟨j, b, ofItem, later⟩ := topped i a stored superseded
    obtain ⟨c, present, evolved⟩ := evolves.rows j b ofItem.stored
    exact ⟨j, c, ⟨present, evolved.taskID.trans ofItem.taskID, evolved.itemKey.trans ofItem.itemKey⟩,
      evolved.attempt ▸ later⟩
  cases (wrote_of_execute success).executionMove with
  | kept executions => exact fun i a found => carried i a (executions ▸ found)
  | added id row asked live absent executions =>
    exact forall_insert executions (fun superseded => absurd live superseded) carried
  | rewrote id row next stored rewrites moves executions =>
    refine forall_insert executions (fun superseded => ?_) carried
    rw [rewrites.taskID, rewrites.itemKey, rewrites.attempt]
    exact carried id row stored (rewrites.supersededAt ▸ superseded)
  | retried id newID row next stored current finished named live numbered absent executions =>
    refine forall_insert executions (fun superseded => absurd live superseded) (forall_insert rfl (fun _ => ?_) carried)
    have ofItem : OfItem (db.putExecution id (row.superseded now)).executions row.taskID row.itemKey id
      (row.superseded now) :=
      ⟨AList.lookup_insert _, rfl, rfl⟩
    have stored' : after.executions.lookup newID = some next := by
      rw [executions, lookup_insert, if_pos rfl]
    exact ⟨newID, next, ⟨stored', named.1, named.2⟩, numbered ▸ lt_nextAttempt ofItem⟩

theorem Topped.empty : Topped {} := fun _ _ found => nomatch found

end RhinoQ.Model.TaskSchema
