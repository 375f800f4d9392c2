import Mathlib.Data.List.Dedup
import RhinoQ.Model.TaskSchema.Statement
import RhinoQ.Proofs.TaskSchema.Write

/-! # Statements on executions

The algebra of the counters, and what the trigger of a statement writes.
-/

namespace RhinoQ.Model.TaskSchema

open FiniteMap Database Counts

/-! ## Counters -/

namespace Counts

@[simp] theorem get_tally (rows : List ExecutionRow) (s : ExecutionState) :
    (tally rows).get s = rows.countP (·.state == s) := by
  cases s <;> rfl

@[simp] theorem total_tally (rows : List ExecutionRow) : (tally rows).total = rows.length := rfl

@[simp] theorem get_plus (a b : Counts) (s : ExecutionState) : (a.plus b).get s = a.get s + b.get s := by
  cases s <;> rfl

@[simp] theorem total_plus (a b : Counts) : (a.plus b).total = a.total + b.total := rfl

@[simp] theorem get_minus (a b : Counts) (s : ExecutionState) : (a.minus b).get s = a.get s - b.get s := by
  cases s <;> rfl

@[simp] theorem total_minus (a b : Counts) : (a.minus b).total = a.total - b.total := rfl

theorem tally_perm (perm : a.Perm b) : tally a = tally b := by
  apply ext_get
  · simp [perm.length_eq]
  · intro s
    simp [perm.countP_eq]

theorem tally_append (a b : List ExecutionRow) : tally (a ++ b) = (tally a).plus (tally b) := by
  apply ext_get
  · simp
  · intro s
    simp

theorem plus_comm (a b : Counts) : a.plus b = b.plus a := by
  apply ext_get
  · exact Int.add_comm ..
  · intro s
    simp only [get_plus]
    omega

theorem plus_minus (a b : Counts) : (a.plus b).minus a = b := by
  apply ext_get
  · simp only [total_minus, total_plus]
    omega
  · intro s
    simp only [get_minus, get_plus]
    omega

theorem tally_nil_plus (a : Counts) : (tally []).plus a = a := by
  apply ext_get
  · simp only [total_plus, total_tally, List.length_nil]
    omega
  · intro s
    simp only [get_plus, get_tally, List.countP_nil]
    omega

end Counts

/-- An `UPDATE` of rows: those that stay in their task change its tally by those that moved. -/
theorem tally_updated (pairs : List (ExecutionRow × ExecutionRow)) (taskID : String)
    (same : ∀ pair ∈ pairs, pair.1.taskID = pair.2.taskID) (rest : List ExecutionRow) :
    let group := (pairs.filter fun pair => pair.1.state != pair.2.state).filter (·.2.taskID == taskID)
    let before := tally (ofTask taskID (pairs.map Prod.fst ++ rest))
    { (before.plus (.tally (group.map Prod.snd))).minus (.tally (group.map Prod.fst)) with total := before.total } =
      tally (ofTask taskID (pairs.map Prod.snd ++ rest)) := by
  dsimp only
  apply ext_get
  · induction pairs with
    | nil => rfl
    | cons pair others ih =>
      have head := same pair (.head _)
      have tail := ih fun other member => same other (.tail _ member)
      simp only [ofTask, total_tally, List.map_cons, List.cons_append, List.filter_cons, head] at tail ⊢
      split
      · simpa using tail
      · exact tail
  · intro s
    induction pairs with
    | nil => simp
    | cons pair others ih =>
      have head := same pair (.head _)
      have tail := ih fun other member => same other (.tail _ member)
      simp only [ofTask, get_withTotal, get_minus, get_plus, get_tally, List.map_cons,
        List.cons_append, List.filter_cons, head] at tail ⊢
      by_cases own : (pair.2.taskID == taskID) = true
      · by_cases moved : (pair.1.state != pair.2.state) = true
        · simp only [own, moved, if_true, List.filter_cons, List.map_cons, List.countP_cons]
          push_cast
          omega
        · have still : pair.1.state = pair.2.state := by simpa using moved
          simp only [own, moved, if_true, List.countP_cons]
          rw [still]
          push_cast
          omega
      · by_cases moved : (pair.1.state != pair.2.state) = true
        · simp only [own, moved, if_true, List.filter_cons]
          exact tail
        · simp only [own, moved]
          exact tail

/-! ## The triggers -/

namespace Database

theorem lookup_foldl_updateTask (change : String → TaskRow → TaskRow) {ids : List String} (distinct : ids.Nodup)
    (db : Database)
    (k : String) : (ids.foldl (fun db id => db.updateTask id (change id)) db).tasks.lookup k =
      if k ∈ ids then (db.tasks.lookup k).map (change k) else db.tasks.lookup k := by
  induction ids generalizing db with
  | nil => rw [if_neg List.not_mem_nil]; rfl
  | cons id rest ih =>
    rw [List.nodup_cons] at distinct
    rw [List.foldl_cons, ih distinct.2, lookup_updateTask]
    by_cases same : k = id
    · subst same
      rw [if_neg distinct.1, if_pos rfl, if_pos (.head _)]
    · rw [if_neg same]
      simp only [List.mem_cons, same, false_or]

theorem executions_foldl_updateTask (change : String → TaskRow → TaskRow) (ids : List String) (db : Database) :
    (ids.foldl (fun db id => db.updateTask id (change id)) db).executions = db.executions := by
  induction ids generalizing db with
  | nil => rfl
  | cons id rest ih => exact (ih _).trans (updateTask_frame db id (change id)).executions

variable {db : Database} {now : Timestamp} {groups : List String} {change : String → Counts → Counts}

theorem lookup_countGroups (k : String) : (db.countGroups now groups change).tasks.lookup k =
      if k ∈ groups then
        (db.tasks.lookup k).map fun task => { task with
          counts := change k task.counts, version := task.version + 1, updatedAt := now }
      else db.tasks.lookup k := by
  refine (lookup_foldl_updateTask _ (List.nodup_dedup groups) db k).trans ?_
  simp only [List.mem_dedup]

theorem executions_countGroups : (db.countGroups now groups change).executions = db.executions :=
  executions_foldl_updateTask _ _ db

end Database

section
variable {db stored : Database} {now : Timestamp}

/-- What a statement leaves of the table. -/
structure Replaces (db : Database) (gone : List String) (new : List Tuple) (stored : Database) : Prop where
  tasks : stored.tasks = db.tasks
  distinct : gone.Nodup
  present : ∀ id ∈ gone, (db.executions.lookup id).isSome
  lookup : ∀ id row, stored.executions.lookup id = some row ↔
    (id, row) ∈ new ∨ id ∉ new.map Prod.fst ∧ id ∉ gone ∧ db.executions.lookup id = some row
  fresh : ∀ tuple ∈ new, tuple.1 ∉ gone → db.executions.lookup tuple.1 = none
  rows : ∃ rest, (values db.executions).Perm (gone.filterMap db.executions.lookup ++ rest) ∧
    (values stored.executions).Perm (new.map Prod.snd ++ rest)

theorem replaceRows_eq_ok (success : db.replaceRows gone new = .ok stored) :
    Replaces db gone new stored := by
  unfold replaceRows at success
  rw [refuse_bind_eq_ok] at success
  obtain ⟨named, success⟩ := success
  rw [refuse_bind_eq_ok] at success
  obtain ⟨free, success⟩ := success
  rw [refuse_bind_eq_ok] at success
  obtain ⟨_, success⟩ := success
  rw [refuse_bind_eq_ok] at success
  obtain ⟨_, success⟩ := success
  cases success
  simp only [Bool.or_eq_false_iff, Bool.not_eq_false', decide_eq_true_eq, List.any_eq_false, Bool.not_eq_true,
    Option.isSome_eq_false_iff, Option.isNone_iff_eq_none] at named free
  have present (id : String) (member : id ∈ gone) : (db.executions.lookup id).isSome :=
    Option.isSome_iff_ne_none.mpr (named.2 id member)
  refine ⟨rfl, named.1, present, ?_, ?_, ?_⟩
  · intro id row
    rw [lookup_insertAll free.1, lookup_eraseAll]
    by_cases erased : id ∈ gone <;> simp [erased]
  · intro tuple member kept
    have absent := free.2 tuple member
    rwa [lookup_eraseAll, if_neg kept] at absent
  · exact ⟨_, values_eraseAll named.1 present, values_insertAll free.1 free.2⟩

end

end RhinoQ.Model.TaskSchema
