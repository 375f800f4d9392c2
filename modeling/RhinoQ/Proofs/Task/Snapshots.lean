import RhinoQ.Proofs.Task.Service

/-! # Tasks and the executions listed with them

A snapshot is the mapping of a task record and a list of its executions. Across the writes of the store the
version of a task never falls, and while it stays the record and the list stay. Lists that hold an execution
of another task are refused by the mapping and left out.
-/

namespace RhinoQ.Model

open TaskContract FiniteMap

theorem TaskContract.newSnapshot_eq_ok (success : newSnapshot record attempts = .ok snapshot) :
    snapshot.id = record.id ∧ snapshot.entityVersion = record.version ∧ ∀ e ∈ attempts, e.taskID = record.id := by
  unfold newSnapshot at success
  split at success
  · cases success
  split at success
  · cases success
  rename_i mapped
  split at success
  · cases success
  cases success
  refine ⟨rfl, rfl, fun e member => ?_⟩
  simp only [Bool.not_eq_true', Bool.not_eq_false, List.all_eq_true] at mapped
  have accepted := mapped e member
  simp only [mappable, Bool.and_eq_true, beq_iff_eq] at accepted
  exact accepted.1.1.1.1

namespace TaskStore

/-- The executions listed for a task all name it. -/
def Clean (s : TaskStore) (id : Task.ID) : Prop := ∀ e ∈ s.listTaskExecutions id, e.taskID = id

/-- Two stores list the same executions for a task, unless they name another task. -/
def SameList (s t : TaskStore) (id : Task.ID) : Prop :=
  Clean s id ∨ Clean t id → t.listTaskExecutions id = s.listTaskExecutions id

/-- `t` follows `s`: versions do not fall, and a version stands for one record and one list. -/
def Follows (s t : TaskStore) : Prop :=
  ∀ id before, s.tasks.lookup id = some before → ∃ after, t.tasks.lookup id = some after ∧
    (before.version < after.version ∨ after = before ∧ SameList s t id)

section
variable {s t u : TaskStore} {id : Task.ID}
variable {after parent : Task.Record} {record : Execution.Record}

theorem clean_of_list (same : t.listTaskExecutions id = s.listTaskExecutions id) : Clean s id ↔ Clean t id := by
  rw [Clean, Clean, same]

theorem SameList.refl (s : TaskStore) (id : Task.ID) : SameList s s id := fun _ => rfl

theorem SameList.trans (first : SameList s t id) (second : SameList t u id) : SameList s u id := by
  rintro (clean | clean)
  · have lists := first (.inl clean)
    exact (second (.inl ((clean_of_list lists).mp clean))).trans lists
  · have lists := second (.inr clean)
    exact lists.trans (first (.inr ((clean_of_list lists).mpr clean)))

theorem Follows.refl (s : TaskStore) : Follows s s :=
  fun id before found => ⟨before, found, .inr ⟨rfl, .refl s id⟩⟩

theorem Follows.trans (s t u : TaskStore) (first : Follows s t) (second : Follows t u) : Follows s u := by
  intro id before found
  obtain ⟨middle, stored, early⟩ := first id before found
  obtain ⟨after, present, late⟩ := second id middle stored
  refine ⟨after, present, ?_⟩
  obtain newer | ⟨rfl, left⟩ := early
  · obtain newest | ⟨rfl, _⟩ := late
    · exact .inl (newer.trans newest)
    · exact .inl newer
  · exact late.imp_right fun ⟨same, right⟩ => ⟨same, left.trans right⟩

/-- Stores that hold a task at one version hold one record of it, and one list. -/
theorem Follows.same_of_version (follows : Follows s t) (found : s.tasks.lookup id = some before)
    (stored : t.tasks.lookup id = some after) (version : before.version = after.version) :
    after = before ∧ SameList s t id := by
  obtain ⟨next, present, newer | same⟩ := follows id before found
  · cases stored.symm.trans present
    exact absurd version newer.ne
  · cases stored.symm.trans present
    exact same

theorem mem_listTaskExecutions : e ∈ s.listTaskExecutions id ↔
      ∃ key ∈ values (s.byAttempt id), (s.executions.lookup key).getD {} = e := by
  rw [listTaskExecutions, List.mem_insertionSort, List.mem_map]

theorem listTaskExecutions_congr (attempts : t.byAttempt id = s.byAttempt id)
    (executions : ∀ key ∈ values (s.byAttempt id), t.executions.lookup key = s.executions.lookup key) :
    t.listTaskExecutions id = s.listTaskExecutions id := by
  rw [listTaskExecutions, listTaskExecutions, attempts]
  congr 1
  apply List.map_congr_left
  intro key member
  rw [executions key member]

theorem sameList_of_eq (executions : t.executions = s.executions) (attempts : t.attempts = s.attempts) (id : Task.ID) :
    SameList s t id := by
  intro _
  apply listTaskExecutions_congr
  · rw [byAttempt, byAttempt, attempts]
  · intro key _
    rw [executions]

theorem Added.sameList (sound : Sound s)
    (change : Added s t taskID parent after record) (other : id ≠ taskID) : SameList s t id := by
  intro _
  apply listTaskExecutions_congr
  · rw [byAttempt, byAttempt, change.attempts, lookup_insert, if_neg other]
  · intro key member
    have distinct : key ≠ record.id := by
      intro same
      have stored := sound.filed id key member
      rw [same, change.fresh] at stored
      cases stored
    rw [change.executions, lookup_insert, if_neg distinct]

/-- An execution of another task that stands in the list keeps it from being mapped, before and after. -/
theorem Moved.sameList (change : Moved s t current record parent after) (other : id ≠ record.taskID) : SameList s t id := by
  intro clean
  have attempts : t.byAttempt id = s.byAttempt id := by rw [byAttempt, byAttempt, change.attempts]
  apply listTaskExecutions_congr attempts
  intro key member
  have distinct : key ≠ record.id := by
    rintro rfl
    obtain clean | clean := clean
    · have listed : current ∈ s.listTaskExecutions id := by
        refine mem_listTaskExecutions.mpr ⟨record.id, member, ?_⟩
        rw [change.stored]
        rfl
      exact other ((clean current listed).symm.trans change.owner)
    · have listed : record ∈ t.listTaskExecutions id := by
        refine mem_listTaskExecutions.mpr ⟨record.id, attempts ▸ member, ?_⟩
        rw [change.executions, lookup_insert, if_pos rfl]
        rfl
      exact other (clean record listed).symm
  rw [change.executions, lookup_insert, if_neg distinct]

theorem Wrote.follows (wrote : Wrote s t key next) (others : ∀ id, id ≠ key → SameList s t id) : Follows s t := by
  intro id before found
  obtain ⟨after, stored, newer | ⟨same, other⟩⟩ := wrote.newer_or_same found
  · exact ⟨after, stored, .inl newer⟩
  · exact ⟨after, stored, .inr ⟨same, others id other⟩⟩

theorem Change.follows (sound : Sound s) (change : Change s t) : Follows s t := by
  cases change with
  | kept change =>
    intro id before found
    refine ⟨before, ?_, .inr ⟨rfl, sameList_of_eq change.executions change.attempts id⟩⟩
    rw [change.tasks]
    exact found
  | created change => exact change.wrote.follows fun id _ => sameList_of_eq change.executions change.attempts id
  | replaced change => exact change.wrote.follows fun id _ => sameList_of_eq change.executions change.attempts id
  | added change => exact (change.wrote sound).follows fun _ other => change.sameList sound other
  | moved change => exact (change.wrote sound).follows fun _ other => change.sameList other
  | waited placed change =>
    obtain ⟨parent, _, wrote⟩ := change.wrote sound placed
    exact wrote.follows fun id _ => sameList_of_eq change.executions change.attempts id

theorem Created.list_eq_nil (sound : Sound s) {record : Task.Record} (change : Created s t record) :
    t.listTaskExecutions record.id = [] := by
  have none : s.attempts.lookup record.id = none := by
    by_contra some
    have present := sound.attempted record.id (Option.isSome_iff_ne_none.mpr some)
    rw [change.fresh] at present
    cases present
  rw [listTaskExecutions, byAttempt, change.attempts, none]
  rfl

end
end TaskStore
end RhinoQ.Model
