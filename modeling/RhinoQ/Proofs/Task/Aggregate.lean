import RhinoQ.Proofs.Task.Versions
import Mathlib.Algebra.Order.Ring.Int

/-! # The counters and attempts of a task

The executions of a task are those that name it. Its counters tally them by state, and their attempts are
numbered from one without gaps.
-/

namespace RhinoQ.Model

open FiniteMap Execution Task.ExecutionCounts

variable {parent : Task.Record}

/-- The counter of one state. -/
def Task.ExecutionCounts.ofState (counts : Task.ExecutionCounts) : Execution.State → ℤ
  | .pendingDispatch => counts.pendingDispatch
  | .dispatched => counts.dispatched
  | .running => counts.running
  | .succeeded => counts.succeeded
  | .failed => counts.failed
  | .stalled => counts.stalled
  | .cancelled => counts.cancelled
  | .other _ => 0

namespace Execution

/-- The counters tally the executions: one counter for each state, and the total. -/
structure Tallied (counts : Task.ExecutionCounts) (records : List Record) : Prop where
  byState : ∀ state : State, state.valid → counts.ofState state = records.countP (·.state == state)
  total : counts.total = records.length

theorem ofState_adjust (counts : Task.ExecutionCounts) (moved : State) (delta : ℤ) (valid : state.valid = true) :
    (counts.adjust moved delta).ofState state = counts.ofState state + if moved = state then delta else 0 := by
  cases state with
  | other => cases valid
  | _ => cases moved <;> simp [adjust, ofState]

theorem total_adjust (counts : Task.ExecutionCounts) (moved : State) (delta : ℤ) :
    (counts.adjust moved delta).total = counts.total := by
  cases moved <;> rfl

theorem Tallied.nil : Tallied {} [] := by
  constructor
  · intro state _
    cases state <;> rfl
  · rfl

section
variable {counts : Task.ExecutionCounts} {records rest : List Record} {record : Record}

theorem Tallied.perm (tallied : Tallied counts records) (same : records.Perm rest) : Tallied counts rest := by
  constructor
  · intro state valid
    rw [tallied.byState state valid, same.countP_eq]
  · rw [tallied.total, same.length_eq]

theorem Tallied.add (tallied : Tallied parent.executionCounts records)
    (pending : record.state = .pendingDispatch) : Tallied parent.addExecution.executionCounts (record :: records) := by
  constructor
  · intro state valid
    have before := tallied.byState state valid
    rw [List.countP_cons, pending, Nat.cast_add, ← before]
    cases state <;> simp [Task.Record.addExecution, ofState]
  · have before := tallied.total
    change parent.executionCounts.total + 1 = _
    rw [before, List.length_cons, Nat.cast_succ]

theorem Tallied.move (tallied : Tallied parent.executionCounts (current :: rest)) :
    Tallied (parent.moveExecution current.state record.state).executionCounts (record :: rest) := by
  unfold Task.Record.moveExecution
  split
  · constructor
    · intro state valid
      have before := tallied.byState state valid
      rw [List.countP_cons, Nat.cast_add] at before
      rw [ofState_adjust _ _ _ valid, ofState_adjust _ _ _ valid, before, List.countP_cons, Nat.cast_add]
      simp only [beq_iff_eq]
      split <;> split <;> push_cast <;> omega
    · rw [total_adjust, total_adjust]
      exact tallied.total
  next same =>
    rw [not_not] at same
    constructor
    · intro state valid
      have before := tallied.byState state valid
      rwa [List.countP_cons, same, ← List.countP_cons] at before
    · exact tallied.total

end

/-- The executions of a task. -/
def ofTask (records : FiniteMap ID Record) (taskID : String) : List Record :=
  (values records).filter (·.taskID == taskID)

section
variable {records : FiniteMap ID Record} {record current : Record} {taskID : String}

theorem ofTask_insert_self (fresh : records.lookup record.id = none) :
    ofTask (records.insert record.id record) record.taskID = record :: ofTask records record.taskID := by
  rw [ofTask, values_insert_of_none record fresh, List.filter_cons, if_pos (beq_self_eq_true _)]
  rfl

theorem ofTask_insert_other (fresh : records.lookup record.id = none) (other : taskID ≠ record.taskID) :
    ofTask (records.insert record.id record) taskID = ofTask records taskID := by
  have skipped : ¬(record.taskID == taskID) = true := fun same => other (beq_iff_eq.mp same).symm
  rw [ofTask, values_insert_of_none record fresh, List.filter_cons, if_neg skipped]
  rfl

section
variable (found : records.lookup record.id = some current) (owner : current.taskID = record.taskID)
include found owner

theorem ofTask_overwrite_self : ∃ rest, (ofTask records record.taskID).Perm (current :: rest) ∧
      ofTask (records.insert record.id record) record.taskID = record :: rest := by
  obtain ⟨rest, before, after⟩ := values_insert_of_some record found
  refine ⟨rest.filter (·.taskID == record.taskID), ?_, ?_⟩
  · have kept := before.filter (·.taskID == record.taskID)
    rwa [List.filter_cons, if_pos (beq_iff_eq.mpr owner)] at kept
  · rw [ofTask, after, List.filter_cons, if_pos (beq_self_eq_true _)]

theorem ofTask_overwrite_other (other : taskID ≠ record.taskID) :
    (ofTask (records.insert record.id record) taskID).Perm (ofTask records taskID) := by
  obtain ⟨rest, before, after⟩ := values_insert_of_some record found
  have kept := before.filter (·.taskID == taskID)
  rw [List.filter_cons, if_neg fun same => other (owner ▸ beq_iff_eq.mp same).symm] at kept
  rw [ofTask, after, List.filter_cons, if_neg fun same => other (beq_iff_eq.mp same).symm]
  exact kept.symm

end

end
end Execution

namespace TaskStore

variable {record : Record}

/-- The search for the next attempt ends above every number it saw, and no further than needed. -/
theorem foldl_next (numbers : List ℕ) (first : ℕ) :
    let next := numbers.foldl (fun attempt number => if number ≥ attempt then number + 1 else attempt) first
    (∀ number ∈ numbers, number < next) ∧ first ≤ next ∧ (next = first ∨ ∃ number ∈ numbers, next = number + 1) := by
  induction numbers generalizing first with
  | nil => simp
  | cons head tail ih =>
    obtain ⟨above, least, reached⟩ := ih (if head ≥ first then head + 1 else first)
    simp only [List.foldl_cons, List.mem_cons, forall_eq_or_imp, exists_eq_or_imp]
    split at least <;> rename_i order
    · rw [if_pos order] at above reached ⊢
      exact ⟨⟨by omega, above⟩, by omega, .inr (reached.imp_left fun same => same)⟩
    · rw [if_neg order] at above reached ⊢
      exact ⟨⟨by omega, above⟩, least, reached.imp_right .inr⟩

theorem nextAttempt_eq {byAttempt : FiniteMap ℕ ID} {count : ℕ}
    (numbered : byAttempt.keys.Perm (List.range' 1 count)) : nextAttempt byAttempt = count + 1 := by
  obtain ⟨above, least, reached⟩ := foldl_next byAttempt.keys 1
  change ∀ number ∈ byAttempt.keys, number < nextAttempt byAttempt at above
  change 1 ≤ nextAttempt byAttempt at least
  change nextAttempt byAttempt = 1 ∨ ∃ number ∈ byAttempt.keys, nextAttempt byAttempt = number + 1 at reached
  have bounds (number : ℕ) : number ∈ byAttempt.keys ↔ 1 ≤ number ∧ number < 1 + count := by
    rw [numbered.mem_iff, List.mem_range'_1]
  have upper : nextAttempt byAttempt ≤ count + 1 := by
    obtain first | ⟨number, member, next⟩ := reached
    · omega
    · have := (bounds number).mp member
      omega
  by_cases empty : count = 0
  · omega
  · have := above count ((bounds count).mpr (by omega))
    omega

/-- What the store keeps about tasks and their executions. -/
structure Aggregate (s : TaskStore) : Prop where
  owned : ∀ id record, s.executions.lookup id = some record → (s.tasks.lookup record.taskID).isSome
  tallied : ∀ id record, s.tasks.lookup id = some record →
    Tallied record.executionCounts (ofTask s.executions id)
  numbered : ∀ id, ((ofTask s.executions id).map (·.attempt)).Perm
    (List.range' 1 (ofTask s.executions id).length)
  attempts : ∀ id, (s.byAttempt id).keys.Perm ((ofTask s.executions id).map (·.attempt))

theorem Aggregate.empty : Aggregate {} where
  owned id record found := by cases found
  tallied id record found := by cases found
  numbered id := .nil
  attempts id := .nil

section
variable {s t : TaskStore}
variable {after next : Task.Record} {current : Record} {taskID : Task.ID}

section
variable (agg : Aggregate s) {id : Task.ID}
include agg

theorem Aggregate.ofTask_eq_nil (absent : s.tasks.lookup id = none) : ofTask s.executions id = [] := by
  rw [List.eq_nil_iff_forall_not_mem]
  intro record member
  rw [ofTask, List.mem_filter, mem_values_iff, beq_iff_eq] at member
  obtain ⟨⟨key, found⟩, rfl⟩ := member
  have stored := agg.owned key record found
  rw [absent] at stored
  cases stored

theorem Aggregate.write (tasks : t.tasks = s.tasks.insert id after) (executions : t.executions = s.executions)
    (attempts : t.attempts = s.attempts)
    (tallied : Tallied after.executionCounts (ofTask s.executions id)) : Aggregate t where
  owned key record found := by
    rw [executions] at found
    rw [tasks]
    exact isSome_lookup_insert after (.inr (agg.owned key record found))
  tallied := by
    rw [executions]
    exact forall_insert tasks tallied agg.tallied
  numbered key := by
    rw [executions]
    exact agg.numbered key
  attempts key := by
    rw [executions, byAttempt, attempts]
    exact agg.attempts key

theorem Aggregate.created {record : Task.Record} (change : Created s t record)
    (counts : record.executionCounts = {}) : Aggregate t := by
  apply agg.write change.tasks change.executions change.attempts
  rw [counts, agg.ofTask_eq_nil change.fresh]
  exact .nil

theorem Aggregate.replaced {current : Task.Record} (change : Replaced s t current next)
    (counts : next.executionCounts = current.executionCounts) : Aggregate t := by
  apply agg.write change.tasks change.executions change.attempts
  rw [counts]
  exact agg.tallied next.id current change.found

theorem Aggregate.kept (change : Kept s t) : Aggregate t where
  owned := by
    rw [change.executions, change.tasks]
    exact agg.owned
  tallied := by
    rw [change.executions, change.tasks]
    exact agg.tallied
  numbered := by
    rw [change.executions]
    exact agg.numbered
  attempts id := by
    rw [change.executions, byAttempt, change.attempts]
    exact agg.attempts id

theorem Aggregate.owned_insert
    (tasks : t.tasks = s.tasks.insert record.taskID after) (executions : t.executions = s.executions.insert record.id record)
    (key : ID) (stored : Record) (found : t.executions.lookup key = some stored) :
    (t.tasks.lookup stored.taskID).isSome := by
  rw [tasks]
  obtain ⟨_, rfl⟩ | ⟨_, found⟩ := lookup_insert_cases executions found
  · exact isSome_lookup_insert after (.inl rfl)
  · exact isSome_lookup_insert after (.inr (agg.owned key stored found))

theorem Aggregate.added
    (change : Added s t taskID parent after record) (trimmed : Text.trimSpace taskID = taskID) : Aggregate t := by
  obtain rfl : record.taskID = taskID := change.owner.trans trimmed
  have attempt : record.attempt = (ofTask s.executions record.taskID).length + 1 := by
    rw [change.attempt]
    exact nextAttempt_eq ((agg.attempts record.taskID).trans (agg.numbered record.taskID))
  have free : (s.byAttempt record.taskID).lookup record.attempt = none := by
    apply AList.lookup_eq_none.mpr
    intro used
    have listed := ((agg.attempts record.taskID).trans (agg.numbered record.taskID)).mem_iff.mp used
    rw [List.mem_range'_1] at listed
    omega
  constructor
  · exact agg.owned_insert change.tasks change.executions
  · intro key stored found
    rw [change.executions]
    obtain ⟨rfl, rfl⟩ | ⟨other, found⟩ := lookup_insert_cases change.tasks found
    · rw [ofTask_insert_self change.fresh, change.counts]
      exact (agg.tallied _ _ change.found).add change.state
    · rw [ofTask_insert_other change.fresh other]
      exact agg.tallied key stored found
  · intro key
    rw [change.executions]
    by_cases same : key = record.taskID
    · rw [same, ofTask_insert_self change.fresh, List.map_cons, List.length_cons, List.range'_concat, attempt]
      have before := (agg.numbered record.taskID).cons ((ofTask s.executions record.taskID).length + 1)
      rw [Nat.one_mul, Nat.add_comm 1]
      exact before.trans (List.perm_append_singleton _ _).symm
    · rw [ofTask_insert_other change.fresh same]
      exact agg.numbered key
  · intro key
    rw [change.executions, byAttempt, change.attempts, lookup_insert]
    split
    next same =>
      rw [same, ofTask_insert_self change.fresh, Option.getD_some, List.map_cons, keys_insert_of_none record.id free]
      exact (agg.attempts record.taskID).cons record.attempt
    next other =>
      rw [ofTask_insert_other change.fresh other]
      exact agg.attempts key

theorem Aggregate.moved (change : Moved s t current record parent after) : Aggregate t := by
  obtain ⟨rest, before, overwritten⟩ := ofTask_overwrite_self change.stored change.owner
  -- the attempts of every task are the same list up to its order
  have attempts (key : Task.ID) : ((ofTask t.executions key).map (·.attempt)).Perm
      ((ofTask s.executions key).map (·.attempt)) := by
    rw [change.executions]
    by_cases same : key = record.taskID
    · rw [same, overwritten, List.map_cons, ← change.attempt]
      exact (before.map (·.attempt)).symm
    · exact (ofTask_overwrite_other change.stored change.owner same).map _
  have length (key : Task.ID) : (ofTask t.executions key).length = (ofTask s.executions key).length := by
    have same := (attempts key).length_eq
    rwa [List.length_map, List.length_map] at same
  constructor
  · exact agg.owned_insert change.tasks change.executions
  · intro key stored found
    rw [change.executions]
    obtain ⟨rfl, rfl⟩ | ⟨other, found⟩ := lookup_insert_cases change.tasks found
    · rw [overwritten, change.counts]
      exact ((agg.tallied _ _ change.found).perm before).move
    · exact (agg.tallied key stored found).perm (ofTask_overwrite_other change.stored change.owner other).symm
  · intro key
    rw [length key]
    exact (attempts key).trans (agg.numbered key)
  · intro key
    rw [byAttempt, change.attempts]
    exact (agg.attempts key).trans (attempts key).symm

theorem Aggregate.waited (sound : Sound s) {record : Waitpoint.Record} (placed : Placed s record)
    (change : Waited s t record) : Aggregate t := by
  obtain ⟨parent, found, wrote⟩ := change.wrote sound placed
  exact agg.write wrote.tasks change.executions change.attempts (agg.tallied record.taskID parent found)

end

/-- The executions and waitpoints of a task are the same. -/
structure SameRelated (s t : TaskStore) (id : Task.ID) : Prop where
  executions : ∀ key record, record.taskID = id →
    (t.executions.lookup key = some record ↔ s.executions.lookup key = some record)
  waitpoints : ∀ key record, record.taskID = id →
    (t.waitpoints.lookup key = some record ↔ s.waitpoints.lookup key = some record)

/-- From `s` to `t` the version of a task rises, or nothing of the task changes. -/
def Fenced (s t : TaskStore) (id : Task.ID) : Prop :=
  ∀ before, s.tasks.lookup id = some before → ∃ after, t.tasks.lookup id = some after ∧
    (before.version < after.version ∨ after = before ∧ SameRelated s t id)

theorem SameRelated.of_eq (executions : t.executions = s.executions) (waitpoints : t.waitpoints = s.waitpoints)
    (id : Task.ID) : SameRelated s t id where
  executions key record _ := by rw [executions]
  waitpoints key record _ := by rw [waitpoints]

theorem Kept.fenced (change : Kept s t) (id : Task.ID) : Fenced s t id := by
  intro before found
  refine ⟨before, ?_, .inr ⟨rfl, .of_eq change.executions change.waitpoints id⟩⟩
  rw [change.tasks]
  exact found

/-- A write of one task fences every task, when it leaves what names another task. -/
theorem Wrote.fenced (wrote : Wrote s t key next)
    (others : ∀ id, id ≠ key → SameRelated s t id) (id : Task.ID) : Fenced s t id := by
  intro before found
  obtain ⟨after, stored, newer | ⟨same, other⟩⟩ := wrote.newer_or_same found
  · exact ⟨after, stored, .inl newer⟩
  · exact ⟨after, stored, .inr ⟨same, others id other⟩⟩

theorem Created.fenced {record : Task.Record} (change : Created s t record) (id : Task.ID) : Fenced s t id :=
  change.wrote.fenced (fun other _ => .of_eq change.executions change.waitpoints other) id

theorem Replaced.fenced {current : Task.Record} (change : Replaced s t current next) (id : Task.ID) : Fenced s t id :=
  change.wrote.fenced (fun other _ => .of_eq change.executions change.waitpoints other) id

theorem Added.fenced (sound : Sound s)
    (change : Added s t taskID parent after record) (trimmed : Text.trimSpace taskID = taskID) (id : Task.ID) :
    Fenced s t id := by
  refine (change.wrote sound).fenced (fun other distinct => ⟨?_, ?_⟩) id
  · intro key stored owner
    rw [change.executions]
    apply lookup_insert_of_owner Record.taskID (change.owner.trans trimmed)
    · intro old found
      rw [change.fresh] at found
      cases found
    · exact owner ▸ distinct
  · intro key stored _
    rw [change.waitpoints]

theorem Moved.fenced (sound : Sound s) (change : Moved s t current record parent after) (id : Task.ID) : Fenced s t id := by
  refine (change.wrote sound).fenced (fun other distinct => ⟨?_, ?_⟩) id
  · intro key stored owner
    rw [change.executions]
    apply lookup_insert_of_owner Record.taskID rfl
    · intro old found
      cases change.stored.symm.trans found
      exact change.owner
    · exact owner ▸ distinct
  · intro key stored _
    rw [change.waitpoints]

theorem Waited.fenced (sound : Sound s) {record : Waitpoint.Record} (placed : Placed s record)
    (change : Waited s t record) (id : Task.ID) : Fenced s t id := by
  obtain ⟨parent, _, wrote⟩ := change.wrote sound placed
  refine wrote.fenced (fun other distinct => ⟨?_, ?_⟩) id
  · intro key stored _
    rw [change.executions]
  · intro key stored owner
    rw [change.waitpoints]
    exact lookup_insert_of_owner Waitpoint.Record.taskID rfl placed.owner key (owner ▸ distinct)

end
end TaskStore
end RhinoQ.Model
