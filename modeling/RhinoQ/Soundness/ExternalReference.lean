import RhinoQ.Proofs.Task.Service

/-! # One execution for each external reference

The unique index of the schema admits one execution for each runtime and external id. The memory store has no
such check, and its lookup answers with whichever execution the walk of the map meets first.
-/

namespace RhinoQ.Model

open FiniteMap TaskStore Execution

/-- Both executions bear one external reference. -/
def Execution.Record.SharesReference (a b : Record) : Prop :=
  a.reference.externalID ≠ "" ∧ a.runtime = b.runtime ∧ a.reference.externalID = b.reference.externalID

instance : DecidableRel Record.SharesReference := fun _ _ => inferInstanceAs (Decidable (_ ∧ _))

/-- Executions are stored under their names, and no two of them bear one reference. -/
structure Referenced (executions : FiniteMap ID Record) : Prop where
  named : ∀ id a, executions.lookup id = some a → a.id = id
  single : ∀ id id' a b, executions.lookup id = some a → executions.lookup id' = some b → a.SharesReference b → id = id'

section
variable {executions : FiniteMap ID Record}

theorem Referenced.insert (held : Referenced executions)
    (free : ∀ other ∈ values executions, other.id ≠ record.id → ¬other.SharesReference record) :
    Referenced (executions.insert record.id record) := by
  have apart {id : ID} {other : Record} (found : executions.lookup id = some other)
      (distinct : ¬id = record.id) : ¬other.SharesReference record :=
    free other (mem_values_iff.mpr ⟨id, found⟩) (held.named id other found ▸ distinct)
  constructor
  · exact forall_insert rfl rfl held.named
  · intro id id' a b found found' shares
    rw [lookup_insert] at found found'
    split at found <;> split at found'
    next same same' => exact same.trans same'.symm
    next distinct =>
      cases found
      exact (apart found' distinct ⟨shares.2.2 ▸ shares.1, shares.2.1.symm, shares.2.2.symm⟩).elim
    next distinct _ =>
      cases found'
      exact (apart found distinct shares).elim
    · exact held.single id id' a b found found' shares

/-- However the map is walked, the lookup finds the execution that bears the reference. -/
theorem Referenced.find_iff (held : Referenced executions) (all : walk.Perm (values executions))
    (proper : externalID ≠ "") (a : Record) : findExecutionByExternalReference walk runtime externalID = some a ↔
      a ∈ values executions ∧ a.runtime = runtime ∧ a.reference.externalID = externalID := by
  have found {b : Record} (first : findExecutionByExternalReference walk runtime externalID = some b) :
      b ∈ values executions ∧ b.runtime = runtime ∧ b.reference.externalID = externalID :=
    ⟨all.mem_iff.mp (List.mem_of_find?_eq_some first), by simpa using List.find?_some first⟩
  refine ⟨found, fun ⟨stored, bears⟩ => ?_⟩
  cases first : findExecutionByExternalReference walk runtime externalID with
  | none =>
    exact (List.find?_eq_none.mp first a (all.mem_iff.mpr stored) (decide_eq_true bears)).elim
  | some b =>
    obtain ⟨id, at_⟩ := mem_values_iff.mp stored
    obtain ⟨id', at_'⟩ := mem_values_iff.mp (found first).1
    obtain ⟨runtime', external'⟩ := (found first).2
    cases held.single id id' a b at_ at_' ⟨bears.2 ▸ proper, bears.1.trans runtime'.symm, bears.2.trans external'.symm⟩
    exact at_'.symm.trans at_

end

namespace TaskService

/-- The check that the unique index makes: no other execution bears the reference that is about to be stored. -/
def unclaimed (p : State) : Event → Bool
  | .advance t _ =>
    match p.thread t with
    | .running _ (.savingExecution next _) =>
      (values p.shared.store.executions).all fun other => other.id = next.id ∨ ¬other.SharesReference next
    | _ => true
  | _ => true

variable {codec : Task.Codec} {now : Time} {command : Command}

/-- A store call leaves the executions, adds an unbound one or stores the copy that its command holds. -/
theorem Advanced.executions (moved : Advanced codec s now command phase after) :
    after.1.store.executions = s.store.executions ∨ ∃ record,
      after.1.store.executions = s.store.executions.insert record.id record ∧
      (record.reference = {} ∨ ∃ expected, phase = .savingExecution record expected) := by
  cases moved with
  | created _ change | replaced _ change | attached _ _ change => exact .inl change.executions
  | retried _ _ change | added _ change => exact .inr ⟨_, change.executions, .inl change.unbound⟩
  | moved change => exact .inr ⟨_, change.executions, .inr ⟨_, rfl⟩⟩
  | waiting _ change => exact .inl (change.elim (·.executions) (·.2.2.executions))
  | settled _ change | expired _ change => exact .inl (change.elim (·.executions) (·.executions))
  | _ => exact .inl rfl

theorem referenced_step (moved : Stepped codec p e q) (fresh : unclaimed p e = true)
    (held : Referenced p.shared.store.executions) : Referenced q.shared.store.executions := by
  cases moved with
  | quiet => exact held
  | advanced running advanced =>
    rw [Pool.move_shared]
    obtain same | ⟨record, stored, unbound | ⟨expected, rfl⟩⟩ := advanced.executions
    · exact same ▸ held
    · rw [stored]
      refine held.insert fun other _ _ shares => shares.1 ?_
      rw [shares.2.2, unbound]
    · rw [stored]
      simp only [unclaimed, running, List.all_eq_true, decide_eq_true_eq] at fresh
      exact held.insert fun other member distinct => (fresh other member).resolve_left distinct

/-- Where the check of the index is met at every store call, a reference has one execution and finds it. -/
theorem external_reference_unique {p : State} (reached : (machine codec).Reaches (fun p e => unclaimed p e = true) p) :
    (∀ id id' a b, p.shared.store.executions.lookup id = some a → p.shared.store.executions.lookup id' = some b →
      a.SharesReference b → id = id') ∧
    ∀ runtime externalID, externalID ≠ "" → ∀ walk : List Record, walk.Perm (values p.shared.store.executions) →
      ∀ a, findExecutionByExternalReference walk runtime externalID = some a ↔
        a ∈ values p.shared.store.executions ∧ a.runtime = runtime ∧ a.reference.externalID = externalID := by
  have held : Referenced p.shared.store.executions := by
    refine reached.invariant (fun p => Referenced p.shared.store.executions) ⟨?_, ?_⟩
      fun _ _ _ fresh moved held => referenced_step (step_cases moved) fresh held
    · exact fun _ _ found => (by cases found)
    · exact fun _ _ _ _ found => (by cases found)
  exact ⟨held.single, fun _ _ proper _ all => held.find_iff all proper⟩

/-- Two executions of one task that are bound on one runtime to these external ids. -/
def bindingTwo (first second : String) : List Event :=
  let now : Time := 1
  [.start 0 (.create "t" "import" "o" 1), .advance 0 now,
    .start 1 (.createExecution "a" "t" "bullmq" {}), .advance 1 now, .advance 1 now,
    .start 2 (.createExecution "b" "t" "bullmq" {}), .advance 2 now, .advance 2 now,
    .start 3 (.bindExecution "a" { runtime := "bullmq", externalID := first }), .advance 3 now, .advance 3 now,
    .start 4 (.bindExecution "b" { runtime := "bullmq", externalID := second }), .advance 4 now, .advance 4 now]

theorem distinct_references_found : ∃ p, (machine plainCodec).Reaches (fun p e => unclaimed p e = true) p ∧
    (values p.shared.store.executions).map (·.reference.externalID) = ["8", "7"] ∧
    ∀ walk : List Record, walk.Perm (values p.shared.store.executions) →
      ∀ a, findExecutionByExternalReference walk "bullmq" "7" = some a ↔
        a ∈ values p.shared.store.executions ∧ a.runtime = "bullmq" ∧ a.reference.externalID = "7" :=
  Machine.exists_checked_and (fun _ _ passed => passed) (bindingTwo "7" "8") (by decide)
    fun _ reached _ => (external_reference_unique reached).2 "bullmq" "7" (by decide)

/-- The second execution is bound to the reference of the first, and the lookup depends on the walk. -/
theorem reference_bound_twice : ∃ p, (machine plainCodec).Reaches Machine.anyStep p ∧
    (∃ a, p.shared.store.executions.lookup "a" = some a ∧
      ∃ b, p.shared.store.executions.lookup "b" = some b ∧ a.SharesReference b) ∧
    findExecutionByExternalReference (values p.shared.store.executions) "bullmq" "7" ≠
      findExecutionByExternalReference (values p.shared.store.executions).reverse "bullmq" "7" :=
  Machine.exists_reached (bindingTwo "7" "7") (by decide)

end TaskService
end RhinoQ.Model
