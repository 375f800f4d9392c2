import RhinoQ.Proofs.TaskSchema.Write

/-! # What the version of a task tells

A change of the attempts of a task moves its version, or is the claim of an effect. Whoever holds a version
therefore knows which attempts stand where, as long as the task has it.
-/

namespace RhinoQ.Model.TaskSchema

open FiniteMap Database

variable {command : Command} {t id : String} {after db c b a : Database} {row : ExecutionRow} {now : Timestamp}

/-- The two tables hold the same attempts of a task. -/
def SameAttempts (t : String) (executions executions' : FiniteMap String ExecutionRow) : Prop :=
  ∀ id row, row.taskID = t → (executions'.lookup id = some row ↔ executions.lookup id = some row)

theorem SameAttempts.trans {a b c : FiniteMap String ExecutionRow} (first : SameAttempts t a b)
    (second : SameAttempts t b c) : SameAttempts t a c :=
  fun id row belongs => (second id row belongs).trans (first id row belongs)

theorem SameAttempts.insert {executions : FiniteMap String ExecutionRow} (other : t ≠ row.taskID)
    (old : ∀ before, executions.lookup id = some before → before.taskID = row.taskID) :
    SameAttempts t executions (executions.insert id row) :=
  fun j _ belongs => lookup_insert_of_owner ExecutionRow.taskID rfl old j (belongs ▸ other)

/-- A task that has a row keeps it and its attempts, or has a higher version. -/
def Told (t : String) (db after : Database) : Prop :=
  ∀ row, db.tasks.lookup t = some row → ∃ next, after.tasks.lookup t = some next ∧
    (row.version < next.version ∨ next = row ∧ SameAttempts t db.executions after.executions)

theorem told_of_advanced (advanced : Advanced db after)
    (attempts : Bumped db after t ∨ SameAttempts t db.executions after.executions) : Told t db after := by
  intro row stored
  rcases attempts with bumped | same
  · obtain ⟨next, present, less⟩ := bumped row stored
    exact ⟨next, present, .inl less⟩
  · rcases advanced t with kept | ⟨_, next, found, present, less⟩
    · exact ⟨row, kept.trans stored, .inr ⟨rfl, same⟩⟩
    · cases stored.symm.trans found
      exact ⟨next, present, .inl less⟩

theorem told_of_kept (advanced : Advanced db after) (executions : after.executions = db.executions) : Told t db after :=
  told_of_advanced advanced (.inr fun _ _ _ => by rw [executions])

theorem told_of_touches (touches : Touches db after taskID)
    (others : t ≠ taskID → SameAttempts t db.executions after.executions) : Told t db after := by
  refine told_of_advanced touches.advanced ?_
  by_cases this : t = taskID
  · exact .inl (this ▸ touches.bumped)
  · exact .inr (others this)

theorem told_of_rewrites {next : ExecutionRow} (touches : Touches db after row.taskID)
    (stored : db.executions.lookup id = some row)
    (executions : after.executions = db.executions.insert id next) (owner : next.taskID = row.taskID) : Told t db after := by
  refine told_of_touches touches fun other => executions ▸ .insert (owner ▸ other) fun before stored' => ?_
  cases stored.symm.trans stored'
  exact owner.symm

/-- A change tells, or is one of the two that leave the version of the task. -/
theorem Wrote.told_or_silent (wrote : Wrote db now after command) (t : String) :
    Told t db after ∨ Silent db now command after := by
  cases wrote with
  | kept executions beside =>
    refine beside.imp_left fun aside => ?_
    cases aside with
    | same unchanged => exact unchanged ▸ told_of_kept (.refl _) rfl
    | created id row absent written =>
      subst written
      intro old stored
      exact ⟨old, lookup_insert_of_absent absent stored, .inr ⟨rfl, fun _ _ _ => Iff.rfl⟩⟩
    | wrote id row next stored version written =>
      subst written
      exact told_of_kept (writeTask_advanced stored version) rfl
    | waited executions steps attempts advanced => exact told_of_kept advanced executions
    | stepped stepped => exact told_of_kept stepped.advanced stepped.executions
  | created request task valid owner absent unclashed executions touches =>
    refine .inl (told_of_touches touches fun other => executions ▸ .insert other fun before stored => ?_)
    cases absent.symm.trans stored
  | bound row stored current pending runtime same told unclashed executions touches =>
    exact .inl (told_of_rewrites touches stored executions rfl)
  | moved row reason asked stored differs allowed executions touches =>
    exact .inl (told_of_rewrites touches stored executions rfl)
  | annotated id row next stored annotates executions touches =>
    exact touches.imp_left fun touches => told_of_rewrites touches stored executions annotates.rewrites.taskID
  | @retried _ id _ row stored live current finished named absent unclashed executions touches =>
    refine .inl (told_of_touches touches fun other => ?_)
    have superseded : SameAttempts t db.executions (db.executions.insert id (row.superseded now)) := by
      refine .insert other fun before stored' => ?_
      cases stored.symm.trans stored'
      rfl
    exact superseded.trans (executions ▸ .insert other fun before stored' => nomatch absent.symm.trans stored')

/-- The attempt `id` of task `t` stands at `state`, as the given attempt of an item. -/
def Database.Stands (db : Database) (t id itemKey : String) (attempt : ℤ) (state : ExecutionState) : Prop :=
  ∃ row, db.executions.lookup id = some row ∧ row.taskID = t ∧ row.itemKey = itemKey ∧ row.attempt = attempt ∧
    row.state = state

/-- The attempts of a task stand where they stood. -/
def SameStanding (t : String) (db after : Database) : Prop :=
  ∀ id itemKey attempt state, after.Stands t id itemKey attempt state ↔ db.Stands t id itemKey attempt state

namespace SameStanding

variable {t : String} {db after : Database}

theorem refl (db : Database) : SameStanding t db db := fun _ _ _ _ => Iff.rfl

theorem trans (first : SameStanding t a b) (second : SameStanding t b c) : SameStanding t a c :=
  fun id itemKey attempt state => (second id itemKey attempt state).trans (first id itemKey attempt state)

theorem symm (same : SameStanding t db after) : SameStanding t after db :=
  fun id itemKey attempt state => (same id itemKey attempt state).symm

theorem of_executions (same : after.executions = db.executions) : SameStanding t db after := by
  intro id itemKey attempt state
  rw [Stands, Stands, same]

theorem of_sameAttempts (same : SameAttempts t db.executions after.executions) : SameStanding t db after := by
  intro id itemKey attempt state
  refine exists_congr fun row => ?_
  constructor
  · rintro ⟨stored, belongs, rest⟩
    exact ⟨(same id row belongs).mp stored, belongs, rest⟩
  · rintro ⟨stored, belongs, rest⟩
    exact ⟨(same id row belongs).mpr stored, belongs, rest⟩

/-- A write of an attempt that moves neither its item nor its number nor its state. -/
theorem of_rewrite (stored : db.executions.lookup id = some row)
    (executions : after.executions = db.executions.insert id next) (rewrites : Rewrites row next)
      (state : next.state = row.state) :
    SameStanding t db after := by
  intro j itemKey attempt st
  rw [Stands, Stands, executions]
  by_cases same : j = id
  · subst same
    rw [lookup_insert, if_pos rfl, stored]
    constructor
    · rintro ⟨_, ⟨⟩, belongs, item, number, at_⟩
      exact ⟨row, rfl, rewrites.taskID ▸ belongs, rewrites.itemKey ▸ item, rewrites.attempt ▸ number, state ▸ at_⟩
    · rintro ⟨_, ⟨⟩, belongs, item, number, at_⟩
      exact ⟨next, rfl, rewrites.taskID.trans belongs, rewrites.itemKey.trans item, rewrites.attempt.trans number,
        state.trans at_⟩
  · rw [lookup_insert, if_neg same]

end SameStanding

/-- A task that has a row keeps one, with a higher version unless its attempts stand where they stood. -/
def Fenced (t : String) (db after : Database) : Prop :=
  ∀ row, db.tasks.lookup t = some row → ∃ next, after.tasks.lookup t = some next ∧
    (row.version < next.version ∨ next.version = row.version ∧ SameStanding t db after)

namespace Fenced

variable {t : String}

theorem refl (db : Database) : Fenced t db db := fun row stored => ⟨row, stored, .inr ⟨rfl, .refl db⟩⟩

theorem trans (first : Fenced t a b) (second : Fenced t b c) : Fenced t a c := by
  intro row stored
  obtain ⟨next, present, so⟩ := first row stored
  obtain ⟨last, found, then_⟩ := second next present
  refine ⟨last, found, ?_⟩
  rcases so with less | ⟨version, same⟩
  · rcases then_ with more | ⟨version', _⟩
    · exact .inl (less.trans more)
    · exact .inl (version' ▸ less)
  · rcases then_ with more | ⟨version', same'⟩
    · exact .inl (version ▸ more)
    · exact .inr ⟨version'.trans version, same.trans same'⟩

end Fenced

/-- Every command that succeeds is fenced. -/
theorem fenced_of_execute (success : command.execute db now = .ok after) (t : String) : Fenced t db after := by
  obtain told | silent := (wrote_of_execute success).told_or_silent t
  · intro row stored
    obtain ⟨next, present, so⟩ := told row stored
    refine ⟨next, present, ?_⟩
    rcases so with less | ⟨rfl, same⟩
    · exact .inl less
    · exact .inr ⟨rfl, .of_sameAttempts same⟩
  cases silent with
  | claimed id currentID effectKey named row asked addressed fresh stored written =>
    subst written
    intro task present
    exact ⟨task, present, .inr ⟨rfl, .of_rewrite stored rfl ⟨rfl, rfl, rfl, rfl⟩ rfl⟩⟩
  | settled id row asked stored ready written =>
    subst written
    intro task present
    by_cases same : t = id
    · subst same
      cases stored.symm.trans present
      exact ⟨_, AList.lookup_insert _, .inr ⟨rfl, .of_executions rfl⟩⟩
    · exact ⟨task, (AList.lookup_insert_ne same).trans present, .inr ⟨rfl, .of_executions rfl⟩⟩

end RhinoQ.Model.TaskSchema
