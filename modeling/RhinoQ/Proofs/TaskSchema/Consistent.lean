import RhinoQ.Proofs.TaskSchema.Write
import RhinoQ.ToMathlib.Trim

/-! # Consistent tables

An item numbers its attempts apart, a reference has one live attempt, an attempt belongs to a task, and a
superseded attempt has a later one.
-/

namespace RhinoQ.Model.TaskSchema

open FiniteMap Database ExecutionRow

variable {after db : Database} {row next : ExecutionRow} {id : String}

/-- A text with anything but spaces in it. -/
theorem btrim_ne_empty (present : c ∈ text.toList) (visible : c ≠ ' ') : btrim text ≠ "" := by
  intro empty
  have trimmed : (text.toList.dropWhile (· == ' ')).rdropWhile (· == ' ') = [] := by
    simpa [btrim] using congrArg String.toList empty
  rw [← List.takeWhile_append_dropWhile (p := (· == ' ')) (l := text.toList), List.mem_append] at present
  rcases present with dropped | kept
  · have space := List.mem_takeWhile_imp dropped
    exact visible (beq_iff_eq.mp space)
  · exact visible (beq_iff_eq.mp (List.rdropWhile_eq_nil_iff.mp trimmed c kept))

theorem btrim_btrim (text : String) : btrim (btrim text) = btrim text := by
  unfold btrim
  rw [String.toList_ofList, trim_trim fun _ trims => trims]

theorem sharesReference_comm (a b : ExecutionRow) : sharesReference a b = sharesReference b a := by
  have turn (a b : ExecutionRow) : sharesReference a b = true → sharesReference b a = true := by
    simp only [sharesReference, Bool.and_eq_true, beq_iff_eq]
    rintro ⟨⟨⟨⟨⟨bound, left⟩, right⟩, runtime⟩, scope⟩, same⟩
    exact ⟨⟨⟨⟨⟨same ▸ bound, right⟩, left⟩, runtime.symm⟩, scope.symm⟩, same.symm⟩
  exact Bool.eq_iff_iff.mpr ⟨turn a b, turn b a⟩

theorem unclashed_iff : db.clashes id row = false ↔ ∀ j b, db.executions.lookup j = some b → j ≠ id →
      ¬(b.taskID = row.taskID ∧ b.itemKey = row.itemKey ∧ b.attempt = row.attempt) ∧ sharesReference row b = false := by
  rw [Bool.eq_false_iff, Ne, clashes_eq_true]
  constructor
  · intro unclashed j b stored other
    have apart := fun clash => unclashed ⟨j, b, stored, other, clash⟩
    simp only [Bool.or_eq_true, Bool.and_eq_true, beq_iff_eq] at apart
    exact ⟨fun same => apart (.inl ⟨⟨same.1, same.2.1⟩, same.2.2⟩), Bool.eq_false_iff.mpr fun shared => apart (.inr shared)⟩
  · rintro apart ⟨j, b, stored, other, clash⟩
    obtain ⟨number, reference⟩ := apart j b stored other
    simp only [Bool.or_eq_true, Bool.and_eq_true, beq_iff_eq, reference, Bool.false_eq_true, or_false] at clash
    exact number ⟨clash.1.1, clash.1.2, clash.2⟩

/-- What PostgreSQL and the commands keep. -/
structure Consistent (db : Database) : Prop where
  numbered : ∀ i j a b, db.executions.lookup i = some a → db.executions.lookup j = some b → a.taskID = b.taskID →
    a.itemKey = b.itemKey → a.attempt = b.attempt → i = j
  referenced : ∀ i j a b, db.executions.lookup i = some a → db.executions.lookup j = some b →
    sharesReference a b = true → i = j
  owned : ∀ i a, db.executions.lookup i = some a → ∃ task, db.tasks.lookup a.taskID = some task
  external : ∀ i a text, db.executions.lookup i = some a → a.externalID = some text → btrim text = text ∧ text ≠ ""
  positive : ∀ i a, db.executions.lookup i = some a → 0 < a.attempt ∧ 0 < a.version
  versions : ∀ t task, db.tasks.lookup t = some task → 0 < task.version

/-- What a single row has to meet. -/
structure Admissible (db : Database) (row : ExecutionRow) : Prop where
  owned : ∃ task, db.tasks.lookup row.taskID = some task
  external : ∀ text, row.externalID = some text → btrim text = text ∧ text ≠ ""
  positive : 0 < row.attempt ∧ 0 < row.version

namespace Consistent

variable {db after : Database} {id : String} {row next : ExecutionRow}

section
variable (consistent : Consistent db)
include consistent

theorem admissible (stored : db.executions.lookup id = some row) : Admissible db row :=
  ⟨consistent.owned id row stored, fun text => consistent.external id row text stored, consistent.positive id row stored⟩

theorem unclashed (stored : db.executions.lookup id = some row) : db.clashes id row = false := by
  refine unclashed_iff.mpr fun j b found other => ⟨?_, ?_⟩
  · rintro ⟨task, item, attempt⟩
    exact other (consistent.numbered j id b row found stored task item attempt)
  · rw [Bool.eq_false_iff]
    intro shared
    exact other (consistent.referenced id j row b stored found shared).symm

theorem insert (executions : after.executions = db.executions.insert id next)
    (tasks : after.tasks = db.tasks) (admissible : Admissible db next)
      (unclashed : db.clashes id next = false) : Consistent after := by
  have apart := unclashed_iff.mp unclashed
  refine ⟨?_, ?_, ?_, ?_, ?_, ?_⟩
  · intro i j a b left right task item attempt
    obtain ⟨rfl, rfl⟩ | ⟨other, left⟩ := lookup_insert_cases executions left
    · obtain ⟨rfl, rfl⟩ | ⟨other', right⟩ := lookup_insert_cases executions right
      · rfl
      · exact absurd ⟨task.symm, item.symm, attempt.symm⟩ (apart j b right other').1
    · obtain ⟨rfl, rfl⟩ | ⟨_, right⟩ := lookup_insert_cases executions right
      · exact absurd ⟨task, item, attempt⟩ (apart i a left other).1
      · exact consistent.numbered i j a b left right task item attempt
  · intro i j a b left right shared
    obtain ⟨rfl, rfl⟩ | ⟨other, left⟩ := lookup_insert_cases executions left
    · obtain ⟨rfl, rfl⟩ | ⟨other', right⟩ := lookup_insert_cases executions right
      · rfl
      · exact absurd shared (Bool.eq_false_iff.mp (apart j b right other').2)
    · obtain ⟨rfl, rfl⟩ | ⟨_, right⟩ := lookup_insert_cases executions right
      · rw [sharesReference_comm] at shared
        exact absurd shared (Bool.eq_false_iff.mp (apart i a left other).2)
      · exact consistent.referenced i j a b left right shared
  · rw [tasks]
    exact forall_insert executions admissible.owned consistent.owned
  · exact fun i a text found => forall_insert executions
      (P := fun _ a => ∀ text, a.externalID = some text → btrim text = text ∧ text ≠ "")
      admissible.external (fun i a found text => consistent.external i a text found) i a found text
  · exact forall_insert executions admissible.positive consistent.positive
  · rw [tasks]
    exact consistent.versions

theorem of_tasks (executions : after.executions = db.executions)
    (stay : ∀ t task, db.tasks.lookup t = some task → ∃ later, after.tasks.lookup t = some later)
    (versions : ∀ t task, after.tasks.lookup t = some task → 0 < task.version) : Consistent after where
  numbered := executions ▸ consistent.numbered
  referenced := executions ▸ consistent.referenced
  owned i a found := by
    rw [executions] at found
    obtain ⟨task, stored⟩ := consistent.owned i a found
    exact stay _ task stored
  external := executions ▸ consistent.external
  positive := executions ▸ consistent.positive
  versions := versions

end

end Consistent

/-- A task keeps a row, and a row that is new or written has a positive version. -/
structure TasksAdvance (db after : Database) : Prop where
  stay : ∀ t task, db.tasks.lookup t = some task → ∃ later, after.tasks.lookup t = some later ∧ task.version ≤ later.version
  new : ∀ t task, db.tasks.lookup t = none → after.tasks.lookup t = some task → task.version = 1

theorem Advanced.tasksAdvance (advanced : Advanced db after) : TasksAdvance db after where
  stay t task stored := by
    rcases advanced t with same | ⟨row, next, found, present, less⟩
    · exact ⟨task, same.trans stored, le_rfl⟩
    · cases stored.symm.trans found
      exact ⟨next, present, le_of_lt less⟩
  new t task absent present := by
    rcases advanced t with same | ⟨row, _, found, _⟩
    · cases present.symm.trans (same.trans absent)
    · cases absent.symm.trans found

theorem Aside.tasksAdvance (aside : Aside db now after) : TasksAdvance db after := by
  cases aside with
  | same unchanged => exact unchanged ▸ (Advanced.refl db).tasksAdvance
  | created id row absent written initial =>
    subst written
    refine ⟨?_, ?_⟩
    · intro t task stored
      exact ⟨task, lookup_insert_of_absent absent stored, le_rfl⟩
    · intro t task missing present
      obtain ⟨_, rfl⟩ | ⟨_, present⟩ := lookup_insert_cases rfl present
      · exact initial
      · cases missing.symm.trans present
  | wrote id row next stored version written => exact written ▸ (writeTask_advanced stored version).tasksAdvance
  | waited executions steps attempts advanced => exact advanced.tasksAdvance
  | stepped stepped => exact stepped.advanced.tasksAdvance

theorem Silent.tasksAdvance (silent : Silent db now command after) : TasksAdvance db after := by
  cases silent with
  | claimed id currentID effectKey named row asked addressed fresh stored written =>
    subst written
    have kept : Advanced db (db.putExecution currentID (row.claimed now (btrim (effectKey.getD "")))) := fun _ => .inl rfl
    exact kept.tasksAdvance
  | settled id row asked stored ready written =>
    subst written
    refine ⟨?_, ?_⟩
    · intro t task present
      by_cases same : t = id
      · subst same
        cases stored.symm.trans present
        exact ⟨_, AList.lookup_insert _, le_rfl⟩
      · exact ⟨task, (AList.lookup_insert_ne same).trans present, le_rfl⟩
    · intro t task missing present
      have other : t ≠ id := by
        rintro rfl
        cases missing.symm.trans stored
      rw [lookup_insert, if_neg other] at present
      cases missing.symm.trans present

/-- A clash is one of item and number or of reference, whatever else the row holds. -/
theorem clashes_congr (rewrites : Rewrites row next)
    (runtime : next.runtime = row.runtime) (runtimeScope : next.runtimeScope = row.runtimeScope)
    (externalID : next.externalID = row.externalID) : db.clashes id next = db.clashes id row := by
  simp only [clashes, sharesReference, live, rewrites.taskID, rewrites.itemKey, rewrites.attempt,
    rewrites.supersededAt, runtime, runtimeScope, externalID]

theorem nextAttempt_pos (consistent : Consistent db) (t k : String) : 0 < db.nextAttempt t k := by
  unfold nextAttempt
  cases highest : ((db.attemptsOfItem t k).map (·.2.attempt)).maximum with
  | bot => decide
  | coe most =>
    obtain ⟨⟨id, row⟩, present, rfl⟩ := List.mem_map.mp (List.maximum_mem highest)
    have positive : 0 < row.attempt := (consistent.positive id row (mem_attemptsOfItem_iff.mp present).stored).1
    exact positive.trans (Int.lt_succ row.attempt)

namespace Consistent

variable {row : ExecutionRow}

variable {db after : Database} {now : Timestamp} {command : Command}

theorem rewrite (consistent : Consistent db) (stored : db.executions.lookup id = some row)
    (rewrites : Rewrites row next) (runtime : next.runtime = row.runtime)
      (runtimeScope : next.runtimeScope = row.runtimeScope)
    (externalID : next.externalID = row.externalID) (version : row.version ≤ next.version) :
    Consistent (db.putExecution id next) := by
  obtain ⟨owned, external, positive⟩ := consistent.admissible stored
  refine consistent.insert rfl rfl ⟨?_, ?_, ?_⟩ ?_
  · exact rewrites.taskID ▸ owned
  · exact externalID ▸ external
  · exact ⟨rewrites.attempt ▸ positive.1, positive.2.trans_le version⟩
  · exact (clashes_congr rewrites runtime runtimeScope externalID).trans (consistent.unclashed stored)

theorem supersede (consistent : Consistent db) (stored : db.executions.lookup id = some row)
    (now : Timestamp) : Consistent (db.putExecution id (row.superseded now)) := by
  obtain ⟨owned, external, positive⟩ := consistent.admissible stored
  refine consistent.insert rfl rfl ⟨owned, external, positive.1, ?_⟩ (unclashed_iff.mpr fun j b found other => ⟨?_, ?_⟩)
  · exact positive.2.trans (Int.lt_succ row.version)
  · exact (unclashed_iff.mp (consistent.unclashed stored) j b found other).1
  · simp [sharesReference, live, superseded]

theorem executionsOf (wrote : Wrote db now after command) (consistent : Consistent db) :
    Consistent { db with executions := after.executions } := by
  cases wrote with
  | kept executions => exact executions ▸ consistent
  | created request task valid owner absent unclashed executions =>
    refine consistent.insert executions rfl ⟨⟨task, owner⟩, ?_, nextAttempt_pos consistent _ _, Int.one_pos⟩ unclashed
    intro text held
    simp only [CreateRequest.row, nullIfEmpty] at held
    split at held
    next => cases held
    rename_i told
    cases held
    exact ⟨btrim_btrim _, by simpa using told⟩
  | bound row stored current pending runtime same told unclashed executions =>
    obtain ⟨owned, _, positive⟩ := consistent.admissible stored
    refine consistent.insert executions rfl ⟨owned, ?_, positive.1, ?_⟩ unclashed
    · rintro text ⟨⟩
      exact ⟨btrim_btrim _, told⟩
    · exact positive.2.trans (Int.lt_succ row.version)
  | moved row reason asked stored differs allowed executions =>
    rw [executions]
    exact consistent.rewrite stored ⟨rfl, rfl, rfl, rfl⟩ rfl rfl rfl (le_of_lt (Int.lt_succ row.version))
  | annotated id row next stored annotates executions =>
    rw [executions]
    refine consistent.rewrite stored annotates.rewrites annotates.runtime annotates.runtimeScope annotates.externalID ?_
    exact annotates.version ▸ le_of_lt (Int.lt_succ row.version)
  | @retried expected id newID row stored live current finished named absent unclashed executions =>
    have superseded := consistent.supersede stored now
    obtain ⟨owned, external, _⟩ := consistent.admissible stored
    exact superseded.insert executions rfl ⟨owned, external, nextAttempt_pos superseded _ _, Int.one_pos⟩ unclashed

theorem step (consistent : Consistent db) (success : command.execute db now = .ok after) : Consistent after := by
  have wrote := wrote_of_execute success
  have advance : TasksAdvance db after := by
    obtain aside | silent | ⟨_, touches⟩ := wrote.beside
    · exact aside.tasksAdvance
    · exact silent.tasksAdvance
    · exact touches.advanced.tasksAdvance
  refine (consistent.executionsOf wrote).of_tasks rfl ?_ ?_
  · intro t task stored
    obtain ⟨later, present, _⟩ := advance.stay t task stored
    exact ⟨later, present⟩
  · intro t task present
    cases before : db.tasks.lookup t with
    | none => exact (advance.new t task before present) ▸ Int.one_pos
    | some old =>
      obtain ⟨later, found, grows⟩ := advance.stay t old before
      cases found.symm.trans present
      exact (consistent.versions t old before).trans_le grows

theorem empty : Consistent {} where
  numbered _ _ _ _ found := nomatch found
  referenced _ _ _ _ found := nomatch found
  owned _ _ found := nomatch found
  external _ _ _ found := nomatch found
  positive _ _ found := nomatch found
  versions _ _ found := nomatch found

end Consistent

end RhinoQ.Model.TaskSchema
