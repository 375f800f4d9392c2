import RhinoQ.Model.BullMQ.Bridge
import RhinoQ.Proofs.TaskSchema.Consistent
import RhinoQ.Proofs.TaskSchema.Told

/-! # The latest attempts of a task

Over consistent tables `latestExecutions` lists exactly the attempts with the highest numbers, so what a bridge
concludes from it holds of every later tables in which the attempts stand where they stood.
-/

namespace RhinoQ.Model.BullMQ

open TaskSchema

section
variable {acc seen l : List TaskExecutionSummary} {e m : TaskExecutionSummary}

/-- An entry of another item stays; the entry of the same item is the better one. -/
theorem mem_insertLatest (distinct : acc.Pairwise fun a b => a.itemKey ≠ b.itemKey) (member : m ∈ insertLatest acc e) :
    (m ∈ acc ∧ m.itemKey ≠ e.itemKey) ∨
      (m = e ∨ m ∈ acc) ∧ m.itemKey = e.itemKey ∧ e.attempt ≤ m.attempt ∧ ∀ x ∈ acc, x.itemKey = e.itemKey →
        x.attempt ≤ m.attempt := by
  induction acc with
  | nil =>
    obtain rfl := List.mem_singleton.mp member
    exact .inr ⟨.inl rfl, rfl, le_rfl, by simp⟩
  | cons current rest ih =>
    obtain ⟨away, apart⟩ := List.pairwise_cons.mp distinct
    rw [insertLatest] at member
    split at member
    next same =>
      -- no other entry has this item
      have only : ∀ x ∈ current :: rest, x.itemKey = e.itemKey → x = current := by
        intro x present key
        rcases List.mem_cons.mp present with rfl | later
        · rfl
        · exact absurd (same.trans key.symm) (away x later)
      rcases List.mem_cons.mp member with rfl | later
      · right
        split
        next less => exact ⟨.inl rfl, rfl, le_rfl, fun x present key => only x present key ▸ le_of_lt less⟩
        next enough =>
          exact ⟨.inr List.mem_cons_self, same, not_lt.mp enough, fun x present key => le_of_eq (only x present key ▸ rfl)⟩
      · exact .inl ⟨List.mem_cons_of_mem _ later, fun key => away m later (same.trans key.symm)⟩
    next other =>
      rcases List.mem_cons.mp member with rfl | later
      · exact .inl ⟨List.mem_cons_self, other⟩
      · rcases ih apart later with ⟨present, key⟩ | ⟨origin, key, enough, best⟩
        · exact .inl ⟨List.mem_cons_of_mem _ present, key⟩
        · refine .inr ⟨origin.imp_right (List.mem_cons_of_mem _), key, enough, fun x present same => ?_⟩
          rcases List.mem_cons.mp present with rfl | later
          · exact absurd same other
          · exact best x later same

theorem pairwise_insertLatest (distinct : acc.Pairwise fun a b => a.itemKey ≠ b.itemKey) :
    (insertLatest acc e).Pairwise fun a b => a.itemKey ≠ b.itemKey := by
  induction acc with
  | nil => exact List.pairwise_singleton ..
  | cons current rest ih =>
    obtain ⟨away, apart⟩ := List.pairwise_cons.mp distinct
    rw [insertLatest]
    split
    next same =>
      refine List.pairwise_cons.mpr ⟨fun x present => ?_, apart⟩
      split
      next => exact same ▸ away x present
      next => exact away x present
    next other =>
      refine List.pairwise_cons.mpr ⟨fun x present => ?_, ih apart⟩
      rcases mem_insertLatest apart present with ⟨old, _⟩ | ⟨_, key, _⟩
      · exact away x old
      · exact key ▸ other

theorem insertLatest_covers (present : x ∈ acc ∨ x = e) : ∃ m ∈ insertLatest acc e, m.itemKey = x.itemKey := by
  induction acc with
  | nil => exact ⟨e, List.mem_singleton_self e, (present.resolve_left (List.not_mem_nil)) ▸ rfl⟩
  | cons current rest ih =>
    rw [insertLatest]
    split
    next same =>
      rcases present with old | rfl
      · rcases List.mem_cons.mp old with rfl | later
        · refine ⟨_, List.mem_cons_self, ?_⟩
          split
          next => exact same.symm
          next => rfl
        · exact ⟨x, List.mem_cons_of_mem _ later, rfl⟩
      · refine ⟨_, List.mem_cons_self, ?_⟩
        split
        next => rfl
        next => exact same
    next other =>
      rcases present with old | rfl
      · rcases List.mem_cons.mp old with rfl | later
        · exact ⟨x, List.mem_cons_self, rfl⟩
        · obtain ⟨m, member, key⟩ := ih (.inl later)
          exact ⟨m, List.mem_cons_of_mem _ member, key⟩
      · obtain ⟨m, member, key⟩ := ih (.inr rfl)
        exact ⟨m, List.mem_cons_of_mem _ member, key⟩

/-- What the fold holds of what it has seen. -/
structure Holds (seen acc : List TaskExecutionSummary) : Prop where
  distinct : acc.Pairwise fun a b => a.itemKey ≠ b.itemKey
  origin : ∀ m ∈ acc, m ∈ seen
  top : ∀ m ∈ acc, ∀ x ∈ seen, x.itemKey = m.itemKey → x.attempt ≤ m.attempt
  covers : ∀ x ∈ seen, ∃ m ∈ acc, m.itemKey = x.itemKey

theorem Holds.insert (holds : Holds seen acc) (e : TaskExecutionSummary) : Holds (e :: seen) (insertLatest acc e) where
  distinct := pairwise_insertLatest holds.distinct
  origin m member := by
    rcases mem_insertLatest holds.distinct member with ⟨old, _⟩ | ⟨rfl | old, _⟩
    · exact List.mem_cons_of_mem _ (holds.origin m old)
    · exact List.mem_cons_self
    · exact List.mem_cons_of_mem _ (holds.origin m old)
  top m member x present same := by
    rcases mem_insertLatest holds.distinct member with ⟨old, other⟩ | ⟨_, key, enough, best⟩
    · rcases List.mem_cons.mp present with rfl | before
      · exact absurd same.symm other
      · exact holds.top m old x before same
    · rcases List.mem_cons.mp present with rfl | before
      · exact enough
      · obtain ⟨y, held, key'⟩ := holds.covers x before
        have item : y.itemKey = e.itemKey := key'.trans (same.trans key)
        exact (holds.top y held x before key'.symm).trans (best y held item)
  covers x present := by
    rcases List.mem_cons.mp present with rfl | before
    · exact insertLatest_covers (.inr rfl)
    · obtain ⟨y, held, key⟩ := holds.covers x before
      obtain ⟨m, member, key'⟩ := insertLatest_covers (e := e) (.inl held)
      exact ⟨m, member, key'.trans key⟩

theorem Holds.foldl (holds : Holds seen acc) (l : List TaskExecutionSummary) : ∃ all, Holds all (l.foldl insertLatest acc) ∧
    ∀ x, x ∈ all ↔ x ∈ l ∨ x ∈ seen := by
  induction l generalizing seen acc with
  | nil => exact ⟨seen, holds, fun x => by simp⟩
  | cons e rest ih =>
    obtain ⟨all, held, members⟩ := ih (holds.insert e)
    refine ⟨all, held, fun x => (members x).trans ?_⟩
    simp only [List.mem_cons]
    tauto

/-- Exactly the entries with the highest number of their item. -/
theorem mem_latestExecutions (apart : ∀ a ∈ l, ∀ b ∈ l, a.itemKey = b.itemKey → a.attempt = b.attempt → a = b) :
    m ∈ latestExecutions l ↔ m ∈ l ∧ ∀ x ∈ l, x.itemKey = m.itemKey → x.attempt ≤ m.attempt := by
  have start : Holds [] [] := ⟨.nil, by simp, by simp, by simp⟩
  obtain ⟨all, held, members⟩ := start.foldl l
  have same (x : TaskExecutionSummary) : x ∈ all ↔ x ∈ l := (members x).trans (or_iff_left List.not_mem_nil)
  constructor
  · intro member
    exact ⟨(same m).mp (held.origin m member), fun x present => held.top m member x ((same x).mpr present)⟩
  · rintro ⟨present, top⟩
    obtain ⟨best, member, key⟩ := held.covers m ((same m).mpr present)
    have listed := (same best).mp (held.origin best member)
    have above := held.top best member m ((same m).mpr present) key.symm
    obtain rfl := apart best listed m present key (le_antisymm (top best listed key) above)
    exact member

end

/-! ## Over the tables -/

/-- An attempt with the highest number of its item. -/
structure Highest (db : Database) (t id : String) (row : ExecutionRow) : Prop where
  stored : db.executions.lookup id = some row
  taskID : row.taskID = t
  top : ∀ j b, db.executions.lookup j = some b → b.taskID = t → b.itemKey = row.itemKey → b.attempt ≤ row.attempt

variable {db after : Database} {t : String} {m : TaskExecutionSummary}

theorem mem_executionSummaries :
    m ∈ db.executionSummaries t ↔ ∃ id row, db.executions.lookup id = some row ∧ row.taskID = t ∧
      mapExecutionSummary id row = m := by
  rw [Database.executionSummaries, (perm_sortBy _ _).mem_iff, List.mem_map]
  constructor
  · rintro ⟨⟨id, row⟩, present, mapped⟩
    obtain ⟨entry, belongs⟩ := List.mem_filter.mp present
    exact ⟨id, row, FiniteMap.mem_entries_iff.mp entry, beq_iff_eq.mp belongs, mapped⟩
  · rintro ⟨id, row, stored, belongs, mapped⟩
    exact ⟨⟨id, row⟩, List.mem_filter.mpr ⟨FiniteMap.mem_entries_iff.mpr stored, beq_iff_eq.mpr belongs⟩, mapped⟩

/-- A bridge's latest attempts are the highest of the tables it read. -/
theorem mem_latest_iff (consistent : Consistent db) :
    m ∈ latestExecutions (db.executionSummaries t) ↔ ∃ id row, Highest db t id row ∧ mapExecutionSummary id row = m := by
  have apart : ∀ a ∈ db.executionSummaries t, ∀ b ∈ db.executionSummaries t, a.itemKey = b.itemKey →
    a.attempt = b.attempt → a = b := by
    intro a left b right item attempt
    obtain ⟨i, row, stored, belongs, rfl⟩ := mem_executionSummaries.mp left
    obtain ⟨j, other, stored', belongs', rfl⟩ := mem_executionSummaries.mp right
    have same := consistent.numbered i j row other stored stored' (belongs.trans belongs'.symm) item attempt
    subst same
    rw [Option.some.inj (stored.symm.trans stored')]
  rw [mem_latestExecutions apart, mem_executionSummaries]
  constructor
  · rintro ⟨⟨id, row, stored, belongs, rfl⟩, top⟩
    refine ⟨id, row, ⟨stored, belongs, fun j b stored' belongs' item => ?_⟩, rfl⟩
    exact top (mapExecutionSummary j b) (mem_executionSummaries.mpr ⟨j, b, stored', belongs', rfl⟩) item
  · rintro ⟨id, row, highest, rfl⟩
    refine ⟨⟨id, row, highest.stored, highest.taskID, rfl⟩, fun x present item => ?_⟩
    obtain ⟨j, b, stored', belongs', rfl⟩ := mem_executionSummaries.mp present
    exact highest.top j b stored' belongs' item

/-- The attempts that stand where they stood include the highest. -/
theorem Highest.of_sameStanding {id : String} (same : SameStanding t db after) (highest : Highest after t id row) :
    ∃ before, Highest db t id before ∧ before.state = row.state := by
  have stands : after.Stands t id row.itemKey row.attempt row.state := ⟨row, highest.stored, highest.taskID, rfl, rfl, rfl⟩
  obtain ⟨before, stored, belongs, item, attempt, state⟩ := (same _ _ _ _).mp stands
  refine ⟨before, ⟨stored, belongs, fun j b stored' belongs' item' => ?_⟩, state⟩
  obtain ⟨c, present, belongs'', item'', attempt'', _⟩ :=
    (same j b.itemKey b.attempt b.state).mpr ⟨b, stored', belongs', rfl, rfl, rfl⟩
  rw [attempt, ← attempt'']
  exact highest.top j c present belongs'' (item''.trans (item'.trans item))

/-- Every item of the task is done with its highest attempt. -/
def Stopped (db : Database) (t : String) : Prop := ∀ id row, Highest db t id row → row.state.done = true

theorem Stopped.of_sameStanding (same : SameStanding t db after) (stopped : Stopped db t) : Stopped after t := by
  intro id row highest
  obtain ⟨before, highest', state⟩ := highest.of_sameStanding same
  exact state ▸ stopped id before highest'

theorem stopped_iff (consistent : Consistent db) :
    Stopped db t ↔ ∀ m ∈ latestExecutions (db.executionSummaries t), m.state.done = true := by
  constructor
  · intro stopped m member
    obtain ⟨id, row, highest, rfl⟩ := (mem_latest_iff consistent).mp member
    exact stopped id row highest
  · intro done id row highest
    exact done _ ((mem_latest_iff consistent).mpr ⟨id, row, highest, rfl⟩)

end RhinoQ.Model.BullMQ
