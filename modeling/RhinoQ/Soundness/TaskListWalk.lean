import RhinoQ.Model.TaskSchema.Page
import RhinoQ.ToMathlib.KeysetPaging

/-! # Walking the task list

The list is sorted by a time in microseconds, and a cursor keeps its milliseconds. The walk is complete exactly
when each page ends at a task whose shortened position is still above the task that follows it.
-/

namespace RhinoQ.Model.TaskSchema

open Keyset OrderDual

/-- The position that the cursor of a task stands for. -/
def cursorPosition (entry : String × TaskRow) : Lex (ℤ × String) := (encodeTaskCursor entry).position

/-- A cursor needs an id. -/
def hasCursor (entry : String × TaskRow) : Bool := entry.1 != ""

/-- A cursor never stands above the task it was made from. -/
theorem cursorPosition_le (entry : String × TaskRow) : cursorPosition entry ≤ listPosition entry := by
  refine Prod.Lex.toLex_le_toLex.mpr ?_
  have floor : milliseconds (date entry.2.updatedAt) ≤ entry.2.updatedAt := by
    unfold milliseconds date
    omega
  rcases lt_or_eq_of_le floor with below | same
  · exact .inl below
  · exact .inr ⟨same, le_rfl⟩

theorem decodeTaskCursor_encode (last : Option (String × TaskRow)) : decodeTaskCursor (last.map encodeTaskCursor) =
      if last.all hasCursor then .ok (last.map encodeTaskCursor) else .error (.typeError "invalid task cursor") := by
  cases last with
  | none => rfl
  | some entry =>
    by_cases empty : entry.1 = ""
    · simp [decodeTaskCursor, encodeTaskCursor, hasCursor, empty]
    · simp [decodeTaskCursor, encodeTaskCursor, hasCursor, empty]

section
variable {db : Database} {ownerID tenantID : String} {rows : List (String × TaskRow)}
variable (all : rows.Perm (db.ownedTasks ownerID tenantID))
    (ordered : rows.Pairwise fun a b => listPosition b < listPosition a)

theorem lookup_of_mem_ownedTasks (member : entry ∈ db.ownedTasks ownerID tenantID) :
    db.tasks.lookup entry.1 = some entry.2 := by
  obtain ⟨stored, present, same⟩ := List.mem_map.mp (List.mem_filter.mp member).1
  subst same
  exact FiniteMap.mem_entries_iff.mp present

/-- The position tells the tasks of an owner apart. -/
theorem listPosition_injective : ∀ a ∈ db.ownedTasks ownerID tenantID, ∀ b ∈ db.ownedTasks ownerID tenantID,
    toDual (listPosition a) = toDual (listPosition b) → a = b := by
  rintro ⟨i, first⟩ memberA ⟨j, second⟩ memberB same
  have ids : i = j := congrArg (fun position => (ofLex position).2) same
  subst ids
  have storedA := lookup_of_mem_ownedTasks memberA
  have storedB := lookup_of_mem_ownedTasks memberB
  cases storedA.symm.trans storedB
  rfl

include all ordered

theorem selectPage_eq (limit : ℕ) (last : Option (String × TaskRow)) :
    db.selectPage ownerID tenantID limit (last.map encodeTaskCursor) =
      (remaining listPosition cursorPosition rows last).take limit := by
  have sorted : sortBy (fun entry => toDual (listPosition entry)) (db.ownedTasks ownerID tenantID) = rows := by
    have descending : rows.Pairwise fun a b => toDual (listPosition a) ≤ toDual (listPosition b) :=
      ordered.imp fun below => below.le
    refine List.Perm.eq_of_pairwise ?_ (pairwise_sortBy _ _) descending ((perm_sortBy _ _).trans all.symm)
    intro a b memberA memberB below above
    have isA := (perm_sortBy _ _).mem_iff.mp memberA
    exact listPosition_injective a isA b (all.mem_iff.mp memberB) (le_antisymm below above)
  rw [Database.selectPage, sortBy_filter _ _ listPosition_injective, sorted, remaining]
  congr 2
  funext entry
  cases last with
  | none => rfl
  | some read => rfl

section
variable {limit : Option ℤ} {tenant : Option String} (isTenant : tenant.getD "default" = tenantID)
  (told : untold ownerID = false) (low : 1 ≤ limit.getD 50) (high : limit.getD 50 ≤ 200)
include isTenant told low high

/-- A page of the list is a keyset page of the tasks in order. -/
theorem listTasksPage_eq (last : Option (String × TaskRow)) :
    db.listTasksPage ownerID (last.map encodeTaskCursor) limit tenant =
      if last.all hasCursor then
        .ok { tasks := (page listPosition cursorPosition (limit.getD 50).toNat rows last).1.map db.listedSnapshot
              nextCursor := (page listPosition cursorPosition (limit.getD 50).toNat rows last).2.map encodeTaskCursor }
      else .error (.typeError "invalid task cursor") := by
  have range : ¬(limit.getD 50 ≤ 0 ∨ 200 < limit.getD 50) := by omega
  unfold Database.listTasksPage
  rw [told, if_neg Bool.false_ne_true, if_neg range, decodeTaskCursor_encode]
  by_cases fits : last.all hasCursor = true
  · rw [if_pos fits, if_pos fits]
    change Except.ok _ = _
    subst isTenant
    rw [selectPage_eq all ordered, page]
    by_cases more : (limit.getD 50).toNat <
        ((remaining listPosition cursorPosition rows last).take ((limit.getD 50).toNat + 1)).length
    · simp only [more, decide_true, if_true]
    · simp only [more, decide_false, if_false, Bool.false_eq_true, Option.map_none]
  · rw [if_neg fits, if_neg fits]
    rfl

/-- Following the cursors is a keyset walk over the tasks in order. -/
theorem walkTasks_eq (fuel : ℕ) (last : Option (String × TaskRow)) :
    db.walkTasks ownerID limit tenant fuel (last.map encodeTaskCursor) =
      (walk listPosition cursorPosition hasCursor (limit.getD 50).toNat rows fuel last).map fun found =>
        match found with
        | none => .error (.typeError "invalid task cursor")
        | some tasks => .ok (tasks.map db.listedSnapshot) := by
  induction fuel generalizing last with
  | zero => rfl
  | succ fuel ih =>
    rw [Database.walkTasks, listTasksPage_eq all ordered isTenant told low high, walk]
    by_cases fits : last.all hasCursor = true
    · rw [if_pos fits, if_pos fits]
      dsimp only
      obtain ⟨found, next⟩ := page listPosition cursorPosition (limit.getD 50).toNat rows last
      cases next with
      | none => rfl
      | some read =>
        have rest := ih (some read)
        rw [Option.map_some] at rest
        dsimp only [Option.map_some]
        rw [rest, Option.map_map, Option.map_map]
        congr 1
        funext others
        cases others with
        | none => rfl
        | some tasks => exact congrArg Except.ok (List.map_append ..).symm
    · rw [if_neg fits, if_neg fits]
      rfl

end

end

/-- A task of the owner. -/
def listed (updatedAt : Timestamp) : TaskRow where
  type := "invoice"
  tenantID := "tenant"
  ownerID := some "owner"
  definitionVersion := 1
  createdAt := 0
  updatedAt := updatedAt

/-- Two tasks in different milliseconds. -/
def apart : Database := { tasks := (AList.insert "a" (listed 5000) ∅).insert "b" (listed 1000) }

/-- Two tasks in one millisecond. -/
def together : Database := { tasks := (AList.insert "a" (listed 1500) ∅).insert "b" (listed 1200) }

end RhinoQ.Model.TaskSchema
