import Mathlib.Data.List.Basic
import Mathlib.Order.Lattice

/-! # Keyset paging

Rows in descending order of a key are read page by page. The last row of a page marks where the next one
begins. A mark may be lower than the key of its row, so that rows in between are lost.
-/

namespace RhinoQ.Keyset

variable {α β : Type*} [LinearOrder β] (key mark : α → β) (usable : α → Bool) (limit : ℕ)

/-- The rows below the mark of the last row read. -/
def remaining (rows : List α) (last : Option α) : List α :=
  rows.filter fun row => last.all fun read => decide (key row < mark read)

/-- One page, and its last row when there are more. One row more than the limit is selected to tell. -/
def page (rows : List α) (last : Option α) : List α × Option α :=
  let selected := (remaining key mark rows last).take (limit + 1)
  if limit < selected.length then (selected.take limit, (selected.take limit).getLast?) else (selected, none)

/-- Page after page. Nothing when the fuel runs out, and no rows when a row cannot be used as a mark. -/
def walk (rows : List α) : ℕ → Option α → Option (Option (List α))
  | 0, _ => none
  | fuel + 1, last =>
    if last.all usable then
      match page key mark limit rows last with
      | (found, none) => some (some found)
      | (found, some next) => (walk rows fuel (some next)).map fun others => others.map (found ++ ·)
    else some none

/-- At every boundary of pages the last row is usable and its mark is above the next row. -/
def Continues (rows : List α) : Prop :=
  ∀ i a b, limit ∣ i + 1 → rows[i]? = some a → rows[i + 1]? = some b → usable a = true ∧ key b < mark a

variable {key mark usable limit} {rows left : List α} {last : Option α}

theorem page_of_le (short : (remaining key mark rows last).length ≤ limit) :
    page key mark limit rows last = (remaining key mark rows last, none) := by
  unfold page
  rw [List.take_of_length_le (by omega), if_neg (by omega)]

theorem page_of_lt (long : limit < (remaining key mark rows last).length) : page key mark limit rows last =
      ((remaining key mark rows last).take limit, ((remaining key mark rows last).take limit).getLast?) := by
  have selected : limit < ((remaining key mark rows last).take (limit + 1)).length := by
    rw [List.length_take]
    omega
  unfold page
  rw [if_pos selected, List.take_take, Nat.min_eq_left (Nat.le_succ limit)]

/-- A page that is not the last one ends at the row before the boundary. -/
theorem getLast?_take (positive : 0 < limit) (long : limit < left.length) :
    ∃ last, (left.take limit).getLast? = some last ∧ left[limit - 1]? = some last := by
  have inside : limit - 1 < left.length := by omega
  refine ⟨left[limit - 1], ?_, List.getElem?_eq_getElem inside⟩
  rw [List.getLast?_eq_getElem?, List.length_take, Nat.min_eq_left (Nat.le_of_lt long), List.getElem?_take_of_lt (by omega),
    List.getElem?_eq_getElem inside]

/-- There is no boundary in a page that holds everything. -/
theorem continues_of_le (short : left.length ≤ limit) : Continues key mark usable limit left := by
  intro i a b divides _ next
  have inside := (List.getElem?_eq_some_iff.mp next).1
  have := Nat.le_of_dvd (Nat.succ_pos i) divides
  omega

/-- The boundaries of what is left are that of its first page and those behind it. -/
theorem continues_iff {last : α} (positive : 0 < limit) (sorted : left.Pairwise fun a b => key b < key a)
    (long : limit < left.length) (ends : left[limit - 1]? = some last) : Continues key mark usable limit left ↔
      usable last = true ∧ (∀ row ∈ left.drop limit, key row < mark last) ∧
        Continues key mark usable limit (left.drop limit) := by
  have boundary : limit - 1 + 1 = limit := by omega
  constructor
  · intro continues
    obtain ⟨usableLast, below⟩ := continues (limit - 1) last left[limit] (by simp only [boundary, Nat.dvd_refl]) ends
      (by rw [boundary]; exact List.getElem?_eq_getElem long)
    refine ⟨usableLast, fun row member => ?_, fun i a b divides here next => ?_⟩
    · obtain ⟨i, inside, rfl⟩ := List.mem_iff_getElem.mp member
      rw [List.length_drop] at inside
      rw [List.getElem_drop]
      rcases Nat.eq_zero_or_pos i with rfl | later
      · exact below
      · exact (List.pairwise_iff_getElem.mp sorted limit (limit + i) long (by omega) (by omega)).trans below
    · rw [List.getElem?_drop] at here next
      refine continues (limit + i) a b ?_ here next
      rw [Nat.add_assoc]
      exact (Nat.dvd_add_right (Nat.dvd_refl limit)).mpr divides
  · rintro ⟨usableLast, below, continues⟩ i a b divides here next
    have atLeast := Nat.le_of_dvd (Nat.succ_pos i) divides
    rcases Nat.eq_or_lt_of_le atLeast with first | later
    · have isLast : i = limit - 1 := by omega
      subst isLast
      cases here.symm.trans ends
      refine ⟨usableLast, below b (List.mem_of_getElem? (i := 0) ?_)⟩
      rw [List.getElem?_drop, Nat.add_zero, ← boundary]
      exact next
    · have shift : limit + (i - limit) = i := by omega
      refine continues (i - limit) a b ?_ ?_ ?_
      · rw [← Nat.dvd_add_right (Nat.dvd_refl limit), ← Nat.add_assoc, shift]
        exact divides
      · rw [List.getElem?_drop, shift]
        exact here
      · rw [List.getElem?_drop, ← Nat.add_assoc, shift]
        exact next

section
variable {rows : List α} (descending : rows.Pairwise fun a b => key b < key a) (marks : ∀ a ∈ rows, mark a ≤ key a)
  {cursor : Option α} {fuel : ℕ}
include descending marks

/-- After a page that ends at `last`, what is left below its mark is what was left behind the page. -/
theorem remaining_some {last : α} (positive : 0 < limit) (ends : (remaining key mark rows cursor)[limit - 1]? = some last) :
    remaining key mark rows (some last) =
      ((remaining key mark rows cursor).drop limit).filter fun row => decide (key row < mark last) := by
  have member : last ∈ remaining key mark rows cursor := List.mem_of_getElem? ends
  obtain ⟨isRow, below⟩ := List.mem_filter.mp member
  -- what lies below the new mark lies below the old one
  have nested : remaining key mark rows (some last) =
      (remaining key mark rows cursor).filter fun row => decide (key row < mark last) := by
    rw [remaining, remaining, List.filter_filter]
    refine List.filter_congr fun row _ => ?_
    rw [Option.all_some, Bool.eq_iff_iff, Bool.and_eq_true, decide_eq_true_eq, iff_self_and]
    intro less
    rw [Option.all_eq_true] at below ⊢
    intro read isRead
    exact decide_eq_true ((less.trans_le (marks last isRow)).trans (of_decide_eq_true (below read isRead)))
  have sorted : (remaining key mark rows cursor).Pairwise fun a b => key b < key a := descending.filter _
  generalize remaining key mark rows cursor = left at *
  have above : (left.take limit).filter (fun row => decide (key row < mark last)) = [] := by
    rw [List.filter_eq_nil_iff]
    intro row inPage less
    obtain ⟨i, inside, rfl⟩ := List.mem_iff_getElem.mp inPage
    obtain ⟨inLeft, rfl⟩ := List.getElem?_eq_some_iff.mp ends
    rw [List.length_take] at inside
    rw [List.getElem_take] at less
    have notBelow : key left[limit - 1] ≤ key left[i] := by
      rcases Nat.lt_or_ge i (limit - 1) with before | atEnd
      · exact (List.pairwise_iff_getElem.mp sorted i (limit - 1) (by omega) inLeft before).le
      · have same : i = limit - 1 := by omega
        subst same
        exact le_rfl
    exact absurd (of_decide_eq_true less) (not_lt.mpr ((marks _ isRow).trans notBelow))
  rw [nested]
  conv_lhs => rw [← List.take_append_drop limit left]
  rw [List.filter_append, above, List.nil_append]

/-- A walk that returns rows returns some of those that were left, and all of them only at sound boundaries. -/
theorem walk_sound (positive : 0 < limit) {found : List α}
    (walked : walk key mark usable limit rows fuel cursor = some (some found)) :
    cursor.all usable = true ∧ found.Sublist (remaining key mark rows cursor) ∧
      (found = remaining key mark rows cursor → Continues key mark usable limit (remaining key mark rows cursor)) := by
  induction fuel generalizing cursor found with
  | zero => cases walked
  | succ fuel ih =>
    unfold walk at walked
    split at walked
    next fits =>
      rcases Nat.lt_or_ge limit (remaining key mark rows cursor).length with long | short
      · obtain ⟨last, isLast, ends⟩ := getLast?_take positive long
        rw [page_of_lt long, isLast] at walked
        obtain ⟨others, further, same⟩ := Option.map_eq_some_iff.mp walked
        obtain ⟨tail, isTail, rfl⟩ := Option.map_eq_some_iff.mp same
        subst isTail
        obtain ⟨usableLast, sublist, complete⟩ := ih further
        rw [remaining_some descending marks positive ends] at sublist complete
        have behind : tail.Sublist ((remaining key mark rows cursor).drop limit) := sublist.trans List.filter_sublist
        have split := List.take_append_drop limit (remaining key mark rows cursor)
        refine ⟨fits, ?_, fun all => ?_⟩
        · have both := (List.Sublist.refl ((remaining key mark rows cursor).take limit)).append behind
          rw [split] at both
          exact both
        · -- nothing behind the page was lost to the mark
          have whole : tail = (remaining key mark rows cursor).drop limit := List.append_cancel_left (all.trans split.symm)
          rw [whole] at sublist complete
          have kept := List.filter_sublist.antisymm sublist
          rw [kept] at complete
          have sorted : (remaining key mark rows cursor).Pairwise fun a b => key b < key a := descending.filter _
          refine (continues_iff positive sorted long ends).mpr ⟨usableLast, ?_, complete rfl⟩
          intro row member
          rw [← kept] at member
          exact of_decide_eq_true (List.mem_filter.mp member).2
      · rw [page_of_le short] at walked
        cases walked
        exact ⟨fits, List.Sublist.refl _, fun _ => continues_of_le short⟩
    next => cases walked

/-- With sound boundaries and enough fuel a walk returns everything that was left. -/
theorem walk_of_continues (positive : 0 < limit) (enough : (remaining key mark rows cursor).length < fuel)
    (fits : cursor.all usable = true) (continues : Continues key mark usable limit (remaining key mark rows cursor)) :
    walk key mark usable limit rows fuel cursor = some (some (remaining key mark rows cursor)) := by
  induction fuel generalizing cursor with
  | zero => omega
  | succ fuel ih =>
    rw [walk, if_pos fits]
    rcases Nat.lt_or_ge limit (remaining key mark rows cursor).length with long | short
    · obtain ⟨last, isLast, ends⟩ := getLast?_take positive long
      have sorted : (remaining key mark rows cursor).Pairwise fun a b => key b < key a := descending.filter _
      obtain ⟨usableLast, below, further⟩ := (continues_iff positive sorted long ends).mp continues
      have behind : remaining key mark rows (some last) = (remaining key mark rows cursor).drop limit := by
        rw [remaining_some descending marks positive ends, List.filter_eq_self]
        exact fun row member => decide_eq_true (below row member)
      have shorter : (remaining key mark rows (some last)).length < fuel := by
        rw [behind, List.length_drop]
        omega
      have rest := ih shorter usableLast (behind ▸ further)
      rw [page_of_lt long, isLast]
      dsimp only
      rw [rest, Option.map_some, Option.map_some, behind, List.take_append_drop]
    · rw [page_of_le short]

/-- A walk from the start returns every row exactly when all boundaries are sound. -/
theorem walk_eq_iff (positive : 0 < limit) :
    (∃ fuel, walk key mark usable limit rows fuel none = some (some rows)) ↔ Continues key mark usable limit rows := by
  have start : remaining key mark rows none = rows := List.filter_eq_self.mpr fun _ _ => rfl
  constructor
  · rintro ⟨fuel, walked⟩
    obtain ⟨_, _, complete⟩ := walk_sound descending marks positive walked
    rw [start] at complete
    exact complete rfl
  · intro continues
    refine ⟨rows.length + 1, ?_⟩
    have walked : walk key mark usable limit rows (rows.length + 1) none = some (some (remaining key mark rows none)) := by
      refine walk_of_continues descending marks positive ?_ rfl ?_
      · rw [start]
        exact Nat.lt_succ_self _
      · rw [start]
        exact continues
    rw [start] at walked
    exact walked

end

end RhinoQ.Keyset
