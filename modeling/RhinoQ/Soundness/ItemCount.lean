import RhinoQ.Model.TaskSchema.Read
import RhinoQ.Proofs.TaskSchema.Write
import Mathlib.Data.List.Dedup

/-! # Counting items by their live attempts

Progress and the summary count the attempts that are not superseded and call them items. `create_execution` on
an item that has a live attempt adds a second one.
-/

namespace RhinoQ.Model.TaskSchema

open FiniteMap Database

variable {db after : Database}

/-- One attempt of the item is live, and it is the one with the highest number. -/
def OneLive (executions : FiniteMap String ExecutionRow) (t k : String) : Prop :=
  ∃ id row, OfItem executions t k id row ∧ row.live = true ∧
    ∀ other old, OfItem executions t k other old → other = id ∨ (old.live = false ∧ old.attempt < row.attempt)

/-- Every item that has an attempt has one live attempt, its last. -/
def ItemsSingle (executions : FiniteMap String ExecutionRow) : Prop :=
  ∀ t k id row, OfItem executions t k id row → OneLive executions t k

/-- The event creates an execution for an item that has a live one. -/
def duplicates (db : Database) (event : Event) : Bool :=
  match event.command with
  | .createExecution _ taskID itemKey _ _ _ =>
    (db.attemptsOfItem taskID (btrim (itemKey.getD "default"))).any (·.2.live)
  | _ => false

section
variable {executions : FiniteMap String ExecutionRow} {t k id : String} {row : ExecutionRow}

theorem OneLive.insert_other (new : (row.taskID, row.itemKey) = owner)
    (old : ∀ before, executions.lookup id = some before → (before.taskID, before.itemKey) = owner) (other : (t, k) ≠ owner)
    (single : OneLive executions t k) : OneLive (executions.insert id row) t k := by
  have same (j : String) (some' : ExecutionRow) : OfItem (executions.insert id row) t k j some' ↔
    OfItem executions t k j some' := by
    have lookups (task : some'.taskID = t) (item : some'.itemKey = k) :=
      lookup_insert_of_owner (fun row : ExecutionRow => (row.taskID, row.itemKey)) new old j (u := some')
        (by rw [task, item]; exact other)
    constructor
    · rintro ⟨stored, task, item⟩
      exact ⟨(lookups task item).mp stored, task, item⟩
    · rintro ⟨stored, task, item⟩
      exact ⟨(lookups task item).mpr stored, task, item⟩
  obtain ⟨liveID, live, ofItem, isLive, last⟩ := single
  exact ⟨liveID, live, (same _ _).mpr ofItem, isLive, fun j before ofItem' => last j before ((same _ _).mp ofItem')⟩

/-- An attempt that is written in place stays live or superseded, under its number. -/
theorem OneLive.insert_same (stored : executions.lookup id = some row) (rewrites : Rewrites row next)
    (single : OneLive executions t k) : OneLive (executions.insert id next) t k := by
  have liveness : next.live = row.live := by rw [ExecutionRow.live, ExecutionRow.live, rewrites.supersededAt]
  -- an attempt after the write was an attempt of the same item before it
  have before {j : String} {after : ExecutionRow} (ofItem : OfItem (executions.insert id next) t k j after) :
      ∃ old, OfItem executions t k j old ∧ old.live = after.live ∧ old.attempt = after.attempt := by
    obtain ⟨found, task, item⟩ := ofItem
    obtain ⟨rfl, rfl⟩ | ⟨_, found⟩ := lookup_insert_cases rfl found
    · exact ⟨row, ⟨stored, rewrites.taskID ▸ task, rewrites.itemKey ▸ item⟩, liveness.symm, rewrites.attempt.symm⟩
    · exact ⟨after, ⟨found, task, item⟩, rfl, rfl⟩
  obtain ⟨liveID, live, ofItem, isLive, last⟩ := single
  have rest (attempt : ℤ) (same : attempt = live.attempt) (j : String) (after : ExecutionRow)
      (ofItem' : OfItem (executions.insert id next) t k j after) : j = liveID ∨
        (after.live = false ∧ after.attempt < attempt) := by
    obtain ⟨old, wasItem, wasLive, wasNumbered⟩ := before ofItem'
    rw [← wasLive, ← wasNumbered, same]
    exact last j old wasItem
  by_cases this : liveID = id
  · subst this
    cases stored.symm.trans ofItem.stored
    refine ⟨liveID, next, ⟨?_, ?_, ?_⟩, liveness.trans isLive, rest next.attempt rewrites.attempt⟩
    · rw [lookup_insert, if_pos rfl]
    · rw [rewrites.taskID, ofItem.taskID]
    · rw [rewrites.itemKey, ofItem.itemKey]
  · refine ⟨liveID, live, ⟨?_, ofItem.taskID, ofItem.itemKey⟩, isLive, rest live.attempt rfl⟩
    rw [lookup_insert, if_neg this, ofItem.stored]

/-- A new attempt with a higher number, once no attempt of the item is live. -/
theorem OneLive.of_next (live : row.supersededAt = none)
    (older : ∀ j old, OfItem executions row.taskID row.itemKey j old → old.live = false ∧ old.attempt < row.attempt) :
    OneLive (executions.insert id row) row.taskID row.itemKey := by
  refine ⟨id, row, ⟨by rw [lookup_insert, if_pos rfl], rfl, rfl⟩, by rw [ExecutionRow.live, live]; rfl, ?_⟩
  rintro other old ⟨found, task, item⟩
  obtain ⟨same, _⟩ | ⟨_, found⟩ := lookup_insert_cases rfl found
  · exact .inl same
  · exact .inr (older other old ⟨found, task, item⟩)

end

/-- An event that creates no second live attempt keeps every item single. -/
theorem itemsSingle_of_step (quiet : duplicates db event = false)
    (taken : step db event = some after) (single : ItemsSingle db.executions) : ItemsSingle after.executions := by
  intro t k j found ofItem
  cases step_executionMove taken with
  | kept executions =>
    rw [executions] at ofItem ⊢
    exact single t k j found ofItem
  | added id row asked live absent executions =>
    rw [executions] at ofItem ⊢
    by_cases this : (t, k) = (row.taskID, row.itemKey)
    · cases this
      refine OneLive.of_next live fun other old wasItem => ?_
      -- the item would have a live attempt already
      obtain ⟨liveID, current, isItem, isLive, _⟩ := single _ _ other old wasItem
      obtain ⟨itemKey, _, _, _, command, named⟩ := asked
      rw [duplicates, command] at quiet
      dsimp only at quiet
      rw [← named, List.any_eq_false] at quiet
      exact absurd isLive (quiet _ (mem_attemptsOfItem_iff.mpr isItem))
    · have vacant (before : ExecutionRow) (stored : db.executions.lookup id = some before) :
          (before.taskID, before.itemKey) = (row.taskID, row.itemKey) := nomatch absent.symm.trans stored
      refine OneLive.insert_other rfl vacant this (single t k j found ⟨?_, ofItem.taskID, ofItem.itemKey⟩)
      obtain ⟨_, rfl⟩ | ⟨_, stored⟩ := lookup_insert_cases rfl ofItem.stored
      · exact absurd (Prod.ext ofItem.taskID.symm ofItem.itemKey.symm) this
      · exact stored
  | rewrote id row next stored rewrites moves executions =>
    rw [executions] at ofItem ⊢
    have before : ∃ old, OfItem db.executions t k j old := by
      obtain ⟨written, task, item⟩ := ofItem
      obtain ⟨rfl, rfl⟩ | ⟨_, written⟩ := lookup_insert_cases rfl written
      · exact ⟨row, stored, rewrites.taskID ▸ task, rewrites.itemKey ▸ item⟩
      · exact ⟨found, written, task, item⟩
    obtain ⟨old, wasItem⟩ := before
    exact (single t k j old wasItem).insert_same stored rewrites
  | retried id newID row next stored current finished named live numbered absent executions =>
    rw [executions] at ofItem ⊢
    by_cases this : (t, k) = (next.taskID, next.itemKey)
    · cases this
      refine OneLive.of_next live fun other old wasItem => ⟨?_, ?_⟩
      · have wasOfRow : OfItem db.executions next.taskID next.itemKey id row := ⟨stored, named.1.symm, named.2.symm⟩
        obtain ⟨liveID, last, _, _, only⟩ := single _ _ id row wasOfRow
        have rowLive : row.live = true := by rw [ExecutionRow.live, current]; rfl
        have isID : id = liveID := (only id row wasOfRow).resolve_right fun dead =>
          Bool.false_ne_true (dead.1.symm.trans rowLive)
        obtain ⟨lookup, task, item⟩ := wasItem
        obtain ⟨_, rfl⟩ | ⟨different, lookup⟩ := lookup_insert_cases rfl lookup
        · rfl
        · exact ((only other old ⟨lookup, task, item⟩).resolve_left fun same => different (same.trans isID.symm)).1
      · rw [numbered, ← named.1, ← named.2]
        exact lt_nextAttempt wasItem
    · have wasItem : OfItem db.executions t k j found := by
        obtain ⟨lookup, task, item⟩ := ofItem
        obtain ⟨_, rfl⟩ | ⟨_, lookup⟩ := lookup_insert_cases rfl lookup
        · exact absurd (Prod.ext task.symm item.symm) this
        obtain ⟨_, rfl⟩ | ⟨_, lookup⟩ := lookup_insert_cases rfl lookup
        · exact absurd (Prod.ext (task.symm.trans named.1.symm) (item.symm.trans named.2.symm)) this
        · exact ⟨lookup, task, item⟩
      have owner : (row.taskID, row.itemKey) = (next.taskID, next.itemKey) := by rw [named.1, named.2]
      refine OneLive.insert_other rfl (fun before stored' => nomatch absent.symm.trans stored') this ?_
      refine OneLive.insert_other owner ?_ this (single t k j found wasItem)
      intro before stored'
      cases stored.symm.trans stored'
      exact owner

/-- The distinct item keys of a task. -/
def Database.itemKeys (db : Database) (taskID : String) : List String :=
  (((values db.executions).filter fun row => row.taskID == taskID).map (·.itemKey)).dedup

/-- When every item is single, the live attempts of a task are as many as its item keys. -/
theorem length_liveExecutions (single : ItemsSingle db.executions) (taskID : String) :
    (db.liveExecutions taskID).length = (db.itemKeys taskID).length := by
  have distinct : ((db.liveExecutions taskID).map (·.itemKey)).Nodup := by
    rw [liveExecutions, values, List.filter_map, List.map_map]
    refine List.Nodup.map_on ?_ (db.executions.nodupKeys.nodup.filter _)
    rintro ⟨a, first⟩ memberA ⟨b, second⟩ memberB same
    simp only [List.mem_filter, mem_entries_iff, Function.comp_apply, Bool.and_eq_true, beq_iff_eq] at memberA memberB
    obtain ⟨storedA, taskA, liveA⟩ := memberA
    obtain ⟨storedB, taskB, liveB⟩ := memberB
    have ofA : OfItem db.executions taskID first.itemKey a first := ⟨storedA, taskA, rfl⟩
    have ofB : OfItem db.executions taskID first.itemKey b second := ⟨storedB, taskB, same.symm⟩
    obtain ⟨liveID, _, _, _, only⟩ := single _ _ a first ofA
    have isA := (only a first ofA).resolve_right fun dead => Bool.false_ne_true (dead.1.symm.trans liveA)
    have isB := (only b second ofB).resolve_right fun dead => Bool.false_ne_true (dead.1.symm.trans liveB)
    subst isA isB
    cases storedA.symm.trans storedB
    rfl
  have members (key : String) : key ∈ (db.liveExecutions taskID).map (·.itemKey) ↔ key ∈ db.itemKeys taskID := by
    simp only [itemKeys, List.mem_dedup, List.mem_map, liveExecutions, List.mem_filter, mem_values_iff,
      Bool.and_eq_true, beq_iff_eq]
    constructor
    · rintro ⟨row, ⟨stored, task, _⟩, item⟩
      exact ⟨row, ⟨stored, task⟩, item⟩
    · rintro ⟨row, ⟨⟨id, stored⟩, task⟩, item⟩
      obtain ⟨liveID, live, ofItem, isLive, _⟩ := single taskID key id row ⟨stored, task, item⟩
      exact ⟨live, ⟨⟨liveID, ofItem.stored⟩, ofItem.taskID, isLive⟩, ofItem.itemKey⟩
  have perm : ((db.liveExecutions taskID).map (·.itemKey)).Perm (db.itemKeys taskID) :=
    (List.perm_ext_iff_of_nodup distinct (List.nodup_dedup _)).mpr members
  rw [← perm.length_eq, List.length_map]

/-- The total that `sync_item_progress` writes is the number of live attempts. -/
theorem syncItemProgress_total (success : db.syncItemProgress now taskID = .ok after) :
    after = db ∨ ∃ row, after.tasks.lookup taskID = some row ∧
      row.progressTotal = some ((db.liveExecutions taskID).length : ℤ) := by
  simp only [syncItemProgress, task, found_bind_eq_ok] at success
  obtain ⟨row, stored, success⟩ := success
  split at success
  · exact .inl (Except.ok.inj success).symm
  split at success
  · exact .inl (Except.ok.inj success).symm
  cases success
  right
  rw [writeTask, AList.lookup_insert]
  exact ⟨_, rfl, rfl⟩

/-- In every run in which no execution is created for an item that has a live one, each item has one
live attempt, its last, and the totals of progress and summary count the items. -/
theorem item_counts_count_items {initial db : Database} (noExecutions : initial.executions = ∅)
    (reached : (machine initial).Reaches (fun state event => duplicates state event = false) db) :
    (∀ t k id row, OfItem db.executions t k id row → OneLive db.executions t k) ∧ ∀ taskID,
        (∀ now after, db.syncItemProgress now taskID = .ok after → after = db ∨
          ∃ row, after.tasks.lookup taskID = some row ∧ row.progressTotal = some ((db.itemKeys taskID).length : ℤ)) ∧
        ∀ ownerID tenantID summary, db.readTaskSummary taskID ownerID tenantID = .ok summary →
          summary.itemCounts.counts.total = (db.itemKeys taskID).length := by
  have single : ItemsSingle db.executions := by
    refine reached.invariant (fun state => ItemsSingle state.executions) ?_ fun _ _ _ quiet taken =>
      itemsSingle_of_step quiet taken
    rintro t k id row ⟨stored, _⟩
    have nothing : (machine initial).start.executions = ∅ := noExecutions
    rw [nothing] at stored
    cases stored
  refine ⟨single, fun taskID => ⟨fun now after success => ?_, fun ownerID tenantID summary read => ?_⟩⟩
  · rw [← length_liveExecutions single]
    exact syncItemProgress_total success
  · unfold readTaskSummary at read
    split at read
    · cases read
    split at read
    · cases read
    cases read
    exact congrArg Nat.cast (length_liveExecutions single taskID)

/-- A running task with two items, one of them retried. -/
def retriedItem : List Event :=
  [⟨0, .createTask "task" "invoice" "tenant" none 1⟩,
    ⟨1, .createExecution "a" "task" (some "first") (some "bullmq") none (some "job")⟩,
    ⟨2, .createExecution "b" "task" (some "second") (some "bullmq") none none⟩,
    ⟨3, .transitionExecution "a" (some 1) .failed none⟩,
    ⟨4, .retryExecution "a" (some 2) "again"⟩]

theorem retriedItem_counted : ∃ db, (machine {}).Reaches (fun state event => duplicates state event = false) db ∧
    (db.itemKeys "task").length = 2 ∧ ∀ summary, db.readTaskSummary "task" none none = .ok summary →
      summary.itemCounts.counts.total = (db.itemKeys "task").length := by
  exact Machine.exists_checked_and (fun _ _ checked => (Bool.not_eq_true' _).mp checked) retriedItem (by decide)
    fun db reached _ => ((item_counts_count_items rfl reached).2 "task").2 none none

/-- One item, created twice in a running task. -/
def createdTwice : List Event :=
  [⟨0, .createTask "task" "invoice" "tenant" none 1⟩,
    ⟨1, .transitionTask "task" (some 1) .queued⟩,
    ⟨2, .transitionTask "task" (some 2) .running⟩,
    ⟨3, .createExecution "a" "task" (some "item") (some "bullmq") none none⟩,
    ⟨4, .createExecution "b" "task" (some "item") (some "bullmq") none none⟩,
    ⟨5, .syncItemProgress "task"⟩]

/-- The item has two live attempts, and both totals are two. -/
theorem createdTwice_counts_two : ∃ db, (machine {}).Reaches Machine.anyStep db ∧ db.itemKeys "task" = ["item"] ∧
    ((db.tasks.lookup "task").map (·.progressTotal)) = some (some 2) ∧ (db.itemCounts "task").total = 2 := by
  exact Machine.exists_reached createdTwice (by decide)

end RhinoQ.Model.TaskSchema
