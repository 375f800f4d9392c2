import RhinoQ.ToMathlib.FiniteMap

/-! # Rows with locks and versions

A table that several transactions write under READ COMMITTED. At most one transaction holds a row and has a
version of its own, which the others see once it commits; one that wants a held row waits.
-/

namespace RhinoQ

open FiniteMap

/-- The versions of a row. Only a holder has a version that is not committed. -/
structure Versions (ν : Type*) where
  committed : Option ν
  holder : Option ℕ
  written : Option ν
  owned : holder = none → written = none

namespace Versions

variable {ν : Type*}

/-- A row that nobody has written. -/
def absent : Versions ν where
  committed := none
  holder := none
  written := none
  owned _ := rfl

/-- A committed row that nobody holds. -/
def stored (value : ν) : Versions ν where
  committed := some value
  holder := none
  written := none
  owned _ := rfl

variable (row : Versions ν) (i : ℕ)

/-- The version that a statement of the transaction sees. -/
def visible : Option ν := if row.holder = some i then row.written <|> row.committed else row.committed

/-- No other transaction holds the row. -/
def free : Bool := row.holder.all (· == i)

def lock : Versions ν where
  committed := row.committed
  holder := some i
  written := if row.holder = some i then row.written else none
  owned held := absurd held (Option.some_ne_none i)

def write (value : ν) : Versions ν where
  committed := row.committed
  holder := some i
  written := some value
  owned held := absurd held (Option.some_ne_none i)

def commit : Versions ν :=
  if row.holder = some i then { committed := row.visible i, holder := none, written := none, owned := fun _ => rfl } else row

def abort : Versions ν :=
  if row.holder = some i then { committed := row.committed, holder := none, written := none, owned := fun _ => rfl } else row

variable {row i} {j : ℕ} {value : ν}

theorem visible_of_self (held : row.holder = some i) : row.visible i = (row.written <|> row.committed) := if_pos held

theorem visible_of_ne (other : row.holder ≠ some i) : row.visible i = row.committed := if_neg other

theorem visible_of_holder (held : row.holder = some i) (other : j ≠ i) : row.visible j = row.committed :=
  visible_of_ne fun same => other (Option.some.inj (same.symm.trans held))

theorem holder_of_free (free : row.free i = true) : row.holder = none ∨ row.holder = some i := by
  unfold Versions.free at free
  cases holder : row.holder with
  | none => exact .inl rfl
  | some k =>
    rw [holder, Option.all_some, beq_iff_eq] at free
    exact .inr (congrArg some free)

theorem visible_of_free (free : row.free i = true) (other : j ≠ i) : row.visible j = row.committed := by
  apply visible_of_ne
  rcases holder_of_free free with empty | held
  · rw [empty]
    exact fun wrong => Option.some_ne_none j wrong.symm
  · exact fun same => other (Option.some.inj (same.symm.trans held))

@[simp] theorem committed_lock : (row.lock i).committed = row.committed := rfl

@[simp] theorem holder_lock : (row.lock i).holder = some i := rfl

theorem visible_lock (free : row.free i = true) (j : ℕ) : (row.lock i).visible j = row.visible j := by
  by_cases same : j = i
  · subst same
    rw [visible_of_self holder_lock]
    rcases holder_of_free free with empty | held
    · have unwritten : (row.lock j).written = none := if_neg fun held => Option.some_ne_none j (held.symm.trans empty)
      rw [visible_of_ne fun held => Option.some_ne_none j (held.symm.trans empty), unwritten]
      exact Option.none_or
    · have kept : (row.lock j).written = row.written := if_pos held
      rw [visible_of_self held, kept, committed_lock]
  · rw [visible_of_free free same]
    exact visible_of_holder rfl same

@[simp] theorem committed_write : (row.write i value).committed = row.committed := rfl

@[simp] theorem holder_write : (row.write i value).holder = some i := rfl

theorem visible_write_self : (row.write i value).visible i = some value := by
  rw [visible_of_self holder_write]
  rfl

theorem visible_write_of_ne (free : row.free i = true) (other : j ≠ i) : (row.write i value).visible j = row.visible j := by
  rw [visible_of_free free other]
  exact visible_of_holder rfl other

/-- A commit publishes what the transaction saw. -/
theorem committed_commit : (row.commit i).committed = row.visible i := by
  unfold commit
  split
  · rfl
  next other => exact (visible_of_ne other).symm

theorem commit_of_ne (other : row.holder ≠ some i) : row.commit i = row := if_neg other

theorem abort_of_ne (other : row.holder ≠ some i) : row.abort i = row := if_neg other

theorem committed_abort : (row.abort i).committed = row.committed := by
  unfold abort
  split <;> rfl

theorem holder_commit : (row.commit i).holder = if row.holder = some i then none else row.holder := by
  unfold commit
  split <;> rfl

theorem holder_abort : (row.abort i).holder = if row.holder = some i then none else row.holder := by
  unfold abort
  split <;> rfl

theorem visible_abort (other : j ≠ i) : (row.abort i).visible j = row.visible j := by
  by_cases held : row.holder = some i
  · rw [visible_of_holder held other, abort, if_pos held]
    rfl
  · rw [abort_of_ne held]

theorem visible_commit (j : ℕ) :
    (row.commit i).visible j = if row.holder = some i then row.visible i else row.visible j := by
  by_cases held : row.holder = some i
  · rw [if_pos held, commit, if_pos held]
    rfl
  · rw [if_neg held, commit_of_ne held]

end Versions

/-- A table of rows with their versions. -/
abbrev VersionedTable (κ ν : Type*) := FiniteMap κ (Versions ν)

namespace VersionedTable

variable {κ ν : Type*} [DecidableEq κ] (table : VersionedTable κ ν) (i : ℕ) (k : κ)

def row : Versions ν := (table.lookup k).getD .absent

/-- The rows that a statement of the transaction sees. -/
def snapshot : FiniteMap κ ν := filterMapValues (fun versions => versions.visible i) table

/-- The committed rows. -/
def published : FiniteMap κ ν := filterMapValues Versions.committed table

def put (versions : Versions ν) : VersionedTable κ ν := table.insert k versions

def lock : VersionedTable κ ν := table.put k ((table.row k).lock i)

def write (value : ν) : VersionedTable κ ν := table.put k ((table.row k).write i value)

def commit : VersionedTable κ ν := mapValues (fun versions => versions.commit i) table

def abort : VersionedTable κ ν := mapValues (fun versions => versions.abort i) table

variable {table i k} {j k : κ} {value : ν}

theorem lookup_snapshot : (table.snapshot i).lookup k = (table.row k).visible i := by
  rw [snapshot, lookup_filterMapValues, row]
  cases table.lookup k <;> rfl

theorem lookup_published : table.published.lookup k = (table.row k).committed := by
  rw [published, lookup_filterMapValues, row]
  cases table.lookup k <;> rfl

theorem row_put (versions : Versions ν) : (table.put k versions).row j = if j = k then versions else table.row j := by
  unfold row put
  rw [lookup_insert]
  split <;> rfl

theorem row_lock : (table.lock i k).row j = if j = k then (table.row k).lock i else table.row j := row_put _

theorem row_write : (table.write i k value).row j = if j = k then (table.row k).write i value else table.row j := row_put _

theorem row_commit : (table.commit i).row k = (table.row k).commit i := by
  rw [row, row, commit, lookup_mapValues]
  cases table.lookup k with
  | none => exact (Versions.commit_of_ne (Option.some_ne_none i).symm).symm
  | some versions => rfl

theorem row_abort : (table.abort i).row k = (table.row k).abort i := by
  rw [row, row, abort, lookup_mapValues]
  cases table.lookup k with
  | none => exact (Versions.abort_of_ne (Option.some_ne_none i).symm).symm
  | some versions => rfl

theorem row_lock_self : (table.lock i k).row k = (table.row k).lock i := by
  rw [row_lock, if_pos rfl]

theorem row_write_self : (table.write i k value).row k = (table.row k).write i value := by
  rw [row_write, if_pos rfl]

theorem committed_commit : ((table.commit i).row k).committed = (table.row k).visible i := by
  rw [row_commit, Versions.committed_commit]

theorem committed_abort : ((table.abort i).row k).committed = (table.row k).committed := by
  rw [row_abort, Versions.committed_abort]

theorem visible_lock (free : (table.row k).free i = true) (reader : ℕ) :
    ((table.lock i k).row j).visible reader = (table.row j).visible reader := by
  rw [row_lock]
  split_ifs with same
  · rw [same, Versions.visible_lock free]
  · rfl

/-- The transaction sees this version of the row, and it may take the row. -/
structure Reads (table : VersionedTable κ ν) (i : ℕ) (k : κ) (version : Option ν) : Prop where
  seen : (table.row k).visible i = version
  free : (table.row k).free i = true

/-- What one statement of a transaction may do to a table. -/
inductive Act (i : ℕ) (table : VersionedTable κ ν) : VersionedTable κ ν → Prop
  | keep : Act i table table
  | lock (k : κ) (free : (table.row k).free i = true) : Act i table (table.lock i k)
  | write (k : κ) (value : ν) (free : (table.row k).free i = true) : Act i table (table.write i k value)

namespace Act

variable {after : VersionedTable κ ν} (act : Act i table after)
include act

theorem committed (k : κ) : (after.row k).committed = (table.row k).committed := by
  cases act with
  | keep => rfl
  | lock k' free =>
    rw [row_lock]
    split_ifs with same
    · rw [same, Versions.committed_lock]
    · rfl
  | write k' value free =>
    rw [row_write]
    split_ifs with same
    · rw [same, Versions.committed_write]
    · rfl

theorem visible_of_ne {j : ℕ} (other : j ≠ i) (k : κ) : (after.row k).visible j = (table.row k).visible j := by
  cases act with
  | keep => rfl
  | lock k' free => exact visible_lock free j
  | write k' value free =>
    rw [row_write]
    split_ifs with same
    · rw [same, Versions.visible_write_of_ne free other]
    · rfl

/-- A row that somebody else holds is not free, so it is not the one that is touched. -/
theorem row_of_holder {j : ℕ} (held : (table.row k).holder = some j) (other : j ≠ i) : after.row k = table.row k := by
  have untouched : ∀ k', (table.row k').free i = true → k ≠ k' := by
    rintro k' free rfl
    rcases Versions.holder_of_free free with empty | mine
    · exact Option.some_ne_none j (held.symm.trans empty)
    · exact other (Option.some.inj (held.symm.trans mine))
  cases act with
  | keep => rfl
  | lock k' free => rw [row_lock, if_neg (untouched k' free)]
  | write k' value free => rw [row_write, if_neg (untouched k' free)]

end Act

/-- What the transaction sees of each row, against what is committed. -/
def Views (i : ℕ) (differ : κ → Option ν → Option ν → Prop) (table : VersionedTable κ ν) : Prop :=
  ∀ k, differ k (table.row k).committed ((table.row k).visible i)

namespace Views

variable {j : ℕ} {differ differ' : κ → Option ν → Option ν → Prop} (views : table.Views j differ)
include views

/-- A statement of another transaction is harmless. -/
theorem of_act {after : VersionedTable κ ν} (act : Act i table after) (other : j ≠ i) : after.Views j differ := by
  intro k
  rw [act.committed, act.visible_of_ne other]
  exact views k

/-- So is a commit: the rows that were held look the same to everybody now. -/
theorem of_commit (refl : ∀ k value, differ k value value) : (table.commit i).Views j differ := by
  intro k
  rw [row_commit]
  by_cases held : (table.row k).holder = some i
  · rw [Versions.committed_commit, Versions.visible_commit, if_pos held]
    exact refl k _
  · rw [Versions.commit_of_ne held]
    exact views k

theorem of_abort (other : j ≠ i) : (table.abort i).Views j differ := by
  intro k
  rw [row_abort, Versions.committed_abort, Versions.visible_abort other]
  exact views k

variable (weaker : ∀ k before after, differ k before after → differ' k before after)
include weaker

theorem mono : table.Views j differ' := fun k => weaker k _ _ (views k)

theorem lock (free : (table.row k).free j = true) : (table.lock j k).Views j differ' := by
  intro k'
  rw [row_lock]
  split_ifs with same
  · rw [Versions.committed_lock, Versions.visible_lock free, same]
    exact weaker k _ _ (views k)
  · exact weaker k' _ _ (views k')

theorem write (writes : differ' k (table.row k).committed (some value)) : (table.write j k value).Views j differ' := by
  intro k'
  rw [row_write]
  split_ifs with same
  · rw [Versions.committed_write, Versions.visible_write_self, same]
    exact writes
  · exact weaker k' _ _ (views k')

/-- A row that the transaction sees as it is committed, with what it has checked of it, is written over. -/
theorem write_checked {checked : ν → Prop} (current : (table.row k).committed = (table.row k).visible j)
    (held : ∃ row, (table.row k).committed = some row ∧ checked row) (seen : (table.row k).visible j = some old)
    (writes : checked old → differ' k (some old) (some value)) : (table.write j k value).Views j differ' := by
  obtain ⟨row, committed, fact⟩ := held
  cases committed.symm.trans (current.trans seen)
  refine views.write weaker ?_
  rw [committed]
  exact writes fact

end Views

theorem views_of_released (released : ∀ k, (table.row k).holder ≠ some i)
    (refl : ∀ k value, differ k value value) : table.Views i differ := by
  intro k
  rw [Versions.visible_of_ne (released k)]
  exact refl k _

theorem released_commit (k : κ) : ((table.commit i).row k).holder ≠ some i := by
  rw [row_commit, Versions.holder_commit]
  split_ifs with held
  · exact (Option.some_ne_none i).symm
  · exact held

theorem released_abort (k : κ) : ((table.abort i).row k).holder ≠ some i := by
  rw [row_abort, Versions.holder_abort]
  split_ifs with held
  · exact (Option.some_ne_none i).symm
  · exact held

/-- The rows of the others stay as they are when a transaction ends. -/
theorem row_commit_of_holder {j : ℕ} (held : (table.row k).holder = some j) (other : j ≠ i) :
    (table.commit i).row k = table.row k := by
  rw [row_commit]
  exact Versions.commit_of_ne fun mine => other (Option.some.inj (held.symm.trans mine))

theorem row_abort_of_holder {j : ℕ} (held : (table.row k).holder = some j) (other : j ≠ i) :
    (table.abort i).row k = table.row k := by
  rw [row_abort]
  exact Versions.abort_of_ne fun mine => other (Option.some.inj (held.symm.trans mine))

/-- A table of committed rows. -/
def stored (rows : FiniteMap κ ν) : VersionedTable κ ν := mapValues .stored rows

theorem holder_stored (rows : FiniteMap κ ν) (k : κ) : ((stored rows).row k).holder = none := by
  rw [stored, row, lookup_mapValues]
  cases rows.lookup k <;> rfl

end VersionedTable

end RhinoQ
