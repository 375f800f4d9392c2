import RhinoQ.Model.ResourceLease

/-! # What a statement of a lease function does

Every statement that goes through is one of the moves of `Statement`. What a transaction sees of a lease is
the committed row, or the one change that it makes to it.
-/

namespace RhinoQ.Model.ResourceLease

open VersionedTable Shared Txn Versions

open TaskSchema (Timestamp Failure)

variable {s s' : Shared} {i j : ℕ} {txn next : Txn}

namespace Shared

theorem lockLease_eq_moved
    (moved : s.lockLease i key missing continue' = .moved s' result) :
    (s.leases.row key).visible i = none ∧ missing = .moved s' result ∨
      ∃ row, s.leases.Reads i key (some row) ∧ continue' row = .moved s' result := by
  unfold lockLease at moved
  split at moved
  next unseen => exact .inl ⟨unseen, moved⟩
  rename_i row seen
  split_ifs at moved with free
  exact .inr ⟨row, ⟨seen, free⟩, moved⟩

/-- The lease of a row is locked. -/
def lockRow (s : Shared) (i : ℕ) (key : LeaseKey) : Shared := { s with leases := s.leases.lock i key }

/-- The lease of a row is written. -/
def writeRow (s : Shared) (i : ℕ) (key : LeaseKey) (row : LeaseRow) : Shared := { s with leases := s.leases.write i key row }

end Shared

variable (conflict : VariableConflict) (i : ℕ) (s : Shared) in
/-- The statements that go through, with what each has checked. -/
inductive Statement : Txn → Shared → Txn → Prop
  | poolThere : Statement (.acquire a .insertPool) s (.acquire a .lockPool)
  | poolInsert (reads : s.pools.Reads i a.key.pool none) :
    Statement (.acquire a .insertPool) { s with pools := s.pools.write i a.key.pool a.capacity } (.acquire a .lockPool)
  | poolLock (reads : s.pools.Reads i a.key.pool (some a.capacity)) :
    Statement (.acquire a .lockPool) { s with pools := s.pools.lock i a.key.pool } (.acquire a .sweep)
  | sweep : Statement (.acquire a .sweep) s (.acquire a (.expire (s.candidates i a.key.pool a.now)))
  | expireDone : Statement (.acquire a (.expire [])) s (.acquire a .lockOwn)
  | expireMissing (unseen : (s.leases.row key).visible i = none) :
    Statement (.acquire a (.expire (key :: rest))) s (.acquire a (.expire rest))
  | expireRow {row : LeaseRow} (reads : s.leases.Reads i key (some row)) (ranOut : row.ranOut a.now = true) :
    Statement (.acquire a (.expire (key :: rest))) (s.writeRow i key { row with state := .expired })
      (.acquire a (.expire rest))
  | expirePass {row : LeaseRow} (reads : s.leases.Reads i key (some row)) (keeps : row.ranOut a.now = false) :
    Statement (.acquire a (.expire (key :: rest))) (s.lockRow i key) (.acquire a (.expire rest))
  | ownMissing : Statement (.acquire a .lockOwn) s (.acquire a (.sum none))
  | ownReplay {row : LeaseRow} (free : (s.leases.row a.key).free i = true) :
    Statement (.acquire a .lockOwn) (s.lockRow i a.key) (.acquire a (.replayed row))
  | ownLock {row : LeaseRow} (reads : s.leases.Reads i a.key (some row)) :
    Statement (.acquire a .lockOwn) (s.lockRow i a.key) (.acquire a (.sum (some row)))
  | sum (fits : ((used (s.leases.snapshot i) a.key.pool a.now).add a.resources).exceeds a.capacity = false) :
    Statement (.acquire a (.sum existing)) s (.acquire a (.write existing))
  | write (free : (s.leases.row a.key).free i = true) (unseen : existing = none → (s.leases.row a.key).visible i = none) :
    Statement (.acquire a (.write existing)) (s.writeRow i a.key (a.row existing)) (.acquire a (.granted (a.row existing)))
  | renewFind (key : LeaseKey) : Statement (.renew grant span now .find) s (.renew grant span now (.lock key))
  | renewLock {row : LeaseRow} (reads : s.leases.Reads i key (some row)) (holds : row.holds now = true) :
    Statement (.renew row.grant span now (.lock key)) (s.lockRow i key) (.renew row.grant span now (.update key))
  | renewUpdate {row : LeaseRow} (reads : s.leases.Reads i key (some row)) (column : conflict = .useColumn) :
    Statement (.renew grant span now (.update key)) (s.writeRow i key { row with leaseUntil := now + span })
      (.renew grant span now (.ready key { row with leaseUntil := now + span }))
  | releaseFind (key : LeaseKey) : Statement (.release grant now .find) s (.release grant now (.lock key))
  | releaseAgain {row : LeaseRow} (reads : s.leases.Reads i key (some row)) :
    Statement (.release row.grant now (.lock key)) (s.lockRow i key) (.release row.grant now (.ready key row))
  | releaseLock {row : LeaseRow} (reads : s.leases.Reads i key (some row)) :
    Statement (.release row.grant now (.lock key)) (s.lockRow i key) (.release row.grant now (.update key))
  | releaseUpdate {row : LeaseRow} (reads : s.leases.Reads i key (some row)) :
    Statement (.release grant now (.update key)) (s.writeRow i key { row with state := .released, leaseUntil := now })
      (.release grant now (.ready key { row with state := .released, leaseUntil := now }))

variable {key : LeaseKey} {a : Admission} {now : Timestamp} {row : LeaseRow} {checked : LeaseRow → Prop}

theorem named_eq_moved (moved : named conflict column reply = .moved s' phase) :
    conflict = .useColumn ∧ reply = .moved s' phase := by
  cases conflict with
  | error => cases moved
  | useColumn => exact ⟨rfl, moved⟩

theorem acquireResourceLease_statement (moved : acquireResourceLease s i conflict a phase = .moved s' phase') :
    Statement conflict i s (.acquire a phase) s' (.acquire a phase') := by
  cases phase with
  | insertPool =>
    rw [acquireResourceLease] at moved
    replace moved := (named_eq_moved moved).2
    split at moved
    · cases moved
      exact .poolThere
    next unseen =>
      split_ifs at moved with free
      cases moved
      exact .poolInsert ⟨unseen, free⟩
  | lockPool =>
    rw [acquireResourceLease] at moved
    split at moved
    · cases moved
    rename_i capacity seen
    split_ifs at moved with free mismatch exceeds
    cases moved
    rw [not_not] at mismatch
    exact .poolLock ⟨mismatch ▸ seen, free⟩
  | sweep =>
    cases moved
    exact .sweep
  | expire candidates =>
    cases candidates with
    | nil =>
      cases moved
      exact .expireDone
    | cons key rest =>
      rw [acquireResourceLease] at moved
      rcases lockLease_eq_moved moved with ⟨unseen, moved⟩ | ⟨row, reads, moved⟩
      · cases moved
        exact .expireMissing unseen
      · split_ifs at moved with ranOut
        · cases moved
          exact .expireRow reads ranOut
        · cases moved
          exact .expirePass reads (Bool.not_eq_true _ ▸ ranOut)
  | lockOwn =>
    rw [acquireResourceLease] at moved
    rcases lockLease_eq_moved moved with ⟨unseen, moved⟩ | ⟨row, reads, moved⟩
    · cases moved
      exact .ownMissing
    · split_ifs at moved
      · cases moved
        exact .ownReplay reads.free
      · cases moved
        exact .ownLock reads
  | sum existing =>
    rw [acquireResourceLease] at moved
    split_ifs at moved with exceeds
    cases moved
    exact .sum (Bool.not_eq_true _ ▸ exceeds)
  | write existing =>
    rw [acquireResourceLease] at moved
    split_ifs at moved with contested clashes present free
    cases moved
    refine .write free fun absent => ?_
    rw [absent, Option.isNone_none, Bool.true_and, Bool.not_eq_true, Option.isSome_eq_false_iff,
      Option.isNone_iff_eq_none] at present
    exact present
  | granted row => cases moved
  | replayed row => cases moved

theorem renewResourceLease_statement {duration : ℤ}
    (moved : renewResourceLease s i conflict grant duration now phase = .moved s' phase') :
    Statement conflict i s (.renew grant duration now phase) s' (.renew grant duration now phase') := by
  cases phase with
  | find =>
    rw [renewResourceLease] at moved
    split at moved
    · cases moved
    cases moved
    exact .renewFind _
  | lock key =>
    rw [renewResourceLease] at moved
    rcases lockLease_eq_moved moved with ⟨_, moved⟩ | ⟨row, reads, moved⟩
    · cases moved
    · split_ifs at moved with shown
      cases moved
      obtain ⟨rfl, holds⟩ := shown
      exact .renewLock reads holds
  | update key =>
    rw [renewResourceLease] at moved
    obtain ⟨column, moved⟩ := named_eq_moved moved
    rcases lockLease_eq_moved moved with ⟨_, moved⟩ | ⟨row, reads, moved⟩
    · cases moved
    · cases moved
      exact .renewUpdate reads column
  | ready key row => cases moved

theorem releaseResourceLease_statement
    (moved : releaseResourceLease s i grant now phase = .moved s' phase') :
    Statement conflict i s (.release grant now phase) s' (.release grant now phase') := by
  cases phase with
  | find =>
    rw [releaseResourceLease] at moved
    split at moved
    · cases moved
    cases moved
    exact .releaseFind _
  | lock key =>
    rw [releaseResourceLease] at moved
    rcases lockLease_eq_moved moved with ⟨_, moved⟩ | ⟨row, reads, moved⟩
    · cases moved
    · split_ifs at moved with fenced again holds
      · cases moved
        rw [not_not] at fenced
        subst fenced
        exact .releaseAgain reads
      · cases moved
        rw [not_not] at fenced
        subst fenced
        exact .releaseLock reads
  | update key =>
    rw [releaseResourceLease] at moved
    rcases lockLease_eq_moved moved with ⟨_, moved⟩ | ⟨row, reads, moved⟩
    · cases moved
    · cases moved
      exact .releaseUpdate reads
  | ready key row => cases moved

theorem Txn.statement_eq_moved (moved : txn.statement conflict s i = .moved s' next) :
    Statement conflict i s txn s' next := by
  cases txn with
  | idle => cases moved
  | ended answer => cases moved
  | acquire a phase =>
    obtain ⟨phase', ran, rfl⟩ := Reply.map_eq_moved moved
    exact acquireResourceLease_statement ran
  | renew grant duration now phase =>
    obtain ⟨phase', ran, rfl⟩ := Reply.map_eq_moved moved
    exact renewResourceLease_statement ran
  | release grant now phase =>
    obtain ⟨phase', ran, rfl⟩ := Reply.map_eq_moved moved
    exact releaseResourceLease_statement ran

/-- What other transactions can tell of a statement. -/
structure Shared.Acted (i : ℕ) (s s' : Shared) : Prop where
  pools : Act i s.pools s'.pools
  leases : Act i s.leases s'.leases
  grants : s'.grants = s.grants

theorem Statement.acted (ran : Statement conflict i s txn s' next) : s.Acted i s' := by
  cases ran with
  | poolThere | sweep | expireDone | expireMissing | ownMissing | sum | renewFind | releaseFind => exact ⟨.keep, .keep, rfl⟩
  | poolInsert reads => exact ⟨.write _ _ reads.free, .keep, rfl⟩
  | poolLock reads => exact ⟨.lock _ reads.free, .keep, rfl⟩
  | expireRow reads | renewUpdate reads | releaseUpdate reads => exact ⟨.keep, .write _ _ reads.free, rfl⟩
  | write free unseen => exact ⟨.keep, .write _ _ free, rfl⟩
  | expirePass reads | ownLock reads | renewLock reads | releaseAgain reads | releaseLock reads =>
    exact ⟨.keep, .lock _ reads.free, rfl⟩
  | ownReplay free => exact ⟨.keep, .lock _ free, rfl⟩

namespace AcquirePhase

/-- The admission holds its pool. -/
def admitted : AcquirePhase → Bool
  | .insertPool | .lockPool => false
  | _ => true

/-- The row that the admission has found under its own key. -/
def existing : AcquirePhase → Option LeaseRow
  | .sum row | .write row => row
  | _ => none

end AcquirePhase

namespace Txn

/-- The committed version of a lease, and the one that the transaction sees. -/
inductive Pending : Txn → LeaseKey → Option LeaseRow → Option LeaseRow → Prop
  | same (txn : Txn) (key : LeaseKey) (row : Option LeaseRow) : Pending txn key row row
  | expired {a : Admission} {key : LeaseKey} (row : LeaseRow) (admitted : phase.admitted = true) :
    Pending (.acquire a phase) key (some row) (some { row with state := .expired })
  | granted {a : Admission} (row : LeaseRow) (before : Option LeaseRow) : Pending
    (.acquire a (.granted row)) a.key before (some row)
  | renewed {duration : ℤ} {now : Timestamp} {key : LeaseKey} (row row' : LeaseRow) (active : row.state = .active) :
    Pending (.renew grant duration now (.ready key row')) key (some row) (some { row with leaseUntil := now + duration })
  | released {now : Timestamp} {key : LeaseKey} (row row' : LeaseRow) :
    Pending (.release grant now (.ready key row')) key (some row) (some { row with state := .released, leaseUntil := now })

/-- The committed version of a pool, and the one that the transaction sees. A pool is written once. -/
inductive PendingPool : Option Resources → Option Resources → Prop
  | same (capacity : Option Resources) : PendingPool capacity capacity
  | inserted (capacity : Resources) : PendingPool none (some capacity)

/-- A transaction that has not begun to write leases. -/
def quiet : Txn → Bool
  | .acquire _ phase => !phase.admitted
  | .renew _ _ _ (.ready _ _) | .release _ _ (.ready _ _) => false
  | _ => true

theorem Pending.eq_of_quiet (pending : txn.Pending key before after) (quiet : txn.quiet = true) : before = after := by
  cases pending with
  | same => rfl
  | expired row admitted =>
    rw [Txn.quiet, admitted] at quiet
    cases quiet
  | granted | renewed | released => cases quiet

theorem Pending.of_quiet (quiet : txn.quiet = true) (key : LeaseKey) (before after : Option LeaseRow)
    (pending : txn.Pending key before after) : next.Pending key before after := by
  rw [pending.eq_of_quiet quiet]
  exact .same ..

/-- An admission goes on with the leases that it has expired. -/
theorem Pending.of_admitted (ungranted : ∀ row, phase ≠ .granted row)
    (admitted : phase'.admitted = true) (key : LeaseKey) (before after : Option LeaseRow)
    (pending : (acquire a phase).Pending key before after) : (acquire a phase').Pending key before after := by
  cases pending with
  | same => exact .same ..
  | expired row _ => exact .expired row admitted
  | granted row => exact absurd rfl (ungranted row)

end Txn

/-- A committed lease that the transaction holds, with a property that it has checked. -/
def Shared.Held (s : Shared) (i : ℕ) (key : LeaseKey) (checked : LeaseRow → Prop) : Prop :=
  (s.leases.row key).holder = some i ∧ ∃ row, (s.leases.row key).committed = some row ∧ checked row

/-- The lease that the admission has written under its own key, with the next epoch. -/
def Shared.Granted (s : Shared) (i : ℕ) (key : LeaseKey) (row : LeaseRow) : Prop :=
  (s.leases.row key).holder = some i ∧ (s.leases.row key).visible i = some row ∧
    row.grant.epoch = (s.leases.row key).committed.elim 1 fun old => old.grant.epoch + 1

/-- What a transaction has locked. -/
def Txn.Holds (s : Shared) (i : ℕ) : Txn → Prop
  | .acquire a phase =>
    (phase.admitted = true →
      (s.pools.row a.key.pool).holder = some i ∧ (s.pools.row a.key.pool).visible i = some a.capacity) ∧
      (∀ row, phase.existing = some row → s.Held i a.key (·.grant = row.grant)) ∧
      ∀ row, phase = .granted row → s.Granted i a.key row
  | .renew grant _ _ (.update key) => s.Held i key fun row => row.grant = grant ∧ row.state = .active
  | .renew grant _ _ (.ready key _) | .release grant _ (.update key) | .release grant _ (.ready key _) =>
    s.Held i key (·.grant = grant)
  | _ => True

/-- What a transaction relies on. -/
structure Txn.Sound (i : ℕ) (s : Shared) (txn : Txn) : Prop where
  leases : s.leases.Views i txn.Pending
  pools : s.pools.Views i fun _ => PendingPool
  holds : txn.Holds s i

theorem Txn.Holds.of_rows (holds : txn.Holds s j)
    (leases : ∀ key, (s.leases.row key).holder = some j → s'.leases.row key = s.leases.row key)
    (pools : ∀ key, (s.pools.row key).holder = some j → s'.pools.row key = s.pools.row key) : txn.Holds s' j := by
  have held : ∀ {key : LeaseKey} {checked : LeaseRow → Prop}, s.Held j key checked → s'.Held j key checked := by
    intro key checked held
    rw [Held, leases key held.1]
    exact held
  unfold Holds at holds ⊢
  split
  · refine ⟨fun admitted => ?_, fun row found => held (holds.2.1 row found), fun row granted => ?_⟩
    · rw [pools _ (holds.1 admitted).1]
      exact holds.1 admitted
    · rw [Granted, leases _ (holds.2.2 row granted).1]
      exact holds.2.2 row granted
  · exact held holds
  · exact held holds
  · exact held holds
  · exact held holds
  · trivial

namespace Txn.Sound

theorem of_ended {answer : Answer} (leases : ∀ key, (s.leases.row key).holder ≠ some i)
    (pools : ∀ key, (s.pools.row key).holder ≠ some i) : (ended answer).Sound i s where
  leases := views_of_released leases (.same _)
  pools := views_of_released pools fun _ => .same
  holds := trivial

variable (sound : txn.Sound j s)
include sound

theorem of_acted (acted : s.Acted i s') (other : j ≠ i) : txn.Sound j s' where
  leases := sound.leases.of_act acted.leases other
  pools := sound.pools.of_act acted.pools other
  holds := sound.holds.of_rows (fun _ held => acted.leases.row_of_holder held other) fun _ held =>
    acted.pools.row_of_holder held other

theorem of_commit (other : j ≠ i) : txn.Sound j (s.commit i) where
  leases := sound.leases.of_commit (.same _)
  pools := sound.pools.of_commit fun _ => .same
  holds := sound.holds.of_rows (fun _ held => row_commit_of_holder held other) fun _ held =>
    row_commit_of_holder held other

theorem of_abort (other : j ≠ i) : txn.Sound j (s.abort i) where
  leases := sound.leases.of_abort other
  pools := sound.pools.of_abort other
  holds := sound.holds.of_rows (fun _ held => row_abort_of_holder held other) fun _ held =>
    row_abort_of_holder held other

theorem of_tables (leases : s'.leases = s.leases) (pools : s'.pools = s.pools) : txn.Sound j s' where
  leases := leases ▸ sound.leases
  pools := pools ▸ sound.pools
  holds := sound.holds.of_rows (fun _ _ => by rw [leases]) fun _ _ => by rw [pools]

theorem committed_eq (quiet : txn.quiet = true) (key : LeaseKey) :
    (s.leases.row key).committed = (s.leases.row key).visible j :=
  (sound.leases key).eq_of_quiet quiet

end Txn.Sound

theorem LeaseRow.active_of_ranOut (ranOut : row.ranOut now = true) : row.state = .active := by
  rw [LeaseRow.ranOut, Bool.and_eq_true, beq_iff_eq] at ranOut
  exact ranOut.1

theorem LeaseRow.active_of_holds (holds : row.holds now = true) : row.state = .active := by
  rw [LeaseRow.holds, Bool.and_eq_true, beq_iff_eq] at holds
  exact holds.1

theorem Txn.Sound.held_lock (committed : (s.leases.row key).committed = some row)
    (fact : checked row) : (s.lockRow i key).Held i key checked := by
  have locked : (s.lockRow i key).leases.row key = (s.leases.row key).lock i := row_lock_self
  exact ⟨by rw [locked, holder_lock], row, by rw [locked, committed_lock, committed], fact⟩

theorem Shared.Held.write (held : s.Held i key checked)
    (weaken : ∀ row, checked row → weaker row) : (s.writeRow i key row).Held i key weaker := by
  obtain ⟨_, old, committed, fact⟩ := held
  have written : (s.writeRow i key row).leases.row key = (s.leases.row key).write i row := row_write_self
  exact ⟨by rw [written, holder_write], old, by rw [written, committed_write, committed], weaken old fact⟩

/-- The epoch of a new grant is the next one of its row. -/
theorem granted_write (sound : (acquire a (.write existing)).Sound i s)
    (unseen : existing = none → (s.leases.row a.key).visible i = none) :
    (s.writeRow i a.key (a.row existing)).Granted i a.key (a.row existing) := by
  have written : (s.writeRow i a.key (a.row existing)).leases.row a.key = (s.leases.row a.key).write i (a.row existing) :=
    row_write_self
  rw [Granted, written, visible_write_self, committed_write]
  refine ⟨holder_write, rfl, ?_⟩
  cases existing with
  | none =>
    have pending := sound.leases a.key
    rw [unseen rfl] at pending
    generalize (s.leases.row a.key).committed = committed at pending ⊢
    cases pending
    rfl
  | some row =>
    obtain ⟨_, old, committed, same⟩ := sound.holds.2.1 row rfl
    rw [committed]
    exact congrArg (·.epoch + 1) same.symm

section
variable (ran : Statement conflict i s txn s' next) (sound : txn.Sound i s)
include ran sound

theorem Statement.views_leases : s'.leases.Views i next.Pending := by
  cases ran with
  | poolThere | poolInsert | poolLock | renewFind | releaseFind => exact sound.leases.mono (Pending.of_quiet rfl)
  | sweep | expireDone | expireMissing | ownMissing | sum =>
    exact sound.leases.mono (Pending.of_admitted (nofun) rfl)
  | expirePass reads | ownLock reads =>
    exact sound.leases.lock (Pending.of_admitted (nofun) rfl) reads.free
  | ownReplay free => exact sound.leases.lock (Pending.of_admitted (nofun) rfl) free
  | renewLock reads | releaseAgain reads | releaseLock reads => exact sound.leases.lock (Pending.of_quiet rfl) reads.free
  | @expireRow key a rest row reads ranOut =>
    refine sound.leases.write (Pending.of_admitted (nofun) rfl) ?_
    have pending := sound.leases key
    rw [reads.seen] at pending
    generalize (s.leases.row key).committed = committed at pending ⊢
    cases pending with
    | same => exact .expired row rfl
    | expired old _ => cases LeaseRow.active_of_ranOut ranOut
  | write free unseen =>
    exact sound.leases.write (Pending.of_admitted (nofun) rfl) (.granted _ _)
  | renewUpdate reads =>
    refine sound.leases.write_checked (Pending.of_quiet rfl) (sound.committed_eq rfl _) sound.holds.2 reads.seen ?_
    exact fun checked => .renewed _ _ checked.2
  | releaseUpdate reads =>
    refine sound.leases.write_checked (Pending.of_quiet rfl) (sound.committed_eq rfl _) sound.holds.2 reads.seen ?_
    exact fun _ => .released _ _

theorem Statement.views_pools : s'.pools.Views i fun _ => PendingPool := by
  cases ran with
  | @poolInsert a reads =>
    refine sound.pools.write (fun _ _ _ pending => pending) ?_
    have pending := sound.pools a.key.pool
    rw [reads.seen] at pending
    generalize (s.pools.row a.key.pool).committed = committed at pending ⊢
    cases pending
    exact .inserted a.capacity
  | poolLock reads => exact sound.pools.lock (fun _ _ _ pending => pending) reads.free
  | _ => exact sound.pools

theorem Statement.holds : next.Holds s' i := by
  have nothing : ∀ {key : LeaseKey} {row : LeaseRow}, none = some row → s'.Held i key (·.grant = row.grant) := by
    intro key row found
    cases found
  cases ran with
  | poolThere | poolInsert => exact ⟨nofun, fun _ => nothing, nofun⟩
  | poolLock reads =>
    refine ⟨fun _ => ?_, fun _ => nothing, nofun⟩
    rw [row_lock_self, Versions.visible_lock reads.free]
    exact ⟨holder_lock, reads.seen⟩
  | sweep | expireDone | expireMissing | expireRow | expirePass | ownMissing | ownReplay =>
    exact ⟨fun _ => sound.holds.1 rfl, fun _ => nothing, nofun⟩
  | sum fits => exact ⟨fun _ => sound.holds.1 rfl, sound.holds.2.1, nofun⟩
  | write free unseen =>
    refine ⟨fun _ => sound.holds.1 rfl, fun _ => nothing, fun row same => ?_⟩
    cases same
    exact granted_write sound unseen
  | @ownLock a row reads =>
    refine ⟨fun _ => sound.holds.1 rfl, fun row' found => ?_, nofun⟩
    cases found
    -- the sweep may have expired the lease, which keeps its grant
    have pending := sound.leases a.key
    rw [reads.seen] at pending
    cases committed : (s.leases.row a.key).committed with
    | none =>
      rw [committed] at pending
      cases pending
    | some old =>
      rw [committed] at pending
      refine Sound.held_lock committed ?_
      cases pending with
      | same => rfl
      | expired => rfl
  | renewLock reads holds =>
    exact Sound.held_lock ((sound.committed_eq rfl _).trans reads.seen) ⟨rfl, LeaseRow.active_of_holds holds⟩
  | releaseAgain reads | releaseLock reads => exact Sound.held_lock ((sound.committed_eq rfl _).trans reads.seen) rfl
  | renewUpdate reads => exact Held.write sound.holds fun _ fact => fact.1
  | releaseUpdate reads => exact Held.write sound.holds fun _ fact => fact
  | renewFind | releaseFind => trivial

end

theorem Statement.sound (ran : Statement conflict i s txn s' next) (sound : txn.Sound i s) : next.Sound i s' :=
  ⟨ran.views_leases sound, ran.views_pools sound, ran.holds sound⟩

variable {server : Server} {p q : Pool Shared Txn} {event : Event}

variable (server : Server) (p : Pool Shared Txn) in
/-- The steps of the sessions. -/
inductive Moved : Event → Pool Shared Txn → Prop
  | tick (now : Timestamp) : Moved (.tick now) (p.update { p.shared with clock := now })
  | start (i : ℕ) (call : Call) (resting : (p.thread i).resting = true) :
    Moved (.start i call) (p.move i p.shared (call.start server p.shared.clock))
  | statement {i : ℕ} {next : Txn} (ran : Statement server.conflict i p.shared (p.thread i) after next) :
    Moved (.statement i) (p.move i after next)
  | raise (i : ℕ) (failure : Failure) : Moved (.statement i) (p.move i (p.shared.abort i) (.ended (.thrown failure)))
  | commit {i : ℕ} {answer : Answer} (ready : (p.thread i).answer = some answer) :
    Moved (.commit i) (p.move i ((p.thread i).record (p.shared.commit i)) (.ended answer))
  | rollback (i : ℕ) : Moved (.rollback i) (p.move i (p.shared.abort i) (.ended .lost))

theorem step_moved (stepped : step server p event = some q) : Moved server p event q := by
  cases event with
  | tick now =>
    rw [step] at stepped
    split_ifs at stepped
    cases stepped
    exact .tick now
  | start i call =>
    rw [step] at stepped
    split_ifs at stepped with resting
    cases stepped
    exact .start i call resting
  | statement i =>
    rw [step] at stepped
    split at stepped
    · cases stepped
    next failure _ =>
      cases stepped
      exact .raise i failure
    next after next ran =>
      cases stepped
      exact .statement (statement_eq_moved ran)
  | commit i =>
    rw [step] at stepped
    split at stepped
    · cases stepped
    rename_i answer ready
    cases stepped
    exact .commit ready
  | rollback i =>
    rw [step] at stepped
    split_ifs at stepped
    cases stepped
    exact .rollback i

theorem record_leases : (txn.record s).leases = s.leases := by
  unfold record
  split <;> rfl

theorem record_pools : (txn.record s).pools = s.pools := by
  unfold record
  split <;> rfl

theorem Call.start_cases {call : Call} {motive : Txn → Prop} (ended : ∀ answer, motive (.ended answer))
    (acquire : ∀ a, motive (.acquire a .insertPool)) (renew : ∀ grant duration, motive (.renew grant duration now .find))
    (release : ∀ grant, motive (.release grant now .find)) : motive (call.start server now) := by
  -- `delta`, since the equations of `Call.start` are slow to prove
  cases call with
  | acquire request =>
    delta Call.start
    dsimp only
    split
    · exact ended _
    · exact acquire _
  | renew id owner epoch leaseMs =>
    delta Call.start
    dsimp only
    split
    · exact renew _ _
    · exact ended _
  | release id owner epoch =>
    delta Call.start
    dsimp only
    split
    · exact release _
    · exact ended _

theorem sound_of_start (call : Call) (now : Timestamp) (sound : txn.Sound i s) (resting : txn.resting = true) :
    (call.start server now).Sound i s := by
  have quiet : txn.quiet = true := by
    cases txn with
    | idle | ended => rfl
    | acquire | renew | release => cases resting
  have views : ∀ next : Txn, s.leases.Views i next.Pending := fun next => sound.leases.mono (Pending.of_quiet quiet)
  apply Call.start_cases
  · exact fun _ => ⟨views _, sound.pools, trivial⟩
  · exact fun _ => ⟨views _, sound.pools, nofun, fun _ found => absurd found.symm (Option.some_ne_none _), nofun⟩
  · exact fun _ _ => ⟨views _, sound.pools, trivial⟩
  · exact fun _ => ⟨views _, sound.pools, trivial⟩

theorem Moved.sound (moved : Moved server p event q) (sound : ∀ j, (p.thread j).Sound j p.shared) (j : ℕ) :
    (q.thread j).Sound j q.shared := by
  cases moved with
  | tick now => exact (sound j).of_tables rfl rfl
  | start i call resting =>
    exact Pool.forall_move_index Sound sound (sound_of_start call _ (sound i) resting) (fun _ _ kept => kept) j
  | statement ran =>
    exact Pool.forall_move_index Sound sound (ran.sound (sound _)) (fun _ other kept => kept.of_acted ran.acted other) j
  | raise | rollback =>
    exact Pool.forall_move_index Sound sound (.of_ended released_abort released_abort)
      (fun _ other kept => kept.of_abort other) j
  | @commit i answer ready =>
    have ended : (ended answer).Sound i (p.shared.commit i) :=
      .of_ended released_commit released_commit
    exact Pool.forall_move_index Sound sound (ended.of_tables record_leases record_pools)
      (fun _ other kept => (kept.of_commit other).of_tables record_leases record_pools) j

theorem sound_start (j : ℕ) : idle.Sound j (machine server).start.shared where
  leases := views_of_released (fun _ => (Option.some_ne_none j).symm) (.same _)
  pools := views_of_released (fun _ => (Option.some_ne_none j).symm) fun _ => .same
  holds := trivial

end RhinoQ.Model.ResourceLease
