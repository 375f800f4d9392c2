import RhinoQ.Proofs.ResourceLease

/-! # The capacity of a pool and the fence of a lease

Renewals and releases succeed for the last grant of their row only. For the capacity all active leases count:
admissions alone add to them, and those of one pool wait for each other. An admission has expired all leases
that have run out, unless a renewal commits in between and leaves one.
-/

namespace RhinoQ.Model.ResourceLease

open Pool VersionedTable Machine

open TaskSchema (Timestamp Failure)

variable {s s' : Shared} {i j : ℕ} {txn next : Txn} {server : Server} {p q : Pool Shared Txn} {event : Event}

section Fence

/-- The last grant of a row on the record. All grants of the row before it have a smaller epoch. -/
def Latest (grants : List (LeaseKey × Grant)) (key : LeaseKey) (grant : Grant) : Prop :=
  ∃ earlier later, grants = earlier ++ (key, grant) :: later ∧ (∀ x ∈ earlier, x.1 = key → x.2.epoch < grant.epoch) ∧
    ∀ x ∈ later, x.1 ≠ key

variable {grants : List (LeaseKey × Grant)} {key : LeaseKey} {grant : Grant}

/-- What the record tells about a row: its last grant, or that there was none. -/
def Recorded (grants : List (LeaseKey × Grant)) (key : LeaseKey) (shown : Option Grant) : Prop :=
  shown.elim (∀ x ∈ grants, x.1 ≠ key) (Latest grants key)

section
variable {shown : Option Grant} (recorded : Recorded grants key shown)
include recorded

theorem Recorded.append_other (grant' : Grant) (different : other ≠ key) :
    Recorded (grants ++ [(other, grant')]) key shown := by
  have absent {x : LeaseKey × Grant} {later : List (LeaseKey × Grant)} (none : ∀ x ∈ later, x.1 ≠ key)
      (member : x ∈ later ++ [(other, grant')]) : x.1 ≠ key := by
    rcases List.mem_append.mp member with old | new
    · exact none x old
    · rw [List.mem_singleton.mp new]
      exact different
  cases shown with
  | none => exact fun x => absent recorded
  | some grant =>
    obtain ⟨earlier, later, rfl, below, none⟩ := recorded
    exact ⟨earlier, later ++ [(other, grant')], by rw [List.append_assoc, List.cons_append], below, fun x => absent none⟩

theorem Recorded.append_own (next : ∀ old, shown = some old → old.epoch < grant.epoch) :
    Latest (grants ++ [(key, grant)]) key grant := by
  refine ⟨_, [], rfl, fun x member same => ?_, fun x member => absurd member List.not_mem_nil⟩
  cases shown with
  | none => exact absurd same (recorded x member)
  | some old =>
    obtain ⟨earlier, later, rfl, below, none⟩ := recorded
    rcases List.mem_append.mp member with before | rest
    · exact (below x before same).trans (next old rfl)
    · rcases List.mem_cons.mp rest with rfl | after
      · exact next _ rfl
      · exact absurd same (none x after)

end

/-- Every lease is under the last grant of its row. -/
def Fenced (s : Shared) : Prop := ∀ key, Recorded s.grants key ((s.leases.row key).committed.map LeaseRow.grant)

/-- Only an admission changes the grant of a row, and only under its own key. -/
theorem Txn.Pending.grant_eq (pending : txn.Pending key before after)
    (other : ∀ a row, txn = .acquire a (.granted row) → key ≠ a.key) :
    before.map LeaseRow.grant = after.map LeaseRow.grant := by
  cases pending with
  | same | expired | renewed | released => rfl
  | granted row => exact absurd rfl (other _ row rfl)

theorem record_grants : (txn.record s).grants = s.grants ∧ (∀ a row, txn ≠ .acquire a (.granted row)) ∨
    ∃ a row, txn = .acquire a (.granted row) ∧ (txn.record s).grants = s.grants ++ [(a.key, row.grant)] := by
  unfold Txn.record
  split
  · exact .inr ⟨_, _, rfl, rfl⟩
  next other => exact .inl ⟨rfl, other⟩

theorem committed_commit (key : LeaseKey) : ((s.commit i).leases.row key).committed = (s.leases.row key).visible i := by
  rw [Shared.commit, VersionedTable.committed_commit]

theorem Fenced.commit (fenced : Fenced s) (sound : txn.Sound i s) : Fenced (txn.record (s.commit i)) := by
  intro key
  rw [record_leases, committed_commit]
  rcases @record_grants (s.commit i) txn with ⟨same, other⟩ | ⟨a, row, rfl, added⟩
  · rw [same, ← (sound.leases key).grant_eq fun a row granted => absurd granted (other a row)]
    exact fenced key
  · obtain ⟨_, own, epoch⟩ := sound.holds.2.2 row rfl
    rw [added]
    by_cases mine : key = a.key
    · subst mine
      rw [own]
      refine (fenced a.key).append_own fun old stored => ?_
      obtain ⟨row', committed, rfl⟩ := Option.map_eq_some_iff.mp stored
      rw [committed, Option.elim_some] at epoch
      omega
    · rw [← (sound.leases key).grant_eq fun _ _ same => (Txn.acquire.inj same).1 ▸ mine]
      exact (fenced key).append_other row.grant (Ne.symm mine)

theorem Moved.fenced (moved : Moved server p event q) (sound : ∀ j, (p.thread j).Sound j p.shared)
    (fenced : Fenced p.shared) :
    Fenced q.shared := by
  cases moved with
  | tick | start => exact fenced
  | statement ran =>
    intro key
    rw [move_shared, ran.acted.grants, ran.acted.leases.committed]
    exact fenced key
  | raise | rollback =>
    intro key
    rw [move_shared, Shared.abort, committed_abort]
    exact fenced key
  | commit ready => exact fenced.commit (sound _)

end Fence

section Capacity

open FiniteMap

variable {row : LeaseRow} {phase : AcquirePhase} {now : Timestamp} {existing : Option LeaseRow}

/-- What a lease takes of a pool while it is active. -/
def active (pool : PoolKey) (d : Dimension) (key : LeaseKey) (row : LeaseRow) : ℕ :=
  if key.pool = pool && row.state == .active then row.resources.get d else 0

def weigh (pool : PoolKey) (d : Dimension) (key : LeaseKey) (row : Option LeaseRow) : ℕ := row.elim 0 (active pool d key)

/-- What the active leases of a pool take, as committed. -/
def Shared.load (s : Shared) (pool : PoolKey) (d : Dimension) : ℕ := total (active pool d) s.leases.published

variable {pool : PoolKey} {d : Dimension} {key : LeaseKey} {before after : Option LeaseRow} {limit : Resources}
    {a : Admission}

theorem share_published : share (active pool d) s.leases.published key = weigh pool d key (s.leases.row key).committed := by
  rw [share, lookup_published, weigh]

theorem share_snapshot : share (active pool d) (s.leases.snapshot i) key = weigh pool d key
    ((s.leases.row key).visible i) := by
  rw [share, lookup_snapshot, weigh]

theorem weigh_of_ne (other : key.pool ≠ pool) : weigh pool d key after = 0 := by
  cases after with
  | none => rfl
  | some row =>
    simp only [weigh, Option.elim_some, active, other, decide_false, Bool.false_and, Bool.false_eq_true, ↓reduceIte]

theorem weigh_of_inactive (inactive : row.state ≠ .active) : weigh pool d key (some row) = 0 := by
  have state : (row.state == .active) = false := beq_eq_false_iff_ne.mpr inactive
  simp only [weigh, Option.elim_some, active, state, Bool.and_false, Bool.false_eq_true, ↓reduceIte]

/-- The pool to which the transaction has added a lease. -/
def Txn.adds : Txn → Option PoolKey
  | .acquire a (.granted _) => some a.key.pool
  | _ => none

/-- Only an admission adds to a pool. -/
theorem Txn.Pending.weigh_le (pending : txn.Pending key before after) (adds : txn.adds ≠ some pool) :
    weigh pool d key after ≤ weigh pool d key before := by
  cases pending with
  | same => exact le_rfl
  | expired row admitted => exact (weigh_of_inactive LeaseState.noConfusion).trans_le (Nat.zero_le _)
  | granted row before => exact (weigh_of_ne fun same => adds (congrArg some same)).trans_le (Nat.zero_le _)
  | renewed row row' active => exact le_rfl
  | released row row' => exact (weigh_of_inactive LeaseState.noConfusion).trans_le (Nat.zero_le _)

theorem load_le (below : ∀ key, weigh pool d key (s'.leases.row key).committed ≤ weigh pool d key
    (s.leases.row key).committed) :
    s'.load pool d ≤ s.load pool d := by
  refine total_le_total fun key => ?_
  rw [share_published, share_published]
  exact below key

theorem Shared.Acted.load_le (acted : s.Acted i s') : s'.load pool d ≤ s.load pool d :=
  ResourceLease.load_le fun key => (congrArg (weigh pool d key) (acted.leases.committed key)).le

/-- The candidates of a sweep that are left, from its snapshot until the sum. -/
def AcquirePhase.remaining : AcquirePhase → Option (List LeaseKey)
  | .expire candidates => some candidates
  | .lockOwn | .sum _ => some []
  | _ => none

/-- What an admission relies on. -/
structure Admitted (i : ℕ) (s : Shared) (a : Admission) (phase : AcquirePhase) : Prop where
  base : phase.admitted = true → ∀ d, s.load a.key.pool d ≤ a.capacity.get d
  swept : ∀ candidates, phase.remaining = some candidates → ∀ key row, key.pool = a.key.pool →
    (s.leases.row key).visible i = some row → row.ranOut a.now = true → key ∈ candidates
  room : ∀ existing, phase = .write existing → ∀ d,
    total (except (active a.key.pool d) a.key) (s.leases.snapshot i) + a.resources.get d ≤ a.capacity.get d
  full : ∀ row, phase = .granted row → ∀ d, total (active a.key.pool d) (s.leases.snapshot i) ≤ a.capacity.get d

def Txn.Fits (i : ℕ) (s : Shared) (txn : Txn) : Prop := ∀ a phase, txn = .acquire a phase → Admitted i s a phase

/-- An admission that waits for its pool relies on nothing. -/
theorem admitted_of_waiting (waiting : phase.admitted = false) : Admitted i s a phase where
  base admitted := Bool.noConfusion (admitted.symm.trans waiting)
  swept candidates remaining := by
    cases phase with
    | insertPool | lockPool => cases remaining
    | sweep | expire | lockOwn | sum | write | granted | replayed => cases waiting
  room existing same := by
    subst same
    cases waiting
  full row same := by
    subst same
    cases waiting

/-- A change that adds nothing to the pool and leaves no lease that has run out. -/
theorem Admitted.mono (admitted : Admitted i s a phase)
    (committed : ∀ d key, weigh a.key.pool d key (s'.leases.row key).committed ≤ weigh a.key.pool d key
      (s.leases.row key).committed)
    (visible : ∀ d key, weigh a.key.pool d key ((s'.leases.row key).visible i) ≤ weigh a.key.pool d key
      ((s.leases.row key).visible i))
    (ranOut : phase.remaining ≠ none → ∀ key row, key.pool = a.key.pool → (s'.leases.row key).visible i = some row →
      row.ranOut a.now = true → (s.leases.row key).visible i = some row) : Admitted i s' a phase where
  base isAdmitted d := (load_le (committed d)).trans (admitted.base isAdmitted d)
  swept candidates remaining key row inPool seen ran := by
    have left : phase.remaining ≠ none := fun nothing => Option.some_ne_none candidates (remaining.symm.trans nothing)
    exact admitted.swept candidates remaining key row inPool (ranOut left key row inPool seen ran) ran
  room existing same d := by
    refine le_trans (Nat.add_le_add_right (total_le_total fun key => ?_) _) (admitted.room existing same d)
    rw [share_except, share_except, share_snapshot, share_snapshot]
    split_ifs
    · exact le_rfl
    · exact visible d key
  full row same d := by
    refine le_trans (total_le_total fun key => ?_) (admitted.full row same d)
    rw [share_snapshot, share_snapshot]
    exact visible d key

section
variable {a : Admission} (admitted : Admitted j s a phase)
include admitted

theorem Admitted.of_same (committed : ∀ key, (s'.leases.row key).committed = (s.leases.row key).committed)
    (visible : ∀ key, (s'.leases.row key).visible j = (s.leases.row key).visible j) : Admitted j s' a phase := by
  refine admitted.mono (fun d key => ?_) (fun d key => ?_) fun _ key row _ seen _ => ?_
  · rw [committed]
  · rw [visible]
  · rw [← visible, seen]

theorem Admitted.of_abort (other : j ≠ i) : Admitted j (s.abort i) a phase := by
  refine admitted.of_same (fun key => ?_) fun key => ?_
  · rw [Shared.abort, committed_abort]
  · rw [Shared.abort, row_abort, Versions.visible_abort other]

/-- The commit of a transaction that adds nothing to the pool. -/
theorem Admitted.of_commit (sound : txn.Sound i s) (other : j ≠ i) (adds : txn.adds ≠ some a.key.pool)
    (inOrder : phase.remaining ≠ none → ∀ grant duration now key row, txn = .renew grant duration now (.ready key row) →
      key.pool = a.key.pool → a.now < now + duration) : Admitted j (s.commit i) a phase := by
  have row : ∀ key, (s.commit i).leases.row key = (s.leases.row key).commit i := fun _ => row_commit
  refine admitted.mono (fun d key => ?_) (fun d key => ?_) fun left key found inPool seen ran => ?_
  · rw [row, Versions.committed_commit]
    exact (sound.leases key).weigh_le adds
  · rw [row, Versions.visible_commit]
    split_ifs with held
    · rw [Versions.visible_of_holder held other]
      exact (sound.leases key).weigh_le adds
    · exact le_rfl
  · rw [row, Versions.visible_commit] at seen
    split_ifs at seen with held
    · rw [Versions.visible_of_holder held other]
      have pending := sound.leases key
      rw [seen] at pending
      generalize (s.leases.row key).committed = committed at pending ⊢
      cases pending with
      | same => rfl
      | expired | released => cases LeaseRow.active_of_ranOut ran
      | granted => exact absurd (congrArg some inPool) adds
      | renewed old shown active =>
        have later := inOrder left _ _ _ _ _ rfl inPool
        rw [LeaseRow.ranOut, Bool.and_eq_true, decide_eq_true_eq] at ran
        exact absurd ran.2 (not_le.mpr later)
    · exact seen

end

/-- The committed leases fit into their pools, and there is none without a pool. -/
structure Bounded (s : Shared) : Prop where
  capacity : ∀ pool limit, (s.pools.row pool).committed = some limit → ∀ d, s.load pool d ≤ limit.get d
  founded : ∀ pool, (s.pools.row pool).committed = none → ∀ key row, (s.leases.row key).committed = some row →
    key.pool ≠ pool

/-- A pool that is not committed has no leases. -/
theorem Bounded.load_eq_zero (bounded : Bounded s) (absent : (s.pools.row pool).committed = none) : s.load pool d = 0 := by
  have nothing : s.load pool d ≤ total (active pool d) (∅ : FiniteMap LeaseKey LeaseRow) := by
    refine total_le_total fun key => ?_
    rw [share_published]
    cases committed : (s.leases.row key).committed with
    | none => exact Nat.zero_le _
    | some row => exact (weigh_of_ne (bounded.founded pool absent key row committed)).trans_le (Nat.zero_le _)
  exact Nat.le_zero.mp nothing

/-- The pool that an admission has locked has room for what is committed. -/
theorem Bounded.load_le_visible (bounded : Bounded s) (sound : txn.Sound i s)
    (seen : (s.pools.row pool).visible i = some limit) : s.load pool d ≤ limit.get d := by
  have pending := sound.pools pool
  rw [seen] at pending
  cases committed : (s.pools.row pool).committed with
  | none =>
    rw [bounded.load_eq_zero committed]
    exact Nat.zero_le _
  | some old =>
    rw [committed] at pending
    cases pending
    exact bounded.capacity pool limit committed d

theorem Resources.get_add_le {a b : Resources} (fits : (a.add b).exceeds limit = false) (d : Dimension) :
    a.get d + b.get d ≤ limit.get d := by
  simp only [Resources.exceeds, Resources.add, Bool.or_eq_false_iff] at fits
  obtain ⟨⟨⟨cpu, memory⟩, disk⟩, network⟩ := fits
  cases d with
  | cpu => exact Nat.le_of_not_lt (of_decide_eq_false cpu)
  | memory => exact Nat.le_of_not_lt (of_decide_eq_false memory)
  | disk => exact Nat.le_of_not_lt (of_decide_eq_false disk)
  | network => exact Nat.le_of_not_lt (of_decide_eq_false network)

theorem used_get : (used leases pool now).get d = total (held pool now d) leases := by
  cases d <;> rfl

theorem mem_candidates (inPool : key.pool = pool) (seen : (s.leases.row key).visible i = some row)
    (ranOut : row.ranOut now = true) : key ∈ s.candidates i pool now := by
  rw [← lookup_snapshot] at seen
  refine List.mem_map.mpr ⟨⟨key, row⟩, List.mem_filter.mpr ⟨mem_entries_iff.mpr seen, ?_⟩, rfl⟩
  rw [Bool.and_eq_true, beq_iff_eq]
  exact ⟨inPool, ranOut⟩

/-- An active lease that has not run out counts in full. -/
theorem active_le_held (keeps : key.pool = pool → row.ranOut now = false) :
    active pool d key row ≤ held pool now d key row := by
  unfold active
  split_ifs with counts
  · rw [Bool.and_eq_true, decide_eq_true_eq, beq_iff_eq] at counts
    have later := keeps counts.1
    have lives : row.holds now = true := by
      rw [LeaseRow.ranOut, counts.2, beq_self_eq_true, Bool.true_and, decide_eq_false_iff_not, not_le] at later
      rw [LeaseRow.holds, counts.2, beq_self_eq_true, Bool.true_and, decide_eq_true_eq]
      exact later
    rw [held, lives, Bool.and_true, if_pos (decide_eq_true counts.1)]
  · exact Nat.zero_le _

/-- The sum of an admission finds room for it, since every lease that had run out is expired. -/
theorem Admitted.room_of_sum (admitted : Admitted i s a (.sum existing))
    (fits : ((used (s.leases.snapshot i) a.key.pool a.now).add a.resources).exceeds a.capacity = false) (d : Dimension) :
    total (except (active a.key.pool d) a.key) (s.leases.snapshot i) + a.resources.get d ≤ a.capacity.get d := by
  have checked := Resources.get_add_le fits d
  rw [used_get] at checked
  refine le_trans (Nat.add_le_add_right (total_le_total fun key => ?_) _) checked
  rw [share_except]
  split_ifs
  · exact Nat.zero_le _
  unfold share
  cases seen : (s.leases.snapshot i).lookup key with
  | none => exact le_rfl
  | some row =>
    refine active_le_held fun inPool => ?_
    rw [lookup_snapshot] at seen
    by_contra ranOut
    rw [Bool.not_eq_false] at ranOut
    exact absurd (admitted.swept [] rfl key row inPool seen ranOut) List.not_mem_nil

/-- With its own lease the pool is not more than full. -/
theorem Admitted.full_of_write (admitted : Admitted i s a (.write existing)) (d : Dimension) :
    total (active a.key.pool d) ((s.writeRow i a.key (a.row existing)).leases.snapshot i) ≤ a.capacity.get d := by
  have row : ∀ key, (s.writeRow i a.key (a.row existing)).leases.row key =
      if key = a.key then (s.leases.row a.key).write i (a.row existing) else s.leases.row key := fun _ => row_write
  have own : share (active a.key.pool d) ((s.writeRow i a.key (a.row existing)).leases.snapshot i)
    a.key = a.resources.get d := by
    rw [share_snapshot, row, if_pos rfl, Versions.visible_write_self]
    simp only [weigh, Option.elim_some, active, Admission.row, decide_true, beq_self_eq_true, Bool.and_self, ↓reduceIte]
  rw [total_eq_except a.key, own]
  refine le_trans (Nat.add_le_add_right (total_le_total fun key => ?_) _) (admitted.room existing rfl d)
  rw [share_except, share_except, share_snapshot, share_snapshot, row]
  split_ifs
  · exact le_rfl
  · exact le_rfl

/-- The leases of its pool that have run out for an admission are among the candidates. -/
def Shared.Swept (s : Shared) (i : ℕ) (a : Admission) (candidates : List LeaseKey) : Prop :=
  ∀ key row, key.pool = a.key.pool → (s.leases.row key).visible i = some row → row.ranOut a.now = true → key ∈ candidates

namespace Shared.Swept

variable {a : Admission} {first : LeaseKey} {rest candidates : List LeaseKey}

/-- One candidate is dealt with, and the other leases look as before. -/
theorem tail (swept : s.Swept i a (first :: rest))
    (handled : ∀ row, (s'.leases.row first).visible i = some row → row.ranOut a.now = false)
    (others : ∀ key, key ≠ first → (s'.leases.row key).visible i = (s.leases.row key).visible i) : s'.Swept i a rest := by
  intro key row inPool seen ranOut
  by_cases own : key = first
  · subst own
    exact Bool.noConfusion (ranOut.symm.trans (handled row seen))
  · rw [others key own] at seen
    exact (List.mem_cons.mp (swept key row inPool seen ranOut)).resolve_left own

theorem lockRow (swept : s.Swept i a candidates) (free : (s.leases.row first).free i = true) :
    (s.lockRow i first).Swept i a candidates := by
  intro key row inPool seen
  rw [Shared.lockRow, visible_lock free] at seen
  exact swept key row inPool seen

end Shared.Swept

/-- An admission between its sweep and its sum keeps what is committed, and has a sweep to finish. -/
theorem Admitted.sweeps (admitted : Admitted i s a old)
    (isAdmitted : old.admitted = true) (acted : s.Acted i s') (remaining : phase.remaining = some candidates)
    (swept : s'.Swept i a candidates) : Admitted i s' a phase where
  base _ d := acted.load_le.trans (admitted.base isAdmitted d)
  swept candidates' same := by
    cases remaining.symm.trans same
    exact swept
  room existing same := by
    subst same
    cases remaining
  full row same := by
    subst same
    cases remaining

theorem Statement.fits (ran : Statement conflict i s txn s' next) (sound : txn.Sound i s) (fits : txn.Fits i s)
    (bounded : Bounded s) :
    next.Fits i s' := by
  intro a phase same
  have acted := ran.acted
  -- the phases without a sweep to finish have nothing left in it
  have nothing : ∀ {candidates : List LeaseKey}, none = some candidates → s'.Swept i a candidates := by
    intro candidates remaining
    cases remaining
  cases ran with
  | poolThere | poolInsert =>
    cases same
    exact admitted_of_waiting rfl
  | poolLock reads =>
    cases same
    exact ⟨fun _ d => bounded.load_le_visible sound reads.seen, fun _ => nothing, nofun, nofun⟩
  | sweep =>
    cases same
    exact (fits _ _ rfl).sweeps rfl acted rfl fun key row inPool seen ranOut => mem_candidates inPool seen ranOut
  | expireDone | ownMissing =>
    cases same
    have before := fits _ _ rfl
    exact before.sweeps rfl acted rfl (before.swept [] rfl)
  | expireMissing unseen =>
    cases same
    have before := fits _ _ rfl
    refine before.sweeps rfl acted rfl (Shared.Swept.tail (before.swept _ rfl) (fun row seen => ?_) fun _ _ => rfl)
    cases unseen.symm.trans seen
  | expireRow reads ran =>
    cases same
    have before := fits _ _ rfl
    refine before.sweeps rfl acted rfl (Shared.Swept.tail (before.swept _ rfl) (fun row seen => ?_) fun key other => ?_)
    · rw [Shared.writeRow, row_write_self, Versions.visible_write_self] at seen
      cases seen
      rfl
    · rw [Shared.writeRow, row_write, if_neg other]
  | expirePass reads keeps =>
    cases same
    have before := fits _ _ rfl
    refine before.sweeps rfl acted rfl (Shared.Swept.tail (before.swept _ rfl) (fun row seen => ?_) fun key _ => ?_)
    · rw [Shared.lockRow, visible_lock reads.free] at seen
      cases reads.seen.symm.trans seen
      exact keeps
    · rw [Shared.lockRow, visible_lock reads.free]
  | ownReplay free =>
    cases same
    exact ⟨fun _ d => acted.load_le.trans ((fits _ _ rfl).base rfl d), fun _ => nothing, nofun, nofun⟩
  | ownLock reads =>
    cases same
    have before := fits _ _ rfl
    exact before.sweeps rfl acted rfl (Shared.Swept.lockRow (before.swept [] rfl) reads.free)
  | sum fitting =>
    cases same
    have before := fits _ _ rfl
    exact ⟨fun _ => before.base rfl, fun _ => nothing, fun _ _ => before.room_of_sum fitting, nofun⟩
  | write free unseen =>
    cases same
    have before := fits _ _ rfl
    exact ⟨fun _ d => acted.load_le.trans (before.base rfl d), fun _ => nothing, nofun, fun _ _ => before.full_of_write⟩
  | renewFind | renewLock | renewUpdate | releaseFind | releaseAgain | releaseLock | releaseUpdate => cases same

/-- A renewal commits a deadline that has passed already for an admission to the same pool between its sweep and its sum. -/
def overtakes (p : Pool Shared Txn) : Event → Prop
  | .commit j => ∃ grant duration now key row, p.thread j = .renew grant duration now (.ready key row) ∧
      ∃ i a phase, p.thread i = .acquire a phase ∧ phase.remaining ≠ none ∧ key.pool = a.key.pool ∧ now + duration ≤ a.now
  | _ => False

/-- A renewal has only its commit left. -/
def Txn.renewed : Txn → Bool
  | .renew _ _ _ (.ready _ _) => true
  | _ => false

/-- A server that refuses names of two meanings renews nothing. -/
theorem Moved.unrenewed (moved : Moved server p event q) (refuses : server.conflict = .error)
    (before : ∀ j, (p.thread j).renewed = false) : ∀ j, (q.thread j).renewed = false := by
  have moves {i : ℕ} {after : Shared} {next : Txn} (unrenewed : next.renewed = false) :
      ∀ j, ((p.move i after next).thread j).renewed = false :=
    forall_move (fun _ (txn : Txn) => txn.renewed = false) before unrenewed fun _ _ kept => kept
  cases moved with
  | tick now => exact before
  | start i call =>
    exact moves (Call.start_cases (motive := (·.renewed = false)) (fun _ => rfl) (fun _ => rfl) (fun _ _ => rfl)
      fun _ => rfl)
  | raise | commit | rollback => exact moves rfl
  | @statement _ i next ran =>
    refine moves ?_
    generalize p.thread i = txn at ran
    cases ran with
    | renewUpdate reads column => cases refuses.symm.trans column
    | _ => rfl

/-- What holds of the pools in every state of a run. -/
structure Capacity (p : Pool Shared Txn) : Prop where
  sound : ∀ j, (p.thread j).Sound j p.shared
  fits : ∀ j, (p.thread j).Fits j p.shared
  bounded : Bounded p.shared

theorem fits_of_ended : (Txn.ended answer).Fits i s := by
  intro a phase same
  cases same

theorem fits_of_start (call : Call) (now : Timestamp) : (call.start server now).Fits i s := by
  apply Call.start_cases
  · exact fun _ => fits_of_ended
  · intro a a' phase same
    cases same
    exact admitted_of_waiting rfl
  · intro grant duration a phase same
    cases same
  · intro grant a phase same
    cases same

/-- Two admissions to one pool are not both past its lock. -/
theorem Capacity.adds_ne (capacity : Capacity p) (other : j ≠ i)
    (admission : p.thread j = .acquire a phase) (admitted : phase.admitted = true) :
    (p.thread i).adds ≠ some a.key.pool := by
  intro adds
  have mine := (capacity.sound j).holds
  have theirs := (capacity.sound i).holds
  rw [admission] at mine
  generalize p.thread i = txn at adds theirs
  unfold Txn.adds at adds
  split at adds
  next a' row =>
    have held := (theirs.1 rfl).1
    rw [Option.some.inj adds] at held
    exact other (Option.some.inj ((mine.1 admitted).1.symm.trans held))
  · cases adds

theorem Bounded.of_committed (bounded : Bounded s) (leases : ∀ key,
    (s'.leases.row key).committed = (s.leases.row key).committed)
    (pools : ∀ pool, (s'.pools.row pool).committed = (s.pools.row pool).committed) : Bounded s' where
  capacity pool limit committed d := by
    refine (load_le fun key => ?_).trans (bounded.capacity pool limit ((pools pool).symm.trans committed) d)
    rw [leases]
  founded pool absent key row committed := bounded.founded pool ((pools pool).symm.trans absent) key row
    ((leases key).symm.trans committed)

/-- An admission commits no more than its pool holds, and the others add nothing. -/
theorem Bounded.commit (bounded : Bounded s) (sound : txn.Sound i s) (fits : txn.Fits i s) : Bounded (s.commit i) := by
  have pools : ∀ pool, ((s.commit i).pools.row pool).committed = (s.pools.row pool).visible i := by
    intro pool
    rw [Shared.commit, VersionedTable.committed_commit]
  constructor
  · intro pool limit committed d
    rw [pools] at committed
    by_cases adds : txn.adds = some pool
    · cases txn with
      | idle | renew | release | ended => cases adds
      | acquire a phase =>
        cases phase with
        | insertPool | lockPool | sweep | expire | lockOwn | sum | write | replayed => cases adds
        | granted row =>
          cases adds
          cases committed.symm.trans (sound.holds.1 rfl).2
          refine le_trans (total_le_total fun key => ?_) ((fits a _ rfl).full row rfl d)
          rw [share_published, share_snapshot, committed_commit]
    · refine le_trans (load_le fun key => ?_) (bounded.load_le_visible sound committed)
      rw [committed_commit]
      exact (sound.leases key).weigh_le adds
  · intro pool absent key row committed inPool
    rw [pools] at absent
    rw [committed_commit] at committed
    have missing : (s.pools.row pool).committed = none := by
      have pending := sound.pools pool
      rw [absent] at pending
      generalize (s.pools.row pool).committed = before at pending ⊢
      cases pending
      rfl
    have pending := sound.leases key
    have nothing : ∀ old, (s.leases.row key).committed ≠ some old :=
      fun old stored => bounded.founded pool missing key old stored inPool
    rw [committed] at pending
    generalize (s.leases.row key).committed = before at pending nothing
    cases pending with
    | same => exact nothing row rfl
    | expired old => exact nothing old rfl
    | renewed old => exact nothing old rfl
    | released old => exact nothing old rfl
    | granted =>
      -- an admission that has written its lease sees its pool
      subst inPool
      exact Option.some_ne_none _ ((sound.holds.1 rfl).2.symm.trans absent)

theorem Moved.capacity (moved : Moved server p event q) (inOrder : ¬ overtakes p event) (before : Capacity p) :
    Capacity q := by
  refine ⟨moved.sound before.sound, ?_, ?_⟩
  · cases moved with
    | tick now => exact fun j a phase same => (before.fits j a phase same).of_same (fun _ => rfl) fun _ => rfl
    | start i call resting => exact forall_move_index Txn.Fits before.fits (fits_of_start call _) fun _ _ kept => kept
    | statement ran =>
      refine forall_move_index Txn.Fits before.fits (ran.fits (before.sound _) (before.fits _) before.bounded) ?_
      exact fun _ other kept a phase same => (kept a phase same).of_same ran.acted.leases.committed
        (ran.acted.leases.visible_of_ne other)
    | raise | rollback =>
      refine forall_move_index Txn.Fits before.fits fits_of_ended ?_
      exact fun _ other kept a phase same => (kept a phase same).of_abort other
    | @commit i answer ready =>
      refine forall_move_index Txn.Fits before.fits fits_of_ended fun j other kept a phase same => ?_
      cases admitted : phase.admitted with
      | false => exact admitted_of_waiting admitted
      | true =>
        have committed : Admitted j (p.shared.commit i) a phase := by
          refine (kept a phase same).of_commit (before.sound i) other (before.adds_ne other same admitted) ?_
          intro left grant duration now key row renewal inPool
          by_contra late
          exact inOrder ⟨grant, duration, now, key, row, renewal, j, a, phase, same, left, inPool, not_lt.mp late⟩
        refine committed.of_same (fun _ => ?_) fun _ => ?_ <;> rw [record_leases]
  · cases moved with
    | tick | start => exact before.bounded.of_committed (fun _ => rfl) fun _ => rfl
    | statement ran => exact before.bounded.of_committed ran.acted.leases.committed ran.acted.pools.committed
    | raise | rollback =>
      refine before.bounded.of_committed (fun key => ?_) fun pool => ?_
      · rw [move_shared, Shared.abort, committed_abort]
      · rw [move_shared, Shared.abort, committed_abort]
    | @commit i answer ready =>
      refine (before.bounded.commit (before.sound i) (before.fits i)).of_committed (fun key => ?_) fun pool => ?_
      · rw [move_shared, record_leases]
      · rw [move_shared, record_pools]

theorem capacity_start : Capacity (machine server).start where
  sound := sound_start
  fits _ a phase same := by cases same
  bounded :=
    { capacity := fun _ limit committed => absurd committed.symm (Option.some_ne_none limit)
      founded := fun _ _ _ row committed => absurd committed.symm (Option.some_ne_none row) }

/-- A lease takes at most as much at a time as while it is active. -/
theorem used_le_load : (used s.leases.published pool now).get d ≤ s.load pool d := by
  rw [used_get]
  refine total_le_total fun key => ?_
  unfold share
  cases s.leases.published.lookup key with
  | none => exact le_rfl
  | some row =>
    change held pool now d key row ≤ active pool d key row
    unfold held active
    split_ifs with holds isActive
    · exact le_rfl
    · rw [Bool.and_eq_true, decide_eq_true_eq] at holds
      exact absurd (Bool.and_eq_true _ _ ▸ ⟨decide_eq_true holds.1, beq_iff_eq.mpr (LeaseRow.active_of_holds holds.2)⟩)
        isActive
    · exact Nat.zero_le _
    · exact le_rfl

end Capacity

theorem fenced_of_reaches (reached : (machine server).Reaches ok p) :
    (∀ j, (p.thread j).Sound j p.shared) ∧ Fenced p.shared := by
  refine Reaches.invariant (fun p => (∀ j, (p.thread j).Sound j p.shared) ∧ Fenced p.shared) ⟨sound_start, ?_⟩ ?_ reached
  · exact fun _ _ member => absurd member List.not_mem_nil
  · intro p event q _ stepped before
    have moved : Moved server p event q := step_moved stepped
    exact ⟨moved.sound before.1, moved.fenced before.1 before.2⟩

/-- The row that a renewal or a release has changed, and the grant that its caller has shown. -/
def Txn.presents : Txn → Option (LeaseKey × Grant)
  | .renew grant _ _ (.ready key _) | .release grant _ (.ready key _) => some (key, grant)
  | _ => none

/-- The grant that is shown is the committed one, and so the last. -/
theorem latest_of_presents (sound : txn.Sound i s) (fenced : Fenced s)
    (presents : txn.presents = some (key, grant)) : Latest s.grants key grant := by
  have held : s.Held i key (·.grant = grant) := by
    have holds := sound.holds
    unfold Txn.presents at presents
    split at presents
    · cases presents
      exact holds
    · cases presents
      exact holds
    · cases presents
  obtain ⟨_, row, committed, rfl⟩ := held
  have recorded := fenced key
  rwa [committed] at recorded

/-- Whatever the setting of the server: in every run, a renewal or a release succeeds for the last grant of its row only. No
pool is ever oversubscribed in a run on a server that refuses names of two meanings, nor in a run on one that takes them for
columns in which no renewal commits a deadline that has passed already for an admission that is under way. -/
theorem resource_pool_never_oversubscribed {server : Server} :
    (∀ p, (machine server).Reaches anyStep p → ∀ i q, (machine server).step p (.commit i) = some q →
      (q.thread i = .ended .released ∨ ∃ row, q.thread i = .ended (.renewed row)) →
        ∃ key grant, (p.thread i).presents = some (key, grant) ∧ Latest p.shared.grants key grant) ∧
    ∀ p, (machine server).Reaches (fun p event => server.conflict = .useColumn → ¬ overtakes p event) p → ∀ pool limit,
      (p.shared.pools.row pool).committed = some limit →
        ∀ t d, (used p.shared.leases.published pool t).get d ≤ limit.get d := by
  constructor
  · intro p reached i q stepped answered
    obtain ⟨sound, fenced⟩ := fenced_of_reaches reached
    have moved : Moved server p (.commit i) q := step_moved stepped
    have presents : ∃ key grant, (p.thread i).presents = some (key, grant) := by
      cases moved with
      | @commit _ answer ready =>
        rw [move_thread_self] at answered
        generalize p.thread i = txn at ready
        unfold Txn.answer at ready
        split at ready
        · cases ready
          rcases answered with wrong | ⟨_, wrong⟩ <;> cases wrong
        · cases ready
          rcases answered with wrong | ⟨_, wrong⟩ <;> cases wrong
        · exact ⟨_, _, rfl⟩
        · exact ⟨_, _, rfl⟩
        · cases ready
    obtain ⟨key, grant, shows⟩ := presents
    exact ⟨key, grant, shows, latest_of_presents (sound i) fenced shows⟩
  · intro p reached pool limit committed t d
    have inOrder {p event} (kept : server.conflict = .useColumn → ¬ overtakes p event)
        (unrenewed : server.conflict = .error → ∀ j, (p.thread j).renewed = false) : ¬ overtakes p event := by
      cases setting : server.conflict with
      | useColumn => exact kept setting
      | error =>
        intro overtaken
        cases event with
        | tick | start | statement | rollback => exact overtaken
        | commit j =>
          obtain ⟨_, _, _, _, _, renewal, _⟩ := overtaken
          have resting := unrenewed setting j
          rw [renewal] at resting
          cases resting
    obtain ⟨capacity, _⟩ := reached.invariant
      (fun p => Capacity p ∧ (server.conflict = .error → ∀ j, (p.thread j).renewed = false))
      ⟨capacity_start, fun _ _ => rfl⟩ fun _ _ _ kept stepped before =>
        ⟨(step_moved stepped).capacity (inOrder kept before.2) before.1,
          fun refuses => (step_moved stepped).unrenewed refuses (before.2 refuses)⟩
    exact used_le_load.trans (capacity.bounded.capacity pool limit committed d)

/-- Two executions of one task, on a server that takes names of two meanings for columns. -/
def twoExecutions : Server where
  conflict := .useColumn
  task id := if id == "task" then some "tenant" else none
  execution id := if id == "first" || id == "second" then some ("task", "tenant") else none

/-- A request for one CPU of a pool that has one. -/
def oneCPU (id executionID : String) (leaseMs : ℤ) : AcquireRequest where
  id := some id
  poolKey := some "pool"
  taskID := some "task"
  executionID := some executionID
  owner := some "worker"
  cpuCapacity := some 1
  memoryCapacity := some 0
  diskCapacity := some 0
  networkCapacity := some 0
  cpu := some 1
  memory := some 0
  disk := some 0
  network := some 0
  leaseMs := some leaseMs

/-- A lease for a hundred seconds. -/
def firstLease : List Event := .start 0 (.acquire (oneCPU "a" "first" 100000)) :: List.replicate 7 (.statement 0) ++
    [.commit 0]

/-- The lease is renewed by its grant, up to the commit. -/
def renewedLease : List Event :=
  firstLease ++ [.tick 5000000, .start 1 (.renew (some "a") (some "worker") (some 1) (some 1000)), .statement 1,
    .statement 1, .statement 1]

/-- The commit is not that of a renewal. -/
def renewsNothing (p : Pool Shared Txn) : Event → Bool
  | .commit j =>
    match p.thread j with
    | .renew .. => false
    | _ => true
  | _ => true

theorem not_overtakes_of_renewsNothing (p : Pool Shared Txn) (event : Event) (checked : renewsNothing p event = true) :
    ¬ overtakes p event := by
  intro overtaken
  cases event with
  | tick | start | statement | rollback => exact overtaken
  | commit j =>
    obtain ⟨_, _, _, _, _, renewal, _⟩ := overtaken
    rw [renewsNothing, renewal] at checked
    cases checked

theorem renewedLease_fenced_and_bounded :
    (∃ p q, (machine twoExecutions).Reaches anyStep p ∧ (machine twoExecutions).step p (.commit 1) = some q ∧
      ∃ key grant, (p.thread 1).presents = some (key, grant) ∧ Latest p.shared.grants key grant) ∧
    ∃ p, (machine twoExecutions).Reaches (fun p event => twoExecutions.conflict = .useColumn → ¬ overtakes p event) p ∧
      (used p.shared.leases.published ⟨"tenant", "pool"⟩ p.shared.clock).cpu = 1 ∧
      ∃ limit, (p.shared.pools.row ⟨"tenant", "pool"⟩).committed = some limit ∧
        (used p.shared.leases.published ⟨"tenant", "pool"⟩ p.shared.clock).get .cpu ≤ limit.get .cpu := by
  let m := machine twoExecutions
  constructor
  · obtain ⟨p, reached, q, stepped, answered⟩ := exists_reached (m := m) renewedLease
      (P := fun p => ∃ q, m.step p (.commit 1) = some q ∧
        (match q.thread 1 with | .ended (.renewed _) => true | _ => false) = true)
      (by decide)
    have renewed : ∃ row, q.thread 1 = .ended (.renewed row) := by
      split at answered
      next row same => exact ⟨row, same⟩
      · cases answered
    exact ⟨p, q, reached, stepped, resource_pool_never_oversubscribed.1 p reached 1 q stepped (.inr renewed)⟩
  · obtain ⟨p, ran, limit, committed, holds⟩ : ∃ p, m.runChecked renewsNothing m.start firstLease = some p ∧
        ∃ limit, (p.shared.pools.row ⟨"tenant", "pool"⟩).committed = some limit ∧
          (used p.shared.leases.published ⟨"tenant", "pool"⟩ p.shared.clock).cpu = 1 := by decide
    have reached : m.Reaches (fun p event => twoExecutions.conflict = .useColumn → ¬ overtakes p event) p :=
      ⟨_, path_of_runChecked (fun p event checked _ => not_overtakes_of_renewsNothing p event checked) ran⟩
    exact ⟨p, reached, holds, limit, committed, resource_pool_never_oversubscribed.2 p reached _ limit committed _ .cpu⟩

/-- A renewal to a short deadline is about to commit while a second one of the same lease waits. An admission sweeps
before the first commits and sums after it. -/
def overtakenAdmission : List Event :=
  renewedLease ++ [.tick 5500000, .start 2 (.renew (some "a") (some "worker") (some 1) (some 3600000)), .statement 2,
    .tick 11000000, .start 3 (.acquire (oneCPU "b" "second" 60000))] ++ List.replicate 5 (.statement 3) ++
    [.commit 1, .statement 3, .statement 3, .commit 3, .statement 2, .statement 2, .commit 2, .tick 12000000]

/-- Two leases of a pool with one CPU are active at the same time. -/
theorem overtaken_admission_oversubscribes : ∃ p, (machine twoExecutions).Reaches anyStep p ∧
    (p.shared.pools.row ⟨"tenant", "pool"⟩).committed = some ⟨1, 0, 0, 0⟩ ∧
    (used p.shared.leases.published ⟨"tenant", "pool"⟩ p.shared.clock).cpu = 2 := by
  exact exists_reached overtakenAdmission (by decide)

end RhinoQ.Model.ResourceLease
