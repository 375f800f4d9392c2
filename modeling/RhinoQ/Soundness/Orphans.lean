import RhinoQ.Proofs.Runtime

/-! # Effects of reaped executions

A sweep commits the expiry of a batch of leases and then, in a second call, downgrades the pending effects of
that batch. When the second call fails, no later sweep lists those executions again; nor does one list an execution
whose effect is stored only after its sweep, because the lease was checked before it.
-/

namespace RhinoQ.Model.Runtime

open Ports Effect Pool JobSystem EffectStore FiniteMap JobStore

variable {codec : Recovery.Codec} {p q : State} {e : Event}
variable {expired : List ExpiredLease} {record : Record} {choice : Choice} {thread next : Thread} {id : Job.ID} {epoch : ℤ}
  {s t : Shared}

/-- The epoch was closed by a reaper. -/
def ReapedEpoch (s : JobStore) (id : Job.ID) (epoch : ℤ) : Prop :=
  ∃ event ∈ s.events id, event.kind = .leaseExpired ∧ event.leaseEpoch = epoch

/-- The batch whose effects a sweep is about to mark. -/
def batchOf : Thread → List ExpiredLease
  | .sweep _ (.marking batch _) => batch.expired
  | _ => []

/-- The sweep at this step loses a batch that still covers a pending effect. -/
def losesBatch (p : State) : Event → Bool
  | .advance t choice =>
    choice.fails && (values p.shared.effects.effects).any (isDowngraded (batchOf (p.thread t)))
  | .crash t => (values p.shared.effects.effects).any (isDowngraded (batchOf (p.thread t)))
  | _ => false

/-- The lease of a call that stands between its lease check and its insert. -/
def openingLease : Thread → Option Lease
  | .effect call (.opening _) => some call.lease
  | _ => none

/-- The sweep at this step reaps an epoch under which a call stands between its lease check and its insert. -/
def ReapsOpening (codec : Recovery.Codec) (p : State) (e : Event) : Prop :=
  ∃ q u, step codec p e = some q ∧ ∃ t ∈ e.thread?, ∃ lease ∈ openingLease (p.thread u),
    { jobID := lease.jobID, epoch := lease.epoch } ∈ batchOf (q.thread t)

theorem isDowngraded_of_covers (pending : record.state = .pending)
    (covered : Covers expired record) : isDowngraded expired record = true := by
  obtain ⟨item, member, own, high⟩ := covered
  obtain ⟨bound, found, low⟩ := epochBound_of_mem member own
  simp only [isDowngraded, found, pending, beq_self_eq_true, Bool.true_and, decide_eq_true_eq]
  exact high.trans low

/-- A batch that is lost without loss covers nothing pending. -/
theorem not_covered_of_any_eq_false {s : EffectStore}
    (none : (values s.effects).any (isDowngraded expired) = false)
    (found : s.effects.lookup key = some record) (pending : record.state = .pending) : ¬Covers expired record := by
  intro covered
  have member : record ∈ values s.effects := mem_values_iff.mpr ⟨key, found⟩
  have missed := List.any_eq_false.mp none record member
  exact missed (isDowngraded_of_covers pending covered)

section
variable {s t : JobStore} {id : Job.ID} {epoch : ℤ} {event : Attempt.Event}

theorem ReapedEpoch.of_view (same : t.view id = s.view id) (reaped : ReapedEpoch t id epoch) : ReapedEpoch s id epoch := by
  have events : t.events id = s.events id := congrArg JobView.events same
  obtain ⟨event, member, rest⟩ := reaped
  exact ⟨event, events ▸ member, rest⟩

section
variable {call : JobCall} {before after : JobView} (change : JobChange id call before after)
include change

/-- Only the reaper's call adds a `lease_expired` event. -/
theorem reaped_of_change (other : ∀ input order, call ≠ .requeueExpired input order)
    (member : event ∈ after.events) (kind : event.kind = .leaseExpired) : event ∈ before.events := by
  have appended {events : List Attempt.Event} {new : Attempt.Event} (member : event ∈ events ++ [new])
      (fresh : new.kind ≠ .leaseExpired) : event ∈ events := by
    rcases List.mem_append.mp member with old | last
    · exact old
    · rw [List.mem_singleton.mp last] at kind
      exact absurd kind fresh
  cases change with
  | same => exact member
  | created => exact member
  | claimed => exact appended member nofun
  | renewed => exact member
  | completed => exact appended member nofun
  | released => exact appended member nofun
  | failed _ _ _ closing => exact appended member (Attempt.resultKind_closes closing).unexpired
  | cancelled => exact member
  | flagged => exact member
  | expired => exact absurd rfl (other _ _)
  | replayed => exact member

theorem events_subset_of_change : before.events ⊆ after.events := by
  cases change with
  | same | created | renewed | cancelled | flagged | replayed => exact fun _ member => member
  | claimed | completed | released | failed | expired => exact List.subset_append_left _ _

end

/-- A live epoch lies above every closed one. -/
theorem closed_lt_live {view : JobView} (timeline : view.Timeline) {record : Job.Record}
    (found : view.record = some record) (leased : record.state = .leased) (member : event ∈ view.events)
    (closes : event.kind ≠ .claimed) : event.leaseEpoch < record.leaseEpoch := by
  obtain ⟨i, position⟩ := List.mem_iff_getElem?.mp member
  obtain ⟨bound, _⟩ := List.getElem?_eq_some_iff.mp position
  obtain ⟨numbered, parity⟩ := timeline.alternating i event position
  have even : ¬i % 2 = 0 := fun even => closes (beq_iff_eq.mp (parity.mpr even))
  have odd := (timeline.leased record found).mp leased
  have epoch := timeline.epoch record found
  have closed : event.leaseEpoch = ((i / 2 : ℕ) : ℤ) + 1 := numbered
  omega

end

/-- A reaped epoch is not the one a live lease holds. -/
theorem not_reaped_of_live {s : JobStore} (timeline : ∀ id, (s.view id).Timeline)
    {record : Job.Record} (found : s.jobs.lookup id = some record) (leased : record.state = .leased)
    (reaped : ReapedEpoch s id epoch) : epoch < record.leaseEpoch := by
  obtain ⟨event, member, kind, rfl⟩ := reaped
  exact closed_lt_live (timeline id) found leased member (by rw [kind]; exact nofun)

theorem JobStore.record_of_checkLease {s : JobStore} (live : s.checkLease lease now = .ok ()) :
    ∃ record, s.jobs.lookup lease.jobID = some record ∧ record.Authorises lease now := by
  unfold checkLease at live
  split at live
  next => cases live
  unfold fenced at live
  split at live
  next => cases live
  next record success => exact ⟨record, authoritative_eq_ok.mp success⟩

/-- The epochs in a batch were reaped. -/
def BatchReaped (s : Shared) (thread : Thread) : Prop :=
  ∀ item ∈ batchOf thread, ReapedEpoch s.base.jobs item.jobID item.epoch

/-- The jobs and their timelines, with every batch in flight made of reaped epochs. -/
structure Swept (p : State) : Prop where
  wellFormed : WellFormed p
  jobs : p.shared.base.jobs.WellFormed
  timeline : ∀ id, (p.shared.base.jobs.view id).Timeline
  batches : ∀ t, BatchReaped p.shared (p.thread t)

theorem ReapedEpoch.step (jobs : p.shared.base.jobs.WellFormed) (step : step codec p e = some q)
    (reaped : ReapedEpoch p.shared.base.jobs id epoch) : ReapedEpoch q.shared.base.jobs id epoch := by
  rcases step_base step with same | ⟨call, moved⟩
  · exact same ▸ reaped
  · obtain ⟨event, member, rest⟩ := reaped
    exact ⟨event, events_subset_of_change (step_change jobs moved id) member, rest⟩

section
variable {s : JobStore} {input : ReapInput} {order : List Job.ID} {batch : ReapResult} {t : JobStore}
    (distinct : order.Nodup)
include distinct

/-- A batch is made of epochs that the same call reaped. -/
theorem reaped_of_batch (reaped : s.requeueExpired input order = (.ok batch, t)) :
    ∀ item ∈ batch.expired, ReapedEpoch t item.jobID item.epoch := by
  intro item member
  have spec := (requeueExpired_spec (s := s) input distinct).2 item.jobID
  rw [reaped] at spec
  cases spec with
  | kept _ unlisted => exact absurd rfl (unlisted item member)
  | expired record sequence found late final listed only =>
    have events := congrArg JobView.events final
    refine ⟨{ expireEvent input item.jobID record with sequence }, ?_, rfl, ?_⟩
    · rw [show t.events item.jobID = _ from events]
      exact List.mem_append_right _ (List.mem_singleton.mpr rfl)
    · rw [only item member rfl]
      exact expireRecord_leaseEpoch input record

/-- An epoch is reaped by a batch or was reaped before. -/
theorem reaped_before_or_listed (requeued : s.requeueExpired input order = (.ok batch, t))
    (reaped : ReapedEpoch t id epoch) :
    ReapedEpoch s id epoch ∨ { jobID := id, epoch } ∈ batch.expired := by
  have spec := (requeueExpired_spec (s := s) input distinct).2 id
  rw [requeued] at spec
  cases spec with
  | kept same _ => exact .inl (reaped.of_view same)
  | expired record sequence found late final listed only =>
    obtain ⟨event, member, kind, number⟩ := reaped
    have events : t.events id = _ := congrArg JobView.events final
    rw [events] at member
    rcases List.mem_append.mp member with old | last
    · exact .inl ⟨event, old, kind, number⟩
    · rw [List.mem_singleton.mp last] at number
      have same : record.leaseEpoch = epoch := (expireRecord_leaseEpoch input record).symm.trans number
      exact .inr (same ▸ listed)

end

theorem batchOf_afterBatch (config : ReaperConfig) (batch total : ReapResult) :
    batchOf (.sweep config (afterBatch batch total choice)) = [] := by
  unfold afterBatch
  dsimp only
  split_ifs <;> rfl

theorem Advanced.batch (step : Advanced s choice thread t next) :
    batchOf next = [] ∨ ∃ config batch total, thread = .sweep config (.requeueing total) ∧
      next = .sweep config (.marking batch total) ∧ choice.order.Perm s.base.jobs.jobs.keys ∧
      s.base.jobs.requeueExpired (config.reapInput choice.now) choice.order = (.ok batch, t.base.jobs) := by
  cases step with
  | requeued permuted reaped marks =>
    obtain rfl | ⟨_, rfl⟩ := marks
    · exact .inr ⟨_, _, _, rfl, rfl, permuted, reaped⟩
    · exact .inl (batchOf_afterBatch _ _ _)
  | marked => exact .inl (batchOf_afterBatch _ _ _)
  | _ => exact .inl rfl

/-- A program starts without a batch, and before its lease check. -/
theorem empty_of_program (program : Program) : batchOf program.thread = [] ∧ openingLease program.thread = none := by
  cases program with
  | effect lease request =>
    unfold Program.thread
    dsimp only
    split <;> exact ⟨rfl, rfl⟩
  | signal | sweep | fail => exact ⟨rfl, rfl⟩

/-- A sweep that holds a batch fails, or marks the batch. -/
theorem Advanced.marks (covered : Covers (batchOf thread) record) (step : Advanced s choice thread t next) :
    choice.fails = true ∨ t.effects = (s.effects.markPendingUncertain (batchOf thread)).2 := by
  obtain ⟨item, member, _⟩ := covered
  cases step with
  | marked => exact .inr rfl
  | stopped why =>
    obtain rfl | fails := why
    · cases member
    · exact .inl fails
  | _ => cases member

theorem Swept.step (swept : Swept p) (step : step codec p e = some q) : Swept q := by
  have kept (thread : Thread) (reaped : BatchReaped p.shared thread) : BatchReaped q.shared thread :=
    fun item member => (reaped item member).step swept.jobs step
  refine ⟨swept.wellFormed.step step, ?_, ?_, ?_⟩
  · rcases step_base step with same | ⟨call, moved⟩
    · exact same ▸ swept.jobs
    · exact step_wellFormed swept.jobs moved
  · intro id
    rcases step_base step with same | ⟨call, moved⟩
    · exact same ▸ swept.timeline id
    · exact (step_change swept.jobs moved id).timeline (swept.timeline id)
  · cases step_cases step with
    | job => exact fun t => kept _ (swept.batches t)
    | start program =>
      refine forall_move BatchReaped swept.batches ?_ fun _ _ same => same
      rw [BatchReaped, (empty_of_program program).1]
      exact fun _ member => nomatch member
    | advance moved =>
      refine forall_move BatchReaped swept.batches ?_ fun u _ reaped => kept _ reaped
      rcases moved.batch with empty | ⟨config, batch, total, _, rfl, permuted, reaped⟩
      · rw [BatchReaped, empty]
        exact fun _ member => nomatch member
      · exact reaped_of_batch (permuted.nodup_iff.mpr p.shared.base.jobs.jobs.keys_nodup) reaped
    | crash => exact forall_move BatchReaped swept.batches (fun _ member => nomatch member) fun _ _ same => same

theorem swept_start : Swept (machine codec).start where
  wellFormed := wellFormed_start
  jobs := wellFormed_empty
  timeline _ := .unknown
  batches _ := nofun

/-- Only a sweep's first call reaps an epoch, and the sweep then holds it in its batch. -/
theorem ReapedEpoch.before_or_listed (swept : Swept p) (step : Runtime.step codec p e = some q)
    (reaped : ReapedEpoch q.shared.base.jobs id epoch) :
    ReapedEpoch p.shared.base.jobs id epoch ∨ ∃ t ∈ e.thread?, { jobID := id, epoch } ∈ batchOf (q.thread t) := by
  cases step_cases step with
  | start | crash => exact .inl reaped
  | @job base call outside moved =>
    obtain ⟨event, member, kind, number⟩ := reaped
    have other : ∀ input order, call ≠ .requeueExpired input order := by
      rintro input order rfl
      cases outside
    exact .inl ⟨event, reaped_of_change (step_change swept.jobs moved id) other member kind, kind, number⟩
  | @advance t s choice thread moved =>
    change ReapedEpoch s.base.jobs id epoch at reaped
    cases moved.base with
    | kept same => exact .inl (same ▸ reaped)
    | failed lease transition _ result =>
      obtain ⟨event, member, kind, number⟩ := reaped
      rw [result] at member
      have change := (fail_changed swept.jobs lease choice.now transition).view id
      exact .inl ⟨event, reaped_of_change change nofun member kind, kind, number⟩
    | requeued config batch total phase permuted result _ marks =>
      have distinct := permuted.nodup_iff.mpr p.shared.base.jobs.jobs.keys_nodup
      refine (reaped_before_or_listed distinct result reaped).imp_right fun listed => ⟨t, rfl, ?_⟩
      rcases marks with rfl | empty
      · rw [move_thread_self]
        exact listed
      · rw [empty] at listed
        cases listed

/-- The epoch under which the thread is about to store an effect is not reaped. -/
def Unreaped (s : Shared) (thread : Thread) : Prop :=
  ∀ lease ∈ openingLease thread, ¬ReapedEpoch s.base.jobs lease.jobID lease.epoch

theorem unreaped_of_none (none : openingLease thread = none) : Unreaped s thread := by
  rw [Unreaped, none]
  exact nofun

/-- A call stands before its insert only once it has found its lease live. -/
theorem Advanced.opening (step : Advanced s choice thread t next) : openingLease next = none ∨
      ∃ lease, openingLease next = some lease ∧ s.base.jobs.checkLease lease choice.now = .ok () ∧ t.base = s.base := by
  cases step with
  | effect step =>
    cases step with
    | fenced built => exact .inr ⟨_, rfl, (EffectCall.serviceBegin_eq_ok built).1, rfl⟩
    | _ => exact .inl rfl
  | _ => exact .inl rfl

theorem Unreaped.step (swept : Swept p) (unreaped : ∀ t, Unreaped p.shared (p.thread t)) (kept : ¬ReapsOpening codec p e)
    (step : step codec p e = some q) : ∀ t, Unreaped q.shared (q.thread t) := by
  have stays (u : ℕ) : Unreaped q.shared (p.thread u) := by
    intro lease standing reaped
    rcases reaped.before_or_listed swept step with early | ⟨t, moves, listed⟩
    · exact unreaped u lease standing early
    · exact kept ⟨q, u, step, t, moves, lease, standing, listed⟩
  cases step_cases step with
  | job => exact stays
  | start program =>
    exact forall_move Unreaped unreaped (unreaped_of_none (empty_of_program program).2) fun u _ _ => stays u
  | crash => exact forall_move Unreaped unreaped (unreaped_of_none rfl) fun u _ _ => stays u
  | advance moved =>
    refine forall_move Unreaped unreaped ?_ fun u _ _ => stays u
    rcases moved.opening with none | ⟨lease, opening, live, same⟩
    · exact unreaped_of_none none
    · intro standing is reaped
      cases is.symm.trans opening
      obtain ⟨holder, present, held⟩ := JobStore.record_of_checkLease live
      rw [same] at reaped
      exact (not_reaped_of_live swept.timeline present held.leased reaped).ne held.epoch.symm

/-- Every pending effect of a reaped epoch is covered by a batch some sweep is about to mark. -/
def Covered (p : State) : Prop :=
  ∀ key record, p.shared.effects.effects.lookup key = some record → record.state = .pending →
    ReapedEpoch p.shared.base.jobs record.jobID record.leaseEpoch →
    ∃ t, Covers (batchOf (p.thread t)) record

/-- A step of a thread keeps pending effects covered. -/
theorem Covered.advance {t : ℕ} (swept : Swept p) (unreaped : Unreaped p.shared (p.thread t)) (covered : Covered p)
    (kept : losesBatch p (.advance t choice) = false) (moved : Advanced p.shared choice (p.thread t) s thread)
    (step : step codec p (.advance t choice) = some (p.move t s thread)) : Covered (p.move t s thread) := by
  intro key record found pending reaped
  have change : LedgerChange p.shared choice (p.thread t) key (s.effects.effects.lookup key) :=
    moved.ledger (swept.wellFormed.copies t)
  cases change with
  | opened call new stored phase absent put keyed isPending epoch job =>
    cases put.symm.trans found
    have same : s.base = p.shared.base := by
      rw [phase] at moved
      cases moved with
      | effect inner => exact inner.base
    change ReapedEpoch s.base.jobs _ _ at reaped
    rw [same, job, epoch] at reaped
    rw [phase] at unreaped
    exact absurd reaped (unreaped call.lease rfl)
  | written old new writes present stored =>
    cases stored.symm.trans found
    exact absurd pending writes.ne_pending
  | downgraded expired old marks present _ _ stored =>
    cases stored.symm.trans found
    cases pending
  | kept same =>
    have before : p.shared.effects.effects.lookup key = some record := same.symm.trans found
    rcases reaped.before_or_listed swept step with early | ⟨u, _, listed⟩
    · obtain ⟨u, covers⟩ := covered key record before pending early
      by_cases own : u = t
      · subst own
        rcases moved.marks covers with fails | marked
        · simp only [losesBatch, fails, Bool.true_and] at kept
          exact absurd covers (not_covered_of_any_eq_false kept before pending)
        · have lowered := downgrade_of_covers covers
          change s.effects.effects.lookup key = some record at found
          rw [marked, lookup_markPendingUncertain, before] at found
          rw [← Option.some.inj found] at pending
          exact absurd pending lowered
      · -- A batch held by another thread is still there.
        exact ⟨u, by rwa [move_thread_of_ne own]⟩
    · exact ⟨u, _, listed, rfl, le_rfl⟩

theorem Covered.step (swept : Swept p) (unreaped : ∀ t, Unreaped p.shared (p.thread t)) (covered : Covered p)
    (kept : losesBatch p e = false) (step : step codec p e = some q) : Covered q := by
  have untouched {t : ℕ} {thread : Thread} {key : String} {record : Record}
      (found : p.shared.effects.effects.lookup key = some record) (pending : record.state = .pending)
      (reaped : ReapedEpoch p.shared.base.jobs record.jobID record.leaseEpoch)
      (uncovered : ¬Covers (batchOf (p.thread t)) record) :
      ∃ u, Covers (batchOf ((p.move t p.shared thread).thread u)) record := by
    obtain ⟨u, covers⟩ := covered key record found pending reaped
    refine ⟨u, ?_⟩
    rwa [move_thread_of_ne]
    rintro rfl
    exact uncovered covers
  cases step_cases step with
  | advance moved => exact covered.advance swept (unreaped _) kept moved step
  | job =>
    intro key record found pending reaped
    rcases reaped.before_or_listed swept step with early | ⟨_, ⟨⟩, _⟩
    exact covered key record found pending early
  | start program idle =>
    intro key record found pending reaped
    refine untouched found pending reaped ?_
    rw [idle]
    rintro ⟨_, member, _⟩
    cases member
  | crash =>
    intro key record found pending reaped
    exact untouched found pending reaped (not_covered_of_any_eq_false kept found pending)

/-- What a sweep marks lies below every live epoch of its job. -/
theorem live_kept_of_covers {job : Job.Record} (timeline : ∀ id, (s.base.jobs.view id).Timeline)
    (batch : BatchReaped s thread) (covered : Covers (batchOf thread) record)
    (found : s.base.jobs.jobs.lookup record.jobID = some job) (leased : job.state = .leased) :
    record.leaseEpoch < job.leaseEpoch := by
  obtain ⟨item, member, own, high⟩ := covered
  have below := not_reaped_of_live timeline (own ▸ found) leased (batch item member)
  omega

/-- The step neither loses a batch that covers a pending effect nor reaps an epoch under which an effect is about to be
stored. -/
def Orderly (codec : Recovery.Codec) (p : State) (e : Event) : Prop := losesBatch p e = false ∧ ¬ReapsOpening codec p e

/-- Suppose that every step is orderly. Once a sweep returns without error and unsaturated, while no other sweep holds a
batch, every effect of a reaped epoch has left `pending`. And no sweep, in any run, changes an effect opened under the
epoch its job holds live. -/
theorem reaped_effects_settled_unless_batch_lost :
    (∀ {p q : State} {t : ℕ} {choice : Choice} {config : ReaperConfig} {total : ReapResult},
      (machine codec).Reaches (Orderly codec) p → Orderly codec p (.advance t choice) →
        step codec p (.advance t choice) = some q →
      q.thread t = .sweep config (.returned total none) → total.saturated = false →
        (∀ u, u ≠ t → batchOf (p.thread u) = []) →
      ∀ key record, q.shared.effects.effects.lookup key = some record →
        ReapedEpoch q.shared.base.jobs record.jobID record.leaseEpoch → record.state ≠ .pending) ∧
    (∀ {p q : State} {t : ℕ} {choice : Choice} {config : ReaperConfig} {phase : SweepPhase},
      (machine codec).Reaches Machine.anyStep p → p.thread t = .sweep config phase →
        step codec p (.advance t choice) = some q →
      ∀ key record job, p.shared.effects.effects.lookup key = some record →
        p.shared.base.jobs.jobs.lookup record.jobID = some job → job.state = .leased →
        record.leaseEpoch = job.leaseEpoch → q.shared.effects.effects.lookup key = some record) := by
  refine ⟨?_, ?_⟩
  · intro p q t choice config total reached kept step returned _ alone key record found reaped pending
    obtain ⟨swept, unreaped, covered⟩ := reached.invariant
      (fun p => Swept p ∧ (∀ t, Unreaped p.shared (p.thread t)) ∧ Covered p)
      ⟨swept_start, fun _ => unreaped_of_none rfl, fun _ _ found => nomatch found⟩
      (fun p e q kept step inv => ⟨inv.1.step step, Unreaped.step inv.1 inv.2.1 kept.2 step,
        inv.2.2.step inv.1 inv.2.1 kept.1 step⟩)
    obtain ⟨u, covers⟩ := covered.step swept unreaped kept.1 step key record found pending reaped
    obtain ⟨⟨s, thread⟩, _, equal⟩ := Option.map_eq_some_iff.mp step
    cases equal
    by_cases same : u = t
    · subst same
      rw [returned] at covers
      obtain ⟨_, member, _⟩ := covers
      cases member
    · rw [move_thread_of_ne same, alone u same] at covers
      obtain ⟨_, member, _⟩ := covers
      cases member
  · intro p q t choice config phase reached sweeping step key record job found holder leased live
    have swept := reached.invariant Swept swept_start fun _ _ _ _ step swept => swept.step step
    obtain ⟨⟨s, thread⟩, moved, equal⟩ := Option.map_eq_some_iff.mp step
    cases equal
    have change : LedgerChange p.shared choice (p.thread t) key (s.effects.effects.lookup key) :=
      (advance_cases moved).ledger (swept.wellFormed.copies t)
    have batch := swept.batches t
    rw [sweeping] at change batch
    cases change with
    | kept same => exact same.trans found
    | opened _ _ _ phase => cases phase
    | written _ _ writes => generalize _ = state at writes; cases writes
    | downgraded expired old marks present _ covered =>
      cases present.symm.trans found
      cases marks
      have below := live_kept_of_covers swept.timeline batch covered holder leased
      omega

/-- The step loses no batch, and leaves its thread without one. -/
def listless (p : State) (e : Event) : Bool :=
  !losesBatch p e && (step .plain p e).all fun q => e.thread?.all fun t => (batchOf (q.thread t)).isEmpty

theorem orderly_of_listless (p : State) (e : Event) (passed : listless p e = true) : Orderly .plain p e := by
  simp only [listless, Bool.and_eq_true, Bool.not_eq_true'] at passed
  refine ⟨passed.1, ?_⟩
  rintro ⟨q, u, taken, t, moves, lease, _, listed⟩
  have empty := passed.2
  rw [taken, Option.all_some, moves, Option.all_some, List.isEmpty_iff] at empty
  rw [empty] at listed
  cases listed

/-- A sweep starts while a worker is in the middle of its callback. -/
def sweepCharge : List Event := runCharge ++ [.start 1 (.sweep {})]

/-- The worker's lease has expired, and the sweep reaps it. -/
def reapCharge : Event := .advance 1 { now := 100, order := ["job_000001"] }

/-- The sweep's mark goes through, and the open effect of the dead execution is settled. -/
theorem charge_settled_by_sweep :
    ∃ o p q total, (machine .plain).runChecked listless (machine .plain).start sweepCharge = some o ∧
      (machine .plain).step o reapCharge = some p ∧ (machine .plain).step p (.advance 1 {}) = some q ∧
      q.thread 1 = .sweep {} (.returned total none) ∧
      ReapedEpoch q.shared.base.jobs "job_000001" 1 ∧ ∀ key record, q.shared.effects.effects.lookup key = some record →
        ReapedEpoch q.shared.base.jobs record.jobID record.leaseEpoch → record.state ≠ .pending := by
  obtain ⟨o, run, flying, kept, p, reaps, idle, marks, q, step, returned, event, member, evidence⟩ :
      ∃ o, (machine .plain).runChecked listless (machine .plain).start sweepCharge = some o ∧
        (openingLease (o.thread 0) = none ∧ openingLease (o.thread 1) = none) ∧ losesBatch o reapCharge = false ∧
        ∃ p, (machine .plain).step o reapCharge = some p ∧ batchOf (p.thread 0) = [] ∧ listless p (.advance 1 {}) = true ∧
        ∃ q, (machine .plain).step p (.advance 1 {}) = some q ∧
          q.thread 1 = .sweep {} (.returned { requeued := 1, expired := [{ jobID := "job_000001", epoch := 1 }] } none) ∧
          ∃ event ∈ q.shared.base.jobs.events "job_000001", event.kind = .leaseExpired ∧ event.leaseEpoch = 1 := by
    decide
  have before := Machine.path_of_runChecked orderly_of_listless run
  have later (u : ℕ) : o.thread (u + 2) = .idle := path_thread_of_le before (n := 2) (by decide) (by omega)
  have orderly : Orderly .plain o reapCharge := by
    refine ⟨kept, ?_⟩
    rintro ⟨_, u, _, _, _, lease, standing, _⟩
    match u with
    | 0 => cases flying.1.symm.trans standing
    | 1 => cases flying.2.symm.trans standing
    | u + 2 =>
      rw [later u] at standing
      cases standing
  have path := before.append (.cons orderly reaps (.nil p))
  have alone (u : ℕ) (other : u ≠ 1) : batchOf (p.thread u) = [] := by
    cases u with
    | zero => exact idle
    | succ u =>
      rw [path_thread_of_le path (n := 2) (by decide) (by omega)]
      rfl
  exact ⟨o, p, q, _, run, reaps, step, returned, ⟨event, member, evidence⟩,
    reaped_effects_settled_unless_batch_lost.1 ⟨_, path⟩ (orderly_of_listless _ _ marks) step returned rfl alone⟩

/-- The sweep's mark fails instead. The next sweep finds nothing expired and returns without error,
and the effect of the reaped epoch is still pending. -/
theorem orphaned_charge : ∃ p record, (machine .plain).run (machine .plain).start (sweepCharge ++
        [reapCharge, .advance 1 { fails := true }, .start 2 (.sweep {}),
          .advance 2 { now := 101, order := ["job_000001"] }]) = some p ∧
      p.thread 2 = .sweep {} (.returned {} none) ∧ p.shared.effects.effects.lookup chargeKey = some record ∧
      ReapedEpoch p.shared.base.jobs record.jobID record.leaseEpoch ∧ record.state = .pending := by
  simp only [exists_and_left, ReapedEpoch]
  decide

end RhinoQ.Model.Runtime
