import RhinoQ.Machine.Alternation
import RhinoQ.Proofs.Job.Lifecycle

/-! # Lease fencing and the attempt timeline

The events of a job alternate between the claim of an epoch and what closed it, the epochs count up from one,
and the record agrees with the last event. A call changes a job only while the epoch it presents is the open
one, held by that owner and not yet expired.
-/

namespace RhinoQ.Model

open Ports JobStore Attempt

variable {record : Job.Record} {now : Time}

variable {call : JobCall} {lease : Lease}

/-- The events of a job alternate between claims and closings of consecutive epochs. -/
abbrev Attempt.Alternating (events : List Event) : Prop :=
  Alternates (fun event => event.kind == .claimed) (·.leaseEpoch) events

/-- A job's record agrees with its events. -/
structure JobView.Timeline (view : JobView) : Prop where
  alternating : Alternating view.events
  epoch : ∀ record, view.record = some record → record.leaseEpoch = (((view.events.length + 1) / 2 : ℕ) : ℤ)
  leased : ∀ record, view.record = some record → (record.state = .leased ↔ view.events.length % 2 = 1)
  owner : ∀ record, view.record = some record → record.state = .leased →
    ∃ event, view.events.getLast? = some event ∧ event.leaseOwner = record.leaseOwner

namespace JobView.Timeline

variable {record updated : Job.Record} {events : List Event} {event : Event}

section
variable (timeline : Timeline { record := some record, events })
include timeline

/-- A write that moves neither the epoch nor whether the job is leased, nor the owner of a leased
job. -/
theorem rewrite (epoch : updated.leaseEpoch = record.leaseEpoch) (leased : updated.state = .leased ↔ record.state = .leased)
    (owner : record.state = .leased → updated.leaseOwner = record.leaseOwner) :
    Timeline { record := some updated, events } where
  alternating := timeline.alternating
  epoch := by
    rintro _ ⟨⟩
    exact epoch.trans (timeline.epoch record rfl)
  leased := by
    rintro _ ⟨⟩
    exact leased.trans (timeline.leased record rfl)
  owner := by
    rintro _ ⟨⟩ state
    have before := leased.mp state
    obtain ⟨event, last, same⟩ := timeline.owner record rfl before
    exact ⟨event, last, same.trans (owner before).symm⟩

theorem claim (free : record.state ≠ .leased)
    (epoch : updated.leaseEpoch = record.leaseEpoch + 1) (leased : updated.state = .leased)
    (kind : event.kind = .claimed) (numbered : event.leaseEpoch = updated.leaseEpoch)
    (owner : event.leaseOwner = updated.leaseOwner) : Timeline { record := some updated, events := events ++ [event] } := by
  have before := timeline.epoch record rfl
  have even : ¬events.length % 2 = 1 := mt (timeline.leased record rfl).mpr free
  simp only at before
  refine ⟨timeline.alternating.snoc ?_ ?_, ?_, ?_, ?_⟩
  · change event.leaseEpoch = ((events.length / 2 : ℕ) : ℤ) + 1
    omega
  · simp only [kind, beq_self_eq_true, true_iff]
    omega
  · rintro _ ⟨⟩
    simp only [List.length_append, List.length_singleton]
    omega
  · rintro _ ⟨⟩
    simp only [leased, List.length_append, List.length_singleton, true_iff]
    omega
  · rintro _ ⟨⟩ _
    exact ⟨event, by simp, owner⟩

/-- Any other event closes the epoch that is open. -/
theorem close (held : record.state = .leased) (epoch : updated.leaseEpoch = record.leaseEpoch)
    (free : updated.state ≠ .leased)
    (kind : event.kind ≠ .claimed) (numbered : event.leaseEpoch = record.leaseEpoch) :
    Timeline { record := some updated, events := events ++ [event] } := by
  have before := timeline.epoch record rfl
  have odd := (timeline.leased record rfl).mp held
  simp only at before odd
  refine ⟨timeline.alternating.snoc ?_ ?_, ?_, ?_, ?_⟩
  · change event.leaseEpoch = ((events.length / 2 : ℕ) : ℤ) + 1
    omega
  · simp only [beq_iff_eq, kind, false_iff]
    omega
  · rintro _ ⟨⟩
    simp only [List.length_append, List.length_singleton]
    omega
  · rintro _ ⟨⟩
    simp only [free, List.length_append, List.length_singleton, false_iff]
    omega
  · rintro _ ⟨⟩ state
    exact absurd state free

end

end JobView.Timeline

theorem JobStore.waiting_of_claimable (eligible : claimable record now = true) :
    record.state = .pending ∨ record.state = .retryWait := by
  simp only [claimable, Bool.and_eq_true, Bool.or_eq_true, beq_iff_eq] at eligible
  exact eligible.1

/-- A replay is for a parked job, of whose effects none may have happened or still happen. -/
theorem Recovery.of_validateReplay (accepted : validateReplay record effects request = .ok ()) :
    record.id = request.jobID ∧ (record.state = .dead ∨ record.state = .blocked) ∧
      ∀ item ∈ effects, item.state ≠ .confirmed ∧ item.state ≠ .uncertain ∧ item.state ≠ .pending := by
  unfold validateReplay at accepted
  split_ifs at accepted with _ wrong
  simp only [ne_eq, not_or, not_and_or, not_not] at wrong
  split at accepted
  · cases accepted
  next undenied =>
    refine ⟨wrong.1, wrong.2, fun item member => ?_⟩
    have allowed := List.findSome?_eq_none_iff.mp undenied item member
    refine ⟨?_, ?_, ?_⟩ <;> intro state <;> rw [state] at allowed <;> cases allowed

theorem JobChange.timeline {id : Job.ID}
    (change : JobChange id call before after) (timeline : before.Timeline) : after.Timeline := by
  cases change with
  | same => exact timeline
  | created _ fresh =>
    refine ⟨.nil, ?_, ?_, ?_⟩
    · rintro _ ⟨⟩
      simpa using fresh.unclaimed
    · rintro _ ⟨⟩
      simp [fresh.pending]
    · rintro _ ⟨⟩ state
      rw [fresh.pending] at state
      cases state
  | claimed sequence eligible =>
    refine timeline.claim (fun leased => ?_) rfl rfl rfl rfl rfl
    rcases leased ▸ waiting_of_claimable eligible with state | state <;> cases state
  | renewed => exact timeline.rewrite rfl Iff.rfl fun _ => rfl
  | completed sequence own held => exact timeline.close held.leased rfl nofun nofun held.epoch.symm
  | released sequence own held => exact timeline.close held.leased rfl nofun nofun held.epoch.symm
  | failed sequence own held closing =>
    have closes := resultKind_closes closing
    exact timeline.close held.leased rfl closes.free closes.unclaimed held.epoch.symm
  | cancelled waiting =>
    refine timeline.rewrite rfl ⟨nofun, ?_⟩ ?_ <;> intro leased <;> simp [leased] at waiting
  | flagged => exact timeline.rewrite rfl Iff.rfl fun _ => rfl
  | @expired record input _ _ sequence late =>
    refine timeline.close (leased_of_isExpired late) (expireRecord_leaseEpoch input record) ?_ nofun
      (expireRecord_leaseEpoch input record)
    rw [expireRecord_state]
    split <;> exact nofun
  | replayed own accepted =>
    have parked := (Recovery.of_validateReplay accepted).2.1
    refine timeline.rewrite rfl ⟨nofun, ?_⟩ ?_ <;> intro leased <;> simp [leased] at parked

theorem JobView.Timeline.unknown : Timeline { record := none, events := [] } where
  alternating := .nil
  epoch _ found := by cases found
  leased _ found := by cases found
  owner _ found := by cases found

theorem JobSystem.timeline_of_reaches {codec : Recovery.Codec}
    (reached : (machine codec).Reaches Machine.anyStep s) (id : Job.ID) : (s.jobs.view id).Timeline := by
  have kept := reached.invariant (fun s => s.jobs.WellFormed ∧ ∀ id, (s.jobs.view id).Timeline)
    ⟨wellFormed_empty, fun _ => .unknown⟩ (fun s call t _ step inv => ⟨step_wellFormed inv.1 step,
      fun id => (step_change inv.1 step id).timeline (inv.2 id)⟩)
  exact kept.2 id

/-- The lease a call presents and the time it presents it at. -/
def JobCall.lease? : JobCall → Option (Lease × Time)
  | .renewLease lease now _ => some (lease, now)
  | .complete lease now => some (lease, now)
  | .releaseLease lease now => some (lease, now)
  | .fail lease now _ => some (lease, now)
  | _ => none

theorem JobCall.lease?_of_enqueues (enqueues : call.enqueues = true) : call.lease? = none := by
  cases call <;> first | rfl | cases enqueues

/-- The presented epoch is the last one claimed, it is open, belongs to the presented owner and has
not expired at the presented time. -/
structure JobView.Holds (view : JobView) (lease : Lease) (now : Time) : Prop where
  open_epoch : ∃ event, view.events.getLast? = some event ∧ event.kind = .claimed ∧
    event.leaseEpoch = lease.epoch ∧ event.leaseOwner = lease.owner
  unexpired : ∃ record, view.record = some record ∧ now < record.leaseUntil

/-- A call that presents a lease changes only the job of the lease, through a record that resolves
it. -/
theorem JobChange.presented {id : Job.ID}
    (change : JobChange id call before after) (presents : call.lease? = some (lease, now)) (moved : after ≠ before) :
    id = lease.jobID ∧ ∃ record, before.record = some record ∧ record.Authorises lease now := by
  cases change with
  | same => exact absurd rfl moved
  | created enqueues =>
    rw [JobCall.lease?_of_enqueues enqueues] at presents
    cases presents
  | claimed | cancelled | flagged | expired | replayed => cases presents
  | renewed own held | completed _ own held | released _ own held | failed _ own held =>
    obtain ⟨rfl, rfl⟩ := Prod.mk.inj (Option.some.inj presents)
    exact ⟨own.symm, _, rfl, held⟩

theorem JobView.Timeline.holds {view : JobView} (timeline : view.Timeline)
    (found : view.record = some record) (held : record.Authorises lease now) : view.Holds lease now := by
  obtain ⟨event, last, owner⟩ := timeline.owner record found held.leased
  have odd := (timeline.leased record found).mp held.leased
  obtain ⟨opening, last', claimed⟩ := timeline.alternating.last_opens_iff.mpr odd
  cases last.symm.trans last'
  have epoch : event.leaseEpoch = lease.epoch := by
    have numbered := timeline.alternating.last_round last
    have stored := timeline.epoch record found
    rw [← held.epoch, stored, numbered]
  exact ⟨⟨event, last, beq_iff_eq.mp claimed, epoch, owner.trans held.owner⟩, record, found, held.unexpired⟩

/-- In every run, a job's events alternate between the claim and the closing of epochs one, two, three and so on; each epoch
has one claim and at most one closing; a job is leased exactly when its last event is a claim; and a call presenting a lease
changes nothing but the job of the lease, and that only while the lease holds the open epoch. -/
theorem JobSystem.lease_fencing_and_timeline {codec : Recovery.Codec} {s : JobSystem}
    (reached : (machine codec).Reaches Machine.anyStep s) : (∀ id, Alternating (s.jobs.events id) ∧
      (∀ event ∈ s.jobs.events id, ∃! i : ℕ, ∃ claimed, (s.jobs.events id)[i]? = some claimed ∧
        claimed.kind = .claimed ∧ claimed.leaseEpoch = event.leaseEpoch) ∧
      (∀ (i j : ℕ) first second, (s.jobs.events id)[i]? = some first → (s.jobs.events id)[j]? = some second →
        first.kind ≠ .claimed → second.kind ≠ .claimed → first.leaseEpoch = second.leaseEpoch → i = j) ∧
      (∀ record, s.jobs.jobs.lookup id = some record →
        (record.state = .leased ↔ ∃ event, (s.jobs.events id).getLast? = some event ∧ event.kind = .claimed)) ∧
      (s.jobs.jobs.lookup id = none → s.jobs.events id = [])) ∧
    ∀ call lease now t, call.lease? = some (lease, now) → s.step codec call = some t →
      ∀ id, t.jobs.view id ≠ s.jobs.view id → id = lease.jobID ∧ (s.jobs.view id).Holds lease now := by
  have wf := wellFormed_of_reaches reached
  refine ⟨fun id => ?_, ?_⟩
  · have timeline := timeline_of_reaches reached id
    have alternating : Alternating (s.jobs.events id) := timeline.alternating
    refine ⟨alternating, ?_, ?_, ?_, wf.silent⟩
    · intro event member
      obtain ⟨i, opening, found, claimed, epoch⟩ := alternating.exists_opening member
      refine ⟨i, ⟨opening, found, beq_iff_eq.mp claimed, epoch⟩, ?_⟩
      rintro j ⟨other, found', kind, epoch'⟩
      have kinds : (other.kind == .claimed) = (opening.kind == .claimed) := by rw [kind, beq_iff_eq.mp claimed]
      exact alternating.unique found' found kinds (epoch'.trans epoch.symm)
    · intro i j first second foundFirst foundSecond closesFirst closesSecond epoch
      have kinds : (first.kind == .claimed) = (second.kind == .claimed) := by
        rw [beq_eq_false_iff_ne.mpr closesFirst, beq_eq_false_iff_ne.mpr closesSecond]
      exact alternating.unique foundFirst foundSecond kinds epoch
    · intro record found
      have odd := alternating.last_opens_iff
      simp only [beq_iff_eq] at odd
      exact (timeline.leased record found).trans odd.symm
  · intro call lease now t presents step id moved
    obtain ⟨own, record, found, held⟩ := (step_change wf step id).presented presents moved
    exact ⟨own, (timeline_of_reaches reached id).holds found held⟩

/-- A codec for runs whose audit hashes do not matter. -/
def Recovery.Codec.plain : Recovery.Codec := { digest := id, format := fun _ => "" }

/-- One job, enqueued and claimed by `w`. -/
def JobSystem.enqueueAndClaim : List JobCall :=
  [.enqueue 1 { identity := { queueName := "mail", jobName := "send" }, payload := some [] },
   .claim { owner := "w", now := 2, limit := 1, leaseDuration := 10 }]

/-- The job is claimed, given back and claimed again. The lease of the first epoch then changes nothing of it. -/
theorem JobSystem.lease_fencing_after_claim : ∃ s, (machine .plain).run {} (enqueueAndClaim ++
      [.releaseLease { jobID := "job_000001", owner := "w", epoch := 1 } 3,
       .claim { owner := "w", now := 4, limit := 1, leaseDuration := 10 }]) = some s ∧
    (s.jobs.events "job_000001").map (fun event => (event.kind, event.leaseEpoch)) = [(.claimed, 1), (.released, 1),
      (.claimed, 2)] ∧
    Alternating (s.jobs.events "job_000001") ∧
    ∀ now t, s.step .plain (.complete { jobID := "job_000001", owner := "w", epoch := 1 } now) = some t →
      t.jobs.view "job_000001" = s.jobs.view "job_000001" := by
  refine exists_some_and (by decide) fun s run events => ?_
  have fenced := lease_fencing_and_timeline ⟨_, Machine.path_of_run run⟩
  refine ⟨(fenced.1 "job_000001").1, fun now t completed => ?_⟩
  by_contra moved
  obtain ⟨_, ⟨event, last, _, epoch, _⟩, _⟩ := fenced.2 _ _ now t rfl completed _ moved
  have final : (s.jobs.events "job_000001").getLast? = some event := last
  have second := congrArg List.getLast? events
  rw [List.getLast?_map, final] at second
  cases (congrArg Prod.snd (Option.some.inj second)).symm.trans epoch

end RhinoQ.Model
