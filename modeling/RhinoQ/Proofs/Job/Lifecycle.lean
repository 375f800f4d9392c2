import RhinoQ.Proofs.Job.Store

/-! # The lifecycle of one job

`JobChange` lists everything one store call can do to the view of one job, with the guard it passed. An
invariant of single jobs is proved by cases on it.
-/

namespace RhinoQ.Model

open Ports JobStore Attempt Job

variable {id : ID} {order : List ID} {s t : JobStore} {codec : Recovery.Codec}

/-- The calls that create jobs. -/
def JobCall.enqueues : JobCall → Bool
  | .enqueue _ _ => true
  | .enqueueBatch _ => true
  | _ => false

/-- A job that failed is neither leased nor pending, and its closing event tells of the failure. -/
structure Attempt.Closes (state : State) (kind : Kind) : Prop where
  free : state ≠ .leased
  unqueued : state ≠ .pending
  unclaimed : kind ≠ .claimed
  unreleased : kind ≠ .released
  unexpired : kind ≠ .leaseExpired

theorem Attempt.resultKind_closes (closing : resultKind state = some kind) : Closes state kind := by
  cases state <;> cases closing <;> exact ⟨nofun, nofun, nofun, nofun, nofun⟩

/-- What one call can do to the view of job `id`. -/
inductive JobChange (id : ID) : JobCall → JobView → JobView → Prop
  | same (call : JobCall) (view : JobView) : JobChange id call view view
  | created (enqueues : call.enqueues = true) (fresh : Fresh record id) :
      JobChange id call { record := none, events := [] } { record := some record, events := [] }
  | claimed {events : List Event} (sequence : ℕ) (eligible : claimable record input.now = true)
      (owned : input.owner ≠ "") :
      JobChange id (.claim input) { record := some record, events } (claimedView input record events sequence)
  | renewed {events : List Event} (own : lease.jobID = id) (held : record.Authorises lease now) :
      JobChange id (.renewLease lease now extension) { record := some record, events }
        { record := some (renewRecord now extension record), events }
  | completed {events : List Event} (sequence : ℕ) (own : lease.jobID = id) (held : record.Authorises lease now) :
      JobChange id (.complete lease now) { record := some record, events }
        { record := some (completeRecord record)
          events := events ++
            [{ closingEvent lease now (completeRecord record) record.attempts .succeeded with sequence }] }
  | released {events : List Event} (sequence : ℕ) (own : lease.jobID = id) (held : record.Authorises lease now) :
      JobChange id (.releaseLease lease now) { record := some record, events }
        { record := some (releaseRecord now record)
          events := events ++
            [{ closingEvent lease now (releaseRecord now record) record.attempts .released with sequence }] }
  | failed {events : List Event} (sequence : ℕ) (own : lease.jobID = id)
      (held : record.Authorises lease now) (closing : resultKind transition.state = some kind) :
      JobChange id (.fail lease now transition) { record := some record, events }
        { record := some (failRecord now transition record)
          events := events ++
            [{ failEvent lease now transition (failRecord now transition record) kind with sequence }] }
  | cancelled {events : List Event}
      (waiting : record.state = .pending ∨ record.state = .retryWait ∨ record.state = .blocked) :
      JobChange id (.requestCancel id) { record := some record, events }
        { record := some (cancelRecord record), events }
  | flagged {events : List Event} (leased : record.state = .leased) :
      JobChange id (.requestCancel id) { record := some record, events }
        { record := some { record with cancelRequested := true }, events }
  | expired {order : List ID} {events : List Event} (sequence : ℕ) (late : isExpired input.now record = true) :
      JobChange id (.requeueExpired input order) { record := some record, events }
        (expiredView input id record events sequence)
  | replayed {events : List Event} (own : request.jobID = id)
      (accepted : Recovery.validateReplay record effects request = .ok ()) :
      JobChange id (.replay effects request) { record := some record, events }
        { record := some (Recovery.replayRecord request record), events }

theorem JobStore.view_eq_mk
    (found : s.jobs.lookup id = some record) : s.view id = { record := some record, events := s.events id } := by
  rw [view, found]

/-- What one call can do to the store: each view changes in one of these ways, and only enqueues take identities. -/
structure JobStore.Changed (call : JobCall) (s t : JobStore) : Prop where
  view (id : ID) : JobChange id call (s.view id) (t.view id)
  nextID (other : call.enqueues = false) : t.nextID = s.nextID

section
variable {call : JobCall} {record updated : Record} {key : ID} {s t : JobStore} {lease : Lease} {now : Time}

theorem JobStore.Changed.refl : Changed call s s := ⟨fun _ => .same _ _, fun _ => rfl⟩

theorem JobStore.Extends.changed (step : s.Extends t) (wf : s.WellFormed) (enqueues : call.enqueues = true) :
    Changed call s t := by
  refine ⟨fun id => ?_, fun other => ?_⟩
  · have events : t.events id = s.events id := by rw [events, events, step.attempts]
    rcases step.job id with same | ⟨absent, record, present, fresh, _⟩
    · have views : t.view id = s.view id := by rw [view, view, same, events]
      rw [views]
      exact .same call _
    · rw [view, view, events, wf.silent absent, absent, present]
      exact .created enqueues fresh
  · rw [enqueues] at other
    cases other

theorem JobStore.changed_of_view (updated : Record) (new : List Event) (found : s.jobs.lookup key = some record)
    (counter : t.nextID = s.nextID)
    (views : ∀ id, t.view id = if id = key then { record := some updated, events := s.events id ++ new } else s.view id)
    (change : ∀ events, JobChange key call { record := some record, events }
      { record := some updated, events := events ++ new }) :
    Changed call s t := by
  refine ⟨fun id => ?_, fun _ => counter⟩
  rw [views]
  split
  next mine =>
    subst mine
    rw [view_eq_mk found]
    exact change _
  next => exact .same _ _

theorem JobStore.changed_insert (found : s.jobs.lookup key = some record)
    (change : ∀ events, JobChange key call { record := some record, events } { record := some updated, events }) :
    Changed call s { s with jobs := s.jobs.insert key updated } :=
  changed_of_view updated [] found rfl (by simp [view_insertJob]) (by simpa using change)

theorem JobStore.fenced_changed {act : Record → α × JobStore}
    (acts : ∀ record, s.jobs.lookup lease.jobID = some record → record.Authorises lease now →
      Changed call s (act record).2) :
    Changed call s (s.fenced lease now act).2 := by
  unfold fenced
  split
  next => exact .refl
  next record success =>
    obtain ⟨found, held⟩ := authoritative_eq_ok.mp success
    exact acts record found held

theorem JobStore.closing_changed (wf : s.WellFormed) (close : Record → Record)
    (event : Record → Event) (keeps : ∀ record, (close record).id = record.id)
    (own : ∀ record, (event record).jobID = record.id) (change : ∀ record events sequence, record.Authorises lease now →
      JobChange lease.jobID call { record := some record, events }
        { record := some (close record), events := events ++ [{ event record with sequence }] }) :
    Changed call s (s.fenced lease now fun record => ((), (s.putJob (close record)).appendAttempt (event record))).2 := by
  refine fenced_changed fun record found held => changed_of_view _ _ found rfl (fun id => ?_) fun events =>
    change record events (s.nextEvent + 1) held
  rw [view_put_append _ _ _ _ ((own record).trans (keeps record).symm), keeps, wf.keyed found]

section
variable (wf : s.WellFormed)
include wf

theorem JobStore.renewLease_changed (lease : Lease) (now : Time) (extension : Duration) :
    Changed (.renewLease lease now extension) s (s.renewLease lease now extension).2 := by
  unfold renewLease
  split
  · exact .refl
  · refine fenced_changed fun record found held => ?_
    have key : (renewRecord now extension record).id = record.id := rfl
    dsimp only [putJob]
    rw [key, wf.keyed found]
    exact changed_insert found fun _ => .renewed rfl held

theorem JobStore.complete_changed (lease : Lease) (now : Time) :
    Changed (.complete lease now) s (s.complete lease now).2 := by
  unfold complete
  split
  · exact .refl
  exact closing_changed wf completeRecord
    (fun record => closingEvent lease now (completeRecord record) record.attempts .succeeded)
    (fun _ => rfl) (fun _ => rfl) (fun _ _ sequence held => .completed sequence rfl held)

theorem JobStore.releaseLease_changed (lease : Lease) (now : Time) :
    Changed (.releaseLease lease now) s (s.releaseLease lease now).2 := by
  unfold releaseLease
  split
  · exact .refl
  exact closing_changed wf (releaseRecord now)
    (fun record => closingEvent lease now (releaseRecord now record) record.attempts .released)
    (fun _ => rfl) (fun _ => rfl) (fun _ _ sequence held => .released sequence rfl held)

theorem JobStore.fail_changed (lease : Lease) (now : Time) (transition : FailureTransition) :
    Changed (.fail lease now transition) s (s.fail lease now transition).2 := by
  unfold fail
  split
  · exact .refl
  split
  next => exact .refl
  rename_i kind closing
  exact closing_changed wf (failRecord now transition)
    (fun record => failEvent lease now transition (failRecord now transition record) kind)
    (fun _ => rfl) (fun _ => rfl) (fun _ _ sequence held => .failed sequence rfl held closing)

theorem JobStore.claim_changed (input : ClaimInput) : Changed (.claim input) s (s.claim input).2 := by
  refine ⟨fun id => ?_, fun _ => ?_⟩
  · rcases claim_view wf input id with ⟨same, _⟩ | ⟨record, sequence, found, eligible, valid, _, final⟩
    · rw [same]
      exact .same _ _
    · rw [final, view_eq_mk found]
      refine .claimed sequence eligible fun unowned => ?_
      rw [validateClaim, if_pos (.inl unowned)] at valid
      cases valid
  · obtain ⟨_, _, _, _, rest⟩ := claim_rest s input
    rw [rest]

end

theorem JobStore.requestCancel_changed (s : JobStore) (key : ID) :
    Changed (.requestCancel key) s (s.requestCancel key).2 := by
  unfold requestCancel
  split
  next => exact .refl
  rename_i record found
  split
  next state => exact changed_insert found fun _ => .cancelled (.inl state)
  next state => exact changed_insert found fun _ => .cancelled (.inr (.inl state))
  next state => exact changed_insert found fun _ => .cancelled (.inr (.inr state))
  next state => exact changed_insert found fun _ => .flagged state
  next => exact .refl
  next => exact .refl
  next => exact .refl

end

theorem JobStore.requeueExpired_spec (input : ReapInput) (distinct : order.Nodup) :
    (s.requeueExpired input order).2.nextID = s.nextID ∧ ∀ id, Reaped input s (s.requeueExpired input order).2
        (match (s.requeueExpired input order).1 with
          | .ok result => result.expired
          | .error _ => []) id := by
  unfold requeueExpired
  split
  next => exact ⟨rfl, fun id => .kept rfl (by simp)⟩
  obtain ⟨batch, listed, _, counter, views⟩ :=
    requeueEach_spec input (normalizeReapLimit input.limit) distinct s {}
  refine ⟨counter, ?_⟩
  have equal : (requeueEach input (normalizeReapLimit input.limit) s {} order).1.expired = batch := listed
  dsimp only
  rw [equal]
  exact views

theorem JobStore.requeueExpired_changed (input : ReapInput) (distinct : order.Nodup) :
    Changed (.requeueExpired input order) s (s.requeueExpired input order).2 := by
  obtain ⟨counter, reaped⟩ := requeueExpired_spec (s := s) input distinct
  refine ⟨fun id => ?_, fun _ => counter⟩
  cases reaped id with
  | kept same _ =>
    rw [same]
    exact .same _ _
  | expired record sequence found late final _ _ =>
    rw [final, view_eq_mk found]
    exact .expired sequence late

/-- A replay is refused with nothing written, or it revives a job that passed the check and appends its row. -/
theorem Recovery.replay_cases (codec : Codec) (jobs : JobStore) (effects : List Effect.Record) (log : AuditLog)
    (request : ReplayRequest) :
    (∃ text, replay codec jobs effects log request = (.error text, jobs, log)) ∨
      ∃ record, jobs.jobs.lookup request.jobID = some record ∧ validateReplay record effects request = .ok () ∧
        replay codec jobs effects log request =
          (.ok (replayRecord request record, auditRow codec log request record.id),
            jobs.putJob (replayRecord request record),
            { nextID := log.nextID + 1
              audits := log.audits.insert record.id
                (log.history record.id ++ [auditRow codec log request record.id]) }) := by
  unfold replay
  split
  next => exact .inl ⟨_, rfl⟩
  rename_i record found
  split
  next => exact .inl ⟨_, rfl⟩
  next accepted => exact .inr ⟨record, found, accepted, rfl⟩

theorem Recovery.replay_changed (wf : s.WellFormed) (effects : List Effect.Record) (log : AuditLog)
    (request : ReplayRequest) :
    Changed (.replay effects request) s (replay codec s effects log request).2.1 := by
  rcases replay_cases codec s effects log request with ⟨_, ran⟩ | ⟨record, found, accepted, ran⟩
  · rw [ran]
    exact .refl
  · have key : (replayRecord request record).id = record.id := rfl
    rw [ran, putJob, key, wf.keyed found]
    exact changed_insert found fun _ => .replayed rfl accepted

section
variable {codec : Recovery.Codec} {s t : JobSystem} {call : JobCall}

/-- Every step of the job machine changes each job's view in one of the listed ways. -/
theorem JobSystem.step_changed (wf : s.jobs.WellFormed) (step : s.step codec call = some t) :
    Changed call s.jobs t.jobs := by
  have named {call : JobCall} (name : String) (act : JobStore) (quiet : Changed call s.jobs act) :
      Changed call s.jobs (s.jobs.withQueueName name act).2 := by
    unfold withQueueName
    split
    · exact .refl
    · exact quiet
  have configured {call : JobCall} {paused rateLimits admission} : Changed call s.jobs
    { s.jobs with paused, rateLimits, admission } :=
    ⟨fun _ => .same _ _, fun _ => rfl⟩
  cases call with
  | enqueue now input =>
    cases step
    exact (enqueueLocked_extends wf now input).changed wf rfl
  | enqueueBatch inputs =>
    cases step
    exact (enqueueBatch_extends wf inputs).changed wf rfl
  | claim input =>
    cases step
    exact claim_changed wf input
  | renewLease lease now extension =>
    cases step
    exact renewLease_changed wf lease now extension
  | complete lease now =>
    cases step
    exact complete_changed wf lease now
  | releaseLease lease now =>
    cases step
    exact releaseLease_changed wf lease now
  | fail lease now transition =>
    cases step
    exact fail_changed wf lease now transition
  | requestCancel key =>
    cases step
    exact requestCancel_changed s.jobs key
  | requeueExpired input order =>
    simp only [JobSystem.step] at step
    split at step
    next permuted =>
      cases step
      exact requeueExpired_changed input (permuted.nodup_iff.mpr s.jobs.jobs.keys_nodup)
    next => cases step
  | replay effects request =>
    cases step
    exact Recovery.replay_changed wf effects s.audit request
  | setQueueRateLimit name limit =>
    cases step
    rw [setQueueRateLimit]
    split
    · exact .refl
    · exact configured
  | setQueueAdmission name policy =>
    cases step
    rw [setQueueAdmission]
    split
    · exact .refl
    split
    · exact .refl
    · exact configured
  | removeQueueRateLimit name | removeQueueAdmission name | pauseQueue name | resumeQueue name =>
    cases step
    exact named name _ configured

theorem JobSystem.step_change (wf : s.jobs.WellFormed) (step : s.step codec call = some t) (id : ID) :
    JobChange id call (s.jobs.view id) (t.jobs.view id) := (step_changed wf step).view id

end

/-- No call forgets a job, and only an enqueue makes one known. -/
theorem JobChange.known
    (change : JobChange id call before after) (other : call.enqueues = false) : after.record = none ∧ before = after ∨
      ∃ old new, before.record = some old ∧ after.record = some new ∧ new.id = old.id := by
  cases change with
  | same call view =>
    cases found : before.record with
    | none => exact .inl ⟨rfl, rfl⟩
    | some record => exact .inr ⟨record, record, rfl, rfl, rfl⟩
  | created enqueues _ => rw [enqueues] at other; cases other
  | claimed => exact .inr ⟨_, _, rfl, rfl, rfl⟩
  | renewed => exact .inr ⟨_, _, rfl, rfl, rfl⟩
  | completed => exact .inr ⟨_, _, rfl, rfl, rfl⟩
  | released => exact .inr ⟨_, _, rfl, rfl, rfl⟩
  | failed => exact .inr ⟨_, _, rfl, rfl, rfl⟩
  | cancelled => exact .inr ⟨_, _, rfl, rfl, rfl⟩
  | flagged => exact .inr ⟨_, _, rfl, rfl, rfl⟩
  | expired sequence late =>
    refine .inr ⟨_, _, rfl, rfl, ?_⟩
    rw [expireRecord]
    split <;> rfl
  | replayed => exact .inr ⟨_, _, rfl, rfl, rfl⟩

theorem JobSystem.step_wellFormed {s t : JobSystem}
    (wf : s.jobs.WellFormed) (step : s.step codec call = some t) : t.jobs.WellFormed := by
  cases enqueues : call.enqueues with
  | true =>
    cases call with
    | enqueue now input =>
      cases step
      exact (enqueueLocked_extends wf now input).wellFormed wf
    | enqueueBatch inputs =>
      cases step
      exact (enqueueBatch_extends wf inputs).wellFormed wf
    | _ => cases enqueues
  | false =>
    have known := fun id => (step_change wf step id).known enqueues
    refine ⟨?_, ?_, ?_⟩
    · intro id record found
      rcases known id with ⟨absent, _⟩ | ⟨old, new, present, stored, same⟩
      · rw [view_record, found] at absent
        cases absent
      · cases stored.symm.trans found
        exact same.trans (wf.keyed present)
    · intro id absent
      rcases known id with ⟨_, same⟩ | ⟨_, _, _, stored, _⟩
      · have events := congrArg JobView.events same
        have record := congrArg JobView.record same
        exact events.symm.trans (wf.silent (record.trans absent))
      · rw [view_record, absent] at stored
        cases stored
    · intro id record found
      rcases known id with ⟨absent, _⟩ | ⟨old, _, present, _, _⟩
      · rw [view_record, found] at absent
        cases absent
      · rw [(step_changed wf step).nextID enqueues]
        exact wf.generated present

theorem JobSystem.wellFormed_of_reaches {s : JobSystem}
    (reached : (machine codec).Reaches Machine.anyStep s) : s.jobs.WellFormed :=
  reached.invariant (·.jobs.WellFormed) wellFormed_empty fun _ _ _ _ step wf => step_wellFormed wf step

/-- The claims of a job that were not given back. -/
def spentClaims (events : List Event) : ℤ :=
  events.countP (fun event => event.kind == .claimed) - events.countP fun event => event.kind == .released

theorem spentClaims_append (events : List Event) (event : Event) : spentClaims (events ++ [event]) =
      spentClaims events + if event.kind = .claimed then 1 else if event.kind = .released then -1 else 0 := by
  simp only [spentClaims, List.countP_append, List.countP_cons, List.countP_nil, beq_iff_eq]
  split_ifs with claimed released
  · rw [claimed] at released
    cases released
  all_goals omega

end RhinoQ.Model
