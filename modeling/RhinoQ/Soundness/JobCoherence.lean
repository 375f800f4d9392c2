import RhinoQ.Soundness.Timeline

/-! # The record of a job and its evidence

The store writes the state of a job and the fields that depend on it by hand, beside the events of its attempts. Along every
run the two agree, except that the end of a lease may fall on the zero time, which the source takes for "not set".
-/

namespace RhinoQ.Model

open Ports JobStore Recovery JobView Job Attempt JobSystem

/-- The end that the call would give a lease is not the zero time. -/
def JobCall.endsLease : JobCall → Bool
  | .claim input => !(input.now + input.leaseDuration).isZero
  | .renewLease _ now extension => !(now + extension).isZero
  | _ => true

/-- The call replays the job. -/
def JobSystem.replays (codec : Codec) (s : JobSystem) (id : ID) : JobCall → Bool
  | .replay effects request => request.jobID == id && (replay codec s.jobs effects s.audit request).1.toOption.isSome
  | _ => false

/-- How many events the job had when it was last replayed in this run. -/
def replayedAt (codec : Codec) (id : ID) : JobSystem → List JobCall → ℕ → ℕ
  | _, [], mark => mark
  | s, call :: rest, mark =>
    match s.step codec call with
    | none => mark
    | some t => replayedAt codec id t rest (if s.replays codec id call then (s.jobs.events id).length else mark)

/-- The record of a job agrees with its events, of which `mark` were there at its last replay. -/
structure Job.Record.Coherent (record : Record) (events : List Event) (mark : ℕ) : Prop where
  leased : record.state = .leased ↔ record.leaseOwner ≠ ""
  blocked : record.blockedReason ≠ .unset ↔ record.state = .blocked
  epoch : record.leaseEpoch = events.countP fun event => event.kind == .claimed
  attempts : (record.attempts : ℤ) = spentClaims events
  crashes : record.crashCount = (events.drop mark).countP fun event => event.kind == .leaseExpired

/-- A step takes a job from one state to another as the table allows, unless it is a replay, and never out of a final one. -/
structure Job.Record.Moves (record next : Record) (call : JobCall) : Prop where
  allowed : (∀ effects request, call ≠ .replay effects request) → next.state ≠ record.state →
    canTransition record.state next.state = true
  final : record.state = .succeeded ∨ record.state = .cancelled → next.state = record.state
  dead : record.state = .dead → (∀ effects request, call ≠ .replay effects request) → next.state = .dead

/-! ## Coherence along a run -/

/-- Coherence, with what an induction needs besides: a leased job has begun an attempt, and the mark lies within the
events. -/
structure Accounted (record : Record) (events : List Event) (mark : ℕ) : Prop extends record.Coherent events mark where
  begun : record.state = .leased → 0 < record.attempts
  marked : mark ≤ events.length

variable {id : ID}

namespace Accounted

variable {record next : Record} {events : List Event} {event : Event} {mark : ℕ} {now : Time}

theorem fresh (stored : Fresh record id) : Accounted record [] 0 where
  leased := by
    simp [stored.pending, stored.unleased.1]
  blocked := by
    simp [stored.pending, stored.unleased.2.2]
  epoch := stored.unclaimed
  attempts := by
    rw [stored.unspent.1]
    rfl
  crashes := stored.unspent.2
  begun leased := by
    rw [stored.pending] at leased
    cases leased
  marked := le_rfl

section
variable (accounted : Accounted record events mark)
include accounted

theorem rewrite (leased : next.state = .leased ↔ next.leaseOwner ≠ "")
    (blocked : next.blockedReason ≠ .unset ↔ next.state = .blocked) (held : next.state = .leased → record.state = .leased)
    (epoch : next.leaseEpoch = record.leaseEpoch) (attempts : next.attempts = record.attempts)
    (crashes : next.crashCount = record.crashCount) : Accounted next events mark where
  leased := leased
  blocked := blocked
  epoch := epoch.trans accounted.epoch
  attempts := attempts ▸ accounted.attempts
  crashes := crashes.trans accounted.crashes
  begun state := attempts ▸ accounted.begun (held state)
  marked := accounted.marked

theorem unblocked (held : record.state = .leased) : record.blockedReason = .unset := by
  by_contra reason
  cases held.symm.trans (accounted.blocked.mp reason)

theorem crashes_append : ((events ++ [event]).drop mark).countP (fun event => event.kind == .leaseExpired) =
      record.crashCount + if event.kind = .leaseExpired then 1 else 0 := by
  rw [List.drop_append_of_le_length accounted.marked, List.countP_append, accounted.crashes, List.countP_singleton]
  simp only [beq_iff_eq]

theorem claim (owned : input.owner ≠ "") (kind : event.kind = .claimed) :
    Accounted (leaseRecord input record) (events ++ [event]) mark where
  leased := ⟨fun _ => owned, fun _ => rfl⟩
  blocked := ⟨fun reason => absurd rfl reason, nofun⟩
  epoch := by
    have epoch := accounted.epoch
    simp only [leaseRecord, List.countP_append, List.countP_singleton, kind, beq_self_eq_true, if_true]
    omega
  attempts := by
    have attempts := accounted.attempts
    rw [spentClaims_append, if_pos kind]
    simp only [leaseRecord]
    omega
  crashes := by
    rw [crashes_append accounted, kind, if_neg nofun]
    rfl
  begun _ := Nat.succ_pos _
  marked := accounted.marked.trans (by simp)

/-- A lease that ends: the attempt is kept or given back, and the event tells which. -/
theorem close (free : next.state ≠ .leased) (unowned : next.leaseOwner = "")
    (blocked : next.blockedReason ≠ .unset ↔ next.state = .blocked) (kind : event.kind ≠ .claimed)
    (epoch : next.leaseEpoch = record.leaseEpoch)
    (attempts : (next.attempts : ℤ) = record.attempts - if event.kind = .released then 1 else 0)
    (crashes : next.crashCount = record.crashCount + if event.kind = .leaseExpired then 1 else 0) :
    Accounted next (events ++ [event]) mark where
  leased := ⟨fun state => absurd state free, fun held => absurd unowned held⟩
  blocked := blocked
  epoch := by
    rw [epoch, accounted.epoch, List.countP_append, List.countP_singleton]
    simp [kind]
  attempts := by
    have before := accounted.attempts
    rw [spentClaims_append, if_neg kind, attempts]
    split_ifs <;> omega
  crashes := crashes.trans (crashes_append accounted).symm
  begun state := absurd state free
  marked := accounted.marked.trans (by simp)

theorem replay : Accounted (replayRecord request record) events events.length where
  leased := ⟨nofun, fun held => absurd rfl held⟩
  blocked := ⟨fun reason => absurd rfl reason, nofun⟩
  epoch := accounted.epoch
  attempts := accounted.attempts
  crashes := by
    rw [List.drop_length]
    rfl
  begun := nofun
  marked := le_rfl

theorem expire (held : record.state = .leased)
    (kind : event.kind = .leaseExpired) : Accounted (expireRecord input record) (events ++ [event]) mark := by
  unfold expireRecord
  dsimp only
  split
  next =>
    refine accounted.close nofun rfl ⟨fun _ => rfl, fun _ => nofun⟩ (by rw [kind]; nofun) rfl ?_ (by rw [kind, if_pos rfl])
    rw [kind, if_neg nofun, sub_zero]
  next =>
    refine accounted.close nofun rfl ⟨fun reason => absurd (accounted.unblocked held) reason, nofun⟩
      (by rw [kind]; nofun) rfl ?_ (by rw [kind, if_pos rfl])
    rw [kind, if_neg nofun, sub_zero]

theorem fail (closing : resultKind transition.state = some kind) (own : event.kind = kind) :
    Accounted (failRecord now transition record) (events ++ [event]) mark := by
  have closes := resultKind_closes closing
  have blocked : (failRecord now transition record).blockedReason ≠ .unset ↔ transition.state = .blocked := by
    unfold failRecord
    dsimp only
    split_ifs with parked unset
    · exact ⟨fun _ => parked, fun _ => nofun⟩
    · exact ⟨fun _ => parked, fun _ => unset⟩
    · exact ⟨fun reason => absurd rfl reason, fun state => absurd state parked⟩
  refine accounted.close closes.free rfl blocked (own ▸ closes.unclaimed) rfl ?_ ?_
  · rw [own, if_neg closes.unreleased, sub_zero]
    rfl
  · rw [own, if_neg closes.unexpired]
    rfl

theorem release (held : record.state = .leased) (kind : event.kind = .released) :
    Accounted (releaseRecord now record) (events ++ [event]) mark := by
  have positive := accounted.begun held
  refine accounted.close nofun rfl ⟨fun reason => absurd (accounted.unblocked held) reason, nofun⟩
    (by rw [kind]; nofun) rfl ?_ (by rw [kind, if_neg nofun]; rfl)
  have given : (releaseRecord now record).attempts = record.attempts - 1 := if_pos positive
  rw [kind, if_pos rfl, given]
  omega

theorem complete (held : record.state = .leased) (kind : event.kind = .succeeded) :
    Accounted (completeRecord record) (events ++ [event]) mark := by
  refine accounted.close nofun rfl ⟨fun reason => absurd (accounted.unblocked held) reason, nofun⟩
    (by rw [kind]; nofun) rfl ?_ (by rw [kind, if_neg nofun]; rfl)
  rw [kind, if_neg nofun, sub_zero]
  rfl

end

end Accounted

/-- The job is accounted for, and a job that is not there was never replayed. -/
structure JobView.Accounted (view : JobView) (mark : ℕ) : Prop where
  unknown : view.record = none → mark = 0
  known : ∀ record, view.record = some record → RhinoQ.Model.Accounted record view.events mark

variable {events : List Event} {record : Record} {mark : ℕ} {after : JobView}

theorem JobView.accounted_some
    (accounted : RhinoQ.Model.Accounted record events mark) : JobView.Accounted { record := some record, events } mark where
  unknown := nofun
  known _ found := Option.some.inj found ▸ accounted

theorem JobChange.accounted (change : JobChange id call before after)
    (unreplayed : ∀ effects request, call = .replay effects request → request.jobID = id → after = before)
    (accounted : before.Accounted mark) : after.Accounted mark := by
  cases change with
  | same => exact accounted
  | created enqueues fresh =>
    rw [accounted.unknown rfl]
    exact accounted_some (.fresh fresh)
  | claimed sequence eligible owned => exact accounted_some ((accounted.known _ rfl).claim owned rfl)
  | renewed own held =>
    have known := accounted.known _ rfl
    exact accounted_some (known.rewrite known.leased known.blocked (fun held => held) rfl rfl rfl)
  | completed sequence own held => exact accounted_some ((accounted.known _ rfl).complete held.leased rfl)
  | released sequence own held => exact accounted_some ((accounted.known _ rfl).release held.leased rfl)
  | failed sequence own held closing => exact accounted_some ((accounted.known _ rfl).fail closing rfl)
  | cancelled waiting =>
    have known := accounted.known _ rfl
    exact accounted_some (known.rewrite ⟨nofun, fun held => absurd rfl held⟩ ⟨fun reason => absurd rfl reason, nofun⟩
      nofun rfl rfl rfl)
  | flagged leased =>
    have known := accounted.known _ rfl
    exact accounted_some (known.rewrite known.leased known.blocked (fun held => held) rfl rfl rfl)
  | expired sequence late =>
    exact accounted_some ((accounted.known _ rfl).expire (leased_of_isExpired late) rfl)
  | replayed own accepted => exact unreplayed _ _ rfl own ▸ accounted

/-- The end of a live lease is set. -/
def JobView.EndsSet (view : JobView) : Prop :=
  ∀ record, view.record = some record → record.state = .leased → record.leaseUntil.isZero = false

theorem JobChange.endsSet (change : JobChange id call before after) (ends : call.endsLease = true)
    (set : before.EndsSet) : after.EndsSet := by
  intro next stored leased
  cases change with
  | same => exact set next stored leased
  | created enqueues fresh =>
    cases stored
    cases fresh.pending.symm.trans leased
  | claimed | renewed =>
    cases stored
    exact Bool.not_eq_true' _ ▸ ends
  | failed sequence own held closing =>
    cases stored
    exact absurd leased (resultKind_closes closing).free
  | flagged held =>
    cases stored
    have kept := set _ rfl held
    exact kept
  | expired sequence late =>
    cases stored
    rw [expireRecord_state] at leased
    split at leased <;> cases leased
  | completed | released | cancelled | replayed =>
    cases stored
    cases leased

/-! ## Replays -/

section
variable {codec : Recovery.Codec} {s t : JobSystem} {id : ID} {call : JobCall} {mark : ℕ}

/-- A replay that is accepted puts the job back. -/
theorem JobSystem.step_replays (wf : s.jobs.WellFormed) (step : s.step codec call = some t)
    (replays : s.replays codec id call = true) :
    ∃ record request, s.jobs.jobs.lookup id = some record ∧
      t.jobs.view id = { record := some (replayRecord request record), events := s.jobs.events id } := by
  cases call with
  | replay effects request =>
    simp only [JobSystem.replays, Bool.and_eq_true, beq_iff_eq] at replays
    obtain ⟨rfl, accepted⟩ := replays
    have jobs : t.jobs = (replay codec s.jobs effects s.audit request).2.1 :=
      (congrArg JobSystem.jobs (Option.some.inj step)).symm
    rcases replay_cases codec s.jobs effects s.audit request with ⟨_, ran⟩ | ⟨record, found, _, ran⟩
    · rw [ran] at accepted
      cases accepted
    · have key : record.id = request.jobID := wf.keyed found
      have own : (replayRecord request record).id = request.jobID := key
      refine ⟨record, request, found, ?_⟩
      rw [jobs, ran, view_putJob, if_pos own.symm]
  | _ => cases replays

/-- A replay that is refused, or of another job. -/
theorem JobSystem.step_unreplayed (step : s.step codec call = some t) (refused : s.replays codec id call = false)
    (effects : List Effect.Record) (request : ReplayRequest) (replay : call = .replay effects request)
      (own : request.jobID = id) :
    t.jobs.view id = s.jobs.view id := by
  subst replay own
  simp only [replays, beq_self_eq_true, Bool.true_and] at refused
  have jobs : t.jobs = (replay codec s.jobs effects s.audit request).2.1 := (congrArg jobs (Option.some.inj step)).symm
  rcases replay_cases codec s.jobs effects s.audit request with ⟨_, ran⟩ | ⟨_, _, _, ran⟩
  · rw [jobs, ran]
  · rw [ran] at refused
    cases refused

theorem JobSystem.step_accounted (wf : s.jobs.WellFormed) (step : s.step codec call = some t)
    (accounted : (s.jobs.view id).Accounted mark) :
    (t.jobs.view id).Accounted (if s.replays codec id call then (s.jobs.events id).length else mark) := by
  split
  next replays =>
    obtain ⟨record, request, found, view⟩ := step_replays wf step replays
    rw [view]
    exact accounted_some (accounted.known record found).replay
  next refused =>
    exact (step_change wf step id).accounted (step_unreplayed step (Bool.eq_false_iff.mpr refused)) accounted

theorem JobSystem.path_accounted (path : (machine codec).Path Machine.anyStep s calls t)
    (wf : s.jobs.WellFormed) (accounted : (s.jobs.view id).Accounted mark) :
    t.jobs.WellFormed ∧ (t.jobs.view id).Accounted (replayedAt codec id s calls mark) ∧
      ((∀ call ∈ calls, call.endsLease = true) → (s.jobs.view id).EndsSet → (t.jobs.view id).EndsSet) := by
  induction path generalizing mark with
  | nil => exact ⟨wf, accounted, fun _ set => set⟩
  | cons _ step _ ih =>
    obtain ⟨final, next, kept⟩ := ih (step_wellFormed wf step) (step_accounted wf step accounted)
    have taken : JobSystem.step codec _ _ = some _ := step
    simp only [replayedAt, taken]
    refine ⟨final, next, fun ends set => kept (fun call member => ends call (.tail _ member)) ?_⟩
    exact (step_change wf step id).endsSet (ends _ (.head _)) set

/-- What a change does to the state of a job. -/
theorem JobChange.moves
    (change : JobChange id call { record := some record, events } after) :
    ∃ next, after.record = some next ∧ record.Moves next call := by
  have moved {next : Record} (allowed : canTransition record.state next.state = true) : record.Moves next call := by
    refine ⟨fun _ _ => allowed, fun final => ?_, fun dead _ => ?_⟩
    · rcases final with state | state <;> rw [state] at allowed <;> cases allowed
    · rw [dead] at allowed
      cases allowed
  have stays {next : Record} (same : next.state = record.state) : record.Moves next call :=
    ⟨fun _ moved => absurd same moved, fun _ => same, fun dead _ => same.trans dead⟩
  cases change with
  | same => exact ⟨record, rfl, stays rfl⟩
  | claimed sequence eligible owned =>
    refine ⟨_, rfl, moved ?_⟩
    rcases waiting_of_claimable eligible with state | state <;> rw [state] <;> rfl
  | renewed own held => exact ⟨_, rfl, stays rfl⟩
  | completed sequence own held => exact ⟨_, rfl, moved (by rw [held.leased]; rfl)⟩
  | released sequence own held => exact ⟨_, rfl, moved (by rw [held.leased]; rfl)⟩
  | @failed kind _ _ transition _ _ sequence own held closing =>
    refine ⟨_, rfl, moved ?_⟩
    change canTransition record.state transition.state = true
    rw [held.leased]
    cases state : transition.state <;> rw [state] at closing <;> first | rfl | cases closing
  | cancelled waiting =>
    refine ⟨_, rfl, moved ?_⟩
    rcases waiting with state | state | state <;> rw [state] <;> rfl
  | flagged leased => exact ⟨_, rfl, stays rfl⟩
  | expired sequence late =>
    refine ⟨_, rfl, moved ?_⟩
    rw [leased_of_isExpired late, expireRecord_state]
    split <;> rfl
  | @replayed _ effects request _ own accepted =>
    have state := (of_validateReplay accepted).2.1
    refine ⟨_, rfl, fun other => absurd rfl (other effects request), fun final => ?_, fun _ other =>
      absurd rfl (other effects request)⟩
    rcases final with done | done <;> rw [done] at state <;> rcases state with state | state <;> cases state

/-- In every run every job is coherent, and the next step moves it as the table allows. A leased job has the end of its lease
set if no call of the run would put one at the zero time. -/
theorem job_coherent {calls : List JobCall} (path : (machine codec).Path Machine.anyStep {} calls s)
    {record : Record} (stored : s.jobs.jobs.lookup id = some record) :
    record.Coherent (s.jobs.events id) (replayedAt codec id {} calls 0) ∧
      ((∀ call ∈ calls, call.endsLease = true) → record.state = .leased → record.leaseUntil.isZero = false) ∧
      ∀ call t, s.step codec call = some t → ∃ next, t.jobs.jobs.lookup id = some next ∧ record.Moves next call := by
  have empty : (({} : JobSystem).jobs.view id).Accounted 0 := by
    refine ⟨fun _ => rfl, fun record found => ?_⟩
    cases found
  have unset : (({} : JobSystem).jobs.view id).EndsSet := by
    intro record found
    cases found
  obtain ⟨wf, accounted, kept⟩ := path_accounted path wellFormed_empty empty
  refine ⟨(accounted.known record stored).toCoherent, fun ends => kept ends unset record stored, fun call t step => ?_⟩
  have change := step_change wf step id
  rw [view_eq_mk stored] at change
  exact change.moves

end

/-- A job that took its worker down, failed for good, was replayed and is claimed again. -/
def crashedAndReplayed : List JobCall :=
  [.enqueue 1 { identity := { queueName := "mail", jobName := "send" }, payload := some [] },
    .claim { owner := "w", now := 2, limit := 1, leaseDuration := 10 },
    .requeueExpired { now := 20, limit := 0, protection := {} } ["job_000001"],
    .claim { owner := "w", now := 21, limit := 1, leaseDuration := 10 },
    .fail { jobID := "job_000001", owner := "w", epoch := 2 } 22 { state := .dead, retryIn := 0, failureClass := "fatal" },
    .replay [] { jobID := "job_000001", actor := "op", reason := "fixed", requestedAt := 30 },
    .claim { owner := "w", now := 31, limit := 1, leaseDuration := 10 }]

/-- The crash before the replay does not count any more; all claims do. -/
theorem crashedAndReplayed_coherent : ∃ (s : JobSystem) (record : Record), s.jobs.jobs.lookup "job_000001" = some record ∧
    record.Coherent (s.jobs.events "job_000001") 4 ∧ record.leaseEpoch = 3 ∧ record.crashCount = 0 ∧
    record.leaseUntil.isZero = false := by
  obtain ⟨s, ran, record, stored, leased, counted⟩ : ∃ s, (machine .plain).run {} crashedAndReplayed = some s ∧
      ∃ record, s.jobs.jobs.lookup "job_000001" = some record ∧ record.state = .leased ∧ record.leaseEpoch = 3 ∧
        record.crashCount = 0 := by
    decide
  have marked : replayedAt .plain "job_000001" {} crashedAndReplayed 0 = 4 := by
    decide
  obtain ⟨coherent, ends, _⟩ := job_coherent (Machine.path_of_run ran) stored
  exact ⟨s, record, stored, marked ▸ coherent, counted.1, counted.2, ends (by decide) leased⟩

/-- A claim whose lease ends at the zero time: the job is leased and its lease end is not set. -/
theorem zero_end_incoherent : ∃ s record, (machine .plain).Reaches Machine.anyStep s ∧
    s.jobs.jobs.lookup "job_000001" = some record ∧ record.state = .leased ∧ record.leaseUntil.isZero = true := by
  simp only [exists_and_left]
  exact Machine.exists_reached [
    .enqueue (-20) { identity := { queueName := "mail", jobName := "send" }, payload := some [] },
    .claim { owner := "w", now := -10, limit := 1, leaseDuration := 10 }] (by decide)

end RhinoQ.Model
