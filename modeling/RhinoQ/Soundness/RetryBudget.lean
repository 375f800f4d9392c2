import RhinoQ.Proofs.Job.Worker
import RhinoQ.Soundness.Timeline

/-! # The budgets of a job

The worker compares the claimed attempt with the limit of its policy, and the reaper counts the leases that
expired, so a job is claimed at most `m + c - 1` times beyond what is released. The remote API compares the
attempt its caller names.
-/

namespace RhinoQ.Model

open Ports JobStore JobSystem Attempt Job

variable {now : Time} {call : JobCall} {before after : JobView} {id : ID} {m : ℤ} {state : State}

/-- What a job has spent, and what it may still spend: an execution that failed under the limit `m`
waits again, and so does one whose lease expired while fewer than `c` did. -/
structure Budget (m c : ℤ) (record : Record) (events : List Event) : Prop where
  spent : spentClaims events = record.attempts
  bounded : (record.attempts : ℤ) ≤ m + c - 1
  waiting : record.state = .pending ∨ record.state = .retryWait →
    (record.attempts : ℤ) < m + record.crashCount ∧ (record.crashCount : ℤ) < c
  leased : record.state = .leased →
    0 < record.attempts ∧ (record.attempts : ℤ) ≤ m + record.crashCount ∧ (record.crashCount : ℤ) < c

/-- The call keeps job `id` to the budgets: it schedules another execution only below `m` and expires leases with `c`. -/
def JobCall.Thrifty (m c : ℤ) (id : ID) (view : JobView) : JobCall → Prop
  | .replay _ _ => False
  | .fail lease now transition => lease.jobID = id → transition.state = .retryWait →
    ∀ record, view.record = some record → record.Authorises lease now → (record.attempts : ℤ) < m
  | .requeueExpired input _ => input.protection.normalize.maxWorkerCrashesPerJob = c
  | _ => True

namespace Budget

variable {m c : ℤ} {record next : Record} {events : List Event} {event : Event}

theorem fresh (limit : 0 < m) (crashes : 0 < c) (stored : Fresh record id) : Budget m c record [] := by
  obtain ⟨attempts, crashed⟩ := stored.unspent
  refine ⟨?_, ?_, ?_, ?_⟩
  · rw [attempts]
    rfl
  · omega
  · intro _
    omega
  · intro leased
    rw [stored.pending] at leased
    cases leased

variable (budget : Budget m c record events)
include budget

theorem rewrite (state : next.state = record.state)
    (attempts : next.attempts = record.attempts) (crashes : next.crashCount = record.crashCount) :
    Budget m c next events where
  spent := attempts ▸ budget.spent
  bounded := attempts ▸ budget.bounded
  waiting := by
    rw [state, attempts, crashes]
    exact budget.waiting
  leased := by
    rw [state, attempts, crashes]
    exact budget.leased

theorem cancel : Budget m c (cancelRecord record) events where
  spent := budget.spent
  bounded := budget.bounded
  waiting queued := by rcases queued with state | state <;> cases state
  leased state := by cases state

theorem claim (eligible : claimable record now = true)
    (kind : event.kind = .claimed) : Budget m c (leaseRecord input record) (events ++ [event]) := by
  obtain ⟨attempts, crashes⟩ := budget.waiting (waiting_of_claimable eligible)
  have spent := budget.spent
  have counted : (leaseRecord input record).attempts = record.attempts + 1 := rfl
  have same : (leaseRecord input record).crashCount = record.crashCount := rfl
  refine ⟨?_, ?_, ?_, ?_⟩
  · rw [spentClaims_append, if_pos kind, counted]
    omega
  · omega
  · rintro (state | state) <;> cases state
  · intro _
    omega

theorem release (held : record.state = .leased)
    (kind : event.kind = .released) : Budget m c (releaseRecord now record) (events ++ [event]) := by
  obtain ⟨positive, attempts, crashes⟩ := budget.leased held
  have spent := budget.spent
  have bounded := budget.bounded
  have given : (releaseRecord now record).attempts = record.attempts - 1 := if_pos positive
  have same : (releaseRecord now record).crashCount = record.crashCount := rfl
  refine ⟨?_, ?_, ?_, ?_⟩
  · rw [spentClaims_append, kind, if_neg nofun, if_pos rfl, given]
    omega
  · omega
  · intro _
    omega
  · intro state
    cases state

/-- An execution that ends keeps its attempt. What it leaves waiting has to stay within both limits. -/
theorem close (attempts : next.attempts = record.attempts) (free : next.state ≠ .leased)
    (kind : event.kind ≠ .claimed ∧ event.kind ≠ .released) (waiting : next.state = .pending ∨ next.state = .retryWait →
      (record.attempts : ℤ) < m + next.crashCount ∧ (next.crashCount : ℤ) < c) : Budget m c next (events ++ [event]) where
  spent := by
    rw [spentClaims_append, if_neg kind.1, if_neg kind.2, budget.spent, attempts, Int.add_zero]
  bounded := attempts ▸ budget.bounded
  waiting := attempts ▸ waiting
  leased state := absurd state free

/-- A lease that expires counts one crash, and parks the job at the last one it may have. -/
theorem expire (held : record.state = .leased)
    (limit : input.protection.normalize.maxWorkerCrashesPerJob = c) (positive : 0 < c)
    (kind : event.kind ≠ .claimed ∧ event.kind ≠ .released) :
    Budget m c (expireRecord input record) (events ++ [event]) := by
  obtain ⟨_, attempts, _⟩ := budget.leased held
  have crashes : (expireRecord input record).crashCount = record.crashCount + 1 := by
    unfold expireRecord
    dsimp only
    split <;> rfl
  have same : (expireRecord input record).attempts = record.attempts := by
    unfold expireRecord
    dsimp only
    split <;> rfl
  refine budget.close same ?_ kind ?_
  · rw [expireRecord_state]
    split <;> exact nofun
  · rw [expireRecord_state, crashes]
    split
    · rintro (state | state) <;> cases state
    rename_i survived
    intro _
    simp only [Protection.isPoisoned, decide_eq_true_eq, not_le] at survived
    rw [Protection.normalize, if_neg (by omega), limit] at survived
    omega

end Budget

/-- The budget of a job, whatever is stored of it. -/
def JobView.Budgeted (m c : ℤ) (view : JobView) : Prop := ∀ record, view.record = some record → Budget m c record view.events

/-- A call that keeps to the budgets keeps every job within them. -/
theorem JobChange.budgeted (limit : 0 < m) (crashes : 0 < c)
    (change : JobChange id call before after) (thrifty : call.Thrifty m c id before) (budget : before.Budgeted m c) :
    after.Budgeted m c := by
  cases change with
  | same => exact budget
  | created _ stored =>
    rintro _ ⟨⟩
    exact .fresh limit crashes stored
  | claimed sequence eligible =>
    rintro _ ⟨⟩
    exact (budget _ rfl).claim eligible rfl
  | renewed =>
    rintro _ ⟨⟩
    exact (budget _ rfl).rewrite rfl rfl rfl
  | completed =>
    rintro _ ⟨⟩
    exact (budget _ rfl).close rfl nofun ⟨nofun, nofun⟩ (by rintro (state | state) <;> cases state)
  | released sequence own held =>
    rintro _ ⟨⟩
    exact (budget _ rfl).release held.leased rfl
  | @failed kind lease now transition record events sequence own held closing =>
    rintro _ ⟨⟩
    have closes := resultKind_closes closing
    refine (budget _ rfl).close rfl closes.free ⟨closes.unclaimed, closes.unreleased⟩ ?_
    rintro (state | scheduled)
    · exact absurd state closes.unqueued
    · have below := thrifty own scheduled record rfl held
      have crashed := ((budget _ rfl).leased held.leased).2.2
      have same : (failRecord now transition record).crashCount = record.crashCount := rfl
      omega
  | cancelled =>
    rintro _ ⟨⟩
    exact (budget _ rfl).cancel
  | flagged =>
    rintro _ ⟨⟩
    exact (budget _ rfl).rewrite rfl rfl rfl
  | expired sequence late =>
    rintro _ ⟨⟩
    exact (budget _ rfl).expire (leased_of_isExpired late) thrifty crashes ⟨nofun, nofun⟩
  | replayed => exact thrifty.elim

namespace Worker

variable {codec : Recovery.Codec} {config : Config} {p q : State}

theorem Config.policy_pos (config : Config) : 0 < config.policy.maxAttempts := by
  simp only [Config.policy, Config.withDefaults]
  split_ifs <;> omega

theorem Config.protection_pos (config : Config) : 0 < config.protection.maxWorkerCrashesPerJob := by
  simp only [Config.protection, Protection.normalize, defaultMaxWorkerCrashesPerJob]
  split_ifs <;> dsimp only <;> omega

/-- The reaper's store normalizes once more what is normalized already. -/
theorem Config.reapInput_crashes (config : Config) (now : Time) :
    (config.reapInput now).protection.normalize.maxWorkerCrashesPerJob = config.protection.maxWorkerCrashesPerJob := by
  have positive := config.protection_pos
  simp only [Config.reapInput]
  rw [Protection.normalize, if_neg (by omega)]

/-- Every job is within the budgets of the runtime, and every record in hand is a copy. -/
structure Within (config : Config) (p : State) : Prop where
  stored : p.shared.jobs.WellFormed
  budget : ∀ id, (p.shared.jobs.view id).Budgeted config.policy.maxAttempts config.protection.maxWorkerCrashesPerJob
  copied : ∀ t record, (p.thread t).record = some record → (p.shared.jobs.view record.id).Copied record

theorem Within.start : Within config (machine codec config).start where
  stored := wellFormed_empty
  budget _ _ found := by cases found
  copied _ _ held := by cases held

/-- A worker compares the attempt it claimed, which is the stored one while its lease is good. -/
theorem Within.thrifty (within : Within config p) (permitted : Permitted config p call) (id : ID) :
    call.Thrifty config.policy.maxAttempts config.protection.maxWorkerCrashesPerJob id (p.shared.jobs.view id) := by
  cases call with
  | replay => exact permitted
  | fail lease now transition =>
    intro own scheduled record found held
    obtain ⟨t, copy, in_hand, rfl, below⟩ := permitted scheduled
    obtain ⟨stored, present, _, same⟩ := within.copied t copy in_hand
    have named : copy.id = id := own
    rw [named, found] at present
    cases present
    rw [same held.leased held.epoch]
    exact below
  | requeueExpired input order =>
    obtain ⟨now, rfl⟩ := permitted
    exact config.reapInput_crashes now
  | _ => trivial

theorem Within.step (within : Within config p) (stepped : Stepped codec config p q) : Within config q := by
  have copies : ∀ t record, (q.thread t).record = some record →
      (∀ id copy, (p.shared.jobs.view id).Copied copy → (q.shared.jobs.view id).Copied copy) →
      (q.shared.jobs.view record.id).Copied record := by
    intro t record held kept
    rcases stepped.copies within.stored t record held with before | stored
    · exact kept _ _ (within.copied t record before)
    · exact ⟨record, stored, le_rfl, fun _ _ => rfl⟩
  rcases stepped.shared with same | ⟨call, permitted, step⟩
  · refine ⟨same ▸ within.stored, same ▸ within.budget, ?_⟩
    intro t record held
    refine copies t record held fun id copy copied => ?_
    rw [same]
    exact copied
  · have change := fun id => step_change within.stored step id
    refine ⟨step_wellFormed within.stored step, ?_, ?_⟩
    · intro id
      exact (change id).budgeted config.policy_pos config.protection_pos (within.thrifty permitted id) (within.budget id)
    · intro t record held
      exact copies t record held fun id copy copied => (change id).copied copied

/-- In every run of workers and reapers, a job is claimed at most `m + c - 1` times beyond the claims
that were given back, and once it is, no claim selects it. -/
theorem bounded_executions (reached : (machine codec config).Reaches Machine.anyStep p) (id : ID) :
    spentClaims (p.shared.jobs.events id) ≤ config.policy.maxAttempts + config.protection.maxWorkerCrashesPerJob - 1 ∧
      (spentClaims (p.shared.jobs.events id) = config.policy.maxAttempts + config.protection.maxWorkerCrashesPerJob - 1 →
        ∀ record, p.shared.jobs.jobs.lookup id = some record → ∀ now, claimable record now = false) := by
  have within := reached.invariant (Within config) .start fun _ _ _ _ step within => within.step (stepped_of_step step)
  have limit := config.policy_pos
  have crashes := config.protection_pos
  constructor
  · cases found : p.shared.jobs.jobs.lookup id with
    | none =>
      rw [within.stored.silent found]
      have nothing : spentClaims [] = 0 := rfl
      omega
    | some record =>
      have budget := within.budget id record found
      have spent : spentClaims (p.shared.jobs.events id) = record.attempts := budget.spent
      rw [spent]
      exact budget.bounded
  · intro exhausted record found now
    have budget := within.budget id record found
    have spent : spentClaims (p.shared.jobs.events id) = record.attempts := budget.spent
    rw [Bool.eq_false_iff]
    intro eligible
    obtain ⟨attempts, crashed⟩ := budget.waiting (waiting_of_claimable eligible)
    omega

/-- With two attempts and two crashes: a failure that is retried, a goroutine that dies and the third claim. -/
def failAndCrash : List Event :=
  [.call (.enqueue 1 { identity := { queueName := "mail", jobName := "send" }, payload := some [] }),
   .claim { owner := "w", now := 2, limit := 1, leaseDuration := 10 } [0], .start 0 true,
   .returned 0 (.failed .transient 0), .close 0 3 0,
   .claim { owner := "w", now := 2000000000, limit := 1, leaseDuration := 10 } [0], .start 0 true, .crash 0,
   .reap 2000000010 ["job_000001"],
   .claim { owner := "w", now := 2000000020, limit := 1, leaseDuration := 10 } [1]]

theorem bounded_executions_third_claim :
    ∃ p, (machine .plain { maxAttempts := 2, maxWorkerCrashes := 2 }).run (machine .plain {}).start failAndCrash = some p ∧
      spentClaims (p.shared.jobs.events "job_000001") = 3 ∧
      ∀ record, p.shared.jobs.jobs.lookup "job_000001" = some record → ∀ now, claimable record now = false := by
  refine exists_some_and (by decide +kernel) fun p run spent => ?_
  exact (bounded_executions ⟨failAndCrash, Machine.path_of_run run⟩ "job_000001").2 spent

end Worker

/-- Every failure that was retried, by the attempt the store had when it was. -/
def JobView.RetriedBelow (m : ℤ) (view : JobView) : Prop :=
  ∀ event ∈ view.events, event.kind = .retryScheduled → (event.attempt : ℤ) < m

theorem JobView.RetriedBelow.append (below : before.RetriedBelow m)
    (events : after.events = before.events ++ [event]) (last : event.kind = .retryScheduled → (event.attempt : ℤ) < m) :
    after.RetriedBelow m := by
  intro old member retried
  rw [events, List.mem_append, List.mem_singleton] at member
  rcases member with earlier | rfl
  · exact below old earlier retried
  · exact last retried

theorem Attempt.retryWait_of_resultKind (closing : resultKind state = some .retryScheduled) : state = .retryWait := by
  cases state <;> simp only [resultKind, Option.some.injEq, reduceCtorEq] at closing
  rfl

/-- Only a failure is recorded as retried, with the attempt of the stored record. -/
theorem JobChange.retriedBelow
    (change : JobChange id call before after) (thrifty : ∀ lease now transition record, call = .fail lease now transition →
      lease.jobID = id → before.record = some record → transition.state = .retryWait → (record.attempts : ℤ) < m)
    (below : before.RetriedBelow m) : after.RetriedBelow m := by
  cases change with
  | same | created | renewed | cancelled | flagged | replayed => exact below
  | claimed | completed | released | expired => exact below.append rfl nofun
  | @failed kind lease now transition record events sequence own held closing =>
    refine below.append rfl fun retried => ?_
    have kind : kind = .retryScheduled := retried
    exact thrifty lease now transition record rfl own rfl (retryWait_of_resultKind (kind ▸ closing))

namespace Remote

variable {token : Lease} {report : FailureReport} {sample : ℚ}

/-- A report brings no attempt, or at least the stored one of its job. -/
def Honest (s : JobSystem) : Event → Prop
  | .call _ => True
  | .failJob token report _ _ =>
    report.attempt ≤ 0 ∨ ∀ record, s.jobs.jobs.lookup token.jobID = some record → (record.attempts : ℤ) ≤ report.attempt

instance (s : JobSystem) (event : Event) : Decidable (Honest s event) := by
  cases event with
  | call call => exact .isTrue trivial
  | failJob token report now sample =>
    exact decidable_of_iff (report.attempt ≤ 0 ∨
      (s.jobs.jobs.lookup token.jobID).all (fun record => decide ((record.attempts : ℤ) ≤ report.attempt)) = true) (by
        simp only [Honest, Option.all_eq_true, decide_eq_true_eq])

variable {codec : Recovery.Codec} {configured : Retry.Policy} {s t : JobSystem} {record : Record}

/-- `FailJob` leaves the store alone or fails the lease as the policy decides for the reported attempt. -/
theorem failJob_cases (configured : Retry.Policy) (jobs : JobStore) (token : Lease) (report : FailureReport) (now : Time)
    (sample : ℚ) : (failJob configured jobs token report now sample).2 = jobs ∨
      ∃ attempt, reportedAttempt jobs token report = .ok attempt ∧ (failJob configured jobs token report now sample).2 =
          (jobs.fail token now ((retryPolicy configured).transition report.cls attempt report.retryAfter sample)).2 := by
  unfold failJob
  split
  next => exact .inl rfl
  rename_i attempt decided
  refine .inr ⟨attempt, decided, ?_⟩
  split
  next failed => rw [failed]
  next failed => rw [failed]

theorem le_reportedAttempt (honest : Honest s (.failJob token report now sample))
    (decided : reportedAttempt s.jobs token report = .ok attempt) (found : s.jobs.jobs.lookup token.jobID = some record) :
    (record.attempts : ℤ) ≤ attempt := by
  unfold reportedAttempt at decided
  split at decided
  next =>
    rw [found] at decided
    cases decided
    exact le_rfl
  next brought =>
    cases decided
    rcases honest with none | covered
    · exact absurd none brought
    · exact covered record found

/-- An honest report schedules another execution below the limit only. -/
theorem fail_of_failJob (honest : Honest s (.failJob token report now sample))
    (stepped : step codec configured s (.failJob token report now sample) = some t) :
    t = s ∨ ∃ transition, s.step codec (.fail token now transition) = some t ∧
      ∀ record, s.jobs.jobs.lookup token.jobID = some record → transition.state = .retryWait →
        (record.attempts : ℤ) < (retryPolicy configured).maxAttempts := by
  cases stepped
  rcases failJob_cases configured s.jobs token report now sample with same | ⟨attempt, decided, failed⟩
  · rw [same]
    exact .inl rfl
  · rw [failed]
    refine .inr ⟨_, rfl, ?_⟩
    intro record found scheduled
    have covered := le_reportedAttempt honest decided found
    have below := (Retry.Policy.lt_of_transition_retryWait _ scheduled).2
    omega

theorem honest_step (wf : s.jobs.WellFormed) (honest : Honest s event)
    (stepped : step codec configured s event = some t)
    (below : ∀ id, (s.jobs.view id).RetriedBelow (retryPolicy configured).maxAttempts) :
    t.jobs.WellFormed ∧ ∀ id, (t.jobs.view id).RetriedBelow (retryPolicy configured).maxAttempts := by
  cases event with
  | call call =>
    simp only [step] at stepped
    split at stepped
    next permitted =>
      refine ⟨step_wellFormed wf stepped, fun id => (step_change wf stepped id).retriedBelow ?_ (below id)⟩
      rintro lease now transition record rfl
      cases permitted
    next => cases stepped
  | failJob token report now sample =>
    rcases fail_of_failJob honest stepped with rfl | ⟨transition, step, thrifty⟩
    · exact ⟨wf, below⟩
    · refine ⟨step_wellFormed wf step, fun id => (step_change wf step id).retriedBelow ?_ (below id)⟩
      rintro _ _ _ record ⟨⟩ rfl found
      exact thrifty record found

/-- A failure changes a job into one that waits for its next execution below the limit only. -/
theorem retryWait_of_failJob (wf : s.jobs.WellFormed) (honest : Honest s (.failJob token report now sample))
    (stepped : step codec configured s (.failJob token report now sample) = some t)
    (found : s.jobs.jobs.lookup id = some record) (written : t.jobs.jobs.lookup id = some next)
    (waits : next.state = .retryWait) :
    next = record ∨ (record.attempts : ℤ) < (retryPolicy configured).maxAttempts := by
  rcases fail_of_failJob honest stepped with rfl | ⟨transition, step, thrifty⟩
  · exact .inl (Option.some.inj (written.symm.trans found))
  · have change := step_change wf step id
    rw [view_eq_mk found, view_eq_mk written] at change
    generalize s.jobs.events id = before, t.jobs.events id = after at change
    cases change with
    | same => exact .inl rfl
    | failed sequence own held closing =>
      subst own
      exact .inr (thrifty record found waits)

/-- In every run whose reports are honest, every failure that was ever retried was retried below the
limit, and no report on a job whose stored attempts have reached the limit makes it wait again. -/
theorem retry_budget (reached : (machine codec configured).Reaches Honest s) :
    (∀ id, (s.jobs.view id).RetriedBelow (retryPolicy configured).maxAttempts) ∧
      ∀ token report now sample t, Honest s (.failJob token report now sample) →
        step codec configured s (.failJob token report now sample) = some t →
        ∀ id record next, s.jobs.jobs.lookup id = some record → t.jobs.jobs.lookup id = some next →
          (retryPolicy configured).maxAttempts ≤ record.attempts → next.state = .retryWait → next = record := by
  have kept := reached.invariant (fun s => s.jobs.WellFormed ∧
    ∀ id, (s.jobs.view id).RetriedBelow (retryPolicy configured).maxAttempts)
    ⟨wellFormed_empty, fun _ _ member => by cases member⟩
    (fun s event t honest stepped inv => honest_step inv.1 honest stepped inv.2)
  refine ⟨kept.2, ?_⟩
  intro token report now sample t honest stepped id record next found written exhausted waits
  rcases retryWait_of_failJob kept.1 honest stepped found written waits with same | below
  · exact same
  · omega

/-- A limit of two attempts. -/
def twoAttempts : Retry.Policy := { maxAttempts := 2, baseDelay := 1, maxDelay := 1 }

/-- One job, failed once and claimed for the second and last time. -/
def secondClaim : List Event :=
  [.call (.enqueue 1 { identity := { queueName := "mail", jobName := "send" }, payload := some [] }),
   .call (.claim { owner := "w", now := 2, limit := 1, leaseDuration := 10 }),
   .failJob { jobID := "job_000001", owner := "w", epoch := 1 } { retryClass := "transient", attempt := 1 } 3 0,
   .call (.claim { owner := "w", now := 10, limit := 1, leaseDuration := 10 })]

/-- The report of the second execution. -/
def secondFailure (attempt : ℤ) : Event :=
  .failJob { jobID := "job_000001", owner := "w", epoch := 2 } { retryClass := "transient", attempt } 11 0

/-- A report that brings the attempt closes the job, and the timeline keeps to the limit. -/
theorem retry_budget_second_failure :
    ∃ s, (machine .plain twoAttempts).runChecked (fun s event => decide (Honest s event)) {}
      (secondClaim ++ [secondFailure 2]) = some s ∧
      (s.jobs.jobs.lookup "job_000001").map (·.state) = some .dead ∧ (s.jobs.view "job_000001").RetriedBelow 2 := by
  refine exists_some_and (by decide) fun s run _ => ?_
  exact (retry_budget ⟨_, Machine.path_of_runChecked (fun _ _ kept => of_decide_eq_true kept) run⟩).1 "job_000001"

/-- A report that brings the first attempt again schedules a third execution. -/
theorem retry_budget_exceeded : ∃ s t, (machine .plain twoAttempts).run {} secondClaim = some s ∧
      step .plain twoAttempts s (secondFailure 1) = some t ∧ (s.jobs.jobs.lookup "job_000001").map (·.attempts) = some 2 ∧
      (s.jobs.jobs.lookup "job_000001").map (·.state) = some .leased ∧
      (t.jobs.jobs.lookup "job_000001").map (·.state) = some .retryWait ∧
      ¬(t.jobs.view "job_000001").RetriedBelow (retryPolicy twoAttempts).maxAttempts := by
  simp only [exists_and_left, JobView.RetriedBelow]
  decide

end Remote

end RhinoQ.Model
