import RhinoQ.Model.Job.Worker
import RhinoQ.Proofs.Job.Lifecycle

/-! # Steps of in-process workers

Every step leaves the store alone or makes one store call. A call that fails an execution comes from a
goroutine that holds a copy of the claimed record: while the job is leased under the copy's epoch, it has the
copy's attempt.
-/

namespace RhinoQ.Model

open Ports JobStore

variable {call : JobCall} {copy : Job.Record}

namespace JobStore

variable {input : ClaimInput} {s : JobStore}

theorem claim_stored (wf : s.WellFormed)
    (answer : (s.claim input).1 = .ok claimed) :
    ∀ record ∈ claimed, (s.claim input).2.jobs.lookup record.id = some record := by
  rcases claim_cases s input with ⟨_, _, failed⟩ | ⟨_, taken, t, ran, picked⟩
  · rw [failed] at answer
    cases answer
  rw [ran] at answer ⊢
  cases answer
  intro record member
  obtain ⟨source, present, rfl⟩ := List.mem_map.mp member
  obtain ⟨sequence, final⟩ := picked.view_of_claimed (candidates_nodup wf.keyed input) present
  exact congrArg JobView.record final

end JobStore

/-- A record as a claim returned it: while the job is leased under its epoch, the stored attempt is the copy's. -/
def JobView.Copied (view : JobView) (copy : Job.Record) : Prop :=
  ∃ stored, view.record = some stored ∧ copy.leaseEpoch ≤ stored.leaseEpoch ∧
    (stored.state = .leased → stored.leaseEpoch = copy.leaseEpoch → stored.attempts = copy.attempts)

/-- A stored record that is overwritten: a job that stays in its epoch and is leased was leased with the same attempt. -/
theorem JobView.Copied.write {events events' : List Attempt.Event}
    (copied : JobView.Copied { record := some stored, events } copy) (epoch : next.leaseEpoch = stored.leaseEpoch)
    (leased : next.state = .leased → stored.state = .leased ∧ next.attempts = stored.attempts) :
    JobView.Copied { record := some next, events := events' } copy := by
  obtain ⟨_, ⟨⟩, older, same⟩ := copied
  refine ⟨next, rfl, epoch ▸ older, ?_⟩
  intro state equal
  obtain ⟨held, attempts⟩ := leased state
  exact attempts.trans (same held (epoch ▸ equal))

/-- A copy stays one under every call. -/
theorem JobChange.copied {id : Job.ID}
    (change : JobChange id call before after) (copied : before.Copied copy) : after.Copied copy := by
  cases change with
  | same => exact copied
  | created =>
    obtain ⟨_, ⟨⟩, _⟩ := copied
  | claimed =>
    obtain ⟨stored, ⟨⟩, older, _⟩ := copied
    refine ⟨_, rfl, older.trans (Int.le_of_lt (Int.lt_succ _)), ?_⟩
    intro _ equal
    exact absurd equal (Int.ne_of_gt (Int.lt_of_le_of_lt older (Int.lt_succ _)))
  | renewed => exact copied.write rfl fun leased => ⟨leased, rfl⟩
  | completed => exact copied.write rfl fun leased => by cases leased
  | released => exact copied.write rfl fun leased => by cases leased
  | @failed kind lease now transition record events sequence own held closing =>
    refine copied.write rfl fun leased => ?_
    have target : transition.state = .leased := leased
    rw [target] at closing
    cases closing
  | cancelled => exact copied.write rfl fun leased => by cases leased
  | flagged => exact copied.write rfl fun leased => ⟨leased, rfl⟩
  | expired =>
    refine copied.write (expireRecord_leaseEpoch ..) fun leased => ?_
    unfold expireRecord at leased
    dsimp only at leased
    split at leased <;> cases leased
  | replayed => exact copied.write rfl fun leased => by cases leased

namespace Worker

/-- The claimed record a goroutine works on. -/
def Goroutine.record : Goroutine → Option Job.Record
  | .idle => none
  | .dispatched record => some record
  | .running record _ => some record
  | .closing record _ _ => some record

/-- A call the workers, the reapers or their clients make. One that schedules another execution comes from
a goroutine whose attempt is below the limit. -/
def Permitted (config : Config) (p : State) : JobCall → Prop
  | .replay _ _ => False
  | .fail lease _ transition => transition.state = .retryWait →
    ∃ t record, (p.thread t).record = some record ∧ lease = leaseFor record ∧
      (record.attempts : ℤ) < config.policy.maxAttempts
  | .requeueExpired input _ => ∃ now, input = config.reapInput now
  | _ => True

variable {codec : Recovery.Codec} {config : Config} {p q : State} {t : ℕ} {next : Goroutine}

theorem dispatch_spec (dispatched : dispatch p records = some q) :
    q.shared = p.shared ∧ ∀ t record, (q.thread t).record = some record →
      (p.thread t).record = some record ∨ record ∈ records.map Prod.snd := by
  induction records generalizing p with
  | nil =>
    cases dispatched
    exact ⟨rfl, fun _ _ held => .inl held⟩
  | cons head rest ih =>
    obtain ⟨t, record⟩ := head
    unfold dispatch at dispatched
    split at dispatched
    next =>
      obtain ⟨shared, threads⟩ := ih dispatched
      refine ⟨shared, ?_⟩
      intro u copy held
      rcases threads u copy held with before | later
      · by_cases same : u = t
        · subst same
          rw [Pool.move_thread_self] at before
          cases before
          exact .inr (.head _)
        · rw [Pool.move_thread_of_ne same] at before
          exact .inl before
      · exact .inr (.tail _ later)
    next => cases dispatched

/-- What one step does: to the store, through at most one call, and to the records in hand. -/
structure Stepped (codec : Recovery.Codec) (config : Config) (p q : State) : Prop where
  shared : q.shared = p.shared ∨ ∃ call, Permitted config p call ∧ p.shared.step codec call = some q.shared
  copies : p.shared.jobs.WellFormed → ∀ t record, (q.thread t).record = some record →
    (p.thread t).record = some record ∨ q.shared.jobs.jobs.lookup record.id = some record

theorem stepped_move (held : ∀ record, next.record = some record → (p.thread t).record = some record) (shared : JobSystem)
    (called : shared = p.shared ∨ ∃ call, Permitted config p call ∧ p.shared.step codec call = some shared) :
    Stepped codec config p (p.move t shared next) where
  shared := called
  copies _ u record in_hand := by
    by_cases same : u = t
    · subst same
      rw [Pool.move_thread_self] at in_hand
      exact .inl (held record in_hand)
    · rw [Pool.move_thread_of_ne same] at in_hand
      exact .inl in_hand

theorem stepped_callFrom (called : callFrom codec p t call next = some q) (permitted : Permitted config p call)
    (held : ∀ record, next.record = some record → (p.thread t).record = some record) : Stepped codec config p q := by
  obtain ⟨shared, step, rfl⟩ := Option.map_eq_some_iff.mp called
  exact stepped_move held shared (.inr ⟨call, permitted, step⟩)

theorem stepped_update (called : (p.shared.step codec call).map p.update = some q)
    (permitted : Permitted config p call) : Stepped codec config p q := by
  obtain ⟨shared, step, rfl⟩ := Option.map_eq_some_iff.mp called
  exact ⟨.inr ⟨call, permitted, step⟩, fun _ _ _ held => .inl held⟩

theorem permitted_closingCall (held : (p.thread t).record = some record)
    (closing : closingCall config.policy record beat result now sample = some call) : Permitted config p call := by
  unfold closingCall at closing
  split_ifs at closing
  · cases closing
    exact fun scheduled => by cases scheduled
  · split at closing
    next =>
      cases closing
      trivial
    next cls retryAfter =>
      cases closing
      intro scheduled
      exact ⟨t, record, held, rfl, (config.policy.lt_of_transition_retryWait scheduled).2⟩

theorem stepped_of_step (stepped : step codec config p event = some q) : Stepped codec config p q := by
  cases event with
  | call call =>
    simp only [step] at stepped
    split at stepped
    next client => exact stepped_update stepped (by cases call <;> trivial)
    next => cases stepped
  | claim input goroutines =>
    simp only [step] at stepped
    obtain ⟨shared, threads⟩ := dispatch_spec stepped
    refine ⟨.inr ⟨.claim input, trivial, ?_⟩, ?_⟩
    · rw [shared]
      rfl
    · intro wf t record held
      rcases threads t record held with before | claimed
      · exact .inl before
      · right
        rw [shared]
        obtain ⟨⟨u, copy⟩, member, rfl⟩ := List.mem_map.mp claimed
        have listed := (List.of_mem_zip member).2
        cases answer : (p.shared.jobs.claim input).1 with
        | error error =>
          rw [answer] at listed
          cases listed
        | ok records =>
          rw [answer] at listed
          exact claim_stored wf answer copy listed
  | release t now =>
    simp only [step] at stepped
    split at stepped
    next record held => exact stepped_callFrom stepped trivial (by simp [Goroutine.record])
    next => cases stepped
  | start t registered =>
    simp only [step] at stepped
    split at stepped
    next record held =>
      cases stepped
      refine stepped_move ?_ p.shared (.inl rfl)
      intro copy own
      rw [held]
      cases registered <;> exact own
    next => cases stepped
  | heartbeat t now extension =>
    simp only [step] at stepped
    split at stepped
    next record beat held =>
      split at stepped
      next => cases stepped
      refine stepped_callFrom stepped trivial ?_
      intro copy own
      rw [held]
      exact own
    next => cases stepped
  | returned t result =>
    simp only [step] at stepped
    split at stepped
    next record beat held =>
      cases stepped
      refine stepped_move ?_ p.shared (.inl rfl)
      intro copy own
      rw [held]
      exact own
    next => cases stepped
  | close t now sample =>
    simp only [step] at stepped
    split at stepped
    next record beat result held =>
      split at stepped
      next =>
        cases stepped
        exact stepped_move (by simp [Goroutine.record]) p.shared (.inl rfl)
      next call closing =>
        have in_hand : (p.thread t).record = some record := by rw [held]; rfl
        exact stepped_callFrom stepped (permitted_closingCall in_hand closing) (by simp [Goroutine.record])
    next => cases stepped
  | crash t =>
    cases stepped
    exact stepped_move (by simp [Goroutine.record]) p.shared (.inl rfl)
  | reap now order => exact stepped_update stepped ⟨now, rfl⟩

end Worker

end RhinoQ.Model
