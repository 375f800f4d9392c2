import RhinoQ.Model.Job.System

/-! # What each job store call does

One specification per operation, in terms of the views of single jobs: enqueuing adds fresh pending records, a
claim leases some of its candidates once each, and the reaper expires some of the expired leases once each.
-/

namespace RhinoQ.Model

open Ports FiniteMap Job

namespace JobStore

variable {s t : JobStore} {record : Record} {input : ClaimInput} {now : Time}

/-- Records sit under their own identifier, unknown jobs have no evidence, and every identifier was
generated from the counter. -/
structure WellFormed (s : JobStore) : Prop where
  keyed : ∀ {id record}, s.jobs.lookup id = some record → record.id = id
  silent : ∀ {id}, s.jobs.lookup id = none → s.events id = []
  generated : ∀ {id record}, s.jobs.lookup id = some record → ∃ n ≤ s.nextID, id = jobID n

theorem wellFormed_empty : WellFormed {} where
  keyed found := by cases found
  silent _ := rfl
  generated found := by cases found

theorem WellFormed.fresh (wf : s.WellFormed) (above : s.nextID < n) : s.jobs.lookup (jobID n) = none := by
  cases found : s.jobs.lookup (jobID n) with
  | none => rfl
  | some record =>
    obtain ⟨m, bound, same⟩ := wf.generated found
    have equal := Text.append_sixDigits_injective "job_" same
    omega

/-- A record as an enqueue stores it. -/
structure Fresh (record : Record) (id : ID) : Prop where
  own : record.id = id
  pending : record.state = .pending
  unclaimed : record.leaseEpoch = 0
  uncancelled : record.cancelRequested = false
  unspent : record.attempts = 0 ∧ record.crashCount = 0
  unleased : record.leaseOwner = "" ∧ record.leaseUntil = 0 ∧ record.blockedReason = .unset

theorem newRecord_fresh (success : newRecord spec = .ok record) : Fresh record spec.id := by
  unfold newRecord at success
  cases identity : spec.identity.normalize with
  | error text => simp [identity, bind, Except.bind] at success
  | ok named =>
    cases payload : validatePayload spec.payload defaultMaxPayloadBytes with
    | error text => simp [identity, payload, bind, Except.bind] at success
    | ok bytes =>
      simp only [identity, payload, bind, Except.bind, pure, Except.pure, throw, throwThe, MonadExceptOf.throw] at success
      split_ifs at success <;> cases success <;> exact ⟨rfl, rfl, rfl, rfl, ⟨rfl, rfl⟩, rfl, rfl, rfl⟩

/-- An accepted enqueue of a new job stores one fresh record under the next identifier. -/
structure Stores (s t : JobStore) : Prop where
  attempts : t.attempts = s.attempts
  counter : t.nextID = s.nextID + 1
  record : ∃ record, Fresh record (jobID t.nextID) ∧ t.jobs = s.jobs.insert (jobID t.nextID) record

theorem enqueueNew_cases (s : JobStore) (now : Time) (input : EnqueueInput) : (s.enqueueNew now input).2 = s ∨
      (s.enqueueNew now input).1 = .ok (jobID (s.nextID + 1)) ∧ s.Stores (s.enqueueNew now input).2 := by
  unfold enqueueNew
  split
  next => exact .inl rfl
  rename_i identity _
  split
  next => exact .inl rfl
  split
  next => exact .inl rfl
  rename_i decision _
  dsimp only
  split
  next => exact .inl rfl
  rename_i record success
  have fresh := newRecord_fresh success
  have stored : Fresh { record with idempotencyKey := input.idempotencyKey
                                    correlationID := input.correlationID } (jobID (s.nextID + 1)) :=
    ⟨fresh.own, fresh.pending, fresh.unclaimed, fresh.uncancelled, fresh.unspent, fresh.unleased⟩
  have jobs := congrArg (fun key => s.jobs.insert key
    { record with idempotencyKey := input.idempotencyKey, correlationID := input.correlationID }) fresh.own
  refine .inr ⟨rfl, ?_⟩
  unfold rememberKey
  split
  · exact ⟨rfl, rfl, _, stored, jobs⟩
  · exact ⟨rfl, rfl, _, stored, jobs⟩

theorem enqueueLocked_cases (s : JobStore) (now : Time) (input : EnqueueInput) : (s.enqueueLocked now input).2 = s ∨
      (s.enqueueLocked now input).1 = .ok (jobID (s.nextID + 1)) ∧ s.Stores (s.enqueueLocked now input).2 := by
  unfold enqueueLocked
  split
  · exact .inl rfl
  · exact s.enqueueNew_cases now input

/-- Any number of enqueues: fresh records under identifiers above the old counter, nothing else. -/
structure Extends (s t : JobStore) : Prop where
  attempts : t.attempts = s.attempts
  counter : s.nextID ≤ t.nextID
  job : ∀ id, t.jobs.lookup id = s.jobs.lookup id ∨
    s.jobs.lookup id = none ∧ ∃ record, t.jobs.lookup id = some record ∧ Fresh record id ∧
      ∃ n ≤ t.nextID, id = jobID n

theorem Extends.refl (s : JobStore) : s.Extends s := ⟨rfl, le_rfl, fun _ => .inl rfl⟩

theorem Extends.wellFormed (step : s.Extends t) (wf : s.WellFormed) : t.WellFormed where
  keyed := by
    intro id record found
    rcases step.job id with same | ⟨_, stored, present, fresh, _⟩
    · exact wf.keyed (same ▸ found)
    · exact Option.some.inj (present.symm.trans found) ▸ fresh.own
  silent := by
    intro id absent
    rcases step.job id with same | ⟨_, stored, present, _⟩
    · rw [events, step.attempts]
      exact wf.silent (same ▸ absent)
    · rw [present] at absent
      cases absent
  generated := by
    intro id record found
    rcases step.job id with same | ⟨_, _, _, _, number⟩
    · obtain ⟨n, bound, name⟩ := wf.generated (same ▸ found)
      exact ⟨n, bound.trans step.counter, name⟩
    · exact number

theorem Extends.trans (first : s.Extends t) (second : t.Extends u) : s.Extends u where
  attempts := second.attempts.trans first.attempts
  counter := first.counter.trans second.counter
  job := by
    intro id
    rcases second.job id with same | ⟨absent, record, present, fresh, number⟩
    · rcases first.job id with old | ⟨absent, record, present, fresh, n, bound, name⟩
      · exact .inl (same.trans old)
      · exact .inr ⟨absent, record, same.trans present, fresh, n, bound.trans second.counter, name⟩
    · rcases first.job id with old | ⟨_, stored, present', _⟩
      · exact .inr ⟨old ▸ absent, record, present, fresh, number⟩
      · rw [present'] at absent
        cases absent

theorem Stores.extends (step : s.Stores t) (wf : s.WellFormed) : s.Extends t where
  attempts := step.attempts
  counter := by have := step.counter; omega
  job := by
    intro id
    obtain ⟨record, fresh, jobs⟩ := step.record
    by_cases new : id = jobID t.nextID
    · subst new
      have above : s.nextID < t.nextID := by have := step.counter; omega
      refine .inr ⟨wf.fresh above, record, ?_, fresh, _, le_rfl, rfl⟩
      rw [jobs, lookup_insert, if_pos rfl]
    · rw [jobs, lookup_insert, if_neg new]
      exact .inl rfl

theorem enqueueLocked_extends (wf : s.WellFormed) (now : Time) (input : EnqueueInput) :
    s.Extends (s.enqueueLocked now input).2 := by
  rcases s.enqueueLocked_cases now input with same | ⟨_, stores⟩
  · rw [same]
    exact .refl s
  · exact stores.extends wf

theorem enqueueEach_extends (wf : s.WellFormed) (inputs : List (Time × EnqueueInput)) :
    s.Extends (s.enqueueEach inputs).2 := by
  induction inputs generalizing s with
  | nil => exact .refl s
  | cons input rest ih =>
    have first := enqueueLocked_extends wf input.1 input.2
    have second := ih (first.wellFormed wf)
    unfold enqueueEach
    generalize s.enqueueLocked input.1 input.2 = outcome at first second
    obtain ⟨answer, t⟩ := outcome
    cases answer with
    | error => exact first
    | ok id =>
      simp only at second ⊢
      generalize t.enqueueEach rest = tail at second
      obtain ⟨answer, u⟩ := tail
      cases answer with
      | error => exact first.trans second
      | ok ids => exact first.trans second

/-- A refused batch puts everything back; an accepted one only adds fresh records. -/
theorem enqueueBatch_extends (wf : s.WellFormed) (inputs : List (Time × EnqueueInput)) :
    s.Extends (s.enqueueBatch inputs).2 := by
  have each := enqueueEach_extends wf inputs
  unfold enqueueBatch
  split_ifs
  · exact .refl s
  · exact .refl s
  generalize s.enqueueEach inputs = outcome at each
  obtain ⟨answer, t⟩ := outcome
  cases answer with
  | error => exact ⟨each.attempts, le_rfl, fun _ => .inl rfl⟩
  | ok ids => exact each

theorem reserveRateSlot_eq_some
    (success : s.reserveRateSlot name now = some t) : ∃ limits, t = { s with rateLimits := limits } := by
  unfold reserveRateSlot at success
  split at success
  next => exact ⟨_, (Option.some.inj success).symm⟩
  rename_i state _
  split_ifs at success
  · exact ⟨_, (Option.some.inj success).symm⟩
  · exact ⟨_, (Option.some.inj success).symm⟩

/-- A view right after a claim leased the job. -/
def claimedView (input : ClaimInput) (record : Record) (events : List Attempt.Event) (sequence : ℕ) : JobView :=
  { record := some (leaseRecord input record)
    events := events ++ [{ claimEvent input (leaseRecord input record) with sequence }] }

theorem view_leaseJob (s : JobStore) (input : ClaimInput) (record : Record) (id : ID) : (s.leaseJob input record).view id =
      if id = record.id then claimedView input record (s.events id) (s.nextEvent + 1) else s.view id :=
  view_put_append s (leaseRecord input record) (claimEvent input (leaseRecord input record)) id rfl

/-- The steps of the claim loop, with the records that it takes. -/
inductive Picked (input : ClaimInput) : JobStore → ℕ → List Record → List Record → JobStore → Prop
  | done {s : JobStore} : Picked input s room [] [] s
  | full {s : JobStore} : Picked input s 0 records [] s
  | passed {s t : JobStore} {record : Record} (refused : s.reserveRateSlot record.queueName input.now = none)
      (rest : Picked input s (room + 1) records claimed t) : Picked input s (room + 1) (record :: records) claimed t
  | taken {s t u : JobStore} {record : Record} (reserved : s.reserveRateSlot record.queueName input.now = some u)
      (rest : Picked input (u.leaseJob input record) room records claimed t) :
      Picked input s (room + 1) (record :: records) (record :: claimed) t

theorem claimEach_picked (input : ClaimInput) (records : List Record) (s : JobStore) (room : ℕ) :
    ∃ claimed t, s.claimEach input room records = (claimed.map (leaseRecord input), t) ∧
      Picked input s room records claimed t := by
  induction records generalizing s room with
  | nil => cases room <;> exact ⟨[], s, rfl, .done⟩
  | cons head rest ih =>
    cases room with
    | zero => exact ⟨[], s, rfl, .full⟩
    | succ room =>
      unfold claimEach
      split
      next refused =>
        obtain ⟨claimed, t, ran, picked⟩ := ih s (room + 1)
        exact ⟨claimed, t, ran, .passed refused picked⟩
      next u reserved =>
        obtain ⟨claimed, t, ran, picked⟩ := ih (u.leaseJob input head) room
        exact ⟨head :: claimed, t, by rw [ran]; rfl, .taken reserved picked⟩

namespace Picked

variable {room : ℕ} {records claimed : List Record} (picked : Picked input s room records claimed t)
include picked

theorem sublist : claimed.Sublist records := by
  induction picked with
  | done => exact .slnil
  | full => exact List.nil_sublist _
  | passed _ _ ih => exact ih.cons _
  | taken _ _ ih => exact ih.cons_cons _

theorem rest : ∃ jobs attempts nextEvent rateLimits, t = { s with jobs, attempts, nextEvent, rateLimits } := by
  induction picked with
  | done | full => exact ⟨_, _, _, _, rfl⟩
  | passed _ _ ih => exact ih
  | taken reserved _ ih =>
    obtain ⟨_, rfl⟩ := reserveRateSlot_eq_some reserved
    obtain ⟨_, _, _, _, rfl⟩ := ih
    exact ⟨_, _, _, _, rfl⟩

theorem view_of_unclaimed {id : ID} (unclaimed : ∀ record ∈ claimed, record.id ≠ id) : t.view id = s.view id := by
  induction picked with
  | done | full => rfl
  | passed _ _ ih => exact ih unclaimed
  | taken reserved _ ih =>
    obtain ⟨limits, rfl⟩ := reserveRateSlot_eq_some reserved
    rw [ih fun record member => unclaimed record (.tail _ member), view_leaseJob, if_neg (unclaimed _ (.head _)).symm]
    rfl

theorem view_of_claimed (distinct : (records.map (·.id)).Nodup) (member : record ∈ claimed) :
    ∃ sequence, t.view record.id = claimedView input record (s.events record.id) sequence := by
  induction picked with
  | done | full => cases member
  | passed _ _ ih => exact ih (List.nodup_cons.mp distinct).2 member
  | @taken _ _ _ s _ _ head reserved rest ih =>
    obtain ⟨unseen, distinct⟩ := List.nodup_cons.mp distinct
    obtain ⟨limits, rfl⟩ := reserveRateSlot_eq_some reserved
    have views := view_leaseJob { s with rateLimits := limits } input head
    rcases List.mem_cons.mp member with rfl | later
    · refine ⟨s.nextEvent + 1, (rest.view_of_unclaimed fun other present same => unseen ?_).trans
        ((views _).trans (if_pos rfl))⟩
      exact List.mem_map.mpr ⟨other, rest.sublist.subset present, same⟩
    · obtain ⟨sequence, final⟩ := ih distinct later
      have events := congrArg JobView.events (views record.id)
      rw [if_neg fun same : record.id = head.id => unseen
        (List.mem_map.mpr ⟨record, rest.sublist.subset later, same⟩)] at events
      exact ⟨sequence, final.trans (congrArg (claimedView input record · sequence) events)⟩

end Picked

theorem mem_candidates (member : record ∈ sortByClaimOrder (s.candidates input) input.now) :
    (∃ id, s.jobs.lookup id = some record) ∧ claimable record input.now = true := by
  have member := (List.mem_insertionSort _).mp member
  obtain ⟨present, passed⟩ := List.mem_filter.mp member
  simp only [Bool.and_eq_true] at passed
  exact ⟨mem_values_iff.mp present, passed.1.2⟩

theorem candidates_nodup (keyed : ∀ {id record}, s.jobs.lookup id = some record → record.id = id) (input : ClaimInput) :
    ((sortByClaimOrder (s.candidates input) input.now).map (·.id)).Nodup := by
  have ids : (values s.jobs).map (·.id) = s.jobs.keys := by
    rw [values, List.map_map]
    apply List.map_congr_left
    rintro ⟨id, record⟩ member
    exact keyed (mem_entries_iff.mp member)
  have sorted : ((sortByClaimOrder (s.candidates input) input.now).map (·.id)).Perm
      ((s.candidates input).map (·.id)) := (List.perm_insertionSort _ _).map _
  refine sorted.nodup_iff.mpr ?_
  have sublist : ((s.candidates input).map (·.id)).Sublist ((values s.jobs).map (·.id)) :=
    List.filter_sublist.map _
  exact sublist.nodup (ids ▸ s.jobs.keys_nodup)

theorem claim_cases (s : JobStore) (input : ClaimInput) :
    (∃ text, validateClaim input = .error text ∧ s.claim input = (.error (.message text), s)) ∨
      validateClaim input = .ok () ∧ ∃ claimed t, s.claim input = (.ok (claimed.map (leaseRecord input)), t) ∧
        Picked input s input.limit.toNat (sortByClaimOrder (s.candidates input) input.now) claimed t := by
  unfold claim
  split
  next invalid => exact .inl ⟨_, invalid, rfl⟩
  next valid =>
    obtain ⟨claimed, t, ran, picked⟩ := claimEach_picked input
      (sortByClaimOrder (s.candidates input) input.now) s input.limit.toNat
    exact .inr ⟨valid, claimed, t, by rw [ran], picked⟩

/-- A claim leaves a job alone, or leases an eligible one once and reports it. -/
theorem claim_view (wf : s.WellFormed) (input : ClaimInput) (id : ID) : ((s.claim input).2.view id = s.view id ∧
      ∀ claimed, (s.claim input).1 = .ok claimed → ∀ record ∈ claimed, record.id ≠ id) ∨
    ∃ record sequence, s.jobs.lookup id = some record ∧ claimable record input.now = true ∧ validateClaim input = .ok () ∧
      (∃ claimed, (s.claim input).1 = .ok claimed ∧ leaseRecord input record ∈ claimed) ∧
      (s.claim input).2.view id = claimedView input record (s.events id) sequence := by
  rcases claim_cases s input with ⟨_, _, failed⟩ | ⟨valid, claimed, t, ran, picked⟩
  · exact failed ▸ .inl ⟨rfl, nofun⟩
  rw [ran]
  by_cases mine : ∃ record ∈ claimed, record.id = id
  · obtain ⟨record, member, rfl⟩ := mine
    obtain ⟨⟨key, found⟩, eligible⟩ := mem_candidates (picked.sublist.subset member)
    obtain ⟨sequence, final⟩ := picked.view_of_claimed (candidates_nodup wf.keyed input) member
    exact .inr ⟨record, sequence, wf.keyed found ▸ found, eligible, valid, ⟨_, rfl, List.mem_map_of_mem member⟩, final⟩
  · refine .inl ⟨picked.view_of_unclaimed fun record member same => mine ⟨record, member, same⟩, ?_⟩
    rintro _ ⟨⟩ record member same
    obtain ⟨source, present, rfl⟩ := List.mem_map.mp member
    exact mine ⟨source, present, same⟩

theorem claim_rest (s : JobStore) (input : ClaimInput) :
    ∃ jobs attempts nextEvent rateLimits, (s.claim input).2 = { s with jobs, attempts, nextEvent, rateLimits } := by
  rcases claim_cases s input with ⟨_, _, failed⟩ | ⟨_, claimed, t, ran, picked⟩
  · exact failed ▸ ⟨_, _, _, _, rfl⟩
  · exact ran ▸ picked.rest

theorem leased_of_isExpired (late : isExpired now record = true) : record.state = .leased := by
  simp only [isExpired, Bool.and_eq_true, beq_iff_eq] at late
  exact late.1.1

theorem expireRecord_state (input : ReapInput) (record : Record) : (expireRecord input record).state =
      if input.protection.normalize.isPoisoned (record.crashCount + 1) then .blocked else .retryWait := by
  unfold expireRecord
  dsimp only
  split <;> rfl

@[simp] theorem expireRecord_leaseEpoch (input : ReapInput) (record : Record) :
    (expireRecord input record).leaseEpoch = record.leaseEpoch := by
  unfold expireRecord
  dsimp only
  split <;> rfl

/-- A view right after the reaper expired the job's lease. -/
def expiredView (input : ReapInput) (id : ID) (record : Record) (events : List Attempt.Event) (sequence : ℕ) : JobView :=
  { record := some (expireRecord input record)
    events := events ++ [{ expireEvent input id record with sequence }] }

theorem view_expireJob (s : JobStore) (input : ReapInput) (key : ID) (record : Record) (id : ID) :
    (s.expireJob input key record).view id =
      if id = key then expiredView input key record (s.events id) (s.nextEvent + 1) else s.view id := by
  have own : (expireEvent input key record).jobID = key := rfl
  rw [expireJob, view_appendAttempt, own]
  split
  next same =>
    subst same
    rw [lookup_insert, if_pos rfl]
    rfl
  next other => rw [view_insertJob, if_neg other]

/-- What one reaper batch did to one job: nothing, or its expired lease was closed and listed under
the epoch it had. -/
inductive Reaped (input : ReapInput) (s t : JobStore) (batch : List ExpiredLease) (id : ID) : Prop
  | kept (same : t.view id = s.view id) (unlisted : ∀ item ∈ batch, item.jobID ≠ id)
  | expired (record : Record) (sequence : ℕ) (found : s.jobs.lookup id = some record)
      (late : isExpired input.now record = true)
      (final : t.view id = expiredView input id record (s.events id) sequence)
      (listed : { jobID := id, epoch := record.leaseEpoch } ∈ batch)
      (only : ∀ item ∈ batch, item.jobID = id → item.epoch = record.leaseEpoch)

/-- The reaper's loop closes expired leases only, each job at most once, and lists every one. -/
theorem requeueEach_spec (input : ReapInput) (limit : ℤ) (distinct : order.Nodup)
    (s : JobStore) (result : ReapResult) :
    ∃ batch, (requeueEach input limit s result order).1.expired = result.expired ++ batch ∧
      (∀ item ∈ batch, item.jobID ∈ order) ∧ (requeueEach input limit s result order).2.nextID = s.nextID ∧
      ∀ id, Reaped input s (requeueEach input limit s result order).2 batch id := by
  induction order generalizing s result with
  | nil =>
    refine ⟨[], by simp [requeueEach], by simp, rfl, fun id => .kept rfl (by simp)⟩
  | cons head rest ih =>
    obtain ⟨unseen, distinct⟩ := List.nodup_cons.mp distinct
    have skip : ∀ out, out = requeueEach input limit s result rest →
        ∃ batch, out.1.expired = result.expired ++ batch ∧ (∀ item ∈ batch, item.jobID ∈ head :: rest) ∧
          out.2.nextID = s.nextID ∧ ∀ id, Reaped input s out.2 batch id := by
      rintro out rfl
      obtain ⟨batch, listed, visited, counter, views⟩ := ih distinct s result
      exact ⟨batch, listed, fun item member => .tail _ (visited item member), counter, views⟩
    unfold requeueEach
    split
    next => exact ⟨[], by simp, by simp, rfl, fun id => .kept rfl (by simp)⟩
    split
    next => exact skip _ rfl
    rename_i record found
    split
    next late =>
      obtain ⟨batch, listed, visited, counter, views⟩ :=
        ih distinct (s.expireJob input head record) (countExpired input head record result)
      have first := view_expireJob s input head record
      refine ⟨{ jobID := head, epoch := record.leaseEpoch } :: batch, ?_, ?_, counter, ?_⟩
      · rw [listed]
        simp [countExpired]
      · intro item member
        rcases List.mem_cons.mp member with rfl | member
        · exact .head _
        · exact .tail _ (visited item member)
      · intro id
        by_cases mine : id = head
        · subst mine
          have absent : ∀ item ∈ batch, item.jobID ≠ id := by
            intro item member same
            exact unseen (same ▸ visited item member)
          cases views id with
          | expired _ _ _ _ _ listed _ => exact absurd rfl (absent _ listed)
          | kept same _ =>
            refine .expired record _ found late (same.trans ((first id).trans (if_pos rfl))) (.head _) ?_
            intro item member own
            rcases List.mem_cons.mp member with rfl | member
            · rfl
            · exact absurd own (absent item member)
        · have before : (s.expireJob input head record).view id = s.view id := (first id).trans (if_neg mine)
          cases views id with
          | kept same unlisted =>
            refine .kept (same.trans before) ?_
            intro item member
            rcases List.mem_cons.mp member with rfl | member
            · exact Ne.symm mine
            · exact unlisted item member
          | expired other sequence present late final listed only =>
            have lookup := (congrArg JobView.record before).symm.trans present
            have events := congrArg JobView.events before
            refine .expired other sequence lookup late
              (final.trans (congrArg (expiredView input id other · sequence) events)) (.tail _ listed) ?_
            intro item member own
            rcases List.mem_cons.mp member with rfl | member
            · exact absurd own.symm mine
            · exact only item member own
    next => exact skip _ rfl

end JobStore
end RhinoQ.Model
