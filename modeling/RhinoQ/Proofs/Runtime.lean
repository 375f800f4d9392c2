import RhinoQ.Model.Runtime
import RhinoQ.Proofs.Effect.Ledger
import RhinoQ.Soundness.Timeline

/-! # What a step of the runtime does

The job side of a step is a step of the job machine or nothing. The ledger side changes one key in one of three
ways: an effect call opens it, a suspended program writes its copy back, or a sweep downgrades it.
-/

namespace RhinoQ.Model.Runtime

open Ports Effect EffectStore

variable {codec : Recovery.Codec} {p q : State} {e : Event}
variable {call : EffectCall} {phase : Phase} {next thread : Thread} {ok : State → Event → Prop} {record : Record}
  {choice : Choice} {key : String}

/-- The phases that may answer without a write. -/
def mayEnd : Phase → Bool
  | .invoking _ | .running _ | .saving .. | .answered _ => false
  | _ => true

variable (s : Shared) (call : EffectCall) (choice : Choice) in
/-- The steps of an effect call. -/
inductive EffectStep : Phase → Shared → Phase → Prop
  | ended {phase : Phase} (answer : Answer) (may : mayEnd phase = true) : EffectStep phase s (.answered answer)
  | decided (id : String) : EffectStep .reading s (.fencing id)
  | fenced {id : String} {record : Record} (built : call.serviceBegin s.base.jobs id choice.now = .ok record) :
      EffectStep (.fencing id) s (.opening record)
  | opened {record opened : Record} {effects : EffectStore}
      (begun : s.effects.beginEffect call.lease record = (.ok opened, effects)) :
      EffectStep (.opening record) { s with effects } (.invoking opened)
  | invoked (opened : Record) : EffectStep (.invoking opened)
      { s with invocations := s.invocations ++
        [{ jobID := call.lease.jobID, name := call.request.name, key := call.request.key }] }
      (.running { opened, index := s.invocations.length })
  | returned (flight : Flight) : EffectStep (.running flight)
      { s with invocations := s.invocations.modify flight.index ({ · with returned := some choice.returned }) }
      (.returned flight choice.returned)
  | found {record : Record} (found : call.lookup s.effects = some record) :
      EffectStep (.returned flight result) s (.resolving flight result record)
  | closes (flight : Flight) (text : String) (record : Record) :
      EffectStep (.resolving flight (.notHappened text) record) s
        (.confirming flight (.notHappened text) choice.now record { record with state := .notHappened })
  | unknown (flight : Flight) (text : String) (record : Record) (answer : Answer) :
      EffectStep (.resolving flight (.failed text) record)
        { s with effects := (EffectCall.resolveUnknown s.effects record).2 } (.answered answer)
  | confirms {record updated : Record}
      (checked : call.checkAndConfirm s.base.jobs choice.now record text = .ok updated)
        (moved : updated.state ≠ record.state) :
      EffectStep (.resolving flight (.reference text) record) s
        (.confirming flight (.reference text) choice.now record updated)
  | checked (flight : Flight) (result : ProviderReturn) (now : Time) (record updated : Record) :
      EffectStep (.confirming flight result now record updated) s (.saving flight result record updated)
  | saved (flight : Flight) (result : ProviderReturn) (record updated : Record) (answer : Answer) :
      EffectStep (.saving flight result record updated)
        { s with effects := (s.effects.saveEffect updated).2 } (.answered answer)

theorem advanceEffect_cases {next : Phase}
    (step : advanceEffect s call choice phase = some (t, next)) : EffectStep s call choice phase t next := by
  cases phase with
  | reading =>
    simp only [advanceEffect] at step
    split at step <;> cases step
    · exact .ended _ rfl
    · exact .decided _
  | fencing id =>
    simp only [advanceEffect] at step
    split at step
    · cases step
      exact .ended _ rfl
    next built =>
      cases step
      exact .fenced built
  | opening record =>
    simp only [advanceEffect] at step
    split at step
    next failed =>
      cases step
      rw [beginEffect_eq_error failed]
      exact .ended _ rfl
    next begun =>
      cases step
      exact .opened begun
  | invoking opened =>
    cases step
    exact .invoked opened
  | running flight =>
    cases step
    exact .returned flight
  | returned flight result =>
    simp only [advanceEffect] at step
    split at step
    · cases step
      exact .ended _ rfl
    next found =>
      cases step
      exact .found found
  | resolving flight result record =>
    cases result with
    | notHappened text =>
      cases step
      exact .closes flight text record
    | failed text =>
      cases step
      exact .unknown flight text record _
    | reference text =>
      simp only [advanceEffect] at step
      split at step
      · cases step
        exact .ended _ rfl
      next checked =>
        split at step
        · cases step
          exact .ended _ rfl
        next moved =>
          cases step
          exact .confirms checked moved
  | confirming flight result now record updated =>
    simp only [advanceEffect] at step
    split at step
    · cases step
      exact .ended _ rfl
    · cases step
      exact .checked flight result now record updated
  | saving flight result record updated =>
    have effects {answer : Except StoreError Unit} {effects : EffectStore}
        (equal : s.effects.saveEffect updated = (answer, effects)) : effects = (s.effects.saveEffect updated).2 := by
      rw [equal]
    simp only [advanceEffect] at step
    split at step
    next equal =>
      cases step
      rw [effects equal]
      exact .saved flight result record updated _
    next equal =>
      cases step
      rw [effects equal]
      exact .saved flight result record updated _
  | answered answer => cases step

theorem EffectStep.base {next : Phase} (step : EffectStep s call choice phase t next) : t.base = s.base := by
  cases step <;> rfl

variable (s : Shared) (choice : Choice) in
/-- The steps of a thread. A store call that fails changes nothing. -/
inductive Advanced : Thread → Shared → Thread → Prop
  | effect {call : EffectCall} {phase next : Phase} (step : EffectStep s call choice phase t next) :
      Advanced (.effect call phase) t (.effect call next)
  | signalRead (signal : Signal) : Advanced (.signal signal .reading) s (.signal signal (signal.read s.effects))
  | signalSaved (signal : Signal) (record updated : Record) : Advanced (.signal signal (.saving record updated))
      { s with effects := (Signal.save s.effects record updated).2 }
        (.signal signal (.answered (Signal.save s.effects record updated).1))
  | stopped {phase : SweepPhase} (why : phase = .requeueing total ∨ choice.fails = true) :
      Advanced (.sweep config phase) s (.sweep config (.returned total (some error)))
  | requeued {next : SweepPhase} (permuted : choice.order.Perm s.base.jobs.jobs.keys)
      (reaped : s.base.jobs.requeueExpired (config.reapInput choice.now) choice.order = (.ok batch, jobs))
      (marks : next = .marking batch total ∨ batch.expired = [] ∧ next = afterBatch batch total choice) :
      Advanced (.sweep config (.requeueing total)) { s with base := { s.base with jobs } } (.sweep config next)
  | marked (config : ReaperConfig) (batch total : ReapResult) : Advanced (.sweep config (.marking batch total))
      { s with effects := (s.effects.markPendingUncertain batch.expired).2 } (.sweep config (afterBatch batch total choice))
  | failed (failed : s.base.jobs.fail lease choice.now transition = (.ok (), jobs)) :
      Advanced (.failing lease transition) { s with base := { s.base with jobs } } (.closing lease)
  | gaveUp (lease : Lease) (transition : FailureTransition) : Advanced (.failing lease transition) s .finished
  | unclosed (lease : Lease) : Advanced (.closing lease) s .finished
  | closed (lease : Lease) : Advanced (.closing lease)
      { s with effects := (s.effects.markPendingUncertain [{ jobID := lease.jobID, epoch := lease.epoch }]).2 } .finished

theorem advance_cases {s t : Shared} (step : advance s choice thread = some (t, next)) :
    Advanced s choice thread t next := by
  cases thread with
  | idle | finished => cases step
  | effect call phase =>
    obtain ⟨⟨u, after⟩, moved, equal⟩ := Option.map_eq_some_iff.mp step
    cases equal
    exact .effect (advanceEffect_cases moved)
  | signal signal phase =>
    obtain ⟨⟨u, after⟩, moved, equal⟩ := Option.map_eq_some_iff.mp step
    cases equal
    cases phase with
    | reading =>
      cases moved
      exact .signalRead signal
    | saving record updated =>
      cases moved
      exact .signalSaved signal record updated
    | answered answer => cases moved
  | sweep config phase =>
    obtain ⟨⟨u, after⟩, moved, equal⟩ := Option.map_eq_some_iff.mp step
    cases equal
    cases phase with
    | requeueing total =>
      simp only [advanceSweep] at moved
      split_ifs at moved with _ permuted
      · cases moved
        exact .stopped (.inl rfl)
      · split at moved
        · cases moved
          exact .stopped (.inl rfl)
        next batch jobs reaped =>
          split at moved
          next =>
            cases moved
            exact .requeued permuted reaped (.inl rfl)
          next empty =>
            cases moved
            exact .requeued permuted reaped (.inr ⟨List.length_eq_zero_iff.mp (Nat.eq_zero_of_not_pos empty), rfl⟩)
    | marking batch total =>
      simp only [advanceSweep] at moved
      split at moved
      next fails =>
        cases moved
        exact .stopped (.inr fails)
      · cases moved
        exact .marked config batch total
    | returned total error => cases moved
  | failing lease transition =>
    simp only [advance] at step
    split at step
    · cases step
      exact .gaveUp lease transition
    next failed =>
      cases step
      exact .failed failed
  | closing lease =>
    simp only [advance] at step
    split at step
    · cases step
      exact .unclosed lease
    · cases step
      exact .closed lease

/-- What a step of a thread does to the jobs. A batch of a sweep goes on to mark the effects of that batch. -/
inductive BaseChange (s t : Shared) (choice : Choice) (thread next : Thread) : Prop
  | kept (same : t.base = s.base)
  | failed (lease : Lease) (transition : FailureTransition) (phase : thread = .failing lease transition)
      (result : t.base = { s.base with jobs := (s.base.jobs.fail lease choice.now transition).2 })
  | requeued (config : ReaperConfig) (batch total : ReapResult)
      (phase : thread = .sweep config (.requeueing total))
      (permuted : choice.order.Perm s.base.jobs.jobs.keys)
      (reaped : s.base.jobs.requeueExpired (config.reapInput choice.now) choice.order = (.ok batch, t.base.jobs))
      (audit : t.base.audit = s.base.audit)
      (marks : next = .sweep config (.marking batch total) ∨ batch.expired = [])

theorem Advanced.base (step : Advanced s choice thread t next) : BaseChange s t choice thread next := by
  cases step with
  | effect step => exact .kept step.base
  | failed failed => exact .failed _ _ rfl (by rw [failed])
  | requeued permuted reaped marks => exact .requeued _ _ _ rfl permuted reaped rfl (marks.imp (congrArg _) (·.1))
  | _ => exact .kept rfl

theorem BaseChange.step (change : BaseChange s t choice thread next) :
    t.base = s.base ∨ ∃ call, s.base.step codec call = some t.base := by
  cases change with
  | kept same => exact .inl same
  | failed lease transition _ result =>
    refine .inr ⟨.fail lease choice.now transition, ?_⟩
    rw [result]
    rfl
  | requeued config batch total _ permuted reaped audit =>
    refine .inr ⟨.requeueExpired (config.reapInput choice.now) choice.order, ?_⟩
    simp only [JobSystem.step, if_pos permuted, reaped, ← audit]

/-- The steps of the runtime. -/
inductive Stepped (codec : Recovery.Codec) (p : State) : Event → State → Prop
  | job {call : JobCall} (outside : direct p.shared call = true) (moved : p.shared.base.step codec call = some base) :
      Stepped codec p (.job call) (p.update { p.shared with base })
  | start (program : Program) (idle : p.thread t = .idle) : Stepped codec p (.start t program)
    (p.move t p.shared program.thread)
  | advance {choice : Choice} {thread : Thread} (moved : Advanced p.shared choice (p.thread t) s thread) :
      Stepped codec p (.advance t choice) (p.move t s thread)
  | crash (t : ℕ) : Stepped codec p (.crash t) (p.move t p.shared .idle)

theorem step_cases (step : step codec p e = some q) : Stepped codec p e q := by
  cases e with
  | job call =>
    simp only [Runtime.step] at step
    split at step
    next outside =>
      obtain ⟨base, moved, rfl⟩ := Option.map_eq_some_iff.mp step
      exact .job outside moved
    next => cases step
  | start t program =>
    simp only [Runtime.step] at step
    split at step
    next idle =>
      cases step
      exact .start program idle
    next => cases step
  | advance t choice =>
    obtain ⟨⟨s, thread⟩, moved, rfl⟩ := Option.map_eq_some_iff.mp step
    exact .advance (advance_cases moved)
  | crash t =>
    cases step
    exact .crash t

theorem step_base (step : step codec p e = some q) :
    q.shared.base = p.shared.base ∨ ∃ call, p.shared.base.step codec call = some q.shared.base := by
  cases step_cases step with
  | job _ moved => exact .inr ⟨_, moved⟩
  | start | crash => exact .inl rfl
  | advance moved => exact moved.base.step

/-- The state that the result of a callback is confirmed with; an unknown one is not. -/
def settled : ProviderReturn → Option Effect.State
  | .notHappened _ => some .notHappened
  | .reference _ => some .confirmed
  | .failed _ => none

/-- A copy a suspended program holds belongs to the key the program works on, and has the state it is
to be written with. -/
def Copies : Thread → Prop
  | .effect call (.opening record) => record.key = call.key ∧ record.state = .pending ∧ record.jobID = call.lease.jobID
  | .effect call (.resolving _ _ record) => record.key = call.key
  | .effect call (.confirming _ result _ _ updated) => updated.key = call.key ∧ settled result = some updated.state
  | .effect call (.saving _ result _ updated) => updated.key = call.key ∧ settled result = some updated.state
  | .signal _ (.saving _ updated) => updated.state = .confirmed
  | _ => True

/-- The program's next step writes its copy back under `key`, with the given state. -/
inductive Writes (key : String) : Thread → Effect.State → Prop
  | notHappened {call : EffectCall} {record updated : Record} (own : call.key = key) :
      Writes key (.effect call (.saving flight (.notHappened text) record updated)) .notHappened
  | unknown {call : EffectCall} {record : Record} (own : call.key = key) (pending : record.state = .pending) :
      Writes key (.effect call (.resolving flight (.failed text) record)) .uncertain
  | confirmed {call : EffectCall} {record updated : Record} (own : call.key = key) :
      Writes key (.effect call (.saving flight (.reference text) record updated)) .confirmed
  | signalled {record updated : Record} : Writes key (.signal signal (.saving record updated)) .confirmed

theorem Writes.ne_pending (writes : Writes key thread state) : state ≠ .pending := by
  cases writes <;> exact nofun

/-- The program's next step downgrades the effects of the listed executions. -/
inductive Marks : Thread → List ExpiredLease → Prop
  | sweep : Marks (.sweep config (.marking batch total)) batch.expired
  | closing : Marks (.closing lease) [{ jobID := lease.jobID, epoch := lease.epoch }]

/-- What a step of a thread does to the record under `key`. -/
inductive LedgerChange (s : Shared) (choice : Choice) (thread : Thread) (key : String) (after : Option Record) : Prop
  | kept (same : after = s.effects.effects.lookup key)
  | opened (call : EffectCall) (new record : Record) (phase : thread = .effect call (.opening new))
      (absent : s.effects.effects.lookup key = none) (stored : after = some record)
      (keyed : record.key = key) (pending : record.state = .pending)
      (epoch : record.leaseEpoch = call.lease.epoch) (job : record.jobID = call.lease.jobID)
  | written (old new : Record) (writes : Writes key thread new.state)
      (found : s.effects.effects.lookup key = some old) (stored : after = some new) (keyed : new.key = key)
      (epoch : new.leaseEpoch = old.leaseEpoch)
  | downgraded (expired : List ExpiredLease) (old : Record) (marks : Marks thread expired)
      (found : s.effects.effects.lookup key = some old) (pending : old.state = .pending)
      (covered : Covers expired old) (stored : after = some { old with state := .uncertain })

section
variable {s t : Shared} {choice : Choice} {key : String}

theorem LedgerChange.of_wrote {effects : EffectStore} (wrote : Wrote record s.effects effects key)
    (writes : record.key = key → Writes key thread record.state) :
    LedgerChange s choice thread key (effects.effects.lookup key) := by
  cases wrote with
  | kept same => exact .kept same
  | saved old own found stored =>
    exact .written old { record with leaseEpoch := old.leaseEpoch } (writes own) found stored own rfl

theorem LedgerChange.of_mark (marks : Marks thread expired) :
    LedgerChange s choice thread key ((s.effects.markPendingUncertain expired).2.effects.lookup key) := by
  rw [lookup_markPendingUncertain]
  cases found : s.effects.effects.lookup key with
  | none => exact .kept (by rw [found]; rfl)
  | some record =>
    rcases downgrade_cases expired record with same | ⟨pending, covered, lowered⟩
    · exact .kept (by rw [found, Option.map_some, same])
    · exact .downgraded expired record marks found pending covered (by rw [Option.map_some, lowered])

theorem EffectStep.ledger {next : Phase} (copies : Copies (.effect call phase))
    (step : EffectStep s call choice phase t next) :
    LedgerChange s choice (.effect call phase) key (t.effects.effects.lookup key) := by
  cases step with
  | ended | decided | fenced | invoked | returned | found | closes | confirms | checked => exact .kept rfl
  | @opened record opened effects begun =>
    rcases beginEffect_eq_ok begun with ⟨_, same⟩ | ⟨absent, new, inserted⟩
    · exact .kept (by rw [same])
    · dsimp only
      rw [inserted, FiniteMap.lookup_insert]
      split
      next own =>
        subst own new
        obtain ⟨_, pending, job⟩ := copies
        exact .opened call record _ rfl absent rfl rfl pending rfl job
      next => exact .kept rfl
  | unknown flight text record =>
    have own : record.key = call.key := copies
    rcases EffectCall.resolveUnknown_wrote s.effects record key with same | ⟨pending, wrote⟩
    · exact .kept same
    · exact .of_wrote wrote fun same => .unknown (own.symm.trans same) pending
  | saved flight result record updated =>
    obtain ⟨own, state⟩ : updated.key = call.key ∧ settled result = some updated.state := copies
    refine .of_wrote (s.effects.saveEffect_wrote updated key) fun same => ?_
    cases result with
    | notHappened text => exact Option.some.inj state ▸ .notHappened (own.symm.trans same)
    | reference text => exact Option.some.inj state ▸ .confirmed (own.symm.trans same)
    | failed text => cases state

theorem Advanced.ledger (copies : Copies thread) (step : Advanced s choice thread t next) :
    LedgerChange s choice thread key (t.effects.effects.lookup key) := by
  cases step with
  | effect step => exact step.ledger copies
  | signalSaved signal record updated =>
    have state : updated.state = .confirmed := copies
    exact .of_wrote (Signal.save_wrote s.effects record updated key) fun _ => state ▸ .signalled
  | marked => exact .of_mark .sweep
  | closed => exact .of_mark .closing
  | signalRead | stopped | requeued | failed | gaveUp | unclosed => exact .kept rfl

end

/-- The ledger is keyed and so are the copies of every suspended program. -/
structure WellFormed (p : State) : Prop where
  keyed : p.shared.effects.Keyed
  copies : ∀ t, Copies (p.thread t)

theorem EffectStep.copies {next : Phase} (keyed : s.effects.Keyed)
    (copies : Copies (.effect call phase)) (step : EffectStep s call choice phase t next) : Copies (.effect call next) := by
  cases step with
  | fenced built => exact (EffectCall.serviceBegin_eq_ok built).2
  | found found => exact keyed _ _ found
  | closes => exact ⟨copies, rfl⟩
  | confirms checked moved =>
    have own := copies
    rcases (EffectCall.checkAndConfirm_eq_ok checked).2 with rfl | rfl
    · exact absurd rfl moved
    · exact ⟨own, rfl⟩
  | checked => exact copies
  | _ => trivial

theorem Advanced.copies (keyed : s.effects.Keyed) (copies : Copies thread)
    (step : Advanced s choice thread t next) : Copies next := by
  cases step with
  | effect step => exact step.copies keyed copies
  | signalRead signal =>
    unfold Signal.read
    split
    next => trivial
    rename_i record found
    split
    next => trivial
    rename_i updated confirmed
    unfold Record.confirm at confirmed
    split at confirmed
    next => cases confirmed
    cases confirmed
    rfl
  | _ => trivial

theorem Program.copies (program : Program) : Copies program.thread := by
  cases program with
  | effect lease request =>
    unfold Program.thread
    dsimp only
    split <;> trivial
  | signal received => trivial
  | sweep config => trivial
  | fail lease transition => trivial

theorem LedgerChange.keyed (keyed : s.effects.Keyed) (change : LedgerChange s choice thread key after)
    (found : after = some record) : record.key = key := by
  cases change with
  | kept same => exact keyed key record (same.symm.trans found)
  | opened _ _ new _ _ stored own => exact Option.some.inj (stored.symm.trans found) ▸ own
  | written _ new _ _ stored own => exact Option.some.inj (stored.symm.trans found) ▸ own
  | downgraded _ old _ present _ _ stored =>
    cases stored.symm.trans found
    exact keyed key old present

theorem WellFormed.step (wf : WellFormed p) (step : step codec p e = some q) : WellFormed q := by
  cases step_cases step with
  | job => exact ⟨wf.keyed, wf.copies⟩
  | start program =>
    exact ⟨wf.keyed, Pool.forall_move (fun _ thread => Copies thread) wf.copies program.copies fun _ _ same => same⟩
  | crash => exact ⟨wf.keyed, Pool.forall_move (fun _ thread => Copies thread) wf.copies trivial fun _ _ same => same⟩
  | @advance t _ _ _ moved =>
    refine ⟨fun key record found => (moved.ledger (wf.copies t)).keyed wf.keyed found, ?_⟩
    exact Pool.forall_move (fun _ thread => Copies thread) wf.copies (moved.copies wf.keyed (wf.copies t))
      fun _ _ same => same

theorem wellFormed_start : WellFormed (machine codec).start := ⟨keyed_empty, fun _ => trivial⟩

theorem wellFormed_of_reaches (reached : (machine codec).Reaches ok p) : WellFormed p :=
  reached.invariant WellFormed wellFormed_start fun _ _ _ _ step wf => wf.step step

/-- The thread an event belongs to. -/
def Event.thread? : Event → Option ℕ
  | .job _ => none
  | .start t _ => some t
  | .advance t _ => some t
  | .crash t => some t

theorem step_thread_of_ne (step : step codec p e = some q) (other : e.thread? ≠ some t) : q.thread t = p.thread t := by
  cases step_cases step with
  | job => rfl
  | start | advance | crash => exact Pool.move_thread_of_ne fun same => other (congrArg some same.symm)

theorem path_thread_of_le (path : (machine codec).Path ok p events q)
    (early : ∀ e ∈ events, ∀ j ∈ e.thread?, j < n) (beyond : n ≤ t) : q.thread t = p.thread t :=
  Pool.thread_of_path Event.thread? (fun _ _ _ step _ other => step_thread_of_ne step other) path early beyond

/-- The stored state of the effect under `key`. -/
def stateAt (key : String) (p : State) : Option Effect.State := (p.shared.effects.effects.lookup key).map (·.state)

theorem stateAt_of_lookup (found : p.shared.effects.effects.lookup key = some record) :
    stateAt key p = some record.state := by
  rw [stateAt, found, Option.map_some]

/-- Worker `w` holds the lease of `job_000001` and runs the callback of the effect `charge`/`k`. -/
def runCharge : List Event :=
  [.job (.enqueue 1 { identity := { queueName := "pay", jobName := "charge" }, payload := some [] }),
   .job (.claim { owner := "w", now := 2, limit := 1, leaseDuration := 10 }),
   .start 0 (.effect { jobID := "job_000001", owner := "w", epoch := 1 } { name := "charge", key := "k" }),
   .advance 0 {}, .advance 0 { now := 3 }, .advance 0 {}, .advance 0 {}]

def chargeKey : String := effectKey "job_000001" "charge" "k"

end RhinoQ.Model.Runtime
