import RhinoQ.Machine.Pool
import RhinoQ.Model.Job.System
import RhinoQ.Model.Effect.Call

/-! # The runtime plane

Jobs, the effect ledger and the programs that share them. Every store call and every provider callback is a
step, any program may crash between two of them, and a sweep's store calls may fail. The list of provider
invocations is read by no program.
-/

namespace RhinoQ.Model

open Ports Effect

/-- One run of a provider callback, with how it returned once it has. -/
structure Invocation where
  jobID : String
  name : String
  key : String
  returned : Option ProviderReturn := none

/-- The configuration of a reaper, as its constructor normalizes it. -/
structure ReaperConfig where
  protection : Job.Protection := {}
  batchLimit : ℤ := 0
  deriving DecidableEq

def ReaperConfig.reapInput (config : ReaperConfig) (now : Time) : ReapInput :=
  { now, protection := config.protection.normalize, limit := normalizeReapLimit config.batchLimit }

inductive SweepError
  | store (error : StoreError)
  | unavailable
  | context
  deriving DecidableEq

/-- Where a call of `Reaper.Sweep` is suspended. -/
inductive SweepPhase
  | requeueing (total : ReapResult)
  | marking (batch total : ReapResult)
  | returned (total : ReapResult) (error : Option SweepError)
  deriving DecidableEq

inductive Thread
  | idle
  | effect (call : EffectCall) (phase : Phase)
  | signal (received : Signal) (phase : SignalPhase)
  | sweep (config : ReaperConfig) (phase : SweepPhase)
  | failing (lease : Lease) (transition : FailureTransition)
  | closing (lease : Lease)
  | finished
  deriving DecidableEq

/-- What the environment decides at a step. -/
structure Runtime.Choice where
  now : Time := 0
  returned : ProviderReturn := .failed ""
  order : List Job.ID := []
  fails : Bool := false
  late : Bool := false
  done : Bool := false

namespace Runtime

structure Shared where
  base : JobSystem := {}
  effects : EffectStore := {}
  invocations : List Invocation := []

variable (s : Shared)

/-- The next step of an effect call. -/
def advanceEffect (call : EffectCall) (choice : Choice) : Phase → Option (Shared × Phase)
  | .reading =>
    match call.decide (call.lookup s.effects) with
    | .inl answer => some (s, .answered answer)
    | .inr id => some (s, .fencing id)
  | .fencing id =>
    match call.serviceBegin s.base.jobs id choice.now with
    | .error error => some (s, .answered { errors := [error] })
    | .ok record => some (s, .opening record)
  | .opening record =>
    match s.effects.beginEffect call.lease record with
    | (.error error, effects) => some ({ s with effects }, .answered { errors := [.store error] })
    | (.ok opened, effects) => some ({ s with effects }, .invoking opened)
  | .invoking opened =>
    let invocation := { jobID := call.lease.jobID, name := call.request.name, key := call.request.key }
    some ({ s with invocations := s.invocations ++ [invocation] },
      .running { opened, index := s.invocations.length })
  | .running flight =>
    let record (invocation : Invocation) := { invocation with returned := some choice.returned }
    some ({ s with invocations := s.invocations.modify flight.index record }, .returned flight choice.returned)
  | .returned flight result =>
    match call.lookup s.effects with
    | none => some (s, .answered { errors := result.errors ++ [.message "effect was never opened"] })
    | some record => some (s, .resolving flight result record)
  | .resolving flight result record =>
    match result with
    | .notHappened _ => some (s, .confirming flight result choice.now record { record with state := .notHappened })
    | .failed _ =>
      let (resolved, effects) := EffectCall.resolveUnknown s.effects record
      some ({ s with effects }, .answered (EffectCall.answer record result resolved))
    | .reference text =>
      match call.checkAndConfirm s.base.jobs choice.now record text with
      | .error error => some (s, .answered (EffectCall.answer record result (.error error)))
      | .ok updated =>
        if updated.state = record.state then some (s, .answered (EffectCall.answer record result (.ok updated)))
        else some (s, .confirming flight result choice.now record updated)
  | .confirming flight result now record updated =>
    match EffectStore.checkFence s.base.jobs call.lease now updated with
    | .error error => some (s, .answered (EffectCall.answer record result (.error (.store error))))
    | .ok () => some (s, .saving flight result record updated)
  | .saving _ result record updated =>
    match s.effects.saveEffect updated with
    | (.error error, effects) =>
      some ({ s with effects }, .answered (EffectCall.answer record result (.error (.store error))))
    | (.ok (), effects) => some ({ s with effects }, .answered (EffectCall.answer record result (.ok updated)))
  | .answered _ => none

def advanceSignal (signal : Signal) : SignalPhase → Option (Shared × SignalPhase)
  | .reading => some (s, signal.read s.effects)
  | .saving record updated =>
    let (answer, effects) := Signal.save s.effects record updated
    some ({ s with effects }, .answered answer)
  | .answered _ => none

/-- The end of one batch: add it up, and stop unless the backlog outlasted it. -/
def afterBatch (batch total : ReapResult) (choice : Choice) : SweepPhase :=
  let total := { total with
    requeued := total.requeued + batch.requeued
    blocked := total.blocked + batch.blocked
    expired := total.expired ++ batch.expired }
  if !batch.saturated then .returned total none
  else if choice.late then .returned { total with saturated := true } none
  else if choice.done then .returned { total with saturated := true } (some .context)
  else .requeueing total

/-- The next step of a sweep. A failed store call changes nothing and ends the sweep. -/
def advanceSweep (config : ReaperConfig) (choice : Choice) : SweepPhase → Option (Shared × SweepPhase)
  | .requeueing total =>
    if choice.fails then some (s, .returned total (some .unavailable))
    else if ¬choice.order.Perm s.base.jobs.jobs.keys then none
    else
      match s.base.jobs.requeueExpired (config.reapInput choice.now) choice.order with
      | (.error error, _) => some (s, .returned total (some (.store error)))
      | (.ok batch, jobs) =>
        let s := { s with base := { s.base with jobs } }
        if batch.expired.length > 0 then some (s, .marking batch total)
        else some (s, afterBatch batch total choice)
  | .marking batch total =>
    if choice.fails then some (s, .returned total (some .unavailable))
    else
      let (_, effects) := s.effects.markPendingUncertain batch.expired
      some ({ s with effects }, afterBatch batch total choice)
  | .returned _ _ => none

/-- The next step of any program. A failure transition marks effects only after its `Fail`. -/
def advance (choice : Choice) : Thread → Option (Shared × Thread)
  | .effect call phase => (advanceEffect s call choice phase).map fun (s, phase) => (s, .effect call phase)
  | .signal received phase => (advanceSignal s received phase).map fun (s, phase) => (s, .signal received phase)
  | .sweep config phase => (advanceSweep s config choice phase).map fun (s, phase) => (s, .sweep config phase)
  | .failing lease transition =>
    match s.base.jobs.fail lease choice.now transition with
    | (.error _, _) => some (s, .finished)
    | (.ok (), jobs) => some ({ s with base := { s.base with jobs } }, .closing lease)
  | .closing lease =>
    if choice.fails then some (s, .finished)
    else
      let (_, effects) := s.effects.markPendingUncertain [{ jobID := lease.jobID, epoch := lease.epoch }]
      some ({ s with effects }, .finished)
  | .idle => none
  | .finished => none

/-- A program a thread may be started with. -/
inductive Program
  | effect (lease : Lease) (request : EffectRequest)
  | signal (received : Signal)
  | sweep (config : ReaperConfig)
  | fail (lease : Lease) (transition : FailureTransition)

def Program.thread : Program → Thread
  | .effect lease request =>
    match request.normalize with
    | .error text => .effect { lease, request } (.answered { errors := [.message text] })
    | .ok request => .effect { lease, request } .reading
  | .signal received => .signal received .reading
  | .sweep config => .sweep config (.requeueing {})
  | .fail lease transition => .failing lease transition

inductive Event
  | job (call : JobCall)
  | start (t : ℕ) (program : Program)
  | advance (t : ℕ) (choice : Choice)
  | crash (t : ℕ)

/-- The store calls made outside the programs above: leases expire and executions fail only inside
them, and a replay reads the effects the ledger holds. -/
def direct : JobCall → Bool
  | .requeueExpired _ _ => false
  | .fail _ _ _ => false
  | .replay effects request => decide (effects.Perm (s.effects.ofJob request.jobID))
  | _ => true

abbrev State := Pool Shared Thread

def step (codec : Recovery.Codec) (p : State) : Event → Option State
  | .job call =>
    if direct p.shared call then
      (p.shared.base.step codec call).map fun base => p.update { p.shared with base }
    else none
  | .start t program =>
    match p.thread t with
    | .idle => some (p.move t p.shared program.thread)
    | _ => none
  | .advance t choice => (advance p.shared choice (p.thread t)).map fun (s, thread) => p.move t s thread
  | .crash t => some (p.move t p.shared .idle)

def machine (codec : Recovery.Codec) : Machine State Event :=
  { start := { shared := {}, thread := fun _ => .idle }, step := step codec }

end Runtime
end RhinoQ.Model
