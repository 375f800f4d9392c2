import RhinoQ.Machine.Separation
import RhinoQ.Proofs.ProviderOperation

/-! # Provider callbacks are separated by a recorded absence

Every call that reads an operation as pending goes on to its callback, and nothing in the record says that
another call did so before.
-/

namespace RhinoQ.Model.ProviderOperation

open ProviderOperationStore Pool Call

variable {p q : System} {e : Event}
variable {copy : Record} {evidence : Option Evidence} {after : After} {key id : String} {phase : Phase} {call : Call}
    {s : Shared}

/-- What a suspended call knows about the store. -/
def PhaseOk (s : ProviderOperationStore) (call : Call) : Phase → Prop
  | .getting id => s.byKey.lookup call.key = some id
  | .calling record => s.Held call.key record ∧ record.state = .pending
  | .called record => s.Held call.key record ∧ record.state = .pending
  | .saving copy next _ after => s.Held call.key copy ∧ Drafts copy next after
  | .readingBack record _ => s.Held call.key record ∧ (record.state = .accepted ∨ record.state = .uncertain)
  | _ => True

def ThreadOk (s : Shared) : Thread → Prop
  | .operation call phase => PhaseOk s.store call phase
  | _ => True

/-- What one step of a call does to the store. -/
inductive StoreStep (s t : ProviderOperationStore) (call : Call) : Prop
  | kept (same : t = s)
  | begun (record : Record) (begun : Begun s t record) (own : record.key = call.key) (pending : record.state = .pending)
  | saved (copy next : Record) (saved : Saved s t copy next) (held : s.Held call.key copy)

section
variable {s t : ProviderOperationStore} {call : Call} {phase : Phase} {choice : Choice} {record : Record}
variable {result : Except OperationError Record}

theorem Continues.phaseOk (continues : Continues record phase) (held : s.Held call.key record) : PhaseOk s call phase := by
  cases continues with
  | answered => trivial
  | calling pending => exact ⟨held, pending⟩
  | readingBack _ waiting => exact ⟨held, waiting⟩
  | saving _ _ _ drafts => exact ⟨held, drafts⟩

theorem StoreStep.held (step : StoreStep s t call) (held : s.Held key copy) : t.Held key copy := by
  cases step with
  | kept same => exact same ▸ held
  | begun _ begun => exact held.begun begun
  | saved _ _ saved => exact held.saved saved

theorem StoreStep.wellFormed (step : StoreStep s t call) (wf : s.WellFormed) : t.WellFormed := by
  cases step with
  | kept same => exact same ▸ wf
  | begun _ begun => exact begun.wellFormed wf
  | saved _ _ saved => exact saved.wellFormed wf

theorem StoreStep.listed (step : StoreStep s t call) (listed : s.byKey.lookup key = some id) :
    t.byKey.lookup key = some id := by
  cases step with
  | kept same => exact same ▸ listed
  | begun record begun =>
    rw [begun.byKey]
    exact FiniteMap.lookup_insert_of_absent begun.free listed
  | saved _ _ saved => rw [saved.byKey, listed]

theorem StoreStep.phaseOk (step : StoreStep s t call) (ok : PhaseOk s other phase) : PhaseOk t other phase := by
  cases phase with
  | beginning | answered => trivial
  | getting id => exact step.listed ok
  | calling | called | saving | readingBack => exact ⟨step.held ok.1, ok.2⟩

theorem newWithFingerprint_eq_ok
    {confirmation : ConfirmationPolicy} {retryPolicy : RetryPolicy}
    (success : newWithFingerprint id taskID provider operation key fingerprint confirmation retryPolicy now = .ok record) :
    record.key = provider ++ "\x00" ++ operation ++ "\x00" ++ key ∧ record.state = .pending := by
  unfold newWithFingerprint at success
  split at success
  · cases success
  cases success
  exact ⟨rfl, rfl⟩

section
variable (wf : s.WellFormed) (begun : call.beginProviderOperation s choice = (result, t))
include wf begun

/-- A begin finds the record of its key or stores a pending one. -/
theorem Call.begin_cases : (t = s ∨ ∃ record, Begun s t record ∧ record.key = call.key ∧ record.state = .pending) ∧
      ∀ record, result = .ok record → t.byKey.lookup call.key = some record.id := by
  have refused (error : OperationError) (u : ProviderOperationStore) (record : Record)
      (impossible : (.error error : Except OperationError Record) = .ok record) :
      u.byKey.lookup call.key = some record.id := by
    cases impossible
  unfold beginProviderOperation beginWithFingerprint at begun
  split at begun
  · cases begun
    exact ⟨.inl rfl, refused _ _⟩
  split at begun
  · cases begun
    exact ⟨.inl rfl, refused _ _⟩
  split at begun
  · cases begun
    exact ⟨.inl rfl, refused _ _⟩
  next record built =>
    obtain ⟨own, pending⟩ := newWithFingerprint_eq_ok built
    have own : record.key = call.key := own
    split at begun
    next failure =>
      cases begun
      exact ⟨.inl (begin_eq_error failure), refused _ _⟩
    next stored u success =>
      have stepped : (u = s ∨ ∃ record, Begun s u record ∧ record.key = call.key ∧ record.state = .pending) ∧
          u.byKey.lookup call.key = some stored.id := by
        rcases begin_eq_ok success with ⟨id, listed, found, rfl⟩ | ⟨free, absent, rfl, byID, byKey⟩
        · obtain rfl := wf.named id stored found
          exact ⟨.inl rfl, own ▸ listed⟩
        · refine ⟨.inr ⟨stored, ⟨free, absent, byID, byKey⟩, own, pending⟩, ?_⟩
          rw [byKey, ← own, FiniteMap.lookup_insert, if_pos rfl]
      split at begun
      · cases begun
        exact ⟨stepped.1, refused _ _⟩
      · cases begun
        refine ⟨stepped.1, ?_⟩
        rintro _ ⟨⟩
        exact stepped.2

theorem Call.begin_step : StoreStep s t call := by
  rcases (begin_cases wf begun).1 with same | ⟨record, begun, own, pending⟩
  · exact .kept same
  · exact .begun record begun own pending

end

end

/-- A call logs callbacks of its own key only. -/
def Logged (s t : Shared) (call : Call) : Prop :=
  t.log = s.log ∨ ∃ entry, t.log = s.log ++ [entry] ∧ ∀ key, entry = .invoked key → key = call.key

theorem advance_step (wf : s.store.WellFormed)
    (ok : PhaseOk s.store call phase) (moved : advance s call choice phase = some (t, next)) :
    StoreStep s.store t.store call ∧ PhaseOk t.store call next ∧ Logged s t call := by
  cases phase with
  | beginning =>
    simp only [advance] at moved
    split at moved
    next failure =>
      cases moved
      exact ⟨begin_step wf failure, trivial, .inl rfl⟩
    next success =>
      cases moved
      exact ⟨begin_step wf success, (begin_cases wf success).2 _ rfl, .inl rfl⟩
  | getting id =>
    simp only [advance] at moved
    split at moved
    next =>
      cases moved
      exact ⟨.kept rfl, trivial, .inl rfl⟩
    next record found =>
      cases moved
      exact ⟨.kept rfl, afterGet_continues.phaseOk (held_of_lookup wf ok found), .inl rfl⟩
  | calling record =>
    cases moved
    exact ⟨.kept rfl, ok, .inr ⟨_, rfl, fun key equal => (OperationEntry.invoked.inj equal).symm⟩⟩
  | called record =>
    cases moved
    refine ⟨.kept rfl, ?_, .inl rfl⟩
    rcases afterCall_cases ok.2 with ⟨_, answer, ends⟩ | ⟨drafted, evidence, after, drafts, waits⟩
    · exact ends ▸ trivial
    · exact waits ▸ ⟨ok.1, drafts⟩
  | readingBack record callError =>
    cases moved
    exact ⟨.kept rfl, (afterReadback_continues ok.2).phaseOk ok.1, .inl rfl⟩
  | saving copy drafted evidence after =>
    obtain ⟨held, drafts⟩ := ok
    simp only [advance] at moved
    split at moved
    next failure =>
      cases moved
      obtain ⟨answer, ends⟩ := fail_eq none _ choice after
      exact ⟨.kept (save_eq_error failure).1, ends ▸ trivial, .inl rfl⟩
    next success =>
      cases moved
      obtain ⟨rfl, saved⟩ := held.save drafts.advances success
      have stepped : StoreStep s.store _ call := .saved copy _ saved held
      refine ⟨stepped, (resume_continues drafts.moves).phaseOk ?_, .inr ⟨_, rfl, nofun⟩⟩
      have kept := stepped.held held
      refine ⟨drafts.advances.key.trans held.own, drafts.advances.id ▸ kept.listed, Fence.copied_of_lookup ?_⟩
      rw [saved.byID]
      exact AList.lookup_insert _
  | answered answer => cases moved

structure SystemOk (p : System) : Prop where
  wellFormed : p.shared.store.WellFormed
  threads : ∀ t, ThreadOk p.shared (p.thread t)

theorem SystemOk.start : SystemOk machine.start := by
  refine ⟨⟨?_, ?_⟩, fun _ => trivial⟩
  · intro id record found
    cases found
  · intro key id found
    cases found

theorem startThread_ok (s : Shared) (request : Request) (callback readback : Bool) :
    ThreadOk s (startThread request callback readback) := by
  unfold startThread
  split <;> trivial

/-- What a step does. -/
inductive Stepped (p : System) : Event → System → Prop
  | started (idle : p.thread t = .idle) :
    Stepped p (.start t asked back reads) (p.move t p.shared (startThread asked back reads))
  | crashed : Stepped p (.crash t) (p.move t p.shared .idle)
  | advanced (current : p.thread t = .operation own now) (moved : advance p.shared own choice now = some (left, next)) :
    Stepped p (.advance t choice) (p.move t left (.operation own next))

theorem stepped_of_step (step : step p e = some q) : Stepped p e q := by
  cases e with
  | start t request callback readback =>
    simp only [ProviderOperation.step] at step
    split at step
    next idle =>
      cases step
      exact .started idle
    next => cases step
  | crash t =>
    cases step
    exact .crashed
  | advance t choice =>
    simp only [ProviderOperation.step] at step
    split at step
    next current =>
      obtain ⟨⟨s, next⟩, moved, rfl⟩ := Option.map_eq_some_iff.mp step
      exact .advanced current moved
    next => cases step

theorem SystemOk.step (ok : SystemOk p) (stepped : Stepped p e q) : SystemOk q := by
  cases stepped with
  | started =>
    exact ⟨ok.wellFormed, forall_move ThreadOk ok.threads (startThread_ok ..) fun _ _ same => same⟩
  | crashed => exact ⟨ok.wellFormed, forall_move ThreadOk ok.threads trivial fun _ _ same => same⟩
  | advanced current moved =>
    have known := current ▸ ok.threads _
    obtain ⟨stepped, kept, _⟩ := advance_step ok.wellFormed known moved
    refine ⟨stepped.wellFormed ok.wellFormed, forall_move ThreadOk ok.threads kept fun u _ same => ?_⟩
    generalize p.thread u = other at same ⊢
    cases other with
    | operation call phase => exact stepped.phaseOk same
    | idle | refused => trivial

/-- The copy of a call that has read the operation as pending and not yet recorded its result. -/
def pendingCopy : Phase → Option Record
  | .calling record => some record
  | .called record => some record
  | .saving copy _ _ _ => if copy.state = .pending then some copy else none
  | _ => none

/-- The thread is a call of `key` that holds the pending `copy`. -/
def Flying (thread : Thread) (key : String) (copy : Record) : Prop :=
  ∃ call phase, thread = .operation call phase ∧ call.key = key ∧ pendingCopy phase = some copy

/-- The steps after which a callback may run twice: a call reads the operation as pending while another call holds it so; a
callback returns a result that cannot be recorded; or a call is lost between its callback and the record of its result. -/
def Reinvokes (p : System) : Event → Prop
  | .start _ _ _ _ => False
  | .advance t choice =>
    match p.thread t with
    | .operation call (.getting id) =>
      (∃ record, p.shared.store.getProviderOperation id = some record ∧ record.state = .pending) ∧
        ∃ u copy, u ≠ t ∧ Flying (p.thread u) call.key copy
    | .operation _ (.called _) => Unrecordable choice
    | _ => False
  | .crash t =>
    match p.thread t with
    | .operation _ (.called _) => True
    | .operation _ (.saving copy _ _ _) => copy.state = .pending
    | _ => False

/-- A callback of `key` has no recorded absence after it. -/
abbrev Pending (s : Shared) (key : String) : Prop := Unclosed (· = .invoked key) (· = .recorded key .notHappened) s.log

abbrev Apart (s : Shared) (key : String) : Prop := Separated (· = .invoked key) (· = .recorded key .notHappened) s.log

abbrev Flies (key : String) (thread : Thread) : Prop := ∃ copy, Flying thread key copy

/-- A call that holds the operation as pending holds its record, and all callbacks before its own were answered. -/
structure Holds (key : String) (s : Shared) (thread : Thread) : Prop where
  current : ∀ copy, Flying thread key copy → s.store.recordAt key = some copy
  fresh : ∀ call record, thread = .operation call (.calling record) → call.key = key → ¬Pending s key

/-- While the operation may be called, every callback was answered. -/
def Answered (key : String) (s : Shared) : Prop :=
  (∀ record, s.store.recordAt key = some record → record.state = .pending ∨ record.state = .notHappened) → ¬Pending s key

/-- The invariant of one operation. -/
structure KeyOk (p : System) (key : String) : Prop extends Lone (Flies key) (Holds key) (Answered key) p where
  apart : Apart p.shared key

section
variable {t : ℕ} {s : Shared} {next : Thread} {key : String}

theorem KeyOk.current (ok : KeyOk p key) (flying : Flying (p.thread t) key copy) : p.shared.store.recordAt key = some copy :=
  (ok.holds t ⟨copy, flying⟩).current copy flying

/-- A step that leaves the record of the operation, by a thread that does not hold it as pending. -/
theorem KeyOk.frame (ok : KeyOk p key) (before : ¬Flies key (p.thread t)) (after : ¬Flies key next)
    (same : s.store.recordAt key = p.shared.store.recordAt key)
    (closed : ¬Pending p.shared key → ¬Pending s key) (apart : Apart s key) : KeyOk (p.move t s next) key := by
  refine ⟨ok.toLone.frame before after (fun thread _ holds => ⟨?_, ?_⟩) fun answered states => ?_, apart⟩
  · intro copy flying
    exact same.trans (holds.current copy flying)
  · intro call record calling own
    exact closed (holds.fresh call record calling own)
  · exact closed (answered (same ▸ states))

end

theorem flying_operation : Flying (.operation call phase) key copy ↔ call.key = key ∧ pendingCopy phase = some copy := by
  constructor
  · rintro ⟨_, _, equal, own, held⟩
    cases equal
    exact ⟨own, held⟩
  · rintro ⟨own, held⟩
    exact ⟨call, phase, rfl, own, held⟩

theorem not_flies_of_none (none : pendingCopy phase = none) : ¬Flies key (.operation call phase) := by
  rintro ⟨copy, flying⟩
  rw [flying_operation, none] at flying
  cases flying.2

theorem pendingCopy_saving (held : pendingCopy (.saving source next evidence after) = some copy) :
    copy = source ∧ source.state = .pending := by
  simp only [pendingCopy] at held
  split at held
  next pending => exact ⟨(Option.some.inj held).symm, pending⟩
  next => cases held

section
variable {record : Record} {phase : Phase} (continues : Continues record phase)
include continues

theorem Continues.pendingCopy (held : pendingCopy phase = some copy) : copy = record ∧ record.state = .pending := by
  cases continues with
  | answered | readingBack => cases held
  | calling pending => exact ⟨(Option.some.inj held).symm, pending⟩
  | saving next evidence after drafts => exact pendingCopy_saving held

theorem Continues.pendingCopy_eq_none (settled : record.state ≠ .pending) : ProviderOperation.pendingCopy phase = none := by
  by_contra held
  obtain ⟨copy, held⟩ := Option.ne_none_iff_exists'.mp held
  exact settled (continues.pendingCopy held).2

end

/-- Every call on its way through the callback holds a pending copy. -/
theorem ThreadOk.pending {thread : Thread} (ok : ThreadOk s thread)
    (flying : Flying thread key copy) : copy.state = .pending := by
  obtain ⟨call, phase, rfl, _, held⟩ := flying
  cases phase with
  | beginning | getting | readingBack | answered => cases held
  | calling record =>
    cases held
    exact ok.2
  | called record =>
    cases held
    exact ok.2
  | saving source next evidence after =>
    obtain ⟨rfl, pending⟩ := pendingCopy_saving held
    exact pending

section
variable {t : ℕ} {call : Call} {choice : Choice}
variable {store : ProviderOperationStore} {drafted : Record}

/-- The first begin of a key stores its record before any callback. -/
theorem KeyOk.begun (ok : KeyOk p call.key)
    (begun : Begun p.shared.store store record) (own : record.key = call.key) (after : pendingCopy phase = none) :
    KeyOk (p.move t { p.shared with store } (.operation call phase)) call.key := by
  have missing : p.shared.store.recordAt call.key = none := by
    rw [recordAt, ← own, begun.free, Option.bind_none]
  have none_flies (u : ℕ) : ¬Flies call.key (p.thread u) := by
    rintro ⟨copy, flying⟩
    rw [ok.current flying] at missing
    cases missing
  have closed : ¬Pending p.shared call.key := by
    refine ok.quiet none_flies fun record found => ?_
    rw [missing] at found
    cases found
  exact ⟨.move (fun u _ => none_flies u) (fun flying => absurd flying (not_flies_of_none after)) fun _ _ => closed, ok.apart⟩

/-- A read that leads to the callback found the operation pending and held by nobody. -/
theorem KeyOk.get (ok : KeyOk p call.key) (sys : SystemOk p)
    (current : p.thread t = .operation call (.getting id)) (careful : ¬Reinvokes p (.advance t choice))
    (found : p.shared.store.getProviderOperation id = some record) :
    KeyOk (p.move t p.shared (.operation call (afterGet call record choice))) call.key := by
  have listed : p.shared.store.byKey.lookup call.key = some id := by
    have known := sys.threads t
    rwa [current] at known
  have waiting : ¬Flies call.key (p.thread t) := current ▸ not_flies_of_none rfl
  by_cases pending : record.state = .pending
  · have alone (u : ℕ) (other : u ≠ t) : ¬Flies call.key (p.thread u) := by
      rintro ⟨copy, flying⟩
      refine careful ?_
      simp only [Reinvokes, current]
      exact ⟨⟨record, found, pending⟩, u, copy, other, flying⟩
    have none_flies (u : ℕ) : ¬Flies call.key (p.thread u) := by
      by_cases own : u = t
      · exact own ▸ waiting
      · exact alone u own
    have stored : p.shared.store.recordAt call.key = some record := by
      rw [recordAt, listed, Option.bind_some]
      exact found
    have closed : ¬Pending p.shared call.key := by
      refine ok.quiet none_flies fun other present => ?_
      cases stored.symm.trans present
      exact .inl pending
    -- the read of a pending record leads to the callback
    simp only [afterGet, proceed, pending]
    refine ⟨.move alone (fun _ => ⟨fun copy flying => ?_, fun _ _ _ _ => closed⟩) fun _ _ => closed, ok.apart⟩
    cases (flying_operation.mp flying).2
    exact stored
  · exact ok.frame waiting (not_flies_of_none (afterGet_continues.pendingCopy_eq_none pending))
      rfl (fun closed => closed) ok.apart

/-- The callback starts on an operation whose earlier callbacks were recorded as absent. -/
theorem KeyOk.invoke (ok : KeyOk p call.key) (current : p.thread t = .operation call (.calling record)) :
    KeyOk (p.move t { p.shared with log := p.shared.log ++ [.invoked call.key] } (.operation call (.called record)))
      call.key := by
  have flying : Flying (p.thread t) call.key record := ⟨call, _, current, rfl, rfl⟩
  have closed := (ok.holds t ⟨record, flying⟩).fresh call record current rfl
  refine ⟨.move (ok.alone ⟨record, flying⟩) (fun _ => ⟨?_, ?_⟩) fun landed => ?_, ok.apart.snoc fun _ => closed⟩
  · intro copy also
    cases (flying_operation.mp also).2
    exact ok.current flying
  · intro other found equal
    cases equal
  · exact absurd ⟨record, flying_operation.mpr ⟨rfl, rfl⟩⟩ landed

/-- A result that can be recorded waits to be written, and the operation stays held. -/
theorem KeyOk.return (ok : KeyOk p call.key) (sys : SystemOk p)
    (current : p.thread t = .operation call (.called record)) (careful : ¬Reinvokes p (.advance t choice)) :
    KeyOk (p.move t p.shared (.operation call (afterCall call record choice))) call.key := by
  have flying : Flying (p.thread t) call.key record := ⟨call, _, current, rfl, rfl⟩
  have pending : record.state = .pending := (sys.threads t).pending flying
  simp only [Reinvokes, current] at careful
  obtain ⟨refused, _⟩ | ⟨next, evidence, after, _, waits⟩ := afterCall_cases pending
  · exact absurd refused careful
  · have held : pendingCopy (afterCall call record choice) = some record := by
      rw [waits]
      exact if_pos pending
    refine ⟨.move (ok.alone ⟨record, flying⟩) (fun _ => ⟨?_, ?_⟩) fun landed => ?_, ok.apart⟩
    · intro copy also
      cases held.symm.trans (flying_operation.mp also).2
      exact ok.current flying
    · intro other found equal
      rw [waits] at equal
      cases equal
    · exact absurd ⟨record, flying_operation.mpr ⟨rfl, held⟩⟩ landed

/-- A write reaches the store only over the copy it was drafted from, so the write of a call that does
not hold the operation as pending finds that no other call does. -/
theorem KeyOk.record (ok : KeyOk p call.key) (sys : SystemOk p)
    (current : p.thread t = .operation call (.saving copy drafted evidence after))
    (success : p.shared.store.saveProviderOperation drafted copy.version evidence = (.ok stored, store)) :
    KeyOk (p.move t { store, log := p.shared.log ++ [.recorded stored.key stored.state] }
      (.operation call (resume call stored choice after))) call.key := by
  have known : ThreadOk p.shared (.operation call (.saving copy drafted evidence after)) := current ▸ sys.threads t
  obtain ⟨held, drafts⟩ := known
  obtain ⟨rfl, saved⟩ := held.save drafts.advances success
  have own : stored.key = call.key := drafts.advances.key.trans held.own
  have before : p.shared.store.recordAt call.key = some copy := by
    rw [held.recordAt, ← drafts.advances.id]
    exact saved.found
  have listed : p.shared.store.byKey.lookup stored.key = some stored.id := by
    rw [own, drafts.advances.id]
    exact held.listed
  have now_stored : store.recordAt call.key = some stored := by
    rw [saved.recordAt sys.wellFormed listed, if_pos own.symm]
  have alone (u : ℕ) (other : u ≠ t) : ¬Flies call.key (p.thread u) := by
    rintro ⟨found, flying⟩
    cases before.symm.trans (ok.current flying)
    have pending := (sys.threads u).pending flying
    have also : Flying (p.thread t) call.key copy := current ▸ flying_operation.mpr ⟨rfl, if_pos pending⟩
    exact other (ok.single u t ⟨copy, flying⟩ ⟨copy, also⟩)
  have idle : (.recorded stored.key stored.state : OperationEntry) ≠ .invoked call.key := nofun
  have continues : Continues stored (resume call stored choice after) := resume_continues drafts.moves
  -- A write back to pending is a retry, which finds the absence recorded.
  have closed (pending : stored.state = .pending) : ¬Unclosed (· = .invoked call.key) (· = .recorded call.key .notHappened)
        (p.shared.log ++ [.recorded stored.key stored.state]) := by
    have absent : copy.state = .notHappened := by
      have moves := drafts.moves
      rw [pending] at moves
      generalize copy.state = source at moves
      cases moves with
      | retried => rfl
      | settled _ settled => exact absurd rfl settled
    refine not_unclosed_snoc (ok.quiet (fun u => ?_) fun record found => ?_) idle
    · by_cases same : u = t
      · subst same
        rintro ⟨found, flying⟩
        rw [current, flying_operation] at flying
        rw [(pendingCopy_saving flying.2).2] at absent
        cases absent
      · exact alone u same
    · cases before.symm.trans found
      exact .inr absent
  refine ⟨.move alone (fun _ => ⟨?_, ?_⟩) ?_, ok.apart.snoc fun opening => absurd opening idle⟩
  · intro found flying
    obtain ⟨rfl, _⟩ := continues.pendingCopy (flying_operation.mp flying).2
    exact now_stored
  · intro other found equal _
    have held : pendingCopy (resume call stored choice after) = some found := by
      rw [(Thread.operation.inj equal).2]
      rfl
    exact closed (continues.pendingCopy held).2
  · intro _ open_state
    rcases open_state stored now_stored with pending | absent
    · exact closed pending
    · refine not_unclosed_snoc_of_closes ?_ idle
      rw [own, absent]

/-- A refused write belongs to a call that does not hold the operation as pending. -/
theorem KeyOk.conflict (ok : KeyOk p call.key) (sys : SystemOk p)
    (current : p.thread t = .operation call (.saving copy drafted evidence after))
    (failure : p.shared.store.saveProviderOperation drafted copy.version evidence = (.error error, store)) :
    KeyOk (p.move t { p.shared with store } (.operation call (fail none error choice after))) call.key := by
  have known : ThreadOk p.shared (.operation call (.saving copy drafted evidence after)) := current ▸ sys.threads t
  obtain ⟨held, drafts⟩ := known
  obtain ⟨rfl, conflict⟩ := save_eq_error failure
  obtain ⟨answer, ends⟩ := fail_eq none error choice after
  refine ok.frame ?_ (not_flies_of_none (ends ▸ rfl)) rfl id ok.apart
  rintro ⟨found, flying⟩
  have stored := ok.current flying
  rw [current, flying_operation] at flying
  obtain ⟨rfl, _⟩ := pendingCopy_saving flying.2
  rw [held.recordAt, ← drafts.advances.id] at stored
  exact conflict found stored rfl drafts.advances.version

end

theorem StoreStep.recordAt_of_ne {s t : ProviderOperationStore}
    (step : StoreStep s t call) (wf : s.WellFormed) (other : key ≠ call.key) : t.recordAt key = s.recordAt key := by
  cases step with
  | kept same => rw [same]
  | begun record begun own => rw [begun.recordAt wf, if_neg (own ▸ other)]
  | saved copy next saved held =>
    have own : next.key = call.key := saved.key.trans held.own
    have listed : s.byKey.lookup next.key = some next.id := by
      rw [own, held.listed, wf.named next.id copy saved.found]
    rw [saved.recordAt wf listed, if_neg (own ▸ other)]

section
variable {t : ℕ} {s : Shared} {call : Call} {phase next : Phase} {choice : Choice} {key : String}

section
variable (ok : KeyOk p key) (sys : SystemOk p) (current : p.thread t = .operation call phase)
include ok sys current

theorem KeyOk.other (moved : advance p.shared call choice phase = some (s, next)) (other : call.key ≠ key) :
    KeyOk (p.move t s (.operation call next)) key := by
  have known : PhaseOk p.shared.store call phase := by
    have own := sys.threads t
    rwa [current] at own
  obtain ⟨stepped, _, logged⟩ := advance_step sys.wellFormed known moved
  have same := stepped.recordAt_of_ne sys.wellFormed other.symm
  have elsewhere (phase : Phase) : ¬Flies key (.operation call phase) :=
    fun ⟨_, flying⟩ => other (flying_operation.mp flying).1
  refine ok.frame (current ▸ elsewhere phase) (elsewhere next) same ?_ ?_
  · rcases logged with log | ⟨entry, log, own⟩
    · rw [Pending, Pending, log]
      exact fun closed => closed
    · rw [Pending, Pending, log]
      exact fun closed => not_unclosed_snoc closed fun opening => other (own key opening).symm
  · rcases logged with log | ⟨entry, log, own⟩
    · rw [Apart, log]
      exact ok.apart
    · rw [Apart, log]
      exact ok.apart.snoc fun opening => absurd (own key opening).symm other

theorem advance_keyOk (careful : ¬Reinvokes p (.advance t choice))
    (moved : advance p.shared call choice phase = some (s, next)) :
    KeyOk (p.move t s (.operation call next)) key := by
  by_cases own : call.key = key
  · subst own
    cases phase with
    | beginning =>
      have idle : ¬Flies call.key (p.thread t) := current ▸ not_flies_of_none rfl
      simp only [advance] at moved
      split at moved
      all_goals
        rename_i result
        cases moved
        rcases (begin_cases sys.wellFormed result).1 with rfl | ⟨record, begun, own, _⟩
        · exact ok.frame idle (not_flies_of_none rfl) rfl id ok.apart
        · exact ok.begun begun own rfl
    | getting id =>
      simp only [advance] at moved
      split at moved
      next =>
        cases moved
        exact ok.frame (current ▸ not_flies_of_none rfl) (not_flies_of_none rfl) rfl (fun closed => closed) ok.apart
      next record found =>
        cases moved
        exact ok.get sys current careful found
    | calling record =>
      cases moved
      exact ok.invoke current
    | called record =>
      cases moved
      exact ok.return sys current careful
    | saving copy drafted evidence after =>
      simp only [advance] at moved
      split at moved
      next failure =>
        cases moved
        exact ok.conflict sys current failure
      next success =>
        cases moved
        exact ok.record sys current success
    | readingBack record callError =>
      cases moved
      have known : ThreadOk p.shared (.operation call (.readingBack record callError)) := current ▸ sys.threads t
      have settled : record.state ≠ .pending := by
        intro pending
        rcases known.2 with state | state <;> rw [pending] at state <;> cases state
      exact ok.frame (current ▸ not_flies_of_none rfl)
        (not_flies_of_none ((afterReadback_continues known.2).pendingCopy_eq_none settled)) rfl id ok.apart
    | answered answer => cases moved
  · exact ok.other sys current moved own

end

end

theorem not_flies_idle : ¬Flies key .idle := by
  rintro ⟨_, _, _, equal, _⟩
  cases equal

/-- A call that is lost before its callback leaves the operation as it found it. -/
theorem KeyOk.crash (ok : KeyOk p key) (careful : ¬Reinvokes p (.crash t)) : KeyOk (p.move t p.shared .idle) key := by
  by_cases flies : Flies key (p.thread t)
  · obtain ⟨copy, call, phase, current, own, held⟩ := id flies
    have closed : ¬Pending p.shared key := by
      simp only [Reinvokes, current] at careful
      cases phase with
      | beginning | getting | readingBack | answered => cases held
      | called => exact absurd trivial careful
      | saving => exact absurd (pendingCopy_saving held).2 careful
      | calling record => exact (ok.holds t flies).fresh call record current own
    exact ⟨.move (ok.alone flies) (fun lost => absurd lost not_flies_idle) fun _ _ => closed, ok.apart⟩
  · exact ok.frame flies not_flies_idle rfl id ok.apart

theorem KeyOk.step (ok : KeyOk p key) (sys : SystemOk p) (careful : ¬Reinvokes p e) (stepped : Stepped p e q) :
    KeyOk q key := by
  cases stepped with
  | started idle =>
    refine ok.frame (idle ▸ not_flies_idle) ?_ rfl id ok.apart
    unfold startThread
    split
    · rintro ⟨_, _, _, equal, _⟩
      cases equal
    · exact not_flies_of_none rfl
  | crashed => exact ok.crash careful
  | advanced current moved => exact advance_keyOk ok sys current careful moved

theorem KeyOk.start (key : String) : KeyOk machine.start key :=
  ⟨⟨fun _ _ flies => absurd flies not_flies_idle, fun _ flies => absurd flies not_flies_idle, fun _ _ =>
    not_unclosed_nil⟩, separated_nil⟩

/-- In every run that avoids the steps above, two callbacks of one operation are separated by a
recorded `not_happened`. -/
theorem provider_called_once_unless_reinvoked (reached : machine.Reaches (fun p e => ¬Reinvokes p e) p)
    {key : String} {i j : ℕ} (order : i < j) (first : p.shared.log[i]? = some (.invoked key))
    (second : p.shared.log[j]? = some (.invoked key)) :
    ∃ m, i < m ∧ m < j ∧ p.shared.log[m]? = some (.recorded key .notHappened) := by
  have ok := reached.invariant (fun p => SystemOk p ∧ KeyOk p key) ⟨.start, .start key⟩
    fun p e q careful step inv => ⟨inv.1.step (stepped_of_step step), inv.2.step inv.1 careful (stepped_of_step step)⟩
  obtain ⟨m, between, after, before, found, rfl⟩ := ok.2.apart i j _ _ order first second rfl rfl
  exact ⟨m, after, before, found⟩

def Event.thread? : Event → Option ℕ
  | .start t _ _ _ => some t
  | .advance t _ => some t
  | .crash t => some t

theorem step_thread_of_ne (step : step p e = some q) (t : ℕ) (other : e.thread? ≠ some t) : q.thread t = p.thread t := by
  cases stepped_of_step step with
  | started | crashed | advanced => exact move_thread_of_ne fun same => other (congrArg some same.symm)

/-- No read finds the operation pending, every result can be recorded, and nothing crashes. -/
def calm (p : System) : Event → Bool
  | .start _ _ _ _ => true
  | .advance t choice =>
    match p.thread t with
    | .operation _ (.getting id) => (p.shared.store.getProviderOperation id).all fun record => record.state != .pending
    | .operation _ (.called _) =>
      choice.now != 0 &&
        match choice.returned with
        | .accepted providerID _ => Text.trimSpace providerID != ""
        | .notHappened text => Text.trimSpace text != ""
        | .failed _ => true
    | _ => true
  | .crash _ => false

theorem not_reinvokes_of_calm (p : System) (e : Event) (passed : calm p e = true) : ¬Reinvokes p e := by
  cases e with
  | start => exact not_false
  | crash => cases passed
  | advance t choice =>
    simp only [calm] at passed
    simp only [Reinvokes]
    split at passed
    next =>
      rintro ⟨⟨record, found, pending⟩, _⟩
      rw [found] at passed
      simp [pending] at passed
    next =>
      obtain ⟨clock, returned⟩ := Bool.and_eq_true_iff.mp passed
      rintro (zero | refused)
      · simp [zero] at clock
      · cases result : choice.returned <;> simp [result] at returned refused
        · exact returned refused
        · exact returned refused
    next => exact not_false

def charge : Request := { provider := "stripe", operation := "charge", idempotencyKey := "k" }

def chargeCall : Call := { request := charge, confirmation := .readback, retryPolicy := .whenAbsent, readback := false }

def chargeKey : String := "stripe\x00charge\x00k"

/-- One call reserves the operation; its read of the pending record follows. -/
def reserveCharge : List Event := [.start 0 charge true false, .advance 0 { body := "a", now := 1 }]

/-- The callback reports that nothing happened, and a second call authorizes a retry and runs it again. -/
def retryCharge : List Event :=
  [.advance 0 {}, .advance 0 { now := 2, later := 2, returned := .notHappened "declined" }, .advance 0 {},
   .start 1 charge true false, .advance 1 { body := "b", now := 3 }, .advance 1 { now := 4, later := 4 },
   .advance 1 {}, .advance 1 {}]

theorem callbacks_separated_by_retry :
    ∃ p q r, machine.runChecked calm machine.start reserveCharge = some p ∧ machine.step p (.advance 0 {}) = some q ∧
      machine.runChecked calm q retryCharge = some r ∧ r.shared.log[0]? = some (.invoked chargeKey) ∧
      r.shared.log[3]? = some (.invoked chargeKey) ∧
      ∃ m, 0 < m ∧ m < 3 ∧ r.shared.log[m]? = some (.recorded chargeKey .notHappened) := by
  obtain ⟨p, reserved, current, q, step, r, retried, first, second⟩ :
      ∃ p, machine.runChecked calm machine.start reserveCharge = some p ∧
        p.thread 0 = .operation chargeCall (.getting "provider_op_a") ∧ ∃ q, machine.step p (.advance 0 {}) = some q ∧
        ∃ r, machine.runChecked calm q retryCharge = some r ∧
          r.shared.log[0]? = some (.invoked chargeKey) ∧ r.shared.log[3]? = some (.invoked chargeKey) := by
    decide
  have before := Machine.path_of_runChecked not_reinvokes_of_calm reserved
  have careful : ¬Reinvokes p (.advance 0 {}) := by
    simp only [Reinvokes, current]
    rintro ⟨_, u, copy, other, flying⟩
    rw [thread_of_path Event.thread? (fun _ _ _ step => step_thread_of_ne step) before (n := 1) (by decide)
      (by omega)] at flying
    exact not_flies_idle ⟨copy, flying⟩
  have path := (before.append (.cons careful step (.nil q))).append
    (Machine.path_of_runChecked not_reinvokes_of_calm retried)
  exact ⟨p, q, r, reserved, step, retried, first, second,
    provider_called_once_unless_reinvoked ⟨_, path⟩ (by decide) first second⟩

/-- Two calls read the operation as pending and both run the callback. -/
theorem callbacks_run_concurrently :
    ∃ p, machine.run machine.start (reserveCharge ++ [.advance 0 {}, .start 1 charge true false,
        .advance 1 { body := "b", now := 2 }, .advance 1 {}, .advance 0 {}, .advance 1 {}]) = some p ∧
      p.shared.log = [.invoked chargeKey, .invoked chargeKey] := by
  decide

end RhinoQ.Model.ProviderOperation
