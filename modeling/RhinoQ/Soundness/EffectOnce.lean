import RhinoQ.Proofs.Runtime

/-! # Provider callbacks run at most once

`beginEffect` lets three calls through: on no record, on one left pending under the same epoch, and on one that
did not happen, which `BeginEffect` hands back as it stands. From the last two the callback may run again after
a run that did happen, since a record that is not pending can no longer be confirmed.
-/

namespace RhinoQ.Model

open Ports Effect Pool

namespace Invocation

def effectKey (invocation : Invocation) : String :=
  EffectStore.effectKey invocation.jobID invocation.name invocation.key

/-- The callback returned an error wrapped by `NotHappened`. -/
def NeverHappened (invocation : Invocation) : Prop := ∃ text, invocation.returned = some (.notHappened text)

end Invocation

namespace Runtime

variable {codec : Recovery.Codec} {p q : State} {e : Event}
variable {happened : Bool} {invocation : Invocation} {thread next : Thread} {key : String} {s : Shared} {t : ℕ}

/-- The key of a call that is past its `BeginEffect` and has not answered. -/
def flightKey : Thread → Option String
  | .effect call (.invoking _) => some call.key
  | .effect call (.running _) => some call.key
  | .effect call (.returned _ _) => some call.key
  | .effect call (.resolving _ _ _) => some call.key
  | .effect call (.confirming ..) => some call.key
  | .effect call (.saving ..) => some call.key
  | _ => none

theorem flightKey_ne (grounded : flightKey thread = none) : flightKey thread ≠ some key :=
  grounded.trans_ne (Option.some_ne_none key).symm

/-- The steps after which a callback may run twice. A call opens an effect that has a record other than one that did not
happen, or opens such a one while another call on it is in flight; or a call that was opened on such a record returns
anything but `NotHappened`, or crashes inside its callback. -/
def Reopens (p : State) : Event → Prop
  | .advance t choice =>
    match p.thread t with
    | .effect call (.opening _) =>
      ∃ record, call.lookup p.shared.effects = some record ∧
        (record.state = .notHappened → ∃ u, u ≠ t ∧ flightKey (p.thread u) = some call.key)
    | .effect _ (.running flight) =>
      flight.opened.state = .notHappened ∧ ∀ text, choice.returned ≠ .notHappened text
    | _ => False
  | .crash t =>
    match p.thread t with
    | .effect _ (.running flight) => flight.opened.state = .notHappened
    | _ => False
  | _ => False

/-- Every finished or unfinished invocation of the effect reported `NotHappened`, the one at `skip`
apart. -/
def NeverHappenedBut (skip : Option ℕ) (s : Shared) (key : String) : Prop :=
  ∀ (i : ℕ) invocation, s.invocations[i]? = some invocation → invocation.effectKey = key →
    some i ≠ skip → invocation.NeverHappened

/-- The stored record of the effect is not one that did not happen. -/
def Closed (s : Shared) (key : String) : Prop :=
  ∀ record, s.effects.effects.lookup key = some record → record.state ≠ .notHappened

/-- The callback's return leaves open whether the effect happened, or says that it did. -/
def mayHaveHappened : ProviderReturn → Bool
  | .notHappened _ => false
  | _ => true

/-- The outcome a call in flight has its result of, if it has. -/
def outcome : Phase → Option Bool
  | .returned _ result => some (mayHaveHappened result)
  | .resolving _ result _ => some (mayHaveHappened result)
  | .confirming _ result _ _ _ => some (mayHaveHappened result)
  | .saving _ result _ _ => some (mayHaveHappened result)
  | _ => none

/-- What an outcome says about the record and the invocations of the effect. -/
def Outcome (s : Shared) (key : String) : Bool → Prop
  | true => Closed s key
  | false => NeverHappenedBut none s key

/-- What a call in flight guarantees about the invocations and the record of its effect. -/
def FlightOk (s : Shared) : Thread → Prop
  | .effect call (.invoking opened) =>
    NeverHappenedBut none s call.key ∧ (opened.state ≠ .notHappened → Closed s call.key)
  | .effect call (.running flight) =>
    (∃ invocation, s.invocations[flight.index]? = some invocation ∧ invocation.effectKey = call.key ∧
      invocation.returned = none) ∧
    NeverHappenedBut (some flight.index) s call.key ∧ (flight.opened.state ≠ .notHappened → Closed s call.key)
  | .effect call phase => ∀ happened, outcome phase = some happened → Outcome s call.key happened
  | _ => True

/-- Every invocation of the effect before its last reported `NotHappened`. -/
def Ordered (s : Shared) (key : String) : Prop :=
  ∀ (i j : ℕ) first second, i < j → s.invocations[i]? = some first → s.invocations[j]? = some second →
    first.effectKey = key → second.effectKey = key → first.NeverHappened

/-- The invariant of one effect. -/
structure KeyOk (p : State) (key : String) : Prop extends
    Lone (flightKey · = some key) (fun s thread => s.effects.effects.lookup key ≠ none ∧ FlightOk s thread)
      (fun s => Closed s key ∨ NeverHappenedBut none s key) p where
  absent : p.shared.effects.effects.lookup key = none →
    ∀ (i : ℕ) invocation, p.shared.invocations[i]? = some invocation → invocation.effectKey ≠ key
  ordered : Ordered p.shared key

/-- The invocations of the effect are the same. -/
def SameOn (key : String) (s t : Shared) : Prop :=
  ∀ (i : ℕ) invocation, invocation.effectKey = key →
    (t.invocations[i]? = some invocation ↔ s.invocations[i]? = some invocation)

section
variable {s t : Shared} {key : String}

theorem SameOn.refl (same : t.invocations = s.invocations) : SameOn key s t := by
  intro i invocation _
  rw [same]

theorem NeverHappenedBut.transfer (same : SameOn key s t) (holds : NeverHappenedBut skip s key) :
    NeverHappenedBut skip t key :=
  fun i invocation found own other => holds i invocation ((same i invocation own).mp found) own other

theorem Outcome.transfer (same : SameOn key s t) (closed : Closed s key → Closed t key)
    (holds : Outcome s key happened) : Outcome t key happened := by
  cases happened with
  | true => exact closed holds
  | false => exact NeverHappenedBut.transfer same holds

theorem Outcome.settles (holds : Outcome s key happened) : Closed s key ∨ NeverHappenedBut none s key := by
  cases happened with
  | true => exact .inl holds
  | false => exact .inr holds

theorem flightKey_effect (flying : flightKey (.effect call phase) = some key) : call.key = key := by
  cases phase with
  | reading | fencing | opening | answered => cases flying
  | invoking | running | returned | resolving | confirming | saving => exact Option.some.inj flying

section
variable {call : EffectCall} {phase : Phase} (late : outcome phase = some happened)
include late

theorem flightKey_of_outcome : flightKey (.effect call phase) = some call.key := by
  cases phase with
  | reading | fencing | opening | invoking | running | answered => cases late
  | returned | resolving | confirming | saving => rfl

theorem flightOk_iff_outcome : FlightOk s (.effect call phase) ↔ Outcome s call.key happened := by
  cases phase with
  | reading | fencing | opening | invoking | running | answered => cases late
  | returned | resolving | confirming | saving =>
    cases late
    exact ⟨fun holds => holds _ rfl, fun holds _ same => Option.some.inj same ▸ holds⟩

end

theorem exists_call_of_flightKey (flying : flightKey thread = some key) :
    ∃ call phase, thread = .effect call phase ∧ call.key = key := by
  cases thread with
  | effect call phase => exact ⟨call, phase, rfl, flightKey_effect flying⟩
  | idle | signal | sweep | failing | closing | finished => cases flying

theorem FlightOk.transfer (same : SameOn key s t) (closed : Closed s key → Closed t key)
    (own : flightKey thread = some key) (holds : FlightOk s thread) : FlightOk t thread := by
  obtain ⟨call, phase, rfl, rfl⟩ := exists_call_of_flightKey own
  cases phase with
  | invoking opened => exact ⟨holds.1.transfer same, fun fresh => closed (holds.2 fresh)⟩
  | running flight =>
    obtain ⟨⟨invocation, found, named, running⟩, others, fresh⟩ := holds
    exact ⟨⟨invocation, (same _ _ named).mpr found, named, running⟩, others.transfer same, fun opened =>
      closed (fresh opened)⟩
  | reading | fencing | opening | returned | resolving | confirming | saving | answered =>
    exact fun happened late => (holds happened late).transfer same closed

/-- A call that leaves its flight outside a callback opened on a not-happened record settles its effect. -/
theorem FlightOk.settles (holds : FlightOk s thread) (flying : flightKey thread = some key)
    (outside : ∀ call flight, thread = .effect call (.running flight) → flight.opened.state ≠ .notHappened) :
    Closed s key ∨ NeverHappenedBut none s key := by
  obtain ⟨call, phase, rfl, rfl⟩ := exists_call_of_flightKey flying
  cases phase with
  | invoking opened => exact .inr holds.1
  | running flight => exact .inl (holds.2.2 (outside call flight rfl))
  | returned | resolving | confirming | saving => exact (holds _ rfl).settles
  | reading | fencing | opening | answered => cases flying

end

/-- A step of a thread that is not in flight on the effect, and that neither drops its record nor marks it as not
happened. -/
theorem KeyOk.frame (ok : KeyOk p key) (before : flightKey (p.thread t) ≠ some key) (after : flightKey next ≠ some key)
    (same : SameOn key p.shared s) (kept : p.shared.effects.effects.lookup key ≠ none → s.effects.effects.lookup key ≠ none)
    (closed : Closed p.shared key → Closed s key) : KeyOk (p.move t s next) key := by
  refine ⟨ok.toLone.frame before after ?_ fun settled => settled.imp closed (·.transfer same), ?_, ?_⟩
  · intro thread flying holds
    exact ⟨kept holds.1, holds.2.transfer same closed flying⟩
  · intro missing i invocation found own
    have gone : p.shared.effects.effects.lookup key = none := by
      by_contra stored
      exact kept stored missing
    exact ok.absent gone i invocation ((same i invocation own).mp found) own
  · intro i j first second order foundFirst foundSecond ownFirst ownSecond
    exact ok.ordered i j first second order ((same i first ownFirst).mp foundFirst)
      ((same j second ownSecond).mp foundSecond) ownFirst ownSecond

section
variable {t : ℕ} {s : Shared} {next : Thread} {key : String} (alone : ∀ u, u ≠ t → flightKey (p.thread u) ≠ some key)
include alone

/-- A step of the one call that is in flight on the effect afterwards. -/
theorem KeyOk.fly (after : flightKey next = some key)
    (stored : s.effects.effects.lookup key ≠ none) (ordered : Ordered s key) (flight : FlightOk s next) :
    KeyOk (p.move t s next) key :=
  ⟨.move alone (fun _ => ⟨stored, flight⟩) (absurd after), fun missing => absurd missing stored, ordered⟩

/-- The call in flight on the effect answers or crashes. -/
theorem KeyOk.land (after : flightKey next ≠ some key) (stored : s.effects.effects.lookup key ≠ none)
    (ordered : Ordered s key)
    (settled : Closed s key ∨ NeverHappenedBut none s key) : KeyOk (p.move t s next) key :=
  ⟨.move alone (fun flying => absurd flying after) fun _ => settled, fun missing => absurd missing stored, ordered⟩

end

section
variable {s : Shared} {choice : Choice} {thread : Thread} {key : String} {after : Option Record}

theorem LedgerChange.ne_none (change : LedgerChange s choice thread key after)
    (stored : s.effects.effects.lookup key ≠ none) : after ≠ none := by
  cases change with
  | kept same => rwa [same]
  | opened _ _ _ _ _ new => exact new ▸ nofun
  | written _ _ _ _ new => exact new ▸ nofun
  | downgraded _ _ _ _ _ _ new => exact new ▸ nofun

/-- Only the resolution of a not-happened call marks an effect as not happened. -/
theorem LedgerChange.closed {t : Shared} (change : LedgerChange s choice thread key (t.effects.effects.lookup key))
    (other : ¬Writes key thread .notHappened) (closed : Closed s key) : Closed t key := by
  intro record found
  cases change with
  | kept same => exact closed record (same.symm.trans found)
  | opened _ _ _ _ _ stored _ pending =>
    cases stored.symm.trans found
    rw [pending]
    exact nofun
  | written _ new writes _ stored =>
    cases stored.symm.trans found
    intro state
    exact other (state ▸ writes)
  | downgraded _ _ _ _ _ _ stored =>
    cases stored.symm.trans found
    exact nofun

end

theorem SameOn.append {t : Shared}
    (appended : t.invocations = s.invocations ++ [invocation]) (other : invocation.effectKey ≠ key) : SameOn key s t := by
  intro i found own
  rw [appended, List.getElem?_append]
  split
  next => rfl
  rename_i outside
  have beyond : s.invocations[i]? = none := List.getElem?_eq_none (not_lt.mp outside)
  rw [beyond, List.getElem?_singleton]
  constructor
  · intro last
    split at last
    · cases last
      exact absurd own other
    · cases last
  · exact nofun

theorem SameOn.modify {t : Shared}
    (modified : t.invocations = s.invocations.modify index ({ · with returned }))
    (found : s.invocations[index]? = some invocation) (other : invocation.effectKey ≠ key) : SameOn key s t := by
  intro i candidate own
  rw [modified, List.getElem?_modify]
  split
  next same =>
    subst same
    rw [found]
    constructor
    · intro changed
      cases changed
      exact absurd own other
    · intro equal
      cases equal
      exact absurd own other
  next => simp

theorem Writes.flightKey (writes : Writes key thread .notHappened) : flightKey thread = some key := by
  cases writes with
  | notHappened own => exact congrArg some own

section
variable {t : ℕ} {call : EffectCall} {choice : Choice} {opened : Record} {next : Phase}

/-- The effect had no record, or one that did not happen and no other call in flight. -/
theorem KeyOk.open {new : Record} (ok : KeyOk p call.key) (wf : WellFormed p)
    (current : p.thread t = .effect call (.opening new)) (careful : ¬Reopens p (.advance t choice))
    (begun : p.shared.effects.beginEffect call.lease new = (.ok opened, effects)) :
    KeyOk (p.move t { p.shared with effects } (.effect call (.invoking opened))) call.key := by
  have waiting : flightKey (p.thread t) ≠ some call.key := current ▸ nofun
  have copies : Copies (.effect call (.opening new)) := current ▸ wf.copies t
  obtain ⟨own, pending, _⟩ := copies
  have begun := EffectStore.beginEffect_eq_ok begun
  rw [own] at begun
  rcases begun with ⟨found, rfl⟩ | ⟨missing, rfl, stored⟩
  · simp only [Reopens, current, not_exists, not_and] at careful
    have refused := careful opened found
    push Not at refused
    obtain ⟨state, alone⟩ := refused
    have quiet (u : ℕ) : flightKey (p.thread u) ≠ some call.key := by
      by_cases own : u = t
      · exact own ▸ waiting
      · exact alone u own
    have never : NeverHappenedBut none p.shared call.key :=
      (ok.quiet quiet).resolve_left fun closed => closed opened found state
    exact .fly (fun u _ => quiet u) rfl (found ▸ nofun) ok.ordered ⟨never, fun fresh => absurd state fresh⟩
  · have quiet (u : ℕ) : flightKey (p.thread u) ≠ some call.key := fun flying => (ok.holds u flying).1 missing
    have inserted : effects.effects.lookup call.key = some { new with leaseEpoch := call.lease.epoch } := by
      rw [stored, FiniteMap.lookup_insert, if_pos rfl]
    refine .fly (fun u _ => quiet u) rfl (inserted ▸ nofun) ok.ordered ⟨?_, fun _ => ?_⟩
    · intro i invocation found own
      exact absurd own (ok.absent missing i invocation found)
    · intro record found
      cases inserted.symm.trans found
      change new.state ≠ _
      rw [pending]
      exact nofun

/-- Every earlier invocation of the effect did not happen when a callback starts. -/
theorem KeyOk.invoke (ok : KeyOk p call.key) (current : p.thread t = .effect call (.invoking opened))
    (step : EffectStep p.shared call choice (.invoking opened) s next) :
    KeyOk (p.move t s (.effect call next)) call.key := by
  have flying : flightKey (p.thread t) = some call.key := current ▸ rfl
  have holds : FlightOk p.shared (.effect call (.invoking opened)) := current ▸ (ok.holds t flying).2
  obtain ⟨never, fresh⟩ := holds
  obtain ⟨_, ⟨⟩⟩ | _ := step
  have earlier {i : ℕ} {invocation : Invocation} {extra : List Invocation} (inside : i < p.shared.invocations.length)
      (found : (p.shared.invocations ++ extra)[i]? = some invocation) (own : invocation.effectKey = call.key) :
      invocation.NeverHappened := by
    rw [List.getElem?_append_left inside] at found
    exact never i invocation found own nofun
  refine .fly (ok.alone flying) rfl (ok.holds t flying).1 ?_ ⟨⟨_, List.getElem?_concat_length, ?_, ?_⟩, ?_, fresh⟩
  · intro i j first second order foundFirst foundSecond ownFirst _
    have bound := (List.getElem?_eq_some_iff.mp foundSecond).1
    rw [List.length_append, List.length_singleton] at bound
    exact earlier (by omega) foundFirst ownFirst
  · rfl
  · rfl
  · intro i invocation found own other
    have bound := (List.getElem?_eq_some_iff.mp found).1
    rw [List.length_append, List.length_singleton] at bound
    have inside : i ≠ p.shared.invocations.length := fun last => other (congrArg some last)
    exact earlier (by omega) found own

/-- The invocation that returns is the last one of its effect. -/
theorem KeyOk.return (ok : KeyOk p call.key)
    (current : p.thread t = .effect call (.running flight)) (careful : ¬Reopens p (.advance t choice))
    (step : EffectStep p.shared call choice (.running flight) s next) : KeyOk (p.move t s (.effect call next)) call.key := by
  have flying : flightKey (p.thread t) = some call.key := current ▸ rfl
  have holds : FlightOk p.shared (.effect call (.running flight)) := current ▸ (ok.holds t flying).2
  obtain ⟨⟨running, at_index, named, unreturned⟩, never, fresh⟩ := holds
  simp only [Reopens, current, not_and, not_forall, not_not] at careful
  obtain ⟨_, ⟨⟩⟩ | _ := step
  have others {i : ℕ} {invocation : Invocation} {f : Invocation → Invocation} (other : i ≠ flight.index)
      (found : (p.shared.invocations.modify flight.index f)[i]? = some invocation) (own : invocation.effectKey = call.key) :
      p.shared.invocations[i]? = some invocation ∧ invocation.NeverHappened := by
    rw [List.getElem?_modify_ne _ _ other.symm] at found
    exact ⟨found, never i invocation found own fun same => other (Option.some.inj same)⟩
  refine .fly (ok.alone flying) rfl (ok.holds t flying).1 ?_ ?_
  · intro i j first second order foundFirst foundSecond ownFirst ownSecond
    by_cases last : i = flight.index
    · subst last
      obtain ⟨later, _⟩ := others (by omega) foundSecond ownSecond
      obtain ⟨text, impossible⟩ := ok.ordered _ _ _ _ order at_index later named ownSecond
      rw [unreturned] at impossible
      cases impossible
    · exact (others last foundFirst ownFirst).2
  · have closed (notNever : ∀ text, choice.returned ≠ .notHappened text) : Closed p.shared call.key := by
      refine fresh fun state => ?_
      obtain ⟨text, result⟩ := careful state
      exact notNever text result
    rintro happened ⟨⟩
    cases result : choice.returned with
    | failed text => exact closed (result ▸ nofun)
    | reference text => exact closed (result ▸ nofun)
    | notHappened text =>
      intro i invocation found own _
      by_cases last : i = flight.index
      · subst last
        rw [List.getElem?_modify_eq, at_index] at found
        cases found
        exact ⟨text, rfl⟩
      · exact (others last found own).2

end

section
variable {t : ℕ} {s : Shared} {choice : Choice} {key : String}

/-- The frame rule for a step of a thread that is not in flight on the effect. -/
theorem KeyOk.frame_advance (ok : KeyOk p key) (wf : WellFormed p)
    (moved : Advanced p.shared choice (p.thread t) s next) (before : flightKey (p.thread t) ≠ some key)
    (after : flightKey next ≠ some key) (same : SameOn key p.shared s) : KeyOk (p.move t s next) key := by
  have change : LedgerChange p.shared choice (p.thread t) key (s.effects.effects.lookup key) := moved.ledger (wf.copies t)
  exact ok.frame before after same change.ne_none (change.closed fun writes => before writes.flightKey)

variable {call : EffectCall} {phase next : Phase}

theorem EffectStep.invocations {t : Shared} (step : EffectStep s call choice phase t next) : t.invocations = s.invocations ∨
      (∃ opened, phase = .invoking opened ∧ ∃ invocation : Invocation, invocation.effectKey = call.key ∧
        t.invocations = s.invocations ++ [invocation]) ∨ ∃ flight returned, phase = .running flight ∧
        t.invocations = s.invocations.modify flight.index ({ · with returned }) := by
  cases step with
  | invoked opened =>
    refine .inr (.inl ⟨opened, rfl, _, ?_, rfl⟩)
    rfl
  | returned flight => exact .inr (.inr ⟨flight, _, rfl, rfl⟩)
  | _ => exact .inl rfl

/-- A call that has its result keeps it until it answers. -/
theorem EffectStep.outcome {t : Shared} (step : EffectStep s call choice phase t next)
    (late : outcome phase = some happened) : outcome next = some happened ∨ ∃ answer, next = .answered answer := by
  cases step with
  | decided | fenced | opened | invoked | returned => cases late
  | found | closes | confirms | checked => exact .inl late
  | ended | unknown | saved => exact .inr ⟨_, rfl⟩

theorem KeyOk.resolve (ok : KeyOk p call.key) (wf : WellFormed p) (current : p.thread t = .effect call phase)
    (step : EffectStep p.shared call choice phase s next) (late : outcome phase = some happened) :
    KeyOk (p.move t s (.effect call next)) call.key := by
  have flying : flightKey (p.thread t) = some call.key := current ▸ flightKey_of_outcome late
  have change : LedgerChange p.shared choice (.effect call phase) call.key (s.effects.effects.lookup call.key) :=
    step.ledger (current ▸ wf.copies t)
  have same : s.invocations = p.shared.invocations := by
    rcases step.invocations with same | ⟨_, rfl, _⟩ | ⟨_, _, rfl, _⟩
    · exact same
    · cases late
    · cases late
  have ordered : Ordered s call.key := by
    unfold Ordered
    rw [same]
    exact ok.ordered
  have outcome : Outcome s call.key happened := by
    have before : Outcome p.shared call.key happened :=
      (flightOk_iff_outcome late).mp (current ▸ (ok.holds t flying).2)
    cases happened with
    | false => exact NeverHappenedBut.transfer (.refl same) before
    | true =>
      refine change.closed (fun writes => ?_) before
      cases writes
      cases late
  have stored := change.ne_none (ok.holds t flying).1
  rcases step.outcome late with again | ⟨answer, rfl⟩
  · exact .fly (ok.alone flying) (flightKey_of_outcome again) stored ordered ((flightOk_iff_outcome again).mpr outcome)
  · exact .land (ok.alone flying) nofun stored ordered outcome.settles

theorem advanceEffect_keyOk (all : ∀ key, KeyOk p key) (wf : WellFormed p)
    (current : p.thread t = .effect call phase) (careful : ¬Reopens p (.advance t choice))
    (step : EffectStep p.shared call choice phase s next) : KeyOk (p.move t s (.effect call next)) key := by
  have moved : Advanced p.shared choice (p.thread t) s (.effect call next) := current ▸ .effect step
  by_cases own : call.key = key
  · subst own
    cases phase with
    | reading | fencing =>
      cases step <;> exact (all _).frame_advance wf moved (flightKey_ne (current ▸ rfl)) (flightKey_ne rfl) (.refl rfl)
    | opening new =>
      cases step with
      | ended => exact (all _).frame_advance wf moved (flightKey_ne (current ▸ rfl)) (flightKey_ne rfl) (.refl rfl)
      | opened begun => exact (all _).open wf current careful begun
    | invoking opened => exact (all _).invoke current step
    | running flight => exact (all _).return current careful step
    | returned | resolving | confirming | saving => exact (all _).resolve wf current step rfl
    | answered =>
      cases step with
      | ended _ may => cases may
  · have same : SameOn key p.shared s := by
      rcases step.invocations with same | ⟨_, rfl, invocation, named, appended⟩ | ⟨flight, _, rfl, modified⟩
      · exact .refl same
      · exact .append appended (named ▸ own)
      · have flying : flightKey (p.thread t) = some call.key := current ▸ rfl
        have holds : FlightOk p.shared (.effect call (.running flight)) := current ▸ ((all call.key).holds t flying).2
        obtain ⟨⟨invocation, found, named, _⟩, _⟩ := holds
        exact .modify modified found (named ▸ own)
    refine (all key).frame_advance wf moved (fun flying => own ?_) (fun flying => own (flightKey_effect flying)) same
    rw [current] at flying
    exact flightKey_effect flying

/-- No other program runs a callback. -/
theorem Advanced.invocations {t : Shared} (step : Advanced s choice thread t after)
    (other : ∀ call phase, thread ≠ .effect call phase) :
    t.invocations = s.invocations ∧ flightKey thread = none ∧ flightKey after = none := by
  cases step with
  | effect => exact absurd rfl (other _ _)
  | _ => exact ⟨rfl, rfl, rfl⟩

end

theorem KeyOk.update (ok : KeyOk p key) : KeyOk (p.update { p.shared with base }) key :=
  ⟨⟨ok.single, fun t flying => ⟨(ok.holds t flying).1, (ok.holds t flying).2.transfer (.refl rfl) id flying⟩, ok.quiet⟩,
    ok.absent, ok.ordered⟩

theorem KeyOk.crash (ok : KeyOk p key) (careful : ¬Reopens p (.crash t)) : KeyOk (p.move t p.shared .idle) key := by
  by_cases flying : flightKey (p.thread t) = some key
  · refine .land (ok.alone flying) nofun (ok.holds t flying).1 ok.ordered ?_
    refine (ok.holds t flying).2.settles flying fun call flight current state => careful ?_
    simpa only [Reopens, current] using state
  · exact ok.frame flying nofun (.refl rfl) id id

theorem flightKey_program (program : Program) : flightKey program.thread = none := by
  cases program with
  | effect lease request =>
    unfold Program.thread
    dsimp only
    split <;> rfl
  | signal | sweep | fail => rfl

theorem KeyOk.step (all : ∀ key, KeyOk p key) (wf : WellFormed p) (careful : ¬Reopens p e)
    (step : step codec p e = some q) (key : String) : KeyOk q key := by
  cases step_cases step with
  | job => exact (all key).update
  | start program idle =>
    exact (all key).frame (flightKey_ne (idle ▸ rfl)) (flightKey_ne (flightKey_program program)) (.refl rfl) id id
  | crash => exact (all key).crash careful
  | @advance t s choice thread moved =>
    by_cases effect : ∃ call phase, p.thread t = .effect call phase
    · obtain ⟨call, phase, current⟩ := effect
      rw [current] at moved
      cases moved with
      | effect inner => exact advanceEffect_keyOk all wf current careful inner
    · obtain ⟨same, before, after⟩ := moved.invocations fun call phase current => effect ⟨call, phase, current⟩
      exact (all key).frame_advance wf moved (flightKey_ne before) (flightKey_ne after) (.refl same)

/-- In every run without a reopening step, a callback is invoked again for a job, name and key only
after each earlier invocation returned an error wrapped by `NotHappened`. -/
theorem callback_runs_once_unless_reopened (reached : (machine codec).Reaches (fun p e => ¬Reopens p e) p)
    {i j : ℕ} {first second : Invocation} (order : i < j) (earlier : p.shared.invocations[i]? = some first)
    (later : p.shared.invocations[j]? = some second) (job : first.jobID = second.jobID)
    (name : first.name = second.name) (key : first.key = second.key) :
    ∃ text, first.returned = some (.notHappened text) := by
  have ok := reached.invariant (fun p => WellFormed p ∧ ∀ key, KeyOk p key)
    ⟨wellFormed_start, fun _ => ⟨⟨nofun, nofun, fun _ => .inl nofun⟩, fun _ => nofun, nofun⟩⟩
    fun p e q careful step inv => ⟨inv.1.step step, KeyOk.step inv.2 inv.1 careful step⟩
  have same : first.effectKey = second.effectKey := by
    rw [Invocation.effectKey, Invocation.effectKey, job, name, key]
  exact (ok.2 second.effectKey).ordered i j first second order earlier later same rfl

/-- Each call opens an effect without a record, and none that was opened on a not-happened record returns. -/
def calm (p : State) : Event → Bool
  | .advance t _ =>
    match p.thread t with
    | .effect call (.opening _) => (call.lookup p.shared.effects).isNone
    | .effect _ (.running flight) => flight.opened.state != .notHappened
    | _ => true
  | .crash _ => false
  | _ => true

theorem not_reopens_of_calm (p : State) (e : Event) (passed : calm p e = true) : ¬Reopens p e := by
  cases e with
  | advance t choice =>
    simp only [calm] at passed
    simp only [Reopens]
    split at passed
    next =>
      rintro ⟨record, found, _⟩
      rw [found] at passed
      cases passed
    next =>
      rintro ⟨state, _⟩
      rw [state] at passed
      cases passed
    next => exact not_false
  | crash t => cases passed
  | job | start => exact not_false

/-- The callback reports `NotHappened`, and a second call under the same lease has read the record and passed its fence. -/
def reportNotHappened : List Event :=
  runCharge ++ [.advance 0 { returned := .notHappened "declined" }, .advance 0 {}, .advance 0 { now := 4 }, .advance 0 {},
    .advance 0 {}, .start 1 (.effect { jobID := "job_000001", owner := "w", epoch := 1 } { name := "charge", key := "k" }),
    .advance 1 {}, .advance 1 { now := 5 }]

def secondCharge : EffectCall :=
  { lease := { jobID := "job_000001", owner := "w", epoch := 1 }
    request := { name := "charge", key := "k", confirm := some .onReturn } }

/-- The second call opens the effect. -/
def openAgain : Event := .advance 1 {}

theorem callback_runs_again_after_not_happened :
    ∃ p q r first second, (machine .plain).runChecked calm (machine .plain).start reportNotHappened = some p ∧
      (machine .plain).step p openAgain = some q ∧ (machine .plain).runChecked calm q [.advance 1 {}] = some r ∧
      r.shared.invocations[0]? = some first ∧ r.shared.invocations[1]? = some second ∧
      ∃ text, first.returned = some (.notHappened text) := by
  obtain ⟨p, run, answered, new, _, current, state, q, step, r, last, first, earlier, second, later, job, name, key⟩ :
      ∃ p, (machine .plain).runChecked calm (machine .plain).start reportNotHappened = some p ∧
        flightKey (p.thread 0) = none ∧
        ∃ new, (secondCharge.serviceBegin p.shared.base.jobs secondCharge.generatedID 5).toOption = some new ∧
        p.thread 1 = .effect secondCharge (.opening new) ∧
        (secondCharge.lookup p.shared.effects).map (·.state) = some .notHappened ∧
        ∃ q, (machine .plain).step p openAgain = some q ∧ ∃ r, (machine .plain).runChecked calm q [.advance 1 {}] = some r ∧
          ∃ first, r.shared.invocations[0]? = some first ∧ ∃ second, r.shared.invocations[1]? = some second ∧
            first.jobID = second.jobID ∧ first.name = second.name ∧ first.key = second.key := by
    decide
  have before := Machine.path_of_runChecked not_reopens_of_calm run
  have alone (u : ℕ) (other : u ≠ 1) : flightKey (p.thread u) = none := by
    cases u with
    | zero => exact answered
    | succ u =>
      rw [path_thread_of_le before (n := 2) (by decide) (by omega)]
      rfl
  have careful : ¬Reopens p openAgain := by
    simp only [Reopens, openAgain, current]
    rintro ⟨record, found, flagged⟩
    rw [found] at state
    obtain ⟨u, other, flying⟩ := flagged (Option.some.inj state)
    rw [alone u other] at flying
    cases flying
  have path := (before.append (.cons careful step (.nil q))).append (Machine.path_of_runChecked not_reopens_of_calm last)
  exact ⟨p, q, r, first, second, run, step, last, earlier, later,
    callback_runs_once_unless_reopened ⟨_, path⟩ zero_lt_one earlier later job name key⟩

/-- The second call above, run to its callback. -/
def retryNotHappened : List Event := reportNotHappened ++ [openAgain, .advance 1 {}]

/-- The second callback succeeds, its confirmation is refused because the record is not pending, and
a third call runs the callback once more. -/
def retryAfterSuccess : List Event :=
  retryNotHappened ++ [.advance 1 { returned := .reference "ch_1" }, .advance 1 {}, .advance 1 { now := 6 },
    .start 2 (.effect { jobID := "job_000001", owner := "w", epoch := 1 } { name := "charge", key := "k" }),
    .advance 2 {}, .advance 2 { now := 7 }, .advance 2 {}, .advance 2 {}]

theorem callback_runs_after_success : ∃ p, (machine .plain).run (machine .plain).start retryAfterSuccess = some p ∧
      p.shared.invocations.map (·.returned) = [some (.notHappened "declined"), some (.reference "ch_1"), none] ∧
      p.shared.invocations.all fun invocation => invocation.effectKey = chargeKey := by
  decide

end Runtime
end RhinoQ.Model
