import RhinoQ.Machine.Fence
import RhinoQ.Proofs.Task.Service

/-! # Waitpoints settle once

Resolve, cancel and expire commands race for a waitpoint, each with a write over the version of the copy that
it read. The first write settles the waitpoint for good.
-/

namespace RhinoQ.Model

open TaskService FiniteMap Waitpoint.Record Machine

namespace Waitpoint.Record

variable {r next : Record} {now : Time}

/-- A resolution replays the settled record, or settles a waiting one before its deadline. -/
theorem resolve_eq_ok {resolution : List UInt8} {hash resolutionID actor : String}
    (success : r.resolve resolution hash resolutionID actor now = .ok next) : (r.state = .resolved ∧ next = r) ∨
      (r.state = .waiting ∧ next.state = .resolved ∧ next.version = r.version + 1 ∧ next.resolvedAt = now ∧
        (next.deadline.isZero ∨ now < next.deadline)) := by
  unfold resolve at success
  dsimp only at success
  split at success
  · cases success
  split at success
  next resolved =>
    split at success
    · cases success
      exact .inl ⟨resolved, rfl⟩
    · cases success
  · split at success
    · cases success
    next waiting =>
      split at success
      · cases success
      rename_i early
      cases success
      refine .inr ⟨not_not.mp waiting, rfl, rfl, rfl, ?_⟩
      by_cases unset : r.deadline.isZero
      · exact .inl unset
      · right
        simpa [unset] using early

theorem expire_eq_ok (success : r.expire now = .ok next) :
    r.state = .waiting ∧ next.state = .expired ∧ next.version = r.version + 1 ∧ next.deadline ≠ 0 ∧ next.deadline ≤ now := by
  unfold expire at success
  split at success
  · cases success
  rename_i waiting
  split at success
  · cases success
  rename_i late
  cases success
  push Not at late
  refine ⟨not_not.mp waiting, rfl, rfl, ?_, late.2.2⟩
  simpa using late.1

theorem cancel_eq_ok (success : r.cancel now = .ok next) :
    r.state = .waiting ∧ next.state = .cancelled ∧ next.version = r.version + 1 := by
  unfold cancel at success
  split at success
  · cases success
  rename_i waiting
  split at success
  · cases success
  cases success
  exact ⟨not_not.mp waiting, rfl, rfl⟩

end Waitpoint.Record

abbrev Waitpoints := FiniteMap Waitpoint.ID Waitpoint.Record

def waitpointFence : Fence Waitpoint.ID Waitpoint.Record := { id := id, version := version }

/-- How the run of these events settled a waitpoint: by a command that it evaluated before the deadline or after it. -/
inductive Settled (codec : Task.Codec) (events : List Event) (w : Waitpoint.Record) : Prop
  | resolved (t : ℕ) (now : Time) (p : State) (input : ResolveWaitpointInput) (current : Waitpoint.Record)
      (took : (machine codec).Took events (.advance t now) p)
      (evaluated : p.thread t = .running (.resolveWaitpoint input) (.checkingOwner current)) (own : input.id = w.id)
      (state : w.state = .resolved) (resolvedAt : w.resolvedAt = now) (early : w.deadline.isZero ∨ now < w.deadline)
  | expired (t : ℕ) (now : Time) (p : State) (limit : ℤ)
      (took : (machine codec).Took events (.advance t now) p)
      (evaluated : p.thread t = .running (.expireDueWaitpoints limit) .start) (state : w.state = .expired)
      (late : w.deadline ≠ 0 ∧ w.deadline ≤ now)
  | cancelled (state : w.state = .cancelled)

namespace Settled

variable {codec : Task.Codec} {events : List Event} {w : Waitpoint.Record}

theorem append (settled : Settled codec events w) (more : List Event) : Settled codec (events ++ more) w := by
  cases settled with
  | resolved t now p input current took evaluated own state resolvedAt early =>
    exact .resolved t now p input current (took.append more) evaluated own state resolvedAt early
  | expired t now p limit took evaluated state late => exact .expired t now p limit (took.append more) evaluated state late
  | cancelled state => exact .cancelled state

theorem not_waiting (settled : Settled codec events w) : w.state ≠ .waiting := by
  cases settled with
  | resolved _ _ _ _ _ _ _ _ state => rw [state]; nofun
  | expired _ _ _ _ _ _ state => rw [state]; nofun
  | cancelled state => rw [state]; nofun

end Settled

/-- What a step does to the waitpoints: nothing, a new one, or the end of a waiting one. -/
inductive WaitpointChange (codec : Task.Codec) (events : List Event) (m : Waitpoints) : Waitpoints → Prop
  | same : WaitpointChange codec events m m
  | created (record : Waitpoint.Record) (absent : m.lookup record.id = none) (waiting : record.state = .waiting) :
      WaitpointChange codec events m (m.insert record.id record)
  | settled (current next : Waitpoint.Record) (found : m.lookup next.id = some current) (waiting : current.state = .waiting)
      (newer : next.version = current.version + 1) (settled : Settled codec events next) :
      WaitpointChange codec events m (m.insert next.id next)

namespace WaitpointChange

variable {codec : Task.Codec} {events : List Event} {m n : Waitpoints} {w : Waitpoint.Record} {id : Waitpoint.ID}

theorem of_eq (same : n = m) : WaitpointChange codec events m n := by
  subst same
  exact .same

theorem copied (change : WaitpointChange codec events m n) (copied : waitpointFence.Copied m w) :
    waitpointFence.Copied n w := by
  cases change with
  | same => exact copied
  | created record absent =>
    have free : m.lookup (waitpointFence.id record) = none := absent
    exact copied.insert free
  | settled current next found _ newer =>
    have stored : m.lookup (waitpointFence.id next) = some current := found
    have later : waitpointFence.version current < waitpointFence.version next := by
      change current.version < next.version
      omega
    exact copied.write stored later

theorem stored (change : WaitpointChange codec (events ++ more) m n)
    (held : ∀ id w, m.lookup id = some w → w.id = id ∧ (w.state = .waiting ∨ Settled codec events w)) :
    ∀ id w, n.lookup id = some w → w.id = id ∧ (w.state = .waiting ∨ Settled codec (events ++ more) w) := by
  have old (id : Waitpoint.ID) (w : Waitpoint.Record) (found : m.lookup id = some w) :
      w.id = id ∧ (w.state = .waiting ∨ Settled codec (events ++ more) w) :=
    (held id w found).imp_right (·.imp_right (·.append more))
  cases change with
  | same => exact old
  | created record _ waiting => exact forall_insert rfl ⟨rfl, .inl waiting⟩ old
  | settled current next _ _ _ settled => exact forall_insert rfl ⟨rfl, .inr settled⟩ old

theorem final (change : WaitpointChange codec events m n) (found : m.lookup id = some w) (past : w.state ≠ .waiting) :
    n.lookup id = some w := by
  cases change with
  | same => exact found
  | created record absent => exact lookup_insert_of_absent absent found
  | settled current next stored waiting =>
    rw [lookup_insert, if_neg]
    · exact found
    · rintro rfl
      cases stored.symm.trans found
      exact past waiting

end WaitpointChange

section
variable (codec : Task.Codec) (events : List Event)

/-- What a suspended command knows of the waitpoints. -/
def PhaseHeld (m : Waitpoints) (command : Command) : Phase → Prop
  | .checkingOwner current => waitpointFence.Copied m current ∧
    (current.state ≠ .waiting → m.lookup current.id = some current) ∧
      ∀ id, command.waitpoint = some id → current.id = id
  | .savingWaitpoint next expected => ∃ current, waitpointFence.Copied m current ∧ current.state = .waiting ∧
    expected = current.version ∧
      next.version = current.version + 1 ∧ next.id = current.id ∧ Settled codec events next ∧
        ∀ id, command.waitpoint = some id → next.id = id
  | .expiring ticked due _ => (∀ w ∈ due, waitpointFence.Copied m w) ∧
      ∃ t p limit, (machine codec).Took events (.advance t ticked) p ∧
        p.thread t = .running (.expireDueWaitpoints limit) .start
  | .answered (.waitpoint record _) => ∀ id, command.waitpoint = some id → m.lookup id = some record ∧
    Settled codec events record
  | _ => True

/-- The waitpoints of a run and the commands that hold copies of them. -/
structure WaitpointsHeld (p : State) : Prop where
  stored : ∀ id w, p.shared.store.waitpoints.lookup id = some w → w.id = id ∧ (w.state = .waiting ∨ Settled codec events w)
  phases : ∀ t command phase, p.thread t = .running command phase →
    PhaseHeld codec events p.shared.store.waitpoints command phase

end

section
variable {codec : Task.Codec} {events : List Event} {m n : Waitpoints} {command : Command} {phase : Phase} {answer : Answer}

theorem PhaseHeld.change (held : PhaseHeld codec events m command phase) (more : List Event)
    (change : WaitpointChange codec (events ++ more) m n) : PhaseHeld codec (events ++ more) n command phase := by
  cases phase with
  | checkingOwner current => exact ⟨change.copied held.1, fun past => change.final (held.2.1 past) past, held.2.2⟩
  | savingWaitpoint next expected =>
    obtain ⟨current, copied, waiting, version, newer, id, settled, own⟩ := held
    exact ⟨current, change.copied copied, waiting, version, newer, id, settled.append more, own⟩
  | expiring ticked due count =>
    obtain ⟨copies, t, p, limit, took, evaluated⟩ := held
    exact ⟨fun w member => change.copied (copies w member), t, p, limit, took.append more, evaluated⟩
  | answered answer =>
    cases answer with
    | waitpoint record replayed =>
      intro id own
      obtain ⟨found, settled⟩ := held id own
      exact ⟨change.final found settled.not_waiting, settled.append more⟩
    | _ => trivial
  | _ => trivial

theorem phaseHeld_of_silent (silent : answer.record = none) : PhaseHeld codec events m command (.answered answer) := by
  cases answer with
  | waitpoint => cases silent
  | _ => trivial

theorem phaseHeld_of_quiet (quiet : command.waitpoint = none) : PhaseHeld codec events m command (.answered answer) := by
  cases answer with
  | waitpoint => exact fun id own => nomatch quiet.symm.trans own
  | _ => trivial

/-- The write of a decision made on a waiting copy: it takes effect only if the copy still stands. -/
theorem updateWaitpoint_settles {s t : TaskStore}
    (copied : waitpointFence.Copied s.waitpoints current) (waiting : current.state = .waiting)
      (version : expected = current.version)
    (newer : next.version = current.version + 1) (same : next.id = current.id) (settled : Settled codec events next)
    (written : s.updateWaitpoint next expected = (.ok saved, t)) :
    saved = next ∧ t.waitpoints.lookup next.id = some next ∧ WaitpointChange codec events s.waitpoints t.waitpoints := by
  subst version
  unfold TaskStore.updateWaitpoint at written
  split at written
  · cases written
  rename_i stored found
  split at written
  next repeats => omega
  split at written
  · cases written
  rename_i fits
  cases written
  push Not at fits
  have fenced : s.waitpoints.lookup (waitpointFence.id current) = some stored := by
    change s.waitpoints.lookup current.id = some stored
    rw [← same, found]
  obtain rfl := copied.eq_of_version fenced fits.1
  exact ⟨rfl, AList.lookup_insert _, .settled stored next found waiting newer settled⟩

end

section
variable {codec : Task.Codec} {events : List Event} {t : ℕ} {now : Time} {p : State} {command : Command} {phase : Phase}
  {after : Shared × Phase} {event : Event}

section
variable (held : WaitpointsHeld codec events p)
include held

/-- The evaluation of a command on its copy. -/
theorem phaseHeld_afterOwner
    (running : p.thread t = .running command (.checkingOwner current))
    (took : (machine codec).Took (events ++ [.advance t now]) (.advance t now) p) :
    PhaseHeld codec (events ++ [.advance t now]) p.shared.store.waitpoints command
      (afterOwner codec current now command) := by
  obtain ⟨copied, final, own⟩ := held.phases t command _ running
  cases command with
  | resolveWaitpoint input =>
    simp only [afterOwner]
    split
    · trivial
    split
    · trivial
    rename_i next resolved
    rcases resolve_eq_ok resolved with ⟨past, rfl⟩ | ⟨waiting, state, newer, resolvedAt, early⟩
    · rw [if_pos past]
      intro id mine
      have stored := final fun waiting => by simp [past] at waiting
      rcases (held.stored _ _ stored).2 with waiting | settled
      · rw [waiting] at past
        cases past
      · exact ⟨own id mine ▸ stored, settled.append _⟩
    · have ids := drafts_resolve resolved
      rw [if_neg (by simp [waiting])]
      refine ⟨current, copied, waiting, rfl, newer, ids.1, ?_, fun id mine => ids.1.trans (own id mine)⟩
      exact .resolved t now p input current took running ((own _ rfl).symm.trans ids.1.symm) state resolvedAt early
  | cancelWaitpoint id ownerID version =>
    simp only [afterOwner]
    split
    · trivial
    split
    · trivial
    rename_i next cancelled
    obtain ⟨waiting, state, newer⟩ := cancel_eq_ok cancelled
    have ids := drafts_cancel cancelled
    exact ⟨current, copied, waiting, rfl, newer, ids.1, .cancelled state, fun id mine => ids.1.trans (own id mine)⟩
  | _ => exact phaseHeld_of_quiet rfl

/-- What a step of a command does to the waitpoints, and what the command knows of them afterwards. -/
theorem waitpoints_advanced (running : p.thread t = .running command phase)
    (took : (machine codec).Took (events ++ [.advance t now]) (.advance t now) p)
    (moved : Advanced codec p.shared now command phase after) :
    WaitpointChange codec (events ++ [.advance t now]) p.shared.store.waitpoints after.1.store.waitpoints ∧
      PhaseHeld codec (events ++ [.advance t now]) after.1.store.waitpoints command after.2 := by
  have mine := held.phases t command phase running
  cases moved with
  | answered answer silent => exact ⟨.same, phaseHeld_of_silent silent⟩
  | created answer change _ silent | attached answer _ change silent =>
    exact ⟨.of_eq change.waitpoints, phaseHeld_of_silent silent⟩
  | @readWaitpoint record id found own =>
    obtain ⟨rfl, _⟩ := held.stored id record found
    refine ⟨.same, Fence.copied_of_lookup found, fun _ => found, fun id mine => ?_⟩
    exact Option.some.inj (own.symm.trans mine)
  | @readDue limit due listed own =>
    refine ⟨.same, fun w member => ?_, t, p, limit, took, own ▸ running⟩
    obtain ⟨id, found⟩ := stored_of_listDue listed member
    obtain ⟨rfl, _⟩ := held.stored id w found
    exact Fence.copied_of_lookup found
  | retried _ _ change | added _ change | replaced _ change | moved change => exact ⟨.of_eq change.waitpoints, trivial⟩
  | waiting answer change quiet state =>
    refine ⟨?_, phaseHeld_of_quiet quiet⟩
    obtain kept | ⟨absent, _, waited⟩ := change
    · exact .of_eq kept.waitpoints
    · exact waited.waitpoints.symm ▸ .created _ absent state
  | checked _ evaluates => exact ⟨.same, evaluates ▸ phaseHeld_afterOwner held running took⟩
  | settled saved _ written =>
    obtain ⟨current, copied, waiting, version, newer, same, settled, own⟩ := mine
    obtain ⟨rfl, stored, change⟩ := updateWaitpoint_settles copied waiting version newer same (settled.append _) written
    exact ⟨change, fun id mine => ⟨own id mine ▸ stored, settled.append _⟩⟩
  | skipped ticked current rest count =>
    obtain ⟨copies, t, p, limit, before, evaluated⟩ := mine
    exact ⟨.same, fun w member => copies w (.tail current member), t, p, limit, before.append _, evaluated⟩
  | @expired store next saved ticked current rest count drafts _ expiry written =>
    obtain ⟨copies, u, s, limit, before, evaluated⟩ := mine
    obtain ⟨waiting, state, newer, late⟩ := expire_eq_ok expiry
    have settled : Settled codec (events ++ [.advance t now]) next :=
      .expired u ticked s limit (before.append _) evaluated state late
    obtain ⟨_, _, change⟩ := updateWaitpoint_settles (copies current (.head rest)) waiting rfl newer drafts.1 settled written
    exact ⟨change, fun w member => change.copied (copies w (.tail current member)), u, s, limit, before.append _, evaluated⟩
  | _ => exact ⟨.same, trivial⟩

/-- A step changes the waitpoints as one command does, and the other commands keep what they know. -/
theorem WaitpointsHeld.move
    (change : WaitpointChange codec (events ++ [event]) p.shared.store.waitpoints s.store.waitpoints)
    (own : ∀ command phase, thread = .running command phase →
      PhaseHeld codec (events ++ [event]) s.store.waitpoints command phase) :
    WaitpointsHeld codec (events ++ [event]) (p.move t s thread) := by
  refine ⟨change.stored held.stored, fun u command phase running => ?_⟩
  obtain ⟨_, moved⟩ | ⟨_, before⟩ := running_of_move running
  · exact own command phase moved
  · exact (held.phases u command phase before).change [event] change

theorem WaitpointsHeld.step
    (path : (machine codec).Path anyStep (machine codec).start events p) (moved : (machine codec).step p event = some q) :
    WaitpointsHeld codec (events ++ [event]) q ∧
      WaitpointChange codec (events ++ [event]) p.shared.store.waitpoints q.shared.store.waitpoints := by
  cases step_cases moved with
  | quiet _ fresh =>
    refine ⟨held.move .same fun _ _ own => ?_, .same⟩
    rw [fresh _ _ own]
    trivial
  | advanced running advanced =>
    obtain ⟨change, known⟩ := waitpoints_advanced held running ⟨events, [], rfl, path⟩ advanced
    refine ⟨held.move change ?_, change⟩
    rintro _ _ ⟨⟩
    exact known

end

theorem held_of_path (path : (machine codec).Path anyStep (machine codec).start events p) : WaitpointsHeld codec events p :=
  path.record (WaitpointsHeld codec) ⟨fun _ _ found => (by cases found), fun _ _ _ running => (by cases running)⟩
    fun _ _ _ _ before _ moved held => (held.step before moved).1

/-- In every run: a waitpoint that is no longer waiting keeps its record for good; a resolve or a cancel that answered
a record answered the stored one, which is settled; and what is settled was resolved before its deadline, expired after
it, or cancelled. -/
theorem waitpoint_settles_once (path : (machine codec).Path anyStep (machine codec).start events p) :
    (∀ later q, (machine codec).Path anyStep p later q → ∀ id w, p.shared.store.waitpoints.lookup id = some w →
      w.state ≠ .waiting → q.shared.store.waitpoints.lookup id = some w) ∧
    (∀ t command record replayed id, p.thread t = .running command (.answered (.waitpoint record replayed)) →
      command.waitpoint = some id → p.shared.store.waitpoints.lookup id = some record ∧ record.state ≠ .waiting) ∧
    ∀ id w, p.shared.store.waitpoints.lookup id = some w → w.state ≠ .waiting → Settled codec events w := by
  have held := held_of_path path
  refine ⟨fun later q rest id w found past => ?_, fun t command record replayed id answered own =>
    ?_, fun id w found past => ?_⟩
  · refine (rest.invariant (fun q => (∃ es, (machine codec).Path anyStep (machine codec).start es q) ∧
      q.shared.store.waitpoints.lookup id = some w) ?_ ⟨⟨events, path⟩, found⟩).2
    rintro p event q _ moved ⟨⟨es, before⟩, found⟩
    obtain ⟨_, change⟩ := (held_of_path before).step before moved
    exact ⟨⟨_, before.append (.cons trivial moved (.nil q))⟩, change.final found past⟩
  · obtain ⟨found, settled⟩ := held.phases t command _ answered id own
    exact ⟨found, settled.not_waiting⟩
  · exact (held.stored id w found).2.resolve_left past

end

/-- A codec whose digest is not blank. -/
def stampCodec : Task.Codec := { digest := fun _ => "h", jsonValid := fun _ => true }

/-- An owner waits for an approval until the clock shows 10, and gets it at 3. -/
def approvedInTime : List Event :=
  [.start 0 (.create "a" "report" "o" 1), .advance 0 1,
   .start 1 (.createWaitpoint
    { id := "w", taskID := "a", key := "review", kind := .approval, schemaVersion := 1, deadline := 10, now := 0 }),
   .advance 1 2, .advance 1 2,
   .start 2 (.resolveWaitpoint
    { id := "w", ownerID := "o", resolutionID := "r", actor := "m", expectedVersion := 1, resolution := [49] }),
   .advance 2 3, .advance 2 3, .advance 2 3]

theorem approval_settles_once : ∃ p w, (machine stampCodec).run (machine stampCodec).start approvedInTime = some p ∧
    p.shared.store.waitpoints.lookup "w" = some w ∧ w.state = .resolved ∧ Settled stampCodec approvedInTime w := by
  obtain ⟨p, run, w, found, resolved⟩ : ∃ p, (machine stampCodec).run (machine stampCodec).start approvedInTime = some p ∧
      ∃ w, p.shared.store.waitpoints.lookup "w" = some w ∧ w.state = .resolved := by
    decide
  have past : w.state ≠ .waiting := by
    rw [resolved]
    nofun
  exact ⟨p, w, run, found, resolved, (waitpoint_settles_once (path_of_run run)).2.2 "w" w found past⟩

end RhinoQ.Model
