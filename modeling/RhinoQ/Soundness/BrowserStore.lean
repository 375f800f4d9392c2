import RhinoQ.Model.BrowserStore

/-! # When a task store stops

A loop that was stopped finds its generation passed after each `await`, those of its fallback apart; it does not ask
again after a call of the listeners, which may have stopped it. A loop ends by itself on the snapshot that it has
received, which need not be the one that the store holds.
-/

namespace RhinoQ.Model.BrowserStore

open RhinoQ.Pool RhinoQ.Model.BrowserStore.TaskStore RhinoQ.Machine

variable {options : TaskStoreOptions} {s t : TaskStore} {p q : Pool TaskStore Phase} {g : ℕ} {phase next : Phase}
  {snapshot : Summary} {completion : Completion} {e : Event}

theorem accept_frame (s : TaskStore) (snapshot : Summary) :
    (s.accept snapshot).generation = s.generation ∧ (s.accept snapshot).quiet = s.quiet ∧ (s.accept snapshot).turn = s.turn ∧
      (s.accept snapshot).state.snapshot =
        if s.state.snapshot.all (snapshot.entityVersion > ·.entityVersion) then some snapshot else s.state.snapshot := by
  unfold accept
  grind [setState]

/-! ## Quiet stores -/

/-- The loop awaits its fallback. -/
def Phase.fallsBack : Phase → Bool
  | .refreshing | .refreshed _ => true
  | _ => false

/-- `stop` is not called while a loop awaits its fallback, nor by a listener that a loop has called. -/
def Undisturbed (p : Pool TaskStore Phase) (e : Event) : Prop :=
  e = .stop → p.shared.turn = none ∧ ∀ g, (p.thread g).fallsBack = false

/-- A loop that has begun; in a quiet store, one that will find its generation passed. -/
def Begun (g : ℕ) (s : TaskStore) (phase : Phase) : Prop :=
  phase = .returned ∨ g ≤ s.generation ∧ (s.quiet = true → g < s.generation ∧ phase.fallsBack = false)

/-- What a loop leaves as it was, and all of it when it finds its generation passed. -/
structure Framed (g : ℕ) (s : TaskStore) (phase : Phase) (t : TaskStore) (next : Phase) : Prop where
  running : phase ≠ .returned
  generation : t.generation = s.generation
  quiet : t.quiet = s.quiet
  passed : g < s.generation → phase.fallsBack = false → t = s ∧ next.fallsBack = false

theorem tell_frame (s : TaskStore) (transport : Transport) : (s.tell transport).generation = s.generation ∧
    (s.tell transport).quiet = s.quiet ∧ (s.tell transport).state.snapshot = s.state.snapshot := by
  cases transport <;> exact ⟨rfl, rfl, rfl⟩

theorem complete_framed (completed : s.complete options g phase completion = some (t, next)) : Framed g s phase t next := by
  unfold complete goOn at completed
  constructor <;> grind [accept_frame, tell_frame, setState, stale, head, Phase.fallsBack]

/-- Every loop has begun, and a quiet store is not in the turn of one. -/
structure Settled (p : Pool TaskStore Phase) : Prop where
  begun : ∀ g, Begun g p.shared (p.thread g)
  still : p.shared.quiet = true → p.shared.turn = none

/-- A quiet store is as it was after a turn of a loop. -/
theorem Settled.complete (settled : Settled p) (quiet : p.shared.quiet = true)
    (completed : p.shared.complete options g (p.thread g) completion = some (t, next)) : t = p.shared := by
  have framed := complete_framed completed
  obtain ⟨before, awaits⟩ := ((settled.begun g).resolve_left framed.running).2 quiet
  exact (framed.passed before awaits).1

theorem act_frame (s : TaskStore) (next : Act) : (s.act next).generation = s.generation ∧
    (s.act next).quiet = s.quiet ∧ (s.act next).state.snapshot = s.state.snapshot := by
  cases next with
  | tell transport => exact tell_frame s transport
  | close transport => exact ⟨rfl, rfl, rfl⟩

theorem proceed_frame (proceeded : s.proceed = some t) :
    t.generation = s.generation ∧ t.quiet = s.quiet ∧ t.state.snapshot = s.state.snapshot ∧ s.turn ≠ none := by
  unfold proceed at proceeded
  grind [act_frame]

theorem Settled.step (settled : Settled p) (calm : Undisturbed p e) (stepped : step options p e = some q) : Settled q := by
  obtain ⟨begun, still⟩ := settled
  cases e with
  | start =>
    rw [BrowserStore.step] at stepped
    split at stepped
    · cases stepped
      exact ⟨begun, still⟩
    · cases stepped
      refine ⟨forall_move_index Begun begun (.inr ⟨Nat.le_refl _, fun quiet => by cases quiet⟩) fun j _ before => ?_,
        fun quiet => by cases quiet⟩
      exact before.imp_right fun both => ⟨Nat.le_succ_of_le both.1, fun quiet => by cases quiet⟩
  | stop =>
    cases stepped
    obtain ⟨idle, awaits⟩ := calm rfl
    refine ⟨fun g => (begun g).imp_right fun both => ?_, fun _ => idle⟩
    exact ⟨Nat.le_succ_of_le both.1, fun _ => ⟨Nat.lt_succ_of_le both.1, awaits g⟩⟩
  | respond snapshot =>
    rw [BrowserStore.step] at stepped
    split at stepped
    · cases stepped
    next idle =>
      cases stepped
      obtain ⟨generation, quiet, turn, _⟩ := accept_frame p.shared snapshot
      refine ⟨fun g => ?_, fun _ => turn.trans (Option.not_isSome_iff_eq_none.mp idle)⟩
      have before := begun g
      rwa [Begun, ← generation, ← quiet] at before
  | complete j completion =>
    rw [BrowserStore.step] at stepped
    split at stepped
    · cases stepped
    obtain ⟨⟨t, next⟩, completed, rfl⟩ := Option.map_eq_some_iff.mp stepped
    obtain ⟨running, generation, quiet, passed⟩ := complete_framed completed
    refine ⟨forall_move_index Begun begun ?_ fun j _ before => ?_, fun silent => ?_⟩
    · have before := begun j
      grind [Begun]
    · rwa [Begun, generation, quiet]
    · have before : p.shared.quiet = true := quiet.symm.trans silent
      have same : t = p.shared := Settled.complete ⟨begun, still⟩ before completed
      exact same ▸ still before
  | proceed =>
    obtain ⟨t, proceeded, rfl⟩ := Option.map_eq_some_iff.mp stepped
    obtain ⟨generation, quiet, _, active⟩ := proceed_frame proceeded
    refine ⟨fun g => ?_, fun silent => absurd (still (quiet.symm.trans silent)) active⟩
    have before := begun g
    rwa [Begun, ← generation, ← quiet] at before

/-- Between `stop` and the next `start`, nothing that a loop does changes the state or calls a listener. -/
def StaysQuiet (options : TaskStoreOptions) (p : Pool TaskStore Phase) : Prop :=
  p.shared.quiet = true → ∀ e q, e = .proceed ∨ (∃ g completion, e = .complete g completion) → step options p e = some q →
    q.shared.state = p.shared.state ∧ q.shared.notices = p.shared.notices

theorem stopped_store_quiet (options : TaskStoreOptions) (reached : (machine options).Reaches Undisturbed p) :
    StaysQuiet options p := by
  have settled : Settled p := reached.invariant Settled ⟨fun _ => .inl rfl, fun _ => rfl⟩
    fun _ _ _ calm stepped settled => settled.step calm stepped
  rintro quiet e q (rfl | ⟨g, completion, rfl⟩) stepped
  · obtain ⟨t, proceeded, _⟩ := Option.map_eq_some_iff.mp stepped
    exact absurd (settled.still quiet) (proceed_frame proceeded).2.2.2
  · rw [BrowserStore.step, settled.still quiet] at stepped
    obtain ⟨⟨t, next⟩, completed, rfl⟩ := Option.map_eq_some_iff.mp stepped
    have same : t = p.shared := settled.complete quiet completed
    exact same ▸ ⟨rfl, rfl⟩

/-- The stream brings a snapshot, and the listeners return before the store is stopped; the loop awaits the next event. -/
theorem stopped_stream_quiet : ∃ p, (machine {}).Reaches Undisturbed p ∧
    (p.shared.quiet = true ∧ p.thread 1 = .streaming ∧ p.shared.notices = 4) ∧ StaysQuiet {} p := by
  obtain ⟨p, reached, held⟩ : ∃ p, (machine {}).Reaches Undisturbed p ∧
      p.shared.quiet = true ∧ p.thread 1 = .streaming ∧ p.shared.notices = 4 := by
    refine ⟨_, ⟨[.start, .complete 1 (.event (some ⟨1, .running⟩)), .proceed, .proceed, .stop],
      .cons nofun rfl (.cons nofun rfl (.cons nofun rfl (.cons nofun
        rfl (.cons (fun _ => ⟨rfl, fun g => ?_⟩) rfl (.nil _)))))⟩,
      rfl, rfl, rfl⟩
    change (Function.update (Function.update (fun _ : ℕ => Phase.returned) 1 .streaming) 1 .streaming g).fallsBack = false
    grind [Function.update_apply, Phase.fallsBack]
  exact ⟨p, reached, held, stopped_store_quiet {} reached⟩

/-- `stop` is called during a fallback read, whose answer then changes the state. -/
theorem fallback_read_changes_stopped : ∃ p, (machine {}).Reaches anyStep p ∧ ¬StaysQuiet {} p := by
  obtain ⟨p, reached, quiet, q, stepped, told⟩ := exists_reached (m := machine {}) (P := fun p => p.shared.quiet = true ∧
    ∃ q, step {} p (.complete 1 (.read (.ok ⟨1, .running⟩))) = some q ∧ q.shared.notices ≠ p.shared.notices)
    [.start, .complete 1 (.streamError "fetch failed"), .proceed, .stop] (by decide)
  exact ⟨p, reached, fun stays => told (stays quiet _ q (.inr ⟨1, _, rfl⟩) stepped).2⟩

/-! ## Loops that end -/

def Completion.received : Completion → Option Summary
  | .read (.ok snapshot) => some snapshot
  | .event snapshot => snapshot
  | _ => none

/-- When a loop receives the end of the task, what the store holds is older or tells of an end as well; when it goes on
from its fallback with one, the store holds one. -/
def InOrder (p : Pool TaskStore Phase) : Event → Prop
  | .complete _ (.resolved received) => isTerminal received.state = true →
      ∃ held, p.shared.state.snapshot = some held ∧ isTerminal held.state = true
  | .complete _ completion => ∀ received held, completion.received = some received → isTerminal received.state = true →
      p.shared.state.snapshot = some held → held.entityVersion < received.entityVersion ∨ isTerminal held.state = true
  | _ => True

/-- A loop ends by itself only when the held snapshot is terminal, and what the store holds gets no older. -/
structure StopsOnHeld (p q : Pool TaskStore Phase) : Prop where
  ends : ∀ g, p.thread g ≠ .ended → q.thread g = .ended → ∃ held, q.shared.state.snapshot = some held ∧
    isTerminal held.state = true
  later : ∀ held, p.shared.state.snapshot = some held →
    ∃ later, q.shared.state.snapshot = some later ∧ held.entityVersion ≤ later.entityVersion

theorem accept_later {held : Summary} (before : s.state.snapshot = some held) :
    ∃ later, (s.accept snapshot).state.snapshot = some later ∧ held.entityVersion ≤ later.entityVersion := by
  rw [(accept_frame s snapshot).2.2.2]
  grind

/-- A loop leaves the snapshot or accepts the one that it has received, on which alone it ends. -/
theorem complete_snapshot (completed : s.complete options g phase completion = some (t, next)) :
    t.state.snapshot = s.state.snapshot ∧
        (next = .ended → ∃ received, completion = .resolved received ∧ isTerminal received.state = true) ∨
      ∃ received, completion.received = some received ∧
        t.state.snapshot = (s.accept received).state.snapshot ∧ (next = .ended → isTerminal received.state = true) := by
  unfold complete goOn at completed
  grind [setState, head, tell_frame, Completion.received]

/-- The move of one loop. -/
theorem stopsOnHeld_move (ends : next = .ended → ∃ held, t.state.snapshot = some held ∧ isTerminal held.state = true)
    (later : ∀ held, p.shared.state.snapshot = some held →
      ∃ later, t.state.snapshot = some later ∧ held.entityVersion ≤ later.entityVersion) :
    StopsOnHeld p (p.move g t next) where
  ends j running ended := by
    by_cases own : j = g
    · subst own
      exact ends ((move_thread_self ..).symm.trans ended)
    · rw [move_thread_of_ne own] at ended
      exact absurd ended running
  later := later

theorem step_stops_on_held (inOrder : InOrder p e) (stepped : step options p e = some q) : StopsOnHeld p q := by
  cases e with
  | start =>
    rw [step] at stepped
    split at stepped
    · cases stepped
      exact ⟨fun g running ended => absurd ended running, fun held before => ⟨held, before, Int.le_refl _⟩⟩
    · cases stepped
      refine stopsOnHeld_move (fun ended => ?_) fun held before => ⟨held, before, Int.le_refl _⟩
      grind [head]
  | stop =>
    cases stepped
    exact ⟨fun g running ended => absurd ended running, fun held before => ⟨held, before, Int.le_refl _⟩⟩
  | respond snapshot =>
    rw [step] at stepped
    split at stepped
    · cases stepped
    · cases stepped
      exact ⟨fun g running ended => absurd ended running, fun held before => accept_later before⟩
  | proceed =>
    obtain ⟨t, proceeded, rfl⟩ := Option.map_eq_some_iff.mp stepped
    refine ⟨fun g running ended => absurd ended running, fun held before => ⟨held, ?_, Int.le_refl _⟩⟩
    exact (proceed_frame proceeded).2.2.1.trans before
  | complete g completion =>
    rw [step] at stepped
    split at stepped
    · cases stepped
    obtain ⟨⟨t, next⟩, completed, rfl⟩ := Option.map_eq_some_iff.mp stepped
    obtain ⟨same, fallback⟩ | ⟨received, seen, taken, terminal⟩ := complete_snapshot completed
    · refine stopsOnHeld_move (fun ended => ?_) fun held before => ⟨held, same.trans before, Int.le_refl _⟩
      obtain ⟨received, rfl, terminal⟩ := fallback ended
      exact same ▸ inOrder terminal
    · refine stopsOnHeld_move (fun ended => ?_) fun held before => taken ▸ accept_later before
      rw [taken, (accept_frame ..).2.2.2]
      cases before : p.shared.state.snapshot with
      | none => exact ⟨received, rfl, terminal ended⟩
      | some held => cases completion <;> grind [InOrder, Completion.received]

/-- Along every run in order the held snapshot gets no older, and in each next step in order a loop ends by itself only
when the held snapshot is terminal. The run may begin in any state. -/
theorem loop_stops_on_held (options : TaskStoreOptions) (path : (machine options).Path InOrder p es q) :
    (∀ held, p.shared.state.snapshot = some held →
      ∃ later, q.shared.state.snapshot = some later ∧ held.entityVersion ≤ later.entityVersion) ∧
    ∀ e r, InOrder q e → step options q e = some r → StopsOnHeld q r := by
  refine ⟨fun held before => ?_, fun e r inOrder stepped => step_stops_on_held inOrder stepped⟩
  refine path.invariant (fun q => ∃ later, q.shared.state.snapshot = some later ∧ held.entityVersion ≤ later.entityVersion)
    (fun _ _ _ inOrder stepped ⟨middle, shown, newer⟩ => ?_) ⟨held, before, Int.le_refl _⟩
  obtain ⟨later, after, grown⟩ := (step_stops_on_held inOrder stepped).later middle shown
  exact ⟨later, after, Int.le_trans newer grown⟩

/-- The event brings no end of the task. -/
def bringsNoEnd (_ : Pool TaskStore Phase) : Event → Bool
  | .complete _ (.event snapshot) => snapshot.all fun received => !isTerminal received.state
  | .complete _ _ => false
  | _ => true

/-- The stream brings a snapshot and then the end of the task. -/
theorem stream_ends_on_held : ∃ p q, (machine {}).Reaches InOrder p ∧
    (step {} p (.complete 1 (.event (some ⟨2, .succeeded⟩))) = some q ∧ q.thread 1 = .ended) ∧ StopsOnHeld p q := by
  obtain ⟨p, ran, shown, q, held⟩ : ∃ p, (machine {}).runChecked bringsNoEnd
      (machine {}).start [.start, .complete 1 (.event (some ⟨1, .running⟩)), .proceed, .proceed] = some p ∧
      p.shared.state.snapshot = some ⟨1, .running⟩ ∧
      ∃ q, step {} p (.complete 1 (.event (some ⟨2, .succeeded⟩))) = some q ∧ q.thread 1 = .ended := by decide
  have path : (machine {}).Path InOrder (machine {}).start _ p := path_of_runChecked (fun p e running => ?_) ran
  · refine ⟨p, q, ⟨_, path⟩, held, (loop_stops_on_held {} path).2 _ q ?_ held.1⟩
    intro received other seen _ present
    cases seen
    cases shown.symm.trans present
    exact .inl (by decide)
  · cases e with
    | complete g completion =>
      cases completion with
      | event snapshot =>
        rintro received other rfl terminal
        rw [bringsNoEnd, Option.all_some, terminal] at running
        cases running
      | _ => cases running
    | _ => trivial

/-- A retry is answered before the stream brings the failure that came before it. The loop ends, and the held task runs. -/
theorem retried_task_stops : ∃ p q, (machine {}).Reaches anyStep p ∧
    step {} p (.complete 1 (.event (some ⟨1, .failed⟩))) = some q ∧ ¬StopsOnHeld p q := by
  obtain ⟨p, reached, running, q, stepped, ended, held⟩ :=
    exists_reached (m := machine {}) (P := fun p => p.thread 1 ≠ .ended ∧
    ∃ q, step {} p (.complete 1 (.event (some ⟨1, .failed⟩))) = some q ∧ q.thread 1 = .ended ∧
      q.shared.state.snapshot = some ⟨2, .running⟩) [.start, .respond ⟨2, .running⟩] (by decide)
  refine ⟨p, q, reached, stepped, fun stops => ?_⟩
  obtain ⟨later, shown, terminal⟩ := stops.ends 1 running ended
  cases shown.symm.trans held
  cases terminal

end RhinoQ.Model.BrowserStore
