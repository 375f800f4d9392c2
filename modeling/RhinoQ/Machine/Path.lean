import Mathlib.Data.Option.Basic
import Mathlib.Tactic.Basic

/-! # Machines and guarded paths

A machine takes labelled steps; every choice of the environment is part of the label. A guarded path is a run
whose steps all meet a condition on their label and the state they start from.
-/

namespace RhinoQ

variable {σ ε : Type*}

/-- What is told of the value of a computation that may fail is decided by running it. -/
instance decidableExistsSome {α : Type*} {found : Option α} {P : α → Prop} [DecidablePred P] :
    Decidable (∃ value, found = some value ∧ P value) :=
  match found with
  | none => .isFalse fun ⟨_, missing, _⟩ => nomatch missing
  | some value => decidable_of_iff (P value) ⟨fun held => ⟨value, rfl, held⟩, fun ⟨_, same, held⟩ =>
    Option.some.inj same ▸ held⟩

theorem exists_some_and {P Q : α → Prop} (evaluated : ∃ value, found = some value ∧ P value)
    (follows : ∀ value, found = some value → P value → Q value) : ∃ value, found = some value ∧ P value ∧ Q value := by
  obtain ⟨value, same, held⟩ := evaluated
  exact ⟨value, same, held, follows value same held⟩

/-- A start state and a partial step for each event. -/
structure Machine (σ ε : Type*) where
  start : σ
  step : σ → ε → Option σ

namespace Machine

variable {s : σ} {check : σ → ε → Bool}

variable (m : Machine σ ε)

/-- Replay a list of events, stopping at the first one that is not enabled. -/
def run : σ → List ε → Option σ
  | s, [] => some s
  | s, e :: rest => (m.step s e).bind fun t => run t rest

/-- A run whose steps all meet `ok`. -/
inductive Path (ok : σ → ε → Prop) : σ → List ε → σ → Prop
  | nil (s : σ) : Path ok s [] s
  | cons {s t u : σ} {e : ε} {rest : List ε} :
      ok s e → m.step s e = some t → Path ok t rest u → Path ok s (e :: rest) u

/-- No condition on the steps. -/
def anyStep (_ : σ) (_ : ε) : Prop := True

/-- `s` ends some path from the start whose steps all meet `ok`. -/
def Reaches (ok : σ → ε → Prop) (s : σ) : Prop := ∃ es, m.Path ok m.start es s

variable {m} {ok : σ → ε → Prop} {es : List ε} {target source : σ}

namespace Path

theorem append
    (left : m.Path ok source first middle) (right : m.Path ok middle second target) :
    m.Path ok source (first ++ second) target := by
  induction left with
  | nil => exact right
  | cons guard step _ ih => exact .cons guard step (ih right)

/-- A property kept by every guarded step holds at the end of a path when it holds at its start. -/
theorem invariant (inv : σ → Prop) (kept : ∀ s e t, ok s e → m.step s e = some t → inv s → inv t)
    (path : m.Path ok source es target) (initial : inv source) : inv target := by
  induction path with
  | nil => exact initial
  | cons guard step _ ih => exact ih (kept _ _ _ guard step initial)

end Path

theorem Reaches.start : m.Reaches ok m.start := ⟨[], .nil _⟩

theorem Reaches.snoc (reached : m.Reaches ok s) (guard : ok s e)
    (step : m.step s e = some t) : m.Reaches ok t := by
  obtain ⟨es, path⟩ := reached
  exact ⟨es ++ [e], path.append (.cons guard step (.nil t))⟩

/-- An invariant of the start state that every guarded step keeps holds in every reached state. -/
theorem Reaches.invariant (inv : σ → Prop) (initial : inv m.start)
    (kept : ∀ s e t, ok s e → m.step s e = some t → inv s → inv t)
    (reached : m.Reaches ok s) : inv s := by
  obtain ⟨_, path⟩ := reached
  exact path.invariant inv kept initial

/-- The same where a step may also use that its source is reached. -/
theorem Reaches.invariant_reached (inv : σ → Prop) (initial : inv m.start)
    (kept : ∀ s e t, m.Reaches ok s → ok s e → m.step s e = some t → inv s → inv t) (reached : m.Reaches ok s) : inv s := by
  refine (reached.invariant (fun s => m.Reaches ok s ∧ inv s) ⟨.start, initial⟩ ?_).2
  rintro s e t guard step ⟨before, held⟩
  exact ⟨before.snoc guard step, kept s e t before guard step held⟩

/-- In the run of these events, `event` was taken in the state `s`. -/
def Took (m : Machine σ ε) (es : List ε) (event : ε) (s : σ) : Prop :=
  ∃ before after, es = before ++ event :: after ∧ m.Path anyStep m.start before s

theorem Took.append (took : m.Took es event s) (more : List ε) : m.Took (es ++ more) event s := by
  obtain ⟨before, after, rfl, path⟩ := took
  exact ⟨before, after ++ more, by rw [List.append_assoc, List.cons_append], path⟩

/-- An invariant of a state and the events that led to it. -/
theorem Path.record (inv : List ε → σ → Prop) (initial : inv [] m.start)
    (kept : ∀ es s e t, m.Path ok m.start es s → ok s e → m.step s e = some t → inv es s → inv (es ++ [e]) t)
    (path : m.Path ok m.start es s) : inv es s := by
  have extend {source target : σ} {more : List ε} (rest : m.Path ok source more target) :
      ∀ es, m.Path ok m.start es source → inv es source → inv (es ++ more) target := by
    induction rest with
    | nil =>
      intro es _ held
      rwa [List.append_nil]
    | @cons s t u e rest guard step _ ih =>
      intro es before held
      have next := ih (es ++ [e]) (before.append (.cons guard step (.nil t))) (kept es s e t before guard step held)
      rwa [List.append_assoc, List.singleton_append] at next
  exact extend path [] (.nil _) initial

/-- Replaying events and checking a decidable guard at each of them. -/
def runChecked (m : Machine σ ε) (check : σ → ε → Bool) : σ → List ε → Option σ
  | s, [] => some s
  | s, e :: rest => if check s e then (m.step s e).bind fun t => runChecked m check t rest else none

theorem path_of_runChecked (sound : ∀ s e, check s e = true → ok s e)
    (success : m.runChecked check source es = some target) :
    m.Path ok source es target := by
  induction es generalizing source with
  | nil =>
    simp only [runChecked, Option.some.injEq] at success
    exact success ▸ .nil source
  | cons e rest ih =>
    simp only [runChecked] at success
    split at success
    next passed =>
      obtain ⟨middle, step, tail⟩ := Option.bind_eq_some_iff.mp success
      exact .cons (sound _ _ passed) step (ih tail)
    next => cases success

theorem path_of_run (success : m.run source es = some target) : m.Path anyStep source es target := by
  induction es generalizing source with
  | nil =>
    simp only [run, Option.some.injEq] at success
    exact success ▸ .nil source
  | cons e rest ih =>
    obtain ⟨middle, step, tail⟩ := Option.bind_eq_some_iff.mp success
    exact .cons trivial step (ih tail)

section
variable {P Q : σ → Prop} {es : List ε}

/-- A state that is reached by running these events. -/
theorem exists_reached (es : List ε) (evaluated : ∃ s, m.run m.start es = some s ∧ P s) :
    ∃ s, m.Reaches anyStep s ∧ P s := by
  obtain ⟨s, ran, held⟩ := evaluated
  exact ⟨s, ⟨es, path_of_run ran⟩, held⟩

/-- The same, with what follows for a state that is reached. -/
theorem exists_reached_and (es : List ε) (evaluated : ∃ s, m.run m.start es = some s ∧ P s)
    (follows : ∀ s, m.Reaches anyStep s → P s → Q s) :
    ∃ s, m.Reaches anyStep s ∧ P s ∧ Q s := by
  obtain ⟨s, reached, held⟩ := exists_reached es evaluated
  exact ⟨s, reached, held, follows s reached held⟩

theorem exists_checked_and (sound : ∀ s e, check s e = true → ok s e) (es : List ε)
    (evaluated : ∃ s, m.runChecked check m.start es = some s ∧ P s) (follows : ∀ s, m.Reaches ok s → P s → Q s) :
    ∃ s, m.Reaches ok s ∧ P s ∧ Q s := by
  obtain ⟨s, ran, held⟩ := evaluated
  have reached : m.Reaches ok s := ⟨es, path_of_runChecked sound ran⟩
  exact ⟨s, reached, held, follows s reached held⟩

end

end Machine
end RhinoQ
