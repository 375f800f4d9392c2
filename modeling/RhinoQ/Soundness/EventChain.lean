import RhinoQ.Machine.Path
import Mathlib.Data.List.Range

/-! # The events of one runtime reference

`project` chains the projection of an event to the promise of the event before, which a map holds until
it has settled. A promise that is chained to one that rejects rejects with it, and the projection of
its event is never attempted. The bridge has the same chain and catches the errors of each link.
-/

namespace RhinoQ.Model.RuntimeTaskProjector

/-- The promise that `project` returned for an event. -/
inductive Link
  | waiting | running | fulfilled | failed
  /-- The promise before was rejected, and the event was not looked at. -/
  | skipped
  deriving DecidableEq

def Link.settled : Link → Bool
  | .waiting | .running => false
  | _ => true

/-- Where a link may stand when `k` events were attempted. -/
def Link.InPlace (k i : ℕ) : Link → Prop
  | .waiting => k ≤ i
  | .running => i + 1 = k
  | .fulfilled | .failed => i < k
  | .skipped => False

/-- The events of one reference, numbered as they arrive. The map holds the promise of the last one, or none. -/
structure Chain where
  arrived : ℕ := 0
  chained : ℕ → Bool := fun _ => false
  link : ℕ → Link := fun _ => .waiting
  held : Bool := false
  attempts : List ℕ := []

inductive Chain.Event
  | project
  | projectOne (i : ℕ)
  | reject (i : ℕ)
  | settle (i : ℕ) (ok : Bool)
  | forget (i : ℕ)

namespace Chain

variable {s t : Chain} {e : Event} {i : ℕ}

def step (s : Chain) : Event → Option Chain
  | .project => some { s with arrived := s.arrived + 1, chained := Function.update s.chained s.arrived s.held, held := true }
  | .projectOne i =>
    if i < s.arrived ∧ s.link i = .waiting ∧ (s.chained i = true → s.link (i - 1) = .fulfilled) then
      some { s with link := Function.update s.link i .running, attempts := s.attempts ++ [i] }
    else none
  | .reject i =>
    if i < s.arrived ∧ s.link i = .waiting ∧ s.chained i = true ∧ (s.link (i - 1) = .failed ∨ s.link (i - 1) = .skipped) then
      some { s with link := Function.update s.link i .skipped }
    else none
  | .settle i ok =>
    if s.link i = .running then some { s with link := Function.update s.link i (if ok then .fulfilled else .failed) }
    else none
  | .forget i => if (s.link i).settled then some { s with held := s.held && i + 1 != s.arrived } else none

def machine : Machine Chain Event := { start := {}, step }

/-- A projection fails while a later event waits for it, or its promise is still held when one arrives. -/
def Swallows (s : Chain) : Event → Prop
  | .settle i false => i + 1 < s.arrived
  | .project => s.held = true ∧ ∃ i, i + 1 = s.arrived ∧ s.link i = .failed
  | _ => False

/-- The events were attempted in turn, and none is chained to a failure. -/
structure InTurn (s : Chain) : Prop where
  attempts : s.attempts = List.range s.attempts.length
  bound : s.attempts.length ≤ s.arrived
  place : ∀ i, (s.link i).InPlace s.attempts.length i
  clean : ∀ i, s.link i = .failed → i + 1 < s.arrived → s.chained (i + 1) = false
  free : ∀ i, i + 1 < s.arrived → s.chained (i + 1) = false → (s.link i).settled = true
  loose : s.held = false → ∀ i, i + 1 = s.arrived → (s.link i).settled = true
  first : s.chained 0 = false ∧ (s.arrived = 0 → s.held = false)

theorem InTurn.settled (ok : InTurn s) (earlier : i + 1 < s.attempts.length) : (s.link i).settled = true := by
  have place := ok.place i
  cases link : s.link i <;> grind [Link.InPlace, Link.settled]

/-- An event that may start finds the one before settled, and so it is the next in turn. -/
theorem InTurn.next (ok : InTurn s) (inside : i < s.arrived) (waiting : s.link i = .waiting)
    (fulfilled : s.chained i = true → s.link (i - 1) = .fulfilled) :
    i = s.attempts.length ∧ ∀ j, j + 1 = i → (s.link j).settled = true := by
  have before (j : ℕ) (last : j + 1 = i) : (s.link j).settled = true := by
    subst last
    cases chained : s.chained (j + 1) with
    | true => exact fulfilled chained ▸ rfl
    | false => exact ok.free j inside chained
  have beyond : s.attempts.length ≤ i := by simpa [waiting, Link.InPlace] using ok.place i
  refine ⟨?_, before⟩
  by_contra later
  have place := ok.place (i - 1)
  have settled := before (i - 1) (by omega)
  cases link : s.link (i - 1) <;> grind [Link.InPlace, Link.settled]

theorem InTurn.step (ok : InTurn s) (careful : ¬ Swallows s e) (step : s.step e = some t) : InTurn t := by
  obtain ⟨attempts, bound, place, clean, free, loose, first⟩ := id ok
  cases e with
  | project =>
    cases step
    refine ⟨attempts, bound.trans (Nat.le_succ _), place, fun i failed earlier => ?_, fun i earlier => ?_, nofun, ?_, nofun⟩
    · simp only [Function.update_apply]
      split_ifs with last
      · exact eq_false_of_ne_true fun held => careful ⟨held, i, last, failed⟩
      · exact clean i failed (by grind)
    · simp only [Function.update_apply]
      split_ifs with last
      · exact fun held => loose held i last
      · exact free i (by grind)
    · simp only [Function.update_apply]
      split_ifs with last
      · exact first.2 last.symm
      · exact first.1
  | projectOne i =>
    simp only [Chain.step, Option.ite_none_right_eq_some, Option.some.injEq] at step
    obtain ⟨⟨inside, waiting, fulfilled⟩, rfl⟩ := step
    obtain ⟨rfl, before⟩ := ok.next inside waiting fulfilled
    have length : (s.attempts ++ [s.attempts.length]).length = s.attempts.length + 1 := by
      rw [List.length_append, List.length_singleton]
    refine ⟨?_, length ▸ inside, fun j => ?_, fun j => ?_, fun j earlier loose => ?_, fun loose j last => ?_, first⟩
    · rw [length, List.range_succ, ← attempts]
    all_goals
      by_cases own : j = s.attempts.length
      · subst own
        grind [Link.InPlace, Link.settled]
      · have place := place j
        cases link : s.link j <;> grind [Link.InPlace, Link.settled]
  | reject i =>
    simp only [Chain.step, Option.ite_none_right_eq_some] at step
    obtain ⟨⟨inside, waiting, chained, failed | skipped⟩, _⟩ := step
    · cases i with
      | zero => cases waiting.symm.trans failed
      | succ j => cases chained.symm.trans (ok.clean j failed inside)
    · have impossible := place (i - 1)
      rw [skipped] at impossible
      exact impossible.elim
  | settle i success =>
    simp only [Chain.step, Option.ite_none_right_eq_some, Option.some.injEq] at step
    obtain ⟨running, rfl⟩ := step
    have last := place i
    rw [running] at last
    have later : success = false → ¬ i + 1 < s.arrived := by
      rintro rfl
      exact careful
    refine ⟨attempts, bound, fun j => ?_, fun j => ?_, fun j earlier loose => ?_, fun loose j last => ?_, first⟩
    all_goals
      by_cases own : j = i
      · subst own
        cases success <;> grind [Link.InPlace, Link.settled]
      · grind
  | forget i =>
    simp only [Chain.step, Option.ite_none_right_eq_some, Option.some.injEq] at step
    obtain ⟨settled, rfl⟩ := step
    refine ⟨attempts, bound, place, clean, free, fun loose' j last =>
      ?_, first.1, fun none => by rw [first.2 none, Bool.false_and]⟩
    cases held : s.held with
    | false => exact loose held j last
    | true =>
      have own : i + 1 = s.arrived := by simpa [held] using loose'
      obtain rfl : j = i := Nat.succ.inj (last.trans own.symm)
      exact settled

theorem InTurn.start : InTurn machine.start := by
  refine ⟨rfl, le_rfl, fun _ => Nat.zero_le _, fun i failed => ?_, fun i earlier => ?_,
    fun _ i last => ?_, rfl, fun _ => rfl⟩
  · cases failed
  · cases earlier
  · cases last

/-- In every run without such a failure, each event is attempted at most once, in the order of arrival and after the
one before has settled, its promise rejects only if its own projection failed, and whenever none is running the next
one can start. -/
theorem events_projected_in_turn (reached : machine.Reaches (fun s e => ¬ Swallows s e) s) :
    s.attempts = List.range s.attempts.length ∧ s.attempts.length ≤ s.arrived ∧
    (∀ i, i + 1 ∈ s.attempts → (s.link i).settled = true) ∧
    (∀ i, s.link i = .failed ∨ s.link i = .skipped → i ∈ s.attempts ∧ s.link i = .failed) ∧
    ((∀ i, s.link i ≠ .running) → s.attempts.length < s.arrived →
      ∃ t, machine.step s (.projectOne s.attempts.length) = some t) := by
  have ok : InTurn s := reached.invariant InTurn .start fun s e t careful step ok => ok.step careful step
  have member (i : ℕ) : i ∈ s.attempts ↔ i < s.attempts.length := by
    rw [ok.attempts, List.mem_range, List.length_range]
  refine ⟨ok.attempts, ok.bound, fun i later => ok.settled ((member _).mp later), fun i rejected =>
    ?_, fun idle inside => ?_⟩
  · have place := ok.place i
    rcases rejected with failed | skipped
    · rw [failed] at place
      exact ⟨(member i).mpr place, failed⟩
    · rw [skipped] at place
      exact place.elim
  · have chained : s.chained s.attempts.length = true → s.link (s.attempts.length - 1) = .fulfilled := by
      intro chained
      cases turn : s.attempts.length with
      | zero => cases (turn ▸ chained).symm.trans ok.first.1
      | succ j =>
        have place := ok.place j
        cases link : s.link j <;> grind [Link.InPlace, InTurn.clean]
    have waiting : s.link s.attempts.length = .waiting := by
      have place := ok.place s.attempts.length
      cases link : s.link s.attempts.length <;> grind [Link.InPlace]
    exact ⟨_, if_pos ⟨inside, waiting, chained⟩⟩

/-- Two events arrive, and the first of them fails. -/
def failedBeforeNext : List Event := [.project, .projectOne 0, .settle 0 false, .forget 0, .project, .projectOne 1]

def swallowsNothing (s : Chain) : Event → Bool
  | .settle i false => i + 1 == s.arrived
  | .project => !s.held
  | _ => true

theorem not_swallows (s : Chain) (e : Event) (passed : swallowsNothing s e = true) : ¬ Swallows s e := by
  unfold swallowsNothing at passed
  unfold Swallows
  split at passed <;> grind

theorem next_projected_after_failure : ∃ s, machine.Reaches (fun s e => ¬ Swallows s e) s ∧ s.link 0 = .failed ∧
    s.attempts = [0, 1] ∧ (s.link 0).settled = true := by
  obtain ⟨s, run, failed, attempts⟩ : ∃ s, machine.runChecked swallowsNothing {} failedBeforeNext = some s ∧
    s.link 0 = .failed ∧ s.attempts = [0, 1] := by decide
  have reached : machine.Reaches _ s := ⟨_, Machine.path_of_runChecked not_swallows run⟩
  exact ⟨s, reached, failed, attempts, (events_projected_in_turn reached).2.2.1 0 (attempts ▸ .tail _ (.head _))⟩

/-- The first event fails while the second waits, whose promise rejects although its projection was never attempted. -/
theorem failure_swallows_next : ∃ s, machine.Reaches Machine.anyStep s ∧ s.arrived = 2 ∧ s.attempts = [0] ∧
    s.link 0 = .failed ∧ s.link 1 = .skipped :=
  Machine.exists_reached [.project, .project, .projectOne 0, .settle 0 false, .reject 1] (by decide)

end Chain

end RhinoQ.Model.RuntimeTaskProjector
