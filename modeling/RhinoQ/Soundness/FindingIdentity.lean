import RhinoQ.Machine.Path
import RhinoQ.Model.Finding
import RhinoQ.ToMathlib.Trim
import Mathlib.Data.Int.Order.Basic
import Mathlib.Data.List.Chain

/-! # One record for each finding

The in-memory store keeps a record and its events under the text of their key, which names the key as long as
neither the rule id nor the subject type holds the separator. A call writes both or neither.
-/

namespace RhinoQ.Model

namespace Finding

/-- The parts of a key that a separator follows do not hold it. -/
def Key.Plain (key : Key) : Prop := '/' ∉ key.ruleID.toList ∧ '/' ∉ key.subjectType.toList

instance (key : Key) : Decidable key.Plain := inferInstanceAs (Decidable (_ ∧ _))

theorem Key.version_nonneg {key : Key} (valid : key.validate = .ok ()) : 0 ≤ key.observedInvariantVersion := by
  simp only [Key.validate] at valid
  split_ifs at valid with malformed
  simp only [Bool.or_eq_true, decide_eq_true_eq, not_or] at malformed
  omega

theorem notMem_version {n : ℤ} (positive : 0 ≤ n) : 'v' ∉ (toString n).toList := by
  rw [Int.toString_eq_repr, Int.repr_eq_if, if_pos positive, Nat.repr, String.toList_ofList]
  intro member
  cases Nat.isDigit_of_mem_toDigits (by decide) (by decide) member

/-- What follows the separators is split at the last `v`: a version has none. -/
theorem Key.text_injective {first second : Key} (plain : first.Plain) (plain' : second.Plain)
    (valid : first.validate = .ok ())
    (valid' : second.validate = .ok ()) (same : first.text = second.text) : first = second := by
  have slash : "/".toList = ['/'] := rfl
  have texts := congrArg String.toList same
  simp only [text, String.toList_append, slash, List.append_assoc, List.singleton_append] at texts
  obtain ⟨rules, texts⟩ := append_cons_cancel plain.1 plain'.1 texts
  obtain ⟨types, texts⟩ := append_cons_cancel plain.2 plain'.2 texts
  have mark : "@v".toList = ['@', 'v'] := rfl
  have reversed := congrArg List.reverse texts
  simp only [List.append_eq, mark, List.reverse_append, List.reverse_cons, List.nil_append, List.cons_append,
    List.append_assoc] at reversed
  have digits {key : Key} (checked : key.validate = .ok ()) : 'v' ∉
    (toString key.observedInvariantVersion).toList.reverse := by
    rw [List.mem_reverse]
    exact notMem_version (version_nonneg checked)
  obtain ⟨versions, subjects⟩ := append_cons_cancel (digits valid) (digits valid') reversed
  have numbers := String.toList_inj.mp (List.reverse_injective versions)
  have ids := List.reverse_injective (List.cons.inj subjects).2
  rw [Key.mk.injEq]
  exact ⟨String.toList_inj.mp rules, String.toList_inj.mp types, String.toList_inj.mp ids,
    toString_inj_of_nonneg (version_nonneg valid) (version_nonneg valid') numbers⟩

theorem ok_of_ite [Decidable c] {x : Except Error α}
    (passed : (if c then .error error else x) = .ok value) : ¬c ∧ x = .ok value := by
  split at passed
  · cases passed
  next free => exact ⟨free, passed⟩

/-- What rules and operators ask of the store. -/
inductive Operation
  | observe (observation : Observation)
  | pass (key : Key) (observedAt : Time)
  | transition (key : Key) (decision : Transition)

def Operation.key : Operation → Key
  | .observe observation => observation.key
  | .pass key _ | .transition key _ => key

/-- The time of a sighting that is reported. -/
def Operation.sighting : Operation → Option Time
  | .observe observation => some observation.observedAt
  | _ => none

/-- The times say what the status says. -/
def Record.Coupled (record : Record) : Prop :=
  (record.resolvedAt ≠ 0 ↔ record.status = .resolved) ∧ (record.suppressedUntil ≠ 0 ↔ record.status.suppressed = true)

/-- What a call that succeeds makes of the record under its key. -/
structure Makes (existing : Option Record) (op : Operation) (updated : Record) : Prop where
  key : updated.key = (existing.map (·.key)).getD op.key
  firstSeen : updated.firstSeen = (existing.map (·.firstSeen)).getD updated.lastSeen
  lastSeen : updated.lastSeen = op.sighting.getD ((existing.map (·.lastSeen)).getD 0)
  counted : updated.occurrenceCount = (existing.map (·.occurrenceCount)).getD 0 + op.sighting.toList.length
  coupled : (∀ record, existing = some record → record.Coupled) → updated.Coupled
  regressed : updated.status = .regressed →
    existing.map (·.status) = some .regressed ∨ existing.map (·.status) = some .resolved ∧ op.sighting.isSome = true

variable {updated record : Record} {existing : Option Record}

theorem makes_seenAgain (record : Record) (o : Observation) : Makes (some record) (.observe o) (seenAgain record o) := by
  unfold seenAgain
  dsimp only
  split
  next resolved =>
    refine ⟨rfl, rfl, rfl, rfl, fun coupled => ⟨by simp, ?_⟩, fun _ => .inr ⟨congrArg some resolved, rfl⟩⟩
    exact (coupled record rfl).2.trans (by rw [resolved]; rfl)
  next unresolved =>
    split
    · exact ⟨rfl, rfl, rfl, rfl, fun coupled => ⟨(coupled record rfl).1.trans
        (iff_of_false unresolved nofun), by simp [Status.suppressed]⟩, nofun⟩
    · exact ⟨rfl, rfl, rfl, rfl, fun coupled => coupled record rfl, fun regressed => .inl (congrArg some regressed)⟩

theorem makes_of_apply (applied : apply existing o = .ok updated) :
    o.key.validate = .ok () ∧ Makes existing (.observe o) updated := by
  unfold apply at applied
  split at applied
  · cases applied
  next valid =>
    constructor
    · unfold Observation.validate at valid
      split at valid
      · cases valid
      next checked => exact checked
    split at applied
    · cases applied
      exact ⟨rfl, rfl, rfl, rfl, fun _ => by simp [Record.Coupled, Status.suppressed], nofun⟩
    · cases applied
      exact makes_seenAgain _ o

theorem makes_of_applyPass (applied : applyPass existing key at_ = .ok (some updated)) :
    Makes existing (.pass key at_) updated := by
  unfold applyPass at applied
  split at applied
  · cases applied
  obtain ⟨dated, applied⟩ := ok_of_ite applied
  split at applied
  · cases applied
  split at applied
  · cases applied
  · cases applied
    exact ⟨rfl, rfl, rfl, rfl, fun _ => by simpa [Record.Coupled, Status.suppressed] using dated, nofun⟩

theorem makes_of_applyTransition (applied : applyTransition record t = .ok updated) :
    Makes (some record) (.transition key t) updated := by
  unfold applyTransition at applied
  obtain ⟨_, applied⟩ := ok_of_ite applied
  obtain ⟨byHand, applied⟩ := ok_of_ite applied
  iterate 3 replace applied := (ok_of_ite applied).2
  obtain ⟨dated, applied⟩ := ok_of_ite applied
  replace applied := (ok_of_ite applied).2
  obtain ⟨expires, applied⟩ := ok_of_ite applied
  iterate 2 replace applied := (ok_of_ite applied).2
  cases applied
  refine ⟨rfl, rfl, rfl, rfl, fun _ => ⟨ite_ne_right_iff.trans (and_iff_left_of_imp ?_),
    ite_ne_right_iff.trans (and_iff_left_of_imp ?_)⟩,
    fun regressed => absurd regressed byHand⟩
  · exact fun _ zero => dated (congrArg Time.isZero zero)
  · exact fun hidden zero => expires ⟨hidden, congrArg Time.isZero zero⟩

end Finding

namespace FindingStore
open Finding

variable {s : FindingStore} {op : Operation} {key : Key}

/-- The store after a call. -/
def perform (s : FindingStore) : Operation → FindingStore
  | .observe observation => (s.observeFinding observation).2
  | .pass key observedAt => (s.observeFindingPass key observedAt).2
  | .transition key decision => (s.transitionFinding key decision).2

def machine : Machine FindingStore Operation where
  start := {}
  step s op := some (s.perform op)

/-- The time of the sighting that an event tells of. -/
def sightingOf (event : Event) : Option Time :=
  match event.kind with
  | .observed => some event.occurredAt
  | _ => none

/-- What a call writes under its key, with the event that explains it. -/
structure Writes (existing : Option Record) (op : Operation) (updated : Record) (event : Event) : Prop where
  valid : op.key.validate = .ok ()
  makes : Makes existing op updated
  sighting : sightingOf event = op.sighting
  source : event.fromStatus = statusOf existing
  target : event.toStatus = updated.status

/-- A call leaves the store or writes a record and an event under the text of its key. -/
theorem perform_cases (s : FindingStore) (op : Operation) : s.perform op = s ∨
    ∃ updated event, s.perform op = s.write op.key.text updated event ∧
      Writes (s.records.lookup op.key.text) op updated event := by
  cases op with
  | observe observation =>
    delta perform observeFinding Operation.key
    dsimp only
    cases observation.validate with
    | error => exact .inl rfl
    | ok =>
      dsimp only
      cases applied : apply (s.records.lookup observation.key.text) observation with
      | error => exact .inl rfl
      | ok updated => exact .inr ⟨updated, _, rfl, (makes_of_apply applied).1, (makes_of_apply applied).2, rfl, rfl, rfl⟩
  | pass key observedAt =>
    delta perform observeFindingPass Operation.key
    dsimp only
    cases valid : key.validate with
    | error => exact .inl rfl
    | ok =>
      dsimp only
      cases applied : applyPass (s.records.lookup key.text) key observedAt with
      | error => exact .inl rfl
      | ok changed =>
        cases changed with
        | none => exact .inl rfl
        | some updated => exact .inr ⟨updated, _, rfl, valid, makes_of_applyPass applied, rfl, rfl, rfl⟩
  | transition key decision =>
    delta perform transitionFinding Operation.key
    dsimp only
    cases valid : key.validate with
    | error => exact .inl rfl
    | ok =>
      dsimp only
      cases found : s.records.lookup key.text with
      | none => exact .inl rfl
      | some existing =>
        dsimp only
        cases applied : applyTransition existing decision with
        | error => exact .inl rfl
        | ok updated => exact .inr ⟨updated, _, rfl, valid, makes_of_applyTransition applied, rfl, rfl, rfl⟩

def history (s : FindingStore) (text : String) : List Event := (s.events.lookup text).getD []

/-- What every call keeps of the record and the events under its key holds under every key. -/
theorem invariant_of_reaches {guard : FindingStore → Operation → Prop} (I : String → Option Record → List Event → Prop)
    (start : ∀ text, I text none [])
    (keeps : ∀ s op updated event, guard s op → Writes (s.records.lookup op.key.text) op updated event →
      I op.key.text (s.records.lookup op.key.text) (s.history op.key.text) →
        I op.key.text (some updated) (s.history op.key.text ++ [event]))
    (reached : machine.Reaches guard s) (text : String) : I text (s.records.lookup text) (s.history text) := by
  refine reached.invariant (fun s => ∀ text, I text (s.records.lookup text) (s.history text)) start ?_ text
  intro s op t guarded step held text
  cases step
  rcases perform_cases s op with same | ⟨updated, event, written, writes⟩
  · rw [same]
    exact held text
  · rw [written, history, write, FiniteMap.lookup_insert, FiniteMap.lookup_insert]
    split_ifs with here
    · subst here
      exact keeps s op updated event guarded writes (held _)
    · exact held text

theorem getFinding_eq (found : s.getFinding key = .ok (some record)) :
    key.validate = .ok () ∧ s.records.lookup key.text = some record := by
  unfold getFinding at found
  cases valid : key.validate with
  | error => cases valid ▸ found
  | ok => exact ⟨rfl, Except.ok.inj (valid ▸ found)⟩

/-- As long as no key of a call holds the separator where it separates, a finding is found under its own key only. -/
theorem finding_identity (reached : machine.Reaches (fun _ op => op.key.Plain) s) (plain : key.Plain) :
    (∀ record, s.getFinding key = .ok (some record) → record.key = key) ∧
    ∀ op : Operation, op.key.Plain → op.key ≠ key → (s.perform op).getFinding key = s.getFinding key := by
  have named := invariant_of_reaches (fun text existing _ => ∀ record, existing = some record →
    record.key.Plain ∧ record.key.validate = .ok () ∧ record.key.text = text) (fun _ _ absent => by cases absent)
      (fun s op updated event apart writes held => ?_) reached
  rotate_left
  · rintro _ ⟨⟩
    rw [writes.makes.key]
    cases before : s.records.lookup op.key.text with
    | none => exact ⟨apart, writes.valid, rfl⟩
    | some existing => exact held existing before
  refine ⟨fun record found => ?_, fun op apart other => ?_⟩
  · obtain ⟨valid, there⟩ := getFinding_eq found
    obtain ⟨clean, checked, place⟩ := named _ record there
    exact Key.text_injective clean plain checked valid place
  · rcases perform_cases s op with same | ⟨updated, event, written, writes⟩
    · rw [same]
    unfold getFinding
    cases valid : key.validate with
    | error => rfl
    | ok =>
      have place : key.text ≠ op.key.text := fun same => other (Key.text_injective plain apart valid writes.valid same).symm
      rw [written, write, FiniteMap.lookup_insert, if_neg place]

def refund : Key := { ruleID := "refunds", subjectType := "order", subjectID := "7/a", observedInvariantVersion := 2 }

theorem refund_keeps_its_finding : ∃ s, machine.Reaches (fun _ op => op.key.Plain) s ∧
    (∃ record, s.records.lookup refund.text = some record ∧ record.status = .resolved) ∧
    (∀ record, s.getFinding refund = .ok (some record) → record.key = refund) ∧
    ∀ op : Operation, op.key.Plain → op.key ≠ refund → (s.perform op).getFinding refund = s.getFinding refund :=
  Machine.exists_checked_and (fun _ _ => of_decide_eq_true) [.observe ⟨refund, "", 5⟩, .pass refund 6] (by decide)
    fun _ reached _ => finding_identity reached (by decide)

def slashed : Key := { ruleID := "a/b", subjectType := "c", subjectID := "d", observedInvariantVersion := 0 }

def nested : Key := { ruleID := "a", subjectType := "b/c", subjectID := "d", observedInvariantVersion := 0 }

/-- What is seen under the first key is found under the second, which had no finding. -/
theorem slashed_found_under_nested : slashed ≠ nested ∧ machine.start.getFinding nested = .ok none ∧
    ∃ record, (machine.start.perform (.observe ⟨slashed, "", 5⟩)).getFinding nested = .ok (some record) ∧
      record.key = slashed := by
  exact ⟨by decide, by decide, _, rfl, rfl⟩

/-! ## The window and the history of a finding -/

def sightings (events : List Event) : List Time := events.flatMap fun event => (sightingOf event).toList

theorem sightings_concat (writes : Writes existing op updated event) :
    sightings (past ++ [event]) = sightings past ++ op.sighting.toList := by
  rw [sightings, List.flatMap_append, List.flatMap_singleton, writes.sighting, sightings]

/-- A sighting is not earlier than the last one of its finding. -/
def InOrder (s : FindingStore) (op : Operation) : Prop :=
  ∀ record ∈ s.records.lookup op.key.text, ∀ t ∈ op.sighting, record.lastSeen ≤ t

/-- The window of a record bounds the sightings. -/
structure Bounds (record : Record) (times : List Time) : Prop where
  window : record.firstSeen ≤ record.lastSeen
  within : ∀ t ∈ times, record.firstSeen ≤ t ∧ t ≤ record.lastSeen

/-- When sightings are reported in order, the window of a record bounds all of them. -/
theorem window_bounds_sightings (reached : machine.Reaches InOrder s) (text : String) (record : Record)
    (found : s.records.lookup text = some record) : Bounds record (sightings (s.history text)) := by
  have bounded := invariant_of_reaches (fun _ existing events => (existing = none → events = []) ∧
    ∀ record, existing = some record → Bounds record (sightings events))
      (fun _ => ⟨fun _ => rfl, fun _ absent => by cases absent⟩) ?_ reached text
  · exact bounded.2 record found
  rintro s op updated event ordered writes ⟨blank, held⟩
  refine ⟨nofun, ?_⟩
  rintro _ ⟨⟩
  have first := writes.makes.firstSeen
  have last := writes.makes.lastSeen
  have latest (t : Time) (seen : t ∈ op.sighting.toList) : t = updated.lastSeen := by
    rw [last, Option.mem_toList.mp seen]
    rfl
  rw [sightings_concat writes]
  cases before : s.records.lookup op.key.text with
  | none =>
    rw [before] at first
    rw [blank before]
    refine ⟨first.le, fun t seen => ?_⟩
    rw [latest t seen]
    exact ⟨first.le, le_rfl⟩
  | some record =>
    rw [before] at first last
    obtain ⟨window, within⟩ := held record before
    have later : record.lastSeen ≤ updated.lastSeen := by
      rw [last]
      cases seen : op.sighting with
      | none => exact le_rfl
      | some t => exact ordered record before t seen
    have window := first.trans_le (window.trans later)
    refine ⟨window, fun t member => ?_⟩
    rcases List.mem_append.mp member with old | new
    · exact ⟨first.trans_le (within t old).1, (within t old).2.trans later⟩
    · rw [latest t new]
      exact ⟨window, le_rfl⟩

/-- The rule sees the drift at the second hour and again at the fifth. -/
theorem refund_window_bounds : ∃ s, machine.Reaches InOrder s ∧
    (∃ record, s.records.lookup refund.text = some record ∧ record.occurrenceCount = 2) ∧
    ∀ text record, s.records.lookup text = some record → Bounds record (sightings (s.history text)) :=
  Machine.exists_checked_and (fun _ _ => of_decide_eq_true (p := ∀ _ ∈ _, ∀ _ ∈ _, _ ≤ _))
    [.observe ⟨refund, "", 2⟩, .pass refund 3, .observe ⟨refund, "", 5⟩] (by decide) fun _ reached _ =>
      window_bounds_sightings reached

/-- A report of an earlier sighting that comes late ends the window before it begins. -/
theorem late_report_inverts_window : ∃ s, machine.Reaches Machine.anyStep s ∧
    ∃ record, s.records.lookup refund.text = some record ∧ record.lastSeen < record.firstSeen :=
  Machine.exists_reached [.observe ⟨refund, "", 5⟩, .observe ⟨refund, "", 2⟩] (by decide)

/-- The events of a finding lead to its record. -/
structure Explains (existing : Option Record) (events : List Event) : Prop where
  chained : events.IsChain fun a b => b.fromStatus = a.toStatus
  last : events.getLast?.map (·.toStatus) = existing.map (·.status)
  counted : ((existing.map (·.occurrenceCount)).getD 0) = (sightings events).length
  coupled : ∀ record, existing = some record → record.Coupled
  regressed : ∀ event ∈ events, event.toStatus = .regressed →
    event.fromStatus = .regressed ∨ event.fromStatus = .resolved ∧ (sightingOf event).isSome = true

/-- The history of every finding explains its record, and a call that fails leaves both. -/
theorem history_explains_record (reached : machine.Reaches Machine.anyStep s) :
    (∀ text, Explains (s.records.lookup text) (s.history text)) ∧
    (∀ o error, (s.observeFinding o).1 = .error error → s.perform (.observe o) = s) ∧
    (∀ key t error, (s.observeFindingPass key t).1 = .error error → s.perform (.pass key t) = s) ∧
    ∀ key decision error, (s.transitionFinding key decision).1 = .error error →
      s.perform (.transition key decision) = s := by
  refine ⟨invariant_of_reaches (fun _ => Explains) (fun _ =>
    ⟨.nil, rfl, rfl, fun _ absent => (by cases absent), fun _ member => by cases member⟩) ?_ reached, ?_, ?_, ?_⟩
  · rintro s op updated event - writes ⟨chained, last, counted, coupled, regressed⟩
    have before : event.fromStatus = ((s.history op.key.text).getLast?.map (·.toStatus)).getD (.other "") := by
      rw [writes.source, statusOf, last]
    constructor
    · refine List.isChain_append.mpr ⟨chained, .singleton event, ?_⟩
      rintro a final _ ⟨⟩
      rw [before, final]
      rfl
    · rw [List.getLast?_concat]
      exact congrArg some writes.target
    · rw [sightings_concat writes, List.length_append, ← counted]
      exact writes.makes.counted
    · rintro _ ⟨⟩
      exact writes.makes.coupled coupled
    · intro e member back
      rcases List.mem_append.mp member with old | new
      · exact regressed e old back
      cases List.mem_singleton.mp new
      rw [writes.target] at back
      rw [writes.source, statusOf, writes.sighting]
      rcases writes.makes.regressed back with same | ⟨same, seen⟩
      · exact .inl (by rw [same]; rfl)
      · exact .inr ⟨by rw [same]; rfl, seen⟩
  · intro o error failed
    rw [perform]
    unfold observeFinding at failed ⊢
    grind
  · intro key t error failed
    rw [perform]
    unfold observeFindingPass at failed ⊢
    grind
  · intro key decision error failed
    rw [perform]
    unfold transitionFinding at failed ⊢
    grind

/-- The drift is resolved and returns. -/
theorem refund_history_explains : ∃ s, machine.Reaches Machine.anyStep s ∧
    (∃ record, s.records.lookup refund.text = some record ∧ record.status = .regressed) ∧
      Explains (s.records.lookup refund.text) (s.history refund.text) :=
  Machine.exists_reached_and [.observe ⟨refund, "", 2⟩, .pass refund 3, .observe ⟨refund, "", 5⟩] (by decide)
    fun _ reached _ => (history_explains_record reached).1 _

end FindingStore
end RhinoQ.Model
