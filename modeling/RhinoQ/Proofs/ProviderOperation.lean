import RhinoQ.Machine.Fence
import RhinoQ.Model.ProviderOperation.Call

/-! # What a provider operation call does

A suspended call holds a copy of the record it read; while the stored version is the copy's, the stored record
is the copy. A call that holds a pending copy is on its way to the callback, inside it, or about to record its
result.
-/

namespace RhinoQ.Model

open ProviderOperation FiniteMap

def operationFence : Fence String Record := { id := Record.id, version := Record.version }

namespace ProviderOperationStore

variable {copy : Record}

variable {s t : ProviderOperationStore} {key : String} {record next current : Record}

/-- Records are stored under their identifier, and the index leads to the record of its key. -/
structure WellFormed (s : ProviderOperationStore) : Prop where
  named : ∀ id record, s.byID.lookup id = some record → record.id = id
  keyed : ∀ key id, s.byKey.lookup key = some id → ∃ record, s.byID.lookup id = some record ∧ record.key = key

/-- The record that holds a key. -/
def recordAt (s : ProviderOperationStore) (key : String) : Option Record := (s.byKey.lookup key).bind s.byID.lookup

/-- `t` is `s` after the record of a new key was stored. -/
structure Begun (s t : ProviderOperationStore) (record : Record) : Prop where
  free : s.byKey.lookup record.key = none
  absent : s.byID.lookup record.id = none
  byID : t.byID = s.byID.insert record.id record
  byKey : t.byKey = s.byKey.insert record.key record.id

/-- `t` is `s` after `next` was written over `current`. -/
structure Saved (s t : ProviderOperationStore) (current next : Record) : Prop where
  found : s.byID.lookup next.id = some current
  key : next.key = current.key
  newer : current.version < next.version
  byID : t.byID = s.byID.insert next.id next
  byKey : t.byKey = s.byKey

theorem Begun.wellFormed (begun : Begun s t record) (wf : s.WellFormed) : t.WellFormed := by
  refine ⟨forall_insert begun.byID rfl wf.named, ?_⟩
  intro key id listed
  obtain ⟨rfl, rfl⟩ | ⟨_, listed⟩ := lookup_insert_cases begun.byKey listed
  · exact ⟨record, by rw [begun.byID, lookup_insert, if_pos rfl], rfl⟩
  · obtain ⟨found, present, own⟩ := wf.keyed key id listed
    exact ⟨found, begun.byID ▸ lookup_insert_of_absent begun.absent present, own⟩

theorem Begun.recordAt (begun : Begun s t record) (wf : s.WellFormed) :
    t.recordAt key = if key = record.key then some record else s.recordAt key := by
  unfold ProviderOperationStore.recordAt
  rw [begun.byKey, lookup_insert]
  split
  next => rw [Option.bind_some, begun.byID, lookup_insert, if_pos rfl]
  cases listed : s.byKey.lookup key with
  | none => rfl
  | some id =>
    obtain ⟨found, present, _⟩ := wf.keyed key id listed
    rw [Option.bind_some, Option.bind_some, begun.byID, present]
    exact lookup_insert_of_absent begun.absent present

theorem Saved.wellFormed (saved : Saved s t current next) (wf : s.WellFormed) : t.WellFormed := by
  refine ⟨forall_insert saved.byID rfl wf.named, ?_⟩
  intro key id listed
  rw [saved.byKey] at listed
  obtain ⟨found, present, own⟩ := wf.keyed key id listed
  rw [saved.byID, lookup_insert]
  split
  next same =>
    rw [same, saved.found] at present
    cases present
    exact ⟨next, rfl, saved.key.trans own⟩
  next => exact ⟨found, present, own⟩

theorem Saved.recordAt (saved : Saved s t current next) (wf : s.WellFormed)
    (listed : s.byKey.lookup next.key = some next.id) :
    t.recordAt key = if key = next.key then some next else s.recordAt key := by
  unfold ProviderOperationStore.recordAt
  rw [saved.byKey]
  split
  next same => rw [same, listed, Option.bind_some, saved.byID, lookup_insert, if_pos rfl]
  rename_i other
  cases at_key : s.byKey.lookup key with
  | none => rfl
  | some id =>
    obtain ⟨found, present, own⟩ := wf.keyed key id at_key
    have different : id ≠ next.id := by
      rintro rfl
      rw [saved.found] at present
      cases present
      exact other (own.symm.trans saved.key.symm)
    rw [Option.bind_some, Option.bind_some, saved.byID, lookup_insert, if_neg different]

/-- `copy` was read as the record of `key`. -/
structure Held (s : ProviderOperationStore) (key : String) (copy : Record) : Prop where
  own : copy.key = key
  listed : s.byKey.lookup key = some copy.id
  copied : operationFence.Copied s.byID copy

theorem held_of_lookup (wf : s.WellFormed) {id : String} (listed : s.byKey.lookup key = some id)
    (found : s.byID.lookup id = some record) : s.Held key record := by
  obtain rfl := wf.named id record found
  obtain ⟨stored, present, own⟩ := wf.keyed key _ listed
  cases present.symm.trans found
  exact ⟨own, listed, Fence.copied_of_lookup found⟩

theorem Held.begun (held : s.Held key copy) (begun : Begun s t record) : t.Held key copy := by
  refine ⟨held.own, ?_, ?_⟩
  · rw [begun.byKey]
    exact lookup_insert_of_absent begun.free held.listed
  · rw [begun.byID]
    exact held.copied.insert begun.absent

theorem Held.saved (held : s.Held key copy) (saved : Saved s t current next) : t.Held key copy := by
  refine ⟨held.own, ?_, ?_⟩
  · rw [saved.byKey, held.listed]
  · rw [saved.byID]
    exact held.copied.write saved.found saved.newer

/-- A successful save of a copy's successor replaces that copy. -/
theorem Held.save {evidence : Option Evidence} (held : s.Held key copy) (advances : copy.Advances next)
    (success : s.saveProviderOperation next copy.version evidence = (.ok stored, t)) :
    stored = next ∧ Saved s t copy next := by
  obtain ⟨rfl, _, ⟨current, found, version⟩, byID, byKey⟩ := save_eq_ok success
  rw [advances.id] at found
  obtain rfl : current = copy := held.copied.eq_of_version found version
  refine ⟨rfl, ⟨advances.id ▸ found, advances.key, ?_, byID, byKey⟩⟩
  have later := advances.version
  omega

theorem Held.recordAt (held : s.Held key copy) : s.recordAt key = s.byID.lookup copy.id := by
  rw [ProviderOperationStore.recordAt, held.listed, Option.bind_some]

end ProviderOperationStore

namespace ProviderOperation

/-- The states between which a waiting write moves the record. -/
inductive Moves : After → State → State → Prop
  | retried : Moves .retried .notHappened .pending
  | accepted : Moves (.accepted providerID evidence) .pending .accepted
  | notHappened : Moves (.notHappened text) .pending .notHappened
  | unknown : Moves (.unknown text) .pending .uncertain
  | confirmed : Moves .confirmed .accepted .confirmed
  | settled (waiting : source = .accepted ∨ source = .uncertain)
      (settled : target ≠ .pending) : Moves (.settled callError) source target

/-- `next` is the successor of `copy` that a waiting write stores. -/
structure Drafts (copy next : Record) (after : After) : Prop where
  advances : copy.Advances next
  moves : Moves after copy.state next.state

/-- Where a call may go on from a record it holds. -/
inductive Continues (record : Record) : Phase → Prop
  | answered (answer : Answer) : Continues record (.answered answer)
  | calling (pending : record.state = .pending) : Continues record (.calling record)
  | readingBack (callError : Option String) (waiting : record.state = .accepted ∨ record.state = .uncertain) :
      Continues record (.readingBack record callError)
  | saving (next : Record) (evidence : Option Evidence) (after : After) (drafts : Drafts record next after) :
      Continues record (.saving record next evidence after)

section
variable {call : Call} {record copy : Record} {choice : Choice} {callError : Option String} {after : After}
variable {kind payload : String} {later : Time} {moved : Except String Record} {done : Phase} {target : State}

theorem settle_eq (found : Option Record) (errors : List OperationError) (callError : Option String) :
    ∃ answer, settle found errors callError = .answered answer := by
  unfold settle
  split
  · exact ⟨_, rfl⟩
  · split <;> exact ⟨_, rfl⟩

theorem fail_eq (found : Option Record) (error : OperationError) (choice : Choice) (after : After) :
    ∃ answer, fail found error choice after = .answered answer := by
  cases after with
  | settled callError => exact settle_eq ..
  | retried | accepted | notHappened | unknown | confirmed => exact ⟨_, rfl⟩

theorem Continues.of_eq (ends : ∃ answer, phase = .answered answer) : Continues record phase := by
  obtain ⟨answer, rfl⟩ := ends
  exact .answered answer

theorem startReadback_continues (waiting : record.state = .accepted ∨ record.state = .uncertain) :
    Continues record (startReadback call record callError choice) := by
  unfold startReadback
  split
  · exact .readingBack callError waiting
  · exact .of_eq (settle_eq ..)

/-- The result of a callback that the domain refuses to record. -/
def Unrecordable (choice : Choice) : Prop :=
  choice.now = 0 ∨
    match choice.returned with
    | .accepted providerID _ => Text.trimSpace providerID = ""
    | .notHappened text => Text.trimSpace text = ""
    | .failed _ => False

section
variable (drafts : ∀ next, moved = .ok next → Drafts copy next after)
include drafts

/-- A transition that always moves the record is refused or waits for its write. -/
theorem dispatchLast_cases : (∃ text answer, moved = .error text ∧
      dispatchLast copy after choice done (mutate copy kind payload later moved) = .answered answer) ∨
    ∃ next evidence, Drafts copy next after ∧
      dispatchLast copy after choice done (mutate copy kind payload later moved) = .saving copy next evidence after := by
  cases moved with
  | error text =>
    obtain ⟨answer, failed⟩ := fail_eq (some copy) (.message text) choice after
    exact .inl ⟨text, answer, rfl, failed⟩
  | ok next =>
    have drafted := drafts next rfl
    have newer : next.version ≠ copy.version := by
      have version := drafted.advances.version
      omega
    simp only [mutate, if_neg newer]
    split
    · have annotated : Drafts copy { next with evidence := payload } after :=
        ⟨⟨drafted.advances.id, drafted.advances.key, drafted.advances.version⟩, drafted.moves⟩
      exact .inr ⟨_, _, annotated, rfl⟩
    · exact .inr ⟨_, _, drafted, rfl⟩

theorem dispatchLast_continues :
    Continues copy (dispatchLast copy after choice done (mutate copy kind payload later moved)) := by
  rcases dispatchLast_cases drafts with ⟨_, answer, _, ends⟩ | ⟨next, evidence, drafted, waits⟩
  · exact .of_eq ⟨answer, ends⟩
  · exact waits ▸ .saving next evidence after drafted

/-- Recording a callback's result fails only for a result as above, or waits for its write. -/
theorem dispatchLast_recorded (refused : ∀ text, moved = .error text → Unrecordable choice) :
    (Unrecordable choice ∧
      ∃ answer, dispatchLast copy after choice done (mutate copy kind payload later moved) = .answered answer) ∨
    ∃ next evidence after', Drafts copy next after' ∧
      dispatchLast copy after choice done (mutate copy kind payload later moved) = .saving copy next evidence after' := by
  rcases dispatchLast_cases drafts with ⟨text, answer, error, ends⟩ | ⟨next, evidence, drafted, waits⟩
  · exact .inl ⟨refused text error, answer, ends⟩
  · exact .inr ⟨next, evidence, after, drafted, waits⟩

end

theorem proceed_continues : Continues record (proceed call record choice) := by
  unfold proceed
  split
  next accepted => exact startReadback_continues (.inl accepted)
  next uncertain => exact startReadback_continues (.inr uncertain)
  next pending => exact .calling pending
  next => exact .answered _

theorem afterGet_continues : Continues record (afterGet call record choice) := by
  unfold afterGet
  split
  next => exact .answered _
  next =>
    refine dispatchLast_continues fun next success => ?_
    obtain ⟨advances, before, after⟩ := Record.retry_eq_ok success
    refine ⟨advances, ?_⟩
    rw [before, after]
    exact .retried
  next => exact proceed_continues

theorem confirmOnReturn_continues (accepted : record.state = .accepted) :
    Continues record (confirmOnReturn record providerID evidence choice) := by
  refine dispatchLast_continues fun next success => ?_
  obtain ⟨advances, _, after⟩ := Record.confirm_of_ne (accepted ▸ nofun) success
  refine ⟨advances, ?_⟩
  rw [accepted, after]
  exact .confirmed

/-- Only a retry leads to the callback. -/
theorem resume_continues (moves : Moves after source record.state) : Continues record (resume call record choice after) := by
  generalize reached : record.state = target at moves
  cases moves with
  | retried => exact proceed_continues
  | accepted =>
    unfold resume
    dsimp only
    split
    · exact confirmOnReturn_continues reached
    · exact .answered _
    · exact startReadback_continues (.inl reached)
  | notHappened => exact .answered _
  | unknown => exact startReadback_continues (.inr reached)
  | confirmed => exact .answered _
  | settled => exact .of_eq (settle_eq ..)

theorem Drafts.of_resolve (pending : record.state = .pending)
    (change : State.pending ≠ target) (moves : Moves after .pending target) (next : Record)
    (success : record.resolve target text now = .ok next) : Drafts record next after := by
  obtain ⟨advances, state⟩ := Record.resolve_of_ne (pending ▸ change) success
  refine ⟨advances, ?_⟩
  rw [pending, state]
  exact moves

/-- A callback's result is refused as above, or waits to be written over the pending copy. -/
theorem afterCall_cases (pending : record.state = .pending) :
    (Unrecordable choice ∧ ∃ answer, afterCall call record choice = .answered answer) ∨
      ∃ next evidence after, Drafts record next after ∧
        afterCall call record choice = .saving record next evidence after := by
  unfold afterCall
  cases returned : choice.returned with
  | notHappened text =>
    refine dispatchLast_recorded (Drafts.of_resolve pending nofun .notHappened) fun _ refused => ?_
    by_contra recordable
    rw [Unrecordable, returned] at recordable
    simp [Record.resolve, pending, not_or.mp recordable] at refused
  | failed text =>
    refine dispatchLast_recorded (Drafts.of_resolve pending nofun .unknown) fun _ refused => ?_
    by_contra recordable
    rw [Unrecordable, returned] at recordable
    simp [Record.resolve, pending, not_or.mp recordable] at refused
  | accepted providerID evidence =>
    refine dispatchLast_recorded (fun next success => ?_) fun _ refused => ?_
    · obtain ⟨advances, state⟩ := Record.accept_of_pending pending success
      refine ⟨advances, ?_⟩
      rw [pending, state]
      exact .accepted
    · by_contra recordable
      rw [Unrecordable, returned] at recordable
      simp [Record.accept, pending, not_or.mp recordable] at refused

theorem resolve_settles (waiting : record.state = .accepted ∨ record.state = .uncertain)
    (change : record.state ≠ target) (settled : target ≠ .pending) :
    Continues record (dispatch call record (.settled callError) choice (record.mutateResolve target reason choice)) := by
  refine dispatchLast_continues fun next success => ?_
  obtain ⟨advances, state⟩ := Record.resolve_of_ne change success
  exact ⟨advances, .settled waiting (state ▸ settled)⟩

theorem afterReadback_continues (waiting : record.state = .accepted ∨ record.state = .uncertain) :
    Continues record (afterReadback call record callError choice) := by
  have ne_of_closed {target : State} (accepted : target ≠ .accepted) (uncertain : target ≠ .uncertain) :
      record.state ≠ target := by
    rintro rfl
    exact waiting.elim accepted uncertain
  unfold afterReadback
  dsimp only
  split
  · exact .of_eq (settle_eq ..)
  split
  · refine dispatchLast_continues fun next success => ?_
    obtain ⟨advances, _, state⟩ := Record.confirm_of_ne (ne_of_closed nofun nofun) success
    exact ⟨advances, .settled waiting (state ▸ nofun)⟩
  · exact resolve_settles waiting (ne_of_closed nofun nofun) nofun
  · exact resolve_settles waiting (ne_of_closed nofun nofun) nofun
  · exact resolve_settles waiting (ne_of_closed nofun nofun) nofun
  · exact .of_eq (settle_eq ..)
  · split
    next certain => exact resolve_settles waiting certain nofun
    next => exact .of_eq (settle_eq ..)
  · exact .of_eq (settle_eq ..)

end

end ProviderOperation
end RhinoQ.Model
