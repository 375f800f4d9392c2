import RhinoQ.ToMathlib.FiniteMap
import RhinoQ.Model.ProviderOperation.Record

/-! # The memory provider operation store

Records by identifier, the identifier of each provider, operation and idempotency key, and the evidence of
each record. A save is checked against the version the caller read.
-/

namespace RhinoQ.Model

open ProviderOperation

inductive OperationError
  | message (text : String)
  | notFound
  | versionConflict
  | alreadyExists (id : String)
  | provider (text : String)
  | readback (text : String)
  | task (text : String)
  deriving DecidableEq

structure ProviderOperationStore where
  byID : FiniteMap String Record := ∅
  byKey : FiniteMap String String := ∅
  evidence : FiniteMap String (List Evidence) := ∅
  indexed : ∀ key id, byKey.lookup key = some id → (byID.lookup id).isSome := by nofun

namespace ProviderOperationStore

variable (s : ProviderOperationStore)

/-- Reserve the key of the record. A key that is taken answers with the record that holds it. -/
def beginProviderOperation (record : Record) :
    Except OperationError Record × ProviderOperationStore :=
  match taken : s.byKey.lookup record.key with
  | some id => (.ok ((s.byID.lookup id).get (s.indexed record.key id taken)), s)
  | none =>
    if (s.byID.lookup record.id).isSome then (.error (.alreadyExists record.id), s)
    else
      (.ok record, { s with
        byID := s.byID.insert record.id record
        byKey := s.byKey.insert record.key record.id
        indexed := by
          intro key id found
          rw [FiniteMap.lookup_insert] at found
          refine FiniteMap.isSome_lookup_insert record ?_
          split at found
          next => exact .inl (Option.some.inj found).symm
          next => exact .inr (s.indexed key id found) })

def getProviderOperation (id : String) : Option Record := s.byID.lookup id

/-- Number the entry and append it to the evidence of the record. -/
def appendEvidence (evidence : FiniteMap String (List Evidence)) (id : String) :
    Option Evidence → FiniteMap String (List Evidence)
  | none => evidence
  | some entry =>
    let entries := (evidence.lookup id).getD []
    evidence.insert id (entries ++ [{ entry with sequence := entries.length + 1 }])

/-- Write a record over the version the caller read. -/
def saveProviderOperation (record : Record) (expected : ℤ) (evidence : Option Evidence) :
    Except OperationError Record × ProviderOperationStore :=
  match s.byID.lookup record.id with
  | none => (.error .notFound, s)
  | some current =>
    if current.version ≠ expected ∨ record.version ≠ expected + 1 then (.error .versionConflict, s)
    else
      (.ok record, { s with
        byID := s.byID.insert record.id record
        evidence := appendEvidence s.evidence record.id evidence
        indexed := fun key id found => FiniteMap.isSome_lookup_insert record (.inr (s.indexed key id found)) })

section
variable {s t : ProviderOperationStore} {record stored : Record} {expected : ℤ} {evidence : Option Evidence}
  {error : OperationError}

theorem begin_eq_ok (success : s.beginProviderOperation record = (.ok stored, t)) :
    (∃ id, s.byKey.lookup record.key = some id ∧ s.byID.lookup id = some stored ∧ t = s) ∨
      s.byKey.lookup record.key = none ∧ s.byID.lookup record.id = none ∧ stored = record ∧
        t.byID = s.byID.insert record.id record ∧ t.byKey = s.byKey.insert record.key record.id := by
  unfold beginProviderOperation at success
  split at success
  next id taken =>
    obtain ⟨found, rfl⟩ := Prod.mk.inj success
    cases found
    exact .inl ⟨id, taken, (Option.some_get _).symm, rfl⟩
  next free =>
    split at success
    next => cases success
    rename_i absent
    obtain ⟨found, rfl⟩ := Prod.mk.inj success
    cases found
    exact .inr ⟨free, Option.not_isSome_iff_eq_none.mp absent, rfl, rfl, rfl⟩

theorem begin_eq_error (failure : s.beginProviderOperation record = (.error error, t)) : t = s := by
  unfold beginProviderOperation at failure
  split at failure
  next => cases failure
  split at failure
  next => exact (Prod.mk.inj failure).2.symm
  next => cases failure

theorem save_eq_ok (success : s.saveProviderOperation record expected evidence = (.ok stored, t)) :
    stored = record ∧ record.version = expected + 1 ∧
      (∃ current, s.byID.lookup record.id = some current ∧ current.version = expected) ∧
      t.byID = s.byID.insert record.id record ∧ t.byKey = s.byKey := by
  unfold saveProviderOperation at success
  split at success
  next => cases success
  rename_i current found
  split at success
  next => cases success
  rename_i guard
  obtain ⟨same, rfl⟩ := Prod.mk.inj success
  push Not at guard
  exact ⟨(Except.ok.inj same).symm, guard.2, ⟨current, found, guard.1⟩, rfl, rfl⟩

theorem save_eq_error (failure : s.saveProviderOperation record expected evidence = (.error error, t)) :
    t = s ∧ ∀ current, s.byID.lookup record.id = some current → current.version = expected →
      record.version ≠ expected + 1 := by
  unfold saveProviderOperation at failure
  split at failure
  next absent =>
    refine ⟨(Prod.mk.inj failure).2.symm, ?_⟩
    intro current found
    rw [absent] at found
    cases found
  next stored present =>
    split at failure
    next guard =>
      refine ⟨(Prod.mk.inj failure).2.symm, ?_⟩
      intro current found version
      cases present.symm.trans found
      exact guard.resolve_left (not_not.mpr version)
    next => cases failure

end

end ProviderOperationStore
end RhinoQ.Model
