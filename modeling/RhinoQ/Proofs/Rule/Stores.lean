import RhinoQ.Model.Rule.Service

/-! # The stores of an evaluation

What each store call of an evaluation returns and changes. The rendered keys of the subjects of one rule
version are distinct, so each subject has a place of its own in both stores.
-/

namespace RhinoQ.Model

open SubjectOutcome

variable {o : Observation} {c : Char}

theorem Text.trimSpace_ne_empty (member : c ∈ text.toList) (solid : isSpace c = false) : trimSpace text ≠ "" := by
  intro blank
  have empty : (text.toList.dropWhile isSpace).rdropWhile isSpace = [] := by
    simpa [trimSpace] using blank
  have spaces := List.rdropWhile_eq_nil_iff.mp empty
  have nothing : text.toList.dropWhile isSpace = [] := by
    by_contra some
    have first := List.head_dropWhile_not isSpace some
    rw [spaces _ (List.head_mem some)] at first
    cases first
  rw [List.dropWhile_eq_nil_iff.mp nothing c member] at solid
  cases solid

namespace Rule

theorem isSpace_of_idStart (start : isIDStart c = true) : Text.isSpace c = false := by
  simp only [isIDStart, Bool.or_eq_true, Bool.and_eq_true, decide_eq_true_eq, Char.le_def, UInt32.le_iff_toNat_le] at start
  have bounds : (97 ≤ c.toNat ∧ c.toNat ≤ 122) ∨ (48 ≤ c.toNat ∧ c.toNat ≤ 57) := start
  simp only [Text.isSpace, Bool.or_eq_false_iff, Bool.and_eq_false_iff, decide_eq_false_iff_not, beq_eq_false_iff_ne]
  omega

theorem trimSpace_of_idMatches {id : String} (pattern : idMatches id = true) : Text.trimSpace id ≠ "" := by
  cases chars : id.toList with
  | nil => simp [idMatches, chars] at pattern
  | cons first rest =>
    simp only [idMatches, chars, Bool.and_eq_true] at pattern
    exact Text.trimSpace_ne_empty (chars ▸ .head _) (isSpace_of_idStart pattern.1)

theorem Observation.of_validate (valid : o.validate = .ok ()) :
    Text.trimSpace o.subjectID ≠ "" ∧ o.subjectID.utf8ByteSize ≤ maxSubjectIDBytes ∧
      o.evidence.utf8ByteSize ≤ maxEvidenceBytes ∧ o.status.valid = true := by
  unfold validate at valid
  split at valid
  · cases valid
  rename_i named
  split at valid
  · cases valid
  rename_i known
  simp only [Bool.or_eq_true, beq_iff_eq, decide_eq_true_eq, not_or, not_lt, gt_iff_lt] at named
  exact ⟨named.1.1, named.1.2, named.2, by simpa using known⟩

end Rule

namespace RuleService

open Rule FiniteMap SubjectOutcomeStore FindingStore

variable {record : Rule.Record}
variable {s t : String} {at_ : Time} {observations : List Observation} {materialized : List SubjectOutcome.Record}
  {existing : FiniteMap String SubjectOutcome.Record} {observation : Finding.Observation}

theorem findingKey_text_injective (same : (findingKey record s).text = (findingKey record t).text) : s = t := by
  have lists : s.toList = t.toList := by
    simpa [Finding.Key.text, findingKey] using congrArg String.toList same
  exact String.toList_inj.mp lists

variable (identified : record.identified = true)
include identified

theorem record_bounds : Text.trimSpace record.id ≠ "" ∧ record.id.utf8ByteSize ≤ maxIDBytes ∧ 1 ≤ record.version ∧
    Text.trimSpace record.subjectType ≠ "" ∧ record.subjectType.utf8ByteSize ≤ maxSubjectTypeBytes := by
  simp only [Record.identified, Bool.and_eq_true, bne_iff_ne, decide_eq_true_eq] at identified
  obtain ⟨⟨⟨⟨⟨⟨⟨⟨⟨_, idSize⟩, pattern⟩, version⟩, _⟩, _⟩, _⟩, _⟩, typed⟩, typeSize⟩ := identified
  exact ⟨trimSpace_of_idMatches pattern, idSize, version, typed, typeSize⟩

theorem outcomeKey_valid (valid : o.validate = .ok ()) : (outcomeKey record o.subjectID).valid = true := by
  obtain ⟨id, -, version, type, -⟩ := record_bounds identified
  simp [Key.valid, outcomeKey, id, version, type, (Observation.of_validate valid).1]

theorem findingKey_valid (valid : o.validate = .ok ()) : (findingKey record o.subjectID).validate = .ok () := by
  obtain ⟨id, idSize, version, type, typeSize⟩ := record_bounds identified
  obtain ⟨subject, subjectSize, -, -⟩ := Observation.of_validate valid
  have counted : 0 ≤ record.version := by omega
  unfold Finding.Key.validate
  rw [if_neg]
  simp only [Bool.or_eq_true, beq_iff_eq, decide_eq_true_eq, not_or]
  exact ⟨⟨⟨⟨⟨⟨id, type⟩, subject⟩, Int.not_lt.mpr counted⟩, Nat.not_lt.mpr idSize⟩, Nat.not_lt.mpr typeSize⟩,
    Nat.not_lt.mpr subjectSize⟩

omit identified

theorem apply_ok {existing : Option SubjectOutcome.Record}
    (success : apply existing key o at_ = .ok next) :
    o.validate = .ok () ∧ at_ ≠ 0 ∧ next.key = (existing.map (·.key)).getD key ∧ next.status = o.status ∧
      next.lastObservedAt = at_ := by
  unfold apply at success
  split at success
  · cases success
  split at success
  · cases success
  rename_i valid
  split at success
  · cases success
  rename_i nonzero
  cases success
  exact ⟨valid, by simpa using nonzero, rfl, rfl, rfl⟩

/-- The outcome record `m` belongs to the observation `o` of a page evaluated at `at_`. -/
structure Materialized (record : Rule.Record) (at_ : Time) (o : Observation) (m : SubjectOutcome.Record) : Prop where
  valid : o.validate = .ok ()
  key : m.key = outcomeKey record o.subjectID
  status : m.status = o.status
  observed : m.lastObservedAt = at_

theorem validate_of_materialized (page : List.Forall₂ (Materialized record at_) observations materialized) :
    ∀ o ∈ observations, o.validate = .ok () := by
  induction page with
  | nil => simp
  | cons head _ ih => exact List.forall_mem_cons.mpr ⟨head.valid, ih⟩

/-- Every stored outcome of the rule version has the key it is stored under. -/
def Keyed (record : Rule.Record) (outcomes : SubjectOutcomeStore) : Prop :=
  ∀ s m, outcomes.records.lookup (subjectOutcomeKey (outcomeKey record s)) = some m →
    m.key = outcomeKey record s

theorem lookup_getSubjectOutcomes {outcomes : SubjectOutcomeStore}
    (success : outcomes.getSubjectOutcomes (observations.map fun o => outcomeKey record o.subjectID) = .ok existing)
    (found : existing.lookup s = some m) :
    outcomes.records.lookup (subjectOutcomeKey (outcomeKey record s)) = some m := by
  rw [getSubjectOutcomes] at success
  split at success
  · cases success
    rw [lookup_gather fun t =>
      outcomes.records.lookup (subjectOutcomeKey (outcomeKey record t))] at found
    · split at found
      · exact found
      · cases found
    · intro key member
      obtain ⟨o, -, rfl⟩ := List.mem_map.mp member
      rfl
  · cases success

theorem materialize_ok (keyed : ∀ s m, existing.lookup s = some m → m.key = outcomeKey record s)
    (success : materialize record existing at_ observations = .ok materialized) :
    List.Forall₂ (Materialized record at_) observations materialized ∧ (observations ≠ [] → at_ ≠ 0) := by
  induction observations generalizing materialized with
  | nil =>
    cases success
    exact ⟨.nil, fun none => absurd rfl none⟩
  | cons o rest ih =>
    unfold materialize at success
    split at success
    · cases success
    rename_i next applied
    cases folded : materialize record existing at_ rest with
    | error error =>
      rw [folded] at success
      cases success
    | ok tail =>
      rw [folded] at success
      cases success
      obtain ⟨valid, nonzero, key, status, observed⟩ := apply_ok applied
      refine ⟨.cons ⟨valid, ?_, status, observed⟩ (ih folded).1, fun _ => nonzero⟩
      rw [key]
      cases found : existing.lookup o.subjectID with
      | none => rfl
      | some m => exact keyed _ _ found

/-- The stored outcome of a subject. -/
def outcomeOf (record : Rule.Record) (outcomes : SubjectOutcomeStore) (s : String) : Option SubjectOutcome.Record :=
  outcomes.records.lookup (subjectOutcomeKey (outcomeKey record s))

/-- The stored finding of a subject. -/
def findingOf (record : Rule.Record) (findings : FindingStore) (s : String) : Option Finding.Record :=
  findings.records.lookup (findingKey record s).text

theorem newer_congr (same : outcomeOf record after s = outcomeOf record before s)
    (at_ : Time) : after.newer (outcomeKey record s) at_ = before.newer (outcomeKey record s) at_ := by
  rw [newer, newer]
  exact congrArg (Option.any _) same

/-- Saving a page of distinct subjects stores exactly the records that no newer one stands against. -/
theorem saveSubjectOutcomes_spec
    (identified : record.identified = true) (page : List.Forall₂ (Materialized record at_) observations materialized)
    (distinct : (observations.map (·.subjectID)).Nodup) (outcomes : SubjectOutcomeStore) (applied : List String) :
    ∃ saved now, outcomes.saveSubjectOutcomes materialized applied = (saved, .ok now) ∧ (∀ s, s ∈ now ↔ s ∈ applied ∨
        s ∈ observations.map (·.subjectID) ∧ outcomes.newer (outcomeKey record s) at_ = false) ∧
      (∀ o ∈ observations, outcomes.newer (outcomeKey record o.subjectID) at_ = false →
        ∃ m, outcomeOf record saved o.subjectID = some m ∧ Materialized record at_ o m) ∧
      ∀ s, (s ∈ observations.map (·.subjectID) → outcomes.newer (outcomeKey record s) at_ = true) →
        outcomeOf record saved s = outcomeOf record outcomes s := by
  induction page generalizing outcomes applied with
  | nil => exact ⟨outcomes, applied, rfl, by simp, by simp, fun _ _ => rfl⟩
  | @cons o m rest records head tail ih =>
    obtain ⟨valid, key, status, observed⟩ := head
    rw [List.map_cons, List.nodup_cons] at distinct
    have usable : m.key.valid = true := key ▸ outcomeKey_valid identified valid
    rw [saveSubjectOutcomes, if_neg (by simp [usable]), observed, key]
    by_cases stale : outcomes.newer (outcomeKey record o.subjectID) at_ = true
    · -- a newer outcome is stored: the record is dropped
      rw [if_pos stale]
      obtain ⟨saved, now, result, members, stored, kept⟩ := ih distinct.2 outcomes applied
      refine ⟨saved, now, result, ?_, ?_, ?_⟩
      · intro s
        rw [members, List.map_cons, List.mem_cons]
        constructor
        · exact Or.imp_right (And.imp_left .inr)
        · rintro (old | ⟨rfl | later, fresh⟩)
          · exact .inl old
          · rw [stale] at fresh
            cases fresh
          · exact .inr ⟨later, fresh⟩
      · intro other member fresh
        rcases List.mem_cons.mp member with rfl | later
        · rw [stale] at fresh
          cases fresh
        · exact stored other later fresh
      · intro s old
        exact kept s fun later => old (.tail _ later)
    · rw [if_neg stale]
      let first : SubjectOutcomeStore :=
        { records := outcomes.records.insert (subjectOutcomeKey (outcomeKey record o.subjectID)) m }
      have written (s : String) :
          outcomeOf record first s = if s = o.subjectID then some m else outcomeOf record outcomes s := by
        rw [outcomeOf, lookup_insert]
        exact if_congr ⟨fun same => by simpa [subjectOutcomeKey, outcomeKey] using same, fun same => same ▸ rfl⟩ rfl rfl
      have elsewhere {s : String} (other : s ≠ o.subjectID) :
          first.newer (outcomeKey record s) at_ = outcomes.newer (outcomeKey record s) at_ :=
        newer_congr ((written s).trans (if_neg other)) at_
      have apart {s : String} (later : s ∈ rest.map (·.subjectID)) : s ≠ o.subjectID :=
        fun same => distinct.1 (same ▸ later)
      have fresh : outcomes.newer (outcomeKey record o.subjectID) at_ = false := by simpa using stale
      obtain ⟨saved, now, result, members, stored, kept⟩ := ih distinct.2 first (o.subjectID :: applied)
      refine ⟨saved, now, result, ?_, ?_, ?_⟩
      · intro s
        rw [members, List.map_cons, List.mem_cons, List.mem_cons]
        constructor
        · rintro ((rfl | old) | ⟨later, unseen⟩)
          · exact .inr ⟨.inl rfl, fresh⟩
          · exact .inl old
          · exact .inr ⟨.inr later, elsewhere (apart later) ▸ unseen⟩
        · rintro (old | ⟨rfl | later, unseen⟩)
          · exact .inl (.inr old)
          · exact .inl (.inl rfl)
          · exact .inr ⟨later, elsewhere (apart later) ▸ unseen⟩
      · intro other member unseen
        rcases List.mem_cons.mp member with rfl | later
        · refine ⟨m, ?_, valid, key, status, observed⟩
          rw [kept _ fun again => absurd again distinct.1, written, if_pos rfl]
        · have place := List.mem_map_of_mem (f := (·.subjectID)) later
          exact stored other later ((elsewhere (apart place)).trans unseen)
      · intro s old
        have other : s ≠ o.subjectID := by
          rintro rfl
          rw [old (.head _)] at fresh
          cases fresh
        rw [kept s fun later => (elsewhere other).trans (old (.tail _ later)), written, if_neg other]

theorem lookup_getFindingsForSubjects (findings : FindingStore)
    (identified : record.identified = true) (valid : ∀ o ∈ observations, o.validate = .ok ()) :
    ∃ existing, findings.getFindingsForSubjects (observations.map fun o => findingKey record o.subjectID) = .ok existing ∧
      ∀ o ∈ observations, existing.lookup o.subjectID = findingOf record findings o.subjectID := by
  have passes : (observations.map fun o => findingKey record o.subjectID).all
    (fun key => decide (key.validate = .ok ())) := by
    simp only [List.all_map, List.all_eq_true, Function.comp_apply, decide_eq_true_eq]
    exact fun o member => findingKey_valid identified (valid o member)
  refine ⟨_, if_pos passes, ?_⟩
  intro o member
  rw [lookup_gather (findingOf record findings)]
  · refine if_pos ?_
    rw [List.map_map]
    exact List.mem_map_of_mem (f := (fun key : Finding.Key => key.subjectID) ∘ _) member
  · intro key present
    obtain ⟨_, -, rfl⟩ := List.mem_map.mp present
    rfl

theorem seenAgain_status (existing : Finding.Record) (observation : Finding.Observation) :
    (Finding.seenAgain existing observation).status ≠ .resolved := by
  rw [Finding.seenAgain]
  split
  · simp
  rename_i open_
  split
  · simp
  · exact open_

theorem findingOf_write (findings : FindingStore) (s t : String) (updated : Finding.Record) (event : Finding.Event) :
    findingOf record (findings.write (findingKey record s).text updated event) t =
      if t = s then some updated else findingOf record findings t := by
  rw [findingOf, write, lookup_insert]
  exact if_congr ⟨findingKey_text_injective, fun same => same ▸ rfl⟩ rfl rfl

theorem apply_spec (existing : Option Finding.Record) (valid : observation.validate = .ok ()) :
    ∃ item, Finding.apply existing observation = .ok item ∧ item.status ≠ .resolved := by
  unfold Finding.apply
  rw [valid]
  cases existing with
  | none => exact ⟨_, rfl, by simp⟩
  | some seen => exact ⟨_, rfl, seenAgain_status seen observation⟩

theorem observeFinding_spec (record : Rule.Record) (findings : FindingStore)
    (key : observation.key = findingKey record s) (valid : observation.validate = .ok ()) :
    ∃ item after, findings.observeFinding observation = (.ok item, after) ∧ item.status ≠ .resolved ∧
      ∀ t, findingOf record after t = if t = s then some item else findingOf record findings t := by
  obtain ⟨item, applied, live⟩ := apply_spec (findings.records.lookup (findingKey record s).text) valid
  unfold observeFinding
  rw [valid, key]
  dsimp only
  rw [applied]
  exact ⟨item, _, rfl, live, fun t => findingOf_write findings s t item _⟩

theorem observeFindingPass_spec (findings : FindingStore) (valid : (findingKey record s).validate = .ok ())
    (nonzero : at_ ≠ 0) :
    ∃ item after, findings.observeFindingPass (findingKey record s) at_ = (.ok item, after) ∧
      (∀ finding, findingOf record after s = some finding → finding.status = .resolved) ∧
      ∀ t, t ≠ s → findingOf record after t = findingOf record findings t := by
  unfold observeFindingPass Finding.applyPass
  rw [valid]
  simp only [Time.isZero_eq_true, if_neg nonzero]
  cases present : findings.records.lookup (findingKey record s).text with
  | none =>
    refine ⟨_, _, rfl, ?_, fun _ _ => rfl⟩
    intro finding found
    cases present.symm.trans found
  | some existing =>
    by_cases closed : existing.status = .resolved
    · simp only [if_pos closed]
      refine ⟨_, _, rfl, ?_, fun _ _ => rfl⟩
      intro finding found
      cases present.symm.trans found
      exact closed
    · simp only [if_neg closed]
      refine ⟨_, _, rfl, ?_, ?_⟩
      · intro finding found
        rw [findingOf_write, if_pos rfl] at found
        cases found
        rfl
      · intro t other
        rw [findingOf_write, if_neg other]

end RuleService
end RhinoQ.Model
