import RhinoQ.Proofs.Rule.Stores

/-! # Findings follow the latest outcome

An evaluation saves the outcomes of its page first and owes a finding to every conclusive one until it folds
the findings. As long as no evaluation stores a conclusive outcome for a subject to which another one owes a
finding, what it read of the findings stays true until it folds them.
-/

namespace RhinoQ.Model.RuleService

open Rule Pool Stage

variable (record : Record)
variable {page : Page} {existing : FiniteMap String Finding.Record} {o : Observation} {m : SubjectOutcome.Record}
  {q : Pool Stores Stage} {event : Event}

/-- The finding of `s` is the one that its outcome asks for. -/
def Projected (stores : Stores) (s : String) : Prop :=
  ∀ m, outcomeOf record stores.outcomes s = some m →
    (m.status = .violated → ∃ finding, findingOf record stores.findings s = some finding ∧ finding.status ≠ .resolved) ∧
    (m.status = .passed → ∀ finding, findingOf record stores.findings s = some finding → finding.status = .resolved)

/-- The observation was stored and is conclusive. -/
def due (page : Page) (o : Observation) : Bool := decide (o.subjectID ∈ page.applied) && decide (o.status ≠ .unknown)

/-- The stored conclusive observations whose finding an evaluation has not folded yet. -/
def Stage.owed : Stage → List Observation
  | .getFindings page => page.evaluation.observations.filter (due page)
  | .fold page _ remaining _ => (remaining.map Prod.fst).filter (due page)
  | _ => []

/-- A page names no subject twice, and an evaluation saves a conclusive outcome only when no other
evaluation owes a finding to its subject. -/
def Orderly (p : Pool Stores Stage) : Event → Prop
  | .begin _ evaluation => (evaluation.observations.map (·.subjectID)).Nodup
  | .advance i => ∀ evaluation materialized, p.thread i = .saveOutcomes evaluation materialized →
      ∀ o ∈ evaluation.observations, o.status ≠ .unknown →
        p.shared.outcomes.newer (outcomeKey record o.subjectID) evaluation.evaluatedAt = false →
          ∀ j, j ≠ i → ∀ q ∈ (p.thread j).owed, q.subjectID ≠ o.subjectID

/-- What an evaluation knows about its own page. -/
def Stage.Sound : Stage → Prop
  | .getOutcomes evaluation => (evaluation.observations.map (·.subjectID)).Nodup
  | .saveOutcomes evaluation materialized => (evaluation.observations.map (·.subjectID)).Nodup ∧
      List.Forall₂ (Materialized record evaluation.evaluatedAt) evaluation.observations materialized ∧
      (evaluation.observations ≠ [] → evaluation.evaluatedAt ≠ 0)
  | .getFindings page => (page.evaluation.observations.map (·.subjectID)).Nodup ∧
      List.Forall₂ (Materialized record page.evaluation.evaluatedAt) page.evaluation.observations page.materialized ∧
      (page.evaluation.observations ≠ [] → page.evaluation.evaluatedAt ≠ 0)
  | .fold page _ remaining _ => (remaining.map (·.1.subjectID)).Nodup ∧
      (∀ entry ∈ remaining, entry.1.validate = .ok ()) ∧ (remaining ≠ [] → page.evaluation.evaluatedAt ≠ 0)
  | _ => True

/-- The findings that an evaluation read for the subjects it owes are the stored ones. -/
def Stage.Accurate (findings : FindingStore) : Stage → Prop
  | .fold page existing remaining changed => ∀ o ∈ owed (.fold page existing remaining changed),
      existing.lookup o.subjectID = findingOf record findings o.subjectID
  | _ => True

structure Consistent (p : Pool Stores Stage) : Prop where
  keyed : Keyed record p.shared.outcomes
  sound : ∀ i, (p.thread i).Sound record
  accurate : ∀ i, (p.thread i).Accurate record p.shared.findings
  current : ∀ i, ∀ o ∈ (p.thread i).owed, ∀ m, outcomeOf record p.shared.outcomes o.subjectID = some m →
    m.status = o.status ∨ m.status = .unknown
  alone : ∀ i j, ∀ o ∈ (p.thread i).owed, ∀ q ∈ (p.thread j).owed, o.subjectID = q.subjectID → i = j
  projected : ∀ s, (∀ i, ∀ o ∈ (p.thread i).owed, o.subjectID ≠ s) → Projected record p.shared s

variable {record} {unknownEvidence : Observation → String} {p : Pool Stores Stage} {i : ℕ} {initial : Stores}

/-- With the policy to ask again, an observation whose finding is not owed changes nothing. -/
theorem foldOne_of_not_due (findings : FindingStore) (retries : record.onUnknown ≠ .opensFinding)
    (paid : due page o = false) : foldOne record unknownEvidence page existing findings o m = (.ok none, findings) := by
  have silent : call record unknownEvidence page existing o m = none := by
    unfold call
    by_cases stored : o.subjectID ∈ page.applied
    · have unknown : o.status = .unknown := by simpa [due, stored] using paid
      simp [stored, unknown, retries]
    · simp [stored]
  rw [foldOne, silent]

/-- Folding an owed observation gives its subject the finding it asks for and touches no other. -/
theorem foldOne_of_due (identified : record.identified = true)
    (valid : o.validate = .ok ()) (nonzero : page.evaluation.evaluatedAt ≠ 0) (owed : due page o = true)
    (accurate : existing.lookup o.subjectID = findingOf record findings o.subjectID) :
    ∃ item after, foldOne record unknownEvidence page existing findings o m = (.ok item, after) ∧
      (∀ t, t ≠ o.subjectID → findingOf record after t = findingOf record findings t) ∧
      (o.status = .violated → ∃ finding, findingOf record after o.subjectID = some finding ∧ finding.status ≠ .resolved) ∧
      (o.status = .passed → ∀ finding, findingOf record after o.subjectID = some finding → finding.status = .resolved) := by
  obtain ⟨stored, conclusive⟩ : o.subjectID ∈ page.applied ∧ o.status ≠ .unknown := by simpa [due] using owed
  obtain ⟨_, _, evidence, known⟩ := Observation.of_validate valid
  have key := findingKey_valid identified valid
  unfold foldOne call
  rw [if_neg (not_not.mpr stored)]
  cases status : o.status with
  | unknown => exact absurd status conclusive
  | other text =>
    rw [status] at known
    cases known
  | violated =>
    have accepted : Finding.Observation.validate
        { key := findingKey record o.subjectID, evidence := o.evidence,
          observedAt := page.evaluation.evaluatedAt } = .ok () := by
      unfold Finding.Observation.validate
      rw [key]
      dsimp only
      rw [if_neg (by simpa using nonzero)]
      exact if_neg (Nat.not_lt.mpr evidence)
    obtain ⟨item, after, performed, live, others⟩ := observeFinding_spec record findings rfl accepted
    refine ⟨some item, after, ?_, ?_, ?_, ?_⟩
    · dsimp only [perform]
      rw [performed]
      rfl
    · intro t other
      rw [others, if_neg other]
    · exact fun _ => ⟨item, by rw [others, if_pos rfl], live⟩
    · rintro ⟨⟩
  | passed =>
    cases found : existing.lookup o.subjectID with
    | none =>
      refine ⟨none, findings, rfl, fun _ _ => rfl, by rintro ⟨⟩, ?_⟩
      intro _ finding present
      rw [← accurate, found] at present
      cases present
    | some finding =>
      by_cases closed : finding.status = .resolved
      · refine ⟨none, findings, ?_, fun _ _ => rfl, by rintro ⟨⟩, ?_⟩
        · dsimp only
          rw [if_pos closed]
        · intro _ other present
          rw [← accurate, found] at present
          cases present
          exact closed
      · obtain ⟨item, after, performed, resolved, others⟩ := observeFindingPass_spec findings key nonzero
        refine ⟨item, after, ?_, others, by rintro ⟨⟩, fun _ => resolved⟩
        dsimp only
        rw [if_neg closed]
        exact performed

theorem Consistent.quiet {stage current : Stage} (inv : Consistent record p) (at_ : p.thread i = current)
    (sound : stage.Sound record) (accurate : stage.Accurate record p.shared.findings)
    (owed : stage.owed = current.owed) : Consistent record (p.move i p.shared stage) := by
  have same (j : ℕ) : ((p.move i p.shared stage).thread j).owed = (p.thread j).owed := by
    by_cases own : j = i
    · rw [own, move_thread_self, owed, at_]
    · rw [move_thread_of_ne own]
  refine ⟨inv.keyed, ?_, ?_, ?_, ?_, ?_⟩
  · exact forall_move (fun _ => Sound record) inv.sound sound fun _ _ kept => kept
  · exact forall_move (fun stores : Stores => Accurate record stores.findings) inv.accurate accurate fun _ _ kept => kept
  · intro j o member
    exact inv.current j o (same j ▸ member)
  · intro j k o member q other
    exact inv.alone j k o (same j ▸ member) q (same k ▸ other)
  · intro s free
    exact inv.projected s fun j o member => free j o (same j ▸ member)

section
variable {p : Pool Stores Stage} {i : ℕ} (inv : Consistent record p) (identified : record.identified = true)
include inv identified

theorem Consistent.save (stage : p.thread i = .saveOutcomes evaluation materialized)
    (orderly : Orderly record p (.advance i)) :
    ∃ saved applied, p.shared.outcomes.saveSubjectOutcomes materialized [] = (saved, .ok applied) ∧
      Consistent record (p.move i { p.shared with outcomes := saved }
        (.getFindings { evaluation, materialized, applied })) := by
  obtain ⟨distinct, page, nonzero⟩ : (evaluation.observations.map (·.subjectID)).Nodup ∧
      List.Forall₂ (Materialized record evaluation.evaluatedAt) evaluation.observations materialized ∧
      (evaluation.observations ≠ [] → evaluation.evaluatedAt ≠ 0) := by
    have sound := inv.sound i
    rwa [stage] at sound
  obtain ⟨saved, applied, result, members, stored, kept⟩ :=
    saveSubjectOutcomes_spec identified page distinct p.shared.outcomes []
  refine ⟨saved, applied, result, ?_⟩
  replace members (s : String) : s ∈ applied ↔ s ∈ evaluation.observations.map (·.subjectID) ∧
      p.shared.outcomes.newer (outcomeKey record s) evaluation.evaluatedAt = false := by simpa using members s
  let after := p.move i { p.shared with outcomes := saved } (.getFindings { evaluation, materialized, applied })
  have own : (after.thread i).owed = evaluation.observations.filter (due { evaluation, materialized, applied }) := by
    rw [move_thread_self]
    rfl
  have mine {o : Observation} (member : o ∈ (after.thread i).owed) : o ∈ evaluation.observations ∧ o.status ≠ .unknown ∧
      p.shared.outcomes.newer (outcomeKey record o.subjectID) evaluation.evaluatedAt = false := by
    rw [own, List.mem_filter] at member
    obtain ⟨listed, conclusive⟩ := member
    obtain ⟨place, sure⟩ : o.subjectID ∈ applied ∧ o.status ≠ .unknown := by simpa [due] using conclusive
    exact ⟨listed, sure, ((members _).mp place).2⟩
  have others {j : ℕ} (other : j ≠ i) : (after.thread j).owed = (p.thread j).owed := by
    rw [move_thread_of_ne other]
  -- the outcome of a subject is new and belongs to an observation of the page, or it is the old one
  have changed (s : String) : (∃ o ∈ evaluation.observations, o.subjectID = s ∧
      p.shared.outcomes.newer (outcomeKey record s) evaluation.evaluatedAt = false ∧
      ∃ m, outcomeOf record saved s = some m ∧ Materialized record evaluation.evaluatedAt o m) ∨
      outcomeOf record saved s = outcomeOf record p.shared.outcomes s := by
    by_cases fresh : s ∈ applied
    · obtain ⟨listed, unseen⟩ := (members s).mp fresh
      obtain ⟨o, member, rfl⟩ := List.mem_map.mp listed
      exact .inl ⟨o, member, rfl, unseen, stored o member unseen⟩
    · refine .inr (kept s fun listed => ?_)
      by_contra seen
      exact fresh ((members s).mpr ⟨listed, by simpa using seen⟩)
  refine ⟨?_, ?_, ?_, ?_, ?_, ?_⟩
  · intro s m found
    obtain ⟨o, -, rfl, -, m', place, materialized⟩ | old := changed s
    · cases place.symm.trans found
      exact materialized.key
    · exact inv.keyed s m (old.symm.trans found)
  · exact forall_move (fun _ => Sound record) inv.sound ⟨distinct, page, nonzero⟩ fun _ _ kept => kept
  · exact forall_move (fun stores : Stores => Accurate record stores.findings) inv.accurate trivial fun _ _ kept => kept
  · intro j o member m found
    by_cases ours : j = i
    · subst ours
      obtain ⟨listed, -, unseen⟩ := mine member
      obtain ⟨m', place, materialized⟩ := stored o listed unseen
      cases place.symm.trans found
      exact .inl materialized.status
    · rw [others ours] at member
      obtain ⟨q, listed, same, unseen, m', place, materialized⟩ | old := changed o.subjectID
      · cases place.symm.trans found
        -- a conclusive observation of the page would meet the debt of the other evaluation
        right
        rw [materialized.status]
        by_contra conclusive
        exact orderly evaluation _ stage q listed conclusive (same ▸ unseen) j ours o member same.symm
      · exact inv.current j o member m (old ▸ found)
  · intro j k o member q other same
    by_cases left : j = i <;> by_cases right : k = i
    · rw [left, right]
    · subst left
      obtain ⟨listed, conclusive, unseen⟩ := mine member
      rw [others right] at other
      exact absurd same.symm (orderly evaluation _ stage o listed conclusive unseen k right q other)
    · subst right
      obtain ⟨listed, conclusive, unseen⟩ := mine other
      rw [others left] at member
      exact absurd same (orderly evaluation _ stage q listed conclusive unseen j left o member)
    · rw [others left] at member
      rw [others right] at other
      exact inv.alone j k o member q other same
  · intro s free m found
    obtain ⟨o, listed, rfl, unseen, m', place, materialized⟩ | old := changed s
    · cases place.symm.trans found
      have unsure : m.status = .unknown := by
        rw [materialized.status]
        by_contra conclusive
        refine free i o ?_ rfl
        rw [own, List.mem_filter]
        have fresh := (members o.subjectID).mpr ⟨List.mem_map_of_mem (f := (·.subjectID)) listed, unseen⟩
        exact ⟨listed, by simp [due, fresh, conclusive]⟩
      rw [unsure]
      exact ⟨by rintro ⟨⟩, by rintro ⟨⟩⟩
    · refine inv.projected s ?_ m (old ▸ found)
      intro j o member
      by_cases ours : j = i
      · rw [ours, stage] at member
        cases member
      · exact free j o (others ours ▸ member)

theorem Consistent.foldNext (unknownEvidence : Observation → String) (retries : record.onUnknown ≠ .opensFinding)
    (stage : p.thread i = .fold page existing ((o, m) :: rest) changed) :
    ∃ item findings, foldOne record unknownEvidence page existing p.shared.findings o m = (.ok item, findings) ∧
      Consistent record (p.move i { p.shared with findings } (.fold page existing rest (changed ++ item.toList))) := by
  obtain ⟨distinct, valid, nonzero⟩ : (((o, m) :: rest).map (·.1.subjectID)).Nodup ∧
      (∀ entry ∈ (o, m) :: rest, entry.1.validate = .ok ()) ∧ ((o, m) :: rest ≠ [] → page.evaluation.evaluatedAt ≠ 0) := by
    have sound := inv.sound i
    rwa [stage] at sound
  have accurate : ∀ q ∈ (p.thread i).owed, existing.lookup q.subjectID = findingOf record p.shared.findings q.subjectID := by
    have read := inv.accurate i
    rwa [stage] at read ⊢
  have before : (p.thread i).owed = (o :: rest.map Prod.fst).filter (due page) := by
    rw [stage]
    rfl
  rw [List.map_cons, List.nodup_cons] at distinct
  have sound (changed : List Finding.Record) : Sound record (.fold page existing rest changed) :=
    ⟨distinct.2, fun entry member => valid entry (.tail _ member), fun _ => nonzero (by simp)⟩
  by_cases owing : due page o = true
  · rw [List.filter_cons_of_pos owing] at before
    have first : o ∈ (p.thread i).owed := before ▸ .head _
    obtain ⟨item, findings, folded, others, violated, passed⟩ :=
      foldOne_of_due identified (valid _ (.head _)) (nonzero (by simp)) owing (accurate o first)
    refine ⟨item, findings, folded, ?_⟩
    let after := p.move i { p.shared with findings } (.fold page existing rest (changed ++ item.toList))
    have own : (after.thread i).owed = (rest.map Prod.fst).filter (due page) := by
      rw [move_thread_self]
      rfl
    have fewer (j : ℕ) {q : Observation} (member : q ∈ (after.thread j).owed) : q ∈ (p.thread j).owed := by
      by_cases ours : j = i
      · rw [ours, own] at member
        rw [ours, before]
        exact .tail _ member
      · rwa [move_thread_of_ne ours] at member
    -- no debt that is left is to the subject whose finding was written
    have apart (j : ℕ) {q : Observation} (member : q ∈ (after.thread j).owed) : q.subjectID ≠ o.subjectID := by
      intro same
      by_cases ours : j = i
      · rw [ours, own] at member
        obtain ⟨entry, listed, rfl⟩ := List.mem_map.mp (List.mem_filter.mp member).1
        exact distinct.1 (same ▸ List.mem_map_of_mem (f := fun e : Observation × SubjectOutcome.Record => e.1.subjectID)
          listed)
      · exact ours (inv.alone j i q (fewer j member) o first same)
    refine ⟨inv.keyed, ?_, ?_, ?_, ?_, ?_⟩
    · exact forall_move (fun _ => Sound record) inv.sound (sound _) fun _ _ kept => kept
    · intro j
      by_cases ours : j = i
      · subst ours
        rw [move_thread_self]
        intro q member
        have left : q ∈ (after.thread j).owed := own ▸ member
        rw [accurate q (fewer j left)]
        exact (others _ (apart j left)).symm
      · rw [move_thread_of_ne ours]
        have read := inv.accurate j
        cases other : p.thread j with
        | fold page existing remaining changed =>
          rw [other] at read
          intro q member
          have left : q ∈ (after.thread j).owed := by rwa [move_thread_of_ne ours, other]
          exact (read q member).trans (others _ (apart j left)).symm
        | _ => trivial
    · exact fun j q member => inv.current j q (fewer j member)
    · exact fun j k q member r other => inv.alone j k q (fewer j member) r (fewer k other)
    · intro s free m' found
      by_cases same : s = o.subjectID
      · subst same
        obtain status | unsure := inv.current i o first m' found
        · rw [status]
          exact ⟨violated, passed⟩
        · rw [unsure]
          exact ⟨by rintro ⟨⟩, by rintro ⟨⟩⟩
      · have settled := inv.projected s (fun j q member equal => ?_) m' found
        · rw [← others s same] at settled
          exact settled
        · by_cases ours : j = i
          · rw [ours, before] at member
            rcases List.mem_cons.mp member with rfl | later
            · exact same equal.symm
            · exact free i q (own ▸ later) equal
          · exact free j q (by rwa [move_thread_of_ne ours]) equal
  · refine ⟨none, p.shared.findings, foldOne_of_not_due _ retries (by simpa using owing), ?_⟩
    rw [List.filter_cons_of_neg owing] at before
    exact inv.quiet stage (sound _) (fun q member => accurate q (before ▸ member)) (List.filter_cons_of_neg owing).symm

theorem Consistent.step (retries : record.onUnknown ≠ .opensFinding)
    (orderly : Orderly record p event) (taken : step record unknownEvidence p event = some q) :
    Consistent record q := by
  cases event with
  | begin i evaluation =>
    simp only [step] at taken
    split at taken
    next idle =>
      cases taken
      split
      · exact inv.quiet idle trivial trivial rfl
      · exact inv.quiet idle orderly trivial rfl
    · cases taken
  | advance i =>
    obtain ⟨⟨stores, stage⟩, moved, rfl⟩ := Option.map_eq_some_iff.mp taken
    have sound := inv.sound i
    cases at_ : p.thread i with
    | idle =>
      rw [at_] at moved
      cases moved
    | finished changed error =>
      rw [at_] at moved
      cases moved
    | getOutcomes evaluation =>
      rw [at_] at moved sound
      unfold advance at moved
      dsimp only at moved
      split at moved
      · cases moved
        exact inv.quiet at_ trivial trivial rfl
      next existing read =>
        split at moved
        · cases moved
          exact inv.quiet at_ trivial trivial rfl
        next materialized folded =>
          cases moved
          obtain ⟨page, nonzero⟩ :=
            materialize_ok (fun s m found => inv.keyed s m (lookup_getSubjectOutcomes read found)) folded
          exact inv.quiet at_ ⟨sound, page, nonzero⟩ trivial rfl
    | saveOutcomes evaluation materialized =>
      obtain ⟨saved, applied, result, kept⟩ := inv.save identified at_ orderly
      rw [at_] at moved
      unfold advance at moved
      dsimp only at moved
      rw [result] at moved
      cases moved
      exact kept
    | getFindings page =>
      rw [at_] at moved sound
      obtain ⟨distinct, materialized, nonzero⟩ := sound
      have valid := validate_of_materialized materialized
      obtain ⟨existing, read, agree⟩ := lookup_getFindingsForSubjects p.shared.findings identified valid
      unfold advance at moved
      dsimp only at moved
      rw [read] at moved
      cases moved
      have firsts : (page.evaluation.observations.zip page.materialized).map Prod.fst = page.evaluation.observations :=
        List.map_fst_zip (le_of_eq materialized.length_eq)
      have owed : owed (.fold page existing (page.evaluation.observations.zip page.materialized) []) =
          owed (.getFindings page) := congrArg (List.filter (due page)) firsts
      refine inv.quiet at_ ⟨?_, ?_, ?_⟩ ?_ owed
      · rw [← firsts, List.map_map] at distinct
        exact distinct
      · exact fun entry member => valid _ (List.of_mem_zip member).1
      · exact fun some => nonzero fun none => some (by rw [none]; rfl)
      · intro o member
        rw [owed] at member
        exact agree o (List.mem_filter.mp member).1
    | fold page existing remaining changed =>
      cases remaining with
      | nil =>
        rw [at_] at moved
        cases moved
        exact inv.quiet at_ trivial trivial rfl
      | cons entry rest =>
        obtain ⟨item, findings, folded, kept⟩ := inv.foldNext identified unknownEvidence retries at_
        rw [at_] at moved
        unfold advance at moved
        dsimp only at moved
        rw [folded] at moved
        cases moved
        exact kept

end

/-- Stores in which every outcome has its own key and every subject the finding its outcome asks for. -/
def Stores.Settled (record : Record) (stores : Stores) : Prop :=
  Keyed record stores.outcomes ∧ ∀ s, Projected record stores s

theorem Consistent.start (settled : initial.Settled record) :
    Consistent record (machine record unknownEvidence initial).start where
  keyed := settled.1
  sound _ := trivial
  accurate _ := trivial
  current _ _ member := by cases member
  alone _ _ _ member := by cases member
  projected s _ := settled.2 s

/-- In an orderly run every subject to which no evaluation owes a finding has the finding that its
outcome asks for; once all evaluations are at rest, this is every subject. -/
theorem findings_follow_outcomes (valid : record.validate = .ok ()) (retries : record.onUnknown = .retries)
    {initial : Stores} (settled : initial.Settled record) {p : Pool Stores Stage}
    (reached : (machine record unknownEvidence initial).Reaches (Orderly record) p)
    (atRest : ∀ i, (p.thread i).atRest = true) (s : String) : Projected record p.shared s := by
  have identified := (Record.of_validate valid).1
  have inv : Consistent record p := by
    apply reached.invariant (Consistent record) (Consistent.start settled)
    intro source event target orderly step inv
    exact inv.step identified (by rw [retries]; simp) orderly step
  apply inv.projected s
  intro i o member
  have rest := atRest i
  cases stage : p.thread i with
  | idle | finished =>
    rw [stage] at member
    cases member
  | _ =>
    rw [stage] at rest
    cases rest

/-! ## Two evaluations of one subject -/

def Event.evaluation : Event → Option ℕ
  | .begin i _ => some i
  | .advance i => some i

theorem step_thread (taken : step record unknownEvidence p event = some q) (j : ℕ)
    (other : event.evaluation ≠ some j) : q.thread j = p.thread j := by
  cases event with
  | begin i evaluation =>
    simp only [step] at taken
    split at taken
    · cases taken
      exact move_thread_of_ne fun same => other (same ▸ rfl)
    · cases taken
  | advance i =>
    obtain ⟨next, -, rfl⟩ := Option.map_eq_some_iff.mp taken
    exact move_thread_of_ne fun same => other (same ▸ rfl)

/-- The condition, asked of the first `n` evaluations. -/
def orderlyAmong (record : Record) (n : ℕ) (p : Pool Stores Stage) : Event → Bool
  | .begin i evaluation => decide (i < n) && decide ((evaluation.observations.map (·.subjectID)).Nodup)
  | .advance i => decide (i < n) &&
    match p.thread i with
    | .saveOutcomes evaluation _ => evaluation.observations.all fun o =>
        o.status == .unknown || p.shared.outcomes.newer (outcomeKey record o.subjectID) evaluation.evaluatedAt ||
          (List.range n).all fun j => j == i || (p.thread j).owed.all (·.subjectID != o.subjectID)
    | _ => true

theorem orderly_of_among (idle : ∀ j, n ≤ j → (p.thread j).owed = []) (passed : orderlyAmong record n p event = true) :
    Orderly record p event ∧ ∀ j, event.evaluation = some j → j < n := by
  cases event with
  | begin i evaluation => simp_all [orderlyAmong, Orderly, Event.evaluation]
  | advance i =>
    simp only [orderlyAmong, Bool.and_eq_true, decide_eq_true_eq] at passed
    refine ⟨fun evaluation materialized stage o member conclusive current j other q owed => ?_, fun j own => ?_⟩
    · rw [stage] at passed
      have among : j < n := by
        by_contra beyond
        rw [idle j (Nat.le_of_not_lt beyond)] at owed
        cases owed
      have checked := List.all_eq_true.mp passed.2 o member
      simp only [Bool.or_eq_true, beq_iff_eq, conclusive, current, Bool.false_eq_true, false_or, List.all_eq_true,
        List.mem_range, bne_iff_ne] at checked
      exact (checked j among).resolve_left other q owed
    · cases own
      exact passed.1

/-- A run of the first `n` evaluations that was checked is orderly. -/
theorem path_of_orderlyAmong (path : (machine record unknownEvidence initial).Path
    (fun p e => orderlyAmong record n p e = true) p events q)
    (idle : ∀ j, n ≤ j → (p.thread j).owed = []) :
    (machine record unknownEvidence initial).Path (Orderly record) p events q := by
  induction path with
  | nil => exact .nil _
  | cons passed taken _ ih =>
    obtain ⟨orderly, early⟩ := orderly_of_among idle passed
    refine .cons orderly taken (ih fun j beyond => ?_)
    rw [step_thread taken j fun own => Nat.not_lt.mpr beyond (early j own)]
    exact idle j beyond

def paidRule : Record :=
  { id := "orders.paid", version := 1, name := "Paid orders", scope := .table, status := .enabled, subjectType := "order"
    query := "select $1 $2 $3", baselineAt := 1, every := Duration.second, maxRows := 10, onUnknown := .retries
    cursor := .subject, statementTimeout := Duration.second, maxPlanCost := 1, maxSeqScanRows := 1 }

/-- A page that concludes `status` about the order `o-1`. -/
def verdict (status : ObservationStatus) (evaluatedAt : Time) : Evaluation :=
  { observations := [{ subjectID := "o-1", status }], evaluatedAt }

def blank : Observation → String := fun _ => ""

/-- The evaluation of time 2 begins while the one of time 1 has still to open its finding, and stores its pass after that. -/
def overlap : List Event :=
  [.begin 0 (verdict .violated 1), .advance 0, .advance 0, .begin 1 (verdict .passed 2), .advance 1, .advance 0, .advance 0,
   .advance 0, .advance 1, .advance 1, .advance 1, .advance 1]

/-- Of two evaluations that overlap, the later one resolves the finding that the earlier one has opened. -/
theorem findings_follow_overlap : ∃ p, (machine paidRule blank {}).Reaches (Orderly paidRule) p ∧
    (outcomeOf paidRule p.shared.outcomes "o-1").map (·.status) = some .passed ∧
    ∃ finding, findingOf paidRule p.shared.findings "o-1" = some finding ∧ finding.status = .resolved := by
  obtain ⟨p, ran, ⟨first, second⟩, status, finding, found⟩ : ∃ p,
      (machine paidRule blank {}).runChecked (orderlyAmong paidRule 2) (machine paidRule blank {}).start overlap = some p ∧
      ((p.thread 0).atRest = true ∧ (p.thread 1).atRest = true) ∧
      (outcomeOf paidRule p.shared.outcomes "o-1").map (·.status) = some .passed ∧
      ∃ finding, findingOf paidRule p.shared.findings "o-1" = some finding := by
    simp only [← Option.isSome_iff_exists]
    decide
  have path := path_of_orderlyAmong (Machine.path_of_runChecked (fun _ _ passed => passed) ran) fun _ _ => rfl
  obtain ⟨m, stored, passed⟩ := Option.map_eq_some_iff.mp status
  refine ⟨p, ⟨_, path⟩, status, finding, found, ?_⟩
  refine (findings_follow_outcomes (by decide) rfl ⟨by rintro _ _ ⟨⟩, by rintro _ _ ⟨⟩⟩ ⟨_, path⟩
    (fun i => ?_) "o-1" m stored).2 passed
    finding found
  match i with
  | 0 => exact first
  | 1 => exact second
  | i + 2 =>
    rw [thread_of_path Event.evaluation (fun _ _ _ taken => step_thread taken) path (n := 2) (by decide) (by omega)]
    rfl

/-- The violation of time 1 is stored first and folded last. -/
def race : List Event :=
  [.begin 0 (verdict .violated 1), .advance 0, .advance 0, .begin 1 (verdict .passed 2), .advance 1, .advance 1, .advance 1,
   .advance 1, .advance 1, .advance 0, .advance 0, .advance 0]

/-- The evaluation of time 2 stores the pass and finds no finding to resolve, and the evaluation of time
1 opens one afterwards. -/
theorem stale_violation_opens_finding :
    ∃ p, (machine paidRule blank {}).run (machine paidRule blank {}).start race = some p ∧
    (∀ i, (p.thread i).atRest = true) ∧ (outcomeOf paidRule p.shared.outcomes "o-1").map (·.status) = some .passed ∧
    (findingOf paidRule p.shared.findings "o-1").map (·.status) = some .opened := by
  obtain ⟨p, run, ⟨first, second⟩, statuses⟩ : ∃ p, (machine paidRule blank {}).run
    (machine paidRule blank {}).start race = some p ∧
      ((p.thread 0).atRest = true ∧ (p.thread 1).atRest = true) ∧
        (outcomeOf paidRule p.shared.outcomes "o-1").map (·.status) = some .passed ∧
          (findingOf paidRule p.shared.findings "o-1").map (·.status) = some .opened := by
    decide
  refine ⟨p, run, ?_, statuses⟩
  intro i
  by_cases own : i < 2
  · obtain rfl | rfl : i = 0 ∨ i = 1 := by omega
    · exact first
    · exact second
  · rw [thread_of_path Event.evaluation (fun _ _ _ taken => step_thread taken) (Machine.path_of_run run) (n := 2)
      (by decide) (by omega)]
    rfl

end RhinoQ.Model.RuleService
