import RhinoQ.Proofs.TaskSchema.Write

/-! # One commit for each durable step

The attempts of a step are numbered without a gap, each under the epoch of its number, and only the last one
can be running. A settlement needs the lease of that attempt, and a settled step stays as it is.
-/

namespace RhinoQ.Model.TaskSchema

open FiniteMap Database AttemptRow

variable {after db : Database} {now : Timestamp} {s : String}

/-- An attempt and its step agree. Only the last attempt runs, and only while its step does. -/
structure Agrees (id : String) (attempt : AttemptRow) (step : StepRow) : Prop where
  name : id = attemptID attempt.stepID attempt.attempt
  numbered : 1 ≤ attempt.attempt ∧ attempt.attempt ≤ step.attempt
  epoch : attempt.leaseEpoch = attempt.attempt
  last : attempt.state = .running → attempt.attempt = step.attempt ∧ step.state = .running

/-- The tables of steps and attempts belong together. -/
structure StepsSound (steps : FiniteMap String StepRow) (attempts : FiniteMap String AttemptRow) : Prop where
  unique : ∀ s t a b, steps.lookup s = some a → steps.lookup t = some b → SameKey a b → s = t
  begun : ∀ s step, steps.lookup s = some step → 1 ≤ step.attempt
  owned : ∀ id attempt, attempts.lookup id = some attempt → ∃ step, steps.lookup attempt.stepID = some step ∧
    Agrees id attempt step
  numbered : ∀ s step, steps.lookup s = some step → ∀ n, 1 ≤ n → n ≤ step.attempt →
    ∃ attempt, attempts.lookup (attemptID s n) = some attempt ∧ attempt.stepID = s ∧ attempt.attempt = n

namespace StepsSound

variable {attempt : AttemptRow} {id : String}

variable {steps : FiniteMap String StepRow} {attempts : FiniteMap String AttemptRow}

section
variable (sound : StepsSound steps attempts)
include sound

theorem agrees {step : StepRow}
    (leased : attempts.lookup id = some attempt) (belongs : attempt.stepID = s) (stored : steps.lookup s = some step) :
    Agrees id attempt step := by
  obtain ⟨found, present, agrees⟩ := sound.owned id attempt leased
  subst belongs
  cases stored.symm.trans present
  exact agrees

/-- Writing an attempt again under its grant, where only a running attempt may stay one. -/
theorem rewrite (next : AttemptRow) (stored : attempts.lookup id = some attempt) (grant : SameGrant next attempt)
    (stays : next.state = .running → attempt.state = .running) : StepsSound steps (attempts.insert id next) where
  unique := sound.unique
  begun := sound.begun
  owned k row found := by
    obtain ⟨rfl, rfl⟩ | ⟨_, found⟩ := lookup_insert_cases rfl found
    · obtain ⟨step, present, agrees⟩ := sound.owned k attempt stored
      obtain ⟨belongs, number, epoch⟩ := grant
      refine ⟨step, belongs ▸ present, ?_, ?_, ?_, fun running => ?_⟩
      · rw [belongs, number]
        exact agrees.name
      · rw [number]
        exact agrees.numbered
      · rw [epoch, number]
        exact agrees.epoch
      · rw [number]
        exact agrees.last (stays running)
    · exact sound.owned k row found
  numbered s step present n low high := by
    obtain ⟨row, found, belongs, number⟩ := sound.numbered s step present n low high
    by_cases same : attemptID s n = id
    · have previous : row = attempt := Option.some.inj (found.symm.trans (same ▸ stored))
      refine ⟨next, ?_, ?_, ?_⟩
      · rw [lookup_insert, if_pos same]
      · rw [grant.1, ← previous, belongs]
      · rw [grant.2.1, ← previous, number]
    · exact ⟨row, by rw [lookup_insert, if_neg same]; exact found, belongs, number⟩

/-- Writing a step and its last attempt together, when no other attempt of the step runs. -/
theorem write {step : StepRow} (belongs : attempt.stepID = s) (agrees : Agrees id attempt step)
    (replaces : ∀ row, attempts.lookup id = some row → row.stepID = s ∧ row.attempt = attempt.attempt)
    (extends' : ∀ old, steps.lookup s = some old → old.attempt ≤ step.attempt)
    (covers : ∀ n, 1 ≤ n → n ≤ step.attempt → n = attempt.attempt ∨ ∃ old, steps.lookup s = some old ∧ n ≤ old.attempt)
    (others : ∀ k row, attempts.lookup k = some row → row.stepID = s → k ≠ id → row.state ≠ .running)
    (keys : ∀ t row, steps.lookup t = some row → SameKey row step → t = s) :
    StepsSound (steps.insert s step) (attempts.insert id attempt) where
  unique a b first second storedFirst storedSecond same := by
    obtain ⟨rfl, rfl⟩ | ⟨_, before⟩ := lookup_insert_cases rfl storedFirst
    · obtain ⟨rfl, -⟩ | ⟨_, storedSecond⟩ := lookup_insert_cases rfl storedSecond
      · rfl
      · exact (keys b second storedSecond ⟨same.1.symm, same.2.1.symm, same.2.2.symm⟩).symm
    · obtain ⟨rfl, rfl⟩ | ⟨_, storedSecond⟩ := lookup_insert_cases rfl storedSecond
      · exact keys a first before same
      · exact sound.unique a b first second before storedSecond same
  begun := forall_insert rfl (agrees.numbered.1.trans agrees.numbered.2) sound.begun
  owned k row found := by
    obtain ⟨rfl, rfl⟩ | ⟨different, found⟩ := lookup_insert_cases rfl found
    · exact ⟨step, by rw [lookup_insert, if_pos belongs], agrees⟩
    · obtain ⟨old, present, agrees'⟩ := sound.owned k row found
      rw [lookup_insert]
      split
      next ofStep =>
        rw [ofStep] at present
        refine ⟨step, rfl, agrees'.name, ⟨agrees'.numbered.1, ?_⟩, agrees'.epoch, fun running => ?_⟩
        · exact agrees'.numbered.2.trans (extends' old present)
        · exact absurd running (others k row found ofStep different)
      next => exact ⟨old, present, agrees'⟩
  numbered t row stored n low high := by
    -- an attempt that was there is still there, or is the one that was replaced
    have keeps (found : ∃ old, attempts.lookup (attemptID t n) = some old ∧ old.stepID = t ∧ old.attempt = n) :
        ∃ old, (attempts.insert id attempt).lookup (attemptID t n) = some old ∧ old.stepID = t ∧ old.attempt = n := by
      obtain ⟨old, found, ofStep, number⟩ := found
      rw [lookup_insert]
      split
      next same =>
        obtain ⟨ofSame, sameNumber⟩ := replaces old (same ▸ found)
        exact ⟨attempt, rfl, by rw [belongs, ← ofSame, ofStep], by rw [← sameNumber, number]⟩
      next => exact ⟨old, found, ofStep, number⟩
    obtain ⟨rfl, rfl⟩ | ⟨_, stored⟩ := lookup_insert_cases rfl stored
    · rcases covers n low high with isNew | ⟨old, present, inside⟩
      · have name : attemptID t n = id := by rw [agrees.name, belongs, isNew]
        exact ⟨attempt, by rw [name, lookup_insert, if_pos rfl], belongs, isNew.symm⟩
      · exact keeps (sound.numbered t old present n low inside)
    · exact keeps (sound.numbered t row stored n low high)

end

end StepsSound

namespace Database

variable {s : String}

variable {db : Database}

theorem mem_attemptsOf_iff {id : String} :
    (id, row) ∈ db.attemptsOf s ↔ db.attempts.lookup id = some row ∧ row.stepID = s := by
  rw [attemptsOf, List.mem_filter, beq_iff_eq, ← mem_entries_iff, List.mem_map]
  constructor
  · rintro ⟨⟨entry, present, same⟩, belongs⟩
    cases same
    exact ⟨present, belongs⟩
  · rintro ⟨present, belongs⟩
    exact ⟨⟨_, present, rfl⟩, belongs⟩

/-- The attempt with the highest number is the one the step counts. -/
theorem latestAttempt_eq (sound : StepsSound db.steps db.attempts) {step : StepRow}
    (stored : db.steps.lookup s = some step) :
    ∃ row, db.latestAttempt s = some (attemptID s step.attempt, row) ∧
      db.attempts.lookup (attemptID s step.attempt) = some row ∧
      row.stepID = s ∧ row.attempt = step.attempt ∧ row.leaseEpoch = step.attempt := by
  obtain ⟨counted, found, ofStep, number⟩ := sound.numbered s step stored step.attempt (sound.begun s step stored) le_rfl
  have present := mem_attemptsOf_iff.mpr ⟨found, ofStep⟩
  cases latest : db.latestAttempt s with
  | none =>
    rw [latestAttempt, List.argmax_eq_none] at latest
    rw [latest] at present
    cases present
  | some entry =>
    obtain ⟨id, row⟩ := entry
    obtain ⟨stored', belongs⟩ := mem_attemptsOf_iff.mp (List.argmax_mem latest)
    have agrees := sound.agrees stored' belongs stored
    have most : counted.attempt ≤ row.attempt := List.le_of_mem_argmax (f := fun entry => entry.2.attempt) present latest
    have exact' : row.attempt = step.attempt := le_antisymm agrees.numbered.2 (number ▸ most)
    have name : id = attemptID s step.attempt := by rw [agrees.name, belongs, exact']
    subst name
    exact ⟨row, rfl, stored', belongs, exact', agrees.epoch.trans exact'⟩

/-- Once the last attempt is expired, no attempt of the step runs. -/
theorem expirePrevious_sound (sound : StepsSound db.steps db.attempts) (now : Timestamp) {step : StepRow}
    (stored : db.steps.lookup s = some step) : StepsSound db.steps (db.expirePrevious now (db.latestAttempt s)).attempts ∧
      ∀ k row, (db.expirePrevious now (db.latestAttempt s)).attempts.lookup k = some row → row.stepID = s →
        row.state ≠ .running := by
  obtain ⟨last, latest, found, _⟩ := latestAttempt_eq sound stored
  have name {attempts : FiniteMap String AttemptRow} (sound' : StepsSound db.steps attempts) {k : String} {row : AttemptRow}
      (present : attempts.lookup k = some row) (belongs : row.stepID = s) (running : row.state = .running) :
      k = attemptID s step.attempt := by
    have agrees := sound'.agrees present belongs stored
    rw [agrees.name, belongs, (agrees.last running).1]
  rw [latest, expirePrevious]
  split
  next =>
    have expired := sound.rewrite { last with state := .expired, updatedAt := now, completedAt := some now } found
      ⟨rfl, rfl, rfl⟩ (fun running => nomatch running)
    refine ⟨expired, fun k row present belongs running => ?_⟩
    rw [name expired present belongs running, lookup_insert, if_pos rfl] at present
    cases present
    cases running
  next idle =>
    refine ⟨sound, fun k row present belongs running => ?_⟩
    rw [name sound present belongs running] at present
    cases found.symm.trans present
    exact idle running

end Database

theorem SameKey.trans (first : SameKey a b) (second : SameKey b c) : SameKey a c :=
  ⟨first.1.trans second.1, first.2.1.trans second.2.1, first.2.2.trans second.2.2⟩

theorem StepMove.sound (move : StepMove db now after)
    (sound : StepsSound db.steps db.attempts) : StepsSound after.steps after.attempts := by
  cases move with
  | kept steps attempts =>
    rw [steps, attempts]
    exact sound
  | created s step attempt fresh keys free first running granted steps attempts =>
    rw [steps, attempts]
    obtain ⟨belongs, number, epoch⟩ := granted
    refine sound.write belongs ?_ (fun row found => nomatch free.symm.trans found)
      (fun old found => nomatch fresh.symm.trans found) ?_ ?_ ?_
    · refine ⟨by rw [belongs, number], ?_, by rw [epoch, number], fun _ => ⟨by rw [number, first], running⟩⟩
      rw [number, first]
      exact ⟨le_rfl, le_rfl⟩
    · intro n low high
      rw [first] at high
      exact .inl ((le_antisymm high low).trans number.symm)
    · intro k row found ofStep
      obtain ⟨old, present, _⟩ := sound.owned k row found
      rw [ofStep, fresh] at present
      cases present
    · exact fun t row stored same => absurd same (keys t row stored)
  | continued s step next attempt stored unfinished key free numbered running granted steps attempts =>
    rw [steps, attempts]
    obtain ⟨belongs, number, epoch⟩ := granted
    obtain ⟨expired, idle⟩ := expirePrevious_sound sound now stored
    obtain ⟨last, latest, _, _, _, lastEpoch⟩ := latestAttempt_eq sound stored
    rw [latest] at epoch
    have begun := sound.begun s step stored
    refine expired.write belongs ?_ (fun row found => nomatch free.symm.trans found) ?_ ?_ ?_ ?_
    · refine ⟨by rw [belongs, number], ?_, ?_, fun _ => ⟨by rw [number, numbered], running⟩⟩
      · omega
      · rw [epoch, number, Option.elim_some, lastEpoch]
    · intro old found
      cases stored.symm.trans found
      omega
    · intro n low high
      rcases eq_or_lt_of_le high with last | before
      · exact .inl (by omega)
      · exact .inr ⟨step, stored, by omega⟩
    · exact fun k row found ofStep _ => idle k row found ofStep
    · exact fun t row found same => sound.unique t s row step found stored (same.trans key)
  | renewed lease s id step attempt next presents grant steps attempts =>
    rw [steps, attempts]
    exact sound.rewrite next presents.leased grant fun _ => presents.running.2
  | ended lease s id step step' attempt attempt' presents key numbered grant stopped steps attempts =>
    rw [steps, attempts]
    have agrees := sound.agrees presents.leased presents.belongs presents.stored
    obtain ⟨belongs, number, epoch⟩ := grant
    refine sound.write (belongs.trans presents.belongs) ?_ ?_ ?_ ?_ ?_ ?_
    · refine ⟨?_, ?_, ?_, fun running => absurd running stopped⟩
      · rw [belongs, number]
        exact agrees.name
      · rw [number, numbered]
        exact agrees.numbered
      · rw [epoch, number]
        exact agrees.epoch
    · intro row found
      cases presents.leased.symm.trans found
      exact ⟨presents.belongs, number.symm⟩
    · intro old found
      cases presents.stored.symm.trans found
      exact numbered.ge
    · intro n _ high
      exact .inr ⟨step, presents.stored, numbered ▸ high⟩
    · intro k row found ofStep different running
      have other := sound.agrees found ofStep presents.stored
      apply different
      rw [other.name, agrees.name, ofStep, presents.belongs, (other.last running).1, (agrees.last presents.running.2).1]
    · exact fun t row found same => sound.unique t s row step found presents.stored (same.trans key)

/-- The step has ended for good. -/
def StepRow.Settled (step : StepRow) : Prop := step.state = .completed ∨ step.state = .cancelled

/-- The step is stored as this row, and its attempts are these. -/
def Frozen (s : String) (step : StepRow) (attempts : FiniteMap String AttemptRow) (db : Database) : Prop :=
  db.steps.lookup s = some step ∧
    ∀ id attempt, attempt.stepID = s → (db.attempts.lookup id = some attempt ↔ attempts.lookup id = some attempt)

theorem expirePrevious_others (now : Timestamp) {t : String} (different : s ≠ t) (id : String) {attempt : AttemptRow}
    (belongs : attempt.stepID = s) :
    (db.expirePrevious now (db.latestAttempt t)).attempts.lookup id = some attempt ↔
      db.attempts.lookup id = some attempt := by
  unfold expirePrevious
  split
  · rfl
  rename_i last row latest
  obtain ⟨found, ofStep⟩ := mem_attemptsOf_iff.mp (List.argmax_mem latest)
  split
  next =>
    refine lookup_insert_of_owner stepID ?_ ?_ id (belongs ▸ different)
    · exact ofStep
    · intro old present
      cases found.symm.trans present
      exact ofStep
  · rfl

/-- A move never touches a step that has ended for good, nor its attempts. -/
theorem StepMove.frozen (move : StepMove db now after) {step : StepRow}
    {attempts : FiniteMap String AttemptRow} (settled : step.Settled) (frozen : Frozen s step attempts db) :
    Frozen s step attempts after := by
  obtain ⟨stored, kept⟩ := frozen
  -- a move that writes another step and attempts of that step only
  have elsewhere {t : String} (different : s ≠ t) (steps : after.steps = db.steps ∨
    ∃ row, after.steps = db.steps.insert t row)
      (others : ∀ id attempt, attempt.stepID = s → (after.attempts.lookup id = some attempt ↔
        db.attempts.lookup id = some attempt)) :
      Frozen s step attempts after := by
    refine ⟨?_, fun id attempt belongs => (others id attempt belongs).trans (kept id attempt belongs)⟩
    rcases steps with same | ⟨row, written⟩
    · rw [same, stored]
    · rw [written, lookup_insert, if_neg different, stored]
  have presented {lease : StepLease} {t id : String} {running : StepRow} {attempt next : AttemptRow}
      (presents : Presents db lease t id running attempt) (belongs : next.stepID = attempt.stepID)
      (steps : after.steps = db.steps ∨ ∃ row, after.steps = db.steps.insert t row)
        (written : after.attempts = db.attempts.insert id next) :
      Frozen s step attempts after := by
    have different : s ≠ t := by
      rintro rfl
      cases stored.symm.trans presents.stored
      rcases settled with ended | ended <;> cases ended.symm.trans presents.running.1
    refine elsewhere different steps fun k old own => ?_
    rw [written]
    refine lookup_insert_of_owner stepID (belongs.trans presents.belongs) ?_ k (own ▸ different)
    exact fun previous found => Option.some.inj (presents.leased.symm.trans found) ▸ presents.belongs
  cases move with
  | kept steps same =>
    refine ⟨steps ▸ stored, ?_⟩
    rw [same]
    exact kept
  | created t row attempt fresh keys free first running granted steps written =>
    have different : s ≠ t := by
      rintro rfl
      cases fresh.symm.trans stored
    refine elsewhere different (.inr ⟨_, steps⟩) fun id old belongs => ?_
    rw [written]
    refine lookup_insert_of_owner stepID granted.1 ?_ id (belongs ▸ different)
    exact fun previous found => nomatch free.symm.trans found
  | continued t row next attempt stored' unfinished key free numbered running granted steps written =>
    have different : s ≠ t := by
      rintro rfl
      cases stored.symm.trans stored'
      exact settled.elim unfinished.1 unfinished.2
    refine elsewhere different (.inr ⟨_, steps⟩) fun id old belongs => ?_
    rw [written]
    refine Iff.trans ?_ (expirePrevious_others now different id belongs)
    refine lookup_insert_of_owner stepID granted.1 ?_ id (belongs ▸ different)
    exact fun previous found => nomatch free.symm.trans found
  | renewed lease t k row attempt next presents grant steps written => exact presented presents grant.1 (.inl steps) written
  | ended lease t k row row' attempt attempt' presents key numbered grant stopped steps written =>
    exact presented presents grant.1 (.inr ⟨_, steps⟩) written

/-- The lease that a renewal or a settlement presents. -/
def Command.stepLease : Command → Option StepLease
  | .renewDurableStep lease .. => some lease
  | .completeDurableStep lease .. => some lease
  | .failDurableStep lease .. => some lease
  | .cancelDurableStep lease .. => some lease
  | _ => none

theorem Command.presents {command : Command}
    (presented : command.stepLease = some lease) (success : command.execute db now = .ok after) (changed : after ≠ db) :
    ∃ s id step attempt, Presents db lease s id step attempt := by
  cases command with
  | renewDurableStep =>
    cases presented
    exact (renewDurableStep_stepped success).2
  | completeDurableStep =>
    cases presented
    exact ((completeDurableStep_stepped success).resolve_left changed).2
  | failDurableStep =>
    cases presented
    exact ((failDurableStep_stepped success).resolve_left changed).2
  | cancelDurableStep =>
    cases presented
    exact ((cancelDurableStep_stepped success).resolve_left changed).2
  | _ => cases presented

theorem step_move (taken : step db event = some after) : StepMove db event.now after := by
  rcases step_cases taken with same | success
  · exact same ▸ .kept rfl rfl
  · exact (wrote_of_execute success).stepMove

/-- What holds of the durable steps in a state. -/
structure SingleCommit (initial db : Database) : Prop where
  /-- A task has one step for an item and a key. -/
  unique : ∀ s t a b, db.steps.lookup s = some a → db.steps.lookup t = some b → SameKey a b → s = t
  /-- The attempts of a step are numbered from one to the number that the step carries. -/
  numbered : ∀ s step, db.steps.lookup s = some step → ∀ n, (1 ≤ n ∧ n ≤ step.attempt) ↔
    ∃! id, ∃ attempt, db.attempts.lookup id = some attempt ∧ attempt.stepID = s ∧ attempt.attempt = n
  epoch : ∀ id attempt, db.attempts.lookup id = some attempt → attempt.leaseEpoch = attempt.attempt
  /-- A running attempt is the last one of its step. -/
  running : ∀ s step id attempt, db.steps.lookup s = some step → db.attempts.lookup id = some attempt → attempt.stepID = s →
    attempt.state = .running → attempt.attempt = step.attempt
  /-- At most one attempt of a step is running. -/
  exclusive : ∀ s id id' attempt attempt', db.attempts.lookup id = some attempt → db.attempts.lookup id' = some attempt' →
    attempt.stepID = s → attempt'.stepID = s → attempt.state = .running → attempt'.state = .running → id = id'
  /-- A renewal or settlement that changes something presents the lease of the last attempt while it runs. -/
  fenced : ∀ now command lease after, Command.stepLease command = some lease → step db ⟨now, command⟩ = some after →
    after ≠ db →
    ∃ s id step attempt, Presents db lease s id step attempt ∧ attempt.attempt = step.attempt
  /-- A step that was completed or cancelled keeps its row and its attempts. -/
  final : ∀ s step, db.steps.lookup s = some step → step.Settled → ∀ events later,
    (machine initial).Path Machine.anyStep db events later → Frozen s step db.attempts later

theorem stepsSound_of_reaches (noSteps : initial.steps = ∅) (noAttempts : initial.attempts = ∅)
    (reached : (machine initial).Reaches Machine.anyStep db) : StepsSound db.steps db.attempts := by
  refine reached.invariant (fun state => StepsSound state.steps state.attempts) ?_ fun _ _ _ _ taken =>
    (step_move taken).sound
  have steps : (machine initial).start.steps = ∅ := noSteps
  have attempts : (machine initial).start.attempts = ∅ := noAttempts
  rw [steps, attempts]
  exact ⟨fun _ _ _ _ stored => (by cases stored), fun _ _ stored => (by cases stored), fun _ _ stored =>
    (by cases stored), fun _ _ stored => (by cases stored)⟩

/-- In every state that commands reach, at any clock readings, every durable step has one commit. -/
theorem durable_step_single_commit {initial db : Database} (noSteps : initial.steps = ∅) (noAttempts : initial.attempts = ∅)
    (reached : (machine initial).Reaches Machine.anyStep db) : SingleCommit initial db := by
  have sound := stepsSound_of_reaches noSteps noAttempts reached
  refine ⟨sound.unique, ?_, ?_, ?_, ?_, ?_, ?_⟩
  · intro s step stored n
    constructor
    · rintro ⟨low, high⟩
      refine ⟨attemptID s n, sound.numbered s step stored n low high, ?_⟩
      rintro id ⟨attempt, found, belongs, number⟩
      rw [(sound.agrees found belongs stored).name, belongs, number]
    · rintro ⟨id, ⟨attempt, found, belongs, number⟩, _⟩
      exact number ▸ (sound.agrees found belongs stored).numbered
  · intro id attempt found
    obtain ⟨_, _, agrees⟩ := sound.owned id attempt found
    exact agrees.epoch
  · intro s step id attempt stored found belongs running
    exact ((sound.agrees found belongs stored).last running).1
  · intro s id id' attempt attempt' found found' belongs belongs' running running'
    obtain ⟨step, stored, agrees⟩ := sound.owned id attempt found
    have agrees' := sound.agrees found' (belongs'.trans belongs.symm) stored
    rw [agrees.name, agrees'.name, belongs, belongs', (agrees.last running).1, (agrees'.last running').1]
  · intro now command lease after presented taken changed
    obtain ⟨s, id, step, attempt, presents⟩ := Command.presents presented ((step_cases taken).resolve_left changed) changed
    have agrees := sound.agrees presents.leased presents.belongs presents.stored
    exact ⟨s, id, step, attempt, presents, (agrees.last presents.running.2).1⟩
  · intro s step stored settled events later path
    exact path.invariant (Frozen s step db.attempts) (fun _ _ _ _ taken => (step_move taken).frozen settled)
      ⟨stored, fun _ _ _ => Iff.rfl⟩

/-- A step whose first attempt runs out and whose second one completes it. -/
def retriedStep : List Event :=
  let request : AcquireRequest :=
    { id := some "step", taskID := some "task", executionID := some "run", itemKey := some "item", taskVersion := some 1
      stepKey := some "charge", stepVersion := some 1, leaseOwner := some "worker", leaseMs := some 1000
      maxAttempts := some 3 }
  [⟨0, .createTask "task" "invoice" "tenant" none 1⟩,
    ⟨1, .createExecution "run" "task" (some "item") (some "bullmq") none none⟩,
    ⟨2, .acquireDurableStep request⟩,
    ⟨2000000, .acquireDurableStep request⟩,
    ⟨2000001, .completeDurableStep ⟨some "step", some "step:attempt:2", some "worker", some 2⟩ (some "42") none⟩]

theorem retriedStep_single_commit : ∃ db, (machine {}).Reaches Machine.anyStep db ∧
    ((db.steps.lookup "step").any fun step => step.state == .completed && step.attempt == 2) = true ∧
      SingleCommit {} db := by
  exact Machine.exists_reached_and retriedStep (by decide) fun db reached _ =>
    durable_step_single_commit rfl rfl reached

end RhinoQ.Model.TaskSchema
