import RhinoQ.Proofs.Projector

/-! # Events of a later attempt

An event may carry a later attempt than the recorded one. The projector closes that one if it still runs, but supersedes it
with the version that it read before, and it opens one attempt for each number that is missing. So the later attempt is
recorded only if the earlier one had ended by itself and the number of the event is the next one.
-/

namespace RhinoQ.Model.RuntimeTaskProjector

open TaskSchema TaskClient Machine

/-- The id that the projector gives to the attempt after this one. -/
def nextID (id : String) (row : ExecutionRow) : String := id ++ "#" ++ toString (row.attempt + 1)

/-- The recorded attempt has ended, the number of the event is the next one of its item, and the id of the retry is free. -/
structure Recordable (db : Database) (id : String) (row : ExecutionRow) (n : ℤ) : Prop where
  ended : row.state.finished = true
  following : db.nextAttempt row.taskID row.itemKey = n
  free : db.executions.lookup (nextID id row) = none

/-- The live attempt is the one of the event, in the state that the event implies, and the event changes nothing any more. -/
def Recorded (projector : Projector) (rounds : ℕ) (event : RuntimeEvent) (n : ℤ) (db : Database) : Prop :=
  (∃ id row, LiveRef db event.ref id row ∧ row.attempt = n ∧ row.state = implied event.fact) ∧
    ∀ choices, ((projector.project rounds event).run.play serve choices db).2 = db

theorem consistent_of_reached (reached : (machine {}).Reaches anyStep db) : Consistent db := by
  refine reached.invariant Consistent .empty ?_
  intro s event t _ taken consistent
  rcases step_cases taken with rfl | success
  · exact consistent
  · exact consistent.step success

/-! ## Opening attempts -/

/-- The live attempt is another one. -/
def Missed (ref : RuntimeRef) (n : ℤ) (db : Database) :
    Prop := Consistent db ∧ ∃ id row, LiveRef db ref id row ∧ row.attempt ≠ n

section
variable {ref : RuntimeRef} {n : ℤ} {id : String} {row : ExecutionRow} {db : Database} {rounds left : ℕ}
    {projector : Projector}
variable {post : Post TaskExecution} {current : TaskExecution} {event : RuntimeEvent} {newID : String} {expected : ℤ}

theorem btrim_nextID : btrim (nextID id row) ≠ "" := by
  refine btrim_ne_empty (c := '#') ?_ (by decide)
  simp [nextID]

theorem given_getD (text : String) : (given (some text)).getD "" = text := by
  rw [given, Option.filter_some]
  split
  next => rfl
  rename_i told
  have empty : text = "" := by simpa using told
  exact empty.symm

/-- The reference that the projector looks up again is the one of the attempt. -/
theorem ref_of_live (live : LiveRef db ref id row) :
    ({ runtime := (mapExecution id row).runtime, scope := (mapExecution id row).runtimeScope.getD "",
       externalID := ref.externalID } : RuntimeRef) =
      ref := by
  simp only [mapExecution, given_getD, live.runtime, live.runtimeScope]

theorem asks_convergence (error : Error) :
    Asks (Within fun _ => False) (if isConvergenceError error then pure () else throw error : Async Unit) :=
  .ite .pure .throw

/-- A retry with a version that is not the one of the row, or of an attempt that runs. -/
theorem retryExecution_refused (stored : db.executions.lookup id = some row)
    (refuses : row.version = expected → row.state.finished = false) (now : Timestamp) :
    ∃ failure, (Command.retryExecution id (some expected) newID).execute db now = .error failure := by
  cases result : (Command.retryExecution id (some expected) newID).execute db now with
  | error failure => exact ⟨failure, rfl⟩
  | ok after =>
    obtain ⟨_, _, stored', _, current, finished, _⟩ := retryExecution_eq_ok result
    cases stored.symm.trans stored'
    have same : row.version = expected := by
      simp only [stale, Option.any_some, bne_eq_false_iff_eq] at current
      exact current.symm
    rw [refuses same] at finished
    cases finished

/-- The attempt may have moved, but not without its version. -/
def Moved (ref : RuntimeRef) (id : String) (row : ExecutionRow) (db : Database) : Prop :=
  Consistent db ∧ ∃ next, LiveRef db ref id next ∧ next.attempt = row.attempt ∧ (next = row ∨ row.version < next.version)

theorem moved_ensureExecution (consistent : Consistent db) (live : LiveRef db ref id row) :
    Meets serve solo (ensureExecution rounds id target reason) (fun _ t => Moved ref id row t) db := by
  let P (command : Command) : Prop := ∃ id version target reason, command = .transitionExecution id version target reason
  have asks : Asks (Within P) (ensureExecution rounds id target reason) :=
    asks_ensureExecution (fun _ _ _ _ => ⟨_, _, _, _, rfl⟩) ..
  refine keeps_of_asks asks (fun s t held same => same ▸ held) (fun _ _ _ _ => trivial) ?_
    ⟨consistent, row, live, rfl, .inl rfl⟩
  rintro command now s after ⟨consistent, next, live, attempt, moved⟩ ⟨other, version, target, reason, rfl⟩ success
  obtain ⟨later, live', evolves⟩ := live.step success nofun
  refine ⟨consistent.step success, later, live', evolves.attempt.trans attempt, ?_⟩
  obtain ⟨before, stored, ⟨_, rfl⟩ | ⟨_, _, _, rfl⟩⟩ := transitionExecution_eq_ok success
  · cases live.stored.symm.trans live'.stored
    exact moved
  · obtain ⟨rfl, rfl⟩ | ⟨_, found⟩ := FiniteMap.lookup_insert_cases executions_updateExecution live'.stored
    · cases stored.symm.trans live.stored
      right
      rcases moved with rfl | above
      · exact Int.lt_succ _
      · exact above.trans (Int.lt_succ _)
    · cases live.stored.symm.trans found
      exact moved

theorem find_alive {post : Post (Option TaskExecution)} (consistent : Consistent db) (live : LiveRef db ref id row)
    (found : post (.ok (some (mapExecution id row))) db) : Meets serve solo (find ref) post db :=
  findExecution_alone trivial consistent live found

theorem openAttempts_of_le (reached : n ≤ current.attempt)
    (same : post (.ok current) db) : Meets serve solo (openAttempts rounds n left current) post db := by
  cases left with
  | zero =>
    rw [openAttempts, if_pos reached]
    exact same
  | succ left =>
    rw [openAttempts, if_pos reached]
    exact same

theorem openAttempts_exhausted
    (each : ∀ result, post result db) : Meets serve solo (openAttempts rounds n 0 current) post db := by
  rw [openAttempts]
  split
  next => exact each _
  next => exact each _

/-- The loop after a retry that was refused: the attempt is still the live one. -/
theorem openAttempts_refused {rest : TaskExecution → Async TaskExecution}
    (consistent : Consistent db) (live : LiveRef db ref id next) (named : current.id = id)
    (fails : ∀ now, ∃ failure, (Command.retryExecution id (some expected) newID).execute db now = .error
      failure) : Meets serve solo (do
      tryCatch (do let _ ← retryTaskExecution id expected newID; pure ()) fun error =>
        if isConvergenceError error then pure () else throw error
      match ← find ref with
      | none => pure current
      | some replacement => if replacement.id = current.id then pure current else rest replacement)
      (fun _ t => t = db) db := by
  refine (retryCaught_refused live.stored fails asks_convergence).bind ?_ fun _ _ same => same
  rintro _ _ rfl
  refine meets_bind.mpr (find_alive consistent live ?_)
  change Meets serve solo (if _ then _ else _) _ _
  have same : (mapExecution id next).id = current.id := named.symm
  rw [if_pos same]
  rfl

section
variable (consistent : Consistent db) (live : LiveRef db ref id row) (less : row.attempt < n)
include consistent live less

/-- The loop beyond an attempt with a lower number. -/
theorem openAttempts_succ : openAttempts rounds n (left + 1) (mapExecution id row) = (do
      closeAttempt rounds (mapExecution id row)
      tryCatch (do let _ ← retryTaskExecution id row.version (nextID id row); pure ()) fun error =>
        if isConvergenceError error then pure () else throw error
      match ← find ref with
      | none => pure (mapExecution id row)
      | some replacement =>
        if replacement.id = (mapExecution id row).id then pure (mapExecution id row)
        else openAttempts rounds n left replacement) := by
  have further : ¬n ≤ (mapExecution id row).attempt := not_le.mpr less
  rw [openAttempts, if_neg further, mapExecution_externalID consistent live]
  simp only [ref_of_live live]
  rfl

/-- An attempt that runs is closed, and then stays the live one. -/
theorem openAttempts_running (running : row.state.finished = false) :
    Meets serve solo (openAttempts rounds n left (mapExecution id row)) (fun _ t => Missed ref n t) db := by
  have missed {t : Database} (moved : Moved ref id row t) : Missed ref n t := by
    obtain ⟨consistent, next, live, attempt, _⟩ := moved
    exact ⟨consistent, id, next, live, (attempt.trans_lt less).ne⟩
  cases left with
  | zero => exact openAttempts_exhausted fun _ => ⟨consistent, id, row, live, less.ne⟩
  | succ left =>
    rw [openAttempts_succ consistent live less]
    have closes : closeAttempt rounds (mapExecution id row) = ensureExecution rounds id .stalled none :=
      if_neg (by simp [mapExecution, running])
    rw [closes]
    refine (moved_ensureExecution consistent live).bind (fun _ t moved => ?_) fun _ t moved => missed moved
    have opened := moved
    obtain ⟨consistent, next, live, attempt, unmoved⟩ := opened
    refine (openAttempts_refused consistent live rfl (retryExecution_refused live.stored fun same => ?_)).mono ?_
    · rcases unmoved with rfl | above
      · exact running
      · exact absurd same above.ne'
    · rintro _ _ rfl
      exact missed moved

theorem openAttempts_retried (finished : row.state.finished = true) (free : db.executions.lookup (nextID id row) = none)
    (failed : ∀ t next error, Consistent t → LiveRef t ref (nextID id row) next →
      next.attempt = db.nextAttempt row.taskID row.itemKey →
      post (.error error) t)
    (opened : ∀ t next, Consistent t → LiveRef t ref (nextID id row) next →
      next.attempt = db.nextAttempt row.taskID row.itemKey →
      next.state = .dispatched → Meets serve solo (openAttempts rounds n left (mapExecution (nextID id row) next)) post t) :
    Meets serve solo (openAttempts rounds n (left + 1) (mapExecution id row)) post db := by
  have away : nextID id row ≠ id := by
    intro same
    rw [same, live.stored] at free
    cases free
  have closes : closeAttempt rounds (mapExecution id row) = pure () := if_pos finished
  rw [openAttempts_succ consistent live less, closes]
  refine meets_bind.mpr ?_
  refine (retryCaught_next consistent live finished btrim_nextID free asks_convergence).bind ?_ ?_
  · rintro _ t ⟨consistent, next, live, attempt, dispatched, _⟩
    refine meets_bind.mpr (find_alive consistent live ?_)
    change Meets serve solo (if _ then _ else _) _ _
    have differs : (mapExecution (nextID id row) next).id ≠ (mapExecution id row).id := away
    rw [if_neg differs]
    exact opened t next consistent live attempt dispatched
  · rintro error t ⟨consistent, next, live, attempt, _⟩
    exact failed t next error consistent live attempt

theorem openAttempts_misses (unrecordable : ¬Recordable db id row n) :
    Meets serve solo (openAttempts rounds n left (mapExecution id row)) (fun _ t => Missed ref n t) db := by
  cases finished : row.state.finished with
  | false => exact openAttempts_running consistent live less finished
  | true =>
    cases left with
    | zero => exact openAttempts_exhausted fun _ => ⟨consistent, id, row, live, less.ne⟩
    | succ left =>
      cases taken : db.executions.lookup (nextID id row) with
      | some other =>
        have closes : closeAttempt rounds (mapExecution id row) = pure () := if_pos finished
        rw [openAttempts_succ consistent live less, closes]
        refine meets_bind.mpr ?_
        have fails (now : Timestamp) : ∃ failure, (Command.retryExecution id (some row.version) (nextID id row)).execute
          db now = .error failure :=
          ⟨_, retryExecution_taken live.stored live.live finished btrim_nextID taken⟩
        refine (openAttempts_refused consistent live rfl fails).mono ?_
        rintro _ _ rfl
        exact ⟨consistent, id, row, live, less.ne⟩
      | none =>
        have other : db.nextAttempt row.taskID row.itemKey ≠ n := fun following => unrecordable ⟨finished, following, taken⟩
        refine openAttempts_retried consistent live less finished taken ?_ ?_
        · exact fun t next error consistent live attempt => ⟨consistent, _, next, live, attempt.trans_ne other⟩
        · intro t next consistent live attempt dispatched
          rcases lt_or_ge next.attempt n with less | reached
          · exact openAttempts_running consistent live less (by rw [dispatched]; rfl)
          · exact openAttempts_of_le reached ⟨consistent, _, next, live, attempt.trans_ne other⟩

theorem openAttempts_records (recordable : Recordable db id row n) :
    Settles serve solo (fun _ => True) (openAttempts rounds n left (mapExecution id row))
      (fun current t => ∃ taskID v, Stands ⟨ref, n, nextID id row, taskID⟩ v t ∧ v.state = .dispatched ∧
        ShowsAttempt ⟨ref, n, nextID id row, taskID⟩ v current) db := by
  cases left with
  | zero =>
    have further : ¬n ≤ (mapExecution id row).attempt := not_le.mpr less
    rw [openAttempts, if_neg further]
    exact .throw trivial
  | succ left =>
    refine openAttempts_retried consistent live less recordable.ended recordable.free
      (fun _ _ _ _ _ _ => ⟨trivial, nofun⟩) ?_
    intro t next consistent live attempt dispatched
    obtain ⟨task, stands⟩ := Stands.of_live consistent live
    rw [attempt, recordable.following] at stands
    refine openAttempts_of_le (recordable.following ▸ attempt.ge) ⟨trivial, ?_⟩
    rintro _ ⟨⟩
    exact ⟨_, _, stands, dispatched, rfl, rfl, rfl⟩

end

/-! ## One event -/

/-- What an event that carries a number does once its reference is found, if it is valid. -/
theorem project_alive {post : Post Unit} (consistent : Consistent db)
    (live : LiveRef db event.ref id row) (numbered : event.attempt = some n) (invalid : ∀ error, post (.error error) db)
    (valid : Meets serve solo (do
      let current ← openAttempts rounds n rounds (mapExecution id row)
      projector.apply rounds current event.fact) post db) :
    Meets serve solo (projector.project rounds event) post db := by
  have asks : Asks (Within fun _ => False) (validateRuntimeEvent event) := by
    have text (value field : String) : Asks (Within fun _ => False) (requireText value field) := .ite .throw .pure
    refine .bind (.bind (text ..) fun _ => .bind (text ..) fun _ => text ..) fun _ => .ite .throw ?_
    cases event.fact with
    | progressed progress => exact .ite .throw <| .ite .throw .pure
    | uncertain reason => exact text ..
    | _ => exact .pure
  refine meets_bind.mpr (reads_solo asks fun result => ?_)
  cases result with
  | error error => exact invalid error
  | ok value =>
    refine meets_bind.mpr (meets_bind.mpr (find_alive consistent live ?_))
    simp only [andThen, numbered]
    exact valid

section
variable (consistent : Consistent db) (live : LiveRef db event.ref id row) (less : row.attempt < n)
  (numbered : event.attempt = some n)
include consistent live less numbered

theorem project_misses (unrecordable : ¬Recordable db id row n) :
    Meets serve solo (projector.project rounds event) (fun _ t => Missed event.ref n t) db := by
  refine project_alive consistent live numbered (fun _ => ⟨consistent, id, row, live, less.ne⟩) ?_
  refine (openAttempts_misses consistent live less unrecordable).bind (fun current t missed => ?_) fun _ _ missed => missed
  refine keeps_of_asks (asks_apply ..) (fun s t held same => same ▸ held) (fun _ _ _ _ => trivial) ?_ missed
  rintro command now s after ⟨consistent, id, row, live, other⟩ none success
  obtain ⟨next, live', evolves⟩ := live.step success none
  exact ⟨consistent.step success, id, next, live', evolves.attempt.trans_ne other⟩

theorem project_records (recordable : Recordable db id row n) :
    Settles serve solo (fun _ => True) (projector.project rounds event) (fun _ t => ∃ taskID w,
      Stands ⟨event.ref, n, nextID id row, taskID⟩ w t ∧ w.state = implied event.fact ∧ Asked projector w event.fact)
        db := by
  refine project_alive consistent live numbered (fun _ => ⟨trivial, nofun⟩) ?_
  refine Settles.bind (openAttempts_records consistent live less recordable) ?_
  rintro current t - ⟨taskID, v, stands, dispatched, shows⟩
  exact (settles_apply shows dispatched stands event.fact).mono fun _ t _ held => ⟨taskID, held⟩

end

theorem project_quiet (stands : Stands ⟨event.ref, n, id, taskID⟩ w db)
    (numbered : event.attempt = some n) (there : w.state = implied event.fact) (asked : Asked projector w event.fact) :
    Settles serve solo (· = db) (projector.project rounds event) (fun _ _ => True) db := by
  obtain ⟨row, task, live, rfl, owner, stored, rfl⟩ := stands.rows
  refine project_alive stands.consistent live numbered (fun _ => ⟨rfl, nofun⟩) ?_
  refine meets_bind.mpr (openAttempts_of_le le_rfl ?_)
  exact quiet_apply event.fact ⟨rfl, owner, rfl⟩ stands there asked

/-- An event of a later attempt that resolves is recorded exactly if the recorded attempt had ended, the number is the
next one, and the id of the retry is free. -/
theorem later_recorded_iff {event : RuntimeEvent} {choices : ℕ → Choice} (reached : (machine {}).Reaches anyStep db)
    (live : LiveRef db event.ref id row) (less : row.attempt < n) (numbered : event.attempt = some n)
    (resolves : ((projector.project rounds event).run.play serve choices db).1 = .ok ()) :
    Recorded projector rounds event n ((projector.project rounds event).run.play serve choices db).2 ↔
      Recordable db id row n := by
  have consistent := consistent_of_reached reached
  constructor
  · rintro ⟨⟨id', row', live', number, _⟩, _⟩
    by_contra unrecordable
    obtain ⟨consistent', _, _, live'', other⟩ := (project_misses consistent live less numbered unrecordable).play choices
    obtain ⟨_, rfl⟩ := live'.unique consistent' live''
    exact other number
  · intro recordable
    obtain ⟨_, after⟩ := (project_records consistent live less numbered recordable).play choices
    obtain ⟨taskID, w, stands, there, asked⟩ := after () resolves
    refine ⟨?_, fun choices => ((project_quiet stands numbered there asked).play choices).1⟩
    obtain ⟨row', task, live', number, _, _, rfl⟩ := stands.rows
    exact ⟨_, row', live', number, there⟩

end

/-! ## Runs on fixed inputs -/

/-- An application that supplies nothing. -/
def unsupplied : Choice where
  now := 7
  answer _ := .error (.error "not supplied")

/-- One attempt of one task, bound to the job `x`, that runs. -/
def runningAttempt : List Event :=
  [⟨1, .createTask "T" "batch" "default" none 1⟩, ⟨2, .createExecution "a" "T" (some "a") (some "r") (some "q") (some "x")⟩,
    ⟨3, .transitionExecution "a" (some 1) .running none⟩]

/-- The second attempt of the job starts. -/
def secondStarts : RuntimeEvent := { ref := ⟨"r", "q", "x"⟩, attempt := some 2, fact := .started }

def eager : Projector := { terminalProjection := .singleExecution }

/-- How the tables stand after the second attempt was reported. -/
def reported (db : Database) : Except Error Unit × Database := (eager.project 3 secondStarts).run.play serve
    (fun _ => unsupplied) db

/-- The first attempt had failed. -/
theorem later_recorded_after_failure : ∃ db id row, (machine {}).Reaches anyStep db ∧ LiveRef db secondStarts.ref id row ∧
    row.attempt = 1 ∧ Recorded eager 3 secondStarts 2 (reported db).2 := by
  obtain ⟨db, reached, ⟨id, row⟩, found, number, ended, following, free, resolved⟩ := exists_reached (m := machine {})
    (runningAttempt ++ [⟨4, .transitionExecution "a" (some 2) .failed none⟩])
    (P := fun db => ∃ entry, db.liveReference "r" "q" "x" = some entry ∧ entry.2.attempt = 1 ∧
      entry.2.state.finished = true ∧
      db.nextAttempt entry.2.taskID entry.2.itemKey = 2 ∧ db.executions.lookup (nextID entry.1 entry.2) = none ∧
      (reported db).1.toOption.isSome = true) (by decide)
  have live : LiveRef db secondStarts.ref id row := (liveReference_eq_some (consistent_of_reached reached)).mp found
  obtain ⟨_, resolves⟩ := exists_ok_of_toOption resolved
  have less : row.attempt < 2 := number.trans_lt (by decide)
  exact ⟨db, id, row, reached, live, number, (later_recorded_iff reached live less rfl resolves).mpr
    ⟨ended, following, free⟩⟩

/-- The first attempt still ran: it is stalled, and the second is not recorded. -/
theorem later_unrecorded_while_running : ∃ db id row, (machine {}).Reaches anyStep db ∧ LiveRef db secondStarts.ref id row ∧
    row.attempt = 1 ∧ (reported db).1 = .ok () ∧
    (∃ id' row', LiveRef (reported db).2 secondStarts.ref id' row' ∧ row'.attempt = 1 ∧ row'.state = .stalled) ∧
    ¬Recorded eager 3 secondStarts 2 (reported db).2 := by
  obtain ⟨db, reached, ⟨id, row⟩, first, number, resolved, ⟨id', row'⟩, last, passed⟩ := exists_reached (m := machine {})
    runningAttempt (P := fun db => ∃ entry, db.liveReference "r" "q" "x" = some entry ∧ entry.2.attempt = 1 ∧
      (reported db).1.toOption.isSome = true ∧ ∃ entry, (reported db).2.liveReference "r" "q" "x" = some entry ∧
        entry.2.attempt = 1 ∧ entry.2.state = .stalled) (by decide)
  have consistent := consistent_of_reached reached
  have consistent' : Consistent (reported db).2 := consistent_play _ _ consistent
  have live : LiveRef db secondStarts.ref id row := (liveReference_eq_some consistent).mp first
  have live' : LiveRef (reported db).2 secondStarts.ref id' row' := (liveReference_eq_some consistent').mp last
  obtain ⟨_, resolves⟩ := exists_ok_of_toOption resolved
  refine ⟨db, id, row, reached, live, number, resolves, ⟨id', row', live', passed⟩, ?_⟩
  rintro ⟨⟨_, other, live'', second, _⟩, _⟩
  obtain ⟨_, rfl⟩ := live''.unique consistent' live'
  cases second.symm.trans passed.1

end RhinoQ.Model.RuntimeTaskProjector
