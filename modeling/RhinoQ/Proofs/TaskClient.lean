import RhinoQ.Model.TaskClient
import RhinoQ.Proofs.TaskSchema.Retry

/-! # Programs of the client

The rules by which a program of client calls is followed: what one statement does to the tables, what
each method asks, and what a loop over version conflicts keeps.
-/

namespace RhinoQ.Model.TaskClient

open TaskSchema

/-- What may hold when a program ends. -/
abbrev Post (α : Type) := Except Error α → Database → Prop

variable {handler : Error → Async Unit} {post : Post TaskSnapshot}

variable {α : Type} {db s : Database} {law : Law Database Query} {P : Command → Prop} {inv : Database → Prop}
  {id runtime scope external externalID newID name : String} {version expected : ℤ} {command : Command} {row : ExecutionRow}
  {task : TaskRow} {target : TaskState} {reason : Option String} {progress : TaskProgress} {callback : Callback}
    {operation x : Async α}
  {choice : Choice} {after : Unit → Database → Prop}

theorem serve_step {P : Database → Database → Prop} (q : Query) (refl : P db db)
    (step : ∀ (command : Command) now after, command.execute db now = .ok after → P db after) :
    P db (serve choice db q).2 := by
  cases q with
  | command command =>
    simp only [serve]
    split
    next => exact refl
    next after success => exact step command choice.now after success
  | settle taskID => exact step (.settleItems taskID) choice.now _ rfl
  | snapshot | summary | execution | reference | callback => exact refl

theorem consistent_serve (consistent : Consistent db) (q : Query) : Consistent (serve choice db q).2 :=
  serve_step (P := fun _ after => Consistent after) q consistent fun _ _ _ success => consistent.step success

theorem consistent_play (p : Program Query Query.Answer α) (choices : ℕ → Choice) (consistent : Consistent db) :
    Consistent (p.play serve choices db).2 := by
  have kept (choice : Choice) (s : Database) (query : Query) (held : Consistent s) : Consistent (serve choice s query).2 :=
    consistent_serve held query
  exact Program.play_invariant kept p choices consistent

theorem topped_serve (topped : Topped db) (q : Query) : Topped (serve choice db q).2 :=
  serve_step (P := fun _ after => Topped after) q topped fun _ _ _ success => topped.step success

theorem evolves_serve (q : Query) :
    Evolves db (serve choice db q).2 := serve_step q (.refl db) fun _ _ _ success => .step success

/-! ## Single statements -/

theorem meets_execute {post : Post Unit}
    (each : ∀ t, law.rely s t → law.ok t (.command command) ∧ ∀ now,
      (∀ after, command.execute t now = .ok after → post (.ok ()) after) ∧
      ∀ failure, command.execute t now = .error failure → post (.error (mapDatabaseError failure)) t) :
    Meets serve law (execute command) post s := by
  refine meets_bind.mpr (meets_query.mpr fun t between => ?_)
  obtain ⟨met, results⟩ := each t between
  refine ⟨met, fun choice => ?_⟩
  obtain ⟨done, failed⟩ := results choice.now
  cases result : command.execute t choice.now with
  | ok after =>
    simp only [serve, result]
    exact done after result
  | error failure =>
    simp only [serve, result]
    exact failed failure result

theorem visibleTask_unscoped : db.visibleTask id none none = db.tasks.lookup id := by
  cases found : db.tasks.lookup id <;> simp [Database.visibleTask, found]

/-- A query that answers with what it finds, if anything. -/
theorem meets_optional {a : Option β → q.Answer} {o : Database → Option γ} {view : Database → γ → β}
    {post : Post α} (served : ∀ choice t, serve choice t q = (a ((o t).map (view t)), t))
    (each : ∀ t, law.rely s t → law.ok t q ∧ (o t = none → Meets serve law (f (a none)) post t) ∧
      ∀ row, o t = some row → Meets serve law (f (a (some (view t row)))) post t) : Meets serve law
        (query q >>= f) post s := by
  refine meets_bind.mpr (meets_query.mpr fun t between => ?_)
  obtain ⟨met, missing, present⟩ := each t between
  refine ⟨met, fun choice => ?_⟩
  rw [served]
  cases found : o t with
  | none => exact missing found
  | some row => exact present row found

theorem meets_getTask (unnamed : untold id = true → post (.error (.typeError "task id is required")) s)
    (each : untold id = false → ∀ t, law.rely s t → law.ok t (.snapshot id) ∧
      (t.tasks.lookup id = none → post (.error (.rhinoq "RHINOQ_TASK_NOT_FOUND" id)) t) ∧
      ∀ row, t.tasks.lookup id = some row → post (.ok (mapSnapshot id row (t.executionSummaries id))) t) :
    Meets serve law (getTask id) post s := by
  unfold getTask
  cases named : untold id with
  | true => exact unnamed named
  | false =>
    refine meets_optional (a := fun x => x) (fun _ t => ?_) (each named)
    rw [serve, Database.snapshot, visibleTask_unscoped]

theorem meets_getTaskSummary {post : Post TaskSummary}
    (unnamed : untold id = true → post (.error (.typeError "task id is required")) s)
    (each : untold id = false → ∀ t, law.rely s t → law.ok t (.summary id) ∧
      (t.tasks.lookup id = none → post (.error (.rhinoq "RHINOQ_TASK_NOT_FOUND" id)) t) ∧
      ∀ row, t.tasks.lookup id = some row → post (.ok (mapSummary id row (t.itemCounts id))) t) :
    Meets serve law (getTaskSummary id) post s := by
  unfold getTaskSummary
  cases named : untold id with
  | true => exact unnamed named
  | false =>
    refine meets_optional (a := fun x => x) (fun _ t => ?_) (each named)
    rw [serve, visibleTask_unscoped]

theorem meets_getTaskExecution {post : Post TaskExecution}
    (each : ∀ t, law.rely s t → law.ok t (.execution id) ∧
      (t.executions.lookup id = none → post (.error (.rhinoq "RHINOQ_EXECUTION_NOT_FOUND" id)) t) ∧
      ∀ row, t.executions.lookup id = some row → post (.ok (mapExecution id row)) t) :
    Meets serve law (getTaskExecution id) post s := meets_optional (a := fun x => x) (fun _ _ => rfl) each

theorem liveReference_eq_some (consistent : Consistent db) :
    db.liveReference runtime scope external = some (id, row) ↔ LiveAt db runtime scope external id row := by
  have sound {i : String} {a : ExecutionRow} (found : db.liveReference runtime scope external = some (i, a)) :
      LiveAt db runtime scope external i a := by
    obtain ⟨entry, present, mapped⟩ := List.mem_map.mp (List.mem_of_find?_eq_some found)
    cases mapped
    have test := List.find?_some found
    simp only [Bool.and_eq_true, beq_iff_eq, ExecutionRow.live, Option.isNone_iff_eq_none] at test
    exact ⟨FiniteMap.mem_entries_iff.mp present, test.2, test.1.1.1, test.1.1.2, test.1.2⟩
  refine ⟨sound, fun live => ?_⟩
  cases found : db.liveReference runtime scope external with
  | none =>
    have absent := List.find?_eq_none.mp found (id, row)
      (List.mem_map.mpr ⟨⟨id, row⟩, FiniteMap.mem_entries_iff.mpr live.stored, rfl⟩)
    simp [ExecutionRow.live, live.live, live.runtime, live.runtimeScope, live.externalID] at absent
  | some entry =>
    obtain ⟨rfl, rfl⟩ := (sound found).unique consistent live
    rfl

theorem liveReference_eq_none (consistent : Consistent db) :
    db.liveReference runtime scope external = none ↔ ∀ id row, ¬LiveAt db runtime scope external id row := by
  constructor
  · intro absent id row live
    rw [(liveReference_eq_some consistent).mpr live] at absent
    cases absent
  · intro absent
    cases found : db.liveReference runtime scope external with
    | none => rfl
    | some entry => exact absurd ((liveReference_eq_some consistent).mp found) (absent entry.1 entry.2)

theorem meets_findExecution {post : Post (Option TaskExecution)}
    (each : ∀ t, law.rely s t → law.ok t (.reference runtime scope externalID) ∧
      (t.liveReference runtime scope externalID = none → post (.ok none) t) ∧
      ∀ id row, t.liveReference runtime scope externalID = some (id, row) → post (.ok (some (mapExecution id row))) t) :
    Meets serve law (findExecution runtime externalID scope) post s := by
  refine meets_tryCatch.mpr (meets_bind.mpr (meets_optional (a := fun x => x) (fun _ _ => rfl) fun t between => ?_))
  obtain ⟨met, missing, present⟩ := each t between
  exact ⟨met, missing, fun entry => present entry.1 entry.2⟩

theorem meets_validateVersion {post : Post Unit} (valid : 0 < version → post (.ok ()) s)
    (invalid : version ≤ 0 → post (.error (.rangeError (name ++ " must be a positive integer"))) s) :
    Meets serve law (validateVersion version name) post s := by
  unfold validateVersion
  split
  next small => exact invalid small
  next large => exact valid (by omega)

/-- A loop over conflicts: `inv` holds whenever the operation starts, and `post` when the loop ends. -/
theorem meets_convergeWith {post : Post α} (once : ∀ s, inv s → Meets serve law operation
      (andThen (fun value t => post (.ok value) t) fun error t => inv t ∧ post (.error error) t) s)
    (left : ℕ) (initial : inv s) : Meets serve law (convergeWith operation left) post s := by
  induction left generalizing s with
  | zero =>
    refine meets_tryCatch.mpr ((once s initial).mono fun result t held => ?_)
    cases result with
    | ok value => exact held
    | error error =>
      change Meets serve law (if _ then _ else _) post t
      split
      next => exact held.2
      next => exact held.2
  | succ left ih =>
    refine meets_tryCatch.mpr ((once s initial).mono fun result t held => ?_)
    cases result with
    | ok value => exact held
    | error error =>
      change Meets serve law (if _ then _ else _) post t
      split
      next => exact ih held.1
      next => exact held.2

theorem meets_converge_of_ok {post : Post α}
    (once : Meets serve law operation (andThen (fun value t => post (.ok value) t) fun _ _ => False) s) :
    Meets serve law (converge operation) post s := by
  refine meets_tryCatch.mpr (once.mono fun result t held => ?_)
  cases result with
  | ok value => exact held
  | error error => exact held.elim

/-! ## What the methods ask -/

/-- Reads and callbacks, and the commands that `P` allows. -/
def Within (P : Command → Prop) : Query → Prop
  | .command command => P command
  | .settle taskID => P (.settleItems taskID)
  | _ => True

/-- An invariant that the allowed commands keep, and the others too. -/
theorem keeps_of_asks
    (asks : Asks (Within P) x) (others : ∀ s t, inv s → law.rely s t → inv t) (met : ∀ s q, inv s → Within P q → law.ok s q)
    (kept : ∀ (command : Command) now s after, inv s → P command → command.execute s now = .ok after → inv after)
      (initial : inv s) :
    Meets serve law x (fun _ t => inv t) s := by
  refine asks.meets others met (fun choice s q held may => ?_) initial
  cases q with
  | command command =>
    simp only [serve]
    split
    next => exact held
    next after success => exact kept command choice.now s after held may success
  | settle taskID => exact kept (.settleItems taskID) choice.now s _ held may rfl
  | snapshot | summary | execution | reference | callback => exact held

theorem asks_execute (may : P command) : Asks (Within P) (execute command) := by
  refine .bind (.query may) fun result => ?_
  cases result with
  | ok value => exact .pure
  | error failure => exact .throw

theorem asks_call : Asks (Within P) (call callback) := by
  refine .bind (.query trivial) fun result => ?_
  cases result with
  | ok reply => exact .pure
  | error error => exact .throw

theorem asks_validateVersion : Asks (Within P) (validateVersion version name) :=
  .ite .throw .pure

theorem asks_getTask : Asks (Within P) (getTask id) :=
  .ite .throw <| .option (.query trivial) .throw fun _ => .pure

theorem asks_getTaskSummary : Asks (Within P) (getTaskSummary id) :=
  .ite .throw <| .option (.query trivial) .throw fun _ => .pure

theorem asks_getTaskExecution : Asks (Within P) (getTaskExecution id) :=
  .option (.query trivial) .throw fun _ => .pure

theorem asks_findExecution : Asks (Within P) (findExecution runtime externalID scope) :=
  .tryCatch (.bind (.option (.query trivial) .throw fun _ => .pure) fun _ => .pure) fun _ => .ite .pure .throw

theorem asks_convergeWith (asks : Asks (Within P) operation) (left : ℕ) : Asks (Within P) (convergeWith operation left) := by
  induction left with
  | zero => exact .tryCatch asks fun _ => .ite .throw .throw
  | succ left ih => exact .tryCatch asks fun _ => .ite ih .throw

theorem asks_converge (asks : Asks (Within P) operation) : Asks (Within P) (converge operation) :=
  asks_convergeWith asks 9

theorem asks_createTask (may : ∀ tenantID version, P (.createTask request.id request.type tenantID request.ownerID
    version)) :
    Asks (Within P) (createTask request) :=
  .ite .throw <| .ite .throw <| .bind (asks_execute (may _ _)) fun _ => asks_getTask

theorem asks_createTaskExecutionAck
    (may : ∀ itemKey runtime runtimeScope externalID, P
      (.createExecution request.id taskID itemKey runtime runtimeScope externalID)) :
    Asks (Within P) (createTaskExecutionAck taskID request) := .ite .throw <| asks_execute (may _ _ _ _)

theorem asks_transitionTask (may : ∀ version, P (.transitionTask id (some version) target))
    (queued : target = .running → ∀ version, P (.transitionTask id (some version) .queued)) :
    Asks (Within P) (transitionTask id expected target) := by
  have direct : Asks (Within P) (do execute (.transitionTask id (some expected) target); getTask id) :=
    .bind (asks_execute (may _)) fun _ => asks_getTask
  refine .bind asks_validateVersion fun _ => .branch (fun running => .bind asks_getTask fun _ => .ite ?_ direct)
    fun _ => direct
  exact .bind (asks_execute (queued running _)) fun _ => .bind (asks_execute (may _)) fun _ => asks_getTask

theorem asks_transitionTaskExecutionAck {target : ExecutionState}
    (may : P (.transitionExecution id (some expected) target reason)) :
    Asks (Within P) (transitionTaskExecutionAck id expected target reason) :=
      .bind asks_validateVersion fun _ => asks_execute may

theorem asks_reportTaskProgress
    (may : P (.reportProgress id (some expected) progress.completed
      (some (progress.total.getD 0)) progress.total.isSome progress.message)) :
    Asks (Within P) (reportTaskProgress id expected progress) :=
  .bind asks_validateVersion fun _ =>
    .bind (.ite .throw <| .ite .throw .pure) fun _ => .bind (asks_execute may) fun _ => asks_getTask

/-- A command that is fenced on a version. -/
theorem asks_fenced (may : P command) : Asks (Within P) (do validateVersion version name; execute command; getTask id) :=
  .bind asks_validateVersion fun _ => .bind (asks_execute may) fun _ => asks_getTask

theorem asks_syncTaskItemProgress (may : P (.syncItemProgress id)) : Asks (Within P) (syncTaskItemProgress id) :=
  .ite .throw <| asks_execute may

/-! ## An invariant under a law -/

/-- A law under which the others keep an invariant, and a query that is no command is free. -/
structure Framed (law : Law Database Query) (inv : Database → Prop) : Prop where
  stable : ∀ s t, inv s → law.rely s t → inv t
  free : ∀ t q, inv t → Within (fun _ => False) q → law.ok t q

/-- A command that the law admits wherever the invariant holds, and that keeps it. -/
def Admits (law : Law Database Query) (inv : Database → Prop) (command : Command) : Prop :=
  ∀ t, inv t → law.ok t (.command command) ∧ ∀ now after, command.execute t now = .ok after → inv after

namespace Framed

/-- The snapshot that a method returns is one of this task. -/
abbrev Gives (law : Law Database Query) (inv : Database → Prop) (x : Async TaskSnapshot) (id : String) (s : Database) :
    Prop :=
  Settles serve law inv x (fun task _ => task.id = id) s

/-- Nothing is told of the value. -/
abbrev Keeps (law : Law Database Query) (inv : Database → Prop) (x : Async α) (s : Database) : Prop :=
  Settles serve law inv x (fun _ _ => True) s

theorem converge {after : α → Database → Prop} (initial : inv s)
    (once : ∀ s, inv s → Settles serve law inv operation after s) : Settles serve law inv (converge operation) after s := by
  refine meets_convergeWith (fun s held => Meets.mono (once s held) fun result t later => ?_) 9 initial
  cases result with
  | ok value => exact later
  | error error => exact ⟨later.1, later⟩

theorem validateVersion (initial : inv s) : Keeps law inv (validateVersion version name) s :=
  .ite (.throw initial) <| .pure initial trivial

section
variable (framed : Framed law inv)
include framed

theorem executes (may : Admits law inv command) (initial : inv s)
    (done : ∀ t now u, inv t → command.execute t now = .ok u → after () u) :
    Settles serve law inv (execute command) after s := by
  refine meets_execute fun t between => ?_
  have held := framed.stable s t initial between
  obtain ⟨met, kept⟩ := may t held
  exact ⟨met, fun now => ⟨fun u success => ⟨kept now u success, fun _ _ => done t now u held success⟩,
    fun _ _ => ⟨held, fun _ same => nomatch same⟩⟩⟩

theorem execute (may : Admits law inv command) (initial : inv s) : Keeps law inv (execute command) s :=
  framed.executes may initial fun _ _ _ _ _ => trivial

theorem getTask (initial : inv s) : Gives law inv (getTask id) id s := by
  refine meets_getTask (fun _ => ⟨initial, fun _ same => nomatch same⟩) fun _ t between => ?_
  have held := framed.stable s t initial between
  refine ⟨framed.free t _ held trivial, fun _ => ⟨held, fun _ same => nomatch same⟩, fun row _ => ⟨held, fun _ same => ?_⟩⟩
  exact Except.ok.inj same ▸ rfl

theorem getTaskExecution (initial : inv s) :
    Settles serve law inv (getTaskExecution id) (fun execution _ => execution.id = id) s := by
  refine meets_getTaskExecution fun t between => ?_
  have held := framed.stable s t initial between
  refine ⟨framed.free t _ held trivial, fun _ => ⟨held, fun _ same => nomatch same⟩, fun row _ => ⟨held, fun _ same => ?_⟩⟩
  exact Except.ok.inj same ▸ rfl

theorem executeThenGet (may : Admits law inv command) (initial : inv s) :
    Gives law inv (do TaskClient.execute command; TaskClient.getTask id) id s :=
  .bind (framed.execute may initial) fun _ _ held _ => framed.getTask held

theorem transitionTask (may : ∀ version, Admits law inv (.transitionTask id (some version) target))
    (queued : target = .running → ∀ version, Admits law inv (.transitionTask id (some version) .queued)) (initial : inv s) :
    Gives law inv (transitionTask id expected target) id s := by
  refine .bind (validateVersion initial) fun _ s held _ => .branch (fun running => ?_) fun _ =>
    framed.executeThenGet (may _) held
  refine .bind (framed.getTask held) fun current t held _ => .ite ?_ <| framed.executeThenGet (may _) held
  exact .bind (framed.execute (queued running _) held) fun _ _ held _ => framed.executeThenGet (may _) held

theorem reportTaskProgress (may : Admits law inv
      (.reportProgress id (some expected) progress.completed
        (some (progress.total.getD 0)) progress.total.isSome progress.message))
    (initial : inv s) : Gives law inv (reportTaskProgress id expected progress) id s := by
  refine .bind (validateVersion initial) fun _ s held _ => ?_
  have checked : Keeps law inv (validateProgress progress) s :=
    .ite (.throw held) <| .ite (.throw held) <| .pure held trivial
  exact .bind checked fun _ _ held _ => framed.executeThenGet may held

theorem call (initial : inv s) : Keeps law inv (call callback) s := by
  refine meets_bind.mpr (meets_query.mpr fun t between => ?_)
  have held := framed.stable s t initial between
  refine ⟨framed.free t _ held trivial, fun choice => ?_⟩
  change Meets serve law (match choice.answer callback with | .ok reply => pure reply | .error error => throw error) _ t
  cases choice.answer callback with
  | ok reply => exact ⟨held, fun _ _ => trivial⟩
  | error error => exact ⟨held, fun _ _ => trivial⟩

theorem syncTaskItemProgress (may : Admits law inv (.syncItemProgress id)) (initial : inv s) :
    Keeps law inv (syncTaskItemProgress id) s := .ite (.throw initial) <| framed.execute may initial

end

end Framed

/-! ## A client that is alone -/

/-- No other session, and nothing asked of the statements. -/
abbrev solo : Law Database Query := .alone fun _ _ => True

section
variable {ok : Database → Query → Prop}

theorem reads_solo {post : Post α} (asks : Asks (Within fun _ => False) x)
    (each : ∀ result, post result s) : Meets serve solo x post s := by
  have kept : Meets serve solo x (fun _ t => t = s) s := by
    refine keeps_of_asks asks ?_ (fun _ _ _ _ => trivial) (fun _ _ _ _ _ never => never.elim) rfl
    rintro _ _ rfl rfl
    rfl
  refine kept.mono ?_
  rintro result _ rfl
  exact each result

theorem found_only {present : γ → Prop} {row : γ} (stored : o = some row) (found : present row) :
    (o = none → missing) ∧ ∀ row', o = some row' → present row' := by
  subst stored
  exact ⟨nofun, fun _ same => Option.some.inj same ▸ found⟩

theorem getTaskExecution_alone {post : Post TaskExecution} (met : ok s (.execution id))
    (stored : s.executions.lookup id = some row) (found : post (.ok (mapExecution id row)) s) :
    Meets serve (.alone ok) (getTaskExecution id) post s := by
  refine meets_getTaskExecution fun t between => ?_
  cases between
  exact ⟨met, found_only stored found⟩

theorem getTask_alone (met : ok s (.snapshot id))
    (told : untold id = false) (stored : s.tasks.lookup id = some task)
      (found : post (.ok (mapSnapshot id task (s.executionSummaries id))) s) :
    Meets serve (.alone ok) (getTask id) post s := by
  refine meets_getTask (fun untold => nomatch told.symm.trans untold) fun _ t between => ?_
  cases between
  exact ⟨met, found_only stored found⟩

theorem getTaskSummary_alone {post : Post TaskSummary} (met : ok s (.summary id))
    (told : untold id = false) (stored : s.tasks.lookup id = some task)
      (found : post (.ok (mapSummary id task (s.itemCounts id))) s) :
    Meets serve (.alone ok) (getTaskSummary id) post s := by
  refine meets_getTaskSummary (fun untold => nomatch told.symm.trans untold) fun _ t between => ?_
  cases between
  exact ⟨met, found_only stored found⟩

theorem mapExecution_externalID (consistent : Consistent s) (live : LiveAt s runtime scope external id row) :
    (mapExecution id row).externalID = some external := by
  have told := (consistent.external id row external live.stored live.externalID).2
  simp [mapExecution, given, live.externalID, told]

theorem findExecution_alone {post : Post (Option TaskExecution)}
    (met : ok s (.reference runtime scope external)) (consistent : Consistent s)
      (live : LiveAt s runtime scope external id row)
    (found : post (.ok (some (mapExecution id row))) s) :
    Meets serve (.alone ok) (findExecution runtime external scope) post s := by
  refine meets_findExecution fun t between => ?_
  cases between
  refine ⟨met, fun absent => absurd live ((liveReference_eq_none consistent).mp absent id row), fun id' row' found' => ?_⟩
  obtain ⟨rfl, rfl⟩ := ((liveReference_eq_some consistent).mp found').unique consistent live
  exact found

theorem execute_alone {post : Post Unit} (met : ok s (.command command))
    (done : ∀ now after, command.execute s now = .ok after → post (.ok ()) after)
    (failed : ∀ now failure, command.execute s now = .error failure → post (.error (mapDatabaseError failure)) s) :
    Meets serve (.alone ok) (execute command) post s := by
  refine meets_execute fun t between => ?_
  cases between
  exact ⟨met, fun now => ⟨done now, failed now⟩⟩

/-- A client alone: however it ends, `inv` holds; if it returns, so does `after`. -/
abbrev Leaves {α : Type} (inv : Database → Prop) (x : Async α) (after : α → Database → Prop) (s : Database) : Prop :=
  Settles serve solo inv x after s

/-- A client alone that changes nothing. -/
abbrev Quiet {α : Type} (x : Async α) (after : α → Prop) (s : Database) :
    Prop := Leaves (· = s) x (fun value _ => after value) s

/-- Ten tries of an operation that settles from wherever an earlier try left the tables. -/
theorem settles_converge {after : α → Database → Prop} (once : ∀ t, inv t → Leaves inv operation after t) (initial : inv s) :
    Leaves inv (converge operation) after s := Framed.converge initial once

theorem settles_execute (held : inv s)
    (done : ∀ now t, command.execute s now = .ok t → inv t ∧ after () t) : Leaves inv (execute command) after s :=
  execute_alone trivial (fun now t success => ⟨(done now t success).1, fun _ _ => (done now t success).2⟩)
    fun _ _ _ => ⟨held, fun _ same => nomatch same⟩

theorem settles_getTask {after : TaskSnapshot → Database → Prop} (held : inv s)
    (stored : s.tasks.lookup id = some task) (found : after (mapSnapshot id task (s.executionSummaries id)) s) :
    Leaves inv (getTask id) after s := by
  refine meets_getTask (fun _ => ⟨held, fun _ same => nomatch same⟩) fun _ t between => ?_
  cases between
  exact ⟨trivial, found_only stored ⟨held, fun _ same => Except.ok.inj same ▸ found⟩⟩

theorem settles_validateVersion (held : inv s) : Leaves inv (validateVersion version name) (fun _ t => t = s) s :=
  meets_validateVersion (fun _ => ⟨held, fun _ _ => rfl⟩) fun _ => ⟨held, fun _ same => nomatch same⟩

theorem retryTaskExecution_solo (stored : s.executions.lookup id = some row)
    (opened : ∀ now after, (Command.retryExecution id (some expected) newID).execute s now = .ok after →
      Meets serve solo (getTask row.taskID) post after)
    (failed : ∀ now failure, (Command.retryExecution id (some expected) newID).execute s now = .error failure →
      post (.error (mapDatabaseError failure)) s) : Meets serve solo (retryTaskExecution id expected newID) post s :=
  meets_bind.mpr (getTaskExecution_alone trivial stored (meets_bind.mpr (execute_alone trivial opened failed)))

theorem retryCaught_next (consistent : Consistent s)
    (live : LiveAt s runtime scope external id row) (finished : row.state.finished = true) (named : btrim newID ≠ "")
    (free : s.executions.lookup newID = none) (asks : ∀ error, Asks (Within fun _ => False) (handler error)) :
    Meets serve solo (tryCatch (do let _ ← retryTaskExecution id row.version newID; pure ()) handler)
      (fun _ after => Consistent after ∧ ∃ next, LiveAt after runtime scope external newID next ∧
        next.attempt = s.nextAttempt row.taskID row.itemKey ∧ next.state = .dispatched ∧
        after.nextAttempt next.taskID next.itemKey = s.nextAttempt row.taskID row.itemKey + 1) s := by
  refine meets_tryCatch.mpr (meets_bind.mpr (retryTaskExecution_solo live.stored ?_ ?_))
  · intro now after success
    obtain ⟨_, success', consistent', live', following⟩ := retryExecution_opens now consistent live finished named free
    cases success.symm.trans success'
    refine reads_solo asks_getTask fun result => ?_
    cases result with
    | ok task => exact ⟨consistent', _, live', rfl, rfl, following⟩
    | error error => exact reads_solo (asks error) fun _ => ⟨consistent', _, live', rfl, rfl, following⟩
  · intro now failure failed
    obtain ⟨_, success, _⟩ := retryExecution_opens now consistent live finished named free
    cases failed.symm.trans success

theorem retryCaught_refused (stored : s.executions.lookup id = some row)
    (fails : ∀ now, ∃ failure, (Command.retryExecution id (some expected) newID).execute s now = .error failure)
    (asks : ∀ error, Asks (Within fun _ => False) (handler error)) :
    Meets serve solo (tryCatch (do let _ ← retryTaskExecution id expected newID; pure ()) handler)
      (fun _ after => after = s) s := by
  refine meets_tryCatch.mpr (meets_bind.mpr (retryTaskExecution_solo stored ?_ ?_))
  · intro now after success
    obtain ⟨failure, failed⟩ := fails now
    cases success.symm.trans failed
  · exact fun now failure _ => reads_solo (asks _) fun _ => rfl

end

end RhinoQ.Model.TaskClient
