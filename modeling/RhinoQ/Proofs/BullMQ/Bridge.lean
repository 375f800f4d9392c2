import RhinoQ.Model.BullMQ.Bridge
import RhinoQ.Proofs.TaskClient

/-! # Programs of the bridge

What the parts that several methods share ask and keep.
-/

namespace RhinoQ.Model.BullMQ

open TaskSchema TaskClient Framed

variable {task : TaskSnapshot} {target : TaskState} {applies : Bool} {rounds : ℕ}

section
variable {law : Law Database Query} {inv : Database → Prop} {s : Database} {id : String}

theorem moveTask_framed (framed : Framed law inv) (named : task.id = id)
    (may : applies = true → ∀ version, Admits law inv (.transitionTask id (some version) target))
    (queued : applies = true → target = .running → ∀ version, Admits law inv (.transitionTask id (some version) .queued))
    (initial : inv s) : Gives law inv (moveTask task applies target) id s := by
  subst named
  exact .branch (fun applied => framed.transitionTask (may applied) (queued applied) initial) fun _ => .pure initial rfl

theorem ensureTask_framed (framed : Framed law inv)
    (queued : ∀ version, Admits law inv (.transitionTask id (some version) .queued))
    (running : target ≠ .queued → ∀ version, Admits law inv (.transitionTask id (some version) .running))
    (may : target = .succeeded ∨ target = .failed → ∀ version, Admits law inv (.transitionTask id (some version) target))
    (initial : inv s) : Gives law inv (ensureTask id target) id s := by
  refine converge initial fun s held => ?_
  refine .bind (framed.getTask held) fun task t held named => .ite (.pure held named) ?_
  refine .bind (moveTask_framed framed named (fun _ => queued) (fun _ => nofun) held) fun task t held named => ?_
  refine .bind (moveTask_framed framed named (fun applies => running ?_) (fun _ _ => queued) held)
    fun task t held named => ?_
  · rintro rfl
    cases applies
  · refine moveTask_framed framed named (fun applies => may ?_) (fun applies toRunning => ?_) held
    · simpa using (Bool.and_eq_true_iff.mp applies).1
    · subst toRunning
      cases applies

theorem ensureExecution_framed (framed : Framed law inv)
    (may : ∀ version target reason, Admits law inv (.transitionExecution id (some version) target reason)) (rounds : ℕ)
    (target : ExecutionState) (reason : Option String) (initial : inv s) :
    Keeps law inv (ensureExecution rounds id target reason) s := by
  induction rounds generalizing target reason s with
  | zero => exact .throw initial
  | succ rounds ih =>
    refine converge initial fun s held => .bind (framed.getTaskExecution held) fun execution t held named => ?_
    refine .ite (.pure held trivial) <| .ite (.pure held trivial) ?_
    rw [named]
    refine .tryCatch (.bind (validateVersion held) fun _ _ held _ => framed.execute (may _ _ _) held) fun error t held => ?_
    refine .ite (.throw held) ?_
    exact .bind (ih .running none held) fun _ _ held _ => ih target reason held

theorem reportAggregate_framed {bridge : Bridge} (framed : Framed law inv)
    (may : ∀ version completed total hasTotal message,
      Admits law inv (.reportProgress id (some version) completed total hasTotal message))
    (initial : inv s) (named : task.id = id) : Gives law inv (bridge.reportAggregate task progress) id s := by
  subst named
  exact .ite (framed.reportTaskProgress (may _ _ _ _ _) initial) <| .pure initial rfl

theorem attachReference_framed (framed : Framed law inv)
    (may : ∀ version reference, Admits law inv (.attachExecutionResult id (some version) (some reference)))
      (initial : inv s) :
    Keeps law inv (Bridge.attachReference id reference) s := by
  cases reference with
  | none => exact .pure initial trivial
  | some reference =>
    refine converge initial fun s held => .bind (framed.getTaskExecution held) fun execution t held named => ?_
    rw [named]
    exact .bind (validateVersion held) fun _ _ held _ => .ite (.throw held) <| framed.execute (may _ _) held

end

/-! ## What the parts ask -/

section
variable {P : Command → Prop}

theorem asks_moveTask (may : applies = true → ∀ id version, P (.transitionTask id (some version) target))
    (queued : applies = true → target = .running → ∀ id version, P (.transitionTask id (some version) .queued)) :
    Asks (Within P) (moveTask task applies target) :=
  .branch (fun applied => asks_transitionTask (may applied _) fun running => queued applied running _) fun _ => .pure

theorem asks_ensureTask {id : String} (queued : ∀ id version, P (.transitionTask id (some version) .queued))
    (running : ∀ id version, P (.transitionTask id (some version) .running))
    (may : target = .succeeded ∨ target = .failed → ∀ id version, P (.transitionTask id (some version) target)) :
    Asks (Within P) (ensureTask id target) := by
  refine asks_converge (.bind asks_getTask fun task => .ite .pure ?_)
  refine .bind (asks_moveTask (fun _ => queued) fun _ => nofun) fun task => ?_
  refine .bind (asks_moveTask (fun _ => running) fun _ _ => queued) fun task => ?_
  refine asks_moveTask (fun applies => may ?_) fun _ _ => queued
  simpa using (Bool.and_eq_true_iff.mp applies).1

theorem asks_ensureExecution (may : ∀ id version target reason,
    P (.transitionExecution id (some version) target reason)) (rounds : ℕ)
    (id : String) (target : ExecutionState) (reason : Option String) :
    Asks (Within P) (ensureExecution rounds id target reason) := by
  induction rounds generalizing target reason with
  | zero => exact .throw
  | succ rounds ih =>
    refine asks_converge (.bind asks_getTaskExecution fun execution => .ite .pure <| .ite .pure ?_)
    refine .tryCatch (asks_transitionTaskExecutionAck (may _ _ _ _)) fun error => .ite .throw ?_
    exact .bind (ih .running none) fun _ => ih target reason

theorem asks_activate {execution : TaskExecution}
    (attempts : ∀ id version target reason, P (.transitionExecution id (some version) target reason))
    (queued : ∀ id version, P (.transitionTask id (some version) .queued))
    (running : ∀ id version, P (.transitionTask id (some version) .running)) :
    Asks (Within P) (Bridge.activate rounds execution) :=
  .bind (asks_ensureExecution attempts rounds _ _ _) fun _ => asks_ensureTask queued running (by simp)

end

/-! ## A bridge that is alone -/

section
variable {bridge : Bridge} {db : Database} {id jobID : String} {row : ExecutionRow}

theorem find_alone
    (met : ok db (.reference "bullmq" bridge.scope jobID)) (consistent : Consistent db)
    (live : LiveAt db "bullmq" bridge.scope jobID id row) (found : post (.ok (some (mapExecution id row))) db) :
    Meets serve (.alone ok) (bridge.find jobID) post db := findExecution_alone met consistent live found

/-- A move that both tables of states allow is made. -/
theorem ensureExecution_solo {target : ExecutionState}
    (consistent : Consistent db) (stored : db.executions.lookup id = some row) (differs : row.state ≠ target)
    (legal : legalMove row.state target = true) (allowed : row.state.canTransition row.externalID.isSome target = true)
    (moved : ∀ now, post (.ok ()) (db.updateExecution now id row (row.moved now target reason))) :
    Meets serve solo (ensureExecution (rounds + 1) id target reason) post db := by
  refine meets_converge_of_ok (meets_bind.mpr (getTaskExecution_alone trivial stored ?_))
  change Meets serve solo (if row.state = target then _ else if _ then _ else _) _ db
  rw [if_neg differs, if_neg (by simp [mapExecution, legal])]
  refine meets_tryCatch.mpr (meets_bind.mpr (meets_validateVersion (fun _ => ?_) fun small => ?_))
  · refine execute_alone trivial (fun now after success => ?_) fun now failure failed => ?_
    · cases (transitionExecution_succeeds stored differs allowed).symm.trans success
      exact moved now
    · cases (transitionExecution_succeeds stored differs allowed).symm.trans failed
  · have positive := (consistent.positive id row stored).2
    exact absurd small (not_le.mpr positive)

end

end RhinoQ.Model.BullMQ
