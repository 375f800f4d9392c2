import RhinoQ.Proofs.BullMQ.Bridge
import RhinoQ.Proofs.BullMQ.Latest
import RhinoQ.Proofs.BullMQ.Sessions

/-! # The verdict of an aggregate

`updateAggregate` computes the verdict over one snapshot, but the move that follows reads the task again and is
fenced on that later version, so a retry between the two reads is overlooked.
-/

namespace RhinoQ.Model.BullMQ

open TaskSchema TaskClient Threads Command

variable {command : Command} {p q : Sessions} {taskID : String} {target : TaskState} {bridge : Bridge}

/-- What the options make of the highest attempts. -/
def Verdict (bridge : Bridge) (db : Database) (t : String) (target : TaskState) : Prop :=
  target = .succeeded ↔
    match bridge.aggregateTerminal with
    | .allSucceeded => ∀ id row, Highest db t id row → row.state = .succeeded
    | _ => ∃ id row, Highest db t id row ∧ row.state = .succeeded

/-- A move to `succeeded` or `failed` is one of this task, all of its items are done, and it is the verdict. -/
def Current (bridge : Bridge) (t : String) (db : Database) (q : Query) : Prop :=
  ∀ id expected target now after, q = .command (.transitionTask id expected target) → target = .succeeded ∨
    target = .failed →
    (transitionTask id expected target).execute db now = .ok after → id = t ∧ Stopped db t ∧ Verdict bridge db t target

/-- The task whose attempts a command adds to or moves. -/
def taskOfAttempt (db : Database) : Command → Option String
  | .createExecution _ taskID _ _ _ _ => some taskID
  | .bindExecution id _ _ _ _ | .transitionExecution id _ _ _ | .transitionExecutionForOwner id _ _ _ _ _
  | .retryExecution id _ _ => (db.executions.lookup id).map (·.taskID)
  | _ => none

/-- No session adds or moves an attempt of a task while the aggregate of another is underway on it. -/
def Steady (p : Sessions) (event : Threads.Event Operation Choice) : Prop :=
  ∀ session bridge taskID, p.underway session = some (.updateAggregate bridge taskID) → event.thread ≠ session →
    ∀ op command, p.pending event.thread = some (op, .command command) → taskOfAttempt p.shared command ≠ some taskID

/-! ## The verdict over the tables -/

section
variable {bridge : Bridge} {db after : Database} {t : String}

theorem verdict_of_latest (consistent : Consistent db) :
    Verdict bridge db t (bridge.verdict (latestExecutions (db.executionSummaries t))) := by
  have each {P : TaskExecutionSummary → Prop} : (∀ m ∈ latestExecutions (db.executionSummaries t), P m) ↔
      ∀ id row, Highest db t id row → P (mapExecutionSummary id row) := by
    constructor
    · exact fun all id row highest => all _ ((mem_latest_iff consistent).mpr ⟨id, row, highest, rfl⟩)
    · rintro all m member
      obtain ⟨id, row, highest, rfl⟩ := (mem_latest_iff consistent).mp member
      exact all id row highest
  have some' : (∃ m ∈ latestExecutions (db.executionSummaries t), m.state = .succeeded) ↔
      ∃ id row, Highest db t id row ∧ row.state = .succeeded := by
    constructor
    · rintro ⟨m, member, state⟩
      obtain ⟨id, row, highest, rfl⟩ := (mem_latest_iff consistent).mp member
      exact ⟨id, row, highest, state⟩
    · rintro ⟨id, row, highest, state⟩
      exact ⟨_, (mem_latest_iff consistent).mpr ⟨id, row, highest, rfl⟩, state⟩
  unfold Verdict Bridge.verdict
  cases bridge.aggregateTerminal with
  | allSucceeded =>
    simp only [if_true, ite_eq_left_iff, List.countP_eq_length, beq_iff_eq]
    rw [each]
    simp [mapExecutionSummary]
  | manual =>
    simp only [reduceCtorEq, if_false, ite_eq_left_iff, List.countP_pos_iff, beq_iff_eq]
    rw [some']
    simp
  | atLeastOneSucceeded =>
    simp only [reduceCtorEq, if_false, ite_eq_left_iff, List.countP_pos_iff, beq_iff_eq]
    rw [some']
    simp

theorem Verdict.of_sameStanding (same : SameStanding t db after) (verdict : Verdict bridge db t target) :
    Verdict bridge after t target := by
  have transport {P : ExecutionState → Prop} {db after : Database} (same : SameStanding t db after)
      (all : ∀ id row, Highest db t id row → P row.state) (id : String) (row : ExecutionRow)
        (highest : Highest after t id row) :
      P row.state := by
    obtain ⟨before, highest', state⟩ := highest.of_sameStanding same
    exact state ▸ all id before highest'
  refine verdict.trans ?_
  cases bridge.aggregateTerminal with
  | allSucceeded => exact ⟨transport (P := (· = .succeeded)) same, transport (P := (· = .succeeded)) same.symm⟩
  | manual | atLeastOneSucceeded =>
    constructor
    · rintro ⟨id, row, highest, state⟩
      obtain ⟨next, highest', state'⟩ := highest.of_sameStanding same.symm
      exact ⟨id, next, highest', state'.trans state⟩
    · rintro ⟨id, row, highest, state⟩
      obtain ⟨before, highest', state'⟩ := highest.of_sameStanding same
      exact ⟨id, before, highest', state'.trans state⟩

theorem sameStanding_of_taskOfAttempt (success : command.execute db now = .ok after)
    (other : taskOfAttempt db command ≠ some t) : SameStanding t db after := by
  -- one row of another task is written
  have written {db after : Database} {id : String} {next : ExecutionRow}
    (executions : after.executions = db.executions.insert id next)
      (away : t ≠ next.taskID) (old : ∀ before, db.executions.lookup id = some before → before.taskID = next.taskID) :
      SameStanding t db after := .of_sameAttempts (executions ▸ .insert away old)
  have replaced {id : String} {row next : ExecutionRow} (stored : db.executions.lookup id = some row)
      (executions : after.executions = db.executions.insert id next) (task : next.taskID = row.taskID)
        (away : t ≠ row.taskID) :
      SameStanding t db after := by
    refine written executions (task ▸ away) fun before found => ?_
    cases stored.symm.trans found
    exact task.symm
  cases wrote_of_execute success with
  | kept executions => exact .of_executions executions
  | created request task valid owner absent unclashed executions =>
    exact written executions (fun same => other (congrArg some same.symm)) fun before found =>
      nomatch absent.symm.trans found
  | bound row stored current pending runtime same told unclashed executions =>
    exact replaced stored executions rfl fun same => other (by simp [taskOfAttempt, stored, same])
  | @moved _ target id row reason asked stored differs allowed executions =>
    have named : taskOfAttempt db command = some row.taskID := by
      cases command <;> cases asked <;> simp [taskOfAttempt, stored]
    exact replaced stored executions rfl fun same => other (named.trans (congrArg some same.symm))
  | annotated id row next stored annotates executions =>
    exact .of_rewrite stored executions annotates.rewrites annotates.state
  | @retried expected id newID row stored live current finished named absent unclashed executions =>
    have away : t ≠ row.taskID := fun same => other (by simp [taskOfAttempt, stored, same])
    have superseded : SameStanding t db (db.putExecution id (row.superseded now)) := by
      refine written rfl away fun before found => ?_
      cases stored.symm.trans found
      rfl
    exact superseded.trans (written executions away fun before found => nomatch absent.symm.trans found)

end

/-! ## The aggregate -/

/-- While the aggregate runs, the attempts of its task stay where they stand. -/
def standing (bridge : Bridge) (t : String) : Law Database Query :=
  { rely := fun s u => Consistent u ∧ SameStanding t s u, ok := Current bridge t }

section
variable {bridge : Bridge} {db s : Database} {t : String}

theorem current_of_free {q : Query} (free : Within (fun _ => False) q) : Current bridge t db q := by
  rintro id expected target now after rfl
  exact free.elim

/-- The attempts stand as they did in the snapshot. -/
theorem framed_standing : Framed (standing bridge t) fun u => Consistent u ∧ SameStanding t db u where
  stable _ _ held between := ⟨between.1, held.2.trans between.2⟩
  free _ _ _ free := current_of_free free

/-- A command that leaves the attempts, and is no move to an end or one to the verdict. -/
theorem admits_standing (keeps : ∀ u now after, command.execute u now = .ok after → after.executions = u.executions)
    (ends : ∀ id expected target, command = .transitionTask id expected target → target = .succeeded ∨ target = .failed →
      id = t ∧ Stopped db t ∧ Verdict bridge db t target) :
    Admits (standing bridge t) (fun u => Consistent u ∧ SameStanding t db u) command := by
  rintro u ⟨consistent, same⟩
  refine ⟨?_, fun now after success => ⟨consistent.step success, same.trans (.of_executions (keeps u now after success))⟩⟩
  rintro id expected target now after ⟨⟩ ended _
  obtain ⟨rfl, stopped, verdict⟩ := ends id expected target rfl ended
  exact ⟨rfl, stopped.of_sameStanding same, verdict.of_sameStanding same⟩

/-- The move that follows is to the verdict over the snapshot. -/
theorem ensureVerdict_settles (consistent : Consistent db) (stopped : Stopped db t)
    (held : Consistent s ∧ SameStanding t db s) :
    Framed.Gives (standing bridge t) (fun u => Consistent u ∧ SameStanding t db u)
      (ensureTask t (bridge.verdict (latestExecutions (db.executionSummaries t)))) t s := by
  have admits (target : TaskState) (ends : target = .succeeded ∨ target = .failed → Verdict bridge db t target)
    (version : ℤ) :
      Admits (standing bridge t) (fun u => Consistent u ∧ SameStanding t db u)
        (.transitionTask t (some version) target) := by
    refine admits_standing (fun _ _ _ success => (transitionTask_aside success).executions) ?_
    rintro _ _ _ ⟨⟩ ended
    exact ⟨rfl, stopped, ends ended⟩
  exact ensureTask_framed framed_standing (admits _ (by simp)) (fun _ => admits _ (by simp))
    (fun _ => admits _ fun _ => verdict_of_latest consistent) held

theorem updateAggregate_keeps (consistent : Consistent s) :
    Framed.Keeps (standing bridge t) Consistent (bridge.updateAggregate t) s := by
  refine .ite (.pure consistent trivial) <| .ite ?_ <| Framed.converge consistent fun s consistent => ?_
  · have synced : Meets serve (standing bridge t) (syncTaskItemProgress t) (fun _ u => Consistent u) s := by
      refine keeps_of_asks (P := fun command => ∀ id expected target, command ≠ .transitionTask id expected target)
        (asks_syncTaskItemProgress nofun) (fun _ _ _ between => between.1) ?_
          (fun _ _ _ _ held _ success => held.step success) consistent
      rintro u q _ within id expected target now after rfl
      exact absurd rfl (within id expected target)
    exact synced.mono fun _ _ held => ⟨held, fun _ _ => trivial⟩
  refine meets_bind.mpr (meets_getTask (fun _ => ⟨consistent, fun _ same => nomatch same⟩) fun _ db between =>
    ⟨nofun, ?_, ?_⟩)
  · exact fun _ => ⟨between.1, fun _ same => nomatch same⟩
  intro row stored
  suffices rest : Framed.Keeps (standing bridge t) (fun u => Consistent u ∧ SameStanding t db u) _ db from
    Meets.mono rest fun _ _ held => ⟨held.1.1, held.2⟩
  have read : Consistent db ∧ SameStanding t db db := ⟨between.1, .refl db⟩
  have admits (version completed : ℤ) (total : Option ℤ) (hasTotal : Bool) (message : Option String) :
      Admits (standing bridge t) (fun u => Consistent u ∧ SameStanding t db u)
        (.reportProgress t (some version) completed total hasTotal message) :=
    admits_standing (fun _ _ _ success => (reportProgress_aside success).executions) nofun
  refine .ite (.pure read trivial) <| .bind (reportAggregate_framed framed_standing admits read rfl)
    fun task u held named => ?_
  refine .branch (fun _ => .pure held trivial) fun unequal => ?_
  -- every latest attempt of the snapshot is done
  have stopped : Stopped db t := by
    refine (stopped_iff between.1).mpr fun m member => ?_
    have all := List.length_filter_eq_length_iff.mp (not_not.mp (not_or.mp unequal).1)
    exact all m member
  rw [named]
  exact .bind (ensureVerdict_settles between.1 stopped held) fun _ _ held _ => .pure held trivial

end

theorem updateAggregate_sound (bridge : Bridge) (taskID : String) (s : Database) (consistent : Consistent s) :
    (Operation.updateAggregate bridge taskID).code.wp serve (standing bridge taskID) (fun _ u => Consistent u) s :=
  Meets.mono (updateAggregate_keeps consistent) fun _ _ held => held.1

/-- A step of another session, in a run in which none interferes. -/
theorem standing_of_steady
    (steady : Steady p event) (stepped : Stepped serve Operation.code p event q) (consistent : Consistent p.shared)
    (underway : p.underway session = some (.updateAggregate bridge taskID)) (apart : event.thread ≠ session) :
    (standing bridge taskID).rely p.shared q.shared := by
  refine ⟨(BullMQ.steady.stepped stepped consistent).1, ?_⟩
  have other := steady session bridge taskID underway apart
  cases stepped with
  | started => exact .refl _
  | answered u choice op asked query next running =>
    have pending := pending_of_thread running
    cases query with
    | command command =>
      change SameStanding taskID p.shared (serve choice p.shared (.command command)).2
      simp only [serve]
      split
      next => exact .refl _
      next after success => exact sameStanding_of_taskOfAttempt success (other op command pending)
    | settle t => exact .of_executions executions_settleItems
    | snapshot | summary | execution | reference | callback => exact .refl _

theorem kept_standing (reached : sessions.Reaches Steady p) :
    ∀ t thread, p.thread t = some thread → thread.op = .updateAggregate bridge taskID → thread.Active →
      Kept serve Operation.code (standing bridge taskID) (fun _ u => Consistent u) p.shared thread := by
  intro t thread held own active
  refine (kept_of_reaches Thread.Active (fun _ active => active) ?_ ?_ ?_
    (updateAggregate_sound bridge taskID) ?_ .empty reached).2 t thread held own active
  · exact fun _ _ _ first second => ⟨second.1, first.2.trans second.2⟩
  · exact fun s consistent => ⟨consistent, .refl s⟩
  · exact fun _ _ query consistent => consistent_serve consistent query
  · intro p event q t thread steady stepped consistent held own active asked apart
    exact standing_of_steady steady stepped consistent (own ▸ underway_of_thread held asked active) apart

/-- In every run in which no session adds or moves an attempt of a task while an aggregate is underway on it: an aggregate
that takes its task to `succeeded` or `failed` finds the highest attempt of each item ended, and moves by their verdict. -/
theorem updateAggregate_current {p : Sessions} (reached : sessions.Reaches Steady p) {session : ℕ} {bridge : Bridge}
    {taskID id : String} {expected : Option ℤ} {target : TaskState}
    (asks : p.pending session = some (.updateAggregate bridge taskID, .command (.transitionTask id expected target)))
    (ends : target = .succeeded ∨ target = .failed) {now : Timestamp} {after : Database}
    (success : (transitionTask id expected target).execute p.shared now = .ok after) :
    id = taskID ∧ Stopped p.shared taskID ∧ Verdict bridge p.shared taskID target := by
  have consistent := consistent_of_reaches reached
  have refl : (standing bridge taskID).rely p.shared p.shared := ⟨consistent, .refl _⟩
  have met : Current bridge taskID p.shared (.command (.transitionTask id expected target)) :=
    Kept.pending refl (updateAggregate_sound bridge taskID _ consistent)
      (kept_standing reached) asks
  exact met id expected target now after rfl ends success

/-! ## Runs on fixed inputs -/

/-- A session of the aggregate is about to move `T`. -/
def moving (version : ℤ) (target : TaskState) : Operation × Query → Bool
  | (.updateAggregate _ taskID, .command command) => taskID == "T" && command == .transitionTask "T" (some version) target
  | _ => false

theorem exists_of_moving (asked : moving version target entry = true) :
    ∃ bridge, entry = (.updateAggregate bridge "T", .command (.transitionTask "T" (some version) target)) := by
  unfold moving at asked
  split at asked
  next bridge taskID command =>
    simp only [Bool.and_eq_true, beq_iff_eq] at asked
    obtain ⟨rfl, rfl⟩ := asked
    exact ⟨bridge, rfl⟩
  next => cases asked

def isAggregate : Operation → Bool
  | .updateAggregate _ _ => true
  | _ => false

def startsAggregate : Threads.Event Operation Choice → Bool
  | .start _ op => isAggregate op
  | .ask _ _ => false

/-- The step asks for nothing that adds or moves an attempt. -/
def leavesAttempts (p : Sessions) (event : Threads.Event Operation Choice) : Bool :=
  match p.pending event.thread with
  | some (_, .command command) => (taskOfAttempt p.shared command).isNone
  | _ => true

theorem steady_of_leavesAttempts (p : Sessions) (event : Threads.Event Operation Choice)
    (leaves : leavesAttempts p event = true) :
    Steady p event := by
  intro session bridge taskID _ _ op command pending named
  simp [leavesAttempts, pending, named] at leaves

theorem steady_of_quiet (ran : sessions.run p es = some q) (quiet : es.all (fun event => !startsAggregate event) = true)
    (none : ∀ t, ∀ thread ∈ p.thread t, isAggregate thread.op = false) : sessions.Path Steady p es q := by
  induction es generalizing p with
  | nil =>
    simp only [Machine.run, Option.some.injEq] at ran
    exact ran ▸ .nil p
  | cons event rest ih =>
    obtain ⟨middle, taken, ran⟩ := Option.bind_eq_some_iff.mp ran
    simp only [List.all_cons, Bool.and_eq_true] at quiet
    refine .cons ?_ taken (ih ran quiet.2 ?_)
    · intro session bridge taskID underway
      obtain ⟨thread, held, own⟩ := Threads.thread_of_underway underway
      have aggregate := none session thread held
      rw [own] at aggregate
      cases aggregate
    · obtain ⟨u, s, moved, rfl, own⟩ : ∃ u s moved, middle = p.move u s (some moved) ∧ isAggregate moved.op = false := by
        have stepped : Stepped serve Operation.code p event middle := stepped_of_step taken
        cases stepped with
        | started u op free => exact ⟨u, _, _, rfl, by simpa [startsAggregate] using quiet.1⟩
        | answered u choice op asked query next running => exact ⟨u, _, _, rfl, (none u _ running :)⟩
      refine Pool.forall_move (fun _ held => ∀ thread ∈ held, isAggregate (Thread.op thread) = false) none ?_
        fun _ _ kept => kept
      rintro _ ⟨⟩
      exact own

/-- The job completed, and the aggregate that follows is about to close the batch. -/
theorem updateAggregate_current_completed : ∃ p : Sessions, ∃ bridge now after, sessions.Reaches Steady p ∧
    p.pending 3 = some (.updateAggregate bridge "T", .command (.transitionTask "T" (some 7) .succeeded)) ∧
    (transitionTask "T" (some 7) .succeeded).execute p.shared now = .ok after ∧
    Stopped p.shared "T" ∧ Verdict bridge p.shared "T" .succeeded := by
  obtain ⟨q, ran, p, ran', moves, entry, asks, asked⟩ : ∃ q, sessions.run sessions.start (oneJob .completed) = some q ∧
      ∃ p, sessions.runChecked leavesAttempts q [.start 3 (.updateAggregate closingBridge "T"), .ask 3 obliging,
        .ask 3 obliging] =
        some p ∧ ((transitionTask "T" (some 7) .succeeded).execute p.shared 7).toOption.isSome = true ∧
        ∃ entry, p.pending 3 = some entry ∧ moving 7 .succeeded entry = true := by
    decide +kernel
  obtain ⟨bridge, rfl⟩ := exists_of_moving asked
  have before : sessions.Path Steady sessions.start (oneJob .completed) q :=
    steady_of_quiet ran (by decide) fun _ _ held => nomatch held
  have reached : sessions.Reaches Steady p := ⟨_, before.append (Machine.path_of_runChecked steady_of_leavesAttempts ran')⟩
  obtain ⟨after, success⟩ := exists_ok_of_toOption moves
  exact ⟨p, bridge, 7, after, reached, asks, success, (updateAggregate_current reached asks (.inl rfl) success).2⟩

/-- After the aggregate read the failed attempt, another bridge starts the retry, and the aggregate is about to close
the batch as failed. -/
theorem updateAggregate_overlooks_retry : ∃ p : Sessions, ∃ bridge now after, sessions.Reaches Machine.anyStep p ∧
    p.pending 3 = some (.updateAggregate bridge "T", .command (.transitionTask "T" (some 9) .failed)) ∧
    (transitionTask "T" (some 9) .failed).execute p.shared now = .ok after ∧ ¬Stopped p.shared "T" := by
  obtain ⟨p, reached, moves, unfinished, entry, asks, asked⟩ := Machine.exists_reached (m := sessions) (oneJob .failed ++
      [.start 3 (.updateAggregate closingBridge "T"), .ask 3 obliging] ++
      inTurn 4 [(.project projectingBridge 2 .active { jobID := "a", attempt := some 2 }, 8)] ++ [.ask 3 obliging])
    (P := fun p => ((transitionTask "T" (some 9) .failed).execute p.shared 7).toOption.isSome = true ∧
      (¬∀ m ∈ latestExecutions (p.shared.executionSummaries "T"), m.state.done = true) ∧
      ∃ entry, p.pending 3 = some entry ∧ moving 9 .failed entry = true) (by decide +kernel)
  obtain ⟨bridge, rfl⟩ := exists_of_moving asked
  have running : ¬Stopped p.shared "T" := by rwa [stopped_iff (consistent_of_reaches reached)]
  obtain ⟨after, success⟩ := exists_ok_of_toOption moves
  exact ⟨p, bridge, 7, after, reached, asks, success, running⟩

end RhinoQ.Model.BullMQ
