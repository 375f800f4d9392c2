import RhinoQ.Proofs.BullMQ.Bridge
import RhinoQ.Proofs.BullMQ.Sessions

/-! # The attempt of an active event

The bridge opens attempts while the recorded one is behind the number of an `active` event, and also whenever
the recorded one is finished. A late duplicate of an attempt that has ended therefore opens one that the
runtime never starts.
-/

namespace RhinoQ.Model.BullMQ

open TaskSchema TaskClient Bridge

/-- The attempt that a retry would supersede: the one that was found, stalled first unless it is finished. -/
def retryOf (id : String) (row : ExecutionRow) : TaskExecution :=
  if row.state.finished then mapExecution id row
  else { mapExecution id row with state := .stalled, version := row.version + 1 }

def nextID (bridge : Bridge) (id : String) (row : ExecutionRow) : String :=
  bridge.retryExecutionID (retryOf id row) (row.attempt + 1)

/-- The bridge projects retries, the id of the new attempt is free, and the item has a number as high as the event's. -/
structure RunsAhead (bridge : Bridge) (db : Database) (id : String) (row : ExecutionRow) (n : ℤ) : Prop where
  valid : 1 ≤ n
  projected : bridge.retryProjection = .newAttempt
  due : row.state.finished = true ∨ row.attempt < n
  passed : n < db.nextAttempt row.taskID row.itemKey
  named : btrim (nextID bridge id row) ≠ ""
  free : db.executions.lookup (nextID bridge id row) = none

/-- The operation projects an `active` observation with this number. -/
inductive Observes (bridge : Bridge) (rounds : ℕ) (jobID : String) (n : ℤ) : Operation → Prop
  | project (failedReason : Option String) :
      Observes bridge rounds jobID n (.project bridge rounds .active { jobID, attempt := some n, failedReason })
  | reconcile (failedReason : Option String) (terminal : Bool) :
      Observes bridge rounds jobID n (.reconcile bridge rounds
        { jobID, attempt := some n, failedReason, state := .active, terminal })

section
variable {bridge : Bridge} {db : Database} {id jobID : String} {row : ExecutionRow} {n : ℤ} {rounds : ℕ} {holds : ℤ → Prop}
  {now : Timestamp}

/-! ## One retry -/

/-- The job has a live attempt with the next number of its item. -/
structure NextAttempt (bridge : Bridge) (jobID : String) (db : Database) (row : ExecutionRow) (after : Database)
    (newID : String)
    (next : ExecutionRow) : Prop where
  consistent : Consistent after
  live : LiveAt after "bullmq" bridge.scope jobID newID next
  attempt : next.attempt = db.nextAttempt row.taskID row.itemKey
  following : after.nextAttempt next.taskID next.itemKey = db.nextAttempt row.taskID row.itemKey + 1

/-- Nothing keeps a finished attempt from a retry. -/
structure Retriable (bridge : Bridge) (db : Database) (id : String) (row : ExecutionRow) : Prop where
  projected : bridge.retryProjection = .newAttempt
  named : btrim (bridge.retryExecutionID (mapExecution id row) (row.attempt + 1)) ≠ ""
  free : db.executions.lookup (bridge.retryExecutionID (mapExecution id row) (row.attempt + 1)) = none

theorem retryOf_finished (finished : row.state.finished = true) : retryOf id row = mapExecution id row := if_pos finished

/-- Stalling an attempt changes nothing about its retry. -/
theorem retryOf_stalled (unfinished : row.state.finished = false) :
    retryOf id (row.moved now .stalled none) = retryOf id row := by
  rw [retryOf_finished rfl, retryOf, unfinished]
  rfl

section
variable (consistent : Consistent db) (live : LiveAt db "bullmq" bridge.scope jobID id row)
include consistent live

theorem openRetryAttempt_opens (retriable : Retriable bridge db id row) (finished : row.state.finished = true) :
    Meets serve solo (bridge.openRetryAttempt (mapExecution id row)) (fun result after => ∃ newID next,
      NextAttempt bridge jobID db row after newID next ∧ ∀ opened, result = .ok opened →
        opened = some (mapExecution newID next)) db := by
  obtain ⟨projected, named, free⟩ := retriable
  have away : bridge.retryExecutionID (mapExecution id row) (row.attempt + 1) ≠ id := by
    intro same
    rw [same, live.stored] at free
    cases free
  unfold openRetryAttempt
  rw [if_neg (by simp [projected]), mapExecution_externalID consistent live]
  refine (retryCaught_next consistent live finished named free ?_).bind ?_ ?_
  · exact fun _ => .ite .pure .throw
  · rintro _ after ⟨consistent', next, live', attempt, -, following⟩
    have opened : NextAttempt bridge jobID db row after _ next := ⟨consistent', live', attempt, following⟩
    refine meets_bind.mpr (find_alone trivial opened.consistent opened.live ?_)
    change Meets serve solo (if _ then _ else _) _ after
    split
    next same => exact absurd same away
    next => exact ⟨_, next, opened, fun _ same => (Except.ok.inj same).symm⟩
  · rintro error after ⟨consistent', next, live', attempt, -, following⟩
    exact ⟨_, next, ⟨consistent', live', attempt, following⟩, nofun⟩

theorem openRetryAttempt_refused (finished : row.state.finished = true) (refused : ¬Retriable bridge db id row) :
    Meets serve solo (bridge.openRetryAttempt (mapExecution id row))
      (fun result after => after = db ∧ ∀ opened, result = .ok opened → opened = none) db := by
  unfold openRetryAttempt
  split
  next => exact ⟨rfl, fun _ same => (Except.ok.inj same).symm⟩
  rename_i projects
  have projected : bridge.retryProjection = .newAttempt := by
    cases held : bridge.retryProjection with
    | newAttempt => rfl
    | ignore => exact absurd held projects
  have fails (now : Timestamp) : ∃ failure, (Command.retryExecution id (some row.version)
      (bridge.retryExecutionID (mapExecution id row) (row.attempt + 1))).execute db now = .error failure := by
    by_cases named : btrim (bridge.retryExecutionID (mapExecution id row) (row.attempt + 1)) = ""
    · exact ⟨_, retryExecution_unnamed named⟩
    · obtain ⟨other, taken⟩ := Option.ne_none_iff_exists'.mp fun free => refused ⟨projected, named, free⟩
      exact ⟨_, retryExecution_taken live.stored live.live finished named taken⟩
  rw [mapExecution_externalID consistent live]
  refine (retryCaught_refused live.stored fails ?_).bind ?_ ?_
  · exact fun _ => .ite .pure .throw
  · rintro _ _ rfl
    refine meets_bind.mpr (find_alone trivial consistent live ?_)
    change Meets serve solo (if _ then _ else _) _ _
    rw [if_pos rfl]
    exact ⟨rfl, fun _ same => (Except.ok.inj same).symm⟩
  · rintro error _ rfl
    exact ⟨rfl, nofun⟩

/-! ## The loop -/

/-- The database once the attempt is stalled. -/
abbrev stalledIn (db : Database) (now : Timestamp) (id : String) (row : ExecutionRow) : Database :=
  db.updateExecution now id row (row.moved now .stalled none)

/-- An attempt that nothing ended is closed, and keeps its number. -/
theorem stall_solo {next : TaskExecution → Async (Option TaskExecution)}
    (unfinished : row.state.finished = false) (continues : ∀ now, Consistent (stalledIn db now id row) →
      LiveAt (stalledIn db now id row) "bullmq" bridge.scope jobID id (row.moved now .stalled none) →
      Meets serve solo (next (mapExecution id (row.moved now .stalled none))) post (stalledIn db now id row)) :
      Meets serve solo (do
      ensureExecution (rounds + 1) id .stalled none
      match ← bridge.find jobID with
      | none => pure none
      | some stalled => next stalled) post db := by
  have differs : row.state ≠ .stalled := by
    rintro same
    rw [same] at unfinished
    cases unfinished
  have legal : legalMove row.state .stalled = true := by
    cases state : row.state <;> rw [state] at unfinished <;> first | rfl | cases unfinished
  have allowed : row.state.canTransition row.externalID.isSome .stalled = true := by
    rw [live.externalID]
    cases state : row.state <;> rw [state] at unfinished <;> first | rfl | cases unfinished
  refine meets_bind.mpr (ensureExecution_solo consistent live.stored differs legal allowed fun now => ?_)
  have success : (Command.transitionExecution id (some row.version) .stalled none).execute db now = .ok
    (stalledIn db now id row) :=
    transitionExecution_succeeds live.stored differs allowed
  have consistent' := consistent.step success
  obtain ⟨next', live', -⟩ := live.step success nofun
  have stored : (stalledIn db now id row).executions.lookup id = some (row.moved now .stalled none) := by
    rw [executions_updateExecution, FiniteMap.lookup_insert, if_pos rfl]
  obtain rfl : next' = row.moved now .stalled none := Option.some.inj (live'.stored.symm.trans stored)
  exact meets_bind.mpr (find_alone trivial consistent' live' (continues now consistent' live'))

omit consistent in
theorem runsAhead_stalled (unfinished : row.state.finished = false) (behind : row.attempt < n) :
    RunsAhead bridge (stalledIn db now id row) id (row.moved now .stalled none) n ↔ RunsAhead bridge db id row n := by
  have sameID : nextID bridge id (row.moved now .stalled none) = nextID bridge id row := by
    unfold nextID
    rw [retryOf_stalled unfinished]
    rfl
  have number : (stalledIn db now id row).nextAttempt row.taskID row.itemKey = db.nextAttempt row.taskID row.itemKey :=
    nextAttempt_rewrite live.stored executions_updateExecution rfl rfl rfl
  have free : (stalledIn db now id row).executions.lookup (nextID bridge id row) = none ↔
      db.executions.lookup (nextID bridge id row) = none := by
    rw [executions_updateExecution, FiniteMap.lookup_insert]
    split
    next same =>
      rw [same, live.stored]
      exact ⟨nofun, nofun⟩
    next => rfl
  constructor
  · rintro ⟨valid, projected, -, passed, named, absent⟩
    rw [sameID] at named absent
    exact ⟨valid, projected, .inr behind, number ▸ passed, named, free.mp absent⟩
  · rintro ⟨valid, projected, -, passed, named, absent⟩
    refine ⟨valid, projected, .inl rfl, number.symm ▸ passed, ?_, ?_⟩
    · rwa [sameID]
    · rw [sameID]
      exact free.mpr absent

/-- The live attempt of the job has such a number. -/
def Numbered (bridge : Bridge) (jobID : String) (holds : ℤ → Prop) (db : Database) : Prop :=
  Consistent db ∧ ∃ id row, LiveAt db "bullmq" bridge.scope jobID id row ∧ holds row.attempt

theorem openRetryLoop_within (left : ℕ) (valid : 1 ≤ n) (behind : ¬RunsAhead bridge db id row n) :
    Meets serve solo (bridge.openRetryLoop (rounds + 1) jobID (some n) left (mapExecution id row))
      (fun _ after => Numbered bridge jobID (· ≤ max n row.attempt) after) db := by
  induction left generalizing db id row with
  | zero => exact ⟨consistent, id, row, live, le_max_right n row.attempt⟩
  | succ left ih =>
    change Meets serve solo (if _ then if _ then _ else _ else _) _ db
    split
    next due =>
      split
      next running =>
        have unfinished : row.state.finished = false := by simpa [mapExecution] using running
        have later : row.attempt < n := by
          rcases Bool.or_eq_true_iff.mp due with ended | later
          · cases unfinished.symm.trans ended
          · exact of_decide_eq_true later
        refine stall_solo consistent live unfinished fun now consistent' live' => ?_
        exact ih consistent' live' (mt (runsAhead_stalled live unfinished later).mp behind)
      next ended =>
        have finished : row.state.finished = true := by simpa [mapExecution] using ended
        by_cases opens : Retriable bridge db id row
        · -- the new attempt has a number that the event already reached
          have reached : db.nextAttempt row.taskID row.itemKey ≤ n := by
            by_contra passed
            refine behind ⟨valid, opens.projected, .inl finished, not_le.mp passed, ?_, ?_⟩ <;>
              rw [nextID, retryOf_finished finished]
            · exact opens.named
            · exact opens.free
          refine (openRetryAttempt_opens consistent live opens finished).bind ?_ ?_
          · rintro opened after ⟨newID, next, held, same⟩
            obtain rfl := same opened rfl
            have within : next.attempt ≤ max n row.attempt :=
              held.attempt.le.trans (reached.trans (le_max_left n row.attempt))
            change Meets serve solo (if _ then _ else _) _ after
            split
            next => exact ⟨held.consistent, newID, next, held.live, within⟩
            rename_i short
            have below : next.attempt < n := not_le.mp fun enough => short (decide_eq_true enough)
            have behind' : ¬RunsAhead bridge after newID next n := by
              intro ahead
              have passed := ahead.passed
              rw [held.following, ← held.attempt] at passed
              omega
            refine (ih held.consistent held.live behind').mono ?_
            rintro _ _ ⟨consistent', id', row', live', bound⟩
            exact ⟨consistent', id', row', live', bound.trans (max_le (le_max_left n row.attempt) within)⟩
          · rintro error after ⟨newID, next, held, -⟩
            exact ⟨held.consistent, newID, next, held.live,
              held.attempt.le.trans (reached.trans (le_max_left n row.attempt))⟩
        · refine (openRetryAttempt_refused consistent live finished opens).bind ?_ ?_
          · rintro opened _ ⟨rfl, same⟩
            obtain rfl := same opened rfl
            exact ⟨consistent, id, row, live, le_max_right n row.attempt⟩
          · rintro error _ ⟨rfl, -⟩
            exact ⟨consistent, id, row, live, le_max_right n row.attempt⟩
    next => exact ⟨consistent, id, row, live, le_max_right n row.attempt⟩

theorem openRetryLoop_ahead_finished (left : ℕ) (finished : row.state.finished = true)
    (ahead : RunsAhead bridge db id row n) :
    Meets serve solo (bridge.openRetryLoop (rounds + 1) jobID (some n) (left + 1) (mapExecution id row))
      (fun _ after => Numbered bridge jobID (max n row.attempt < ·) after) db := by
  have named := ahead.named
  have free := ahead.free
  rw [nextID, retryOf_finished finished] at named free
  have above : row.attempt < db.nextAttempt row.taskID row.itemKey := lt_nextAttempt ⟨live.stored, rfl, rfl⟩
  have higher {after : Database} {newID : String} {next : ExecutionRow}
    (held : NextAttempt bridge jobID db row after newID next) :
      Numbered bridge jobID (max n row.attempt < ·) after :=
    ⟨held.consistent, newID, next, held.live, held.attempt ▸ max_lt ahead.passed above⟩
  change Meets serve solo (if _ then if _ then _ else _ else _) _ db
  rw [if_pos (by simp [mapExecution, finished]), if_neg (by simp [mapExecution, finished])]
  refine (openRetryAttempt_opens consistent live ⟨ahead.projected, named, free⟩ finished).bind ?_ ?_
  · rintro opened after ⟨newID, next, held, same⟩
    obtain rfl := same opened rfl
    change Meets serve solo (if _ then _ else _) _ after
    have passed : n ≤ next.attempt := held.attempt ▸ ahead.passed.le
    split
    next => exact higher held
    next short => exact absurd (decide_eq_true passed) short
  · rintro error after ⟨newID, next, held, -⟩
    exact higher held

theorem openRetryLoop_ahead (left : ℕ) (ahead : RunsAhead bridge db id row n) :
    Meets serve solo (bridge.openRetryLoop (rounds + 1) jobID (some n) (left + 2) (mapExecution id row))
      (fun _ after => Numbered bridge jobID (max n row.attempt < ·) after) db := by
  cases ended : row.state.finished with
  | true => exact openRetryLoop_ahead_finished consistent live (left + 1) ended ahead
  | false =>
    have behind : row.attempt < n := ahead.due.resolve_left (by simp [ended])
    change Meets serve solo (if _ then if _ then _ else _ else _) _ db
    rw [if_pos (by simp [mapExecution, behind]), if_pos (by simp [mapExecution, ended])]
    refine stall_solo consistent live ended fun now consistent' live' => ?_
    exact openRetryLoop_ahead_finished consistent' live' left rfl ((runsAhead_stalled live ended behind).mpr ahead)

/-! ## The event -/

omit consistent live in
/-- Activation opens no attempt. -/
theorem activate_numbered (initial : Numbered bridge jobID holds db) :
    Meets serve solo (activate rounds execution) (fun _ after => Numbered bridge jobID holds after) db := by
  have asks : Asks (Within fun command => ∀ id expected newID, command ≠ .retryExecution id expected newID)
      (activate rounds execution) := asks_activate nofun nofun nofun
  refine keeps_of_asks asks ?_ (fun _ _ _ _ => trivial) ?_ initial
  · rintro _ _ held rfl
    exact held
  · rintro command now s after ⟨consistent, id, row, live, number⟩ opensNone success
    obtain ⟨next, live', evolves⟩ := live.step success opensNone
    exact ⟨consistent.step success, id, next, live', evolves.attempt.symm ▸ number⟩

theorem startJob_numbered (valid : 1 ≤ n)
    (loop : Meets serve solo (bridge.openRetryLoop rounds jobID (some n) rounds (mapExecution id row))
      (fun _ after => Numbered bridge jobID holds after) db) :
    Meets serve solo (bridge.startJob rounds jobID (some n)) (fun _ after => Numbered bridge jobID holds after) db := by
  have opened : Meets serve solo (bridge.openRetryAttempts rounds (mapExecution id row) (some n))
      (fun _ after => Numbered bridge jobID holds after) db := by
    unfold openRetryAttempts
    rw [if_neg (by simp [valid]), mapExecution_externalID consistent live]
    exact loop
  refine meets_bind.mpr (find_alone trivial consistent live (opened.bind ?_ fun _ _ held => held))
  intro current after held
  cases current with
  | none => exact held
  | some current => exact (activate_numbered held).bind (fun _ _ held => held) fun _ _ held => held

theorem startJob_invalid (rounds : ℕ) (invalid : ¬1 ≤ n) :
    Meets serve solo (bridge.startJob rounds jobID (some n)) (fun _ after => after = db) db := by
  refine meets_bind.mpr (find_alone trivial consistent live (meets_bind.mpr ?_))
  unfold openRetryAttempts
  rw [if_pos (by simpa using invalid)]
  rfl

end

theorem code_of_observes (observes : Observes bridge rounds jobID n op) :
    op.code = (bridge.startJob rounds jobID (some n)).run := by
  cases observes with
  | project failedReason => rfl
  | reconcile failedReason terminal => rfl

end

/-- An `active` event leaves the live attempt at or below its number, or where it was, unless the bridge runs ahead. -/
theorem active_within_iff {p : Sessions} {op : Operation} {bridge : Bridge} {rounds : ℕ} {jobID id : String}
    {row : ExecutionRow} {n : ℤ}
    (reached : sessions.Reaches Machine.anyStep p) (enough : 2 ≤ rounds) (observes : Observes bridge rounds jobID n op)
    (live : LiveAt p.shared "bullmq" bridge.scope jobID id row) :
    (∀ choices id' row', LiveAt (op.code.play serve choices p.shared).2 "bullmq" bridge.scope jobID id' row' →
      row'.attempt ≤ max n row.attempt) ↔ ¬RunsAhead bridge p.shared id row n := by
  have consistent := consistent_of_reaches reached
  obtain ⟨rounds, rfl⟩ := Nat.exists_eq_add_of_le' enough
  rw [code_of_observes observes]
  constructor
  · intro within ahead
    have higher := startJob_numbered consistent live ahead.valid (openRetryLoop_ahead consistent live rounds ahead)
    obtain ⟨-, id', row', live', above⟩ := Program.wp.play higher fun _ => obliging
    exact absurd (within _ id' row' live') (not_le.mpr above)
  · intro behind choices id' row' live'
    by_cases valid : 1 ≤ n
    · have bounded := startJob_numbered consistent live valid
        (openRetryLoop_within consistent live (rounds + 2) valid behind)
      obtain ⟨consistent', id'', row'', live'', bound⟩ := Program.wp.play bounded choices
      obtain ⟨rfl, rfl⟩ := live'.unique consistent' live''
      exact bound
    · have same := Program.wp.play (startJob_invalid consistent live (rounds + 2) valid) choices
      rw [same] at live'
      obtain ⟨rfl, rfl⟩ := live'.unique consistent live
      exact le_max_right n row'.attempt

/-- The event of a first attempt that waits for it. -/
theorem active_within_first : ∃ p : Sessions, ∃ id row, sessions.Reaches Machine.anyStep p ∧
    LiveAt p.shared "bullmq" projectingBridge.scope "a" id row ∧
    ∀ choices id' row', LiveAt ((Operation.project projectingBridge 2 .active
      { jobID := "a", attempt := some 1 }).code.play serve choices
      p.shared).2 "bullmq" projectingBridge.scope "a" id' row' → row'.attempt ≤ max 1 row.attempt := by
  obtain ⟨p, reached, ⟨id, row⟩, found, first⟩ := Machine.exists_reached (m := sessions)
    (inTurn 0 [(.dispatch projectingBridge (jobOfBatch "a"), 12)])
    (P := fun p => ∃ entry, p.shared.liveReference "bullmq" projectingBridge.scope "a" = some entry ∧
      entry.2.state.finished = false ∧ entry.2.attempt = 1) (by decide)
  have live := (liveReference_eq_some (consistent_of_reaches reached)).mp found
  refine ⟨p, id, row, reached, live, (active_within_iff reached le_rfl (.project none) live).mpr fun ahead => ?_⟩
  have due := ahead.due
  rw [first.1, first.2] at due
  simp at due

/-- The job ran once and completed. The event that started it comes again, and the job has a second attempt. -/
theorem active_again_runs_ahead : ∃ p : Sessions, ∃ id row id' row', sessions.Reaches Machine.anyStep p ∧
    LiveAt p.shared "bullmq" projectingBridge.scope "a" id row ∧
    LiveAt ((Operation.project projectingBridge 2 .active { jobID := "a", attempt := some 1 }).code.play serve
      (fun _ => obliging)
      p.shared).2 "bullmq" projectingBridge.scope "a" id' row' ∧ ¬row'.attempt ≤ max 1 row.attempt := by
  obtain ⟨p, reached, ⟨id, row⟩, before, first, ⟨id', row'⟩, after, second⟩ :=
    Machine.exists_reached (m := sessions) (oneJob .completed)
    (P := fun p => ∃ entry, p.shared.liveReference "bullmq" projectingBridge.scope "a" = some entry ∧ entry.2.attempt = 1 ∧
      ∃ entry, ((Operation.project projectingBridge 2 .active { jobID := "a", attempt := some 1 }).code.play serve
        (fun _ => obliging)
        p.shared).2.liveReference "bullmq" projectingBridge.scope "a" = some entry ∧ entry.2.attempt = 2) (by decide +kernel)
  have consistent := consistent_of_reaches reached
  refine ⟨p, id, row, id', row', reached, (liveReference_eq_some consistent).mp before,
    (liveReference_eq_some (consistent_play _ _ consistent)).mp after, ?_⟩
  rw [first, second]
  decide

end RhinoQ.Model.BullMQ
