import RhinoQ.Machine.History
import RhinoQ.Proofs.Task.Snapshots

/-! # Snapshots and their version

A command answers with a task record it read and the executions it lists in a later store call. An execution
that is written between the two calls, or a retry that is replayed from a task that has changed, tears it.
-/

namespace RhinoQ.Model.TaskService

open TaskStore TaskContract Model.Task

variable {snapshot : Snapshot} {record : Record}

/-- The task whose executions the next store call may write. -/
def writesExecutionsOf (s : TaskStore) : Command → Phase → Option ID
  | _, .savingExecution next _ => some next.taskID
  | .createExecution _ taskID _ _, .creatingExecution => some taskID
  | .retry input, .start => if (s.retries.lookup input.commandID).isNone then some input.taskID else none
  | _, _ => none

/-- The thread has read the task and not yet its executions. -/
def Lists (id : ID) (thread : Thread) : Prop :=
  ∃ command record, thread = .running command (.listing record) ∧ record.id = id

/-- The retry is a repeat, and the task is not the one it was first answered with. -/
def ReplaysStale (s : TaskStore) : Command → Phase → Prop
  | .retry input, .start => ∃ prior, s.retries.lookup input.commandID = some prior ∧
      s.tasks.lookup prior.task.id ≠ some prior.task
  | _, _ => False

/-- The step writes an execution of a task that another command is about to list, or replays a stale retry. -/
def Tears (p : State) : Event → Prop
  | .advance t _ => ∃ command phase, p.thread t = .running command phase ∧
      ((∃ id u, writesExecutionsOf p.shared.store command phase = some id ∧ u ≠ t ∧ Lists id (p.thread u)) ∨
        ReplaysStale p.shared.store command phase)
  | _ => False

/-- The snapshot is the mapping of a task and its executions as some recorded store held them. -/
def Recorded (past : List TaskStore) (snapshot : Snapshot) : Prop :=
  ∃ s ∈ past, ∃ record, s.tasks.lookup snapshot.id = some record ∧
    newSnapshot record (s.listTaskExecutions snapshot.id) = .ok snapshot

/-- The record was stored, with the executions that are still listed. -/
def Held (s : Shared) (record : Record) : Prop :=
  ∃ σ ∈ s.past, σ.tasks.lookup record.id = some record ∧ SameList σ s.store record.id

section
variable {codec : Codec} {s : Shared} {now : Time} {command : Command} {phase : Phase} {after : Shared × Phase}

section
variable (moved : Advanced codec s now command phase after)
include moved

theorem Advanced.past : after.1.store = s.store ∧ after.1.past = s.past ∨ after.1.past = s.past ++ [after.1.store] := by
  cases moved with
  | created | replayed | retried | added | replaced | attached | moved | waiting | settled | expired => exact .inr rfl
  | _ => exact .inl ⟨rfl, rfl⟩

/-- Where a snapshot comes from: a new task, or a record and the list read for it. -/
theorem Advanced.snapshots (member : snapshot ∈ after.1.snapshots) : snapshot ∈ s.snapshots ∨
      (∃ record, Created s.store after.1.store record ∧ newSnapshot record [] = .ok snapshot) ∨
      ∃ record, phase = .listing record ∧ newSnapshot record (s.store.listTaskExecutions record.id) = .ok snapshot := by
  cases moved with
  | created _ change _ _ shows => exact (shows snapshot member).imp_right fun mapped => .inl ⟨_, change, mapped⟩
  | listed mapped =>
    obtain old | new := List.mem_append.mp member
    · exact .inl old
    · rw [List.mem_singleton.mp new]
      exact .inr (.inr ⟨_, rfl, mapped⟩)
  | _ => exact .inl member

/-- A record that is about to be listed is stored, or is a retry's first answer. -/
theorem Advanced.listing (sound : Sound s.store) (listing : after.2 = .listing record) :
    after.1.store.tasks.lookup record.id = some record ∨
      after.1.store = s.store ∧ phase = .start ∧ ∃ input prior, command = .retry input ∧
        s.store.retries.lookup input.commandID = some prior ∧ prior.task = record := by
  cases moved with
  | @read _ _ id found =>
    cases listing
    rw [sound.named id record found]
    exact .inl found
  | checked goes =>
    cases listing
    cases goes
  | replayed prior named found =>
    cases listing
    exact .inr ⟨rfl, rfl, _, prior, named, found, rfl⟩
  | retried _ _ change =>
    cases listing
    have wrote := change.wrote sound
    rw [write_store, wrote.name, wrote.tasks, FiniteMap.lookup_insert, if_pos rfl]
    exact .inl rfl
  | replaced _ change =>
    cases listing
    rw [write_store, change.tasks, FiniteMap.lookup_insert, if_pos rfl]
    exact .inl rfl
  | _ => cases listing

/-- A store call leaves the lists of the tasks whose executions it does not write. -/
theorem Advanced.sameList (sound : Sound s.store) {id : ID}
    (other : writesExecutionsOf s.store command phase ≠ some id) : SameList s.store after.1.store id := by
  have waits {t : TaskStore} {record : Waitpoint.Record} (change : Kept s.store t ∨ Waited s.store t record) :
      SameList s.store t id := by
    obtain change | change := change
    · exact sameList_of_eq change.executions change.attempts id
    · exact sameList_of_eq change.executions change.attempts id
  cases moved with
  | created _ change | replaced _ change | attached _ _ change => exact sameList_of_eq change.executions change.attempts id
  | retried named free change =>
    subst named
    refine change.sameList sound fun same => other ?_
    rw [writesExecutionsOf, free, same]
    rfl
  | added named change =>
    subst named
    exact change.sameList sound fun same => other (congrArg some same.symm)
  | moved change => exact change.sameList fun same => other (congrArg some same.symm)
  | waiting _ change => exact waits (change.imp_right fun waited => waited.2.2)
  | settled _ change | expired _ change => exact waits change
  | _ => exact .refl _ _

end

end

/-- The invariant of the runs. -/
structure Chronicled (p : State) : Prop where
  steady : Steady p
  history : History Follows p.shared.past p.shared.store
  held : ∀ t command record, p.thread t = .running command (.listing record) → Held p.shared record
  recorded : ∀ snapshot ∈ p.shared.snapshots, Recorded p.shared.past snapshot

theorem Chronicled.start (codec : Codec) : Chronicled (machine codec).start where
  steady := .start codec
  history := .start Follows.refl {}
  held t command record running := by cases running
  recorded snapshot member := by cases member

/-- A held record and the list that is mapped with it were stored together. -/
theorem Held.recorded (held : Held s record)
    (mapped : newSnapshot record (s.store.listTaskExecutions record.id) = .ok snapshot) : Recorded s.past snapshot := by
  obtain ⟨σ, member, found, lists⟩ := held
  obtain ⟨id, _, clean⟩ := newSnapshot_eq_ok mapped
  refine ⟨σ, member, record, ?_, ?_⟩
  · rw [id]
    exact found
  · rw [id, ← lists (.inr clean)]
    exact mapped

section
variable {codec : Codec} {p q : State} {e : Event}

theorem Chronicled.advanced (ok : Chronicled p) {after : Shared × Phase} (running : p.thread t = .running command phase)
    (moved : Advanced codec p.shared now command phase after) (careful : ¬Tears p (.advance t now))
    (steady : Steady (p.move t after.1 (.running command after.2))) :
    Chronicled (p.move t after.1 (.running command after.2)) := by
  have sound := ok.steady.sound
  have change := moved.change sound (ok.steady.reads t command phase running)
  have history : History Follows after.1.past after.1.store := by
    obtain ⟨store, past⟩ | past := moved.past
    · rw [store, past]
      exact ok.history
    · rw [past]
      exact ok.history.append Follows.refl Follows.trans (change.follows sound)
  have grows : p.shared.past ⊆ after.1.past := by
    obtain ⟨_, past⟩ | past := moved.past
    · rw [past]
      exact List.Subset.refl _
    · rw [past]
      exact List.subset_append_left _ _
  refine ⟨steady, history, ?_, ?_⟩
  · intro u other record lists
    obtain ⟨_, own⟩ | ⟨distinct, before⟩ := running_of_move lists
    · have listing : after.2 = .listing record := (Thread.running.inj own).2
      obtain stored | ⟨store, rfl, input, prior, rfl, found, rfl⟩ := moved.listing sound listing
      · exact ⟨after.1.store, history.recorded, stored, .refl _ _⟩
      · -- a replay that is not stale answers with the stored record
        have fresh : p.shared.store.tasks.lookup prior.task.id = some prior.task := by
          by_contra stale
          exact careful ⟨_, _, running, .inr ⟨prior, found, stale⟩⟩
        refine ⟨after.1.store, history.recorded, ?_, .refl _ _⟩
        rw [store]
        exact fresh
    · obtain ⟨σ, member, stored, list⟩ := ok.held u other record before
      refine ⟨σ, grows member, stored, list.trans (moved.sameList sound ?_)⟩
      intro writes
      exact careful ⟨_, _, running, .inl ⟨_, u, writes, distinct, other, record, before, rfl⟩⟩
  · intro snapshot member
    have later (recorded : Recorded p.shared.past snapshot) : Recorded after.1.past snapshot := by
      obtain ⟨σ, present, found⟩ := recorded
      exact ⟨σ, grows present, found⟩
    obtain old | ⟨record, created, mapped⟩ | ⟨record, rfl, mapped⟩ := moved.snapshots member
    · exact later (ok.recorded snapshot old)
    · have id := (newSnapshot_eq_ok mapped).1
      refine ⟨after.1.store, history.recorded, record, ?_, ?_⟩
      · rw [id, created.tasks, FiniteMap.lookup_insert, if_pos rfl]
      · rw [id, created.list_eq_nil sound]
        exact mapped
    · exact later ((ok.held t command record running).recorded mapped)

theorem Chronicled.step (ok : Chronicled p) (careful : ¬Tears p e) (moved : (machine codec).step p e = some q) :
    Chronicled q := by
  have stepped := step_cases moved
  have steady := ok.steady.step stepped
  cases stepped with
  | quiet _ fresh =>
    refine ⟨steady, ok.history, fun u command record running => ?_, ok.recorded⟩
    obtain ⟨_, own⟩ | ⟨_, before⟩ := running_of_move running
    · cases fresh _ _ own
    · exact ok.held u command record before
  | advanced running advanced => exact ok.advanced running advanced careful steady

end

/-- In every run without tears a snapshot is the mapping of what the store held whenever the task had
the snapshot's version, and the task had it; so two snapshots of a task with one version are equal. -/
theorem snapshots_match_version_unless_torn {codec : Codec} {p : State}
    (reached : (machine codec).Reaches (fun p e => ¬Tears p e) p) : (∀ snapshot ∈ p.shared.snapshots,
      (∃ s ∈ p.shared.past, ∃ record, s.tasks.lookup snapshot.id = some record ∧ record.version = snapshot.entityVersion) ∧
      ∀ s ∈ p.shared.past, ∀ record, s.tasks.lookup snapshot.id = some record → record.version = snapshot.entityVersion →
          newSnapshot record (s.listTaskExecutions snapshot.id) = .ok snapshot) ∧
      ∀ first ∈ p.shared.snapshots, ∀ second ∈ p.shared.snapshots, first.id = second.id →
        first.entityVersion = second.entityVersion → first = second := by
  have ok : Chronicled p :=
    reached.invariant Chronicled (.start codec) fun _ _ _ careful step ok => ok.step careful step
  refine (and_iff_left_of_imp fun held first early second late id version => ?_).mpr fun snapshot member => ?_
  · obtain ⟨⟨s, present, record, found, at_⟩, mapped⟩ := held first early
    have left := mapped s present record found at_
    have right := (held second late).2 s present record (id ▸ found) (at_.trans version)
    rw [← id, left] at right
    exact Except.ok.inj right
  · obtain ⟨σ, present, record, found, mapped⟩ := ok.recorded snapshot member
    obtain ⟨id, version, clean⟩ := newSnapshot_eq_ok mapped
    refine ⟨⟨σ, present, record, found, version.symm⟩, ?_⟩
    intro τ recorded other stored same
    rw [version] at same
    rw [← id] at clean
    -- the two stores are comparable, and agree on the task either way
    obtain follows | follows := ok.history.comparable σ present τ recorded
    · obtain ⟨rfl, lists⟩ := follows.same_of_version found stored same.symm
      rw [lists (.inl clean)]
      exact mapped
    · obtain ⟨rfl, lists⟩ := follows.same_of_version stored found same
      rw [← lists (.inr clean)]
      exact mapped

/-- A step that writes no execution and replays no retry. -/
def calm (p : State) : Event → Bool
  | .advance t _ =>
    match p.thread t with
    | .idle => true
    | .running (.retry _) .start => false
    | .running command phase => (writesExecutionsOf p.shared.store command phase).isNone
  | _ => true

theorem not_tears_of_calm (p : State) (e : Event) (passed : calm p e = true) : ¬Tears p e := by
  cases e with
  | advance t now =>
    rintro ⟨command, phase, running, ⟨id, u, writes, _⟩ | stale⟩
    · simp only [calm, running] at passed
      split at passed
      next idle => cases idle
      · cases passed
      rename_i same
      cases same
      rw [writes] at passed
      cases passed
    · unfold ReplaysStale at stale
      split at stale
      · simp only [calm, running, Bool.false_eq_true] at passed
      · exact stale
  | _ => exact fun torn => torn

theorem step_thread_of_ne (step : (machine codec).step p e = some q) (t : ℕ)
    (other : e.thread? ≠ some t) : q.thread t = p.thread t := by
  cases step_cases step with
  | quiet owns => exact Pool.move_thread_of_ne fun same => other (same ▸ owns)
  | advanced => exact Pool.move_thread_of_ne fun same => other (congrArg some same.symm)

/-- A task, and the creation of its execution up to its store call. -/
def createReport : List Event :=
  [.start 0 (.create "a" "report" "" 1), .advance 0 1, .crash 0,
   .start 0 (.createExecution "e" "a" "native" {}), .advance 0 2]

/-- The answer of the creation, and a second read of the task. -/
def readReport : List Event :=
  [.advance 0 2, .advance 0 2, .crash 0, .start 0 (.get "a"), .advance 0 3, .advance 0 3]

/-- The versions of the snapshots answered so far, with the states of the executions they list. -/
def answers (p : State) : List (ℤ × List String) :=
  p.shared.snapshots.map fun snapshot => (snapshot.entityVersion, snapshot.executions.map (·.state))

theorem report_read_twice : ∃ p q r, (machine plainCodec).runChecked calm (machine plainCodec).start createReport = some p ∧
      (machine plainCodec).step p (.advance 0 2) = some q ∧ (machine plainCodec).runChecked calm q readReport = some r ∧
      answers r = [(1, []), (2, ["pending_dispatch"]), (2, ["pending_dispatch"])] ∧
      ∀ first ∈ r.shared.snapshots, ∀ second ∈ r.shared.snapshots, first.id = second.id →
        first.entityVersion = second.entityVersion → first = second := by
  obtain ⟨p, created, current, q, step, r, read, listed⟩ :
      ∃ p, (machine plainCodec).runChecked calm (machine plainCodec).start createReport = some p ∧
        p.thread 0 = .running (.createExecution "e" "a" "native" {}) .creatingExecution ∧
        ∃ q, (machine plainCodec).step p (.advance 0 2) = some q ∧
        ∃ r, (machine plainCodec).runChecked calm q readReport = some r ∧
          answers r = [(1, []), (2, ["pending_dispatch"]), (2, ["pending_dispatch"])] := by
    decide
  have before := Machine.path_of_runChecked not_tears_of_calm created
  have careful : ¬Tears p (.advance 0 2) := by
    rintro ⟨command, phase, running, ⟨_, u, _, other, _, _, lists, _⟩ | stale⟩
    · rw [Pool.thread_of_path Event.thread? (fun _ _ _ step => step_thread_of_ne step) before (n := 1) (by decide)
        (by omega)] at lists
      cases lists
    · rw [current] at running
      cases running
      exact stale
  have path := (before.append (.cons careful step (.nil q))).append (Machine.path_of_runChecked not_tears_of_calm read)
  exact ⟨p, q, r, created, step, read, listed, (snapshots_match_version_unless_torn ⟨_, path⟩).2⟩

/-- A read of the task, a write of its execution, and the read of the executions: the snapshot carries
the version from before the write and the execution from after it. -/
theorem report_read_torn : ∃ p, (machine plainCodec).run (machine plainCodec).start
        (createReport ++ [.advance 0 2, .advance 0 2, .advance 0 2, .start 1 (.get "a"), .advance 1 3,
          .start 2 (.bindExecution "e" { runtime := "native", jobID := "j" }), .advance 2 3, .advance 2 3,
          .advance 1 3]) = some p ∧ answers p = [(1, []), (2, ["pending_dispatch"]), (2, ["dispatched"])] ∧
      p.shared.snapshots.map (·.id) = ["a", "a", "a"] := by
  decide

end RhinoQ.Model.TaskService
