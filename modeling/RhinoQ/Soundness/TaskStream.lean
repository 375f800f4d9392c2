import RhinoQ.Model.TaskStream

/-! # No lost wake-up

A change that is told after a read began is read without waiting for the timer: the flag keeps it until the read is over, and
the callback of a wait ends it. Either way the loop goes back to its head, which begins the next read.
-/

namespace RhinoQ.Model.TaskStream

open TaskStream.Stream

variable {config : Config} {s t : Stream} {event : Event} {now : ℤ}

namespace Stream

/-- The versions that were sent, up to the last one. -/
def InOrder (s : Stream) : Prop := s.snapshots.Pairwise (· < ·) ∧ ∀ version ∈ s.snapshots, version ≤ s.version

/-- What the flag and the callback are for. -/
structure Alert (s : Stream) : Prop where
  blocked : ∀ budget, s.phase = .waiting budget → s.wake = .finish ∧ s.announced = false
  flagged : s.phase = .reading → s.announced = true → s.touched = true
  given : s.phase = .resolved false → s.aborted = true
  sent : s.InOrder

theorem InOrder.again (sent : s.InOrder) : Alert s.again := by
  unfold Stream.again
  split
  · exact ⟨nofun, nofun, nofun, sent⟩
  · exact ⟨nofun, nofun, nofun, sent⟩

theorem phase_again (running : s.aborted = false) : s.again.phase = .reading ∧ s.again.announced = false := by
  rw [Stream.again, running]
  exact ⟨rfl, rfl⟩

theorem Alert.finish (alert : Alert s) {value : Bool} (given : value = false → s.aborted = true) :
    Alert (s.finish value) := by
  unfold Stream.finish
  split
  · refine ⟨nofun, nofun, ?_, alert.sent⟩
    rintro ⟨⟩
    exact given rfl
  · exact alert

/-- A wait ends when it is told of a change, and a read finds the flag. -/
theorem Alert.announce (alert : Alert s) : Alert { s with touched := true, announced := true }.callWake := by
  have blocked := alert.blocked
  have given := alert.given
  have sent : { s with touched := true, announced := true }.InOrder := alert.sent
  unfold callWake Stream.finish
  constructor <;> grind [InOrder]

theorem Alert.sendSnapshot (alert : Alert s) (task : Summary) : Alert (s.sendSnapshot task) := by
  unfold Stream.sendSnapshot
  split
  next newer =>
    refine ⟨alert.blocked, alert.flagged, alert.given, ?_⟩
    obtain ⟨ascending, bounded⟩ := alert.sent
    grind [InOrder]
  next => exact alert

theorem Alert.sendHeartbeat (alert : Alert s) : Alert (sendHeartbeat config s now) := by
  unfold Stream.sendHeartbeat
  split
  · exact ⟨alert.blocked, alert.flagged, alert.given, alert.sent⟩
  · exact alert

theorem Alert.await (alert : Alert s) (reading : s.phase = .reading) (connected : Bool) :
    Alert (await config s now connected) := by
  unfold Stream.await
  split
  next => exact InOrder.again alert.sent
  next untouched =>
    split
    · exact ⟨nofun, nofun, nofun, alert.sent⟩
    · exact ⟨fun _ _ => ⟨rfl, Bool.not_eq_true _ ▸ mt (alert.flagged reading) untouched⟩, nofun, nofun, alert.sent⟩

theorem sends_eq (config : Config) (s : Stream) (now : ℤ) (task : Summary) :
    let sent := sendHeartbeat config (s.sendSnapshot task) now
    sent.phase = s.phase ∧ sent.touched = s.touched ∧ sent.aborted = s.aborted := by
  unfold sendHeartbeat sendSnapshot
  split_ifs <;> exact ⟨rfl, rfl, rfl⟩

theorem Alert.step (alert : Alert s) (stepped : s.step config event = some t) : Alert t := by
  cases event with
  | announce change =>
    rw [step] at stepped
    split at stepped
    · cases stepped
    split_ifs at stepped
    · cases stepped
      exact alert
    · cases stepped
      exact alert.announce
  | read answer now connected =>
    simp only [step] at stepped
    split at stepped
    · cases stepped
      exact ⟨nofun, nofun, nofun, alert.sent⟩
    next task reading =>
      have sends : Alert (Stream.sendHeartbeat config (s.sendSnapshot task) now) :=
        (alert.sendSnapshot task).sendHeartbeat
      cases stepped
      split
      · exact ⟨nofun, nofun, nofun, sends.sent⟩
      · exact sends.await ((sends_eq config s _ task).1.trans reading) connected
    · cases stepped
  | timeout =>
    rw [step] at stepped
    split at stepped
    · cases stepped
      exact alert.finish nofun
    · cases stepped
  | abort =>
    cases stepped
    have aborted : Alert { s with aborted := true } := ⟨alert.blocked, alert.flagged, fun _ => rfl, alert.sent⟩
    exact aborted.finish fun _ => rfl
  | resume =>
    rw [step] at stepped
    split at stepped
    · cases stepped
      exact InOrder.again alert.sent
    · cases stepped
      exact ⟨nofun, nofun, nofun, alert.sent⟩
    · cases stepped

/-- The loop's own next step begins a read. Only the read that is under way may end the stream instead, when it fails
or finds a terminal task. -/
def ReadsNext (config : Config) (s : Stream) : Prop :=
  match s.phase with
  | .reading => ∀ answer now connected, ∃ t, s.step config (.read answer now connected) = some t ∧
      if answer.all fun task => isTerminal task.state then t.phase = .returned else t.phase = .reading ∧ t.announced = false
  | .resolved _ => ∃ t, s.step config .resume = some t ∧ t.phase = .reading ∧ t.announced = false
  | .waiting _ => False
  | .returned => True

theorem Alert.readsNext (alert : Alert s) (announced : s.announced = true) (running : s.aborted = false) :
    ReadsNext config s := by
  unfold ReadsNext
  split
  next reading =>
    intro answer now connected
    simp only [Stream.step, reading]
    cases answer with
    | none => exact ⟨_, rfl, rfl⟩
    | some task =>
      refine ⟨_, rfl, ?_⟩
      obtain ⟨_, touched, aborted⟩ := sends_eq config s now task
      rw [Option.all_some]
      split
      · rfl
      · rw [Stream.await, touched, alert.flagged reading announced, if_pos rfl]
        exact phase_again (aborted.trans running)
  next value resolved =>
    cases value with
    | true =>
      simp only [Stream.step, resolved]
      exact ⟨_, rfl, phase_again running⟩
    | false => exact absurd (alert.given resolved) (Bool.eq_false_iff.mp running)
  next budget waiting => exact Bool.false_ne_true ((alert.blocked budget waiting).2.symm.trans announced)
  next => trivial

end Stream

/-- The loop is not blocked after a change that was told since its last read began: no timer stands between that change
and its next read, which is what it does next unless the request is aborted. And the versions that it sent ascend. -/
def Timely (config : Config) (s : Stream) : Prop :=
  (s.announced = true → (∀ budget, s.phase ≠ .waiting budget) ∧ s.step config .timeout = none ∧
    (s.aborted = false → s.ReadsNext config)) ∧ s.snapshots.Pairwise (· < ·)

theorem change_read_without_timeout (config : Config) (lastVersion now : ℤ)
    (reached : (machine config lastVersion now).Reaches Machine.anyStep s) : Timely config s := by
  have alert : s.Alert := by
    refine reached.invariant Alert ⟨?_, ?_, ?_, .nil, ?_⟩ fun _ _ _ _ stepped alert => alert.step stepped
    · exact fun _ waiting => nomatch waiting
    · exact fun _ told => nomatch told
    · exact fun resolved => nomatch resolved
    · exact fun _ sent => nomatch sent
  refine ⟨fun announced => ?_, alert.sent.1⟩
  have awake budget (waiting : s.phase = .waiting budget) : False :=
    Bool.false_ne_true ((alert.blocked budget waiting).2.symm.trans announced)
  refine ⟨awake, ?_, alert.readsNext announced⟩
  rw [step]
  split
  next budget waiting => exact (awake budget waiting).elim
  next => rfl

def watching : Config := { taskID := "t", tenantID := "default", pollMs := 1000, idlePollMs := 30000, heartbeatMs := 15000 }

/-- A change ends the wait after the first read, and the loop goes on to read it. -/
theorem change_during_wait_timely : ∃ s t, (machine watching 3 0).Reaches Machine.anyStep s ∧
    (s.snapshots = [4] ∧ s.announced = true) ∧ Timely watching s ∧
    s.step watching .resume = some t ∧ t.phase = .reading ∧ t.announced = false := by
  obtain ⟨s, reached, ⟨sent, told, running, resolved⟩, timely⟩ :
      ∃ s, (machine watching 3 0).Reaches Machine.anyStep s ∧
        (s.snapshots = [4] ∧ s.announced = true ∧ s.aborted = false ∧ s.phase = .resolved true) ∧ Timely watching s :=
    Machine.exists_reached_and [.read (some { entityVersion := 4, state := .running }) 0 true,
      .announce { taskID := "t", tenantID := "default" }] (by decide)
      fun _ reached _ => change_read_without_timeout _ _ _ reached
  have next := (timely.1 told).2.2 running
  simp only [ReadsNext, resolved] at next
  obtain ⟨t, resumed, reads⟩ := next
  exact ⟨s, t, reached, ⟨sent, told⟩, timely, resumed, reads⟩

end RhinoQ.Model.TaskStream
