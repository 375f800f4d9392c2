import RhinoQ.Model.Effect.Store
import RhinoQ.Soundness.JobCoherence

/-! # The audit of replays

A replay is refused with nothing written, or it revives one parked job and appends one row to the job's audit. Each row is
hashed together with the hash of the row before it; the hashed text does not escape the line breaks in its fields.
-/

namespace RhinoQ.Model

namespace Recovery

/-- Every row carries the hash of the row before it, and its own. -/
inductive Chained (codec : Codec) : List AuditRecord → Prop
  | nil : Chained codec []
  | snoc {rows : List AuditRecord} {row : AuditRecord} : Chained codec rows →
      row.prevHash = (rows.getLast?.map (·.rowHash)).getD "" → row.rowHash = hashAudit codec row.prevHash row →
      Chained codec (rows ++ [row])

/-! ## Replays -/

theorem AuditLog.history_insert (log : AuditLog) (n : ℕ) (key id : Job.ID) (rows : List AuditRecord) :
    AuditLog.history { nextID := n, audits := log.audits.insert key rows } id =
      if id = key then rows else log.history id := by
  simp only [AuditLog.history, FiniteMap.lookup_insert]
  split <;> rfl

end Recovery

namespace JobSystem

variable {codec : Recovery.Codec} {s t : JobSystem} {call : JobCall} {calls : List JobCall} {id : Job.ID}

/-- How many of the calls replayed the job. -/
def replayCount (codec : Recovery.Codec) (id : Job.ID) : JobSystem → List JobCall → ℕ
  | _, [] => 0
  | s, call :: rest =>
    (if s.replays codec id call then 1 else 0) + ((s.step codec call).map fun t => replayCount codec id t rest).getD 0

/-- Only an accepted replay of the job writes its history, and it appends a row. -/
theorem history_step (step : s.step codec call = some t) :
    s.replays codec id call = false ∧ t.audit.history id = s.audit.history id ∨ s.replays codec id call = true ∧
        ∃ request, t.audit.history id = s.audit.history id ++ [Recovery.auditRow codec s.audit request id] := by
  cases call with
  | replay effects request =>
    have audit : t.audit = (Recovery.replay codec s.jobs effects s.audit request).2.2 :=
      (congrArg JobSystem.audit (Option.some.inj step)).symm
    simp only [replays]
    rcases Recovery.replay_cases codec s.jobs effects s.audit request with ⟨_, ran⟩ | ⟨record, _, accepted, ran⟩
    · rw [audit, ran]
      exact .inl ⟨Bool.and_false _, rfl⟩
    · rw [audit, ran, (Recovery.of_validateReplay accepted).1, Recovery.AuditLog.history_insert]
      by_cases own : request.jobID = id
      · subst own
        rw [if_pos rfl, beq_self_eq_true]
        exact .inr ⟨rfl, request, rfl⟩
      · rw [if_neg (Ne.symm own), beq_eq_false_iff_ne.mpr own]
        exact .inl ⟨rfl, rfl⟩
  | requeueExpired input order =>
    simp only [JobSystem.step] at step
    split at step
    · cases step
      exact .inl ⟨rfl, rfl⟩
    · cases step
  | _ =>
    cases step
    exact .inl ⟨rfl, rfl⟩

theorem chained_step (step : s.step codec call = some t) (chained : Recovery.Chained codec (s.audit.history id)) :
    Recovery.Chained codec (t.audit.history id) := by
  rcases history_step step with ⟨_, same⟩ | ⟨_, request, appended⟩
  · rwa [same]
  · rw [appended]
    exact chained.snoc rfl rfl

theorem length_history (path : (machine codec).Path Machine.anyStep s calls t) :
    (t.audit.history id).length = (s.audit.history id).length + replayCount codec id s calls := by
  induction path with
  | nil => rfl
  | @cons s t u call rest _ step _ ih =>
    have taken : s.step codec call = some t := step
    rw [ih, replayCount, taken, Option.map_some, Option.getD_some]
    rcases history_step taken with ⟨other, same⟩ | ⟨replayed, _, appended⟩
    · rw [other, same, if_neg Bool.false_ne_true, Nat.zero_add]
    · rw [replayed, appended, List.length_append, if_pos rfl, List.length_singleton, Nat.add_assoc]

end JobSystem

namespace Recovery

/-- Replay is guarded and atomic, and in every run the audit of each job is a chain with one row for each of its replays. -/
theorem replay_guarded (codec : Codec) :
    (∀ (jobs : JobStore) (ledger : EffectStore) (effects : List Effect.Record) (log : AuditLog) (request : ReplayRequest),
      effects.Perm (ledger.ofJob request.jobID) → (∀ result, (replay codec jobs effects log request).1 = .ok result →
          ∃ record, jobs.jobs.lookup request.jobID = some record ∧ (record.state = .dead ∨ record.state = .blocked) ∧
            ∀ item ∈ FiniteMap.values ledger.effects, item.jobID = request.jobID →
              item.state ≠ .confirmed ∧ item.state ≠ .uncertain ∧ item.state ≠ .pending) ∧
        ∀ text, (replay codec jobs effects log request).1 = .error text →
          (replay codec jobs effects log request).2 = (jobs, log)) ∧
    ∀ calls s, (JobSystem.machine codec).Path Machine.anyStep {} calls s → ∀ id,
      Chained codec (s.audit.history id) ∧ (s.audit.history id).length = JobSystem.replayCount codec id {} calls := by
  refine ⟨fun jobs ledger effects log request seen => ?_, fun calls s path id => ⟨?_, ?_⟩⟩
  · rcases replay_cases codec jobs effects log request with ⟨_, ran⟩ | ⟨record, found, accepted, ran⟩
    · rw [ran]
      exact ⟨fun _ succeeded => (nomatch succeeded), fun _ _ => rfl⟩
    · rw [ran]
      obtain ⟨_, parked, closed⟩ := of_validateReplay accepted
      refine ⟨fun _ _ => ⟨record, found, parked, fun item stored own => ?_⟩, fun _ failed => nomatch failed⟩
      refine closed item (seen.mem_iff.mpr ?_)
      exact List.mem_filter.mpr ⟨stored, beq_iff_eq.mpr own⟩
  · refine path.invariant (fun s => Chained codec (s.audit.history id)) (fun s call t _ step chained => ?_) .nil
    exact JobSystem.chained_step step chained
  · exact (JobSystem.length_history path).trans (Nat.zero_add _)

/-- The replayed job fails for good once more and is replayed again, so that its second row follows a first; it runs
after that, and a third replay is refused. -/
theorem crashed_replay_audited : ∃ s, (JobSystem.machine .plain).run {} (crashedAndReplayed ++
      [.fail { jobID := "job_000001", owner := "w", epoch := 3 } 32
        { state := .dead, retryIn := 0, failureClass := "fatal" },
       .replay [] { jobID := "job_000001", actor := "op", reason := "again", requestedAt := 40 }]) = some s ∧
    (s.audit.history "job_000001").length = 2 ∧ Chained .plain (s.audit.history "job_000001") ∧
      ∀ text, (replay .plain s.jobs [] s.audit
        { jobID := "job_000001", actor := "op", reason := "more", requestedAt := 50 }).1 =
        .error text → (replay .plain s.jobs [] s.audit
          { jobID := "job_000001", actor := "op", reason := "more", requestedAt := 50 }).2 =
          (s.jobs, s.audit) := by
  refine exists_some_and (by decide) fun s ran _ => ⟨?_, ?_⟩
  · exact ((replay_guarded .plain).2 _ s (Machine.path_of_run ran) _).1
  · exact ((replay_guarded .plain).1 s.jobs {} [] s.audit _ (.refl [])).2

end Recovery
end RhinoQ.Model
