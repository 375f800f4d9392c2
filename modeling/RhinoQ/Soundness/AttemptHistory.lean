import RhinoQ.Proofs.BullMQ.Latest
import RhinoQ.Proofs.BullMQ.Sessions

/-! # Attempts in every interleaving of sessions

A reference that has a live attempt keeps exactly one, the attempt that a bridge takes for the latest of an item is live,
and one that is done stays as it ended.
-/

namespace RhinoQ.Model.BullMQ

open TaskSchema TaskClient Machine FiniteMap

/-- An attempt that succeeded, failed or was cancelled stays so, in its place and with its reference. -/
def KeepsDone (db after : Database) : Prop := ∀ id row, db.executions.lookup id = some row → row.state.done = true →
  ∃ next, after.executions.lookup id = some next ∧ row.Evolves next ∧ next.state = row.state

theorem keepsDone_refl (db : Database) : KeepsDone db db := fun _ row stored _ => ⟨row, stored, .refl row, rfl⟩

theorem keepsDone_of_execute {command : Command} (success : command.execute db now = .ok after) : KeepsDone db after := by
  intro id row stored done
  obtain ⟨next, present, evolves⟩ := (Evolves.step success).rows id row stored
  refine ⟨next, present, evolves, ?_⟩
  have unmoved (target : ExecutionState) (allowed : row.state.canTransition row.externalID.isSome
    target = true) : False := by
    cases state : row.state <;> simp_all [ExecutionState.done, ExecutionState.canTransition]
  cases (wrote_of_execute success).executionMove with
  | kept => grind
  | added | rewrote | retried => grind [lookup_insert, ExecutionState.done, ExecutionRow.superseded]

theorem attempts_steady : Threads.Steady serve (fun db => Consistent db ∧ Topped db) KeepsDone where
  refl := keepsDone_refl
  trans _ _ _ first second id row stored done := by
    obtain ⟨next, present, evolves, same⟩ := first id row stored done
    obtain ⟨last, found, evolves', same'⟩ := second id next present (same ▸ done)
    exact ⟨last, found, evolves.trans evolves', same'.trans same⟩
  keeps _ _ query held := ⟨consistent_serve held.1 query, topped_serve held.2 query⟩
  moves _ db query _ := serve_step query (keepsDone_refl db) fun _ _ _ => keepsDone_of_execute

theorem attempts_sound (reached : sessions.Reaches anyStep p) : Consistent p.shared ∧ Topped p.shared :=
  attempts_steady.valid_of_reaches ⟨.empty, .empty⟩ reached

/-- A job that has ended, and the same job sent once more. -/
theorem exists_repeated_job : ∃ p events q row m, sessions.Reaches anyStep p ∧ sessions.Path anyStep p events q ∧
    LiveAt p.shared "bullmq" "q" "a" "a" row ∧ row.state.done = true ∧
      m ∈ latestExecutions (p.shared.executionSummaries "T") := by
  obtain ⟨p, reached, m, first, row, stored, q, ran, live, runtime, scope, external, done⟩ :=
    exists_reached (m := sessions) (oneJob .completed)
    (P := fun p => ∃ m, (latestExecutions (p.shared.executionSummaries "T")).head? = some m ∧
      ∃ row, p.shared.executions.lookup "a" = some row ∧
      ∃ q, sessions.run p (inTurn 3 [(.dispatch projectingBridge (jobOfBatch "a"), 3)]) = some q ∧ row.supersededAt = none ∧
      row.runtime = "bullmq" ∧ row.runtimeScope = "q" ∧ row.externalID = some "a" ∧ row.state.done = true)
        (by decide +kernel)
  exact ⟨p, _, q, row, m, reached, path_of_run ran, ⟨stored, live, runtime, scope, external⟩, done, List.mem_of_head? first⟩

/-- What is done stays done, from every state on. -/
theorem done_attempts_final (reached : sessions.Reaches anyStep p) (path : sessions.Path anyStep p events q) :
    KeepsDone p.shared q.shared :=
  (attempts_steady.of_path (attempts_sound reached) path).2

theorem repeated_job_final : ∃ p q : Sessions, (∃ row, p.shared.executions.lookup "a" = some row ∧ row.state.done = true) ∧
    KeepsDone p.shared q.shared := by
  obtain ⟨p, _, q, row, _, reached, path, live, done, _⟩ := exists_repeated_job
  exact ⟨p, q, ⟨row, live.stored, done⟩, done_attempts_final reached path⟩

/-- A reference that has a live attempt has exactly one in every later state. An attempt that lost it was superseded. -/
theorem reference_keeps_one_live {runtime scope external id : String} (reached : sessions.Reaches anyStep p)
    (path : sessions.Path anyStep p events q) (held : LiveAt p.shared runtime scope external id row) :
    ∃ id' next, LiveAt q.shared runtime scope external id' next ∧
      (∀ other live, LiveAt q.shared runtime scope external other live → other = id') ∧
      (id' ≠ id → ∃ old, q.shared.executions.lookup id = some old ∧ row.Evolves old ∧ old.supersededAt ≠ none) := by
  obtain ⟨consistent, evolves⟩ := steady.of_path (consistent_of_reaches reached) path
  obtain ⟨id', next, live⟩ := evolves.live runtime scope external id row held
  refine ⟨id', next, live, fun _ _ other => (other.unique consistent live).1, fun moved => ?_⟩
  obtain ⟨old, stored, kept⟩ := evolves.rows id row held.stored
  obtain ⟨bound, inScope⟩ := kept.bound external held.externalID
  refine ⟨old, stored, kept, fun current => moved (live.unique consistent ⟨stored, current, ?_, ?_, bound⟩).1⟩
  · exact kept.runtime.trans held.runtime
  · exact inScope.trans held.runtimeScope

/-- The job of a failed attempt runs again, and its retry has taken over the reference. -/
theorem repeated_job_keeps_one_live : ∃ p q : Sessions, (∃ row, LiveAt p.shared "bullmq" "q" "a" "a" row) ∧
    ∃ id next, LiveAt q.shared "bullmq" "q" "a" id next ∧ id ≠ "a" := by
  obtain ⟨p, reached, row, stored, q, ran, ⟨old, found, superseded⟩, live, runtime, scope, external⟩ :=
    exists_reached (m := sessions) (oneJob .failed) (P := fun p => ∃ row, p.shared.executions.lookup "a" = some row ∧
      ∃ q, sessions.run p (inTurn 3 [(.project projectingBridge 2 .active { jobID := "a", attempt := some 2 },
        8)]) = some q ∧
        (∃ old, q.shared.executions.lookup "a" = some old ∧ old.supersededAt ≠ none) ∧
        row.supersededAt = none ∧ row.runtime = "bullmq" ∧ row.runtimeScope = "q" ∧ row.externalID = some "a")
          (by decide +kernel)
  obtain ⟨id, next, later, _⟩ := reference_keeps_one_live reached (path_of_run ran) ⟨stored, live, runtime, scope, external⟩
  refine ⟨p, q, ⟨row, stored, live, runtime, scope, external⟩, id, next, later, ?_⟩
  rintro rfl
  cases found.symm.trans later.stored
  exact superseded later.live

/-- What a bridge takes for the latest attempt of an item is live, and every other attempt of the item has a lower number. -/
theorem latest_attempt_live {m : TaskExecutionSummary} (reached : sessions.Reaches anyStep p)
    (present : m ∈ latestExecutions (p.shared.executionSummaries t)) :
    ∃ id row, OfItem p.shared.executions t m.itemKey id row ∧ mapExecutionSummary id row = m ∧ row.supersededAt = none ∧
      ∀ other old, OfItem p.shared.executions t m.itemKey other old → other = id ∨ old.attempt < row.attempt := by
  obtain ⟨consistent, topped⟩ := attempts_sound reached
  obtain ⟨id, row, highest, rfl⟩ := (mem_latest_iff consistent).mp present
  have own : OfItem p.shared.executions t row.itemKey id row := ⟨highest.stored, highest.taskID, rfl⟩
  refine ⟨id, row, own, rfl, ?_, fun other old ofItem => ?_⟩
  · by_contra superseded
    obtain ⟨j, b, ofItem, later⟩ := topped id row own.stored superseded
    exact (highest.top j b ofItem.stored (ofItem.taskID.trans own.taskID) ofItem.itemKey).not_gt later
  · rcases (highest.top other old ofItem.stored ofItem.taskID ofItem.itemKey).lt_or_eq with lower | same
    · exact .inr lower
    · exact .inl (consistent.numbered other id old row ofItem.stored own.stored
        (ofItem.taskID.trans own.taskID.symm) ofItem.itemKey same)

theorem repeated_job_latest_live : ∃ p : Sessions, ∃ m ∈ latestExecutions (p.shared.executionSummaries "T"), ∃ id row,
    OfItem p.shared.executions "T" m.itemKey id row ∧ row.supersededAt = none := by
  obtain ⟨p, _, _, _, m, reached, _, _, _, present⟩ := exists_repeated_job
  obtain ⟨id, row, ofItem, _, live, _⟩ := latest_attempt_live reached present
  exact ⟨p, m, present, id, row, ofItem, live⟩

end RhinoQ.Model.BullMQ
