import Mathlib.Data.Int.Order.Basic
import RhinoQ.Model.Rule.Scheduler
import RhinoQ.ToMathlib.Trim

/-! # What a page and a schedule call do

A page of a subject-cursor rule holds the next subjects of its set, and its end says whether there are more. A
schedule call touches the schedule of its own rule only, because rule ids hold no colon.
-/

namespace RhinoQ.Model.Rule

variable {lease : ScheduleLease} {id : String} {version : ℤ}

section Evaluation
variable {record : Record} {subjectID : String}

theorem order_spec (kept : order record subjectID scan row = .ok next) :
    next.previous = row.subjectID ∧ next.observations = scan.observations ++ [observationOf row] := by
  unfold order at kept
  dsimp only at kept
  repeat' split at kept
  all_goals cases kept
  all_goals exact ⟨rfl, rfl⟩

/-- A scan that succeeds observes every row and ends at the last one. -/
theorem scanRows_spec (kept : scanRows record subjectID scan rows = .ok final) :
    final.observations = scan.observations ++ rows.map observationOf ∧
      final.previous = ((rows.map (·.subjectID)).getLast?).getD scan.previous := by
  induction rows generalizing scan with
  | nil =>
    cases kept
    exact ⟨(List.append_nil _).symm, rfl⟩
  | cons row rest ih =>
    unfold scanRows at kept
    split at kept
    · cases kept
    split at kept
    · cases kept
    rename_i next ordered
    obtain ⟨previous, observations⟩ := order_spec ordered
    obtain ⟨all, last⟩ := ih kept
    constructor
    · rw [all, observations, List.append_assoc, List.map_cons, List.singleton_append]
    · rw [last, previous, List.map_cons, List.getLast?_cons, Option.getD_some]

theorem observationOf_subjectID (row : Row) : (observationOf row).subjectID = row.subjectID := by
  unfold observationOf
  split <;> rfl

end Evaluation

namespace Scheduler

variable {record : Record} {subjects : Subjects} {answer : Answer} {evaluatedAt : Time} {cursor : String}
variable {evaluation : Evaluation}

/-- The subjects after a presented cursor. -/
def Subjects.after (subjects : Subjects) (cursor : String) : List String :=
  subjects.ids.filter ((decodeCursor cursor).2 < ·)

/-- The parameters of a subject-cursor walk start with the baseline, the decoded cursor and the row limit. -/
theorem parameters_spec
    (table : record.scope = .table) (accepted : parameters record "" changedAt subject = .ok (arguments, start)) :
    ∃ rest, arguments = .time record.baselineAt :: .text subject :: .count record.maxRows :: rest := by
  unfold parameters at accepted
  rw [if_pos table] at accepted
  dsimp only at accepted
  repeat' split at accepted
  all_goals cases accepted
  all_goals exact ⟨_, rfl⟩

/-- The page of a walk: the next subjects, the cursor at the last of them, and more to come exactly
when the page is full. -/
theorem evaluateRows_spec (table : record.scope = .table) (walks : record.cursor = .subject)
    (returned : evaluateRows (walkQuery subjects answer) evaluatedAt record "" cursor = .ok evaluation) :
    evaluation.observations.map (·.subjectID) = (subjects.after cursor).take record.maxRows.toNat ∧
      (evaluation.hasMore = true ↔ evaluation.observations ≠ [] ∧ (evaluation.observations.length : ℤ) = record.maxRows) ∧
      (evaluation.observations ≠ [] →
        (evaluation.observations.map (·.subjectID)).getLast? = some evaluation.nextCursor) := by
  unfold evaluateRows at returned
  dsimp only at returned
  split at returned
  · cases returned
  rename_i arguments start accepted
  obtain ⟨rest, rfl⟩ := parameters_spec table accepted
  dsimp only [walkQuery] at returned
  split at returned
  · cases returned
  split at returned
  · cases returned
  rename_i scan scanned
  obtain ⟨observations, previous⟩ := scanRows_spec scanned
  rw [← List.map_take, List.take_take, Nat.min_self] at observations previous
  have listed : scan.observations.map (·.subjectID) = (subjects.after cursor).take record.maxRows.toNat := by
    rw [observations, List.nil_append, List.map_map, List.map_map]
    exact (List.map_congr_left fun s _ => observationOf_subjectID _).trans (List.map_id' _)
  have last : scan.observations ≠ [] → (scan.observations.map (·.subjectID)).getLast? = some scan.previous := by
    intro some
    have named : (((subjects.after cursor).take record.maxRows.toNat).map fun s =>
        ({ answer.row s with subjectID := s } : Row)).map
          (·.subjectID) = (subjects.after cursor).take record.maxRows.toNat := by
      rw [List.map_map]
      exact List.map_id' _
    rw [listed, previous]
    rw [Subjects.after] at named
    rw [named]
    cases tail : ((subjects.after cursor).take record.maxRows.toNat).getLast? with
    | none =>
      rw [List.getLast?_eq_none_iff, ← listed, List.map_eq_nil_iff] at tail
      exact absurd tail some
    | some s =>
      rw [Subjects.after] at tail
      rw [tail]
      rfl
  cases returned
  unfold pageOf
  by_cases empty : scan.observations = []
  · rw [if_neg (fun both => both.2 empty)]
    exact ⟨listed, by simp [empty], fun some => absurd empty some⟩
  · rw [if_pos ⟨table, empty⟩]
    dsimp only
    rw [if_neg (by rw [walks]; decide)]
    exact ⟨listed, by simp [empty], last⟩

theorem evaluateRows_of_evaluateRule {query : List Argument → Except Error QueryResult}
    (returned : evaluateRule query evaluatedAt record "" cursor = .ok evaluation) :
    record.withDefaults.validate = .ok () ∧ record.withDefaults.scope ≠ .job ∧
      evaluateRows query evaluatedAt record.withDefaults "" cursor = .ok evaluation := by
  unfold evaluateRule at returned
  dsimp only at returned
  split at returned
  · cases returned
  rename_i valid
  split_ifs at returned with _ anyScope
  refine ⟨valid, ?_, returned⟩
  intro job
  exact anyScope ⟨job, by decide⟩

end Scheduler

namespace RuleStore

/-- What the names of saved rules have in common. -/
def Named (id : String) (version : ℤ) : Prop := idMatches id = true ∧ 1 ≤ version

theorem not_mem_of_idMatches (valid : idMatches id = true) : ':' ∉ id.toList := by
  unfold idMatches at valid
  split at valid
  · cases valid
  rename_i first rest characters
  rw [characters]
  intro colon
  rcases List.mem_cons.mp colon with rfl | later
  · simp [isIDStart] at valid
  · have allowed := List.all_eq_true.mp (Bool.and_eq_true_iff.mp valid).2 ':' later
    simp [isIDStart] at allowed

theorem scheduleKey_inj (left : Named id version) (right : Named id' version')
    (same : scheduleKey id version = scheduleKey id' version') : id = id' ∧ version = version' := by
  have lists : id.toList ++ ':' :: (toString version).toList = id'.toList ++ ':' :: (toString version').toList := by
    have equal := congrArg String.toList same
    simpa [scheduleKey] using equal
  obtain ⟨ids, versions⟩ := append_cons_cancel (not_mem_of_idMatches left.1) (not_mem_of_idMatches right.1) lists
  have named := toString_inj_of_nonneg (by have := left.2; omega) (by have := right.2; omega) (String.toList_inj.mp versions)
  exact ⟨String.toList_inj.mp ids, named⟩

variable {store : RuleStore} {id id' : String} {version version' : ℤ} {record : Record}

theorem named_of_mem (stored : record ∈ FiniteMap.values store.records) : Named record.id record.version := by
  obtain ⟨k, found⟩ := FiniteMap.mem_values_iff.mp stored
  obtain ⟨identified, _, _⟩ := Record.of_validate (store.saved k record found).2
  simp only [Record.identified, Bool.and_eq_true, decide_eq_true_eq] at identified
  obtain ⟨⟨⟨⟨⟨⟨⟨⟨⟨_, _⟩, matched⟩, positive⟩, _⟩, _⟩, _⟩, _⟩, _⟩, _⟩ := identified
  exact ⟨matched, positive⟩

theorem schedule_write (next : Schedule) (left : Named id version) (right : Named id' version') :
    schedule { store with schedules := store.schedules.insert (scheduleKey id' version') next } id version =
      if id = id' ∧ version = version' then next else store.schedule id version := by
  rw [schedule, FiniteMap.lookup_insert]
  by_cases same : id = id' ∧ version = version'
  · rw [if_pos (by rw [same.1, same.2]), if_pos same, Option.getD_some]
  · rw [if_neg (fun equal => same (scheduleKey_inj left right equal)), if_neg same, schedule]

/-- What the claims of a batch do to one schedule, and what the leases on it carry. -/
structure Claimed (store : RuleStore) (id : String) (version : ℤ) (leases : List ScheduleLease) (after : RuleStore) :
    Prop where
  cursor : (after.schedule id version).cursor = (store.schedule id version).cursor
  epoch : after.schedule id version = store.schedule id version ∨
    (store.schedule id version).epoch < (after.schedule id version).epoch
  named : ∀ lease ∈ leases, Named lease.ruleID lease.version
  handed : ∀ lease ∈ leases, lease.ruleID = id → lease.version = version →
    lease.cursor = (store.schedule id version).cursor ∧ lease.epoch ≤ (after.schedule id version).epoch

theorem claimOne_spec (store : RuleStore) (owner : String) (now : Time) (leaseFor : Duration) (watched : Named id version)
    (named : Named record.id record.version) :
    Claimed store id version [(claimOne owner now leaseFor store record).1]
      (claimOne owner now leaseFor store record).2 := by
  have after : (claimOne owner now leaseFor store record).2.schedule id version =
      if id = record.id ∧ version = record.version then
        { store.schedule record.id record.version with
          owner, epoch := (store.schedule record.id record.version).epoch + 1, expiresAt := now + leaseFor }
      else store.schedule id version := schedule_write _ watched named
  have own : ∀ lease ∈ [(claimOne owner now leaseFor store record).1], Named lease.ruleID lease.version :=
    fun lease member => List.mem_singleton.mp member ▸ named
  by_cases same : id = record.id ∧ version = record.version
  · rw [if_pos same] at after
    obtain ⟨rfl, rfl⟩ := same
    refine ⟨by rw [after], .inr ?_, own, ?_⟩
    · rw [after]
      exact Int.lt_succ _
    · intro lease member _ _
      rw [List.mem_singleton.mp member, after]
      exact ⟨rfl, le_rfl⟩
  · rw [if_neg same] at after
    refine ⟨congrArg Schedule.cursor after, .inl after, own, ?_⟩
    intro lease member ids versions
    rw [List.mem_singleton.mp member] at ids versions
    exact absurd ⟨ids.symm, versions.symm⟩ same

theorem claimAll_spec (store : RuleStore) (owner : String) (now : Time) (leaseFor : Duration) (watched : Named id version)
    {records : List Record} (named : ∀ record ∈ records, Named record.id record.version) :
    Claimed store id version (claimAll owner now leaseFor store records).1
      (claimAll owner now leaseFor store records).2 := by
  induction records generalizing store with
  | nil => exact ⟨rfl, .inl rfl, nofun, nofun⟩
  | cons record rest ih =>
    have first := claimOne_spec store owner now leaseFor watched (named record (.head _))
    have others := ih (claimOne owner now leaseFor store record).2 fun r member => named r (.tail _ member)
    have later : ((claimOne owner now leaseFor store record).2.schedule id version).epoch ≤
        ((claimAll owner now leaseFor store (record :: rest)).2.schedule id version).epoch := by
      rcases others.epoch with same | more
      · exact le_of_eq (congrArg Schedule.epoch same.symm)
      · exact le_of_lt more
    refine ⟨others.cursor.trans first.cursor, ?_, ?_, ?_⟩
    · rcases first.epoch with same | more
      · exact same ▸ others.epoch
      · exact .inr (lt_of_lt_of_le more later)
    · intro lease member
      rcases List.mem_cons.mp member with rfl | tail
      · exact first.named _ (.head _)
      · exact others.named lease tail
    · intro lease member ids versions
      rcases List.mem_cons.mp member with rfl | tail
      · obtain ⟨cursor, epoch⟩ := first.handed _ (.head _) ids versions
        exact ⟨cursor, le_trans epoch later⟩
      · obtain ⟨cursor, epoch⟩ := others.handed lease tail ids versions
        exact ⟨cursor.trans first.cursor, epoch⟩

theorem ScheduleLease.owner_ne_of_validate (valid : lease.validate = .ok ()) : lease.owner ≠ "" := by
  intro blank
  unfold ScheduleLease.validate at valid
  rw [if_pos] at valid
  · cases valid
  · have trimmed : Text.trimSpace "" = "" := by decide
    simp [blank, trimmed]

/-- The schedule is held under the owner and the epoch of the lease. -/
def Holds (store : RuleStore) (lease : ScheduleLease) : Prop :=
  lease.owner ≠ "" ∧ (store.schedule lease.ruleID lease.version).owner = lease.owner ∧
    (store.schedule lease.ruleID lease.version).epoch = lease.epoch

theorem updateSchedule_spec
    (accepted : store.updateSchedule lease update = .ok after) (watched : Named id version)
    (named : Named lease.ruleID lease.version) : store.Holds lease ∧ after.schedule id version =
      if id = lease.ruleID ∧ version = lease.version then update (store.schedule id version)
      else store.schedule id version := by
  unfold updateSchedule at accepted
  split at accepted
  · cases accepted
  rename_i valid
  dsimp only at accepted
  split at accepted
  · cases accepted
  rename_i state found
  have current : store.schedule lease.ruleID lease.version = state := by rw [schedule, found, Option.getD_some]
  split at accepted
  · cases accepted
  rename_i fence
  rw [not_or, not_not, not_not] at fence
  cases accepted
  refine ⟨⟨ScheduleLease.owner_ne_of_validate valid, current ▸ fence.1, current ▸ fence.2⟩, ?_⟩
  rw [schedule_write _ watched named]
  split
  next same => rw [same.1, same.2, current]
  next => rfl

end RuleStore

namespace Scheduler

open RuleStore

/-- The cursor that a settlement leaves. -/
def Settlement.resume : Settlement → String → String
  | .advance cursor, _ => cursor
  | .complete, _ => ""
  | .fail _, cursor => cursor

/-- An accepted settlement comes from the lease that holds the schedule and gives it back. -/
theorem settle_spec
    (accepted : settle store lease action = .ok after) (watched : Named id version)
      (named : Named lease.ruleID lease.version) :
    store.Holds lease ∧ (¬(id = lease.ruleID ∧ version = lease.version) →
      after.schedule id version = store.schedule id version) ∧
      (id = lease.ruleID ∧ version = lease.version → (after.schedule id version).owner = "" ∧
        (after.schedule id version).epoch = (store.schedule id version).epoch ∧
        (after.schedule id version).cursor = action.resume (store.schedule id version).cursor) := by
  have released : ∃ update : Schedule → Schedule, store.updateSchedule lease update = .ok after ∧
      ∀ state, (update state).owner = "" ∧ (update state).epoch = state.epoch ∧
        (update state).cursor = action.resume state.cursor := by
    cases action with
    | advance cursor =>
      dsimp only [settle, advanceRuleCursor] at accepted
      split at accepted
      · cases accepted
      · exact ⟨_, accepted, fun _ => ⟨rfl, rfl, rfl⟩⟩
    | complete => exact ⟨_, accepted, fun _ => ⟨rfl, rfl, rfl⟩⟩
    | fail retryAfter =>
      dsimp only [settle, failRuleRun] at accepted
      split at accepted
      · cases accepted
      · exact ⟨_, accepted, fun _ => ⟨rfl, rfl, rfl⟩⟩
  obtain ⟨update, done, released⟩ := released
  obtain ⟨holds, written⟩ := updateSchedule_spec done watched named
  refine ⟨holds, fun other => by rw [written, if_neg other], ?_⟩
  intro same
  rw [written, if_pos same]
  exact released _

end Scheduler

end RhinoQ.Model.Rule
