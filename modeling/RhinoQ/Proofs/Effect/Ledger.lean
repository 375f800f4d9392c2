import RhinoQ.Model.Effect.Call

/-! # What each ledger call does

Opening returns the stored record or inserts the new one under the caller's epoch, a save overwrites one key
and keeps its epoch, and a sweep downgrades exactly the pending effects its list covers.
-/

namespace RhinoQ.Model

open Ports Effect EffectStore

variable {jobs : JobStore} {now : Time}

namespace EffectStore

variable {record : Record}

variable (s : EffectStore)

/-- Every record sits under its own key. -/
def Keyed : Prop := ∀ key record, s.effects.lookup key = some record → record.key = key

theorem keyed_empty : Keyed {} := by
  intro key record found
  cases found

theorem checkFence_eq_ok (passed : checkFence jobs lease now record = .ok ()) :
    jobs.checkLease lease now = .ok () ∧ record.jobID = lease.jobID := by
  unfold checkFence at passed
  split at passed
  next => cases passed
  rename_i live
  split at passed
  next => cases passed
  next same => exact ⟨live, (not_not.mp same).symm⟩

theorem saveEffect_cases (record : Record) : (s.saveEffect record).2 = s ∨
      ∃ existing, s.effects.lookup record.key = some existing ∧ (s.saveEffect record).2.effects =
          s.effects.insert record.key { record with leaseEpoch := existing.leaseEpoch } := by
  unfold saveEffect
  split
  next => exact .inl rfl
  next existing found => exact .inr ⟨existing, found, rfl⟩

/-- What a write of `record` may do to the record stored under `key`. -/
inductive Wrote (record : Record) (before after : EffectStore) (key : String) : Prop
  | kept (same : after.effects.lookup key = before.effects.lookup key)
  | saved (old : Record) (own : record.key = key) (found : before.effects.lookup key = some old)
      (stored : after.effects.lookup key = some { record with leaseEpoch := old.leaseEpoch })

theorem saveEffect_wrote (record : Record) (key : String) :
    Wrote record s (s.saveEffect record).2 key := by
  rcases s.saveEffect_cases record with same | ⟨old, found, stored⟩
  · exact .kept (by rw [same])
  · by_cases own : key = record.key
    · subst own
      exact .saved old rfl found (by rw [stored, FiniteMap.lookup_insert, if_pos rfl])
    · exact .kept (by rw [stored, FiniteMap.lookup_insert, if_neg own])

/-- An accepted begin returns the record that is stored under the key or stores the new one there. -/
theorem beginEffect_eq_ok {s t : EffectStore} (success : s.beginEffect lease record = (.ok opened, t)) :
    s.effects.lookup record.key = some opened ∧ t = s ∨ s.effects.lookup record.key = none ∧
      opened = { record with leaseEpoch := lease.epoch } ∧ t.effects = s.effects.insert record.key opened := by
  unfold beginEffect at success
  split at success
  next existing found =>
    split_ifs at success
    · cases success
    · cases success
      exact .inl ⟨found, rfl⟩
  next missing =>
    cases success
    exact .inr ⟨missing, rfl, rfl⟩

theorem beginEffect_eq_error {s t : EffectStore} (failure : s.beginEffect lease record = (.error error, t)) : t = s := by
  unfold beginEffect at failure
  split at failure
  · exact (Prod.mk.inj failure).2.symm
  · cases failure

section
variable (jobID : String)
variable {item : ExpiredLease} {current : Option ℤ} {floor bound : ℤ} {expired : List ExpiredLease}

private theorem raiseBound_self (current : Option ℤ) (own : item.jobID = jobID) :
    ∃ bound, raiseBound jobID current item = some bound ∧ item.epoch ≤ bound ∧
      (bound = item.epoch ∨ current = some bound) := by
  unfold raiseBound
  rw [if_neg (not_not.mpr own)]
  cases current with
  | none => exact ⟨_, rfl, le_rfl, .inl rfl⟩
  | some epoch =>
    dsimp only
    split
    next => exact ⟨_, rfl, le_rfl, .inl rfl⟩
    next low => exact ⟨_, rfl, by omega, .inr rfl⟩

private theorem raiseBound_other (current : Option ℤ) (other : item.jobID ≠ jobID) :
    raiseBound jobID current item = current := if_pos other

private theorem raiseBound_le (item : ExpiredLease) (reached : current = some floor) :
    ∃ bound, raiseBound jobID current item = some bound ∧ floor ≤ bound := by
  subst reached
  unfold raiseBound
  split
  · exact ⟨floor, rfl, le_rfl⟩
  dsimp only
  split
  next higher => exact ⟨_, rfl, by omega⟩
  next => exact ⟨_, rfl, le_rfl⟩

private theorem foldl_raiseBound_floor (expired : List ExpiredLease) (reached : current = some floor) :
    ∃ bound, expired.foldl (raiseBound jobID) current = some bound ∧ floor ≤ bound := by
  induction expired generalizing current floor with
  | nil => exact ⟨floor, reached, le_rfl⟩
  | cons item rest ih =>
    obtain ⟨middle, next, low⟩ := raiseBound_le jobID item reached
    obtain ⟨bound, final, high⟩ := ih next
    exact ⟨bound, final, low.trans high⟩

private theorem foldl_raiseBound_mem (final : expired.foldl (raiseBound jobID) current = some bound) :
    current = some bound ∨ ∃ item ∈ expired, item.jobID = jobID ∧ item.epoch = bound := by
  induction expired generalizing current with
  | nil => exact .inl final
  | cons item rest ih =>
    rcases ih final with reached | ⟨later, member, own, epoch⟩
    · by_cases own : item.jobID = jobID
      · obtain ⟨raised, equal, _, source⟩ := raiseBound_self jobID current own
        cases equal.symm.trans reached
        rcases source with same | before
        · exact .inr ⟨item, .head _, own, same.symm⟩
        · exact .inl before
      · rw [raiseBound_other jobID current own] at reached
        exact .inl reached
    · exact .inr ⟨later, .tail _ member, own, epoch⟩

variable {jobID} {expired : List ExpiredLease}

theorem exists_of_epochBound (found : epochBound expired jobID = some bound) :
    ∃ item ∈ expired, item.jobID = jobID ∧ item.epoch = bound := by
  rcases foldl_raiseBound_mem jobID found with start | listed
  · cases start
  · exact listed

theorem epochBound_of_mem (member : item ∈ expired) (own : item.jobID = jobID) :
    ∃ bound, epochBound expired jobID = some bound ∧ item.epoch ≤ bound := by
  obtain ⟨before, after, rfl⟩ := List.append_of_mem member
  change ∃ bound, (before ++ item :: after).foldl (raiseBound jobID) none = some bound ∧ item.epoch ≤ bound
  rw [List.foldl_append, List.foldl_cons]
  obtain ⟨middle, raised, low, _⟩ := raiseBound_self jobID (before.foldl (raiseBound jobID) none) own
  obtain ⟨bound, final, high⟩ := foldl_raiseBound_floor jobID after raised
  exact ⟨bound, final, low.trans high⟩

end

/-- The list names the record's job with an epoch at or above the one that opened it. -/
def Covers (expired : List ExpiredLease) (record : Record) : Prop :=
  ∃ item ∈ expired, item.jobID = record.jobID ∧ record.leaseEpoch ≤ item.epoch

theorem downgrade_cases (expired : List ExpiredLease) (record : Record) : downgrade expired record = record ∨
      record.state = .pending ∧ Covers expired record ∧ downgrade expired record = { record with state := .uncertain } := by
  unfold downgrade
  split
  next => exact .inl rfl
  rename_i bound found
  split
  next => exact .inl rfl
  rename_i hit
  rw [not_or, not_not, not_lt] at hit
  obtain ⟨item, member, own, epoch⟩ := exists_of_epochBound found
  exact .inr ⟨hit.1, ⟨item, member, own, epoch ▸ hit.2⟩, rfl⟩

theorem downgrade_of_covers (covered : Covers expired record) : (downgrade expired record).state ≠ .pending := by
  obtain ⟨item, member, own, high⟩ := covered
  obtain ⟨bound, found, low⟩ := epochBound_of_mem member own
  unfold downgrade
  rw [found]
  dsimp only
  split
  next skip =>
    rcases skip with settled | above
    · exact settled
    · omega
  next => exact nofun

theorem lookup_markPendingUncertain (expired : List ExpiredLease) (key : String) :
    (s.markPendingUncertain expired).2.effects.lookup key = (s.effects.lookup key).map (downgrade expired) := by
  unfold markPendingUncertain
  split
  next empty =>
    obtain rfl := List.length_eq_zero_iff.mp empty
    cases s.effects.lookup key <;> rfl
  next => exact FiniteMap.lookup_mapValues ..

end EffectStore

namespace Effect

variable {irreversible : Bool} {record : Record} {id name key : String}

theorem newExternalRecord_fields
    (success : newExternalRecord id execution subject businessKey name key irreversible now = .ok record) :
    record.id = id ∧ record.name = name ∧ record.idempotencyKey = key ∧ record.state = .pending := by
  unfold newExternalRecord at success
  split at success
  next => cases success
  obtain ⟨named, _, success⟩ := exists_of_bind_eq_ok success
  obtain ⟨about, _, success⟩ := exists_of_bind_eq_ok success
  cases success
  exact ⟨rfl, rfl, rfl, rfl⟩

theorem newRecord_fields (success : newRecord id jobID name key irreversible now = .ok record) :
    record.id = id ∧ record.name = name ∧ record.idempotencyKey = key ∧ record.state = .pending := by
  unfold newRecord at success
  split at success
  · cases success
  · exact newExternalRecord_fields success

namespace EffectCall

variable {call : EffectCall}

/-- The record that a call with a live lease is about to open. -/
theorem serviceBegin_eq_ok (success : call.serviceBegin jobs id now = .ok record) : jobs.checkLease call.lease now = .ok () ∧
      record.key = call.key ∧ record.state = .pending ∧ record.jobID = call.lease.jobID := by
  unfold serviceBegin at success
  split at success
  next => cases success
  rename_i record built
  obtain ⟨_, name, key, pending⟩ := newRecord_fields built
  split at success
  next => cases success
  rename_i fence
  obtain ⟨live, own⟩ := checkFence_eq_ok fence
  cases success
  refine ⟨live, ?_, pending, own⟩
  rw [Record.key, EffectCall.key, own, name, key]

theorem resolveUnknown_wrote (s : EffectStore) (record : Record) (key : String) :
    (resolveUnknown s record).2.effects.lookup key = s.effects.lookup key ∨ record.state = .pending ∧
        Wrote { record with state := .uncertain } s (resolveUnknown s record).2 key := by
  unfold resolveUnknown
  split
  next => exact .inl rfl
  rename_i updated marked
  obtain ⟨pending, rfl⟩ := Record.markUncertain_eq_ok marked
  have wrote := s.saveEffect_wrote { record with state := .uncertain } key
  refine .inr ⟨pending, ?_⟩
  split
  next equal => exact (congrArg Prod.snd equal) ▸ wrote
  next equal => exact (congrArg Prod.snd equal) ▸ wrote

/-- What the lease check and the transition of a copy yield: the copy itself or its confirmation. -/
theorem checkAndConfirm_eq_ok (success : call.checkAndConfirm jobs now record reference = .ok updated) :
    record.state = .pending ∧
      (updated = record ∨ updated = { record with state := .confirmed, externalRef := reference }) := by
  unfold checkAndConfirm at success
  split at success
  next => cases success
  split at success
  next => cases success
  rename_i confirmed
  cases success
  exact Record.confirm_eq_ok confirmed

end EffectCall

theorem Signal.save_wrote (s : EffectStore) (record updated : Record) (key : String) :
    Wrote updated s (Signal.save s record updated).2 key := by
  have wrote := s.saveEffect_wrote updated key
  unfold Signal.save
  split
  next equal => exact (congrArg Prod.snd equal) ▸ wrote
  next equal => exact (congrArg Prod.snd equal) ▸ wrote

end Effect
end RhinoQ.Model
