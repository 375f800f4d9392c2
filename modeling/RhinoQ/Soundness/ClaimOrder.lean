import Mathlib.Algebra.Order.Field.Rat
import Mathlib.Data.Prod.Lex
import Mathlib.Data.String.Basic
import RhinoQ.Proofs.Job.Store

/-! # What a claim of the memory store takes

A claim sorts the eligible jobs by one key and walks them in that order. It takes each job whose lane has a slot
left, until it has as many as it may take, so an eligible job is left out only behind the limit or for want of a
slot.
-/

namespace RhinoQ.Model.JobStore

open Ports FiniteMap Job Prod.Lex

/-- The sort key of a claim. -/
abbrev ClaimKey := ℚ ×ₗ ℤ ×ₗ String

section
variable (now : Time)

def claimKey (record : Record) : ClaimKey :=
  toLex (-effectivePriority record.priority record.notBefore now, toLex (record.createdAt, record.id))

theorem claimLess_iff (a b : Record) :
    claimLess now a b = true ↔ claimKey now a < claimKey now b := by
  rw [claimKey, claimKey, toLex_lt_toLex, toLex_lt_toLex]
  dsimp only
  rw [neg_lt_neg_iff, neg_inj]
  unfold claimLess
  dsimp only
  split
  next apart =>
    rw [decide_eq_true_iff]
    exact (or_iff_left fun ⟨same, _⟩ => apart same).symm
  next same =>
    rw [not_not] at same
    rw [same]
    simp only [lt_self_iff_false, false_or, true_and]
    split
    next apart =>
      rw [decide_eq_true_iff]
      exact (or_iff_left fun ⟨equal, _⟩ => apart equal).symm
    next equal =>
      rw [not_not] at equal
      rw [equal]
      simp

theorem claimOrder_iff (a b : Record) :
    claimLess now b a = false ↔ claimKey now a ≤ claimKey now b := by
  rw [← Bool.not_eq_true, claimLess_iff, not_lt]

theorem sortByClaimOrder_pairwise (records : List Record) :
    (sortByClaimOrder records now).Pairwise fun a b => claimKey now a ≤ claimKey now b := by
  have total : Std.Total fun a b : Record => claimLess now b a = false :=
    ⟨fun a b => by simp only [claimOrder_iff]; exact le_total _ _⟩
  have trans : IsTrans Record fun a b => claimLess now b a = false :=
    ⟨fun a b c => by simp only [claimOrder_iff]; exact le_trans⟩
  exact (List.pairwise_insertionSort _ records).imp fun {a b} order => (claimOrder_iff now a b).mp order

end

variable {s t : JobStore} {input : ClaimInput} {record : Record} {room : ℕ}

/-- A due job that waits in a subscribed lane that is not paused. -/
structure Eligible (s : JobStore) (input : ClaimInput) (record : Record) : Prop where
  stored : ∃ id, s.jobs.lookup id = some record
  waiting : record.state = .pending ∨ record.state = .retryWait
  due : record.notBefore ≤ input.now
  subscribed : input.queueNames = [] ∨ record.queueName ∈ input.queueNames
  unpaused : s.isPaused record.queueName = false

theorem mem_candidates_iff : record ∈ s.candidates input ↔ s.Eligible input record := by
  simp only [candidates, List.mem_filter, mem_values_iff, subscribed, claimable, Bool.and_eq_true, Bool.or_eq_true,
    List.isEmpty_iff, List.contains_iff_mem, beq_iff_eq, decide_eq_true_eq, Bool.not_eq_true']
  exact ⟨fun ⟨stored, ⟨subscribed, waiting, due⟩, unpaused⟩ => ⟨stored, waiting, due, subscribed, unpaused⟩,
    fun ⟨stored, waiting, due, subscribed, unpaused⟩ => ⟨stored, ⟨subscribed, waiting, due⟩, unpaused⟩⟩

/-- The lane's window is running and all its slots are taken. -/
def NoSlot (s : JobStore) (lane : String) (now : Time) : Prop :=
  ∃ state, s.rateLimits.lookup lane = some state ∧ state.windowStarted ≠ 0 ∧
    now < state.windowStarted + state.limit.window ∧ state.limit.max ≤ state.count

theorem noSlot_of_refused (refused : s.reserveRateSlot lane now = none) : s.NoSlot lane now := by
  unfold reserveRateSlot at refused
  split at refused
  next => cases refused
  next state found =>
    split_ifs at refused with ended taken
    rw [not_or, not_not, Time.isZero, beq_iff_eq] at ended
    exact ⟨state, found, ended.1, ended.2, taken⟩

theorem Picked.length_le (picked : Picked input s room records claimed t) :
    claimed.length ≤ room := by
  induction picked with
  | done | full => exact Nat.zero_le _
  | passed _ _ ih => exact ih
  | taken _ _ ih => exact Nat.succ_le_succ ih

/-- A record that the loop leaves out found its lane without a slot, or stands behind every record taken. -/
theorem Picked.left_out
    (picked : Picked input s room records claimed t) (sorted : records.Pairwise rank) (member : record ∈ records)
    (unclaimed : record ∉ claimed) : (∃ before after, records = before ++ record :: after ∧
        (s.claimEach input room before).2.NoSlot record.queueName input.now) ∨
      claimed.length = room ∧ ∀ taken ∈ claimed, rank taken record := by
  induction picked with
  | done => cases member
  | full => exact .inr ⟨rfl, fun _ taken => by cases taken⟩
  | passed refused _ ih =>
    rcases List.mem_cons.mp member with rfl | later
    · exact .inl ⟨[], _, rfl, noSlot_of_refused refused⟩
    · refine (ih sorted.of_cons later unclaimed).imp_left fun ⟨before, after, split, spent⟩ =>
        ⟨_ :: before, after, congrArg _ split, ?_⟩
      rw [claimEach, refused]
      exact spent
  | taken reserved _ ih =>
    rw [List.mem_cons, not_or] at unclaimed
    have later := (List.mem_cons.mp member).resolve_left unclaimed.1
    rcases ih sorted.of_cons later unclaimed.2 with ⟨before, after, split, spent⟩ | ⟨limit, behind⟩
    · refine .inl ⟨_ :: before, after, congrArg _ split, ?_⟩
      rw [claimEach, reserved]
      exact spent
    · exact .inr ⟨congrArg _ limit, List.forall_mem_cons.mpr ⟨List.rel_of_pairwise_cons sorted later, behind⟩⟩

/-- A claim is refused with the store as it was, or it takes eligible jobs in claim order, at most as many as
its limit. An eligible job that it leaves out, before a claimed one or with room left, found no slot in its lane
after the candidates before it. -/
theorem claim_picks (s : JobStore) (input : ClaimInput) :
    (∃ text, validateClaim input = .error text ∧ s.claim input = (.error (.message text), s)) ∨
      ∃ (claimed : List Record) (t : JobStore),
      s.claim input = (.ok (claimed.map (leaseRecord input)), t) ∧
      claimed.Pairwise (fun a b => claimKey input.now a ≤ claimKey input.now b) ∧
      claimed.length ≤ input.limit ∧ (∀ record ∈ claimed, s.Eligible input record) ∧
      ∀ record, s.Eligible input record → record ∉ claimed → (claimed.length < input.limit ∨
        ∃ taken ∈ claimed, claimKey input.now record < claimKey input.now taken) →
        ∃ before after, sortByClaimOrder (s.candidates input) input.now = before ++ record :: after ∧
          (s.claimEach input input.limit.toNat before).2.NoSlot record.queueName input.now := by
  rcases s.claim_cases input with ⟨text, invalid, ran⟩ | ⟨valid, claimed, t, ran, picked⟩
  · exact .inl ⟨text, invalid, ran⟩
  have sorted := sortByClaimOrder_pairwise input.now (s.candidates input)
  have member {record} : record ∈ sortByClaimOrder (s.candidates input) input.now ↔
    s.Eligible input record :=
    (List.mem_insertionSort _).trans mem_candidates_iff
  have positive : 0 < input.limit := by
    by_contra negative
    rw [validateClaim, if_pos (.inr (.inl (not_lt.mp negative)))] at valid
    cases valid
  have bound := picked.length_le
  refine .inr ⟨claimed, t, ran, sorted.sublist picked.sublist, by omega,
    fun record taken => member.mp (picked.sublist.subset taken), fun record eligible unclaimed ahead => ?_⟩
  refine (picked.left_out sorted (member.mpr eligible) unclaimed).resolve_right fun ⟨limit, behind⟩ => ?_
  rcases ahead with room | ⟨taken, here, before⟩
  · omega
  · exact absurd before (behind taken here).not_gt

end RhinoQ.Model.JobStore
