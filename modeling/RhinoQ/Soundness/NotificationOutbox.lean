import RhinoQ.Model.NotificationOutbox

/-! # The fence of a notification

A row knows its lease by the name of its owner. An owner that claims a notification again cannot be told from its
earlier claim.
-/

namespace RhinoQ.Model.NotificationOutbox

open Outbox FiniteMap

/-- An owner claims a notification that it has claimed before. -/
def reclaims (s : Outbox) : Event → Bool
  | .claim owner _ _ chosen => s.claims.any fun claim => claim.id == chosen && claim.owner == owner
  | _ => false

/-- The notification and the owner that a completion or a failure names. -/
def Event.lease : Event → Option (String × String)
  | .complete id owner _ | .fail id owner _ _ _ => some (id, owner)
  | _ => none

/-- A completion or a failure succeeds for the last claim of its notification, and for no other claim that its owner may make
it for. What is sent stays so and is not claimed. -/
structure Fenced (s : Outbox) : Prop where
  last : ∀ event id owner, Event.lease event = some (id, owner) → (event.call s).isOk = true →
    ∃ claim, s.latest id = some claim ∧ claim.owner = owner ∧ ∀ c ∈ s.claims, c.id = id → c.owner = owner → c = claim
  sent : ∀ id row, s.rows.lookup id = some row → row.state = .sent →
    ∀ event t, Event.call s event = .ok t → t.rows.lookup id = some row ∧ t.latest id = s.latest id

/-- What a call can change. -/
inductive Called (s : Outbox) : Event → Outbox → Prop
  | same (idle : event.lease = none) : Called s event s
  | inserted (id : String) (row : Row) (absent : s.rows.lookup id = none) (pending : row.state = .pending) :
    Called s (.insert id now) { s with rows := s.rows.insert id row }
  | claimed (id : String) (row next : Row) (attempt : ℤ) (stored : s.rows.lookup id = some row) (unsent : row.state ≠ .sent)
    (owned : next.leaseOwner = some owner) :
    Called s (.claim owner leaseMs now id) { rows := s.rows.insert id next, claims := { id, owner, attempt } :: s.claims }
  | released (id owner : String) (row next : Row) (named : event.lease = some (id, owner))
    (stored : s.rows.lookup id = some row)
    (leased : row.state = .leased) (owned : row.leaseOwner = some owner) (freed : next.state ≠ .leased) :
    Called s event { s with rows := s.rows.insert id next }

variable {s t : Outbox} {event : Event}

theorem called_of_release {id owner : String} {update : Row → Row} (released : s.release id owner update = .ok t)
    (named : event.lease = some (id, owner)) (freed : ∀ row, (update row).state ≠ .leased) : Called s event t := by
  unfold release at released
  split at released
  · cases released
  next row stored =>
    split_ifs at released with held
    cases released
    exact .released id owner row _ named stored held.1 held.2 (freed row)

theorem called_of_call (returned : event.call s = .ok t) : Called s event t := by
  cases event with
  | insert id now =>
    cases returned
    unfold insertRow
    split_ifs with present
    · exact .same rfl
    · exact .inserted id _ (Option.not_isSome_iff_eq_none.mp present) rfl
  | claim owner leaseMs now chosen =>
    simp only [Event.call, claimTaskNotification] at returned
    split_ifs at returned
    split at returned
    · cases returned
      exact .same rfl
    next row stored =>
      split_ifs at returned with candidate
      · cases returned
        refine .claimed chosen row _ _ stored (fun sent => ?_) rfl
        simp [Row.isCandidate, sent] at candidate
      · cases returned
        exact .same rfl
  | complete id owner now => exact called_of_release returned rfl fun _ => nofun
  | fail id owner error retryAfterMs now =>
    simp only [Event.call, failTaskNotification] at returned
    split_ifs at returned
    exact called_of_release returned rfl fun _ => nofun

/-- The owner of a lease is that of the last claim, and the claims of a notification differ in their owners. -/
structure Owned (s : Outbox) : Prop where
  leased : ∀ id row, s.rows.lookup id = some row → row.state = .leased → ∃ claim, s.latest id = some claim ∧
    row.leaseOwner = some claim.owner
  differ : ∀ c ∈ s.claims, ∀ d ∈ s.claims, c.id = d.id → c.owner = d.owner → c = d

theorem latest_cons (rows : FiniteMap String Row) (claim : Claim) (id : String) :
    latest { rows, claims := claim :: s.claims } id = if claim.id = id then some claim else s.latest id := by
  rw [latest, List.find?_cons]
  grind [latest]

theorem Owned.call (owned : Owned s) (calm : reclaims s event = false) (called : Called s event t) : Owned t := by
  obtain ⟨leased, differ⟩ := owned
  cases called with
  | same => exact ⟨leased, differ⟩
  | inserted id row _ pending =>
    refine ⟨forall_insert rfl (fun state => ?_) leased, differ⟩
    cases pending.symm.trans state
  | released id _ _ next _ _ _ _ freed => exact ⟨forall_insert rfl (fun state => absurd state freed) leased, differ⟩
  | claimed id row next attempt stored unsent owns =>
    constructor
    · intro id' row' found leased'
      rw [latest_cons]
      rcases lookup_insert_cases rfl found with ⟨rfl, rfl⟩ | ⟨other, old⟩
      · exact ⟨_, if_pos rfl, owns⟩
      · rw [if_neg (Ne.symm other)]
        exact leased id' row' old leased'
    · grind [reclaims]

theorem Owned.fenced (owned : Owned s) : Fenced s := by
  constructor
  · intro event id owner named succeeded
    cases returned : event.call s with
    | error => simp [returned, Except.isOk, Except.toBool] at succeeded
    | ok t =>
      cases called_of_call returned with
      | same idle => cases idle.symm.trans named
      | inserted | claimed => cases named
      | released _ _ row next named' stored leased owns =>
        cases named'.symm.trans named
        obtain ⟨claim, found, holder⟩ := owned.leased _ row stored leased
        have same := Option.some.inj (holder.symm.trans owns)
        refine ⟨claim, found, same, fun c member isID isOwner => ?_⟩
        have isLast := List.find?_some found
        exact owned.differ c member claim (List.mem_of_find?_eq_some found) (isID.trans (beq_iff_eq.mp isLast).symm)
          (isOwner.trans same.symm)
  · intro id row stored sent event t returned
    cases called_of_call returned <;> grind [lookup_insert, latest_cons, latest]

/-- In every run in which no owner claims a notification twice, the fence holds. -/
theorem notification_fenced (reached : machine.Reaches (fun s event => reclaims s event = false) s) : Fenced s := by
  refine (reached.invariant Owned ⟨?_, ?_⟩ fun s event t calm stepped owned => ?_).fenced
  · exact fun _ _ found => nomatch (AList.lookup_empty _).symm.trans found
  · exact fun _ member => absurd member List.not_mem_nil
  cases stepped
  cases returned : event.call s with
  | error => exact owned
  | ok t => exact owned.call calm (called_of_call returned)

/-- Two workers claim a notification in turn. -/
theorem two_workers_fenced : ∃ s, machine.Reaches (fun s event => reclaims s event = false) s ∧
    (s.claims.map (·.owner) = ["worker-2", "worker-1"]) ∧ Fenced s :=
  Machine.exists_checked_and (fun _ _ => of_decide_eq_true)
    [.insert "n" 0, .claim "worker-1" 1000 0 "n", .claim "worker-2" 1000 1000000 "n"] (by decide) fun _ reached _ =>
      notification_fenced reached

/-- One worker claims a notification again after its lease has expired, and its first claim completes it. -/
theorem first_claim_completes : ∃ s, machine.Reaches Machine.anyStep s ∧ ¬Fenced s := by
  obtain ⟨s, reached, first, second, succeeded⟩ := Machine.exists_reached (m := machine)
    (P := fun s => (⟨"n", "worker-1", 1⟩ ∈ s.claims) ∧ (⟨"n", "worker-1", 2⟩ ∈ s.claims) ∧
      ((Event.complete "n" "worker-1" 1000000).call s).isOk = true)
    [.insert "n" 0, .claim "worker-1" 1000 0 "n", .claim "worker-1" 1000 1000000 "n"] (by decide)
  refine ⟨s, reached, fun fenced => ?_⟩
  obtain ⟨claim, _, _, only⟩ := fenced.last (.complete "n" "worker-1" 1000000) _ _ rfl succeeded
  have same := (only _ first rfl rfl).trans (only _ second rfl rfl).symm
  exact absurd same (by decide)

end RhinoQ.Model.NotificationOutbox
