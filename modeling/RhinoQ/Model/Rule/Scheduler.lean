import RhinoQ.Machine.Pool
import RhinoQ.Model.Rule.Evaluator
import RhinoQ.ToMathlib.FiniteMap

/-! # Scheduling table rules

The schedules of the rule store and the scheduler replicas. A replica claims a batch of schedules, and for
each lease evaluates one page and then advances, completes or fails the schedule. It may crash between any two
store calls. One rule is watched: its pages and cursors are written down beside the store.
-/

namespace RhinoQ.Model.Rule

/-- `memoryRuleSchedule`; the zero value is a schedule that was never claimed. -/
structure Schedule where
  cursor : String := ""
  owner : String := ""
  epoch : ℤ := 0
  nextRunAt : Time := 0
  expiresAt : Time := 0

/-- The stored rules and their schedules. `SaveRule` admits valid rules only, under their own names. -/
structure RuleStore where
  records : FiniteMap (String × ℤ) Record := ∅
  schedules : FiniteMap String Schedule := ∅
  saved : ∀ k record, records.lookup k = some record → k = (record.id, record.version) ∧ record.validate = .ok ()

namespace RuleStore

def scheduleKey (id : String) (version : ℤ) : String := id ++ ":" ++ toString version

variable (store : RuleStore)

def schedule (id : String) (version : ℤ) : Schedule :=
  (store.schedules.lookup (scheduleKey id version)).getD {}

/-- A rule that `ClaimDueRules` collects. -/
def isDue (now : Time) (record : Record) : Bool :=
  let state := store.schedule record.id record.version
  record.scope == .table && record.status == .enabled && (state.nextRunAt.isZero || decide (state.nextRunAt ≤ now)) &&
    (state.expiresAt.isZero || decide (state.expiresAt ≤ now))

def candidates (now : Time) : List Record := (FiniteMap.values store.records).filter (store.isDue now)

/-- `sorted` is an order in which the candidates may come: the maps are iterated in any order, and
`sort.Slice` leaves the versions of one rule in any order. -/
def Sorts (now : Time) (sorted : List Record) : Prop :=
  sorted.Perm (store.candidates now) ∧ sorted.Pairwise fun a b => a.id ≤ b.id

instance (store : RuleStore) (now : Time) (sorted : List Record) : Decidable (store.Sorts now sorted) :=
  inferInstanceAs (Decidable (_ ∧ _))

/-- The body of the last loop of `ClaimDueRules`. -/
def claimOne (owner : String) (now : Time) (leaseFor : Duration) (store : RuleStore) (record : Record) :
    ScheduleLease × RuleStore :=
  let state := store.schedule record.id record.version
  let next := { state with owner, epoch := state.epoch + 1, expiresAt := now + leaseFor }
  ({ ruleID := record.id, version := record.version, owner, epoch := next.epoch, cursor := state.cursor,
     every := record.every, claimedAt := now, expiresAt := next.expiresAt },
   { store with schedules := store.schedules.insert (scheduleKey record.id record.version) next })

def claimAll (owner : String) (now : Time) (leaseFor : Duration) (store : RuleStore) :
    List Record → List ScheduleLease × RuleStore
  | [] => ([], store)
  | record :: rest =>
    let first := claimOne owner now leaseFor store record
    let others := claimAll owner now leaseFor first.2 rest
    (first.1 :: others.1, others.2)

/-- `ClaimDueRules` when the candidates come as `sorted`. -/
def claimDueRules (owner : String) (now : Time) (leaseFor : Duration) (limit : ℤ)
    (sorted : List Record) : Except Error (List ScheduleLease × RuleStore) :=
  if owner == "" || now.isZero || decide (leaseFor ≤ 0) || decide (limit ≤ 0) ||
    decide (limit > 100) then .error .invalidRule
  else .ok (claimAll owner now leaseFor store (sorted.take limit.toNat))

variable (lease : ScheduleLease)

def updateSchedule (update : Schedule → Schedule) : Except Error RuleStore :=
  match lease.validate with
  | .error error => .error error
  | .ok () =>
    let key := scheduleKey lease.ruleID lease.version
    match store.schedules.lookup key with
    | none => .error .leaseLost
    | some state =>
      if state.owner ≠ lease.owner ∨ state.epoch ≠ lease.epoch then .error .leaseLost
      else .ok { store with schedules := store.schedules.insert key (update state) }

def advanceRuleCursor (cursor : String) : Except Error RuleStore :=
  if Text.trimSpace cursor == "" then .error .invalidRule
  else store.updateSchedule lease fun state =>
    { state with cursor, nextRunAt := lease.claimedAt, owner := "", expiresAt := 0 }

def completeRuleRun : Except Error RuleStore :=
  store.updateSchedule lease fun state =>
    { state with cursor := "", nextRunAt := lease.claimedAt + lease.every, owner := "", expiresAt := 0 }

def failRuleRun (retryAfter : Duration) : Except Error RuleStore :=
  if retryAfter ≤ 0 then .error .invalidRule
  else store.updateSchedule lease fun state =>
    { state with nextRunAt := lease.claimedAt + retryAfter, owner := "", expiresAt := 0 }

end RuleStore

namespace Scheduler

/-- The settings of a replica. `New` only narrows them. -/
structure Config where
  owner : String
  lease : Duration
  errorBackoff : Duration
  claimBatch : ℤ

/-- The store call that ends `evaluateLease`. -/
inductive Settlement
  | advance (cursor : String)
  | complete
  | fail (retryAfter : Duration)

/-- How `evaluateLease` goes on from what `Evaluate` returned. -/
def settlementOf (config : Config) : Except Error Evaluation → Settlement
  | .error _ => .fail config.errorBackoff
  | .ok evaluation => if evaluation.hasMore then .advance evaluation.nextCursor else .complete

def settle (store : RuleStore) (lease : ScheduleLease) : Settlement → Except Error RuleStore
  | .advance cursor => store.advanceRuleCursor lease cursor
  | .complete => store.completeRuleRun lease
  | .fail retryAfter => store.failRuleRun lease retryAfter

/-- Where `RunOnce` stands: between two runs, about to evaluate the first of its leases, or about to
settle a lease it has evaluated. -/
inductive Replica
  | idle
  | working (leases : List ScheduleLease)
  | settling (lease : ScheduleLease) (action : Settlement) (rest : List ScheduleLease)

/-- A finite set of subjects, in ascending order. -/
structure Subjects where
  ids : List String
  ascending : ids.Pairwise (· < ·)

/-- What the query says about each subject at the time it runs. -/
structure Answer where
  optional : List String := []
  row : String → Row

/-- The query of a subject-cursor rule: at most `$3` of the subjects after `$2`, in order. -/
def walkQuery (subjects : Subjects) (answer : Answer) : List Argument → Except Error QueryResult
  | _ :: .text cursor :: .count maxRows :: _ =>
    .ok { optional := answer.optional
          rows := ((subjects.ids.filter (cursor < ·)).take maxRows.toNat).map fun s => { answer.row s with subjectID := s } }
  | _ => .error (.message "bind message supplies too few parameters")

/-- The store and, of the watched rule, the pages since its last completion, those of each completed pass, and each
cursor that was handed out with the pages of the pass until then. -/
structure Walk where
  store : RuleStore
  pages : List (List String) := []
  completed : List (List (List String)) := []
  handed : List (String × List (List String)) := []

/-- One step of replica `i`. The first is its call of `ClaimDueRules`; the next three are what `Evaluate` may return. -/
inductive Event
  | claim (i : ℕ) (now : Time) (sorted : List Record)
  | evaluate (i : ℕ) (answer : Answer) (evaluatedAt : Time)
  | evaluateOther (i : ℕ) (evaluation : Evaluation)
  | fail (i : ℕ) (error : Error)
  | settle (i : ℕ)
  | crash (i : ℕ)

section
variable (config : ℕ → Config) (record : Record) (subjects : Subjects)

/-- The lease is one of the watched rule. -/
def watched (lease : ScheduleLease) : Bool := lease.ruleID == record.id && lease.version == record.version

/-- A claim hands out its cursors. -/
def handOut (walk : Walk) (leases : List ScheduleLease) (store : RuleStore) : Walk :=
  { walk with store, handed := walk.handed ++ (leases.filter (watched record)).map fun lease => (lease.cursor, walk.pages) }

/-- A page of the watched rule was evaluated. -/
def evaluated (walk : Walk) : Except Error Evaluation → Walk
  | .error _ => walk
  | .ok evaluation => { walk with pages := walk.pages ++ [evaluation.observations.map (·.subjectID)] }

/-- A settlement was accepted. -/
def settled (walk : Walk) (lease : ScheduleLease) (store : RuleStore) : Settlement → Walk
  | .complete =>
    if watched record lease then { walk with store, pages := [], completed := walk.completed ++ [walk.pages] }
    else { walk with store }
  | _ => { walk with store }

def step (p : Pool Walk Replica) : Event → Option (Pool Walk Replica)
  | .claim i now sorted =>
    match p.thread i with
    | .idle =>
      if p.shared.store.Sorts now sorted then
        match p.shared.store.claimDueRules (config i).owner now (config i).lease (config i).claimBatch sorted with
        | .error _ => some p
        | .ok (leases, store) => some (p.move i (handOut record p.shared leases store) (.working leases))
      else none
    | _ => none
  | .evaluate i answer evaluatedAt =>
    match p.thread i with
    | .working (lease :: rest) =>
      if watched record lease then
        let result := evaluateRule (walkQuery subjects answer) evaluatedAt record "" lease.cursor
        some (p.move i (evaluated p.shared result) (.settling lease (settlementOf (config i) result) rest))
      else none
    | _ => none
  | .evaluateOther i evaluation =>
    match p.thread i with
    | .working (lease :: rest) =>
      if watched record lease then none
      else some (p.move i p.shared (.settling lease (settlementOf (config i) (.ok evaluation)) rest))
    | _ => none
  | .fail i error =>
    match p.thread i with
    | .working (lease :: rest) =>
      some (p.move i p.shared (.settling lease (settlementOf (config i) (.error error)) rest))
    | _ => none
  | .settle i =>
    match p.thread i with
    | .settling lease action rest =>
      match settle p.shared.store lease action with
      | .error _ => some (p.move i p.shared (.working rest))
      | .ok store => some (p.move i (settled record p.shared lease store action) (.working rest))
    | .working [] => some (p.move i p.shared .idle)
    | _ => none
  | .crash i => some (p.move i p.shared .idle)

def machine (store : RuleStore) : Machine (Pool Walk Replica) Event where
  start := { shared := { store }, thread := fun _ => .idle }
  step := step config record subjects

end

end Scheduler

end RhinoQ.Model.Rule
