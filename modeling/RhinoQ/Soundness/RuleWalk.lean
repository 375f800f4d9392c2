import RhinoQ.Proofs.Rule.Scheduler

/-! # A rule walk looks at every subject

The cursor of a schedule stands for the subjects up to it, and only the lease that holds the schedule moves it.
The walk is complete as long as a subject that is presented as a cursor is read back as a place before all the
later subjects; one that looks like a changed-since token is not.
-/

namespace RhinoQ.Model.Rule.Scheduler

open RuleStore Pool Duration Machine

variable {answer : Answer} {evaluation : Evaluation} {lease : ScheduleLease} {evaluatedAt : Time}

/-- The subject is on one of the pages. -/
def Evaluated (pages : List (List String)) (s : String) : Prop := ∃ page ∈ pages, s ∈ page

/-- The cursor is the last subject of one of the pages. -/
def EndsPage (pages : List (List String)) (cursor : String) : Prop := ∃ page ∈ pages, page.getLast? = some cursor

variable (record : Record) (subjects : Subjects)

/-- Every completed pass evaluated every subject, and every cursor that was handed out is empty or ends
an evaluated page of its pass. -/
structure Complete (walk : Walk) : Prop where
  passes : ∀ pass ∈ walk.completed, ∀ s ∈ subjects.ids, Evaluated pass s
  cursors : ∀ entry ∈ walk.handed, entry.1 = "" ∨ EndsPage entry.2 entry.1

/-- No subject is the empty text, and where a subject is a timestamp, the separator and a rest, every
later subject comes after the rest. -/
def Resumable : Prop :=
  "" ∉ subjects.ids ∧
    ∀ stamp rest : String, stamp ++ String.singleton cursorSeparator ++ rest ∈ subjects.ids →
      cursorSeparator ∉ stamp.toList → (Clock.parseRFC3339Nano stamp).isSome →
        ∀ t ∈ subjects.ids, stamp ++ String.singleton cursorSeparator ++ rest < t → rest < t

/-- What a replica must have evaluated for the settlement it is about to ask for. -/
def Settlement.Earned (pages : List (List String)) : Settlement → Prop
  | .advance cursor => (∀ s ∈ subjects.ids, s ≤ cursor → Evaluated pages s) ∧ EndsPage pages cursor
  | .complete => ∀ s ∈ subjects.ids, Evaluated pages s
  | .fail _ => True

/-- The leases that a replica has not settled yet. -/
def Replica.leases : Replica → List ScheduleLease
  | .idle => []
  | .working leases => leases
  | .settling lease _ rest => lease :: rest

/-- The schedule of the watched rule. -/
def Walk.schedule (walk : Walk) : Schedule := walk.store.schedule record.id record.version

/-- A lease of a replica is not ahead of the schedule, and the one that holds it has its cursor. -/
structure Fenced (walk : Walk) (replica : Replica) : Prop where
  named : ∀ lease ∈ replica.leases, Named lease.ruleID lease.version
  epoch : ∀ lease ∈ replica.leases, watched record lease = true → lease.epoch ≤ (walk.schedule record).epoch
  cursor : ∀ lease ∈ replica.leases, watched record lease = true → walk.store.Holds lease →
    lease.cursor = (walk.schedule record).cursor
  earned : ∀ lease action rest, replica = .settling lease action rest → watched record lease = true →
    walk.store.Holds lease → action.Earned subjects walk.pages

structure Sound (walk : Walk) : Prop where
  listed : ∀ page ∈ walk.pages, ∀ s ∈ page, s ∈ subjects.ids
  passed : ∀ s ∈ subjects.ids, s ≤ (walk.schedule record).cursor → Evaluated walk.pages s
  resumes : (walk.schedule record).cursor = "" ∨ EndsPage walk.pages (walk.schedule record).cursor
  complete : Complete subjects walk

structure Consistent (p : Pool Walk Replica) : Prop where
  walk : Sound record subjects p.shared
  replicas : ∀ i, Fenced record subjects p.shared (p.thread i)

variable {record} {subjects} {walk after : Walk} {s : String} {replica : Replica} {leases : List ScheduleLease}
    {action : Settlement}

theorem watched_iff : watched record lease = true ↔ lease.ruleID = record.id ∧ lease.version = record.version := by
  rw [watched, Bool.and_eq_true, beq_iff_eq, beq_iff_eq]

section
variable {pages more : List (List String)} {s : String} (subset : pages ⊆ more)
include subset

theorem Evaluated.mono (seen : Evaluated pages s) : Evaluated more s := by
  obtain ⟨page, member, present⟩ := seen
  exact ⟨page, subset member, present⟩

theorem EndsPage.mono (ends : EndsPage pages s) : EndsPage more s := by
  obtain ⟨page, member, last⟩ := ends
  exact ⟨page, subset member, last⟩

end

theorem Settlement.Earned.mono (subset : pages ⊆ more)
    (earned : action.Earned subjects pages) : action.Earned subjects more := by
  cases action with
  | advance cursor => exact ⟨fun s member below => (earned.1 s member below).mono subset, earned.2.mono subset⟩
  | complete => exact fun s member => (earned s member).mono subset
  | fail _ => trivial

/-- A subject that is presented as a cursor is read as a place before all the later subjects. -/
theorem Resumable.decoded (resumable : Resumable subjects) (presented : s ∈ subjects.ids)
    (member : t ∈ subjects.ids) (later : s < t) : (decodeCursor s).2 < t := by
  unfold decodeCursor
  split
  · exact later
  rename_i stamp rest parts
  split
  · exact later
  rename_i changedAt parsed
  unfold cut at parts
  split at parts
  · cases parts
  rename_i separator tail dropped
  cases parts
  have first : separator = cursorSeparator := by
    have stopped := List.head?_dropWhile_not (· != cursorSeparator) s.toList
    rw [dropped] at stopped
    simpa using stopped
  have split : s = String.ofList (s.toList.takeWhile (· != cursorSeparator)) ++ String.singleton cursorSeparator ++
      String.ofList tail := by
    apply String.toList_inj.mp
    have whole := List.takeWhile_append_dropWhile (p := (· != cursorSeparator)) (l := s.toList)
    rw [dropped, first] at whole
    simpa using whole.symm
  have clean : cursorSeparator ∉ (String.ofList (s.toList.takeWhile (· != cursorSeparator))).toList := by
    rw [String.toList_ofList]
    intro inside
    simpa using List.mem_takeWhile_imp inside
  exact resumable.2 _ _ (split ▸ presented) clean (by rw [parsed]; rfl) t member (split ▸ later)

theorem eq_empty_of_le (below : s ≤ "") : s = "" :=
  String.le_antisymm below fun less => List.not_lt_nil s.toList less

/-- In an ascending list, what is not after the last element of a front part is in that part. -/
theorem mem_take_of_le_last {l : List String} (ascending : l.Pairwise (· < ·)) (member : s ∈ l)
    (ends : (l.take n).getLast? = some last) (below : s ≤ last) : s ∈ l.take n := by
  rw [← List.take_append_drop n l] at member ascending
  rcases List.mem_append.mp member with front | back
  · exact front
  · have before := (List.pairwise_append.mp ascending).2.2 last (List.mem_of_getLast? ends) s back
    exact absurd before (String.not_lt.mpr below)

/-- The subjects that a page does not look at were looked at before. -/
theorem Sound.passed_or_after (sound : Sound record subjects walk) (resumable : Resumable subjects)
    (member : s ∈ subjects.ids) :
    Evaluated walk.pages s ∨ s ∈ subjects.after (walk.schedule record).cursor := by
  by_cases before : s ≤ (walk.schedule record).cursor
  · exact .inl (sound.passed s member before)
  · have later := String.not_le.mp before
    refine .inr (List.mem_filter.mpr ⟨member, decide_eq_true ?_⟩)
    rcases sound.resumes with empty | ⟨page, present, last⟩
    · rw [empty] at later ⊢
      exact later
    · exact resumable.decoded (sound.listed page present _ (List.mem_of_getLast? last)) member later

/-- The page that an evaluation of the watched rule returned. -/
theorem page_of_evaluateRule (walks : record.cursor = .subject)
    (returned : evaluateRule (walkQuery subjects answer) evaluatedAt record "" cursor = .ok evaluation) :
    0 < record.withDefaults.maxRows ∧
      evaluation.observations.map (·.subjectID) = (subjects.after cursor).take record.withDefaults.maxRows.toNat ∧
      (evaluation.hasMore = true ↔
        evaluation.observations ≠ [] ∧ (evaluation.observations.length : ℤ) = record.withDefaults.maxRows) ∧
      (evaluation.observations ≠ [] →
        (evaluation.observations.map (·.subjectID)).getLast? = some evaluation.nextCursor) := by
  obtain ⟨valid, scope, rows⟩ := evaluateRows_of_evaluateRule returned
  obtain ⟨identified, bounded, _⟩ := Record.of_validate valid
  have table : record.withDefaults.scope = .table := by
    simp only [Record.identified, Bool.and_eq_true] at identified
    cases kind : record.withDefaults.scope with
    | job => exact absurd kind scope
    | table => rfl
    | other text =>
      rw [kind] at identified
      exact absurd identified.1.1.1.2 Bool.false_ne_true
  have subject : record.withDefaults.cursor = .subject := by simp [Record.withDefaults, walks]
  have positive : 0 < record.withDefaults.maxRows := by
    simp only [Record.bounded, Bool.and_eq_true, decide_eq_true_eq] at bounded
    tauto
  exact ⟨positive, evaluateRows_spec table subject rows⟩

/-- What an evaluation that starts from the cursor of the schedule earns. -/
theorem Sound.earned_of_evaluateRule
    (config : Config) (sound : Sound record subjects walk) (resumable : Resumable subjects)
      (walks : record.cursor = .subject)
    (returned : evaluateRule (walkQuery subjects answer) evaluatedAt record ""
      (walk.schedule record).cursor = .ok evaluation) :
    (settlementOf config (.ok evaluation)).Earned subjects (walk.pages ++ [evaluation.observations.map (·.subjectID)]) := by
  obtain ⟨positive, listed, more, last⟩ := page_of_evaluateRule walks returned
  have ascending : (subjects.after (walk.schedule record).cursor).Pairwise (· < ·) := subjects.ascending.filter _
  have old : walk.pages ⊆ walk.pages ++ [evaluation.observations.map (·.subjectID)] := List.subset_append_left ..
  have new : evaluation.observations.map (·.subjectID) ∈ walk.pages ++ [evaluation.observations.map (·.subjectID)] :=
    List.mem_append_right _ (.head _)
  unfold settlementOf
  dsimp only
  split
  next continues =>
    have ends := last (more.mp continues).1
    refine ⟨?_, _, new, ends⟩
    intro s member below
    rcases sound.passed_or_after resumable member with seen | after
    · exact seen.mono old
    · refine ⟨_, new, ?_⟩
      rw [listed] at ends ⊢
      exact mem_take_of_le_last ascending after ends below
  next stops =>
    intro s member
    rcases sound.passed_or_after resumable member with seen | after
    · exact seen.mono old
    · refine ⟨_, new, ?_⟩
      -- a page that is not full holds everything that was left
      have short : (subjects.after (walk.schedule record).cursor).length ≤ record.withDefaults.maxRows.toNat := by
        have length := congrArg List.length listed
        rw [List.length_map, List.length_take] at length
        rw [more, not_and] at stops
        by_cases empty : evaluation.observations = []
        · rw [empty, List.length_nil] at length
          omega
        · have different := stops empty
          omega
      rw [listed, List.take_of_length_le short]
      exact after

/-- A change of the shared state after which no other replica holds the schedule unjustly. -/
structure Passes (record : Record) (walk after : Walk) : Prop where
  epoch : (walk.schedule record).epoch ≤ (after.schedule record).epoch
  held : (after.schedule record = walk.schedule record ∧ walk.pages ⊆ after.pages) ∨ (after.schedule record).owner = "" ∨
    (walk.schedule record).epoch < (after.schedule record).epoch

/-- A lease of the watched rule that holds the schedule after such a change held it before. -/
theorem Passes.holds (passes : Passes record walk after)
    (own : watched record lease = true) (behind : lease.epoch ≤ (walk.schedule record).epoch)
      (holds : after.store.Holds lease) :
    after.schedule record = walk.schedule record ∧ walk.pages ⊆ after.pages ∧ walk.store.Holds lease := by
  obtain ⟨ids, versions⟩ := watched_iff.mp own
  obtain ⟨named, owner, epoch⟩ := holds
  rw [ids, versions] at owner epoch
  rcases passes.held with ⟨same, subset⟩ | free | later
  · refine ⟨same, subset, named, ?_⟩
    rw [ids, versions]
    exact ⟨(congrArg Schedule.owner same).symm.trans owner, (congrArg Schedule.epoch same).symm.trans epoch⟩
  · exact absurd (owner.symm.trans free) named
  · exact absurd (lt_of_le_of_lt behind later) (not_lt.mpr (le_of_eq epoch))

theorem Fenced.transfer (fenced : Fenced record subjects walk replica)
    (passes : Passes record walk after) : Fenced record subjects after replica := by
  refine ⟨fenced.named, ?_, ?_, ?_⟩
  · exact fun lease member own => le_trans (fenced.epoch lease member own) passes.epoch
  · intro lease member own holds
    obtain ⟨same, _, before⟩ := passes.holds own (fenced.epoch lease member own) holds
    rw [same]
    exact fenced.cursor lease member own before
  · intro lease action rest stage own holds
    have member : lease ∈ replica.leases := by
      rw [stage]
      exact .head _
    obtain ⟨_, subset, before⟩ := passes.holds own (fenced.epoch lease member own) holds
    exact (fenced.earned lease action rest stage own before).mono subset

/-- The leases that are left when a replica goes on to the next one. -/
theorem Fenced.rest (fenced : Fenced record subjects walk replica)
    (subset : leases ⊆ replica.leases) : Fenced record subjects walk (.working leases) :=
  ⟨fun lease member => fenced.named lease (subset member), fun lease member => fenced.epoch lease (subset member),
    fun lease member => fenced.cursor lease (subset member), nofun⟩

theorem Fenced.idle (walk : Walk) : Fenced record subjects walk .idle :=
  ⟨nofun, nofun, nofun, nofun⟩

variable {config : ℕ → Config} {p q : Pool Walk Replica} {i : ℕ} {rest : List ScheduleLease} {store : RuleStore}

/-- Where the cursor and the pages stay. -/
theorem Sound.of_cursor (sound : Sound record subjects walk) (pages : after.pages = walk.pages)
    (cursor : (after.schedule record).cursor = (walk.schedule record).cursor) (complete : Complete subjects after) :
    Sound record subjects after := by
  refine ⟨?_, ?_, ?_, complete⟩ <;> rw [pages]
  · exact sound.listed
  · exact cursor ▸ sound.passed
  · exact cursor ▸ sound.resumes

section
variable (inv : Consistent record subjects p)
include inv

theorem Consistent.moved (passes : Passes record p.shared after)
    (sound : Sound record subjects after) (own : Fenced record subjects after replica) :
    Consistent record subjects (p.move i after replica) :=
  ⟨sound, forall_move (Fenced record subjects) inv.replicas own fun _ _ other => other.transfer passes⟩

theorem Consistent.quiet
    (own : Fenced record subjects p.shared replica) : Consistent record subjects (p.move i p.shared replica) :=
  inv.moved ⟨le_rfl, .inl ⟨rfl, List.Subset.refl _⟩⟩ inv.walk own

theorem Consistent.claim
    (named : Named record.id record.version) (sorts : p.shared.store.Sorts now sorted)
    (claimed : p.shared.store.claimDueRules owner now leaseFor limit sorted = .ok (leases, store)) :
    Consistent record subjects (p.move i (handOut record p.shared leases store) (.working leases)) := by
  have batch : Claimed p.shared.store record.id record.version leases store := by
    unfold claimDueRules at claimed
    split at claimed
    · cases claimed
    have each : ∀ r ∈ sorted.take limit.toNat, Named r.id r.version := fun r member =>
      named_of_mem (List.mem_filter.mp (sorts.1.subset (List.mem_of_mem_take member))).1
    have spec := claimAll_spec p.shared.store owner now leaseFor named each
    rw [Except.ok.inj claimed] at spec
    exact spec
  have passes : Passes record p.shared (handOut record p.shared leases store) := by
    rcases batch.epoch with same | more
    · exact ⟨le_of_eq (congrArg Schedule.epoch same).symm, .inl ⟨same, List.Subset.refl _⟩⟩
    · exact ⟨le_of_lt more, .inr (.inr more)⟩
  refine inv.moved passes (inv.walk.of_cursor rfl batch.cursor ⟨inv.walk.complete.passes, ?_⟩) ⟨batch.named, ?_, ?_, nofun⟩
  · intro entry member
    rcases List.mem_append.mp member with old | new
    · exact inv.walk.complete.cursors entry old
    · obtain ⟨lease, kept, rfl⟩ := List.mem_map.mp new
      obtain ⟨present, own⟩ := List.mem_filter.mp kept
      obtain ⟨ids, versions⟩ := watched_iff.mp own
      dsimp only
      rw [(batch.handed lease present ids versions).1]
      exact inv.walk.resumes
  · intro lease member own
    obtain ⟨ids, versions⟩ := watched_iff.mp own
    exact (batch.handed lease member ids versions).2
  · intro lease member own _
    obtain ⟨ids, versions⟩ := watched_iff.mp own
    exact (batch.handed lease member ids versions).1.trans batch.cursor.symm

theorem Consistent.evaluate
    (settings : Config) (resumable : Resumable subjects) (walks : record.cursor = .subject)
    (stage : p.thread i = .working (lease :: rest)) :
    let result := evaluateRule (walkQuery subjects answer) evaluatedAt record "" lease.cursor
    Consistent record subjects (p.move i (evaluated p.shared result)
      (.settling lease (settlementOf settings result) rest)) := by
  intro result
  have own := inv.replicas i
  rw [stage] at own
  cases returned : result with
  | error error =>
    refine inv.quiet ⟨own.named, own.epoch, own.cursor, ?_⟩
    rintro _ _ _ ⟨⟩ _ _
    trivial
  | ok evaluation =>
    have passes : Passes record p.shared (evaluated p.shared (.ok evaluation)) :=
      ⟨le_rfl, .inl ⟨rfl, List.subset_append_left ..⟩⟩
    have moved := own.transfer passes
    refine inv.moved passes ⟨?_, ?_, ?_, { inv.walk.complete with }⟩ ⟨moved.named, moved.epoch, moved.cursor, ?_⟩
    · intro page member s present
      rcases List.mem_append.mp member with old | new
      · exact inv.walk.listed page old s present
      · obtain ⟨_, listed, _⟩ := page_of_evaluateRule walks returned
        rw [List.mem_singleton.mp new, listed] at present
        exact (List.mem_filter.mp (List.mem_of_mem_take present)).1
    · exact fun s member below => (inv.walk.passed s member below).mono (List.subset_append_left ..)
    · exact inv.walk.resumes.imp_right fun ends => ends.mono (List.subset_append_left ..)
    · rintro _ _ _ ⟨⟩ watches holds
      have start : lease.cursor = (p.shared.schedule record).cursor := own.cursor lease (.head _) watches holds
      have answered : evaluateRule (walkQuery subjects answer) evaluatedAt record "" (p.shared.schedule record).cursor =
          .ok evaluation := start ▸ returned
      exact inv.walk.earned_of_evaluateRule settings resumable walks answered

theorem Consistent.settle
    (named : Named record.id record.version) (nonempty : "" ∉ subjects.ids)
    (stage : p.thread i = .settling lease action rest) (accepted : settle p.shared.store lease action = .ok store) :
    Consistent record subjects (p.move i (settled record p.shared lease store action) (.working rest)) := by
  have own := inv.replicas i
  rw [stage] at own
  obtain ⟨holds, others, given⟩ := settle_spec accepted named (own.named lease (.head _))
  have kept : (settled record p.shared lease store action).schedule record = store.schedule record.id record.version := by
    cases action with
    | complete =>
      unfold settled
      dsimp only
      split <;> rfl
    | _ => rfl
  by_cases watches : watched record lease = true
  · obtain ⟨ids, versions⟩ := watched_iff.mp watches
    obtain ⟨owner, epoch, cursor⟩ := given ⟨ids.symm, versions.symm⟩
    have earned := own.earned lease action rest rfl watches holds
    have passes : Passes record p.shared (settled record p.shared lease store action) :=
      ⟨by rw [kept, epoch]; rfl, .inr (.inl (by rw [kept, owner]))⟩
    refine inv.moved passes ?_ ((own.transfer passes).rest (List.subset_cons_self ..))
    cases action with
    | advance next =>
      refine ⟨inv.walk.listed, ?_, ?_, { inv.walk.complete with }⟩ <;> rw [kept, cursor]
      · exact earned.1
      · exact .inr earned.2
    | complete =>
      have ended : settled record p.shared lease store .complete =
          { p.shared with store, pages := [], completed := p.shared.completed ++ [p.shared.pages] } := if_pos watches
      rw [ended] at kept ⊢
      refine ⟨nofun, ?_, ?_, ?_, inv.walk.complete.cursors⟩
      · intro s member below
        rw [kept, cursor] at below
        exact absurd (eq_empty_of_le below ▸ member) nonempty
      · rw [kept, cursor]
        exact .inl rfl
      · intro pass member
        rcases List.mem_append.mp member with old | new
        · exact inv.walk.complete.passes pass old
        · rw [List.mem_singleton.mp new]
          exact earned
    | fail retryAfter => exact inv.walk.of_cursor rfl cursor { inv.walk.complete with }
  · have same := others fun equal => watches (watched_iff.mpr ⟨equal.1.symm, equal.2.symm⟩)
    have only : settled record p.shared lease store action = { p.shared with store } := by
      cases action with
      | complete => exact if_neg watches
      | _ => rfl
    rw [only] at kept ⊢
    have passes : Passes record p.shared { p.shared with store } :=
      ⟨le_of_eq (congrArg Schedule.epoch (kept.trans same)).symm, .inl ⟨kept.trans same, List.Subset.refl _⟩⟩
    refine inv.moved passes (inv.walk.of_cursor rfl (congrArg Schedule.cursor same) { inv.walk.complete with }) ?_
    exact (own.transfer passes).rest (List.subset_cons_self ..)

theorem Consistent.step (named : Named record.id record.version) (resumable : Resumable subjects)
    (walks : record.cursor = .subject) (taken : step config record subjects p event = some q)
    : Consistent record subjects q := by
  cases event with
  | claim i now sorted =>
    dsimp only [Scheduler.step] at taken
    split at taken
    · split at taken
      next sorts =>
        split at taken
        · cases taken
          exact inv
        next claimed =>
          cases taken
          exact inv.claim named sorts claimed
      · cases taken
    · cases taken
  | evaluate i answer evaluatedAt =>
    dsimp only [Scheduler.step] at taken
    split at taken
    next stage =>
      split at taken
      · cases taken
        exact inv.evaluate (config i) resumable walks stage
      · cases taken
    · cases taken
  | evaluateOther i evaluation =>
    dsimp only [Scheduler.step] at taken
    split at taken
    next lease rest stage =>
      have own := inv.replicas i
      rw [stage] at own
      split at taken
      · cases taken
      rename_i other
      cases taken
      refine inv.quiet ⟨own.named, own.epoch, own.cursor, ?_⟩
      rintro _ _ _ ⟨⟩ watches
      exact absurd watches other
    · cases taken
  | fail i error =>
    dsimp only [Scheduler.step] at taken
    split at taken
    next lease rest stage =>
      have own := inv.replicas i
      rw [stage] at own
      cases taken
      refine inv.quiet ⟨own.named, own.epoch, own.cursor, ?_⟩
      rintro _ _ _ ⟨⟩ _ _
      trivial
    · cases taken
  | settle i =>
    dsimp only [Scheduler.step] at taken
    split at taken
    next lease action rest stage =>
      split at taken
      · cases taken
        have own := inv.replicas i
        rw [stage] at own
        exact inv.quiet (own.rest (List.subset_cons_self ..))
      next accepted =>
        cases taken
        exact inv.settle named resumable.1 stage accepted
    · cases taken
      exact inv.quiet (Fenced.idle _)
    · cases taken
  | crash i =>
    cases taken
    exact inv.quiet (Fenced.idle _)

end

/-- In every run of any replicas on a store in which the walk of a subject-cursor rule has not begun,
every completed pass evaluated every subject and every cursor that was handed out is empty or the last
subject of an evaluated page of its pass. -/
theorem walk_complete {store : RuleStore} (saved : store.records.lookup (record.id, record.version) = some record)
    (walks : record.cursor = .subject) (fresh : (store.schedule record.id record.version).cursor = "")
    (resumable : Resumable subjects) (reached : (machine config record subjects store).Reaches anyStep p) :
    Complete subjects p.shared := by
  have named : Named record.id record.version := named_of_mem (FiniteMap.mem_values_iff.mpr ⟨_, saved⟩)
  suffices invariant : Consistent record subjects p from invariant.walk.complete
  refine Reaches.invariant (Consistent record subjects) ?_ ?_ reached
  · refine ⟨⟨nofun, ?_, .inl fresh, nofun, nofun⟩, fun _ => Fenced.idle _⟩
    intro s member below
    rw [Walk.schedule, show (machine config record subjects store).start.shared.store = store from rfl, fresh] at below
    exact absurd (eq_empty_of_le below ▸ member) resumable.1
  · exact fun _ _ _ _ taken inv => inv.step named resumable walks taken

/-- Subjects without the separator. -/
theorem resumable_of_plain (nonempty : "" ∉ subjects.ids) (plain : ∀ s ∈ subjects.ids, cursorSeparator ∉ s.toList) :
    Resumable subjects := by
  refine ⟨nonempty, ?_⟩
  intro stamp rest member
  exact absurd (by simp) (plain _ member)

/-- A rule that looks at one subject a page. -/
def onePerPage : Record :=
  { id := "orders", version := 1, name := "orders", scope := .table, status := .enabled, subjectType := "order"
    query := "select $1 $2 $3", baselineAt := 1, every := hour, maxRows := 1, onUnknown := .retries, cursor := .subject
    statementTimeout := second, maxPlanCost := 1, maxSeqScanRows := 1 }

def oneRule : RuleStore := { records := AList.insert ("orders", 1) onePerPage ∅, saved := by decide }

def oneReplica (_ : ℕ) : Config := { owner := "a", lease := hour, errorBackoff := second, claimBatch := 4 }

def allPassed : Answer := { row := fun s => { subjectID := s, violated := some false, evidence := "" } }

/-- The replica claims its rule at `now` and looks at one page. -/
def onePage (now : Time) : List Event := [.claim 0 now [onePerPage], .evaluate 0 allPassed now, .settle 0, .settle 0]

theorem ascending_pair {a b : String} (less : a < b) : [a, b].Pairwise (· < ·) := List.pairwise_pair.mpr less

def plainPair : Subjects := { ids := ["a", "b"], ascending := ascending_pair (by decide) }

theorem plainPair_walk_complete : ∃ p, (machine oneReplica onePerPage plainPair oneRule).Reaches anyStep p ∧
    p.shared.completed = [[["a"], ["b"], []]] ∧ Complete plainPair p.shared := by
  refine exists_reached_and (onePage 1 ++ onePage 2 ++ onePage 3) (by decide) fun p reached _ => ?_
  exact walk_complete rfl rfl rfl (resumable_of_plain (by decide) (by decide)) reached

def tokenPair : Subjects := { ids := ["2026-01-01T00:00:00Z|zzz", "b"], ascending := ascending_pair (by decide) }

/-- The two pages of a pass over `tokenPair`. -/
def skippingPass : List (List String) := [["2026-01-01T00:00:00Z|zzz"], []]

/-- The first subject reads as a changed-since token, so each pass resumes after `zzz`, finds nothing and
completes without having looked at `b`. -/
theorem token_subject_skips_page : ∃ p, (machine oneReplica onePerPage tokenPair oneRule).Reaches anyStep p ∧
    p.shared.completed = [skippingPass, skippingPass] ∧ ¬Complete tokenPair p.shared := by
  refine exists_reached_and (onePage 1 ++ onePage 2 ++ onePage (2 * hour) ++ onePage (3 * hour))
    (by decide) fun p _ completed complete => ?_
  have passes := complete.passes
  rw [completed] at passes
  obtain ⟨page, member, present⟩ := passes skippingPass (.tail _ (.head _)) "b" (by decide)
  have absent : ∀ page ∈ skippingPass, "b" ∉ page := by decide
  exact absent page member present

end RhinoQ.Model.Rule.Scheduler
