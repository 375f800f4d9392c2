import RhinoQ.Model.TaskSchedule.Scheduler
import RhinoQ.Proofs.Clock

/-! # What the calls of schedulers do

A call on the table leaves the rows with their occurrences, adds a row, or moves one row on under
its fence. A lease fences its row: as long as the row has its owner and its epoch, the occurrence is the leased one.
-/

namespace RhinoQ.Model.TaskSchedule

open FiniteMap Store Text Sigma

variable {choice : Choice} {query : Query} {s t : Site} {lease : Lease} {record : Record} {α : Type}

/-! ## Rows -/

/-- A row keeps its timing. Its epoch grows, and within an epoch it keeps the occurrence for as long as it is leased. -/
structure RowEvolves (row after : Row) : Prop where
  timing : after.timing = row.timing
  epoch : row.leaseEpoch ≤ after.leaseEpoch
  fence : after.leaseEpoch = row.leaseEpoch →
    after.leaseOwner = none ∨ after.leaseOwner = row.leaseOwner ∧ after.nextRunAt = row.nextRunAt

namespace RowEvolves

variable {row after last : Row}

theorem refl (row : Row) : RowEvolves row row := ⟨rfl, le_rfl, fun _ => .inr ⟨rfl, rfl⟩⟩

theorem trans (first : RowEvolves row after) (second : RowEvolves after last) : RowEvolves row last := by
  refine ⟨second.timing.trans first.timing, first.epoch.trans second.epoch, fun same => ?_⟩
  -- the epoch stood still in both parts
  have early : after.leaseEpoch = row.leaseEpoch := le_antisymm (same ▸ second.epoch) first.epoch
  rcases second.fence (same.trans early.symm) with free | ⟨owner, occurrence⟩
  · exact .inl free
  · rcases first.fence early with free | ⟨before, earlier⟩
    · exact .inl (owner.trans free)
    · exact .inr ⟨owner.trans before, occurrence.trans earlier⟩

end RowEvolves

/-- The same rows, each with its occurrence. -/
structure Stays (table after : Table) : Prop where
  rows : ∀ key row, table.lookup key = some row →
    ∃ next, after.lookup key = some next ∧ RowEvolves row next ∧ next.nextRunAt = row.nextRunAt
  keys : ∀ key, (after.lookup key).isSome → (table.lookup key).isSome

namespace Stays

variable {table : Table} {key : Key} {row next : Row}

theorem refl (table : Table) : Stays table table := ⟨fun _ row found => ⟨row, found, .refl row, rfl⟩, fun _ => id⟩

theorem insert (found : table.lookup key = some row) (evolves : RowEvolves row next)
    (same : next.nextRunAt = row.nextRunAt) :
    Stays table (table.insert key next) := by
  constructor
  · intro other before held
    rw [lookup_insert]
    split
    next equal =>
      cases held.symm.trans (equal ▸ found)
      exact ⟨next, rfl, evolves, same⟩
    next => exact ⟨before, held, .refl before, rfl⟩
  · intro other held
    rw [lookup_insert] at held
    split at held
    next equal => rw [equal, found]; rfl
    next => exact held

end Stays

/-! ## The store -/

namespace Store

variable {expiresAt : Time}

variable {platform : Platform} {table : Table} {clock : Time} {locked : Key → Bool} {rank : Key → ℕ} {owner : String}
  {now : Time} {leaseFor : Duration} {limit : ℤ} {row : Row}

theorem lookup_of_mem_dueRows (member : entry ∈ dueRows table clock locked limit) : table.lookup entry.1 = some entry.2 := by
  have sorted := List.mem_of_mem_take member
  have candidate := List.mem_of_mem_filter ((perm_sortBy _ _).mem_iff.mp sorted)
  exact mem_entries_iff.mp candidate

theorem nodup_dueRows : ((dueRows table clock locked limit).map fst).Nodup := by
  have keys : (table.entries.map fst).Nodup := table.nodupKeys
  refine List.Nodup.sublist ((List.take_sublist _ _).map fst) ?_
  refine ((perm_sortBy _ _).map fst).nodup_iff.mpr ?_
  exact keys.sublist (List.filter_sublist.map fst)

/-- The table after the update of a claim. -/
def claimedTable (table : Table) (owner : String) (expiresAt : Time) (picked : List (Sigma fun _ : Key => Row)) : Table :=
  insertAll table (picked.map fun entry => (entry.1, leased owner expiresAt entry.2))

theorem lookup_claimedTable : (claimedTable table owner expiresAt (dueRows table clock locked limit)).lookup key = some row ↔
      (∃ entry ∈ dueRows table clock locked limit, entry.1 = key ∧ leased owner expiresAt entry.2 = row) ∨
        key ∉ (dueRows table clock locked limit).map fst ∧ table.lookup key = some row := by
  have names (picked : List (Sigma fun _ : Key => Row)) :
      (picked.map fun entry => (entry.1, leased owner expiresAt entry.2)).map Prod.fst = picked.map fst := by
    rw [List.map_map]
    rfl
  unfold claimedTable
  rw [lookup_insertAll (by rw [names]; exact nodup_dueRows), names, List.mem_map]
  simp only [Prod.mk.injEq]

theorem evolves_leased (expiresAt : Time) (row : Row) : RowEvolves row (leased owner expiresAt row) := by
  have later : row.leaseEpoch < (leased owner expiresAt row).leaseEpoch := Int.lt_add_one_iff.mpr le_rfl
  exact ⟨rfl, later.le, fun same => absurd same later.ne'⟩

theorem stays_claimedTable : Stays table (claimedTable table owner expiresAt (dueRows table clock locked limit)) := by
  constructor
  · intro key row found
    by_cases picked : key ∈ (dueRows table clock locked limit).map fst
    · obtain ⟨entry, member, rfl⟩ := List.mem_map.mp picked
      cases (lookup_of_mem_dueRows member).symm.trans found
      exact ⟨_, lookup_claimedTable.mpr (.inl ⟨entry, member, rfl, rfl⟩), evolves_leased expiresAt entry.2, rfl⟩
    · exact ⟨row, lookup_claimedTable.mpr (.inr ⟨picked, found⟩), .refl row, rfl⟩
  · intro key held
    obtain ⟨row, found⟩ := Option.isSome_iff_exists.mp held
    rcases lookup_claimedTable.mp found with ⟨entry, member, rfl, _⟩ | ⟨_, before⟩
    · rw [lookup_of_mem_dueRows member]; rfl
    · rw [before]; rfl

theorem stays_claimDue : Stays table (claimDue platform table clock locked rank owner now leaseFor limit).2 := by
  unfold claimDue
  split
  · exact .refl table
  · exact stays_claimedTable

theorem claimDue_eq_ok (claimed : (claimDue platform table clock locked rank owner now leaseFor limit).1 = .ok leases) :
    ∃ expiresAt, (claimDue platform table clock locked rank owner now leaseFor limit).2 =
        claimedTable table owner expiresAt (dueRows table clock locked limit) ∧
      ∀ lease ∈ leases, ∃ entry ∈ dueRows table clock locked limit, leaseOf owner expiresAt entry.1 entry.2 = lease := by
  unfold claimDue at claimed ⊢
  split at claimed
  · cases claimed
  rename_i valid
  rw [if_neg valid]
  refine ⟨_, rfl, fun lease member => ?_⟩
  dsimp only at claimed
  split at claimed
  · cases claimed
    obtain ⟨entry, sorted, rfl⟩ := List.mem_map.mp member
    exact ⟨entry, (perm_sortBy _ _).mem_iff.mp sorted, rfl⟩
  · cases claimed

theorem stays_setEnabled {tenantID id : String} {version : ℤ} {enabled : Bool} :
    Stays table (setEnabled table tenantID id version enabled).2 := by
  unfold setEnabled
  split
  · exact .refl table
  split
  · exact .refl table
  rename_i row found
  split
  · exact .refl table
  · exact .insert found ⟨rfl, le_rfl, fun _ => .inl rfl⟩ rfl

theorem fenced_cases (table : Table) (lease : Lease) (change : Row → Row) : (fenced table lease change).2 = table ∨
      ∃ row, table.lookup lease.key = some row ∧ row.leaseOwner = some lease.leaseOwner ∧ row.leaseEpoch = lease.epoch ∧
        (fenced table lease change).2 = table.insert lease.key (change row) := by
  unfold fenced
  split
  · exact .inl rfl
  rename_i row found
  split
  next held => exact .inr ⟨row, found, held.1, held.2, rfl⟩
  next => exact .inl rfl

theorem stays_fail :
    Stays table (fail platform table clock lease retryAfter message).2 := by
  unfold fail
  split
  · exact .refl table
  split
  · exact .refl table
  split
  · exact .refl table
  rcases fenced_cases table lease _ with same | ⟨row, found, _, _, written⟩
  · rw [same]
    exact .refl table
  · rw [written]
    exact .insert found ⟨rfl, le_rfl, fun _ => .inr ⟨rfl, rfl⟩⟩ rfl

/-- The row of a completed occurrence. -/
def completed (next : Time) (row : Row) : Row :=
  { row with
    nextRunAt := wholeMicros next
    leaseOwner := none
    leaseExpiresAt := none
    lastError := ""
    version := row.version + 1 }

theorem complete_cases (platform : Platform) (table : Table) (lease : Lease) (next : Time) :
    (complete platform table lease next).2 = table ∨
      ∃ row, table.lookup lease.key = some row ∧ row.leaseOwner = some lease.leaseOwner ∧ row.leaseEpoch = lease.epoch ∧
        (complete platform table lease next).2 = table.insert lease.key (completed next row) := by
  unfold complete
  split
  · exact .inl rfl
  split
  · exact .inl rfl
  · exact fenced_cases table lease (completed next)

theorem row_eq_some (made : record.row platform = some row) :
    storable record.key.id ∧ storable record.key.tenantID ∧ row.nextRunAt = wholeMicros record.nextRunAt := by
  obtain ⟨payload, _, built⟩ := Option.bind_eq_some_iff.mp made
  dsimp only at built
  split at built
  next texts =>
    cases built
    have each := List.all_eq_true.mp texts
    exact ⟨each _ (.head _), each _ (.tail _ (.head _)), rfl⟩
  next => cases built

theorem save_cases (platform : Platform) (table : Table) (record : Record) : (save platform table record).2 = table ∨
      ∃ row, table.lookup record.key = none ∧ storable record.key.id ∧ storable record.key.tenantID ∧
        row.nextRunAt = wholeMicros record.nextRunAt ∧ (save platform table record).2 = table.insert record.key row := by
  unfold save
  split
  · exact .inl rfl
  split
  · exact .inl rfl
  rename_i row made
  split
  next free =>
    obtain ⟨id, tenant, first⟩ := row_eq_some made
    exact .inr ⟨row, Option.isNone_iff_eq_none.mp free.2, id, tenant, first, rfl⟩
  next => exact .inl rfl

end Store

/-! ## The calls -/

/-- What a call may do to the site. -/
inductive Served (s : Site) : Query → Site → Prop
  | stays (query : Query) (after : Table) (kept : Stays s.table after) : Served s query { s with table := after }
  | saved (record : Record) (row : Row) (absent : s.table.lookup record.key = none) (id : storable record.key.id)
      (tenant : storable record.key.tenantID) (first : row.nextRunAt = wholeMicros record.nextRunAt) :
      Served s (.save record) { s with table := s.table.insert record.key row }
  | completed (lease : Lease) (next : Time) (row : Row) (found : s.table.lookup lease.key = some row)
      (owner : row.leaseOwner = some lease.leaseOwner) (epoch : row.leaseEpoch = lease.epoch) :
      Served s (.complete lease next) { s with table := s.table.insert lease.key (completed next row) }
  | dispatched (lease : Lease) (occurrenceID : String) (failure : Option String) :
      Served s (.dispatch lease occurrenceID) { s with dispatches := s.dispatches ++ [{ lease, occurrenceID, failure }] }

/-- A call that fails leaves the table or what the statement made of it. -/
theorem served_execute
    (run : Served s query { s with table := (statement s.table).2 }) :
    Served s query (execute choice s failed statement).2 := by
  unfold execute
  split
  · exact run
  · exact .stays query s.table (.refl s.table)
  · exact run

theorem execute_eq_ok {statement : Table → Except Error α × Table}
    (succeeded : (execute choice s (.error error) statement).1 = .ok value) :
    (statement s.table).1 = .ok value ∧ (execute choice s (.error error) statement).2 =
      { s with table := (statement s.table).2 } := by
  unfold execute at succeeded ⊢
  split at succeeded
  · exact ⟨succeeded, rfl⟩
  · cases succeeded
  · cases succeeded

theorem served_complete (platform : Platform) (s : Site) (lease : Lease) (next : Time) :
    Served s (.complete lease next) { s with table := (complete platform s.table lease next).2 } := by
  rcases complete_cases platform s.table lease next with same | ⟨row, found, owner, epoch, written⟩
  · rw [same]
    exact .stays _ s.table (.refl s.table)
  · rw [written]
    exact .completed lease next row found owner epoch

theorem served_save (platform : Platform) (s : Site) (record : Record) :
    Served s (.save record) { s with table := (save platform s.table record).2 } := by
  rcases save_cases platform s.table record with same | ⟨row, absent, id, tenant, first, written⟩
  · rw [same]
    exact .stays _ s.table (.refl s.table)
  · rw [written]
    exact .saved record row absent id tenant first

theorem served (platform : Platform) (choice : Choice) (s : Site) (query : Query) :
    Served s query (serve platform choice s query).2 := by
  cases query with unfold serve
  | claim owner now leaseFor limit =>
    apply served_execute
    exact .stays _ _ stays_claimDue
  | dispatch lease occurrenceID => exact .dispatched lease occurrenceID choice.dispatch
  | complete lease next =>
    apply served_execute
    exact served_complete platform s lease next
  | fail lease retryAfter message =>
    apply served_execute
    exact .stays _ _ stays_fail
  | save record =>
    apply served_execute
    exact served_save platform s record
  | setEnabled tenantID id version enabled =>
    apply served_execute
    exact .stays _ _ stays_setEnabled

/-! ## Runs -/

/-- Rows and dispatches stay. -/
structure Evolves (s t : Site) : Prop where
  rows : ∀ key row, s.table.lookup key = some row → ∃ after, t.table.lookup key = some after ∧ RowEvolves row after
  dispatches : ∀ made ∈ s.dispatches, made ∈ t.dispatches

/-- Every occurrence is a whole number of microseconds. -/
def Whole (s : Site) : Prop := ∀ key row, s.table.lookup key = some row → row.nextRunAt % 1000 = 0

theorem wholeMicros_mod (t : Time) : wholeMicros t % 1000 = 0 := by
  unfold wholeMicros
  exact Int.emod_eq_zero_of_dvd (Int.dvd_self_sub_emod)

namespace Evolves

variable {s t u : Site}

theorem refl (s : Site) : Evolves s s := ⟨fun _ row found => ⟨row, found, .refl row⟩, fun _ => id⟩

theorem trans (first : Evolves s t) (second : Evolves t u) : Evolves s u := by
  refine ⟨fun key row found => ?_, fun made member => second.dispatches made (first.dispatches made member)⟩
  obtain ⟨after, middle, early⟩ := first.rows key row found
  obtain ⟨last, final, late⟩ := second.rows key after middle
  exact ⟨last, final, early.trans late⟩

end Evolves

theorem Served.evolves (call : Served s query t) : Evolves s t := by
  cases call with
  | stays _ after kept =>
    refine ⟨fun key row found => ?_, fun _ => id⟩
    obtain ⟨next, present, evolves, _⟩ := kept.rows key row found
    exact ⟨next, present, evolves⟩
  | saved record row absent =>
    exact ⟨fun key before found => ⟨before, lookup_insert_of_absent absent found, .refl before⟩, fun _ => id⟩
  | completed lease next row found =>
    refine ⟨fun key before held => ?_, fun _ => id⟩
    rw [lookup_insert]
    split
    next same =>
      obtain rfl := Option.some.inj (held.symm.trans (same ▸ found))
      exact ⟨_, rfl, rfl, le_rfl, fun _ => .inl rfl⟩
    next => exact ⟨before, held, .refl before⟩
  | dispatched lease occurrenceID failure => exact ⟨(Evolves.refl s).rows, fun _ member => List.mem_append_left _ member⟩

theorem Served.whole (call : Served s query t) (whole : Whole s) : Whole t := by
  intro key row found
  cases call with
  | stays _ after kept =>
    obtain ⟨before, held⟩ := Option.isSome_iff_exists.mp (kept.keys key (Option.isSome_of_eq_some found))
    obtain ⟨next, present, _, same⟩ := kept.rows key before held
    cases present.symm.trans found
    exact same ▸ whole key before held
  | saved record inserted absent id tenant first =>
    exact forall_insert rfl (first ▸ wholeMicros_mod _) whole key row found
  | completed lease next =>
    refine forall_insert rfl ?_ whole key row found
    exact wholeMicros_mod next
  | dispatched => exact whole key row found

/-! ## Leases -/

/-- The row that a claim left for the lease. -/
structure Issues (row : Row) (lease : Lease) : Prop where
  timing : row.timing = lease.timing
  epoch : row.leaseEpoch = lease.epoch
  owner : row.leaseOwner = some lease.leaseOwner
  occurrence : row.nextRunAt = lease.occurrence
  whole : row.nextRunAt % 1000 = 0

/-- The lease was issued, and its row has evolved since. -/
def Held (s : Site) (lease : Lease) : Prop :=
  ∃ issued row, Issues issued lease ∧ s.table.lookup lease.key = some row ∧ RowEvolves issued row

namespace Held

variable {s t : Site} {lease : Lease} {row : Row}

section
variable (held : Held s lease)
include held

theorem evolves (later : Evolves s t) : Held t lease := by
  obtain ⟨issued, row, issues, found, evolves⟩ := held
  obtain ⟨after, present, further⟩ := later.rows lease.key row found
  exact ⟨issued, after, issues, present, evolves.trans further⟩

/-- The fence: the row under the owner and the epoch of a lease stands at its occurrence. -/
theorem occurrence (found : s.table.lookup lease.key = some row) (owner : row.leaseOwner = some lease.leaseOwner)
    (epoch : row.leaseEpoch = lease.epoch) : row.nextRunAt = lease.occurrence := by
  obtain ⟨issued, current, issues, present, evolves⟩ := held
  cases present.symm.trans found
  rcases evolves.fence (epoch.trans issues.epoch.symm) with free | ⟨_, same⟩
  · rw [owner] at free
    cases free
  · exact same.trans issues.occurrence

theorem timing (found : s.table.lookup lease.key = some row) : row.timing = lease.timing := by
  obtain ⟨issued, current, issues, present, evolves⟩ := held
  cases present.symm.trans found
  exact evolves.timing.trans issues.timing

theorem whole : lease.occurrence % 1000 = 0 := by
  obtain ⟨issued, _, issues, _⟩ := held
  exact issues.occurrence ▸ issues.whole

theorem isSome : (s.table.lookup lease.key).isSome := by
  obtain ⟨_, row, _, found, _⟩ := held
  exact Option.isSome_of_eq_some found

end

end Held

theorem held_of_claimed {choice : Choice} {s : Site} (whole : Whole s) {owner : String} {now : Time}
    {leaseFor : Duration} {limit : ℤ} {leases : List Lease}
    (claimed : (serve platform choice s (.claim owner now leaseFor limit)).1 = .ok leases) :
    ∀ lease ∈ leases, Held (serve platform choice s (.claim owner now leaseFor limit)).2 lease := by
  intro lease member
  unfold serve at claimed ⊢
  obtain ⟨answered, after⟩ := execute_eq_ok claimed
  obtain ⟨expiresAt, table, issued⟩ := claimDue_eq_ok answered
  obtain ⟨entry, picked, rfl⟩ := issued lease member
  refine ⟨leased owner expiresAt entry.2, leased owner expiresAt entry.2, ⟨rfl, rfl, rfl, rfl, ?_⟩, ?_, .refl _⟩
  · exact whole entry.1 entry.2 (lookup_of_mem_dueRows picked)
  · refine (congrArg (fun site : Site => site.table.lookup entry.1) after).trans ?_
    dsimp only
    rw [table]
    exact lookup_claimedTable.mpr (.inl ⟨entry, picked, rfl, rfl⟩)

/-! ## Passes -/

/-- A trimmed name of a row. -/
def Trimmed (key : Key) : Prop := trimSpace key.id = key.id ∧ trimSpace key.tenantID = key.tenantID

section
variable (platform : Platform)

/-- What stands when a program makes a call. -/
def Justified (s : Site) : Query → Prop
  | .dispatch lease made => occurrenceID platform lease.tenantID lease.scheduleID lease.occurrence = .ok made ∧ Held s lease
  | .complete lease next => lease.timing.nextAfter platform lease.occurrence = .ok next ∧ Held s lease ∧
      ∃ made ∈ s.dispatches, made.lease = lease ∧ made.failure = none
  | .save record => Trimmed record.key
  | _ => True

/-- Other programs keep rows and dispatches. -/
abbrev among : Law Site Query := Threads.amongst Whole Evolves (Justified platform)

/-- Where a program that began at `s` may stand. -/
def Since (s : Site) (_ : List String) (t : Site) : Prop := Whole t ∧ Evolves s t

theorem since_served (choice : Choice) (query : Query) (since : Whole t ∧ Evolves s t) :
    Whole (serve platform choice t query).2 ∧ Evolves s (serve platform choice t query).2 := by
  have call := served platform choice t query
  exact ⟨call.whole since.1, since.2.trans call.evolves⟩

theorem wp_report (query : Query) {report : query.Answer → List String} (since : Whole t ∧ Evolves s t)
    (justified : ∀ u, Evolves t u → Justified platform u query) :
    (ask query >>= fun answer => pure (report answer)).wp (serve platform) (among platform) (Since s) t := by
  intro u between
  exact ⟨justified u between.2, fun choice => since_served platform choice query ⟨between.1, since.2.trans between.2⟩⟩

variable {platform}

theorem wp_settle (config : Config) {failure : Option String} (held : Held t lease)
    (since : Whole t ∧ Evolves s t) (accepted : failure = none → ∃ made ∈ t.dispatches, made.lease = lease ∧
      made.failure = none) :
    (settle platform config lease failure).wp (serve platform) (among platform) (Since s) t := by
  cases failure with
  | some dispatchErr => exact wp_report platform (.fail lease config.errorBackoff _) since fun _ _ => trivial
  | none =>
    simp only [settle]
    split
    next => exact wp_report platform (.fail lease config.errorBackoff _) since fun _ _ => trivial
    rename_i next advances
    refine wp_report platform (.complete lease next) since fun u later => ⟨advances, held.evolves later, ?_⟩
    obtain ⟨made, member, own, success⟩ := accepted rfl
    exact ⟨made, later.dispatches made member, own, success⟩

theorem wp_runLease (config : Config) (held : Held t lease) (since : Whole t ∧ Evolves s t) :
    (runLease platform config lease).wp (serve platform) (among platform) (Since s) t := by
  unfold runLease
  split
  next => exact since
  rename_i made named
  intro u between
  have here : Whole u ∧ Evolves s u := ⟨between.1, since.2.trans between.2⟩
  refine ⟨⟨named, held.evolves between.2⟩, fun choice => ?_⟩
  have dispatched := since_served platform choice (.dispatch lease made) here
  refine wp_settle config ?_ dispatched fun success => ?_
  · exact (held.evolves between.2).evolves (served platform choice u _).evolves
  · exact ⟨_, List.mem_append_right _ (.head _), rfl, success⟩

attribute [local irreducible] runLease

/-- The loop: the leases that are left stay held. -/
theorem wp_runLeases (config : Config) (held : ∀ lease ∈ leases, Held t lease)
    (since : Whole t ∧ Evolves s t) :
    (runLeases platform config leases).wp (serve platform) (among platform) (Since s) t := by
  induction leases generalizing t with
  | nil => exact since
  | cons lease rest ih =>
    rw [runLeases, Program.wp_bind]
    refine Program.wp.mono (wp_runLease config (held lease (.head rest)) ⟨since.1, .refl t⟩) ?_
    intro errors u after
    refine Program.wp_bind.mpr (Program.wp.mono (ih ?_ ⟨after.1, since.2.trans after.2⟩) fun _ _ => id)
    exact fun other member => (held other (.tail lease member)).evolves after.2

theorem wp_runOnce (config : Config) (now : Time) :
    (runOnce platform config now).wp (serve platform) (among platform) (Since s) s := by
  intro t between
  refine ⟨trivial, fun choice => ?_⟩
  have here := since_served platform choice (.claim config.owner now config.lease config.claimBatch) between
  have issued := @held_of_claimed platform choice t between.1 config.owner now config.lease config.claimBatch
  generalize serve platform choice t (.claim config.owner now config.lease config.claimBatch) = answer at here issued
  change (runClaimed platform config answer.1).wp _ _ _ _
  cases claimed : answer.1 with
  | error claimErr => exact here
  | ok leases => exact wp_runLeases config (issued claimed) here

theorem trimSpace_trimSpace (text : String) : trimSpace (trimSpace text) = trimSpace text := by
  unfold trimSpace
  rw [String.toList_ofList, trim_trim fun _ => id]

theorem trimmed_of_new (made : Record.new platform spec now = .ok record) : Trimmed record.key := by
  unfold Record.new at made
  split at made
  · cases made
  obtain ⟨nextRunAt, _, built⟩ := exists_of_bind_eq_ok made
  cases built
  exact ⟨trimSpace_trimSpace spec.id, trimSpace_trimSpace spec.tenantID⟩

theorem wp_code (op : Operation) (whole : Whole s) :
    (op.code platform).wp (serve platform) (among platform) (Since s) s := by
  cases op with
  | runOnce config now =>
    delta Operation.code
    dsimp only
    split
    next => exact ⟨whole, .refl s⟩
    next filled _ => exact wp_runOnce filled now
  | create spec now =>
    delta Operation.code
    dsimp only
    split
    next => exact ⟨whole, .refl s⟩
    next record made => exact wp_report platform (.save record) ⟨whole, .refl s⟩ fun _ _ => trimmed_of_new made
  | setEnabled tenantID id version enabled =>
    exact wp_report platform (.setEnabled tenantID id version enabled) ⟨whole, .refl s⟩ fun _ _ => trivial

end

end RhinoQ.Model.TaskSchedule
