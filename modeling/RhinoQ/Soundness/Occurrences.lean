import RhinoQ.Proofs.TaskSchedule

/-! # Occurrences of recurring tasks

The next run of a schedule moves from one occurrence to the one after it only, under a lease whose dispatch
succeeded. Dispatches of one occurrence carry one identity, and those of others differ unless the digest collides.
-/

namespace RhinoQ.Model.TaskSchedule

open Rule FiniteMap Duration Threads

variable {platform : Platform} {p q : Schedulers} {event : Event Operation Choice}
variable {query : Query} {op : Operation} {row : Row} {s : Site}

theorem steady (platform : Platform) : Steady (serve platform) Whole Evolves where
  refl := .refl
  trans := fun _ _ _ => .trans
  keeps := fun choice s query whole => (served platform choice s query).whole whole
  moves := fun choice s query _ => (served platform choice s query).evolves

theorem justified_of_pending (reached : (schedulers platform).Reaches Machine.anyStep p)
    (asks : p.pending t = some (op, query)) : Justified platform p.shared query := by
  have sound (s : Site) (whole : Whole s) : (op.code platform).wp (serve platform) (among platform) (fun _ _ => True) s :=
    (wp_code op whole).mono fun _ _ _ => trivial
  exact (steady platform).ok_of_pending (fun _ _ found => by cases found) sound reached asks

/-! ## Identities -/

/-- The names that rows have. -/
structure Named (key : Key) : Prop where
  trimmed : Trimmed key
  id : storable key.id
  tenant : storable key.tenantID

theorem notMem_of_storable (kept : storable text) : '\x00' ∉ text.toList := by
  unfold storable at kept
  simpa using kept

/-- The text of an identity names the row and the occurrence. -/
theorem occurrenceText_injective {first second : Key} (left : Named first) (right : Named second)
    (same : occurrenceText first.tenantID first.id a = occurrenceText second.tenantID second.id b) :
    first = second ∧ a = b := by
  have nul : "\x00".toList = ['\x00'] := rfl
  have texts := congrArg String.toList same
  simp only [occurrenceText, left.trimmed.1, left.trimmed.2, right.trimmed.1, right.trimmed.2, String.toList_append, nul,
    List.append_assoc, List.singleton_append] at texts
  obtain ⟨tenants, texts⟩ := append_cons_cancel (notMem_of_storable left.tenant) (notMem_of_storable right.tenant) texts
  obtain ⟨ids, texts⟩ := append_cons_cancel (notMem_of_storable left.id) (notMem_of_storable right.id) texts
  refine ⟨?_, Clock.formatRFC3339Nano_injective (String.toList_inj.mp texts)⟩
  exact Key.ext (String.toList_inj.mp ids) (String.toList_inj.mp tenants)

/-- Rows have names, and dispatches are of rows and carry their identity. -/
structure Sound (platform : Platform) (s : Site) : Prop where
  named : ∀ key, (s.table.lookup key).isSome → Named key
  rows : ∀ made ∈ s.dispatches, (s.table.lookup made.lease.key).isSome
  identity : ∀ made ∈ s.dispatches,
    occurrenceID platform made.lease.tenantID made.lease.scheduleID made.lease.occurrence = .ok made.occurrenceID

theorem sound_served (sound : Sound platform s) (justified : Justified platform s query)
    (call : Served s query t) : Sound platform t := by
  have present (key : Key) (held : (s.table.lookup key).isSome) : (t.table.lookup key).isSome := by
    obtain ⟨row, found⟩ := Option.isSome_iff_exists.mp held
    obtain ⟨after, later, _⟩ := call.evolves.rows key row found
    exact Option.isSome_of_eq_some later
  cases call with
  | stays _ after kept =>
    exact ⟨fun key held => sound.named key (kept.keys key held), fun made member =>
      present _ (sound.rows made member), sound.identity⟩
  | saved record row absent id tenant =>
    refine ⟨fun key held => ?_, fun made member => present _ (sound.rows made member), sound.identity⟩
    rw [lookup_insert] at held
    split at held
    next same => exact same ▸ ⟨justified, id, tenant⟩
    next => exact sound.named key held
  | completed lease next row found =>
    refine ⟨fun key held => ?_, fun made member => present _ (sound.rows made member), sound.identity⟩
    rw [lookup_insert] at held
    split at held
    next same => exact sound.named key (same ▸ Option.isSome_of_eq_some found)
    next => exact sound.named key held
  | dispatched lease occurrenceID failure =>
    refine ⟨sound.named, fun made member => ?_, fun made member => ?_⟩
    · rcases List.mem_append.mp member with before | new
      · exact sound.rows made before
      · obtain rfl := List.mem_singleton.mp new
        exact justified.2.isSome
    · rcases List.mem_append.mp member with before | new
      · exact sound.identity made before
      · obtain rfl := List.mem_singleton.mp new
        exact justified.1

theorem sound_empty : Sound platform {} where
  named _ held := by cases held
  rows _ member := by cases member
  identity _ member := by cases member

theorem sound_of_reaches (reached : (schedulers platform).Reaches Machine.anyStep p) : Sound platform p.shared := by
  refine reached.invariant_reached (fun p => Sound platform p.shared) sound_empty ?_
  intro p event q before _ taken sound
  have stepped : Stepped (serve platform) (Operation.code platform) p event q := stepped_of_step taken
  cases stepped with
  | started => exact sound
  | answered t choice op asked query next held =>
    exact sound_served sound (justified_of_pending before (pending_of_thread held)) (served platform choice p.shared query)

theorem occurrenceID_eq_ok (named : occurrenceID platform tenantID scheduleID occurrence = .ok made) :
    made = "rqs_" ++ platform.digest (occurrenceText tenantID scheduleID occurrence) := by
  unfold occurrenceID at named
  split at named
  · cases named
  · exact (Except.ok.inj named).symm

/-- The text that the identity of a dispatch is the digest of. -/
def Dispatched.text (made : Dispatched) : String :=
  occurrenceText made.lease.tenantID made.lease.scheduleID made.lease.occurrence

/-- The digest does not collide on the texts of the dispatches. -/
abbrev NoCollision (platform : Platform) (dispatches : List Dispatched) : Prop :=
  ∀ first ∈ dispatches, ∀ second ∈ dispatches,
    platform.digest first.text = platform.digest second.text → first.text = second.text

section
variable (sound : Sound platform s) {first second : Dispatched} (left : first ∈ s.dispatches) (right : second ∈ s.dispatches)
include sound left right

theorem identity_eq (key : first.lease.key = second.lease.key)
    (occurrence : first.lease.occurrence = second.lease.occurrence) :
    first.occurrenceID = second.occurrenceID := by
  rw [occurrenceID_eq_ok (sound.identity first left), occurrenceID_eq_ok (sound.identity second right)]
  obtain ⟨ids, tenants⟩ := Key.mk.inj key
  rw [ids, tenants, occurrence]

theorem occurrence_of_identity (apart : NoCollision platform s.dispatches)
    (same : first.occurrenceID = second.occurrenceID) :
    first.lease.key = second.lease.key ∧ first.lease.occurrence = second.lease.occurrence := by
  rw [occurrenceID_eq_ok (sound.identity first left), occurrenceID_eq_ok (sound.identity second right)] at same
  have texts := apart first left second right (String.append_right_inj "rqs_" |>.mp same)
  exact occurrenceText_injective (sound.named _ (sound.rows first left)) (sound.named _ (sound.rows second right)) texts

end

/-! ## Occurrences -/

theorem next_whole {cron : Cron} {after next : ℤ} (found : cron.next after = some next) : next % 1000 = 0 := by
  unfold Cron.next at found
  split at found
  · cases found
  obtain ⟨i, _, rfl⟩ := List.mem_map.mp (List.mem_of_find?_eq_some found)
  simp only [minute, second, millisecond]
  omega

/-- The occurrence after a whole one is whole. -/
theorem nextAfter_whole {after next : ℤ} (advances : row.timing.nextAfter platform after = .ok next)
    (whole : after % 1000 = 0) : next % 1000 = 0 := by
  unfold Spec.nextAfter at advances
  split at advances
  · split at advances
    · cases advances
    · split at advances
      · cases advances
      next found =>
        cases advances
        exact next_whole found
  · split at advances
    · cases advances
    · cases advances
      simp only [Row.timing, millisecond]
      omega

theorem wholeMicros_of_whole (whole : t % 1000 = 0) : wholeMicros t = t := by
  unfold wholeMicros
  rw [whole, sub_zero]

/-- The thread is about to move a row from its occurrence to the next, under a lease of that occurrence whose dispatch
succeeded. -/
def Advances (platform : Platform) (p : Schedulers) (t : ℕ) (key : Key) (row : Row) (next : Time) : Prop :=
  row.timing.nextAfter platform row.nextRunAt = .ok next ∧
    ∃ op lease, p.pending t = some (op, .complete lease next) ∧ lease.key = key ∧ lease.occurrence = row.nextRunAt ∧
      ∃ made ∈ p.shared.dispatches, made.lease = lease ∧ made.failure = none

/-- What a call does to the occurrence of a row. -/
theorem advances_of_served (asks : p.pending t = some (op, query))
    (justified : Justified platform p.shared query) (call : Served p.shared query after)
    (found : p.shared.table.lookup key = some row) :
    ∃ next, after.table.lookup key = some next ∧ (next.nextRunAt = row.nextRunAt ∨
      Advances platform p t key row next.nextRunAt) := by
  cases call with
  | stays _ after kept =>
    obtain ⟨next, present, _, same⟩ := kept.rows key row found
    exact ⟨next, present, .inl same⟩
  | saved record inserted absent =>
    exact ⟨row, lookup_insert_of_absent absent found, .inl rfl⟩
  | completed lease next current held owner epoch =>
    rw [lookup_insert]
    split
    next same =>
      subst same
      cases held.symm.trans found
      obtain ⟨advances, leased, success⟩ := justified
      have occurrence := leased.occurrence found owner epoch
      rw [← leased.timing found, ← occurrence] at advances
      have whole := nextAfter_whole advances (occurrence ▸ leased.whole)
      refine ⟨_, rfl, .inr ?_⟩
      rw [Store.completed, wholeMicros_of_whole whole]
      exact ⟨advances, op, lease, asks, rfl, occurrence.symm, success⟩
    next => exact ⟨row, found, .inl rfl⟩
  | dispatched => exact ⟨row, found, .inl rfl⟩

/-- No occurrence is skipped. In every step the next run of a schedule stays or moves to the occurrence after it, under
a lease of that occurrence whose dispatch has succeeded. The dispatches of one occurrence of one schedule carry one
identity, and no other dispatch carries it if the digest does not collide on the texts of the dispatches that were
made. -/
theorem occurrence_kept_or_advanced (platform : Platform) (reached : (schedulers platform).Reaches Machine.anyStep p)
    (taken : (schedulers platform).step p event = some q) :
    (∀ key row, p.shared.table.lookup key = some row → ∃ next, q.shared.table.lookup key = some next ∧
        (next.nextRunAt = row.nextRunAt ∨ Advances platform p event.thread key row next.nextRunAt)) ∧
    (∀ first ∈ q.shared.dispatches, ∀ second ∈ q.shared.dispatches, first.lease.key = second.lease.key →
        first.lease.occurrence = second.lease.occurrence → first.occurrenceID = second.occurrenceID) ∧
    (NoCollision platform q.shared.dispatches → ∀ first ∈ q.shared.dispatches, ∀ second ∈ q.shared.dispatches,
        first.occurrenceID = second.occurrenceID →
        first.lease.key = second.lease.key ∧ first.lease.occurrence = second.lease.occurrence) := by
  have sound := sound_of_reaches (reached.snoc trivial taken)
  refine ⟨?_, fun first left second right => identity_eq sound left right, ?_⟩
  · intro key row found
    have stepped : Stepped (serve platform) (Operation.code platform) p event q := stepped_of_step taken
    cases stepped with
    | started => exact ⟨row, found, .inl rfl⟩
    | answered t choice op asked query next held =>
      have asks := pending_of_thread held
      exact advances_of_served asks (justified_of_pending reached asks) (served platform choice p.shared query) found
  · intro apart first left second right
    exact occurrence_of_identity sound left right apart

/-- A platform without timezones, whose digest keeps the last 32 characters of a text. -/
def plain : Platform where
  loadLocation _ := none
  jsonValid _ := true
  jsonb := some
  digest text := .ofList (text.toList.drop (text.length - 32))

def hourly : Spec :=
  { id := " report", taskName := "export", ownerID := "ops", tenantID := "acme", every := hour,
    startAt := hour, payload := "{}" }

/-- The schedule is created, and a scheduler claims its first occurrence, dispatches it and completes it. -/
def hourlyCompleted : List (Event Operation Choice) :=
  [.start 0 (.create hourly 1), .ask 0 {}, .start 1 (.runOnce { owner := "a" } 1), .ask 1 { clock := hour }, .ask 1 {},
    .ask 1 {}]

/-- Another scheduler claims the next occurrence. -/
def hourlyClaimed : List (Event Operation Choice) :=
  [.start 2 (.runOnce { owner := "b" } 1), .ask 2 { clock := 2 * hour }]

/-- The next occurrence is dispatched under an identity of its own, and the schedule moves on. -/
theorem hourly_advanced : ∃ p q row next, (schedulers plain).Reaches Machine.anyStep p ∧
    (schedulers plain).step p (.ask 2 {}) = some q ∧ p.shared.table.lookup ⟨"report", "acme"⟩ = some row ∧
    q.shared.table.lookup ⟨"report", "acme"⟩ = some next ∧ next.nextRunAt ≠ row.nextRunAt ∧
    Advances plain p 2 ⟨"report", "acme"⟩ row next.nextRunAt ∧
    ∃ first ∈ q.shared.dispatches, ∃ second ∈ q.shared.dispatches, first.occurrenceID ≠ second.occurrenceID := by
  obtain ⟨p, reached, q, taken, row, found, next, after, different, first, left, second, right, apart, distinct⟩ :=
    Machine.exists_reached (m := schedulers plain) (hourlyCompleted ++ hourlyClaimed ++ [.ask 2 {}])
      (P := fun p => ∃ q, (schedulers plain).step p (.ask 2 {}) = some q ∧
        ∃ row, p.shared.table.lookup ⟨"report", "acme"⟩ = some row ∧
        ∃ next, q.shared.table.lookup ⟨"report", "acme"⟩ = some next ∧ next.nextRunAt ≠ row.nextRunAt ∧
        ∃ first, q.shared.dispatches[0]? = some first ∧ ∃ second, q.shared.dispatches[1]? = some second ∧
          NoCollision plain q.shared.dispatches ∧ first.lease.occurrence ≠ second.lease.occurrence) (by decide)
  obtain ⟨moves, _, tells⟩ := occurrence_kept_or_advanced plain reached taken
  obtain ⟨present, same, kept | advanced⟩ := moves _ row found
  · cases after.symm.trans same
    exact absurd kept different
  · cases after.symm.trans same
    have left := List.mem_of_getElem? left
    have right := List.mem_of_getElem? right
    refine ⟨p, q, row, next, reached, taken, found, after, different, advanced, first, left, second, right, fun equal => ?_⟩
    exact distinct (tells apart first left second right equal).2

/-- A lease that was given back or followed by another completes no occurrence in any later state. -/
theorem past_lease_completes_nothing {lease : Lease} (reached : (schedulers platform).Reaches Machine.anyStep p)
    (path : (schedulers platform).Path Machine.anyStep p events q) (found : p.shared.table.lookup lease.key = some row)
    (past : lease.epoch < row.leaseEpoch ∨ lease.epoch = row.leaseEpoch ∧ row.leaseOwner = none) (next : Time) :
    (Store.complete platform q.shared.table lease next).2 = q.shared.table := by
  have whole : Whole p.shared := (steady platform).valid_of_reaches (fun _ _ found => by cases found) reached
  obtain ⟨after, present, evolves⟩ := ((steady platform).of_path whole path).2.rows lease.key row found
  rcases Store.complete_cases platform q.shared.table lease next with same | ⟨current, found', owner, epoch, _⟩
  · exact same
  · cases present.symm.trans found'
    have grown := evolves.epoch
    rcases past with later | ⟨equal, free⟩
    · omega
    · rcases evolves.fence (epoch.trans equal) with unowned | ⟨same, _⟩
      · cases owner.symm.trans unowned
      · cases owner.symm.trans (same.trans free)

/-- The first occurrence is completed, the next one is claimed, and the lease of the first is presented again. -/
theorem hourly_completed_once : ∃ p q :
    Schedulers, ∃ made ∈ p.shared.dispatches, (schedulers plain).Reaches Machine.anyStep p ∧
    (schedulers plain).run p hourlyClaimed = some q ∧
    (q.shared.table.lookup made.lease.key).map (·.leaseOwner) = some (some "b") ∧
    ∀ next, (Store.complete plain q.shared.table made.lease next).2 = q.shared.table := by
  obtain ⟨p, reached, made, first, row, found, past, q, ran, claimed⟩ :=
    Machine.exists_reached (m := schedulers plain) hourlyCompleted
    (P := fun p => ∃ made, p.shared.dispatches.head? = some made ∧ ∃ row, p.shared.table.lookup made.lease.key = some row ∧
      (made.lease.epoch = row.leaseEpoch ∧ row.leaseOwner = none) ∧ ∃ q, (schedulers plain).run p hourlyClaimed = some q ∧
      (q.shared.table.lookup made.lease.key).map (·.leaseOwner) = some (some "b")) (by decide)
  exact ⟨p, q, made, List.mem_of_head? first, reached, ran, claimed,
    past_lease_completes_nothing reached (Machine.path_of_run ran) found (.inr past)⟩

end RhinoQ.Model.TaskSchedule
