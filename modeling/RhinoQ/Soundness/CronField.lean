import Mathlib.Algebra.Order.Ring.Int
import RhinoQ.Model.TaskSchedule.Cron

/-! # What a field of a calendar names

The loop of `cronField` counts on an `int`. Where a step leaves its range the count goes on from below, and the field
names values that its text does not.
-/

namespace RhinoQ.Model.TaskSchedule

/-- The items of a field, which commas separate. -/
def items (raw : List Char) : List (List Char) := raw.splitOnP (· == ',')

/-- A text and, after the separator, a second one if there is one. -/
def joined (separator : Char) (left : List Char) (right : Option (List Char)) : List Char :=
  left ++ right.elim [] (separator :: ·)

section
variable (least most : ℤ)

/-- What stands before a step: all values, or a number and after a dash, if there is one, the end. -/
inductive Base : List Char → ℤ → ℤ → Prop
  | all : Base ['*'] least most
  | ends (first : '-' ∉ left) (low : atoi left = some start) (high : right.elim (some start) atoi = some stop) :
    Base (joined '-' left right) start stop

/-- The text of an item with its start, its end and its step, which is `1` without a slash. The ends lie in order within
the bounds. -/
inductive Item : List Char → ℤ → ℤ → ℤ → Prop
  | stepped (first : '/' ∉ base) (ends : Base least most base start stop) (read : raw.elim (some 1) atoi = some step)
    (positive : 1 ≤ step) (within : least ≤ start ∧ start ≤ stop ∧ stop ≤ most) : Item (joined '/' base raw) start stop step

/-- The item names `start`, and what stands a number of steps after it, up to `stop`. -/
def Names (item : List Char) (value : ℤ) : Prop :=
  ∃ start stop step, Item least most item start stop step ∧ ∃ i : ℕ, value = start + step * i ∧ value ≤ stop

/-- A step from a value that the item names leaves the range of an `int`. -/
def Overflows (item : List Char) : Prop :=
  ∃ start stop step, Item least most item start stop step ∧
    ∃ i : ℕ, start + step * i ≤ stop ∧ 2 ^ 63 ≤ start + step * i + step

/-- The values are those of the items. Sunday is `0` and `7`. -/
def Means (weekday : Bool) (raw : List Char) (values : List ℤ) : Prop :=
  ∀ v, v ∈ values ↔ ∃ item ∈ items raw, ∃ named, Names least most item named ∧
    v = if weekday ∧ named = 7 then 0 else named

end

variable {least most start stop step value : ℤ} {item raw left base : List Char} {right : Option (List Char)} {rounds : ℕ}
  {values : List ℤ} {weekday : Bool} {c : Char}

theorem cut_joined (first : c ∉ left) : cut c (joined c left right) = (left, right) := by
  have before (x : Char) (member : x ∈ left) : (x != c) = true := by
    simpa using fun same : x = c => first (same ▸ member)
  rw [cut, joined, List.dropWhile_append_of_pos before, List.takeWhile_append_of_pos before]
  cases right <;> simp

theorem exists_joined (c : Char) (text : List Char) : ∃ left right, c ∉ left ∧ text = joined c left right := by
  by_cases member : c ∈ text
  · obtain ⟨left, right, whole, first⟩ := List.eq_append_cons_of_mem member
    exact ⟨left, some right, first, whole⟩
  · exact ⟨text, none, member, (List.append_nil text).symm⟩

theorem cronEnds_eq_some : cronEnds least most base = some (start, stop) ↔ Base least most base start stop := by
  constructor
  · intro read
    unfold cronEnds at read
    split_ifs at read with all
    · cases read
      exact all ▸ .all
    obtain ⟨left, right, first, rfl⟩ := exists_joined '-' base
    rw [cut_joined first] at read
    obtain ⟨_, low, read⟩ := Option.bind_eq_some_iff.mp read
    obtain ⟨_, high, same⟩ := Option.map_eq_some_iff.mp read
    cases same
    exact .ends first low high
  · intro reads
    cases reads with
    | all => rfl
    | @ends left _ _ right first low high =>
      have other : joined '-' left right ≠ ['*'] := fun same => by
        obtain ⟨rfl, _⟩ | ⟨rfl, _⟩ := List.append_eq_singleton_iff.mp same <;> cases low
      simp [cronEnds, other, cut_joined first, low, high]

/-- An item is read as its text says. -/
theorem cronRange_eq_some : cronRange least most item = some (start, stop, step) ↔ Item least most item start stop step := by
  have stepped {raw : Option (List Char)} : cronStep raw = some step ↔ raw.elim (some 1) atoi = some step ∧ 1 ≤ step := by
    cases raw <;> simp [cronStep, Option.filter_eq_some_iff]
    omega
  constructor
  · intro read
    obtain ⟨base, raw, first, rfl⟩ := exists_joined '/' item
    rw [cronRange, cut_joined first] at read
    obtain ⟨_, counted, read⟩ := Option.bind_eq_some_iff.mp read
    obtain ⟨⟨_, _⟩, ends, read⟩ := Option.bind_eq_some_iff.mp read
    dsimp only at read
    split_ifs at read with outside
    cases read
    have ⟨number, positive⟩ := stepped.mp counted
    exact .stepped first (cronEnds_eq_some.mp ends) number positive (by omega)
  · rintro ⟨first, ends, read, positive, within⟩
    rw [cronRange, cut_joined first, stepped.mpr ⟨read, positive⟩, cronEnds_eq_some.mpr ends]
    exact if_neg (by omega)

theorem atoi_lt {text : List Char} (read : atoi text = some value) : value < 2 ^ 63 := by
  unfold atoi at read
  dsimp only at read
  split at read
  all_goals
    obtain ⟨number, -, bounded⟩ := Option.bind_eq_some_iff.mp read
    split_ifs at bounded with range
    cases bounded
    exact range.2

namespace Item

variable (reads : Item least most item start stop step)
include reads

theorem bounds : least ≤ start ∧ start ≤ stop ∧ stop ≤ most ∧ 1 ≤ step ∧ step < 2 ^ 63 := by
  obtain @⟨_, _, _, _, _ | raw, _, _, read, positive, low, order, high⟩ := reads
  · cases read
    exact ⟨low, order, high, by decide⟩
  · exact ⟨low, order, high, positive, atoi_lt read⟩

theorem names_iff : Names least most item value ↔ ∃ i : ℕ, value = start + step * i ∧ value ≤ stop := by
  refine ⟨fun ⟨_, _, _, other, named⟩ => ?_, fun named => ⟨start, stop, step, reads, named⟩⟩
  cases (cronRange_eq_some.mpr reads).symm.trans (cronRange_eq_some.mpr other)
  exact named

theorem cronItem_eq : cronItem least most item = cronValues stop step (2 ^ 64) start := by
  rw [cronItem, cronRange_eq_some.mpr reads]
  rfl

end Item

theorem item_of_cronItem (read : cronItem least most item = some values) :
    ∃ start stop step, Item least most item start stop step := by
  obtain ⟨⟨start, stop, step⟩, ranged, -⟩ := Option.bind_eq_some_iff.mp read
  exact ⟨start, stop, step, cronRange_eq_some.mp ranged⟩

theorem step_mul_succ (positive : 1 ≤ step) (value : ℤ) (i : ℕ) :
    0 ≤ step * i ∧ value + step * (i + 1 : ℕ) = value + step + step * i := by
  have := Int.mul_nonneg (Int.le_of_lt positive) (Int.natCast_nonneg i)
  rw [Nat.cast_succ, mul_add]
  omega

theorem next_of_cronValues (within : value ≤ stop) (counted : cronValues stop step rounds value = some values) :
    ∃ left rest, cronValues stop step left (Int.bmod (value + step) (2 ^ 64)) = some rest ∧ values = value :: rest := by
  cases rounds with
  | zero => cases counted
  | succ left =>
    rw [cronValues, if_pos within] at counted
    obtain ⟨rest, goes, rfl⟩ := Option.map_eq_some_iff.mp counted
    exact ⟨left, rest, goes, rfl⟩

section
variable (low : -2 ^ 63 ≤ value) (positive : 1 ≤ step)
include low positive

/-- A count that stays in the range ends. It gives each value up to `stop`, and no other. -/
theorem exists_cronValues (high : value < 2 ^ 63) (enough : 2 ^ 63 ≤ value + rounds)
    (fits : ∀ i : ℕ, value + step * i ≤ stop → value + step * i + step < 2 ^ 63) :
    ∃ values, cronValues stop step rounds value = some values ∧
      ∀ v, v ∈ values ↔ ∃ i : ℕ, v = value + step * i ∧ v ≤ stop := by
  induction rounds generalizing value with
  | zero => omega
  | succ rounds ih =>
    rw [cronValues]
    split_ifs with within
    · have next := fits 0 (by simpa using within)
      rw [Nat.cast_zero, mul_zero, add_zero] at next
      have shift (i : ℕ) := (step_mul_succ positive value i).2
      obtain ⟨rest, goes, member⟩ := @ih (value + step) (by omega) next (by omega) fun i reached =>
        shift i ▸ fits (i + 1) (shift i ▸ reached)
      rw [Int.bmod_eq_of_le (by omega) (by omega), goes]
      refine ⟨_, rfl, fun v => ?_⟩
      rw [List.mem_cons, member]
      constructor
      · rintro (rfl | ⟨i, named, reached⟩)
        · exact ⟨0, by simp, within⟩
        · exact ⟨i + 1, named.trans (shift i).symm, reached⟩
      · rintro ⟨_ | i, named, reached⟩
        · exact .inl (by simpa using named)
        · exact .inr ⟨i, named.trans (shift i), reached⟩
    · refine ⟨[], rfl, fun v => ⟨nofun, fun ⟨i, named, reached⟩ => ?_⟩⟩
      have := (step_mul_succ positive value i).1
      omega

/-- A count that leaves the range goes on below zero. -/
theorem negative_of_overflow (counted : cronValues stop step rounds value = some values) (high : stop < 2 ^ 63)
    (small : step < 2 ^ 63) (i : ℕ) (reached : value + step * i ≤ stop) (leaves : 2 ^ 63 ≤ value + step * i + step) :
    ∃ v ∈ values, v < 0 := by
  induction i generalizing value values rounds with
  | zero =>
    rw [Nat.cast_zero, mul_zero, add_zero] at reached leaves
    obtain ⟨_, rest, goes, rfl⟩ := next_of_cronValues reached counted
    have wrapped : Int.bmod (value + step) (2 ^ 64) = value + step - 2 ^ 64 := by
      rw [Int.bmod_def]
      split_ifs <;> omega
    obtain ⟨_, _, _, rfl⟩ := next_of_cronValues (by omega) (wrapped ▸ goes)
    exact ⟨_, .tail _ (.head _), by omega⟩
  | succ i ih =>
    obtain ⟨nonneg, shift⟩ := step_mul_succ positive value i
    rw [shift] at reached leaves
    obtain ⟨_, rest, goes, rfl⟩ := next_of_cronValues (by omega) counted
    rw [Int.bmod_eq_of_le (by omega) (by omega)] at goes
    obtain ⟨v, member, negative⟩ := ih (by omega) goes reached leaves
    exact ⟨v, .tail _ member, negative⟩

end

/-- An item in the range is read, and gives the values that it names. -/
theorem exists_cronItem (low : -2 ^ 63 ≤ least) (high : most < 2 ^ 63)
    (reads : ∃ start stop step, Item least most item start stop step) (fits : ¬Overflows least most item) :
    ∃ values, cronItem least most item = some values ∧ ∀ v, v ∈ values ↔ Names least most item v := by
  obtain ⟨start, stop, step, reads⟩ := reads
  have bounds := reads.bounds
  rw [reads.cronItem_eq]
  simp only [reads.names_iff]
  exact exists_cronValues (by omega) bounds.2.2.2.1 (by omega) (by omega) fun i reached =>
    lt_of_not_ge fun leaves => fits ⟨start, stop, step, reads, i, reached, leaves⟩

theorem Names.bounds (naming : Names least most item value) : least ≤ value ∧ value ≤ most := by
  obtain ⟨start, stop, step, reads, i, rfl, reached⟩ := naming
  have bounds := reads.bounds
  have := (step_mul_succ bounds.2.2.2.1 start i).1
  omega

theorem mapM_eq_some {f : List Char → Option (List ℤ)} {items : List (List Char)} {lists : List (List ℤ)} :
    items.mapM f = some lists ↔ items.map f = lists.map some := by
  induction items generalizing lists with
  | nil => cases lists <;> simp
  | cons item items ih =>
    rw [List.mapM_cons]
    cases lists <;> simp [Option.bind_eq_some_iff, ih]

/-- A field that is read has the values of its items. -/
theorem mem_cronField (parsed : cronField least most weekday raw = some values) :
    (∀ item ∈ items raw, ∃ list, cronItem least most item = some list) ∧
      ∀ v, v ∈ values ↔ ∃ item ∈ items raw, ∃ list, cronItem least most item = some list ∧
        ∃ named ∈ list, v = if weekday ∧ named = 7 then 0 else named := by
  obtain ⟨lists, mapped, parsed⟩ := Option.bind_eq_some_iff.mp parsed
  dsimp only at parsed
  split_ifs at parsed
  cases parsed
  change (items raw).mapM _ = _ at mapped
  rw [mapM_eq_some] at mapped
  constructor
  · intro item among
    obtain ⟨list, -, read⟩ := List.mem_map.mp (mapped ▸ List.mem_map_of_mem among)
    exact ⟨list, read.symm⟩
  · intro v
    have listed (list : List ℤ) : list ∈ lists ↔ ∃ item ∈ items raw, cronItem least most item = some list := by
      rw [← List.mem_map, mapped, List.mem_map_of_injective (Option.some_injective _)]
    simp only [List.mem_map, List.mem_flatten, listed]
    aesop

/-- As long as no step leaves the range of an `int`, a field is refused only for an item that is none, and names what
its text names. Where the bounds are not negative, it names what its text names only then. -/
theorem field_means_text (low : -2 ^ 63 ≤ least) (high : most < 2 ^ 63) (weekday : Bool) (raw : List Char) :
    ((∀ item ∈ items raw, ¬Overflows least most item) →
      ((∃ values, cronField least most weekday raw = some values) ↔
        ∀ item ∈ items raw, ∃ start stop step, Item least most item start stop step) ∧
      ∀ values, cronField least most weekday raw = some values → Means least most weekday raw values ∧
        ((weekday = true → least ≤ 0) → ∀ v ∈ values, least ≤ v ∧ v ≤ most)) ∧
    (0 ≤ least → ∀ values, cronField least most weekday raw = some values → Means least most weekday raw values →
      ∀ item ∈ items raw, ¬Overflows least most item) := by
  refine ⟨fun fits => ⟨⟨fun ⟨values, parsed⟩ item among => ?_, fun reads => ?_⟩, fun values parsed => ?_⟩,
    fun positive values parsed means item among overflows => ?_⟩
  · obtain ⟨_, read⟩ := (mem_cronField parsed).1 item among
    exact item_of_cronItem read
  · choose! list read member using fun item among => exists_cronItem low high (reads item among) (fits item among)
    have mapped := mapM_eq_some.mpr ((List.map_congr_left read).trans (List.map_map ..).symm)
    obtain ⟨item, among⟩ := List.exists_mem_of_ne_nil _ (List.splitOnP_ne_nil _ raw)
    obtain ⟨start, _, _, within⟩ := reads item among
    have first := (member item among start).mpr (within.names_iff.mpr ⟨0, by simp, within.bounds.2.1⟩)
    have listed := List.mem_flatten.mpr ⟨_, List.mem_map_of_mem among, first⟩
    rw [cronField, ← items, mapped]
    exact ⟨_, if_neg (mt List.map_eq_nil_iff.mp (List.ne_nil_of_mem listed))⟩
  · obtain ⟨each, member⟩ := mem_cronField parsed
    have means : Means least most weekday raw values := by
      intro v
      rw [member]
      refine exists_congr fun item => and_congr_right fun among => ?_
      obtain ⟨_, counted⟩ := each item among
      obtain ⟨list, read, named⟩ := exists_cronItem low high (item_of_cronItem counted) (fits item among)
      simp [read, named]
    refine ⟨means, fun sunday v listed => ?_⟩
    obtain ⟨item, among, named, naming, rfl⟩ := (means v).mp listed
    have bounds := naming.bounds
    split_ifs with seventh
    · have := sunday seventh.1
      omega
    · exact bounds
  · obtain ⟨start, stop, step, reads, i, reached, leaves⟩ := overflows
    obtain ⟨each, member⟩ := mem_cronField parsed
    obtain ⟨list, read⟩ := each item among
    have bounds := reads.bounds
    obtain ⟨v, listed, negative⟩ := negative_of_overflow (by omega) bounds.2.2.2.1 (reads.cronItem_eq ▸ read) (by omega)
      bounds.2.2.2.2 i reached leaves
    have plain : ¬(weekday = true ∧ v = 7) := by omega
    have given := (member v).mpr ⟨item, among, list, read, v, listed, (if_neg plain).symm⟩
    obtain ⟨_, _, named, naming, same⟩ := (means v).mp given
    have := naming.bounds
    split_ifs at same <;> omega

theorem quarter_hours_mean_text : cronField 0 59 false "*/15".toList = some [0, 15, 30, 45] ∧
    Means 0 59 false "*/15".toList [0, 15, 30, 45] := by
  have parsed : cronField 0 59 false "*/15".toList = some [0, 15, 30, 45] := by decide
  refine ⟨parsed, (((field_means_text (by decide) (by decide) _ _).1 ?_).2 _ parsed).1⟩
  have alone : items "*/15".toList = ["*/15".toList] := by decide
  rw [alone, List.forall_mem_singleton]
  rintro ⟨start, stop, step, reads, i, reached, leaves⟩
  cases (show cronRange 0 59 "*/15".toList = some (0, 59, 15) by decide).symm.trans (cronRange_eq_some.mpr reads)
  omega

/-- From `1` the step leaves the range, and the count goes on from `-2 ^ 63`. -/
theorem large_step_wraps : ∃ values, cronField 1 31 false "1/9223372036854775807".toList = some values ∧ -1 ∈ values :=
  ⟨[1, -2 ^ 63, -1], by decide, by decide⟩

end RhinoQ.Model.TaskSchedule
