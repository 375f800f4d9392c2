import Mathlib.Data.List.Count
import Mathlib.Data.List.AList

/-! # Finite maps with one value type

The non-dependent case of Mathlib's association lists, with the lookup after an update as one equation.
-/

namespace RhinoQ

/-- A finite map from `κ` to `ν`. -/
abbrev FiniteMap (κ ν : Type*) := AList fun _ : κ => ν

namespace FiniteMap

variable {κ ν : Type*} [DecidableEq κ] {m : FiniteMap κ ν} {k : κ}

theorem lookup_insert (m : FiniteMap κ ν) (k j : κ) (v : ν) :
    (m.insert k v).lookup j = if j = k then some v else m.lookup j := by
  split
  next same => rw [same, AList.lookup_insert]
  next other => exact AList.lookup_insert_ne other

section
variable {n : FiniteMap κ ν} {v : ν} (written : n = m.insert k v)
include written

theorem lookup_insert_cases (found : n.lookup j = some w) : j = k ∧ w = v ∨ j ≠ k ∧ m.lookup j = some w := by
  rw [written, lookup_insert] at found
  split at found
  next same => exact .inl ⟨same, (Option.some.inj found).symm⟩
  next other => exact .inr ⟨other, found⟩

theorem forall_insert {P : κ → ν → Prop} (new : P k v) (old : ∀ j w, m.lookup j = some w → P j w)
    (j : κ) (w : ν) (found : n.lookup j = some w) : P j w := by
  obtain ⟨rfl, rfl⟩ | ⟨_, found⟩ := lookup_insert_cases written found
  · exact new
  · exact old j w found

end

/-- A free key hides nothing when it is taken. -/
theorem lookup_insert_of_absent (absent : m.lookup k = none) (found : m.lookup j = some w) :
    (m.insert k v).lookup j = some w := by
  rw [lookup_insert, if_neg]
  · exact found
  · rintro rfl
    cases absent.symm.trans found

theorem isSome_lookup_insert (v : ν) (stored : j = k ∨ (m.lookup j).isSome) : ((m.insert k v).lookup j).isSome := by
  rw [lookup_insert]
  split
  next => rfl
  next different => exact stored.resolve_left different

/-- Writing a key whose old and new values belong to `owner` leaves what belongs to others. -/
theorem lookup_insert_of_owner (belongs : ν → α)
    (new : belongs v = owner) (old : ∀ w, m.lookup k = some w → belongs w = owner) (j : κ)
    (other : belongs u ≠ owner) : (m.insert k v).lookup j = some u ↔ m.lookup j = some u := by
  rw [lookup_insert]
  split
  next same =>
    constructor
    · intro found
      exact absurd (Option.some.inj found ▸ new) other
    · intro found
      exact absurd (old u (same ▸ found)) other
  · rfl

/-- The stored values, in the order of the entries. -/
def values (m : FiniteMap κ ν) : List ν := m.entries.map Sigma.snd

theorem mem_entries_iff : (⟨k, v⟩ : Sigma fun _ : κ => ν) ∈ m.entries ↔ m.lookup k = some v :=
  (AList.mem_lookup_iff (s := m)).symm

/-- Rows under a key of their own. -/
theorem lookup_foldr_insert {key : ν → κ} {rows : List ν}
    (found : (rows.foldr (fun row m => m.insert (key row) row) (∅ : FiniteMap κ ν)).lookup k = some v) :
    v ∈ rows ∧ key v = k := by
  induction rows with
  | nil => cases found
  | cons head rest ih =>
    obtain ⟨rfl, rfl⟩ | ⟨_, found⟩ := lookup_insert_cases rfl found
    · exact ⟨.head _, rfl⟩
    · exact (ih found).imp_left (.tail _)

/-- What is told of every entry is decided entry by entry. -/
instance {P : κ → ν → Prop} [∀ k v, Decidable (P k v)] : Decidable (∀ k v, m.lookup k = some v → P k v) :=
  decidable_of_iff (∀ entry ∈ m.entries, P entry.1 entry.2)
    ⟨fun all _ _ found => all _ (mem_entries_iff.mpr found), fun all _ member => all _ _ (mem_entries_iff.mp member)⟩

theorem mem_values_iff : v ∈ values m ↔ ∃ k, m.lookup k = some v := by
  constructor
  · intro member
    obtain ⟨⟨k, w⟩, present, rfl⟩ := List.mem_map.mp member
    exact ⟨k, mem_entries_iff.mp present⟩
  · rintro ⟨k, found⟩
    exact List.mem_map.mpr ⟨⟨k, v⟩, mem_entries_iff.mpr found, rfl⟩

theorem mem_keys_iff : k ∈ m.keys ↔ ∃ v, m.lookup k = some v := by
  rw [← AList.mem_keys (s := m), ← AList.lookup_isSome, Option.isSome_iff_exists]

theorem values_insert_of_none (v : ν) (absent : m.lookup k = none) : values (m.insert k v) = v :: values m := by
  have fresh : k ∉ m := AList.lookup_eq_none.mp absent
  rw [values, AList.entries_insert_of_notMem fresh, List.map_cons]
  rfl

section
variable {m : FiniteMap κ ν} {k : κ} {old : ν} (v : ν) (present : m.lookup k = some old)
include present

theorem entries_perm_erase : m.entries.Perm (⟨k, old⟩ :: (m.erase k).entries) := by
  have member : k ∈ m.entries.keys := mem_keys_iff.mpr ⟨old, present⟩
  obtain ⟨w, front, back, _, split, erased⟩ := List.exists_of_kerase member
  have same : old = w := by
    have stored : m.lookup k = some w := mem_entries_iff.mp (split ▸ by simp)
    exact Option.some.inj (present.symm.trans stored)
  subst same
  have left : (m.erase k).entries = front ++ back := erased
  rw [split, left]
  exact List.perm_middle

/-- Overwriting a key takes the old entry out and puts the new one in. -/
theorem entries_insert_of_some : ∃ rest, m.entries.Perm (⟨k, old⟩ :: rest) ∧ (m.insert k v).entries = ⟨k, v⟩ :: rest :=
  ⟨_, entries_perm_erase present, rfl⟩

theorem values_insert_of_some : ∃ rest, (values m).Perm (old :: rest) ∧ values (m.insert k v) = v :: rest := by
  obtain ⟨rest, perm, inserted⟩ := entries_insert_of_some v present
  refine ⟨rest.map Sigma.snd, ?_, ?_⟩
  · exact perm.map Sigma.snd
  · rw [values, inserted, List.map_cons]

end

theorem keys_insert_of_none (v : ν) (absent : m.lookup k = none) : (m.insert k v).keys = k :: m.keys := by
  have fresh : k ∉ m := AList.lookup_eq_none.mp absent
  rw [AList.keys_insert, List.erase_of_not_mem fresh]

section
variable {α : Type*}

/-- One step of `gather`. -/
def keep (find : α → Option ν) (name : α → κ) (found : FiniteMap κ ν) (source : α) : FiniteMap κ ν :=
  match find source with
  | none => found
  | some v => found.insert (name source) v

/-- The values found for the sources, under the names of the sources. -/
def gather (find : α → Option ν) (name : α → κ) (sources : List α) : FiniteMap κ ν :=
  sources.foldl (keep find name) ∅

theorem lookup_gather (value : κ → Option ν)
    (agree : ∀ source ∈ sources, find source = value (name source)) (k : κ) :
    (gather find name sources).lookup k = if k ∈ sources.map name then value k else none := by
  suffices general : ∀ found : FiniteMap κ ν, (found.lookup k = none ∨ found.lookup k = value k) →
      (sources.foldl (keep find name) found).lookup k = if k ∈ sources.map name then value k else found.lookup k from
    general ∅ (.inl rfl)
  induction sources with
  | nil => exact fun _ _ => rfl
  | cons source rest ih =>
    intro found known
    have head := agree source (.head _)
    have kept : (keep find name found source).lookup k = if k = name source then value k else found.lookup k := by
      by_cases same : k = name source
      · subst same
        cases seen : find source with
        | none =>
          have absent := head.symm.trans seen
          simp only [keep, seen, absent, if_true] at known ⊢
          exact known.elim id id
        | some v => simp only [keep, seen, lookup_insert, ← head, if_true]
      · cases seen : find source with
        | none => simp only [keep, seen, if_neg same]
        | some v => simp only [keep, seen, lookup_insert, if_neg same]
    rw [List.foldl_cons, ih (fun other member => agree other (.tail _ member)), kept]
    · rw [List.map_cons]
      by_cases later : k ∈ rest.map name
      · rw [if_pos later, if_pos (.tail _ later)]
      · rw [if_neg later]
        exact if_congr (by rw [List.mem_cons, or_iff_left later]) rfl rfl
    · rw [kept]
      split_ifs
      · exact .inr rfl
      · exact known

end

/-- How many stored values satisfy `p`. -/
def count (p : ν → Bool) (m : FiniteMap κ ν) : ℕ := (values m).countP p

section
variable {μ : Type*}

/-- Rewrite every stored value and drop those that are rewritten to `none`, keeping the keys. -/
def filterMapValues (f : ν → Option μ) (m : FiniteMap κ ν) : FiniteMap κ μ where
  entries := m.entries.filterMap fun entry => (f entry.2).map (Sigma.mk entry.1)
  nodupKeys := by
    apply List.nodupKeys_iff_pairwise.mpr
    rw [List.pairwise_filterMap]
    refine (List.nodupKeys_iff_pairwise.mp m.nodupKeys).imp ?_
    intro left right distinct a first b second same
    obtain ⟨_, _, rfl⟩ := Option.map_eq_some_iff.mp first
    obtain ⟨_, _, rfl⟩ := Option.map_eq_some_iff.mp second
    exact distinct same

theorem lookup_filterMapValues (f : ν → Option μ) (m : FiniteMap κ ν) (k : κ) :
    (filterMapValues f m).lookup k = (m.lookup k).bind f := by
  apply Option.ext
  intro v
  rw [← mem_entries_iff, Option.bind_eq_some_iff]
  constructor
  · intro member
    obtain ⟨⟨j, w⟩, present, equal⟩ := List.mem_filterMap.mp member
    obtain ⟨u, mapped, same⟩ := Option.map_eq_some_iff.mp equal
    obtain ⟨rfl, rfl⟩ := Sigma.mk.inj_iff.mp same
    exact ⟨w, mem_entries_iff.mp present, mapped⟩
  · rintro ⟨w, found, mapped⟩
    apply List.mem_filterMap.mpr
    refine ⟨⟨k, w⟩, mem_entries_iff.mpr found, ?_⟩
    rw [mapped]
    rfl

/-- Rewrite every stored value, keeping its key. -/
def mapValues (f : ν → μ) (m : FiniteMap κ ν) : FiniteMap κ μ := filterMapValues (fun v => some (f v)) m

theorem lookup_mapValues (f : ν → μ) (m : FiniteMap κ ν) (k : κ) : (mapValues f m).lookup k = (m.lookup k).map f := by
  rw [mapValues, lookup_filterMapValues]
  cases m.lookup k <;> rfl

end

end FiniteMap
end RhinoQ
