import RhinoQ.ToMathlib.FiniteMap

/-! # Batches of writes to a finite map

Taking several keys out of a map and putting several entries in, up to the order of the values.
-/

namespace RhinoQ.FiniteMap

variable {κ ν : Type*} [DecidableEq κ] (m : FiniteMap κ ν) {es : List (κ × ν)}

def eraseAll (ks : List κ) : FiniteMap κ ν := ks.foldl (fun m k => m.erase k) m

def insertAll (es : List (κ × ν)) : FiniteMap κ ν := es.foldl (fun m e => m.insert e.1 e.2) m

theorem lookup_erase (k j : κ) : (m.erase k).lookup j = if j = k then none else m.lookup j := by
  split
  next same => rw [same, AList.lookup_erase]
  next other => exact AList.lookup_erase_ne other

theorem lookup_eraseAll (ks : List κ) (j : κ) :
    (eraseAll m ks).lookup j = if j ∈ ks then none else m.lookup j := by
  induction ks generalizing m with
  | nil => rw [if_neg List.not_mem_nil]; rfl
  | cons k rest ih =>
    refine (ih (m.erase k)).trans ?_
    rw [lookup_erase]
    simp only [List.mem_cons]
    split_ifs <;> simp_all

variable {m}

/-- An entry of the result is one of the batch or an old one whose key the batch leaves alone. -/
theorem lookup_insertAll (distinct : (es.map Prod.fst).Nodup) (j : κ) (v : ν) :
    (insertAll m es).lookup j = some v ↔ (j, v) ∈ es ∨ j ∉ es.map Prod.fst ∧ m.lookup j = some v := by
  induction es generalizing m with
  | nil => simp [insertAll]
  | cons e rest ih =>
    obtain ⟨k, w⟩ := e
    rw [List.map_cons, List.nodup_cons] at distinct
    refine (@ih (m.insert k w) distinct.2).trans ?_
    rw [lookup_insert]
    by_cases same : j = k
    · subst same
      have absent : (j, v) ∉ rest := fun member => distinct.1 (List.mem_map.mpr ⟨(j, v), member, rfl⟩)
      simp [absent, distinct.1, eq_comm]
    · simp [same]

theorem values_erase {k : κ} {v : ν} (present : m.lookup k = some v) : (values m).Perm (v :: values (m.erase k)) := by
  have entries := (entries_perm_erase present).map Sigma.snd
  exact entries

/-- The values that leave, and the rest. -/
theorem values_eraseAll {ks : List κ} (distinct : ks.Nodup) (present : ∀ k ∈ ks, (m.lookup k).isSome) :
    (values m).Perm (ks.filterMap m.lookup ++ values (eraseAll m ks)) := by
  induction ks generalizing m with
  | nil => exact .refl _
  | cons k rest ih =>
    rw [List.nodup_cons] at distinct
    obtain ⟨v, found⟩ := Option.isSome_iff_exists.mp (present k (.head _))
    have kept (j : κ) (member : j ∈ rest) : (m.erase k).lookup j = m.lookup j := by
      rw [lookup_erase, if_neg]
      rintro rfl
      exact distinct.1 member
    have tail := @ih (m.erase k) distinct.2 fun j member => (kept j member).symm ▸ present j (.tail _ member)
    rw [List.filterMap_congr kept] at tail
    have head : (k :: rest).filterMap m.lookup = v :: rest.filterMap m.lookup := by
      simp only [List.filterMap_cons, found]
    rw [head]
    exact (values_erase found).trans (tail.cons v)

/-- The values that come in, and the old ones. -/
theorem values_insertAll (distinct : (es.map Prod.fst).Nodup)
    (absent : ∀ e ∈ es, m.lookup e.1 = none) : (values (insertAll m es)).Perm (es.map Prod.snd ++ values m) := by
  induction es generalizing m with
  | nil => exact .refl _
  | cons e rest ih =>
    rw [List.map_cons, List.nodup_cons] at distinct
    have fresh (d : κ × ν) (member : d ∈ rest) : (m.insert e.1 e.2).lookup d.1 = none := by
      rw [lookup_insert, if_neg]
      · exact absent d (.tail _ member)
      · intro same
        exact distinct.1 (same ▸ List.mem_map_of_mem member)
    refine (ih distinct.2 fresh).trans ?_
    rw [values_insert_of_none e.2 (absent e (.head _)), List.map_cons, List.cons_append]
    exact List.perm_middle

end RhinoQ.FiniteMap
