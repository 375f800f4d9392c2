import RhinoQ.ToMathlib.FiniteMap
import Mathlib.Algebra.GroupWithZero.Nat
import Mathlib.Algebra.Order.BigOperators.Group.Finset

/-! # Totals of finite maps

The sum of a weight over the entries of a map depends on the lookups alone, so maps are compared key by key.
-/

namespace RhinoQ.FiniteMap

variable {κ ν μ : Type*} [DecidableEq κ] {m : FiniteMap κ ν} {n : FiniteMap κ μ} {weight : κ → ν → ℕ} {weight' : κ → μ → ℕ}

/-- The weight of all entries. -/
def total (weight : κ → ν → ℕ) (m : FiniteMap κ ν) : ℕ := (m.entries.map fun entry => weight entry.1 entry.2).sum

/-- What one key weighs. -/
def share (weight : κ → ν → ℕ) (m : FiniteMap κ ν) (k : κ) : ℕ := (m.lookup k).elim 0 (weight k)

theorem share_of_mem (member : entry ∈ m.entries) : share weight m entry.1 = weight entry.1 entry.2 := by
  have found : m.lookup entry.1 = some entry.2 := mem_entries_iff.mp member
  rw [share, found]
  rfl

theorem lookup_eq_none_of_notMem (outside : k ∉ m.keys.toFinset) : m.lookup k = none := by
  by_contra found
  exact outside (List.mem_toFinset.mpr (mem_keys_iff.mpr (Option.ne_none_iff_exists'.mp found)))

/-- The total as a sum over any keys that cover the map. -/
theorem total_eq_sum (covers : ∀ k, k ∉ keys → m.lookup k = none) : total weight m = ∑ k ∈ keys, share weight m k := by
  have listed : total weight m = (m.keys.map (share weight m)).sum := by
    rw [total, AList.keys, List.keys, List.map_map]
    congr 1
    exact List.map_congr_left fun entry member => (share_of_mem member).symm
  rw [listed, ← List.sum_toFinset _ m.keys_nodup]
  refine Finset.sum_subset ?_ ?_
  · intro k member
    by_contra outside
    obtain ⟨v, found⟩ := mem_keys_iff.mp (List.mem_toFinset.mp member)
    exact Option.some_ne_none v (found.symm.trans (covers k outside))
  · intro k _ outside
    rw [share, lookup_eq_none_of_notMem outside]
    rfl

theorem total_le_total (below : ∀ k, share weight m k ≤ share weight' n k) : total weight m ≤ total weight' n := by
  have first : ∀ k, k ∉ m.keys.toFinset ∪ n.keys.toFinset → m.lookup k = none := fun k outside =>
    lookup_eq_none_of_notMem fun member => outside (Finset.mem_union_left _ member)
  have second : ∀ k, k ∉ m.keys.toFinset ∪ n.keys.toFinset → n.lookup k = none := fun k outside =>
    lookup_eq_none_of_notMem fun member => outside (Finset.mem_union_right _ member)
  rw [total_eq_sum first, total_eq_sum second]
  exact Finset.sum_le_sum fun k _ => below k

/-- The weight of all keys but one. -/
def except (weight : κ → ν → ℕ) (j : κ) : κ → ν → ℕ := fun k v => if k = j then 0 else weight k v

theorem share_except (j k : κ) : share (except weight j) m k = if k = j then 0 else share weight m k := by
  unfold share except
  cases m.lookup k with
  | none => simp only [Option.elim_none, ite_self]
  | some v => rfl

/-- One key apart from the others. -/
theorem total_eq_except (j : κ) : total weight m = total (except weight j) m + share weight m j := by
  have covers : ∀ k, k ∉ insert j m.keys.toFinset → m.lookup k = none := fun k outside =>
    lookup_eq_none_of_notMem fun member => outside (Finset.mem_insert_of_mem member)
  rw [total_eq_sum covers, total_eq_sum covers, ← Finset.add_sum_erase _ _ (Finset.mem_insert_self j _),
    ← Finset.add_sum_erase _ (share (except weight j) m) (Finset.mem_insert_self j _), share_except, if_pos rfl,
      zero_add, add_comm]
  congr 1
  refine Finset.sum_congr rfl fun k member => ?_
  rw [share_except, if_neg (Finset.ne_of_mem_erase member)]

end RhinoQ.FiniteMap
