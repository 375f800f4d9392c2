import RhinoQ.ToMathlib.FiniteMap
import Mathlib.Algebra.Order.Ring.Int

/-! # Version fences

A map whose values are overwritten only by later versions. While the stored version is the one of a copy that
was read, the stored value is the copy.
-/

namespace RhinoQ

/-- How a stored value names its key and its version. -/
structure Fence (κ ν : Type*) where
  id : ν → κ
  version : ν → ℤ

namespace Fence

variable {κ ν : Type*} [DecidableEq κ] {fence : Fence κ ν} {m : FiniteMap κ ν} {copy next current : ν}

/-- `copy` was stored under its key at some time, given that keys are overwritten by later versions only. -/
def Copied (fence : Fence κ ν) (m : FiniteMap κ ν) (copy : ν) : Prop :=
  ∃ current, m.lookup (fence.id copy) = some current ∧ fence.version copy ≤ fence.version current ∧
    (fence.version copy = fence.version current → copy = current)

theorem copied_of_lookup (found : m.lookup (fence.id copy) = some copy) : fence.Copied m copy :=
  ⟨copy, found, le_rfl, fun _ => rfl⟩

/-- The fence: a stored value with the version of the copy is the copy. -/
theorem Copied.eq_of_version (copied : fence.Copied m copy) (found : m.lookup (fence.id copy) = some current)
    (same : fence.version current = fence.version copy) : current = copy := by
  obtain ⟨stored, present, _, equal⟩ := copied
  cases present.symm.trans found
  exact (equal same.symm).symm

theorem Copied.write (copied : fence.Copied m copy) (found : m.lookup (fence.id next) = some current)
    (newer : fence.version current < fence.version next) : fence.Copied (m.insert (fence.id next) next) copy := by
  obtain ⟨stored, present, older, equal⟩ := copied
  by_cases same : fence.id copy = fence.id next
  · rw [same, found] at present
    cases present
    have later : fence.version copy < fence.version next := lt_of_le_of_lt older newer
    refine ⟨next, ?_, later.le, fun version => absurd version later.ne⟩
    rw [FiniteMap.lookup_insert, if_pos same]
  · refine ⟨stored, ?_, older, equal⟩
    rw [FiniteMap.lookup_insert, if_neg same]
    exact present

theorem Copied.insert (copied : fence.Copied m copy) (absent : m.lookup (fence.id next) = none) :
    fence.Copied (m.insert (fence.id next) next) copy := by
  obtain ⟨stored, present, older, equal⟩ := copied
  exact ⟨stored, FiniteMap.lookup_insert_of_absent absent present, older, equal⟩

end Fence
end RhinoQ
