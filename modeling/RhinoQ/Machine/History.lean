import Mathlib.Data.List.Basic

/-! # Histories

A run that records its states. When every step moves up in a preorder, the recorded states are comparable and
lie below the current one.
-/

namespace RhinoQ

variable {σ : Type*} {rel : σ → σ → Prop} {past : List σ} {current next : σ}

/-- A record of the states up to the current one, in a preorder that every step climbs. -/
structure History (rel : σ → σ → Prop) (past : List σ) (current : σ) : Prop where
  recorded : current ∈ past
  below : ∀ s ∈ past, rel s current
  comparable : ∀ s ∈ past, ∀ t ∈ past, rel s t ∨ rel t s

theorem History.start (refl : ∀ s, rel s s) (s : σ) : History rel [s] s where
  recorded := List.mem_singleton_self s
  below t member := by
    rw [List.mem_singleton.mp member]
    exact refl s
  comparable t first u second := by
    rw [List.mem_singleton.mp first, List.mem_singleton.mp second]
    exact .inl (refl s)

theorem History.append (refl : ∀ s, rel s s) (trans : ∀ s t u, rel s t → rel t u → rel s u)
    (history : History rel past current) (step : rel current next) : History rel (past ++ [next]) next := by
  have below (s : σ) (member : s ∈ past ++ [next]) : rel s next := by
    obtain old | new := List.mem_append.mp member
    · exact trans s current next (history.below s old) step
    · rw [List.mem_singleton.mp new]
      exact refl next
  refine ⟨List.mem_append_right past (List.mem_singleton_self next), below, ?_⟩
  intro s first t second
  obtain old | new := List.mem_append.mp second
  · obtain older | newer := List.mem_append.mp first
    · exact history.comparable s older t old
    · rw [List.mem_singleton.mp newer]
      exact .inr (below t second)
  · rw [List.mem_singleton.mp new]
    exact .inl (below s first)

end RhinoQ
