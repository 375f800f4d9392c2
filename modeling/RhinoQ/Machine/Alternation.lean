import Mathlib.Data.Int.Basic

/-! # Logs that open and close numbered rounds

A log alternates when it opens and closes round one, then round two, and so on. The position of an entry
decides its round and whether it opens.
-/

namespace RhinoQ

variable {α : Type*} (opens : α → Bool) (round : α → ℤ)

/-- Entry `i` belongs to round `i / 2 + 1`, which it opens exactly when `i` is even. -/
def Alternates (log : List α) : Prop :=
  ∀ (i : ℕ) (entry : α), log[i]? = some entry →
    round entry = ((i / 2 : ℕ) : ℤ) + 1 ∧ (opens entry = true ↔ i % 2 = 0)

namespace Alternates

variable {opens round} {log : List α}

theorem nil : Alternates opens round ([] : List α) := by
  intro i entry found
  cases found

section
variable (alternates : Alternates opens round log) {entry : α}
include alternates

theorem snoc (numbered : round entry = ((log.length / 2 : ℕ) : ℤ) + 1)
    (parity : opens entry = true ↔ log.length % 2 = 0) : Alternates opens round (log ++ [entry]) := by
  intro i found present
  rw [List.getElem?_append] at present
  split at present
  next inside => exact alternates i found present
  rename_i outside
  rw [List.getElem?_singleton] at present
  split at present
  next last =>
    have position : i = log.length := by omega
    cases present
    subst position
    exact ⟨numbered, parity⟩
  next => cases present

theorem unique {i j : ℕ} {a b : α} (first : log[i]? = some a)
    (second : log[j]? = some b) (kind : opens a = opens b) (rounds : round a = round b) : i = j := by
  obtain ⟨roundA, parityA⟩ := alternates i a first
  obtain ⟨roundB, parityB⟩ := alternates j b second
  have halves : i / 2 = j / 2 := by omega
  have parities : i % 2 = 0 ↔ j % 2 = 0 := by rw [← parityA, ← parityB, kind]
  omega

theorem exists_opening (member : entry ∈ log) :
    ∃ (i : ℕ) (opening : α), log[i]? = some opening ∧ opens opening = true ∧ round opening = round entry := by
  obtain ⟨j, found⟩ := List.mem_iff_getElem?.mp member
  obtain ⟨bound, _⟩ := List.getElem?_eq_some_iff.mp found
  have inside : j / 2 * 2 < log.length := by omega
  have opening : log[j / 2 * 2]? = some log[j / 2 * 2] := List.getElem?_eq_getElem inside
  obtain ⟨numbered, parity⟩ := alternates _ _ opening
  have entryRound := (alternates j entry found).1
  refine ⟨_, _, opening, parity.mpr (by omega), ?_⟩
  omega

theorem last_round (last : log.getLast? = some entry) : round entry = (((log.length + 1) / 2 : ℕ) : ℤ) := by
  rw [List.getLast?_eq_getElem?] at last
  obtain ⟨bound, _⟩ := List.getElem?_eq_some_iff.mp last
  have numbered := (alternates _ _ last).1
  omega

theorem last_opens_iff : (∃ entry, log.getLast? = some entry ∧ opens entry = true) ↔ log.length % 2 = 1 := by
  constructor
  · rintro ⟨entry, last, opening⟩
    rw [List.getLast?_eq_getElem?] at last
    obtain ⟨bound, _⟩ := List.getElem?_eq_some_iff.mp last
    have even := ((alternates _ _ last).2).mp opening
    omega
  · intro odd
    have inside : log.length - 1 < log.length := by omega
    have last : log[log.length - 1]? = some log[log.length - 1] := List.getElem?_eq_getElem inside
    refine ⟨_, List.getLast?_eq_getElem?.trans last, ((alternates _ _ last).2).mpr (by omega)⟩

end

end Alternates
end RhinoQ
