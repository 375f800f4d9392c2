import Mathlib.Data.List.Basic

/-! # Separated entries of a log

A log is separated when a closing entry stands between any two opening ones. It stays so when it opens only
while no opening entry is left without a later closing one.
-/

namespace RhinoQ

variable {ε : Type*} (opens closes : ε → Prop)

/-- An opening entry has no closing one after it. -/
def Unclosed (log : List ε) : Prop :=
  ∃ (i : ℕ) (entry : ε), log[i]? = some entry ∧ opens entry ∧
    ∀ (j : ℕ) (later : ε), i < j → log[j]? = some later → ¬closes later

/-- A closing entry stands between any two opening ones. -/
def Separated (log : List ε) : Prop :=
  ∀ (i j : ℕ) (first second : ε), i < j → log[i]? = some first → log[j]? = some second → opens first →
    opens second → ∃ (m : ℕ) (between : ε), i < m ∧ m < j ∧ log[m]? = some between ∧ closes between

variable {opens closes} {log : List ε} {entry : ε}

private theorem getElem?_snoc {i : ℕ} {found : ε} (present : (log ++ [entry])[i]? = some found) :
    log[i]? = some found ∨ i = log.length ∧ found = entry := by
  rw [List.getElem?_append] at present
  split at present
  next => exact .inl present
  rename_i outside
  rw [List.getElem?_singleton] at present
  split at present
  next last => exact .inr ⟨by omega, (Option.some.inj present).symm⟩
  next => cases present

private theorem getElem?_snoc_of_some {i : ℕ} {found : ε} (present : log[i]? = some found) :
    (log ++ [entry])[i]? = some found := by
  have inside := (List.getElem?_eq_some_iff.mp present).1
  rw [List.getElem?_append_left inside, present]

theorem not_unclosed_nil : ¬Unclosed opens closes [] := by
  rintro ⟨i, entry, found, _⟩
  cases found

theorem not_unclosed_snoc_of_closes (closing : closes entry) (idle : ¬opens entry) :
    ¬Unclosed opens closes (log ++ [entry]) := by
  rintro ⟨i, first, found, opening, unclosed⟩
  rcases getElem?_snoc found with inside | ⟨_, rfl⟩
  · have bound := (List.getElem?_eq_some_iff.mp inside).1
    exact unclosed log.length entry bound List.getElem?_concat_length closing
  · exact idle opening

theorem not_unclosed_snoc (closed : ¬Unclosed opens closes log) (idle : ¬opens entry) :
    ¬Unclosed opens closes (log ++ [entry]) := by
  rintro ⟨i, first, found, opening, unclosed⟩
  rcases getElem?_snoc found with inside | ⟨_, rfl⟩
  · exact closed ⟨i, first, inside, opening, fun j later order present =>
      unclosed j later order (getElem?_snoc_of_some present)⟩
  · exact idle opening

theorem separated_nil : Separated opens closes [] := by
  intro i j first second _ found
  cases found

/-- The step: an opening entry may follow only a log in which every opening entry was closed. -/
theorem Separated.snoc (separated : Separated opens closes log)
    (closed : opens entry → ¬Unclosed opens closes log) : Separated opens closes (log ++ [entry]) := by
  intro i j first second order foundFirst foundSecond opensFirst opensSecond
  rcases getElem?_snoc foundSecond with inside | ⟨last, rfl⟩
  · have bound := (List.getElem?_eq_some_iff.mp inside).1
    rcases getElem?_snoc foundFirst with earlier | ⟨same, _⟩
    · obtain ⟨m, between, after, before, present, closing⟩ :=
        separated i j first second order earlier inside opensFirst opensSecond
      exact ⟨m, between, after, before, getElem?_snoc_of_some present, closing⟩
    · omega
  · rcases getElem?_snoc foundFirst with earlier | ⟨same, _⟩
    · by_contra missing
      refine closed opensSecond ⟨i, first, earlier, opensFirst, ?_⟩
      intro m between after present closing
      have bound := (List.getElem?_eq_some_iff.mp present).1
      exact missing ⟨m, between, after, by omega, getElem?_snoc_of_some present, closing⟩
    · omega

end RhinoQ
