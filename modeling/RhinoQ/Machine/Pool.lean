import RhinoQ.Machine.Path
import Mathlib.Data.Nat.Notation

/-! # Threads over a shared state

A step of one thread replaces the shared state and that thread. A property of the shared state and each thread
survives when the stepping thread restores it and the change is harmless to the others.
-/

namespace RhinoQ

/-- A shared state and the local state of each thread. -/
structure Pool (σ τ : Type*) where
  shared : σ
  thread : ℕ → τ

namespace Pool

variable {σ τ : Type*}

/-- Thread `i` becomes `moved` and leaves the shared state `after`. -/
def move (p : Pool σ τ) (i : ℕ) (after : σ) (moved : τ) : Pool σ τ :=
  { shared := after, thread := Function.update p.thread i moved }

/-- A change of the shared state that belongs to no thread. -/
def update (p : Pool σ τ) (after : σ) : Pool σ τ := { p with shared := after }

variable {p : Pool σ τ} {i j : ℕ} {after : σ} {moved : τ}

@[simp] theorem move_shared : (p.move i after moved).shared = after := rfl

@[simp] theorem move_thread_self : (p.move i after moved).thread i = moved := Function.update_self ..

theorem move_thread_of_ne (other : j ≠ i) : (p.move i after moved).thread j = p.thread j :=
  Function.update_of_ne other ..

theorem forall_move_index (inv : ℕ → σ → τ → Prop) (all : ∀ j, inv j p.shared (p.thread j)) (own : inv i after moved)
    (stable : ∀ j, j ≠ i → inv j p.shared (p.thread j) → inv j after (p.thread j)) (j : ℕ) :
    inv j (p.move i after moved).shared ((p.move i after moved).thread j) := by
  by_cases same : j = i
  · subst same
    rwa [move_shared, move_thread_self]
  · rw [move_shared, move_thread_of_ne same]
    exact stable j same (all j)

theorem forall_move (inv : σ → τ → Prop) (all : ∀ j, inv p.shared (p.thread j)) (own : inv after moved)
    (stable : ∀ j, j ≠ i → inv p.shared (p.thread j) → inv after (p.thread j)) (j : ℕ) :
    inv (p.move i after moved).shared ((p.move i after moved).thread j) :=
  forall_move_index (fun _ => inv) all own stable j

/-- At most one thread flies and it holds what it should; while none does, the shared state is quiet. -/
structure Lone (flies : τ → Prop) (holds : σ → τ → Prop) (quiet : σ → Prop) (p : Pool σ τ) : Prop where
  single : ∀ t u, flies (p.thread t) → flies (p.thread u) → t = u
  holds : ∀ t, flies (p.thread t) → holds p.shared (p.thread t)
  quiet : (∀ t, ¬flies (p.thread t)) → quiet p.shared

namespace Lone

variable {flies : τ → Prop} {holds : σ → τ → Prop} {quiet : σ → Prop}

theorem alone (lone : Lone flies holds quiet p) (flying : flies (p.thread i)) (j : ℕ) (other : j ≠ i) :
    ¬flies (p.thread j) :=
  fun also => other (lone.single j i also flying)

/-- A step of a thread while no other one flies. -/
theorem move (alone : ∀ j, j ≠ i → ¬flies (p.thread j)) (own : flies moved → holds after moved)
    (landed : ¬flies moved → quiet after) :
    Lone flies holds quiet (p.move i after moved) := by
  have mine {j : ℕ} (flying : flies ((p.move i after moved).thread j)) : j = i := by
    by_contra other
    exact alone j other (move_thread_of_ne other ▸ flying)
  refine ⟨fun t u first second => (mine first).trans (mine second).symm, fun t flying => ?_, fun none => landed ?_⟩
  · obtain rfl := mine flying
    rw [move_thread_self] at flying ⊢
    exact own flying
  · have own := none i
    rwa [move_thread_self] at own

/-- A step of a thread that does not fly, before or after. -/
theorem frame (lone : Lone flies holds quiet p) (before : ¬flies (p.thread i)) (landed : ¬flies moved)
    (keeps : ∀ thread, flies thread → holds p.shared thread → holds after thread) (rests : quiet p.shared → quiet after) :
    Lone flies holds quiet (p.move i after moved) := by
  have others {j : ℕ} (flying : flies ((p.move i after moved).thread j)) : (p.move i after moved).thread j = p.thread j := by
    refine move_thread_of_ne ?_
    rintro rfl
    rw [move_thread_self] at flying
    exact landed flying
  have old {j : ℕ} (flying : flies ((p.move i after moved).thread j)) : flies (p.thread j) := others flying ▸ flying
  refine ⟨fun t u first second => lone.single t u (old first) (old second), fun t flying => ?_, fun none =>
    rests (lone.quiet fun t flying => ?_)⟩
  · rw [others flying]
    exact keeps _ (old flying) (lone.holds t (old flying))
  · by_cases own : t = i
    · exact before (own ▸ flying)
    · exact none t ((move_thread_of_ne own).symm ▸ flying)

end Lone

/-- A thread beyond those that the events name is left alone. -/
theorem thread_of_path {m : Machine (Pool σ τ) ε} (owner : ε → Option ℕ)
    (moves : ∀ p e q, m.step p e = some q → ∀ t, owner e ≠ some t → q.thread t = p.thread t)
    (path : m.Path ok p events q)
    (early : ∀ e ∈ events, ∀ j ∈ owner e, j < n) (beyond : n ≤ t) : q.thread t = p.thread t := by
  induction path with
  | nil => rfl
  | cons _ step _ ih =>
    have head := moves _ _ _ step t fun own => Nat.not_lt.mpr beyond (early _ (.head _) t own)
    exact (ih fun e member => early e (.tail _ member)).trans head

end Pool

/-- What a statement of a thread does: it waits, raises, or takes the thread on. -/
inductive Reply (σ ε φ : Type*)
  | blocked
  | raised (error : ε)
  | moved (shared : σ) (next : φ)

namespace Reply

variable {σ ε φ ψ : Type*}

def map (f : φ → ψ) : Reply σ ε φ → Reply σ ε ψ
  | .blocked => .blocked
  | .raised error => .raised error
  | .moved shared next => .moved shared (f next)

theorem map_eq_moved {reply : Reply σ ε φ} (moved : reply.map f = .moved after next) :
    ∃ phase, reply = .moved after phase ∧ f phase = next := by
  cases reply with
  | blocked => cases moved
  | raised => cases moved
  | moved shared phase =>
    cases moved
    exact ⟨phase, rfl, rfl⟩

end Reply
end RhinoQ
