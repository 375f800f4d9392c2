import RhinoQ.Machine.Pool
import RhinoQ.Machine.Program

/-! # Programs that share a server

Operations run as threads over one server state, one query of one thread at a time. What `wp` computes for a
program holds of its thread in every interleaving whose other steps stay within the law.
-/

namespace RhinoQ

/-- A thread that runs the program of `op`: the queries it has asked, latest first, and what is left. -/
structure Thread (Op Q : Type) (R : Q → Type) (α : Type) where
  op : Op
  asked : List Q := []
  rest : Program Q R α

/-- The thread has a query left to ask. -/
def Thread.Active {Op Q α : Type} {R : Q → Type} (thread : Thread Op Q R α) :
    Prop := ∃ query next, thread.rest = .ask query next

namespace Threads

variable {t : ℕ}

variable {Op Q ε σ α : Type} {R : Q → Type}

abbrev State (Op Q : Type) (R : Q → Type) (σ α : Type) := Pool σ (Option (Thread Op Q R α))

/-- The operation of a thread and the query it is about to ask. -/
def State.pending (p : State Op Q R σ α) (t : ℕ) : Option (Op × Q) :=
  match p.thread t with
  | some { op, rest := .ask query _, .. } => some (op, query)
  | _ => none

/-- The operation of a thread that has ended, and what it returned. -/
def State.ended (p : State Op Q R σ α) (t : ℕ) : Option (Op × α) :=
  match p.thread t with
  | some { op, rest := .done value, .. } => some (op, value)
  | _ => none

/-- The operation of a thread that has asked and has not ended. -/
def State.underway (p : State Op Q R σ α) (t : ℕ) : Option Op :=
  match p.thread t with
  | some { op, asked := _ :: _, rest := .ask _ _ } => some op
  | _ => none

/-- A thread starts an operation, or asks its next query. -/
inductive Event (Op ε : Type)
  | start (t : ℕ) (op : Op)
  | ask (t : ℕ) (choice : ε)

def Event.thread : Event Op ε → ℕ
  | .start t _ => t
  | .ask t _ => t

section
variable (serve : Server ε σ Q R) (code : Op → Program Q R α)

def step (p : State Op Q R σ α) : Event Op ε → Option (State Op Q R σ α)
  | .start t op =>
    match p.thread t with
    | none => some (p.move t p.shared (some { op, rest := code op }))
    | some _ => none
  | .ask t choice =>
    match p.thread t with
    | some { op, asked, rest := .ask query next } =>
      let (answer, after) := serve choice p.shared query
      some (p.move t after (some { op, asked := query :: asked, rest := next answer }))
    | _ => none

/-- No thread runs at the start. -/
def machine (initial : σ) : Machine (State Op Q R σ α) (Event Op ε) :=
  { start := { shared := initial, thread := fun _ => none }, step := step serve code }

end

variable {serve : Server ε σ Q R} {code : Op → Program Q R α} {p q : State Op Q R σ α} {event : Event Op ε}
  {thread : Thread Op Q R α} {query : Q} {op : Op} {value : α}

theorem pending_of_thread
    (held : p.thread t = some { op, asked, rest := .ask query next }) : p.pending t = some (op, query) := by
  simp only [State.pending, held]

theorem underway_of_thread (held : p.thread t = some thread) (asked : thread.asked ≠ [])
    (active : thread.Active) : p.underway t = some thread.op := by
  obtain ⟨op, queries, rest⟩ := thread
  obtain ⟨query, next, rfl⟩ := active
  cases queries with
  | nil => exact absurd rfl asked
  | cons first before => simp only [State.underway, held]

theorem thread_of_underway (running : p.underway t = some op) : ∃ thread, p.thread t = some thread ∧ thread.op = op := by
  unfold State.underway at running
  split at running
  next held =>
    cases running
    exact ⟨_, held, rfl⟩
  next => cases running

/-- A step starts a thread, or has the server answer the next query of one. -/
inductive Stepped (serve : Server ε σ Q R) (code : Op → Program Q R α) (p : State Op Q R σ α) :
    Event Op ε → State Op Q R σ α → Prop
  | started (t : ℕ) (op : Op) (free : p.thread t = none) :
      Stepped serve code p (.start t op) (p.move t p.shared (some { op, rest := code op }))
  | answered (t : ℕ) (choice : ε) (op : Op) (asked : List Q) (query : Q) (next : R query → Program Q R α)
      (held : p.thread t = some { op, asked, rest := .ask query next }) :
      Stepped serve code p (.ask t choice) (p.move t (serve choice p.shared query).2
        (some { op, asked := query :: asked, rest := next (serve choice p.shared query).1 }))

theorem stepped_of_step (taken : step serve code p event = some q) : Stepped serve code p event q := by
  cases event with
  | start t op =>
    simp only [step] at taken
    split at taken
    next free =>
      cases taken
      exact .started t op free
    next => cases taken
  | ask t choice =>
    simp only [step] at taken
    split at taken
    next op asked query next held =>
      cases taken
      exact .answered t choice op asked query next held
    next => cases taken

section
variable {law : Law σ Q} {post : α → σ → Prop} {inv : σ → Prop} {op : Op}

/-- A thread is still the whole program, or meets `wp` from a state that the law leads from to the present one. -/
structure Kept (serve : Server ε σ Q R) (code : Op → Program Q R α) (law : Law σ Q) (post : α → σ → Prop) (s : σ)
    (thread : Thread Op Q R α) : Prop where
  fresh : thread.asked = [] → thread.rest = code thread.op
  meets : thread.asked ≠ [] → ∃ base, law.rely base s ∧ thread.rest.wp serve law post base

theorem Kept.wp (kept : Kept serve code law post s thread)
    (refl : law.rely s s) (sound : (code thread.op).wp serve law post s) :
    ∃ base, law.rely base s ∧ thread.rest.wp serve law post base := by
  by_cases asked : thread.asked = []
  · exact ⟨s, refl, kept.fresh asked ▸ sound⟩
  · exact kept.meets asked

/-- Rely and guarantee: a thread of `op` meets `wp` as long as, after its first query, the steps of others stay within the
law. `live` tells which threads are tracked, all that still ask among them. -/
theorem kept_of_reaches (live : Thread Op Q R α → Prop)
    (asking : ∀ thread, thread.Active → live thread)
    (trans : ∀ a b c, law.rely a b → law.rely b c → law.rely a c) (refl : ∀ s, inv s → law.rely s s)
    (served : ∀ choice s query, inv s → inv (serve choice s query).2) (sound : ∀ s, inv s → (code op).wp serve law post s)
    (others : ∀ p event q t thread, ok p event → Stepped serve code p event q → inv p.shared → p.thread t = some thread →
      thread.op = op → live thread → thread.asked ≠ [] → event.thread ≠ t → law.rely p.shared q.shared)
    (start : inv initial) (reached : (machine serve code initial).Reaches ok p) :
    inv p.shared ∧ ∀ t thread, p.thread t = some thread → thread.op = op → live thread →
      Kept serve code law post p.shared thread := by
  refine reached.invariant (fun p => inv p.shared ∧ ∀ t thread, p.thread t = some thread → thread.op = op → live thread →
    Kept serve code law post p.shared thread) ⟨start, fun _ _ held => by cases held⟩ ?_
  rintro p event q guard taken ⟨valid, kept⟩
  have stepped := stepped_of_step taken
  -- another thread's step is within the law for a thread that has asked
  have other (t : ℕ) (thread : Thread Op Q R α) (before : p.thread t = some thread) (own : thread.op = op)
    (tracked : live thread)
      (apart : event.thread ≠ t) : Kept serve code law post q.shared thread := by
    have held := kept t thread before own tracked
    refine ⟨held.fresh, fun asked => ?_⟩
    obtain ⟨base, between, meets⟩ := held.meets asked
    exact ⟨base, trans _ _ _ between (others p event q t thread guard stepped valid before own tracked asked apart), meets⟩
  cases stepped with
  | started u started free =>
    refine ⟨valid, ?_⟩
    intro t thread held own tracked
    by_cases same : t = u
    · subst same
      rw [Pool.move_thread_self] at held
      cases held
      exact ⟨fun _ => rfl, fun asked => absurd rfl asked⟩
    · rw [Pool.move_thread_of_ne same] at held
      exact other t thread held own tracked (Ne.symm same)
  | answered u choice asker asked query next running =>
    refine ⟨served choice p.shared query valid, ?_⟩
    intro t thread held own tracked
    by_cases same : t = u
    · subst same
      rw [Pool.move_thread_self] at held
      cases held
      obtain ⟨base, between, meets⟩ :=
        (kept t _ running own (asking _ ⟨query, next, rfl⟩)).wp (refl _ valid) (by subst own; exact sound _ valid)
      refine ⟨nofun, fun _ => ⟨_, refl _ (served choice p.shared query valid), ?_⟩⟩
      exact (meets p.shared between).2 choice
    · rw [Pool.move_thread_of_ne same] at held
      exact other t thread held own tracked (Ne.symm same)

theorem Kept.pending (refl : law.rely p.shared p.shared) (sound : (code op).wp serve law post p.shared)
    (kept : ∀ t thread, p.thread t = some thread → thread.op = op → thread.Active → Kept serve code law post p.shared thread)
    (asks : p.pending t = some (op, query)) : law.ok p.shared query := by
  unfold State.pending at asks
  split at asks
  next asked query next held =>
    cases asks
    obtain ⟨base, between, meets⟩ := (kept t _ held rfl ⟨query, next, rfl⟩).wp refl sound
    exact (meets p.shared between).1
  next => cases asks

theorem Kept.ended (refl : law.rely p.shared p.shared) (sound : (code op).wp serve law post p.shared)
    (kept : ∀ t thread, p.thread t = some thread → thread.op = op → Kept serve code law post p.shared thread)
    (ends : p.ended t = some (op, value)) : ∃ base, law.rely base p.shared ∧ post value base := by
  unfold State.ended at ends
  split at ends
  next asked value held =>
    cases ends
    exact (kept t _ held rfl).wp refl sound
  next => cases ends

end

/-! ## A valid state that evolves -/

/-- Every call keeps the state valid and lets it evolve. -/
structure Steady (serve : Server ε σ Q R) (valid : σ → Prop) (evolves : σ → σ → Prop) : Prop where
  refl : ∀ s, evolves s s
  trans : ∀ s t u, evolves s t → evolves t u → evolves s u
  keeps : ∀ choice s query, valid s → valid (serve choice s query).2
  moves : ∀ choice s query, valid s → evolves s (serve choice s query).2

/-- Others keep the state valid and let it evolve. -/
def amongst (valid : σ → Prop) (evolves : σ → σ → Prop) (ok : σ → Q → Prop) : Law σ Q :=
  { rely := fun s t => valid t ∧ evolves s t, ok }

namespace Steady

variable {valid : σ → Prop} {evolves : σ → σ → Prop} {ok : σ → Q → Prop} {guard : State Op Q R σ α → Event Op ε → Prop}
  {post : α → σ → Prop} {op : Op} {initial : σ} {t : ℕ}

section
variable (steady : Steady serve valid evolves)
include steady

theorem stepped (taken : Stepped serve code p event q) (held : valid p.shared) :
    valid q.shared ∧ evolves p.shared q.shared := by
  cases taken with
  | started => exact ⟨held, steady.refl _⟩
  | answered _ choice _ _ query => exact ⟨steady.keeps choice _ query held, steady.moves choice _ query held⟩

/-- From a valid state on, a run keeps the state valid and lets it evolve. -/
theorem of_path (held : valid p.shared) (path : (machine serve code initial).Path guard p events q) :
    valid q.shared ∧ evolves p.shared q.shared := by
  refine path.invariant (fun u => valid u.shared ∧ evolves p.shared u.shared) ?_ ⟨held, steady.refl _⟩
  rintro s event t _ taken ⟨sound, before⟩
  obtain ⟨sound', further⟩ := steady.stepped (stepped_of_step taken) sound
  exact ⟨sound', steady.trans _ _ _ before further⟩

section
variable (start : valid initial)
include start

theorem valid_of_reaches (reached : (machine serve code initial).Reaches guard p) : valid p.shared := by
  refine reached.invariant (fun p => valid p.shared) start ?_
  intro p event q _ taken held
  exact (steady.stepped (stepped_of_step taken) held).1

section
variable (sound : ∀ s, valid s → (code op).wp serve (amongst valid evolves ok) post s)
  (reached : (machine serve code initial).Reaches guard p)
include sound reached

theorem kept :
    ∀ t thread, p.thread t = some thread → thread.op = op →
      Kept serve code (amongst valid evolves ok) post p.shared thread := by
  intro t thread held own
  refine (kept_of_reaches (fun _ => True) (fun _ _ => trivial) ?_ ?_ steady.keeps sound ?_ start reached).2 t thread
    held own trivial
  · rintro a b c ⟨_, first⟩ ⟨last, second⟩
    exact ⟨last, steady.trans a b c first second⟩
  · exact fun s valid => ⟨valid, steady.refl s⟩
  · exact fun p event q t thread _ taken valid _ _ _ _ _ => steady.stepped taken valid

theorem ok_of_pending (asks : p.pending t = some (op, query)) : ok p.shared query := by
  have held := steady.valid_of_reaches start reached
  have self : (amongst valid evolves ok).rely p.shared p.shared := ⟨held, steady.refl _⟩
  exact Kept.pending self (sound _ held) (fun t thread running own _ =>
    steady.kept start sound reached t thread running own) asks

theorem post_of_ended (ends : p.ended t = some (op, value)) : ∃ base, evolves base p.shared ∧ post value base := by
  have held := steady.valid_of_reaches start reached
  have self : (amongst valid evolves ok).rely p.shared p.shared := ⟨held, steady.refl _⟩
  obtain ⟨base, between, after⟩ := Kept.ended self (sound _ held) (steady.kept start sound reached) ends
  exact ⟨base, between.2, after⟩

end

end

end

end Steady

end Threads

end RhinoQ
