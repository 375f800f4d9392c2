import Mathlib.Tactic.Basic
import Mathlib.Logic.Basic
import Mathlib.Data.Nat.Notation

/-! # Programs over a server

A program asks queries and goes on with their answers; it is a tree, so it always ends. `wp` asks for what a
program guarantees whatever the server's environment chooses and whatever other parties do between two
queries, within a law. A program that may throw is an `ExceptT` over programs.
-/

namespace RhinoQ

/-- A finite program over queries `Q` with answers `R`. -/
inductive Program (Q : Type) (R : Q → Type) (α : Type)
  | done (value : α)
  | ask (query : Q) (next : R query → Program Q R α)

/-- The answer to a query and the state after it, for each choice of the environment. -/
abbrev Server (ε σ Q : Type) (R : Q → Type) := ε → σ → (query : Q) → R query × σ

/-- What other parties may do between two queries, and what each query has to meet when it is answered. -/
structure Law (σ Q : Type) where
  rely : σ → σ → Prop
  ok : σ → Q → Prop

/-- No other party, and `ok` of every query. -/
def Law.alone {σ Q : Type} (ok : σ → Q → Prop) : Law σ Q := { rely := fun s t => t = s, ok }

namespace Program

variable {Q : Type} {R : Q → Type} {ε σ α β : Type} {p : Program Q R α} {allowed : Q → Prop} {s : σ} {f : α → Program Q R β}

def bind (p : Program Q R α) (f : α → Program Q R β) : Program Q R β :=
  match p with
  | .done value => f value
  | .ask query next => .ask query fun answer => (next answer).bind f

instance : Monad (Program Q R) where
  pure := .done
  bind := bind

section
variable (serve : Server ε σ Q R) (law : Law σ Q)

/-- Whatever happens within the law, every query is met and the program ends in `post`. -/
def wp : Program Q R α → (α → σ → Prop) → σ → Prop
  | .done value, post, s => post value s
  | .ask query next, post, s => ∀ t, law.rely s t →
    law.ok t query ∧ ∀ choice, (next (serve choice t query).1).wp post (serve choice t query).2

/-- The run alone in which the environment makes these choices, one for each query. -/
def play : Program Q R α → (ℕ → ε) → σ → α × σ
  | .done value, _, s => (value, s)
  | .ask query next, choices, s =>
    (next (serve (choices 0) s query).1).play (fun i => choices (i + 1)) (serve (choices 0) s query).2

/-- The queries of that run, each with the state that it meets. -/
def trace : Program Q R α → (ℕ → ε) → σ → List (σ × Q)
  | .done _, _, _ => []
  | .ask query next, choices, s =>
    (s, query) :: (next (serve (choices 0) s query).1).trace (fun i => choices (i + 1)) (serve (choices 0) s query).2

variable {serve law} {post : α → σ → Prop}

theorem wp_bind {post : β → σ → Prop} :
    (p >>= f).wp serve law post s ↔ p.wp serve law (fun value t => (f value).wp serve law post t) s := by
  induction p generalizing s with
  | done value => exact Iff.rfl
  | ask query next ih =>
    refine forall₂_congr fun t _ => and_congr_right fun _ => forall_congr' fun choice => ?_
    exact ih (serve choice t query).1

theorem wp.mono (held : p.wp serve law post s)
    (implies : ∀ value t, post value t → weaker value t) : p.wp serve law weaker s := by
  induction p generalizing s with
  | done value => exact implies value s held
  | ask query next ih =>
    intro t between
    obtain ⟨met, rest⟩ := held t between
    exact ⟨met, fun choice => ih _ (rest choice)⟩

theorem wp_congr (equal : ∀ value t, post value t ↔ same value t) : p.wp serve law post s ↔ p.wp serve law same s :=
  ⟨fun held => held.mono fun value t => (equal value t).mp, fun held => held.mono fun value t => (equal value t).mpr⟩

section
variable {p : Program Q R α} {post : α → σ → Prop} {s : σ} {ok : σ → Q → Prop} (held : p.wp serve (.alone ok) post s)
  (choices : ℕ → ε)
include held choices

theorem wp.play : post (p.play serve choices s).1 (p.play serve choices s).2 := by
  induction p generalizing s choices with
  | done value => exact held
  | ask query next ih => exact ih _ ((held s rfl).2 (choices 0)) _

theorem wp.trace : ∀ entry ∈ p.trace serve choices s, ok entry.1 entry.2 := by
  induction p generalizing s choices with
  | done value => nofun
  | ask query next ih =>
    obtain ⟨met, rest⟩ := held s rfl
    intro entry member
    rcases List.mem_cons.mp member with rfl | later
    · exact met
    · exact ih _ (rest (choices 0)) _ entry later

end

theorem play_invariant {inv : σ → Prop} (kept : ∀ choice s query, inv s → inv (serve choice s query).2) (p : Program Q R α)
    (choices : ℕ → ε) (initial : inv s) : inv (p.play serve choices s).2 := by
  induction p generalizing s choices with
  | done value => exact initial
  | ask query next ih => exact ih _ _ (kept (choices 0) s query initial)

theorem trace_choose (f : ε → ε) (p : Program Q R α) (choices : ℕ → ε) (s : σ) :
    p.trace serve (fun i => f (choices i)) s = p.trace (fun choice => serve (f choice)) choices s := by
  induction p generalizing s choices with
  | done value => rfl
  | ask query next ih => exact congrArg _ (ih _ _ _)

/-- An environment with fewer choices. -/
theorem wp.choose (held : p.wp serve law post s) (f : ε → ε) : p.wp (fun choice => serve (f choice)) law post s := by
  induction p generalizing s with
  | done value => exact held
  | ask query next ih =>
    intro t between
    obtain ⟨met, rest⟩ := held t between
    exact ⟨met, fun choice => ih _ (rest (f choice))⟩

end

/-- Every query the program may ever ask is allowed. -/
def Uses (allowed : Q → Prop) : Program Q R α → Prop
  | .done _ => True
  | .ask query next => allowed query ∧ ∀ answer, (next answer).Uses allowed

theorem uses_bind (first : p.Uses allowed) (rest : ∀ value, (f value).Uses allowed) : (p >>= f).Uses allowed := by
  induction p with
  | done value => exact rest value
  | ask query next ih => exact ⟨first.1, fun answer => ih answer (first.2 answer)⟩

theorem uses_of_forall (all : ∀ query, allowed query) (p : Program Q R α) : p.Uses allowed := by
  induction p with
  | done value => trivial
  | ask query next ih => exact ⟨all query, ih⟩

/-- An invariant that every allowed query keeps, and the others too, holds at every query and at the end. -/
theorem Uses.wp {inv : σ → Prop}
    (uses : p.Uses allowed) (others : ∀ s t, inv s → law.rely s t → inv t)
      (met : ∀ s query, inv s → allowed query → law.ok s query)
    (kept : ∀ choice s query, inv s → allowed query → inv (serve choice s query).2) (initial : inv s) :
    p.wp serve law (fun _ t => inv t) s := by
  induction p generalizing s with
  | done value => exact initial
  | ask query next ih =>
    intro t between
    have held := others s t initial between
    exact ⟨met t query held uses.1, fun choice => ih _ (uses.2 _) (kept choice t query held uses.1)⟩

end Program

/-! ## Programs that may throw -/

section
variable {Q : Type} {R : Q → Type} {ε σ χ α β : Type}

/-- Ask one query. -/
def query (q : Q) : ExceptT χ (Program Q R) (R q) := ExceptT.lift (Program.ask q .done)

/-- `try x finally y`: an error of `y` hides what `x` did. -/
def lastly (x : ExceptT χ (Program Q R) α) (y : ExceptT χ (Program Q R) Unit) : ExceptT χ (Program Q R) α := do
  match ← ExceptT.lift x.run with
  | .ok value =>
    y
    pure value
  | .error error =>
    y
    throw error

/-- One condition for a value and one for an error. -/
def andThen (next : α → σ → Prop) (failed : χ → σ → Prop) : Except χ α → σ → Prop
  | .ok value => next value
  | .error error => failed error

theorem exists_ok_of_toOption {result : Except ε α} (succeeded : result.toOption.isSome = true) :
    ∃ value, result = .ok value := by
  cases result with
  | error error => cases succeeded
  | ok value => exact ⟨value, rfl⟩

/-- `wp` for a program that may throw. -/
def Meets (serve : Server ε σ Q R) (law : Law σ Q) (x : ExceptT χ (Program Q R) α) (post : Except χ α → σ → Prop)
    (s : σ) : Prop :=
  x.run.wp serve law post s

variable {serve : Server ε σ Q R} {law : Law σ Q} {x : ExceptT χ (Program Q R) α} {post : Except χ α → σ → Prop} {s : σ}
  {handler : χ → ExceptT χ (Program Q R) α} {y : ExceptT χ (Program Q R) Unit} {value : α} {error : χ}
  {f : α → ExceptT χ (Program Q R) β}

theorem meets_query {post : Except χ (R q) → σ → Prop} : Meets serve law (query q) post s ↔
    ∀ t, law.rely s t → law.ok t q ∧ ∀ choice, post (.ok (serve choice t q).1) (serve choice t q).2 := Iff.rfl

theorem meets_bind {post : Except χ β → σ → Prop} : Meets serve law (x >>= f) post s ↔
      Meets serve law x (andThen (fun value t => Meets serve law (f value) post t) fun error t => post (.error error) t)
        s := by
  refine Program.wp_bind.trans (Program.wp_congr fun result t => ?_)
  cases result with
  | ok value => exact Iff.rfl
  | error error => exact Iff.rfl

theorem meets_tryCatch : Meets serve law (tryCatch x handler) post s ↔
      Meets serve law x (andThen (fun value t => post (.ok value) t) fun error t =>
        Meets serve law (handler error) post t) s := by
  refine Program.wp_bind.trans (Program.wp_congr fun result t => ?_)
  cases result with
  | ok value => exact Iff.rfl
  | error error => exact Iff.rfl

theorem Meets.mono (held : Meets serve law x post s)
    (implies : ∀ result t, post result t → weaker result t) : Meets serve law x weaker s := Program.wp.mono held implies

theorem Meets.choose (held : Meets serve law x post s) (f : ε → ε) : Meets (fun choice => serve (f choice)) law x post s :=
  Program.wp.choose held f

theorem Meets.bind (first : Meets serve law x post s)
    (next : ∀ value t, post (.ok value) t → Meets serve law (f value) after t)
    (failed : ∀ error t, post (.error error) t → after (.error error) t) : Meets serve law (x >>= f) after s := by
  refine meets_bind.mpr (first.mono fun result t held => ?_)
  cases result with
  | ok value => exact next value t held
  | error error => exact failed error t held

/-- The last part runs in either case, and its error is the error of the whole. -/
theorem Meets.lastly (first : Meets serve law x post s)
    (next : ∀ result t, post result t → Meets serve law y
      (andThen (fun _ t => after result t) fun error t => after (.error error) t) t) :
    Meets serve law (lastly x y) after s := by
  refine Program.wp_bind.mpr (Program.wp_bind.mpr (Program.wp.mono first fun result t held => ?_))
  cases result with
  | ok value => exact meets_bind.mpr ((next _ t held).mono fun result t held => by cases result <;> exact held)
  | error error => exact meets_bind.mpr ((next _ t held).mono fun result t held => by cases result <;> exact held)

/-! ## Partial correctness beside an invariant -/

/-- However it ends, the invariant holds; if it returns, so does `after`. -/
def Settles (serve : Server ε σ Q R) (law : Law σ Q) (inv : σ → Prop) (x : ExceptT χ (Program Q R) α)
    (after : α → σ → Prop) (s : σ) : Prop :=
  Meets serve law x (fun result t => inv t ∧ ∀ value, result = .ok value → after value t) s

namespace Settles

variable {inv : σ → Prop} {after : α → σ → Prop} {last : β → σ → Prop}

theorem pure (held : inv s) (returned : after value s) :
    Settles serve law inv (pure value : ExceptT χ (Program Q R) α) after s :=
  ⟨held, fun _ same => Except.ok.inj same ▸ returned⟩

theorem throw (held : inv s) : Settles serve law inv (throw error : ExceptT χ (Program Q R) α) after s :=
  ⟨held, fun _ same => nomatch same⟩

theorem bind (first : Settles serve law inv x after s)
    (next : ∀ value t, inv t → after value t → Settles serve law inv (f value) last t) :
    Settles serve law inv (x >>= f) last s :=
  Meets.bind first (fun value t held => next value t held.1 (held.2 value rfl)) fun _ _ held =>
    ⟨held.1, fun _ same => nomatch same⟩

theorem tryCatch (first : Settles serve law inv x after s)
    (next : ∀ error t, inv t → Settles serve law inv (handler error) after t) :
    Settles serve law inv (tryCatch x handler) after s := by
  refine meets_tryCatch.mpr (Meets.mono first fun result t held => ?_)
  cases result with
  | ok value => exact held
  | error error => exact next error t held.1

theorem mono (settles : Settles serve law inv x after s)
    (implies : ∀ value t, inv t → after value t → weaker value t) : Settles serve law inv x weaker s :=
  Meets.mono settles fun _ t held => ⟨held.1, fun value same => implies value t held.1 (held.2 value same)⟩

section
variable {c : Prop} [Decidable c] {a b : ExceptT χ (Program Q R) α}

theorem branch (left : c → Settles serve law inv a after s) (right : ¬c → Settles serve law inv b after s) :
    Settles serve law inv (if c then a else b) after s := by
  split
  next holds => exact left holds
  next fails => exact right fails

theorem ite (left : Settles serve law inv a after s) (right : Settles serve law inv b after s) :
    Settles serve law inv (if c then a else b) after s := branch (fun _ => left) fun _ => right

end

/-- A sequence changes nothing if neither part does. -/
theorem bind_same (first : Settles serve law (· = s) x after s)
    (next : ∀ value, after value s → Settles serve law (· = s) (f value) last s) :
    Settles serve law (· = s) (x >>= f) last s := by
  refine first.bind fun value t held returned => ?_
  cases held
  exact next value returned

theorem weaken (settles : Settles serve law inv x after s) (implies : ∀ t, inv t → weaker t) :
    Settles serve law weaker x after s :=
  Meets.mono settles fun _ t held => ⟨implies t held.1, held.2⟩

theorem forget (settles : Settles serve law inv x after s) : Settles serve law (fun _ => True) x after s :=
  settles.weaken fun _ _ => trivial

end Settles

/-! ## The queries of a program that may throw -/

/-- Every query the program may ever ask is allowed. -/
def Asks (allowed : Q → Prop) (x : ExceptT χ (Program Q R) α) : Prop := x.run.Uses allowed

namespace Asks

variable {allowed : Q → Prop}

theorem pure : Asks allowed (pure value : ExceptT χ (Program Q R) α) := trivial

theorem throw : Asks allowed (throw error : ExceptT χ (Program Q R) α) := trivial

theorem query (may : allowed q) : Asks allowed (query q : ExceptT χ (Program Q R) (R q)) := ⟨may, fun _ => trivial⟩

theorem bind (first : Asks allowed x) (rest : ∀ value, Asks allowed (f value)) : Asks allowed (x >>= f) := by
  refine Program.uses_bind first fun result => ?_
  cases result with
  | ok value => exact rest value
  | error error => trivial

/-- A program that goes on with what it has found, if anything. -/
theorem option {x : ExceptT χ (Program Q R) (Option α)} {f : Option α → ExceptT χ (Program Q R) β} (first : Asks allowed x)
    (none : Asks allowed (f none)) (some : ∀ value, Asks allowed (f (some value))) : Asks allowed (x >>= f) :=
  first.bind fun
    | .none => none
    | .some value => some value

theorem tryCatch (first : Asks allowed x) (rest : ∀ error, Asks allowed (handler error)) :
    Asks allowed (tryCatch x handler) := by
  refine Program.uses_bind first fun result => ?_
  cases result with
  | ok value => trivial
  | error error => exact rest error

theorem lastly (first : Asks allowed x) (last : Asks allowed y) : Asks allowed (lastly x y) := by
  have lifted : Asks allowed (ExceptT.lift x.run : ExceptT χ (Program Q R) (Except χ α)) :=
    Program.uses_bind first fun _ => trivial
  refine lifted.bind fun result => ?_
  cases result with
  | ok value => exact .bind last fun _ => .pure
  | error error => exact .bind last fun _ => .throw

section
variable {c : Prop} [Decidable c] {a b : ExceptT χ (Program Q R) α}

theorem branch (left : c → Asks allowed a) (right : ¬c → Asks allowed b) : Asks allowed (if c then a else b) := by
  split
  next holds => exact left holds
  next fails => exact right fails

theorem ite (left : Asks allowed a) (right : Asks allowed b) : Asks allowed (if c then a else b) :=
  branch (fun _ => left) fun _ => right

end

/-- An invariant that every allowed query keeps, and the others too. -/
theorem meets {inv : σ → Prop} (asks : Asks allowed x) (others : ∀ s t, inv s → law.rely s t → inv t)
    (met : ∀ s query, inv s → allowed query → law.ok s query)
    (kept : ∀ choice s query, inv s → allowed query → inv (serve choice s query).2) (initial : inv s) :
    Meets serve law x (fun _ t => inv t) s := Program.Uses.wp asks others met kept initial

end Asks

end

end RhinoQ
