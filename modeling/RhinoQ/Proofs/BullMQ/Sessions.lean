import RhinoQ.Model.BullMQ.Pool
import RhinoQ.Proofs.TaskClient

/-! # What sessions keep between them

Whatever the other sessions run, the tables stay consistent and evolve. A program that is right under
that much is right in every interleaving.
-/

namespace RhinoQ.Model.BullMQ

open TaskSchema TaskClient

variable {command : Command} {α : Type}

variable {p : Sessions} {s : Database}

theorem steady : Threads.Steady serve Consistent Evolves where
  refl := .refl
  trans _ _ _ := .trans
  keeps _ _ query held := consistent_serve held query
  moves _ _ query _ := evolves_serve query

/-- Among sessions: the others keep the tables consistent and let them evolve. -/
def among (ok : Database → Query → Prop) : Law Database Query := { rely := fun s t => Consistent t ∧ Evolves s t, ok }

theorem consistent_of_reaches {guard : Sessions → Threads.Event Operation Choice → Prop}
    (reached : sessions.Reaches guard p) :
    Consistent p.shared :=
  steady.valid_of_reaches .empty reached

/-- However a session ends, the tables are consistent; if it returns, `after` holds. -/
abbrev Leads {α : Type} (x : Async α) (after : α → Database → Prop) (s : Database) : Prop :=
  Settles serve (among fun _ _ => True) Consistent x after s

theorem leads_of {held : Database → Prop}
    (settles : Settles serve (among fun _ _ => True) (fun t => Consistent t ∧ held t) x after s) :
    Leads x (fun value t => after value t ∧ held t) s :=
  Meets.mono settles fun _ _ kept => ⟨kept.1.1, fun value same => ⟨kept.2 value same, kept.1.2⟩⟩

section
variable {s : Database} {held : Database → Prop} (stable : ∀ s t, Evolves s t → held s → held t)
include stable

theorem framed_evolving : Framed (among fun _ _ => True) fun t => Consistent t ∧ held t where
  stable s t before between := ⟨between.1, stable s t between.2 before.2⟩
  free _ _ _ _ := trivial

theorem admits_evolving : Admits (among fun _ _ => True) (fun t => Consistent t ∧ held t) command :=
  fun t before => ⟨trivial, fun _ after success => ⟨before.1.step success, stable t after (.step success) before.2⟩⟩

/-- Whatever a session runs, what every evolution keeps is kept. -/
theorem evolving (x : Async α) (consistent : Consistent s) (initial : held s) : Leads x (fun _ t => held t) s := by
  have asks : Asks (fun _ => True) x := Program.uses_of_forall (fun _ => trivial) x.run
  refine (asks.meets (framed_evolving stable).stable (fun _ _ _ _ => trivial) ?_ ⟨consistent, initial⟩).mono
    fun _ _ kept => ⟨kept.1, fun _ _ => kept.2⟩
  rintro choice s query ⟨consistent', before⟩ _
  exact ⟨consistent_serve consistent' query, stable s _ (evolves_serve query) before⟩

end

theorem runs (x : Async α) (consistent : Consistent s) : Leads x (fun _ _ => True) s :=
  evolving (fun _ _ _ held => held) x consistent trivial

/-- A command of a session, with what it leaves where it goes through. -/
theorem executing (consistent : Consistent s)
    (done : ∀ t now u, command.execute t now = .ok u → after () u) : Leads (execute command) after s := by
  have stable (s t : Database) (_ : Evolves s t) (held : True) : True := held
  refine ((framed_evolving stable).executes (admits_evolving stable) ⟨consistent, trivial⟩ ?_).weaken fun _ held => held.1
  exact fun t now u _ success => done t now u success

/-! ## Runs on fixed inputs -/

/-- An application that adds and cancels jobs as it is told to, and takes note of a settled batch. -/
def obliging : Choice where
  now := 7
  answer
    | .queueAdd _ _ => .ok ()
    | .cancelJob _ _ => .ok .acknowledged
    | .onItemsSettled _ => .ok ()
    | _ => .error (.error "not supplied")

/-- A bridge that closes batches by its aggregate and by cancellation. -/
def closingBridge : Bridge :=
  { runtimeScope := some "q", terminalProjection := .executionOnly, aggregateTerminal := .allSucceeded, cancelJob := true,
    terminalizeOnCancel := true }

/-- A job of the batch `T`, under one name for its item, its attempt and itself. -/
def jobOfBatch (name : String) : Dispatch :=
  { task := { id := "T", type := "batch" }, executionID := name, itemKey := some name, jobID := name, jobName := "run" }

/-- One operation after the other, each for its number of statements. -/
def inTurn : ℕ → List (Operation × ℕ) → List (Threads.Event Operation Choice)
  | _, [] => []
  | t, (op, statements) :: rest => .start t op :: List.replicate statements (.ask t obliging) ++ inTurn (t + 1) rest

/-- The bridge of the projections, which leaves the end of the batch to another. -/
def projectingBridge : Bridge := { closingBridge with aggregateTerminal := .manual }

/-- The job of a batch of one runs and ends as the event tells. -/
def oneJob (ended : QueueEvent) : List (Threads.Event Operation Choice) :=
  inTurn 0 [(.dispatch projectingBridge (jobOfBatch "a"), 12),
    (.project projectingBridge 2 .active { jobID := "a", attempt := some 1 }, 7),
      (.project projectingBridge 2 ended { jobID := "a" }, 4)]

end RhinoQ.Model.BullMQ
