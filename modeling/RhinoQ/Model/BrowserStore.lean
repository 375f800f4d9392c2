import RhinoQ.Machine.Pool
import RhinoQ.Model.TaskSchema.Tables

/-! # The task store of a browser

`TaskStore` of the Node SDK. Each `start` begins a background loop, which polls or streams; a loop is named by its
generation. `setState` calls the listeners before it returns, and these may call `start` and `stop`: a loop's turn is
cut after each call.
-/

namespace RhinoQ.Model.BrowserStore

open TaskSchema (TaskState)

/-- What the store uses of a `TaskSummary`. -/
structure Summary where
  entityVersion : ℤ
  state : TaskState
  deriving DecidableEq

def isTerminal : TaskState → Bool
  | .succeeded | .failed | .cancelled => true
  | _ => false

inductive Status
  | idle | loading | connected | reconnecting | stopped

inductive Transport
  | polling | live | pollingFallback
  deriving DecidableEq

structure TaskStoreState where
  snapshot : Option Summary := none
  status : Status := .idle
  error : Option String := none
  transport : Option Transport := none

structure TaskStoreOptions where
  stopOnTerminal : Bool := true
  pauseWhenHidden : Bool := true
  /-- The client has `streamTask` and it is preferred. -/
  streams : Bool := true

/-- The `await` at which a loop stands; it has returned, or ended because of a snapshot. The fallback of a stream
awaits the read in `refresh`, and then `refresh` itself. -/
inductive Phase
  | returned | ended | hidden | reading | pausing | streaming | refreshing | refreshed (snapshot : Summary) | backingOff
  deriving DecidableEq

/-- How an `await` is over. An event may be none of a snapshot, and a stream fails as well when it ends or tells an error. -/
inductive Completion
  | visible (answer : Bool)
  | read (answer : Except String Summary)
  | resolved (answer : Summary)
  | event (snapshot : Option Summary)
  | streamError (error : String)
  | timer (answer : Bool)

/-- What a loop has still to do in its turn. -/
inductive Act
  | tell (transport : Transport)
  | close (transport : Transport)

/-- The store; `notices` counts the calls of listeners, `quiet` holds between `stop` and the next `start`, and `turn`
is the rest of the turn of a loop that is calling them. -/
structure TaskStore where
  state : TaskStoreState := {}
  controller : Option ℕ := none
  generation : ℕ := 0
  aborted : ℕ → Bool := fun _ => false
  notices : ℕ := 0
  quiet : Bool := false
  turn : Option (List Act) := none

namespace TaskStore

variable (options : TaskStoreOptions) (s : TaskStore)

def setState (state : TaskStoreState) : TaskStore := { s with state, notices := s.notices + 1 }

def accept (snapshot : Summary) : TaskStore :=
  if s.state.snapshot.all (snapshot.entityVersion > ·.entityVersion) then
    s.setState { snapshot := some snapshot, status := .connected }
  else
    match s.state.status with
    | .reconnecting | .loading => s.setState { s.state with status := .connected, error := none }
    | _ => s

def stop : TaskStore :=
  let aborted := fun g => s.aborted g || s.controller == some g
  { s with generation := s.generation + 1, aborted, controller := none, quiet := true }.setState
    { s.state with status := .stopped }

/-- What a loop asks after an `await`. -/
def stale (g : ℕ) : Bool := s.aborted g || g != s.generation

/-- The head of the loop of `poll`, and of that of `run`. -/
def head (g : ℕ) : Phase :=
  if s.stale g then .returned
  else if options.streams then .streaming else if options.pauseWhenHidden then .hidden else .reading

/-- A loop tells how it reads. -/
def tell : Transport → TaskStore
  | .polling =>
    s.setState { s.state with
      transport := some (if s.state.transport = some .pollingFallback then .pollingFallback else .polling) }
  | .live => s.setState { s.state with status := .connected, transport := some .live, error := none }
  | .pollingFallback => s.setState { s.state with transport := some .pollingFallback }

/-- A loop ends the store; polling leaves the transport that is told. -/
def close (transport : Transport) : TaskStore :=
  let told := match transport with | .polling => s.state.transport | _ => some transport
  { s with controller := none }.setState { s.state with status := .stopped, transport := told }

def act : Act → TaskStore
  | .tell transport => s.tell transport
  | .close transport => s.close transport

/-- A loop calls the listeners and goes on to `next`, or ends on a received snapshot once it has done the rest. -/
def goOn (rest : List Act) (transport : Transport) (received : Summary) (next : Phase) : TaskStore × Phase :=
  if options.stopOnTerminal && isTerminal received.state then ({ s with turn := some (rest ++ [.close transport]) }, .ended)
  else ({ s with turn := some rest }, next)

/-- Loop `g` after an `await`, up to its first call of the listeners. -/
def complete (g : ℕ) : Phase → Completion → Option (TaskStore × Phase)
  | .hidden, .visible answer => some (s, if answer then .reading else .returned)
  | .reading, .read answer =>
    if s.stale g then some (s, .returned)
    else match answer with
      | .ok snapshot => some ((s.accept snapshot).goOn options [.tell .polling] .polling snapshot .pausing)
      | .error error =>
        some ({ s with turn := some [] }.setState { s.state with status := .reconnecting, error := some error }, .pausing)
  | .streaming, .event item =>
    if s.stale g then some (s, .returned)
    else match item with
      | some snapshot => some ((s.accept snapshot).goOn options [.tell .live] .live snapshot .streaming)
      | none => some (s, .streaming)
  | .streaming, .streamError error =>
    if s.stale g then some (s, .returned)
    else
      some ({ s with turn := some [] }.setState
        { s.state with status := .reconnecting, transport := some .pollingFallback, error := some error }, .refreshing)
  | .refreshing, .read answer =>
    match answer with
    | .ok snapshot => some ({ s.accept snapshot with turn := some [] }, .refreshed snapshot)
    | .error _ => some (s, .backingOff)
  | .refreshed snapshot, .resolved answer =>
    if answer = snapshot then some ((s.tell .pollingFallback).goOn options [] .pollingFallback snapshot .backingOff)
    else none
  | .pausing, .timer answer | .backingOff, .timer answer => some (s, if answer then s.head options g else .returned)
  | _, _ => none

/-- The listeners have returned to the loop. -/
def proceed : Option TaskStore :=
  match s.turn with
  | none => none
  | some [] => some { s with turn := none }
  | some (next :: rest) => some ({ s with turn := some rest }.act next)

end TaskStore

/-- A call of `start` or `stop` by the application or a listener, a response to a `refresh`, `cancel` or `retry` of the
application, or the turn of a loop: of loop `g` after an `await`, and on from a call of the listeners. -/
inductive Event
  | start | stop
  | respond (snapshot : Summary)
  | complete (g : ℕ) (completion : Completion)
  | proceed

def step (options : TaskStoreOptions) (p : Pool TaskStore Phase) : Event → Option (Pool TaskStore Phase)
  | .start =>
    if p.shared.controller.isSome then some p
    else
      let g := p.shared.generation + 1
      let started := { p.shared with controller := some g, generation := g, quiet := false }.setState
        { p.shared.state with status := if p.shared.state.snapshot.isSome then .connected else .loading, error := none }
      some (p.move g started (started.head options g))
  | .stop => some (p.update p.shared.stop)
  | .respond snapshot => if p.shared.turn.isSome then none else some (p.update (p.shared.accept snapshot))
  | .complete g completion =>
    if p.shared.turn.isSome then none
    else (p.shared.complete options g (p.thread g) completion).map fun next => p.move g next.1 next.2
  | .proceed => p.shared.proceed.map p.update

def machine (options : TaskStoreOptions) : Machine (Pool TaskStore Phase) Event where
  start := { shared := {}, thread := fun _ => .returned }
  step := step options

end RhinoQ.Model.BrowserStore
