import EventPipeline.Engine.Event
import EventPipeline.Plugin.Basic

/-!
# `EventPipeline.Engine.Unit`: where an instance of a processor runs

A unit owns one instance of a processor. An inline unit runs it on the thread that brings
an event; a queued unit has a worker thread of its own that takes events from a queue.
Every change of a unit is one of the small steps below, and threads may take their steps
in any order.
-/

set_option autoImplicit false

namespace EventPipeline

/-- The state of an inline unit. -/
structure InlineState where
  running : Bool := false
  /-- some thread is inside the processor -/
  occupied : Bool := false
deriving DecidableEq, Repr

/-- The state of a queued unit. -/
structure QueueState where
  /-- the processor was given to a worker -/
  taken : Bool := false
  /-- what the worker said about its readiness -/
  ready : Option (Except NodeError Unit) := none
  /-- the unit accepts events -/
  accepting : Bool := false
  /-- how many threads are about to put an event into the queue -/
  sending : Nat := 0
  queue : List Event := []
  /-- somebody can still put events into the queue -/
  connected : Bool := false
  /-- the worker was told to end -/
  dismissed : Bool := false
  /-- the worker runs -/
  alive : Bool := false

/-- The state of a unit. -/
inductive UnitState where
  | inline (state : InlineState)
  | queued (state : QueueState)

/-- The events that wait in the queue of a unit. -/
def UnitState.queue : UnitState → List Event
  | .inline _ => []
  | .queued state => state.queue

/-- A unit of a node, with the instance of the processor that it owns. -/
structure ExecutionUnit (P : Plugins) where
  name : String
  processor : P.Processor
  stats : UnitStats := {}
  state : UnitState

namespace ExecutionUnit

variable {P : Plugins}

/-- The error of a unit that does not accept events. -/
def notReady (unit : ExecutionUnit P) : NodeError :=
  .poolNotReady unit.name

/-- Counts an event that the unit takes. -/
def receive (unit : ExecutionUnit P) : ExecutionUnit P :=
  { unit with stats := { unit.stats with received := unit.stats.received + 1 } }

/-- Counts an event that the unit is done with. -/
def finish (unit : ExecutionUnit P) : ExecutionUnit P :=
  { unit with stats := { unit.stats with finished := unit.stats.finished + 1 } }

/-- Changes the state of an inline unit. -/
def changeInline (unit : ExecutionUnit P) (f : InlineState → InlineState) :
    ExecutionUnit P :=
  match unit.state with
  | .inline state => { unit with state := .inline (f state) }
  | .queued _ => unit

/-- Changes the state of a queued unit. -/
def changeQueue (unit : ExecutionUnit P) (f : QueueState → QueueState) : ExecutionUnit P :=
  match unit.state with
  | .inline _ => unit
  | .queued state => { unit with state := .queued (f state) }

/-- What the unit can do with an event that is offered to it. -/
inductive Offer (P : Plugins) where
  /-- it does not accept the event -/
  | refused
  /-- the event is processed on the thread that brought it -/
  | inline (unit : ExecutionUnit P)
  /-- the event will be put into the queue -/
  | queued (unit : ExecutionUnit P)

/-- Offers an event to a unit, which counts it if it accepts. -/
def offer (unit : ExecutionUnit P) : Offer P :=
  match unit.state with
  | .inline state => if state.running then .inline unit.receive else .refused
  | .queued state =>
    if state.accepting then
      .queued (unit.receive.changeQueue fun s => { s with sending := s.sending + 1 })
    else .refused

/-- Puts an event into the queue. Without a worker it is not accepted, and counts as
finished. -/
def send (unit : ExecutionUnit P) (event : Event) : Bool × ExecutionUnit P :=
  let unit := unit.changeQueue fun s => { s with sending := s.sending - 1 }
  match unit.state with
  | .queued state =>
    if state.alive then
      (true, unit.changeQueue fun s => { s with queue := s.queue ++ [event] })
    else (false, unit.finish)
  | .inline _ => (false, unit.finish)

/-- What a worker finds when it looks for an event. -/
inductive Found (P : Plugins) where
  | event (event : Event) (unit : ExecutionUnit P)
  /-- the queue is empty and will stay so -/
  | disconnected
  /-- the queue is empty -/
  | nothing

/-- Takes the next event from the queue. -/
def next (unit : ExecutionUnit P) : Found P :=
  match unit.state with
  | .queued state =>
    match state.queue with
    | event :: rest => .event event (unit.changeQueue fun s => { s with queue := rest })
    | [] => if state.connected then .nothing else .disconnected
  | .inline _ => .disconnected

end ExecutionUnit
end EventPipeline
