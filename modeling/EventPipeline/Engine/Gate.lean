import EventPipeline.Engine.Event

/-!
# `EventPipeline.Engine.Gate`: where events leave a node or a trigger

Every node and every trigger has a gate. Its target is registered once, and from then on
the gate hands one event at a time to it. The gate of a trigger numbers the events that
its sources make.
-/

set_option autoImplicit false

namespace EventPipeline

/-- Where a gate hands its events. -/
inductive Target where
  /-- nowhere: the event has completed its way -/
  | tail
  /-- to the output of the pipeline, which may also complete their way -/
  | output (completes : Bool)
  /-- into the node with this number -/
  | node (node : Nat)
deriving DecidableEq, Repr

/-- The gate of a node or of a trigger. -/
structure Gate where
  /-- the name of the node or trigger -/
  name : String
  target : Option Target := none
  /-- some thread is inside the call of the target -/
  occupied : Bool := false
  /-- how many events it has handed on -/
  emitted : Nat := 0
  /-- how many events were made at it -/
  sequence : Nat := 0
deriving DecidableEq

namespace Gate

/-- Registers the target, once. -/
def register (gate : Gate) (target : Target) : Except NodeError Gate :=
  if gate.target.isSome then .error (.emitAlreadyRegistered gate.name)
  else .ok { gate with target := some target }

/-- Counts an event that is handed on. -/
def count (gate : Gate) : Gate :=
  { gate with emitted := gate.emitted + 1 }

/-- The next event that is made at the gate. -/
def fresh (gate : Gate) (payload : Json) (continuation : Option Continuation) :
    Event × Gate :=
  ({ payload, correlation := gate.sequence + 1, continuation },
    { gate with sequence := gate.sequence + 1 })

end Gate
end EventPipeline
