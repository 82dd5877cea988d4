import EventPipeline.Message

/-!
# `EventPipeline.Engine.Event`: events and what becomes of them

An event carries a payload through a stream. Who emitted it may want to hear what became
of it: whether it left the stream, was ended on its way, or failed.
-/

set_option autoImplicit false

namespace EventPipeline

/-- What became of an event. -/
inductive Fate where
  /-- it left the tail of its stream -/
  | completed
  /-- a filter or a processor ended its way -/
  | stopped (reason : String)
  | failed (error : NodeError)
deriving DecidableEq

/-- How the fate of an event is heard: it is put on record, or it is logged. -/
inductive Continuation where
  | recorded | logged
deriving DecidableEq, Repr

/-- An event on its way through a stream. -/
structure Event where
  payload : Json
  /-- the number that its trigger gave it -/
  correlation : Nat := 0
  /-- how many nodes it has entered -/
  hops : Nat := 0
  continuation : Option Continuation := none

instance : Inhabited Event := ⟨{ payload := .null }⟩

/-- An event with what became of it. -/
structure FateReport where
  event : Event
  fate : Fate

/-- The message that logs the fate of an event. -/
def Event.message (event : Event) : Fate → Message
  | .completed => .eventCompleted event.correlation event.hops
  | .stopped reason => .eventStopped event.correlation event.hops reason
  | .failed error => .eventFailed event.correlation event.hops error

end EventPipeline
