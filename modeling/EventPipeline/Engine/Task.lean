import EventPipeline.Engine.Node

/-!
# `EventPipeline.Engine.Task`: what threads have to do

A thread works through an agenda of tasks. A task is one small step on what threads share,
or it puts further tasks in its place; between two tasks of a thread other threads may
take any number of steps. Nodes, triggers and whatever else threads share are named by
their numbers.
-/

set_option autoImplicit false

namespace EventPipeline

/-- The gate of a node or of a trigger. -/
inductive GateId where
  | node (node : Nat)
  | trigger (trigger : Nat)
deriving DecidableEq, Repr

/-- How a stream came down. -/
inductive Shutdown where
  | graceful
  /-- it did not stop in time and was left to itself -/
  | abandoned
deriving DecidableEq, Repr

/-- The name of how a stream came down. -/
def Shutdown.name : Shutdown → String
  | graceful => "Graceful"
  | abandoned => "Abandoned"

/-- What a thread was told last about the end of something that it asked for. -/
inductive Answer where
  | ok
  | dispatched (dispatch : Dispatch)
  | stopped (shutdown : Shutdown)
  | failed (error : StreamError)

/-- The way of an event through nodes. -/
inductive EventTask where
  /-- make an event and hand it on -/
  | make (gate : GateId) (payload : Json) (continuation : Option Continuation)
  /-- hand an event to the target of a gate -/
  | emit (gate : GateId) (event : Event)
  /-- end the call of the target -/
  | leave (gate : GateId)
  /-- bring an event to a node -/
  | enter (node : Nat) (event : Event)
  /-- offer an event to a unit of a node -/
  | offer (node unit : Nat) (event : Event)
  /-- put an event into the queue of a unit -/
  | send (node unit : Nat) (event : Event)
  /-- wait for the processor of an inline unit -/
  | occupy (node unit : Nat)
  /-- have an event processed -/
  | process (node unit : Nat) (event : Event) (asked : Bool)
  /-- count an event that a unit is done with -/
  | settle (node unit : Nat)

/-- The life of nodes and their units. -/
inductive UnitTask where
  | startNode (node : Nat)
  /-- start the units of a node from the given one on -/
  | startUnits (node unit : Nat)
  /-- go on after a unit was started, or undo what was done -/
  | startedUnit (node unit : Nat)
  | startUnit (node unit : Nat)
  /-- make the processor of an inline unit ready -/
  | prepareInline (node unit : Nat) (asked : Bool)
  /-- make the processor of a queued unit ready, on its worker -/
  | prepareWorker (node unit : Nat) (asked : Bool)
  /-- wait for a worker to be ready -/
  | awaitWorker (node unit : Nat)
  /-- take the next event from the queue -/
  | receive (node unit : Nat)
  /-- see whether the worker was told to end -/
  | checkDismissed (node unit : Nat)
  | finishWorker (node unit : Nat) (asked : Bool)
  | stopNode (node : Nat)
  | stoppedNode (node : Nat)
  | stopUnit (node unit : Nat)
  | finishInline (node unit : Nat) (asked : Bool)
  /-- wait until a unit is done with all of its events, given how many were noted last -/
  | drain (node unit noted : Nat)
  /-- tell a worker to end -/
  | dismiss (node unit : Nat)
  /-- close the queue of a unit -/
  | close (node unit : Nat)
  /-- wait for the end of a worker -/
  | joinWorker (node unit : Nat)
  | stoppedUnit (node unit : Nat)

/-- The life of triggers and their sources. -/
inductive SourceTask where
  | startTrigger (trigger : Nat)
  /-- start the sources of a trigger from the given one on -/
  | startSources (trigger unit : Nat)
  /-- go on after a source was started, or undo what was done -/
  | startedSource (trigger unit : Nat)
  | startSource (trigger unit : Nat)
  /-- make a source ready, on its worker -/
  | prepare (trigger unit launch : Nat) (asked : Bool)
  /-- let a source run that is ready, unless it was given up -/
  | begin (trigger unit launch : Nat) (delivered : Bool)
  /-- have a running source do its next move, given how many events it has emitted; once
  asked it may be waiting, also for a limited time -/
  | advance (trigger unit made : Nat) (resting : Option (Option Duration))
  | finish (trigger unit : Nat) (asked : Bool)
  /-- wait for a source to be ready -/
  | await (trigger unit launch worker : Nat)
  /-- give up a source that was not ready in time -/
  | giveUp (trigger unit launch worker : Nat)
  | stopTrigger (trigger : Nat)
  | stoppedTrigger (trigger : Nat)
  | stopSource (trigger unit : Nat)
  /-- ask a source to stop -/
  | halt (trigger unit : Nat) (asked : Bool)
  /-- wait for the end of the worker of a unit -/
  | join (unit : String) (worker : Nat)

/-- The life of streams. -/
inductive StreamTask where
  | start (stream : Nat)
  /-- start the processors of a stream before the given one, from tail to head -/
  | startProcessors (stream processor : Nat)
  | startedProcessor (stream processor : Nat)
  /-- start the triggers of a stream from the given one on -/
  | startTriggers (stream trigger : Nat)
  | startedTrigger (stream trigger : Nat)
  | stop (stream : Nat)
  | stopped (stream : Nat)

/-- What can be asked of the supervisor of streams. -/
inductive Operation where
  | start (name : String)
  | stop (name : String)
  | restart (name : String)
  /-- stop all running streams -/
  | stopAll
deriving DecidableEq, Repr

/-- The supervision of streams. -/
inductive ControlTask where
  /-- do an operation when no other one is going on, and wait for that only for a limited
  time or as long as it takes -/
  | operate (operation : Operation) (limited : Bool)
  /-- end an operation -/
  | unlock
  | startLocked (name : String)
  /-- build the stream of an incarnation and start it -/
  | build (incarnation : Nat)
  /-- tell how the start of an incarnation ended -/
  | built (incarnation : Nat)
  /-- wait for an incarnation to be ready -/
  | awaitStarted (incarnation : Nat)
  /-- report the counters of an incarnation -/
  | report (incarnation : Nat)
  /-- wait until the next report is due -/
  | pause (incarnation : Nat)
  /-- note that an incarnation has ended, or broken down -/
  | ended (incarnation : Nat) (broken : Option String)
  | stopLocked (name : String)
  /-- wait for an incarnation to end -/
  | awaitStopped (incarnation : Nat)
  /-- start everything, serve reports until it is time to stop, and stop everything -/
  | run
  /-- start streams, given how many were started, and then timers -/
  | startAll (names : List String) (started : Nat) (timers : List Nat)
  | startedOne (names : List String) (started : Nat) (timers : List Nat)
  | serve (timers : List Nat)
  /-- stop streams, given how many there were and how many were abandoned -/
  | stopAll (names : List String) (count abandoned : Nat)
  | stoppedOne (names : List String) (count abandoned : Nat)
  /-- serve reports no longer -/
  | retire

/-- The life of heartbeats. -/
inductive TimerTask where
  | prepare (timer : Nat) (asked : Bool)
  /-- wait until the next beat is due -/
  | pause (timer : Nat)
  | beat (timer : Nat) (asked : Bool)
  | finish (timer : Nat) (asked : Bool)
  /-- tell a timer to end -/
  | cancel (timer : Nat)
  /-- wait for the end of a timer -/
  | await (timer : Nat)

/-- A task of a thread. -/
inductive Task where
  | event (task : EventTask)
  | unit (task : UnitTask)
  | source (task : SourceTask)
  | stream (task : StreamTask)
  | control (task : ControlTask)
  | timer (task : TimerTask)
  /-- take note of an answer -/
  | answer (answer : Answer)

namespace Task

/-- An answer that says what a node did. -/
def dispatched (dispatch : Dispatch) : Task :=
  .answer (.dispatched dispatch)

/-- An answer that says why a node or a trigger failed. -/
def failed (error : NodeError) : Task :=
  .answer (.failed (.node error))

end Task
end EventPipeline
