import EventPipeline.Engine.Task
import EventPipeline.Engine.Trigger

/-!
# `EventPipeline.Engine.World`: the state of a running pipeline

A world holds everything that threads share: nodes, triggers, streams, their supervisor,
the timers of heartbeats, the log, and the threads themselves with what they still have
to do. Things are kept in lists and named by their places, and nothing is ever removed.
-/

set_option autoImplicit false

namespace EventPipeline

/-- A thread: what it has to do, since when it has been at its first task, what it was
told last, and how it broke down if it did. -/
structure Thread where
  agenda : List Task
  since : Nat := 0
  answer : Answer := .ok
  broken : Option String := none

/-- A built stream: its triggers, its processors from head to tail, and whether it
runs. -/
structure Stream where
  name : String
  triggers : List Nat
  processors : List Nat
  running : Bool := false

/-- One life of a supervised stream, from its start to its end. -/
structure Incarnation where
  name : String
  /-- the thread that it lives on -/
  thread : Nat := 0
  stream : Option Nat := none
  /-- how its start ended -/
  started : Option (Except StreamError Unit) := none
  /-- it was told to stop -/
  cancelled : Bool := false
  /-- nobody waits for it any more -/
  aborted : Bool := false
  /-- it has come to its end, and so have all of its threads -/
  ended : Bool := false
  /-- how it broke down -/
  broken : Option String := none

/-- The timer of a heartbeat. -/
structure Timer (P : Plugins) where
  name : String
  heartbeat : P.Heartbeat
  interval : Duration
  cancelled : Bool := false
  beats : Nat := 0
  ended : Bool := false

/-- The supervisor of the streams of a configuration. -/
structure Supervisor (P : Plugins) where
  config : PipelineConfig := {}
  registry : Registry P := {}
  /-- the running incarnation of every stream -/
  streams : Fields Nat := []
  /-- the counters that were reported last, of every running stream -/
  runtime : RuntimeTable := []
  /-- the incarnations that were given up -/
  abandoned : Fields Nat := []
  /-- an operation is going on -/
  locked : Bool := false
  /-- the reports that were not looked at yet -/
  reports : List (String × StreamStats) := []
  /-- somebody serves the reports -/
  served : Bool := false
  /-- it is time to stop -/
  stopping : Bool := false

/-- Everything that threads share, and the threads. -/
structure World (P : Plugins) where
  shared : P.Shared
  /-- nanoseconds -/
  clock : Nat := 0
  log : List Message := []
  /-- the events that left the pipeline -/
  output : List Event := []
  /-- the fates that are on record -/
  fates : List FateReport := []
  nodes : List (Node P) := []
  triggers : List (Trigger P) := []
  launches : List Launch := []
  streams : List Stream := []
  incarnations : List Incarnation := []
  timers : List (Timer P) := []
  supervisor : Supervisor P := {}
  threads : List Thread := []

/-- How a thread goes on after a task: with further tasks in its place, or not at all. -/
inductive Progress (P : Plugins) where
  | goOn (world : World P) (todo : List Task)
  | breakDown (world : World P) (text : String)

namespace World

variable {P : Plugins}

/-- The thread goes on with its agenda. -/
def done (w : World P) : Option (Progress P) :=
  some (.goOn w [])

/-- The thread does further tasks before it goes on with its agenda. -/
def andThen (w : World P) (todo : List Task) : Option (Progress P) :=
  some (.goOn w todo)

/-- Adds messages to the log. -/
def logAll (w : World P) (messages : List Message) : World P :=
  { w with log := w.log ++ messages }

/-- Adds a message to the log. -/
def note (w : World P) (message : Message) : World P :=
  w.logAll [message]

/-- Tells what became of an event, if somebody wants to hear it. -/
def tell (w : World P) (event : Event) (fate : Fate) : World P :=
  match event.continuation with
  | none => w
  | some .recorded => { w with fates := w.fates ++ [{ event, fate }] }
  | some .logged => w.note (event.message fate)

/-- Changes what plugins share. -/
def changeShared (w : World P) (f : P.Shared → P.Shared) : World P :=
  { w with shared := f w.shared }

/-- Changes a node. -/
def changeNode (w : World P) (n : Nat) (f : Node P → Node P) : World P :=
  { w with nodes := w.nodes.modify n f }

/-- Changes a trigger. -/
def changeTrigger (w : World P) (t : Nat) (f : Trigger P → Trigger P) : World P :=
  { w with triggers := w.triggers.modify t f }

/-- Changes a unit of a node. -/
def changeUnit (w : World P) (n u : Nat) (f : ExecutionUnit P → ExecutionUnit P) : World P :=
  w.changeNode n fun node => { node with units := node.units.modify u f }

/-- Changes a source unit of a trigger. -/
def changeSource (w : World P) (t u : Nat) (f : SourceUnit P → SourceUnit P) : World P :=
  w.changeTrigger t fun trigger => { trigger with units := trigger.units.modify u f }

/-- Changes a launch of a source. -/
def changeLaunch (w : World P) (l : Nat) (f : Launch → Launch) : World P :=
  { w with launches := w.launches.modify l f }

/-- Changes a stream. -/
def changeStream (w : World P) (s : Nat) (f : Stream → Stream) : World P :=
  { w with streams := w.streams.modify s f }

/-- Changes an incarnation. -/
def changeIncarnation (w : World P) (i : Nat) (f : Incarnation → Incarnation) : World P :=
  { w with incarnations := w.incarnations.modify i f }

/-- Changes a timer. -/
def changeTimer (w : World P) (h : Nat) (f : Timer P → Timer P) : World P :=
  { w with timers := w.timers.modify h f }

/-- Changes the supervisor. -/
def changeSupervisor (w : World P) (f : Supervisor P → Supervisor P) : World P :=
  { w with supervisor := f w.supervisor }

/-- Changes a thread. -/
def changeThread (w : World P) (t : Nat) (f : Thread → Thread) : World P :=
  { w with threads := w.threads.modify t f }

/-- A unit of a node. -/
def unit? (w : World P) (n u : Nat) : Option (ExecutionUnit P) :=
  (w.nodes[n]?).bind fun node => node.units[u]?

/-- A source unit of a trigger. -/
def source? (w : World P) (t u : Nat) : Option (SourceUnit P) :=
  (w.triggers[t]?).bind fun trigger => trigger.units[u]?

/-- A gate. -/
def gate? (w : World P) : GateId → Option Gate
  | .node n => (w.nodes[n]?).map (·.gate)
  | .trigger t => (w.triggers[t]?).map (·.gate)

/-- Changes a gate. -/
def changeGate (w : World P) (g : GateId) (f : Gate → Gate) : World P :=
  match g with
  | .node n => w.changeNode n fun node => { node with gate := f node.gate }
  | .trigger t => w.changeTrigger t fun trigger => { trigger with gate := f trigger.gate }

/-- Adds a node, whose number is the first result. -/
def addNode (w : World P) (node : Node P) : Nat × World P :=
  (w.nodes.length, { w with nodes := w.nodes ++ [node] })

/-- Adds a trigger, whose number is the first result. -/
def addTrigger (w : World P) (trigger : Trigger P) : Nat × World P :=
  (w.triggers.length, { w with triggers := w.triggers ++ [trigger] })

/-- Adds a stream, whose number is the first result. -/
def addStream (w : World P) (stream : Stream) : Nat × World P :=
  (w.streams.length, { w with streams := w.streams ++ [stream] })

/-- Adds a launch, whose number is the first result. -/
def addLaunch (w : World P) : Nat × World P :=
  (w.launches.length, { w with launches := w.launches ++ [{}] })

/-- Adds an incarnation, whose number is the first result. -/
def addIncarnation (w : World P) (incarnation : Incarnation) : Nat × World P :=
  (w.incarnations.length, { w with incarnations := w.incarnations ++ [incarnation] })

/-- Adds a timer, whose number is the first result. -/
def addTimer (w : World P) (timer : Timer P) : Nat × World P :=
  (w.timers.length, { w with timers := w.timers ++ [timer] })

/-- Adds a thread with things to do, whose number is the first result. -/
def spawn (w : World P) (agenda : List Task) : Nat × World P :=
  (w.threads.length, { w with threads := w.threads ++ [{ agenda, since := w.clock }] })

/-- Gives a thread further things to do. -/
def assign (w : World P) (t : Nat) (tasks : List Task) : World P :=
  w.changeThread t fun thread =>
    { thread with agenda := thread.agenda ++ tasks, since := w.clock, answer := .ok }

/-- A thread has come to its end. -/
def hasEnded (w : World P) (t : Nat) : Bool :=
  (w.threads[t]?).all fun thread => thread.agenda.isEmpty

/-- How a thread broke down, if it did. -/
def brokenOf (w : World P) (t : Nat) : Option String :=
  (w.threads[t]?).bind (·.broken)

/-- What a thread was told last. -/
def answerOf (w : World P) (t : Nat) : Answer :=
  (w.threads[t]?).elim .ok (·.answer)

/-- Calls a hook of the processor of a unit. -/
def callProcessor {α : Type} (w : World P) (n u : Nat)
    (hook : P.Processor → P.Shared → Call P.Processor P.Shared NodeError α) :
    Option (Reply NodeError α × World P) :=
  (w.unit? n u).map fun unit =>
    let call := hook unit.processor w.shared
    (call.reply,
      ({ w with shared := call.shared }.changeUnit n u fun unit =>
        { unit with processor := call.plugin }).logAll call.log)

/-- Calls a hook of a source. -/
def callSource {α : Type} (w : World P) (t u : Nat)
    (hook : P.Source → P.Shared → Call P.Source P.Shared NodeError α) :
    Option (Reply NodeError α × World P) :=
  (w.source? t u).map fun unit =>
    let call := hook unit.source w.shared
    (call.reply,
      ({ w with shared := call.shared }.changeSource t u fun unit =>
        { unit with source := call.plugin }).logAll call.log)

/-- Calls a hook of a heartbeat. -/
def callHeartbeat {α : Type} (w : World P) (h : Nat)
    (hook : P.Heartbeat → P.Shared → Call P.Heartbeat P.Shared StreamError α) :
    Option (Reply StreamError α × World P) :=
  (w.timers[h]?).map fun timer =>
    let call := hook timer.heartbeat w.shared
    (call.reply,
      ({ w with shared := call.shared }.changeTimer h fun timer =>
        { timer with heartbeat := call.plugin }).logAll call.log)

end World
end EventPipeline
