import EventPipeline.Engine.World

/-!
# `EventPipeline.Engine.Line`: a stream as one line of stations

A line is what a stream is without threads, gates and queues: a list of stations, one
behind the other. It brings one event at a time through all of its stations, and takes the
next one only after that. `Line.travel` is the way of one event and `Line.run` the way of
a sequence of payloads.

Processors may read and change what plugins share, and so may others while the processors
wait for an event. So a line is given what plugins share at each call of a processor, one
after the other.
-/

set_option autoImplicit false

namespace EventPipeline

open Rules

/-- What a node counts. -/
structure Counts where
  received : Nat := 0
  emitted : Nat := 0
  dropped : Nat := 0
  failed : Nat := 0
deriving DecidableEq, Repr

/-- A processor in a line. -/
structure Station (P : Plugins) where
  name : String
  kind : NodeKind
  filter : Option Filter := none
  /-- the instance of the processor, and the name of the unit that owns it -/
  worker : Option (String × P.Processor) := none
  counts : Counts := {}

/-- A line of stations. -/
structure Line (P : Plugins) where
  stations : List (Station P)
  /-- the events that have left it -/
  exits : List Event := []
  /-- the fates that are on record -/
  fates : List FateReport := []
  /-- the messages that tell of the fates that are logged -/
  told : List Message := []
  /-- how many events were made for it -/
  made : Nat := 0
  /-- what plugins share at the calls of processors that are to come -/
  supply : List P.Shared := []

variable {P : Plugins}

/-- The verdict about a payload: the first rule that matches decides, and without a match
the event is accepted. -/
def Station.verdict (station : Station P) (payload : Json) : Except NodeError FilterVerdict :=
  match station.filter with
  | none => .ok .accept
  | some filter =>
    let search := filter.ruler.entry Actions.call Filter.ruleSet [("payload", .ofJson payload)]
    match (search.runFrom filter.actions).1 with
    | .error e => .error (.filter e)
    | .ok .noMatch => .ok .accept
    | .ok (.matched (.int n) _) =>
      if n = 0 then .ok .continue_
      else if n = 1 then .ok .accept
      else if n = -1 then .ok .drop
      else .error (.invalidFilterResult (Value.int n).text)
    | .ok (.matched value _) => .error (.invalidFilterResult value.text)

namespace Line

/-- The role of the processor of a station. -/
def kind? (line : Line P) (n : Nat) : Option NodeKind :=
  (line.stations[n]?).map (·.kind)

/-- The name of the unit that owns the processor of a station. -/
def unitName (line : Line P) (n : Nat) : String :=
  ((line.stations[n]?).bind (·.worker)).elim "" (·.1)

/-- Changes a station. -/
def changeStation (line : Line P) (n : Nat) (f : Station P → Station P) : Line P :=
  { line with stations := line.stations.modify n f }

/-- Changes what a station has counted. -/
def count (line : Line P) (n : Nat) (f : Counts → Counts) : Line P :=
  line.changeStation n fun station => { station with counts := f station.counts }

/-- Tells what became of an event, if somebody wants to hear it. -/
def report (line : Line P) (event : Event) (fate : Fate) : Line P :=
  match event.continuation with
  | some .recorded => { line with fates := line.fates ++ [{ event, fate }] }
  | some .logged => { line with told := line.told ++ [event.message fate] }
  | none => line

/-- An event has come to a station. -/
def receive (line : Line P) (n : Nat) : Line P :=
  line.count n fun counts => { counts with received := counts.received + 1 }

/-- A station passes an event on. -/
def emit (line : Line P) (n : Nat) : Line P :=
  line.count n fun counts => { counts with emitted := counts.emitted + 1 }

/-- The filter of a station ends the way of an event. -/
def drop (line : Line P) (n : Nat) (event : Event) (reason : String) : Line P :=
  (line.count n fun counts => { counts with dropped := counts.dropped + 1 }).report event
    (.stopped reason)

/-- An event has failed at a station. -/
def fail (line : Line P) (n : Nat) (event : Event) (error : NodeError) : Line P :=
  (line.count n fun counts => { counts with failed := counts.failed + 1 }).report event
    (.failed error)

/-- Calls a hook of the processor of a station once, if there is one and the line knows what
plugins share. -/
def callOnce {α : Type} (line : Line P) (n : Nat)
    (hook : P.Processor → P.Shared → Call P.Processor P.Shared NodeError α) :
    Option (Reply NodeError α) × Line P :=
  match (line.stations[n]?).bind (·.worker), line.supply with
  | some (unit, processor), shared :: supply =>
    let call := hook processor shared
    let line := { line with supply }
    (some call.reply, line.changeStation n fun station =>
      { station with worker := some (unit, call.plugin) })
  | _, _ => (none, line)

/-- Calls a hook of the processor of a station, a second time if it waits. -/
def call {α : Type} (line : Line P) (n : Nat) (asked : Bool)
    (hook : Bool → P.Processor → P.Shared → Call P.Processor P.Shared NodeError α) :
    Option (Reply NodeError α) × Line P :=
  match line.callOnce n (hook asked) with
  | (some (.waiting limit), line) =>
    if asked then (some (.waiting limit), line) else line.callOnce n (hook true)
  | result => result

/-- Makes the processor of a station ready. -/
def prepare (line : Line P) (n : Nat) (asked : Bool) : Line P :=
  (line.call n asked P.processor.prepare).2

/-- What follows from how a processor ended: the event that goes on, if one does. What a
sink decides does not count. -/
def conclude (line : Line P) (n : Nat) (event : Event) :
    Option (Reply NodeError Outcome) → Option Event × Line P
  | some (.failed error) => (none, line.fail n event error)
  | some (.panicked text) =>
    (none, line.fail n event (.panicked (line.unitName n) (panicText text)))
  | some (.returned outcome) =>
    match line.kind? n, outcome with
    | some .transform, .pass => (some event, line)
    | some .transform, .update payload => (some { event with payload }, line)
    | some .transform, .stop reason => (none, line.report event (.stopped reason))
    | some .sink, _ | none, _ => (none, line)
  | some (.waiting _) | none => (none, line)

/-- Has an event processed at a station. -/
def process (line : Line P) (n : Nat) (event : Event) (asked : Bool) :
    Option Event × Line P :=
  let (reply, line) := line.call n asked fun again => P.processor.process again event.payload
  line.conclude n event reply

/-- Has an event processed that the filter of a station has accepted. A sink passes the
event on as it came, whatever its processor makes of it. -/
def accept (line : Line P) (n : Nat) (event : Event) : Option Event × Line P :=
  let (later, processed) := line.process n event false
  match line.kind? n with
  | some .sink => (some event, processed)
  | some .transform | none => (later, processed)

/-- An event leaves the line. -/
def leave (line : Line P) (event : Event) : Line P :=
  { line with exits := line.exits ++ [event] }.report event .completed

/-- Brings an event through the stations that are ahead of it, to the end of its way. -/
def travel : List Nat → Event → Line P → Line P
  | [], event, line => line.leave event
  | n :: ahead, event, line =>
    match line.stations[n]? with
    | none => line
    | some station =>
      let event := { event with hops := event.hops + 1 }
      let line := line.receive n
      match station.verdict event.payload with
      | .error error =>
        line.drop n event s!"filter of '{station.name}' failed: {error.message}"
      | .ok .drop => line.drop n event s!"dropped by filter of '{station.name}'"
      | .ok .continue_ => (line.emit n).travel ahead event
      | .ok .accept =>
        match line.accept n event with
        | (none, line) => line
        | (some event, line) => (line.emit n).travel ahead event

/-- Makes the next event, and brings it through the line. -/
def make (line : Line P) (payload : Json) (continuation : Option Continuation) : Line P :=
  { line with made := line.made + 1 }.travel (List.range line.stations.length)
    { payload, correlation := line.made + 1, continuation }

/-- Makes the processors of the stations before the given one ready, from the tail to the
head. -/
def prepareAll : Nat → Line P → Line P
  | 0, line => line
  | n + 1, line => (line.prepare n false).prepareAll n

/-- Brings one event after the other through the line. -/
def makeAll (line : Line P) (payloads : List (Json × Option Continuation)) : Line P :=
  payloads.foldl (fun line entry => line.make entry.1 entry.2) line

/-- Makes all processors ready, and then brings one event after the other through the
line. -/
def run (line : Line P) (payloads : List (Json × Option Continuation)) : Line P :=
  (line.prepareAll line.stations.length).makeAll payloads

end Line

/-! ## The line of a stream -/

/-- The station of a node, which has the processor of its first unit. -/
def Node.station (node : Node P) : Station P where
  name := node.name
  kind := node.kind
  filter := node.filter
  worker := node.units.head?.map fun unit => (unit.name, unit.processor)
  counts :=
    { received := node.received
      emitted := node.gate.emitted
      dropped := node.dropped
      failed := node.failed }

/-- What became of the events of a line, as far as a world does not keep it apart: a world
keeps the events that have left it only on demand, and logs much else. -/
structure Wake where
  exits : List Event := []
  told : List Message := []

namespace World

/-- The line of all nodes of a world, whose events the first trigger makes, with what became
of its events and with what plugins will share. -/
def line (w : World P) (wake : Wake) (supply : List P.Shared) : Line P where
  stations := w.nodes.map Node.station
  exits := wake.exits
  fates := w.fates
  told := wake.told
  made := (w.triggers[0]?).elim 0 (·.gate.sequence)
  supply := supply

/-- A world shows the same as a line: the same events have left it, if they are kept, the
same fates are on record, those that are logged are in the log, and its nodes have counted
the same. -/
structure Shows (w : World P) (output : Bool) (line : Line P) : Prop where
  exits : w.output = if output then line.exits else []
  fates : w.fates = line.fates
  told : line.told.Sublist w.log
  counts : w.nodes.map (·.station.counts) = line.stations.map (·.counts)

end World

/-- All nodes of the stream run in the mode `single`, and it has one trigger with one
source. -/
def PipelineConfig.IsSequential (config : PipelineConfig) (name : String) : Prop :=
  ∃ trigger processors, config.streamLayout name = .ok { triggers := [trigger], processors } ∧
    (∀ template, config.triggers.get? trigger = some template → template.poolSize ≤ 1) ∧
    ∀ processor ∈ processors, ∀ template,
      config.nodes.get? processor = some template → template.mode = .single

end EventPipeline
