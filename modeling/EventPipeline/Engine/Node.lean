import EventPipeline.Config.Pipeline
import EventPipeline.Engine.Filter
import EventPipeline.Engine.Gate
import EventPipeline.Engine.Unit
import EventPipeline.Plugin.Registry

/-!
# `EventPipeline.Engine.Node`: the nodes of a stream

A node receives events, asks its filter about each, and has the accepted ones processed
by its units in turn. `Node.build` makes a node and reports what it logs on the way.
-/

set_option autoImplicit false

namespace EventPipeline

/-- How a node runs. -/
structure NodeSettings where
  kind : NodeKind
  mode : ExecutionMode := .single
  poolSize : Nat := 1
  /-- how long a worker waits for an event at a time -/
  pollWithin : Duration := .ofSeconds 1
  /-- how long an instance may take to become ready -/
  initWithin : Duration
  filter : List String := []

/-- The settings of a template. A time to become ready that is no duration does not
count. -/
def NodeSettings.ofTemplate (template : NodeTemplate) (kind : NodeKind)
    (initWithin : Duration) : NodeSettings where
  kind := kind
  mode := template.mode
  poolSize := template.poolSize
  pollWithin := template.pollWithin
  initWithin := (template.initTimeout.bind Duration.ofFloat?).getD initWithin
  filter := template.filter

/-- What a node did with an event. -/
inductive Dispatch where
  /-- it went on without being processed -/
  | bypassed
  | dropped
  | submitted
  | rejected
deriving DecidableEq, Repr

/-- The name of what a node did. -/
def Dispatch.name : Dispatch → String
  | bypassed => "Bypassed"
  | dropped => "Dropped"
  | submitted => "Submitted"
  | rejected => "Rejected"

/-- A node. -/
structure Node (P : Plugins) where
  name : String
  kind : NodeKind
  filter : Option Filter := none
  gate : Gate
  units : List (ExecutionUnit P)
  /-- how many events it has accepted, which tells whose turn it is -/
  accepted : Nat := 0
  received : Nat := 0
  dropped : Nat := 0
  failed : Nat := 0
  initWithin : Duration
  pollWithin : Duration

namespace Node

variable {P : Plugins}

/-- What the node has counted. -/
def stats (node : Node P) : NodeStats where
  received := node.received
  emitted := node.gate.emitted
  dropped := node.dropped
  failed := node.failed
  units := .ofPairs (node.units.map fun unit => (unit.name, unit.stats))

/-- The verdict of a node about a payload, and what its filter reports. Without a filter
every event is accepted. -/
def judge (node : Node P) (payload : Json) : Except NodeError FilterVerdict × List Message :=
  match node.filter with
  | none => (.ok .accept, [])
  | some filter => filter.decide payload

/-- The number of units that a mode has for a pool size; the unsupported mode has none. -/
def unitCount? (mode : ExecutionMode) (poolSize : Nat) : Option Nat :=
  match mode with
  | .single => some 1
  | .thread => some (max poolSize 1)
  | .process => none

/-- The name of a unit, counted from one. -/
def unitName (node : String) (number : Nat) (mode : ExecutionMode) : String :=
  s!"{node}-unit{number}[{mode.name}]"

/-- The state of a unit that was never started. -/
def initialState (mode : ExecutionMode) : UnitState :=
  match mode with
  | .thread => .queued {}
  | _ => .inline {}

/-- Makes so many units, numbered from `number`, each with an instance of its own. -/
def buildUnits (name : String) (mode : ExecutionMode)
    (make : P.Shared → Made P.Shared NodeError P.Processor) :
    Nat → Nat → P.Shared → Made P.Shared NodeError (List (ExecutionUnit P))
  | 0, _, shared => { reply := .returned [], shared }
  | count + 1, number, shared =>
    (make shared).andThen fun processor shared =>
      (buildUnits name mode make count (number + 1) shared).andThen fun units shared =>
        let unit : ExecutionUnit P :=
          { name := unitName name number mode, processor, state := initialState mode }
        { reply := .returned (unit :: units), shared }

/-- The messages about settings that are not followed. -/
def settingsLog (name : String) (settings : NodeSettings) : List Message :=
  if settings.mode = .single && settings.poolSize ≠ 1 then
    [.poolSizeForced name settings.poolSize]
  else []

/-- The filter of a node, if it has rules, and what compiling it logs. -/
def buildFilter (name : String) (rules : List String) :
    Except NodeError (Option Filter × List Message) :=
  if rules.isEmpty then .ok (none, [])
  else
    match Filter.compile rules with
    | .ok (filter, message) => .ok (some filter, [message])
    | .error source => .error (.invalidFilter name source)

/-- Makes a node with an instance of its processor for every unit. -/
def build (name : String) (settings : NodeSettings)
    (make : P.Shared → Made P.Shared NodeError P.Processor) (shared : P.Shared) :
    Made P.Shared NodeError (Node P) × List Message :=
  let log := settingsLog name settings
  match unitCount? settings.mode settings.poolSize with
  | none => ({ reply := .failed (.unsupportedMode name settings.mode.name), shared }, log)
  | some count =>
    match buildFilter name settings.filter with
    | .error e => ({ reply := .failed e, shared }, log)
    | .ok (filter, more) =>
      let made := (buildUnits name settings.mode make count 1 shared).andThen fun units shared =>
        let node : Node P :=
          { name, kind := settings.kind, filter, gate := { name }, units,
            initWithin := settings.initWithin, pollWithin := settings.pollWithin }
        { reply := .returned node, shared }
      (made, log ++ more)

end Node
end EventPipeline
