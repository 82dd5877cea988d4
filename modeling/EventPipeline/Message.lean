import EventPipeline.Engine.Counters
import EventPipeline.Engine.Error
import EventPipeline.Json.Basic
import EventPipeline.Text.Quoted

/-!
# `EventPipeline.Message`: what is logged

Everything that the pipeline logs is a `Message`. A message has a level, a text, named
fields, and a span that groups the messages of what it speaks of.
-/

set_option autoImplicit false

namespace EventPipeline

/-- How urgent a message is. -/
inductive Level where
  | trace | debug | info | warn | error
deriving DecidableEq, Repr

/-- The name of a level. -/
def Level.name : Level → String
  | trace => "TRACE"
  | debug => "DEBUG"
  | info => "INFO"
  | warn => "WARN"
  | error => "ERROR"

/-- A message of the pipeline. -/
inductive Message where
  | ruleSetRegistered (ruleSet : String) (ruleCount : Nat)
  | gotoFollowed (source target : String) (depth : Nat)
  | eventCompleted (correlation hops : Nat)
  | eventStopped (correlation hops : Nat) (reason : String)
  | eventFailed (correlation hops : Nat) (error : NodeError)
  | emitTargetMissing (node : String)
  | processingFailed (unit : String) (correlation : Nat) (error : NodeError)
  | unitDraining (unit : String) (inFlight : Nat)
  | unitStarted (unit mode : String)
  | unitStopped (unit : String) (processed : Nat)
  | unitWorkerLost (unit reason : String)
  | poolSizeForced (node : String) (requested : Nat)
  | nodeStarted (node : String) (units : Nat)
  | nodeStopped (node : String) (stats : NodeStats)
  | filterFailed (node : String) (correlation : Nat) (error : NodeError)
  | eventDropped (node : String) (correlation : Nat)
  | submitRejected (node : String) (error : NodeError)
  | sourceFailed (unit : String) (error : NodeError)
  | triggerStarted (trigger : String) (units : Nat)
  | triggerStopped (trigger : String) (emitted : Nat)
  | payloadLogged (node : String) (payload : Json)
  | streamStarted (stream : String) (triggers processors : Nat)
  | streamStopped (stream : String)
  | streamStartFailed (stream : String) (error : StreamError)
  | streamAbandoned (stream phase : String) (timeout : Duration)
  | streamTaskFailed (stream reason : String)
  | heartbeatFailed (heartbeat : String) (error : StreamError)
  | heartbeatCancelled (heartbeat : String) (beats : Nat)
  | controllerStarted (streams heartbeats : Nat)
  | controllerStopped (streams abandoned : Nat)
  | runtimeReported (heartbeat : String) (streams : Nat) (abandoned : List String)
    (table : String)

namespace Message

/-- The level of a message. -/
def level : Message → Level
  | eventCompleted .. => .trace
  | ruleSetRegistered .. | gotoFollowed .. | eventStopped .. | unitDraining ..
  | unitStarted .. | unitStopped .. | eventDropped .. | heartbeatCancelled .. => .debug
  | nodeStarted .. | nodeStopped .. | triggerStarted .. | triggerStopped ..
  | payloadLogged .. | streamStarted .. | streamStopped .. | controllerStarted ..
  | controllerStopped .. | runtimeReported .. => .info
  | eventFailed .. | processingFailed .. | poolSizeForced .. | filterFailed ..
  | streamAbandoned .. | heartbeatFailed .. => .warn
  | emitTargetMissing .. | unitWorkerLost .. | submitRejected .. | sourceFailed ..
  | streamStartFailed .. | streamTaskFailed .. => .error

/-- The text of a message. -/
def text : Message → String
  | ruleSetRegistered ruleSet count =>
    s!"Registered rule set '{ruleSet}' with {count} rules"
  | gotoFollowed source target depth =>
    s!"Rule set '{source}' jumped to '{target}' (depth {depth})"
  | eventCompleted correlation hops => s!"Event {correlation} completed after {hops} hops"
  | eventStopped correlation hops reason =>
    s!"Event {correlation} stopped after {hops} hops: {reason}"
  | eventFailed correlation hops error =>
    s!"Event {correlation} failed after {hops} hops: {error.message}"
  | emitTargetMissing node => s!"Node '{node}' emitted with no registered target"
  | processingFailed unit correlation error =>
    s!"Unit '{unit}' failed on event {correlation}: {error.message}"
  | unitDraining unit inFlight => s!"Unit '{unit}' draining, {inFlight} events in flight"
  | unitStarted unit mode => s!"Unit '{unit}' started in {mode} mode"
  | unitStopped unit processed => s!"Unit '{unit}' stopped after processing {processed} events"
  | unitWorkerLost unit reason => s!"Worker of unit '{unit}' lost: {reason}"
  | poolSizeForced node requested =>
    s!"Node '{node}' runs in single mode, pool size {requested} forced to 1"
  | nodeStarted node units => s!"Node '{node}' started with {units} units"
  | nodeStopped node stats =>
    s!"Node '{node}' stopped: recv={stats.received} emit={stats.emitted} "
      ++ s!"drop={stats.dropped} failed={stats.failed}"
  | filterFailed node correlation error =>
    s!"Filter of node '{node}' failed on event {correlation}, dropping it: {error.message}"
  | eventDropped node correlation => s!"Filter of node '{node}' dropped event {correlation}"
  | submitRejected node error => s!"Node '{node}' rejected an event: {error.message}"
  | sourceFailed unit error => s!"Source of unit '{unit}' failed: {error.message}"
  | triggerStarted trigger units => s!"Trigger '{trigger}' started with {units} units"
  | triggerStopped trigger emitted =>
    s!"Trigger '{trigger}' stopped after emitting {emitted} events"
  | payloadLogged node payload => s!"[{node}] {payload.compact}"
  | streamStarted stream triggers processors =>
    s!"Stream '{stream}' started: {triggers} triggers, {processors} processors"
  | streamStopped stream => s!"Stream '{stream}' stopped"
  | streamStartFailed stream error => s!"Stream '{stream}' failed to start: {error.message}"
  | streamAbandoned stream phase timeout =>
    s!"Stream '{stream}' did not {phase} within {timeout.text}, "
      ++ "abandoned with its threads still running"
  | streamTaskFailed stream reason => s!"Task of stream '{stream}' failed: {reason}"
  | heartbeatFailed heartbeat error => s!"Heartbeat '{heartbeat}' failed: {error.message}"
  | heartbeatCancelled heartbeat beats =>
    s!"Heartbeat '{heartbeat}' cancelled after {beats} beats"
  | controllerStarted streams heartbeats =>
    s!"Stream controller running {streams} streams with {heartbeats} heartbeats"
  | controllerStopped streams abandoned =>
    s!"Stream controller stopped {streams} streams ({abandoned} abandoned)"
  | runtimeReported heartbeat streams abandoned table =>
    s!"Heartbeat '{heartbeat}': {streams} streams {table}"
      ++ if abandoned.isEmpty then "" else s!" abandoned={Text.quotedList abandoned}"

/-- The named fields of a message. -/
def fields : Message → List (String × String)
  | ruleSetRegistered ruleSet count => [("rule_set", ruleSet), ("rule_count", toString count)]
  | gotoFollowed source target depth =>
    [("from", source), ("to", target), ("depth", toString depth)]
  | eventCompleted correlation hops =>
    [("correlation", toString correlation), ("hops", toString hops)]
  | eventStopped correlation hops reason =>
    [("correlation", toString correlation), ("hops", toString hops), ("reason", reason)]
  | eventFailed correlation hops error =>
    [("correlation", toString correlation), ("hops", toString hops), ("error", error.message)]
  | emitTargetMissing node => [("node", node)]
  | processingFailed unit correlation error =>
    [("unit", unit), ("correlation", toString correlation), ("error", error.message)]
  | unitDraining unit inFlight => [("unit", unit), ("in_flight", toString inFlight)]
  | unitStarted unit mode => [("unit", unit), ("mode", mode)]
  | unitStopped unit processed => [("unit", unit), ("processed", toString processed)]
  | unitWorkerLost unit reason => [("unit", unit), ("reason", reason)]
  | poolSizeForced node requested => [("node", node), ("requested", toString requested)]
  | nodeStarted node units => [("node", node), ("units", toString units)]
  | nodeStopped node stats =>
    [("node", node), ("received", toString stats.received), ("emitted", toString stats.emitted),
     ("dropped", toString stats.dropped), ("failed", toString stats.failed)]
  | filterFailed node correlation error =>
    [("node", node), ("correlation", toString correlation), ("error", error.message)]
  | eventDropped node correlation => [("node", node), ("correlation", toString correlation)]
  | submitRejected node error => [("node", node), ("error", error.message)]
  | sourceFailed unit error => [("unit", unit), ("error", error.message)]
  | triggerStarted trigger units => [("trigger", trigger), ("units", toString units)]
  | triggerStopped trigger emitted => [("trigger", trigger), ("emitted", toString emitted)]
  | payloadLogged node _ => [("node", node)]
  | streamStarted stream triggers processors =>
    [("stream", stream), ("triggers", toString triggers), ("processors", toString processors)]
  | streamStopped stream => [("stream", stream)]
  | streamStartFailed stream error => [("stream", stream), ("error", error.message)]
  | streamAbandoned stream phase timeout =>
    [("stream", stream), ("phase", phase), ("timeout_ms", toString (timeout.millis % 2 ^ 64))]
  | streamTaskFailed stream reason => [("stream", stream), ("reason", reason)]
  | heartbeatFailed heartbeat error => [("heartbeat", heartbeat), ("error", error.message)]
  | heartbeatCancelled heartbeat beats =>
    [("heartbeat", heartbeat), ("beats", toString beats)]
  | controllerStarted streams heartbeats =>
    [("streams", toString streams), ("heartbeats", toString heartbeats)]
  | controllerStopped streams abandoned =>
    [("streams", toString streams), ("abandoned", toString abandoned)]
  | runtimeReported heartbeat streams abandoned _ =>
    [("heartbeat", heartbeat), ("streams", toString streams),
     ("abandoned", toString abandoned.length)]

/-- A span that groups messages. -/
structure Span where
  name : String
  level : Level
  fields : List (String × String)

/-- The span that a message opens under the given name. -/
def span (m : Message) (name : String) : Span :=
  let fields := ("span_name", name) :: m.fields
  match m with
  | processingFailed .. =>
    { name := "processing", level := .warn, fields := fields.filter (·.1 ≠ "error") }
  | unitStarted .. => { name := "unit", level := .debug, fields := fields }
  | nodeStarted .. =>
    { name := "node", level := .info, fields := fields.filter (·.1 ≠ "units") }
  | streamStarted .. =>
    { name := "stream", level := .info, fields := fields.take 2 }
  | _ => { name := "rivulet", level := .info, fields := [("span_name", name)] }

/-- A message as one line: its level and its text. -/
def line (m : Message) : String :=
  m.level.name ++ " " ++ m.text

end Message
end EventPipeline
