import EventPipeline.Config.Error
import EventPipeline.Json.Basic
import EventPipeline.Number.Duration

/-!
# `EventPipeline.Config.Pipeline`: what a configuration describes

A configuration names templates of nodes, triggers and heartbeats, and streams that are
chains of them. The layout of a stream splits its members into the triggers at its head
and the processors after them.
-/

set_option autoImplicit false

namespace EventPipeline

/-- How a node runs the instances of its processor. -/
inductive ExecutionMode where
  /-- one instance, called on the thread that delivers the event -/
  | single
  /-- several instances, each with a queue and a thread of its own -/
  | thread
  /-- a mode that no node supports -/
  | process
deriving DecidableEq, Repr

/-- The name of a mode. -/
def ExecutionMode.name : ExecutionMode → String
  | single => "single"
  | thread => "thread"
  | process => "process"

/-- The template of a node. -/
structure NodeTemplate where
  /-- the name of its processor in the registry -/
  plugin : String
  args : Json := .obj []
  poolSize : Nat := 1
  /-- seconds that a worker waits for an event at a time -/
  pollTimeout : Float := 1.0
  mode : ExecutionMode := .single
  /-- the rules that decide which events the node processes -/
  filter : List String := []
  /-- seconds that an instance has to become ready, unless the runtime says so -/
  initTimeout : Option Float := none

/-- The template of a trigger. -/
structure TriggerTemplate where
  plugin : String
  args : Json := .obj []
  /-- how many sources run side by side -/
  poolSize : Nat := 1

/-- The template of a heartbeat. -/
structure HeartbeatTemplate where
  plugin : String
  args : Json := .obj []
  /-- seconds between two beats -/
  interval : Float := 5.0

/-- Where log messages go, and which. -/
structure LogOptions where
  level : String := "info"
  console : Bool := true
  file : Option String := none

/-- How streams are supervised; all times are in seconds. -/
structure RuntimeOptions where
  reportInterval : Float := 1.0
  startTimeout : Float := 15.0
  stopTimeout : Float := 15.0
  nodeInitTimeout : Float := 10.0
  triggerInitTimeout : Float := 5.0
  lockTimeout : Float := 10.0
  log : LogOptions := {}

/-- A configuration. -/
structure PipelineConfig where
  nodes : Fields NodeTemplate := []
  triggers : Fields TriggerTemplate := []
  /-- the members of every stream, in the order of the stream -/
  streams : Fields (List String) := []
  heartbeats : Fields HeartbeatTemplate := []
  runtime : RuntimeOptions := {}

/-- The triggers and the processors of a stream, in the order of the stream. -/
structure StreamLayout where
  triggers : List String
  processors : List String
deriving DecidableEq, Repr

/-- Splits the members of a stream into its leading triggers and the processors after
them. -/
def PipelineConfig.streamLayout (config : PipelineConfig) (name : String) :
    Except ConfigError StreamLayout :=
  match config.streams.get? name with
  | none => .error (.unknownStream name)
  | some members =>
    let triggers := members.takeWhile config.triggers.contains
    let processors := members.dropWhile config.triggers.contains
    if triggers.isEmpty then .error (.missingTrigger name)
    else
      match processors.find? fun member => !config.nodes.contains member with
      | some member => .error (.unknownNode name member)
      | none => .ok { triggers, processors }

namespace RuntimeOptions

/-- The time between two reports of the counters of a stream. -/
def reportEvery (options : RuntimeOptions) : Duration := .ofFloat options.reportInterval

/-- How long the start of a stream may take. -/
def startWithin (options : RuntimeOptions) : Duration := .ofFloat options.startTimeout

/-- How long the stop of a stream may take. -/
def stopWithin (options : RuntimeOptions) : Duration := .ofFloat options.stopTimeout

/-- How long a processor may take to become ready. -/
def nodeInitWithin (options : RuntimeOptions) : Duration := .ofFloat options.nodeInitTimeout

/-- How long a source may take to become ready. -/
def triggerInitWithin (options : RuntimeOptions) : Duration :=
  .ofFloat options.triggerInitTimeout

/-- How long an operation waits for another one to end. -/
def lockWithin (options : RuntimeOptions) : Duration := .ofFloat options.lockTimeout

/-- The durations of the options, by the names that a configuration gives them. -/
def durations (options : RuntimeOptions) : List (String × Duration) :=
  [("report_interval", options.reportEvery),
   ("start_timeout", options.startWithin),
   ("stop_timeout", options.stopWithin),
   ("node_init_timeout", options.nodeInitWithin),
   ("trigger_init_timeout", options.triggerInitWithin),
   ("lock_timeout", options.lockWithin)]

end RuntimeOptions

/-- How long a worker of the node waits for an event at a time. -/
def NodeTemplate.pollWithin (template : NodeTemplate) : Duration :=
  .ofFloat template.pollTimeout

/-- The time between two beats. -/
def HeartbeatTemplate.every (template : HeartbeatTemplate) : Duration :=
  .ofFloat template.interval

end EventPipeline
