import EventPipeline.Config.Pipeline
import EventPipeline.Document.Decode

/-!
# `EventPipeline.Config.Decode`: configurations and their documents

Every section and nearly every field of a configuration may be left out and then has its
default. `PipelineConfig.toJson` writes a configuration with all of them filled in.
-/

set_option autoImplicit false

namespace EventPipeline

open Document

/-- The modes by the names that a configuration gives them. -/
def ExecutionMode.all : List (String × ExecutionMode) :=
  [ExecutionMode.single, .thread, .process].map fun mode => (mode.name, mode)

/-- Reads the template of a node. -/
def NodeTemplate.ofDocument (d : Document) : Decoded NodeTemplate := do
  let fields ← d.record
    ["module", "args", "pool_size", "poll_timeout", "mode", "filter", "init_timeout"]
  return {
    plugin := ← required fields "module" text
    args := ← fieldD fields "args" (.obj []) data
    poolSize := ← fieldD fields "pool_size" 1 count
    pollTimeout := ← fieldD fields "poll_timeout" 1.0 number
    mode := ← fieldD fields "mode" .single (oneOf ExecutionMode.all)
    filter := ← fieldD fields "filter" [] (listOf text)
    initTimeout := ← fieldD fields "init_timeout" none (optional number) }

/-- Reads the template of a trigger. -/
def TriggerTemplate.ofDocument (d : Document) : Decoded TriggerTemplate := do
  let fields ← d.record ["module", "args", "pool_size"]
  return {
    plugin := ← required fields "module" text
    args := ← fieldD fields "args" (.obj []) data
    poolSize := ← fieldD fields "pool_size" 1 count }

/-- Reads the template of a heartbeat. -/
def HeartbeatTemplate.ofDocument (d : Document) : Decoded HeartbeatTemplate := do
  let fields ← d.record ["module", "args", "interval"]
  return {
    plugin := ← required fields "module" text
    args := ← fieldD fields "args" (.obj []) data
    interval := ← fieldD fields "interval" 5.0 number }

/-- Reads where log messages go. -/
def LogOptions.ofDocument (d : Document) : Decoded LogOptions := do
  let fields ← d.record ["level", "console", "file"]
  let default : LogOptions := {}
  return {
    level := ← fieldD fields "level" default.level text
    console := ← fieldD fields "console" default.console flag
    file := ← fieldD fields "file" default.file (optional text) }

/-- Reads how streams are supervised. -/
def RuntimeOptions.ofDocument (d : Document) : Decoded RuntimeOptions := do
  let fields ← d.record
    ["report_interval", "start_timeout", "stop_timeout", "node_init_timeout",
     "trigger_init_timeout", "lock_timeout", "log"]
  let default : RuntimeOptions := {}
  return {
    reportInterval := ← fieldD fields "report_interval" default.reportInterval number
    startTimeout := ← fieldD fields "start_timeout" default.startTimeout number
    stopTimeout := ← fieldD fields "stop_timeout" default.stopTimeout number
    nodeInitTimeout := ← fieldD fields "node_init_timeout" default.nodeInitTimeout number
    triggerInitTimeout :=
      ← fieldD fields "trigger_init_timeout" default.triggerInitTimeout number
    lockTimeout := ← fieldD fields "lock_timeout" default.lockTimeout number
    log := ← fieldD fields "log" default.log LogOptions.ofDocument }

/-- Reads a configuration. -/
def PipelineConfig.ofDocument (d : Document) : Decoded PipelineConfig := do
  let fields ← d.record ["NodeTemplate", "TriggerTemplate", "Streams", "HeartBeat", "Runtime"]
  return {
    nodes := ← fieldD fields "NodeTemplate" [] (mapOf NodeTemplate.ofDocument)
    triggers := ← fieldD fields "TriggerTemplate" [] (mapOf TriggerTemplate.ofDocument)
    streams := ← fieldD fields "Streams" [] (mapOf (listOf text))
    heartbeats := ← fieldD fields "HeartBeat" [] (mapOf HeartbeatTemplate.ofDocument)
    runtime := ← fieldD fields "Runtime" {} RuntimeOptions.ofDocument }

/-- A number of a configuration as data. -/
private def seconds (x : Float) : Json := Plain.jsonOfFloat x

/-- The template of a node with all of its fields. -/
def NodeTemplate.toJson (template : NodeTemplate) : Json :=
  .obj
    [("args", template.args),
     ("filter", .arr (template.filter.map .str)),
     ("init_timeout", template.initTimeout.elim .null seconds),
     ("mode", .str template.mode.name),
     ("module", .str template.plugin),
     ("poll_timeout", seconds template.pollTimeout),
     ("pool_size", .int template.poolSize)]

/-- The template of a trigger with all of its fields. -/
def TriggerTemplate.toJson (template : TriggerTemplate) : Json :=
  .obj
    [("args", template.args), ("module", .str template.plugin),
     ("pool_size", .int template.poolSize)]

/-- The template of a heartbeat with all of its fields. -/
def HeartbeatTemplate.toJson (template : HeartbeatTemplate) : Json :=
  .obj
    [("args", template.args), ("interval", seconds template.interval),
     ("module", .str template.plugin)]

/-- The log options with all of their fields. -/
def LogOptions.toJson (options : LogOptions) : Json :=
  .obj
    [("console", .bool options.console), ("file", options.file.elim .null .str),
     ("level", .str options.level)]

/-- The runtime options with all of their fields. -/
def RuntimeOptions.toJson (options : RuntimeOptions) : Json :=
  .obj
    [("lock_timeout", seconds options.lockTimeout),
     ("log", options.log.toJson),
     ("node_init_timeout", seconds options.nodeInitTimeout),
     ("report_interval", seconds options.reportInterval),
     ("start_timeout", seconds options.startTimeout),
     ("stop_timeout", seconds options.stopTimeout),
     ("trigger_init_timeout", seconds options.triggerInitTimeout)]

/-- A configuration with all of its fields. -/
def PipelineConfig.toJson (config : PipelineConfig) : Json :=
  .obj
    [("HeartBeat", .obj (config.heartbeats.mapValues HeartbeatTemplate.toJson)),
     ("NodeTemplate", .obj (config.nodes.mapValues NodeTemplate.toJson)),
     ("Runtime", config.runtime.toJson),
     ("Streams", .obj (config.streams.mapValues fun members => .arr (members.map .str))),
     ("TriggerTemplate", .obj (config.triggers.mapValues TriggerTemplate.toJson))]

end EventPipeline
