import EventPipeline.Config.Pipeline
import EventPipeline.Engine.Filter

/-!
# `EventPipeline.Config.Validation`: which configurations can be used

A valid configuration has only streams with a layout, and templates whose values make
sense. All problems are reported, not only the first one.
-/

set_option autoImplicit false

namespace EventPipeline

/-- What is wrong with the template of a node. -/
def NodeTemplate.problems (name : String) (template : NodeTemplate) : List ConfigError :=
  (if template.mode = .process then [.unsupportedMode name template.mode.name] else [])
  ++ (if template.poolSize = 0 then
      [.invalidTemplate name "pool_size must be at least 1"] else [])
  ++ (if template.pollTimeout > 0.0 then []
      else [.invalidTemplate name "poll_timeout must be positive"])
  ++ match Filter.compile template.filter with
    | .ok _ => []
    | .error source => [.invalidFilter name source]

/-- What is wrong with the template of a trigger. -/
def TriggerTemplate.problems (name : String) (template : TriggerTemplate) :
    List ConfigError :=
  if template.poolSize = 0 then [.invalidTemplate name "pool_size must be at least 1"] else []

/-- What is wrong with the template of a heartbeat. -/
def HeartbeatTemplate.problems (name : String) (template : HeartbeatTemplate) :
    List ConfigError :=
  if template.interval > 0.0 then []
  else [.invalidTemplate name "heartbeat interval must be positive"]

namespace PipelineConfig

/-- Everything that is wrong with a configuration: first its streams, then its nodes,
its triggers and its heartbeats, each in the order of their names. -/
def problems (config : PipelineConfig) : List ConfigError :=
  (config.streams.flatMap fun stream =>
    match config.streamLayout stream.1 with
    | .ok _ => []
    | .error e => [e])
  ++ (config.nodes.flatMap fun node => node.2.problems node.1)
  ++ (config.triggers.flatMap fun trigger => trigger.2.problems trigger.1)
  ++ config.heartbeats.flatMap fun heartbeat => heartbeat.2.problems heartbeat.1

/-- Accepts a configuration without problems. -/
def validate (config : PipelineConfig) : Except ConfigError Unit :=
  if config.problems.isEmpty then .ok () else .error (.validation config.problems)

end PipelineConfig
end EventPipeline
