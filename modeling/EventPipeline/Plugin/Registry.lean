import EventPipeline.Config.Pipeline
import EventPipeline.Plugin.Basic

/-!
# `EventPipeline.Plugin.Registry`: plugins by name

A configuration names plugins; a registry has the factories that make their instances.
The triggers, the processors and the heartbeats of a registry have names of their own.
-/

set_option autoImplicit false

namespace EventPipeline

/-- What a factory is told about the instance that it makes. -/
structure PluginContext where
  /-- the name of the node, after the name of its stream and a dot -/
  name : String
  args : Json

/-- The end of making an instance, and the shared state after it. -/
structure Made (σ ε α : Type) where
  reply : Reply ε α
  shared : σ

/-- Goes on with what was made, if it was. -/
def Made.andThen {σ ε α β : Type} (made : Made σ ε α) (next : α → σ → Made σ ε β) :
    Made σ ε β :=
  match made.reply with
  | .returned value => next value made.shared
  | .failed error => { reply := .failed error, shared := made.shared }
  | .panicked text => { reply := .panicked text, shared := made.shared }
  | .waiting limit => { reply := .waiting limit, shared := made.shared }

/-- Makes instances of one processor. -/
structure ProcessorFactory (P : Plugins) where
  kind : NodeKind
  make : PluginContext → P.Shared → Made P.Shared NodeError P.Processor

/-- Makes instances of one source. -/
structure SourceFactory (P : Plugins) where
  make : PluginContext → P.Shared → Made P.Shared NodeError P.Source

/-- Makes instances of one heartbeat. -/
structure HeartbeatFactory (P : Plugins) where
  make : PluginContext → P.Shared → Made P.Shared ConfigError P.Heartbeat

/-- Factories by name. -/
structure Registry (P : Plugins) where
  triggers : Fields (SourceFactory P) := []
  processors : Fields (ProcessorFactory P) := []
  heartbeats : Fields (HeartbeatFactory P) := []

namespace Registry

variable {P : Plugins}

/-- Adds a factory under a name that is not taken. -/
def insert? {α : Type} (factories : Fields α) (kind name : String) (factory : α) :
    Except ConfigError (Fields α) :=
  if factories.contains name then .error (.duplicatePlugin kind name)
  else .ok (factories.put name factory)

/-- The factory of a name. -/
def find {α : Type} (factories : Fields α) (kind name : String) : Except ConfigError α :=
  (factories.get? name).elim (.error (.unknownPlugin kind name)) .ok

/-- Registers a trigger. -/
def registerTrigger (registry : Registry P) (name : String) (factory : SourceFactory P) :
    Except ConfigError (Registry P) :=
  (insert? registry.triggers "trigger" name factory).map fun triggers =>
    { registry with triggers }

/-- Registers a processor. -/
def registerProcessor (registry : Registry P) (name : String)
    (factory : ProcessorFactory P) : Except ConfigError (Registry P) :=
  (insert? registry.processors "processor" name factory).map fun processors =>
    { registry with processors }

/-- Registers a heartbeat. -/
def registerHeartbeat (registry : Registry P) (name : String)
    (factory : HeartbeatFactory P) : Except ConfigError (Registry P) :=
  (insert? registry.heartbeats "heartbeat" name factory).map fun heartbeats =>
    { registry with heartbeats }

/-- The trigger of a name. -/
def trigger (registry : Registry P) (name : String) : Except ConfigError (SourceFactory P) :=
  find registry.triggers "trigger" name

/-- The processor of a name. -/
def processor (registry : Registry P) (name : String) :
    Except ConfigError (ProcessorFactory P) :=
  find registry.processors "processor" name

/-- The heartbeat of a name. -/
def heartbeat (registry : Registry P) (name : String) :
    Except ConfigError (HeartbeatFactory P) :=
  find registry.heartbeats "heartbeat" name

/-- The plugins that a configuration names and the registry does not have: first those of
triggers, then those of nodes and of heartbeats. -/
def missing (registry : Registry P) (config : PipelineConfig) : List ConfigError :=
  (config.triggers.filterMap fun template =>
    errorOf (registry.trigger template.2.plugin))
  ++ (config.nodes.filterMap fun template =>
    errorOf (registry.processor template.2.plugin))
  ++ config.heartbeats.filterMap fun template =>
    errorOf (registry.heartbeat template.2.plugin)
where
  /-- Why there is no value. -/
  errorOf {α : Type} : Except ConfigError α → Option ConfigError
    | .ok _ => none
    | .error e => some e

/-- Accepts a configuration whose plugins are all registered. -/
def check (registry : Registry P) (config : PipelineConfig) : Except ConfigError Unit :=
  if (registry.missing config).isEmpty then .ok ()
  else .error (.validation (registry.missing config))

/-- The names in a registry. -/
def text (registry : Registry P) : String :=
  String.join
    ["Registry \x7b triggers: ", Text.quotedList registry.triggers.names,
     ", processors: ", Text.quotedList registry.processors.names,
     ", heartbeats: ", Text.quotedList registry.heartbeats.names, " \x7d"]

end Registry
end EventPipeline
