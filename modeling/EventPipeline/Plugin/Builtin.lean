import EventPipeline.Plugin.ChangeCase
import EventPipeline.Plugin.Choice
import EventPipeline.Plugin.Counter
import EventPipeline.Plugin.Report

/-!
# `EventPipeline.Plugin.Builtin`: the plugins that every pipeline has

The built-in plugins form a family of their own, and any family that has a place for them
gets them by `Builtin.registry`.
-/

set_option autoImplicit false

namespace EventPipeline.Builtin

/-- A built-in processor. -/
abbrev Processor := ChangeCase ⊕ LogSink

/-- The hooks of the built-in processors. -/
def processorHooks (σ : Type) : ProcessorHooks Processor σ :=
  (ChangeCase.hooks σ).orElse (LogSink.hooks σ)

/-- Makes an instance from its arguments. -/
def ofArgs {σ α : Type} (decode : Json → Document.Decoded α) (context : PluginContext)
    (shared : σ) : Made σ NodeError α :=
  match decode context.args with
  | .ok instance_ => { reply := .returned instance_, shared }
  | .error reason => { reply := .failed (.invalidArgs context.name reason), shared }

/-- The built-in plugins, for a family that has a place for each. -/
def registry (P : Plugins) (processor : Processor → P.Processor)
    (source : Counter → P.Source) (heartbeat : CounterLog → P.Heartbeat) : Registry P where
  triggers :=
    [(Counter.name, { make := ofArgs fun args => (Counter.ofArgs args).map source })]
  processors :=
    [(ChangeCase.name,
        { kind := .transform
          make := ofArgs fun args => (ChangeCase.ofArgs args).map (processor ∘ .inl) }),
     (LogSink.name,
        { kind := .sink
          make := fun context shared =>
            { reply := .returned (processor (.inr { node := context.name })), shared } })]
  heartbeats :=
    [(CounterLog.name,
        { make := fun _ shared => { reply := .returned (heartbeat {}), shared } })]

/-- The family of the built-in plugins alone. -/
def plugins : Plugins where
  Shared := Unit
  Processor := Processor
  Source := Counter
  Heartbeat := CounterLog
  processor := processorHooks Unit
  source := Counter.hooks Unit
  heartbeat := CounterLog.hooks Unit

/-- The registry of the built-in plugins alone. -/
def standard : Registry plugins :=
  registry plugins id id id

end EventPipeline.Builtin
