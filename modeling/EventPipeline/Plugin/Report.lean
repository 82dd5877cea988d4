import EventPipeline.Engine.Counters.Table
import EventPipeline.Plugin.Registry

/-!
# `EventPipeline.Plugin.Report`: plugins that write to the log

The sink logs the payload of every event, and the heartbeat logs the counters of all
running streams.
-/

set_option autoImplicit false

namespace EventPipeline

/-- A sink that logs payloads under the name of its node. -/
structure LogSink where
  node : String

namespace LogSink

/-- The name of the sink. -/
def name : String := "log"

/-- The hooks of the sink. -/
def hooks (σ : Type) : ProcessorHooks LogSink σ where
  prepare _ plugin shared := { reply := .returned (), plugin, shared }
  process _ payload plugin shared :=
    { reply := .returned .pass, plugin, shared, log := [.payloadLogged plugin.node payload] }
  finish _ plugin shared := { reply := .returned (), plugin, shared }

end LogSink

/-- A heartbeat that logs the counters of all running streams. -/
structure CounterLog where

namespace CounterLog

/-- The name of the heartbeat. -/
def name : String := "logger"

/-- What a beat logs. -/
def report (context : HeartbeatContext) : Message :=
  .runtimeReported context.name context.runtime.length context.abandoned
    context.runtime.text

/-- The hooks of the heartbeat. -/
def hooks (σ : Type) : HeartbeatHooks CounterLog σ where
  prepare _ _ plugin shared := { reply := .returned (), plugin, shared }
  beat _ context plugin shared :=
    { reply := .returned .nothing, plugin, shared, log := [report context] }
  finish _ plugin shared := { reply := .returned (), plugin, shared }

end CounterLog
end EventPipeline
