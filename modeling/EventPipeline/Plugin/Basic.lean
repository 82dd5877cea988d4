import EventPipeline.Engine.Counters
import EventPipeline.Engine.Event

/-!
# `EventPipeline.Plugin.Basic`: what a pipeline asks of its plugins

Processors work on events, sources produce them, and heartbeats beat at intervals. The
engine knows a plugin only by its hooks. A hook is called on an instance and on what all
instances share, and changes both. A call that cannot end yet waits: it is made again,
and told so, until it ends; of the calls that wait only the first changes anything.
-/

set_option autoImplicit false

namespace EventPipeline

/-- How a call of a hook ends. -/
inductive Reply (ε α : Type) where
  | returned (value : α)
  | failed (error : ε)
  /-- the hook broke down, with a text or with something else -/
  | panicked (text : Option String)
  /-- the hook waits, at most for the given time -/
  | waiting (limit : Option Duration)

/-- The text that tells about a breakdown. -/
def panicText (text : Option String) : String :=
  text.getD "non-string panic payload"

/-- A call of a hook of an instance of type `ι`: how it ends, the instance and the shared
state after it, and what it logged. -/
structure Call (ι σ ε α : Type) where
  reply : Reply ε α
  plugin : ι
  shared : σ
  log : List Message := []

/-- What a processor decided about an event. -/
inductive Outcome where
  /-- the event goes on as it is -/
  | pass
  /-- the event goes on with another payload -/
  | update (payload : Json)
  /-- the event ends here -/
  | stop (reason : String)

/-- The role of a processor: a transform decides how an event goes on, a sink only takes
notice of it. -/
inductive NodeKind where
  | transform | sink
deriving DecidableEq, Repr

/-- The name of a role. -/
def NodeKind.name : NodeKind → String
  | transform => "transform"
  | sink => "sink"

/-- The hooks of processors. -/
structure ProcessorHooks (ι σ : Type) where
  prepare : (again : Bool) → ι → σ → Call ι σ NodeError Unit
  process : (again : Bool) → Json → ι → σ → Call ι σ NodeError Outcome
  finish : (again : Bool) → ι → σ → Call ι σ NodeError Unit

/-- What a running source does next: it emits an event, or it is exhausted. -/
inductive SourceMove where
  | emit (payload : Json) (continuation : Option Continuation)
  | done

/-- When a running source is asked for its next move. -/
structure Turn where
  /-- how many events it has emitted since it was started -/
  made : Nat := 0
  /-- it was asked before and is waiting -/
  again : Bool := false
  /-- the time that it wanted to wait has passed -/
  elapsed : Bool := false
deriving DecidableEq, Repr

/-- The hooks of sources. A running source is asked for one move after the other. -/
structure SourceHooks (ι σ : Type) where
  prepare : (again : Bool) → ι → σ → Call ι σ NodeError Unit
  advance : Turn → ι → σ → Call ι σ NodeError SourceMove
  halt : (again : Bool) → ι → σ → Call ι σ NodeError Unit
  finish : (again : Bool) → ι → σ → Call ι σ NodeError Unit

/-- What a heartbeat sees when it beats. -/
structure HeartbeatContext where
  name : String
  /-- the counters of the running streams -/
  runtime : RuntimeTable := []
  /-- the streams that were given up and still run -/
  abandoned : List String := []

/-- What a heartbeat asks of the pipeline. -/
inductive HeartbeatRequest where
  | nothing
  /-- to stop all streams -/
  | stop
deriving DecidableEq, Repr

/-- The hooks of heartbeats. -/
structure HeartbeatHooks (ι σ : Type) where
  prepare : (again : Bool) → String → ι → σ → Call ι σ StreamError Unit
  beat : (again : Bool) → HeartbeatContext → ι → σ → Call ι σ StreamError HeartbeatRequest
  finish : (again : Bool) → ι → σ → Call ι σ StreamError Unit

/-- A family of plugins: the types of its instances, what they share, and their hooks. -/
structure Plugins where
  Shared : Type
  Processor : Type
  Source : Type
  Heartbeat : Type
  processor : ProcessorHooks Processor Shared
  source : SourceHooks Source Shared
  heartbeat : HeartbeatHooks Heartbeat Shared

end EventPipeline
