import EventPipeline.Document.Decode
import EventPipeline.Plugin.Registry

/-!
# `EventPipeline.Plugin.Counter`: a source of ascending numbers

The source emits one number after the other, with a pause before each, until it is asked
to stop or has emitted as many as its limit says. A request to stop is heard once, also
by a source that is started only later.
-/

set_option autoImplicit false

namespace EventPipeline

/-- A source of numbers. -/
structure Counter where
  /-- milliseconds before every number -/
  interval : Nat := 1000
  limit : Option Nat := none
  start : Int := 0
  /-- it was asked to stop and has not heard it yet -/
  stopRequested : Bool := false

namespace Counter

/-- The name of the source. -/
def name : String := "counter"

/-- Reads the arguments of the source. -/
def ofArgs (args : Json) : Document.Decoded Counter := do
  let fields ← (Document.ofJson args).record ["interval_ms", "limit", "start"]
  return {
    interval := ← Document.fieldD fields "interval_ms" 1000 Document.count
    limit := ← Document.fieldD fields "limit" none (Document.optional Document.count)
    start := ← Document.fieldD fields "start" 0 Document.whole }

/-- The pause before a number. -/
def pause (plugin : Counter) : Duration :=
  { nanos := plugin.interval * 10 ^ 6 }

/-- The number that the source emits after so many others; beyond 64 bits the numbers do
not grow any more. -/
def value (plugin : Counter) (made : Nat) : Int :=
  min (plugin.start + made) (2 ^ 63 - 1)

/-- The next move of the source: it ends at its limit and on request, and otherwise waits
for its pause to pass and emits. -/
def advance (turn : Turn) (plugin : Counter) : Reply NodeError SourceMove × Counter :=
  if plugin.limit.any (· ≤ turn.made) then (.returned .done, plugin)
  else if plugin.stopRequested then
    (.returned .done, { plugin with stopRequested := false })
  else if turn.elapsed then (.returned (.emit (.int (plugin.value turn.made)) none), plugin)
  else (.waiting (some plugin.pause), plugin)

/-- The hooks of the source. -/
def hooks (σ : Type) : SourceHooks Counter σ where
  prepare _ plugin shared := { reply := .returned (), plugin, shared }
  advance turn plugin shared :=
    let (reply, plugin) := plugin.advance turn
    { reply, plugin, shared }
  halt _ plugin shared :=
    { reply := .returned (), plugin := { plugin with stopRequested := true }, shared }
  finish _ plugin shared := { reply := .returned (), plugin, shared }

end Counter
end EventPipeline
