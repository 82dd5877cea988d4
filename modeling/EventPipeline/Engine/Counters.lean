import EventPipeline.Data.Fields
import EventPipeline.Number.Instances

/-!
# `EventPipeline.Engine.Counters`: what nodes and triggers count
-/

set_option autoImplicit false

namespace EventPipeline

/-- Events that a unit took and events that it is done with. -/
structure UnitStats where
  received : Nat := 0
  finished : Nat := 0
deriving DecidableEq, Repr

/-- Events that the unit has taken and is not done with. -/
def UnitStats.inFlight (stats : UnitStats) : Nat :=
  stats.received - stats.finished

/-- What a node has counted: events that reached it, that it passed on, that its filter
dropped and that failed in it, and the counters of its units by name. -/
structure NodeStats where
  received : Nat := 0
  emitted : Nat := 0
  dropped : Nat := 0
  failed : Nat := 0
  units : Fields UnitStats := []

/-- Events in flight in all units of a node. -/
def NodeStats.inFlight (stats : NodeStats) : Nat :=
  (stats.units.map fun unit => unit.2.inFlight).sum

/-- Events that all units of a node are done with. -/
def NodeStats.finished (stats : NodeStats) : Nat :=
  (stats.units.map fun unit => unit.2.finished).sum

/-- What a trigger has counted. -/
structure TriggerStats where
  emitted : Nat := 0
deriving DecidableEq, Repr

/-- What the triggers and processors of a stream have counted, by name. -/
structure StreamStats where
  triggers : Fields TriggerStats := []
  processors : Fields NodeStats := []

/-- The counters of all running streams, by name. -/
abbrev RuntimeTable := Fields StreamStats

end EventPipeline
