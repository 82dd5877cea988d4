import EventPipeline.Document.Decode
import EventPipeline.Engine.Counters

/-!
# `EventPipeline.Engine.Counters.Table`: counters as data

Counters are written under short names, and read back by `RuntimeTable.ofJson`. The text
of a table names the triggers of a stream before its processors.
-/

set_option autoImplicit false

namespace EventPipeline

/-- The counters of a unit. -/
def UnitStats.toJson (stats : UnitStats) : Json :=
  .obj [("received", .int stats.received), ("finished", .int stats.finished)]

/-- The counters of a node. -/
def NodeStats.toJson (stats : NodeStats) : Json :=
  .obj
    [("recv", .int stats.received), ("emit", .int stats.emitted),
     ("drop", .int stats.dropped), ("failed", .int stats.failed),
     ("units", .obj (stats.units.mapValues UnitStats.toJson))]

/-- The counters of a trigger. -/
def TriggerStats.toJson (stats : TriggerStats) : Json :=
  .obj [("emit", .int stats.emitted)]

/-- The counters of a stream. -/
def StreamStats.toJson (stats : StreamStats) : Json :=
  .obj
    [("trigger", .obj (stats.triggers.mapValues TriggerStats.toJson)),
     ("process", .obj (stats.processors.mapValues NodeStats.toJson))]

/-- The counters of all streams. -/
def RuntimeTable.toJson (table : RuntimeTable) : Json :=
  .obj (table.mapValues StreamStats.toJson)

/-- The text of the counters of all streams. -/
def RuntimeTable.text (table : RuntimeTable) : String :=
  table.toJson.compact

open Document

/-- Reads the counters of a unit. -/
def UnitStats.ofDocument (d : Document) : Decoded UnitStats := do
  let fields ← d.record ["received", "finished"]
  return {
    received := ← required fields "received" count
    finished := ← required fields "finished" count }

/-- Reads the counters of a node. -/
def NodeStats.ofDocument (d : Document) : Decoded NodeStats := do
  let fields ← d.record ["recv", "emit", "drop", "failed", "units"]
  return {
    received := ← required fields "recv" count
    emitted := ← required fields "emit" count
    dropped := ← required fields "drop" count
    failed := ← required fields "failed" count
    units := ← required fields "units" (mapOf UnitStats.ofDocument) }

/-- Reads the counters of a trigger. -/
def TriggerStats.ofDocument (d : Document) : Decoded TriggerStats := do
  let fields ← d.record ["emit"]
  return { emitted := ← required fields "emit" count }

/-- Reads the counters of a stream. -/
def StreamStats.ofDocument (d : Document) : Decoded StreamStats := do
  let fields ← d.record ["trigger", "process"]
  return {
    triggers := ← required fields "trigger" (mapOf TriggerStats.ofDocument)
    processors := ← required fields "process" (mapOf NodeStats.ofDocument) }

/-- Reads the counters of all streams. -/
def RuntimeTable.ofJson (j : Json) : Decoded RuntimeTable :=
  mapOf StreamStats.ofDocument (Document.ofJson j)

end EventPipeline
