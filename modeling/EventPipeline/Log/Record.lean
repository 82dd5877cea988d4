import EventPipeline.Message

/-!
# `EventPipeline.Log.Record`: the lines of a log

Besides its messages the program logs when it starts and when it is interrupted. Every
line has a target, which tells the part of the program that it comes from.
-/

set_option autoImplicit false

namespace EventPipeline

/-- A line of the log. -/
structure LogRecord where
  target : String
  level : Level
  text : String
  /-- the names of its fields -/
  fields : List String

/-- The target of the program. -/
def programTarget : String := "the_rivulet"

/-- The target of a message: that of the program with the part that the message speaks
of. -/
def Message.target (m : Message) : String :=
  let part := match m with
    | .ruleSetRegistered .. | .gotoFollowed .. => "ruler"
    | .streamStarted .. | .streamStopped .. | .streamStartFailed .. | .streamAbandoned ..
    | .streamTaskFailed .. | .heartbeatFailed .. | .heartbeatCancelled ..
    | .controllerStarted .. | .controllerStopped .. | .runtimeReported .. => "stream"
    | _ => "node"
  s!"{programTarget}::observability::messages::{part}"

namespace LogRecord

/-- The line of a message. -/
def ofMessage (m : Message) : LogRecord :=
  { target := m.target, level := m.level, text := m.text,
    fields := "message" :: m.fields.map (·.1) }

/-- The line that tells that the program starts. -/
def starting : LogRecord :=
  { target := programTarget, level := .info, text := "starting the-rivulet",
    fields := ["message", "config"] }

/-- The line that tells that the program was interrupted. -/
def interrupted : LogRecord :=
  { target := programTarget, level := .info,
    text := "interrupt received, stopping streams", fields := ["message"] }

/-- A line as it is shown: its level and its text. -/
def line (r : LogRecord) : String :=
  r.level.name ++ " " ++ r.text

end LogRecord
end EventPipeline
