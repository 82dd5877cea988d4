import EventPipeline.CommandLine
import EventPipeline.Engine.Schedule

/-!
# `EventPipeline.CommandLine.Session`: a run of the program from its start to its end

The program runs all streams of a configuration until it is interrupted, and then stops
them. A session tells what it logs on the way if it is interrupted at a given moment.
-/

set_option autoImplicit false

namespace EventPipeline

/-- A world in which the streams of a configuration run on the main thread, with the
built-in plugins. -/
def PipelineConfig.world (config : PipelineConfig) : World Builtin.plugins :=
  { shared := ()
    supervisor := { config, registry := Builtin.standard }
    threads := [{ agenda := [.control .run] }] }

/-- A run of the program. -/
structure Session where
  /-- it was interrupted because the moment had come, and not for lack of patience -/
  reached : Bool
  failure : Option StreamError
  records : List LogRecord

namespace Session

/-- What a world has logged since the program was started. -/
def recordsOf (w : World Builtin.plugins) : List LogRecord :=
  .starting :: w.log.map .ofMessage

/-- Runs the program until what it has logged satisfies the goal, or for some time if it
never does, then interrupts it and waits for its end. -/
def of (config : PipelineConfig) (goal : List LogRecord → Bool) (patience : Duration) :
    Session :=
  let (reached, w) := config.world.waitFor (fun w => goal (recordsOf w)) patience
  let w := w.requestStop.joinThread 0
  { reached
    failure := match w.answerOf 0 with
      | .failed e => some e
      | _ => none
    records := recordsOf w ++ [.interrupted] }

end Session
end EventPipeline
