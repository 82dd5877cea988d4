import EventPipeline.CommandLine.Session

/-!
# `EventPipeline.Main`: the program

Reads its arguments and a configuration, and then lets the world of the configuration take
its steps while time passes. What the world logs is written as it comes.
-/

set_option autoImplicit false

namespace EventPipeline

/-- Why a file could not be read. The numbers of errors may come negated. -/
def readError : IO.Error → String
  | .noFileOrDirectory _ code _ => s!"No such file or directory (os error {number code})"
  | .permissionDenied _ code _ => s!"Permission denied (os error {number code})"
  | .inappropriateType _ code _ => s!"Is a directory (os error {number code})"
  | e => toString e
where
  /-- The number without its sign. -/
  number (code : UInt32) : UInt32 :=
    if code < 0x80000000 then code else 0 - code

/-- Reads the file that the arguments name. -/
def readFile (args : List String) : IO (Except String ByteArray) := do
  match Command.ofArgs args with
  | none => return .error ""
  | some command =>
    match ← (IO.FS.readBinFile command.path).toBaseIO with
    | .ok bytes => return .ok bytes
    | .error e => return .error (readError e)

/-- Writes the lines that a filter admits. -/
def writeLines (log : LogOutput) (file : Option IO.FS.Handle) (records : List LogRecord) :
    IO Unit := do
  let console ← IO.getStdout
  for record in records.filter log.filter.admits do
    if log.console then
      console.putStrLn record.line
      console.flush
    match file with
    | some handle =>
      handle.putStrLn record.line
      handle.flush
    | none => pure ()

/-- Lets a world take its steps while time passes, until its main thread has ended. -/
partial def serve (log : LogOutput) (file : Option IO.FS.Handle) (began : Nat)
    (w : World Builtin.plugins) : IO Answer := do
  let w := { w with clock := (← IO.monoNanosNow) - began }.calmDown
  writeLines log file (w.log.map .ofMessage)
  let w := { w with log := [] }
  if w.hasEnded 0 then return w.answerOf 0
  let wait := w.nextDeadline.elim World.shortestPause (· - w.clock)
  IO.sleep (max 1 (min wait (10 ^ 9) / 10 ^ 6)).toUInt32
  serve log file began w

/-- Runs a configuration, and tells whether that ended well. -/
def runPipeline (config : PipelineConfig) (log : LogOutput) : IO UInt32 := do
  let file ← log.file.mapM fun path => IO.FS.Handle.mk path .append
  writeLines log file [.starting]
  match ← serve log file (← IO.monoNanosNow) config.world with
  | .failed e =>
    IO.eprintln (Failure.ofStream e).text
    return 1
  | _ => return 0

end EventPipeline

open EventPipeline in
/-- Checks or runs the configuration that the arguments name. -/
def main (args : List String) : IO UInt32 := do
  let contents ← readFile args
  match launch args fun _ => contents with
  | .error failure =>
    IO.eprintln failure.text
    return 1
  | .ok (.checked summary) =>
    IO.println summary
    return 0
  | .ok (.ready config log) => runPipeline config log
