import EventPipeline.Config.Format
import EventPipeline.Config.Validation
import EventPipeline.Log.Filter
import EventPipeline.Plugin.Builtin

/-!
# `EventPipeline.CommandLine`: what the program is asked to do

The program is given a configuration and either checks or runs it. Everything that can go
wrong before streams run is told as a `Failure`, with what it was that failed and with the
causes below it.
-/

set_option autoImplicit false

namespace EventPipeline

/-- What the program is asked to do. -/
inductive Command where
  /-- check the configuration in a file -/
  | check (path : String)
  /-- run the configuration in a file -/
  | run (path : String)
deriving DecidableEq, Repr

namespace Command

/-- Reads the arguments of the program. -/
def ofArgs : List String → Option Command
  | ["--check", path] => some (.check path)
  | [path] => some (.run path)
  | _ => none

/-- How the program is used. -/
def usage (program : String) : String :=
  String.join
    [s!"Usage: {program} [--check] <pipeline.yaml|.toml|.json>\n",
     "       --check  validate the pipeline and exit"]

/-- The file that a command is about. -/
def path : Command → String
  | check path | run path => path

end Command

/-- What failed, and the causes below it. -/
structure Failure where
  what : String
  causes : List String := []

namespace Failure

/-- What failed is an error of a configuration. -/
def ofConfig (e : ConfigError) : Failure :=
  { what := e.message, causes := e.causes }

/-- What failed is an error of streams. -/
def ofStream (e : StreamError) : Failure :=
  { what := e.message, causes := e.causes }

/-- Tells what was done when it failed. -/
def within (what : String) (failure : Failure) : Failure :=
  { what, causes := failure.what :: failure.causes }

/-- A number, right-aligned. -/
def alignedNumber (n : Nat) : String :=
  let digits := toString n
  String.ofList (List.replicate (5 - digits.length) ' ') ++ digits

/-- A cause with everything after its first line indented. -/
def causeText (first rest text : String) : String :=
  first ++ ("\n" ++ rest).intercalate (text.splitOn "\n")

/-- The text of a failure. Several causes are numbered. -/
def text (failure : Failure) : String :=
  "Error: " ++ failure.what ++
    match failure.causes with
    | [] => ""
    | [cause] => "\n\nCaused by:\n" ++ causeText "    " "    " cause
    | causes =>
      "\n\nCaused by:" ++ String.join (causes.zipIdx.map fun (cause, n) =>
        "\n" ++ causeText (alignedNumber n ++ ": ") "       " cause)

end Failure

/-- Reads a configuration and checks it, also against the plugins that there are. -/
def PipelineConfig.accept {P : Plugins} (registry : Registry P) (path : String)
    (contents : Except String ByteArray) : Except Failure PipelineConfig := do
  let config ← ((load path contents).bind fun config =>
      config.validate.map fun _ => config).mapError fun e =>
    (Failure.ofConfig e).within s!"loading pipeline {path}"
  (registry.check config).mapError fun e =>
    (Failure.ofConfig e).within s!"resolving plugins of {path}"
  return config

/-- What a check says about a configuration that was accepted. -/
def PipelineConfig.summary (config : PipelineConfig) (path : String) : String :=
  s!"{path}: {config.streams.length} streams, {config.nodes.length} nodes, "
    ++ s!"{config.triggers.length} triggers, {config.heartbeats.length} heartbeats"

/-- Where lines are logged, and which. -/
structure LogOutput where
  filter : LogFilter
  console : Bool
  file : Option String

/-- Sets up the log; it is written to a file only if the path names one. -/
def LogOptions.output (options : LogOptions) : Except ConfigError LogOutput := do
  let filter ← LogFilter.ofLevel options.level
  match options.file with
  | some path =>
    if (ConfigFormat.fileName? path).isNone then
      throw (.logging s!"{path} is not a file path")
  | none => pure ()
  return { filter, console := options.console, file := options.file }

/-- What the program does after its arguments and its configuration were read. -/
inductive Launched where
  /-- it prints a line and ends -/
  | checked (summary : String)
  /-- it runs -/
  | ready (config : PipelineConfig) (log : LogOutput)

/-- Reads the arguments and the configuration of the program. -/
def launch (args : List String) (read : String → Except String ByteArray) :
    Except Failure Launched :=
  match Command.ofArgs args with
  | none => .error { what := Command.usage "the-rivulet" }
  | some command => do
    let config ← PipelineConfig.accept Builtin.standard command.path (read command.path)
    match command with
    | .check path => return .checked (config.summary path)
    | .run _ =>
      let log ← config.runtime.log.output.mapError Failure.ofConfig
      return .ready config log

end EventPipeline
