import EventPipeline.Plugin.Builtin

/-!
# `EventPipeline.Plugin.Rehearsal`: plugins that follow a script

A pipeline is rehearsed with plugins that do what their arguments and their payloads tell
them: fail, break down, or wait for a gate that all of them share. They keep a journal of
the hooks that are called.
-/

set_option autoImplicit false

namespace EventPipeline.Rehearsal

open Document

/-- What the scripted plugins of a pipeline share. -/
structure Stage where
  /-- instances of processors with the payloads that they were given -/
  processed : List (Nat × Json) := []
  journal : List String := []
  /-- all that was ever put down in the journal -/
  history : List String := []
  /-- the number of processors that were made -/
  instances : Nat := 0
  /-- plugins wait no longer -/
  released : Bool := false
  /-- how many times a source has emitted all that it had -/
  exhausted : Nat := 0
  /-- how many times a heartbeat beat -/
  beats : Nat := 0

namespace Stage

/-- Puts an entry down in the journal. -/
def write (stage : Stage) (entry : String) : Stage :=
  { stage with journal := stage.journal ++ [entry], history := entry :: stage.history }

/-- Puts down that a hook of a labelled plugin was called. -/
def enter (stage : Stage) (hook label : String) : Stage :=
  if label.isEmpty then stage else stage.write s!"{hook}:{label}"

/-- Lets all plugins that wait go on. -/
def release (stage : Stage) : Stage :=
  { stage with released := true }

/-- The end of a call that lasts until plugins wait no longer. -/
def rest {ε α : Type} (stage : Stage) (value : α) : Reply ε α :=
  if stage.released then .returned value else .waiting none

end Stage

/-- A processor that follows a script. -/
structure Actor where
  label : String := ""
  factory : String := ""
  init : String := ""
  finish : String := ""
  /-- it puts its number and the number of the call into the payload -/
  tag : Bool := false
  /-- every call of which the number is a multiple of this one fails -/
  failEvery : Nat := 0
  number : Nat := 0
  calls : Nat := 0

namespace Actor

/-- Reads the script of a processor. -/
def ofArgs (args : Json) : Decoded Actor := do
  let fields ← (Document.ofJson args).record
    ["label", "factory", "init", "finish", "tag", "fail_every"]
  return {
    label := ← fieldD fields "label" "" text
    factory := ← fieldD fields "factory" "" text
    init := ← fieldD fields "init" "" text
    finish := ← fieldD fields "finish" "" text
    tag := ← fieldD fields "tag" false flag
    failEvery := ← fieldD fields "fail_every" 0 count }

/-- Makes the next processor, unless its script refuses. -/
def make (context : PluginContext) (stage : Stage) : Made Stage NodeError Actor :=
  (Builtin.ofArgs ofArgs context stage).andThen fun actor stage =>
    match actor.factory with
    | "fail" => { reply := .failed (.processing "factory refused"), shared := stage }
    | "panic" => { reply := .panicked (some "factory panicked"), shared := stage }
    | _ =>
      let number := stage.instances + 1
      { reply := .returned { actor with number }, shared := { stage with instances := number } }

/-- Becomes ready as the script says. -/
def prepare (again : Bool) (actor : Actor) (stage : Stage) : Call Actor Stage NodeError Unit :=
  let shared := if again then stage else stage.enter "initialize" actor.label
  let reply : Reply NodeError Unit :=
    match actor.init with
    | "fail" => .failed (.processing "init refused")
    | "fail_second" =>
      if actor.number = 2 then .failed (.processing "second init refused") else .returned ()
    | "panic" => .panicked (some "init panicked")
    | "block" => stage.rest ()
    | _ => .returned ()
  { reply, plugin := actor, shared }

/-- A text that a payload gives, or another one. -/
def textOf (payload : Json) (name default : String) : String :=
  match payload.field? name with
  | some (.str s) => s
  | _ => default

/-- The payload with the numbers of the processor and of the call. -/
def tagged (actor : Actor) (payload : Json) : Json :=
  .obj [("call", .int actor.calls), ("payload", payload), ("unit", .int actor.number)]

/-- What a payload tells a processor to do. -/
def follow (payload : Json) (stage : Stage) : Reply NodeError Outcome :=
  match textOf payload "do" "" with
  | "update" => .returned (.update ((payload.field? "to").getD .null))
  | "stop" => .returned (.stop (textOf payload "reason" ""))
  | "fail" => .failed (.processing (textOf payload "reason" "scripted"))
  | "panic" => .panicked (some "scripted panic")
  | "panic_owned" => .panicked (some (textOf payload "reason" "owned panic"))
  | "panic_other" => .panicked none
  | "block" => stage.rest .pass
  | _ => .returned .pass

/-- Processes a payload as the script says, and else as the payload says. -/
def process (again : Bool) (payload : Json) (actor : Actor) (stage : Stage) :
    Call Actor Stage NodeError Outcome :=
  if again then { reply := follow payload stage, plugin := actor, shared := stage }
  else
    let plugin := { actor with calls := actor.calls + 1 }
    let shared := { stage with processed := stage.processed ++ [(actor.number, payload)] }
    if plugin.failEvery > 0 && plugin.calls % plugin.failEvery = 0 then
      { reply := .failed (.processing s!"call {plugin.calls} failed"), plugin, shared }
    else if plugin.tag then
      { reply := .returned (.update (plugin.tagged payload)), plugin, shared }
    else
      let shared :=
        if textOf payload "do" "" = "block" then shared.enter "blocked" plugin.label else shared
      { reply := follow payload shared, plugin, shared }

/-- Finishes as the script says. -/
def finishUp (actor : Actor) (stage : Stage) : Call Actor Stage NodeError Unit :=
  { reply := if actor.finish = "panic" then .panicked (some "finish panicked") else .returned ()
    plugin := actor
    shared := stage.enter "finish" actor.label }

/-- The hooks of a processor. -/
def hooks : ProcessorHooks Actor Stage where
  prepare := prepare
  process := process
  finish _ := finishUp

end Actor

/-- A source that emits what its script lists. -/
structure Reciter where
  label : String := ""
  payloads : List Json := []
  fate : Option Continuation := none
  init : String := ""
  start : String := ""
  /-- at its end it waits until it is asked to stop -/
  hold : Bool := true
  /-- it was asked to stop -/
  stopped : Bool := false

namespace Reciter

/-- How the fate of an event is heard, by name. -/
def continuation (fate : String) : Option Continuation :=
  match fate with
  | "record" => some .recorded
  | "default" => some .logged
  | _ => none

/-- Reads the script of a source. -/
def ofArgs (args : Json) : Decoded Reciter := do
  let fields ← (Document.ofJson args).record
    ["label", "payloads", "fate", "init", "start", "hold"]
  return {
    label := ← fieldD fields "label" "" text
    payloads := ← fieldD fields "payloads" [] (listOf data)
    fate := continuation (← fieldD fields "fate" "" text)
    init := ← fieldD fields "init" "" text
    start := ← fieldD fields "start" "" text
    hold := ← fieldD fields "hold" true flag }

/-- Becomes ready as the script says. -/
def prepare (again : Bool) (source : Reciter) (stage : Stage) :
    Call Reciter Stage NodeError Unit :=
  let shared := if again then stage else stage.enter "initialize" source.label
  let reply : Reply NodeError Unit :=
    match source.init with
    | "fail" => .failed (.processing "source refused")
    | "panic" => .panicked (some "source panicked")
    | "block" => stage.rest ()
    | _ => .returned ()
  { reply, plugin := { source with stopped := again && source.stopped }, shared }

/-- What a source does after its last payload. -/
def conclude (source : Reciter) : Reply NodeError SourceMove :=
  match source.start with
  | "fail" => .failed (.processing "source broke")
  | "panic" => .panicked (some "source panicked")
  | _ => if source.hold && !source.stopped then .waiting none else .returned .done

/-- Emits one payload after the other, and then ends as the script says. -/
def advance (turn : Turn) (source : Reciter) (stage : Stage) :
    Call Reciter Stage NodeError SourceMove :=
  match source.payloads[turn.made]? with
  | some payload =>
    { reply := .returned (.emit payload source.fate), plugin := source, shared := stage }
  | none =>
    { reply := source.conclude
      plugin := source
      shared := if turn.again then stage else { stage with exhausted := stage.exhausted + 1 } }

/-- The hooks of a source. -/
def hooks : SourceHooks Reciter Stage where
  prepare := prepare
  advance := advance
  halt _ source stage :=
    { reply := .returned (), plugin := { source with stopped := true }
      shared := stage.enter "stop" source.label }
  finish _ source stage :=
    { reply := .returned (), plugin := source
      shared := if source.hold then stage.enter "finish" source.label else stage }

end Reciter

/-- A heartbeat that follows a script. -/
structure Beater where
  init : String := ""
  beat : String := ""
  factory : String := ""
  beats : Nat := 0

namespace Beater

/-- Reads the script of a heartbeat. -/
def ofArgs (args : Json) : Decoded Beater := do
  let fields ← (Document.ofJson args).record ["init", "beat", "factory"]
  return {
    init := ← fieldD fields "init" "" text
    beat := ← fieldD fields "beat" "" text
    factory := ← fieldD fields "factory" "" text }

/-- Makes a heartbeat, unless its script refuses. Arguments that cannot be read do not
count. -/
def make (context : PluginContext) (stage : Stage) : Made Stage ConfigError Beater :=
  let beater := (ofArgs context.args).toOption.getD {}
  if beater.factory = "fail" then
    { reply := .failed (.invalidArgs "heartbeat" context.name "refused"), shared := stage }
  else { reply := .returned beater, shared := stage }

/-- Becomes ready as the script says. -/
def prepare (name : String) (beater : Beater) (stage : Stage) :
    Call Beater Stage StreamError Unit :=
  { reply :=
      if beater.init = "fail" then .failed (.heartbeat name "no backend") else .returned ()
    plugin := beater
    shared := stage.write s!"initialize:{name}" }

/-- Beats as the script says. -/
def strike (context : HeartbeatContext) (beater : Beater) (stage : Stage) :
    Call Beater Stage StreamError HeartbeatRequest :=
  let plugin := { beater with beats := beater.beats + 1 }
  let reply : Reply StreamError HeartbeatRequest :=
    match beater.beat with
    | "fail" => .failed (.heartbeat context.name "beat refused")
    | "fail_even" =>
      if plugin.beats % 2 = 0 then .failed (.heartbeat context.name "even beat")
      else .returned .nothing
    | "stop" => .returned .stop
    | _ => .returned .nothing
  let stage := { stage with beats := stage.beats + 1 }
  { reply, plugin
    shared := if plugin.beats = 1 then stage.write s!"beat:{context.name}" else stage }

/-- The hooks of a heartbeat. -/
def hooks : HeartbeatHooks Beater Stage where
  prepare _ := prepare
  beat _ := strike
  finish _ beater stage :=
    { reply := .returned (), plugin := beater, shared := stage.write "finish" }

end Beater

/-- The built-in plugins and the scripted ones. -/
def plugins : Plugins where
  Shared := Stage
  Processor := Builtin.Processor ⊕ Actor
  Source := Counter ⊕ Reciter
  Heartbeat := CounterLog ⊕ Beater
  processor := (Builtin.processorHooks Stage).orElse Actor.hooks
  source := (Counter.hooks Stage).orElse Reciter.hooks
  heartbeat := (CounterLog.hooks Stage).orElse Beater.hooks

/-- The registry of the built-in plugins, in the family of the scripted ones. -/
def standard : Registry plugins :=
  Builtin.registry plugins .inl .inl .inl

/-- The factory of scripted processors of a role. -/
def processorFactory (kind : NodeKind) : ProcessorFactory plugins where
  kind := kind
  make context stage :=
    (Actor.make context stage).andThen fun actor shared =>
      { reply := .returned (.inr actor), shared }

/-- The factory of scripted sources. -/
def sourceFactory : SourceFactory plugins where
  make := Builtin.ofArgs fun args => (Reciter.ofArgs args).map .inr

/-- The factory of scripted heartbeats. -/
def heartbeatFactory : HeartbeatFactory plugins where
  make context stage :=
    (Beater.make context stage).andThen fun beater shared =>
      { reply := .returned (.inr beater), shared }

/-- The registry of all of them. -/
def registry : Registry plugins where
  triggers := standard.triggers.put "vector" sourceFactory
  processors :=
    (standard.processors.put "script" (processorFactory .transform)).put "script_sink"
      (processorFactory .sink)
  heartbeats := standard.heartbeats.put "beat" heartbeatFactory

end EventPipeline.Rehearsal
