import EventPipeline.Engine.World

/-!
# `EventPipeline.Engine.Step.Streams`: building, starting and stopping streams

A stream is wired and started from its tail to its head, so that whoever receives events is
ready before anybody sends them, and it is stopped from its head to its tail. When a part
fails to start, the parts that were started before are stopped again.
-/

set_option autoImplicit false

namespace EventPipeline.World

variable {P : Plugins}

/-- The name of a node within its stream. -/
def qualifiedName (stream node : String) : String :=
  stream ++ "." ++ node

/-- Registers the target of a gate. -/
def register (w : World P) (g : GateId) (target : Target) : Except NodeError (World P) :=
  match w.gate? g with
  | none => .ok w
  | some gate => (gate.register target).map fun gate => w.changeGate g fun _ => gate

/-- Makes a processor of a stream. -/
def buildProcessor (w : World P) (registry : Registry P) (name : String)
    (template : NodeTemplate) (initWithin : Duration) : Made (World P) StreamError Nat :=
  match registry.processor template.plugin with
  | .error e => { reply := .failed (.config e), shared := w }
  | .ok factory =>
    let (made, log) := Node.build name (.ofTemplate template factory.kind initWithin)
      (factory.make { name, args := template.args }) w.shared
    let w := { w with shared := made.shared }.logAll log
    match made.reply with
    | .returned node => { reply := .returned (w.addNode node).1, shared := (w.addNode node).2 }
    | .failed e => { reply := .failed (.node e), shared := w }
    | .panicked text => { reply := .panicked text, shared := w }
    | .waiting limit => { reply := .waiting limit, shared := w }

/-- Makes a trigger of a stream. -/
def buildTrigger (w : World P) (registry : Registry P) (name : String)
    (template : TriggerTemplate) (initWithin : Duration) : Made (World P) StreamError Nat :=
  match registry.trigger template.plugin with
  | .error e => { reply := .failed (.config e), shared := w }
  | .ok factory =>
    let made := Trigger.build name template.poolSize initWithin
      (factory.make { name, args := template.args }) w.shared
    let w := { w with shared := made.shared }
    match made.reply with
    | .returned trigger =>
      { reply := .returned (w.addTrigger trigger).1, shared := (w.addTrigger trigger).2 }
    | .failed e => { reply := .failed (.node e), shared := w }
    | .panicked text => { reply := .panicked text, shared := w }
    | .waiting limit => { reply := .waiting limit, shared := w }

/-- Makes the parts of a stream that have the given names, one after the other. -/
def buildParts {τ : Type} (templates : Fields τ) (stream : String)
    (build : World P → String → τ → Made (World P) StreamError Nat) :
    List String → World P → Made (World P) StreamError (List Nat)
  | [], w => { reply := .returned [], shared := w }
  | name :: names, w =>
    match templates.get? name with
    | none => { reply := .failed (.config (.unknownNode stream name)), shared := w }
    | some template =>
      (build w (qualifiedName stream name) template).andThen fun part w =>
        (buildParts templates stream build names w).andThen fun parts w =>
          { reply := .returned (part :: parts), shared := w }

/-- Registers the targets of the gates of processors, each of which sends into the next
one; the last has the given target. The first result is where their head takes events. -/
def wireProcessors (last : Target) : List Nat → World P → Except NodeError (Target × World P)
  | [], w => .ok (last, w)
  | n :: ns, w => do
    let (target, w) ← wireProcessors last ns w
    return (.node n, ← w.register (.node n) target)

/-- Registers the targets of all gates of a stream; every trigger sends into its head. -/
def wire (w : World P) (triggers processors : List Nat) (last : Target) :
    Except NodeError (World P) := do
  let (head, w) ← wireProcessors last processors w
  triggers.foldlM (fun w t => w.register (.trigger t) head) w

/-- The layout of a stream, or why it cannot be built. -/
def layoutOf (config : PipelineConfig) (name : String) : Except StreamError StreamLayout :=
  match config.streamLayout name with
  | .ok layout => .ok layout
  | .error (.unknownStream name) => .error (.unknownStream name)
  | .error e => .error (.config e)

/-- Builds and wires a stream. Its events leave it at the output of the pipeline or at its
tail. -/
def buildStream (w : World P) (name : String) (config : PipelineConfig)
    (registry : Registry P) (output : Bool) : Made (World P) StreamError Nat :=
  match layoutOf config name with
  | .error e => { reply := .failed e, shared := w }
  | .ok layout =>
    let processor := fun w qualified template =>
      buildProcessor w registry qualified template config.runtime.nodeInitWithin
    let trigger := fun w qualified template =>
      buildTrigger w registry qualified template config.runtime.triggerInitWithin
    (buildParts config.nodes name processor layout.processors w).andThen fun processors w =>
      (buildParts config.triggers name trigger layout.triggers w).andThen fun triggers w =>
        match w.wire triggers processors (if output then .output true else .tail) with
        | .error e => { reply := .failed (.node e), shared := w }
        | .ok w =>
          let (stream, w) := w.addStream { name, triggers, processors }
          { reply := .returned stream, shared := w }

/-- What the triggers and the processors of a stream have counted. -/
def streamStats (w : World P) (s : Nat) : StreamStats :=
  match w.streams[s]? with
  | none => {}
  | some stream =>
    { triggers := .ofPairs
        ((stream.triggers.filterMap (w.triggers[·]?)).map fun t => (t.name, t.stats))
      processors := .ofPairs
        ((stream.processors.filterMap (w.nodes[·]?)).map fun n => (n.name, n.stats)) }

/-- Starts the processors of a stream before the given one, from tail to head, and then its
triggers. -/
def startProcessors (w : World P) (s : Nat) : Nat → Option (Progress P)
  | 0 => w.andThen [.stream (.startTriggers s 0)]
  | p + 1 => do
    let stream ← w.streams[s]?
    let n ← stream.processors[p]?
    w.andThen [.unit (.startNode n), .stream (.startedProcessor s p)]

/-- Goes on with the next processor, or stops those after this one if it has failed. -/
def startedProcessor (w : World P) (me s p : Nat) : Option (Progress P) := do
  let stream ← w.streams[s]?
  match w.answerOf me with
  | .failed error =>
    w.andThen
      ((stream.processors.drop (p + 1)).map (fun n => Task.unit (.stopNode n))
        ++ [.answer (.failed error)])
  | _ => w.andThen [.stream (.startProcessors s p)]

/-- Starts the triggers of a stream from the given one on. After the last one the stream
runs. -/
def startTriggers (w : World P) (s t : Nat) : Option (Progress P) := do
  let stream ← w.streams[s]?
  match stream.triggers[t]? with
  | some trigger =>
    w.andThen [.source (.startTrigger trigger), .stream (.startedTrigger s t)]
  | none =>
    ((w.changeStream s fun stream => { stream with running := true }).note
      (.streamStarted stream.name stream.triggers.length stream.processors.length)).andThen
      [.answer .ok]

/-- Goes on with the next trigger; if this one has failed, stops those before it and all
processors. -/
def startedTrigger (w : World P) (me s t : Nat) : Option (Progress P) := do
  let stream ← w.streams[s]?
  match w.answerOf me with
  | .failed error =>
    w.andThen
      ((stream.triggers.take t).map (fun t => Task.source (.stopTrigger t))
        ++ stream.processors.map (fun n => Task.unit (.stopNode n))
        ++ [.answer (.failed error)])
  | _ => w.andThen [.stream (.startTriggers s (t + 1))]

/-- Stops a stream that runs: first its triggers, then its processors from head to tail. -/
def stopStream (w : World P) (s : Nat) : Option (Progress P) := do
  let stream ← w.streams[s]?
  if stream.running then
    (w.changeStream s fun stream => { stream with running := false }).andThen
      (stream.triggers.map (fun t => Task.source (.stopTrigger t))
        ++ stream.processors.map (fun n => Task.unit (.stopNode n))
        ++ [.stream (.stopped s)])
  else w.done

/-- Logs that a stream has stopped. -/
def stoppedStream (w : World P) (s : Nat) : Option (Progress P) := do
  let stream ← w.streams[s]?
  (w.note (.streamStopped stream.name)).andThen [.answer .ok]

/-- Does a task in the life of streams, on the thread `me`. -/
def performStream (w : World P) (me : Nat) : StreamTask → Option (Progress P)
  | .start s => do
    let stream ← w.streams[s]?
    w.andThen [.stream (.startProcessors s stream.processors.length)]
  | .startProcessors s p => w.startProcessors s p
  | .startedProcessor s p => w.startedProcessor me s p
  | .startTriggers s t => w.startTriggers s t
  | .startedTrigger s t => w.startedTrigger me s t
  | .stop s => w.stopStream s
  | .stopped s => w.stoppedStream s

end EventPipeline.World
