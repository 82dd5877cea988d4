import EventPipeline.Engine.Course
import EventPipeline.Engine.Schedule

/-!
# `EventPipeline.Engine.Journey`: what an event leaves behind

Where the processors of a stream decide by nothing but the payload of an event, nothing else
decides about its way. `travel` follows an event from stage to stage and lists the marks that
it leaves: every counter that it raises, and every fate that is told of it. It knows no
threads, no queues and no other events. `World.marks` are the marks that a world shows.
-/

set_option autoImplicit false

namespace EventPipeline

/-! ## Processors that decide by the payload -/

/-- What a processor makes of an event, without the words that go with it. -/
inductive Ending where
  | pass
  | update (payload : Json)
  | stop
  | fail

/-- What a processor makes of an event that it replies to. As long as it waits it has not
decided. -/
def Ending.of? : Reply NodeError Outcome → Option Ending
  | .returned .pass => some .pass
  | .returned (.update payload) => some (.update payload)
  | .returned (.stop _) => some .stop
  | .failed _ | .panicked _ => some .fail
  | .waiting _ => none

/-- What an instance of a processor can become by calls of its hooks. -/
inductive Plugins.Becomes (P : Plugins) (processor : P.Processor) : P.Processor → Prop
  | same : Becomes P processor processor
  | prepare {later : P.Processor} (again : Bool) (shared : P.Shared)
    (h : Becomes P processor later) :
    Becomes P processor (P.processor.prepare again later shared).plugin
  | process {later : P.Processor} (again : Bool) (payload : Json) (shared : P.Shared)
    (h : Becomes P processor later) :
    Becomes P processor (P.processor.process again payload later shared).plugin
  | finish {later : P.Processor} (again : Bool) (shared : P.Shared)
    (h : Becomes P processor later) :
    Becomes P processor (P.processor.finish again later shared).plugin

/-- What the instance makes of an event depends on nothing but the payload, whatever has
happened to the instance before and whatever plugins share. -/
def Plugins.DecidesAs (P : Plugins) (ending : Json → Ending) (processor : P.Processor) : Prop :=
  ∀ later, P.Becomes processor later → ∀ again payload shared made,
    Ending.of? (P.processor.process again payload later shared).reply = some made →
      made = ending payload

/-- What the processors of a stream make of an event depends on nothing but the payload:
`ending` says it for every name of a node. -/
def PipelineConfig.DecidesAs {P : Plugins} (config : PipelineConfig) (registry : Registry P)
    (name : String) (ending : String → Json → Ending) : Prop :=
  ∀ layout, config.streamLayout name = .ok layout → ∀ member ∈ layout.processors,
    ∀ template, config.nodes.get? member = some template →
    ∀ factory, registry.processor template.plugin = .ok factory →
    ∀ shared processor,
      (factory.make { name := World.qualifiedName name member, args := template.args }
        shared).reply = .returned processor → P.DecidesAs (ending member) processor

/-- The same configuration with all nodes in the mode `single`. -/
def PipelineConfig.allSingle (config : PipelineConfig) : PipelineConfig :=
  { config with
    nodes := config.nodes.mapValues fun template => { template with mode := .single } }

/-! ## Marks -/

/-- The kind of a fate. -/
inductive FateKind where
  | completed | stopped | failed
deriving DecidableEq, Repr

/-- The kind of a fate. -/
def Fate.kind : Fate → FateKind
  | completed => .completed
  | stopped _ => .stopped
  | failed _ => .failed

/-- What an event leaves behind: it raises a counter of a node, or some fate is told of it. -/
inductive Mark where
  | received (node : Nat)
  | emitted (node : Nat)
  | dropped (node : Nat)
  | failed (node : Nat)
  | told (correlation : Nat) (payload : Json) (hops : Nat) (kind : FateKind)

/-- The mark of a fate that is on record. -/
def FateReport.mark (report : FateReport) : Mark :=
  .told report.event.correlation report.event.payload report.event.hops report.fate.kind

/-- The mark of telling a fate of an event: only who wants to hear it puts it on record. -/
def Event.told (event : Event) (kind : FateKind) : List Mark :=
  match event.continuation with
  | some .recorded => [.told event.correlation event.payload event.hops kind]
  | some .logged | none => []

/-- What the counters of a node show. -/
def Node.marks {P : Plugins} (n : Nat) (node : Node P) : List Mark :=
  List.replicate node.received (.received n) ++ List.replicate node.gate.emitted (.emitted n)
    ++ List.replicate node.dropped (.dropped n) ++ List.replicate node.failed (.failed n)

/-- What the counters of all nodes and the fates on record show. -/
def World.marks {P : Plugins} (w : World P) : List Mark :=
  (w.nodes.mapIdx Node.marks).flatten ++ w.fates.map FateReport.mark

/-! ## The way of an event -/

/-- What a node does with events. -/
structure Stage where
  kind : NodeKind
  filter : Option Filter
  /-- what its processor makes of a payload -/
  ending : Json → Ending

namespace Stage

/-- The verdict about a payload. -/
def verdict (stage : Stage) (payload : Json) : Except NodeError FilterVerdict :=
  match stage.filter with
  | none => .ok .accept
  | some filter => (filter.decide payload).1

/-- The marks of an event that is processed, given those that it leaves from then on if the
processor sends it on. -/
def work (stage : Stage) (n : Nat) (onward : Event → List Mark) (event : Event) : List Mark :=
  match stage.ending event.payload, stage.kind with
  | .fail, _ => .failed n :: event.told .failed
  | .pass, .transform => onward event
  | .update payload, .transform => onward { event with payload }
  | .stop, .transform => event.told .stopped
  | _, .sink => []

/-- The marks of an event that a sink hands on as it came. -/
def forward (stage : Stage) (onward : Event → List Mark) (event : Event) : List Mark :=
  match stage.kind with
  | .sink => onward event
  | .transform => []

/-- The marks of an event that comes to a stage, given those that it leaves once it is sent
on. -/
def pass (stage : Stage) (n : Nat) (onward : Event → List Mark) (event : Event) : List Mark :=
  let event := { event with hops := event.hops + 1 }
  .received n ::
    match stage.verdict event.payload with
    | .error _ | .ok .drop => .dropped n :: event.told .stopped
    | .ok .continue_ => onward event
    | .ok .accept => stage.work n onward event ++ stage.forward onward event

end Stage

/-- The marks of an event that has the given stages ahead of it, of which the first one is
the node `n`. -/
def travel : List Stage → Nat → Event → List Mark
  | [], _, event => event.told .completed
  | stage :: ahead, n, event =>
    stage.pass n (fun event => .emitted n :: travel ahead (n + 1) event) event

/-- The marks of events that are made of payloads and numbered from the one after `k` on. -/
def journeys (route : List Stage) : Nat → List (Json × Option Continuation) → List Mark
  | _, [] => []
  | k, (payload, continuation) :: entries =>
    travel route 0 { payload, correlation := k + 1, continuation } ++
      journeys route (k + 1) entries

/-! ## The events of a course -/

namespace World

variable {P : Plugins}

/-- What the gate of a trigger makes an event of with this move. -/
def makes? (w : World P) : Move P → Option (Json × Option Continuation)
  | .step me => do
    let thread ← w.threads[me]?
    match thread.agenda with
    | .event (.make _ payload continuation) :: _ => some (payload, continuation)
    | _ => none
  | _ => none

/-- What the gates of triggers make events of on a course, in the order of the events. -/
def made : World P → List (Move P) → List (Json × Option Continuation)
  | _, [] => []
  | w, move :: moves =>
    (w.makes? move).toList ++ (w.move move).elim [] fun w => made w moves

end World

/-- The world is one in which a stream has stopped: it was built and started with success, its
triggers made events of the entries, and it was stopped with success. Its threads have taken
their steps in any order. -/
inductive PipelineConfig.Ends {P : Plugins} (config : PipelineConfig) (registry : Registry P)
    (name : String) (output : Bool) (entries : List (Json × Option Continuation))
    (w : World P) : Prop
  | intro {shared : P.Shared} {s : Nat} {built running : World P}
    (starting stopping : List (Move P))
    (hbuilt : (World.idle shared).buildStream name config registry output =
      { reply := .returned s, shared := built })
    (hstarted : (built.assign 0 [.stream (.start s)]).follow starting = some running)
    (hrunning : running.HasReturned .ok)
    (hstopped : (running.assign 0 [.stream (.stop s)]).follow stopping = some w)
    (hreturned : w.HasReturned .ok)
    (hmade : (built.assign 0 [.stream (.start s)]).made starting ++
      (running.assign 0 [.stream (.stop s)]).made stopping = entries)

end EventPipeline
