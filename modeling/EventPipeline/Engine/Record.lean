import EventPipeline.Engine.Service

/-!
# `EventPipeline.Engine.Record`: the hooks that are called on a course

A record lists which hook of which plugin is called by which thread on a course, and how
the calls end, in the order of the course. The life of a plugin is what its record has of
being made ready, of running and of being finished. A processor also processes events and a
source is asked to stop, at any time of their lives.

A call that waits ends with a later step of its thread. A running source is inside one call
of its hook from its first move to its last one.
-/

set_option autoImplicit false

namespace EventPipeline

/-- A plugin, named by the unit that owns it. -/
inductive Instance where
  | processor (node unit : Nat)
  | source (trigger unit : Nat)
deriving DecidableEq, Repr

/-- The hooks of processors and sources. -/
inductive Hook where
  | prepare | process | start | halt | finish
deriving DecidableEq, Repr

/-- How a call of a hook ends. -/
inductive Upshot where
  | returned | failed | panicked
deriving DecidableEq, Repr

/-- What can happen with a hook. -/
inductive HookEvent where
  | calls (hook : Hook)
  | ends (hook : Hook) (upshot : Upshot)
deriving DecidableEq, Repr

/-- What a thread does with a hook of a plugin. -/
structure Deed where
  thread : Nat
  subject : Instance
  event : HookEvent
deriving DecidableEq, Repr

/-- A call of a hook that a task makes, or that it waits for if it was made before. -/
structure HookCall where
  subject : Instance
  hook : Hook
  made : Bool

/-- What happens with the hook: it is called, unless it was before, and it may end. -/
def HookCall.events (call : HookCall) (upshot : Option Upshot) : List HookEvent :=
  (if call.made then [] else [.calls call.hook]) ++ upshot.toList.map (.ends call.hook)

/-- How a call ends, unless it waits. -/
def Reply.upshot? {ε α : Type} : Reply ε α → Option Upshot
  | .returned _ => some .returned
  | .failed _ => some .failed
  | .panicked _ => some .panicked
  | .waiting _ => none

/-- The call of a hook that a task is about. -/
def Task.call? : Task → Option HookCall
  | .event (.process n u _ asked) => some ⟨.processor n u, .process, asked⟩
  | .unit (.prepareInline n u asked) | .unit (.prepareWorker n u asked) =>
    some ⟨.processor n u, .prepare, asked⟩
  | .unit (.finishInline n u asked) | .unit (.finishWorker n u asked) =>
    some ⟨.processor n u, .finish, asked⟩
  | .source (.prepare t u _ asked) => some ⟨.source t u, .prepare, asked⟩
  | .source (.advance t u made resting) =>
    some ⟨.source t u, .start, decide (made ≠ 0) || resting.isSome⟩
  | .source (.halt t u asked) => some ⟨.source t u, .halt, asked⟩
  | .source (.finish t u asked) => some ⟨.source t u, .finish, asked⟩
  | _ => none

/-- The plugin whose unit a task begins to start. -/
def Task.starts? : Task → Option Instance
  | .unit (.startUnit n u) => some (.processor n u)
  | .source (.startSource t u) => some (.source t u)
  | _ => none

namespace World

variable {P : Plugins}

/-- How the call of a hook ends that a task is about, if it ends. A source that emits an
event goes on running. -/
def upshot? (w : World P) (expired : Bool) : Task → Option Upshot
  | .event (.process n u event asked) =>
    (w.callProcessor n u (P.processor.process asked event.payload)).bind (·.1.upshot?)
  | .unit (.prepareInline n u asked) | .unit (.prepareWorker n u asked) =>
    (w.callProcessor n u (P.processor.prepare asked)).bind (·.1.upshot?)
  | .unit (.finishInline n u asked) | .unit (.finishWorker n u asked) =>
    (w.callProcessor n u (P.processor.finish asked)).bind (·.1.upshot?)
  | .source (.prepare t u _ asked) =>
    (w.callSource t u (P.source.prepare asked)).bind (·.1.upshot?)
  | .source (.advance t u made resting) =>
    (w.callSource t u
      (P.source.advance { made, again := resting.isSome, elapsed := expired })).bind fun called =>
        match called.1 with
        | .returned (.emit ..) => none
        | reply => reply.upshot?
  | .source (.halt t u asked) =>
    (w.callSource t u (P.source.halt asked)).bind (·.1.upshot?)
  | .source (.finish t u asked) =>
    (w.callSource t u (P.source.finish asked)).bind (·.1.upshot?)
  | _ => none

/-- What a thread does with hooks when it does a task. -/
def deedsOf (w : World P) (me : Nat) (expired : Bool) (task : Task) : List Deed :=
  match task.call? with
  | none => []
  | some call =>
    (call.events (w.upshot? expired task)).map fun event =>
      { thread := me, subject := call.subject, event }

/-- What is done with hooks by a move. -/
def deeds (w : World P) : Move P → List Deed
  | .step me =>
    ((w.threads[me]?).bind fun thread =>
      thread.agenda.head?.map (w.deedsOf me (w.expired thread))).getD []
  | .pass _ | .outside _ => []

/-- What is done with hooks on a course. -/
def record : World P → List (Move P) → List Deed
  | _, [] => []
  | w, move :: moves => w.deeds move ++ (w.move move).elim [] fun w => record w moves

/-- The plugin whose unit a thread begins to start with this move. -/
def starts? (w : World P) : Move P → Option Instance
  | .step me => (w.threads[me]?).bind fun thread => thread.agenda.head?.bind (·.starts?)
  | .pass _ | .outside _ => none

/-- The plugins whose units are started on a course, one after the other. -/
def started : World P → List (Move P) → List Instance
  | _, [] => []
  | w, move :: moves => (w.starts? move).toList ++ (w.move move).elim [] fun w => started w moves

/-- Whenever the thread takes a step of a course, it has not come back yet to what comes
later. -/
def StaysAway (me : Nat) (later : List Task) : World P → List (Move P) → Prop
  | _, [] => True
  | w, move :: moves =>
    (move = .step me → ¬ w.IsBack me later) ∧
      ∀ v, w.move move = some v → StaysAway me later v moves

end World

/-! ## The order of a start -/

/-- The plugin that a unit of a node or of a trigger owns. -/
def GateId.member : GateId → Nat → Instance
  | node n, u => .processor n u
  | trigger t, u => .source t u

/-- The nodes and triggers of a stream in the order in which a start comes to them: the nodes
from tail to head, and then the triggers. -/
def Stream.parts (stream : Stream) : List GateId :=
  stream.processors.reverse.map .node ++ stream.triggers.map .trigger

namespace World

variable {P : Plugins}

/-- How many units a node or a trigger has. -/
def memberCount (w : World P) : GateId → Nat
  | .node n => (w.nodes[n]?).elim 0 (·.units.length)
  | .trigger t => (w.triggers[t]?).elim 0 (·.units.length)

/-- The plugins of a node or of a trigger, in the order in which they are started. -/
def members (w : World P) (g : GateId) : List Instance :=
  (List.range (w.memberCount g)).map g.member

/-- The plugins of a stream, in the order in which they are started. -/
def startOrder (w : World P) (s : Nat) : List Instance :=
  (w.streams[s]?).elim [] fun stream => stream.parts.flatMap w.members

end World

/-! ## Lives -/

/-- The hook that an event is about. -/
def HookEvent.hook : HookEvent → Hook
  | calls hook | ends hook _ => hook

/-- The calls of the hook make up the life of a plugin. -/
def Hook.isVital : Hook → Bool
  | prepare | start | finish => true
  | process | halt => false

/-- What the record has of some hooks of a plugin. -/
def eventsOf (counts : Hook → Bool) (subject : Instance) (record : List Deed) :
    List HookEvent :=
  (record.filter fun deed => deed.subject = subject && counts deed.event.hook).map (·.event)

/-- The life of a plugin, as far as it is on record. -/
def lifeOf (subject : Instance) (record : List Deed) : List HookEvent :=
  eventsOf Hook.isVital subject record

/-- What the record has of asking a source to stop. -/
def haltsOf (subject : Instance) (record : List Deed) : List HookEvent :=
  eventsOf (· == .halt) subject record

/-- A call of a hook from its beginning to its end. -/
def Hook.call (hook : Hook) (upshot : Upshot) : List HookEvent :=
  [.calls hook, .ends hook upshot]

/-- The whole life of a processor: it is finished once if it became ready, and never
otherwise. -/
inductive ProcessorLife : List HookEvent → Prop
  | unfit (upshot : Upshot) (h : upshot ≠ .returned) : ProcessorLife (Hook.prepare.call upshot)
  | ready (finished : Upshot) :
    ProcessorLife (Hook.prepare.call .returned ++ Hook.finish.call finished)

/-- The whole life of a source: it runs at most once, and only if it became ready. It is
finished once if it became ready, and never otherwise, and that comes last. -/
inductive SourceLife : List HookEvent → Prop
  | unfit (upshot : Upshot) (h : upshot ≠ .returned) : SourceLife (Hook.prepare.call upshot)
  | idle (finished : Upshot) :
    SourceLife (Hook.prepare.call .returned ++ Hook.finish.call finished)
  | ran (ran finished : Upshot) :
    SourceLife
      (Hook.prepare.call .returned ++ Hook.start.call ran ++ Hook.finish.call finished)

/-- A plugin is inside a call of a hook. -/
def InsideHook (life : List HookEvent) : Prop :=
  ∃ hook, life.getLast? = some (.calls hook)

end EventPipeline
