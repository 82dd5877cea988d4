import EventPipeline.Engine.Machine

/-!
# `EventPipeline.Engine.Course`: the courses that a world can take

`Schedule` takes the steps of a world in one fair order. Here the order is left open: a
move is a step of some thread, some time that passes, or a change that somebody outside
makes to what plugins share, and a course is any list of moves. What is said about all
courses holds for every way in which threads can interleave.
-/

set_option autoImplicit false

namespace EventPipeline

/-- What can happen to a world next. -/
inductive Move (P : Plugins) where
  /-- a thread does its first task -/
  | step (thread : Nat)
  /-- time passes -/
  | pass (nanos : Nat)
  /-- somebody outside changes what plugins share -/
  | outside (change : P.Shared → P.Shared)

namespace World

variable {P : Plugins}

/-- Makes a move, if it can be made. -/
def move (w : World P) : Move P → Option (World P)
  | .step me => w.step me
  | .pass nanos => some (w.pass nanos)
  | .outside change => some (w.changeShared change)

/-- Makes one move after the other. -/
def follow (w : World P) : List (Move P) → Option (World P)
  | [] => some w
  | move :: moves => (w.move move).bind fun w => w.follow moves

/-- The main thread has done what it was given to do, and did not break down. -/
def HasReturned (w : World P) (answer : Answer) : Prop :=
  ∃ thread, w.threads[0]? = some thread ∧ thread.agenda = [] ∧ thread.broken = none ∧
    thread.answer = answer

/-- Some node has just rejected an event. -/
def Rejects (w : World P) : Prop :=
  ∃ thread ∈ w.threads, Task.dispatched .rejected ∈ thread.agenda

/-- At no moment of a course some node rejects an event. -/
def NeverRejects (w : World P) (moves : List (Move P)) : Prop :=
  ∀ before, before <+: moves → ∀ v, w.follow before = some v → ¬ v.Rejects

/-- The node whose processor ends an event with this move. -/
def endsAt? (w : World P) : Move P → Option Nat
  | .step me => do
    let thread ← w.threads[me]?
    match thread.agenda with
    | .event (.process n u event asked) :: _ =>
      match (← w.callProcessor n u (P.processor.process asked event.payload)).1 with
      | .returned (.stop _) => some n
      | _ => none
    | _ => none
  | _ => none

/-- How many events the processor of a node ends on a course. -/
def endedAt (n : Nat) : World P → List (Move P) → Nat
  | _, [] => 0
  | w, move :: moves =>
    (if w.endsAt? move = some n then 1 else 0)
      + (w.move move).elim 0 fun w => endedAt n w moves

/-- What the source of a stream emits with this move. -/
def emits? (w : World P) : Move P → Option (Json × Option Continuation)
  | .step me => do
    let thread ← w.threads[me]?
    match thread.agenda with
    | .source (.advance t u made resting) :: _ =>
      let turn := { made, again := resting.isSome, elapsed := w.expired thread }
      match (← w.callSource t u (P.source.advance turn)).1 with
      | .returned (.emit payload continuation) => some (payload, continuation)
      | _ => none
    | _ => none
  | _ => none

/-- What the sources of a stream emit on a course. -/
def emitted : World P → List (Move P) → List (Json × Option Continuation)
  | _, [] => []
  | w, move :: moves =>
    (w.emits? move).toList ++ (w.move move).elim [] fun w => emitted w moves

/-- What plugins share when this move makes the processor of an inline unit ready or has it
process an event. -/
def sees? (w : World P) : Move P → Option P.Shared
  | .step me => do
    let thread ← w.threads[me]?
    match thread.agenda with
    | .unit (.prepareInline ..) :: _ | .event (.process ..) :: _ => some w.shared
    | _ => none
  | _ => none

/-- What plugins share at those moves of a course. -/
def seen : World P → List (Move P) → List P.Shared
  | _, [] => []
  | w, move :: moves => (w.sees? move).toList ++ (w.move move).elim [] fun w => seen w moves

/-- No thread is on the way of an event. -/
def AtRest (w : World P) : Prop :=
  ∀ thread ∈ w.threads, ∀ task, .event task ∉ thread.agenda

/-- How many events a node has received. -/
def receivedBy (w : World P) (n : Nat) : Nat :=
  (w.nodes[n]?).elim 0 (·.received)

/-- How many events a gate has handed on. -/
def emittedBy (w : World P) (g : GateId) : Nat :=
  (w.gate? g).elim 0 (·.emitted)

end World

/-- Every event that a node received is accounted for, when its processor has ended so many
of them: its units are done with what they took, and what it received left it, was dropped,
failed or was ended. A sink hands on what it does not drop. -/
structure Node.Settled {P : Plugins} (node : Node P) (ended : Nat) : Prop where
  units : ∀ unit ∈ node.units, unit.stats.received = unit.stats.finished
  events : node.received = node.gate.emitted + node.dropped +
    match node.kind with
    | .transform => node.failed + ended
    | .sink => 0

/-- Every event that the triggers of a stream emitted is accounted for, when the processor
of every node has ended so many events: the first processor received what the triggers
emitted, and every other one what the one before it emitted. -/
structure World.Settled {P : Plugins} (w : World P) (stream : Stream) (ended : Nat → Nat) :
    Prop where
  nodes : ∀ n ∈ stream.processors, ∃ node, w.nodes[n]? = some node ∧ node.Settled (ended n)
  head : ∀ n, stream.processors.head? = some n →
    w.receivedBy n = (stream.triggers.map fun t => w.emittedBy (.trigger t)).sum
  next : ∀ i n m, stream.processors[i]? = some n → stream.processors[i + 1]? = some m →
    w.receivedBy m = w.emittedBy (.node n)

end EventPipeline
