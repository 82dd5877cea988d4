import EventPipeline.Engine.Course

/-!
# `EventPipeline.Engine.Service`: a supervisor that is asked for things

`Course` takes one world as it is. Here somebody outside also asks the supervisor for
things at any moment: to start, stop or restart a stream, to run everything, and to shut
down. Every request is served by a thread of its own, so any number of them can be under
way at once.
-/

set_option autoImplicit false

namespace EventPipeline

/-- What can be asked of a supervisor. -/
inductive Request where
  | operate (operation : Operation)
  /-- start everything, and serve reports until it is time to stop -/
  | run
  /-- it is time to stop -/
  | shutDown

/-- What can happen to a supervisor next. -/
inductive Occurrence (P : Plugins) where
  | move (move : Move P)
  | request (request : Request)

/-- The error says that an operation cannot be done as things stand. -/
def StreamError.isRefusal : StreamError → Bool
  | alreadyRunning _ | unknownStream _ | notRunning _ | stillStopping _ | controllerBusy _ => true
  | _ => false

namespace World

variable {P : Plugins}

/-- A world with a supervisor that was not asked for anything yet. -/
def supervising (config : PipelineConfig) (registry : Registry P) (shared : P.Shared) :
    World P :=
  { shared, supervisor := { config, registry } }

/-- Takes up a request. -/
def request (w : World P) : Request → World P
  | .operate operation => (w.spawn [.control (.operate operation true)]).2
  | .run => (w.spawn [.control .run]).2
  | .shutDown => w.requestStop

/-- Something happens, if it can. -/
def meet (w : World P) : Occurrence P → Option (World P)
  | .move move => w.move move
  | .request request => some (w.request request)

/-- One thing happens after the other. -/
def undergo (w : World P) : List (Occurrence P) → Option (World P)
  | [] => some w
  | occurrence :: occurrences => (w.meet occurrence).bind fun w => w.undergo occurrences

/-- All that a thread still has to do is what comes later. -/
def IsBack (w : World P) (t : Nat) (later : List Task) : Prop :=
  ∃ thread, w.threads[t]? = some thread ∧ thread.agenda = later

/-- Whenever a thread takes a step in a course, it does so in a world of that kind. -/
def AtSteps (w : World P) (t : Nat) (occurrences : List (Occurrence P)) (p : World P → Prop) :
    Prop :=
  ∀ before u, before ++ [.move (.step t)] <+: occurrences → w.undergo before = some u → p u

/-- A thread is about to stop a running stream. -/
def IsStopping (w : World P) (t : Nat) : Prop :=
  ∃ thread name rest, w.threads[t]? = some thread ∧
    thread.agenda = .control (.stopLocked name) :: rest ∧
    w.supervisor.streams.contains name = true

/-- In the course a thread does an operation, with which it is about to begin, and the last
step of the course is the one with which it is done and turns to what comes later. -/
structure Operates (w : World P) (t : Nat) (operation : Operation) (later : List Task)
    (answer : Answer) (occurrences : List (Occurrence P)) (v : World P) : Prop where
  course : w.undergo occurrences = some v
  begins : ∃ limited, w.IsBack t (.control (.operate operation limited) :: later)
  inside : w.AtSteps t occurrences fun u => ¬ u.IsBack t later
  ends : ∃ before, occurrences = before ++ [.move (.step t)]
  back : v.IsBack t later
  answer : v.answerOf t = answer

/-- The supervisor shows the same streams in two worlds. -/
structure ShowsAlike (w v : World P) : Prop where
  running : v.runningStreams = w.runningStreams
  abandoned : v.abandonedStreams = w.abandonedStreams
  runtime : v.supervisor.runtime = w.supervisor.runtime
  streams : v.supervisor.streams = w.supervisor.streams

end World
end EventPipeline
