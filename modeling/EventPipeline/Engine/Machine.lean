import EventPipeline.Engine.Step.Delivery
import EventPipeline.Engine.Step.Sources
import EventPipeline.Engine.Step.Timers
import EventPipeline.Engine.Step.Units

/-!
# `EventPipeline.Engine.Machine`: the steps of a world

A world changes in two ways: a thread does its first task, or time passes. `step` says
what the first does, if the task can be done, and `pass` is the second. Whatever a
pipeline can do is a sequence of the two.
-/

set_option autoImplicit false

namespace EventPipeline.World

variable {P : Plugins}

/-- The shortest time that a pause takes, in nanoseconds. -/
def shortestPause : Nat := 10 ^ 6

/-- How long a thread waits with its first task before it goes on without what it waits
for; most tasks wait as long as it takes. -/
def limitOf (w : World P) : Task → Option Nat
  | .unit (.awaitWorker n _) => (w.nodes[n]?).map fun node => node.initWithin.nanos
  | .unit (.receive n u) => do
    let node ← w.nodes[n]?
    let unit ← node.units[u]?
    match unit.state with
    -- a worker that was not dismissed would only begin to wait anew
    | .queued state => if state.dismissed then some node.pollWithin.nanos else none
    | .inline _ => none
  | .source (.await t _ _ _) => (w.triggers[t]?).map fun trigger => trigger.initWithin.nanos
  | .source (.advance _ _ _ (some (some limit))) => some (max limit.nanos shortestPause)
  | .control (.operate _ true) => some w.supervisor.config.runtime.lockWithin.nanos
  | .control (.awaitStarted _) => some w.supervisor.config.runtime.startWithin.nanos
  | .control (.awaitStopped _) => some w.supervisor.config.runtime.stopWithin.nanos
  | .control (.pause _) =>
    some (max w.supervisor.config.runtime.reportEvery.nanos shortestPause)
  | .timer (.pause h) =>
    (w.timers[h]?).map fun timer => max timer.interval.nanos shortestPause
  | _ => none

/-- When a thread goes on without what it waits for. -/
def deadline (w : World P) (thread : Thread) : Option Nat := do
  let task ← thread.agenda.head?
  let limit ← w.limitOf task
  return thread.since + limit

/-- The time of a thread has passed. -/
def expired (w : World P) (thread : Thread) : Bool :=
  (w.deadline thread).any (· ≤ w.clock)

/-- Does a task, on the thread `me`. -/
def perform (w : World P) (me : Nat) (expired : Bool) : Task → Option (Progress P)
  | .event task => w.performEvent task
  | .unit task => w.performUnit me expired task
  | .source task => w.performSource me expired task
  | .stream task => w.performStream me task
  | .control task => w.performControl me expired task
  | .timer task => w.performTimer expired task
  | .answer answer => (w.changeThread me fun thread => { thread with answer }).done

/-- A thread does its first task, if it has one that can be done. -/
def step (w : World P) (me : Nat) : Option (World P) := do
  let thread ← w.threads[me]?
  let task ← thread.agenda.head?
  match ← w.perform me (w.expired thread) task with
  | .goOn w todo =>
    return w.changeThread me fun thread =>
      { thread with agenda := todo ++ thread.agenda.tail, since := w.clock }
  | .breakDown w text =>
    return w.changeThread me fun thread =>
      { thread with agenda := [], since := w.clock, broken := some text }

/-- Time passes. -/
def pass (w : World P) (nanos : Nat) : World P :=
  { w with clock := w.clock + nanos }

end EventPipeline.World
