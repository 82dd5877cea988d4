import EventPipeline.Engine.Machine

/-!
# `EventPipeline.Engine.Schedule`: one order of steps

The steps of a world may be taken in any order. `run` takes them in a fair one: in rounds,
in which every thread takes a step if it can, and with time passing, as far as the next
deadline, only when no thread can take a step.
-/

set_option autoImplicit false

namespace EventPipeline.World

variable {P : Plugins}

/-- Some threads take a step each, as far as they can; the first result says whether any
of them did. -/
def stepAll (w : World P) (threads : List Nat) : Bool × World P :=
  threads.foldl
    (fun (moved, w) t =>
      match w.step t with
      | some w => (true, w)
      | none => (moved, w))
    (false, w)

/-- Every thread takes a step, if it can. -/
def round (w : World P) : Bool × World P :=
  w.stepAll (List.range w.threads.length)

/-- The next deadline of a thread that has not passed. -/
def nextDeadline (w : World P) : Option Nat :=
  ((w.threads.filterMap w.deadline).filter (w.clock < ·)).min?

/-- Takes rounds until no thread can take a step, at most so many. -/
def calm : Nat → World P → World P
  | 0, w => w
  | fuel + 1, w =>
    match w.round with
    | (true, w) => calm fuel w
    | (false, w) => w

/-- Takes steps, and lets time pass up to the horizon, until the goal is reached. The first
result says whether it was. -/
def runUntil (goal : World P → Bool) (horizon : Option Nat) : Nat → World P → Bool × World P
  | 0, w => (goal w, w)
  | fuel + 1, w =>
    if goal w then (true, w)
    else
      match w.round with
      | (true, w) => runUntil goal horizon fuel w
      | (false, w) =>
        match w.nextDeadline with
        | none => (false, w)
        | some t =>
          if horizon.any (· < t) then (false, w)
          else runUntil goal horizon fuel { w with clock := t }

/-- The number of rounds after which a run is given up. -/
def rounds : Nat := 10 ^ 7

/-- Waits until no thread can take a step. -/
def calmDown (w : World P) : World P :=
  calm rounds w

/-- Waits for a goal, at most for the given time, and then until no thread can take a
step. -/
def waitFor (w : World P) (goal : World P → Bool) (limit : Duration) : Bool × World P :=
  let (reached, w) := runUntil goal (some (w.clock + limit.nanos)) rounds w.calmDown
  (reached, w.calmDown)

/-- Waits for the end of a thread, as long as it takes, and then until no thread can take a
step. -/
def joinThread (w : World P) (t : Nat) : World P :=
  (runUntil (fun w => w.hasEnded t) none rounds w).2.calmDown

/-- Has a thread do tasks, as long as it takes, and then waits until no thread can take a
step. -/
def run (w : World P) (me : Nat) (tasks : List Task) : World P :=
  (w.assign me tasks).joinThread me

/-- A world with nothing in it but one idle thread, the main thread. -/
def idle (shared : P.Shared) : World P :=
  { shared, threads := [{ agenda := [] }] }

/-- Has the main thread do tasks, and takes its answer. -/
def ask (w : World P) (tasks : List Task) : Answer × World P :=
  let w := w.run 0 tasks
  (w.answerOf 0, w)

/-- Starts a thread of its own for a task, and lets it come as far as it can. -/
def background (w : World P) (task : Task) : Nat × World P :=
  let (thread, w) := w.spawn [task]
  (thread, w.calmDown)

/-- No unit has taken an event that it is not done with. -/
def isQuiet (w : World P) : Bool :=
  w.nodes.all fun node => node.stats.inFlight = 0

end EventPipeline.World
