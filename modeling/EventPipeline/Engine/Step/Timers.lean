import EventPipeline.Engine.Step.Supervision

/-!
# `EventPipeline.Engine.Step.Timers`: beating at intervals

A timer makes its heartbeat ready and then has it beat, with a pause before every beat,
until it is cancelled. A heartbeat that does not become ready never beats.
-/

set_option autoImplicit false

namespace EventPipeline.World

variable {P : Plugins}

/-- What a heartbeat sees at this moment. -/
def heartbeatContext (w : World P) (name : String) : HeartbeatContext :=
  { name, runtime := w.supervisor.runtime, abandoned := w.abandonedStreams }

/-- A timer comes to its end. -/
def endTimer (w : World P) (h : Nat) : Option (Progress P) :=
  (w.changeTimer h fun timer => { timer with ended := true }).done

/-- A timer breaks down, and nobody knows any more how often it beat. -/
def breakTimer (w : World P) (h : Nat) : Option (Progress P) :=
  (w.changeTimer h fun timer => { timer with beats := 0 }).endTimer h

/-- Makes a heartbeat ready. -/
def prepareTimer (w : World P) (h : Nat) (asked : Bool) : Option (Progress P) := do
  let timer ← w.timers[h]?
  let (reply, called) ← w.callHeartbeat h (P.heartbeat.prepare asked timer.name)
  match reply with
  | .waiting _ => if asked then none else called.andThen [.timer (.prepare h true)]
  | .returned _ => called.andThen [.timer (.pause h)]
  | .failed error => (called.note (.heartbeatFailed timer.name error)).endTimer h
  | .panicked _ => called.breakTimer h

/-- Waits until the next beat is due. -/
def pauseTimer (w : World P) (expired : Bool) (h : Nat) : Option (Progress P) := do
  let timer ← w.timers[h]?
  if timer.cancelled then w.andThen [.timer (.finish h false)]
  else if expired then
    (w.changeTimer h fun timer => { timer with beats := timer.beats + 1 }).andThen
      [.timer (.beat h false)]
  else none

/-- Lets a heartbeat beat. One that fails goes on. -/
def beatTimer (w : World P) (h : Nat) (asked : Bool) : Option (Progress P) := do
  let timer ← w.timers[h]?
  let (reply, called) ← w.callHeartbeat h (P.heartbeat.beat asked (w.heartbeatContext timer.name))
  match reply with
  | .waiting _ => if asked then none else called.andThen [.timer (.beat h true)]
  | .returned .nothing => called.andThen [.timer (.pause h)]
  | .returned .stop => called.requestStop.andThen [.timer (.pause h)]
  | .failed error =>
    (called.note (.heartbeatFailed timer.name error)).andThen [.timer (.pause h)]
  | .panicked _ => called.breakTimer h

/-- Finishes a heartbeat; its timer ends. -/
def finishTimer (w : World P) (h : Nat) (asked : Bool) : Option (Progress P) := do
  let (reply, called) ← w.callHeartbeat h (P.heartbeat.finish asked)
  match reply with
  | .waiting _ => if asked then none else called.andThen [.timer (.finish h true)]
  | .returned _ | .failed _ => called.endTimer h
  | .panicked _ => called.breakTimer h

/-- Waits for the end of a timer, and logs how often it beat. -/
def awaitTimer (w : World P) (h : Nat) : Option (Progress P) := do
  let timer ← w.timers[h]?
  if timer.ended then (w.note (.heartbeatCancelled timer.name timer.beats)).done else none

/-- Does a task in the life of heartbeats. -/
def performTimer (w : World P) (expired : Bool) : TimerTask → Option (Progress P)
  | .prepare h asked => w.prepareTimer h asked
  | .pause h => w.pauseTimer expired h
  | .beat h asked => w.beatTimer h asked
  | .finish h asked => w.finishTimer h asked
  | .cancel h => (w.changeTimer h fun timer => { timer with cancelled := true }).done
  | .await h => w.awaitTimer h

end EventPipeline.World
