import EventPipeline.Engine.World

/-!
# `EventPipeline.Engine.Step.Sources`: starting and stopping triggers

A trigger starts its sources one after the other. Every source gets a worker thread, which
makes it ready, says so, and then lets it run unless it was given up in the meantime. A
launch keeps who of the two was first.
-/

set_option autoImplicit false

namespace EventPipeline.World

variable {P : Plugins}

/-- Starts a trigger that has a target. -/
def startTrigger (w : World P) (t : Nat) : Option (Progress P) := do
  let trigger ← w.triggers[t]?
  if trigger.gate.target.isNone then w.andThen [.failed (.emitNotRegistered trigger.name)]
  else w.andThen [.source (.startSources t 0)]

/-- Starts the sources of a trigger from the given one on. -/
def startSources (w : World P) (t u : Nat) : Option (Progress P) := do
  let trigger ← w.triggers[t]?
  if u < trigger.units.length then
    w.andThen [.source (.startSource t u), .source (.startedSource t u)]
  else (w.note (.triggerStarted trigger.name trigger.units.length)).andThen [.answer .ok]

/-- Goes on with the next source, or stops the earlier ones if this one has failed. -/
def startedSource (w : World P) (me t u : Nat) : Option (Progress P) :=
  match w.answerOf me with
  | .failed error =>
    w.andThen
      ((List.range u).map (fun v => Task.source (.stopSource t v)) ++ [.answer (.failed error)])
  | _ => w.andThen [.source (.startSources t (u + 1))]

/-- Launches a source on a worker of its own. -/
def startSource (w : World P) (t u : Nat) : Option (Progress P) :=
  let (launch, w) := w.addLaunch
  let (worker, w) := w.spawn [.source (.prepare t u launch false)]
  w.andThen [.source (.await t u launch worker)]

/-- Makes a source ready, on its worker, and says so. A source that breaks down says
nothing. -/
def prepareSource (w : World P) (t u l : Nat) (asked : Bool) : Option (Progress P) := do
  let unit ← w.source? t u
  let (reply, called) ← w.callSource t u (P.source.prepare asked)
  match reply with
  | .waiting _ => if asked then none else called.andThen [.source (.prepare t u l true)]
  | .panicked text => some (.breakDown called (panicText text))
  | .failed error =>
    (called.changeLaunch l fun launch =>
      { launch with ready := some (.error (.initFailed unit.name error.message)) }).done
  | .returned _ => do
    let launch ← w.launches[l]?
    (called.changeLaunch l fun launch => { launch with ready := some (.ok ()) }).andThen
      [.source (.begin t u l launch.awaited)]

/-- Lets a source run that is ready, unless it was given up. -/
def beginSource (w : World P) (t u l : Nat) (delivered : Bool) : Option (Progress P) := do
  let launch ← w.launches[l]?
  if !delivered || launch.phase = .dismissed then
    (w.changeLaunch l fun launch => { launch with phase := .dismissed }).andThen
      [.source (.finish t u false)]
  else
    (w.changeLaunch l fun launch => { launch with phase := .started }).andThen
      [.source (.advance t u 0 none)]

/-- Has a running source do its next move. A source that fails is finished, one that
breaks down is not. -/
def advanceSource (w : World P) (expired : Bool) (t u made : Nat)
    (resting : Option (Option Duration)) : Option (Progress P) := do
  let unit ← w.source? t u
  let (reply, called) ←
    w.callSource t u (P.source.advance { made, again := resting.isSome, elapsed := expired })
  match reply with
  | .waiting limit =>
    if resting.isSome then none
    else called.andThen [.source (.advance t u made (some limit))]
  | .panicked text => some (.breakDown called (panicText text))
  | .failed error =>
    (called.note (.sourceFailed unit.name error)).andThen [.source (.finish t u false)]
  | .returned .done => called.andThen [.source (.finish t u false)]
  | .returned (.emit payload continuation) =>
    called.andThen
      [.event (.make (.trigger t) payload continuation), .source (.advance t u (made + 1) none)]

/-- Finishes a source; its worker ends. -/
def finishSource (w : World P) (t u : Nat) (asked : Bool) : Option (Progress P) := do
  let (reply, called) ← w.callSource t u (P.source.finish asked)
  match reply with
  | .waiting _ => if asked then none else called.andThen [.source (.finish t u true)]
  | .panicked text => some (.breakDown called (panicText text))
  | .returned _ | .failed _ => called.done

/-- The error of a source whose worker has ended without a word. -/
def silentWorker (unit : String) : NodeError :=
  .initFailed unit "source thread exited before reporting readiness"

/-- Waits for a source to be ready, and gives it up when its time has passed. -/
def awaitSource (w : World P) (expired : Bool) (t u l worker : Nat) : Option (Progress P) := do
  let unit ← w.source? t u
  let launch ← w.launches[l]?
  match launch.ready with
  | some (.ok _) =>
    (w.changeSource t u fun unit =>
      { unit with running := true, worker := some worker }).andThen [.answer .ok]
  | some (.error error) => if w.hasEnded worker then w.andThen [.failed error] else none
  | none =>
    if w.hasEnded worker then w.andThen [.failed (silentWorker unit.name)]
    else if expired then w.andThen [.source (.giveUp t u l worker)]
    else none

/-- Gives up a source that was not ready in time. If it has become ready and runs
nevertheless, it is stopped. -/
def giveUpSource (w : World P) (t u l worker : Nat) : Option (Progress P) := do
  let trigger ← w.triggers[t]?
  let unit ← trigger.units[u]?
  let launch ← w.launches[l]?
  (w.changeLaunch l fun launch =>
    { launch with phase := .dismissed, awaited := false }).andThen
    ((if launch.phase = .started then
        [.source (.halt t u false), .source (.join unit.name worker)] else [])
      ++ [.failed (.initTimeout unit.name trigger.initWithin)])

/-- Stops the sources of a trigger. -/
def stopTrigger (w : World P) (t : Nat) : Option (Progress P) := do
  let trigger ← w.triggers[t]?
  w.andThen
    ((List.range trigger.units.length).map (fun u => Task.source (.stopSource t u))
      ++ [.source (.stoppedTrigger t)])

/-- Logs that a trigger has stopped. -/
def stoppedTrigger (w : World P) (t : Nat) : Option (Progress P) := do
  let trigger ← w.triggers[t]?
  (w.note (.triggerStopped trigger.name trigger.gate.emitted)).andThen [.answer .ok]

/-- Stops a source that runs. -/
def stopSource (w : World P) (t u : Nat) : Option (Progress P) := do
  let unit ← w.source? t u
  if unit.running then
    (w.changeSource t u fun unit => { unit with running := false, worker := none }).andThen
      (.source (.halt t u false)
        :: unit.worker.toList.map fun worker => Task.source (.join unit.name worker))
  else w.done

/-- Asks a source to stop. -/
def haltSource (w : World P) (t u : Nat) (asked : Bool) : Option (Progress P) := do
  let (reply, called) ← w.callSource t u (P.source.halt asked)
  match reply with
  | .waiting _ => if asked then none else called.andThen [.source (.halt t u true)]
  | .panicked text => some (.breakDown called (panicText text))
  | .returned _ | .failed _ => called.done

/-- Waits for the end of the worker of a source, and logs if it broke down. -/
def joinSource (w : World P) (unit : String) (worker : Nat) : Option (Progress P) := do
  let thread ← w.threads[worker]?
  if thread.agenda.isEmpty then
    (w.logAll (thread.broken.toList.map (Message.unitWorkerLost unit))).done
  else none

/-- Does a task in the life of triggers and sources, on the thread `me`. -/
def performSource (w : World P) (me : Nat) (expired : Bool) : SourceTask → Option (Progress P)
  | .startTrigger t => w.startTrigger t
  | .startSources t u => w.startSources t u
  | .startedSource t u => w.startedSource me t u
  | .startSource t u => w.startSource t u
  | .prepare t u l asked => w.prepareSource t u l asked
  | .begin t u l delivered => w.beginSource t u l delivered
  | .advance t u made resting => w.advanceSource expired t u made resting
  | .finish t u asked => w.finishSource t u asked
  | .await t u l worker => w.awaitSource expired t u l worker
  | .giveUp t u l worker => w.giveUpSource t u l worker
  | .stopTrigger t => w.stopTrigger t
  | .stoppedTrigger t => w.stoppedTrigger t
  | .stopSource t u => w.stopSource t u
  | .halt t u asked => w.haltSource t u asked
  | .join unit worker => w.joinSource unit worker

end EventPipeline.World
