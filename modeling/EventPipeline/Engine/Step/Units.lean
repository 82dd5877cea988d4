import EventPipeline.Engine.World

/-!
# `EventPipeline.Engine.Step.Units`: starting and stopping nodes

A node starts its units one after the other and waits for each to be ready; when one
fails, those before it are stopped again. A unit that is stopped first finishes every
event that it has taken.
-/

set_option autoImplicit false

namespace EventPipeline.World

variable {P : Plugins}

/-- The error of a unit whose plugin did not become ready. -/
def initError (unit : String) : Reply NodeError Unit → Except NodeError Unit
  | .failed error => .error (.initFailed unit error.message)
  | .panicked text => .error (.initFailed unit (panicText text))
  | .returned _ | .waiting _ => .ok ()

/-- Starts a node that has a target. -/
def startNode (w : World P) (n : Nat) : Option (Progress P) := do
  let node ← w.nodes[n]?
  if node.gate.target.isNone then w.andThen [.failed (.emitNotRegistered node.name)]
  else w.andThen [.unit (.startUnits n 0)]

/-- Starts the units of a node from the given one on. -/
def startUnits (w : World P) (n u : Nat) : Option (Progress P) := do
  let node ← w.nodes[n]?
  if u < node.units.length then
    w.andThen [.unit (.startUnit n u), .unit (.startedUnit n u)]
  else (w.note (.nodeStarted node.name node.units.length)).andThen [.answer .ok]

/-- Goes on with the next unit, or stops the earlier ones if this one has failed. -/
def startedUnit (w : World P) (me n u : Nat) : Option (Progress P) :=
  match w.answerOf me with
  | .failed error =>
    w.andThen
      ((List.range u).map (fun v => Task.unit (.stopUnit n v)) ++ [.answer (.failed error)])
  | _ => w.andThen [.unit (.startUnits n (u + 1))]

/-- Starts a unit. A queued unit can be started only once. -/
def startUnit (w : World P) (n u : Nat) : Option (Progress P) := do
  let unit ← w.unit? n u
  match unit.state with
  | .inline _ => w.andThen [.event (.occupy n u), .unit (.prepareInline n u false)]
  | .queued state =>
    if state.taken then w.andThen [.failed unit.notReady]
    else
      let w := w.changeUnit n u (·.changeQueue fun s =>
        { s with taken := true, connected := true, alive := true })
      let (_, w) := w.spawn [.unit (.prepareWorker n u false)]
      w.andThen [.unit (.awaitWorker n u)]

/-- Makes the processor of an inline unit ready, and leaves it again. -/
def prepareInline (w : World P) (n u : Nat) (asked : Bool) : Option (Progress P) := do
  let unit ← w.unit? n u
  let (reply, called) ← w.callProcessor n u (P.processor.prepare asked)
  match reply with
  | .waiting _ => if asked then none else called.andThen [.unit (.prepareInline n u true)]
  | reply =>
    match initError unit.name reply with
    | .ok _ =>
      ((called.changeUnit n u (·.changeInline fun _ => { running := true })).note
        (.unitStarted unit.name "single")).andThen [.answer .ok]
    | .error error =>
      (called.changeUnit n u (·.changeInline fun s => { s with occupied := false })).andThen
        [.failed error]

/-- Makes the processor of a queued unit ready, on its worker. -/
def prepareWorker (w : World P) (n u : Nat) (asked : Bool) : Option (Progress P) := do
  let unit ← w.unit? n u
  let (reply, called) ← w.callProcessor n u (P.processor.prepare asked)
  match reply with
  | .waiting _ => if asked then none else called.andThen [.unit (.prepareWorker n u true)]
  | reply =>
    let result := initError unit.name reply
    let w := called.changeUnit n u (·.changeQueue fun s =>
      { s with ready := some result, alive := result.toBool })
    if result.toBool then w.andThen [.unit (.receive n u)] else w.done

/-- Waits for the worker of a unit to be ready. When its time has passed the worker is
dismissed, and ends by itself. -/
def awaitWorker (w : World P) (expired : Bool) (n u : Nat) : Option (Progress P) := do
  let node ← w.nodes[n]?
  let unit ← node.units[u]?
  match unit.state with
  | .inline _ => none
  | .queued state =>
    match state.ready with
    | some (.ok _) =>
      ((w.changeUnit n u (·.changeQueue fun s => { s with accepting := true })).note
        (.unitStarted unit.name "thread")).andThen [.answer .ok]
    | some (.error error) => if state.alive then none else w.andThen [.failed error]
    | none =>
      if expired then
        (w.changeUnit n u (·.changeQueue fun s =>
          { s with dismissed := true, connected := false })).andThen
          [.failed (.initTimeout unit.name node.initWithin)]
      else none

/-- Takes the next event from the queue of a unit, on its worker. When it has waited in
vain it looks whether it was dismissed. -/
def receive (w : World P) (expired : Bool) (n u : Nat) : Option (Progress P) := do
  let unit ← w.unit? n u
  match unit.next with
  | .event event unit =>
    (w.changeUnit n u fun _ => unit).andThen
      [.event (.process n u event false), .event (.settle n u), .unit (.receive n u)]
  | .disconnected => w.andThen [.unit (.finishWorker n u false)]
  | .nothing => if expired then w.andThen [.unit (.checkDismissed n u)] else none

/-- Ends the worker of a unit if it was dismissed. -/
def checkDismissed (w : World P) (n u : Nat) : Option (Progress P) := do
  let unit ← w.unit? n u
  match unit.state with
  | .inline _ => none
  | .queued state =>
    if state.dismissed then w.andThen [.unit (.finishWorker n u false)]
    else w.andThen [.unit (.receive n u)]

/-- What finishing a plugin logs. -/
def finishLog (unit : String) : Reply NodeError Unit → List Message
  | .panicked text => [.unitWorkerLost unit (panicText text)]
  | _ => []

/-- Finishes the processor of a queued unit; its worker ends. -/
def finishWorker (w : World P) (n u : Nat) (asked : Bool) : Option (Progress P) := do
  let unit ← w.unit? n u
  let (reply, called) ← w.callProcessor n u (P.processor.finish asked)
  match reply with
  | .waiting _ => if asked then none else called.andThen [.unit (.finishWorker n u true)]
  | reply =>
    ((called.logAll (finishLog unit.name reply)).changeUnit n u
      (·.changeQueue fun s => { s with alive := false })).done

/-- Stops the units of a node. -/
def stopNode (w : World P) (n : Nat) : Option (Progress P) := do
  let node ← w.nodes[n]?
  w.andThen
    ((List.range node.units.length).map (fun u => Task.unit (.stopUnit n u))
      ++ [.unit (.stoppedNode n)])

/-- Logs that a node has stopped. -/
def stoppedNode (w : World P) (n : Nat) : Option (Progress P) := do
  let node ← w.nodes[n]?
  (w.note (.nodeStopped node.name node.stats)).andThen [.answer .ok]

/-- Stops a unit that runs. -/
def stopUnit (w : World P) (n u : Nat) : Option (Progress P) := do
  let unit ← w.unit? n u
  match unit.state with
  | .inline state =>
    if state.running then
      (w.changeUnit n u (·.changeInline fun s => { s with running := false })).andThen
        [.event (.occupy n u), .unit (.finishInline n u false)]
    else w.done
  | .queued state =>
    if state.accepting then
      w.andThen
        [.unit (.drain n u 0), .unit (.dismiss n u), .unit (.close n u),
         .unit (.joinWorker n u), .unit (.stoppedUnit n u)]
    else w.done

/-- Finishes the processor of an inline unit, and leaves it. -/
def finishInline (w : World P) (n u : Nat) (asked : Bool) : Option (Progress P) := do
  let unit ← w.unit? n u
  let (reply, called) ← w.callProcessor n u (P.processor.finish asked)
  match reply with
  | .waiting _ => if asked then none else called.andThen [.unit (.finishInline n u true)]
  | reply =>
    ((called.logAll (finishLog unit.name reply)).changeUnit n u
      (·.changeInline fun s => { s with occupied := false })).andThen
      [.unit (.stoppedUnit n u)]

/-- Waits until a queued unit has finished every event that it took, and logs the number
of those that are left when it changes. -/
def drain (w : World P) (n u noted : Nat) : Option (Progress P) := do
  let unit ← w.unit? n u
  let alive := match unit.state with
    | .inline _ => false
    | .queued state => state.alive
  let left := unit.stats.inFlight
  if left = 0 then w.done
  else if !alive then
    (w.note (.unitWorkerLost unit.name "worker exited with events in flight")).done
  else if left ≠ noted then
    (w.note (.unitDraining unit.name left)).andThen [.unit (.drain n u left)]
  else none

/-- Closes the queue of a unit, as soon as nobody is about to put an event into it. -/
def close (w : World P) (n u : Nat) : Option (Progress P) := do
  let unit ← w.unit? n u
  match unit.state with
  | .inline _ => w.done
  | .queued state =>
    if state.sending > 0 then none
    else
      (w.changeUnit n u (·.changeQueue fun s =>
        { s with accepting := false, connected := false })).done

/-- Waits for the end of the worker of a unit. -/
def joinWorker (w : World P) (n u : Nat) : Option (Progress P) := do
  let unit ← w.unit? n u
  match unit.state with
  | .inline _ => w.done
  | .queued state => if state.alive then none else w.done

/-- Logs that a unit has stopped. -/
def stoppedUnit (w : World P) (n u : Nat) : Option (Progress P) := do
  let unit ← w.unit? n u
  (w.note (.unitStopped unit.name unit.stats.finished)).done

/-- Does a task in the life of nodes and units, on the thread `me`. -/
def performUnit (w : World P) (me : Nat) (expired : Bool) : UnitTask → Option (Progress P)
  | .startNode n => w.startNode n
  | .startUnits n u => w.startUnits n u
  | .startedUnit n u => w.startedUnit me n u
  | .startUnit n u => w.startUnit n u
  | .prepareInline n u asked => w.prepareInline n u asked
  | .prepareWorker n u asked => w.prepareWorker n u asked
  | .awaitWorker n u => w.awaitWorker expired n u
  | .receive n u => w.receive expired n u
  | .checkDismissed n u => w.checkDismissed n u
  | .finishWorker n u asked => w.finishWorker n u asked
  | .stopNode n => w.stopNode n
  | .stoppedNode n => w.stoppedNode n
  | .stopUnit n u => w.stopUnit n u
  | .finishInline n u asked => w.finishInline n u asked
  | .drain n u noted => w.drain n u noted
  | .dismiss n u =>
    (w.changeUnit n u (·.changeQueue fun s => { s with dismissed := true })).done
  | .close n u => w.close n u
  | .joinWorker n u => w.joinWorker n u
  | .stoppedUnit n u => w.stoppedUnit n u

end EventPipeline.World
