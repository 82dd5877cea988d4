import EventPipeline.Engine.Step.Streams

/-!
# `EventPipeline.Engine.Step.Supervision`: running the streams of a configuration

Starting and stopping streams are operations of which only one goes on at a time. Every
start makes an incarnation of the stream on a thread of its own. An incarnation that does
not start or stop in time is abandoned: it comes to its end by itself, and until then its
stream cannot be started again.
-/

set_option autoImplicit false

namespace EventPipeline.World

variable {P : Plugins}

/-- The incarnation of that number has not come to its end. One whose thread breaks down
takes everything with it that it holds. -/
def isAlive (w : World P) (i : Nat) : Bool :=
  (w.incarnations[i]?).any fun incarnation =>
    !incarnation.ended && (w.brokenOf incarnation.thread).isNone

/-- The streams that were abandoned and have not come to their ends. -/
def abandonedStreams (w : World P) : List String :=
  Fields.names (w.supervisor.abandoned.filter fun entry => w.isAlive entry.2)

/-- The streams that run. -/
def runningStreams (w : World P) : List String :=
  w.supervisor.runtime.names

/-- Asks for everything to be stopped. -/
def requestStop (w : World P) : World P :=
  w.changeSupervisor fun s => { s with stopping := true }

/-- What an operation consists of. -/
def tasksOf (w : World P) : Operation → List Task
  | .start name => [.control (.startLocked name)]
  | .stop name => [.control (.stopLocked name)]
  | .restart name => [.control (.stopLocked name), .control (.startLocked name)]
  | .stopAll =>
    let names := w.supervisor.streams.names
    [.control (.stopAll names names.length 0)]

/-- Does an operation as soon as no other one is going on. -/
def operate (w : World P) (expired : Bool) (operation : Operation) : Option (Progress P) :=
  if w.supervisor.locked then
    if expired then
      w.andThen
        [.answer (.failed (.controllerBusy w.supervisor.config.runtime.lockWithin))]
    else none
  else
    (w.changeSupervisor fun s => { s with locked := true }).andThen
      (w.tasksOf operation ++ [.control .unlock])

/-- Starts a new incarnation of a stream that can be started. -/
def startLocked (w : World P) (name : String) : Option (Progress P) :=
  let fail (error : StreamError) : Option (Progress P) := w.andThen [.answer (.failed error)]
  if w.supervisor.streams.contains name then fail (.alreadyRunning name)
  else if !w.supervisor.config.streams.contains name then fail (.unknownStream name)
  else if (w.supervisor.abandoned.get? name).any w.isAlive then fail (.stillStopping name)
  else
    let (incarnation, w) := w.addIncarnation { name, thread := w.threads.length }
    let (_, w) := w.spawn [.control (.build incarnation)]
    w.andThen [.control (.awaitStarted incarnation)]

/-- The error of a stream that broke down while it was built. -/
def buildPanic (name : String) (text : Option String) : StreamError :=
  .startFailed name
    (match text with
    | some text => s!"task panicked with message {Text.quoted text}"
    | none => "task panicked")

/-- Builds the stream of an incarnation and starts it. -/
def buildIncarnation (w : World P) (i : Nat) : Option (Progress P) := do
  let incarnation ← w.incarnations[i]?
  let made := w.buildStream incarnation.name w.supervisor.config w.supervisor.registry false
  match made.reply with
  | .waiting _ => none
  | .failed error =>
    made.shared.andThen [.answer (.failed error), .control (.built i)]
  | .panicked text =>
    made.shared.andThen
      [.answer (.failed (buildPanic incarnation.name text)), .control (.built i)]
  | .returned s =>
    (made.shared.changeIncarnation i fun incarnation =>
      { incarnation with stream := some s }).andThen
      [.stream (.start s), .control (.built i)]

/-- What ends an incarnation: its stream is stopped. -/
def windDown (incarnation : Incarnation) (i : Nat) (broken : Option String) : List Task :=
  incarnation.stream.toList.map (fun s => Task.stream (.stop s))
    ++ [.control (.ended i broken)]

/-- Tells how the start of an incarnation ended. One that was started in vain is stopped. -/
def builtIncarnation (w : World P) (me i : Nat) : Option (Progress P) := do
  let incarnation ← w.incarnations[i]?
  match w.answerOf me with
  | .failed error =>
    (w.changeIncarnation i fun incarnation =>
      { incarnation with started := some (.error error) }).andThen
      [.control (.ended i none)]
  | _ =>
    let w := w.changeIncarnation i fun incarnation =>
      { incarnation with started := some (.ok ()) }
    if incarnation.aborted then w.andThen (windDown incarnation i none)
    else w.andThen [.control (.report i)]

/-- Reports the counters of an incarnation, again and again until it was told to stop. -/
def reportIncarnation (w : World P) (i : Nat) : Option (Progress P) := do
  let incarnation ← w.incarnations[i]?
  if w.supervisor.config.runtime.reportEvery.nanos = 0 then
    w.andThen (windDown incarnation i (some "`period` must be non-zero."))
  else if incarnation.cancelled then w.andThen (windDown incarnation i none)
  else
    let stats := incarnation.stream.elim {} w.streamStats
    (w.changeSupervisor fun s =>
      { s with reports := s.reports ++ [(incarnation.name, stats)] }).andThen
      [.control (.pause i)]

/-- Waits until the next report is due. -/
def pauseIncarnation (w : World P) (expired : Bool) (i : Nat) : Option (Progress P) := do
  let incarnation ← w.incarnations[i]?
  if incarnation.cancelled || expired then w.andThen [.control (.report i)] else none

/-- Remembers an incarnation that was given up, as long as it has not ended. -/
def abandon (w : World P) (i : Nat) : World P :=
  match w.incarnations[i]? with
  | none => w
  | some incarnation =>
    let w := w.changeIncarnation i fun incarnation =>
      { incarnation with cancelled := true, aborted := true }
    if w.isAlive i then
      w.changeSupervisor fun s => { s with abandoned := s.abandoned.put incarnation.name i }
    else w

/-- Logs why a stream did not start, and answers with it. -/
def failStart (w : World P) (name : String) (error : StreamError) : Option (Progress P) :=
  (w.note (.streamStartFailed name error)).andThen [.answer (.failed error)]

/-- Waits for an incarnation to be ready, and abandons it when its time has passed. -/
def awaitStarted (w : World P) (expired : Bool) (i : Nat) : Option (Progress P) := do
  let incarnation ← w.incarnations[i]?
  let name := incarnation.name
  match incarnation.started with
  | some (.ok _) =>
    (w.changeSupervisor fun s =>
      { s with runtime := s.runtime.put name {}, streams := s.streams.put name i }).andThen
      [.answer .ok]
  | some (.error error) => w.failStart name error
  | none =>
    match w.brokenOf incarnation.thread with
    | some text => w.failStart name (buildPanic name (some text))
    | none =>
      if expired then
        let within := w.supervisor.config.runtime.startWithin
        ((w.abandon i).note (.streamAbandoned name "start" within)).failStart name
          (.startTimeout name within)
      else none

/-- Tells the running incarnation of a stream to stop. -/
def stopLocked (w : World P) (name : String) : Option (Progress P) :=
  match w.supervisor.streams.get? name with
  | none => w.andThen [.answer (.failed (.notRunning name))]
  | some i =>
    ((w.changeSupervisor fun s => { s with streams := s.streams.erase name }).changeIncarnation
      i fun incarnation => { incarnation with cancelled := true }).andThen
      [.control (.awaitStopped i)]

/-- Waits for an incarnation to end, and abandons it when its time has passed. -/
def awaitStopped (w : World P) (expired : Bool) (i : Nat) : Option (Progress P) := do
  let incarnation ← w.incarnations[i]?
  let name := incarnation.name
  let forget (w : World P) : World P :=
    w.changeSupervisor fun s => { s with runtime := s.runtime.erase name }
  if !w.isAlive i then
    (forget (w.logAll (incarnation.broken.toList.map (Message.streamTaskFailed name)))).andThen
      [.answer (.stopped .graceful)]
  else if expired then
    (forget ((w.abandon i).note
      (.streamAbandoned name "stop" w.supervisor.config.runtime.stopWithin))).andThen
      [.answer (.stopped .abandoned)]
  else none

/-- Makes the heartbeats of a configuration. -/
def buildHeartbeats (registry : Registry P) :
    List (String × HeartbeatTemplate) → P.Shared → Made P.Shared StreamError (List (Timer P))
  | [], shared => { reply := .returned [], shared }
  | (name, template) :: rest, shared =>
    match registry.heartbeat template.plugin with
    | .error e => { reply := .failed (.config e), shared }
    | .ok factory =>
      let made := factory.make { name, args := template.args } shared
      match made.reply with
      | .failed e => { reply := .failed (.config e), shared := made.shared }
      | .panicked text => { reply := .panicked text, shared := made.shared }
      | .waiting limit => { reply := .waiting limit, shared := made.shared }
      | .returned heartbeat =>
        (buildHeartbeats registry rest made.shared).andThen fun timers shared =>
          { reply := .returned ({ name, heartbeat, interval := template.every } :: timers)
            shared }

/-- Adds timers, whose numbers are the first result. -/
def addTimers (w : World P) : List (Timer P) → List Nat × World P
  | [] => ([], w)
  | timer :: timers =>
    let (h, w) := w.addTimer timer
    let (hs, w) := w.addTimers timers
    (h :: hs, w)

/-- Makes all heartbeats, and then starts all streams and timers. -/
def runAll (w : World P) : Option (Progress P) :=
  if w.supervisor.served then w.andThen [.answer (.failed .controllerRunning)]
  else
    let config := w.supervisor.config
    let made := buildHeartbeats w.supervisor.registry config.heartbeats w.shared
    let w := { w with shared := made.shared }
    match made.reply with
    | .waiting _ => none
    | .failed error => w.andThen [.answer (.failed error)]
    | .panicked text => some (.breakDown w (panicText text))
    | .returned timers =>
      let (timers, w) := w.addTimers timers
      (w.changeSupervisor fun s => { s with served := true }).andThen
        [.control (.startAll config.streams.names 0 timers)]

/-- Starts one stream after the other, and then all timers. -/
def startAll (w : World P) (names : List String) (started : Nat) (timers : List Nat) :
    Option (Progress P) :=
  match names with
  | name :: names =>
    w.andThen
      [.control (.operate (.start name) true), .control (.startedOne names started timers)]
  | [] =>
    let w := timers.foldl (fun w h => (w.spawn [.timer (.prepare h false)]).2) w
    (w.note (.controllerStarted started timers.length)).andThen [.control (.serve timers)]

/-- Counts a stream that was started, and goes on. -/
def startedOne (w : World P) (me : Nat) (names : List String) (started : Nat)
    (timers : List Nat) : Option (Progress P) :=
  let started := match w.answerOf me with
    | .failed _ => started
    | _ => started + 1
  w.andThen [.control (.startAll names started timers)]

/-- Takes a report into the table of the running streams. -/
def applyReport (table : RuntimeTable) (report : String × StreamStats) : RuntimeTable :=
  if table.contains report.1 then table.put report.1 report.2 else table

/-- Serves reports until it is time to stop; then ends all timers and stops all streams. -/
def serve (w : World P) (timers : List Nat) : Option (Progress P) :=
  if w.supervisor.stopping then
    w.andThen
      (timers.flatMap (fun h => [Task.timer (.cancel h), .timer (.await h)])
        ++ [.control (.operate .stopAll false), .control .retire])
  else
    match w.supervisor.reports with
    | [] => none
    | report :: reports =>
      (w.changeSupervisor fun s =>
        { s with reports, runtime := applyReport s.runtime report }).andThen
        [.control (.serve timers)]

/-- Stops one stream after the other. -/
def stopAll (w : World P) (names : List String) (count abandoned : Nat) :
    Option (Progress P) :=
  match names with
  | name :: names =>
    w.andThen
      [.control (.stopLocked name), .control (.stoppedOne names count abandoned)]
  | [] => (w.note (.controllerStopped count abandoned)).done

/-- Counts a stream that was abandoned, and goes on. -/
def stoppedOne (w : World P) (me : Nat) (names : List String) (count abandoned : Nat) :
    Option (Progress P) :=
  let abandoned := match w.answerOf me with
    | .stopped .abandoned => abandoned + 1
    | _ => abandoned
  w.andThen [.control (.stopAll names count abandoned)]

/-- Does a task of supervision, on the thread `me`. -/
def performControl (w : World P) (me : Nat) (expired : Bool) :
    ControlTask → Option (Progress P)
  | .operate operation _ => w.operate expired operation
  | .unlock => (w.changeSupervisor fun s => { s with locked := false }).done
  | .startLocked name => w.startLocked name
  | .build i => w.buildIncarnation i
  | .built i => w.builtIncarnation me i
  | .awaitStarted i => w.awaitStarted expired i
  | .report i => w.reportIncarnation i
  | .pause i => w.pauseIncarnation expired i
  | .ended i broken =>
    (w.changeIncarnation i fun incarnation =>
      { incarnation with ended := true, broken }).done
  | .stopLocked name => w.stopLocked name
  | .awaitStopped i => w.awaitStopped expired i
  | .run => w.runAll
  | .startAll names started timers => w.startAll names started timers
  | .startedOne names started timers => w.startedOne me names started timers
  | .serve timers => w.serve timers
  | .stopAll names count abandoned => w.stopAll names count abandoned
  | .stoppedOne names count abandoned => w.stoppedOne me names count abandoned
  | .retire =>
    (w.changeSupervisor fun s => { s with served := false }).andThen [.answer .ok]

end EventPipeline.World
