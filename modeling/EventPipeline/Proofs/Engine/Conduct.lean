import EventPipeline.Proofs.Engine.Workers

/-!
# `EventPipeline.Proofs.Engine.Conduct`: what starting and stopping does, in outline

`World.Conducts` lists what the tasks can do by which a thread starts and stops a stream:
the outline and the streams after the task, the agendas of new threads, and what the thread
does next. `performUnit_conducts`, `performSource_conducts` and `performStream_conducts`
show that the steps of a world do nothing else.
-/

set_option autoImplicit false

namespace EventPipeline

/-- The task is a part of a start, and may fail. -/
def Task.mayFail : Task → Bool
  | .stream (.start _) | .stream (.startProcessors ..) | .stream (.startedProcessor ..)
  | .stream (.startTriggers ..) | .stream (.startedTrigger ..) => true
  | .unit (.startNode _) | .unit (.startUnits ..) | .unit (.startedUnit ..)
  | .unit (.startUnit ..) | .unit (.prepareInline ..) | .unit (.awaitWorker ..) => true
  | .source (.startTrigger _) | .source (.startSources ..) | .source (.startedSource ..)
  | .source (.startSource ..) | .source (.await ..) => true
  | _ => false

/-- The task goes on with a start, or undoes what was done if the answer is an error. -/
def Task.resumes : Task → Bool
  | .stream (.startedProcessor ..) | .stream (.startedTrigger ..)
  | .unit (.startedUnit ..) | .source (.startedSource ..) => true
  | _ => false

/-- The task is part of the life of one stream. -/
def Task.isPlain : Task → Bool
  | .control _ | .timer _ => false
  | _ => true

/-- Changes the running flag of a stream. -/
def setRunning (streams : List Stream) (s : Nat) (running : Bool) : List Stream :=
  streams.modify s fun stream => { stream with running }

variable {P : Plugins}

/-- What a task on the thread `me` can do that starts or stops a part of a stream. -/
inductive World.Conducts (w : World P) (me : Nat) :
    Task → Outline → List Stream → List (List Task) → List Task → Prop
  /-- the start fails -/
  | fail (task : Task) (h : task.mayFail) (o : Outline) (error : StreamError) :
    Conducts w me task o w.streams [] [.answer (.failed error)]
  /-- after a failure, what was started before is stopped -/
  | undo (task : Task) (h : task.resumes) (error : StreamError)
    (hanswer : w.answerOf me = .failed error) (stops : List Task)
    (hstops : ∀ task ∈ stops, task.isPlain = true) :
    Conducts w me task w.outline w.streams [] (stops ++ [.answer (.failed error)])
  | startNode (n : Nat) :
    Conducts w me (.unit (.startNode n)) w.outline w.streams [] [.unit (.startUnits n 0)]
  | startUnits (n u : Nat) (h : u < w.outline.layout.units n) :
    Conducts w me (.unit (.startUnits n u)) w.outline w.streams []
      [.unit (.startUnit n u), .unit (.startedUnit n u)]
  | startedNode (n u : Nat) (h : w.outline.layout.units n ≤ u) :
    Conducts w me (.unit (.startUnits n u)) w.outline w.streams [] [.answer .ok]
  | startedUnit (n u : Nat) (hanswer : ∀ error, w.answerOf me ≠ .failed error) :
    Conducts w me (.unit (.startedUnit n u)) w.outline w.streams []
      [.unit (.startUnits n (u + 1))]
  | startInline (n u : Nat) (unit : UnitOutline) (h : w.outline.unit? n u = some unit)
    (hqueued : unit.signs.queued = false) :
    Conducts w me (.unit (.startUnit n u)) w.outline w.streams []
      [.event (.occupy n u), .unit (.prepareInline n u false)]
  | startQueued (n u : Nat) (unit : UnitOutline) (h : w.outline.unit? n u = some unit)
    (hqueued : unit.signs.queued = true) :
    Conducts w me (.unit (.startUnit n u))
      (w.outline.sign n u (.ofQueue ({ · with connected := true, alive := true })))
      w.streams [[.unit (.prepareWorker n u false)]] [.unit (.awaitWorker n u)]
  | prepareInline (n u : Nat) (asked : Bool) :
    Conducts w me (.unit (.prepareInline n u asked)) w.outline w.streams []
      [.unit (.prepareInline n u true)]
  | preparedInline (n u : Nat) (asked : Bool) :
    Conducts w me (.unit (.prepareInline n u asked))
      (w.outline.sign n u (.ofInline ({ · with accepting := true }))) w.streams []
      [.answer .ok]
  | awaitWorker (n u : Nat) (unit : UnitOutline) (h : w.outline.unit? n u = some unit)
    (hready : unit.signs.ready = true) :
    Conducts w me (.unit (.awaitWorker n u))
      (w.outline.sign n u (.ofQueue ({ · with accepting := true }))) w.streams []
      [.answer .ok]
  | stopNode (n : Nat) :
    Conducts w me (.unit (.stopNode n)) w.outline w.streams []
      ((List.range (w.outline.layout.units n)).map (fun u => .unit (.stopUnit n u))
        ++ [.unit (.stoppedNode n)])
  | stoppedNode (n : Nat) :
    Conducts w me (.unit (.stoppedNode n)) w.outline w.streams [] [.answer .ok]
  | stopInline (n u : Nat) (unit : UnitOutline) (h : w.outline.unit? n u = some unit)
    (hqueued : unit.signs.queued = false) :
    Conducts w me (.unit (.stopUnit n u))
      (w.outline.sign n u (.ofInline ({ · with accepting := false }))) w.streams []
      [.event (.occupy n u), .unit (.finishInline n u false)]
  | stopQueued (n u : Nat) (unit : UnitOutline) (h : w.outline.unit? n u = some unit)
    (hqueued : unit.signs.queued = true) :
    Conducts w me (.unit (.stopUnit n u)) w.outline w.streams []
      [.unit (.drain n u 0), .unit (.dismiss n u), .unit (.close n u),
        .unit (.joinWorker n u), .unit (.stoppedUnit n u)]
  | stopNothing (n u : Nat) (unit : UnitOutline) (h : w.outline.unit? n u = some unit)
    (haccepting : unit.signs.accepting = false) :
    Conducts w me (.unit (.stopUnit n u)) w.outline w.streams [] []
  | finishInline (n u : Nat) (asked : Bool) :
    Conducts w me (.unit (.finishInline n u asked)) w.outline w.streams []
      [.unit (.finishInline n u true)]
  | finishedInline (n u : Nat) (asked : Bool) :
    Conducts w me (.unit (.finishInline n u asked)) w.outline w.streams []
      [.unit (.stoppedUnit n u)]
  | drain (n u noted left : Nat) :
    Conducts w me (.unit (.drain n u noted)) w.outline w.streams []
      [.unit (.drain n u left)]
  | drained (n u noted : Nat) (unit : UnitOutline) (h : w.outline.unit? n u = some unit)
    (hdrained : unit.received ≤ unit.finished ∨ unit.signs.alive = false) :
    Conducts w me (.unit (.drain n u noted)) w.outline w.streams [] []
  | dismiss (n u : Nat) :
    Conducts w me (.unit (.dismiss n u))
      (w.outline.sign n u (.ofQueue ({ · with dismissed := true }))) w.streams [] []
  | close (n u : Nat) :
    Conducts w me (.unit (.close n u))
      (w.outline.sign n u (.ofQueue ({ · with accepting := false, connected := false })))
      w.streams [] []
  | closeNothing (n u : Nat) :
    Conducts w me (.unit (.close n u)) w.outline w.streams [] []
  | joinWorker (n u : Nat) (unit : UnitOutline) (h : w.outline.unit? n u = some unit)
    (halive : unit.signs.alive = false) :
    Conducts w me (.unit (.joinWorker n u)) w.outline w.streams [] []
  | stoppedUnit (n u : Nat) :
    Conducts w me (.unit (.stoppedUnit n u)) w.outline w.streams [] []
  | startTrigger (t : Nat) :
    Conducts w me (.source (.startTrigger t)) w.outline w.streams []
      [.source (.startSources t 0)]
  | startSources (t v : Nat) (h : v < w.outline.layout.sources t) :
    Conducts w me (.source (.startSources t v)) w.outline w.streams []
      [.source (.startSource t v), .source (.startedSource t v)]
  | startedTrigger (t v : Nat) (h : w.outline.layout.sources t ≤ v) :
    Conducts w me (.source (.startSources t v)) w.outline w.streams [] [.answer .ok]
  | startedSource (t v : Nat) (hanswer : ∀ error, w.answerOf me ≠ .failed error) :
    Conducts w me (.source (.startedSource t v)) w.outline w.streams []
      [.source (.startSources t (v + 1))]
  | startSource (t v l : Nat) :
    Conducts w me (.source (.startSource t v)) w.outline w.streams
      [[.source (.prepare t v l false)]] [.source (.await t v l w.threads.length)]
  | await (t v l i : Nat) :
    Conducts w me (.source (.await t v l i))
      (w.outline.changeSource t v fun _ => { running := true, worker := some i }) w.streams []
      [.answer .ok]
  | awaitInVain (t v l i : Nat) :
    Conducts w me (.source (.await t v l i)) w.outline w.streams []
      [.source (.giveUp t v l i)]
  | giveUp (t v l i : Nat) (error : StreamError) (stops : List Task)
    (hstops : ∀ task ∈ stops, task.isPlain = true) :
    Conducts w me (.source (.giveUp t v l i)) w.outline w.streams []
      (stops ++ [.answer (.failed error)])
  | stopTrigger (t : Nat) :
    Conducts w me (.source (.stopTrigger t)) w.outline w.streams []
      ((List.range (w.outline.layout.sources t)).map (fun v => .source (.stopSource t v))
        ++ [.source (.stoppedTrigger t)])
  | stoppedTrigger (t : Nat) :
    Conducts w me (.source (.stoppedTrigger t)) w.outline w.streams [] [.answer .ok]
  | stopSource (t v : Nat) (name : String) (source : SourceOutline)
    (h : w.outline.source? t v = some source) :
    Conducts w me (.source (.stopSource t v))
      (w.outline.changeSource t v fun _ => { running := false, worker := none }) w.streams []
      (.source (.halt t v false)
        :: source.worker.toList.map fun i => .source (.join name i))
  | stopNoSource (t v : Nat) (source : SourceOutline)
    (h : w.outline.source? t v = some source) (hrunning : source.running = false) :
    Conducts w me (.source (.stopSource t v)) w.outline w.streams [] []
  | halt (t v : Nat) (asked : Bool) :
    Conducts w me (.source (.halt t v asked)) w.outline w.streams []
      [.source (.halt t v true)]
  | halted (t v : Nat) (asked : Bool) :
    Conducts w me (.source (.halt t v asked)) w.outline w.streams [] []
  | join (name : String) (i : Nat) (thread : Thread) (h : w.threads[i]? = some thread)
    (hended : thread.agenda = []) :
    Conducts w me (.source (.join name i)) w.outline w.streams [] []
  | start (s : Nat) (stream : Stream) (h : w.streams[s]? = some stream) :
    Conducts w me (.stream (.start s)) w.outline w.streams []
      [.stream (.startProcessors s stream.processors.length)]
  | startedProcessors (s : Nat) :
    Conducts w me (.stream (.startProcessors s 0)) w.outline w.streams []
      [.stream (.startTriggers s 0)]
  | startProcessors (s p n : Nat) (stream : Stream) (h : w.streams[s]? = some stream)
    (hn : stream.processors[p]? = some n) :
    Conducts w me (.stream (.startProcessors s (p + 1))) w.outline w.streams []
      [.unit (.startNode n), .stream (.startedProcessor s p)]
  | startedProcessor (s p : Nat) (hanswer : ∀ error, w.answerOf me ≠ .failed error) :
    Conducts w me (.stream (.startedProcessor s p)) w.outline w.streams []
      [.stream (.startProcessors s p)]
  | startTriggers (s i t : Nat) (stream : Stream) (h : w.streams[s]? = some stream)
    (ht : stream.triggers[i]? = some t) :
    Conducts w me (.stream (.startTriggers s i)) w.outline w.streams []
      [.source (.startTrigger t), .stream (.startedTrigger s i)]
  | started (s i : Nat) (stream : Stream) (h : w.streams[s]? = some stream)
    (hi : stream.triggers.length ≤ i) :
    Conducts w me (.stream (.startTriggers s i)) w.outline (setRunning w.streams s true) []
      [.answer .ok]
  | startedTriggers (s i : Nat) (hanswer : ∀ error, w.answerOf me ≠ .failed error) :
    Conducts w me (.stream (.startedTrigger s i)) w.outline w.streams []
      [.stream (.startTriggers s (i + 1))]
  | stop (s : Nat) (stream : Stream) (h : w.streams[s]? = some stream) :
    Conducts w me (.stream (.stop s)) w.outline (setRunning w.streams s false) []
      (stream.triggers.map (fun t => .source (.stopTrigger t))
        ++ stream.processors.map (fun n => .unit (.stopNode n))
        ++ [.stream (.stopped s)])
  | stopNoStream (s : Nat) (stream : Stream) (h : w.streams[s]? = some stream)
    (hrunning : stream.running = false) :
    Conducts w me (.stream (.stop s)) w.outline w.streams [] []
  | stopped (s : Nat) :
    Conducts w me (.stream (.stopped s)) w.outline w.streams [] [.answer .ok]

namespace World

variable {w : World P} {me : Nat}

/-- A step that conducts a start or a stop: apart from what shows in the outline and in the
streams it only adds threads. Only a call that halts a source can break down. -/
inductive ConductsTask (w : World P) (me : Nat) (task : Task) : Progress P → Prop
  | goOn {w' : World P} {todo : List Task} {spawned : List (List Task)}
    (conducts : w.Conducts me task w'.outline w'.streams spawned todo)
    (threads : w'.threads =
      w.threads ++ spawned.map fun agenda => { agenda, since := w.clock }) :
    ConductsTask w me task (.goOn w' todo)
  | breakDown {w' : World P} {text : String} {t v : Nat} {asked : Bool}
    (halts : task = .source (.halt t v asked)) (threads : w'.threads = w.threads) :
    ConductsTask w me task (.breakDown w' text)

/-- A step that adds no threads. -/
theorem ConductsTask.alone {w' : World P} {task : Task} {todo : List Task} {o : Outline}
    (conducts : w.Conducts me task o w.streams [] todo) (houtline : w'.outline = o)
    (hthreads : w'.threads = w.threads) (hstreams : w'.streams = w.streams) :
    w.ConductsTask me task (.goOn w' todo) := by
  subst houtline
  refine .goOn (?_ : w.Conducts me task w'.outline w'.streams [] todo) (by simpa using hthreads)
  rw [hstreams]
  exact conducts

/-- A step that adds one thread. -/
theorem ConductsTask.spawning {w' : World P} {task : Task} {todo agenda : List Task}
    {o : Outline} (conducts : w.Conducts me task o w.streams [agenda] todo)
    (houtline : w'.outline = o)
    (hthreads : w'.threads = w.threads ++ [{ agenda, since := w.clock }])
    (hstreams : w'.streams = w.streams) : w.ConductsTask me task (.goOn w' todo) := by
  subst houtline
  refine .goOn (?_ : w.Conducts me task w'.outline w'.streams [agenda] todo)
    (by simpa using hthreads)
  rw [hstreams]
  exact conducts

/-- A step that changes nothing that shows. -/
theorem ConductsTask.unchanged {task : Task} {todo : List Task}
    (conducts : w.Conducts me task w.outline w.streams [] todo) :
    w.ConductsTask me task (.goOn w todo) :=
  .alone conducts rfl rfl rfl

/-- A step that makes a start fail. -/
theorem ConductsTask.fails {w' : World P} {task : Task} {error : StreamError}
    (h : task.mayFail) (hthreads : w'.threads = w.threads) (hstreams : w'.streams = w.streams) :
    w.ConductsTask me task (.goOn w' [.answer (.failed error)]) :=
  .alone (.fail task h w'.outline error) rfl hthreads hstreams

/-- The number of units of a node in the layout. -/
theorem layout_units {n : Nat} {node : Node P} (h : w.nodes[n]? = some node) :
    w.outline.layout.units n = node.units.length := by
  simp [Layout.units, Outline.layout, outline, h, NodeOutline.layout, Node.outline]

/-- The number of sources of a trigger in the layout. -/
theorem layout_sources {t : Nat} {trigger : Trigger P} (h : w.triggers[t]? = some trigger) :
    w.outline.layout.sources t = trigger.units.length := by
  simp [Layout.sources, Outline.layout, outline, h, TriggerOutline.layout, Trigger.outline]

/-- Whether a unit has a queue shows in its outline. -/
theorem queued_eq {unit : ExecutionUnit P} :
    unit.outline.signs.queued =
      match unit.state with
      | .inline _ => false
      | .queued _ => true := by
  simp only [ExecutionUnit.outline]
  cases unit.state <;> rfl

section Units

variable {n u : Nat} {progress : Progress P}

theorem startNode_conducts (h : w.startNode n = some progress) :
    w.ConductsTask me (.unit (.startNode n)) progress := by
  simp only [startNode, Option.bind_eq_bind, Option.bind_eq_some_iff] at h
  obtain ⟨node, hnode, h⟩ := h
  split at h
  · obtain rfl : _ = progress := by simpa [andThen] using h
    exact .fails rfl rfl rfl
  · obtain rfl : _ = progress := by simpa [andThen] using h
    exact .unchanged (.startNode n)

theorem startUnits_conducts (h : w.startUnits n u = some progress) :
    w.ConductsTask me (.unit (.startUnits n u)) progress := by
  simp only [startUnits, Option.bind_eq_bind, Option.bind_eq_some_iff] at h
  obtain ⟨node, hnode, h⟩ := h
  split at h
  case isTrue hu =>
    obtain rfl : _ = progress := by simpa [andThen] using h
    exact .unchanged (.startUnits n u (by rwa [layout_units hnode]))
  case isFalse hu =>
    obtain rfl : _ = progress := by simpa [andThen] using h
    exact .alone (.startedNode n u (by rw [layout_units hnode]; omega)) (by simp) rfl rfl

theorem startedUnit_conducts (h : w.startedUnit me n u = some progress) :
    w.ConductsTask me (.unit (.startedUnit n u)) progress := by
  cases hanswer : w.answerOf me with
  | failed error =>
    obtain rfl : _ = progress := by simpa [startedUnit, hanswer, andThen] using h
    exact .unchanged (.undo _ rfl error hanswer _ (by simp [Task.isPlain]))
  | ok | dispatched | stopped =>
    obtain rfl : _ = progress := by simpa [startedUnit, hanswer, andThen] using h
    exact .unchanged (.startedUnit n u (by simp [hanswer]))

theorem startUnit_conducts (h : w.startUnit n u = some progress) :
    w.ConductsTask me (.unit (.startUnit n u)) progress := by
  simp only [startUnit, Option.bind_eq_bind, Option.bind_eq_some_iff] at h
  obtain ⟨unit, hunit, h⟩ := h
  have hunit' : w.outline.unit? n u = some unit.outline := by simp [outline_unit?, hunit]
  split at h
  case h_1 state hstate =>
    obtain rfl : _ = progress := by simpa [andThen] using h
    exact .unchanged (.startInline n u unit.outline hunit' (by simp [queued_eq, hstate]))
  case h_2 state hstate =>
    split at h
    · obtain rfl : _ = progress := by simpa [andThen] using h
      exact .fails rfl rfl rfl
    · obtain rfl : _ = progress := by simpa [andThen, spawn] using h
      refine .spawning (.startQueued n u unit.outline hunit' (by simp [queued_eq, hstate])) ?_
        rfl rfl
      exact outline_changeQueue (fun _ => rfl) fun _ => rfl

theorem prepareInline_conducts {asked : Bool} (h : w.prepareInline n u asked = some progress) :
    w.ConductsTask me (.unit (.prepareInline n u asked)) progress := by
  simp only [prepareInline, Option.bind_eq_bind, Option.bind_eq_some_iff] at h
  obtain ⟨unit, hunit, ⟨reply, called⟩, hcall, h⟩ := h
  obtain ⟨houtline, hthreads, hstreams⟩ := callProcessor_eq hcall
  cases reply with
  | waiting limit =>
    cases asked with
    | true => exact absurd h (by simp)
    | false =>
      obtain rfl : _ = progress := by simpa [andThen] using h
      exact .alone (.prepareInline n u false) houtline hthreads hstreams
  | returned value =>
    obtain rfl : _ = progress := by simpa [initError, andThen] using h
    refine .alone (.preparedInline n u asked) ?_ (by simpa using hthreads)
      (by simpa using hstreams)
    rw [outline_note, ← houtline]
    exact outline_changeInline fun _ => rfl
  | failed | panicked =>
    obtain rfl : _ = progress := by simpa [initError, andThen] using h
    exact .fails rfl (by simpa using hthreads) (by simpa using hstreams)

theorem awaitWorker_conducts {expired : Bool} (h : w.awaitWorker expired n u = some progress) :
    w.ConductsTask me (.unit (.awaitWorker n u)) progress := by
  simp only [awaitWorker, Option.bind_eq_bind, Option.bind_eq_some_iff] at h
  obtain ⟨node, hnode, unit, hunit, h⟩ := h
  split at h
  case h_1 => exact absurd h (by simp)
  case h_2 state hstate =>
    split at h
    case h_1 value hready =>
      obtain rfl : _ = progress := by simpa [andThen] using h
      refine .alone (.awaitWorker n u unit.outline (by simp [outline_unit?, unit?, hnode, hunit])
        ?_) ?_ rfl rfl
      · simp [ExecutionUnit.outline, hstate, UnitState.signs, hready, Except.toBool]
      · rw [outline_note]
        exact outline_changeQueue (fun _ => rfl) fun _ => rfl
    case h_2 error hready =>
      split at h
      · exact absurd h (by simp)
      · obtain rfl : _ = progress := by simpa [andThen] using h
        exact .fails rfl rfl rfl
    case h_3 =>
      split at h
      · obtain rfl : _ = progress := by simpa [andThen] using h
        exact .fails rfl rfl rfl
      · exact absurd h (by simp)

theorem stopNode_conducts (h : w.stopNode n = some progress) :
    w.ConductsTask me (.unit (.stopNode n)) progress := by
  simp only [stopNode, Option.bind_eq_bind, Option.bind_eq_some_iff] at h
  obtain ⟨node, hnode, h⟩ := h
  obtain rfl : _ = progress := by simpa [andThen] using h
  rw [← layout_units hnode]
  exact .unchanged (.stopNode n)

theorem stoppedNode_conducts (h : w.stoppedNode n = some progress) :
    w.ConductsTask me (.unit (.stoppedNode n)) progress := by
  simp only [stoppedNode, Option.bind_eq_bind, Option.bind_eq_some_iff] at h
  obtain ⟨node, hnode, h⟩ := h
  obtain rfl : _ = progress := by simpa [andThen] using h
  exact .alone (.stoppedNode n) (by simp) rfl rfl

theorem stopUnit_conducts (h : w.stopUnit n u = some progress) :
    w.ConductsTask me (.unit (.stopUnit n u)) progress := by
  simp only [stopUnit, Option.bind_eq_bind, Option.bind_eq_some_iff] at h
  obtain ⟨unit, hunit, h⟩ := h
  have hunit' : w.outline.unit? n u = some unit.outline := by simp [outline_unit?, hunit]
  split at h
  case h_1 state hstate =>
    split at h
    · obtain rfl : _ = progress := by simpa [andThen] using h
      refine .alone (.stopInline n u unit.outline hunit' (by simp [queued_eq, hstate])) ?_ rfl rfl
      exact outline_changeInline fun _ => rfl
    case isFalse hrunning =>
      obtain rfl : _ = progress := by simpa [done] using h
      refine .unchanged (.stopNothing n u unit.outline hunit' ?_)
      simpa [ExecutionUnit.outline, hstate, UnitState.signs] using hrunning
  case h_2 state hstate =>
    split at h
    · obtain rfl : _ = progress := by simpa [andThen] using h
      exact .unchanged (.stopQueued n u unit.outline hunit' (by simp [queued_eq, hstate]))
    case isFalse haccepting =>
      obtain rfl : _ = progress := by simpa [done] using h
      refine .unchanged (.stopNothing n u unit.outline hunit' ?_)
      simpa [ExecutionUnit.outline, hstate, UnitState.signs] using haccepting

theorem finishInline_conducts {asked : Bool} (h : w.finishInline n u asked = some progress) :
    w.ConductsTask me (.unit (.finishInline n u asked)) progress := by
  simp only [finishInline, Option.bind_eq_bind, Option.bind_eq_some_iff] at h
  obtain ⟨unit, hunit, ⟨reply, called⟩, hcall, h⟩ := h
  obtain ⟨houtline, hthreads, hstreams⟩ := callProcessor_eq hcall
  cases reply with
  | waiting limit =>
    cases asked with
    | true => exact absurd h (by simp)
    | false =>
      obtain rfl : _ = progress := by simpa [andThen] using h
      exact .alone (.finishInline n u false) houtline hthreads hstreams
  | returned | failed | panicked =>
    obtain rfl : _ = progress := by simpa [andThen] using h
    refine .alone (.finishedInline n u asked) ?_ (by simpa using hthreads)
      (by simpa using hstreams)
    rw [← houtline]
    exact outline_changeUnit_eq fun unit _ =>
      outline_changeInline_eq (f := fun s => { s with occupied := false }) fun _ => rfl

theorem drain_conducts {noted : Nat} (h : w.drain n u noted = some progress) :
    w.ConductsTask me (.unit (.drain n u noted)) progress := by
  simp only [drain, Option.bind_eq_bind, Option.bind_eq_some_iff] at h
  obtain ⟨unit, hunit, h⟩ := h
  have hunit' : w.outline.unit? n u = some unit.outline := by simp [outline_unit?, hunit]
  by_cases hleft : unit.stats.inFlight = 0
  · obtain rfl : _ = progress := by simpa [hleft, done] using h
    refine .unchanged (.drained n u noted unit.outline hunit' (.inl ?_))
    simp only [UnitStats.inFlight] at hleft
    simp only [ExecutionUnit.outline]
    omega
  · rw [if_neg hleft] at h
    cases hstate : unit.state with
    | inline state =>
      obtain rfl : _ = progress := by simpa [hstate, done] using h
      refine .alone (.drained n u noted unit.outline hunit' (.inr ?_)) (by simp) rfl rfl
      simp [ExecutionUnit.outline, hstate, UnitState.signs]
    | queued state =>
      cases halive : state.alive with
      | false =>
        obtain rfl : _ = progress := by simpa [hstate, halive, done] using h
        refine .alone (.drained n u noted unit.outline hunit' (.inr ?_)) (by simp) rfl rfl
        simp [ExecutionUnit.outline, hstate, UnitState.signs, halive]
      | true =>
        simp only [hstate, halive, Bool.not_true, Bool.false_eq_true, if_false] at h
        split at h
        · obtain rfl : _ = progress := by simpa [andThen] using h
          exact .alone (.drain n u noted _) (by simp) rfl rfl
        · exact absurd h (by simp)

theorem close_conducts (h : w.close n u = some progress) :
    w.ConductsTask me (.unit (.close n u)) progress := by
  simp only [close, Option.bind_eq_bind, Option.bind_eq_some_iff] at h
  obtain ⟨unit, hunit, h⟩ := h
  split at h
  case h_1 state hstate =>
    obtain rfl : _ = progress := by simpa [done] using h
    exact .unchanged (.closeNothing n u)
  case h_2 state hstate =>
    split at h
    · exact absurd h (by simp)
    · obtain rfl : _ = progress := by simpa [done] using h
      refine .alone (.close n u) ?_ rfl rfl
      exact outline_changeQueue (fun _ => rfl) fun _ => rfl

theorem joinWorker_conducts (h : w.joinWorker n u = some progress) :
    w.ConductsTask me (.unit (.joinWorker n u)) progress := by
  simp only [joinWorker, Option.bind_eq_bind, Option.bind_eq_some_iff] at h
  obtain ⟨unit, hunit, h⟩ := h
  have hunit' : w.outline.unit? n u = some unit.outline := by simp [outline_unit?, hunit]
  split at h
  case h_1 state hstate =>
    obtain rfl : _ = progress := by simpa [done] using h
    refine .unchanged (.joinWorker n u unit.outline hunit' ?_)
    simp [ExecutionUnit.outline, hstate, UnitState.signs]
  case h_2 state hstate =>
    split at h
    · exact absurd h (by simp)
    case isFalse halive =>
      obtain rfl : _ = progress := by simpa [done] using h
      refine .unchanged (.joinWorker n u unit.outline hunit' ?_)
      simpa [ExecutionUnit.outline, hstate, UnitState.signs] using halive

/-- Every task in the life of nodes and units conducts a start or a stop, or it is the task
of the loop of a worker. -/
theorem performUnit_conducts {expired : Bool} {task : UnitTask}
    (howner : (Task.unit task).owner? = none)
    (h : w.performUnit me expired task = some progress) :
    w.ConductsTask me (.unit task) progress := by
  cases task with
  | startNode n => exact startNode_conducts h
  | startUnits n u => exact startUnits_conducts h
  | startedUnit n u => exact startedUnit_conducts h
  | startUnit n u => exact startUnit_conducts h
  | prepareInline n u asked => exact prepareInline_conducts h
  | awaitWorker n u => exact awaitWorker_conducts h
  | stopNode n => exact stopNode_conducts h
  | stoppedNode n => exact stoppedNode_conducts h
  | stopUnit n u => exact stopUnit_conducts h
  | finishInline n u asked => exact finishInline_conducts h
  | drain n u noted => exact drain_conducts h
  | dismiss n u =>
    obtain rfl : _ = progress := by simpa [performUnit, done] using h
    refine .alone (.dismiss n u) ?_ rfl rfl
    exact outline_changeQueue (fun _ => rfl) fun _ => rfl
  | close n u => exact close_conducts h
  | joinWorker n u => exact joinWorker_conducts h
  | stoppedUnit n u =>
    simp only [performUnit, stoppedUnit, Option.bind_eq_bind, Option.bind_eq_some_iff] at h
    obtain ⟨unit, hunit, h⟩ := h
    obtain rfl : _ = progress := by simpa [done] using h
    exact .alone (.stoppedUnit n u) (by simp) rfl rfl
  | prepareWorker | receive | checkDismissed | finishWorker => simp [Task.owner?] at howner

end Units

section Sources

variable {t v : Nat} {progress : Progress P}

theorem startTrigger_conducts (h : w.startTrigger t = some progress) :
    w.ConductsTask me (.source (.startTrigger t)) progress := by
  simp only [startTrigger, Option.bind_eq_bind, Option.bind_eq_some_iff] at h
  obtain ⟨trigger, htrigger, h⟩ := h
  split at h
  · obtain rfl : _ = progress := by simpa [andThen] using h
    exact .fails rfl rfl rfl
  · obtain rfl : _ = progress := by simpa [andThen] using h
    exact .unchanged (.startTrigger t)

theorem startSources_conducts (h : w.startSources t v = some progress) :
    w.ConductsTask me (.source (.startSources t v)) progress := by
  simp only [startSources, Option.bind_eq_bind, Option.bind_eq_some_iff] at h
  obtain ⟨trigger, htrigger, h⟩ := h
  split at h
  case isTrue hv =>
    obtain rfl : _ = progress := by simpa [andThen] using h
    exact .unchanged (.startSources t v (by rwa [layout_sources htrigger]))
  case isFalse hv =>
    obtain rfl : _ = progress := by simpa [andThen] using h
    exact .alone (.startedTrigger t v (by rw [layout_sources htrigger]; omega)) (by simp) rfl rfl

theorem startedSource_conducts (h : w.startedSource me t v = some progress) :
    w.ConductsTask me (.source (.startedSource t v)) progress := by
  cases hanswer : w.answerOf me with
  | failed error =>
    obtain rfl : _ = progress := by simpa [startedSource, hanswer, andThen] using h
    exact .unchanged (.undo _ rfl error hanswer _ (by simp [Task.isPlain]))
  | ok | dispatched | stopped =>
    obtain rfl : _ = progress := by simpa [startedSource, hanswer, andThen] using h
    exact .unchanged (.startedSource t v (by simp [hanswer]))

theorem startSource_conducts (h : w.startSource t v = some progress) :
    w.ConductsTask me (.source (.startSource t v)) progress := by
  obtain rfl : _ = progress := by simpa [startSource, addLaunch, spawn, andThen] using h
  exact .spawning (.startSource t v w.launches.length) rfl rfl rfl

theorem awaitSource_conducts {expired : Bool} {l worker : Nat}
    (h : w.awaitSource expired t v l worker = some progress) :
    w.ConductsTask me (.source (.await t v l worker)) progress := by
  simp only [awaitSource, Option.bind_eq_bind, Option.bind_eq_some_iff] at h
  obtain ⟨unit, hunit, launch, hlaunch, h⟩ := h
  split at h
  · obtain rfl : _ = progress := by simpa [andThen] using h
    refine .alone (.await t v l worker) ?_ rfl rfl
    exact outline_changeSource fun _ => rfl
  · split at h
    · obtain rfl : _ = progress := by simpa [andThen] using h
      exact .fails rfl rfl rfl
    · exact absurd h (by simp)
  · split at h
    · obtain rfl : _ = progress := by simpa [andThen] using h
      exact .fails rfl rfl rfl
    · split at h
      · obtain rfl : _ = progress := by simpa [andThen] using h
        exact .unchanged (.awaitInVain t v l worker)
      · exact absurd h (by simp)

theorem giveUpSource_conducts {l worker : Nat} (h : w.giveUpSource t v l worker = some progress) :
    w.ConductsTask me (.source (.giveUp t v l worker)) progress := by
  simp only [giveUpSource, Option.bind_eq_bind, Option.bind_eq_some_iff] at h
  obtain ⟨trigger, htrigger, unit, hunit, launch, hlaunch, h⟩ := h
  obtain rfl : _ = progress := by simpa only [andThen, Option.some.injEq] using h
  refine .alone (.giveUp t v l worker _ _ ?_) rfl rfl rfl
  split <;> simp [Task.isPlain]

theorem stopTrigger_conducts (h : w.stopTrigger t = some progress) :
    w.ConductsTask me (.source (.stopTrigger t)) progress := by
  simp only [stopTrigger, Option.bind_eq_bind, Option.bind_eq_some_iff] at h
  obtain ⟨trigger, htrigger, h⟩ := h
  obtain rfl : _ = progress := by simpa [andThen] using h
  rw [← layout_sources htrigger]
  exact .unchanged (.stopTrigger t)

theorem stopSource_conducts (h : w.stopSource t v = some progress) :
    w.ConductsTask me (.source (.stopSource t v)) progress := by
  simp only [stopSource, Option.bind_eq_bind, Option.bind_eq_some_iff] at h
  obtain ⟨unit, hunit, h⟩ := h
  have hunit' : w.outline.source? t v = some unit.outline := by simp [outline_source?, hunit]
  split at h
  case isTrue hrunning =>
    obtain rfl : _ = progress := by simpa [andThen] using h
    refine .alone (.stopSource t v unit.name unit.outline hunit') ?_ rfl rfl
    exact outline_changeSource fun _ => rfl
  case isFalse hrunning =>
    obtain rfl : _ = progress := by simpa [done] using h
    exact .unchanged (.stopNoSource t v unit.outline hunit'
      (by simpa [SourceUnit.outline] using hrunning))

theorem haltSource_conducts {asked : Bool} (h : w.haltSource t v asked = some progress) :
    w.ConductsTask me (.source (.halt t v asked)) progress := by
  simp only [haltSource, Option.bind_eq_bind, Option.bind_eq_some_iff] at h
  obtain ⟨⟨reply, called⟩, hcall, h⟩ := h
  obtain ⟨houtline, hthreads, hstreams⟩ := callSource_eq hcall
  cases reply with
  | waiting limit =>
    cases asked with
    | true => exact absurd h (by simp)
    | false =>
      obtain rfl : _ = progress := by simpa [andThen] using h
      exact .alone (.halt t v false) houtline hthreads hstreams
  | panicked text =>
    obtain rfl : _ = progress := by simpa using h
    exact .breakDown rfl hthreads
  | returned | failed =>
    obtain rfl : _ = progress := by simpa [done] using h
    exact .alone (.halted t v asked) houtline hthreads hstreams

theorem joinSource_conducts {unit : String} {worker : Nat}
    (h : w.joinSource unit worker = some progress) :
    w.ConductsTask me (.source (.join unit worker)) progress := by
  simp only [joinSource, Option.bind_eq_bind, Option.bind_eq_some_iff] at h
  obtain ⟨thread, hthread, h⟩ := h
  split at h
  case isTrue hended =>
    obtain rfl : _ = progress := by simpa [done] using h
    exact .alone (.join unit worker thread hthread (List.isEmpty_iff.mp hended)) (by simp) rfl rfl
  case isFalse => exact absurd h (by simp)

/-- Every task in the life of triggers and sources conducts a start or a stop, or it is the
task of the loop of a source. -/
theorem performSource_conducts {expired : Bool} {task : SourceTask}
    (howner : (Task.source task).owner? = none)
    (h : w.performSource me expired task = some progress) :
    w.ConductsTask me (.source task) progress := by
  cases task with
  | startTrigger t => exact startTrigger_conducts h
  | startSources t v => exact startSources_conducts h
  | startedSource t v => exact startedSource_conducts h
  | startSource t v => exact startSource_conducts h
  | await t v l worker => exact awaitSource_conducts h
  | giveUp t v l worker => exact giveUpSource_conducts h
  | stopTrigger t => exact stopTrigger_conducts h
  | stoppedTrigger t =>
    simp only [performSource, stoppedTrigger, Option.bind_eq_bind,
      Option.bind_eq_some_iff] at h
    obtain ⟨trigger, htrigger, h⟩ := h
    obtain rfl : _ = progress := by simpa [andThen] using h
    exact .alone (.stoppedTrigger t) (by simp) rfl rfl
  | stopSource t v => exact stopSource_conducts h
  | halt t v asked => exact haltSource_conducts h
  | join unit worker => exact joinSource_conducts h
  | prepare | begin | advance | finish => simp [Task.owner?] at howner

end Sources

section Streams

variable {s : Nat} {progress : Progress P}

theorem startProcessors_conducts {p : Nat} (h : w.startProcessors s p = some progress) :
    w.ConductsTask me (.stream (.startProcessors s p)) progress := by
  cases p with
  | zero =>
    obtain rfl : _ = progress := by simpa [startProcessors, andThen] using h
    exact .unchanged (.startedProcessors s)
  | succ p =>
    simp only [startProcessors, Option.bind_eq_bind, Option.bind_eq_some_iff] at h
    obtain ⟨stream, hstream, n, hn, h⟩ := h
    obtain rfl : _ = progress := by simpa [andThen] using h
    exact .unchanged (.startProcessors s p n stream hstream hn)

theorem startedProcessor_conducts {p : Nat} (h : w.startedProcessor me s p = some progress) :
    w.ConductsTask me (.stream (.startedProcessor s p)) progress := by
  simp only [startedProcessor, Option.bind_eq_bind, Option.bind_eq_some_iff] at h
  obtain ⟨stream, hstream, h⟩ := h
  cases hanswer : w.answerOf me with
  | failed error =>
    obtain rfl : _ = progress := by simpa only [hanswer, andThen, Option.some.injEq] using h
    refine .unchanged (.undo _ rfl error hanswer _ fun task htask => ?_)
    obtain ⟨_, -, rfl⟩ := List.mem_map.mp htask
    rfl
  | ok | dispatched | stopped =>
    obtain rfl : _ = progress := by simpa [hanswer, andThen] using h
    exact .unchanged (.startedProcessor s p (by simp [hanswer]))

theorem startTriggers_conducts {i : Nat} (h : w.startTriggers s i = some progress) :
    w.ConductsTask me (.stream (.startTriggers s i)) progress := by
  simp only [startTriggers, Option.bind_eq_bind, Option.bind_eq_some_iff] at h
  obtain ⟨stream, hstream, h⟩ := h
  cases htrigger : stream.triggers[i]? with
  | some t =>
    obtain rfl : _ = progress := by simpa [htrigger, andThen] using h
    exact .unchanged (.startTriggers s i t stream hstream htrigger)
  | none =>
    obtain rfl : _ = progress := by simpa [htrigger, andThen] using h
    exact .goOn (.started s i stream hstream (List.getElem?_eq_none_iff.mp htrigger))
      (by simp [changeStream])

theorem startedTrigger_conducts {i : Nat} (h : w.startedTrigger me s i = some progress) :
    w.ConductsTask me (.stream (.startedTrigger s i)) progress := by
  simp only [startedTrigger, Option.bind_eq_bind, Option.bind_eq_some_iff] at h
  obtain ⟨stream, hstream, h⟩ := h
  cases hanswer : w.answerOf me with
  | failed error =>
    obtain rfl : _ = progress := by simpa only [hanswer, andThen, Option.some.injEq] using h
    refine .unchanged (.undo _ rfl error hanswer _ fun task htask => ?_)
    simp only [List.mem_append, List.mem_map] at htask
    obtain ⟨_, -, rfl⟩ | ⟨_, -, rfl⟩ := htask <;> rfl
  | ok | dispatched | stopped =>
    obtain rfl : _ = progress := by simpa [hanswer, andThen] using h
    exact .unchanged (.startedTriggers s i (by simp [hanswer]))

theorem stopStream_conducts (h : w.stopStream s = some progress) :
    w.ConductsTask me (.stream (.stop s)) progress := by
  simp only [stopStream, Option.bind_eq_bind, Option.bind_eq_some_iff] at h
  obtain ⟨stream, hstream, h⟩ := h
  split at h
  case isTrue =>
    obtain rfl : _ = progress := by simpa only [andThen, Option.some.injEq] using h
    exact .goOn (.stop s stream hstream) (by simp [changeStream])
  case isFalse hrunning =>
    obtain rfl : _ = progress := by simpa [done] using h
    exact .unchanged (.stopNoStream s stream hstream (by simpa using hrunning))

/-- Every task in the life of streams conducts a start or a stop. -/
theorem performStream_conducts {task : StreamTask}
    (h : w.performStream me task = some progress) :
    w.ConductsTask me (.stream task) progress := by
  cases task with
  | start s =>
    simp only [performStream, Option.bind_eq_bind, Option.bind_eq_some_iff] at h
    obtain ⟨stream, hstream, h⟩ := h
    obtain rfl : _ = progress := by simpa [andThen] using h
    exact .unchanged (.start s stream hstream)
  | startProcessors s p => exact startProcessors_conducts h
  | startedProcessor s p => exact startedProcessor_conducts h
  | startTriggers s i => exact startTriggers_conducts h
  | startedTrigger s i => exact startedTrigger_conducts h
  | stop s => exact stopStream_conducts h
  | stopped s =>
    simp only [performStream, stoppedStream, Option.bind_eq_bind, Option.bind_eq_some_iff] at h
    obtain ⟨stream, hstream, h⟩ := h
    obtain rfl : _ = progress := by simpa [andThen] using h
    exact .alone (.stopped s) (by simp) rfl rfl

end Streams

end World
end EventPipeline
