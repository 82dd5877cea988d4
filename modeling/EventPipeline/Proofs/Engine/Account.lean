import EventPipeline.Engine.Journey
import EventPipeline.Proofs.Engine.Pace

/-!
# `EventPipeline.Proofs.Engine.Account`: the marks of all events

Where processors decide by the payload, the marks that an event has still to leave are known
from where it is. So they can be booked in advance: the books of a world hold the marks that
it shows, and those that the events in its queues will leave (`World.books`); `Task.ahead` are
those that the events on some agenda will leave.

A step moves marks from agendas to books and back, and adds none but the journey of an event
that it makes (`Accounts.move`). So when all agendas and queues are empty, what the
world shows are the journeys of all events that were made, in whatever order threads took
their steps.
-/

set_option autoImplicit false

namespace EventPipeline

-- Payloads hold floating-point numbers, which have no decidable equality.
noncomputable instance : DecidableEq Mark := Classical.decEq Mark

variable {P : Plugins} {route : List Stage} {n : Nat} {stage : Stage} {event : Event}
  {mark : Mark}

/-! ## Marks that are still to come -/

/-- The marks of an event that comes to a place on the route. -/
def arrive (route : List Stage) (n : Nat) (event : Event) : List Mark :=
  travel (route.drop n) n event

/-- The marks of an event that a node sends on. -/
def sendOn (route : List Stage) (n : Nat) (event : Event) : List Mark :=
  .emitted n :: arrive route (n + 1) event

/-- An event that comes to a stage. -/
theorem arrive_eq (h : route[n]? = some stage) :
    arrive route n event = stage.pass n (sendOn route n) event := by
  obtain ⟨hn, rfl⟩ := List.getElem?_eq_some_iff.mp h
  unfold arrive
  rw [List.drop_eq_getElem_cons hn]
  rfl

/-- An event behind the last stage has completed its way. -/
theorem arrive_end (h : route.length ≤ n) : arrive route n event = event.told .completed := by
  rw [arrive, List.drop_eq_nil_of_le h]
  rfl

/-- The marks of an event that is processed at a place on the route. -/
def workAt (route : List Stage) (n : Nat) (event : Event) : List Mark :=
  (route[n]?).elim [] fun stage => stage.work n (sendOn route n) event

/-- The marks of an event that a sink at a place on the route hands on as it came. -/
def forwardAt (route : List Stage) (n : Nat) (event : Event) : List Mark :=
  (route[n]?).elim [] fun stage => stage.forward (sendOn route n) event

/-- The mark of a gate that hands on an event; the gates of triggers leave none. -/
def GateId.marks : GateId → List Mark
  | node n => [.emitted n]
  | trigger _ => []

namespace Task

/-- The marks that the event of a task has still to leave. -/
def ahead (route : List Stage) : Task → List Mark
  | .event (.emit g event) => g.marks ++ arrive route g.next event
  | .event (.enter n event) => arrive route n event
  | .event (.offer n _ event) | .event (.send n _ event) =>
    workAt route n event ++ forwardAt route n event
  | .event (.process n _ event _) => workAt route n event
  | _ => []

/-- What the task makes an event of. -/
def makes? : Task → Option (Json × Option Continuation)
  | .event (.make _ payload continuation) => some (payload, continuation)
  | _ => none

end Task

/-- The marks that the events of tasks have still to leave. -/
def ahead (route : List Stage) (tasks : List Task) : List Mark :=
  tasks.flatMap (Task.ahead route)

@[simp] theorem ahead_nil : ahead route [] = [] := rfl

@[simp] theorem ahead_cons (task : Task) (tasks : List Task) :
    ahead route (task :: tasks) = task.ahead route ++ ahead route tasks := rfl

@[simp] theorem ahead_append (tasks tasks' : List Task) :
    ahead route (tasks ++ tasks') = ahead route tasks ++ ahead route tasks' :=
  List.flatMap_append

/-- The marks of a journey that is added to others. -/
theorem journeys_append (k : Nat) (entries entries' : List (Json × Option Continuation)) :
    journeys route k (entries ++ entries') =
      journeys route k entries ++ journeys route (k + entries.length) entries' := by
  induction entries generalizing k with
  | nil => rfl
  | cons entry entries ih =>
    simp only [List.cons_append, journeys, ih, List.append_assoc, List.length_cons]
    rw [Nat.add_right_comm, Nat.add_assoc k]

/-! ## The books of a world -/

/-- What the counters of a node show, and what the events in its queues have still to
leave. -/
def Node.books (route : List Stage) (n : Nat) (node : Node P) : List Mark :=
  node.marks n ++ node.holdings.flatMap fun held => held.2.flatMap (workAt route n)

/-- The unit is in the hands of a processor that decides by the payload. -/
structure Node.Runs (node : Node P) (stage : Stage) : Prop where
  kind : node.kind = stage.kind
  filter : node.filter = stage.filter
  units : ∀ unit ∈ node.units, P.DecidesAs stage.ending unit.processor

/-- A node decides about an event as its stage does. -/
theorem Node.Runs.judge_eq {node : Node P} (h : node.Runs stage) (payload : Json) :
    (node.judge payload).1 = stage.verdict payload := by
  unfold Node.judge Stage.verdict
  rw [h.filter]
  cases stage.filter <;> rfl

namespace World

/-- What a world shows, and what the events in its queues have still to leave. -/
def books (route : List Stage) (w : World P) : List Mark :=
  (w.nodes.mapIdx (Node.books route)).flatten ++ w.fates.map FateReport.mark

/-- Every node of the world is a stage of the route. -/
structure Staffed (w : World P) (route : List Stage) : Prop where
  length : w.nodes.length = route.length
  runs : ∀ (n : Nat) node stage, w.nodes[n]? = some node → route[n]? = some stage →
    node.Runs stage

/-- How many events the first trigger has made. -/
def sequence (w : World P) : Nat :=
  (w.triggers[0]?).elim 0 (·.gate.sequence)

variable {w v u : World P} {node : Node P} {gone new gone' new' : List Mark}

/-- The stage of a node. -/
theorem Staffed.exists_stage (hw : w.Staffed route) (hnode : w.nodes[n]? = some node) :
    ∃ stage, route[n]? = some stage ∧ node.Runs stage := by
  have hn : n < route.length := hw.length ▸ (List.getElem?_eq_some_iff.mp hnode).1
  exact ⟨_, List.getElem?_eq_getElem hn, hw.runs n node _ hnode (List.getElem?_eq_getElem hn)⟩

/-- One world comes from another one by changes of nodes, of fates and of what plugins share:
some marks are new in its books, and some are gone. -/
structure Books (route : List Stage) (w v : World P) (gone new : List Mark) : Prop where
  staffed : w.Staffed route → v.Staffed route
  count : ∀ mark, (v.books route).count mark + gone.count mark =
    (w.books route).count mark + new.count mark
  sequence : v.sequence = w.sequence

/-- The books of nodes one of which changes. -/
theorem count_mapIdx_modify {α : Type} {l : List α} {a : α} (h : l[n]? = some a)
    (g : Nat → α → List Mark) (f : α → α) (mark : Mark) :
    ((l.modify n f).mapIdx g).flatten.count mark + (g n a).count mark =
      (l.mapIdx g).flatten.count mark + (g n (f a)).count mark := by
  obtain ⟨before, after, rfl, rfl, hmodify⟩ := exists_append_of_getElem? h
  rw [hmodify]
  simp only [List.mapIdx_append, List.mapIdx_cons, List.flatten_append, List.flatten_cons,
    List.count_append, Nat.zero_add]
  omega

namespace Books

theorem refl : Books route w w [] [] := ⟨id, fun _ => rfl, rfl⟩

theorem trans (h : Books route w v gone new) (h' : Books route v u gone' new') :
    Books route w u (gone ++ gone') (new ++ new') := by
  refine ⟨h'.staffed ∘ h.staffed, fun mark => ?_, h'.sequence.trans h.sequence⟩
  have hfirst := h.count mark
  have hsecond := h'.count mark
  simp only [List.count_append]
  omega

/-- What only matters are nodes, fates and the numbers of events. -/
theorem of_eq (hnodes : v.nodes = w.nodes) (hfates : v.fates = w.fates)
    (htriggers : v.triggers = w.triggers) : Books route w v [] [] :=
  ⟨fun hw => ⟨hnodes ▸ hw.length, fun n node stage => hnodes ▸ hw.runs n node stage⟩,
    fun mark => by simp only [books, hnodes, hfates], by simp only [World.sequence, htriggers]⟩

/-- A change of a node that goes on as the same stage. -/
theorem changeNode {f : Node P → Node P} (hnode : w.nodes[n]? = some node)
    (hruns : ∀ stage, node.Runs stage → (f node).Runs stage)
    (hbooks : ∀ mark, ((f node).books route n).count mark + gone.count mark =
      (node.books route n).count mark + new.count mark) :
    Books route w (w.changeNode n f) gone new := by
  refine ⟨fun hw => ⟨(List.length_modify ..).trans hw.length, fun m other stage hother => ?_⟩,
    fun mark => ?_, rfl⟩
  · obtain ⟨rfl, old, hold, rfl⟩ | ⟨-, hold⟩ := getElem?_modify_cases hother
    · obtain rfl : node = old := by simpa [hnode] using hold
      exact fun hstage => hruns stage (hw.runs _ _ stage hnode hstage)
    · exact hw.runs m other stage hold
  · have hcount := count_mapIdx_modify hnode (Node.books route) f mark
    have hmarks := hbooks mark
    simp only [books, World.changeNode, List.count_append]
    omega

/-- A change that concerns no event. -/
theorem silent (h : Silent w v) : Books route w v [] [] := by
  have hnodes (n : Nat) : (v.nodes[n]?).map (fun node => (node.station, node.holdings)) =
      (w.nodes[n]?).map fun node => (node.station, node.holdings) := by
    have hstations := congrArg (·[n]?) h.stations
    have hholdings := congrArg (·[n]?) h.holdings
    simp only [List.getElem?_map] at hstations hholdings
    cases hv : v.nodes[n]? <;> cases hw : w.nodes[n]? <;> simp_all
  have hlength : v.nodes.length = w.nodes.length := by
    simpa using congrArg List.length h.stations
  refine ⟨fun hw => ⟨hlength.trans hw.length, fun n later stage hlater hstage => ?_⟩,
    fun mark => ?_, h.made⟩
  · obtain ⟨node, hnode, heq⟩ := Option.map_eq_some_iff.mp
      ((hnodes n).symm.trans (congrArg (Option.map _) hlater))
    obtain ⟨hstation, hholdings⟩ := Prod.mk.inj heq
    have hruns := hw.runs n node stage hnode hstage
    refine ⟨(congrArg (·.kind) hstation).symm.trans hruns.kind,
      (congrArg (·.filter) hstation).symm.trans hruns.filter, fun unit hunit => ?_⟩
    have hheld : (unit.processor, unit.state.queue) ∈ node.holdings :=
      hholdings ▸ List.mem_map_of_mem hunit
    obtain ⟨old, hold, hprocessor⟩ := List.mem_map.mp hheld
    exact (Prod.mk.inj hprocessor).1 ▸ hruns.units old hold
  · have hbooks : v.nodes.mapIdx (Node.books route) = w.nodes.mapIdx (Node.books route) := by
      refine List.ext_getElem? fun n => ?_
      rw [List.getElem?_mapIdx, List.getElem?_mapIdx]
      obtain ⟨hv, hw⟩ | ⟨later, node, hv, hw, hstation, hholdings⟩ : (v.nodes[n]? = none ∧
          w.nodes[n]? = none) ∨ ∃ later node, v.nodes[n]? = some later ∧
            w.nodes[n]? = some node ∧ later.station = node.station ∧
              later.holdings = node.holdings := by
        have hn := hnodes n
        cases hv : v.nodes[n]? <;> cases hw : w.nodes[n]? <;> simp_all
      · rw [hv, hw]
      · have hmarks : later.marks n = node.marks n := by
          have hcounts := congrArg Station.counts hstation
          simp only [Node.station, Counts.mk.injEq] at hcounts
          obtain ⟨hreceived, hemitted, hdropped, hfailed⟩ := hcounts
          simp only [Node.marks, hreceived, hemitted, hdropped, hfailed]
        rw [hv, hw, Option.map_some, Option.map_some, Node.books, Node.books, hmarks, hholdings]
    simp only [books, hbooks, h.fates]

/-- A further change that concerns no event. -/
theorem further (h : Books route w v gone new) (hsilent : Silent v u) :
    Books route w u gone new := by
  have hu := h.trans (silent hsilent)
  rwa [List.append_nil, List.append_nil] at hu

/-- Telling a fate of an event. -/
theorem tell (event : Event) (fate : Fate) :
    Books route w (w.tell event fate) [] (event.told fate.kind) := by
  unfold World.tell Event.told
  cases event.continuation with
  | none => exact .refl
  | some continuation =>
    cases continuation with
    | logged => exact .of_eq rfl rfl rfl
    | recorded =>
      refine ⟨fun hw => ⟨hw.length, hw.runs⟩, fun mark => ?_, rfl⟩
      simp only [books, List.map_append, List.count_append, List.map_singleton,
        FateReport.mark, List.count_nil]
      omega

/-- A node that counts an event that it has received. -/
theorem receive (hnode : w.nodes[n]? = some node) :
    Books route w (w.changeNode n fun node => { node with received := node.received + 1 }) []
      [.received n] := by
  refine changeNode hnode (fun stage h => ⟨h.kind, h.filter, h.units⟩) fun mark => ?_
  simp only [Node.books, Node.marks, Node.holdings, List.replicate_succ, List.count_append,
    List.count_cons, List.count_nil]
  omega

/-- A node that counts an event that it drops. -/
theorem drop (hnode : w.nodes[n]? = some node) :
    Books route w (w.changeNode n fun node => { node with dropped := node.dropped + 1 }) []
      [.dropped n] := by
  refine changeNode hnode (fun stage h => ⟨h.kind, h.filter, h.units⟩) fun mark => ?_
  simp only [Node.books, Node.marks, Node.holdings, List.replicate_succ, List.count_append,
    List.count_cons, List.count_nil]
  omega

/-- A node that counts an event that has failed. -/
theorem fail (hnode : w.nodes[n]? = some node) :
    Books route w (w.changeNode n fun node => { node with failed := node.failed + 1 }) []
      [.failed n] := by
  refine changeNode hnode (fun stage h => ⟨h.kind, h.filter, h.units⟩) fun mark => ?_
  simp only [Node.books, Node.marks, Node.holdings, List.replicate_succ, List.count_append,
    List.count_cons, List.count_nil]
  omega

/-- A gate that counts an event. -/
theorem emit {g : GateId} {gate : Gate} {f : Gate → Gate} (hgate : w.gate? g = some gate)
    (hf : ∀ gate, (f gate).emitted = gate.emitted + 1 ∧ (f gate).sequence = gate.sequence) :
    Books route w (w.changeGate g f) [] g.marks := by
  cases g with
  | node n =>
    obtain ⟨node, hnode, -⟩ := Option.map_eq_some_iff.mp hgate
    refine changeNode hnode (fun stage h => ⟨h.kind, h.filter, h.units⟩) fun mark => ?_
    simp only [Node.books, Node.marks, Node.holdings, (hf node.gate).1, List.replicate_succ,
      List.count_append, List.count_cons, List.count_nil, GateId.marks]
    omega
  | trigger t =>
    refine ⟨fun hw => ⟨hw.length, hw.runs⟩, fun mark => rfl, ?_⟩
    simp only [World.sequence, World.changeGate, changeTrigger, List.getElem?_modify]
    cases w.triggers[0]? with
    | none => rfl
    | some trigger =>
      rw [Option.map_eq_map, Option.map_some]
      split
      · exact (hf trigger.gate).2
      · rfl

/-- A change of a unit whose processor goes on to decide by the payload. -/
theorem changeUnit {m : Nat} {unit : ExecutionUnit P} {f : ExecutionUnit P → ExecutionUnit P}
    (hunit : w.unit? n m = some unit)
    (hdecides : ∀ ending, P.DecidesAs ending unit.processor →
      P.DecidesAs ending (f unit).processor)
    (hqueue : ∀ mark,
      ((f unit).state.queue.flatMap (workAt route n)).count mark + gone.count mark =
        (unit.state.queue.flatMap (workAt route n)).count mark + new.count mark) :
    Books route w (w.changeUnit n m f) gone new := by
  obtain ⟨node, hnode, hunit⟩ := Option.bind_eq_some_iff.mp hunit
  obtain ⟨before, after, heq, -, hmodify⟩ := exists_append_of_getElem? hunit
  refine changeNode hnode (fun stage h => ⟨h.kind, h.filter, fun other hother => ?_⟩)
    fun mark => ?_
  · simp only [hmodify, List.mem_append, List.mem_cons] at hother
    obtain hother | rfl | hother := hother
    · exact h.units other (by simp [heq, hother])
    · exact hdecides _ (h.units unit (by simp [heq]))
    · exact h.units other (by simp [heq, hother])
  · have hmarks := hqueue mark
    simp only [Node.books, Node.marks, Node.holdings, hmodify]
    rw [heq]
    simp only [List.map_append, List.map_cons, List.flatMap_append, List.flatMap_cons,
      List.count_append]
    omega

end Books
end World

/-! ## Processors that decide by the payload -/

/-- What an instance becomes later it becomes from what it was before. -/
theorem Plugins.Becomes.trans {first second third : P.Processor} (h : P.Becomes first second)
    (h' : P.Becomes second third) : P.Becomes first third := by
  induction h' with
  | same => exact h
  | prepare again shared _ ih => exact .prepare again shared ih
  | process again payload shared _ ih => exact .process again payload shared ih
  | finish again shared _ ih => exact .finish again shared ih

/-- An instance that decides by the payload goes on to do so. -/
theorem Plugins.DecidesAs.of_becomes {ending : Json → Ending} {first later : P.Processor}
    (h : P.DecidesAs ending first) (hbecomes : P.Becomes first later) :
    P.DecidesAs ending later :=
  fun last hlast => h last (hbecomes.trans hlast)

namespace World

variable {w v : World P} {node : Node P} {gone new : List Mark} {m : Nat}

/-- A call of a hook of a processor is not booked. -/
theorem Books.callProcessor {α : Type}
    {hook : P.Processor → P.Shared → Call P.Processor P.Shared NodeError α}
    {reply : Reply NodeError α} {called : World P}
    (hcall : w.callProcessor n m hook = some (reply, called))
    (hbecomes : ∀ processor shared, P.Becomes processor (hook processor shared).plugin) :
    Books route w called [] [] := by
  obtain ⟨unit, hunit, heq⟩ := by simpa [World.callProcessor] using hcall
  obtain ⟨-, rfl⟩ := heq
  let shared : World P := { w with shared := (hook unit.processor w.shared).shared }
  have hchange : Books route shared (shared.changeUnit n m fun old =>
      { old with processor := (hook unit.processor w.shared).plugin }) [] [] :=
    changeUnit hunit (fun ending h => h.of_becomes (hbecomes ..)) fun mark => rfl
  have hshared : Books route w shared [] [] := .of_eq rfl rfl rfl
  exact (hshared.trans hchange).further (Silent.refl.logAll _)

/-! ## What tasks yield -/

/-- Doing a task brings its marks into the books, and those of what it makes an event of, up
to those that are left to the tasks that follow. -/
structure Yields (route : List Stage) (w : World P) (task : Task) (v : World P)
    (todo : List Task) : Prop where
  staffed : v.Staffed route
  count : ∀ mark, (v.books route).count mark + (ahead route todo).count mark =
    (w.books route).count mark + (task.ahead route).count mark +
      (journeys route w.sequence task.makes?.toList).count mark
  sequence : v.sequence = w.sequence + task.makes?.toList.length

/-- A task that makes no event. -/
theorem Books.yields {task : Task} {todo : List Task} (h : Books route w v gone new)
    (hw : w.Staffed route) (hmakes : task.makes? = none)
    (hcount : ∀ mark, (ahead route todo).count mark + new.count mark =
      (task.ahead route).count mark + gone.count mark) : Yields route w task v todo := by
  refine ⟨h.staffed hw, fun mark => ?_, ?_⟩
  · have hbooks := h.count mark
    have hmarks := hcount mark
    rw [hmakes]
    simp only [Option.toList_none, journeys, List.count_nil]
    omega
  · rw [hmakes, h.sequence]
    rfl

variable {progress : Progress P} {todo : List Task} {last : Target} {output : Bool}

/-- Making an event. -/
theorem make_yields {g : GateId} {payload : Json} {continuation : Option Continuation}
    (hw : w.Staffed route) (hrank : (EventTask.make g payload continuation).rank?.isSome)
    (ht : w.triggers.length = 1)
    (h : w.performEvent (.make g payload continuation) = some (.goOn v todo)) :
    Yields route w (.event (.make g payload continuation)) v todo := by
  cases g with
  | node n => simp [EventTask.rank?] at hrank
  | trigger t =>
    simp only [performEvent, Option.bind_eq_bind, Option.bind_eq_some_iff, gate?] at h
    obtain ⟨gate, hgate, h⟩ := h
    obtain ⟨trigger, htrigger, rfl⟩ := Option.map_eq_some_iff.mp hgate
    obtain ⟨rfl, rfl⟩ := by simpa [andThen] using h
    obtain rfl : t = 0 := by
      have := (List.getElem?_eq_some_iff.mp htrigger).1
      omega
    have hsequence : w.sequence = trigger.gate.sequence := by simp [sequence, htrigger]
    refine ⟨⟨hw.length, hw.runs⟩, fun mark => ?_, ?_⟩
    · rw [hsequence]
      simp [World.changeGate, changeTrigger, books, Task.ahead, GateId.marks, GateId.next,
        arrive, Gate.fresh, Task.makes?, journeys]
    · rw [hsequence]
      simp [World.changeGate, changeTrigger, sequence, htrigger, Gate.fresh, Task.makes?]

/-- Handing on an event. -/
theorem emit_yields {g : GateId} (hw : w.Staffed route)
    (hchain : w.outline.layout.IsChain (if output then .output true else .tail))
    (h : w.emit g event = some (.goOn v todo)) :
    Yields route w (.event (.emit g event)) v todo := by
  simp only [World.emit, Option.bind_eq_bind, Option.bind_eq_some_iff] at h
  obtain ⟨gate, hgate, h⟩ := h
  have hlength : w.outline.layout.nodes.length = route.length := by
    rw [Outline.length_layout, outline, List.length_map, hw.length]
  rw [gate_target hchain hgate] at h
  split at h
  · simp at h
  by_cases hnext : g.next < route.length
  · rw [Layout.down, if_pos (by omega)] at h
    obtain ⟨rfl, rfl⟩ := by simpa [andThen] using h
    refine Books.yields (Books.emit hgate fun _ => ⟨by rfl, by rfl⟩) hw rfl fun mark => ?_
    simp only [ahead_cons, ahead_nil, Task.ahead, List.count_append, List.count_nil]
    omega
  · rw [Layout.down, if_neg (by omega)] at h
    have hmarks : Task.ahead route (.event (.emit g event)) =
        g.marks ++ event.told .completed := by
      rw [Task.ahead, arrive_end (by omega)]
    cases output with
    | true =>
      obtain ⟨rfl, rfl⟩ := by simpa [done] using h
      have hsent : Books route w { w with output := w.output ++ [event] } [] [] :=
        .of_eq rfl rfl rfl
      refine ((hsent.trans (Books.emit (f := Gate.count) (by cases g <;> exact hgate)
        fun _ => ⟨rfl, rfl⟩)).trans (.tell event .completed)).yields hw rfl fun mark => ?_
      simp [hmarks, Fate.kind]
    | false =>
      obtain ⟨rfl, rfl⟩ := by simpa [done] using h
      refine ((Books.emit (f := Gate.count) hgate fun _ => ⟨rfl, rfl⟩).trans
        (.tell event .completed)).yields hw rfl fun mark => ?_
      simp [hmarks, Fate.kind]

/-- A task that concerns no event, and leads to no marks but its own. -/
theorem Silent.yields {task : Task} (h : Silent w v) (hw : w.Staffed route)
    (hmakes : task.makes? = none) (htodo : ahead route todo = task.ahead route) :
    Yields route w task v todo :=
  (Books.silent h).yields hw hmakes fun mark => by rw [htodo]

/-- Bringing an event to a node. -/
theorem enter_yields (hw : w.Staffed route) (h : w.enter n event = some (.goOn v todo)) :
    Yields route w (.event (.enter n event)) v todo := by
  simp only [enter, Option.bind_eq_bind, Option.bind_eq_some_iff] at h
  obtain ⟨node, hnode, h⟩ := h
  obtain ⟨stage, hstage, hruns⟩ := hw.exists_stage hnode
  have hverdict := hruns.judge_eq event.payload
  generalize node.judge event.payload = judged at h hverdict
  obtain ⟨verdict, messages⟩ := judged
  have hreceived : Books route w ((w.changeNode n fun node =>
      { node with received := node.received + 1 }).logAll messages) [] [.received n] :=
    (Books.receive hnode).further (Silent.refl.logAll messages)
  have hnode' : (w.changeNode n fun node =>
      { node with received := node.received + 1 }).nodes[n]? =
        some { node with received := node.received + 1 } := by simp [hnode]
  have hahead : Task.ahead route (.event (.enter n event)) =
      stage.pass n (sendOn route n) event := arrive_eq hstage
  simp only [Stage.pass, ← hverdict] at hahead
  -- The ways in which an event is dropped differ only in what is logged.
  have hdrop (message : Message) (reason : String)
      (hmarks : Task.ahead route (.event (.enter n event)) =
        .received n :: .dropped n ::
          Event.told { event with hops := event.hops + 1 } .stopped) :
      Yields route w (.event (.enter n event))
        ((((((w.changeNode n fun node => { node with received := node.received + 1 }).logAll
          messages).note message).changeNode n fun node =>
            { node with dropped := node.dropped + 1 }).tell
              { event with hops := event.hops + 1 } (.stopped reason))) [.dispatched .dropped] := by
    refine (((hreceived.further (Silent.refl.note message)).trans (.drop hnode')).trans
      (.tell _ _)).yields hw rfl fun mark => ?_
    rw [hmarks]
    simp [Task.ahead, Task.dispatched, Fate.kind]
  cases verdict with
  | error error =>
    obtain ⟨rfl, rfl⟩ := by simpa [andThen] using h
    exact hdrop _ _ hahead
  | ok verdict =>
    cases verdict with
    | drop =>
      obtain ⟨rfl, rfl⟩ := by simpa [andThen] using h
      exact hdrop _ _ hahead
    | continue_ =>
      obtain ⟨rfl, rfl⟩ := by simpa [andThen] using h
      refine hreceived.yields hw rfl fun mark => ?_
      rw [hahead]
      simp [Task.ahead, Task.dispatched, GateId.marks, GateId.next, sendOn, List.count_cons]
    | accept =>
      obtain ⟨rfl, rfl⟩ := by simpa [andThen] using h
      refine (hreceived.further (Silent.refl.changeNode (n := n)
        (f := fun node => { node with accepted := node.accepted + 1 })
          fun _ _ => ⟨rfl, rfl⟩)).yields hw rfl fun mark => ?_
      rw [hahead]
      simp only [ahead_cons, ahead_nil, Task.ahead, workAt, forwardAt, hstage, Option.elim_some,
        List.append_nil, List.count_cons, List.count_nil]
      omega

/-- What follows when a unit has taken an event is that a sink hands it on. -/
theorem ahead_accepted (hruns : node.Runs stage) (hstage : route[n]? = some stage) :
    ahead route (accepted node n event) = forwardAt route n event := by
  unfold accepted forwardAt
  rw [hruns.kind, hstage, Option.elim_some, Stage.forward]
  cases stage.kind with
  | sink => simp [Task.ahead, Task.dispatched, GateId.marks, GateId.next, sendOn]
  | transform => simp [Task.ahead, Task.dispatched]

/-- Offering an event to a unit, which does not reject it. -/
theorem offer_yields (hw : w.Staffed route) (hrejected : .dispatched .rejected ∉ todo)
    (h : w.offer n m event = some (.goOn v todo)) :
    Yields route w (.event (.offer n m event)) v todo := by
  simp only [offer, Option.bind_eq_bind, Option.bind_eq_some_iff] at h
  obtain ⟨node, hnode, unit, hunit, h⟩ := h
  obtain ⟨stage, hstage, hruns⟩ := hw.exists_stage hnode
  have hunit' : w.unit? n m = some unit := by simp [unit?, hnode, hunit]
  -- The unit that takes the event counts it, and notes that it will come.
  have htaken {later : ExecutionUnit P} (hname : later.name = unit.name)
      (hprocessor : later.processor = unit.processor)
      (hqueue : later.state.queue = unit.state.queue) :
      Silent w (w.changeUnit n m fun _ => later) :=
    Silent.refl.changeUnit fun old hold => by
      obtain rfl : unit = old := by simpa [hunit'] using hold
      exact ⟨hname, hprocessor, hqueue⟩
  obtain ⟨name, processor, stats, state⟩ := unit
  cases state with
  | inline state =>
    cases hrunning : state.running with
    | false =>
      obtain ⟨-, rfl⟩ := by simpa [ExecutionUnit.offer, hrunning, reject, andThen] using h
      simp at hrejected
    | true =>
      obtain ⟨rfl, rfl⟩ := by simpa [ExecutionUnit.offer, hrunning, andThen] using h
      refine Silent.yields (htaken (by rfl) (by rfl) (by rfl)) hw (by rfl) ?_
      simp [ahead_accepted hruns hstage, Task.ahead]
  | queued state =>
    cases haccepting : state.accepting with
    | false =>
      obtain ⟨-, rfl⟩ := by simpa [ExecutionUnit.offer, haccepting, reject, andThen] using h
      simp at hrejected
    | true =>
      obtain ⟨rfl, rfl⟩ := by simpa [ExecutionUnit.offer, haccepting, andThen] using h
      refine Silent.yields (htaken (by rfl) (by rfl) (by rfl)) hw (by rfl) ?_
      simp [Task.ahead]

/-- Putting an event into the queue of a unit, which does not reject it. -/
theorem send_yields (hw : w.Staffed route) (hrejected : .dispatched .rejected ∉ todo)
    (h : w.send n m event = some (.goOn v todo)) :
    Yields route w (.event (.send n m event)) v todo := by
  simp only [send, Option.bind_eq_bind, Option.bind_eq_some_iff] at h
  obtain ⟨node, hnode, unit, hunit, h⟩ := h
  obtain ⟨stage, hstage, hruns⟩ := hw.exists_stage hnode
  have hunit' : w.unit? n m = some unit := by simp [unit?, hnode, hunit]
  obtain ⟨name, processor, stats, state⟩ := unit
  cases state with
  | inline state =>
    obtain ⟨-, rfl⟩ := by
      simpa [ExecutionUnit.send, ExecutionUnit.changeQueue, reject, andThen] using h
    simp at hrejected
  | queued state =>
    cases halive : state.alive with
    | false =>
      obtain ⟨-, rfl⟩ := by
        simpa [ExecutionUnit.send, ExecutionUnit.changeQueue, halive, reject, andThen] using h
      simp at hrejected
    | true =>
      obtain ⟨rfl, rfl⟩ := by
        simpa [ExecutionUnit.send, ExecutionUnit.changeQueue, halive, andThen] using h
      refine @Books.yields P route w _ [] (workAt route n event) _ _
        (.changeUnit hunit' (fun _ => id) fun mark => ?_) hw rfl fun mark => ?_
      · simp [UnitState.queue]
      · rw [ahead_accepted hruns hstage, Task.ahead, List.count_append, List.count_nil]
        omega

/-- A worker takes an event from its queue, or it goes on without one. -/
theorem receive_yields {expired : Bool} (hw : w.Staffed route)
    (h : w.receive expired n m = some (.goOn v todo)) :
    Yields route w (.unit (.receive n m)) v todo := by
  simp only [World.receive, Option.bind_eq_bind, Option.bind_eq_some_iff] at h
  obtain ⟨unit, hunit, h⟩ := h
  obtain ⟨name, processor, stats, state⟩ := unit
  cases state with
  | inline state =>
    obtain ⟨rfl, rfl⟩ := by simpa [ExecutionUnit.next, andThen] using h
    exact Silent.refl.yields hw rfl rfl
  | queued state =>
    cases hqueue : state.queue with
    | nil =>
      cases hconnected : state.connected with
      | false =>
        obtain ⟨rfl, rfl⟩ := by simpa [ExecutionUnit.next, hqueue, hconnected, andThen] using h
        exact Silent.refl.yields hw rfl rfl
      | true =>
        cases expired with
        | false => simp [ExecutionUnit.next, hqueue, hconnected] at h
        | true =>
          obtain ⟨rfl, rfl⟩ := by
            simpa [ExecutionUnit.next, hqueue, hconnected, andThen] using h
          exact Silent.refl.yields hw rfl rfl
    | cons event rest =>
      obtain ⟨rfl, rfl⟩ := by
        simpa [ExecutionUnit.next, ExecutionUnit.changeQueue, hqueue, andThen] using h
      refine @Books.yields P route w _ (workAt route n event) [] _ _
        (.changeUnit hunit (fun _ => id) fun mark => ?_) hw rfl fun mark => ?_
      · simp only [UnitState.queue, hqueue, List.flatMap_cons, List.count_append,
          List.count_nil]
        omega
      · simp [Task.ahead]

/-- Entering the processor of an inline unit. -/
theorem occupy_yields (hw : w.Staffed route) (h : w.occupy n m = some (.goOn v todo)) :
    Yields route w (.event (.occupy n m)) v todo := by
  obtain ⟨w', heq, hsilent⟩ := occupy_silent h
  obtain ⟨rfl, rfl⟩ := Progress.goOn.inj heq
  exact hsilent.yields hw rfl rfl

/-- Leaving the processor of an inline unit. -/
theorem settle_yields (hw : w.Staffed route) (h : w.settle n m = some (.goOn v todo)) :
    Yields route w (.event (.settle n m)) v todo := by
  obtain ⟨rfl, rfl⟩ := by simpa [settle, done] using h
  refine (Silent.refl.changeUnit fun unit _ => ?_).yields hw rfl rfl
  obtain ⟨name, processor, stats, state⟩ := unit
  cases state <;> exact ⟨rfl, rfl, rfl⟩

/-- Leaving a gate. -/
theorem leave_yields {g : GateId} (hw : w.Staffed route)
    (h : w.performEvent (.leave g) = some (.goOn v todo)) :
    Yields route w (.event (.leave g)) v todo := by
  obtain ⟨rfl, rfl⟩ := by simpa [performEvent, done] using h
  exact Silent.yields (Silent.refl.changeGate fun _ => ⟨by rfl, by rfl⟩) hw rfl rfl

/-- Having an event processed. -/
theorem process_yields {asked : Bool} (hw : w.Staffed route)
    (h : w.process n m event asked = some (.goOn v todo)) :
    Yields route w (.event (.process n m event asked)) v todo := by
  simp only [World.process, Option.bind_eq_bind, Option.bind_eq_some_iff] at h
  obtain ⟨node, hnode, unit, hunit, ⟨reply, called⟩, hcall, h⟩ := h
  obtain ⟨stage, hstage, hruns⟩ := hw.exists_stage hnode
  have hcalled : Books route w called [] [] :=
    .callProcessor hcall fun processor shared => .process asked event.payload shared .same
  have hunit' : w.unit? n m = some unit := by simp [unit?, hnode, hunit]
  have hreply : (P.processor.process asked event.payload unit.processor w.shared).reply =
      reply := by
    simp only [callProcessor, hunit', Option.map_some, Option.some.injEq, Prod.mk.injEq] at hcall
    exact hcall.1
  obtain ⟨later, hlater⟩ : ∃ later, called.nodes[n]? = some later := by
    have hn : n < called.nodes.length := by
      rw [(hcalled.staffed hw).length]
      exact (List.getElem?_eq_some_iff.mp hstage).1
    exact ⟨_, List.getElem?_eq_getElem hn⟩
  have hahead : Task.ahead route (.event (.process n m event asked)) =
      stage.work n (sendOn route n) event := by
    rw [Task.ahead, workAt, hstage, Option.elim_some]
  have hending (made : Ending) (hmade : Ending.of? reply = some made) :
      stage.ending event.payload = made :=
    (hruns.units unit (List.mem_of_getElem? hunit) _ .same asked _ w.shared made
      (hreply ▸ hmade)).symm
  have hfail (error : NodeError) (hmade : Ending.of? reply = some .fail)
      (h : called.fail n unit.name event error = some (.goOn v todo)) :
      Yields route w (.event (.process n m event asked)) v todo := by
    obtain ⟨rfl, rfl⟩ := by simpa [World.fail, done] using h
    refine (((hcalled.trans (.fail hlater)).further (Silent.refl.note _)).trans
      (.tell _ _)).yields hw rfl fun mark => ?_
    simp [hahead, Stage.work, hending _ hmade, Fate.kind]
  have hon {payload : Json} (hmarks : stage.work n (sendOn route n) event =
      sendOn route n { event with payload }) :
      Yields route w (.event (.process n m event asked)) called
        [.event (.emit (.node n) { event with payload })] :=
    hcalled.yields hw rfl fun mark => by
      rw [hahead, hmarks]
      simp [Task.ahead, sendOn, GateId.marks, GateId.next]
  cases reply with
  | waiting limit =>
    cases asked with
    | true => simp at h
    | false =>
      obtain ⟨rfl, rfl⟩ := by simpa [andThen] using h
      exact hcalled.yields hw rfl fun mark => by simp [Task.ahead]
  | failed error => exact hfail error rfl h
  | panicked text => exact hfail _ rfl h
  | returned outcome =>
    cases hkind : node.kind with
    | sink =>
      obtain ⟨rfl, rfl⟩ := by simpa [hkind, done] using h
      have hsink : stage.kind = .sink := hruns.kind.symm.trans hkind
      refine hcalled.yields hw rfl fun mark => ?_
      cases outcome <;> simp [hahead, Stage.work, hending _ rfl, hsink]
    | transform =>
      have htransform : stage.kind = .transform := hruns.kind.symm.trans hkind
      cases outcome with
      | pass =>
        obtain ⟨rfl, rfl⟩ := by simpa [hkind, andThen] using h
        exact hon (by simp [Stage.work, hending _ rfl, htransform])
      | update payload =>
        obtain ⟨rfl, rfl⟩ := by simpa [hkind, andThen] using h
        exact hon (by simp [Stage.work, hending _ rfl, htransform])
      | stop reason =>
        obtain ⟨rfl, rfl⟩ := by simpa [hkind, done] using h
        refine (hcalled.trans (.tell _ _)).yields hw rfl fun mark => ?_
        simp [hahead, Stage.work, hending _ rfl, htransform, Fate.kind]

/-- Every task on the way of an event, if no unit rejects the event. -/
theorem performEvent_yields {task : EventTask} {rank : Nat} (hw : w.Staffed route)
    (hchain : w.outline.layout.IsChain (if output then .output true else .tail))
    (ht : w.triggers.length = 1) (hrank : task.rank? = some rank)
    (hrejected : .dispatched .rejected ∉ todo)
    (h : w.performEvent task = some (.goOn v todo)) : Yields route w (.event task) v todo := by
  cases task with
  | make g payload continuation => exact make_yields hw (by simp [hrank]) ht h
  | emit g event => exact emit_yields hw hchain h
  | leave g => exact leave_yields hw h
  | enter n event => exact enter_yields hw h
  | offer n u event => exact offer_yields hw hrejected h
  | send n u event => exact send_yields hw hrejected h
  | occupy n u => exact occupy_yields hw h
  | process n u event asked => exact process_yields hw h
  | settle n u => exact settle_yields hw h

/-- Making the processor of an inline unit ready. -/
theorem prepareInline_yields {asked : Bool} (hw : w.Staffed route)
    (h : w.prepareInline n m asked = some (.goOn v todo)) :
    Yields route w (.unit (.prepareInline n m asked)) v todo := by
  simp only [prepareInline, Option.bind_eq_bind, Option.bind_eq_some_iff] at h
  obtain ⟨unit, hunit, ⟨reply, called⟩, hcall, h⟩ := h
  have hcalled : Books route w called [] [] :=
    .callProcessor hcall fun processor shared => .prepare asked shared .same
  cases reply with
  | waiting limit =>
    cases asked with
    | true => simp at h
    | false =>
      obtain ⟨rfl, rfl⟩ := by simpa [andThen] using h
      exact hcalled.yields hw rfl fun mark => rfl
  | returned =>
    obtain ⟨rfl, rfl⟩ := by simpa [initError, andThen] using h
    exact (hcalled.further (Silent.refl.changeInline.note _)).yields hw rfl fun mark => rfl
  | failed | panicked =>
    obtain ⟨rfl, rfl⟩ := by simpa [initError, andThen] using h
    exact (hcalled.further Silent.refl.changeInline).yields hw rfl fun mark => rfl

/-- Finishing the processor of an inline unit. -/
theorem finishInline_yields {asked : Bool} (hw : w.Staffed route)
    (h : w.finishInline n m asked = some (.goOn v todo)) :
    Yields route w (.unit (.finishInline n m asked)) v todo := by
  simp only [finishInline, Option.bind_eq_bind, Option.bind_eq_some_iff] at h
  obtain ⟨unit, hunit, ⟨reply, called⟩, hcall, h⟩ := h
  have hcalled : Books route w called [] [] :=
    .callProcessor hcall fun processor shared => .finish asked shared .same
  cases reply with
  | waiting limit =>
    cases asked with
    | true => simp at h
    | false =>
      obtain ⟨rfl, rfl⟩ := by simpa [andThen] using h
      exact hcalled.yields hw rfl fun mark => rfl
  | returned | failed | panicked =>
    obtain ⟨rfl, rfl⟩ := by simpa [andThen] using h
    exact (hcalled.further (Silent.refl.logAll _).changeInline).yields hw rfl fun mark => rfl

/-- Making the processor of a queued unit ready. -/
theorem prepareWorker_yields {asked : Bool} (hw : w.Staffed route)
    (h : w.prepareWorker n m asked = some (.goOn v todo)) :
    Yields route w (.unit (.prepareWorker n m asked)) v todo := by
  simp only [prepareWorker, Option.bind_eq_bind, Option.bind_eq_some_iff] at h
  obtain ⟨unit, hunit, ⟨reply, called⟩, hcall, h⟩ := h
  have hcalled : Books route w called [] [] :=
    .callProcessor hcall fun processor shared => .prepare asked shared .same
  cases reply with
  | waiting limit =>
    cases asked with
    | true => simp at h
    | false =>
      obtain ⟨rfl, rfl⟩ := by simpa [andThen] using h
      exact hcalled.yields hw rfl fun mark => rfl
  | returned =>
    obtain ⟨rfl, rfl⟩ := by simpa [initError, Except.toBool, andThen] using h
    exact (hcalled.further (Silent.refl.changeQueue fun _ => by rfl)).yields hw rfl fun mark => rfl
  | failed | panicked =>
    obtain ⟨rfl, rfl⟩ := by simpa [initError, Except.toBool, done] using h
    exact (hcalled.further (Silent.refl.changeQueue fun _ => by rfl)).yields hw rfl fun mark => rfl

/-- Finishing the processor of a queued unit. -/
theorem finishWorker_yields {asked : Bool} (hw : w.Staffed route)
    (h : w.finishWorker n m asked = some (.goOn v todo)) :
    Yields route w (.unit (.finishWorker n m asked)) v todo := by
  simp only [finishWorker, Option.bind_eq_bind, Option.bind_eq_some_iff] at h
  obtain ⟨unit, hunit, ⟨reply, called⟩, hcall, h⟩ := h
  have hcalled : Books route w called [] [] :=
    .callProcessor hcall fun processor shared => .finish asked shared .same
  cases reply with
  | waiting limit =>
    cases asked with
    | true => simp at h
    | false =>
      obtain ⟨rfl, rfl⟩ := by simpa [andThen] using h
      exact hcalled.yields hw rfl fun mark => rfl
  | returned | failed | panicked =>
    obtain ⟨rfl, rfl⟩ := by simpa [done] using h
    exact (hcalled.further ((Silent.refl.logAll _).changeQueue fun _ => by rfl)).yields hw rfl
      fun mark => rfl

end World
end EventPipeline
