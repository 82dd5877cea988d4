import EventPipeline.Proofs.Engine.Order
import EventPipeline.Proofs.Engine.Silence

/-!
# `EventPipeline.Proofs.Engine.Passage`: tasks as parts of the way of an event

In a stream whose units are all inline, what a thread still has to do is what is left of
the way of one event through the line. `Task.complete` does that part in the line, and
`performEvent_completes` shows that a step of the world and a completion of what is left
agree: the line after the task, completed by the tasks that follow, is the line before it,
completed by the task.
-/

set_option autoImplicit false

namespace EventPipeline

open Rules

variable {P : Plugins}

/-! ## The verdict of a station -/

/-- The constants of a filter stand for the verdicts. -/
theorem Filter.verdict?_int (n : Int64) :
    verdict? (.int n) =
      if n = 0 then some .continue_ else if n = 1 then some .accept
      else if n = -1 then some .drop else none := by
  simp only [verdict?, constants, List.find?_cons, List.find?_nil]
  split_ifs with h₀ h₁ h₂
  · subst h₀
    rfl
  · subst h₁
    rfl
  · subst h₂
    rfl
  · simp [beq_eq_false_iff_ne.mpr (Ne.symm h₀), beq_eq_false_iff_ne.mpr (Ne.symm h₁),
      beq_eq_false_iff_ne.mpr (Ne.symm h₂)]

/-- A node decides about an event as its station does. -/
theorem Node.judge_eq (node : Node P) (payload : Json) :
    (node.judge payload).1 = node.station.verdict payload := by
  simp only [judge, station, Station.verdict]
  cases node.filter with
  | none => rfl
  | some filter =>
    simp only [Filter.decide]
    generalize ((filter.ruler.entry Actions.call Filter.ruleSet
      [("payload", .ofJson payload)]).runFrom filter.actions) = found
    obtain ⟨result, actions, messages⟩ := found
    cases result with
    | error e => rfl
    | ok verdict =>
      cases verdict with
      | noMatch => rfl
      | matched value rule =>
        cases value with
        | int n =>
          simp only [Filter.verdict?_int]
          split_ifs <;> rfl
        | _ => rfl

/-! ## What is left of a way -/

/-- The stations from the given one on, in a line of so many. -/
def stationsFrom (k n : Nat) : List Nat :=
  List.range' n (k - n)

theorem stationsFrom_eq_cons {k n : Nat} (h : n < k) :
    stationsFrom k n = n :: stationsFrom k (n + 1) := by
  rw [stationsFrom, stationsFrom, show k - n = (k - (n + 1)) + 1 by omega, List.range'_succ]

theorem stationsFrom_eq_nil {k n : Nat} (h : k ≤ n) : stationsFrom k n = [] := by
  rw [stationsFrom, show k - n = 0 by omega, List.range'_zero]

/-- The station behind a gate. -/
def GateId.next : GateId → Nat
  | node n => n + 1
  | trigger _ => 0

namespace Line

/-- An event passes a gate; only gates of nodes are counted. -/
def pass (line : Line P) : GateId → Line P
  | .node n => line.emit n
  | .trigger _ => line

/-- Brings an event on from a station, if one goes on. -/
def goOn (k n : Nat) : Option Event × Line P → Line P
  | (none, line) => line
  | (some event, line) => (line.emit n).travel (stationsFrom k (n + 1)) event

/-- The way of an event from a station on. -/
theorem travel_stationsFrom {k n : Nat} {line : Line P} {station : Station P}
    {event : Event} (hn : n < k) (hstation : line.stations[n]? = some station) :
    line.travel (stationsFrom k n) event =
      match station.verdict event.payload with
      | .error error =>
        (line.receive n).drop n { event with hops := event.hops + 1 }
          s!"filter of '{station.name}' failed: {error.message}"
      | .ok .drop =>
        (line.receive n).drop n { event with hops := event.hops + 1 }
          s!"dropped by filter of '{station.name}'"
      | .ok .continue_ =>
        goOn k n (some { event with hops := event.hops + 1 }, line.receive n)
      | .ok .accept =>
        goOn k n ((line.receive n).accept n { event with hops := event.hops + 1 }) := by
  rw [stationsFrom_eq_cons hn, travel, hstation]
  dsimp only
  cases station.verdict event.payload with
  | error e => rfl
  | ok verdict =>
    cases verdict with
    | continue_ | drop => rfl
    | accept =>
      generalize (line.receive n).accept n { event with hops := event.hops + 1 } = passed
      obtain ⟨later, line⟩ := passed
      cases later <;> rfl

/-- Calling a hook does not change the role of a processor. -/
theorem kind?_callOnce {α : Type} (line : Line P) (n m : Nat)
    (hook : P.Processor → P.Shared → Call P.Processor P.Shared NodeError α) :
    (line.callOnce n hook).2.kind? m = line.kind? m := by
  unfold callOnce
  split
  · simp only [kind?, changeStation, List.getElem?_modify]
    cases line.stations[m]? with
    | none => rfl
    | some station =>
      rw [Option.map_eq_map, Option.map_some, Option.map_some, Option.map_some]
      split <;> rfl
  · rfl

theorem kind?_call {α : Type} (line : Line P) (n m : Nat) (asked : Bool)
    (hook : Bool → P.Processor → P.Shared → Call P.Processor P.Shared NodeError α) :
    (line.call n asked hook).2.kind? m = line.kind? m := by
  have honce := line.kind?_callOnce n m (hook asked)
  unfold call
  split
  case h_1 heq =>
    rw [heq] at honce
    cases asked with
    | true => exact honce
    | false => exact (kind?_callOnce _ n m _).trans honce
  case h_2 => exact honce

section

variable {α : Type} {line later : Line P} {n : Nat} {asked : Bool}
  {f : Bool → P.Processor → P.Shared → Call P.Processor P.Shared NodeError α}

/-- A call that waits goes on as a call that was asked again. -/
theorem call_of_waiting {limit : Option Duration}
    (h : line.callOnce n (f false) = (some (.waiting limit), later)) :
    line.call n false f = later.call n true f := by
  unfold call
  rw [h]
  dsimp only
  rw [if_neg (by simp)]
  split
  case h_1 heq => rw [heq, if_pos rfl]
  case h_2 => rfl

/-- A call that ends. -/
theorem call_of_ended {reply : Reply NodeError α}
    (h : line.callOnce n (f asked) = (some reply, later))
    (hreply : ∀ limit, reply ≠ .waiting limit) : line.call n asked f = (some reply, later) := by
  unfold call
  rw [h]
  cases reply with
  | waiting limit => exact absurd rfl (hreply limit)
  | returned | failed | panicked => rfl

end

/-- Processing that waits goes on as processing that was asked for again. -/
theorem process_of_waiting {line later : Line P} {n : Nat} {event : Event}
    {limit : Option Duration}
    (h : line.callOnce n (P.processor.process false event.payload) =
      (some (.waiting limit), later)) :
    line.process n event false = later.process n event true := by
  unfold process
  rw [call_of_waiting (f := fun again => P.processor.process again event.payload) h]

/-- Processing that ends. -/
theorem process_of_ended {line later : Line P} {n : Nat} {event : Event} {asked : Bool}
    {reply : Reply NodeError Outcome}
    (h : line.callOnce n (P.processor.process asked event.payload) = (some reply, later))
    (hreply : ∀ limit, reply ≠ .waiting limit) :
    line.process n event asked = later.conclude n event (some reply) := by
  unfold process
  rw [call_of_ended (f := fun again => P.processor.process again event.payload) h hreply]

/-- No event goes on from the processor of a sink. -/
theorem process_sink {line : Line P} {n : Nat} (h : line.kind? n = some .sink) (event : Event)
    (asked : Bool) : (line.process n event asked).1 = none := by
  have hkind := line.kind?_call n n asked fun again => P.processor.process again event.payload
  rw [h] at hkind
  unfold process
  generalize line.call n asked (fun again => P.processor.process again event.payload) = called
    at hkind
  obtain ⟨reply, line⟩ := called
  cases reply with
  | none => rfl
  | some reply =>
    cases reply with
    | failed | panicked | waiting => rfl
    | returned outcome =>
      simp only [conclude]
      rw [hkind]

end Line

/-- Does in a line of `k` stations what a task does on the way of an event, and all that
follows from it. -/
def EventTask.complete (k : Nat) (line : Line P) : EventTask → Line P
  | .make _ payload continuation => line.make payload continuation
  | .emit g event => (line.pass g).travel (stationsFrom k g.next) event
  | .enter n event => line.travel (stationsFrom k n) event
  | .offer n _ event => Line.goOn k n (line.accept n event)
  | .process n _ event asked => Line.goOn k n (line.process n event asked)
  | .leave _ | .send .. | .occupy .. | .settle .. => line

/-- Does in a line of `k` stations what a task does, and all that follows from it. Starting
nodes makes their processors ready; no other task but those of events does anything. -/
def Task.complete (k : Nat) (line : Line P) : Task → Line P
  | .event task => task.complete k line
  | .unit (.startNode n) | .unit (.startUnits n 0) | .unit (.startUnit n _) =>
    line.prepare n false
  | .unit (.prepareInline n _ asked) => line.prepare n asked
  | .stream (.start _) => line.prepareAll k
  | .stream (.startProcessors _ p) | .stream (.startedProcessor _ p) => line.prepareAll p
  | _ => line

/-- Completes one task after the other. -/
def Line.complete (k : Nat) (line : Line P) (agenda : List Task) : Line P :=
  agenda.foldl (Task.complete k) line

@[simp] theorem Line.complete_nil (k : Nat) (line : Line P) : line.complete k [] = line := rfl

@[simp] theorem Line.complete_cons (k : Nat) (line : Line P) (task : Task)
    (agenda : List Task) :
    line.complete k (task :: agenda) = (task.complete k line).complete k agenda := rfl

/-- What plugins share when a task calls the processor of an inline unit to make it ready or
to have an event processed. -/
def Task.sees (w : World P) : Task → List P.Shared
  | .unit (.prepareInline ..) | .event (.process ..) => [w.shared]
  | _ => []

/-- An event has left the line. -/
def Wake.leave (wake : Wake) (event : Event) : Wake :=
  { wake with exits := wake.exits ++ [event] }

/-- The fate of an event is logged, if somebody wants it in the log. -/
def Wake.tell (wake : Wake) (event : Event) (fate : Fate) : Wake :=
  match event.continuation with
  | some .logged => { wake with told := wake.told ++ [event.message fate] }
  | some .recorded | none => wake

namespace World

variable {w : World P} {n u : Nat} {wake : Wake} {supply : List P.Shared}

/-! ## Changes of a world and of its line -/

/-- A change of a node, seen as a change of its station. -/
theorem line_changeNode {f : Node P → Node P} {g : Station P → Station P}
    (h : ∀ node, w.nodes[n]? = some node → (f node).station = g node.station) :
    (w.changeNode n f).line wake supply = (w.line wake supply).changeStation n g := by
  simp only [line, nodes_changeNode, map_modify h]
  rfl

theorem line_receive :
    (w.changeNode n fun node => { node with received := node.received + 1 }).line wake supply =
      (w.line wake supply).receive n :=
  line_changeNode fun _ _ => rfl

theorem line_fail :
    (w.changeNode n fun node => { node with failed := node.failed + 1 }).line wake supply =
      (w.line wake supply).count n fun counts => { counts with failed := counts.failed + 1 } :=
  line_changeNode fun _ _ => rfl

theorem line_drop :
    (w.changeNode n fun node => { node with dropped := node.dropped + 1 }).line wake supply =
      (w.line wake supply).count n fun counts =>
        { counts with dropped := counts.dropped + 1 } :=
  line_changeNode fun _ _ => rfl

theorem line_accept :
    (w.changeNode n fun node => { node with accepted := node.accepted + 1 }).line wake supply =
      w.line wake supply :=
  (Silent.refl.changeNode (f := fun node => { node with accepted := node.accepted + 1 })
    fun _ _ => ⟨rfl, rfl⟩).line_eq wake supply

/-- A gate that counts an event. -/
theorem line_pass {g : GateId} {f : Gate → Gate}
    (hf : ∀ gate, (f gate).emitted = gate.emitted + 1 ∧ (f gate).sequence = gate.sequence) :
    (w.changeGate g f).line wake supply = (w.line wake supply).pass g := by
  cases g with
  | node n =>
    refine line_changeNode fun node _ => ?_
    simp only [Node.station, (hf node.gate).1]
  | trigger t =>
    simp only [line, changeGate, changeTrigger, Line.pass, List.getElem?_modify]
    cases w.triggers[0]? with
    | none => rfl
    | some trigger =>
      rw [Option.map_eq_map, Option.map_some]
      split
      · simp [(hf trigger.gate).2]
      · rfl

/-- A gate that counts an event and does nothing else. -/
theorem line_count (g : GateId) :
    (w.changeGate g Gate.count).line wake supply = (w.line wake supply).pass g :=
  line_pass fun _ => ⟨rfl, rfl⟩

/-- A gate that hands an event into a node. -/
theorem line_forward (g : GateId) :
    (w.changeGate g fun gate => { gate.count with occupied := true }).line wake supply =
      (w.line wake supply).pass g :=
  line_pass fun _ => ⟨rfl, rfl⟩

@[simp] theorem line_logAll (messages : List Message) :
    (w.logAll messages).line wake supply = w.line wake supply := rfl

@[simp] theorem line_note (message : Message) :
    (w.note message).line wake supply = w.line wake supply := rfl

@[simp] theorem line_tell (event : Event) (fate : Fate) :
    (w.tell event fate).line (wake.tell event fate) supply =
      (w.line wake supply).report event fate := by
  unfold tell Line.report Wake.tell
  cases event.continuation with
  | none => rfl
  | some continuation => cases continuation <;> rfl

/-- What a world keeps of what became of events agrees with it. -/
structure Keeps (w : World P) (output : Bool) (wake : Wake) : Prop where
  exits : w.output = if output then wake.exits else []
  told : wake.told.Sublist w.log

namespace Keeps

variable {output : Bool}

theorem changeNode (f : Node P → Node P) (h : w.Keeps output wake) :
    (w.changeNode n f).Keeps output wake :=
  ⟨h.exits, h.told⟩

theorem changeGate (g : GateId) (f : Gate → Gate) (h : w.Keeps output wake) :
    (w.changeGate g f).Keeps output wake := by
  cases g <;> exact ⟨h.exits, h.told⟩

theorem logAll (messages : List Message) (h : w.Keeps output wake) :
    (w.logAll messages).Keeps output wake :=
  ⟨h.exits, h.told.trans (List.sublist_append_left ..)⟩

theorem note (message : Message) (h : w.Keeps output wake) :
    (w.note message).Keeps output wake :=
  h.logAll [message]

theorem tell (event : Event) (fate : Fate) (h : w.Keeps output wake) :
    (w.tell event fate).Keeps output (wake.tell event fate) := by
  unfold World.tell Wake.tell
  cases event.continuation with
  | none => exact h
  | some continuation =>
    cases continuation with
    | recorded => exact ⟨h.exits, h.told⟩
    | logged => exact ⟨h.exits, h.told.append (.refl [event.message fate])⟩

theorem silent {v : World P} (hsilent : Silent w v) (h : w.Keeps output wake) :
    v.Keeps output wake :=
  ⟨hsilent.output.trans h.exits, h.told.trans hsilent.log.sublist⟩

end Keeps

/-! ## Tasks of events -/

/-- A step agrees with the completion of its task in a line of `k` stations: what was to be
done before it is what the tasks that follow do after it. -/
inductive Completes (w : World P) (k : Nat) (output : Bool) (task : Task) : Progress P → Prop
  | goOn {w' : World P} {todo : List Task} (later : Wake → Wake)
    (hkeeps : ∀ wake, w.Keeps output wake → w'.Keeps output (later wake))
    (h : ∀ wake supply, task.complete k (w.line wake (task.sees w ++ supply)) =
      (w'.line (later wake) supply).complete k todo) :
    Completes w k output task (.goOn w' todo)

variable {k : Nat} {output : Bool} {progress : Progress P} {last : Target}

/-- A step that calls no processor. -/
theorem Completes.apart {w' : World P} {task : Task} {todo : List Task} (later : Wake → Wake)
    (hsees : task.sees w = [])
    (hkeeps : ∀ wake, w.Keeps output wake → w'.Keeps output (later wake))
    (h : ∀ wake supply, task.complete k (w.line wake supply) =
      (w'.line (later wake) supply).complete k todo) :
    w.Completes k output task (.goOn w' todo) :=
  .goOn later hkeeps fun wake supply => by
    rw [hsees]
    exact h wake supply

/-- A step that concerns no event. -/
theorem Completes.silent {w' : World P} {task : Task} {todo : List Task} (hsilent : Silent w w')
    (hsees : task.sees w = [])
    (h : ∀ wake supply, task.complete k (w.line wake supply) =
      (w.line wake supply).complete k todo) :
    w.Completes k output task (.goOn w' todo) :=
  .apart id hsees (fun _ => .silent hsilent) fun wake supply => by
    rw [id, hsilent.line_eq]
    exact h wake supply

/-- Making an event. -/
theorem make_completes {t : Nat} {payload : Json} {continuation : Option Continuation}
    (hk : w.nodes.length = k) (ht : w.triggers.length = 1)
    (h : w.performEvent (.make (.trigger t) payload continuation) = some progress) :
    w.Completes k output (.event (.make (.trigger t) payload continuation)) progress := by
  simp only [performEvent, Option.bind_eq_bind, Option.bind_eq_some_iff, gate?] at h
  obtain ⟨gate, hgate, h⟩ := h
  obtain ⟨trigger, htrigger, rfl⟩ := Option.map_eq_some_iff.mp hgate
  obtain rfl := Option.some.inj h
  obtain rfl : t = 0 := by
    have := (List.getElem?_eq_some_iff.mp htrigger).1
    omega
  refine .apart id rfl (fun _ h => h.changeGate ..) fun wake supply => ?_
  have hmade (wake : Wake) (supply : List P.Shared) :
      (w.line wake supply).made = trigger.gate.sequence := by simp [line, htrigger]
  have hline : (w.changeGate (.trigger 0) fun _ =>
      (trigger.gate.fresh payload continuation).2).line wake supply =
        { w.line wake supply with made := trigger.gate.sequence + 1 } := by
    simp [line, changeGate, changeTrigger, htrigger, Gate.fresh]
  have hstations : (w.line wake supply).stations.length = k := by simpa [line] using hk
  simp only [Task.complete, EventTask.complete, Line.complete_cons, Line.complete_nil, id, hline,
    Line.make, hmade, hstations, Line.pass, GateId.next]
  rw [stationsFrom, Nat.sub_zero, List.range_eq_range']
  rfl

/-- In a chain a gate has the target that comes next. -/
theorem gate_target {g : GateId} {gate : Gate} (hchain : w.outline.layout.IsChain last)
    (hgate : w.gate? g = some gate) :
    gate.target = some (w.outline.layout.down last g.next) := by
  have htarget : w.outline.target? g = some gate.target := by rw [outline_target?, hgate]; rfl
  rw [Outline.target?_eq] at htarget
  cases g with
  | node n =>
    obtain ⟨node, hnode, heq⟩ := Option.map_eq_some_iff.mp htarget
    rw [← heq, hchain.nodes n node hnode]
    rfl
  | trigger t =>
    obtain ⟨trigger, htrigger, heq⟩ := Option.map_eq_some_iff.mp htarget
    rw [← heq, hchain.triggers t trigger htrigger]
    rfl

/-- An event that leaves a line behind a gate. -/
theorem leave_pass (g : GateId) (event : Event) :
    ((w.line wake supply).pass g).leave event =
      ((w.line (wake.leave event) supply).pass g).report event .completed := by
  cases g <;> rfl

/-- Handing on an event. -/
theorem emit_completes {g : GateId} {event : Event} (hk : w.nodes.length = k)
    (hchain : w.outline.layout.IsChain (if output then .output true else .tail))
    (h : w.emit g event = some progress) :
    w.Completes k output (.event (.emit g event)) progress := by
  simp only [emit, Option.bind_eq_bind, Option.bind_eq_some_iff] at h
  obtain ⟨gate, hgate, h⟩ := h
  have htarget := gate_target hchain hgate
  have hlength : w.outline.layout.nodes.length = k := by
    rw [Outline.length_layout, outline, List.length_map, hk]
  rw [htarget] at h
  split at h
  · simp at h
  by_cases hnext : g.next < k
  · rw [Layout.down, if_pos (by omega)] at h
    obtain rfl := Option.some.inj h
    refine .apart id rfl (fun _ h => h.changeGate ..) fun wake supply => ?_
    rw [line_forward]
    rfl
  · have hnil : stationsFrom k g.next = [] := stationsFrom_eq_nil (by omega)
    rw [Layout.down, if_neg (by omega)] at h
    cases output with
    | true =>
      obtain rfl := Option.some.inj h
      refine .apart (fun wake => (wake.leave event).tell event .completed) rfl
        (fun wake hkeeps => ?_) fun wake supply => ?_
      · have hleave : { w with output := w.output ++ [event] }.Keeps true (wake.leave event) :=
          ⟨congrArg (· ++ [event]) hkeeps.exits, hkeeps.told⟩
        exact (hleave.changeGate g _).tell event _
      · simp only [Task.complete, EventTask.complete, hnil, Line.travel, leave_pass,
          Line.complete_nil, if_true, line_tell]
        rw [line_count]
        rfl
    | false =>
      obtain rfl := Option.some.inj h
      refine .apart (fun wake => (wake.leave event).tell event .completed) rfl
        (fun wake hkeeps => ?_) fun wake supply => ?_
      · have hleave : w.Keeps false (wake.leave event) := ⟨hkeeps.exits, hkeeps.told⟩
        exact (hleave.changeGate g _).tell event _
      · simp only [Task.complete, EventTask.complete, hnil, Line.travel, leave_pass,
          Line.complete_nil, line_tell, line_count]

/-- Ending the call of a target. -/
theorem leave_completes {g : GateId} (h : w.performEvent (.leave g) = some progress) :
    w.Completes k output (.event (.leave g)) progress := by
  obtain rfl := Option.some.inj h
  exact .silent (Silent.refl.changeGate fun _ => ⟨rfl, rfl⟩) rfl fun _ _ => rfl

/-- Entering the processor of an inline unit concerns no event. -/
theorem occupy_silent (h : w.occupy n u = some progress) :
    ∃ w', progress = .goOn w' [] ∧ Silent w w' := by
  simp only [occupy, Option.bind_eq_bind, Option.bind_eq_some_iff] at h
  obtain ⟨unit, hunit, h⟩ := h
  split at h
  · split at h
    · simp at h
    · obtain rfl := Option.some.inj h
      exact ⟨_, rfl, Silent.refl.changeInline⟩
  · obtain rfl := Option.some.inj h
    exact ⟨_, rfl, .refl⟩

/-- Entering the processor of an inline unit. -/
theorem occupy_completes (h : w.occupy n u = some progress) :
    w.Completes k output (.event (.occupy n u)) progress := by
  obtain ⟨w', rfl, hsilent⟩ := occupy_silent h
  exact .silent hsilent rfl fun _ _ => rfl

/-- Leaving the processor of an inline unit. -/
theorem settle_completes (h : w.settle n u = some progress) :
    w.Completes k output (.event (.settle n u)) progress := by
  obtain rfl := Option.some.inj h
  refine .silent (Silent.refl.changeUnit fun unit _ => ?_) rfl fun _ _ => rfl
  obtain ⟨name, processor, stats, state⟩ := unit
  cases state <;> exact ⟨rfl, rfl, rfl⟩

/-- Bringing an event to a node. -/
theorem enter_completes {event : Event} (hk : w.nodes.length = k)
    (h : w.enter n event = some progress) :
    w.Completes k output (.event (.enter n event)) progress := by
  simp only [enter, Option.bind_eq_bind, Option.bind_eq_some_iff] at h
  obtain ⟨node, hnode, h⟩ := h
  have hn : n < k := hk ▸ (List.getElem?_eq_some_iff.mp hnode).1
  have htravel (wake : Wake) (supply : List P.Shared) :=
    @Line.travel_stationsFrom P k n (w.line wake supply) node.station event hn
      (by simp [line, hnode])
  rw [← node.judge_eq] at htravel
  generalize node.judge event.payload = judged at h htravel
  obtain ⟨verdict, messages⟩ := judged
  dsimp only at h htravel
  cases verdict with
  | error error =>
    obtain rfl := Option.some.inj h
    refine .apart (·.tell _ _) rfl
      (fun _ h => ((((h.changeNode _).logAll _).note _).changeNode _).tell ..) fun wake supply => ?_
    rw [Task.complete, EventTask.complete, htravel]
    simp only [line_tell, line_drop, line_note, line_logAll, line_receive]
    rfl
  | ok verdict =>
    cases verdict with
    | drop =>
      obtain rfl := Option.some.inj h
      refine .apart (·.tell _ _) rfl
        (fun _ h => ((((h.changeNode _).logAll _).note _).changeNode _).tell ..)
        fun wake supply => ?_
      rw [Task.complete, EventTask.complete, htravel]
      simp only [line_tell, line_drop, line_note, line_logAll, line_receive]
      rfl
    | continue_ =>
      obtain rfl := Option.some.inj h
      refine .apart id rfl (fun _ h => (h.changeNode _).logAll _) fun wake supply => ?_
      rw [Task.complete, EventTask.complete, htravel, id, line_logAll, line_receive]
      rfl
    | accept =>
      obtain rfl := Option.some.inj h
      refine .apart id rfl (fun _ h => ((h.changeNode _).logAll _).changeNode _)
        fun wake supply => ?_
      rw [Task.complete, EventTask.complete, htravel, id, line_accept, line_logAll, line_receive]
      rfl

/-- Every node of a sequential stream has one unit, which is inline. -/
theorem units_eq {node : Node P} (hsequential : w.outline.layout.IsSequential)
    (hnode : w.nodes[n]? = some node) :
    ∃ unit state, node.units = [unit] ∧ unit.state = .inline state := by
  have hunits := hsequential.nodes node.outline.layout
    (List.mem_map_of_mem (List.mem_map_of_mem (List.mem_of_getElem? hnode)))
  obtain ⟨unit, hone⟩ : ∃ unit, node.units = [unit] := by
    have hlength := congrArg List.length hunits
    simpa [NodeOutline.layout, Node.outline, List.length_eq_one_iff] using hlength
  have hqueued : unit.state.signs.queued = false := by
    simpa [NodeOutline.layout, Node.outline, hone, ExecutionUnit.outline] using hunits
  cases hstate : unit.state with
  | inline state => exact ⟨unit, state, hone, hstate⟩
  | queued state => simp [hstate, UnitState.signs] at hqueued

/-- The one unit of a node of a sequential stream. -/
theorem unit_eq {node : Node P} {unit : ExecutionUnit P}
    (hsequential : w.outline.layout.IsSequential) (hnode : w.nodes[n]? = some node)
    (hunit : node.units[u]? = some unit) :
    u = 0 ∧ node.units = [unit] ∧ ∃ state, unit.state = .inline state := by
  obtain ⟨only, state, hone, hstate⟩ := units_eq hsequential hnode
  rw [hone] at hunit
  obtain rfl : u = 0 := by
    have := (List.getElem?_eq_some_iff.mp hunit).1
    simpa using this
  obtain rfl : only = unit := by simpa using hunit
  exact ⟨rfl, hone, state, hstate⟩

/-- Offering an event to a unit that accepts it. -/
theorem offer_completes {event : Event} (hsequential : w.outline.layout.IsSequential)
    (haccepts : ∀ unit, w.outline.unit? n u = some unit → unit.signs.accepting = true)
    (h : w.offer n u event = some progress) :
    w.Completes k output (.event (.offer n u event)) progress := by
  simp only [offer, Option.bind_eq_bind, Option.bind_eq_some_iff] at h
  obtain ⟨node, hnode, unit, hunit, h⟩ := h
  obtain ⟨rfl, hone, state, hstate⟩ := unit_eq hsequential hnode hunit
  have hunit? : w.unit? n 0 = some unit := by simp [unit?, hnode, hone]
  have hrunning : state.running = true := by
    simpa [outline_unit?, hunit?, ExecutionUnit.outline, hstate, UnitState.signs]
      using haccepts unit.outline
  have hoffer : unit.offer = .inline unit.receive := by
    simp [ExecutionUnit.offer, hstate, hrunning]
  rw [hoffer] at h
  obtain rfl := Option.some.inj h
  have hsilent : Silent w (w.changeUnit n 0 fun _ => unit.receive) := by
    refine Silent.refl.changeUnit fun old hold => ?_
    obtain rfl : unit = old := by simpa [hunit?] using hold
    exact ⟨rfl, rfl, rfl⟩
  refine .silent hsilent rfl fun wake supply => ?_
  have hkind : (w.line wake supply).kind? n = some node.kind := by
    simp [Line.kind?, line, hnode, Node.station]
  simp only [List.cons_append, List.nil_append, Line.complete_cons, Task.complete,
    EventTask.complete, Line.accept, hkind, accepted]
  cases hcase : node.kind with
  | transform => rfl
  | sink =>
    rw [hcase] at hkind
    have hnone := Line.process_sink hkind event false
    generalize (w.line wake supply).process n event false = processed at hnone
    obtain ⟨later, line⟩ := processed
    obtain rfl : later = none := hnone
    rfl

/-- A call of a hook of the processor of a node, in the world and in its line. -/
theorem callProcessor_line {α : Type} {node : Node P} {unit : ExecutionUnit P}
    {hook : P.Processor → P.Shared → Call P.Processor P.Shared NodeError α}
    {reply : Reply NodeError α} {called : World P} (hnode : w.nodes[n]? = some node)
    (hone : node.units = [unit]) (hcall : w.callProcessor n 0 hook = some (reply, called)) :
    (∀ output wake, w.Keeps output wake → called.Keeps output wake) ∧ ∀ wake supply,
      (w.line wake (w.shared :: supply)).callOnce n hook = (some reply, called.line wake supply) ∧
        (called.line wake supply).kind? n = some node.kind ∧
        (called.line wake supply).unitName n = unit.name := by
  have hunit : w.unit? n 0 = some unit := by simp [unit?, hnode, hone]
  simp only [callProcessor, hunit, Option.map_some, Option.some.injEq, Prod.mk.injEq] at hcall
  obtain ⟨rfl, rfl⟩ := hcall
  refine ⟨fun output wake h => ⟨h.exits, h.told.trans (List.sublist_append_left ..)⟩,
    fun wake supply => ?_⟩
  have hworker : ((w.line wake (w.shared :: supply)).stations[n]?).bind (·.worker) =
      some (unit.name, unit.processor) := by simp [line, hnode, Node.station, hone]
  generalize hcall : hook unit.processor w.shared = call
  have hline : ((({ w with shared := call.shared }.changeUnit n 0 fun unit =>
      { unit with processor := call.plugin }).logAll call.log).line wake supply) =
        (w.line wake supply).changeStation n fun station =>
          { station with worker := some (unit.name, call.plugin) } := by
    rw [line_logAll]
    refine line_changeNode (w := { w with shared := call.shared }) fun node' hnode' => ?_
    obtain rfl : node = node' := by simpa [hnode] using hnode'
    simp [Node.station, hone]
  rw [hline]
  refine ⟨?_, ?_, ?_⟩
  · unfold Line.callOnce
    rw [hworker]
    simp only [show (w.line wake (w.shared :: supply)).supply = w.shared :: supply from rfl, hcall]
    rfl
  · simp [Line.kind?, Line.changeStation, line, hnode, Node.station]
  · simp [Line.unitName, Line.changeStation, line, hnode]

/-- Having an event processed. -/
theorem process_completes {event : Event} {asked : Bool}
    (hsequential : w.outline.layout.IsSequential) (h : w.process n u event asked = some progress) :
    w.Completes k output (.event (.process n u event asked)) progress := by
  simp only [process, Option.bind_eq_bind, Option.bind_eq_some_iff] at h
  obtain ⟨node, hnode, unit, hunit, ⟨reply, called⟩, hcall, h⟩ := h
  obtain ⟨rfl, hone, state, hstate⟩ := unit_eq hsequential hnode hunit
  obtain ⟨hkeeps, hline⟩ := callProcessor_line hnode hone hcall
  have hend (hreply : ∀ limit, reply ≠ .waiting limit) (wake : Wake)
      (supply : List P.Shared) : Task.complete k
        (w.line wake (w.shared :: supply)) (.event (.process n 0 event asked)) =
          Line.goOn k n ((called.line wake supply).conclude n event (some reply)) := by
    obtain ⟨honce, -, -⟩ := hline wake supply
    rw [← Line.process_of_ended honce hreply]
    rfl
  cases reply with
  | waiting limit =>
    cases asked with
    | true => simp at h
    | false =>
      obtain rfl := Option.some.inj h
      refine .goOn id (hkeeps output) fun wake supply => ?_
      obtain ⟨honce, -, -⟩ := hline wake supply
      exact congrArg (Line.goOn k n) (Line.process_of_waiting honce)
  | failed error =>
    obtain rfl := Option.some.inj h
    refine .goOn (·.tell _ _)
      (fun wake h => (((hkeeps output wake h).changeNode _).note _).tell ..) fun wake supply => ?_
    rw [Task.sees, List.singleton_append, hend (by simp)]
    simp only [line_tell, line_note, line_fail]
    rfl
  | panicked text =>
    obtain rfl := Option.some.inj h
    refine .goOn (·.tell _ _)
      (fun wake h => (((hkeeps output wake h).changeNode _).note _).tell ..) fun wake supply => ?_
    obtain ⟨-, -, hname⟩ := hline wake supply
    rw [Task.sees, List.singleton_append, hend (by simp)]
    simp only [line_tell, line_note, line_fail, Line.conclude, hname]
    rfl
  | returned outcome =>
    have hkind (wake : Wake) (supply : List P.Shared) := (hline wake supply).2.1
    cases hcase : node.kind with
    | sink =>
      rw [hcase] at h hkind
      obtain rfl := Option.some.inj h
      refine .goOn id (hkeeps output) fun wake supply => ?_
      rw [Task.sees, List.singleton_append, hend (by simp)]
      simp only [Line.conclude, hkind]
      rfl
    | transform =>
      rw [hcase] at h hkind
      cases outcome with
      | pass | update =>
        obtain rfl := Option.some.inj h
        refine .goOn id (hkeeps output) fun wake supply => ?_
        rw [Task.sees, List.singleton_append, hend (by simp)]
        simp only [Line.conclude, hkind]
        rfl
      | stop reason =>
        obtain rfl := Option.some.inj h
        refine .goOn (·.tell _ _) (fun wake h => (hkeeps output wake h).tell ..)
          fun wake supply => ?_
        rw [Task.sees, List.singleton_append, hend (by simp), line_tell]
        simp only [Line.conclude, hkind]
        rfl

/-- A sequential stream has one trigger. -/
theorem length_triggers (hsequential : w.outline.layout.IsSequential) :
    w.triggers.length = 1 := by
  have hlength := congrArg List.length hsequential.triggers
  simpa [Outline.layout, outline] using hlength

/-- A step on the way of an event that a source has made agrees with its completion, if no
unit refuses the event. -/
theorem performEvent_completes {task : EventTask} {rank : Nat} (hk : w.nodes.length = k)
    (hsequential : w.outline.layout.IsSequential)
    (hchain : w.outline.layout.IsChain (if output then .output true else .tail))
    (hrank : task.rank? = some rank)
    (haccepts : ∀ n u event, task = .offer n u event →
      ∀ unit, w.outline.unit? n u = some unit → unit.signs.accepting = true)
    (hsend : ∀ n u event, task ≠ .send n u event) (h : w.performEvent task = some progress) :
    w.Completes k output (.event task) progress := by
  cases task with
  | make g payload continuation =>
    cases g with
    | node n => simp [EventTask.rank?] at hrank
    | trigger t => exact make_completes hk (length_triggers hsequential) h
  | emit g event => exact emit_completes hk hchain h
  | leave g => exact leave_completes h
  | enter n event => exact enter_completes hk h
  | offer n u event => exact offer_completes hsequential (haccepts n u event rfl) h
  | send n u event => exact absurd rfl (hsend n u event)
  | occupy n u => exact occupy_completes h
  | process n u event asked => exact process_completes hsequential h
  | settle n u => exact settle_completes h

/-- Making the processor of an inline unit ready. -/
theorem prepareInline_completes {asked : Bool} (hsequential : w.outline.layout.IsSequential)
    (h : w.prepareInline n u asked = some progress) :
    w.Completes k output (.unit (.prepareInline n u asked)) progress := by
  simp only [prepareInline, Option.bind_eq_bind, Option.bind_eq_some_iff, unit?] at h
  obtain ⟨unit, ⟨node, hnode, hunit⟩, ⟨reply, called⟩, hcall, h⟩ := h
  obtain ⟨rfl, hone, state, hstate⟩ := unit_eq hsequential hnode hunit
  obtain ⟨hkeeps, hline⟩ := callProcessor_line hnode hone hcall
  have hend {w' : World P} {todo : List Task} (hsilent : Silent called w')
      (hreply : ∀ limit, reply ≠ .waiting limit)
      (htodo : ∀ line : Line P, line.complete k todo = line) :
      w.Completes k output (.unit (.prepareInline n 0 asked)) (.goOn w' todo) := by
    refine .goOn id (fun wake h => (hkeeps output wake h).silent hsilent)
      fun wake supply => ?_
    obtain ⟨honce, -, -⟩ := hline wake supply
    rw [htodo, hsilent.line_eq]
    exact congrArg Prod.snd (Line.call_of_ended honce hreply)
  cases reply with
  | waiting limit =>
    cases asked with
    | true => simp at h
    | false =>
      obtain rfl := Option.some.inj h
      refine .goOn id (hkeeps output) fun wake supply => ?_
      obtain ⟨honce, -, -⟩ := hline wake supply
      exact congrArg Prod.snd (Line.call_of_waiting honce)
  | returned =>
    obtain rfl := Option.some.inj h
    exact hend (Silent.refl.changeInline.note _) (by simp) fun _ => rfl
  | failed | panicked =>
    obtain rfl := Option.some.inj h
    exact hend Silent.refl.changeInline (by simp) fun _ => rfl

end World
end EventPipeline
