import EventPipeline.Engine.Course
import Mathlib.Algebra.BigOperators.Group.List.Basic

/-!
# `EventPipeline.Proofs.Engine.Outline`: the outline of a world

Most of what a world holds does not matter for the question where its events are: not the
payloads, the plugins, the log or the clock. The outline of a world keeps the rest. It has
the targets and counters of gates and nodes, and for every unit its counters, the length of
its queue and the signs by which other threads know its state.

`outline_changeNode` and `outline_changeUnit` say how a change of a world shows in its
outline. The lemmas before them say which parts of a world a change leaves alone.
-/

set_option autoImplicit false

namespace EventPipeline

section

variable {α β : Type}

/-- A change at one place of a list, seen through a function. -/
theorem map_modify {φ : α → β} {f : α → α} {g : β → β} {l : List α} {i : Nat}
    (h : ∀ a, l[i]? = some a → φ (f a) = g (φ a)) :
    (l.modify i f).map φ = (l.map φ).modify i g := by
  apply List.ext_getElem?
  intro j
  rw [List.getElem?_map, List.getElem?_modify, List.getElem?_modify, List.getElem?_map]
  cases ha : l[j]? with
  | none => rfl
  | some a =>
    by_cases hij : i = j
    · subst hij
      simp [h a ha]
    · simp [hij]

/-- A change at one place of a list that a function does not see. -/
theorem map_modify_eq {φ : α → β} {f : α → α} {l : List α} {i : Nat}
    (h : ∀ a, l[i]? = some a → φ (f a) = φ a) : (l.modify i f).map φ = l.map φ := by
  rw [map_modify (g := id) h]
  apply List.ext_getElem?
  intro j
  simp

/-- A member of a list in which one place was changed. -/
theorem mem_modify {f : α → α} {l : List α} {i : Nat} {b : α} (h : b ∈ l.modify i f) :
    b ∈ l ∨ ∃ a, l[i]? = some a ∧ b = f a := by
  obtain ⟨j, hj⟩ := List.mem_iff_getElem?.mp h
  rw [List.getElem?_modify] at hj
  obtain ⟨a, ha, hb⟩ := Option.map_eq_some_iff.mp hj
  by_cases hij : i = j
  · subst hij
    exact .inr ⟨a, ha, by simpa using hb.symm⟩
  · simp only [hij, if_false] at hb
    exact .inl (hb ▸ List.mem_of_getElem? ha)

/-- An element of a list in which one place was changed. -/
theorem getElem?_modify_cases {f : α → α} {l : List α} {i j : Nat} {b : α}
    (h : (l.modify i f)[j]? = some b) :
    (i = j ∧ ∃ a, l[i]? = some a ∧ b = f a) ∨ (i ≠ j ∧ l[j]? = some b) := by
  rw [List.getElem?_modify] at h
  obtain ⟨a, ha, hb⟩ := Option.map_eq_some_iff.mp h
  by_cases hij : i = j
  · subst hij
    exact .inl ⟨rfl, a, ha, by simpa using hb.symm⟩
  · simp only [hij, if_false] at hb
    exact .inr ⟨hij, hb ▸ ha⟩

/-- A sum after a change of one summand. -/
theorem sum_modify {φ : α → Nat} {f : α → α} {l : List α} {i : Nat} {a : α}
    (h : l[i]? = some a) :
    ((l.modify i f).map φ).sum + φ a = (l.map φ).sum + φ (f a) := by
  induction l generalizing i with
  | nil => simp at h
  | cons b l ih =>
    cases i with
    | zero =>
      obtain rfl : b = a := by simpa using h
      simp only [List.modify_zero_cons, List.map_cons, List.sum_cons]
      omega
    | succ i =>
      have := ih (by simpa using h)
      simp only [List.modify_succ_cons, List.map_cons, List.sum_cons]
      omega

end

namespace World

variable {P : Plugins} (w : World P)

/-! ## What a change leaves alone -/

@[simp] theorem nodes_changeNode (n : Nat) (f : Node P → Node P) :
    (w.changeNode n f).nodes = w.nodes.modify n f := rfl

@[simp] theorem triggers_changeNode (n : Nat) (f : Node P → Node P) :
    (w.changeNode n f).triggers = w.triggers := rfl

@[simp] theorem threads_changeNode (n : Nat) (f : Node P → Node P) :
    (w.changeNode n f).threads = w.threads := rfl

@[simp] theorem streams_changeNode (n : Nat) (f : Node P → Node P) :
    (w.changeNode n f).streams = w.streams := rfl

@[simp] theorem nodes_changeUnit (n u : Nat) (f : ExecutionUnit P → ExecutionUnit P) :
    (w.changeUnit n u f).nodes =
      w.nodes.modify n fun node => { node with units := node.units.modify u f } := rfl

@[simp] theorem triggers_changeUnit (n u : Nat) (f : ExecutionUnit P → ExecutionUnit P) :
    (w.changeUnit n u f).triggers = w.triggers := rfl

@[simp] theorem threads_changeUnit (n u : Nat) (f : ExecutionUnit P → ExecutionUnit P) :
    (w.changeUnit n u f).threads = w.threads := rfl

@[simp] theorem streams_changeUnit (n u : Nat) (f : ExecutionUnit P → ExecutionUnit P) :
    (w.changeUnit n u f).streams = w.streams := rfl

@[simp] theorem nodes_changeTrigger (t : Nat) (f : Trigger P → Trigger P) :
    (w.changeTrigger t f).nodes = w.nodes := rfl

@[simp] theorem triggers_changeTrigger (t : Nat) (f : Trigger P → Trigger P) :
    (w.changeTrigger t f).triggers = w.triggers.modify t f := rfl

@[simp] theorem threads_changeTrigger (t : Nat) (f : Trigger P → Trigger P) :
    (w.changeTrigger t f).threads = w.threads := rfl

@[simp] theorem streams_changeTrigger (t : Nat) (f : Trigger P → Trigger P) :
    (w.changeTrigger t f).streams = w.streams := rfl

@[simp] theorem threads_changeGate (g : GateId) (f : Gate → Gate) :
    (w.changeGate g f).threads = w.threads := by cases g <;> rfl

@[simp] theorem streams_changeGate (g : GateId) (f : Gate → Gate) :
    (w.changeGate g f).streams = w.streams := by cases g <;> rfl

@[simp] theorem nodes_logAll (messages : List Message) :
    (w.logAll messages).nodes = w.nodes := rfl

@[simp] theorem triggers_logAll (messages : List Message) :
    (w.logAll messages).triggers = w.triggers := rfl

@[simp] theorem threads_logAll (messages : List Message) :
    (w.logAll messages).threads = w.threads := rfl

@[simp] theorem streams_logAll (messages : List Message) :
    (w.logAll messages).streams = w.streams := rfl

@[simp] theorem nodes_note (message : Message) : (w.note message).nodes = w.nodes := rfl

@[simp] theorem triggers_note (message : Message) :
    (w.note message).triggers = w.triggers := rfl

@[simp] theorem threads_note (message : Message) :
    (w.note message).threads = w.threads := rfl

@[simp] theorem streams_note (message : Message) :
    (w.note message).streams = w.streams := rfl

/-- Telling the fate of an event changes at most the record of fates and the log. -/
theorem tell_eq (event : Event) (fate : Fate) :
    ∃ fates log, w.tell event fate = { w with fates, log } := by
  unfold tell
  split
  · exact ⟨_, _, rfl⟩
  · exact ⟨_, _, rfl⟩
  · exact ⟨_, _, rfl⟩

@[simp] theorem nodes_tell (event : Event) (fate : Fate) :
    (w.tell event fate).nodes = w.nodes := by
  obtain ⟨_, _, h⟩ := w.tell_eq event fate
  rw [h]

@[simp] theorem triggers_tell (event : Event) (fate : Fate) :
    (w.tell event fate).triggers = w.triggers := by
  obtain ⟨_, _, h⟩ := w.tell_eq event fate
  rw [h]

@[simp] theorem threads_tell (event : Event) (fate : Fate) :
    (w.tell event fate).threads = w.threads := by
  obtain ⟨_, _, h⟩ := w.tell_eq event fate
  rw [h]

@[simp] theorem streams_tell (event : Event) (fate : Fate) :
    (w.tell event fate).streams = w.streams := by
  obtain ⟨_, _, h⟩ := w.tell_eq event fate
  rw [h]

end World

/-! ## Outlines -/

/-- The signs by which other threads know the state of a unit. For an inline unit only the
second one means something. -/
structure Signs where
  /-- it has a queue and a worker -/
  queued : Bool := false
  accepting : Bool
  /-- its worker has said that it is ready -/
  ready : Bool := false
  connected : Bool := false
  dismissed : Bool := false
  alive : Bool := false

/-- Changes the signs of a unit that has a queue; it keeps the queue. -/
def Signs.ofQueue (f : Signs → Signs) (signs : Signs) : Signs :=
  if signs.queued then { f signs with queued := true } else signs

/-- Changes the signs of a unit that has no queue; it gets none. -/
def Signs.ofInline (f : Signs → Signs) (signs : Signs) : Signs :=
  if signs.queued then signs else { f signs with queued := false }

@[simp] theorem Signs.queued_ofQueue (f : Signs → Signs) (signs : Signs) :
    (signs.ofQueue f).queued = signs.queued := by
  unfold ofQueue
  split
  case isTrue h => exact h.symm
  case isFalse => rfl

@[simp] theorem Signs.queued_ofInline (f : Signs → Signs) (signs : Signs) :
    (signs.ofInline f).queued = signs.queued := by
  unfold ofInline
  split
  case isTrue => rfl
  case isFalse h => exact (by simpa using h : signs.queued = false).symm

/-- The outline of a unit: its counters, how many events wait in its queue, and its
signs. -/
structure UnitOutline where
  received : Nat
  finished : Nat
  waiting : Nat
  signs : Signs

/-- The outline of a node. -/
structure NodeOutline where
  kind : NodeKind
  target : Option Target
  received : Nat
  emitted : Nat
  dropped : Nat
  failed : Nat
  units : List UnitOutline

/-- The outline of a source unit: whether it runs, and on which thread. -/
structure SourceOutline where
  running : Bool
  worker : Option Nat

/-- The outline of a trigger. -/
structure TriggerOutline where
  target : Option Target
  emitted : Nat
  sources : List SourceOutline

/-- The outline of a world. -/
structure Outline where
  nodes : List NodeOutline
  triggers : List TriggerOutline

/-- The signs of a state. -/
def UnitState.signs : UnitState → Signs
  | .inline state => { accepting := state.running }
  | .queued state =>
    { queued := true
      accepting := state.accepting
      ready := state.ready.any (·.toBool)
      connected := state.connected
      dismissed := state.dismissed
      alive := state.alive }

/-- How many events wait in a state. -/
def UnitState.waiting : UnitState → Nat
  | .inline _ => 0
  | .queued state => state.queue.length

section

variable {P : Plugins}

/-- The outline of a unit. -/
def ExecutionUnit.outline (unit : ExecutionUnit P) : UnitOutline where
  received := unit.stats.received
  finished := unit.stats.finished
  waiting := unit.state.waiting
  signs := unit.state.signs

/-- The outline of a node. -/
def Node.outline (node : Node P) : NodeOutline where
  kind := node.kind
  target := node.gate.target
  received := node.received
  emitted := node.gate.emitted
  dropped := node.dropped
  failed := node.failed
  units := node.units.map ExecutionUnit.outline

/-- The outline of a source unit. -/
def SourceUnit.outline (unit : SourceUnit P) : SourceOutline where
  running := unit.running
  worker := unit.worker

/-- The outline of a trigger. -/
def Trigger.outline (trigger : Trigger P) : TriggerOutline where
  target := trigger.gate.target
  emitted := trigger.gate.emitted
  sources := trigger.units.map SourceUnit.outline

/-- The outline of a world. -/
def World.outline (w : World P) : Outline where
  nodes := w.nodes.map Node.outline
  triggers := w.triggers.map Trigger.outline

end

/-- What never changes in a node: its role, its target, and for every unit whether it has
a queue. -/
structure NodeLayout where
  kind : NodeKind
  target : Option Target
  units : List Bool

/-- What never changes in a trigger: its target and the number of its sources. -/
structure TriggerLayout where
  target : Option Target
  sources : Nat

/-- What never changes in a world once its streams are built. -/
structure Layout where
  nodes : List NodeLayout
  triggers : List TriggerLayout

/-- The number of units of a node. -/
def Layout.units (L : Layout) (n : Nat) : Nat :=
  (L.nodes[n]?).elim 0 (·.units.length)

/-- A unit has a queue. -/
def Layout.isQueued (L : Layout) (n u : Nat) : Bool :=
  ((L.nodes[n]?).bind (·.units[u]?)).getD false

/-- The number of sources of a trigger. -/
def Layout.sources (L : Layout) (t : Nat) : Nat :=
  (L.triggers[t]?).elim 0 (·.sources)

/-- All units of the layout are the only ones of their nodes and have no queue, and there is
one trigger with one source. -/
structure Layout.IsSequential (L : Layout) : Prop where
  nodes : ∀ node ∈ L.nodes, node.units = [false]
  triggers : L.triggers.map (·.sources) = [1]

/-- The layout of a node. -/
def NodeOutline.layout (node : NodeOutline) : NodeLayout where
  kind := node.kind
  target := node.target
  units := node.units.map (·.signs.queued)

/-- The layout of a trigger. -/
def TriggerOutline.layout (trigger : TriggerOutline) : TriggerLayout where
  target := trigger.target
  sources := trigger.sources.length

/-- The layout of a world. -/
def Outline.layout (o : Outline) : Layout where
  nodes := o.nodes.map NodeOutline.layout
  triggers := o.triggers.map TriggerOutline.layout

/-- The unit takes an event. -/
def UnitOutline.take (unit : UnitOutline) : UnitOutline :=
  { unit with received := unit.received + 1 }

/-- The unit is done with an event. -/
def UnitOutline.finish (unit : UnitOutline) : UnitOutline :=
  { unit with finished := unit.finished + 1 }

/-- An event is put into the queue of the unit. -/
def UnitOutline.enqueue (unit : UnitOutline) : UnitOutline :=
  { unit with waiting := unit.waiting + 1 }

/-- The worker of the unit takes an event from the queue. -/
def UnitOutline.dequeue (unit : UnitOutline) : UnitOutline :=
  { unit with waiting := unit.waiting - 1 }

namespace Outline

/-- Changes a node. -/
def changeNode (o : Outline) (n : Nat) (f : NodeOutline → NodeOutline) : Outline :=
  { o with nodes := o.nodes.modify n f }

/-- Changes a unit of a node. -/
def changeUnit (o : Outline) (n u : Nat) (f : UnitOutline → UnitOutline) : Outline :=
  o.changeNode n fun node => { node with units := node.units.modify u f }

/-- Changes a trigger. -/
def changeTrigger (o : Outline) (t : Nat) (f : TriggerOutline → TriggerOutline) : Outline :=
  { o with triggers := o.triggers.modify t f }

/-- Changes a source unit of a trigger. -/
def changeSource (o : Outline) (t v : Nat) (f : SourceOutline → SourceOutline) : Outline :=
  o.changeTrigger t fun trigger => { trigger with sources := trigger.sources.modify v f }

/-- A unit of a node. -/
def unit? (o : Outline) (n u : Nat) : Option UnitOutline :=
  (o.nodes[n]?).bind (·.units[u]?)

/-- A source unit of a trigger. -/
def source? (o : Outline) (t v : Nat) : Option SourceOutline :=
  (o.triggers[t]?).bind (·.sources[v]?)

/-- The target of a gate. -/
def target? (o : Outline) : GateId → Option (Option Target)
  | .node n => (o.nodes[n]?).map (·.target)
  | .trigger t => (o.triggers[t]?).map (·.target)

/-- A gate hands on an event. -/
def emit (o : Outline) : GateId → Outline
  | .node n => o.changeNode n fun node => { node with emitted := node.emitted + 1 }
  | .trigger t =>
    o.changeTrigger t fun trigger => { trigger with emitted := trigger.emitted + 1 }

/-- An event comes to a node. -/
def receive (o : Outline) (n : Nat) : Outline :=
  o.changeNode n fun node => { node with received := node.received + 1 }

/-- A node drops an event. -/
def drop (o : Outline) (n : Nat) : Outline :=
  o.changeNode n fun node => { node with dropped := node.dropped + 1 }

/-- An event fails in a node. -/
def fail (o : Outline) (n : Nat) : Outline :=
  o.changeNode n fun node => { node with failed := node.failed + 1 }

/-- A unit takes an event. -/
def take (o : Outline) (n u : Nat) : Outline :=
  o.changeUnit n u .take

/-- A unit is done with an event. -/
def finish (o : Outline) (n u : Nat) : Outline :=
  o.changeUnit n u .finish

/-- An event is put into the queue of a unit. -/
def enqueue (o : Outline) (n u : Nat) : Outline :=
  o.changeUnit n u .enqueue

/-- A worker takes an event from the queue of its unit. -/
def dequeue (o : Outline) (n u : Nat) : Outline :=
  o.changeUnit n u .dequeue

/-- The signs of a unit change. -/
def sign (o : Outline) (n u : Nat) (f : Signs → Signs) : Outline :=
  o.changeUnit n u fun unit => { unit with signs := f unit.signs }

/-! ## The layout stays what it is -/

/-- A change of a node that keeps its layout. -/
theorem layout_changeNode {o : Outline} {n : Nat} {f : NodeOutline → NodeOutline}
    (hf : ∀ node, (f node).layout = node.layout) :
    (o.changeNode n f).layout = o.layout := by
  simp only [layout, changeNode, map_modify_eq fun node _ => hf node]

/-- A change of a trigger that keeps its layout. -/
theorem layout_changeTrigger {o : Outline} {t : Nat} {f : TriggerOutline → TriggerOutline}
    (hf : ∀ trigger, (f trigger).layout = trigger.layout) :
    (o.changeTrigger t f).layout = o.layout := by
  simp only [layout, changeTrigger, map_modify_eq fun trigger _ => hf trigger]

/-- A change of a unit, which keeps its queue if it has one. -/
theorem layout_changeUnit {o : Outline} {n u : Nat} {f : UnitOutline → UnitOutline}
    (hf : ∀ unit, (f unit).signs.queued = unit.signs.queued) :
    (o.changeUnit n u f).layout = o.layout :=
  layout_changeNode fun node => by
    simp only [NodeOutline.layout,
      map_modify_eq (φ := fun unit : UnitOutline => unit.signs.queued) fun unit _ => hf unit]

@[simp] theorem layout_changeSource (o : Outline) (t v : Nat)
    (f : SourceOutline → SourceOutline) : (o.changeSource t v f).layout = o.layout :=
  layout_changeTrigger fun _ => by simp [TriggerOutline.layout]

@[simp] theorem layout_emit (o : Outline) (g : GateId) : (o.emit g).layout = o.layout := by
  cases g with
  | node n => exact layout_changeNode fun _ => rfl
  | trigger t => exact layout_changeTrigger fun _ => rfl

@[simp] theorem layout_receive (o : Outline) (n : Nat) : (o.receive n).layout = o.layout :=
  layout_changeNode fun _ => rfl

@[simp] theorem layout_drop (o : Outline) (n : Nat) : (o.drop n).layout = o.layout :=
  layout_changeNode fun _ => rfl

@[simp] theorem layout_fail (o : Outline) (n : Nat) : (o.fail n).layout = o.layout :=
  layout_changeNode fun _ => rfl

@[simp] theorem layout_take (o : Outline) (n u : Nat) : (o.take n u).layout = o.layout :=
  layout_changeUnit fun _ => rfl

@[simp] theorem layout_finish (o : Outline) (n u : Nat) : (o.finish n u).layout = o.layout :=
  layout_changeUnit fun _ => rfl

@[simp] theorem layout_enqueue (o : Outline) (n u : Nat) : (o.enqueue n u).layout = o.layout :=
  layout_changeUnit fun _ => rfl

@[simp] theorem layout_dequeue (o : Outline) (n u : Nat) : (o.dequeue n u).layout = o.layout :=
  layout_changeUnit fun _ => rfl

@[simp] theorem layout_sign {o : Outline} {n u : Nat} {f : Signs → Signs}
    (hf : ∀ signs, (f signs).queued = signs.queued) : (o.sign n u f).layout = o.layout :=
  layout_changeUnit fun unit => hf unit.signs

/-! ## Units and sources after a change -/

/-- A change of a node that keeps its units. -/
theorem unit?_changeNode {o : Outline} {m n u : Nat} {f : NodeOutline → NodeOutline}
    (hf : ∀ node, (f node).units = node.units) :
    (o.changeNode m f).unit? n u = o.unit? n u := by
  simp only [unit?, changeNode, List.getElem?_modify]
  cases o.nodes[n]? with
  | none => rfl
  | some node => by_cases hmn : m = n <;> simp [hmn, hf]

@[simp] theorem unit?_receive (o : Outline) (m n u : Nat) :
    (o.receive m).unit? n u = o.unit? n u :=
  unit?_changeNode fun _ => rfl

@[simp] theorem unit?_drop (o : Outline) (m n u : Nat) :
    (o.drop m).unit? n u = o.unit? n u :=
  unit?_changeNode fun _ => rfl

@[simp] theorem unit?_fail (o : Outline) (m n u : Nat) :
    (o.fail m).unit? n u = o.unit? n u :=
  unit?_changeNode fun _ => rfl

@[simp] theorem unit?_emit (o : Outline) (g : GateId) (n u : Nat) :
    (o.emit g).unit? n u = o.unit? n u := by
  cases g with
  | node m => exact unit?_changeNode fun _ => rfl
  | trigger t => rfl

/-- A unit after a change of a unit. -/
theorem unit?_changeUnit (o : Outline) (m v n u : Nat) (f : UnitOutline → UnitOutline) :
    (o.changeUnit m v f).unit? n u =
      (o.unit? n u).map fun unit => if m = n ∧ v = u then f unit else unit := by
  simp only [unit?, changeUnit, changeNode, List.getElem?_modify]
  cases o.nodes[n]? with
  | none => rfl
  | some node =>
    by_cases hmn : m = n
    · simp only [hmn, Option.map_eq_map, if_true, Option.map_some, Option.bind_some,
        List.getElem?_modify, true_and]
    · simp [hmn]

/-- A change of a trigger that keeps its sources. -/
theorem source?_changeTrigger {o : Outline} {s t v : Nat}
    {f : TriggerOutline → TriggerOutline} (hf : ∀ trigger, (f trigger).sources = trigger.sources) :
    (o.changeTrigger s f).source? t v = o.source? t v := by
  simp only [source?, changeTrigger, List.getElem?_modify]
  cases o.triggers[t]? with
  | none => rfl
  | some trigger => by_cases hst : s = t <;> simp [hst, hf]

@[simp] theorem source?_emit (o : Outline) (g : GateId) (t v : Nat) :
    (o.emit g).source? t v = o.source? t v := by
  cases g with
  | node n => rfl
  | trigger s => exact source?_changeTrigger fun _ => rfl

/-- A source unit after a change of a source unit. -/
theorem source?_changeSource (o : Outline) (s r t v : Nat) (f : SourceOutline → SourceOutline) :
    (o.changeSource s r f).source? t v =
      (o.source? t v).map fun source => if s = t ∧ r = v then f source else source := by
  simp only [source?, changeSource, changeTrigger, List.getElem?_modify]
  cases o.triggers[t]? with
  | none => rfl
  | some trigger =>
    by_cases hst : s = t
    · simp only [hst, Option.map_eq_map, if_true, Option.map_some, Option.bind_some,
        List.getElem?_modify, true_and]
    · simp [hst]

/-- Units exist in an outline if they exist in the layout. -/
theorem unit?_isSome (o : Outline) (n u : Nat) :
    (o.unit? n u).isSome = decide (u < o.layout.units n) := by
  simp only [Outline.unit?, Layout.units, Outline.layout, List.getElem?_map]
  cases o.nodes[n]? with
  | none => rfl
  | some node =>
    rw [Bool.eq_iff_iff, decide_eq_true_iff]
    simp [NodeOutline.layout]

/-- Whether a unit has a queue belongs to the layout. -/
theorem isQueued_eq {o : Outline} {n u : Nat} {unit : UnitOutline}
    (h : o.unit? n u = some unit) : o.layout.isQueued n u = unit.signs.queued := by
  obtain ⟨node, hnode, hunit⟩ := Option.bind_eq_some_iff.mp h
  simp [Layout.isQueued, layout, hnode, NodeOutline.layout, hunit]

/-- Sources exist in an outline if they exist in the layout. -/
theorem source?_isSome (o : Outline) (t v : Nat) :
    (o.source? t v).isSome = decide (v < o.layout.sources t) := by
  simp only [Outline.source?, Layout.sources, Outline.layout, List.getElem?_map]
  cases o.triggers[t]? with
  | none => rfl
  | some trigger =>
    rw [Bool.eq_iff_iff, decide_eq_true_iff]
    simp [TriggerOutline.layout]

/-- The number of nodes belongs to the layout. -/
theorem length_layout (o : Outline) : o.layout.nodes.length = o.nodes.length := by
  simp [layout]

/-- The targets of gates belong to the layout. -/
theorem target?_eq (o : Outline) (g : GateId) :
    o.target? g =
      match g with
      | .node n => (o.layout.nodes[n]?).map (·.target)
      | .trigger t => (o.layout.triggers[t]?).map (·.target) := by
  cases g <;> simp [target?, layout, Function.comp_def, NodeOutline.layout,
    TriggerOutline.layout]

end Outline

namespace World

variable {P : Plugins} {w : World P}

/-- The node of an outline. -/
theorem outline_nodes (n : Nat) : w.outline.nodes[n]? = (w.nodes[n]?).map Node.outline := by
  simp [outline]

/-- The trigger of an outline. -/
theorem outline_triggers (t : Nat) :
    w.outline.triggers[t]? = (w.triggers[t]?).map Trigger.outline := by
  simp [outline]

/-- The unit of an outline. -/
theorem outline_unit? (n u : Nat) :
    w.outline.unit? n u = (w.unit? n u).map ExecutionUnit.outline := by
  rw [Outline.unit?, outline_nodes, unit?]
  cases w.nodes[n]? with
  | none => rfl
  | some node => simp [Node.outline]

/-- The source unit of an outline. -/
theorem outline_source? (t v : Nat) :
    w.outline.source? t v = (w.source? t v).map SourceUnit.outline := by
  rw [Outline.source?, outline_triggers, source?]
  cases w.triggers[t]? with
  | none => rfl
  | some trigger => simp [Trigger.outline]

/-- The target of a gate of an outline. -/
theorem outline_target? (g : GateId) :
    w.outline.target? g = (w.gate? g).map (·.target) := by
  cases g with
  | node n => simp [Outline.target?, outline_nodes, gate?, Node.outline, Function.comp_def]
  | trigger t =>
    simp [Outline.target?, outline_triggers, gate?, Trigger.outline, Function.comp_def]

/-- Worlds with the same nodes and triggers have the same outline. -/
theorem outline_congr {v : World P} (hn : v.nodes = w.nodes) (ht : v.triggers = w.triggers) :
    v.outline = w.outline := by
  rw [outline, outline, hn, ht]

@[simp] theorem outline_logAll (messages : List Message) :
    (w.logAll messages).outline = w.outline := rfl

@[simp] theorem outline_note (message : Message) : (w.note message).outline = w.outline := rfl

@[simp] theorem outline_tell (event : Event) (fate : Fate) :
    (w.tell event fate).outline = w.outline :=
  outline_congr (by simp) (by simp)

/-- A change of a node in the outline. -/
theorem outline_changeNode {n : Nat} {f : Node P → Node P} {g : NodeOutline → NodeOutline}
    (h : ∀ node, w.nodes[n]? = some node → (f node).outline = g node.outline) :
    (w.changeNode n f).outline = w.outline.changeNode n g := by
  rw [outline, nodes_changeNode, map_modify h]
  rfl

/-- A change of a node that does not show. -/
theorem outline_changeNode_eq {n : Nat} {f : Node P → Node P}
    (h : ∀ node, w.nodes[n]? = some node → (f node).outline = node.outline) :
    (w.changeNode n f).outline = w.outline := by
  rw [outline, nodes_changeNode, map_modify_eq h]
  rfl

/-- A change of a unit in the outline. -/
theorem outline_changeUnit {n u : Nat} {f : ExecutionUnit P → ExecutionUnit P}
    {g : UnitOutline → UnitOutline}
    (h : ∀ unit, w.unit? n u = some unit → (f unit).outline = g unit.outline) :
    (w.changeUnit n u f).outline = w.outline.changeUnit n u g := by
  refine outline_changeNode fun node hnode => ?_
  have hunits : (node.units.modify u f).map ExecutionUnit.outline =
      (node.units.map ExecutionUnit.outline).modify u g :=
    map_modify fun unit hunit => h unit (by simp [unit?, hnode, hunit])
  simp [Node.outline, hunits]

/-- A change of a unit that does not show. -/
theorem outline_changeUnit_eq {n u : Nat} {f : ExecutionUnit P → ExecutionUnit P}
    (h : ∀ unit, w.unit? n u = some unit → (f unit).outline = unit.outline) :
    (w.changeUnit n u f).outline = w.outline := by
  refine outline_changeNode_eq fun node hnode => ?_
  have hunits : (node.units.modify u f).map ExecutionUnit.outline =
      node.units.map ExecutionUnit.outline :=
    map_modify_eq fun unit hunit => h unit (by simp [unit?, hnode, hunit])
  simp [Node.outline, hunits]

/-- A change of the state of a queued unit in the outline. -/
theorem outline_changeQueue {n u : Nat} {f : QueueState → QueueState} {g : Signs → Signs}
    (hsigns : ∀ state, (UnitState.queued (f state)).signs = g (UnitState.queued state).signs)
    (hqueue : ∀ state, (f state).queue = state.queue) :
    (w.changeUnit n u (·.changeQueue f)).outline = w.outline.sign n u (.ofQueue g) := by
  refine outline_changeUnit fun unit _ => ?_
  obtain ⟨name, processor, stats, state⟩ := unit
  cases state with
  | inline state => rfl
  | queued state =>
    have hqueued : { g (UnitState.queued state).signs with queued := true } =
        g (UnitState.queued state).signs := by
      rw [← hsigns]
      rfl
    simp only [ExecutionUnit.changeQueue, ExecutionUnit.outline, UnitState.waiting, hqueue,
      hsigns]
    rw [← hqueued]
    rfl

/-- A change of the state of an inline unit in the outline. -/
theorem outline_changeInline {n u : Nat} {f : InlineState → InlineState} {g : Signs → Signs}
    (hsigns : ∀ state, (UnitState.inline (f state)).signs = g (UnitState.inline state).signs) :
    (w.changeUnit n u (·.changeInline f)).outline = w.outline.sign n u (.ofInline g) := by
  refine outline_changeUnit fun unit _ => ?_
  obtain ⟨name, processor, stats, state⟩ := unit
  cases state with
  | inline state =>
    have hinline : { g (UnitState.inline state).signs with queued := false } =
        g (UnitState.inline state).signs := by
      rw [← hsigns]
      rfl
    simp only [ExecutionUnit.changeInline, ExecutionUnit.outline, UnitState.waiting, hsigns]
    rw [← hinline]
    rfl
  | queued state => rfl

/-- A change of a source unit in the outline. -/
theorem outline_changeSource {t v : Nat} {f : SourceUnit P → SourceUnit P}
    {g : SourceOutline → SourceOutline} (h : ∀ unit, (f unit).outline = g unit.outline) :
    (w.changeSource t v f).outline = w.outline.changeSource t v g := by
  have htriggers : ((w.changeSource t v f).triggers).map Trigger.outline =
      (w.triggers.map Trigger.outline).modify t fun trigger =>
        { trigger with sources := trigger.sources.modify v g } := by
    refine map_modify fun trigger _ => ?_
    have hunits : (trigger.units.modify v f).map SourceUnit.outline =
        (trigger.units.map SourceUnit.outline).modify v g := map_modify fun unit _ => h unit
    simp [Trigger.outline, hunits]
  rw [outline, htriggers]
  rfl

/-- A change of a source unit that does not show. -/
theorem outline_changeSource_eq {t v : Nat} {f : SourceUnit P → SourceUnit P}
    (h : ∀ unit, (f unit).outline = unit.outline) :
    (w.changeSource t v f).outline = w.outline := by
  have htriggers : ((w.changeSource t v f).triggers).map Trigger.outline =
      w.triggers.map Trigger.outline := by
    refine map_modify_eq fun trigger _ => ?_
    have hunits : (trigger.units.modify v f).map SourceUnit.outline =
        trigger.units.map SourceUnit.outline := map_modify_eq fun unit _ => h unit
    simp [Trigger.outline, hunits]
  rw [outline, htriggers]
  rfl

/-- A change of a gate that does not show. -/
theorem outline_changeGate_eq {g : GateId} {f : Gate → Gate}
    (htarget : ∀ gate, w.gate? g = some gate → (f gate).target = gate.target)
    (hemitted : ∀ gate, w.gate? g = some gate → (f gate).emitted = gate.emitted) :
    (w.changeGate g f).outline = w.outline := by
  cases g with
  | node n =>
    refine outline_changeNode_eq fun node hnode => ?_
    have hgate : w.gate? (.node n) = some node.gate := by simp [gate?, hnode]
    simp [Node.outline, htarget _ hgate, hemitted _ hgate]
  | trigger t =>
    have : ((w.changeGate (.trigger t) f).triggers).map Trigger.outline =
        w.triggers.map Trigger.outline := by
      refine map_modify_eq fun trigger htrigger => ?_
      have hgate : w.gate? (.trigger t) = some trigger.gate := by simp [gate?, htrigger]
      simp [Trigger.outline, htarget _ hgate, hemitted _ hgate]
    rw [outline, this]
    rfl

/-- A gate that counts an event in the outline. -/
theorem outline_emit {g : GateId} {f : Gate → Gate}
    (htarget : ∀ gate, (f gate).target = gate.target)
    (hemitted : ∀ gate, (f gate).emitted = gate.emitted + 1) :
    (w.changeGate g f).outline = w.outline.emit g := by
  cases g with
  | node n =>
    exact outline_changeNode fun node _ => by simp [Node.outline, htarget, hemitted]
  | trigger t =>
    have : ((w.changeGate (.trigger t) f).triggers).map Trigger.outline =
        (w.triggers.map Trigger.outline).modify t fun trigger =>
          { trigger with emitted := trigger.emitted + 1 } :=
      map_modify fun trigger _ => by simp [Trigger.outline, htarget, hemitted]
    rw [outline, this]
    rfl

end World
end EventPipeline
