import EventPipeline.Engine.Line
import EventPipeline.Engine.Schedule
import EventPipeline.Proofs.Engine.Lead

/-!
# `EventPipeline.Proofs.Engine.Building`: streams as they are built

`buildStream` makes nodes and triggers that have counted nothing and run nothing
(`World.Unstarted`), numbers them in the order of the configuration, and wires them to one
chain. So a stream that was built is in order at the position from which a start begins
(`orderly_of_built`).
-/

set_option autoImplicit false

namespace EventPipeline

section

variable {σ ε α β : Type}

/-- What was made in two steps was made in the first one. -/
theorem Made.andThen_returned {made : Made σ ε α} {next : α → σ → Made σ ε β} {b : β}
    (h : (made.andThen next).reply = .returned b) :
    ∃ a, made.reply = .returned a ∧ made.andThen next = next a made.shared := by
  unfold andThen at h ⊢
  cases hreply : made.reply with
  | returned a => exact ⟨a, rfl, rfl⟩
  | failed | panicked | waiting => simp [hreply] at h

end

/-! ## What has counted nothing -/

/-- The outline of a unit that was never started. -/
def UnitOutline.fresh (queued : Bool) : UnitOutline where
  received := 0
  finished := 0
  waiting := 0
  signs := { queued, accepting := false }

/-- The outline of a node that was never started. -/
structure NodeOutline.Fresh (node : NodeOutline) : Prop where
  received : node.received = 0
  emitted : node.emitted = 0
  dropped : node.dropped = 0
  failed : node.failed = 0
  units : ∀ unit ∈ node.units, ∃ queued, unit = .fresh queued

/-- Nothing in the world has counted anything, and there is only the idle main thread. -/
structure World.Unstarted {P : Plugins} (w : World P) : Prop where
  nodes : ∀ node ∈ w.nodes, node.outline.Fresh
  triggers : ∀ trigger ∈ w.triggers, trigger.gate.emitted = 0 ∧ trigger.gate.sequence = 0
  threads : w.threads = [{ agenda := [] }]
  output : w.output = []
  fates : w.fates = []

section

variable {P : Plugins}

/-- What a node is made of: its role, its filter and the instances of its processor. -/
def Node.staff (node : Node P) : NodeKind × Option Filter × List P.Processor :=
  (node.kind, node.filter, node.units.map (·.processor))

/-- The units of a node that is built are fresh, and only the threaded mode has queues. -/
theorem Node.buildUnits_fresh {name : String} {mode : ExecutionMode}
    {make : P.Shared → Made P.Shared NodeError P.Processor} {count number : Nat}
    {shared : P.Shared} {units : List (ExecutionUnit P)}
    (h : (buildUnits name mode make count number shared).reply = .returned units) :
    units.map (·.outline) = List.replicate count (.fresh (mode == .thread)) := by
  induction count generalizing number shared units with
  | zero =>
    obtain rfl : [] = units := by simpa [buildUnits] using h
    rfl
  | succ count ih =>
    obtain ⟨processor, -, heq⟩ := Made.andThen_returned h
    rw [buildUnits, heq] at h
    obtain ⟨rest, hrest, heq⟩ := Made.andThen_returned h
    rw [heq] at h
    obtain rfl := Reply.returned.inj h
    rw [List.map_cons, ih hrest, List.replicate_succ]
    cases mode <;> rfl

/-- A node that is built is fresh, and in the mode `single` it has one unit without a
queue. -/
theorem Node.build_fresh {name : String} {settings : NodeSettings}
    {make : P.Shared → Made P.Shared NodeError P.Processor} {shared : P.Shared} {node : Node P}
    (h : (build name settings make shared).1.reply = .returned node) :
    node.outline.Fresh ∧
      (settings.mode = .single → node.outline.layout.units = [false]) := by
  unfold build at h
  split at h
  case h_1 => simp at h
  case h_2 count hcount =>
    split at h
    · simp at h
    · obtain ⟨units, hunits, heq⟩ := Made.andThen_returned h
      rw [heq] at h
      obtain rfl := Reply.returned.inj h
      have hfresh := buildUnits_fresh hunits
      refine ⟨⟨rfl, rfl, rfl, rfl, fun unit hunit => ?_⟩, fun hsingle => ?_⟩
      · exact ⟨_, List.eq_of_mem_replicate ((congrArg (unit ∈ ·) hfresh).mp hunit)⟩
      · rw [hsingle] at hcount hfresh
        obtain rfl : 1 = count := Option.some.inj hcount
        exact congrArg (·.map (·.signs.queued)) hfresh

/-- The sources of a trigger that is built. -/
theorem Trigger.buildUnits_length {name : String}
    {make : P.Shared → Made P.Shared NodeError P.Source} {count number : Nat}
    {shared : P.Shared} {units : List (SourceUnit P)}
    (h : (buildUnits name make count number shared).reply = .returned units) :
    units.length = count := by
  induction count generalizing number shared units with
  | zero =>
    obtain rfl : [] = units := by simpa [buildUnits] using h
    rfl
  | succ count ih =>
    obtain ⟨source, -, heq⟩ := Made.andThen_returned h
    rw [buildUnits, heq] at h
    obtain ⟨rest, hrest, heq⟩ := Made.andThen_returned h
    rw [heq] at h
    obtain rfl := Reply.returned.inj h
    rw [List.length_cons, ih hrest]

/-- A trigger that is built has emitted nothing and made nothing, and has a source for every
place in its pool, but at least one. -/
theorem Trigger.build_fresh {name : String} {poolSize : Nat} {initWithin : Duration}
    {make : P.Shared → Made P.Shared NodeError P.Source} {shared : P.Shared}
    {trigger : Trigger P}
    (h : (build name poolSize initWithin make shared).reply = .returned trigger) :
    (trigger.gate.emitted = 0 ∧ trigger.gate.sequence = 0) ∧
      trigger.units.length = max poolSize 1 := by
  obtain ⟨units, hunits, heq⟩ := Made.andThen_returned h
  rw [build, heq] at h
  obtain rfl := Reply.returned.inj h
  exact ⟨⟨rfl, rfl⟩, buildUnits_length hunits⟩

end

namespace World

variable {P : Plugins} {w : World P} {registry : Registry P}

/-- A processor that is built is the last node of the world, and a fresh one. -/
theorem buildProcessor_eq {name : String} {template : NodeTemplate} {initWithin : Duration}
    {n : Nat} (h : (w.buildProcessor registry name template initWithin).reply = .returned n) :
    n = w.nodes.length ∧ ∃ node : Node P, (node.outline.Fresh ∧
        (template.mode = .single → node.outline.layout.units = [false])) ∧ ∃ shared log,
      (w.buildProcessor registry name template initWithin).shared =
        { w with shared, log, nodes := w.nodes ++ [node] } := by
  cases hfactory : registry.processor template.plugin with
  | error e => simp [buildProcessor, hfactory] at h
  | ok factory =>
    rcases hbuild : Node.build name (.ofTemplate template factory.kind initWithin)
      (factory.make { name, args := template.args }) w.shared with ⟨made, log⟩
    cases hreply : made.reply with
    | returned node =>
      have hfresh := Node.build_fresh
        (show (Node.build ..).1.reply = .returned node by rw [hbuild]; exact hreply)
      simp only [buildProcessor, hfactory, hbuild, hreply] at h ⊢
      obtain rfl := Reply.returned.inj h
      exact ⟨rfl, node, hfresh, _, _, rfl⟩
    | failed | panicked | waiting => simp [buildProcessor, hfactory, hbuild, hreply] at h

/-- A trigger that is built is the last trigger of the world, and has emitted nothing. -/
theorem buildTrigger_eq {name : String} {template : TriggerTemplate} {initWithin : Duration}
    {t : Nat} (h : (w.buildTrigger registry name template initWithin).reply = .returned t) :
    t = w.triggers.length ∧ ∃ trigger : Trigger P,
      ((trigger.gate.emitted = 0 ∧ trigger.gate.sequence = 0) ∧
        trigger.units.length = max template.poolSize 1) ∧ ∃ shared,
      (w.buildTrigger registry name template initWithin).shared =
        { w with shared, triggers := w.triggers ++ [trigger] } := by
  cases hfactory : registry.trigger template.plugin with
  | error e => simp [buildTrigger, hfactory] at h
  | ok factory =>
    cases hreply : (Trigger.build name template.poolSize initWithin
      (factory.make { name, args := template.args }) w.shared).reply with
    | returned trigger =>
      simp only [buildTrigger, hfactory, hreply] at h ⊢
      obtain rfl := Reply.returned.inj h
      exact ⟨rfl, trigger, Trigger.build_fresh hreply, _, rfl⟩
    | failed | panicked | waiting => simp [buildTrigger, hfactory, hreply] at h

/-- Parts are numbered one after the other, if every part gets the number of parts before
it. -/
theorem buildParts_eq {τ : Type} {templates : Fields τ} {stream : String}
    {build : World P → String → τ → Made (World P) StreamError Nat} {c : World P → Nat}
    {I : World P → Prop}
    {names : List String} {parts : List Nat}
    (hbuild : ∀ w name member template n, member ∈ names → templates.get? member = some template →
      (build w name template).reply = .returned n → I w →
      n = c w ∧ c (build w name template).shared = c w + 1 ∧ I (build w name template).shared)
    (h : (buildParts templates stream build names w).reply = .returned parts) (hI : I w) :
    parts = List.range' (c w) names.length ∧
      c (buildParts templates stream build names w).shared = c w + names.length ∧
      I (buildParts templates stream build names w).shared := by
  induction names generalizing w parts with
  | nil =>
    obtain rfl : [] = parts := by simpa [buildParts] using h
    exact ⟨rfl, rfl, hI⟩
  | cons name names ih =>
    cases htemplate : templates.get? name with
    | none => simp [buildParts, htemplate] at h
    | some template =>
      simp only [buildParts, htemplate] at h ⊢
      obtain ⟨part, hpart, heq⟩ := Made.andThen_returned h
      obtain ⟨rfl, hcount, hnext⟩ := hbuild _ _ name _ _ (by simp) htemplate hpart hI
      rw [heq] at h ⊢
      obtain ⟨rest, hrest, heq⟩ := Made.andThen_returned h
      obtain ⟨hparts, hcounts, hlast⟩ := ih
        (fun w name member template n hmember =>
          hbuild w name member template n (by simp [hmember]))
        hrest hnext
      rw [heq] at h ⊢
      obtain rfl := Reply.returned.inj h
      refine ⟨?_, ?_, hlast⟩
      · rw [hparts, hcount, List.length_cons, List.range'_succ]
      · rw [hcounts, hcount, List.length_cons]
        omega

/-! ## Wiring -/

/-- Nothing but the targets of gates has changed. -/
structure Rewired (w w' : World P) : Prop where
  unstarted : w.Unstarted → w'.Unstarted
  staff : w'.nodes.map Node.staff = w.nodes.map Node.staff
  units : w'.nodes.map (·.outline.layout.units) = w.nodes.map (·.outline.layout.units)
  sources : w'.triggers.map (·.units.length) = w.triggers.map (·.units.length)
  streams : w'.streams = w.streams

namespace Rewired

variable {w' w'' : World P}

theorem refl : Rewired w w := ⟨id, rfl, rfl, rfl, rfl⟩

theorem trans (h : Rewired w w') (h' : Rewired w' w'') : Rewired w w'' :=
  ⟨fun hw => h'.unstarted (h.unstarted hw), h'.staff.trans h.staff, h'.units.trans h.units,
    h'.sources.trans h.sources, h'.streams.trans h.streams⟩

theorem nodes (h : Rewired w w') : w'.nodes.length = w.nodes.length := by
  simpa using congrArg List.length h.units

theorem triggers (h : Rewired w w') : w'.triggers.length = w.triggers.length := by
  simpa using congrArg List.length h.sources

/-- If all nodes have one unit without a queue and the only trigger has one source, the layout
is sequential. -/
theorem isSequential (h : Rewired w w')
    (hnodes : ∀ node ∈ w.nodes, node.outline.layout.units = [false])
    (htriggers : ∀ trigger ∈ w.triggers, trigger.units.length = 1)
    (hone : w.triggers.length = 1) : w'.outline.layout.IsSequential := by
  refine ⟨fun node hnode => ?_, ?_⟩
  · have hunits : node.units ∈ w'.nodes.map (·.outline.layout.units) := by
      simpa [Outline.layout, outline] using List.mem_map_of_mem hnode
    rw [h.units] at hunits
    obtain ⟨old, hold, heq⟩ := List.mem_map.mp hunits
    exact heq.symm.trans (hnodes old hold)
  · obtain ⟨trigger, htrigger⟩ := List.length_eq_one_iff.mp hone
    have hsources := h.sources
    rw [htrigger, List.map_singleton, htriggers trigger (by simp [htrigger])] at hsources
    simpa [Outline.layout, outline, TriggerOutline.layout, Trigger.outline,
      Function.comp_def] using hsources

end Rewired

variable {w' : World P} {g : GateId} {target last : Target}

/-- Registering a target sets it, unless there is no gate. -/
theorem register_eq (h : w.register g target = .ok w') :
    w.gate? g = none ∧ w' = w ∨
      ∃ gate, w.gate? g = some gate ∧ w' = w.changeGate g fun _ => { gate with target } := by
  unfold register at h
  split at h
  case h_1 hgate => exact .inl ⟨hgate, (Except.ok.inj h).symm⟩
  case h_2 gate hgate =>
    refine .inr ⟨gate, hgate, ?_⟩
    cases htarget : gate.target with
    | some old => simp [Gate.register, htarget, Except.map] at h
    | none => simpa [Gate.register, htarget, Except.map, eq_comm] using h

/-- Registering a target changes nothing else. -/
theorem register_rewired (h : w.register g target = .ok w') : Rewired w w' := by
  obtain ⟨-, rfl⟩ | ⟨gate, hgate, rfl⟩ := register_eq h
  · exact .refl
  cases g with
  | node n =>
    refine ⟨fun hw => ⟨fun node hnode => ?_, hw.triggers, hw.threads, hw.output, hw.fates⟩,
      map_modify_eq fun _ _ => rfl, map_modify_eq fun _ _ => rfl, rfl, rfl⟩
    obtain hnode | ⟨old, hold, rfl⟩ := mem_modify hnode
    · exact hw.nodes node hnode
    · have hfresh := hw.nodes old (List.mem_of_getElem? hold)
      obtain rfl : gate = old.gate := by simpa [gate?, hold, eq_comm] using hgate
      exact ⟨hfresh.received, hfresh.emitted, hfresh.dropped, hfresh.failed, hfresh.units⟩
  | trigger t =>
    refine ⟨fun hw => ⟨hw.nodes, fun trigger htrigger => ?_, hw.threads, hw.output, hw.fates⟩,
      rfl, rfl, map_modify_eq fun _ _ => rfl, rfl⟩
    obtain htrigger | ⟨old, hold, rfl⟩ := mem_modify htrigger
    · exact hw.triggers trigger htrigger
    · have hfresh := hw.triggers old (List.mem_of_getElem? hold)
      obtain rfl : gate = old.gate := by simpa [gate?, hold, eq_comm] using hgate
      exact hfresh

/-- The target of a gate after a target was registered. -/
theorem register_target? (h : w.register g target = .ok w') (k : GateId) :
    w'.outline.target? k =
      if k = g then (w.outline.target? g).map fun _ => some target else w.outline.target? k := by
  simp only [outline_target?]
  obtain ⟨hgate, rfl⟩ | ⟨gate, hgate, rfl⟩ := register_eq h
  · by_cases hk : k = g
    · subst hk
      simp [hgate]
    · simp [hk]
  · cases g with
    | node n =>
      cases k with
      | node m =>
        simp only [gate?, changeGate, nodes_changeNode, List.getElem?_modify] at hgate ⊢
        obtain ⟨node, hnode, -⟩ := Option.map_eq_some_iff.mp hgate
        by_cases hmn : m = n
        · simp [hmn, hnode]
        · simp [hmn, Ne.symm hmn]
      | trigger t => rfl
    | trigger t =>
      cases k with
      | node m => rfl
      | trigger v =>
        simp only [gate?, changeGate, triggers_changeTrigger, List.getElem?_modify] at hgate ⊢
        obtain ⟨trigger, htrigger, -⟩ := Option.map_eq_some_iff.mp hgate
        by_cases hvt : v = t
        · simp [hvt, htrigger]
        · simp [hvt, Ne.symm hvt]

/-- A node that exists has a gate. -/
theorem outline_target?_node {n : Nat} (hn : n < w.nodes.length) :
    (w.outline.target? (.node n)).isSome := by
  simp [outline_target?, gate?, List.getElem?_eq_getElem hn]

/-- A trigger that exists has a gate. -/
theorem outline_target?_trigger {t : Nat} (ht : t < w.triggers.length) :
    (w.outline.target? (.trigger t)).isSome := by
  simp [outline_target?, gate?, List.getElem?_eq_getElem ht]

/-- Processors are wired to one chain. -/
theorem wireProcessors_eq {c i : Nat}
    (h : wireProcessors last (List.range' i c) w = .ok (target, w'))
    (hc : i + c = w.nodes.length) :
    target = w.outline.layout.down last i ∧ Rewired w w' ∧
      (∀ n, i ≤ n → n < w.nodes.length →
        w'.outline.target? (.node n) = some (some (w.outline.layout.down last (n + 1)))) := by
  have hlength : w.outline.layout.nodes.length = w.nodes.length := by
    rw [Outline.length_layout, outline, List.length_map]
  induction c generalizing i target w' with
  | zero =>
    obtain ⟨rfl, rfl⟩ : last = target ∧ w = w' := by simpa [wireProcessors] using h
    refine ⟨?_, .refl, fun n hi hn => by omega⟩
    rw [Layout.down, if_neg (by omega)]
  | succ c ih =>
    rw [List.range'_succ, wireProcessors] at h
    obtain ⟨⟨next, v⟩, hnext, h⟩ : ∃ next,
        wireProcessors last (List.range' (i + 1) c) w = .ok next ∧
          (next.2.register (.node i) next.1).map (fun w => (Target.node i, w)) =
            .ok (target, w') := by
      cases hwire : wireProcessors last (List.range' (i + 1) c) w with
      | error e => simp [hwire, Bind.bind, Except.bind] at h
      | ok next =>
        refine ⟨next, rfl, ?_⟩
        simp only [hwire, Bind.bind, Except.bind] at h
        cases hregister : next.2.register (.node i) next.1 with
        | error e => simp [hregister] at h
        | ok w => simpa [hregister, Except.map, pure, Except.pure] using h
    obtain ⟨rfl, hrewired, htargets⟩ := ih hnext (by omega)
    cases hregister : v.register (.node i) (w.outline.layout.down last (i + 1)) with
    | error e => simp [hregister, Except.map] at h
    | ok later =>
      obtain ⟨rfl, rfl⟩ : .node i = target ∧ later = w' := by
        simpa [hregister, Except.map] using h
      refine ⟨?_, hrewired.trans (register_rewired hregister), fun n hi hn => ?_⟩
      · rw [Layout.down, if_pos (by omega)]
      · rw [register_target? hregister]
        by_cases hin : n = i
        · subst hin
          obtain ⟨old, hold⟩ := Option.isSome_iff_exists.mp
            (outline_target?_node (w := v) (n := n) (by rw [hrewired.nodes]; exact hn))
          simp [hold]
        · rw [if_neg (by simpa using hin)]
          exact htargets n (by omega) hn

/-- Triggers are wired to the head of a chain. -/
theorem wireTriggers_eq {triggers : List Nat}
    (h : triggers.foldlM (fun w t => w.register (.trigger t) target) w = .ok w') :
    Rewired w w' ∧ (∀ n, w'.outline.target? (.node n) = w.outline.target? (.node n)) ∧
      (∀ t ∉ triggers, w'.outline.target? (.trigger t) = w.outline.target? (.trigger t)) ∧
      ∀ t ∈ triggers, t < w.triggers.length →
        w'.outline.target? (.trigger t) = some (some target) := by
  induction triggers generalizing w with
  | nil =>
    obtain rfl : w = w' := by simpa [pure, Except.pure] using h
    exact ⟨.refl, fun _ => rfl, fun _ _ => rfl, by simp⟩
  | cons t ts ih =>
    rw [List.foldlM_cons] at h
    cases hregister : w.register (.trigger t) target with
    | error e => simp [hregister, Bind.bind, Except.bind] at h
    | ok v =>
      simp only [hregister, Bind.bind, Except.bind] at h
      obtain ⟨hrewired, hnodes, hothers, htriggers⟩ := ih h
      have hv := register_rewired hregister
      refine ⟨hv.trans hrewired, fun n => ?_, fun r hr => ?_, fun r hr hlength => ?_⟩
      · rw [hnodes, register_target? hregister, if_neg (by simp)]
      · rw [List.mem_cons, not_or] at hr
        rw [hothers r hr.2, register_target? hregister, if_neg (by simpa using hr.1)]
      · by_cases hrt : r ∈ ts
        · exact htriggers r hrt (by rw [hv.triggers]; exact hlength)
        · obtain rfl : r = t := by simpa [hrt] using hr
          obtain ⟨old, hold⟩ := Option.isSome_iff_exists.mp (outline_target?_trigger hlength)
          rw [hothers r hrt, register_target? hregister]
          simp [hold]

/-- A world whose gates have the targets of a chain is laid out as one. -/
theorem isChain_of_targets (hlast : ∀ m, last ≠ .node m)
    (hnodes : ∀ n, n < w.nodes.length →
      w.outline.target? (.node n) = some (some (w.outline.layout.down last (n + 1))))
    (htriggers : ∀ t, t < w.triggers.length →
      w.outline.target? (.trigger t) = some (some (w.outline.layout.down last 0))) :
    w.outline.layout.IsChain last := by
  refine ⟨hlast, fun n node hnode => ?_, fun t trigger htrigger => ?_⟩
  · have hn : n < w.nodes.length := by
      simpa [Outline.layout, outline] using (List.getElem?_eq_some_iff.mp hnode).1
    have htarget := hnodes n hn
    simp only [Outline.target?_eq, hnode, Option.map_some, Option.some.injEq] at htarget
    exact htarget
  · have ht : t < w.triggers.length := by
      simpa [Outline.layout, outline] using (List.getElem?_eq_some_iff.mp htrigger).1
    have htarget := htriggers t ht
    simp only [Outline.target?_eq, htrigger, Option.map_some, Option.some.injEq] at htarget
    exact htarget

/-- All nodes and triggers of a world are wired to a chain. -/
theorem wire_eq {k m : Nat} (hlast : ∀ m, last ≠ .node m)
    (h : w.wire (List.range' 0 m) (List.range' 0 k) last = .ok w') (hk : k = w.nodes.length)
    (hm : m = w.triggers.length) : Rewired w w' ∧ w'.outline.layout.IsChain last := by
  simp only [wire, Bind.bind, Except.bind] at h
  cases hwire : wireProcessors last (List.range' 0 k) w with
  | error e => simp [hwire] at h
  | ok next =>
    obtain ⟨head, v⟩ := next
    simp only [hwire] at h
    obtain ⟨rfl, hv, hnodes⟩ := wireProcessors_eq hwire (by omega)
    obtain ⟨hw', hsame, -, htriggers⟩ := wireTriggers_eq h
    have hrewired := hv.trans hw'
    have hdown (n : Nat) : w'.outline.layout.down last n = w.outline.layout.down last n := by
      simp only [Layout.down, Outline.length_layout, outline, List.length_map, hrewired.nodes]
    refine ⟨hrewired, isChain_of_targets hlast (fun n hn => ?_) fun t ht => ?_⟩
    · rw [hrewired.nodes] at hn
      rw [hsame, hdown]
      exact hnodes n (by omega) hn
    · rw [hrewired.triggers] at ht
      rw [hdown]
      refine htriggers t (by simpa using by omega) (by rw [hv.triggers]; exact ht)

/-- A world in which some nodes of a stream were made, if `single` holds all in the mode
`single`. -/
structure NodesMade (single : Prop) (w : World P) : Prop where
  unstarted : w.Unstarted
  triggers : w.triggers = []
  streams : w.streams = []
  single : single → ∀ node ∈ w.nodes, node.outline.layout.units = [false]

/-- A world in which the given nodes and some triggers of a stream were made, if `single`
holds all with one source. -/
structure TriggersMade (single : Prop) (nodes : List (Node P)) (w : World P) : Prop where
  unstarted : w.Unstarted
  nodes : w.nodes = nodes
  streams : w.streams = []
  single : single → ∀ trigger ∈ w.triggers, trigger.units.length = 1

/-- Building a processor makes a further node. -/
theorem NodesMade.buildProcessor {single : Prop} {name : String} {template : NodeTemplate}
    {initWithin : Duration} {n : Nat} (hsingle : single → template.mode = .single)
    (h : (w.buildProcessor registry name template initWithin).reply = .returned n)
    (hw : w.NodesMade single) :
    n = w.nodes.length ∧
      (w.buildProcessor registry name template initWithin).shared.nodes.length =
        w.nodes.length + 1 ∧
      (w.buildProcessor registry name template initWithin).shared.NodesMade single := by
  obtain ⟨hnumber, node, ⟨hfresh, hunits⟩, shared, log, heq⟩ := buildProcessor_eq h
  obtain ⟨hnodes, htriggers, hthreads, houtput, hfates⟩ := hw.unstarted
  rw [heq]
  refine ⟨hnumber, by simp, ⟨fun node' hnode' => ?_, htriggers, hthreads, houtput, hfates⟩,
    hw.triggers, hw.streams, fun hsequential node' hnode' => ?_⟩
  · rcases List.mem_append.mp hnode' with hnode' | hnode'
    · exact hnodes node' hnode'
    · obtain rfl := List.mem_singleton.mp hnode'
      exact hfresh
  · rcases List.mem_append.mp hnode' with hnode' | hnode'
    · exact hw.single hsequential node' hnode'
    · obtain rfl := List.mem_singleton.mp hnode'
      exact hunits (hsingle hsequential)

/-- Building a trigger makes a further trigger. -/
theorem TriggersMade.buildTrigger {single : Prop} {nodes : List (Node P)} {name : String}
    {template : TriggerTemplate} {initWithin : Duration} {t : Nat}
    (hsingle : single → template.poolSize ≤ 1)
    (h : (w.buildTrigger registry name template initWithin).reply = .returned t)
    (hw : w.TriggersMade single nodes) :
    t = w.triggers.length ∧
      (w.buildTrigger registry name template initWithin).shared.triggers.length =
        w.triggers.length + 1 ∧
      (w.buildTrigger registry name template initWithin).shared.TriggersMade single nodes := by
  obtain ⟨hnumber, trigger, ⟨hfresh, hunits⟩, shared, heq⟩ := buildTrigger_eq h
  obtain ⟨hnodes, htriggers, hthreads, houtput, hfates⟩ := hw.unstarted
  rw [heq]
  refine ⟨hnumber, by simp, ⟨hnodes, fun trigger' htrigger' => ?_, hthreads, houtput, hfates⟩,
    hw.nodes, hw.streams, fun hsequential trigger' htrigger' => ?_⟩
  · rcases List.mem_append.mp htrigger' with htrigger' | htrigger'
    · exact htriggers trigger' htrigger'
    · obtain rfl := List.mem_singleton.mp htrigger'
      exact hfresh
  · rcases List.mem_append.mp htrigger' with htrigger' | htrigger'
    · exact hw.single hsequential trigger' htrigger'
    · obtain rfl := List.mem_singleton.mp htrigger'
      have hpool := hsingle hsequential
      omega

/-- A stream that is built in an idle world consists of everything in the world, laid out as
a chain. -/
theorem buildStream_eq {shared : P.Shared} {name : String} {config : PipelineConfig}
    {output : Bool} {s : Nat}
    (h : (idle shared).buildStream name config registry output =
      { reply := .returned s, shared := w }) :
    w.Unstarted ∧ w.outline.layout.Records w.streams s false ∧
      w.outline.layout.IsChain (if output then .output true else .tail) ∧
      (config.IsSequential name → w.outline.layout.IsSequential) := by
  have hreply := congrArg Made.reply h
  have hshared := congrArg Made.shared h
  unfold buildStream at hreply hshared
  cases hlayout : layoutOf config name with
  | error e => simp [hlayout] at hreply
  | ok layout =>
    simp only [hlayout] at hreply hshared
    obtain ⟨processors, hprocessors, heq⟩ := Made.andThen_returned hreply
    rw [heq] at hreply hshared
    have hsingle (hsequential : config.IsSequential name) :
        (∃ trigger, layout.triggers = [trigger] ∧ ∀ template,
          config.triggers.get? trigger = some template → template.poolSize ≤ 1) ∧
        ∀ member ∈ layout.processors, ∀ template,
          config.nodes.get? member = some template → template.mode = .single := by
      obtain ⟨trigger, members, hsame, htrigger, hmodes⟩ := hsequential
      obtain rfl : _ = layout := by simpa [layoutOf, hsame] using hlayout
      exact ⟨⟨trigger, rfl, htrigger⟩, hmodes⟩
    obtain ⟨rfl, hnodes, hbuilt⟩ := buildParts_eq (c := fun w => w.nodes.length)
      (I := NodesMade (config.IsSequential name))
      (fun w name member template n hmember htemplate hn hI =>
        hI.buildProcessor (fun h => (hsingle h).2 member hmember template htemplate) hn)
      hprocessors ⟨⟨by simp [idle], by simp [idle], rfl, rfl, rfl⟩, rfl, rfl, by simp [idle]⟩
    generalize (buildParts config.nodes name _ layout.processors (idle shared)).shared = built at *
    obtain ⟨triggers, htriggers, heq⟩ := Made.andThen_returned hreply
    rw [heq] at hreply hshared
    obtain ⟨rfl, htriggersLength, hall⟩ := buildParts_eq (c := fun w => w.triggers.length)
      (I := TriggersMade (config.IsSequential name) built.nodes)
      (fun w name member template t hmember htemplate ht hI => hI.buildTrigger
        (fun h => by
          obtain ⟨trigger, htriggers, htrigger⟩ := (hsingle h).1
          obtain rfl : member = trigger := by simpa [htriggers] using hmember
          exact htrigger template htemplate) ht)
      htriggers ⟨hbuilt.unstarted, rfl, hbuilt.streams, by simp [hbuilt.triggers]⟩
    generalize (buildParts config.triggers name _ layout.triggers built).shared = all at *
    have hidle : (idle shared).nodes.length = 0 := rfl
    rw [hbuilt.triggers, List.length_nil] at hreply hshared htriggersLength
    rw [hidle] at hreply hshared hnodes
    cases hwire : all.wire (List.range' 0 layout.triggers.length)
        (List.range' 0 layout.processors.length)
        (if output then .output true else .tail) with
    | error e => simp [hwire] at hreply
    | ok wired =>
      simp only [hwire] at hreply hshared
      obtain ⟨hrewired, hchain⟩ := wire_eq (by split <;> simp) hwire
        (by rw [hall.nodes]; omega) (by omega)
      obtain rfl := Reply.returned.inj hreply
      subst hshared
      obtain ⟨hfresh, hemitted, hthreads, houtput, hfates⟩ := hrewired.unstarted hall.unstarted
      refine ⟨⟨hfresh, hemitted, hthreads, houtput, hfates⟩, ?_, hchain, fun hsequential => ?_⟩
      case refine_2 =>
        refine hrewired.isSequential (hall.nodes ▸ hbuilt.single hsequential)
          (hall.single hsequential) ?_
        obtain ⟨⟨trigger, htriggers, -⟩, -⟩ := hsingle hsequential
        rw [htriggersLength, htriggers]
        rfl
      refine ⟨
        { name
          triggers := List.range' 0 layout.triggers.length
          processors := List.range' 0 layout.processors.length },
        by simp [addStream, hrewired.streams, hall.streams], ?_, ?_, rfl⟩
      · have hlength : wired.triggers.length = layout.triggers.length := by
          rw [hrewired.triggers]
          omega
        simp [List.range_eq_range', Outline.layout, outline, addStream, hlength]
      · have hlength : wired.nodes.length = layout.processors.length := by
          rw [hrewired.nodes, hall.nodes]
          omega
        simp [List.range_eq_range', Outline.layout, outline, addStream, hlength]

/-- A world that was not started is in order at the position from which a start begins. -/
theorem Unstarted.orderly (hw : w.Unstarted) :
    Orderly w.outline.layout (.rising w.outline.layout.nodes.length 0 false) w.outline w.agendas
      fun _ => 0 := by
  have hagendas : w.agendas = [[]] := by simp [agendas, hw.threads]
  have hworkers (i : Nat) (agenda : List Task) (h : w.agendas[i + 1]? = some agenda) : False := by
    simp [hagendas] at h
  have hload (p : Task → Bool) : load w.agendas p = 0 := by simp [hagendas, load]
  have hnode {n : Nat} {node : NodeOutline} (h : w.outline.nodes[n]? = some node) :
      node.Fresh := by
    rw [outline_nodes] at h
    obtain ⟨old, hold, rfl⟩ := Option.map_eq_some_iff.mp h
    exact hw.nodes old (List.mem_of_getElem? hold)
  have hunit {n u : Nat} {unit : UnitOutline} (h : w.outline.unit? n u = some unit) :
      ∃ queued, unit = .fresh queued := by
    obtain ⟨node, hnode', hunit⟩ := Option.bind_eq_some_iff.mp h
    exact (hnode hnode').units unit (List.mem_of_getElem? hunit)
  have hphase {n u : Nat} (hn : n < w.outline.layout.nodes.length) :
      (Position.rising w.outline.layout.nodes.length 0 false).phase n u = .fresh := by
    have hle : ¬ w.outline.layout.nodes.length ≤ n := by omega
    simp [Position.phase, hle]
  have hsent (n : Nat) : w.outline.sentTo n = 0 := by
    have hnodes : (w.outline.nodes.map fun node =>
        EventPipeline.sentTo n node.target node.emitted).sum = 0 := by
      rw [List.sum_eq_zero]
      intro k hk
      obtain ⟨node, hmem, rfl⟩ := List.mem_map.mp hk
      obtain ⟨m, hm⟩ := List.mem_iff_getElem?.mp hmem
      simp [EventPipeline.sentTo, (hnode hm).emitted]
    have htriggers : (w.outline.triggers.map fun trigger =>
        EventPipeline.sentTo n trigger.target trigger.emitted).sum = 0 := by
      rw [List.sum_eq_zero]
      intro k hk
      obtain ⟨outlined, houtlined, rfl⟩ := List.mem_map.mp hk
      obtain ⟨trigger, htrigger, rfl⟩ := List.mem_map.mp houtlined
      simp [EventPipeline.sentTo, Trigger.outline, (hw.triggers trigger htrigger).1]
    rw [Outline.sentTo, hnodes, htriggers]
  exact {
    layout := rfl
    ledger := {
      arrivals := fun n hn => by
        obtain ⟨node, hn⟩ : ∃ node, w.outline.nodes[n]? = some node :=
          ⟨_, List.getElem?_eq_getElem hn⟩
        simp [Outline.arrears, hsent, hn, (hnode hn).received, hload]
      passage := fun n hn => by
        obtain ⟨node, hn⟩ : ∃ node, w.outline.nodes[n]? = some node :=
          ⟨_, List.getElem?_eq_getElem hn⟩
        have hwaiting : (node.units.map UnitOutline.waiting).sum = 0 := by
          rw [List.sum_eq_zero]
          intro k hk
          obtain ⟨unit, hunit, rfl⟩ := List.mem_map.mp hk
          obtain ⟨queued, rfl⟩ := (hnode hn).units unit hunit
          rfl
        obtain ⟨hreceived, hemitted, hdropped, hfailed, -⟩ := hnode hn
        have hkept : node.kept = 0 := by simp [NodeOutline.kept, hfailed, hwaiting]
        simp [Outline.balance, hn, NodeOutline.balance, hreceived, hemitted, hdropped, hkept,
          hload]
      units := fun n u h => by
        obtain ⟨unit, h⟩ := Option.isSome_iff_exists.mp h
        obtain ⟨queued, rfl⟩ := hunit h
        simp [Outline.unitBalance, h, UnitOutline.balance, UnitOutline.fresh, hload] }
    units := fun n u unit h => by
      have hn : n < w.outline.layout.nodes.length := by
        obtain ⟨node, hnode, -⟩ := Option.bind_eq_some_iff.mp h
        rw [Outline.length_layout]
        exact (List.getElem?_eq_some_iff.mp hnode).1
      obtain ⟨queued, rfl⟩ := hunit h
      rw [hphase hn]
      exact fun _ => ⟨rfl, rfl, rfl⟩
    sources := fun t v source _ h => by simp [Position.source] at h
    threads := fun i agenda h => (hworkers i agenda h).elim
    alone := fun i j a b n u h => (hworkers i a h).elim
    sends := fun i agenda n u event h => (hworkers i agenda h).elim
    quiet := fun n u hu _ => by
      refine ⟨fun i agenda h => (hworkers i agenda h).elim, fun m v unit h => ?_⟩
      obtain ⟨queued, rfl⟩ := hunit h
      rfl }

/-! ## What building keeps -/

/-- Whatever the steps keep by which a stream is built. -/
structure BuildKeeps (registry : Registry P) (I : World P → Prop) : Prop where
  processor : ∀ v name template within, I v →
    I (v.buildProcessor registry name template within).shared
  trigger : ∀ v name template within, I v →
    I (v.buildTrigger registry name template within).shared
  gate : ∀ v g f, I v → I (v.changeGate g f)
  stream : ∀ v stream, I v → I (v.addStream stream).2

namespace BuildKeeps

variable {I : World P → Prop} {registry : Registry P}

/-- What is built in two steps. -/
theorem andThen {α β : Type} {made : Made (World P) StreamError α}
    {next : α → World P → Made (World P) StreamError β} (h : I made.shared)
    (hnext : ∀ a v, I v → I (next a v).shared) : I (made.andThen next).shared := by
  unfold Made.andThen
  split
  · exact hnext _ _ h
  all_goals exact h

/-- Parts are built one after the other. -/
theorem buildParts {τ : Type} {templates : Fields τ} {stream : String}
    {build : World P → String → τ → Made (World P) StreamError Nat} {names : List String}
    (hbuild : ∀ v name template, I v → I (build v name template).shared) (hw : I w) :
    I (World.buildParts templates stream build names w).shared := by
  induction names generalizing w with
  | nil => exact hw
  | cons name names ih =>
    unfold World.buildParts
    split
    · exact hw
    · exact andThen (hbuild _ _ _ hw) fun _ v hv => andThen (ih hv) fun _ _ h => h

theorem register (h : BuildKeeps registry I) {g : GateId} {target : Target}
    (hregister : w.register g target = .ok w') (hw : I w) : I w' := by
  obtain ⟨-, rfl⟩ | ⟨gate, -, rfl⟩ := register_eq hregister
  · exact hw
  · exact h.gate _ _ _ hw

theorem wireProcessors (h : BuildKeeps registry I) {last target : Target}
    {processors : List Nat} (hwire : World.wireProcessors last processors w = .ok (target, w'))
    (hw : I w) : I w' := by
  induction processors generalizing target w' with
  | nil =>
    obtain ⟨-, rfl⟩ : last = target ∧ w = w' := by simpa [World.wireProcessors] using hwire
    exact hw
  | cons n ns ih =>
    simp only [World.wireProcessors, Bind.bind, Except.bind] at hwire
    split at hwire
    · simp at hwire
    · rename_i next hnext
      split at hwire
      · simp at hwire
      · rename_i wired hwired
        obtain ⟨-, rfl⟩ : Target.node n = target ∧ wired = w' := by
          simpa [pure, Except.pure] using hwire
        exact h.register hwired (ih hnext)

theorem wireTriggers (h : BuildKeeps registry I) {target : Target} {triggers : List Nat}
    (hwire : triggers.foldlM (fun w t => w.register (.trigger t) target) w = .ok w')
    (hw : I w) : I w' := by
  induction triggers generalizing w with
  | nil =>
    obtain rfl : w = w' := by simpa [pure, Except.pure] using hwire
    exact hw
  | cons t ts ih =>
    rw [List.foldlM_cons] at hwire
    cases hregister : w.register (.trigger t) target with
    | error e => simp [hregister, Bind.bind, Except.bind] at hwire
    | ok wired =>
      exact ih (by simpa [hregister, Bind.bind, Except.bind] using hwire)
        (h.register hregister hw)

theorem wire (h : BuildKeeps registry I) {triggers processors : List Nat} {last : Target}
    (hwire : w.wire triggers processors last = .ok w') (hw : I w) : I w' := by
  simp only [World.wire, Bind.bind, Except.bind] at hwire
  split at hwire
  · simp at hwire
  · rename_i next hnext
    exact h.wireTriggers hwire (h.wireProcessors hnext hw)

/-- Building a stream keeps what its steps keep, also if it fails. -/
theorem buildStream (h : BuildKeeps registry I) (name : String) (config : PipelineConfig)
    (output : Bool) (hw : I w) : I (w.buildStream name config registry output).shared := by
  unfold World.buildStream
  split
  · exact hw
  · refine andThen (buildParts (fun _ _ _ => h.processor _ _ _ _) hw) fun processors v hv =>
      andThen (buildParts (fun _ _ _ => h.trigger _ _ _ _) hv) fun triggers u hu => ?_
    split
    · exact hu
    · rename_i wired hwired
      exact h.stream _ _ (h.wire hwired hu)

end BuildKeeps

end World
end EventPipeline
