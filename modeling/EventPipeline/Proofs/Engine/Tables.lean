import EventPipeline.Config.Validation
import EventPipeline.Proofs.Engine.Conservation
import EventPipeline.Proofs.Engine.Names
import Mathlib.Data.List.Forall2
import Mathlib.Data.List.Nodup

/-!
# `EventPipeline.Proofs.Engine.Tables`: what the tables of a stream report

A stream keeps its triggers and its processors in lists, and reports what they have counted in
tables that go by their names. A name is made of that of the stream and that of the member, so
that it tells members apart (`World.qualifiedName_inj`), but not two parts that are built for the
same member.

`World.streamStats_of_follow` is the result, for a stream that was built and every moment after
that. A table has one entry for each part exactly if the layout names none of them twice, and then
it has the sums of the parts. Otherwise there are fewer entries than parts
(`World.Lineup.length_processors_lt`), and the entry under a name is that of the last part of the
name (`World.get?_streamStats`). Validation does not ask for different members
(`World.relayTwice_loses_an_entry`). The units of a processor are numbered, so that its own table
loses none of them.
-/

set_option autoImplicit false

namespace EventPipeline

variable {P : Plugins}

/-- What one list shows at a place through a function, a longer list shows there too. -/
theorem exists_of_map_prefix {α β : Type} {f : α → β} {old new : List α} {i : Nat} {a : α}
    (h : old.map f <+: new.map f) (ha : old[i]? = some a) :
    ∃ b, new[i]? = some b ∧ f b = f a := by
  obtain ⟨rest, hrest⟩ := h
  have hnew : (new.map f)[i]? = some (f a) := by
    rw [← hrest, List.getElem?_append_left, List.getElem?_map, ha, Option.map_some]
    simpa using (List.getElem?_eq_some_iff.mp ha).1
  rw [List.getElem?_map] at hnew
  exact Option.map_eq_some_iff.mp hnew

/-! ## Fields of pairs -/

namespace Fields

variable {α : Type}

/-- Every field of pairs has the name of a pair. -/
theorem names_ofPairs_subset (pairs : List (String × α)) :
    (ofPairs pairs).names ⊆ pairs.map (·.1) := by
  intro name hname
  obtain ⟨value, hvalue⟩ := Option.isSome_iff_exists.mp (contains_iff.mpr hname)
  rw [get?_ofPairs] at hvalue
  obtain ⟨pair, hpair, -⟩ := Option.map_eq_some_iff.mp hvalue
  obtain rfl : pair.1 = name := by simpa using List.find?_some hpair
  exact List.mem_map_of_mem (List.mem_reverse.mp (List.mem_of_find?_eq_some hpair))

/-- If two pairs have the same name, there are fewer fields than pairs. -/
theorem length_ofPairs_lt {pairs : List (String × α)} (h : ¬ (pairs.map (·.1)).Nodup) :
    (ofPairs pairs).length < pairs.length := by
  have hnodup := nodup_names_ofPairs pairs
  have hsub := List.subperm_of_subset hnodup (names_ofPairs_subset pairs)
  by_contra hle
  have hperm : (ofPairs pairs).names.Perm (pairs.map (·.1)) :=
    hsub.perm_of_length_le (by simpa [names] using hle)
  exact h (hperm.nodup_iff.mp hnodup)

/-- Fields of pairs with names of their own have the sums of the pairs. -/
theorem sum_ofPairs {pairs : List (String × α)} (h : (pairs.map (·.1)).Nodup)
    (count : α → Nat) :
    ((ofPairs pairs).map fun field => count field.2).sum =
      (pairs.map fun pair => count pair.2).sum :=
  (((ofPairs_perm_iff pairs).mpr h).map _).sum_nat

end Fields

/-! ## Names -/

/-- The number of a unit can be told from its name. -/
theorem Node.unitName_inj {node : String} {mode : ExecutionMode} {m n : Nat} :
    unitName node m mode = unitName node n mode ↔ m = n := by
  constructor
  · intro h
    have hrepr : m.repr = n.repr := by simpa [unitName, Nat.toString_eq_repr] using h
    have hdigits : Nat.toDigits 10 m = Nat.toDigits 10 n := by
      rw [← Nat.toList_repr, hrepr, Nat.toList_repr]
    rw [← Nat.ofDigitChars_ten_toDigits (n := m), hdigits, Nat.ofDigitChars_ten_toDigits]
  · rintro rfl
    rfl

/-- A qualified name tells the members of a stream apart. -/
theorem World.qualifiedName_inj {stream member other : String} :
    qualifiedName stream member = qualifiedName stream other ↔ member = other := by
  simp [qualifiedName]

/-- Units are numbered from the given number on. -/
theorem Node.buildUnits_names {name : String} {mode : ExecutionMode}
    {make : P.Shared → Made P.Shared NodeError P.Processor} {count number : Nat}
    {shared : P.Shared} {units : List (ExecutionUnit P)}
    (h : (buildUnits name mode make count number shared).reply = .returned units) :
    units.map (·.name) = (List.range' number count).map fun k => unitName name k mode := by
  induction count generalizing number shared units with
  | zero =>
    obtain rfl : [] = units := by simpa [buildUnits] using h
    rfl
  | succ count ih =>
    obtain ⟨processor, -, heq⟩ := Made.andThen_returned h
    rw [buildUnits, heq] at h
    obtain ⟨rest, hrest, heq⟩ := Made.andThen_returned h
    rw [heq] at h
    obtain rfl := Reply.returned.inj h
    rw [List.map_cons, ih hrest, List.range'_succ, List.map_cons]

/-- A node has the name with which it is built, and its units have names of their own. -/
theorem Node.build_names {name : String} {settings : NodeSettings}
    {make : P.Shared → Made P.Shared NodeError P.Processor} {shared : P.Shared} {node : Node P}
    (h : (build name settings make shared).1.reply = .returned node) :
    node.name = name ∧ (node.units.map (·.name)).Nodup := by
  unfold build at h
  split at h
  · simp at h
  · split at h
    · simp at h
    · obtain ⟨units, hunits, heq⟩ := Made.andThen_returned h
      rw [heq] at h
      obtain rfl := Reply.returned.inj h
      refine ⟨rfl, ?_⟩
      rw [buildUnits_names hunits]
      exact List.Nodup.map (fun _ _ => unitName_inj.mp) List.nodup_range'

/-- A trigger has the name with which it is built. -/
theorem Trigger.build_name {name : String} {poolSize : Nat} {initWithin : Duration}
    {make : P.Shared → Made P.Shared NodeError P.Source} {shared : P.Shared}
    {trigger : Trigger P}
    (h : (build name poolSize initWithin make shared).reply = .returned trigger) :
    trigger.name = name := by
  obtain ⟨units, -, heq⟩ := Made.andThen_returned h
  rw [build, heq] at h
  obtain rfl := Reply.returned.inj h
  rfl

namespace World

variable {w v : World P} {registry : Registry P} {n t s : Nat} {name : String}

/-- The node with the number has the name, and its units have names of their own. -/
def NodeNamed (w : World P) (n : Nat) (name : String) : Prop :=
  ∃ node, w.nodes[n]? = some node ∧ node.name = name ∧ (node.units.map (·.name)).Nodup

/-- The trigger with the number has the name. -/
def TriggerNamed (w : World P) (t : Nat) (name : String) : Prop :=
  ∃ trigger, w.triggers[t]? = some trigger ∧ trigger.name = name

theorem NodeNamed.retains (hnode : w.NodeNamed n name) (h : Retains w v) : v.NodeNamed n name := by
  obtain ⟨node, hat, rfl, hunits⟩ := hnode
  obtain ⟨later, hlater, hplate⟩ := exists_of_map_prefix h.nodes hat
  obtain ⟨hname, hnames⟩ := Prod.mk.inj hplate
  exact ⟨later, hlater, hname, hnames ▸ hunits⟩

theorem TriggerNamed.retains (htrigger : w.TriggerNamed t name) (h : Retains w v) :
    v.TriggerNamed t name := by
  obtain ⟨trigger, hat, rfl⟩ := htrigger
  exact exists_of_map_prefix h.triggers hat

/-- A processor is built with the name that is given. -/
theorem buildProcessor_named {template : NodeTemplate} {within : Duration}
    (h : (w.buildProcessor registry name template within).reply = .returned n) :
    (w.buildProcessor registry name template within).shared.NodeNamed n name := by
  cases hfactory : registry.processor template.plugin with
  | error e => simp [buildProcessor, hfactory] at h
  | ok factory =>
    rcases hbuild : Node.build name (.ofTemplate template factory.kind within)
      (factory.make { name, args := template.args }) w.shared with ⟨made, log⟩
    cases hreply : made.reply with
    | returned node =>
      have hnames := Node.build_names
        (show (Node.build ..).1.reply = .returned node by rw [hbuild]; exact hreply)
      simp only [buildProcessor, hfactory, hbuild, hreply] at h ⊢
      obtain rfl := Reply.returned.inj h
      exact ⟨node, by simp [addNode], hnames⟩
    | failed | panicked | waiting => simp [buildProcessor, hfactory, hbuild, hreply] at h

/-- A trigger is built with the name that is given. -/
theorem buildTrigger_named {template : TriggerTemplate} {within : Duration}
    (h : (w.buildTrigger registry name template within).reply = .returned t) :
    (w.buildTrigger registry name template within).shared.TriggerNamed t name := by
  cases hfactory : registry.trigger template.plugin with
  | error e => simp [buildTrigger, hfactory] at h
  | ok factory =>
    cases hreply : (Trigger.build name template.poolSize within
      (factory.make { name, args := template.args }) w.shared).reply with
    | returned trigger =>
      simp only [buildTrigger, hfactory, hreply] at h ⊢
      obtain rfl := Reply.returned.inj h
      exact ⟨trigger, by simp [addTrigger], Trigger.build_name hreply⟩
    | failed | panicked | waiting => simp [buildTrigger, hfactory, hreply] at h

/-- Parts are built for members, one for one. What holds of each part and its name when it was
built stays so while the others are built. -/
theorem buildParts_named {τ : Type} {templates : Fields τ} {stream : String}
    {build : World P → String → τ → Made (World P) StreamError Nat} {names : List String}
    {parts : List Nat} {R : World P → Nat → String → Prop}
    (hbuild : ∀ w name template part, (build w name template).reply = .returned part →
      R (build w name template).shared part name)
    (hretains : ∀ w name template, Retains w (build w name template).shared)
    (hnamed : ∀ w v part name, R w part name → Retains w v → R v part name)
    (h : (buildParts templates stream build names w).reply = .returned parts) :
    List.Forall₂
      (fun part member =>
        R (buildParts templates stream build names w).shared part (qualifiedName stream member))
      parts names := by
  induction names generalizing w parts with
  | nil =>
    obtain rfl : [] = parts := by simpa [buildParts] using h
    exact .nil
  | cons name names ih =>
    cases htemplate : templates.get? name with
    | none => simp [buildParts, htemplate] at h
    | some template =>
      simp only [buildParts, htemplate] at h ⊢
      obtain ⟨part, hpart, heq⟩ := Made.andThen_returned h
      rw [heq] at h ⊢
      obtain ⟨rest, hrest, heq⟩ := Made.andThen_returned h
      rw [heq] at h ⊢
      obtain rfl := Reply.returned.inj h
      have hlater : Retains (build w (qualifiedName stream name) template).shared
          (buildParts templates stream build names
            (build w (qualifiedName stream name) template).shared).shared :=
        BuildKeeps.buildParts (fun _ _ _ hv => hv.trans (hretains _ _ _)) .refl
      exact .cons (hnamed _ _ _ _ (hbuild _ _ _ _ hpart) hlater) (ih hrest)

/-- A stream has a trigger and a processor for each of those in its layout, in the same order and
named after them. -/
structure Lineup (w : World P) (s : Nat) (layout : StreamLayout) (stream : Stream) : Prop where
  found : w.streams[s]? = some stream
  triggers : List.Forall₂
    (fun t member => w.TriggerNamed t (qualifiedName stream.name member)) stream.triggers
    layout.triggers
  processors : List.Forall₂
    (fun n member => w.NodeNamed n (qualifiedName stream.name member)) stream.processors
    layout.processors

theorem Lineup.retains {layout : StreamLayout} {stream : Stream} (hw : w.Lineup s layout stream)
    (h : Retains w v) : ∃ later, later.makeup = stream.makeup ∧ v.Lineup s layout later := by
  obtain ⟨later, hlater, hmakeup⟩ := exists_of_map_prefix h.streams hw.found
  obtain ⟨hname, hparts⟩ := Prod.mk.inj hmakeup
  obtain ⟨htriggers, hprocessors⟩ := Prod.mk.inj hparts
  refine ⟨later, hmakeup, hlater, ?_, ?_⟩
  · rw [hname, htriggers]
    exact hw.triggers.imp fun _ _ htrigger => htrigger.retains h
  · rw [hname, hprocessors]
    exact hw.processors.imp fun _ _ hnode => hnode.retains h

/-- A layout that is found is that of the configuration. -/
theorem streamLayout_of_layoutOf {config : PipelineConfig} {layout : StreamLayout}
    (h : layoutOf config name = .ok layout) : config.streamLayout name = .ok layout := by
  unfold layoutOf at h
  split at h
  · rename_i found hfound
    cases h
    exact hfound
  · cases h
  · cases h

/-- A stream that is built has the parts of its layout. -/
theorem buildStream_lineup {config : PipelineConfig} {output : Bool}
    (h : (w.buildStream name config registry output).reply = .returned s) :
    ∃ layout stream, config.streamLayout name = .ok layout ∧ stream.name = name ∧
      (w.buildStream name config registry output).shared.Lineup s layout stream := by
  unfold buildStream at h ⊢
  cases hlayout : layoutOf config name with
  | error e => simp [hlayout] at h
  | ok layout =>
    simp only [hlayout] at h ⊢
    -- the processors are named when they are built, and all that is built later retains them
    obtain ⟨processors, hprocessors, heq⟩ := Made.andThen_returned h
    rw [heq] at h ⊢
    have hnodes := buildParts_named (R := NodeNamed) (fun _ _ _ _ => buildProcessor_named)
      (fun _ _ _ => buildProcessor_retains ..) (fun _ _ _ _ => NodeNamed.retains) hprocessors
    generalize (buildParts config.nodes name _ layout.processors w).shared = built at *
    obtain ⟨triggers, htriggers, heq⟩ := Made.andThen_returned h
    rw [heq] at h ⊢
    have hsources := buildParts_named (R := TriggerNamed) (fun _ _ _ _ => buildTrigger_named)
      (fun _ _ _ => buildTrigger_retains ..) (fun _ _ _ _ => TriggerNamed.retains) htriggers
    have hall : Retains built (buildParts config.triggers name
        (fun w qualified template =>
          w.buildTrigger registry qualified template config.runtime.triggerInitWithin)
        layout.triggers built).shared :=
      BuildKeeps.buildParts (fun _ _ _ hv => hv.trans (buildTrigger_retains ..)) .refl
    generalize (buildParts config.triggers name _ layout.triggers built).shared = all at *
    -- wiring and the entry of the stream itself come last, and name nothing
    cases hwire : all.wire triggers processors (if output then .output true else .tail) with
    | error e => simp [hwire] at h
    | ok wired =>
      simp only [hwire] at h ⊢
      obtain rfl := Reply.returned.inj h
      have hwired : Retains all wired := (buildKeeps_retains all registry).wire hwire .refl
      have hadded (stream : Stream) : Retains wired (wired.addStream stream).2 :=
        (buildKeeps_retains wired registry).stream wired stream .refl
      refine ⟨layout, { name, triggers, processors }, streamLayout_of_layoutOf hlayout, rfl,
        by simp [addStream], ?_, ?_⟩
      · exact hsources.imp fun _ _ htrigger => (htrigger.retains hwired).retains (hadded _)
      · exact hnodes.imp fun _ _ hnode => (hnode.retains (hall.trans hwired)).retains (hadded _)

/-! ## Tables -/

/-- Entries are called after members of a stream, one for one. -/
def CalledAfter {α : Type} (stream : String) (members : List String)
    (entries : List (String × α)) : Prop :=
  entries.map (·.1) = members.map (qualifiedName stream)

namespace CalledAfter

variable {α : Type} {stream : String} {members : List String} {entries : List (String × α)}
  (h : CalledAfter stream members entries)
include h

theorem nodup_iff : (entries.map (·.1)).Nodup ↔ members.Nodup := by
  rw [h, List.nodup_map_iff fun _ _ => qualifiedName_inj.mp]

/-- The entries make a table one for one exactly if they are called after different members. -/
theorem perm_iff : (Fields.ofPairs entries).Perm entries ↔ members.Nodup := by
  rw [Fields.ofPairs_perm_iff, h.nodup_iff]

/-- Of entries that are called after the same member some are lost. -/
theorem length_lt (htwice : ¬ members.Nodup) :
    (Fields.ofPairs entries).length < entries.length :=
  Fields.length_ofPairs_lt fun hnodup => htwice (h.nodup_iff.mp hnodup)

/-- A table of entries that are called after different members has their sums. -/
theorem sum_eq (hnodup : members.Nodup) (count : α → Nat) :
    ((Fields.ofPairs entries).map fun entry => count entry.2).sum =
      (entries.map fun entry => count entry.2).sum :=
  Fields.sum_ofPairs (h.nodup_iff.mpr hnodup) count

end CalledAfter

/-- The triggers of a stream. -/
def triggersOf (w : World P) (stream : Stream) : List (Trigger P) :=
  stream.triggers.filterMap (w.triggers[·]?)

/-- The processors of a stream, from head to tail. -/
def processorsOf (w : World P) (stream : Stream) : List (Node P) :=
  stream.processors.filterMap (w.nodes[·]?)

/-- What the triggers of a stream have counted, each with its name. -/
def triggerEntries (w : World P) (stream : Stream) : List (String × TriggerStats) :=
  (w.triggersOf stream).map fun trigger => (trigger.name, trigger.stats)

/-- What the processors of a stream have counted, each with its name. -/
def processorEntries (w : World P) (stream : Stream) : List (String × NodeStats) :=
  (w.processorsOf stream).map fun node => (node.name, node.stats)

/-- The tables of a stream are made of its entries. -/
theorem streamStats_eq {stream : Stream} (h : w.streams[s]? = some stream) :
    w.streamStats s =
      { triggers := .ofPairs (w.triggerEntries stream)
        processors := .ofPairs (w.processorEntries stream) } := by
  rw [streamStats, h]
  rfl

/-- The entry under a name is that of the last processor of that name. -/
theorem get?_streamStats {stream : Stream} (h : w.streams[s]? = some stream) (name : String) :
    (w.streamStats s).processors.get? name =
      ((w.processorsOf stream).reverse.find? fun node => node.name = name).map Node.stats := by
  rw [streamStats_eq h, Fields.get?_ofPairs, processorEntries, ← List.map_reverse,
    List.find?_map, Option.map_map]
  rfl

/-- What is found for some numbers, one for one, has the names that were expected. -/
theorem map_filterMap_eq {α : Type} {find : Nat → Option α} {called : α → String}
    {expected : String → String} {numbers : List Nat} {members : List String}
    (h : List.Forall₂ (fun n member => ∃ a, find n = some a ∧ called a = expected member)
      numbers members) : (numbers.filterMap find).map called = members.map expected := by
  induction h with
  | nil => rfl
  | cons hfirst _ ih =>
    obtain ⟨a, ha, hcalled⟩ := hfirst
    rw [List.filterMap_cons_some ha, List.map_cons, List.map_cons, ih, hcalled]

namespace Lineup

variable {layout : StreamLayout} {stream : Stream} (h : w.Lineup s layout stream)
include h

/-- The triggers of a stream are called after those of its layout. -/
theorem triggerEntries_called :
    CalledAfter stream.name layout.triggers (w.triggerEntries stream) := by
  rw [CalledAfter, triggerEntries, List.map_map]
  exact map_filterMap_eq h.triggers

/-- The processors of a stream are called after those of its layout. -/
theorem processorEntries_called :
    CalledAfter stream.name layout.processors (w.processorEntries stream) := by
  rw [CalledAfter, processorEntries, List.map_map]
  refine map_filterMap_eq (h.processors.imp ?_)
  rintro n member ⟨node, hnode, hname, -⟩
  exact ⟨node, hnode, hname⟩

/-- If the layout names a processor twice, there are more processors than entries. -/
theorem length_processors_lt (htwice : ¬ layout.processors.Nodup) :
    (w.streamStats s).processors.length < (w.processorsOf stream).length := by
  rw [streamStats_eq h.found]
  exact (h.processorEntries_called.length_lt htwice).trans_eq (List.length_map ..)

/-- The units of a processor have names of their own. -/
theorem nodup_units {node : Node P} (hnode : node ∈ w.processorsOf stream) :
    (node.units.map (·.name)).Nodup := by
  obtain ⟨n, hn, hat⟩ := List.mem_filterMap.mp hnode
  -- what holds of every number in the lineup, whatever member it belongs to
  have hall : List.Forall₂
      (fun n _ => (∀ node, w.nodes[n]? = some node → (node.units.map (·.name)).Nodup) ∧ True)
      stream.processors layout.processors := by
    refine h.processors.imp ?_
    rintro n member ⟨found, hfound, -, hunits⟩
    refine ⟨fun other hother => ?_, trivial⟩
    obtain rfl : found = other := Option.some.inj (hfound.symm.trans hother)
    exact hunits
  exact ((List.forall₂_and_left _ _).mp hall).1 n hn node hat

/-- The entry of a processor has the sums of its units. -/
theorem sum_units {node : Node P} (hnode : node ∈ w.processorsOf stream)
    (count : UnitStats → Nat) :
    (node.stats.units.map fun entry => count entry.2).sum =
      (node.units.map fun unit => count unit.stats).sum := by
  have hunits : ((node.units.map fun unit => (unit.name, unit.stats)).map (·.1)).Nodup := by
    rw [List.map_map]
    exact h.nodup_units hnode
  rw [Node.stats, Fields.sum_ofPairs hunits, List.map_map]
  rfl

end Lineup

/-- On every course of a world with a stream that was built, the stream has the parts of its
layout. -/
theorem follow_lineup {config : PipelineConfig} {output : Bool} {moves : List (Move P)}
    (hbuilt : (w.buildStream name config registry output).reply = .returned s)
    (hfollow : (w.buildStream name config registry output).shared.follow moves = some v) :
    ∃ layout stream, config.streamLayout name = .ok layout ∧ stream.name = name ∧
      v.Lineup s layout stream := by
  obtain ⟨layout, stream, hlayout, hname, hlineup⟩ := buildStream_lineup hbuilt
  obtain ⟨later, hmakeup, hlater⟩ := hlineup.retains (follow_retains hfollow)
  have hsame : later.name = stream.name := congrArg (·.1) hmakeup
  exact ⟨layout, later, hlayout, hsame.trans hname, hlater⟩

/-- What the tables of a stream say at any moment after it was built. The parts of the stream are
called after the members of its layout. The tables have one entry for each trigger and for each
processor exactly if the layout names no trigger and no processor twice. Then whatever is counted
has the same sum over the tables as over the parts. The units of a processor are all in its
entry. -/
theorem streamStats_of_follow {config : PipelineConfig} {output : Bool} {moves : List (Move P)}
    (hbuilt : (w.buildStream name config registry output).reply = .returned s)
    (hfollow : (w.buildStream name config registry output).shared.follow moves = some v) :
    ∃ layout stream, config.streamLayout name = .ok layout ∧ v.streams[s]? = some stream ∧
      CalledAfter name layout.triggers (v.triggerEntries stream) ∧
      CalledAfter name layout.processors (v.processorEntries stream) ∧
      ((v.streamStats s).triggers.Perm (v.triggerEntries stream) ↔ layout.triggers.Nodup) ∧
      ((v.streamStats s).processors.Perm (v.processorEntries stream) ↔
        layout.processors.Nodup) ∧
      (layout.triggers.Nodup → ∀ count : TriggerStats → Nat,
        ((v.streamStats s).triggers.map fun entry => count entry.2).sum =
          ((v.triggersOf stream).map fun trigger => count trigger.stats).sum) ∧
      (layout.processors.Nodup → ∀ count : NodeStats → Nat,
        ((v.streamStats s).processors.map fun entry => count entry.2).sum =
          ((v.processorsOf stream).map fun node => count node.stats).sum) ∧
      ∀ node ∈ v.processorsOf stream, ∀ count : UnitStats → Nat,
        (node.stats.units.map fun entry => count entry.2).sum =
          (node.units.map fun unit => count unit.stats).sum := by
  obtain ⟨layout, stream, hlayout, rfl, hlineup⟩ := follow_lineup hbuilt hfollow
  have htriggers := hlineup.triggerEntries_called
  have hprocessors := hlineup.processorEntries_called
  rw [streamStats_eq hlineup.found]
  refine ⟨layout, stream, hlayout, hlineup.found, htriggers, hprocessors, htriggers.perm_iff,
    hprocessors.perm_iff, fun hnodup count => ?_, fun hnodup count => ?_,
    fun _ hnode => hlineup.sum_units hnode⟩
  · rw [htriggers.sum_eq hnodup, triggerEntries, List.map_map]
    rfl
  · rw [hprocessors.sum_eq hnodup, processorEntries, List.map_map]
    rfl

end World

/-- A stream that names its only kind of processor twice. -/
def relayTwice : PipelineConfig :=
  { relayConfig .single with streams := [("line", ["tick", "relay", "relay"])] }

/-- Validation accepts a stream that names a processor twice. The stream is built, with two
processors and one entry for both. -/
theorem World.relayTwice_loses_an_entry :
    relayTwice.validate = .ok () ∧
      ((idle ()).buildStream "line" relayTwice relayRegistry false).reply = .returned 0 ∧
      ∃ stream,
        ((idle ()).buildStream "line" relayTwice relayRegistry false).shared.streams[0]? =
          some stream ∧
        (((idle ()).buildStream "line" relayTwice relayRegistry false).shared.streamStats
            0).processors.length <
          (((idle ()).buildStream "line" relayTwice relayRegistry false).shared.processorsOf
            stream).length := by
  have hvalid : relayTwice.validate = .ok () := if_pos (by decide +kernel)
  have hbuilt : ((idle ()).buildStream "line" relayTwice relayRegistry false).reply =
      .returned 0 := rfl
  obtain ⟨layout, stream, hlayout, -, hlineup⟩ := buildStream_lineup hbuilt
  obtain rfl : { triggers := ["tick"], processors := ["relay", "relay"] } = layout :=
    Except.ok.inj (by rw [← hlayout]; rfl)
  exact ⟨hvalid, hbuilt, stream, hlineup.found, hlineup.length_processors_lt (by decide)⟩

end EventPipeline
