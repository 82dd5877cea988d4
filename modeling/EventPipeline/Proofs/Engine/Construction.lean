import EventPipeline.Proofs.Config.Soundness
import EventPipeline.Proofs.Engine.Conservation

/-!
# `EventPipeline.Proofs.Engine.Construction`: what can go wrong when a stream is built

Building a stream calls factories of plugins. It also looks up templates and plugins, compiles
filters and registers the targets of gates, and every one of these steps can fail. Validation
and the check of the registry rule that out.

`buildStream_of_valid` is the result. In a configuration that is valid, and whose plugins the
registry has, every stream has a layout that splits its members, and the stream is built unless
the call of some factory of a member does not return. What the call reports is then what the
whole building reports (`Calls`).
-/

set_option autoImplicit false

namespace EventPipeline

/-! ## Calls that do not return -/

/-- Why something was not made. -/
inductive Setback (ε : Type) where
  | failed (error : ε)
  | panicked (text : Option String)
  | waiting (limit : Option Duration)

/-- The same setback, reported as another error. -/
def Setback.map {ε ε' : Type} (f : ε → ε') : Setback ε → Setback ε'
  | failed error => .failed (f error)
  | panicked text => .panicked text
  | waiting limit => .waiting limit

/-- Why a call did not return, if it did not. -/
def Reply.setback? {ε α : Type} : Reply ε α → Option (Setback ε)
  | returned _ => none
  | failed error => some (.failed error)
  | panicked text => some (.panicked text)
  | waiting limit => some (.waiting limit)

/-- A call without a setback has returned. -/
theorem Reply.exists_of_setback?_eq_none {ε α : Type} {reply : Reply ε α}
    (h : reply.setback? = none) : ∃ a, reply = .returned a := by
  cases reply with
  | returned a => exact ⟨a, rfl⟩
  | failed | panicked | waiting => simp [setback?] at h

/-- Calls one after the other: all return, up to the last one, which may meet a setback. A single
call leads from a state to another one, with or without a setback. -/
inductive Calls {σ ε : Type} (call : σ → Option (Setback ε) → σ → Prop) (start : σ) :
    Option (Setback ε) → σ → Prop
  | none : Calls call start none start
  | step {before after : σ} {result : Option (Setback ε)} (h : Calls call start none before)
    (hcall : call before result after) : Calls call start result after

section

variable {σ ε α β : Type} {call : σ → Option (Setback ε) → σ → Prop} {start : σ}

/-- Calls that all returned, and further calls after them. -/
theorem Calls.trans {before after : σ} {result : Option (Setback ε)}
    (h : Calls call start .none before) (hlater : Calls call before result after) :
    Calls call start result after := by
  induction hlater with
  | none => exact h
  | step _ hcall ih => exact .step ih hcall

/-- Something was made by calls. -/
def Made.By (made : Made σ ε α) (call : σ → Option (Setback ε) → σ → Prop) (start : σ) : Prop :=
  Calls call start made.reply.setback? made.shared

/-- What is made without a call. -/
theorem Made.by_returned {a : α} : ({ reply := .returned a, shared := start } : Made σ ε α).By
    call start :=
  .none

/-- What is made in two steps. -/
theorem Made.By.andThen {made : Made σ ε α} {next : α → σ → Made σ ε β}
    (h : made.By call start) (hnext : ∀ a shared, (next a shared).By call shared) :
    (made.andThen next).By call start := by
  unfold Made.By at h
  unfold Made.andThen
  cases hreply : made.reply with
  | returned a =>
    rw [hreply] at h
    exact h.trans (hnext a made.shared)
  | failed | panicked | waiting =>
    rw [hreply] at h
    exact h

end

/-! ## Nodes and triggers -/

section

variable {P : Plugins} {call : P.Shared → Option (Setback NodeError) → P.Shared → Prop}

/-- The units of a node are made by calls of the factory. -/
theorem Node.buildUnits_by {name : String} {mode : ExecutionMode}
    {make : P.Shared → Made P.Shared NodeError P.Processor} {count number : Nat}
    {shared : P.Shared}
    (hmake : ∀ before, call before (make before).reply.setback? (make before).shared) :
    (buildUnits name mode make count number shared).By call shared := by
  induction count generalizing number shared with
  | zero => exact Made.by_returned
  | succ count ih =>
    have hfirst : (make shared).By call shared := .step .none (hmake shared)
    exact hfirst.andThen fun _ _ => ih.andThen fun _ _ => Made.by_returned

/-- A mode that is supported has a number of units. -/
theorem Node.exists_unitCount? {mode : ExecutionMode} (h : mode ≠ .process) (poolSize : Nat) :
    ∃ count, unitCount? mode poolSize = some count := by
  cases mode with
  | single => exact ⟨1, rfl⟩
  | thread => exact ⟨max poolSize 1, rfl⟩
  | process => exact absurd rfl h

/-- A filter that validation compiles is also compiled when the node is built. -/
theorem NodeTemplate.IsSound.exists_buildFilter {template : NodeTemplate}
    (h : template.IsSound) (name : String) :
    ∃ filter log, Node.buildFilter name template.filter = .ok (filter, log) := by
  obtain ⟨⟨filter, message⟩, hcompile⟩ := h.filter
  unfold Node.buildFilter
  split
  · exact ⟨none, [], rfl⟩
  · simp only [hcompile]
    exact ⟨some filter, [message], rfl⟩

/-- With the settings of a template that makes sense nothing but the factory can fail. -/
theorem Node.build_by {name : String} {template : NodeTemplate} {kind : NodeKind}
    {initWithin : Duration} {make : P.Shared → Made P.Shared NodeError P.Processor}
    {shared : P.Shared} (hsound : template.IsSound)
    (hmake : ∀ before, call before (make before).reply.setback? (make before).shared) :
    (build name (.ofTemplate template kind initWithin) make shared).1.By call shared := by
  obtain ⟨count, hcount⟩ := exists_unitCount? hsound.mode template.poolSize
  obtain ⟨filter, log, hfilter⟩ := hsound.exists_buildFilter name
  simp only [build, NodeSettings.ofTemplate, hcount, hfilter]
  exact (buildUnits_by hmake).andThen fun _ _ => Made.by_returned

/-- The sources of a trigger are made by calls of the factory. -/
theorem Trigger.buildUnits_by {name : String}
    {make : P.Shared → Made P.Shared NodeError P.Source} {count number : Nat}
    {shared : P.Shared}
    (hmake : ∀ before, call before (make before).reply.setback? (make before).shared) :
    (buildUnits name make count number shared).By call shared := by
  induction count generalizing number shared with
  | zero => exact Made.by_returned
  | succ count ih =>
    have hfirst : (make shared).By call shared := .step .none (hmake shared)
    exact hfirst.andThen fun _ _ => ih.andThen fun _ _ => Made.by_returned

/-- Nothing but the factory of a trigger can fail. -/
theorem Trigger.build_by {name : String} {poolSize : Nat} {initWithin : Duration}
    {make : P.Shared → Made P.Shared NodeError P.Source} {shared : P.Shared}
    (hmake : ∀ before, call before (make before).reply.setback? (make before).shared) :
    (build name poolSize initWithin make shared).By call shared :=
  (buildUnits_by hmake).andThen fun _ _ => Made.by_returned

/-- A node that is built sends nowhere yet. -/
theorem Node.build_target {name : String} {settings : NodeSettings}
    {make : P.Shared → Made P.Shared NodeError P.Processor} {shared : P.Shared} {node : Node P}
    (h : (build name settings make shared).1.reply = .returned node) :
    node.gate.target = none := by
  unfold build at h
  split at h
  · simp at h
  · split at h
    · simp at h
    · obtain ⟨units, -, heq⟩ := Made.andThen_returned h
      rw [heq] at h
      obtain rfl := Reply.returned.inj h
      rfl

/-- A trigger that is built sends nowhere yet. -/
theorem Trigger.build_target {name : String} {poolSize : Nat} {initWithin : Duration}
    {make : P.Shared → Made P.Shared NodeError P.Source} {shared : P.Shared}
    {trigger : Trigger P}
    (h : (build name poolSize initWithin make shared).reply = .returned trigger) :
    trigger.gate.target = none := by
  obtain ⟨units, -, heq⟩ := Made.andThen_returned h
  rw [build, heq] at h
  obtain rfl := Reply.returned.inj h
  rfl

end

/-! ## Calls of the factories of a stream -/

/-- A call of the factory of a member of a stream, with what plugins share before and after
it. -/
inductive FactoryCall {P : Plugins} (registry : Registry P) (config : PipelineConfig)
    (stream : String) (layout : StreamLayout) (before : P.Shared) :
    Option (Setback NodeError) → P.Shared → Prop
  | processor {member : String} {template : NodeTemplate} {factory : ProcessorFactory P}
    {made : Made P.Shared NodeError P.Processor} (hmember : member ∈ layout.processors)
    (htemplate : config.nodes.get? member = some template)
    (hfactory : registry.processor template.plugin = .ok factory)
    (hmade : factory.make
      { name := World.qualifiedName stream member, args := template.args } before = made) :
    FactoryCall registry config stream layout before made.reply.setback? made.shared
  | trigger {member : String} {template : TriggerTemplate} {factory : SourceFactory P}
    {made : Made P.Shared NodeError P.Source} (hmember : member ∈ layout.triggers)
    (htemplate : config.triggers.get? member = some template)
    (hfactory : registry.trigger template.plugin = .ok factory)
    (hmade : factory.make
      { name := World.qualifiedName stream member, args := template.args } before = made) :
    FactoryCall registry config stream layout before made.reply.setback? made.shared

/-- A member of a configuration has a template. -/
theorem Fields.exists_of_contains {τ : Type} {templates : Fields τ} {name : String}
    (h : templates.contains name = true) :
    ∃ template, templates.get? name = some template ∧ (name, template) ∈ templates := by
  obtain ⟨template, htemplate⟩ := Option.isSome_iff_exists.mp h
  exact ⟨template, htemplate, mem_of_get? htemplate⟩

namespace World

variable {P : Plugins} {w : World P} {registry : Registry P} {config : PipelineConfig}
  {call : P.Shared → Option (Setback NodeError) → P.Shared → Prop}

/-- Something was built in a world by calls of factories. The setback of a call is reported as
one of a node, and there is no other. -/
def BuiltBy {α : Type} (made : Made (World P) StreamError α)
    (call : P.Shared → Option (Setback NodeError) → P.Shared → Prop) (start : P.Shared) : Prop :=
  ∃ result, Calls call start result made.shared.shared ∧
    made.reply.setback? = result.map (Setback.map .node)

/-- What is built without a call. -/
theorem builtBy_returned {α : Type} {a : α} :
    BuiltBy { reply := .returned a, shared := w } call w.shared :=
  ⟨none, .none, rfl⟩

/-- What is built in two steps. -/
theorem BuiltBy.andThen {α β : Type} {made : Made (World P) StreamError α}
    {next : α → World P → Made (World P) StreamError β} {start : P.Shared}
    (h : BuiltBy made call start)
    (hnext : ∀ a, made.reply = .returned a →
      BuiltBy (next a made.shared) call made.shared.shared) :
    BuiltBy (made.andThen next) call start := by
  obtain ⟨result, hcalls, hresult⟩ := h
  unfold Made.andThen
  cases hreply : made.reply with
  | returned a =>
    obtain rfl : result = none := by
      cases result with
      | none => rfl
      | some cause => simp [hreply, Reply.setback?] at hresult
    obtain ⟨later, hlater, hmade⟩ := hnext a hreply
    exact ⟨later, hcalls.trans hlater, hmade⟩
  | failed | panicked | waiting => exact ⟨result, hcalls, by rw [← hresult, hreply]; rfl⟩

/-- A processor with a sound template and a known plugin. -/
theorem buildProcessor_by {name : String} {template : NodeTemplate} {initWithin : Duration}
    {factory : ProcessorFactory P} (hsound : template.IsSound)
    (hfactory : registry.processor template.plugin = .ok factory)
    (hmake : ∀ before, call before
      (factory.make { name, args := template.args } before).reply.setback?
      (factory.make { name, args := template.args } before).shared) :
    BuiltBy (w.buildProcessor registry name template initWithin) call w.shared := by
  have hby : (Node.build name (.ofTemplate template factory.kind initWithin)
      (factory.make { name, args := template.args }) w.shared).1.By call w.shared :=
    Node.build_by hsound hmake
  rcases hbuild : Node.build name (.ofTemplate template factory.kind initWithin)
    (factory.make { name, args := template.args }) w.shared with ⟨⟨reply, after⟩, log⟩
  rw [hbuild] at hby
  simp only [BuiltBy, buildProcessor, hfactory, hbuild]
  cases reply with
  | returned node => exact ⟨none, hby, rfl⟩
  | failed error => exact ⟨some (.failed error), hby, rfl⟩
  | panicked text => exact ⟨some (.panicked text), hby, rfl⟩
  | waiting limit => exact ⟨some (.waiting limit), hby, rfl⟩

/-- A trigger with a known plugin. -/
theorem buildTrigger_by {name : String} {template : TriggerTemplate} {initWithin : Duration}
    {factory : SourceFactory P} (hfactory : registry.trigger template.plugin = .ok factory)
    (hmake : ∀ before, call before
      (factory.make { name, args := template.args } before).reply.setback?
      (factory.make { name, args := template.args } before).shared) :
    BuiltBy (w.buildTrigger registry name template initWithin) call w.shared := by
  have hby : (Trigger.build name template.poolSize initWithin
      (factory.make { name, args := template.args }) w.shared).By call w.shared :=
    Trigger.build_by hmake
  rcases hbuild : Trigger.build name template.poolSize initWithin
    (factory.make { name, args := template.args }) w.shared with ⟨reply, after⟩
  rw [hbuild] at hby
  simp only [BuiltBy, buildTrigger, hfactory, hbuild]
  cases reply with
  | returned trigger => exact ⟨none, hby, rfl⟩
  | failed error => exact ⟨some (.failed error), hby, rfl⟩
  | panicked text => exact ⟨some (.panicked text), hby, rfl⟩
  | waiting limit => exact ⟨some (.waiting limit), hby, rfl⟩

/-- The parts of a stream, if every one has a template and is built by calls. -/
theorem buildParts_by {τ : Type} {templates : Fields τ} {stream : String}
    {build : World P → String → τ → Made (World P) StreamError Nat} {names : List String}
    (hbuild : ∀ member ∈ names, ∃ template, templates.get? member = some template ∧
      ∀ w : World P, BuiltBy (build w (qualifiedName stream member) template) call w.shared) :
    BuiltBy (buildParts templates stream build names w) call w.shared := by
  induction names generalizing w with
  | nil => exact builtBy_returned
  | cons name names ih =>
    obtain ⟨template, htemplate, hby⟩ := hbuild name List.mem_cons_self
    have hrest (v : World P) : BuiltBy (buildParts templates stream build names v) call v.shared :=
      ih fun member hmember => hbuild member (List.mem_cons_of_mem name hmember)
    simp only [buildParts, htemplate]
    exact (hby w).andThen fun _ _ => (hrest _).andThen fun _ _ => builtBy_returned

/-! ## Gates without a target -/

/-- The gate has no target, or there is no gate. -/
def IsFree (w : World P) (g : GateId) : Prop :=
  ∀ target, w.outline.target? g ≠ some (some target)

/-- The gates of the nodes from `n` on and of the triggers from `t` on have no target. -/
structure FreeFrom (n t : Nat) (w : World P) : Prop where
  nodes : ∀ k, n ≤ k → w.IsFree (.node k)
  triggers : ∀ k, t ≤ k → w.IsFree (.trigger k)

/-- Where there are no nodes and triggers there are no targets. -/
theorem freeFrom_length : FreeFrom w.nodes.length w.triggers.length w := by
  constructor
  · intro k hk target
    simp [outline_target?, gate?, List.getElem?_eq_none hk]
  · intro k hk target
    simp [outline_target?, gate?, List.getElem?_eq_none hk]

/-- A node without a target may be added. -/
theorem FreeFrom.addNode {n t : Nat} {node : Node P} (h : FreeFrom n t w)
    (hnode : node.gate.target = none) : FreeFrom n t (w.addNode node).2 := by
  refine ⟨?_, h.triggers⟩
  intro k hk target
  have hold := h.nodes k hk target
  simp only [outline_target?, gate?, World.addNode] at hold ⊢
  -- the node was there before, or it is the new one, or there is none
  rcases Nat.lt_trichotomy k w.nodes.length with hlt | heq | hgt
  · rwa [List.getElem?_append_left hlt]
  · simp [heq, hnode]
  · have hnone : (w.nodes ++ [node])[k]? = none := by simp; omega
    simp [hnone]

/-- A trigger without a target may be added. -/
theorem FreeFrom.addTrigger {n t : Nat} {trigger : Trigger P} (h : FreeFrom n t w)
    (htrigger : trigger.gate.target = none) : FreeFrom n t (w.addTrigger trigger).2 := by
  refine ⟨h.nodes, ?_⟩
  intro k hk target
  have hold := h.triggers k hk target
  simp only [outline_target?, gate?, World.addTrigger] at hold ⊢
  rcases Nat.lt_trichotomy k w.triggers.length with hlt | heq | hgt
  · rwa [List.getElem?_append_left hlt]
  · simp [heq, htrigger]
  · have hnone : (w.triggers ++ [trigger])[k]? = none := by simp; omega
    simp [hnone]

/-- Building a processor gives no gate a target. -/
theorem FreeFrom.buildProcessor {n t : Nat} (h : FreeFrom n t w) (name : String)
    (template : NodeTemplate) (initWithin : Duration) :
    FreeFrom n t (w.buildProcessor registry name template initWithin).shared := by
  have hsame (shared : P.Shared) (log : List Message) :
      FreeFrom n t ({ w with shared }.logAll log) := ⟨h.nodes, h.triggers⟩
  unfold World.buildProcessor
  split
  · exact h
  · rename_i factory _
    cases hreply : (Node.build name (.ofTemplate template factory.kind initWithin)
      (factory.make { name, args := template.args }) w.shared).1.reply with
    | returned node =>
      simp only [hreply]
      exact (hsame _ _).addNode (Node.build_target hreply)
    | failed | panicked | waiting =>
      simp only [hreply]
      exact hsame _ _

/-- Building a trigger gives no gate a target. -/
theorem FreeFrom.buildTrigger {n t : Nat} (h : FreeFrom n t w) (name : String)
    (template : TriggerTemplate) (initWithin : Duration) :
    FreeFrom n t (w.buildTrigger registry name template initWithin).shared := by
  have hsame (shared : P.Shared) : FreeFrom n t { w with shared } := ⟨h.nodes, h.triggers⟩
  unfold World.buildTrigger
  split
  · exact h
  · rename_i factory _
    cases hreply : (Trigger.build name template.poolSize initWithin
      (factory.make { name, args := template.args }) w.shared).reply with
    | returned trigger =>
      simp only [hreply]
      exact (hsame _).addTrigger (Trigger.build_target hreply)
    | failed | panicked | waiting =>
      simp only [hreply]
      exact hsame _

/-- Registering a target leaves alone what plugins share. -/
theorem register_shared {w' : World P} {g : GateId} {target : Target}
    (h : w.register g target = .ok w') : w'.shared = w.shared := by
  obtain ⟨-, rfl⟩ | ⟨gate, -, rfl⟩ := register_eq h
  · rfl
  · cases g <;> rfl

/-- A gate without a target takes one, and all others keep theirs. -/
theorem IsFree.register {g : GateId} (h : w.IsFree g) (target : Target) :
    ∃ w', w.register g target = .ok w' ∧ w'.shared = w.shared ∧
      ∀ k, k ≠ g → w'.outline.target? k = w.outline.target? k := by
  obtain ⟨w', hw'⟩ : ∃ w', w.register g target = .ok w' := by
    unfold World.register
    split
    · exact ⟨w, rfl⟩
    · rename_i gate hgate
      have hnone : gate.target = none := by
        refine Option.eq_none_iff_forall_ne_some.mpr fun old hold => h old ?_
        rw [outline_target?, hgate, Option.map_some, hold]
      exact ⟨_, by rw [Gate.register, hnone]; rfl⟩
  refine ⟨w', hw', register_shared hw', fun k hk => ?_⟩
  rw [register_target? hw', if_neg hk]

/-- Processors without targets can be wired, one after the other. -/
theorem exists_wireProcessors (last : Target) {processors : List Nat}
    (hfree : ∀ n ∈ processors, w.IsFree (.node n)) (hnodup : processors.Nodup) :
    ∃ head w', wireProcessors last processors w = .ok (head, w') ∧ w'.shared = w.shared ∧
      ∀ k, (∀ n ∈ processors, k ≠ .node n) → w'.outline.target? k = w.outline.target? k := by
  induction processors with
  | nil => exact ⟨last, w, rfl, rfl, fun _ _ => rfl⟩
  | cons n ns ih =>
    obtain ⟨hn, hns⟩ := List.nodup_cons.mp hnodup
    obtain ⟨head, v, hv, hshared, hsame⟩ := ih (fun m hm => hfree m (List.mem_cons_of_mem n hm)) hns
    -- the processors behind this one have left its gate alone
    have hthis : v.IsFree (.node n) := by
      intro target
      rw [hsame _ fun m hm heq => by cases heq; exact hn hm]
      exact hfree n List.mem_cons_self target
    obtain ⟨w', hw', hshared', hothers⟩ := hthis.register head
    refine ⟨.node n, w', ?_, hshared'.trans hshared, fun k hk => ?_⟩
    · simp [wireProcessors, hv, hw', Bind.bind, Except.bind, pure, Except.pure]
    · rw [hothers k (hk n List.mem_cons_self),
        hsame k fun m hm => hk m (List.mem_cons_of_mem n hm)]

/-- Triggers without targets can be wired. -/
theorem exists_wireTriggers (head : Target) {triggers : List Nat}
    (hfree : ∀ t ∈ triggers, w.IsFree (.trigger t)) (hnodup : triggers.Nodup) :
    ∃ w', triggers.foldlM (fun w t => w.register (.trigger t) head) w = .ok w' ∧
      w'.shared = w.shared := by
  induction triggers generalizing w with
  | nil => exact ⟨w, rfl, rfl⟩
  | cons t ts ih =>
    obtain ⟨ht, hts⟩ := List.nodup_cons.mp hnodup
    obtain ⟨v, hv, hshared, hothers⟩ := (hfree t List.mem_cons_self).register head
    have hrest : ∀ u ∈ ts, v.IsFree (.trigger u) := by
      intro u hu target
      rw [hothers _ fun heq => by cases heq; exact ht hu]
      exact hfree u (List.mem_cons_of_mem t hu) target
    obtain ⟨w', hw', hshared'⟩ := ih hrest hts
    refine ⟨w', ?_, hshared'.trans hshared⟩
    rw [List.foldlM_cons, hv]
    exact hw'

/-- Parts without targets can be wired to a stream. -/
theorem exists_wire (last : Target) {triggers processors : List Nat}
    (hprocessors : ∀ n ∈ processors, w.IsFree (.node n))
    (htriggers : ∀ t ∈ triggers, w.IsFree (.trigger t)) (hnodes : processors.Nodup)
    (hnodup : triggers.Nodup) :
    ∃ w', w.wire triggers processors last = .ok w' ∧ w'.shared = w.shared := by
  obtain ⟨head, v, hv, hshared, hsame⟩ := exists_wireProcessors last hprocessors hnodes
  have hfree : ∀ t ∈ triggers, v.IsFree (.trigger t) := by
    intro t ht target
    rw [hsame _ fun n _ heq => by cases heq]
    exact htriggers t ht target
  obtain ⟨w', hw', hshared'⟩ := exists_wireTriggers head hfree hnodup
  refine ⟨w', ?_, hshared'.trans hshared⟩
  simpa [wire, hv, Bind.bind, Except.bind] using hw'

/-! ## Streams -/

/-- The processors of a layout are built by calls of their factories. -/
theorem buildProcessors_by {name : String} {layout : StreamLayout} {members : List String}
    (hsound : config.IsSound) (hknows : registry.Knows config)
    (hsplits : layout.Splits config members) :
    BuiltBy (buildParts config.nodes name (fun w qualified template =>
        w.buildProcessor registry qualified template config.runtime.nodeInitWithin)
      layout.processors w) (FactoryCall registry config name layout) w.shared := by
  refine buildParts_by fun member hmember => ?_
  obtain ⟨template, htemplate, hmem⟩ :=
    Fields.exists_of_contains (hsplits.processors member hmember)
  obtain ⟨factory, hfactory⟩ := hknows.processors _ hmem
  exact ⟨template, htemplate, fun w => buildProcessor_by (hsound.nodes _ hmem) hfactory
    fun before => .processor hmember htemplate hfactory rfl⟩

/-- The triggers of a layout are built by calls of their factories. -/
theorem buildTriggers_by {name : String} {layout : StreamLayout} {members : List String}
    (hknows : registry.Knows config) (hsplits : layout.Splits config members) :
    BuiltBy (buildParts config.triggers name (fun w qualified template =>
        w.buildTrigger registry qualified template config.runtime.triggerInitWithin)
      layout.triggers w) (FactoryCall registry config name layout) w.shared := by
  refine buildParts_by fun member hmember => ?_
  obtain ⟨template, htemplate, hmem⟩ :=
    Fields.exists_of_contains (hsplits.triggers member hmember)
  obtain ⟨factory, hfactory⟩ := hknows.triggers _ hmem
  exact ⟨template, htemplate, fun w => buildTrigger_by hfactory
    fun before => .trigger hmember htemplate hfactory rfl⟩

/-- Processors that are built have the numbers of the nodes that are added, and their gates have
no target. -/
theorem buildProcessors_free {name : String} {names : List String} {parts : List Nat}
    {initWithin : Duration} {n t : Nat}
    (h : (buildParts config.nodes name (fun w qualified template =>
      w.buildProcessor registry qualified template initWithin) names w).reply = .returned parts)
    (hw : FreeFrom n t w) :
    parts = List.range' w.nodes.length names.length ∧
      FreeFrom n t (buildParts config.nodes name (fun w qualified template =>
        w.buildProcessor registry qualified template initWithin) names w).shared := by
  obtain ⟨hparts, -, hfree⟩ := buildParts_eq (c := fun w => w.nodes.length) (I := FreeFrom n t)
    (fun w name member template k _ _ hk hI => by
      obtain ⟨rfl, node, -, shared, log, heq⟩ := buildProcessor_eq hk
      refine ⟨rfl, ?_, hI.buildProcessor name template initWithin⟩
      rw [heq]
      exact List.length_append) h hw
  exact ⟨hparts, hfree⟩

/-- Triggers that are built have the numbers of the triggers that are added, and their gates have
no target. -/
theorem buildTriggers_free {name : String} {names : List String} {parts : List Nat}
    {initWithin : Duration} {n t : Nat}
    (h : (buildParts config.triggers name (fun w qualified template =>
      w.buildTrigger registry qualified template initWithin) names w).reply = .returned parts)
    (hw : FreeFrom n t w) :
    parts = List.range' w.triggers.length names.length ∧
      FreeFrom n t (buildParts config.triggers name (fun w qualified template =>
        w.buildTrigger registry qualified template initWithin) names w).shared := by
  obtain ⟨hparts, -, hfree⟩ := buildParts_eq (c := fun w => w.triggers.length) (I := FreeFrom n t)
    (fun w name member template k _ _ hk hI => by
      obtain ⟨rfl, trigger, -, shared, heq⟩ := buildTrigger_eq hk
      refine ⟨rfl, ?_, hI.buildTrigger name template initWithin⟩
      rw [heq]
      exact List.length_append) h hw
  exact ⟨hparts, hfree⟩

/-- A stream with a layout is built by calls of the factories of its members. -/
theorem buildStream_by {name : String} {layout : StreamLayout} {members : List String}
    (output : Bool) (hsound : config.IsSound) (hknows : registry.Knows config)
    (hlayout : config.streamLayout name = .ok layout)
    (hsplits : layout.Splits config members) :
    BuiltBy (w.buildStream name config registry output)
      (FactoryCall registry config name layout) w.shared := by
  simp only [buildStream, layoutOf, hlayout]
  refine (buildProcessors_by hsound hknows hsplits).andThen fun processors hprocessors => ?_
  refine (buildTriggers_by hknows hsplits).andThen fun triggers htriggers => ?_
  -- every part has a new number, and nothing has given its gate a target yet
  obtain ⟨rfl, hbuilt⟩ := buildProcessors_free hprocessors freeFrom_length
  obtain ⟨rfl, hall⟩ := buildTriggers_free htriggers ⟨hbuilt.nodes, freeFrom_length.triggers⟩
  obtain ⟨wired, hwired, hshared⟩ := exists_wire (if output then .output true else .tail)
    (fun n hn => hall.nodes n (List.mem_range'_1.mp hn).1)
    (fun t ht => hall.triggers t (List.mem_range'_1.mp ht).1) List.nodup_range' List.nodup_range'
  rw [hwired, ← hshared]
  exact builtBy_returned

/-- Take a valid configuration whose plugins the registry has. Every stream of it has a layout, a
split of the configured members into known triggers, of which there is one, and known processors
behind them. The stream is built in any world and with any output, unless the call of a factory
of one of its members meets a setback. Then that is the setback of the whole building. -/
theorem buildStream_of_valid (hvalid : config.validate = .ok ())
    (hcheck : registry.check config = .ok ()) {name : String} {members : List String}
    (hmembers : config.streams.get? name = some members) :
    ∃ layout, config.streamLayout name = .ok layout ∧ layout.Splits config members ∧
      ∀ (w : World P) (output : Bool),
        (∃ s, (w.buildStream name config registry output).reply = .returned s) ∨
        ∃ cause, Calls (FactoryCall registry config name layout) w.shared (some cause)
            (w.buildStream name config registry output).shared.shared ∧
          (w.buildStream name config registry output).reply.setback? =
            some (cause.map .node) := by
  have hsound := PipelineConfig.validate_eq_ok_iff.mp hvalid
  have hknows := Registry.check_eq_ok_iff.mp hcheck
  -- validation has split the same members as are configured
  obtain ⟨layout, hlayout⟩ :=
    hsound.streams name (List.mem_map_of_mem (Fields.mem_of_get? hmembers))
  obtain ⟨members', hmembers', hsplits, -⟩ := PipelineConfig.splits_of_streamLayout hlayout
  obtain rfl : members' = members := Option.some.inj (hmembers'.symm.trans hmembers)
  refine ⟨layout, hlayout, hsplits, ?_⟩
  intro w output
  obtain ⟨result, hcalls, hresult⟩ :=
    buildStream_by (w := w) output hsound hknows hlayout hsplits
  cases result with
  | none => exact .inl (Reply.exists_of_setback?_eq_none hresult)
  | some cause => exact .inr ⟨cause, hcalls, hresult⟩

/-- A stream whose node has a filter and two units with queues. -/
def guardedConfig : PipelineConfig where
  nodes :=
    [("relay",
      { plugin := "relay"
        mode := .thread
        poolSize := 2
        filter := ["IF payload == 'stop' THEN DROP"] })]
  triggers := [("tick", { plugin := "tick" })]
  streams := [("line", ["tick", "relay"])]

/-- The stream with a filter is built, unless the factory of its node or of its trigger meets a
setback. -/
theorem buildStream_guardedConfig :
    guardedConfig.validate = .ok () ∧ relayRegistry.check guardedConfig = .ok () ∧
      ∃ layout, guardedConfig.streamLayout "line" = .ok layout ∧
        layout.Splits guardedConfig ["tick", "relay"] ∧
        ∀ (w : World relayPlugins) (output : Bool),
          (∃ s, (w.buildStream "line" guardedConfig relayRegistry output).reply = .returned s) ∨
          ∃ cause, Calls (FactoryCall relayRegistry guardedConfig "line" layout) w.shared
              (some cause)
              (w.buildStream "line" guardedConfig relayRegistry output).shared.shared ∧
            (w.buildStream "line" guardedConfig relayRegistry output).reply.setback? =
              some (cause.map .node) := by
  have hvalid : guardedConfig.validate = .ok () := if_pos (by decide +kernel)
  exact ⟨hvalid, rfl, buildStream_of_valid hvalid rfl rfl⟩

end World
end EventPipeline
