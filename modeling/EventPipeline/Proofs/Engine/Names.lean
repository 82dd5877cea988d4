import EventPipeline.Engine.Course
import EventPipeline.Proofs.Engine.Building
import EventPipeline.Proofs.Engine.Silence
import EventPipeline.Proofs.Engine.Steps

/-!
# `EventPipeline.Proofs.Engine.Names`: parts keep their names

Nodes, units, triggers and streams are named when they are built, and nothing renames them or
takes them away. `Retains` says so of a world and a later one. `perform_retains` goes through all
tasks, of which only one that builds a stream adds parts, and `follow_retains` is what a whole
course keeps, with any interleaving of threads. What reports find under a name can therefore be
told from how the parts were named in the beginning.
-/

set_option autoImplicit false

namespace EventPipeline

variable {P : Plugins}

/-- The name of a node and those of its units. -/
def Node.nameplate (node : Node P) : String × List String :=
  (node.name, node.units.map (·.name))

/-- What a stream is made of, which does not change. -/
def Stream.makeup (stream : Stream) : String × List Nat × List Nat :=
  (stream.name, stream.triggers, stream.processors)

namespace ExecutionUnit

variable {unit later : ExecutionUnit P}

@[simp] theorem name_changeInline (f : InlineState → InlineState) :
    (unit.changeInline f).name = unit.name := by
  unfold changeInline
  split <;> rfl

@[simp] theorem name_changeQueue (f : QueueState → QueueState) :
    (unit.changeQueue f).name = unit.name := by
  unfold changeQueue
  split <;> rfl

@[simp] theorem name_receive : unit.receive.name = unit.name :=
  rfl

@[simp] theorem name_finish : unit.finish.name = unit.name :=
  rfl

theorem name_of_offer_inline (h : unit.offer = .inline later) : later.name = unit.name := by
  unfold offer at h
  split at h
  · split at h <;> cases h
    rfl
  · split at h <;> cases h

theorem name_of_offer_queued (h : unit.offer = .queued later) : later.name = unit.name := by
  unfold offer at h
  split at h
  · split at h <;> cases h
  · split at h <;> cases h
    simp

@[simp] theorem name_send (event : Event) : (unit.send event).2.name = unit.name := by
  unfold send
  simp only
  split
  · split <;> simp
  · simp

theorem name_of_next {event : Event} (h : unit.next = .event event later) :
    later.name = unit.name := by
  unfold next at h
  split at h
  · split at h
    · cases h
      simp
    · split at h <;> cases h
  · cases h

end ExecutionUnit

namespace World

variable {w v u : World P} {me : Nat}

/-- Every part of the first world is also in the second one, at its place and with its name. -/
structure Retains (w v : World P) : Prop where
  nodes : w.nodes.map Node.nameplate <+: v.nodes.map Node.nameplate
  triggers : w.triggers.map (·.name) <+: v.triggers.map (·.name)
  streams : w.streams.map Stream.makeup <+: v.streams.map Stream.makeup

namespace Retains

theorem of_eq (hnodes : v.nodes = w.nodes) (htriggers : v.triggers = w.triggers)
    (hstreams : v.streams = w.streams) : Retains w v :=
  ⟨hnodes ▸ List.prefix_rfl, htriggers ▸ List.prefix_rfl, hstreams ▸ List.prefix_rfl⟩

theorem refl : Retains w w :=
  .of_eq rfl rfl rfl

theorem trans (h : Retains w v) (h' : Retains v u) : Retains w u :=
  ⟨h.nodes.trans h'.nodes, h.triggers.trans h'.triggers, h.streams.trans h'.streams⟩

/-! ### Changes that rename nothing -/

theorem logAll (messages : List Message) (h : Retains w v) : Retains w (v.logAll messages) :=
  h.trans (.of_eq rfl rfl rfl)

theorem tell (event : Event) (fate : Fate) (h : Retains w v) : Retains w (v.tell event fate) :=
  h.trans (.of_eq (v.nodes_tell event fate) (v.triggers_tell event fate)
    (v.streams_tell event fate))

theorem changeNode (n : Nat) {f : Node P → Node P}
    (hf : ∀ node, v.nodes[n]? = some node → (f node).nameplate = node.nameplate)
    (h : Retains w v) : Retains w (v.changeNode n f) := by
  have hsame : (v.changeNode n f).nodes.map Node.nameplate = v.nodes.map Node.nameplate :=
    map_modify_eq hf
  exact h.trans ⟨hsame ▸ List.prefix_rfl, List.prefix_rfl, List.prefix_rfl⟩

theorem changeTrigger (t : Nat) {f : Trigger P → Trigger P}
    (hf : ∀ trigger, (f trigger).name = trigger.name) (h : Retains w v) :
    Retains w (v.changeTrigger t f) := by
  have hsame : (v.changeTrigger t f).triggers.map (·.name) = v.triggers.map (·.name) :=
    map_modify_eq fun trigger _ => hf trigger
  exact h.trans ⟨List.prefix_rfl, hsame ▸ List.prefix_rfl, List.prefix_rfl⟩

theorem changeStream (s : Nat) {f : Stream → Stream}
    (hf : ∀ stream, (f stream).makeup = stream.makeup) (h : Retains w v) :
    Retains w (v.changeStream s f) := by
  have hsame : (v.changeStream s f).streams.map Stream.makeup = v.streams.map Stream.makeup :=
    map_modify_eq fun stream _ => hf stream
  exact h.trans ⟨List.prefix_rfl, List.prefix_rfl, hsame ▸ List.prefix_rfl⟩

theorem changeGate (g : GateId) (f : Gate → Gate) (h : Retains w v) :
    Retains w (v.changeGate g f) := by
  cases g with
  | node n => exact h.changeNode n fun _ _ => rfl
  | trigger t => exact h.changeTrigger t fun _ => rfl

theorem changeUnit (n i : Nat) {f : ExecutionUnit P → ExecutionUnit P}
    (hf : ∀ unit, v.unit? n i = some unit → (f unit).name = unit.name) (h : Retains w v) :
    Retains w (v.changeUnit n i f) := by
  refine h.changeNode n fun node hnode => ?_
  have hunits : (node.units.modify i f).map (·.name) = node.units.map (·.name) :=
    map_modify_eq fun unit hunit => hf unit (by simp [unit?, hnode, hunit])
  simp [Node.nameplate, hunits]

theorem changeSource (t i : Nat) (f : SourceUnit P → SourceUnit P) (h : Retains w v) :
    Retains w (v.changeSource t i f) :=
  h.changeTrigger t fun _ => rfl

/-- A call of a hook of a processor. -/
theorem callProcessor {α : Type} {n i : Nat}
    {hook : P.Processor → P.Shared → Call P.Processor P.Shared NodeError α}
    {reply : Reply NodeError α} {called : World P}
    (hcall : v.callProcessor n i hook = some (reply, called)) (h : Retains w v) :
    Retains w called := by
  obtain ⟨unit, -, heq⟩ := by simpa [World.callProcessor] using hcall
  obtain ⟨-, rfl⟩ := heq
  have hshared : Retains w { v with shared := (hook unit.processor v.shared).shared } :=
    h.trans (.of_eq rfl rfl rfl)
  refine Retains.logAll _ (hshared.changeUnit n i ?_)
  exact fun _ _ => rfl

/-- A call of a hook of a source. -/
theorem callSource {α : Type} {t i : Nat}
    {hook : P.Source → P.Shared → Call P.Source P.Shared NodeError α}
    {reply : Reply NodeError α} {called : World P}
    (hcall : v.callSource t i hook = some (reply, called)) (h : Retains w v) :
    Retains w called := by
  obtain ⟨unit, -, heq⟩ := by simpa [World.callSource] using hcall
  obtain ⟨-, rfl⟩ := heq
  have hshared : Retains w { v with shared := (hook unit.source v.shared).shared } :=
    h.trans (.of_eq rfl rfl rfl)
  exact (hshared.changeSource t i _).logAll _

/-- A call of a hook of a heartbeat. -/
theorem callHeartbeat {α : Type} {i : Nat}
    {hook : P.Heartbeat → P.Shared → Call P.Heartbeat P.Shared StreamError α}
    {reply : Reply StreamError α} {called : World P}
    (hcall : v.callHeartbeat i hook = some (reply, called)) (h : Retains w v) :
    Retains w called := by
  obtain ⟨timer, -, heq⟩ := by simpa [World.callHeartbeat] using hcall
  obtain ⟨-, rfl⟩ := heq
  exact h.trans (.of_eq rfl rfl rfl)

theorem changeSupervisor (f : Supervisor P → Supervisor P) (h : Retains w v) :
    Retains w (v.changeSupervisor f) :=
  h.trans (.of_eq rfl rfl rfl)

/-- Giving up an incarnation touches no part of a stream. -/
theorem abandon (i : Nat) (h : Retains w v) : Retains w (v.abandon i) := by
  unfold World.abandon
  split
  · exact h
  · simp only
    split
    · exact h.trans (.of_eq rfl rfl rfl)
    · exact h.trans (.of_eq rfl rfl rfl)

/-- Adding timers touches no part of a stream. -/
theorem addTimers (timers : List (Timer P)) (h : Retains w v) :
    Retains w (v.addTimers timers).2 := by
  induction timers generalizing v with
  | nil => exact h
  | cons timer timers ih => exact ih (h.trans (.of_eq rfl rfl rfl))

end Retains

/-- Whatever a task comes to, parts keep their names. -/
def Retaining (w : World P) : Option (Progress P) → Prop :=
  ComesTo fun progress => Retains w progress.world

namespace Retaining

theorem none : w.Retaining Option.none :=
  ComesTo.none

theorem bind {α : Type} {value : Option α} {next : α → Option (Progress P)}
    (h : ∀ a, value = some a → w.Retaining (next a)) : w.Retaining (value >>= next) :=
  ComesTo.bind h

theorem ite {c : Prop} [Decidable c] {a b : Option (Progress P)} (ha : w.Retaining a)
    (hb : w.Retaining b) : w.Retaining (if c then a else b) :=
  ComesTo.ite ha hb

theorem andThen {todo : List Task} (h : Retains w v) : w.Retaining (v.andThen todo) := by
  rintro _ ⟨⟩
  exact h

theorem done (h : Retains w v) : w.Retaining v.done :=
  .andThen h

theorem breakDown {text : String} (h : Retains w v) : w.Retaining (some (.breakDown v text)) := by
  rintro _ ⟨⟩
  exact h

/-- A task that touches no part. -/
theorem beside {todo : List Task} (hnodes : v.nodes = w.nodes) (htriggers : v.triggers = w.triggers)
    (hstreams : v.streams = w.streams) : w.Retaining (v.andThen todo) :=
  .andThen (.of_eq hnodes htriggers hstreams)

/-- A task that begins with the call of a hook. -/
theorem call {α ε : Type} {result : Option (Reply ε α × World P)}
    {next : Reply ε α × World P → Option (Progress P)}
    (hcall : ∀ reply called, result = some (reply, called) → Retains w called)
    (h : ∀ reply called, Retains w called → w.Retaining (next (reply, called))) :
    w.Retaining (result >>= next) :=
  .bind fun called hresult => h called.1 called.2 (hcall called.1 called.2 hresult)

end Retaining

/-! ## Every task -/

/-- Handing an event to the target of a gate. -/
theorem emit_retains (g : GateId) (event : Event) : w.Retaining (w.emit g event) := by
  refine .bind fun gate _ => .ite .none ?_
  split
  · exact .done (.tell _ _ (.of_eq rfl rfl rfl))
  · exact .done (.tell _ _ (.changeGate g _ .refl))
  · have hout : Retains w ({ w with output := w.output ++ [event] }.changeGate g Gate.count) :=
      .changeGate g _ (.of_eq rfl rfl rfl)
    refine .done ?_
    split
    · exact hout.tell _ _
    · exact hout
  · exact .andThen (.changeGate g _ .refl)

/-- Bringing an event to a node. -/
theorem enter_retains (n : Nat) (event : Event) : w.Retaining (w.enter n event) := by
  refine .bind fun node _ => ?_
  have hreceived (messages : List Message) : Retains w
      ((w.changeNode n fun node => { node with received := node.received + 1 }).logAll
        messages) :=
    .logAll _ (.changeNode n (fun _ _ => rfl) .refl)
  simp only
  split
  · exact .andThen (.tell _ _ (.changeNode n (fun _ _ => rfl) (.logAll _ (hreceived _))))
  · exact .andThen (.tell _ _ (.changeNode n (fun _ _ => rfl) (.logAll _ (hreceived _))))
  · exact .andThen (hreceived _)
  · exact .andThen (.changeNode n (fun _ _ => rfl) (hreceived _))

/-- A unit does not take an event. -/
theorem reject_retains (h : Retains w v) (n : Nat) (node : Node P) (unit : ExecutionUnit P) :
    w.Retaining (v.reject n node unit) :=
  .andThen (.logAll _ (.changeNode n (fun _ _ => rfl) h))

/-- Offering an event to a unit. -/
theorem offer_retains (n i : Nat) (event : Event) : w.Retaining (w.offer n i event) := by
  refine .bind fun node hnode => .bind fun unit hunit => ?_
  -- the unit that is replaced is the one that was asked
  have hat (other : ExecutionUnit P) (hother : w.unit? n i = some other) : other = unit := by
    simpa [unit?, hnode, hunit, eq_comm] using hother
  split
  · exact reject_retains .refl n node unit
  · rename_i later hlater
    refine .andThen (.changeUnit n i (fun other hother => ?_) .refl)
    rw [hat other hother, ExecutionUnit.name_of_offer_inline hlater]
  · rename_i later hlater
    refine .andThen (.changeUnit n i (fun other hother => ?_) .refl)
    rw [hat other hother, ExecutionUnit.name_of_offer_queued hlater]

/-- Putting an event into the queue of a unit. -/
theorem send_retains (n i : Nat) (event : Event) : w.Retaining (w.send n i event) := by
  refine .bind fun node hnode => .bind fun unit hunit => ?_
  have hsent : Retains w (w.changeUnit n i fun _ => (unit.send event).2) := by
    refine .changeUnit n i (fun other hother => ?_) .refl
    obtain rfl : unit = other := by simpa [unit?, hnode, hunit] using hother
    simp
  exact .ite (.andThen hsent) (reject_retains hsent n node _)

/-- Having an event processed. -/
theorem process_retains (n i : Nat) (event : Event) (asked : Bool) :
    w.Retaining (w.process n i event asked) := by
  refine .bind fun node _ => .bind fun unit _ =>
    .call (fun _ _ hcall => Retains.refl.callProcessor hcall) fun reply called hcalled => ?_
  have hfail (error : NodeError) : w.Retaining (called.fail n unit.name event error) :=
    .done (.tell _ _ (.logAll _ (.changeNode n (fun _ _ => rfl) hcalled)))
  simp only
  split
  · exact .ite .none (.andThen hcalled)
  · exact hfail _
  · exact hfail _
  · exact .done hcalled
  · exact .andThen hcalled
  · exact .andThen hcalled
  · exact .done (hcalled.tell _ _)

/-- A task on the way of an event. -/
theorem performEvent_retains (task : EventTask) : w.Retaining (w.performEvent task) := by
  cases task with
  | make g payload continuation => exact .bind fun gate _ => .andThen (.changeGate g _ .refl)
  | emit g event => exact emit_retains g event
  | leave g => exact .done (.changeGate g _ .refl)
  | enter n event => exact enter_retains n event
  | offer n i event => exact offer_retains n i event
  | send n i event => exact send_retains n i event
  | occupy n i =>
    refine .bind fun unit _ => ?_
    split
    · exact .ite .none (.done (.changeUnit n i (fun _ _ => by simp) .refl))
    · exact .done .refl
  | process n i event asked => exact process_retains n i event asked
  | settle n i => exact .done (.changeUnit n i (fun _ _ => by simp) .refl)

/-- A task in the life of nodes and units. -/
theorem performUnit_retains (expired : Bool) (task : UnitTask) :
    w.Retaining (w.performUnit me expired task) := by
  -- a change of the state of a unit, whatever it is
  have hqueue (v : World P) (h : Retains w v) (n i : Nat) (f : QueueState → QueueState) :
      Retains w (v.changeUnit n i (·.changeQueue f)) :=
    h.changeUnit n i fun _ _ => by simp
  have hinline (v : World P) (h : Retains w v) (n i : Nat) (f : InlineState → InlineState) :
      Retains w (v.changeUnit n i (·.changeInline f)) :=
    h.changeUnit n i fun _ _ => by simp
  cases task with
  | startNode n => exact .bind fun node _ => .ite (.andThen .refl) (.andThen .refl)
  | startUnits n i =>
    exact .bind fun node _ => .ite (.andThen .refl) (.andThen (.logAll _ .refl))
  | startedUnit n i =>
    simp only [performUnit, startedUnit]
    split
    · exact .andThen .refl
    · exact .andThen .refl
  | startUnit n i =>
    refine .bind fun unit _ => ?_
    split
    · exact .andThen .refl
    · exact .ite (.andThen .refl)
        (.andThen ((hqueue w .refl n i _).trans (.of_eq rfl rfl rfl)))
  | prepareInline n i asked =>
    refine .bind fun unit _ =>
      .call (fun _ _ hcall => Retains.refl.callProcessor hcall) fun reply called hcalled => ?_
    simp only
    split
    · exact .ite .none (.andThen hcalled)
    · split
      · exact .andThen (.logAll _ (hinline called hcalled n i _))
      · exact .andThen (hinline called hcalled n i _)
  | prepareWorker n i asked =>
    refine .bind fun unit _ =>
      .call (fun _ _ hcall => Retains.refl.callProcessor hcall) fun reply called hcalled => ?_
    simp only
    split
    · exact .ite .none (.andThen hcalled)
    · exact .ite (.andThen (hqueue called hcalled n i _)) (.done (hqueue called hcalled n i _))
  | awaitWorker n i =>
    refine .bind fun node _ => .bind fun unit _ => ?_
    split
    · exact .none
    · split
      · exact .andThen (.logAll _ (hqueue w .refl n i _))
      · exact .ite .none (.andThen .refl)
      · exact .ite (.andThen (hqueue w .refl n i _)) .none
  | receive n i =>
    refine .bind fun unit hunit => ?_
    split
    · rename_i event later hnext
      refine .andThen (.changeUnit n i (fun other hother => ?_) .refl)
      obtain rfl : unit = other := by simpa [hunit] using hother
      exact ExecutionUnit.name_of_next hnext
    · exact .andThen .refl
    · exact .ite (.andThen .refl) .none
  | checkDismissed n i =>
    refine .bind fun unit _ => ?_
    split
    · exact .none
    · exact .ite (.andThen .refl) (.andThen .refl)
  | finishWorker n i asked =>
    refine .bind fun unit _ =>
      .call (fun _ _ hcall => Retains.refl.callProcessor hcall) fun reply called hcalled => ?_
    simp only
    split
    · exact .ite .none (.andThen hcalled)
    · exact .done (hqueue _ (hcalled.logAll _) n i _)
  | stopNode n => exact .bind fun node _ => .andThen .refl
  | stoppedNode n => exact .bind fun node _ => .andThen (.logAll _ .refl)
  | stopUnit n i =>
    refine .bind fun unit _ => ?_
    split
    · exact .ite (.andThen (hinline w .refl n i _)) (.done .refl)
    · exact .ite (.andThen .refl) (.done .refl)
  | finishInline n i asked =>
    refine .bind fun unit _ =>
      .call (fun _ _ hcall => Retains.refl.callProcessor hcall) fun reply called hcalled => ?_
    simp only
    split
    · exact .ite .none (.andThen hcalled)
    · exact .andThen (hinline _ (hcalled.logAll _) n i _)
  | drain n i noted =>
    exact .bind fun unit _ => .ite (.done .refl) (.ite (.done (.logAll _ .refl))
      (.ite (.andThen (.logAll _ .refl)) .none))
  | dismiss n i => exact .done (hqueue w .refl n i _)
  | close n i =>
    refine .bind fun unit _ => ?_
    split
    · exact .done .refl
    · exact .ite .none (.done (hqueue w .refl n i _))
  | joinWorker n i =>
    refine .bind fun unit _ => ?_
    split
    · exact .done .refl
    · exact .ite .none (.done .refl)
  | stoppedUnit n i => exact .bind fun unit _ => .done (.logAll _ .refl)

/-- A task in the life of triggers and sources. -/
theorem performSource_retains (expired : Bool) (task : SourceTask) :
    w.Retaining (w.performSource me expired task) := by
  cases task with
  | startTrigger t => exact .bind fun trigger _ => .ite (.andThen .refl) (.andThen .refl)
  | startSources t i =>
    exact .bind fun trigger _ => .ite (.andThen .refl) (.andThen (.logAll _ .refl))
  | startedSource t i =>
    simp only [performSource, startedSource]
    split
    · exact .andThen .refl
    · exact .andThen .refl
  | startSource t i => exact .beside rfl rfl rfl
  | prepare t i l asked =>
    refine .bind fun unit _ =>
      .call (fun _ _ hcall => Retains.refl.callSource hcall) fun reply called hcalled => ?_
    have hlaunch (f : Launch → Launch) : Retains w (called.changeLaunch l f) :=
      hcalled.trans (.of_eq rfl rfl rfl)
    cases reply with
    | waiting => exact .ite .none (.andThen hcalled)
    | panicked text => exact .breakDown hcalled
    | failed error => exact .done (hlaunch _)
    | returned => exact .bind fun launch _ => .andThen (hlaunch _)
  | begin t i l delivered =>
    exact .bind fun launch _ => .ite (.beside rfl rfl rfl) (.beside rfl rfl rfl)
  | advance t i made resting =>
    refine .bind fun unit _ =>
      .call (fun _ _ hcall => Retains.refl.callSource hcall) fun reply called hcalled => ?_
    cases reply with
    | waiting => exact .ite .none (.andThen hcalled)
    | panicked text => exact .breakDown hcalled
    | failed error => exact .andThen (hcalled.logAll _)
    | returned move => cases move <;> exact .andThen hcalled
  | finish t i asked =>
    refine .call (fun _ _ hcall => Retains.refl.callSource hcall) fun reply called hcalled => ?_
    cases reply with
    | waiting => exact .ite .none (.andThen hcalled)
    | panicked text => exact .breakDown hcalled
    | returned | failed => exact .done hcalled
  | await t i l worker =>
    refine .bind fun unit _ => .bind fun launch _ => ?_
    split
    · exact .andThen (.changeSource t i _ .refl)
    · exact .ite (.andThen .refl) .none
    · exact .ite (.andThen .refl) (.ite (.andThen .refl) .none)
  | giveUp t i l worker =>
    exact .bind fun trigger _ => .bind fun unit _ => .bind fun launch _ => .beside rfl rfl rfl
  | stopTrigger t => exact .bind fun trigger _ => .andThen .refl
  | stoppedTrigger t => exact .bind fun trigger _ => .andThen (.logAll _ .refl)
  | stopSource t i =>
    exact .bind fun unit _ => .ite (.andThen (.changeSource t i _ .refl)) (.done .refl)
  | halt t i asked =>
    refine .call (fun _ _ hcall => Retains.refl.callSource hcall) fun reply called hcalled => ?_
    cases reply with
    | waiting => exact .ite .none (.andThen hcalled)
    | panicked text => exact .breakDown hcalled
    | returned | failed => exact .done hcalled
  | join name worker =>
    exact .bind fun thread _ => .ite (.done (.logAll _ .refl)) .none

/-- A task in the life of a stream. -/
theorem performStream_retains (task : StreamTask) : w.Retaining (w.performStream me task) := by
  cases task with
  | start s => exact .bind fun stream _ => .andThen .refl
  | startProcessors s p =>
    cases p with
    | zero => exact .andThen .refl
    | succ p => exact .bind fun stream _ => .bind fun n _ => .andThen .refl
  | startedProcessor s p =>
    refine .bind fun stream _ => ?_
    split
    · exact .andThen .refl
    · exact .andThen .refl
  | startTriggers s t =>
    refine .bind fun stream _ => ?_
    split
    · exact .andThen .refl
    · exact .andThen (.logAll _ (.changeStream s (fun _ => rfl) .refl))
  | startedTrigger s t =>
    refine .bind fun stream _ => ?_
    split
    · exact .andThen .refl
    · exact .andThen .refl
  | stop s =>
    exact .bind fun stream _ => .ite (.andThen (.changeStream s (fun _ => rfl) .refl))
      (.done .refl)
  | stopped s => exact .bind fun stream _ => .andThen (.logAll _ .refl)

/-- Building a processor adds a node behind those that are there, or fails. -/
theorem buildProcessor_retains (registry : Registry P) (name : String) (template : NodeTemplate)
    (within : Duration) : Retains w (w.buildProcessor registry name template within).shared := by
  unfold buildProcessor
  split
  · exact .refl
  · simp only
    split
    · refine ⟨?_, List.prefix_rfl, List.prefix_rfl⟩
      simp [addNode, World.logAll]
    all_goals exact .of_eq rfl rfl rfl

/-- Building a trigger adds it behind those that are there, or fails. -/
theorem buildTrigger_retains (registry : Registry P) (name : String)
    (template : TriggerTemplate) (within : Duration) :
    Retains w (w.buildTrigger registry name template within).shared := by
  unfold buildTrigger
  split
  · exact .refl
  · simp only
    split
    · refine ⟨List.prefix_rfl, ?_, List.prefix_rfl⟩
      simp [addTrigger]
    all_goals exact .of_eq rfl rfl rfl

/-- All steps of building a stream keep what was there. -/
theorem buildKeeps_retains (w : World P) (registry : Registry P) :
    BuildKeeps registry (Retains w) where
  processor _ name template within h :=
    h.trans (buildProcessor_retains registry name template within)
  trigger _ name template within h :=
    h.trans (buildTrigger_retains registry name template within)
  gate _ g f h := h.changeGate g f
  stream _ stream h := h.trans ⟨List.prefix_rfl, List.prefix_rfl, by simp [addStream]⟩

/-- Building a stream adds parts behind those that are there, also if it fails. -/
theorem buildStream_retains (name : String) (config : PipelineConfig) (registry : Registry P)
    (output : Bool) : Retains w (w.buildStream name config registry output).shared :=
  (buildKeeps_retains w registry).buildStream name config output .refl

/-- A task in the life of heartbeats. -/
theorem performTimer_retains (expired : Bool) (task : TimerTask) :
    w.Retaining (w.performTimer expired task) := by
  cases task with
  | prepare h asked =>
    refine .bind fun timer _ =>
      .call (fun _ _ hcall => Retains.refl.callHeartbeat hcall) fun reply called hcalled => ?_
    cases reply with
    | waiting => exact .ite .none (.andThen hcalled)
    | returned => exact .andThen hcalled
    | failed | panicked => exact .andThen (hcalled.trans (.of_eq rfl rfl rfl))
  | pause h =>
    exact .bind fun timer _ => .ite (.andThen .refl) (.ite (.beside rfl rfl rfl) .none)
  | beat h asked =>
    refine .bind fun timer _ =>
      .call (fun _ _ hcall => Retains.refl.callHeartbeat hcall) fun reply called hcalled => ?_
    cases reply with
    | waiting => exact .ite .none (.andThen hcalled)
    | returned request =>
      cases request <;> exact .andThen (hcalled.trans (.of_eq rfl rfl rfl))
    | failed | panicked => exact .andThen (hcalled.trans (.of_eq rfl rfl rfl))
  | finish h asked =>
    refine .call (fun _ _ hcall => Retains.refl.callHeartbeat hcall) fun reply called hcalled => ?_
    cases reply with
    | waiting => exact .ite .none (.andThen hcalled)
    | returned | failed | panicked => exact .andThen (hcalled.trans (.of_eq rfl rfl rfl))
  | cancel h => exact .beside rfl rfl rfl
  | await h => exact .bind fun timer _ => .ite (.beside rfl rfl rfl) .none

/-- A task of supervision. -/
theorem performControl_retains (expired : Bool) (task : ControlTask) :
    w.Retaining (w.performControl me expired task) := by
  cases task with
  | operate operation limited =>
    exact .ite (.ite (.andThen .refl) .none) (.beside rfl rfl rfl)
  | unlock => exact .beside rfl rfl rfl
  | startLocked name =>
    exact .ite (.andThen .refl) (.ite (.andThen .refl) (.ite (.andThen .refl)
      (.beside rfl rfl rfl)))
  | build i =>
    refine .bind fun incarnation _ => ?_
    have hbuilt : Retains w (w.buildStream incarnation.name w.supervisor.config
        w.supervisor.registry false).shared := buildStream_retains ..
    simp only
    split
    · exact .none
    · exact .andThen hbuilt
    · exact .andThen hbuilt
    · exact .andThen (hbuilt.trans (.of_eq rfl rfl rfl))
  | built i =>
    refine .bind fun incarnation _ => ?_
    split
    · exact .beside rfl rfl rfl
    · exact .ite (.beside rfl rfl rfl) (.beside rfl rfl rfl)
  | awaitStarted i =>
    refine .bind fun incarnation _ => ?_
    simp only
    split
    · exact .beside rfl rfl rfl
    · exact .beside rfl rfl rfl
    · split
      · exact .beside rfl rfl rfl
      · exact .ite (.andThen (.logAll _ (.logAll _ (.abandon i .refl)))) .none
  | report i =>
    exact .bind fun incarnation _ => .ite (.andThen .refl)
      (.ite (.andThen .refl) (.beside rfl rfl rfl))
  | pause i => exact .bind fun incarnation _ => .ite (.andThen .refl) .none
  | ended i broken => exact .beside rfl rfl rfl
  | stopLocked name =>
    simp only [performControl, stopLocked]
    split
    · exact .andThen .refl
    · exact .beside rfl rfl rfl
  | awaitStopped i =>
    exact .bind fun incarnation _ => .ite (.beside rfl rfl rfl)
      (.ite (.andThen (.changeSupervisor _ (.logAll _ (.abandon i .refl)))) .none)
  | run =>
    refine .ite (.andThen .refl) ?_
    simp only
    split
    · exact .none
    · exact .beside rfl rfl rfl
    · exact .breakDown (.of_eq rfl rfl rfl)
    · rename_i timers _
      -- heartbeats are no parts of a stream, so their making counts as nothing here
      exact .andThen (.changeSupervisor _ (.addTimers timers (.of_eq rfl rfl rfl)))
  | startAll names started timers =>
    cases names with
    | cons name names => exact .andThen .refl
    | nil =>
      have hspawned : Retains w
          (timers.foldl (fun w h => (w.spawn [.timer (.prepare h false)]).2) w) := by
        refine List.foldlRecOn timers _ Retains.refl fun v hv h _ => ?_
        exact hv.trans (.of_eq rfl rfl rfl)
      exact .andThen (hspawned.logAll _)
  | startedOne names started timers => exact .andThen .refl
  | serve timers =>
    refine .ite (.andThen .refl) ?_
    split
    · exact .none
    · exact .beside rfl rfl rfl
  | stopAll names count abandoned => cases names <;> exact .beside rfl rfl rfl
  | stoppedOne names count abandoned => exact .andThen .refl
  | retire => exact .beside rfl rfl rfl

/-- No task renames a part or takes it away. -/
theorem perform_retains {expired : Bool} {task : Task} {progress : Progress P}
    (h : w.perform me expired task = some progress) : Retains w progress.world := by
  cases task with
  | event task => exact performEvent_retains task progress h
  | unit task => exact performUnit_retains expired task progress h
  | source task => exact performSource_retains expired task progress h
  | stream task => exact performStream_retains task progress h
  | control task => exact performControl_retains expired task progress h
  | timer task => exact performTimer_retains expired task progress h
  | answer answer =>
    have hchanged : w.Retaining (w.changeThread me fun thread => { thread with answer }).done :=
      .beside rfl rfl rfl
    exact hchanged progress h

/-! ## Courses -/

/-- A step keeps all names. -/
theorem step_retains (h : w.step me = some v) : Retains w v := by
  obtain ⟨thread, task, rest, progress, -, -, hperform, rfl⟩ := step_perform h
  refine (perform_retains hperform).trans ?_
  cases progress with
  | goOn | breakDown => exact .of_eq rfl rfl rfl

/-- A move keeps all names. -/
theorem move_retains {move : Move P} (h : w.move move = some v) : Retains w v := by
  cases move with
  | step me => exact step_retains h
  | pass nanos =>
    obtain rfl := Option.some.inj h
    exact .of_eq rfl rfl rfl
  | outside change =>
    obtain rfl := Option.some.inj h
    exact .of_eq rfl rfl rfl

/-- A course keeps all names. -/
theorem follow_retains {moves : List (Move P)} (h : w.follow moves = some v) : Retains w v := by
  induction moves generalizing w with
  | nil =>
    obtain rfl := Option.some.inj h
    exact .refl
  | cons move moves ih =>
    obtain ⟨next, hmove, hrest⟩ := Option.bind_eq_some_iff.mp h
    exact (move_retains hmove).trans (ih hrest)

end World
end EventPipeline
