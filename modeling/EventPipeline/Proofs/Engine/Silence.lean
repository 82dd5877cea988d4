import EventPipeline.Engine.Line
import EventPipeline.Proofs.Engine.Outline

/-!
# `EventPipeline.Proofs.Engine.Silence`: what events do not notice

Most of what threads do concerns no event: they start and stop parts of a stream, wait for
one another, and write the log. `Silent` says of two worlds that their lines and their
outputs are the same, and `perform_silent` that every task keeps them so that is not on the
way of an event and calls no hook of a processor.
-/

set_option autoImplicit false

namespace EventPipeline

variable {P : Plugins}

/-- The world after a task. -/
def Progress.world : Progress P → World P
  | .goOn w _ => w
  | .breakDown w _ => w

/-- What the units of a node hold: their processors and the events that wait for them. -/
def Node.holdings (node : Node P) : List (P.Processor × List Event) :=
  node.units.map fun unit => (unit.processor, unit.state.queue)

/-- The task is not on the way of an event and calls no hook of a processor. -/
def Task.isSilent : Task → Bool
  | .unit (.prepareInline ..) | .unit (.prepareWorker ..) | .unit (.receive ..)
  | .unit (.finishWorker ..) | .unit (.finishInline ..) => false
  | .unit _ | .source _ | .stream _ | .answer _ => true
  | .event _ | .control _ | .timer _ => false

namespace World

variable {w v u : World P}

/-- Nothing that concerns events differs between two worlds. -/
structure Silent (w v : World P) : Prop where
  stations : v.nodes.map Node.station = w.nodes.map Node.station
  holdings : v.nodes.map Node.holdings = w.nodes.map Node.holdings
  fates : v.fates = w.fates
  made : (v.triggers[0]?).elim 0 (·.gate.sequence) = (w.triggers[0]?).elim 0 (·.gate.sequence)
  output : v.output = w.output
  log : w.log <+: v.log

namespace Silent

theorem refl : Silent w w := ⟨rfl, rfl, rfl, rfl, rfl, List.prefix_rfl⟩

theorem trans (h : Silent w v) (h' : Silent v u) : Silent w u :=
  ⟨h'.stations.trans h.stations, h'.holdings.trans h.holdings, h'.fates.trans h.fates,
    h'.made.trans h.made, h'.output.trans h.output, h.log.trans h'.log⟩

/-- The lines of the two worlds are the same. -/
theorem line_eq (h : Silent w v) (wake : Wake) (supply : List P.Shared) :
    v.line wake supply = w.line wake supply := by
  simp only [line, h.stations, h.fates, h.made]

/-- The two worlds show the same line. -/
theorem shows (h : Silent w v) {output : Bool} {line : Line P} (hshows : w.Shows output line) :
    v.Shows output line := by
  refine ⟨h.output.trans hshows.exits, h.fates.trans hshows.fates,
    hshows.told.trans h.log.sublist, ?_⟩
  have hcounts := congrArg (List.map (·.counts)) h.stations
  simp only [List.map_map] at hcounts
  exact hcounts.trans hshows.counts

/-! ### Changes that concern no event -/

theorem logAll (messages : List Message) (h : Silent w v) : Silent w (v.logAll messages) :=
  ⟨h.stations, h.holdings, h.fates, h.made, h.output, h.log.trans (List.prefix_append ..)⟩

theorem note (message : Message) (h : Silent w v) : Silent w (v.note message) :=
  h.logAll [message]

theorem changeStream (s : Nat) (f : Stream → Stream) (h : Silent w v) :
    Silent w (v.changeStream s f) :=
  ⟨h.stations, h.holdings, h.fates, h.made, h.output, h.log⟩

theorem changeLaunch (l : Nat) (f : Launch → Launch) (h : Silent w v) :
    Silent w (v.changeLaunch l f) :=
  ⟨h.stations, h.holdings, h.fates, h.made, h.output, h.log⟩

theorem addLaunch (h : Silent w v) : Silent w v.addLaunch.2 :=
  ⟨h.stations, h.holdings, h.fates, h.made, h.output, h.log⟩

theorem spawn (agenda : List Task) (h : Silent w v) : Silent w (v.spawn agenda).2 :=
  ⟨h.stations, h.holdings, h.fates, h.made, h.output, h.log⟩

theorem changeThread (t : Nat) (f : Thread → Thread) (h : Silent w v) :
    Silent w (v.changeThread t f) :=
  ⟨h.stations, h.holdings, h.fates, h.made, h.output, h.log⟩

theorem changeSource (t i : Nat) (f : SourceUnit P → SourceUnit P) (h : Silent w v) :
    Silent w (v.changeSource t i f) := by
  refine ⟨h.stations, h.holdings, h.fates, ?_, h.output, h.log⟩
  rw [← h.made]
  simp only [World.changeSource, changeTrigger, List.getElem?_modify]
  cases v.triggers[0]? with
  | none => rfl
  | some trigger =>
    rw [Option.map_eq_map, Option.map_some]
    split <;> rfl

/-- A change of a node that shows neither in its station nor in what its units hold. -/
theorem changeNode {n : Nat} {f : Node P → Node P}
    (hf : ∀ node, v.nodes[n]? = some node →
      (f node).station = node.station ∧ (f node).holdings = node.holdings)
    (h : Silent w v) : Silent w (v.changeNode n f) := by
  refine ⟨?_, ?_, h.fates, h.made, h.output, h.log⟩
  · rw [← h.stations, nodes_changeNode, map_modify_eq fun node hnode => (hf node hnode).1]
  · rw [← h.holdings, nodes_changeNode, map_modify_eq fun node hnode => (hf node hnode).2]

/-- A change of a gate that does not change what it has counted. -/
theorem changeGate {g : GateId} {f : Gate → Gate}
    (hf : ∀ gate, (f gate).emitted = gate.emitted ∧ (f gate).sequence = gate.sequence)
    (h : Silent w v) : Silent w (v.changeGate g f) := by
  cases g with
  | node n =>
    exact h.changeNode fun node _ => ⟨by simp only [Node.station, (hf node.gate).1], rfl⟩
  | trigger t =>
    refine ⟨h.stations, h.holdings, h.fates, ?_, h.output, h.log⟩
    rw [← h.made]
    simp only [World.changeGate, changeTrigger, List.getElem?_modify]
    cases v.triggers[0]? with
    | none => rfl
    | some trigger =>
      rw [Option.map_eq_map, Option.map_some]
      split
      · exact (hf trigger.gate).2
      · rfl

/-- A change of a unit that leaves its name, its processor and its queue as they are. -/
theorem changeUnit {n i : Nat} {f : ExecutionUnit P → ExecutionUnit P}
    (hf : ∀ unit, v.unit? n i = some unit → (f unit).name = unit.name ∧
      (f unit).processor = unit.processor ∧ (f unit).state.queue = unit.state.queue)
    (h : Silent w v) : Silent w (v.changeUnit n i f) := by
  refine h.changeNode fun node hnode => ⟨?_, map_modify_eq fun unit hunit => ?_⟩
  · have hunit (unit : ExecutionUnit P) (h : node.units[i]? = some unit) :
        ((f unit).name, (f unit).processor) = (unit.name, unit.processor) := by
      obtain ⟨hname, hprocessor, -⟩ := hf unit (by simp [unit?, hnode, h])
      rw [hname, hprocessor]
    have hworker : ((node.units.modify i f).head?.map fun unit => (unit.name, unit.processor)) =
        node.units.head?.map fun unit => (unit.name, unit.processor) := by
      rw [← List.head?_map, ← List.head?_map, map_modify_eq hunit]
    simp only [Node.station, hworker]
  · obtain ⟨-, hprocessor, hqueue⟩ := hf unit (by simp [unit?, hnode, hunit])
    rw [hprocessor, hqueue]

theorem changeInline {n i : Nat} {f : InlineState → InlineState} (h : Silent w v) :
    Silent w (v.changeUnit n i (·.changeInline f)) := by
  refine h.changeUnit fun unit _ => ?_
  obtain ⟨name, processor, stats, state⟩ := unit
  cases state <;> exact ⟨rfl, rfl, rfl⟩

theorem changeQueue {n i : Nat} {f : QueueState → QueueState}
    (hf : ∀ state, (f state).queue = state.queue) (h : Silent w v) :
    Silent w (v.changeUnit n i (·.changeQueue f)) := by
  refine h.changeUnit fun unit _ => ?_
  obtain ⟨name, processor, stats, state⟩ := unit
  cases state with
  | inline state => exact ⟨rfl, rfl, rfl⟩
  | queued state => exact ⟨rfl, rfl, hf state⟩

/-- A call of a hook of a source. -/
theorem callSource {α : Type} {t i : Nat}
    {hook : P.Source → P.Shared → Call P.Source P.Shared NodeError α}
    {reply : Reply NodeError α} {called : World P}
    (hcall : v.callSource t i hook = some (reply, called)) (h : Silent w v) :
    Silent w called := by
  obtain ⟨unit, hunit, heq⟩ := by simpa [World.callSource] using hcall
  obtain ⟨-, rfl⟩ := heq
  have hshared : Silent v { v with shared := (hook unit.source v.shared).shared } :=
    ⟨rfl, rfl, rfl, rfl, rfl, List.prefix_rfl⟩
  exact h.trans ((hshared.changeSource t i _).logAll _)

end Silent

/-- If a task can be done, what it comes to has the property. -/
def ComesTo (Q : Progress P → Prop) (result : Option (Progress P)) : Prop :=
  ∀ progress, result = some progress → Q progress

namespace ComesTo

variable {Q : Progress P → Prop}

theorem none : ComesTo Q Option.none := fun _ h => by simp at h

theorem bind {α : Type} {value : Option α} {next : α → Option (Progress P)}
    (h : ∀ a, value = some a → ComesTo Q (next a)) : ComesTo Q (value >>= next) := by
  intro progress hprogress
  obtain ⟨a, ha, hnext⟩ := Option.bind_eq_some_iff.mp hprogress
  exact h a ha progress hnext

theorem ite {c : Prop} [Decidable c] {a b : Option (Progress P)} (ha : ComesTo Q a)
    (hb : ComesTo Q b) : ComesTo Q (if c then a else b) := by
  split
  · exact ha
  · exact hb

end ComesTo

/-- Whatever a task comes to, it concerns no event. -/
def Silences (w : World P) : Option (Progress P) → Prop :=
  ComesTo fun progress => Silent w progress.world

namespace Silences

theorem none : w.Silences Option.none := ComesTo.none

theorem bind {α : Type} {value : Option α} {next : α → Option (Progress P)}
    (h : ∀ a, value = some a → w.Silences (next a)) : w.Silences (value >>= next) :=
  ComesTo.bind h

theorem ite {c : Prop} [Decidable c] {a b : Option (Progress P)} (ha : w.Silences a)
    (hb : w.Silences b) : w.Silences (if c then a else b) :=
  ComesTo.ite ha hb

theorem andThen {todo : List Task} (h : Silent w v) : w.Silences (v.andThen todo) := by
  rintro _ ⟨⟩
  exact h

theorem done (h : Silent w v) : w.Silences v.done := .andThen h

theorem breakDown {text : String} (h : Silent w v) :
    w.Silences (some (.breakDown v text)) := by
  rintro _ ⟨⟩
  exact h

end Silences

/-! ## Tasks that concern no event -/

/-- A task in the life of a stream. -/
theorem performStream_silences (me : Nat) (task : StreamTask) :
    w.Silences (w.performStream me task) := by
  cases task with
  | start s => exact .bind fun stream _ => .andThen .refl
  | startProcessors s p =>
    cases p with
    | zero => exact .andThen .refl
    | succ p => exact .bind fun stream _ => .bind fun n _ => .andThen .refl
  | startedProcessor s p =>
    refine .bind fun stream _ => ?_
    split <;> exact .andThen .refl
  | startTriggers s t =>
    refine .bind fun stream _ => ?_
    split
    · exact .andThen .refl
    · exact .andThen ((Silent.refl.changeStream s _).note _)
  | startedTrigger s t =>
    refine .bind fun stream _ => ?_
    split <;> exact .andThen .refl
  | stop s =>
    exact .bind fun stream _ => .ite (.andThen (Silent.refl.changeStream s _)) (.done .refl)
  | stopped s => exact .bind fun stream _ => .andThen (Silent.refl.note _)

/-- A task in the life of triggers and sources. -/
theorem performSource_silences (me : Nat) (expired : Bool) (task : SourceTask) :
    w.Silences (w.performSource me expired task) := by
  cases task with
  | startTrigger t =>
    exact .bind fun trigger _ => .ite (.andThen .refl) (.andThen .refl)
  | startSources t v =>
    exact .bind fun trigger _ => .ite (.andThen .refl) (.andThen (Silent.refl.note _))
  | startedSource t v =>
    simp only [performSource, startedSource]
    split <;> exact .andThen .refl
  | startSource t v => exact .andThen (Silent.refl.addLaunch.spawn _)
  | prepare t v l asked =>
    refine .bind fun unit _ => .bind fun ⟨reply, called⟩ hcall => ?_
    have hcalled := Silent.refl.callSource hcall
    cases reply with
    | waiting => exact .ite .none (.andThen hcalled)
    | panicked text => exact .breakDown hcalled
    | failed error => exact .done (hcalled.changeLaunch l _)
    | returned => exact .bind fun launch _ => .andThen (hcalled.changeLaunch l _)
  | begin t v l delivered =>
    exact .bind fun launch _ => .ite (.andThen (Silent.refl.changeLaunch l _))
      (.andThen (Silent.refl.changeLaunch l _))
  | advance t v made resting =>
    refine .bind fun unit _ => .bind fun ⟨reply, called⟩ hcall => ?_
    have hcalled := Silent.refl.callSource hcall
    cases reply with
    | waiting => exact .ite .none (.andThen hcalled)
    | panicked text => exact .breakDown hcalled
    | failed error => exact .andThen (hcalled.note _)
    | returned move => cases move <;> exact .andThen hcalled
  | finish t v asked =>
    refine .bind fun ⟨reply, called⟩ hcall => ?_
    have hcalled := Silent.refl.callSource hcall
    cases reply with
    | waiting => exact .ite .none (.andThen hcalled)
    | panicked text => exact .breakDown hcalled
    | returned | failed => exact .done hcalled
  | await t v l worker =>
    refine .bind fun unit _ => .bind fun launch _ => ?_
    split
    · exact .andThen (Silent.refl.changeSource t v _)
    · exact .ite (.andThen .refl) .none
    · exact .ite (.andThen .refl) (.ite (.andThen .refl) .none)
  | giveUp t v l worker =>
    exact .bind fun trigger _ => .bind fun unit _ => .bind fun launch _ =>
      .andThen (Silent.refl.changeLaunch l _)
  | stopTrigger t => exact .bind fun trigger _ => .andThen .refl
  | stoppedTrigger t => exact .bind fun trigger _ => .andThen (Silent.refl.note _)
  | stopSource t v =>
    exact .bind fun unit _ => .ite (.andThen (Silent.refl.changeSource t v _)) (.done .refl)
  | halt t v asked =>
    refine .bind fun ⟨reply, called⟩ hcall => ?_
    have hcalled := Silent.refl.callSource hcall
    cases reply with
    | waiting => exact .ite .none (.andThen hcalled)
    | panicked text => exact .breakDown hcalled
    | returned | failed => exact .done hcalled
  | join name worker =>
    exact .bind fun thread _ => .ite (.done (Silent.refl.logAll _)) .none

/-- A task in the life of nodes and units that calls no hook of a processor. -/
theorem performUnit_silences {me : Nat} {expired : Bool} {task : UnitTask}
    (hsilent : (Task.unit task).isSilent = true) :
    w.Silences (w.performUnit me expired task) := by
  cases task with
  | prepareInline | prepareWorker | receive | finishWorker | finishInline =>
    simp [Task.isSilent] at hsilent
  | startNode n =>
    exact .bind fun node _ => .ite (.andThen .refl) (.andThen .refl)
  | startUnits n i =>
    exact .bind fun node _ => .ite (.andThen .refl) (.andThen (Silent.refl.note _))
  | startedUnit n i =>
    simp only [performUnit, startedUnit]
    split <;> exact .andThen .refl
  | startUnit n i =>
    refine .bind fun unit _ => ?_
    split
    · exact .andThen .refl
    · split
      · exact .andThen .refl
      · exact .andThen ((Silent.refl.changeQueue fun _ => by rfl).spawn _)
  | awaitWorker n i =>
    refine .bind fun node _ => .bind fun unit _ => ?_
    split
    · exact .none
    · split
      · exact .andThen ((Silent.refl.changeQueue fun _ => by rfl).note _)
      · split
        · exact .none
        · exact .andThen .refl
      · split
        · exact .andThen (Silent.refl.changeQueue fun _ => by rfl)
        · exact .none
  | checkDismissed n i =>
    refine .bind fun unit _ => ?_
    split
    · exact .none
    · split <;> exact .andThen .refl
  | stopNode n => exact .bind fun node _ => .andThen .refl
  | stoppedNode n => exact .bind fun node _ => .andThen (Silent.refl.note _)
  | stopUnit n i =>
    refine .bind fun unit _ => ?_
    split
    · split
      · exact .andThen Silent.refl.changeInline
      · exact .done .refl
    · split
      · exact .andThen .refl
      · exact .done .refl
  | drain n i noted =>
    exact .bind fun unit _ => .ite (.done .refl)
      (.ite (.done (Silent.refl.note _)) (.ite (.andThen (Silent.refl.note _)) .none))
  | dismiss n i => exact .done (Silent.refl.changeQueue fun _ => by rfl)
  | close n i =>
    refine .bind fun unit _ => ?_
    split
    · exact .done .refl
    · exact .ite .none (.done (Silent.refl.changeQueue fun _ => by rfl))
  | joinWorker n i =>
    refine .bind fun unit _ => ?_
    split
    · exact .done .refl
    · exact .ite .none (.done .refl)
  | stoppedUnit n i => exact .bind fun unit _ => .done (Silent.refl.note _)

/-- A call of a hook of a processor does not show. -/
theorem Shows.callProcessor {α : Type} {n i : Nat}
    {hook : P.Processor → P.Shared → Call P.Processor P.Shared NodeError α}
    {reply : Reply NodeError α} {called : World P} {output : Bool} {line : Line P}
    (hshows : w.Shows output line) (hcall : w.callProcessor n i hook = some (reply, called)) :
    called.Shows output line := by
  obtain ⟨unit, hunit, heq⟩ := by simpa [World.callProcessor] using hcall
  obtain ⟨-, rfl⟩ := heq
  refine ⟨hshows.exits, hshows.fates, hshows.told.trans (List.sublist_append_left ..), ?_⟩
  rw [← hshows.counts]
  simp only [nodes_logAll, nodes_changeUnit]
  exact map_modify_eq fun node _ => rfl

/-- Finishing the processor of an inline unit does not show. -/
theorem Shows.finishInline {n i : Nat} {asked : Bool} {progress : Progress P} {output : Bool}
    {line : Line P} (hshows : w.Shows output line)
    (h : w.finishInline n i asked = some progress) : progress.world.Shows output line := by
  simp only [World.finishInline, Option.bind_eq_bind, Option.bind_eq_some_iff] at h
  obtain ⟨unit, hunit, ⟨reply, called⟩, hcall, h⟩ := h
  have hcalled := hshows.callProcessor hcall
  cases reply with
  | waiting =>
    cases asked with
    | true => simp at h
    | false =>
      obtain rfl := Option.some.inj h
      exact hcalled
  | returned | failed | panicked =>
    obtain rfl := Option.some.inj h
    exact (Silent.refl.logAll _).changeInline.shows hcalled

/-- A silent task concerns no event. -/
theorem perform_silent {me : Nat} {expired : Bool} {task : Task} {progress : Progress P}
    (hsilent : task.isSilent = true) (h : w.perform me expired task = some progress) :
    Silent w progress.world := by
  cases task with
  | unit task => exact performUnit_silences hsilent progress h
  | source task => exact performSource_silences me expired task progress h
  | stream task => exact performStream_silences me task progress h
  | answer answer => exact Silences.done (Silent.refl.changeThread me _) progress h
  | event | control | timer => simp [Task.isSilent] at hsilent

end World
end EventPipeline
