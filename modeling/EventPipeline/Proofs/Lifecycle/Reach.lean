import EventPipeline.Engine.Rota
import EventPipeline.Proofs.Engine.Building
import EventPipeline.Proofs.Engine.Silence

/-!
# `EventPipeline.Proofs.Lifecycle.Reach`: what a task can reach

A task is about at most one plugin. It changes only the unit that owns the plugin, and what
it leads to is about the same plugin, or approaches another one from outside: an event is
offered to a unit, or a unit is to be started or stopped. `perform_reaches` says so for
every task. Everything that is said about the life of one plugin rests on it, since the
steps of all other threads can then be passed over.
-/

set_option autoImplicit false

namespace EventPipeline

/-! ## What a task is about -/

/-- The plugin that a task on the way of an event is about. -/
def EventTask.subject? : EventTask → Option Instance
  | offer n u _ | send n u _ | occupy n u | process n u _ _ | settle n u =>
    some (.processor n u)
  | make .. | emit .. | leave _ | enter .. => none

/-- The plugin that a task in the life of nodes is about. -/
def UnitTask.subject? : UnitTask → Option Instance
  | startUnit n u | prepareInline n u _ | prepareWorker n u _ | awaitWorker n u | receive n u
  | checkDismissed n u | finishWorker n u _ | stopUnit n u | finishInline n u _ | drain n u _
  | dismiss n u | close n u | joinWorker n u | stoppedUnit n u => some (.processor n u)
  | startNode _ | startUnits .. | startedUnit .. | stopNode _ | stoppedNode _ => none

/-- The plugin that a task in the life of triggers is about. -/
def SourceTask.subject? : SourceTask → Option Instance
  | startSource t u | prepare t u _ _ | begin t u _ _ | advance t u _ _ | finish t u _
  | await t u _ _ | giveUp t u _ _ | stopSource t u | halt t u _ => some (.source t u)
  | startTrigger _ | startSources .. | startedSource .. | stopTrigger _ | stoppedTrigger _
  | join .. => none

namespace Task

/-- The plugin that a task is about. -/
def subject? : Task → Option Instance
  | event task => task.subject?
  | unit task => task.subject?
  | source task => task.subject?
  | stream _ | control _ | timer _ | answer _ => none

/-- The task comes to a plugin from outside. -/
def approaches : Task → Bool
  | event (.offer ..) | unit (.startUnit ..) | unit (.stopUnit ..) | source (.startSource ..)
  | source (.stopSource ..) => true
  | _ => false

/-- The plugin whose life a task takes care of: it calls one of the hooks that make up the
life, or is the turn of a loop between two of them. -/
def charge? : Task → Option Instance
  | unit (.prepareInline n u _) | unit (.prepareWorker n u _) | unit (.receive n u)
  | unit (.checkDismissed n u) | unit (.finishWorker n u _) | unit (.finishInline n u _) =>
    some (.processor n u)
  | source (.prepare t u _ _) | source (.begin t u _ _) | source (.advance t u _ _)
  | source (.finish t u _) => some (.source t u)
  | _ => none

/-- The plugin of whose life a task has somebody take care. -/
def summons? : Task → Option Instance
  | unit (.startUnit n u) | unit (.stopUnit n u) => some (.processor n u)
  | source (.startSource t u) => some (.source t u)
  | _ => none

/-- The launch that a task is part of. -/
def launch? : Task → Option Nat
  | source (.prepare _ _ l _) | source (.begin _ _ l _) | source (.await _ _ l _)
  | source (.giveUp _ _ l _) => some l
  | _ => none

/-- The processor that gets an event with a task. -/
def feeds? : Task → Option Instance
  | event (.send n u _) | event (.process n u _ _) => some (.processor n u)
  | _ => none

/-- The processor that a task has get an event, if its unit accepts one or has one in its
queue. -/
def serves? : Task → Option Instance
  | event (.offer n u _) | unit (.receive n u) => some (.processor n u)
  | _ => none

/-- The node that has an event delivered to one of its units with a task, if it accepts the event
or the unit does. -/
def deals? : Task → Option Nat
  | event (.enter n _) | event (.offer n _ _) => some n
  | _ => none

/-- The next task can follow from a task in a world with so many launches. -/
def StemsFrom (launches : Nat) (task next : Task) : Prop :=
  (next.subject? = none ∨ next.subject? = task.subject? ∨ next.approaches = true) ∧
  (next.charge? = none ∨ next.charge? = task.charge? ∨ next.charge? = task.summons?) ∧
  (next.launch? = none ∨ next.launch? = task.launch? ∨
    next.launch? = some launches ∧ ∃ t u, task = .source (.startSource t u)) ∧
  (next.feeds? = none ∨ next.feeds? = task.feeds? ∨ next.feeds? = task.serves?) ∧
  (next.delivers? = none ∨ next.delivers? = task.deals?)

/-- The next task can be one of a thread that a task adds in a world with so many launches: if it
is about a plugin, it takes care of its life. -/
def Spawns (launches : Nat) (task next : Task) : Prop :=
  task.StemsFrom launches next ∧ (next.charge? = none ∨ next.charge? = task.summons?) ∧
    (next.launch? = none ∨ next.launch? = some launches) ∧
    next.charge? = next.subject?

end Task

attribute [local simp] EventTask.subject? UnitTask.subject? SourceTask.subject?
  Task.subject? Task.approaches Task.charge? Task.summons? Task.launch? Task.feeds? Task.serves?
  Task.delivers? Task.deals?

/-- The task takes care of the life of the plugin that it is about. -/
theorem Task.subject?_of_charge {task : Task} {i : Instance} (h : task.charge? = some i) :
    task.subject? = some i := by
  cases task with
  | unit task => cases task <;> simp at h ⊢ <;> exact h
  | source task => cases task <;> simp at h ⊢ <;> exact h
  | _ => simp at h

/-- A task that is about no plugin takes care of no life. -/
theorem Task.charge?_of_free {task : Task} (h : task.subject? = none) : task.charge? = none := by
  cases hcharge : task.charge? with
  | none => rfl
  | some i =>
    rw [subject?_of_charge hcharge] at h
    cases h

/-- A task that is about no plugin is part of no launch. -/
theorem Task.launch?_of_free {task : Task} (h : task.subject? = none) : task.launch? = none := by
  cases task with
  | source task => cases task <;> first | rfl | simp at h
  | _ => rfl

/-- A task that comes to a plugin from outside is part of no launch. -/
theorem Task.launch?_of_approaches {task : Task} (h : task.approaches = true) :
    task.launch? = none := by
  cases task with
  | source task => cases task <;> first | rfl | simp at h
  | _ => rfl

/-- A task that is about no plugin brings an event to none. -/
theorem Task.feeds?_of_free {task : Task} (h : task.subject? = none) : task.feeds? = none := by
  cases task with
  | event task => cases task <;> first | rfl | simp at h
  | _ => rfl

/-- A task that is about no plugin delivers an event to none. -/
theorem Task.delivers?_of_free {task : Task} (h : task.subject? = none) :
    task.delivers? = none := by
  cases task with
  | event task => cases task <;> first | rfl | simp at h
  | _ => rfl

/-- A task that is about no plugin can follow from every task. -/
theorem Task.stemsFrom_of_free {launches : Nat} {task next : Task} (h : next.subject? = none) :
    task.StemsFrom launches next :=
  ⟨.inl h, .inl (charge?_of_free h), .inl (launch?_of_free h), .inl (feeds?_of_free h),
    .inl (delivers?_of_free h)⟩

variable {P : Plugins}

/-- What decides how a node deals with its events: its role, its units, and how many events it has
accepted. -/
def Node.roster (node : Node P) : NodeKind × List (ExecutionUnit P) × Nat :=
  (node.kind, node.units, node.accepted)

namespace World

variable {w v : World P} {subject : Option Instance}

@[simp] theorem unit?_changeTrigger (t : Nat) (f : Trigger P → Trigger P) (n u : Nat) :
    (w.changeTrigger t f).unit? n u = w.unit? n u := rfl

@[simp] theorem unit?_changeSource (t i : Nat) (f : SourceUnit P → SourceUnit P) (n u : Nat) :
    (w.changeSource t i f).unit? n u = w.unit? n u := rfl

@[simp] theorem source?_changeNode (n : Nat) (f : Node P → Node P) (t u : Nat) :
    (w.changeNode n f).source? t u = w.source? t u := rfl

@[simp] theorem source?_changeUnit (n i : Nat) (f : ExecutionUnit P → ExecutionUnit P)
    (t u : Nat) : (w.changeUnit n i f).source? t u = w.source? t u := rfl

/-- A change of a node that leaves its units alone. -/
theorem unit?_changeNode {m : Nat} {f : Node P → Node P} (h : ∀ node, (f node).units = node.units)
    (n u : Nat) : (w.changeNode m f).unit? n u = w.unit? n u := by
  simp only [unit?, nodes_changeNode, List.getElem?_modify]
  cases w.nodes[n]? with
  | none => rfl
  | some node =>
    by_cases hm : m = n
    · simp [hm, h]
    · simp [hm]

/-- A change of a trigger that leaves its sources alone. -/
theorem source?_changeTrigger {s : Nat} {f : Trigger P → Trigger P}
    (h : ∀ trigger, (f trigger).units = trigger.units) (t u : Nat) :
    (w.changeTrigger s f).source? t u = w.source? t u := by
  simp only [source?, triggers_changeTrigger, List.getElem?_modify]
  cases w.triggers[t]? with
  | none => rfl
  | some trigger =>
    by_cases hs : s = t
    · simp [hs, h]
    · simp [hs]

/-- A change of a gate leaves all sources alone. -/
theorem source?_changeGate (g : GateId) (f : Gate → Gate) (t u : Nat) :
    (w.changeGate g f).source? t u = w.source? t u := by
  cases g with
  | node n => rfl
  | trigger s =>
    exact source?_changeTrigger (f := fun trigger => { trigger with gate := f trigger.gate })
      (fun _ => rfl) t u

/-- A unit after a change of a unit. -/
theorem unit?_changeUnit (m i n u : Nat) (f : ExecutionUnit P → ExecutionUnit P) :
    (w.changeUnit m i f).unit? n u =
      if n = m ∧ u = i then (w.unit? n u).map f else w.unit? n u := by
  simp only [unit?, nodes_changeUnit, List.getElem?_modify]
  cases w.nodes[n]? with
  | none => simp
  | some node =>
    by_cases hm : m = n
    · subst hm
      by_cases hi : i = u
      · simp [hi]
      · simp [hi, Ne.symm hi, List.getElem?_modify_ne]
    · simp [hm, Ne.symm hm]

/-- A source after a change of a source. -/
theorem source?_changeSource (s i t u : Nat) (f : SourceUnit P → SourceUnit P) :
    (w.changeSource s i f).source? t u =
      if t = s ∧ u = i then (w.source? t u).map f else w.source? t u := by
  simp only [source?, changeSource, triggers_changeTrigger, List.getElem?_modify]
  cases w.triggers[t]? with
  | none => simp
  | some trigger =>
    by_cases hs : s = t
    · subst hs
      by_cases hi : i = u
      · simp [hi]
      · simp [hi, Ne.symm hi, List.getElem?_modify_ne]
    · simp [hs, Ne.symm hs]

/-- What never changes in a world: the roles of nodes, the targets of gates, and how many units
there are. -/
def frame (w : World P) : List (NodeKind × Option Target × Nat) × List (Option Target × Nat) :=
  (w.nodes.map fun node => (node.kind, node.gate.target, node.units.length),
    w.triggers.map fun trigger => (trigger.gate.target, trigger.units.length))

/-- Two worlds differ at most in the unit that owns the plugin, and in what no life depends
on. -/
structure Near (subject : Option Instance) (w v : World P) : Prop where
  frame : v.frame = w.frame
  units : ∀ n u, subject ≠ some (.processor n u) → v.unit? n u = w.unit? n u
  sources : ∀ t u, subject ≠ some (.source t u) → v.source? t u = w.source? t u
  remains : ∀ t u, (v.source? t u).isSome = (w.source? t u).isSome
  launches : v.launches = w.launches
  streams : v.streams = w.streams
  agendas : v.agendas = w.agendas
  accepted : v.nodes.map (·.accepted) = w.nodes.map (·.accepted)

namespace Near

theorem refl : Near subject w w :=
  ⟨rfl, fun _ _ _ => rfl, fun _ _ _ => rfl, fun _ _ => rfl, rfl, rfl, rfl, rfl⟩

theorem of_eq (hnodes : v.nodes = w.nodes) (htriggers : v.triggers = w.triggers)
    (hlaunches : v.launches = w.launches) (hstreams : v.streams = w.streams)
    (hthreads : v.threads = w.threads) : Near subject w v :=
  ⟨by simp [World.frame, hnodes, htriggers], fun _ _ _ => by simp [unit?, hnodes],
    fun _ _ _ => by simp [source?, htriggers],
    fun _ _ => by simp [source?, htriggers], hlaunches, hstreams, agendas_congr hthreads,
    by rw [hnodes]⟩

theorem trans {u : World P} (h : Near subject w v) (h' : Near subject v u) :
    Near subject w u where
  frame := h'.frame.trans h.frame
  units n i hs := (h'.units n i hs).trans (h.units n i hs)
  sources t i hs := (h'.sources t i hs).trans (h.sources t i hs)
  remains t i := (h'.remains t i).trans (h.remains t i)
  launches := h'.launches.trans h.launches
  streams := h'.streams.trans h.streams
  agendas := h'.agendas.trans h.agendas
  accepted := h'.accepted.trans h.accepted

theorem accepted_at (h : Near subject w v) (n : Nat) :
    (v.nodes[n]?).map (·.accepted) = (w.nodes[n]?).map (·.accepted) := by
  rw [← List.getElem?_map, ← List.getElem?_map, h.accepted]

theorem logAll (messages : List Message) (h : Near subject w v) :
    Near subject w (v.logAll messages) := h.trans (.of_eq rfl rfl rfl rfl rfl)

theorem note (message : Message) (h : Near subject w v) : Near subject w (v.note message) :=
  h.logAll [message]

theorem tell (event : Event) (fate : Fate) (h : Near subject w v) :
    Near subject w (v.tell event fate) := by
  obtain ⟨fates, log, heq⟩ := v.tell_eq event fate
  rw [heq]
  exact h.trans (.of_eq rfl rfl rfl rfl rfl)

/-- A change of a node that leaves its role, its units, the target of its gate and the number of
events that it has accepted alone. -/
theorem changeNode {m : Nat} {f : Node P → Node P}
    (hkind : ∀ node, (f node).kind = node.kind)
    (hunits : ∀ node, (f node).units = node.units)
    (htarget : ∀ node, v.nodes[m]? = some node → (f node).gate.target = node.gate.target)
    (haccepted : ∀ node, (f node).accepted = node.accepted)
    (h : Near subject w v) : Near subject w (v.changeNode m f) := by
  refine h.trans ⟨?_, fun n u _ => unit?_changeNode hunits n u, fun _ _ _ => rfl,
    fun _ _ => rfl, rfl, rfl, rfl, ?_⟩
  · simp only [World.frame, nodes_changeNode, triggers_changeNode]
    rw [map_modify_eq fun node hnode => by rw [hkind, hunits, htarget node hnode]]
  · rw [nodes_changeNode, map_modify_eq fun node _ => haccepted node]

/-- A change of a gate that leaves its target alone. -/
theorem changeGate (g : GateId) (f : Gate → Gate)
    (hf : ∀ gate, v.gate? g = some gate → (f gate).target = gate.target)
    (h : Near subject w v) : Near subject w (v.changeGate g f) := by
  cases g with
  | node n =>
    exact h.changeNode (fun _ => rfl) (fun _ => rfl)
      (fun node hnode => hf node.gate (by simp [gate?, hnode])) fun _ => rfl
  | trigger t =>
    refine h.trans ⟨?_, fun _ _ _ => rfl, fun s u _ => source?_changeGate .., fun s u => ?_, rfl,
      rfl, rfl, rfl⟩
    swap
    · rw [source?_changeGate]
    simp only [World.frame, World.changeGate, nodes_changeTrigger, triggers_changeTrigger]
    rw [map_modify_eq fun trigger htrigger => by
      rw [hf trigger.gate (by simp [gate?, htrigger])]]

theorem changeUnit {n u : Nat} {f : ExecutionUnit P → ExecutionUnit P}
    (h : Near (some (.processor n u)) w v) :
    Near (some (.processor n u)) w (v.changeUnit n u f) := by
  refine h.trans ⟨?_, fun m i hne => ?_, fun _ _ _ => rfl, fun _ _ => rfl, rfl, rfl, rfl, ?_⟩
  · simp only [World.frame, nodes_changeUnit, triggers_changeUnit]
    rw [map_modify_eq fun node _ => by rw [List.length_modify]]
  · have hne' : ¬ (m = n ∧ i = u) := fun hsame => hne (by rw [hsame.1, hsame.2])
    rw [unit?_changeUnit, if_neg hne']
  · rw [nodes_changeUnit]
    exact map_modify_eq fun _ _ => rfl

theorem changeSource {t u : Nat} {f : SourceUnit P → SourceUnit P}
    (h : Near (some (.source t u)) w v) :
    Near (some (.source t u)) w (v.changeSource t u f) := by
  refine h.trans ⟨?_, fun _ _ _ => rfl, fun s i hne => ?_, fun s i => ?_, rfl, rfl, rfl, rfl⟩
  · simp only [World.frame, World.changeSource, nodes_changeTrigger, triggers_changeTrigger]
    rw [map_modify_eq fun trigger _ => by rw [List.length_modify]]
  · have hne' : ¬ (s = t ∧ i = u) := fun hsame => hne (by rw [hsame.1, hsame.2])
    rw [source?_changeSource, if_neg hne']
  · rw [source?_changeSource]
    split <;> simp

theorem changeShared (shared : P.Shared) (h : Near subject w v) :
    Near subject w { v with shared } := h.trans (.of_eq rfl rfl rfl rfl rfl)

/-- A call of a hook of a processor. -/
theorem callProcessor {α : Type} {n u : Nat}
    {hook : P.Processor → P.Shared → Call P.Processor P.Shared NodeError α}
    {reply : Reply NodeError α} {called : World P}
    (hcall : v.callProcessor n u hook = some (reply, called))
    (h : Near (some (.processor n u)) w v) : Near (some (.processor n u)) w called := by
  obtain ⟨unit, hunit, heq⟩ := by simpa [World.callProcessor] using hcall
  obtain ⟨-, rfl⟩ := heq
  exact ((h.changeShared _).changeUnit).logAll _

/-- A call of a hook of a source. -/
theorem callSource {α : Type} {t u : Nat}
    {hook : P.Source → P.Shared → Call P.Source P.Shared NodeError α}
    {reply : Reply NodeError α} {called : World P}
    (hcall : v.callSource t u hook = some (reply, called))
    (h : Near (some (.source t u)) w v) : Near (some (.source t u)) w called := by
  obtain ⟨unit, hunit, heq⟩ := by simpa [World.callSource] using hcall
  obtain ⟨-, rfl⟩ := heq
  exact ((h.changeShared _).changeSource).logAll _

end Near

/-! ## What a task comes to -/

variable {task : Task} {me : Nat}

/-- What a task that makes the progress changes and leads to. Only what is part of the life
of a stream is known to leave the units of all other plugins alone. -/
structure Reaches (w : World P) (task : Task) (progress : Progress P) : Prop where
  frame : task.isPlain = true → progress.world.frame = w.frame
  units : task.isPlain = true → ∀ n u, task.subject? ≠ some (.processor n u) →
    progress.world.unit? n u = w.unit? n u
  sources : task.isPlain = true → ∀ t u, task.subject? ≠ some (.source t u) →
    progress.world.source? t u = w.source? t u
  remains : ∀ t u, (w.source? t u).isSome = true → (progress.world.source? t u).isSome = true
  launches : ∀ l < w.launches.length, task.launch? ≠ some l →
    progress.world.launches[l]? = w.launches[l]?
  grows : w.launches.length ≤ progress.world.launches.length
  streams : task.isPlain = true → (∀ part, task ≠ .stream part) →
    progress.world.streams = w.streams
  accepted : task.isPlain = true → ∀ n, (∀ event, task ≠ .event (.enter n event)) →
    (progress.world.nodes[n]?).map (·.accepted) = (w.nodes[n]?).map (·.accepted)
  agendas : ∃ spawned, progress.world.agendas = w.agendas ++ spawned ∧
    ∀ agenda ∈ spawned, ∀ next ∈ agenda, task.Spawns w.launches.length next
  todo : ∀ next ∈ progress.todo, task.StemsFrom w.launches.length next

/-- If the task can be done, it reaches what it is about. -/
def Bounded (w : World P) (task : Task) : Option (Progress P) → Prop :=
  ComesTo (w.Reaches task)

namespace Bounded

theorem none : w.Bounded task Option.none := ComesTo.none

theorem bind {α : Type} {value : Option α} {next : α → Option (Progress P)}
    (h : ∀ a, value = some a → w.Bounded task (next a)) : w.Bounded task (value >>= next) :=
  ComesTo.bind h

theorem ite {c : Prop} [Decidable c] {a b : Option (Progress P)} (ha : w.Bounded task a)
    (hb : w.Bounded task b) : w.Bounded task (if c then a else b) :=
  ComesTo.ite ha hb

/-- A task that changes nothing but the unit of its plugin. -/
theorem andThen {todo : List Task} (h : Near task.subject? w v)
    (htodo : ∀ next ∈ todo, task.StemsFrom w.launches.length next) :
    w.Bounded task (v.andThen todo) := by
  rintro _ ⟨⟩
  exact ⟨fun _ => h.frame, fun _ => h.units, fun _ => h.sources, fun t u => (h.remains t u).trans,
    fun _ _ _ => congrArg (·[_]?) h.launches,
    Nat.le_of_eq (congrArg List.length h.launches.symm), fun _ _ => h.streams,
    fun _ n _ => h.accepted_at n, ⟨[], by simpa [Progress.world] using h.agendas, by simp⟩, htodo⟩

theorem done (h : Near task.subject? w v) : w.Bounded task v.done := .andThen h (by simp)

theorem breakDown {text : String} (h : Near task.subject? w v) :
    w.Bounded task (some (.breakDown v text)) := by
  rintro _ ⟨⟩
  exact ⟨fun _ => h.frame, fun _ => h.units, fun _ => h.sources, fun t u => (h.remains t u).trans,
    fun _ _ _ => congrArg (·[_]?) h.launches,
    Nat.le_of_eq (congrArg List.length h.launches.symm), fun _ _ => h.streams,
    fun _ n _ => h.accepted_at n, ⟨[], by simpa [Progress.world] using h.agendas, by simp⟩,
    by simp [Progress.todo]⟩

/-- A task that also changes the launch that it is part of. -/
theorem launching {l : Nat} {f : Launch → Launch} {todo : List Task}
    (h : Near task.subject? w v) (hl : task.launch? = some l)
    (htodo : ∀ next ∈ todo, task.StemsFrom w.launches.length next) :
    w.Bounded task ((v.changeLaunch l f).andThen todo) := by
  rintro _ ⟨⟩
  refine ⟨fun _ => h.frame, fun _ => h.units, fun _ => h.sources, fun t u => (h.remains t u).trans,
    fun k _ hk => ?_, ?_, fun _ _ => h.streams, fun _ n _ => h.accepted_at n, ⟨[], ?_, by simp⟩,
    htodo⟩
  · have hne : l ≠ k := fun hsame => hk (hsame ▸ hl)
    show (v.launches.modify l f)[k]? = _
    rw [List.getElem?_modify_ne _ _ hne, h.launches]
  · show w.launches.length ≤ (v.launches.modify l f).length
    exact Nat.le_of_eq (by rw [List.length_modify, h.launches])
  · show v.agendas = _
    simpa using h.agendas

/-- A task that leads to nothing that is about a plugin. -/
theorem freely {todo : List Task} (h : Near task.subject? w v)
    (hfree : ∀ next ∈ todo, next.subject? = Option.none) : w.Bounded task (v.andThen todo) :=
  .andThen h fun next hnext => Task.stemsFrom_of_free (hfree next hnext)

/-- A node that accepts an event. -/
theorem accepting {n u : Nat} {event handed : Event} (h : Near Option.none w v) :
    w.Bounded (.event (.enter n event))
      ((v.changeNode n fun node => { node with accepted := node.accepted + 1 }).andThen
        [.event (.offer n u handed)]) := by
  rintro _ ⟨⟩
  refine ⟨fun _ => ?_, fun _ m i _ => ?_, fun _ t i _ => h.sources t i (by simp),
    fun t i => (h.remains t i).trans, fun _ _ _ => congrArg (·[_]?) h.launches,
    Nat.le_of_eq (congrArg List.length h.launches.symm), fun _ _ => h.streams,
    fun _ m hno => ?_, ⟨[], h.agendas.trans (List.append_nil _).symm, by simp⟩, ?_⟩
  · show World.frame (World.changeNode ..) = _
    rw [← h.frame]
    simp only [World.frame, nodes_changeNode, triggers_changeNode]
    rw [map_modify_eq fun node _ =>
      show (node.kind, node.gate.target, node.units.length) = _ from rfl]
  · have hsame := unit?_changeNode (w := v) (m := n)
      (f := fun node => { node with accepted := node.accepted + 1 }) (fun _ => rfl) m i
    exact hsame.trans (h.units m i (by simp))
  · have hne : n ≠ m := fun hsame => hno event (by rw [hsame])
    show ((v.nodes.modify n _)[m]?).map _ = _
    rw [List.getElem?_modify_ne _ _ hne]
    exact h.accepted_at m
  · intro next hnext
    obtain rfl := List.mem_singleton.mp hnext
    exact ⟨.inr (.inr rfl), .inl rfl, .inl rfl, .inl rfl, .inr rfl⟩

end Bounded

section

attribute [local simp] Task.StemsFrom Task.Spawns Task.failed Task.dispatched

/-- Handing an event to the target of a gate. -/
theorem emit_bounded (g : GateId) (event : Event) :
    w.Bounded (.event (.emit g event)) (w.emit g event) := by
  refine .bind fun gate _ => .ite .none ?_
  split
  · exact .done (.tell _ _ (.note _ .refl))
  · exact .done (.tell _ _ (.changeGate g _ (fun _ _ => rfl) .refl))
  · rename_i completes _
    have hout : Near (Task.event (.emit g event)).subject? w
        ({ w with output := w.output ++ [event] }.changeGate g Gate.count) :=
      .changeGate g _ (fun _ _ => rfl) (.of_eq rfl rfl rfl rfl rfl)
    cases completes with
    | true => exact .done (.tell _ _ hout)
    | false => exact .done hout
  · exact .freely (.changeGate g _ (fun _ _ => rfl) .refl) (by simp)

/-- Bringing an event to a node. -/
theorem enter_bounded (n : Nat) (event : Event) :
    w.Bounded (.event (.enter n event)) (w.enter n event) := by
  refine .bind fun node _ => ?_
  have hreceived : Near (Task.event (.enter n event)).subject? w
      (w.changeNode n fun node => { node with received := node.received + 1 }) :=
    .changeNode (fun _ => rfl) (fun _ => rfl) (fun _ _ => rfl) (fun _ => rfl) .refl
  simp only
  split
  · exact .freely (.tell _ _ (.changeNode (fun _ => rfl) (fun _ => rfl) (fun _ _ => rfl)
      (fun _ => rfl) ((hreceived.logAll _).note _))) (by simp)
  · exact .freely (.tell _ _ (.changeNode (fun _ => rfl) (fun _ => rfl) (fun _ _ => rfl)
      (fun _ => rfl) ((hreceived.logAll _).note _))) (by simp)
  · exact .freely (hreceived.logAll _) (by simp)
  · exact .accepting (hreceived.logAll _)

/-- What follows when a unit has taken an event is about no plugin. -/
theorem stemsFrom_of_accepted {node : Node P} {n launches : Nat} {event : Event} {next : Task}
    (h : next ∈ accepted node n event) : task.StemsFrom launches next := by
  unfold accepted at h
  split at h
  · obtain rfl | rfl := by simpa using h
    all_goals simp
  · obtain rfl := by simpa using h
    simp

/-- A unit does not take an event. -/
theorem reject_bounded (n : Nat) (node : Node P) (unit : ExecutionUnit P)
    (h : Near task.subject? w v) : w.Bounded task (v.reject n node unit) :=
  .freely
    (.note _ (.changeNode (fun _ => rfl) (fun _ => rfl) (fun _ _ => rfl) (fun _ => rfl) h))
    (by simp)

/-- Having an event processed. -/
theorem process_bounded (n u : Nat) (event : Event) (asked : Bool) :
    w.Bounded (.event (.process n u event asked)) (w.process n u event asked) := by
  refine .bind fun node _ => .bind fun unit _ => .bind fun result hcall => ?_
  obtain ⟨reply, called⟩ := result
  have hcalled := Near.refl.callProcessor hcall
  have hfail (name : String) (error : NodeError) :
      w.Bounded (.event (.process n u event asked)) (called.fail n name event error) :=
    .done (.tell _ _ (.note _ (.changeNode (fun _ => rfl) (fun _ => rfl) (fun _ _ => rfl)
      (fun _ => rfl) hcalled)))
  simp only
  split
  · exact .ite .none (.andThen hcalled (by simp))
  · exact hfail _ _
  · exact hfail _ _
  · exact .done hcalled
  · exact .freely hcalled (by simp)
  · exact .freely hcalled (by simp)
  · exact .done (hcalled.tell _ _)

/-- A task on the way of an event. -/
theorem performEvent_bounded (task : EventTask) :
    w.Bounded (.event task) (w.performEvent task) := by
  cases task with
  | make g payload continuation =>
    refine .bind fun gate hgate => .freely (.changeGate g _ (fun found hfound => ?_) .refl)
      (by simp)
    obtain rfl : gate = found := Option.some.inj (hgate.symm.trans hfound)
    rfl
  | emit g event => exact emit_bounded g event
  | leave g => exact .done (.changeGate g _ (fun _ _ => rfl) .refl)
  | enter n event => exact enter_bounded n event
  | offer n u event =>
    refine .bind fun node _ => .bind fun unit _ => ?_
    split
    · exact reject_bounded n node unit .refl
    · refine .andThen (.changeUnit .refl) fun next hnext => ?_
      rcases List.mem_append.mp hnext with hnext | hnext
      · obtain rfl | rfl | rfl := by simpa using hnext
        all_goals simp
      · exact stemsFrom_of_accepted hnext
    · exact .andThen (.changeUnit .refl) (by simp)
  | send n u event =>
    refine .bind fun node _ => .bind fun unit _ => ?_
    simp only
    split
    · exact .andThen (.changeUnit .refl) fun _ => stemsFrom_of_accepted
    · have hsent (f : ExecutionUnit P → ExecutionUnit P) :
          Near (Task.event (.send n u event)).subject? w (w.changeUnit n u f) := .changeUnit .refl
      exact reject_bounded n node _ (hsent _)
  | occupy n u =>
    refine .bind fun unit _ => ?_
    split
    · exact .ite .none (.done (.changeUnit .refl))
    · exact .done .refl
  | process n u event asked => exact process_bounded n u event asked
  | settle n u => exact .done (.changeUnit .refl)

/-- Starting a unit. -/
theorem startUnit_bounded (n u : Nat) :
    w.Bounded (.unit (.startUnit n u)) (w.startUnit n u) := by
  refine .bind fun unit _ => ?_
  split
  · exact .andThen .refl (by simp)
  refine .ite (.freely .refl (by simp)) ?_
  rintro _ ⟨⟩
  have h : Near (some (.processor n u)) w (w.changeUnit n u (·.changeQueue fun s =>
    { s with taken := true, connected := true, alive := true })) := .changeUnit .refl
  exact ⟨fun _ => h.frame, fun _ => h.units, fun _ => h.sources, fun _ _ h => h, fun _ _ _ => rfl,
    Nat.le_refl _, fun _ _ => rfl, fun _ n _ => h.accepted_at n,
    ⟨[[.unit (.prepareWorker n u false)]], by simp [Progress.world, agendas], by simp⟩,
    by simp [Progress.todo]⟩

/-- A task in the life of nodes and units. -/
theorem performUnit_bounded (expired : Bool) (task : UnitTask) :
    w.Bounded (.unit task) (w.performUnit me expired task) := by
  cases task with
  | startNode n =>
    exact .bind fun node _ => .ite (.freely .refl (by simp)) (.freely .refl (by simp))
  | startUnits n u =>
    exact .bind fun node _ => .ite (.andThen .refl (by simp)) (.andThen (.note _ .refl) (by simp))
  | startedUnit n u =>
    simp only [performUnit, startedUnit]
    split
    · exact .andThen .refl (by simp [or_imp, forall_and])
    · exact .freely .refl (by simp)
  | startUnit n u => exact startUnit_bounded n u
  | prepareInline n u asked =>
    refine .bind fun unit _ => .bind fun result hcall => ?_
    obtain ⟨reply, called⟩ := result
    have hcalled := Near.refl.callProcessor hcall
    simp only
    split
    · exact .ite .none (.andThen hcalled (by simp))
    · split
      · exact .freely (.note _ (.changeUnit hcalled)) (by simp)
      · exact .freely (.changeUnit hcalled) (by simp)
  | prepareWorker n u asked =>
    refine .bind fun unit _ => .bind fun result hcall => ?_
    obtain ⟨reply, called⟩ := result
    have hcalled := Near.refl.callProcessor hcall
    simp only
    split
    · exact .ite .none (.andThen hcalled (by simp))
    · exact .ite (.andThen (.changeUnit hcalled) (by simp)) (.done (.changeUnit hcalled))
  | awaitWorker n u =>
    refine .bind fun node _ => .bind fun unit _ => ?_
    split
    · exact .none
    · split
      · exact .freely (.note _ (.changeUnit .refl)) (by simp)
      · exact .ite .none (.freely .refl (by simp))
      · exact .ite (.freely (.changeUnit .refl) (by simp)) .none
  | receive n u =>
    refine .bind fun unit _ => ?_
    split
    · exact .andThen (.changeUnit .refl) (by simp)
    · exact .andThen .refl (by simp)
    · exact .ite (.andThen .refl (by simp)) .none
  | checkDismissed n u =>
    refine .bind fun unit _ => ?_
    split
    · exact .none
    · exact .ite (.andThen .refl (by simp)) (.andThen .refl (by simp))
  | finishWorker n u asked =>
    refine .bind fun unit _ => .bind fun result hcall => ?_
    obtain ⟨reply, called⟩ := result
    have hcalled := Near.refl.callProcessor hcall
    simp only
    split
    · exact .ite .none (.andThen hcalled (by simp))
    · exact .done (.changeUnit (hcalled.logAll _))
  | stopNode n =>
    exact .bind fun node _ => .andThen .refl (by simp [or_imp, forall_and])
  | stoppedNode n => exact .bind fun node _ => .freely (.note _ .refl) (by simp)
  | stopUnit n u =>
    refine .bind fun unit _ => ?_
    split
    · exact .ite (.andThen (.changeUnit .refl) (by simp)) (.done .refl)
    · exact .ite (.andThen .refl (by simp)) (.done .refl)
  | finishInline n u asked =>
    refine .bind fun unit _ => .bind fun result hcall => ?_
    obtain ⟨reply, called⟩ := result
    have hcalled := Near.refl.callProcessor hcall
    simp only
    split
    · exact .ite .none (.andThen hcalled (by simp))
    · exact .andThen (.changeUnit (hcalled.logAll _)) (by simp)
  | drain n u noted =>
    exact .bind fun unit _ => .ite (.done .refl) (.ite (.done (.note _ .refl))
      (.ite (.andThen (.note _ .refl) (by simp)) .none))
  | dismiss n u => exact .done (.changeUnit .refl)
  | close n u =>
    refine .bind fun unit _ => ?_
    split
    · exact .done .refl
    · exact .ite .none (.done (.changeUnit .refl))
  | joinWorker n u =>
    refine .bind fun unit _ => ?_
    split
    · exact .done .refl
    · exact .ite .none (.done .refl)
  | stoppedUnit n u => exact .bind fun unit _ => .done (.note _ .refl)

/-- Launching a source. -/
theorem startSource_bounded (t u : Nat) :
    w.Bounded (.source (.startSource t u)) (w.startSource t u) := by
  rintro _ ⟨⟩
  refine ⟨fun _ => rfl, fun _ _ _ _ => rfl, fun _ _ _ _ => rfl, fun _ _ h => h,
    fun l hl _ => ?_, ?_,
    fun _ _ => rfl, fun _ _ _ => rfl,
    ⟨[[.source (.prepare t u w.launches.length false)]],
      by simp [Progress.world, agendas], by simp⟩,
    by simp [Progress.todo]⟩
  · exact List.getElem?_append_left hl
  · simp [Progress.world]

/-- A task in the life of triggers and sources. -/
theorem performSource_bounded (expired : Bool) (task : SourceTask) :
    w.Bounded (.source task) (w.performSource me expired task) := by
  cases task with
  | startTrigger t =>
    exact .bind fun trigger _ => .ite (.freely .refl (by simp)) (.freely .refl (by simp))
  | startSources t u =>
    exact .bind fun trigger _ => .ite (.andThen .refl (by simp))
      (.freely (.note _ .refl) (by simp))
  | startedSource t u =>
    simp only [performSource, startedSource]
    split
    · exact .andThen .refl (by simp [or_imp, forall_and])
    · exact .freely .refl (by simp)
  | startSource t u => exact startSource_bounded t u
  | prepare t u l asked =>
    refine .bind fun unit _ => .bind fun result hcall => ?_
    obtain ⟨reply, called⟩ := result
    have hcalled := Near.refl.callSource hcall
    cases reply with
    | waiting => exact .ite .none (.andThen hcalled (by simp))
    | panicked text => exact .breakDown hcalled
    | failed error => exact .launching hcalled rfl (by simp)
    | returned => exact .bind fun launch _ => .launching hcalled rfl (by simp)
  | begin t u l delivered =>
    exact .bind fun launch _ => .ite (.launching .refl rfl (by simp))
      (.launching .refl rfl (by simp))
  | advance t u made resting =>
    refine .bind fun unit _ => .bind fun result hcall => ?_
    obtain ⟨reply, called⟩ := result
    have hcalled := Near.refl.callSource hcall
    cases reply with
    | waiting => exact .ite .none (.andThen hcalled (by simp))
    | panicked text => exact .breakDown hcalled
    | failed error => exact .andThen (.note _ hcalled) (by simp)
    | returned move => cases move <;> exact .andThen hcalled (by simp)
  | finish t u asked =>
    refine .bind fun result hcall => ?_
    obtain ⟨reply, called⟩ := result
    have hcalled := Near.refl.callSource hcall
    cases reply with
    | waiting => exact .ite .none (.andThen hcalled (by simp))
    | panicked text => exact .breakDown hcalled
    | returned | failed => exact .done hcalled
  | await t u l worker =>
    refine .bind fun unit _ => .bind fun launch _ => ?_
    split
    · exact .freely (.changeSource .refl) (by simp)
    · exact .ite (.andThen .refl (by simp)) .none
    · exact .ite (.andThen .refl (by simp)) (.ite (.andThen .refl (by simp)) .none)
  | giveUp t u l worker =>
    refine .bind fun trigger _ => .bind fun unit _ => .bind fun launch _ =>
      .launching .refl rfl fun next hnext => ?_
    rcases List.mem_append.mp hnext with hnext | hnext
    · split at hnext
      · obtain rfl | rfl := by simpa using hnext
        all_goals simp
      · simp at hnext
    · obtain rfl := List.mem_singleton.mp hnext
      simp
  | stopTrigger t =>
    exact .bind fun trigger _ => .andThen .refl (by simp [or_imp, forall_and])
  | stoppedTrigger t => exact .bind fun trigger _ => .freely (.note _ .refl) (by simp)
  | stopSource t u =>
    exact .bind fun unit _ => .ite
      (.andThen (.changeSource .refl) (by simp [or_imp, forall_and])) (.done .refl)
  | halt t u asked =>
    refine .bind fun result hcall => ?_
    obtain ⟨reply, called⟩ := result
    have hcalled := Near.refl.callSource hcall
    cases reply with
    | waiting => exact .ite .none (.andThen hcalled (by simp))
    | panicked text => exact .breakDown hcalled
    | returned | failed => exact .done hcalled
  | join name worker => exact .bind fun thread _ => .ite (.done (.logAll _ .refl)) .none

/-- A task in the life of a stream. -/
theorem performStream_bounded (task : StreamTask) :
    w.Bounded (.stream task) (w.performStream me task) := by
  -- Starts and stops of streams change nothing but the running flag of the stream.
  have hflag {s : Nat} {f : Stream → Stream} {v : World P} {todo : List Task}
      (h : Near none (w.changeStream s f) v)
      (hfree : ∀ next ∈ todo, next.subject? = none) :
      w.Bounded (.stream task) (v.andThen todo) := by
    rintro _ ⟨⟩
    exact ⟨fun _ => h.frame, fun _ n u _ => h.units n u (by simp),
      fun _ t u _ => h.sources t u (by simp),
      fun t u => (h.remains t u).trans, fun _ _ _ => congrArg (·[_]?) h.launches,
      Nat.le_of_eq (congrArg List.length h.launches.symm),
      fun _ hstream => absurd rfl (hstream task), fun _ n _ => h.accepted_at n,
      ⟨[], (h.agendas.trans (List.append_nil _).symm :), by simp⟩,
      fun next hnext => Task.stemsFrom_of_free (hfree next hnext)⟩
  cases task with
  | start s => exact .bind fun stream _ => .freely .refl (by simp)
  | startProcessors s p =>
    cases p with
    | zero => exact .freely .refl (by simp)
    | succ p => exact .bind fun stream _ => .bind fun n _ => .freely .refl (by simp)
  | startedProcessor s p =>
    refine .bind fun stream _ => ?_
    split
    · exact .freely .refl (by simp [or_imp, forall_and, -List.map_drop])
    · exact .freely .refl (by simp)
  | startTriggers s t =>
    refine .bind fun stream _ => ?_
    split
    · exact .freely .refl (by simp)
    · exact hflag (.note _ .refl) (by simp)
  | startedTrigger s t =>
    refine .bind fun stream _ => ?_
    split
    · exact .freely .refl (by simp [or_imp, forall_and, -List.map_take])
    · exact .freely .refl (by simp)
  | stop s =>
    exact .bind fun stream _ => .ite (hflag .refl (by simp [or_imp, forall_and])) (.done .refl)
  | stopped s => exact .bind fun stream _ => .freely (.note _ .refl) (by simp)

/-- A task that is part of the life of a stream. -/
theorem perform_plain_bounded {expired : Bool} (hplain : task.isPlain = true) :
    w.Bounded task (w.perform me expired task) := by
  cases task with
  | event task => exact performEvent_bounded task
  | unit task => exact performUnit_bounded expired task
  | source task => exact performSource_bounded expired task
  | stream task => exact performStream_bounded task
  | answer answer =>
    exact .done
      ⟨rfl, fun _ _ _ => rfl, fun _ _ _ => rfl, fun _ _ => rfl, rfl, rfl,
        agendas_answer w me answer, rfl⟩
  | control | timer => simp [Task.isPlain] at hplain

end

/-! ## Supervision and timers -/

/-- All launches are the same in two worlds, no source is lost, and nothing happens to the units
of a node. -/
structure Apart (w v : World P) : Prop where
  remains : ∀ t u, (w.source? t u).isSome = true → (v.source? t u).isSome = true
  launches : v.launches = w.launches
  rosters : w.nodes.map Node.roster <+: v.nodes.map Node.roster

theorem Apart.of_eq (htriggers : v.triggers = w.triggers) (hlaunches : v.launches = w.launches)
    (hnodes : v.nodes = w.nodes) : Apart w v :=
  ⟨fun t u h => by simpa [source?, htriggers] using h, hlaunches,
    hnodes ▸ List.prefix_rfl⟩

theorem Apart.trans {u : World P} (h : Apart w v) (h' : Apart v u) : Apart w u :=
  ⟨fun s i hs => h'.remains s i (h.remains s i hs), h'.launches.trans h.launches,
    h.rosters.trans h'.rosters⟩

/-- Nothing happens to the units of a node when one is added. -/
theorem Apart.of_node {node : Node P} (htriggers : v.triggers = w.triggers)
    (hlaunches : v.launches = w.launches) (hnodes : v.nodes = w.nodes ++ [node]) : Apart w v :=
  ⟨fun t u h => by simpa [source?, htriggers] using h, hlaunches, by
    rw [hnodes, List.map_append]
    exact List.prefix_append ..⟩

/-- No source is lost when a trigger is added. -/
theorem Apart.of_append {trigger : Trigger P} (htriggers : v.triggers = w.triggers ++ [trigger])
    (hlaunches : v.launches = w.launches) (hnodes : v.nodes = w.nodes) : Apart w v := by
  refine ⟨fun t u h => ?_, hlaunches, hnodes ▸ List.prefix_rfl⟩
  obtain ⟨unit, hunit⟩ := Option.isSome_iff_exists.mp h
  obtain ⟨old, hold, hunit⟩ := Option.bind_eq_some_iff.mp hunit
  have hlt : t < w.triggers.length := (List.getElem?_eq_some_iff.mp hold).1
  simp [source?, htriggers, List.getElem?_append_left hlt, hold, hunit]

/-- Building a stream leaves launches and threads alone. -/
theorem buildStream_apart (name : String) (config : PipelineConfig) (registry : Registry P)
    (output : Bool) :
    Apart w (w.buildStream name config registry output).shared ∧
      (w.buildStream name config registry output).shared.threads = w.threads := by
  refine BuildKeeps.buildStream (I := fun v => Apart w v ∧ v.threads = w.threads)
    ⟨fun v name template within hv => ?_, fun v name template within hv => ?_,
      fun v g f hv => ?_, fun _ _ hv => ⟨⟨hv.1.remains, hv.1.launches, hv.1.rosters⟩, hv.2⟩⟩
      name config output
    ⟨.of_eq rfl rfl rfl, rfl⟩
  · unfold buildProcessor
    split
    · exact hv
    · simp only
      split
      · exact ⟨hv.1.trans (.of_node rfl rfl rfl), hv.2⟩
      all_goals exact ⟨⟨hv.1.remains, hv.1.launches, hv.1.rosters⟩, hv.2⟩
  · unfold buildTrigger
    split
    · exact hv
    · simp only
      split
      · exact ⟨hv.1.trans (.of_append rfl rfl rfl), hv.2⟩
      all_goals exact ⟨⟨hv.1.remains, hv.1.launches, hv.1.rosters⟩, hv.2⟩
  · refine ⟨hv.1.trans ?_, by cases g <;> exact hv.2⟩
    refine ⟨fun t u hsource => by rw [source?_changeGate]; exact hsource, by cases g <;> rfl, ?_⟩
    cases g with
    | node n =>
      have hsame : (v.changeGate (.node n) f).nodes.map Node.roster = v.nodes.map Node.roster :=
        map_modify_eq fun _ _ => rfl
      exact hsame ▸ List.prefix_rfl
    | trigger t => exact List.prefix_rfl

/-- The progress leaves the units of all nodes alone, and leads to nothing that is about one. -/
structure Skirts (w : World P) (progress : Progress P) : Prop where
  rosters : w.nodes.map Node.roster <+: progress.world.nodes.map Node.roster
  free : ∀ next ∈ progress.todo, next.subject? = none

/-- If the task can be done, it reaches what it is about, and that is no plugin. -/
def Detached (w : World P) (task : Task) : Option (Progress P) → Prop :=
  ComesTo fun progress => w.Reaches task progress ∧ w.Skirts progress

namespace Detached

theorem none : w.Detached task Option.none := ComesTo.none

theorem bind {α : Type} {value : Option α} {next : α → Option (Progress P)}
    (h : ∀ a, value = some a → w.Detached task (next a)) : w.Detached task (value >>= next) :=
  ComesTo.bind h

theorem ite {c : Prop} [Decidable c] {a b : Option (Progress P)} (ha : w.Detached task a)
    (hb : w.Detached task b) : w.Detached task (if c then a else b) :=
  ComesTo.ite ha hb

/-- A task of supervision or of a timer, which leaves plugins alone. -/
theorem aside {todo : List Task} (spawned : List (List Task))
    (hplain : task.isPlain = false) (hapart : Apart w v)
    (hthreads : v.threads = w.threads ++ w.newThreads spawned)
    (hspawned : ∀ agenda ∈ spawned, ∀ next ∈ agenda, next.subject? = .none)
    (htodo : ∀ next ∈ todo, next.subject? = .none) : w.Detached task (v.andThen todo) := by
  rintro _ ⟨⟩
  refine ⟨⟨?_, ?_, ?_, hapart.remains, fun _ _ _ => congrArg (·[_]?) hapart.launches,
    Nat.le_of_eq (congrArg List.length hapart.launches.symm), ?_, ?_,
    ⟨spawned, ?_, fun agenda hagenda
      next hnext => ⟨Task.stemsFrom_of_free (hspawned agenda hagenda next hnext),
        .inl (Task.charge?_of_free (hspawned agenda hagenda next hnext)),
        .inl (Task.launch?_of_free (hspawned agenda hagenda next hnext)),
        (Task.charge?_of_free (hspawned agenda hagenda next hnext)).trans
          (hspawned agenda hagenda next hnext).symm⟩⟩,
    fun next hnext => Task.stemsFrom_of_free (htodo next hnext)⟩, hapart.rosters, htodo⟩
  · simp [hplain]
  · simp [hplain]
  · simp [hplain]
  · simp [hplain]
  · simp [hplain]
  · show v.agendas = _
    rw [agendas, hthreads, map_newThreads]

/-- A task of supervision or of a timer that adds no thread. -/
theorem beside {todo : List Task} (hplain : task.isPlain = false)
    (hapart : Apart w v) (hthreads : v.threads = w.threads)
    (htodo : ∀ next ∈ todo, next.subject? = .none) : w.Detached task (v.andThen todo) :=
  .aside [] hplain hapart (by simpa [newThreads] using hthreads) (by simp) htodo

/-- A task of supervision that breaks down. -/
theorem breaks {text : String} (hplain : task.isPlain = false)
    (hapart : Apart w v) (hthreads : v.threads = w.threads) :
    w.Detached task (some (.breakDown v text)) := by
  rintro _ ⟨⟩
  have hdone : w.Detached task (v.andThen []) :=
    .beside hplain hapart hthreads (by simp)
  obtain ⟨⟨hframe, hunits, hsources, hremains, hkept, hgrows, hstreams, haccepted, hagendas, -⟩,
    hrosters, -⟩ := hdone _ rfl
  exact ⟨⟨hframe, hunits, hsources, hremains, hkept, hgrows, hstreams, haccepted, hagendas,
    by simp [Progress.todo]⟩, hrosters, by simp [Progress.todo]⟩

end Detached

/-- A call of a hook of a heartbeat leaves launches and threads alone. -/
theorem callHeartbeat_apart {α : Type} {i : Nat}
    {hook : P.Heartbeat → P.Shared → Call P.Heartbeat P.Shared StreamError α}
    {reply : Reply StreamError α} {called : World P}
    (hcall : w.callHeartbeat i hook = some (reply, called)) :
    Apart w called ∧ called.threads = w.threads := by
  obtain ⟨timer, htimer, heq⟩ := by simpa [World.callHeartbeat] using hcall
  obtain ⟨-, rfl⟩ := heq
  exact ⟨.of_eq rfl rfl rfl, rfl⟩

/-- A task in the life of heartbeats. -/
theorem performTimer_detached (expired : Bool) (task : TimerTask) :
    w.Detached (.timer task) (w.performTimer expired task) := by
  cases task with
  | prepare h asked =>
    refine .bind fun timer _ => .bind fun result hcall => ?_
    obtain ⟨reply, called⟩ := result
    obtain ⟨⟨hremains, hlaunches, hrosters⟩, hthreads⟩ := callHeartbeat_apart hcall
    cases reply with
    | waiting => exact .ite .none (.beside rfl ⟨hremains, hlaunches, hrosters⟩ hthreads (by simp))
    | returned => exact .beside rfl ⟨hremains, hlaunches, hrosters⟩ hthreads (by simp)
    | failed | panicked => exact .beside rfl ⟨hremains, hlaunches, hrosters⟩ hthreads (by simp)
  | pause h =>
    exact .bind fun timer _ => .ite (.beside rfl (.of_eq rfl rfl rfl) rfl (by simp))
      (.ite (.beside rfl (.of_eq rfl rfl rfl) rfl (by simp)) .none)
  | beat h asked =>
    refine .bind fun timer _ => .bind fun result hcall => ?_
    obtain ⟨reply, called⟩ := result
    obtain ⟨⟨hremains, hlaunches, hrosters⟩, hthreads⟩ := callHeartbeat_apart hcall
    cases reply with
    | waiting => exact .ite .none (.beside rfl ⟨hremains, hlaunches, hrosters⟩ hthreads (by simp))
    | returned request =>
      cases request <;> exact .beside rfl ⟨hremains, hlaunches, hrosters⟩ hthreads (by simp)
    | failed | panicked => exact .beside rfl ⟨hremains, hlaunches, hrosters⟩ hthreads (by simp)
  | finish h asked =>
    refine .bind fun result hcall => ?_
    obtain ⟨reply, called⟩ := result
    obtain ⟨⟨hremains, hlaunches, hrosters⟩, hthreads⟩ := callHeartbeat_apart hcall
    cases reply with
    | waiting => exact .ite .none (.beside rfl ⟨hremains, hlaunches, hrosters⟩ hthreads (by simp))
    | returned | failed | panicked =>
      exact .beside rfl ⟨hremains, hlaunches, hrosters⟩ hthreads (by simp)
  | cancel h => exact .beside rfl (.of_eq rfl rfl rfl) rfl (by simp)
  | await h =>
    exact .bind fun timer _ => .ite (.beside rfl (.of_eq rfl rfl rfl) rfl (by simp)) .none

/-- Giving up an incarnation leaves launches and threads alone. -/
theorem abandon_apart (w : World P) (i : Nat) :
    Apart w (w.abandon i) ∧ (w.abandon i).threads = w.threads := by
  unfold abandon
  split
  · exact ⟨.of_eq rfl rfl rfl, rfl⟩
  · simp only
    split <;> exact ⟨.of_eq rfl rfl rfl, rfl⟩

/-- Adding timers leaves launches and threads alone. -/
theorem addTimers_apart (timers : List (Timer P)) :
    Apart w (w.addTimers timers).2 ∧ (w.addTimers timers).2.threads = w.threads := by
  induction timers generalizing w with
  | nil => exact ⟨.of_eq rfl rfl rfl, rfl⟩
  | cons timer timers ih =>
    obtain ⟨hapart, hthreads⟩ := ih (w := (w.addTimer timer).2)
    exact ⟨⟨hapart.remains, hapart.launches, hapart.rosters⟩, hthreads⟩

/-- Every timer gets a thread. -/
theorem startTimers_apart (timers : List Nat) :
    Apart w (timers.foldl (fun w h => (w.spawn [.timer (.prepare h false)]).2) w) ∧
      (timers.foldl (fun w h => (w.spawn [.timer (.prepare h false)]).2) w).threads =
        w.threads ++ w.newThreads (timers.map fun h => [.timer (.prepare h false)]) := by
  induction timers generalizing w with
  | nil => exact ⟨.of_eq rfl rfl rfl, by simp [newThreads]⟩
  | cons h timers ih =>
    obtain ⟨hapart, hthreads⟩ := ih (w := (w.spawn [.timer (.prepare h false)]).2)
    exact ⟨⟨hapart.remains, hapart.launches, hapart.rosters⟩,
      by simpa [spawn, newThreads] using hthreads⟩

/-- What ends an incarnation is about no plugin. -/
theorem subject?_windDown {incarnation : Incarnation} {i : Nat} {broken : Option String}
    {next : Task} (h : next ∈ windDown incarnation i broken) : next.subject? = none := by
  unfold windDown at h
  obtain h | h := List.mem_append.mp h
  · obtain ⟨s, -, rfl⟩ := List.mem_map.mp h
    rfl
  · obtain rfl := List.mem_singleton.mp h
    rfl

/-- What an operation consists of is about no plugin. -/
theorem subject?_tasksOf {operation : Operation} {next : Task}
    (h : next ∈ w.tasksOf operation ++ [.control .unlock]) : next.subject? = none := by
  obtain h | h := List.mem_append.mp h
  · cases operation with
    | start name | stop name | stopAll =>
      obtain rfl := List.mem_singleton.mp h
      rfl
    | restart name =>
      obtain rfl | rfl := by simpa [tasksOf] using h
      all_goals rfl
  · obtain rfl := List.mem_singleton.mp h
    rfl

/-- A task of supervision. -/
theorem performControl_detached (expired : Bool) (task : ControlTask) :
    w.Detached (.control task) (w.performControl me expired task) := by
  cases task with
  | operate operation limited =>
    exact .ite (.ite (.beside rfl (.of_eq rfl rfl rfl) rfl (by simp)) .none)
      (.beside rfl (.of_eq rfl rfl rfl) rfl fun _ => subject?_tasksOf)
  | unlock => exact .beside rfl (.of_eq rfl rfl rfl) rfl (by simp)
  | startLocked name =>
    refine .ite (.beside rfl (.of_eq rfl rfl rfl) rfl (by simp))
      (.ite (.beside rfl (.of_eq rfl rfl rfl) rfl (by simp))
      (.ite (.beside rfl (.of_eq rfl rfl rfl) rfl (by simp)) ?_))
    exact .aside [[.control (.build w.incarnations.length)]] rfl (.of_eq rfl rfl rfl)
      (by simp [newThreads]) (by simp) (by simp)
  | build i =>
    refine .bind fun incarnation _ => ?_
    obtain ⟨⟨hremains, hlaunches, hrosters⟩, hthreads⟩ :=
      buildStream_apart (w := w) incarnation.name
      w.supervisor.config w.supervisor.registry false
    simp only
    split
    · exact .none
    · exact .beside rfl ⟨hremains, hlaunches, hrosters⟩ hthreads (by simp)
    · exact .beside rfl ⟨hremains, hlaunches, hrosters⟩ hthreads (by simp)
    · exact .beside rfl ⟨hremains, hlaunches, hrosters⟩ hthreads (by simp)
  | built i =>
    refine .bind fun incarnation _ => ?_
    split
    · exact .beside rfl (.of_eq rfl rfl rfl) rfl (by simp)
    · exact .ite (.beside rfl (.of_eq rfl rfl rfl) rfl fun _ => subject?_windDown)
        (.beside rfl (.of_eq rfl rfl rfl) rfl (by simp))
  | awaitStarted i =>
    refine .bind fun incarnation _ => ?_
    simp only
    split
    · exact .beside rfl (.of_eq rfl rfl rfl) rfl (by simp)
    · exact .beside rfl (.of_eq rfl rfl rfl) rfl (by simp)
    · split
      · exact .beside rfl (.of_eq rfl rfl rfl) rfl (by simp)
      · exact .ite (.beside rfl
        ⟨(abandon_apart w i).1.remains, (abandon_apart w i).1.launches,
          (abandon_apart w i).1.rosters⟩ (abandon_apart w i).2
        (by simp)) .none
  | report i =>
    exact .bind fun incarnation _ =>
      .ite (.beside rfl (.of_eq rfl rfl rfl) rfl fun _ => subject?_windDown)
        (.ite (.beside rfl (.of_eq rfl rfl rfl) rfl fun _ => subject?_windDown)
          (.beside rfl (.of_eq rfl rfl rfl) rfl (by simp)))
  | pause i =>
    exact .bind fun incarnation _ => .ite (.beside rfl (.of_eq rfl rfl rfl) rfl (by simp)) .none
  | ended i broken => exact .beside rfl (.of_eq rfl rfl rfl) rfl (by simp)
  | stopLocked name =>
    simp only [performControl, stopLocked]
    split
    · exact .beside rfl (.of_eq rfl rfl rfl) rfl (by simp)
    · exact .beside rfl (.of_eq rfl rfl rfl) rfl (by simp)
  | awaitStopped i =>
    exact .bind fun incarnation _ => .ite (.beside rfl (.of_eq rfl rfl rfl) rfl (by simp))
      (.ite (.beside rfl
        ⟨(abandon_apart w i).1.remains, (abandon_apart w i).1.launches,
          (abandon_apart w i).1.rosters⟩ (abandon_apart w i).2
        (by simp)) .none)
  | run =>
    refine .ite (.beside rfl (.of_eq rfl rfl rfl) rfl (by simp)) ?_
    simp only
    split
    · exact .none
    · exact .beside rfl (.of_eq rfl rfl rfl) rfl (by simp)
    · exact .breaks rfl (.of_eq rfl rfl rfl) rfl
    · rename_i timers _
      obtain ⟨⟨hremains, hlaunches, hrosters⟩, hthreads⟩ :=
        addTimers_apart (w := { w with shared := _ }) timers
      exact .beside rfl ⟨hremains, hlaunches, hrosters⟩ hthreads (by simp)
  | startAll names started timers =>
    cases names with
    | cons name names => exact .beside rfl (.of_eq rfl rfl rfl) rfl (by simp)
    | nil =>
      obtain ⟨hapart, hthreads⟩ := startTimers_apart (w := w) timers
      exact .aside _ rfl ⟨hapart.remains, hapart.launches, hapart.rosters⟩ hthreads (by simp)
        (by simp)
  | startedOne names started timers => exact .beside rfl (.of_eq rfl rfl rfl) rfl (by simp)
  | serve timers =>
    refine .ite (.beside rfl (.of_eq rfl rfl rfl) rfl fun next hnext => ?_) ?_
    · obtain hnext | hnext := List.mem_append.mp hnext
      · obtain ⟨h, -, hnext⟩ := List.mem_flatMap.mp hnext
        obtain rfl | rfl := by simpa using hnext
        all_goals rfl
      · obtain rfl | rfl := by simpa using hnext
        all_goals rfl
    split
    · exact .none
    · exact .beside rfl (.of_eq rfl rfl rfl) rfl (by simp)
  | stopAll names count abandoned =>
    cases names <;> exact .beside rfl (.of_eq rfl rfl rfl) rfl (by simp)
  | stoppedOne names count abandoned => exact .beside rfl (.of_eq rfl rfl rfl) rfl (by simp)
  | retire => exact .beside rfl (.of_eq rfl rfl rfl) rfl (by simp)

/-- Every task reaches what it is about. -/
theorem perform_reaches {expired : Bool} {progress : Progress P}
    (h : w.perform me expired task = some progress) : w.Reaches task progress := by
  cases task with
  | control task => exact (performControl_detached expired task progress h).1
  | timer task => exact (performTimer_detached expired task progress h).1
  | _ => exact perform_plain_bounded rfl progress h

/-- Supervision and timers leave the units of all nodes alone. -/
theorem perform_skirts {expired : Bool} {progress : Progress P} (hplain : task.isPlain = false)
    (h : w.perform me expired task = some progress) : w.Skirts progress := by
  cases task with
  | control task => exact (performControl_detached expired task progress h).2
  | timer task => exact (performTimer_detached expired task progress h).2
  | _ => cases hplain

end World
end EventPipeline
