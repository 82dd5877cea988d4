import EventPipeline.Proofs.Engine.Ledger
import EventPipeline.Proofs.Engine.Position

/-!
# `EventPipeline.Proofs.Engine.Order`: the order that a stream keeps

`Orderly` is the invariant of a stream between the beginning of its start and the end of
its stop. The ledger balances; every unit and every source is in the phase that the
position of the main thread says; and every other thread works for a queued unit or for a
source, in a way that fits the phase of its owner.

The order of phases is what keeps events from being rejected. A unit that gets an event is
up (`Orderly.phase_eq_up`): before it is up no thread has an event, and once it begins to
stop all those have come to their ends that could send it one. So no step of a worker
thread rejects an event (`Orderly.not_rejected`), and every step keeps the order
(`Orderly.handles`, `Orderly.turns`).
-/

set_option autoImplicit false

namespace EventPipeline

/-! ## Chains -/

/-- Where events go that come to the place of a node: into it, or out of the chain. -/
def Layout.down (L : Layout) (last : Target) (n : Nat) : Target :=
  if n < L.nodes.length then .node n else last

/-- The layout is one chain: every node sends into the next one, the last one out of the
chain, and all triggers into the first one. -/
structure Layout.IsChain (L : Layout) (last : Target) : Prop where
  leaves : ∀ m, last ≠ .node m
  nodes : ∀ n node, L.nodes[n]? = some node → node.target = some (L.down last (n + 1))
  triggers : ∀ (t : Nat) trigger, L.triggers[t]? = some trigger →
    trigger.target = some (L.down last 0)

namespace Layout.IsChain

variable {o : Outline} {last : Target}

/-- Every gate of a chain has a target. -/
theorem target?_ne (h : o.layout.IsChain last) (g : GateId) : o.target? g ≠ some none := by
  rw [Outline.target?_eq]
  cases g with
  | node n =>
    intro heq
    obtain ⟨node, hnode, htarget⟩ := Option.map_eq_some_iff.mp heq
    simp [h.nodes n node hnode] at htarget
  | trigger t =>
    intro heq
    obtain ⟨trigger, htrigger, htarget⟩ := Option.map_eq_some_iff.mp heq
    simp [h.triggers t trigger htrigger] at htarget

/-- A place in a chain that is a node is that node. -/
theorem down_eq {L : Layout} (h : L.IsChain last) {n m : Nat}
    (hdown : L.down last n = .node m) : n = m := by
  unfold Layout.down at hdown
  split at hdown
  · exact Target.node.inj hdown
  · exact absurd hdown (h.leaves m)

/-- Gates send down the chain. -/
theorem rank_lt (h : o.layout.IsChain last) {g : GateId} {m : Nat}
    (htarget : o.target? g = some (some (.node m))) :
    match g with
    | .node n => m = n + 1
    | .trigger _ => m = 0 := by
  rw [Outline.target?_eq] at htarget
  cases g with
  | node n =>
    obtain ⟨node, hnode, hdown⟩ := Option.map_eq_some_iff.mp htarget
    rw [h.nodes n node hnode, Option.some.injEq] at hdown
    exact (h.down_eq hdown).symm
  | trigger t =>
    obtain ⟨trigger, htrigger, hdown⟩ := Option.map_eq_some_iff.mp htarget
    rw [h.triggers t trigger htrigger, Option.some.injEq] at hdown
    exact (h.down_eq hdown).symm

end Layout.IsChain

/-! ## Threads and their owners -/

/-- The unit has a queue, and its worker runs. -/
def UnitOutline.Works (unit : UnitOutline) : Prop :=
  unit.signs.queued = true ∧ unit.signs.alive = true

/-- Whom the thread with the agenda works for. -/
def ownerOf (agenda : List Task) : Option Owner :=
  agenda.getLast?.bind Task.owner?

/-- The task of the loop of a thread fits the phase of its owner. -/
inductive Fits (o : Outline) (position : Position) (i : Nat) : Task → Prop
  | prepareWorker (n u : Nat) (asked : Bool) (unit : UnitOutline) (hunit : o.unit? n u = some unit)
    (hworks : unit.Works) (hready : unit.signs.ready = false)
    (hphase : position.phase n u = .launching) :
    Fits o position i (.unit (.prepareWorker n u asked))
  | receive (n u : Nat) (unit : UnitOutline) (hunit : o.unit? n u = some unit)
    (hworks : unit.Works) : Fits o position i (.unit (.receive n u))
  | checkDismissed (n u : Nat) (unit : UnitOutline) (hunit : o.unit? n u = some unit)
    (hworks : unit.Works) : Fits o position i (.unit (.checkDismissed n u))
  | finishWorker (n u : Nat) (asked : Bool) (unit : UnitOutline) (hunit : o.unit? n u = some unit)
    (hworks : unit.Works) (hphase : position.phase n u = .idle) :
    Fits o position i (.unit (.finishWorker n u asked))
  | ofSource (task : Task) (t v : Nat) (source : SourceOutline)
    (howner : task.owner? = some (.source t v)) (hsource : o.source? t v = some source)
    (hphase : position.source t v = .launched i ∨
      position.source t v = .registered ∧ source.worker = some i) : Fits o position i task

namespace Fits

variable {o o' : Outline} {position position' : Position} {i : Nat} {task : Task}

/-- The worker of a unit works. -/
theorem works {n u : Nat} (h : Fits o position i task)
    (howner : task.owner? = some (.worker n u)) :
    ∃ unit, o.unit? n u = some unit ∧ unit.Works := by
  cases h with
  | prepareWorker m v asked unit hunit hworks | receive m v unit hunit hworks
  | checkDismissed m v unit hunit hworks | finishWorker m v asked unit hunit hworks =>
    obtain ⟨rfl, rfl⟩ : m = n ∧ v = u := by simpa [Task.owner?] using howner
    exact ⟨unit, hunit, hworks⟩
  | ofSource _ t v source howner' => simp [howner] at howner'

/-- The source of a thread exists. -/
theorem source {t v : Nat} (h : Fits o position i task)
    (howner : task.owner? = some (.source t v)) : ∃ source, o.source? t v = some source := by
  cases h with
  | prepareWorker | receive | checkDismissed | finishWorker => simp [Task.owner?] at howner
  | ofSource _ s r source howner' hsource =>
    obtain ⟨rfl, rfl⟩ : s = t ∧ r = v := by simpa [howner, eq_comm] using howner'
    exact ⟨source, hsource⟩

/-- The source of a thread has a phase in which it has a thread. -/
theorem not_absent {t v : Nat} (h : Fits o position i task)
    (howner : task.owner? = some (.source t v)) : position.source t v ≠ .absent := by
  cases h with
  | prepareWorker | receive | checkDismissed | finishWorker => simp [Task.owner?] at howner
  | ofSource _ s r source howner' _ hphase =>
    obtain ⟨rfl, rfl⟩ : s = t ∧ r = v := by simpa [howner, eq_comm] using howner'
    rcases hphase with hphase | ⟨hphase, -⟩ <;> simp [hphase]

/-- Only what concerns its owner matters for a thread. -/
theorem congr (h : Fits o position i task)
    (hunit : ∀ n u, task.owner? = some (.worker n u) →
      (o'.unit? n u).map (·.signs) = (o.unit? n u).map (·.signs) ∧
        position'.phase n u = position.phase n u)
    (hsource : ∀ t v, task.owner? = some (.source t v) →
      o'.source? t v = o.source? t v ∧ position'.source t v = position.source t v) :
    Fits o' position' i task := by
  have hsigns {n u : Nat} {unit : UnitOutline} (howner : task.owner? = some (.worker n u))
      (hold : o.unit? n u = some unit) :
      ∃ later, o'.unit? n u = some later ∧ later.signs = unit.signs := by
    have hmap := (hunit n u howner).1
    rw [hold] at hmap
    exact Option.map_eq_some_iff.mp hmap
  cases h with
  | prepareWorker n u asked unit hold hworks hready hphase =>
    obtain ⟨later, hlater, heq⟩ := hsigns rfl hold
    exact .prepareWorker n u asked later hlater (by rwa [UnitOutline.Works, heq])
      (by rwa [heq]) ((hunit n u rfl).2.trans hphase)
  | receive n u unit hold hworks =>
    obtain ⟨later, hlater, heq⟩ := hsigns rfl hold
    exact .receive n u later hlater (by rwa [UnitOutline.Works, heq])
  | checkDismissed n u unit hold hworks =>
    obtain ⟨later, hlater, heq⟩ := hsigns rfl hold
    exact .checkDismissed n u later hlater (by rwa [UnitOutline.Works, heq])
  | finishWorker n u asked unit hold hworks hphase =>
    obtain ⟨later, hlater, heq⟩ := hsigns rfl hold
    exact .finishWorker n u asked later hlater (by rwa [UnitOutline.Works, heq])
      ((hunit n u rfl).2.trans hphase)
  | ofSource _ t v source howner hold hphase =>
    obtain ⟨hsame, hphase'⟩ := hsource t v howner
    exact .ofSource task t v source howner (hsame.trans hold) (by rwa [hphase'])

end Fits

/-- What the outline of a unit shows in a phase does not depend on its counters, as long as
they agree once the unit is idle. -/
theorem Phase.Holds.congr {phase : Phase} {unit later : UnitOutline} (h : phase.Holds unit)
    (hsigns : later.signs = unit.signs)
    (hcounts : phase = .idle ∨ phase = .stopped → unit.signs.queued = true →
      later.received = later.finished) : phase.Holds later := by
  cases phase with
  | fresh | launching | up => simpa only [Holds, hsigns] using h
  | idle => exact ⟨by rw [hsigns, h.1], hcounts (.inl rfl) h.1⟩
  | stopped =>
    intro hqueued
    rw [hsigns] at hqueued ⊢
    exact ⟨(h hqueued).1, hcounts (.inr rfl) hqueued⟩

/-- The order of a stream at a position of its main thread, when the processor of every
node has ended so many events. The main thread is the first one; it is not among the
threads that the order is about. -/
structure Orderly (L : Layout) (position : Position) (o : Outline) (agendas : List (List Task))
    (ended : Nat → Nat) : Prop where
  layout : o.layout = L
  ledger : Ledger o agendas ended
  units : ∀ n u unit, o.unit? n u = some unit → (position.phase n u).Holds unit
  sources : ∀ t v source, o.source? t v = some source → position.source t v = .registered →
    source.running = true ∧ source.worker.isSome = true
  threads : ∀ i agenda, agendas[i + 1]? = some agenda →
    ∃ loop, Shaped loop agenda ∧ ∀ task, loop = some task → Fits o position (i + 1) task
  /-- no two threads work for the same unit -/
  alone : ∀ i j agenda agenda' n u, agendas[i + 1]? = some agenda →
    agendas[j + 1]? = some agenda' → ownerOf agenda = some (.worker n u) →
    ownerOf agenda' = some (.worker n u) → i = j
  sends : ∀ i agenda n u event, agendas[i + 1]? = some agenda →
    .event (.send n u event) ∈ agenda → L.isQueued n u = true
  /-- as long as some unit is not up there are no events -/
  quiet : ∀ n u, u < L.units n →
    position.phase n u = .fresh ∨ position.phase n u = .launching →
    (∀ i agenda, agendas[i + 1]? = some agenda → agenda.length ≤ 1) ∧
      ∀ m v unit, o.unit? m v = some unit → unit.waiting = 0

/-- The thread with a shaped agenda works for whom the task of its loop belongs to. -/
theorem Shaped.ownerOf_eq {loop : Option Task} {agenda : List Task} (h : Shaped loop agenda) :
    ownerOf agenda = loop.bind Task.owner? := by
  rw [ownerOf, h.getLast?_eq]

/-- The first task of a thread is the task of its loop, with nothing after it, or it is on
the way of an event that the owner of the thread has sent. -/
theorem Shaped.cons_cases {loop : Option Task} {task : Task} {rest : List Task}
    (h : Shaped loop (task :: rest)) :
    (loop = some task ∧ rest = [] ∧ ∃ owner, task.owner? = some owner) ∨
    ∃ last owner, loop = some last ∧ last.owner? = some owner ∧ task.Follows owner ∧
      Shaped (some last) rest ∧ rest ≠ [] := by
  cases h with
  | loop h => exact .inl ⟨rfl, rfl, _, h⟩
  | @cons _ last owner _ howner hfollows hrest =>
    refine .inr ⟨last, owner, rfl, howner, hfollows, hrest, ?_⟩
    rintro rfl
    cases hrest

/-- What follows on the way of an event comes from the same owner. -/
theorem Outline.Handles.follows {o o' : Outline} {task : Task} {e : Option Nat}
    {todo : List Task} {last : Target} {owner : Owner} (hchain : o.layout.IsChain last)
    (h : o.Handles task e o' todo) (hrejected : .dispatched .rejected ∉ todo)
    (hfollows : task.Follows owner) : ∀ later ∈ todo, later.Follows owner := by
  cases h with
  | lose | release | leave | occupy | fail | digest | stop | settle => simp
  | refuse | bounce => simp at hrejected
  | receive => exact hfollows.elim
  | make g payload continuation event =>
    obtain ⟨rank, hrank, hfloor⟩ := hfollows
    cases g with
    | node m => simp [EventTask.rank?] at hrank
    | trigger t =>
      obtain rfl : 0 = rank := by simpa [EventTask.rank?] using hrank
      simpa [Task.Follows, EventTask.rank?] using hfloor
  | forward g event m hg =>
    obtain ⟨rank, hrank, hfloor⟩ := hfollows
    have hdown := hchain.rank_lt hg
    cases g with
    | node n =>
      obtain rfl : 2 * n + 2 = rank := by simpa [EventTask.rank?] using hrank
      simp [Task.Follows, EventTask.rank?]
      omega
    | trigger t =>
      obtain rfl : 0 = rank := by simpa [EventTask.rank?] using hrank
      simp [Task.Follows, EventTask.rank?]
      omega
  | drop n | bypass n | accept n u | takeQueued n u | wait n u | pass n u =>
    obtain ⟨rank, hrank, hfloor⟩ := hfollows
    obtain rfl := Option.some.inj hrank
    simp [Task.Follows, EventTask.rank?, Task.dispatched]
    try omega
  | takeInline n u event node | enqueue n u event node =>
    obtain ⟨rank, hrank, hfloor⟩ := hfollows
    obtain rfl := Option.some.inj hrank
    cases hkind : node.kind <;>
      simp [Task.Follows, EventTask.rank?, Task.dispatched, onward] <;> omega

/-- Handling an event leaves the thread in shape. -/
theorem Outline.Handles.shaped {o o' : Outline} {task loop : Task} {e : Option Nat}
    {rest todo : List Task} {last : Target} (hchain : o.layout.IsChain last)
    (h : o.Handles task e o' todo) (hrejected : .dispatched .rejected ∉ todo)
    (hshaped : Shaped (some loop) (task :: rest)) : Shaped (some loop) (todo ++ rest) := by
  obtain ⟨heq, rfl, owner, howner⟩ | ⟨_, owner, heq, howner, hfollows, hrest, -⟩ :=
    hshaped.cons_cases
  · obtain rfl := Option.some.inj heq
    cases h with
    | receive n u event =>
      refine .cons howner ⟨2 * n + 2, rfl, ?_⟩
        (.cons howner ⟨2 * n + 2, rfl, ?_⟩ (.loop howner)) <;>
      · obtain rfl : .worker n u = owner := by simpa [Task.owner?] using howner
        exact Nat.le_refl (2 * n + 2)
    | _ => simp [Task.owner?] at howner
  · obtain rfl := Option.some.inj heq
    exact hrest.append howner (h.follows hchain hrejected hfollows)

/-- The task of a loop carries no event. -/
theorem isLight_of_owner {task : Task} {owner : Owner} (h : task.owner? = some owner) :
    task.IsLight := by
  cases task with
  | unit | source => exact ⟨fun _ => rfl, fun _ _ => rfl, fun _ _ => rfl⟩
  | _ => simp [Task.owner?] at h

namespace Orderly

variable {L : Layout} {position : Position} {o o' : Outline} {agendas : List (List Task)}
  {ended : Nat → Nat} {i : Nat} {task : Task} {rest todo : List Task} {last : Target}

/-- The unit of an orderly stream is in range. -/
theorem unit_lt (ho : Orderly L position o agendas ended) {n u : Nat} {unit : UnitOutline}
    (hunit : o.unit? n u = some unit) : u < L.units n := by
  have hsome := o.unit?_isSome n u
  rw [hunit, ho.layout] at hsome
  simpa using hsome.symm

/-- The thread of an event. -/
theorem of_event (ho : Orderly L position o agendas ended) {task : EventTask}
    (hme : agendas[i + 1]? = some (.event task :: rest)) :
    ∃ loop owner rank, Shaped (some loop) rest ∧ loop.owner? = some owner ∧
      Fits o position (i + 1) loop ∧ task.rank? = some rank ∧ owner.floor ≤ rank ∧
      rest ≠ [] := by
  obtain ⟨loop, hshaped, hfits⟩ := ho.threads i _ hme
  obtain ⟨-, -, owner, howner⟩ | ⟨loop, owner, rfl, howner, ⟨rank, hrank, hfloor⟩, hrest, hne⟩ :=
    hshaped.cons_cases
  · simp [Task.owner?] at howner
  · exact ⟨loop, owner, rank, hrest, howner, hfits loop rfl, hrank, hfloor, hne⟩

/-- As long as there are events all units are up or begin to stop. -/
theorem not_quiet (ho : Orderly L position o agendas ended) {task : EventTask}
    (hme : agendas[i + 1]? = some (.event task :: rest)) {n u : Nat} (hu : u < L.units n) :
    ¬ (position.phase n u = .fresh ∨ position.phase n u = .launching) := by
  intro hphase
  obtain ⟨loop, owner, rank, -, -, -, -, -, hne⟩ := ho.of_event hme
  have hlength := (ho.quiet n u hu hphase).1 i _ hme
  cases rest with
  | nil => exact hne rfl
  | cons => simp at hlength

/-- A unit that is about to get an event is up. -/
theorem phase_eq_up (ho : Orderly L position o agendas ended) {task : EventTask} {n u : Nat}
    (hme : agendas[i + 1]? = some (.event task :: rest))
    (hrank : task.rank? = some (2 * n + 1)) (hu : u < L.units n) :
    position.phase n u = .up := by
  have hquiet := ho.not_quiet hme hu
  obtain ⟨loop, owner, rank, -, howner, hfits, hrank', hfloor, -⟩ := ho.of_event hme
  obtain rfl : 2 * n + 1 = rank := by simpa [hrank] using hrank'
  have hstops (hphase : position.phase n u = .idle ∨ position.phase n u = .stopped) : False := by
    cases owner with
    | source t v =>
      exact hfits.not_absent howner (Position.source_of_stopping hphase t v)
    | worker m v =>
      simp only [Owner.floor] at hfloor
      have hstopped := Position.phase_of_stopping hphase (show m < n by omega) v
      obtain ⟨unit, hunit, hqueued, halive⟩ := hfits.works howner
      have hholds := ho.units m v unit hunit
      rw [hstopped] at hholds
      simp [(hholds hqueued).1] at halive
  cases hphase : position.phase n u with
  | up => rfl
  | fresh | launching => simp [hphase] at hquiet
  | idle | stopped => exact (hstops (by simp [hphase])).elim

/-- No unit rejects an event. -/
theorem not_rejected (ho : Orderly L position o agendas ended)
    (hme : agendas[i + 1]? = some (task :: rest)) {e : Option Nat}
    (h : o.Handles task e o' todo) : .dispatched .rejected ∉ todo := by
  cases h with
  | refuse n u event unit hunit hsigns =>
    have hholds := ho.units n u unit hunit
    rw [ho.phase_eq_up hme rfl (ho.unit_lt hunit)] at hholds
    simp [hholds.1] at hsigns
  | bounce n u event unit hunit hsigns =>
    have hholds := ho.units n u unit hunit
    have hqueued := ho.sends i _ n u event hme (by simp)
    rw [← ho.layout, Outline.isQueued_eq hunit] at hqueued
    rw [ho.phase_eq_up hme rfl (ho.unit_lt hunit)] at hholds
    simp [(hholds.2 hqueued).2.2] at hsigns
  | takeInline n u event node unit =>
    cases hkind : node.kind <;> simp [onward, Task.dispatched]
  | enqueue n u event node unit =>
    cases hkind : node.kind <;> simp [onward, Task.dispatched]
  | _ => simp [Task.dispatched]

/-- The order after a step of a worker thread, which changes no source and only the signs of
the unit that it works for. -/
theorem act {agenda : List Task} {f : List Task → List Task} {later : Nat → Nat}
    (ho : Orderly L position o agendas ended) (hme : agendas[i + 1]? = some agenda)
    (hlayout : o'.layout = o.layout) (hledger : Ledger o' (agendas.modify (i + 1) f) later)
    (hunits : ∀ n u unit, o'.unit? n u = some unit → (position.phase n u).Holds unit)
    (hsources : ∀ t v, o'.source? t v = o.source? t v)
    (hsigns : ∀ n u, ownerOf agenda ≠ some (.worker n u) →
      (o'.unit? n u).map (·.signs) = (o.unit? n u).map (·.signs))
    (hloop : ∃ loop, Shaped loop (f agenda) ∧
      ∀ task, loop = some task → Fits o' position (i + 1) task)
    (howner : ∀ n u, ownerOf (f agenda) = some (.worker n u) →
      ownerOf agenda = some (.worker n u))
    (hsends : ∀ n u event, .event (.send n u event) ∈ f agenda →
      .event (.send n u event) ∈ agenda ∨ L.isQueued n u = true)
    (hquiet : ∀ n u, u < L.units n →
      position.phase n u = .fresh ∨ position.phase n u = .launching →
      (f agenda).length ≤ 1 ∧ ∀ m v unit, o'.unit? m v = some unit → unit.waiting = 0) :
    Orderly L position o' (agendas.modify (i + 1) f) later where
  layout := hlayout.trans ho.layout
  ledger := hledger
  units := hunits
  sources t v source hsource := ho.sources t v source ((hsources t v).symm.trans hsource)
  threads j agenda' hj := by
    obtain ⟨hij, old, hold, rfl⟩ | ⟨hij, hold⟩ := getElem?_modify_cases hj
    · obtain rfl : agenda = old := by simpa [hme] using hold
      obtain rfl : i = j := by omega
      exact hloop
    · obtain ⟨loop, hshaped, hfits⟩ := ho.threads j agenda' hold
      refine ⟨loop, hshaped, fun task htask => (hfits task htask).congr (fun n u hnu => ?_)
        fun t v _ => ⟨hsources t v, rfl⟩⟩
      have hother : ownerOf agenda' = some (.worker n u) := by
        rw [hshaped.ownerOf_eq, htask]
        exact hnu
      refine ⟨hsigns n u fun hmine => ?_, rfl⟩
      exact hij (congrArg (· + 1) (ho.alone i j _ _ n u hme hold hmine hother))
  alone j k agenda' agenda'' n u hj hk hjowner hkowner := by
    have hold {j : Nat} {agenda' : List Task}
        (hj : (agendas.modify (i + 1) f)[j + 1]? = some agenda')
        (hjowner : ownerOf agenda' = some (.worker n u)) :
        ∃ old, agendas[j + 1]? = some old ∧ ownerOf old = some (.worker n u) := by
      obtain ⟨hij, old, hold, rfl⟩ | ⟨-, hold⟩ := getElem?_modify_cases hj
      · obtain rfl : agenda = old := by simpa [hme] using hold
        exact ⟨agenda, hij ▸ hold, howner n u hjowner⟩
      · exact ⟨agenda', hold, hjowner⟩
    obtain ⟨a, ha, haowner⟩ := hold hj hjowner
    obtain ⟨b, hb, hbowner⟩ := hold hk hkowner
    exact ho.alone j k a b n u ha hb haowner hbowner
  sends j agenda' n u event hj hsend := by
    obtain ⟨-, old, hold, rfl⟩ | ⟨-, hold⟩ := getElem?_modify_cases hj
    · obtain rfl : agenda = old := by simpa [hme] using hold
      obtain hsend | hqueued := hsends n u event hsend
      · exact ho.sends i agenda n u event hme hsend
      · exact hqueued
    · exact ho.sends j agenda' n u event hold hsend
  quiet n u hu hphase := by
    obtain ⟨hlength, hwaiting⟩ := hquiet n u hu hphase
    refine ⟨fun j agenda' hj => ?_, hwaiting⟩
    obtain ⟨-, old, hold, rfl⟩ | ⟨-, hold⟩ := getElem?_modify_cases hj
    · obtain rfl : agenda = old := by simpa [hme] using hold
      exact hlength
    · exact (ho.quiet n u hu hphase).1 j agenda' hold

/-- A unit that an event leaves is not known to be done with its events. -/
theorem received_ne (ho : Orderly L position o agendas ended) {n u : Nat}
    {unit : UnitOutline} (hme : agendas[i + 1]? = some (.event (.settle n u) :: rest))
    (hunit : o.unit? n u = some unit) : unit.received ≠ unit.finished := by
  have hbalance := ho.ledger.units n u (by simp [hunit])
  have hload := load_modify hme (fun _ => []) (Task.holds n u)
  have hcount : 0 < (Task.event (.settle n u) :: rest).countP (Task.holds n u) :=
    List.countP_pos_iff.mpr ⟨.event (.settle n u), by simp, by simp [Task.holds]⟩
  simp only [Outline.unitBalance, hunit, Option.elim_some, UnitOutline.balance] at hbalance
  rw [List.countP_nil] at hload
  omega

/-- Handling an event on a worker thread keeps the order. -/
theorem handles (ho : Orderly L position o agendas ended) (hchain : L.IsChain last)
    (hme : agendas[i + 1]? = some (task :: rest)) {e : Option Nat}
    (h : o.Handles task e o' todo) :
    Orderly L position o' (agendas.modify (i + 1) (todo ++ ·.tail))
      fun n => ended n + if e = some n then 1 else 0 := by
  have hrejected := ho.not_rejected hme h
  have hchain' : o.layout.IsChain last := ho.layout.symm ▸ hchain
  obtain ⟨loop?, hshaped, hfits⟩ := ho.threads i _ hme
  obtain ⟨loop, rfl⟩ : ∃ loop, loop? = some loop := by
    cases hshaped <;> exact ⟨_, rfl⟩
  have hafter := h.shaped hchain' hrejected hshaped
  have hsigns (n u : Nat) : (o'.unit? n u).map (·.signs) = (o.unit? n u).map (·.signs) := by
    obtain ⟨f, hunit, hf, -⟩ := h.unit?_eq hrejected n u
    simp [hunit, Function.comp_def, hf]
  refine ho.act hme h.layout_eq
    (ho.ledger.handles h hme hchain'.target?_ne ?_ hrejected) ?_ h.source?_eq
    (fun n u _ => hsigns n u) ⟨some loop, hafter, fun task htask => ?_⟩ (fun n u => ?_) ?_ ?_
  · rintro m payload continuation rfl
    obtain ⟨-, -, rank, -, -, -, hrank, -⟩ := ho.of_event hme
    simp [EventTask.rank?] at hrank
  · intro n u later hlater
    obtain ⟨f, hunit, hf, hcounts⟩ := h.unit?_eq hrejected n u
    obtain ⟨unit, hold, rfl⟩ := Option.map_eq_some_iff.mp (hunit.symm.trans hlater)
    have hholds := ho.units n u unit hold
    obtain hcounts | ⟨event, rfl⟩ | rfl := hcounts
    · refine hholds.congr (hf unit) fun hphase hqueued => ?_
      rw [(hcounts unit).1, (hcounts unit).2]
      rcases hphase with hphase | hphase
      · rw [hphase] at hholds
        exact hholds.2
      · rw [hphase] at hholds
        exact (hholds hqueued).2
    · refine hholds.congr (hf unit) fun hphase => ?_
      rw [ho.phase_eq_up hme rfl (ho.unit_lt hold)] at hphase
      simp at hphase
    · refine hholds.congr (hf unit) fun hphase hqueued => ?_
      rcases hphase with hphase | hphase
      · rw [hphase] at hholds
        exact absurd hholds.2 (ho.received_ne hme hold)
      · rw [hphase] at hholds
        exact absurd (hholds hqueued).2 (ho.received_ne hme hold)
  · exact (hfits task htask).congr (fun n u _ => ⟨hsigns n u, rfl⟩)
      fun t v _ => ⟨h.source?_eq t v, rfl⟩
  · rw [List.tail_cons, hafter.ownerOf_eq, hshaped.ownerOf_eq]
    exact id
  · intro n u event hsend
    rcases List.mem_append.mp hsend with hnew | hold
    · clear hsend
      cases h with
      | takeQueued m v event' unit hunit hqueued =>
        obtain ⟨rfl, rfl, rfl⟩ : n = m ∧ u = v ∧ event = event' := by simpa using hnew
        exact .inr (by rw [← ho.layout, Outline.isQueued_eq hunit, hqueued])
      | takeInline m v event' node | enqueue m v event' node =>
        cases hkind : node.kind <;> simp [onward, hkind, Task.dispatched] at hnew
      | _ => simp [Task.dispatched] at hnew
    · exact .inl (List.mem_cons_of_mem _ hold)
  · intro n u hu hphase
    exfalso
    cases h with
    | receive m v event node unit hnode hunit hwaiting =>
      have := (ho.quiet n u hu hphase).2 m v unit (by simp [Outline.unit?, hnode, hunit])
      omega
    | _ => exact ho.not_quiet hme hu hphase

/-- The thread whose first task is the task of a loop has nothing else to do. -/
theorem of_owner (ho : Orderly L position o agendas ended)
    (hme : agendas[i + 1]? = some (task :: rest)) {owner : Owner}
    (howner : task.owner? = some owner) :
    rest = [] ∧ ownerOf [task] = some owner ∧ Fits o position (i + 1) task := by
  obtain ⟨loop, hshaped, hfits⟩ := ho.threads i _ hme
  obtain ⟨rfl, rfl, -⟩ | ⟨loop, owner', -, -, hfollows, -⟩ := hshaped.cons_cases
  · exact ⟨rfl, by simpa [ownerOf] using howner, hfits task rfl⟩
  · cases task <;> first | exact hfollows.elim | simp [Task.owner?] at howner

/-- A turn of a loop that does not show in the outline keeps the order. -/
theorem turn {f : List Task → List Task} {owner : Owner} (loop : Option Task)
    (ho : Orderly L position o agendas ended) (hme : agendas[i + 1]? = some [task])
    (howner : task.owner? = some owner) (hlight : ∀ later ∈ f [task], later.IsLight)
    (hshaped : Shaped loop (f [task])) (hloop : ∀ next, loop = some next → next.owner? = some owner)
    (hfits : ∀ next, loop = some next → Fits o position (i + 1) next)
    (hlength : ∀ n u, u < L.units n →
      position.phase n u = .fresh ∨ position.phase n u = .launching → (f [task]).length ≤ 1) :
    Orderly L position o (agendas.modify (i + 1) f) ended := by
  have hsends {n u : Nat} {event : Event} (hsend : .event (.send n u event) ∈ f [task]) :
      False := by
    have := (hlight _ hsend).2.1 n u
    simp [Task.holds] at this
  refine ho.act hme rfl (ho.ledger.light hme f ?_ hlight) ho.units (fun _ _ => rfl)
    (fun _ _ _ => rfl) ⟨loop, hshaped, hfits⟩ (fun n u hnu => ?_)
    (fun n u event hsend => (hsends hsend).elim)
    fun n u hu hphase => ⟨hlength n u hu hphase, (ho.quiet n u hu hphase).2⟩
  · simpa using isLight_of_owner howner
  · rw [hshaped.ownerOf_eq] at hnu
    cases loop with
    | none => simp at hnu
    | some next =>
      rw [Option.bind_some, hloop next rfl] at hnu
      simpa [ownerOf, howner] using hnu

/-- A turn of the loop of a worker that changes the signs of its unit keeps the order. -/
theorem turnSigned {f : List Task → List Task} {n u : Nat} {g : Signs → Signs}
    (loop : Option Task) (ho : Orderly L position o agendas ended)
    (hme : agendas[i + 1]? = some [task]) (howner : task.owner? = some (.worker n u))
    (hf : f [task] = loop.toList)
    (hloop : ∀ next, loop = some next → next.owner? = some (.worker n u))
    (hunit : ∀ unit, o.unit? n u = some unit → (position.phase n u).Holds unit →
      (position.phase n u).Holds { unit with signs := unit.signs.ofQueue g })
    (hfits : ∀ next, loop = some next → Fits (o.sign n u (.ofQueue g)) position (i + 1) next) :
    Orderly L position (o.sign n u (.ofQueue g)) (agendas.modify (i + 1) f) ended := by
  have hlight (later : Task) (hlater : later ∈ f [task]) : later.IsLight := by
    rw [hf, Option.mem_toList] at hlater
    exact isLight_of_owner (hloop later hlater)
  have hmine : ownerOf [task] = some (.worker n u) := by simpa [ownerOf] using howner
  have hshaped : Shaped loop (f [task]) := by
    cases loop with
    | none => exact hf ▸ .ended
    | some next => exact hf ▸ .loop (hloop next rfl)
  refine ho.act hme (Outline.layout_sign fun _ => by simp)
    ((ho.ledger.light hme f (by simpa using isLight_of_owner howner) hlight).sign n u
      fun _ => by simp)
    (fun m v later hlater => ?_) (fun _ _ => rfl) (fun m v hmv => ?_) ⟨loop, hshaped, hfits⟩
    (fun m v hmv => ?_) (fun m v event hsend => ?_) fun m v hv hphase => ⟨?_, ?_⟩
  · rw [Outline.sign, Outline.unit?_changeUnit] at hlater
    obtain ⟨unit, hold, rfl⟩ := Option.map_eq_some_iff.mp hlater
    have hholds := ho.units m v unit hold
    by_cases hnm : n = m ∧ u = v
    · obtain ⟨rfl, rfl⟩ := hnm
      simpa using hunit unit hold hholds
    · simpa [hnm] using hholds
  · have hne : ¬ (n = m ∧ u = v) := by
      rintro ⟨rfl, rfl⟩
      exact hmv hmine
    simp [Outline.sign, Outline.unit?_changeUnit, hne]
  · rw [hshaped.ownerOf_eq] at hmv
    cases loop with
    | none => simp at hmv
    | some next =>
      rw [Option.bind_some, hloop next rfl] at hmv
      rwa [hmine]
  · have := (hlight _ hsend).2.1 m v
    simp [Task.holds] at this
  · rw [hf]
    cases loop <;> simp
  · intro k w later hlater
    rw [Outline.sign, Outline.unit?_changeUnit] at hlater
    obtain ⟨unit, hold, rfl⟩ := Option.map_eq_some_iff.mp hlater
    have := (ho.quiet m v hv hphase).2 k w unit hold
    split <;> exact this

/-- A turn of the loop of a worker after which its loop goes on keeps the order. -/
theorem turnTo {owner : Owner} {next : Task} (ho : Orderly L position o agendas ended)
    (hme : agendas[i + 1]? = some [task]) (howner : task.owner? = some owner)
    (hnext : next.owner? = some owner) (hfits : Fits o position (i + 1) next) :
    Orderly L position o (agendas.modify (i + 1) ([next] ++ ·.tail)) ended := by
  refine ho.turn (some next) hme howner ?_ (.loop hnext) ?_ ?_ fun n u _ _ => by simp
  · simpa using isLight_of_owner hnext
  · rintro _ ⟨⟩
    exact hnext
  · rintro _ ⟨⟩
    exact hfits

/-- A worker that finds itself disconnected or dismissed is done with its events. -/
theorem phase_eq_idle (ho : Orderly L position o agendas ended) {n u : Nat}
    {unit : UnitOutline} (hunit : o.unit? n u = some unit) (hworks : unit.Works)
    (hover : unit.signs.connected = false ∨ unit.signs.dismissed = true) :
    position.phase n u = .idle := by
  have hholds := ho.units n u unit hunit
  obtain ⟨hqueued, halive⟩ := hworks
  cases hphase : position.phase n u with
  | idle => rfl
  | fresh | stopped =>
    rw [hphase] at hholds
    simp [(hholds hqueued).1] at halive
  | launching =>
    rw [hphase] at hholds
    simp [hholds.2.1, hholds.2.2.1] at hover
  | up =>
    rw [hphase] at hholds
    simp [(hholds.2 hqueued).1, (hholds.2 hqueued).2.1] at hover

/-- The thread of a source goes on. -/
theorem fits_source {task next : Task} {t v : Nat}
    (hfits : Fits o position (i + 1) task) (howner : task.owner? = some (.source t v))
    (hnext : next.owner? = some (.source t v)) : Fits o position (i + 1) next := by
  cases hfits with
  | prepareWorker | receive | checkDismissed | finishWorker => simp [Task.owner?] at howner
  | ofSource _ s r source howner' hsource hphase =>
    obtain ⟨rfl, rfl⟩ : s = t ∧ r = v := by simpa [howner, eq_comm] using howner'
    exact .ofSource next s r source hnext hsource hphase

/-- As long as some unit is not up there are no threads of sources. -/
theorem not_quiet_source (hfits : Fits o position (i + 1) task) {t v n u : Nat}
    (howner : task.owner? = some (.source t v)) :
    ¬ (position.phase n u = .fresh ∨ position.phase n u = .launching) := fun hphase =>
  hfits.not_absent howner (Position.source_of_unstarted hphase t v)

/-- A turn of the loop of a worker thread keeps the order. -/
theorem turns (ho : Orderly L position o agendas ended)
    (hme : agendas[i + 1]? = some (task :: rest)) (h : o.Turns task o' todo) :
    Orderly L position o' (agendas.modify (i + 1) (todo ++ ·.tail)) ended := by
  cases h with
  | prepareAgain n u asked =>
    obtain ⟨rfl, -, hfits⟩ := ho.of_owner hme rfl
    refine ho.turnTo hme rfl rfl ?_
    cases hfits with
    | prepareWorker _ _ _ unit hunit hworks hready hphase =>
      exact .prepareWorker n u true unit hunit hworks hready hphase
    | ofSource _ t v source howner => simp [Task.owner?] at howner
  | ready n u asked =>
    obtain ⟨rfl, -, hfits⟩ := ho.of_owner hme rfl
    cases hfits with
    | ofSource _ t v source howner => simp [Task.owner?] at howner
    | prepareWorker _ _ _ unit hunit hworks hready hphase =>
      refine ho.turnSigned (some (.unit (.receive n u))) hme rfl rfl ?_ ?_ ?_
      · rintro _ ⟨⟩
        rfl
      · intro unit' _ hholds
        rw [hphase] at hholds ⊢
        obtain ⟨hqueued, hconnected, hdismissed, -⟩ := hholds
        simp [Phase.Holds, Signs.ofQueue, hqueued, hconnected, hdismissed]
      · rintro _ ⟨⟩
        refine .receive n u _ (by rw [Outline.sign, Outline.unit?_changeUnit, hunit]; rfl) ?_
        simp [UnitOutline.Works, Signs.ofQueue, hworks.1]
  | unfit n u asked =>
    obtain ⟨rfl, -, hfits⟩ := ho.of_owner hme rfl
    cases hfits with
    | ofSource _ t v source howner => simp [Task.owner?] at howner
    | prepareWorker _ _ _ unit hunit hworks hready hphase =>
      refine ho.turnSigned none hme rfl rfl (by simp) ?_ (by simp)
      intro unit' _ hholds
      rw [hphase] at hholds ⊢
      obtain ⟨hqueued, hconnected, hdismissed, -⟩ := hholds
      simp [Phase.Holds, Signs.ofQueue, hqueued, hconnected, hdismissed]
  | disconnected n u unit hunit hsigns =>
    obtain ⟨rfl, -, hfits⟩ := ho.of_owner hme rfl
    cases hfits with
    | ofSource _ t v source howner => simp [Task.owner?] at howner
    | receive _ _ unit' hunit' hworks =>
      obtain rfl : unit = unit' := by simpa [hunit] using hunit'
      exact ho.turnTo hme rfl rfl (.finishWorker n u false unit hunit hworks
        (ho.phase_eq_idle hunit hworks (.inl hsigns)))
  | look n u =>
    obtain ⟨rfl, -, hfits⟩ := ho.of_owner hme rfl
    refine ho.turnTo hme rfl rfl ?_
    cases hfits with
    | ofSource _ t v source howner => simp [Task.owner?] at howner
    | receive _ _ unit hunit hworks => exact .checkDismissed n u unit hunit hworks
  | dismissed n u unit hunit hsigns =>
    obtain ⟨rfl, -, hfits⟩ := ho.of_owner hme rfl
    cases hfits with
    | ofSource _ t v source howner => simp [Task.owner?] at howner
    | checkDismissed _ _ unit' hunit' hworks =>
      obtain rfl : unit = unit' := by simpa [hunit] using hunit'
      exact ho.turnTo hme rfl rfl (.finishWorker n u false unit hunit hworks
        (ho.phase_eq_idle hunit hworks (.inr hsigns)))
  | stay n u =>
    obtain ⟨rfl, -, hfits⟩ := ho.of_owner hme rfl
    refine ho.turnTo hme rfl rfl ?_
    cases hfits with
    | ofSource _ t v source howner => simp [Task.owner?] at howner
    | checkDismissed _ _ unit hunit hworks => exact .receive n u unit hunit hworks
  | finishAgain n u asked =>
    obtain ⟨rfl, -, hfits⟩ := ho.of_owner hme rfl
    refine ho.turnTo hme rfl rfl ?_
    cases hfits with
    | ofSource _ t v source howner => simp [Task.owner?] at howner
    | finishWorker _ _ _ unit hunit hworks hphase =>
      exact .finishWorker n u true unit hunit hworks hphase
  | finished n u asked =>
    obtain ⟨rfl, -, hfits⟩ := ho.of_owner hme rfl
    cases hfits with
    | ofSource _ t v source howner => simp [Task.owner?] at howner
    | finishWorker _ _ _ unit hunit hworks hphase =>
      refine ho.turnSigned none hme rfl rfl (by simp) ?_ (by simp)
      intro unit' _ hholds
      rw [hphase] at hholds ⊢
      exact ⟨by simp [hholds.1], hholds.2⟩
  | goOn t v task next howner hnext =>
    obtain ⟨rfl, -, hfits⟩ := ho.of_owner hme howner
    exact ho.turnTo hme howner hnext (fits_source hfits howner hnext)
  | emit t v payload continuation task next howner hnext =>
    obtain ⟨rfl, -, hfits⟩ := ho.of_owner hme howner
    refine ho.turn (some next) hme howner ?_ ?_ ?_ ?_ fun n u hu hphase =>
      absurd hphase (not_quiet_source hfits howner)
    · have hmake : (Task.event (.make (.trigger t) payload continuation)).IsLight :=
        ⟨fun _ => rfl, fun _ _ => rfl, fun _ _ => rfl⟩
      simpa using ⟨hmake, isLight_of_owner hnext⟩
    · exact .cons hnext ⟨0, rfl, Nat.le_refl 0⟩ (.loop hnext)
    · rintro _ ⟨⟩
      exact hnext
    · rintro _ ⟨⟩
      exact fits_source hfits howner hnext
  | ended t v task howner =>
    obtain ⟨rfl, -, -⟩ := ho.of_owner hme howner
    exact ho.turn none hme howner (by simp) .ended (by simp) (by simp) (by simp)

/-- A worker thread that breaks down in the loop of a source keeps the order. -/
theorem turnsOver (ho : Orderly L position o agendas ended)
    (hme : agendas[i + 1]? = some (task :: rest)) {t v : Nat}
    (howner : task.owner? = some (.source t v)) :
    Orderly L position o (agendas.modify (i + 1) fun _ => []) ended := by
  obtain ⟨rfl, -, -⟩ := ho.of_owner hme howner
  exact ho.turn none hme howner (by simp) .ended (by simp) (by simp) (by simp)

/-- A worker thread that takes note of an answer keeps the order. -/
theorem notes (ho : Orderly L position o agendas ended) {answer : Answer}
    (hme : agendas[i + 1]? = some (.answer answer :: rest)) :
    Orderly L position o (agendas.modify (i + 1) ([] ++ ·.tail)) ended := by
  obtain ⟨loop?, hshaped, hfits⟩ := ho.threads i _ hme
  obtain ⟨-, -, owner, howner⟩ | ⟨loop, owner, rfl, howner, -, hrest, -⟩ := hshaped.cons_cases
  · simp [Task.owner?] at howner
  have hledger : Ledger o (agendas.modify (i + 1) ([] ++ ·.tail)) ended := by
    have hload {p : Task → Bool} (hp : p (.answer answer) = false) :
        load (agendas.modify (i + 1) ([] ++ ·.tail)) p = load agendas p := by
      simpa [List.countP_singleton, hp] using load_step hme [] p
    exact ho.ledger.congr_load (fun _ => hload rfl) (fun _ _ => hload rfl) fun _ _ => hload rfl
  refine ho.act hme rfl hledger ho.units (fun _ _ => rfl) (fun _ _ _ => rfl)
    ⟨some loop, hrest, hfits⟩ (fun n u => ?_) (fun n u event hsend => ?_)
    fun n u hu hphase => ?_
  · rw [List.nil_append, List.tail_cons, hrest.ownerOf_eq, hshaped.ownerOf_eq]
    exact id
  · exact .inl (List.mem_cons_of_mem _ hsend)
  · obtain ⟨hlength, hwaiting⟩ := ho.quiet n u hu hphase
    have := hlength i _ hme
    exact ⟨by simp only [List.length_cons, List.nil_append, List.tail_cons] at this ⊢; omega,
      hwaiting⟩

end Orderly

end EventPipeline
