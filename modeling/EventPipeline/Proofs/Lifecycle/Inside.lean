import EventPipeline.Proofs.Lifecycle.Rounds

/-!
# `EventPipeline.Proofs.Lifecycle.Inside`: who works at a queued unit

A task comes to a unit from outside, it puts an event into the queue of the unit, or it works at
the unit (`Task.inside?`). Once the processor of a queued unit was given away, nobody begins to
work at the unit who did not do so before (`Turn.inside`): an event that is offered goes into the
queue, and a second start is refused. What a turn that is about something else does not touch is
said by `Turn.unit?_kept` and `Turn.node_kept`, also for turns of a supervisor.
-/

set_option autoImplicit false

namespace EventPipeline

variable {P : Plugins}

namespace Task

variable {task next : Task} {n u : Nat}

/-- The plugin at which a task works. -/
def inside? : Task → Option Instance
  | event (.send ..) => none
  | task => if task.approaches then none else task.subject?

/-- A task works at nothing but the plugin that it is about. -/
theorem subject?_of_inside {i : Instance} (h : task.inside? = some i) : task.subject? = some i := by
  unfold inside? at h
  split at h
  · cases h
  · split at h
    · cases h
    · exact h

/-- Who works at a plugin does not come to it from outside. -/
theorem not_approaches_of_inside {i : Instance} (h : task.inside? = some i) :
    task.approaches = false := by
  unfold inside? at h
  split at h
  · cases h
  · split at h
    · cases h
    · rename_i happroaches
      exact Bool.eq_false_iff.mpr happroaches

/-- What a task can have to do with a unit. -/
theorem inside?_cases (h : task.subject? = some (.processor n u)) :
    task.inside? = some (.processor n u) ∨ (∃ event, task = .event (.offer n u event)) ∨
      (∃ event, task = .event (.send n u event)) ∨ task = .unit (.startUnit n u) ∨
      task = .unit (.stopUnit n u) := by
  cases task with
  | event part =>
    cases part with
    | offer m i event =>
      cases h
      exact .inr (.inl ⟨event, rfl⟩)
    | send m i event =>
      cases h
      exact .inr (.inr (.inl ⟨event, rfl⟩))
    | occupy | process | settle => exact .inl h
    | _ => cases h
  | unit part =>
    cases part with
    | startUnit m i =>
      cases h
      exact .inr (.inr (.inr (.inl rfl)))
    | stopUnit m i =>
      cases h
      exact .inr (.inr (.inr (.inr rfl)))
    | _ => exact .inl h
  | source part => cases part <;> cases h
  | _ => cases h

/-- What delivers an event is about one of the units of the node, from outside. -/
theorem delivers?_cases (h : task.delivers? = some n) :
    ∃ u event, task = .event (.offer n u event) ∨ task = .event (.send n u event) := by
  cases task with
  | event part =>
    cases part with
    | offer m i event =>
      cases h
      exact ⟨i, event, .inl rfl⟩
    | send m i event =>
      cases h
      exact ⟨i, event, .inr rfl⟩
    | _ => cases h
  | _ => cases h

/-- Who delivers an event does not work at a unit. -/
theorem inside?_of_delivers (h : task.delivers? = some n) : task.inside? = none := by
  obtain ⟨u, event, rfl | rfl⟩ := delivers?_cases h <;> rfl

/-- An event is brought to a node with one kind of task. -/
theorem enters?_cases (h : task.enters? = some n) : ∃ event, task = .event (.enter n event) := by
  cases task with
  | event part =>
    cases part with
    | enter m event =>
      cases h
      exact ⟨event, rfl⟩
    | _ => cases h
  | _ => cases h

/-- An event is delivered by who accepts it. -/
theorem deals?_cases (h : task.deals? = some n) :
    task.enters? = some n ∨ ∃ u event, task = .event (.offer n u event) := by
  cases task with
  | event part =>
    cases part with
    | enter m event =>
      exact .inl h
    | offer m i event =>
      cases h
      exact .inr ⟨i, event, rfl⟩
    | _ => cases h
  | _ => cases h

/-- A new thread has to do with a plugin only if somebody takes care of the life of it. -/
theorem Spawns.summons {launches : Nat} {i : Instance} (h : task.Spawns launches next)
    (hsubject : next.subject? = some i) : task.summons? = some i := by
  obtain hnone | hsummons := h.2.1
  · rw [h.2.2.2, hsubject] at hnone
    cases hnone
  · rw [← hsummons, h.2.2.2, hsubject]

end Task

namespace World

variable {w w' : World P} {me n u : Nat} {task : Task} {rest : List Task}
  {progress : Progress P} {expired : Bool} {unit : ExecutionUnit P} {state : QueueState}

/-! ## Queued units -/

/-- What an offer to a queued unit comes to. -/
theorem offer_of_queued {event : Event} (hunit : w.unit? n u = some unit)
    (hstate : unit.state = .queued state) (h : w.offer n u event = some progress) :
    (state.accepting = false ∧ progress.todo = [.dispatched .rejected] ∧
      progress.world.unit? n u = some unit) ∨
    (state.accepting = true ∧ progress.todo = [.event (.send n u event)] ∧
      progress.world.unit? n u =
        some (unit.receive.changeQueue fun s => { s with sending := s.sending + 1 })) := by
  simp only [offer, reject, Option.bind_eq_bind, Option.bind_eq_some_iff] at h
  obtain ⟨node, hnode, found, hfound, h⟩ := h
  obtain rfl : unit = found := by
    rw [unit?, hnode, Option.bind_some, hfound] at hunit
    exact (Option.some.inj hunit).symm
  simp only [ExecutionUnit.offer, hstate] at h
  cases haccepting : state.accepting with
  | false =>
    rw [haccepting] at h
    cases h
    refine .inl ⟨rfl, rfl, ?_⟩
    have hsame := unit?_changeNode (w := w) (m := n)
      (f := fun node => { node with failed := node.failed + 1 }) (fun _ => rfl) n u
    exact hsame.trans hunit
  | true =>
    rw [haccepting] at h
    cases h
    refine .inr ⟨rfl, rfl, ?_⟩
    show (World.changeUnit ..).unit? n u = _
    rw [unit?_changeUnit, if_pos ⟨rfl, rfl⟩, hunit, Option.map_some]

/-- What putting an event into a queue comes to, as long as the worker is there. -/
theorem send_of_queued {event : Event} (hunit : w.unit? n u = some unit)
    (hstate : unit.state = .queued state) (halive : state.alive = true)
    (h : w.send n u event = some progress) :
    (∀ next ∈ progress.todo, next.inside? = none ∧ next.delivers? = none) ∧
      progress.world.unit? n u = some (unit.changeQueue fun s =>
        { s with sending := s.sending - 1, queue := s.queue ++ [event] }) := by
  simp only [send, reject, Option.bind_eq_bind, Option.bind_eq_some_iff] at h
  obtain ⟨node, hnode, found, hfound, h⟩ := h
  obtain rfl : unit = found := by
    rw [unit?, hnode, Option.bind_some, hfound] at hunit
    exact (Option.some.inj hunit).symm
  simp only [ExecutionUnit.send, ExecutionUnit.changeQueue, hstate, halive, if_true] at h
  cases h
  refine ⟨fun next hnext => ?_, ?_⟩
  · have hnext : next ∈ accepted node n event := hnext
    unfold accepted at hnext
    split at hnext
    · obtain rfl | rfl := by simpa using hnext
      · exact ⟨rfl, rfl⟩
      · exact ⟨rfl, rfl⟩
    · obtain rfl := by simpa using hnext
      exact ⟨rfl, rfl⟩
  · show (World.changeUnit ..).unit? n u = _
    rw [unit?_changeUnit, if_pos ⟨rfl, rfl⟩, hunit, Option.map_some]
    simp [ExecutionUnit.changeQueue, hstate, halive]

/-- A queued unit, seen from the mark that its processor was given away. -/
theorem taken?_of_queued (hunit : w.unit? n u = some unit) (hstate : unit.state = .queued state) :
    w.taken? n u = some state.taken := by
  rw [taken?, hunit, Option.bind_some, hstate]
  rfl

/-! ## What tasks lead to -/

/-- Nobody works at a plugin because an event is put into its queue. -/
theorem inside?_of_send {event : Event} (h : w.send n u event = some progress) :
    ∀ next ∈ progress.todo, next.inside? = none := by
  simp only [send, reject, Option.bind_eq_bind, Option.bind_eq_some_iff] at h
  obtain ⟨node, hnode, unit, hunit, h⟩ := h
  intro next hnext
  split at h
  · cases h
    have hnext : next ∈ accepted node n event := hnext
    unfold accepted at hnext
    split at hnext
    · obtain rfl | rfl := by simpa using hnext
      · rfl
      · rfl
    · obtain rfl := by simpa using hnext
      rfl
  · cases h
    obtain rfl := List.mem_singleton.mp hnext
    rfl

/-- Nobody works at a plugin because an event is offered to its unit, if that has a queue. -/
theorem inside?_of_offer {event : Event} (hunit : w.unit? n u = some unit)
    (hstate : unit.state = .queued state) (h : w.offer n u event = some progress) :
    ∀ next ∈ progress.todo, next.inside? = none := by
  intro next hnext
  obtain ⟨-, htodo, -⟩ | ⟨-, htodo, -⟩ := offer_of_queued hunit hstate h
  · rw [htodo] at hnext
    obtain rfl := List.mem_singleton.mp hnext
    rfl
  · rw [htodo] at hnext
    obtain rfl := List.mem_singleton.mp hnext
    rfl

/-- Who works at a unit after a task whose processor was given away did so before the task, unless
the task stops the unit. -/
theorem inside?_of_todo (htaken : w.taken? n u = some true)
    (h : w.perform me expired task = some progress) (hstop : task ≠ .unit (.stopUnit n u))
    {next : Task} (hnext : next ∈ progress.todo) (hinside : next.inside? = some (.processor n u)) :
    task.inside? = some (.processor n u) := by
  obtain ⟨unit, state, hunit, hstate, htrue⟩ := exists_queued_of_taken? htaken
  have hbusy : next.inside? ≠ none := by
    rw [hinside]
    rintro ⟨⟩
  obtain hnone | hsame | happroaches := ((perform_reaches h).todo next hnext).1
  · rw [Task.subject?_of_inside hinside] at hnone
    cases hnone
  · rw [Task.subject?_of_inside hinside] at hsame
    -- Five tasks are about a unit. Those that come to it from outside lead to no work at it.
    obtain hinside | ⟨event, rfl⟩ | ⟨event, rfl⟩ | rfl | rfl := Task.inside?_cases hsame.symm
    · exact hinside
    · exact absurd (inside?_of_offer hunit hstate h next hnext) hbusy
    · exact absurd (inside?_of_send h next hnext) hbusy
    · obtain ⟨error, rfl⟩ := startUnit_of_taken htaken h
      obtain rfl := List.mem_singleton.mp hnext
      cases hinside
    · exact absurd rfl hstop
  · rw [Task.not_approaches_of_inside hinside] at happroaches
    cases happroaches

namespace Turn

variable (h : w.Turn me expired task rest progress w')
include h

/-- Nobody begins to work at a unit with a turn that is about something else. -/
theorem inside_ne {p : Nat → Task → Prop} (hne : task.subject? ≠ some (.processor n u))
    (hp : w.Tasks fun j task => task.inside? = some (.processor n u) → p j task) :
    w'.Tasks fun j task => task.inside? = some (.processor n u) → p j task := by
  refine h.tasks hp (fun next _ hstems hinside => ?_) fun j next _ hspawns hinside => ?_
  · obtain hnone | hsame | happroaches := hstems.1
    · rw [Task.subject?_of_inside hinside] at hnone
      cases hnone
    · rw [Task.subject?_of_inside hinside] at hsame
      exact absurd hsame.symm hne
    · rw [Task.not_approaches_of_inside hinside] at happroaches
      cases happroaches
  · have hsummons := Task.Spawns.summons hspawns (Task.subject?_of_inside hinside)
    obtain rfl | rfl := Task.summons?_cases hsummons
    · exact absurd rfl hne
    · exact absurd rfl hne

/-- Nobody begins to work at a unit whose processor was given away, unless the turn stops it. -/
theorem inside {p : Nat → Task → Prop} (htaken : w.taken? n u = some true)
    (hstop : task ≠ .unit (.stopUnit n u))
    (hp : w.Tasks fun j task => task.inside? = some (.processor n u) → p j task)
    (htodo : ∀ next ∈ progress.todo, task.inside? = some (.processor n u) →
      next.inside? = some (.processor n u) → p me next) :
    w'.Tasks fun j task => task.inside? = some (.processor n u) → p j task := by
  by_cases hsubject : task.subject? = some (.processor n u)
  case neg => exact h.inside_ne hsubject hp
  have hnext : ∀ next ∈ progress.todo, next.inside? = some (.processor n u) → p me next := by
    intro next hnext hinside
    exact htodo next hnext (inside?_of_todo htaken h.performs hstop hnext hinside) hinside
  by_cases hstart : task = .unit (.startUnit n u)
  · -- The processor is gone, so the start fails and gives it to no new worker.
    subst hstart
    obtain ⟨error, rfl⟩ := startUnit_of_taken htaken h.performs
    exact h.tasks_alone rfl hp hnext
  · refine h.tasks hp (fun next hmem _ => hnext next hmem) fun j next _ hspawns hinside => ?_
    have hsummons := Task.Spawns.summons hspawns (Task.subject?_of_inside hinside)
    obtain rfl | rfl := Task.summons?_cases hsummons
    · exact absurd rfl hstart
    · exact absurd rfl hstop

/-- A turn of a supervisor or of a timer leaves all units alone. -/
theorem roster_kept (hplain : task.isPlain = false) {node : Node P}
    (hnode : w.nodes[n]? = some node) :
    ∃ later, w'.nodes[n]? = some later ∧ later.roster = node.roster := by
  obtain ⟨tail, htail⟩ := (perform_skirts hplain h.performs).rosters
  have hroster : (w.nodes.map Node.roster)[n]? = some node.roster := by
    rw [List.getElem?_map, hnode, Option.map_some]
  have hlater : (w'.nodes.map Node.roster)[n]? = some node.roster := by
    have hlt := (List.getElem?_eq_some_iff.mp hroster).1
    rw [h.nodes, ← htail, List.getElem?_append_left hlt, hroster]
  rw [List.getElem?_map] at hlater
  exact Option.map_eq_some_iff.mp hlater

/-- A turn that is about something else leaves a unit as it is. -/
theorem unit?_kept (hunit : w.unit? n u = some unit)
    (hne : task.subject? ≠ some (.processor n u)) : w'.unit? n u = some unit := by
  cases hplain : task.isPlain with
  | true => rw [h.unit?_eq hplain hne, hunit]
  | false =>
    obtain ⟨node, hnode, hunit⟩ := Option.bind_eq_some_iff.mp hunit
    obtain ⟨later, hlater, hroster⟩ := h.roster_kept hplain hnode
    have hunits : later.units = node.units := congrArg (·.2.1) hroster
    rw [World.unit?, hlater, Option.bind_some, hunits, hunit]

/-- A turn that brings no event to a node leaves it with as many units, and it has accepted no more
events. -/
theorem node_kept {node : Node P} (hnode : w.nodes[n]? = some node)
    (henters : task.enters? ≠ some n) :
    ∃ later, w'.nodes[n]? = some later ∧ later.units.length = node.units.length ∧
      later.accepted = node.accepted := by
  cases hplain : task.isPlain with
  | false =>
    obtain ⟨later, hlater, hroster⟩ := h.roster_kept hplain hnode
    exact ⟨later, hlater, congrArg (·.2.1.length) hroster, congrArg (·.2.2) hroster⟩
  | true =>
    have haccepted := h.reaches.accepted hplain n fun event hsame => henters (hsame ▸ rfl)
    have hframe := congrArg (·.1[n]?) (h.reaches.frame hplain)
    rw [← h.nodes, hnode, Option.map_some] at haccepted
    obtain ⟨later, hlater, haccepted⟩ := Option.map_eq_some_iff.mp haccepted
    simp only [World.frame, List.getElem?_map, ← h.nodes, hlater, hnode, Option.map_some,
      Option.some.injEq, Prod.mk.injEq] at hframe
    exact ⟨later, hlater, hframe.2.2, haccepted⟩

/-- The processor of a unit stays given away. -/
theorem taken?_kept (htaken : w.taken? n u = some true) : w'.taken? n u = some true := by
  cases hplain : task.isPlain with
  | true => exact h.taken? hplain htaken fun _ => rfl
  | false =>
    obtain ⟨unit, hunit, hmark⟩ := Option.bind_eq_some_iff.mp htaken
    have hne : task.subject? ≠ some (.processor n u) := by
      cases task with
      | control | timer => rintro ⟨⟩
      | _ => cases hplain
    rw [World.taken?, h.unit?_kept hunit hne, Option.bind_some, hmark]

/-- Nobody delivers an event to a node with a turn, unless the node or one of its units accepts
one. -/
theorem delivers {p : Nat → Task → Prop} (hdeals : task.deals? ≠ some n)
    (hp : w.Tasks fun j task => task.delivers? = some n → p j task) :
    w'.Tasks fun j task => task.delivers? = some n → p j task := by
  have hnext (next : Task) (hstems : task.StemsFrom w.launches.length next) :
      next.delivers? ≠ some n := by
    intro hdelivers
    obtain hnone | hsame := hstems.2.2.2.2
    · rw [hnone] at hdelivers
      cases hdelivers
    · exact hdeals (hsame.symm.trans hdelivers)
  exact h.tasks hp (fun next _ hstems hdelivers => absurd hdelivers (hnext next hstems))
    fun j next _ hspawns hdelivers => absurd hdelivers (hnext next hspawns.1)

end Turn

/-- What becomes of an event that is brought to a node: the node accepts it and offers it to the
unit whose turn it is, or no unit hears of it. -/
theorem Turn.enter_cases {event : Event}
    (h : w.Turn me expired (.event (.enter n event)) rest progress w') {node : Node P}
    (hnode : w.nodes[n]? = some node) :
    ∃ later, w'.nodes[n]? = some later ∧ later.units.length = node.units.length ∧
      (w.accepts? n (.event (.enter n event)) = none ∧ later.accepted = node.accepted ∧
          (∀ next ∈ progress.todo, next.delivers? = none) ∨
        ∃ handed, w.accepts? n (.event (.enter n event)) = some handed ∧
          later.accepted = node.accepted + 1 ∧
          progress.todo = [.event (.offer n (node.accepted % node.units.length) handed)]) := by
  have henter : w.enter n event = some progress := h.performs
  have hlookup {f g : Node P → Node P}
      (hnodes : progress.world.nodes = (w.nodes.modify n f).modify n g) :
      w'.nodes[n]? = some (g (f node)) := by
    rw [h.nodes, hnodes, List.getElem?_modify_eq, List.getElem?_modify_eq, hnode]
    rfl
  simp only [enter, hnode, Option.bind_eq_bind, Option.bind_some] at henter
  cases hverdict : (node.judge event.payload).1 with
  | error error =>
    rw [hverdict] at henter
    cases henter
    refine ⟨_, hlookup (nodes_tell ..), rfl, .inl ⟨?_, rfl, ?_⟩⟩
    · simp [accepts?, hnode, hverdict]
    · simp [Progress.todo, Task.dispatched, Task.delivers?]
  | ok verdict =>
    rw [hverdict] at henter
    cases verdict with
    | drop =>
      cases henter
      refine ⟨_, hlookup (nodes_tell ..), rfl, .inl ⟨?_, rfl, ?_⟩⟩
      · simp [accepts?, hnode, hverdict]
      · simp [Progress.todo, Task.dispatched, Task.delivers?]
    | continue_ =>
      cases henter
      refine ⟨_, hlookup (List.modify_id ..).symm, rfl, .inl ⟨?_, rfl, ?_⟩⟩
      · simp [accepts?, hnode, hverdict]
      · simp [Progress.todo, Task.dispatched, Task.delivers?]
    | accept =>
      cases henter
      refine ⟨_, hlookup rfl, rfl, .inr ⟨_, ?_, rfl, rfl⟩⟩
      simp [accepts?, hnode, hverdict]

end World

end EventPipeline
