import EventPipeline.Proofs.Engine.Outline

/-!
# `EventPipeline.Proofs.Engine.Handling`: how events are handled, in outline

`Outline.Handles` lists everything that a task on the way of an event can do: how the
outline of the world changes, what the thread does next, and in which node a processor
ends the event, if one does. `performEvent_handles` and `receive_handles` show that the
steps of a world do nothing else.

What follows about counters and about the order of shutdown only looks at this list.
-/

set_option autoImplicit false

namespace EventPipeline

/-- What a thread does once a unit has taken an event. -/
def onward (kind : NodeKind) (n : Nat) (event : Event) : List Task :=
  (if kind = .sink then [.event (.emit (.node n) event)] else [])
    ++ [.dispatched .submitted]

section

variable {P : Plugins} (unit : ExecutionUnit P)

/-- A unit refuses an event if it does not accept any, and counts it otherwise. -/
theorem ExecutionUnit.offer_cases :
    (unit.offer = .refused ∧ unit.outline.signs.accepting = false) ∨
    (∃ later, unit.offer = .inline later ∧ unit.outline.signs.queued = false ∧
      later.outline = unit.outline.take) ∨
    (∃ later, unit.offer = .queued later ∧ unit.outline.signs.queued = true ∧
      later.outline = unit.outline.take) := by
  obtain ⟨name, processor, stats, state⟩ := unit
  cases state with
  | inline state =>
    cases hrunning : state.running with
    | true =>
      exact .inr (.inl ⟨_, by simp only [offer, hrunning, if_true]; rfl, rfl, rfl⟩)
    | false => exact .inl ⟨by simp [offer, hrunning], hrunning⟩
  | queued state =>
    cases haccepting : state.accepting with
    | true =>
      exact .inr (.inr ⟨_, by simp only [offer, haccepting, if_true]; rfl, rfl, rfl⟩)
    | false => exact .inl ⟨by simp [offer, haccepting], haccepting⟩

/-- A unit puts an event into its queue, or it has no worker and is done with the event. -/
theorem ExecutionUnit.send_cases (event : Event) :
    (∃ later, unit.send event = (true, later) ∧
      later.outline = unit.outline.enqueue) ∨
    (∃ later, unit.send event = (false, later) ∧ unit.outline.signs.alive = false ∧
      later.outline = unit.outline.finish) := by
  obtain ⟨name, processor, stats, state⟩ := unit
  cases state with
  | inline state => exact .inr ⟨_, rfl, rfl, rfl⟩
  | queued state =>
    cases halive : state.alive with
    | true =>
      refine .inl ⟨_, by simp only [send, changeQueue, halive, if_true]; rfl, ?_⟩
      simp [outline, UnitOutline.enqueue, UnitState.waiting, UnitState.signs, halive]
    | false =>
      refine .inr ⟨_, by simp only [send, changeQueue, halive]; rfl, halive, ?_⟩
      simp [outline, UnitOutline.finish, finish, UnitState.waiting, UnitState.signs, halive]

/-- A worker takes an event from its queue, or the queue is empty. -/
theorem ExecutionUnit.next_cases :
    (∃ event later, unit.next = .event event later ∧ 0 < unit.outline.waiting ∧
      later.outline = unit.outline.dequeue) ∨
    (unit.next = .disconnected ∧ unit.outline.signs.connected = false) ∨
    unit.next = .nothing := by
  obtain ⟨name, processor, stats, state⟩ := unit
  cases state with
  | inline state => exact .inr (.inl ⟨rfl, rfl⟩)
  | queued state =>
    cases hqueue : state.queue with
    | nil =>
      cases hconnected : state.connected with
      | true => exact .inr (.inr (by simp [next, hqueue, hconnected]))
      | false => exact .inr (.inl ⟨by simp [next, hqueue, hconnected], hconnected⟩)
    | cons event rest =>
      refine .inl ⟨event, _, by simp only [next, hqueue]; rfl, ?_, ?_⟩
      · simp [outline, UnitState.waiting, hqueue]
      · simp [outline, UnitOutline.dequeue, changeQueue, UnitState.waiting, UnitState.signs,
          hqueue]

end

/-- The ways to handle an event. -/
inductive Outline.Handles (o : Outline) : Task → Option Nat → Outline → List Task → Prop
  | make (g : GateId) (payload : Json) (continuation : Option Continuation) (event : Event) :
    Handles o (.event (.make g payload continuation)) none o [.event (.emit g event)]
  | lose (g : GateId) (event : Event) (h : o.target? g = some none) :
    Handles o (.event (.emit g event)) none o []
  | release (g : GateId) (event : Event) (target : Target)
    (h : o.target? g = some (some target)) (hout : ∀ m, target ≠ .node m) :
    Handles o (.event (.emit g event)) none (o.emit g) []
  | forward (g : GateId) (event : Event) (m : Nat)
    (h : o.target? g = some (some (.node m))) :
    Handles o (.event (.emit g event)) none (o.emit g)
      [.event (.enter m event), .event (.leave g)]
  | leave (g : GateId) : Handles o (.event (.leave g)) none o []
  | drop (n : Nat) (event : Event) :
    Handles o (.event (.enter n event)) none ((o.receive n).drop n) [.dispatched .dropped]
  | bypass (n : Nat) (event later : Event) :
    Handles o (.event (.enter n event)) none (o.receive n)
      [.event (.emit (.node n) later), .dispatched .bypassed]
  | accept (n u : Nat) (event later : Event) :
    Handles o (.event (.enter n event)) none (o.receive n) [.event (.offer n u later)]
  | refuse (n u : Nat) (event : Event) (unit : UnitOutline)
    (h : o.unit? n u = some unit) (hsigns : unit.signs.accepting = false) :
    Handles o (.event (.offer n u event)) none (o.fail n) [.dispatched .rejected]
  | takeInline (n u : Nat) (event : Event) (node : NodeOutline) (unit : UnitOutline)
    (hnode : o.nodes[n]? = some node) (hunit : node.units[u]? = some unit)
    (hsigns : unit.signs.queued = false) :
    Handles o (.event (.offer n u event)) none (o.take n u)
      ([.event (.occupy n u), .event (.process n u event false), .event (.settle n u)]
        ++ onward node.kind n event)
  | takeQueued (n u : Nat) (event : Event) (unit : UnitOutline)
    (h : o.unit? n u = some unit) (hsigns : unit.signs.queued = true) :
    Handles o (.event (.offer n u event)) none (o.take n u) [.event (.send n u event)]
  | enqueue (n u : Nat) (event : Event) (node : NodeOutline) (unit : UnitOutline)
    (hnode : o.nodes[n]? = some node) (hunit : node.units[u]? = some unit) :
    Handles o (.event (.send n u event)) none (o.enqueue n u) (onward node.kind n event)
  | bounce (n u : Nat) (event : Event) (unit : UnitOutline)
    (h : o.unit? n u = some unit) (hsigns : unit.signs.alive = false) :
    Handles o (.event (.send n u event)) none ((o.finish n u).fail n)
      [.dispatched .rejected]
  | occupy (n u : Nat) : Handles o (.event (.occupy n u)) none o []
  | wait (n u : Nat) (event : Event) (asked : Bool) :
    Handles o (.event (.process n u event asked)) none o [.event (.process n u event true)]
  | fail (n u : Nat) (event : Event) (asked : Bool) :
    Handles o (.event (.process n u event asked)) none (o.fail n) []
  | digest (n u : Nat) (event : Event) (asked : Bool) (ended : Option Nat)
    (node : NodeOutline) (hnode : o.nodes[n]? = some node) (hkind : node.kind = .sink)
    (hended : ended = none ∨ ended = some n) :
    Handles o (.event (.process n u event asked)) ended o []
  | pass (n u : Nat) (event later : Event) (asked : Bool) (node : NodeOutline)
    (hnode : o.nodes[n]? = some node) (hkind : node.kind = .transform) :
    Handles o (.event (.process n u event asked)) none o [.event (.emit (.node n) later)]
  | stop (n u : Nat) (event : Event) (asked : Bool) (node : NodeOutline)
    (hnode : o.nodes[n]? = some node) (hkind : node.kind = .transform) :
    Handles o (.event (.process n u event asked)) (some n) o []
  | settle (n u : Nat) : Handles o (.event (.settle n u)) none (o.finish n u) []
  | receive (n u : Nat) (event : Event) (node : NodeOutline) (unit : UnitOutline)
    (hnode : o.nodes[n]? = some node) (hunit : node.units[u]? = some unit)
    (hwaiting : 0 < unit.waiting) :
    Handles o (.unit (.receive n u)) none (o.dequeue n u)
      [.event (.process n u event false), .event (.settle n u), .unit (.receive n u)]

namespace Outline.Handles

variable {o o' : Outline} {task : Task} {ended : Option Nat} {todo : List Task}

/-- Handling an event does not change the layout. -/
theorem layout_eq (h : o.Handles task ended o' todo) : o'.layout = o.layout := by
  cases h <;> simp

/-- Handling an event does not change sources. -/
theorem source?_eq (h : o.Handles task ended o' todo) (t v : Nat) :
    o'.source? t v = o.source? t v := by
  cases h with
  | release g | forward g => exact source?_emit ..
  | _ => rfl

/-- Handling an event does not change the signs of a unit, and only a task that offers an
event to the unit or settles one changes its counters. -/
theorem unit?_eq (h : o.Handles task ended o' todo) (hrejected : .dispatched .rejected ∉ todo)
    (n u : Nat) :
    ∃ f : UnitOutline → UnitOutline, o'.unit? n u = (o.unit? n u).map f ∧
      (∀ unit, (f unit).signs = unit.signs) ∧
      ((∀ unit, (f unit).received = unit.received ∧ (f unit).finished = unit.finished) ∨
        (∃ event, task = .event (.offer n u event)) ∨ task = .event (.settle n u)) := by
  cases h with
  | make | lose | leave | occupy | wait | digest | pass | stop =>
    exact ⟨id, by simp, fun _ => rfl, .inl fun _ => ⟨rfl, rfl⟩⟩
  | release | forward | drop | bypass | accept | fail =>
    exact ⟨id, by simp, fun _ => rfl, .inl fun _ => ⟨rfl, rfl⟩⟩
  | refuse | bounce => simp at hrejected
  | takeInline m v event | takeQueued m v event =>
    refine ⟨_, unit?_changeUnit .., fun unit => ?_, ?_⟩
    · split <;> rfl
    · by_cases hmn : m = n ∧ v = u
      · exact .inr (.inl ⟨event, by rw [hmn.1, hmn.2]⟩)
      · exact .inl fun unit => by simp [hmn]
  | enqueue m v | receive m v =>
    refine ⟨_, unit?_changeUnit .., fun unit => ?_, .inl fun unit => ?_⟩
    · split <;> rfl
    · split <;> exact ⟨rfl, rfl⟩
  | settle m v =>
    refine ⟨_, unit?_changeUnit .., fun unit => ?_, ?_⟩
    · split <;> rfl
    · by_cases hmn : m = n ∧ v = u
      · exact .inr (.inr (by rw [hmn.1, hmn.2]))
      · exact .inl fun unit => by simp [hmn]

end Outline.Handles

namespace World

variable {P : Plugins} {w : World P}

/-- The node, if its processor ends an event with this reply. -/
def stopsAt? (n : Nat) : Reply NodeError Outcome → Option Nat
  | .returned (.stop _) => some n
  | _ => none

/-- The node whose processor ends the event of a task. -/
def endedBy? (w : World P) : Task → Option Nat
  | .event (.process n u event asked) =>
    match w.callProcessor n u (P.processor.process asked event.payload) with
    | some (.returned (.stop _), _) => some n
    | _ => none
  | _ => none

/-- A step that handles an event: it goes on, and apart from what shows in the outline it
leaves threads and streams alone. -/
inductive HandlesEvent (w : World P) (task : Task) : Progress P → Prop
  | goOn {w' : World P} {todo : List Task}
    (handles : w.outline.Handles task (w.endedBy? task) w'.outline todo)
    (threads : w'.threads = w.threads) (streams : w'.streams = w.streams) :
    HandlesEvent w task (.goOn w' todo)

/-- Making an event. -/
theorem make_handles {g : GateId} {payload : Json} {continuation : Option Continuation}
    {progress : Progress P}
    (h : w.performEvent (.make g payload continuation) = some progress) :
    w.HandlesEvent (.event (.make g payload continuation)) progress := by
  simp only [performEvent, Option.bind_eq_bind, Option.bind_eq_some_iff, andThen,
    Option.some.injEq] at h
  obtain ⟨gate, hgate, rfl⟩ := h
  have houtline : (w.changeGate g fun _ => (gate.fresh payload continuation).2).outline =
      w.outline := by
    refine outline_changeGate_eq ?_ ?_ <;>
    · intro gate' hgate'
      obtain rfl : gate = gate' := by simpa [hgate] using hgate'
      rfl
  refine .goOn ?_ (by simp) (by simp)
  rw [houtline]
  exact .make g payload continuation _

/-- Handing on an event. -/
theorem emit_handles {g : GateId} {event : Event} {progress : Progress P}
    (h : w.emit g event = some progress) :
    w.HandlesEvent (.event (.emit g event)) progress := by
  simp only [emit, Option.bind_eq_bind, Option.bind_eq_some_iff] at h
  obtain ⟨gate, hgate, h⟩ := h
  have htarget : w.outline.target? g = some gate.target := by
    rw [outline_target?, hgate]
    rfl
  split at h
  · exact absurd h (by simp)
  cases hcase : gate.target with
  | none =>
    obtain rfl : _ = progress := by simpa [hcase, done] using h
    refine .goOn ?_ (by simp) (by simp)
    simpa using .lose g event (by rw [htarget, hcase])
  | some target =>
    have hsome : w.outline.target? g = some (some target) := by rw [htarget, hcase]
    cases target with
    | tail =>
      obtain rfl : _ = progress := by simpa [hcase, done] using h
      refine .goOn ?_ (by simp) (by simp)
      rw [outline_tell, outline_emit (f := Gate.count) (fun _ => rfl) (fun _ => rfl)]
      exact .release g event _ hsome (by simp)
    | output completes =>
      let sent := { w with output := w.output ++ [event] }
      have hout : (sent.changeGate g Gate.count).outline = w.outline.emit g :=
        outline_emit (w := sent) (fun _ => rfl) (fun _ => rfl)
      have hrelease := Outline.Handles.release (o := w.outline) g event _ hsome (by simp)
      cases completes with
      | true =>
        obtain rfl : _ = progress := by simpa [hcase, done] using h
        refine .goOn ?_ (by simp) (by simp)
        rw [outline_tell, hout]
        exact hrelease
      | false =>
        obtain rfl : _ = progress := by simpa [hcase, done] using h
        refine .goOn ?_ (by simp) (by simp)
        rw [hout]
        exact hrelease
    | node m =>
      obtain rfl : _ = progress := by simpa [hcase, andThen] using h
      refine .goOn ?_ (by simp) (by simp)
      rw [outline_emit (f := fun gate => { gate.count with occupied := true })
        (fun _ => rfl) (fun _ => rfl)]
      exact .forward g event m hsome

/-- A node in which one counter changes. -/
theorem outline_receive (n : Nat) :
    (w.changeNode n fun node => { node with received := node.received + 1 }).outline =
      w.outline.receive n :=
  outline_changeNode fun _ _ => rfl

/-- A node that counts a dropped event. -/
theorem outline_drop (n : Nat) :
    (w.changeNode n fun node => { node with dropped := node.dropped + 1 }).outline =
      w.outline.drop n :=
  outline_changeNode fun _ _ => rfl

/-- A node that counts a failed event. -/
theorem outline_fail (n : Nat) :
    (w.changeNode n fun node => { node with failed := node.failed + 1 }).outline =
      w.outline.fail n :=
  outline_changeNode fun _ _ => rfl

/-- A node that counts an event as accepted. -/
theorem outline_accept (n : Nat) :
    (w.changeNode n fun node => { node with accepted := node.accepted + 1 }).outline =
      w.outline :=
  outline_changeNode_eq fun _ _ => rfl

/-- Bringing an event to a node. -/
theorem enter_handles {n : Nat} {event : Event} {progress : Progress P}
    (h : w.enter n event = some progress) :
    w.HandlesEvent (.event (.enter n event)) progress := by
  simp only [enter, Option.bind_eq_bind, Option.bind_eq_some_iff] at h
  obtain ⟨node, hnode, h⟩ := h
  split at h
  case h_1 =>
    obtain rfl : _ = progress := by simpa [andThen] using h
    refine .goOn ?_ (by simp) (by simp)
    rw [outline_tell, outline_drop, outline_note, outline_logAll, outline_receive]
    exact .drop n event
  case h_2 =>
    obtain rfl : _ = progress := by simpa [andThen] using h
    refine .goOn ?_ (by simp) (by simp)
    rw [outline_tell, outline_drop, outline_note, outline_logAll, outline_receive]
    exact .drop n event
  case h_3 =>
    obtain rfl : _ = progress := by simpa [andThen] using h
    refine .goOn ?_ (by simp) (by simp)
    rw [outline_logAll, outline_receive]
    exact .bypass n event _
  case h_4 =>
    obtain rfl : _ = progress := by simpa [andThen] using h
    refine .goOn ?_ (by simp) (by simp)
    rw [outline_accept, outline_logAll, outline_receive]
    exact .accept n _ event _

/-- Rejecting an event. -/
theorem reject_eq {n : Nat} {node : Node P} {unit : ExecutionUnit P} {progress : Progress P}
    (h : w.reject n node unit = some progress) :
    ∃ w', progress = .goOn w' [.dispatched .rejected] ∧ w'.outline = w.outline.fail n ∧
      w'.threads = w.threads ∧ w'.streams = w.streams := by
  obtain rfl : _ = progress := by simpa [reject, andThen] using h
  exact ⟨_, rfl, by rw [outline_note, outline_fail], by simp, by simp⟩

/-- A unit of a node that is replaced by a later state of itself. -/
theorem outline_replace {n u : Nat} {node : Node P} {unit later : ExecutionUnit P}
    {g : UnitOutline → UnitOutline} (hnode : w.nodes[n]? = some node)
    (hunit : node.units[u]? = some unit) (h : later.outline = g unit.outline) :
    (w.changeUnit n u fun _ => later).outline = w.outline.changeUnit n u g := by
  refine outline_changeUnit fun unit' hunit' => ?_
  obtain rfl : unit = unit' := by simpa [unit?, hnode, hunit] using hunit'
  exact h

/-- Offering an event to a unit. -/
theorem offer_handles {n u : Nat} {event : Event} {progress : Progress P}
    (h : w.offer n u event = some progress) :
    w.HandlesEvent (.event (.offer n u event)) progress := by
  simp only [offer, Option.bind_eq_bind, Option.bind_eq_some_iff] at h
  obtain ⟨node, hnode, unit, hunit, h⟩ := h
  obtain ⟨hoffer, hsigns⟩ | ⟨later, hoffer, hsigns, hlater⟩ | ⟨later, hoffer, hsigns, hlater⟩ :=
    unit.offer_cases
  · rw [hoffer] at h
    obtain ⟨w', rfl, houtline, hthreads, hstreams⟩ := reject_eq h
    refine .goOn ?_ hthreads hstreams
    rw [houtline]
    exact .refuse n u event unit.outline (by simp [outline_unit?, unit?, hnode, hunit]) hsigns
  · obtain rfl : _ = progress := by simpa [hoffer, andThen] using h
    refine .goOn ?_ (by simp) (by simp)
    rw [outline_replace hnode hunit hlater]
    exact .takeInline n u event node.outline unit.outline (by simp [outline_nodes, hnode])
      (by simp [Node.outline, hunit]) hsigns
  · obtain rfl : _ = progress := by simpa [hoffer, andThen] using h
    refine .goOn ?_ (by simp) (by simp)
    rw [outline_replace hnode hunit hlater]
    exact .takeQueued n u event unit.outline (by simp [outline_unit?, unit?, hnode, hunit])
      hsigns

/-- Putting an event into the queue of a unit. -/
theorem send_handles {n u : Nat} {event : Event} {progress : Progress P}
    (h : w.send n u event = some progress) :
    w.HandlesEvent (.event (.send n u event)) progress := by
  simp only [send, Option.bind_eq_bind, Option.bind_eq_some_iff] at h
  obtain ⟨node, hnode, unit, hunit, h⟩ := h
  obtain ⟨later, hsend, hlater⟩ | ⟨later, hsend, hsigns, hlater⟩ := unit.send_cases event
  · obtain rfl : _ = progress := by simpa [hsend, andThen] using h
    refine .goOn ?_ (by simp) (by simp)
    rw [outline_replace hnode hunit hlater]
    exact .enqueue n u event node.outline unit.outline (by simp [outline_nodes, hnode])
      (by simp [Node.outline, hunit])
  · simp only [hsend] at h
    obtain ⟨w', rfl, houtline, hthreads, hstreams⟩ := reject_eq h
    refine .goOn ?_ (by simpa using hthreads) (by simpa using hstreams)
    rw [houtline, outline_replace hnode hunit hlater]
    exact .bounce n u event unit.outline (by simp [outline_unit?, unit?, hnode, hunit]) hsigns

/-- A change of an inline state that is not about whether it runs does not show. -/
theorem outline_changeInline_eq {unit : ExecutionUnit P} {f : InlineState → InlineState}
    (h : ∀ state, (f state).running = state.running) :
    (unit.changeInline f).outline = unit.outline := by
  obtain ⟨name, processor, stats, state⟩ := unit
  cases state with
  | inline state => simp [ExecutionUnit.changeInline, ExecutionUnit.outline, UnitState.waiting,
      UnitState.signs, h]
  | queued state => rfl

/-- Entering the processor of an inline unit. -/
theorem occupy_handles {n u : Nat} {progress : Progress P} (h : w.occupy n u = some progress) :
    w.HandlesEvent (.event (.occupy n u)) progress := by
  simp only [occupy, Option.bind_eq_bind, Option.bind_eq_some_iff] at h
  obtain ⟨unit, hunit, h⟩ := h
  split at h
  case h_1 state hstate =>
    split at h
    · exact absurd h (by simp)
    · obtain rfl : _ = progress := by simpa [done] using h
      refine .goOn ?_ (by simp) (by simp)
      rw [outline_changeUnit_eq fun unit _ =>
        outline_changeInline_eq (f := fun s => { s with occupied := true }) fun _ => rfl]
      exact .occupy n u
  case h_2 =>
    obtain rfl : _ = progress := by simpa [done] using h
    exact .goOn (.occupy n u) rfl rfl

/-- A call of a hook of a processor does not show. -/
theorem callProcessor_eq {α : Type} {n u : Nat}
    {hook : P.Processor → P.Shared → Call P.Processor P.Shared NodeError α}
    {reply : Reply NodeError α} {called : World P}
    (h : w.callProcessor n u hook = some (reply, called)) :
    called.outline = w.outline ∧ called.threads = w.threads ∧ called.streams = w.streams := by
  obtain ⟨unit, hunit, heq⟩ := by simpa [callProcessor] using h
  obtain ⟨-, rfl⟩ := heq
  refine ⟨?_, rfl, rfl⟩
  rw [outline_logAll]
  exact outline_changeUnit_eq (w := { w with shared := _ }) fun _ _ => rfl

/-- Having an event processed. -/
theorem process_handles {n u : Nat} {event : Event} {asked : Bool} {progress : Progress P}
    (h : w.process n u event asked = some progress) :
    w.HandlesEvent (.event (.process n u event asked)) progress := by
  simp only [process, Option.bind_eq_bind, Option.bind_eq_some_iff] at h
  obtain ⟨node, hnode, unit, hunit, ⟨reply, called⟩, hcall, h⟩ := h
  obtain ⟨houtline, hthreads, hstreams⟩ := callProcessor_eq hcall
  have hnode' : w.outline.nodes[n]? = some node.outline := by simp [outline_nodes, hnode]
  have hended : w.endedBy? (.event (.process n u event asked)) = stopsAt? n reply := by
    simp only [endedBy?, hcall]
    cases reply with
    | returned outcome => cases outcome <;> rfl
    | _ => rfl
  cases reply with
  | waiting limit =>
    cases asked with
    | true => exact absurd h (by simp)
    | false =>
      obtain rfl : _ = progress := by simpa [andThen] using h
      refine .goOn ?_ hthreads hstreams
      rw [hended, houtline]
      exact .wait n u event false
  | failed error =>
    obtain rfl : _ = progress := by simpa [World.fail, done] using h
    refine .goOn ?_ (by simpa using hthreads) (by simpa using hstreams)
    rw [hended, outline_tell, outline_note, outline_fail, houtline]
    exact .fail n u event asked
  | panicked text =>
    obtain rfl : _ = progress := by simpa [World.fail, done] using h
    refine .goOn ?_ (by simpa using hthreads) (by simpa using hstreams)
    rw [hended, outline_tell, outline_note, outline_fail, houtline]
    exact .fail n u event asked
  | returned outcome =>
    cases hkind : node.kind with
    | sink =>
      obtain rfl : _ = progress := by simpa [hkind, done] using h
      refine .goOn ?_ hthreads hstreams
      rw [hended, houtline]
      exact .digest n u event asked _ node.outline hnode' hkind
          (by cases outcome <;> simp [stopsAt?])
    | transform =>
      cases outcome with
      | pass =>
        obtain rfl : _ = progress := by simpa [hkind, andThen] using h
        refine .goOn ?_ hthreads hstreams
        rw [hended, houtline]
        exact .pass n u event _ asked node.outline hnode' hkind
      | update payload =>
        obtain rfl : _ = progress := by simpa [hkind, andThen] using h
        refine .goOn ?_ hthreads hstreams
        rw [hended, houtline]
        exact .pass n u event _ asked node.outline hnode' hkind
      | stop reason =>
        obtain rfl : _ = progress := by simpa [hkind, done] using h
        refine .goOn ?_ (by simpa using hthreads) (by simpa using hstreams)
        rw [hended, outline_tell, houtline]
        exact .stop n u event asked node.outline hnode' hkind

/-- Counting an event that a unit is done with. -/
theorem settle_handles {n u : Nat} {progress : Progress P} (h : w.settle n u = some progress) :
    w.HandlesEvent (.event (.settle n u)) progress := by
  obtain rfl : _ = progress := by simpa [settle, done] using h
  refine .goOn ?_ (by simp) (by simp)
  have houtline : (w.changeUnit n u fun unit =>
      unit.finish.changeInline fun s => { s with occupied := false }).outline =
        w.outline.finish n u :=
    outline_changeUnit fun unit _ => @outline_changeInline_eq _ unit.finish
      (fun s => { s with occupied := false }) fun _ => rfl
  rw [houtline]
  exact .settle n u

/-- Every task on the way of an event handles it. -/
theorem performEvent_handles {task : EventTask} {progress : Progress P}
    (h : w.performEvent task = some progress) : w.HandlesEvent (.event task) progress := by
  cases task with
  | make g payload continuation => exact make_handles h
  | emit g event => exact emit_handles h
  | leave g =>
    obtain rfl : _ = progress := by simpa [performEvent, done] using h
    refine .goOn ?_ (by simp) (by simp)
    rw [outline_changeGate_eq (f := fun gate => { gate with occupied := false })
      (fun _ _ => rfl) (fun _ _ => rfl)]
    exact .leave g
  | enter n event => exact enter_handles h
  | offer n u event => exact offer_handles h
  | send n u event => exact send_handles h
  | occupy n u => exact occupy_handles h
  | process n u event asked => exact process_handles h
  | settle n u => exact settle_handles h

/-- A worker takes an event from its queue and handles it, or it goes on without one: it
ends when the queue is empty and will stay so, and after a while it looks whether it was
dismissed. -/
theorem receive_handles {n u : Nat} {expired : Bool} {progress : Progress P}
    (h : w.receive expired n u = some progress) :
    w.HandlesEvent (.unit (.receive n u)) progress ∨
    (progress = .goOn w [.unit (.finishWorker n u false)] ∧
      ∃ unit, w.unit? n u = some unit ∧ unit.outline.signs.connected = false) ∨
    progress = .goOn w [.unit (.checkDismissed n u)] := by
  simp only [receive, Option.bind_eq_bind, Option.bind_eq_some_iff] at h
  obtain ⟨unit, hunit, h⟩ := h
  obtain ⟨event, later, hnext, hwaiting, hlater⟩ | ⟨hnext, hsigns⟩ | hnext := unit.next_cases
  · obtain rfl : _ = progress := by simpa [hnext, andThen] using h
    obtain ⟨node, hnode, hunits⟩ : ∃ node, w.nodes[n]? = some node ∧
        node.units[u]? = some unit := by simpa [unit?, Option.bind_eq_some_iff] using hunit
    refine .inl (.goOn ?_ (by simp) (by simp))
    rw [outline_replace hnode hunits hlater]
    exact .receive n u event node.outline unit.outline (by simp [outline_nodes, hnode])
      (by simp [Node.outline, hunits]) hwaiting
  · obtain rfl : _ = progress := by simpa [hnext, andThen] using h
    exact .inr (.inl ⟨rfl, unit, hunit, hsigns⟩)
  · cases expired with
    | true =>
      obtain rfl : _ = progress := by simpa [hnext, andThen] using h
      exact .inr (.inr rfl)
    | false => simp [hnext] at h

end World
end EventPipeline
