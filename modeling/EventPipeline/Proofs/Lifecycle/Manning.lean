import EventPipeline.Proofs.Lifecycle.Inside

/-!
# `EventPipeline.Proofs.Lifecycle.Manning`: a unit and its worker

A unit with a queue is manned when its processor was given to a worker: nobody else works at it,
and the worker takes one event after the other from the queue (`DutyStage`). The books of the
unit are always in order (`Tally`): the events whose turn it is are those that the worker has begun
to process, then the one that it holds, then the queue, and last the one that is on its way. No turn
of any thread brings them out of order, whatever the processor makes of an event
(`Manned.turn`); the three turns with which an event comes to the queue are `Manned.expect`,
`Manned.offered` and `Manned.sent`.
-/

set_option autoImplicit false

namespace EventPipeline

variable {P : Plugins}

/-! ## The books of a unit -/

/-- The events whose turn it is are those that were begun, the one in hand, those in the queue and
the one that is coming. The unit has counted all but one that is coming, if that was not accepted
yet, and it is done with all that were begun or are in hand, but for those that are open. -/
structure Tally (stats : UnitStats) (queue hand : List Event) (opened : Nat)
    (begun due coming : List Event) (counted : Nat) : Prop where
  due_eq : due = begun ++ hand ++ queue ++ coming
  received_eq : stats.received = begun.length + hand.length + queue.length + counted
  finished_eq : stats.finished + opened + queue.length + counted = stats.received

namespace Tally

variable {stats : UnitStats} {queue hand begun due coming : List Event} {opened counted : Nat}
  {event : Event}

/-- The next event is taken from the queue. -/
theorem take (h : Tally stats (event :: queue) [] 0 begun due coming counted) :
    Tally stats queue [event] 1 begun due coming counted where
  due_eq := by rw [h.due_eq]; simp
  received_eq := by rw [h.received_eq, List.length_cons]; simp; omega
  finished_eq := by rw [← h.finished_eq, List.length_cons]; omega

/-- The event in hand is begun. -/
theorem begin (h : Tally stats queue [event] opened begun due coming counted) :
    Tally stats queue [] opened (begun ++ [event]) due coming counted where
  due_eq := by rw [h.due_eq]; simp
  received_eq := by rw [h.received_eq]; simp
  finished_eq := h.finished_eq

/-- The unit is done with an event. -/
theorem settle (h : Tally stats queue hand 1 begun due coming counted) :
    Tally { stats with finished := stats.finished + 1 } queue hand 0 begun due coming counted where
  due_eq := h.due_eq
  received_eq := h.received_eq
  finished_eq := h.finished_eq

/-- It is the turn of the unit. -/
theorem expect (h : Tally stats queue hand opened begun due [] 0) (event : Event) :
    Tally stats queue hand opened begun (due ++ [event]) [event] 0 where
  due_eq := by rw [h.due_eq, List.append_nil]
  received_eq := h.received_eq
  finished_eq := h.finished_eq

/-- The unit accepts the event that is coming. -/
theorem count (h : Tally stats queue hand opened begun due coming 0) :
    Tally { stats with received := stats.received + 1 } queue hand opened begun due coming 1 where
  due_eq := h.due_eq
  received_eq := congrArg (· + 1) h.received_eq
  finished_eq := congrArg (· + 1) h.finished_eq

/-- The event that is coming is put into the queue. -/
theorem put (h : Tally stats queue hand opened begun due [event] 1) :
    Tally stats (queue ++ [event]) hand opened begun due [] 0 where
  due_eq := by rw [h.due_eq]; simp
  received_eq := by rw [h.received_eq, List.length_append]; rfl
  finished_eq := by rw [← h.finished_eq, List.length_append]; rfl

/-- When nothing is coming the unit has counted what has fallen to it. -/
theorem received_of_idle (h : Tally stats queue hand opened begun due [] 0) :
    stats.received = due.length := by
  rw [h.received_eq, h.due_eq]
  simp [Nat.add_assoc]

end Tally

/-! ## Stages of a worker -/

/-- How far the worker of a unit has come: what it has to do, what it has said about its readiness,
the event that it has taken from the queue and not begun to process yet, and how many events it is
not done with. -/
inductive DutyStage (n u : Nat) :
    List Task → Option (Except NodeError Unit) → List Event → Nat → Prop
  | preparing (asked : Bool) : DutyStage n u [.unit (.prepareWorker n u asked)] none [] 0
  | unfit (error : NodeError) : DutyStage n u [] (some (.error error)) [] 0
  | waiting : DutyStage n u [.unit (.receive n u)] (some (.ok ())) [] 0
  | looking : DutyStage n u [.unit (.checkDismissed n u)] (some (.ok ())) [] 0
  | holding (event : Event) :
    DutyStage n u
      [.event (.process n u event false), .event (.settle n u), .unit (.receive n u)]
      (some (.ok ())) [event] 1
  | asking (event : Event) :
    DutyStage n u [.event (.process n u event true), .event (.settle n u), .unit (.receive n u)]
      (some (.ok ())) [] 1
  | busy (errands : List Task)
    (herrands : ∀ errand ∈ errands, errand.isErrand = true ∧
      errand.inside? ≠ some (.processor n u)) :
    DutyStage n u (errands ++ [.event (.settle n u), .unit (.receive n u)])
      (some (.ok ())) [] 1

namespace DutyStage

variable {n u opened : Nat} {task : Task} {rest agenda : List Task}
  {ready : Option (Except NodeError Unit)} {hand : List Event}

/-- A worker does not wait for itself to be ready. -/
theorem not_awaits (h : DutyStage n u (task :: rest) ready hand opened) (m i : Nat) :
    task ≠ .unit (.awaitWorker m i) := by
  generalize hagenda : task :: rest = agenda at h
  rintro rfl
  cases h with
  | busy errands herrands =>
    cases errands with
    | nil => cases hagenda
    | cons errand errands =>
      obtain ⟨rfl, rfl⟩ := List.cons.inj hagenda
      exact absurd (herrands _ (List.mem_cons_self ..)).1 (by rintro ⟨⟩)
  | _ => cases hagenda

/-- A worker that is done with all events has none in hand. -/
theorem hand_eq_nil (h : DutyStage n u agenda ready hand 0) : hand = [] := by
  cases h <;> rfl

/-- A worker that is done with its task, which is an errand, has what follows from it to do. -/
theorem errand (h : DutyStage n u (task :: rest) ready hand opened)
    (herrand : task.isErrand = true) (hinside : task.inside? ≠ some (.processor n u))
    {todo : List Task} (htodo : ∀ next ∈ todo, next.isErrand = true ∧
      next.inside? ≠ some (.processor n u)) :
    DutyStage n u (todo ++ rest) ready hand opened := by
  generalize hagenda : task :: rest = agenda at h
  cases h with
  | busy errands herrands =>
    cases errands with
    | nil =>
      cases hagenda
      exact absurd rfl hinside
    | cons first errands =>
      obtain ⟨rfl, rfl⟩ := List.cons.inj hagenda
      show DutyStage n u (todo ++ (errands ++ _)) _ _ _
      rw [← List.append_assoc]
      refine .busy _ fun next hnext => ?_
      rcases List.mem_append.mp hnext with hnext | hnext
      · exact htodo next hnext
      · exact herrands next (List.mem_cons_of_mem _ hnext)
  | holding | asking =>
    cases hagenda
    exact absurd rfl hinside
  | preparing | waiting | looking =>
    cases hagenda
    cases herrand
  | unfit => cases hagenda

end DutyStage

/-- Only who works at a unit begins to process an event there. -/
theorem Task.begins?_of_outside {task : Task} {n u : Nat}
    (h : task.inside? ≠ some (.processor n u)) : task.begins? n u = none := by
  unfold begins?
  split
  · split
    · rename_i hsame
      obtain ⟨rfl, rfl⟩ := hsame
      exact absurd rfl h
    · rfl
  · rfl

/-! ## Units at work -/

/-- The unit has a queue and its processor was given to a worker, which was not told to end. If it
accepts events the processor is ready. -/
structure ExecutionUnit.Runs (unit : ExecutionUnit P) (state : QueueState) (accepting : Bool) :
    Prop where
  state_eq : unit.state = .queued state
  taken : state.taken = true
  connected : state.connected = true
  kept : state.dismissed = false
  alive : state.ready = some (.ok ()) → state.alive = true
  accepting_eq : state.accepting = accepting
  ready : accepting = true → state.ready = some (.ok ())

/-- What a unit does depends on its state, not on its processor or its counters. -/
theorem ExecutionUnit.Runs.congr {unit later : ExecutionUnit P} {state : QueueState}
    {accepting : Bool} (h : unit.Runs state accepting) (hsame : later.state = unit.state) :
    later.Runs state accepting :=
  ⟨hsame.trans h.state_eq, h.taken, h.connected, h.kept, h.alive, h.accepting_eq, h.ready⟩

namespace World

variable {w w' v : World P} {me k n u : Nat} {task : Task} {rest agenda : List Task}
  {progress : Progress P} {expired accepting : Bool} {begun due coming : List Event}
  {counted : Nat}

/-- A unit and its worker, which has the agenda: the unit runs, the worker is at a stage, and the
books are in order. -/
inductive Shift (w : World P) (n u : Nat) (agenda : List Task) (accepting : Bool)
    (begun due coming : List Event) (counted : Nat) : Prop
  | intro (unit : ExecutionUnit P) (state : QueueState) (hand : List Event) (opened : Nat)
    (hunit : w.unit? n u = some unit) (hruns : unit.Runs state accepting)
    (hstage : DutyStage n u agenda state.ready hand opened)
    (htally : Tally unit.stats state.queue hand opened begun due coming counted)

namespace Shift

theorem of_unit? (h : w.Shift n u agenda accepting begun due coming counted)
    (hsame : v.unit? n u = w.unit? n u) :
    v.Shift n u agenda accepting begun due coming counted := by
  obtain ⟨unit, state, hand, opened, hunit, hruns, hstage, htally⟩ := h
  exact ⟨unit, state, hand, opened, hsame.trans hunit, hruns, hstage, htally⟩

theorem taken? (h : w.Shift n u agenda accepting begun due coming counted) :
    w.taken? n u = some true := by
  obtain ⟨unit, state, hand, opened, hunit, hruns, hstage, htally⟩ := h
  rw [taken?_of_queued hunit hruns.state_eq, hruns.taken]

end Shift

/-- Telling what became of an event leaves all units alone. -/
theorem unit?_tell (event : Event) (fate : Fate) : (w.tell event fate).unit? n u = w.unit? n u := by
  rw [unit?, nodes_tell, unit?]

/-- An event that has failed leaves all units alone. -/
theorem unit?_failed {name : String} {event : Event} {error : NodeError}
    (h : w.fail n name event error = some progress) :
    progress.world.unit? n u = w.unit? n u := by
  cases h
  refine (unit?_tell ..).trans ?_
  exact unit?_changeNode (f := fun node => { node with failed := node.failed + 1 })
    (fun _ => rfl) n u

/-- A call of a hook changes nothing of a unit but its processor. -/
theorem unit?_called {α : Type}
    {hook : P.Processor → P.Shared → Call P.Processor P.Shared NodeError α}
    {reply : Reply NodeError α} {called : World P} {unit : ExecutionUnit P}
    (hcall : w.callProcessor n u hook = some (reply, called)) (hunit : w.unit? n u = some unit) :
    ∃ processor, called.unit? n u = some { unit with processor } := by
  simp only [callProcessor, hunit, Option.map_some] at hcall
  cases hcall
  refine ⟨(hook unit.processor w.shared).plugin, ?_⟩
  show (World.changeUnit { w with shared := _ } n u _).unit? n u = _
  rw [unit?_changeUnit, if_pos ⟨rfl, rfl⟩]
  show (w.unit? n u).map _ = _
  rw [hunit]
  rfl

/-- Having an event processed changes nothing of the unit but its processor. -/
theorem unit?_processed {event : Event} {asked : Bool} {unit : ExecutionUnit P}
    (h : w.process n u event asked = some progress) (hunit : w.unit? n u = some unit) :
    ∃ processor, progress.world.unit? n u = some { unit with processor } := by
  simp only [process, Option.bind_eq_bind, Option.bind_eq_some_iff] at h
  obtain ⟨node, hnode, found, hfound, ⟨reply, called⟩, hcall, h⟩ := h
  obtain ⟨processor, hprocessor⟩ := unit?_called hcall hunit
  refine ⟨processor, ?_⟩
  rw [← hprocessor]
  cases reply with
  | waiting limit =>
    cases asked with
    | true => cases h
    | false =>
      cases h
      rfl
  | panicked text | failed error => exact unit?_failed h
  | returned outcome =>
    cases hkind : node.kind with
    | sink =>
      rw [hkind] at h
      cases h
      rfl
    | transform =>
      rw [hkind] at h
      cases outcome with
      | pass | update payload =>
        cases h
        rfl
      | stop reason =>
        cases h
        exact unit?_tell ..

/-- A unit with a queue after a change of its state. -/
theorem unit?_changeQueue {unit : ExecutionUnit P} {state : QueueState}
    (hunit : w.unit? n u = some unit) (hstate : unit.state = .queued state)
    (f : QueueState → QueueState) :
    (w.changeUnit n u (·.changeQueue f)).unit? n u =
      some { unit with state := .queued (f state) } := by
  rw [unit?_changeUnit, if_pos ⟨rfl, rfl⟩, hunit, Option.map_some, ExecutionUnit.changeQueue,
    hstate]

/-! ## Turns of the worker -/

section

variable {unit : ExecutionUnit P} {state : QueueState} (hunit : w.unit? n u = some unit)
  (hruns : unit.Runs state accepting)
include hunit hruns

/-- The worker makes the processor ready. -/
theorem shift_prepare {asked : Bool} (hready : state.ready = none)
    (htally : Tally unit.stats state.queue [] 0 begun due coming counted)
    (h : w.prepareWorker n u asked = some progress) :
    progress.world.Shift n u (progress.next []) accepting begun due coming counted := by
  simp only [prepareWorker, hunit, Option.bind_eq_bind, Option.bind_some, Option.bind_eq_some_iff]
    at h
  obtain ⟨⟨reply, called⟩, hcall, h⟩ := h
  obtain ⟨processor, hprocessor⟩ := unit?_called hcall hunit
  have hclosed : accepting ≠ true := by
    intro haccepting
    rw [hruns.ready haccepting] at hready
    cases hready
  have hunfit (error : NodeError) :
      (called.changeUnit n u (·.changeQueue fun s =>
        { s with ready := some (.error error), alive := false })).Shift n u [] accepting begun due
          coming counted := by
    refine ⟨_, { state with ready := some (.error error), alive := false }, [], 0,
      unit?_changeQueue hprocessor hruns.state_eq _, ?_, .unfit error, htally⟩
    exact ⟨rfl, hruns.taken, hruns.connected, hruns.kept, by rintro ⟨⟩, hruns.accepting_eq,
      fun haccepting => absurd haccepting hclosed⟩
  cases reply with
  | waiting limit =>
    cases asked with
    | true => cases h
    | false =>
      cases h
      refine ⟨_, state, [], 0, hprocessor, hruns.congr rfl, ?_, htally⟩
      rw [hready]
      exact .preparing true
  | panicked text | failed error =>
    cases h
    exact hunfit _
  | returned value =>
    cases h
    refine ⟨_, { state with ready := some (.ok ()), alive := true }, [], 0,
      unit?_changeQueue hprocessor hruns.state_eq _, ?_, .waiting, htally⟩
    exact ⟨rfl, hruns.taken, hruns.connected, hruns.kept, fun _ => rfl, hruns.accepting_eq,
      fun _ => rfl⟩

/-- The worker takes an event from the queue, or looks whether it is dismissed. -/
theorem shift_receive (hready : state.ready = some (.ok ()))
    (htally : Tally unit.stats state.queue [] 0 begun due coming counted)
    (h : w.receive expired n u = some progress) :
    progress.world.Shift n u (progress.next []) accepting begun due coming counted := by
  simp only [receive, hunit, Option.bind_eq_bind, Option.bind_some, ExecutionUnit.next,
    hruns.state_eq] at h
  cases hqueue : state.queue with
  | nil =>
    rw [hqueue, hruns.connected] at h
    -- Nobody has disconnected the queue, so the worker can only have waited long enough.
    simp only [if_true] at h
    split at h
    · cases h
      refine ⟨unit, state, [], 0, hunit, hruns, ?_, htally⟩
      rw [hready]
      exact .looking
    · cases h
  | cons event queue =>
    rw [hqueue] at h
    cases h
    have hlater : (w.changeUnit n u fun _ =>
        unit.changeQueue fun s => { s with queue }).unit? n u =
          some { unit with state := .queued { state with queue } } := by
      rw [unit?_changeUnit, if_pos ⟨rfl, rfl⟩, hunit, Option.map_some, ExecutionUnit.changeQueue,
        hruns.state_eq]
    rw [hqueue] at htally
    refine ⟨_, { state with queue }, [event], 1, hlater, ?_, ?_, htally.take⟩
    · exact ⟨rfl, hruns.taken, hruns.connected, hruns.kept, hruns.alive, hruns.accepting_eq,
        hruns.ready⟩
    · show DutyStage n u _ state.ready _ _
      rw [hready]
      exact .holding event

/-- The worker looks whether it is dismissed. -/
theorem shift_checkDismissed (hready : state.ready = some (.ok ()))
    (htally : Tally unit.stats state.queue [] 0 begun due coming counted)
    (h : w.checkDismissed n u = some progress) :
    progress.world.Shift n u (progress.next []) accepting begun due coming counted := by
  simp only [checkDismissed, hunit, Option.bind_eq_bind, Option.bind_some, hruns.state_eq,
    hruns.kept] at h
  cases h
  refine ⟨unit, state, [], 0, hunit, hruns, ?_, htally⟩
  rw [hready]
  exact .waiting

/-- The worker is done with an event. -/
theorem shift_settle (hready : state.ready = some (.ok ()))
    (htally : Tally unit.stats state.queue [] 1 begun due coming counted)
    (h : w.settle n u = some progress) :
    progress.world.Shift n u (progress.next [.unit (.receive n u)]) accepting begun due coming
      counted := by
  cases h
  have hlater : (w.changeUnit n u fun unit =>
      unit.finish.changeInline fun s => { s with occupied := false }).unit? n u =
        some unit.finish := by
    have hstate : unit.finish.state = .queued state := hruns.state_eq
    rw [unit?_changeUnit, if_pos ⟨rfl, rfl⟩, hunit, Option.map_some, ExecutionUnit.changeInline,
      hstate]
  refine ⟨_, state, [], 0, hlater, hruns.congr rfl, ?_, htally.settle⟩
  rw [hready]
  exact .waiting

/-- The worker has an event processed. It goes on to the next event, whatever becomes of this
one. -/
theorem shift_process {event : Event} {asked : Bool}
    (hready : state.ready = some (.ok ()))
    (htally : Tally unit.stats state.queue [] 1 begun due coming counted)
    (h : w.process n u event asked = some progress) :
    progress.world.Shift n u (progress.next [.event (.settle n u), .unit (.receive n u)]) accepting
      begun due coming counted := by
  obtain ⟨processor, hlater⟩ := unit?_processed h hunit
  obtain ⟨-, -, v, rfl⟩ | ⟨upshot, v, todo, -, rfl, htodo⟩ := process_cases false h
  · refine ⟨_, state, [], 1, hlater, hruns.congr rfl, ?_, htally⟩
    rw [hready]
    exact .asking event
  · refine ⟨_, state, [], 1, hlater, hruns.congr rfl, ?_, htally⟩
    rw [hready]
    refine .busy todo fun next hnext => ?_
    obtain ⟨gate, handed, rfl⟩ := htodo next hnext
    exact ⟨rfl, by rintro ⟨⟩⟩

end

/-- What is on the way of an event and does not work at a unit has nothing to do with it, unless it
delivers the event to its node. -/
theorem subject?_ne_of_errand (herrand : task.isErrand = true)
    (hinside : task.inside? ≠ some (.processor n u))
    (hquiet : task.delivers? = some n → task.subject? ≠ some (.processor n u)) :
    task.subject? ≠ some (.processor n u) := by
  intro hsubject
  obtain h | ⟨event, rfl⟩ | ⟨event, rfl⟩ | rfl | rfl := Task.inside?_cases hsubject
  · exact hinside h
  · exact hquiet rfl rfl
  · exact hquiet rfl rfl
  · cases herrand
  · cases herrand

/-- An errand of a worker leads to nothing but errands, none of which works at its unit. -/
theorem Turn.errands_outside (h : w.Turn me expired task rest progress w')
    (htaken : w.taken? n u = some true) (herrand : task.isErrand = true)
    (hinside : task.inside? ≠ some (.processor n u)) :
    ∃ v todo, progress = .goOn v todo ∧ ∀ next ∈ todo, next.isErrand = true ∧
      next.inside? ≠ some (.processor n u) := by
  obtain ⟨v, todo, rfl, htodo⟩ := h.errands herrand
  refine ⟨v, todo, rfl, fun next hnext => ⟨htodo next hnext, fun hworks => hinside ?_⟩⟩
  refine inside?_of_todo htaken h.performs ?_ hnext hworks
  rintro rfl
  cases herrand

/-- A turn of the worker leaves the books of its unit in order. -/
theorem Shift.own (h : w.Shift n u (task :: rest) accepting begun due coming counted)
    (hturn : w.Turn me expired task rest progress w')
    (hquiet : task.delivers? = some n → task.subject? ≠ some (.processor n u)) :
    w'.Shift n u (progress.next rest) accepting (begun ++ (task.begins? n u).toList) due coming
      counted := by
  have htaken := h.taken?
  have hidle (hnone : task.begins? n u = none) :
      begun ++ (task.begins? n u).toList = begun := by
    rw [hnone, Option.toList_none, List.append_nil]
  refine of_unit? (v := w') (w := progress.world) ?_ (hturn.unit? n u)
  generalize hagenda : task :: rest = agenda at h
  obtain ⟨unit, state, hand, opened, hunit, hruns, hstage, htally⟩ := h
  have hperform := hturn.performs
  generalize hready : state.ready = ready at hstage
  -- Each stage of the worker fixes the task that it does with this turn.
  cases hstage with
  | unfit => cases hagenda
  | preparing asked =>
    cases hagenda
    rw [hidle rfl]
    exact shift_prepare hunit hruns hready htally hperform
  | waiting =>
    cases hagenda
    rw [hidle rfl]
    exact shift_receive hunit hruns hready htally hperform
  | looking =>
    cases hagenda
    rw [hidle rfl]
    exact shift_checkDismissed hunit hruns hready htally hperform
  | holding event =>
    cases hagenda
    have hbegins : (Task.event (.process n u event false)).begins? n u = some event :=
      if_pos ⟨rfl, rfl⟩
    rw [hbegins]
    exact shift_process hunit hruns hready htally.begin hperform
  | asking event =>
    cases hagenda
    rw [hidle rfl]
    exact shift_process hunit hruns hready htally hperform
  | busy errands herrands =>
    cases errands with
    | nil =>
      cases hagenda
      rw [hidle rfl]
      exact shift_settle hunit hruns hready htally hperform
    | cons errand errands =>
      -- The event may go through all the nodes that follow, but no errand comes to this unit.
      obtain ⟨rfl, rfl⟩ := List.cons.inj hagenda
      obtain ⟨herrand, hinside⟩ := herrands task (List.mem_cons_self ..)
      have hne := subject?_ne_of_errand herrand hinside hquiet
      obtain ⟨v, todo, rfl, htodo⟩ := hturn.errands_outside htaken herrand hinside
      have hkept := hturn.unit?_kept hunit hne
      rw [hturn.unit?] at hkept
      rw [hidle (Task.begins?_of_outside hinside)]
      refine ⟨unit, state, [], 1, hkept, hruns, ?_, htally⟩
      have hstage : DutyStage n u (task :: (errands ++ _)) _ [] 1 :=
        .busy (task :: errands) herrands
      rw [hready]
      exact hstage.errand herrand hinside htodo

/-! ## Manned units -/

/-- A unit is manned: its worker is the thread `k`, and nobody else works at it, except that a
thread may be waiting for it to be ready. Until it has waited the unit accepts no events. -/
structure Manned (w : World P) (n u k : Nat) (awaited : Option Nat)
    (begun due coming : List Event) (counted : Nat) : Prop where
  shift : ∃ agenda, w.agendas[k]? = some agenda ∧
    w.Shift n u agenda awaited.isNone begun due coming counted
  held : w.Tasks fun j task => task.inside? = some (.processor n u) →
    j = k ∨ task = .unit (.awaitWorker n u) ∧ awaited = some j

variable {awaited : Option Nat}

theorem Manned.taken? (h : w.Manned n u k awaited begun due coming counted) :
    w.taken? n u = some true := by
  obtain ⟨agenda, -, hshift⟩ := h.shift
  exact hshift.taken?

theorem Manned.same (h : w.Manned n u k awaited begun due coming counted) (hsame : Same w w') :
    w'.Manned n u k awaited begun due coming counted := by
  obtain ⟨agenda, hagenda, hshift⟩ := h.shift
  exact ⟨⟨agenda, hsame.agendas ▸ hagenda, hshift.of_unit? (hsame.unit? n u)⟩, hsame.tasks h.held⟩

/-- Nobody begins to work at a manned unit, unless the turn stops it. -/
theorem Manned.held_turn (h : w.Manned n u k awaited begun due coming counted)
    (hturn : w.Turn me expired task rest progress w') (hstop : task ≠ .unit (.stopUnit n u))
    (hawait : task ≠ .unit (.awaitWorker n u)) :
    w'.Tasks fun j task => task.inside? = some (.processor n u) →
      j = k ∨ task = .unit (.awaitWorker n u) ∧ awaited = some j := by
  refine hturn.inside h.taken? hstop h.held fun next _ hinside _ => ?_
  obtain hme | ⟨hsame, -⟩ := hturn.task_holds h.held hinside
  · exact .inl hme
  · exact absurd hsame hawait

/-- The events that were begun are the first ones of those whose turn it is. -/
theorem Manned.begun_prefix (h : w.Manned n u k awaited begun due coming counted) :
    begun <+: due := by
  obtain ⟨agenda, -, unit, state, hand, opened, -, -, -, htally⟩ := h.shift
  rw [htally.due_eq, List.append_assoc, List.append_assoc]
  exact List.prefix_append ..

/-- A thread that is not the one that waits for the worker of a unit does not wait for it. -/
theorem Manned.not_awaits (h : w.Manned n u k awaited begun due coming counted)
    (hturn : w.Turn me expired task rest progress w') (hother : awaited ≠ some me) :
    task ≠ .unit (.awaitWorker n u) := by
  rintro rfl
  obtain rfl | ⟨-, hsame⟩ := hturn.task_holds h.held rfl
  · obtain ⟨agenda, hagenda, unit, state, hand, opened, -, -, hstage, -⟩ := h.shift
    obtain rfl := Option.some.inj (hturn.agenda.symm.trans hagenda)
    exact hstage.not_awaits n u rfl
  · exact hother hsame

/-- No turn brings the books of a manned unit out of order that neither stops the unit nor delivers
an event to it, nor ends the waiting for its worker. -/
theorem Manned.turn
    (h : w.Manned n u k awaited begun due coming counted)
    (hturn : w.Turn me expired task rest progress w') (hstop : task ≠ .unit (.stopUnit n u))
    (hother : awaited ≠ some me)
    (hquiet : task.delivers? = some n → task.subject? ≠ some (.processor n u)) :
    w'.Manned n u k awaited (begun ++ (task.begins? n u).toList) due coming counted := by
  have hawait := h.not_awaits hturn hother
  have hheld := h.held_turn hturn hstop hawait
  obtain ⟨agenda, hagenda, hshift⟩ := h.shift
  by_cases hme : me = k
  · subst hme
    obtain rfl := Option.some.inj (hturn.agenda.symm.trans hagenda)
    exact ⟨⟨_, hturn.agenda_me, hshift.own hturn hquiet⟩, hheld⟩
  have houtside : task.inside? ≠ some (.processor n u) := by
    intro hinside
    obtain hsame | ⟨hsame, -⟩ := hturn.task_holds h.held hinside
    · exact hme hsame
    · exact hawait hsame
  have hunit : w'.unit? n u = w.unit? n u := by
    by_cases hsubject : task.subject? = some (.processor n u)
    · -- A unit that runs is not started again.
      obtain hinside | ⟨event, rfl⟩ | ⟨event, rfl⟩ | rfl | rfl := Task.inside?_cases hsubject
      · exact absurd hinside houtside
      · exact absurd rfl (hquiet rfl)
      · exact absurd rfl (hquiet rfl)
      · obtain ⟨error, rfl⟩ := startUnit_of_taken h.taken? hturn.performs
        exact hturn.unit? n u
      · exact absurd rfl hstop
    · obtain ⟨unit, state, hand, opened, hunit, -⟩ := hshift
      rw [hunit, hturn.unit?_kept hunit hsubject]
  rw [Task.begins?_of_outside houtside, Option.toList_none, List.append_nil]
  exact ⟨⟨agenda, hturn.agenda_ne (Ne.symm hme) hagenda, hshift.of_unit? hunit⟩, hheld⟩

/-- Nothing is begun with a turn that does not work at the unit. -/
theorem Manned.turn_outside (h : w.Manned n u k awaited begun due coming counted)
    (hturn : w.Turn me expired task rest progress w') (hstop : task ≠ .unit (.stopUnit n u))
    (hother : awaited ≠ some me) (houtside : task.inside? ≠ some (.processor n u))
    (hquiet : task.delivers? = some n → task.subject? ≠ some (.processor n u)) :
    w'.Manned n u k awaited begun due coming counted := by
  have hlater := h.turn hturn hstop hother hquiet
  rwa [Task.begins?_of_outside houtside, Option.toList_none, List.append_nil] at hlater

/-! ## Events that come to a unit -/

/-- It is the turn of the unit. -/
theorem Manned.expect (h : w.Manned n u k awaited begun due [] 0) (event : Event) :
    w.Manned n u k awaited begun (due ++ [event]) [event] 0 := by
  obtain ⟨⟨agenda, hagenda, unit, state, hand, opened, hunit, hruns, hstage, htally⟩, hheld⟩ := h
  exact ⟨⟨agenda, hagenda, unit, state, hand, opened, hunit, hruns, hstage, htally.expect event⟩,
    hheld⟩

/-- A worker that delivers an event has the rest of the way to do after that. -/
theorem Turn.stage_delivers {ready : Option (Except NodeError Unit)} {hand : List Event}
    {opened : Nat} (h : w.Turn me expired task rest progress w') (htaken : w.taken? n u = some true)
    (hdelivers : task.delivers? = some n) (hagenda : w.agendas[k]? = some agenda)
    (hstage : DutyStage n u agenda ready hand opened) :
    ∃ later, w'.agendas[k]? = some later ∧ DutyStage n u later ready hand opened := by
  by_cases hme : me = k
  · -- A worker delivers an event to the next node as an errand of the event in its hand.
    subst hme
    obtain rfl := Option.some.inj (h.agenda.symm.trans hagenda)
    have herrand : task.isErrand = true := by
      obtain ⟨i, event, rfl | rfl⟩ := Task.delivers?_cases hdelivers <;> rfl
    have hinside : task.inside? ≠ some (.processor n u) := by
      rw [Task.inside?_of_delivers hdelivers]
      rintro ⟨⟩
    obtain ⟨v, todo, rfl, htodo⟩ := h.errands_outside htaken herrand hinside
    exact ⟨_, h.agenda_me, hstage.errand herrand hinside htodo⟩
  · exact ⟨agenda, h.agenda_ne (Ne.symm hme) hagenda, hstage⟩

/-- A manned unit that accepts events accepts the one that is offered to it. -/
theorem Manned.offered {event : Event} (h : w.Manned n u k none begun due [event] 0)
    (hturn : w.Turn me expired (.event (.offer n u event)) rest progress w') :
    progress.todo = [.event (.send n u event)] ∧ w'.Manned n u k none begun due [event] 1 := by
  have hheld := h.held_turn hturn (by rintro ⟨⟩) (by rintro ⟨⟩)
  have htaken := h.taken?
  obtain ⟨⟨agenda, hagenda, unit, state, hand, opened, hunit, hruns, hstage, htally⟩, -⟩ := h
  obtain ⟨later, hlater, hstage⟩ := hturn.stage_delivers htaken rfl hagenda hstage
  obtain ⟨hclosed, -⟩ | ⟨-, htodo, hreceived⟩ := offer_of_queued hunit hruns.state_eq hturn.performs
  · rw [hruns.accepting_eq] at hclosed
    cases hclosed
  refine ⟨htodo, ⟨later, hlater, _, { state with sending := state.sending + 1 }, hand, opened,
    (hturn.unit? n u).trans hreceived, ?_, hstage, ?_⟩, hheld⟩
  · refine ⟨?_, hruns.taken, hruns.connected, hruns.kept, hruns.alive, hruns.accepting_eq,
      hruns.ready⟩
    have hstate : unit.receive.state = .queued state := hruns.state_eq
    rw [ExecutionUnit.changeQueue, hstate]
  · have hstats : (unit.receive.changeQueue fun s => { s with sending := s.sending + 1 }).stats =
        { unit.stats with received := unit.stats.received + 1 } := by
      unfold ExecutionUnit.changeQueue
      split <;> rfl
    rw [hstats]
    exact htally.count

/-- The event is put into the queue of the unit. -/
theorem Manned.sent {event : Event} (h : w.Manned n u k none begun due [event] 1)
    (hturn : w.Turn me expired (.event (.send n u event)) rest progress w') :
    w'.Manned n u k none begun due [] 0 := by
  have hheld := h.held_turn hturn (by rintro ⟨⟩) (by rintro ⟨⟩)
  have htaken := h.taken?
  obtain ⟨⟨agenda, hagenda, unit, state, hand, opened, hunit, hruns, hstage, htally⟩, -⟩ := h
  obtain ⟨later, hlater, hstage⟩ := hturn.stage_delivers htaken rfl hagenda hstage
  have hput := (send_of_queued hunit hruns.state_eq (hruns.alive (hruns.ready rfl))
    hturn.performs).2
  refine ⟨⟨later, hlater, _,
    { state with sending := state.sending - 1, queue := state.queue ++ [event] },
    hand, opened, (hturn.unit? n u).trans hput, ?_, hstage, ?_⟩, hheld⟩
  · refine ⟨?_, hruns.taken, hruns.connected, hruns.kept, hruns.alive, hruns.accepting_eq,
      hruns.ready⟩
    rw [ExecutionUnit.changeQueue, hruns.state_eq]
  · have hstats : (unit.changeQueue fun s =>
        { s with sending := s.sending - 1, queue := s.queue ++ [event] }).stats = unit.stats := by
      unfold ExecutionUnit.changeQueue
      split <;> rfl
    rw [hstats]
    exact htally.put

/-! ## Units that are started -/

/-- A unit with a queue is vacant: it was never started, and nobody works at it. -/
structure Vacant (w : World P) (n u : Nat) : Prop where
  unit : ∃ unit, w.unit? n u = some unit ∧ unit.state = .queued {} ∧ unit.stats = {}
  nobody : w.Tasks fun _ task => task.inside? ≠ some (.processor n u)

theorem Vacant.same (h : w.Vacant n u) (hsame : Same w w') : w'.Vacant n u := by
  obtain ⟨⟨unit, hunit, hfresh⟩, hnobody⟩ := h
  exact ⟨⟨unit, (hsame.unit? n u).trans hunit, hfresh⟩, hsame.tasks hnobody⟩

/-- A unit stays vacant with a turn that neither starts nor stops it, nor delivers an event to its
node. -/
theorem Vacant.turn (h : w.Vacant n u) (hturn : w.Turn me expired task rest progress w')
    (hstart : task ≠ .unit (.startUnit n u)) (hstop : task ≠ .unit (.stopUnit n u))
    (hquiet : task.delivers? ≠ some n) : w'.Vacant n u := by
  have hne : task.subject? ≠ some (.processor n u) := by
    intro hsubject
    obtain hinside | ⟨event, rfl⟩ | ⟨event, rfl⟩ | rfl | rfl := Task.inside?_cases hsubject
    · exact hturn.task_holds h.nobody hinside
    · exact hquiet rfl
    · exact hquiet rfl
    · exact hstart rfl
    · exact hstop rfl
  obtain ⟨⟨unit, hunit, hfresh⟩, hnobody⟩ := h
  exact ⟨⟨unit, hturn.unit?_kept hunit hne, hfresh⟩,
    hturn.inside_ne (p := fun _ _ => False) hne hnobody⟩

/-- A vacant unit that is started is manned with a new thread, and the thread that has started it
waits for it to be ready. -/
theorem Vacant.started (h : w.Vacant n u)
    (hturn : w.Turn me expired (.unit (.startUnit n u)) rest progress w') :
    (∃ v, progress = .goOn v [.unit (.awaitWorker n u)]) ∧
      w'.Manned n u w.threads.length (some me) [] [] [] 0 := by
  obtain ⟨⟨unit, hunit, hstate, hstats⟩, hnobody⟩ := h
  have hstart : w.startUnit n u = some progress := hturn.performs
  have hmark : w.taken? n u = some false := by rw [taken?_of_queued hunit hstate]
  obtain ⟨-, htodo, hagendas⟩ := startUnit_of_not_taken hmark hstart
  simp only [startUnit, hunit, hstate, Option.bind_eq_bind, Option.bind_some] at hstart
  cases hstart
  refine ⟨⟨_, rfl⟩,
    ⟨_, hturn.agenda_spawned hagendas, _, { taken := true, connected := true, alive := true },
    [], 0, (hturn.unit? n u).trans (unit?_changeQueue hunit hstate _), ?_, .preparing false, ?_⟩,
    ?_⟩
  · exact ⟨rfl, rfl, rfl, rfl, fun _ => rfl, rfl, by rintro ⟨⟩⟩
  · rw [hstats]
    exact ⟨rfl, rfl, rfl⟩
  · refine hturn.tasks_worker hagendas ?_ ?_ fun _ => .inl rfl
    · intro j agenda hagenda next hnext hinside
      exact absurd hinside (hnobody j agenda hagenda next hnext)
    · intro next hnext _
      rw [htodo] at hnext
      exact .inr ⟨List.mem_singleton.mp hnext, rfl⟩

/-- Who has waited for the worker of a unit to be ready is told that it failed, or the unit accepts
events from now on. -/
theorem Manned.ready (h : w.Manned n u k (some me) begun due coming counted)
    (hturn : w.Turn me expired (.unit (.awaitWorker n u)) rest progress w')
    (hrest : ∀ next ∈ rest, next.inside? ≠ some (.processor n u)) :
    (∃ v, progress = .goOn v [.answer .ok]) ∧ w'.Manned n u k none begun due coming counted ∨
      ∃ v error, progress = .goOn v [.failed error] := by
  obtain ⟨⟨agenda, hagenda, unit, state, hand, opened, hunit, hruns, hstage, htally⟩, hheld⟩ := h
  have hme : me ≠ k := by
    rintro rfl
    obtain rfl := Option.some.inj (hturn.agenda.symm.trans hagenda)
    exact hstage.not_awaits n u rfl
  have hawait : w.awaitWorker expired n u = some progress := hturn.performs
  simp only [awaitWorker, Option.bind_eq_bind, Option.bind_eq_some_iff] at hawait
  obtain ⟨node, hnode, found, hfound, hawait⟩ := hawait
  obtain rfl : unit = found := by
    rw [unit?, hnode, Option.bind_some, hfound] at hunit
    exact (Option.some.inj hunit).symm
  rw [hruns.state_eq] at hawait
  cases hready : state.ready with
  | none =>
    simp only [hready] at hawait
    split at hawait
    · cases hawait
      exact .inr ⟨_, _, rfl⟩
    · cases hawait
  | some result =>
    cases result with
    | error error =>
      simp only [hready] at hawait
      split at hawait
      · cases hawait
      · cases hawait
        exact .inr ⟨_, error, rfl⟩
    | ok value =>
      simp only [hready] at hawait
      cases hawait
      refine .inl ⟨⟨_, rfl⟩, ⟨agenda, hturn.agenda_ne (Ne.symm hme) hagenda, _,
        { state with accepting := true }, hand, opened,
        (hturn.unit? n u).trans (unit?_changeQueue hunit hruns.state_eq _), ?_, hstage, htally⟩, ?_⟩
      · exact ⟨rfl, hruns.taken, hruns.connected, hruns.kept, hruns.alive, rfl, fun _ => hready⟩
      · -- Who has waited is done with that, so only the worker is left at the unit.
        intro j others hothers next hnext hinside
        by_cases hj : j = me
        · subst hj
          obtain rfl := Option.some.inj (hturn.agenda_me.symm.trans hothers)
          obtain rfl | hnext := List.mem_cons.mp hnext
          · cases hinside
          · exact absurd hinside (hrest next hnext)
        · obtain hbefore | ⟨-, hspawns⟩ := hturn.agenda_of_ne hj hothers
          · obtain hk | ⟨-, hsame⟩ := hheld j others hbefore next hnext hinside
            · exact .inl hk
            · exact absurd (Option.some.inj hsame).symm hj
          · have hsummons := Task.Spawns.summons (hspawns next hnext)
              (Task.subject?_of_inside hinside)
            cases hsummons

end World

end EventPipeline
