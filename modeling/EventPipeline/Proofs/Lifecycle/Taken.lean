import EventPipeline.Proofs.Lifecycle.Crew

/-!
# `EventPipeline.Proofs.Lifecycle.Taken`: a processor is given away once

The processor of a queued unit is given to a worker when the unit is started, and never again.
The state of the unit keeps a mark of that. `perform_taken?` says that no other task touches the
mark, and so a second start finds it and is refused (`startUnit_of_taken`). In the same way only
who sends an event to the unit or receives one from it touches the queue (`perform_queue`).
-/

set_option autoImplicit false

namespace EventPipeline

variable {P : Plugins}

/-- For a unit with a queue, whether its processor was given to a worker. -/
def UnitState.taken? : UnitState → Option Bool
  | .inline _ => none
  | .queued state => some state.taken

/-- What few tasks touch in the state of a unit. -/
def UnitState.mark (state : UnitState) : Option Bool × List Event :=
  (state.taken?, state.queue)

namespace ExecutionUnit

variable {unit : ExecutionUnit P}

theorem mark_changeQueue {f : QueueState → QueueState}
    (hf : ∀ s, (f s).taken = s.taken ∧ (f s).queue = s.queue) :
    (unit.changeQueue f).state.mark = unit.state.mark := by
  unfold changeQueue
  split
  · rfl
  · rename_i state hstate
    obtain ⟨htaken, hqueue⟩ := hf state
    simp [hstate, UnitState.mark, UnitState.taken?, UnitState.queue, htaken, hqueue]

theorem mark_changeInline (f : InlineState → InlineState) :
    (unit.changeInline f).state.mark = unit.state.mark := by
  unfold changeInline
  split
  · rename_i state hstate
    rw [hstate]
    rfl
  · rfl

/-- Neither an offer nor what follows from it touches the mark. -/
theorem mark_of_offer_inline {later : ExecutionUnit P} (h : unit.offer = .inline later) :
    later.state.mark = unit.state.mark := by
  unfold offer at h
  split at h
  · split at h
    · cases h
      rfl
    · cases h
  · split at h <;> cases h

theorem mark_of_offer_queued {later : ExecutionUnit P} (h : unit.offer = .queued later) :
    later.state.mark = unit.state.mark := by
  unfold offer at h
  split at h
  · split at h <;> cases h
  · split at h
    · cases h
      have hreceived : unit.receive.state.mark = unit.state.mark := rfl
      refine Eq.trans (mark_changeQueue ?_) hreceived
      intro _
      exact ⟨rfl, rfl⟩
    · cases h

/-- A unit with a queue has no event processed on the thread that brings it. -/
theorem offer_ne_inline {later : ExecutionUnit P} {taken : Bool}
    (hqueued : unit.state.taken? = some taken) : unit.offer ≠ .inline later := by
  intro h
  unfold offer at h
  split at h
  · rename_i state hstate
    rw [hstate] at hqueued
    cases hqueued
  · split at h <;> cases h

theorem taken?_send (event : Event) :
    (unit.send event).2.state.taken? = unit.state.taken? := by
  cases hstate : unit.state with
  | inline state => simp [send, changeQueue, hstate, finish, UnitState.taken?]
  | queued state =>
    cases halive : state.alive with
    | true => simp [send, changeQueue, hstate, halive, UnitState.taken?]
    | false => simp [send, changeQueue, hstate, halive, finish, UnitState.taken?]

theorem taken?_of_next {event : Event} {later : ExecutionUnit P}
    (h : unit.next = .event event later) : later.state.taken? = unit.state.taken? := by
  unfold next at h
  split at h
  · rename_i state hstate
    split at h
    · cases h
      simp [changeQueue, hstate, UnitState.taken?]
    · split at h <;> cases h
  · cases h

end ExecutionUnit

namespace World

variable {w v : World P} {me n u : Nat} {progress : Progress P} {β : Type} {mark : UnitState → β}

/-- For a unit of a node that has a queue, whether its processor was given to a worker. -/
def taken? (w : World P) (n u : Nat) : Option Bool :=
  (w.unit? n u).bind (·.state.taken?)

/-- A mark of a unit is the same in both worlds. -/
def SameMark (mark : UnitState → β) (n u : Nat) (w v : World P) : Prop :=
  (v.unit? n u).map (fun unit => mark unit.state) = (w.unit? n u).map fun unit => mark unit.state

namespace SameMark

theorem refl : SameMark mark n u w w :=
  rfl

theorem of_nodes (h : SameMark mark n u w v) {v' : World P} (hnodes : v'.nodes = v.nodes) :
    SameMark mark n u w v' := by
  rw [SameMark, unit?, hnodes]
  exact h

theorem changeNode (h : SameMark mark n u w v) {m : Nat} {f : Node P → Node P}
    (hf : ∀ node, (f node).units = node.units) : SameMark mark n u w (v.changeNode m f) := by
  rw [SameMark, unit?_changeNode hf]
  exact h

theorem changeUnit (h : SameMark mark n u w v) {m i : Nat}
    {f : ExecutionUnit P → ExecutionUnit P}
    (hf : ∀ unit, v.unit? m i = some unit → mark (f unit).state = mark unit.state) :
    SameMark mark n u w (v.changeUnit m i f) := by
  rw [SameMark, ← h, unit?_changeUnit]
  split
  · rename_i hplace
    obtain ⟨rfl, rfl⟩ := hplace
    cases hunit : v.unit? n u with
    | none => rfl
    | some unit => exact congrArg some (hf unit hunit)
  · rfl

/-- A change of the state of a unit that has a queue. -/
theorem changeQueue (h : SameMark UnitState.mark n u w v) {m i : Nat}
    {f : QueueState → QueueState} (hf : ∀ s, (f s).taken = s.taken ∧ (f s).queue = s.queue) :
    SameMark UnitState.mark n u w (v.changeUnit m i (·.changeQueue f)) :=
  h.changeUnit fun _ _ => ExecutionUnit.mark_changeQueue hf

/-- A change of the state of a unit that has none. -/
theorem changeInline (h : SameMark UnitState.mark n u w v) {m i : Nat}
    (f : InlineState → InlineState) :
    SameMark UnitState.mark n u w (v.changeUnit m i (·.changeInline f)) :=
  h.changeUnit fun _ _ => ExecutionUnit.mark_changeInline f

theorem logAll (h : SameMark mark n u w v) (messages : List Message) :
    SameMark mark n u w (v.logAll messages) :=
  h.of_nodes rfl

theorem note (h : SameMark mark n u w v) (message : Message) :
    SameMark mark n u w (v.note message) :=
  h.logAll [message]

theorem tell (h : SameMark mark n u w v) (event : Event) (fate : Fate) :
    SameMark mark n u w (v.tell event fate) :=
  h.of_nodes (v.nodes_tell event fate)

theorem callProcessor {α : Type} {m i : Nat}
    {hook : P.Processor → P.Shared → Call P.Processor P.Shared NodeError α}
    {reply : Reply NodeError α} {called : World P} (h : SameMark mark n u w v)
    (hcall : v.callProcessor m i hook = some (reply, called)) : SameMark mark n u w called := by
  obtain ⟨unit, hunit, heq⟩ := by simpa [World.callProcessor] using hcall
  obtain ⟨-, rfl⟩ := heq
  refine of_nodes (v := ({ v with shared := _ } : World P).changeUnit m i _) ?_ rfl
  exact changeUnit (h.of_nodes rfl) fun _ _ => rfl

end SameMark

/-! ## Tasks -/

/-- Whatever a task comes to, it does not touch the mark. -/
def KeepsMark (mark : UnitState → β) (n u : Nat) (w : World P) : Option (Progress P) → Prop :=
  ComesTo fun progress => SameMark mark n u w progress.world

namespace KeepsMark

theorem none : w.KeepsMark mark n u Option.none :=
  ComesTo.none

theorem bind {α : Type} {value : Option α} {next : α → Option (Progress P)}
    (h : ∀ a, value = some a → w.KeepsMark mark n u (next a)) :
    w.KeepsMark mark n u (value >>= next) :=
  ComesTo.bind h

theorem ite {c : Prop} [Decidable c] {a b : Option (Progress P)} (ha : w.KeepsMark mark n u a)
    (hb : w.KeepsMark mark n u b) : w.KeepsMark mark n u (if c then a else b) :=
  ComesTo.ite ha hb

theorem andThen {todo : List Task} (h : SameMark mark n u w v) :
    w.KeepsMark mark n u (v.andThen todo) := by
  rintro _ ⟨⟩
  exact h

theorem done (h : SameMark mark n u w v) : w.KeepsMark mark n u v.done :=
  .andThen h

end KeepsMark

/-- A unit does not take an event. -/
theorem reject_keepsMark (m : Nat) (node : Node P) (unit : ExecutionUnit P)
    (h : SameMark mark n u w v) : w.KeepsMark mark n u (v.reject m node unit) := by
  have hfailed := h.changeNode (m := m)
    (f := fun node => { node with failed := node.failed + 1 }) fun _ => rfl
  exact .andThen (hfailed.note _)

/-- A change of a unit that is looked up before. -/
theorem SameMark.replaceUnit {m i : Nat} {node : Node P} {unit later : ExecutionUnit P}
    (hnode : w.nodes[m]? = some node) (hunit : node.units[i]? = some unit)
    (hlater : mark later.state = mark unit.state) :
    SameMark mark n u w (w.changeUnit m i fun _ => later) := by
  have hlookup : w.unit? m i = some unit := by
    rw [unit?, hnode]
    exact hunit
  refine SameMark.refl.changeUnit fun found hfound => ?_
  obtain rfl := Option.some.inj (hlookup.symm.trans hfound)
  exact hlater

/-- An event is offered to a unit. -/
theorem offer_keepsMark (m i : Nat) (event : Event) :
    w.KeepsMark UnitState.mark n u (w.offer m i event) := by
  refine .bind fun node hnode => .bind fun unit hunit => ?_
  split
  · exact reject_keepsMark m node unit .refl
  · rename_i later hoffer
    exact .andThen (.replaceUnit hnode hunit (ExecutionUnit.mark_of_offer_inline hoffer))
  · rename_i later hoffer
    exact .andThen (.replaceUnit hnode hunit (ExecutionUnit.mark_of_offer_queued hoffer))

/-- An event is put into the queue of a unit. -/
theorem send_keepsMark (m i : Nat) (event : Event) :
    w.KeepsMark UnitState.taken? n u (w.send m i event) := by
  refine .bind fun node hnode => .bind fun unit hunit => ?_
  have hsent : SameMark UnitState.taken? n u w (w.changeUnit m i fun _ => (unit.send event).2) :=
    .replaceUnit hnode hunit (ExecutionUnit.taken?_send event)
  exact .ite (.andThen hsent) (reject_keepsMark m node _ hsent)

/-- A processor processes an event. -/
theorem process_keepsMark (m i : Nat) (event : Event) (asked : Bool) :
    w.KeepsMark UnitState.mark n u (w.process m i event asked) := by
  refine .bind fun node _ => .bind fun unit _ => .bind fun result hcall => ?_
  obtain ⟨reply, called⟩ := result
  have hcalled : SameMark UnitState.mark n u w called := SameMark.refl.callProcessor hcall
  have hfail (name : String) (error : NodeError) :
      w.KeepsMark UnitState.mark n u (called.fail m name event error) := by
    have hfailed := hcalled.changeNode (m := m)
      (f := fun node => { node with failed := node.failed + 1 }) fun _ => rfl
    exact .done ((hfailed.note _).tell _ _)
  dsimp only
  split
  · exact .ite .none (.andThen hcalled)
  · exact hfail _ _
  · exact hfail _ _
  · exact .done hcalled
  · exact .andThen hcalled
  · exact .andThen hcalled
  · exact .done (hcalled.tell _ _)

/-- A task on the way of an event that is about the processor, other than putting the event into
the queue. -/
theorem performEvent_keepsMark {task : EventTask} (h : task.subject? = some (.processor n u))
    (hsend : ∀ event, task ≠ .send n u event) :
    w.KeepsMark UnitState.mark n u (w.performEvent task) := by
  cases task with
  | offer m i event => exact offer_keepsMark m i event
  | send m i event =>
    obtain ⟨rfl, rfl⟩ : m = n ∧ i = u := by simpa [EventTask.subject?] using h
    exact absurd rfl (hsend event)
  | occupy m i =>
    refine .bind fun unit _ => ?_
    split
    · exact .ite .none (.done (SameMark.refl.changeUnit fun _ _ =>
        ExecutionUnit.mark_changeInline _))
    · exact .done .refl
  | process m i event asked => exact process_keepsMark m i event asked
  | settle m i =>
    exact .done (SameMark.refl.changeUnit fun unit _ => ExecutionUnit.mark_changeInline _)
  | _ => cases h

/-- Making a processor ready. -/
theorem prepareInline_keepsMark (m i : Nat) (asked : Bool) :
    w.KeepsMark UnitState.mark n u (w.prepareInline m i asked) := by
  refine .bind fun unit _ => .bind fun result hcall => ?_
  obtain ⟨reply, called⟩ := result
  have hcalled : SameMark UnitState.mark n u w called := SameMark.refl.callProcessor hcall
  dsimp only
  split
  · exact .ite .none (.andThen hcalled)
  · split
    · exact .andThen ((hcalled.changeInline _).note _)
    · exact .andThen (hcalled.changeInline _)

theorem prepareWorker_keepsMark (m i : Nat) (asked : Bool) :
    w.KeepsMark UnitState.mark n u (w.prepareWorker m i asked) := by
  refine .bind fun unit _ => .bind fun result hcall => ?_
  obtain ⟨reply, called⟩ := result
  have hcalled : SameMark UnitState.mark n u w called := SameMark.refl.callProcessor hcall
  dsimp only
  split
  · exact .ite .none (.andThen hcalled)
  · have hsaid (result : Except NodeError Unit) : SameMark UnitState.mark n u w
        (called.changeUnit m i (·.changeQueue fun s =>
          { s with ready := some result, alive := result.toBool })) := by
      refine hcalled.changeQueue ?_
      intro s
      exact ⟨rfl, rfl⟩
    exact .ite (.andThen (hsaid _)) (.done (hsaid _))

/-- Finishing a processor. -/
theorem finishInline_keepsMark (m i : Nat) (asked : Bool) :
    w.KeepsMark UnitState.mark n u (w.finishInline m i asked) := by
  refine .bind fun unit _ => .bind fun result hcall => ?_
  obtain ⟨reply, called⟩ := result
  have hcalled : SameMark UnitState.mark n u w called := SameMark.refl.callProcessor hcall
  dsimp only
  split
  · exact .ite .none (.andThen hcalled)
  · exact .andThen ((hcalled.logAll _).changeInline _)

theorem finishWorker_keepsMark (m i : Nat) (asked : Bool) :
    w.KeepsMark UnitState.mark n u (w.finishWorker m i asked) := by
  refine .bind fun unit _ => .bind fun result hcall => ?_
  obtain ⟨reply, called⟩ := result
  have hcalled : SameMark UnitState.mark n u w called := SameMark.refl.callProcessor hcall
  dsimp only
  split
  · exact .ite .none (.andThen hcalled)
  · refine .done ((hcalled.logAll _).changeQueue ?_)
    intro s
    exact ⟨rfl, rfl⟩

/-- Waiting for a worker to be ready. -/
theorem awaitWorker_keepsMark (expired : Bool) (m i : Nat) :
    w.KeepsMark UnitState.mark n u (w.awaitWorker expired m i) := by
  have hopened : SameMark UnitState.mark n u w
      (w.changeUnit m i (·.changeQueue fun s => { s with accepting := true })) := by
    refine SameMark.refl.changeQueue ?_
    intro s
    exact ⟨rfl, rfl⟩
  have hdismissed : SameMark UnitState.mark n u w
      (w.changeUnit m i (·.changeQueue fun s =>
        { s with dismissed := true, connected := false })) := by
    refine SameMark.refl.changeQueue ?_
    intro s
    exact ⟨rfl, rfl⟩
  refine .bind fun node _ => .bind fun unit _ => ?_
  split
  · exact .none
  · split
    · exact .andThen (hopened.note _)
    · exact .ite .none (.andThen .refl)
    · exact .ite (.andThen hdismissed) .none

/-- Taking an event from a queue. -/
theorem receive_keepsMark (expired : Bool) (m i : Nat) :
    w.KeepsMark UnitState.taken? n u (w.receive expired m i) := by
  refine .bind fun unit hunit => ?_
  split
  · rename_i event later hnext
    refine .andThen (SameMark.refl.changeUnit fun found hfound => ?_)
    rw [hunit] at hfound
    cases hfound
    exact ExecutionUnit.taken?_of_next hnext
  · exact .andThen .refl
  · exact .ite (.andThen .refl) .none

/-- A task in the life of units, other than the start of one and taking an event from a queue. -/
theorem performUnit_keepsMark {expired : Bool} {task : UnitTask}
    (h : task.subject? = some (.processor n u)) (hstart : task ≠ .startUnit n u)
    (hreceive : task ≠ .receive n u) :
    w.KeepsMark UnitState.mark n u (w.performUnit me expired task) := by
  cases task with
  | startUnit m i =>
    obtain ⟨rfl, rfl⟩ : m = n ∧ i = u := by simpa [UnitTask.subject?] using h
    exact absurd rfl hstart
  | prepareInline m i asked => exact prepareInline_keepsMark m i asked
  | prepareWorker m i asked => exact prepareWorker_keepsMark m i asked
  | awaitWorker m i => exact awaitWorker_keepsMark expired m i
  | receive m i =>
    obtain ⟨rfl, rfl⟩ : m = n ∧ i = u := by simpa [UnitTask.subject?] using h
    exact absurd rfl hreceive
  | checkDismissed m i =>
    refine .bind fun unit _ => ?_
    split
    · exact .none
    · exact .ite (.andThen .refl) (.andThen .refl)
  | finishWorker m i asked => exact finishWorker_keepsMark m i asked
  | stopUnit m i =>
    refine .bind fun unit _ => ?_
    split
    · exact .ite (.andThen (SameMark.refl.changeInline _)) (.done .refl)
    · exact .ite (.andThen .refl) (.done .refl)
  | finishInline m i asked => exact finishInline_keepsMark m i asked
  | drain m i noted =>
    refine .bind fun unit _ => .ite (.done .refl) (.ite ?_ (.ite ?_ .none))
    · exact .done (SameMark.refl.note _)
    · exact .andThen (SameMark.refl.note _)
  | dismiss m i =>
    refine .done (SameMark.refl.changeQueue ?_)
    intro s
    exact ⟨rfl, rfl⟩
  | close m i =>
    refine .bind fun unit _ => ?_
    split
    · exact .done .refl
    · refine .ite .none (.done (SameMark.refl.changeQueue ?_))
      intro s
      exact ⟨rfl, rfl⟩
  | joinWorker m i =>
    refine .bind fun unit _ => ?_
    split
    · exact .done .refl
    · exact .ite .none (.done .refl)
  | stoppedUnit m i => exact .bind fun unit _ => .done (SameMark.refl.note _)
  | _ => cases h

/-- Only the start of a unit, and who puts events into its queue or takes them from it, touches
the mark. -/
theorem perform_mark {task : Task} {expired : Bool} (hplain : task.isPlain = true)
    (h : w.perform me expired task = some progress) (hstart : task ≠ .unit (.startUnit n u))
    (hsend : ∀ event, task ≠ .event (.send n u event)) (hreceive : task ≠ .unit (.receive n u)) :
    SameMark UnitState.mark n u w progress.world := by
  by_cases hsubject : task.subject? = some (.processor n u)
  · cases task with
    | event task =>
      exact performEvent_keepsMark hsubject (fun event hsame => hsend event (hsame ▸ rfl)) progress
        h
    | unit task =>
      exact performUnit_keepsMark hsubject (fun hsame => hstart (hsame ▸ rfl))
        (fun hsame => hreceive (hsame ▸ rfl)) progress h
    | source task => cases task <;> cases hsubject
    | _ => cases hsubject
  · rw [SameMark, (perform_reaches h).units hplain n u hsubject]

/-- A unit with the same mark has its processor or has given it away, as before. -/
theorem SameMark.taken?_eq (h : SameMark UnitState.taken? n u w v) :
    v.taken? n u = w.taken? n u := by
  have hjoin (x : World P) :
      x.taken? n u = ((x.unit? n u).map fun unit => unit.state.taken?).join := by
    unfold taken?
    cases x.unit? n u <;> rfl
  rw [hjoin, hjoin]
  exact congrArg Option.join h

/-- Only the start of a unit touches the mark that its processor was given away. -/
theorem perform_taken? {task : Task} {expired : Bool} (hplain : task.isPlain = true)
    (h : w.perform me expired task = some progress) (hstart : task ≠ .unit (.startUnit n u)) :
    progress.world.taken? n u = w.taken? n u := by
  by_cases hsend : ∃ event, task = .event (.send n u event)
  · obtain ⟨event, rfl⟩ := hsend
    exact (send_keepsMark n u event progress h).taken?_eq
  by_cases hreceive : task = .unit (.receive n u)
  · subst hreceive
    exact (receive_keepsMark expired n u progress h).taken?_eq
  have hmark := perform_mark hplain h hstart (fun event hsame => hsend ⟨event, hsame⟩) hreceive
  have htaken : SameMark UnitState.taken? n u w progress.world := by
    simpa [SameMark, Option.map_map, Function.comp_def, UnitState.mark] using
      congrArg (Option.map Prod.fst) hmark
  exact htaken.taken?_eq

/-- Only who puts events into the queue of a unit or takes them from it touches the queue. -/
theorem perform_queue {task : Task} {expired : Bool} (hplain : task.isPlain = true)
    (h : w.perform me expired task = some progress)
    (hsend : ∀ event, task ≠ .event (.send n u event)) (hreceive : task ≠ .unit (.receive n u)) :
    SameMark UnitState.queue n u w progress.world := by
  by_cases hstart : task = .unit (.startUnit n u)
  · subst hstart
    have hperform : w.startUnit n u = some progress := h
    obtain ⟨unit, hunit, hperform⟩ := Option.bind_eq_some_iff.mp hperform
    split at hperform
    · cases hperform
      exact .refl
    · split at hperform
      · cases hperform
        exact .refl
      · cases hperform
        refine SameMark.of_nodes (v := w.changeUnit n u _)
          (SameMark.refl.changeUnit fun unit _ => ?_) rfl
        unfold ExecutionUnit.changeQueue
        split <;> simp_all [UnitState.queue]
  · simpa [SameMark, Option.map_map, Function.comp_def, UnitState.mark] using
      congrArg (Option.map Prod.snd) (perform_mark hplain h hstart hsend hreceive)

/-- A unit with a queue, seen from the mark. -/
theorem exists_queued_of_taken? {taken : Bool} (h : w.taken? n u = some taken) :
    ∃ unit state, w.unit? n u = some unit ∧ unit.state = .queued state ∧ state.taken = taken := by
  obtain ⟨unit, hunit, htaken⟩ := Option.bind_eq_some_iff.mp h
  cases hstate : unit.state with
  | inline state =>
    rw [hstate] at htaken
    cases htaken
  | queued state =>
    rw [hstate] at htaken
    exact ⟨unit, state, hunit, hstate, Option.some.inj htaken⟩

/-- A unit is not started again when its processor was given away. -/
theorem startUnit_of_taken (htaken : w.taken? n u = some true)
    (h : w.startUnit n u = some progress) : ∃ error, progress = .goOn w [.failed error] := by
  obtain ⟨unit, state, hunit, hstate, htrue⟩ := exists_queued_of_taken? htaken
  simp only [startUnit, hunit, hstate, htrue, Option.bind_eq_bind, Option.bind_some] at h
  cases h
  exact ⟨_, rfl⟩

/-- The first start of a unit with a queue gives its processor to a new thread. -/
theorem startUnit_of_not_taken (hnot : w.taken? n u = some false)
    (h : w.startUnit n u = some progress) :
    progress.world.taken? n u = some true ∧ progress.todo = [.unit (.awaitWorker n u)] ∧
      progress.world.agendas = w.agendas ++ [[.unit (.prepareWorker n u false)]] := by
  obtain ⟨unit, state, hunit, hstate, hfalse⟩ := exists_queued_of_taken? hnot
  simp only [startUnit, hunit, hstate, hfalse, Option.bind_eq_bind, Option.bind_some] at h
  cases h
  refine ⟨?_, rfl, ?_⟩
  · show (World.changeUnit w n u _).taken? n u = some true
    rw [taken?, unit?_changeUnit, if_pos ⟨rfl, rfl⟩, hunit]
    simp [ExecutionUnit.changeQueue, hstate, UnitState.taken?]
  · simp [Progress.world, agendas, spawn]

/-- A unit with a queue is stopped without calling its processor. -/
theorem stopUnit_of_queued {taken : Bool} (hqueued : w.taken? n u = some taken)
    (h : w.stopUnit n u = some progress) :
    progress.world = w ∧ ∀ next ∈ progress.todo, next.charge? = none ∧ next.feeds? = none := by
  obtain ⟨unit, state, hunit, hstate, -⟩ := exists_queued_of_taken? hqueued
  simp only [stopUnit, hunit, hstate, Option.bind_eq_bind, Option.bind_some] at h
  split at h
  · cases h
    exact ⟨rfl, by simp [Progress.todo, Task.charge?, Task.feeds?]⟩
  · cases h
    exact ⟨rfl, by simp [Progress.todo]⟩

end World

end EventPipeline
