import EventPipeline.Proofs.Lifecycle.Taken
import EventPipeline.Proofs.Engine.Conservation

/-!
# `EventPipeline.Proofs.Lifecycle.Rounds`: the one round of a queued processor

A unit with a queue gives its processor to a worker thread, and only the worker calls its hooks.
`RoundStage` says how far the worker has come: what it has to do, and which hooks were called. The
theorems:

* `World.Attended.move`: every move of every thread leaves the processor unattended as long as it
  was not given away, and afterwards attended by one worker at some stage of its round.
* `World.round_of_queued`: so on every course, whatever threads start the unit, stop it and bring it
  events, in whatever order and however often, the hooks of its processor are called in one round:
  it is made ready once, then it processes events, and at last it is finished once.
-/

set_option autoImplicit false

namespace EventPipeline

variable {P : Plugins}

/-! ## Rounds -/

/-- What the record has of all hooks of a plugin. -/
def hooksOf (subject : Instance) (record : List Deed) : List HookEvent :=
  eventsOf (fun _ => true) subject record

/-- A processor was made ready and has processed events since. -/
def served (processed : List Upshot) : List HookEvent :=
  Hook.prepare.call .returned ++ processed.flatMap Hook.process.call

/-- A whole round of a processor: if it becomes ready it processes events, and then it is
finished. -/
inductive ProcessorRound : List HookEvent → Prop
  | unfit (upshot : Upshot) (h : upshot ≠ .returned) : ProcessorRound (Hook.prepare.call upshot)
  | served (processed : List Upshot) (finished : Upshot) :
    ProcessorRound (served processed ++ Hook.finish.call finished)

/-- The processor whose hook a task calls, or whose worker is between two calls with it. -/
def Task.attends? : Task → Option Instance
  | .event (.process n u _ _) => some (.processor n u)
  | task => task.charge?

/-- How far the worker of a processor has come: what it has to do, and which hooks were called. -/
inductive RoundStage (n u : Nat) : List Task → List HookEvent → Prop
  | preparing (asked : Bool) :
    RoundStage n u [.unit (.prepareWorker n u asked)] (Hook.prepare.entered asked)
  | unfit (upshot : Upshot) (h : upshot ≠ .returned) : RoundStage n u [] (Hook.prepare.call upshot)
  | serving (processed : List Upshot) (errands : List Task)
    (herrands : ∀ errand ∈ errands, errand.isErrand = true ∧
      errand.attends? ≠ some (.processor n u)) :
    RoundStage n u (errands ++ [.unit (.receive n u)]) (served processed)
  | processing (processed : List Upshot) (event : Event) (asked : Bool) (errands : List Task)
    (herrands : ∀ errand ∈ errands, errand.isErrand = true ∧
      errand.attends? ≠ some (.processor n u)) :
    RoundStage n u (.event (.process n u event asked) :: (errands ++ [.unit (.receive n u)]))
      (served processed ++ Hook.process.entered asked)
  | looking (processed : List Upshot) :
    RoundStage n u [.unit (.checkDismissed n u)] (served processed)
  | finishing (processed : List Upshot) (asked : Bool) :
    RoundStage n u [.unit (.finishWorker n u asked)]
      (served processed ++ Hook.finish.entered asked)
  | finished (processed : List Upshot) (upshot : Upshot) :
    RoundStage n u [] (served processed ++ Hook.finish.call upshot)

/-- A call that was entered is the beginning of one that ends. -/
theorem Hook.entered_prefix_call (hook : Hook) (made : Bool) (upshot : Upshot) :
    hook.entered made <+: hook.call upshot := by
  cases made with
  | false => exact List.nil_prefix
  | true => exact ⟨[.ends hook upshot], rfl⟩

/-- One event more. -/
theorem served_append (processed : List Upshot) (upshot : Upshot) :
    served processed ++ Hook.process.call upshot = served (processed ++ [upshot]) := by
  simp [served]

/-- The worker is about to finish the processor. -/
theorem RoundStage.begins_finishing {n u : Nat} (processed : List Upshot) :
    RoundStage n u [.unit (.finishWorker n u false)] (served processed) := by
  have hstage := RoundStage.finishing (n := n) (u := u) processed false
  rwa [show Hook.finish.entered false = [] from rfl, List.append_nil] at hstage

/-- What has been called at a stage is the beginning of a round. -/
theorem RoundStage.prefix_round {n u : Nat} {agenda : List Task} {hooks : List HookEvent}
    (h : RoundStage n u agenda hooks) : ∃ round, ProcessorRound round ∧ hooks <+: round := by
  have hserved (processed : List Upshot) (tail : List HookEvent)
      (htail : tail <+: Hook.finish.call .returned) :
      ∃ round, ProcessorRound round ∧ served processed ++ tail <+: round :=
    ⟨_, .served processed .returned, (List.prefix_append_right_inj _).mpr htail⟩
  cases h with
  | preparing asked => exact ⟨_, .unfit .failed (by decide), Hook.entered_prefix_call ..⟩
  | unfit upshot hne => exact ⟨_, .unfit upshot hne, List.prefix_rfl⟩
  | serving processed | looking processed =>
    simpa using hserved processed [] List.nil_prefix
  | processing processed event asked =>
    -- the event is one more that a whole round has processed
    refine ⟨_, .served (processed ++ [.returned]) .returned, ?_⟩
    rw [← served_append]
    exact ((List.prefix_append_right_inj _).mpr (Hook.entered_prefix_call ..)).trans
      (List.prefix_append ..)
  | finishing processed asked => exact hserved processed _ (Hook.entered_prefix_call ..)
  | finished processed upshot => exact ⟨_, .served processed upshot, List.prefix_rfl⟩

/-! ## Who attends to a processor -/

/-- Whoever calls a hook of a processor attends to it. -/
theorem Task.attends?_of_call {task : Task} {call : HookCall} {n u : Nat}
    (h : task.call? = some call) (hsubject : call.subject = .processor n u) :
    task.attends? = some (.processor n u) := by
  rw [← hsubject]
  cases task with
  | event part => cases part <;> first | (cases h; rfl) | cases h
  | unit part => cases part <;> first | (cases h; rfl) | cases h
  | source part => cases part <;> first | (cases h; cases hsubject) | cases h
  | _ => cases h

/-- Whoever attends to a processor takes care of its life, or has it process an event. -/
theorem Task.attends?_cases {task : Task} {i : Instance} (h : task.attends? = some i) :
    task.charge? = some i ∨ ∃ n u event asked, task = .event (.process n u event asked) ∧
      i = .processor n u := by
  cases task with
  | event part =>
    cases part with
    | process n u event asked => exact .inr ⟨n, u, event, asked, rfl, (Option.some.inj h).symm⟩
    | _ => cases h
  | _ => exact .inl h

theorem Task.attends?_of_charge {task : Task} {i : Instance} (h : task.charge? = some i) :
    task.attends? = some i := by
  cases task with
  | event part => cases h
  | _ => exact h

/-- Only the start and the stop of a unit have somebody take care of its processor. -/
theorem Task.summons?_cases {task : Task} {n u : Nat} (h : task.summons? = some (.processor n u)) :
    task = .unit (.startUnit n u) ∨ task = .unit (.stopUnit n u) := by
  cases task with
  | unit part =>
    cases part with
    | startUnit m i =>
      cases h
      exact .inl rfl
    | stopUnit m i =>
      cases h
      exact .inr rfl
    | _ => cases h
  | source part => cases part <;> cases h
  | _ => cases h

/-- A processor gets an event from its queue or on the thread that brings it. -/
theorem Task.feeds?_cases {task : Task} {n u : Nat} (h : task.feeds? = some (.processor n u)) :
    (∃ event, task = .event (.send n u event)) ∨
      ∃ event asked, task = .event (.process n u event asked) := by
  cases task with
  | event part =>
    cases part with
    | send m i event =>
      cases h
      exact .inl ⟨event, rfl⟩
    | process m i event asked =>
      cases h
      exact .inr ⟨event, asked, rfl⟩
    | _ => cases h
  | _ => cases h

namespace World

variable {w w' v : World P} {me k n u : Nat} {task : Task} {rest agenda : List Task}
  {progress : Progress P} {expired : Bool} {hooks : List HookEvent}

/-- A task that does not attend to a processor calls none of its hooks. -/
theorem hooksOf_deedsOf_ne (h : task.attends? ≠ some (.processor n u)) :
    hooksOf (.processor n u) (w.deedsOf me expired task) = [] := by
  rw [hooksOf, eventsOf_deedsOf]
  cases hcall : task.call? with
  | none => rfl
  | some call =>
    have hne : call.subject ≠ .processor n u := fun hsubject =>
      h (Task.attends?_of_call hcall hsubject)
    show (if _ then _ else _) = _
    rw [if_neg fun hboth => hne hboth.1]

/-- What a task adds to the record that calls a hook. -/
theorem hooksOf_deedsOf {hook : Hook} {made : Bool} {i : Instance}
    (hcall : task.call? = some ⟨i, hook, made⟩) :
    hooksOf i (w.deedsOf me expired task) =
      HookCall.events ⟨i, hook, made⟩ (w.upshot? expired task) := by
  rw [hooksOf, eventsOf_deedsOf, hcall]
  exact if_pos ⟨rfl, rfl⟩

/-- A task that calls no hook adds none to the record. -/
theorem hooksOf_deedsOf_none {i : Instance} (h : task.call? = none) :
    hooksOf i (w.deedsOf me expired task) = [] := by
  rw [hooksOf, eventsOf_deedsOf, h]
  rfl

/-- Handing on an event, and telling what became of it, attends to no processor. -/
theorem attends?_of_accepted {node : Node P} {m : Nat} {event : Event} {next : Task}
    (h : next ∈ accepted node m event) : next.attends? = none := by
  unfold accepted at h
  split at h
  · obtain rfl | rfl := by simpa using h
    · rfl
    · rfl
  · obtain rfl := by simpa using h
    rfl

/-- Nobody attends to a processor because an event is put into its queue. -/
theorem attends?_of_send {event : Event} (h : w.send n u event = some progress) :
    ∀ next ∈ progress.todo, next.attends? = none := by
  simp only [send, reject, Option.bind_eq_bind, Option.bind_eq_some_iff] at h
  obtain ⟨node, hnode, unit, hunit, h⟩ := h
  split at h
  · cases h
    intro next hnext
    exact attends?_of_accepted hnext
  · cases h
    intro next hnext
    obtain rfl := List.mem_singleton.mp hnext
    rfl

/-- Nobody attends to a processor because an event is offered to its unit, if that has a queue. -/
theorem attends?_of_offer {taken : Bool} (hqueued : w.taken? n u = some taken) {event : Event}
    (h : w.offer n u event = some progress) : ∀ next ∈ progress.todo, next.attends? = none := by
  simp only [offer, reject, Option.bind_eq_bind, Option.bind_eq_some_iff] at h
  obtain ⟨node, hnode, unit, hunit, h⟩ := h
  have hmark : unit.state.taken? = some taken := by
    rw [taken?, unit?, hnode, Option.bind_some, hunit] at hqueued
    exact hqueued
  intro next hnext
  split at h
  · cases h
    obtain rfl := List.mem_singleton.mp hnext
    rfl
  · rename_i later hoffer
    exact absurd hoffer (ExecutionUnit.offer_ne_inline hmark)
  · cases h
    obtain rfl := List.mem_singleton.mp hnext
    rfl

/-- Nobody attends to a processor because of what the thread does that starts or stops its unit,
if that has a queue. -/
theorem attends?_of_summons {taken : Bool} (hqueued : w.taken? n u = some taken)
    (hsummons : task.summons? = some (.processor n u))
    (h : w.perform me expired task = some progress) :
    ∀ next ∈ progress.todo, next.charge? = none := by
  intro next hnext
  obtain rfl | rfl := Task.summons?_cases hsummons
  · cases taken with
    | true =>
      obtain ⟨error, rfl⟩ := startUnit_of_taken hqueued h
      obtain rfl := List.mem_singleton.mp hnext
      rfl
    | false =>
      obtain ⟨-, htodo, -⟩ := startUnit_of_not_taken hqueued h
      rw [htodo] at hnext
      obtain rfl := List.mem_singleton.mp hnext
      rfl
  · exact ((stopUnit_of_queued hqueued h).2 next hnext).1

/-- What comes after a task attends to a processor whose unit has a queue only if the task does. -/
theorem attends?_of_todo {taken : Bool} (hqueued : w.taken? n u = some taken)
    (h : w.perform me expired task = some progress) {next : Task} (hnext : next ∈ progress.todo)
    (hattends : next.attends? = some (.processor n u)) :
    task.attends? = some (.processor n u) := by
  obtain ⟨-, hcharges, -, hfeeds, -⟩ := (perform_reaches h).todo next hnext
  obtain hcharge | ⟨m, i, event, asked, rfl, heq⟩ := Task.attends?_cases hattends
  · rw [hcharge] at hcharges
    obtain hnone | hsame | hsummons := hcharges
    · cases hnone
    · exact Task.attends?_of_charge hsame.symm
    · rw [attends?_of_summons hqueued hsummons.symm h next hnext] at hcharge
      cases hcharge
  · cases heq
    have hbusy : (Task.event (.process n u event asked)).attends? ≠ none := by
      rintro ⟨⟩
    obtain hnone | hsame | hserves := hfeeds
    · cases hnone
    · obtain ⟨sent, rfl⟩ | ⟨begun, before, rfl⟩ := Task.feeds?_cases hsame.symm
      · exact absurd (attends?_of_send h _ hnext) hbusy
      · rfl
    · obtain ⟨offered, rfl⟩ | rfl := Task.serves?_cases hserves.symm
      · exact absurd (attends?_of_offer hqueued h _ hnext) hbusy
      · rfl

/-! ## Turns of the worker -/

/-- The worker makes the processor ready. -/
theorem stage_prepare {asked : Bool} (h : w.prepareWorker n u asked = some progress) :
    RoundStage n u (progress.next []) (Hook.prepare.entered asked ++
      hooksOf (.processor n u) (w.deedsOf me expired (.unit (.prepareWorker n u asked)))) := by
  simp only [prepareWorker, Option.bind_eq_bind, Option.bind_eq_some_iff] at h
  obtain ⟨unit, hunit, ⟨reply, called⟩, hcall, h⟩ := h
  have hupshot : w.upshot? expired (.unit (.prepareWorker n u asked)) = reply.upshot? := by
    simp [upshot?, hcall]
  rw [hooksOf_deedsOf rfl, hupshot]
  cases reply with
  | waiting limit =>
    cases asked with
    | true => simp at h
    | false =>
      obtain rfl : _ = progress := by simpa [andThen] using h
      exact .preparing true
  | panicked text =>
    cases h
    rw [Reply.upshot?, Hook.entered_append_some]
    exact .unfit .panicked (by decide)
  | failed error =>
    cases h
    rw [Reply.upshot?, Hook.entered_append_some]
    exact .unfit .failed (by decide)
  | returned value =>
    cases h
    rw [Reply.upshot?, Hook.entered_append_some]
    exact .serving [] [] (List.forall_mem_nil _)

/-- The worker finishes the processor. -/
theorem stage_finish {asked : Bool} {processed : List Upshot}
    (h : w.finishWorker n u asked = some progress) :
    RoundStage n u (progress.next []) (served processed ++ Hook.finish.entered asked ++
      hooksOf (.processor n u) (w.deedsOf me expired (.unit (.finishWorker n u asked)))) := by
  simp only [finishWorker, Option.bind_eq_bind, Option.bind_eq_some_iff] at h
  obtain ⟨unit, hunit, ⟨reply, called⟩, hcall, h⟩ := h
  have hupshot : w.upshot? expired (.unit (.finishWorker n u asked)) = reply.upshot? := by
    simp [upshot?, hcall]
  rw [List.append_assoc, hooksOf_deedsOf rfl, hupshot]
  have hended {upshot : Upshot} (hreply : reply.upshot? = some upshot) :
      RoundStage n u [] (served processed ++ (Hook.finish.entered asked ++
        HookCall.events ⟨.processor n u, .finish, asked⟩ reply.upshot?)) := by
    rw [hreply, Hook.entered_append_some]
    exact .finished processed upshot
  cases reply with
  | waiting limit =>
    cases asked with
    | true => simp at h
    | false =>
      obtain rfl : _ = progress := by simpa [andThen] using h
      exact .finishing processed true
  | panicked text =>
    cases h
    exact hended rfl
  | failed error =>
    cases h
    exact hended rfl
  | returned value =>
    cases h
    exact hended rfl

/-- What having an event processed comes to: the processor is asked, or it is done with the event,
which at most goes on. -/
theorem process_cases (expired : Bool) {event : Event} {asked : Bool}
    (h : w.process n u event asked = some progress) :
    (asked = false ∧ w.upshot? expired (.event (.process n u event asked)) = none ∧
      ∃ v, progress = .goOn v [.event (.process n u event true)]) ∨
    ∃ upshot v todo, w.upshot? expired (.event (.process n u event asked)) = some upshot ∧
      progress = .goOn v todo ∧
        ∀ next ∈ todo, ∃ gate handed, next = .event (.emit gate handed) := by
  simp only [process, fail, Option.bind_eq_bind, Option.bind_eq_some_iff] at h
  obtain ⟨node, hnode, unit, hunit, ⟨reply, called⟩, hcall, h⟩ := h
  have hupshot : w.upshot? expired (.event (.process n u event asked)) = reply.upshot? := by
    simp [upshot?, hcall]
  rw [hupshot]
  have hemits (gate : GateId) (handed : Event) :
      ∀ next ∈ [Task.event (.emit gate handed)],
        ∃ gate handed, next = .event (.emit gate handed) := by
    intro next hnext
    exact ⟨gate, handed, List.mem_singleton.mp hnext⟩
  cases reply with
  | waiting limit =>
    cases asked with
    | true => simp at h
    | false =>
      obtain rfl : _ = progress := by simpa [andThen] using h
      exact .inl ⟨rfl, rfl, called, rfl⟩
  | panicked text =>
    cases h
    exact .inr ⟨.panicked, _, [], rfl, rfl, List.forall_mem_nil _⟩
  | failed error =>
    cases h
    exact .inr ⟨.failed, _, [], rfl, rfl, List.forall_mem_nil _⟩
  | returned outcome =>
    cases hkind : node.kind with
    | sink =>
      rw [hkind] at h
      cases h
      exact .inr ⟨.returned, _, [], rfl, rfl, List.forall_mem_nil _⟩
    | transform =>
      rw [hkind] at h
      cases outcome with
      | pass | update payload =>
        cases h
        exact .inr ⟨.returned, _, _, rfl, rfl, hemits _ _⟩
      | stop reason =>
        cases h
        exact .inr ⟨.returned, _, [], rfl, rfl, List.forall_mem_nil _⟩

/-- The worker has an event processed. -/
theorem stage_process {processed : List Upshot} {event : Event} {asked : Bool}
    {errands : List Task}
    (herrands : ∀ errand ∈ errands, errand.isErrand = true ∧
      errand.attends? ≠ some (.processor n u))
    (h : w.process n u event asked = some progress) :
    RoundStage n u (progress.next (errands ++ [.unit (.receive n u)]))
      (served processed ++ Hook.process.entered asked ++
        hooksOf (.processor n u) (w.deedsOf me expired (.event (.process n u event asked)))) := by
  rw [List.append_assoc, hooksOf_deedsOf rfl]
  obtain ⟨rfl, hupshot, v, rfl⟩ | ⟨upshot, v, todo, hupshot, rfl, htodo⟩ := process_cases expired h
  · rw [hupshot]
    exact .processing processed event true errands herrands
  · rw [hupshot, Hook.entered_append_some, served_append, Progress.next, ← List.append_assoc]
    refine .serving _ _ ?_
    intro next hnext
    rcases List.mem_append.mp hnext with hnext | hnext
    · obtain ⟨gate, handed, rfl⟩ := htodo next hnext
      exact ⟨rfl, by rintro ⟨⟩⟩
    · exact herrands next hnext

/-- The worker takes an event from the queue, or looks whether it is dismissed. -/
theorem stage_receive {processed : List Upshot} (h : w.receive expired n u = some progress) :
    RoundStage n u (progress.next []) (served processed) := by
  simp only [receive, Option.bind_eq_bind, Option.bind_eq_some_iff] at h
  obtain ⟨unit, hunit, h⟩ := h
  split at h
  · rename_i event later hnext
    cases h
    have hsettle : ∀ errand ∈ [Task.event (.settle n u)], errand.isErrand = true ∧
        errand.attends? ≠ some (.processor n u) := by
      intro errand herrand
      obtain rfl := List.mem_singleton.mp herrand
      exact ⟨rfl, by rintro ⟨⟩⟩
    simpa [Hook.entered, Progress.next] using
      RoundStage.processing processed event false _ hsettle
  · cases h
    exact .begins_finishing processed
  · split at h
    · cases h
      exact .looking processed
    · cases h

/-- The worker looks whether it is dismissed. -/
theorem stage_checkDismissed {processed : List Upshot}
    (h : w.checkDismissed n u = some progress) :
    RoundStage n u (progress.next []) (served processed) := by
  simp only [checkDismissed, Option.bind_eq_bind, Option.bind_eq_some_iff] at h
  obtain ⟨unit, hunit, h⟩ := h
  split at h
  · cases h
  · split at h
    · cases h
      exact .begins_finishing processed
    · cases h
      exact .serving processed [] (List.forall_mem_nil _)

namespace Turn

variable {taken : Bool} (h : w.Turn me expired task rest progress w')
include h

/-- A turn of the worker brings it from one stage to the next. -/
theorem stage (hqueued : w.taken? n u = some taken)
    (hstage : RoundStage n u (task :: rest) hooks) :
    RoundStage n u (progress.next rest)
      (hooks ++ hooksOf (.processor n u) (w.deedsOf me expired task)) := by
  generalize hagenda : task :: rest = agenda at hstage
  cases hstage with
  | unfit | finished => cases hagenda
  | preparing asked =>
    cases hagenda
    exact stage_prepare h.performs
  | processing processed event asked errands herrands =>
    cases hagenda
    exact stage_process herrands h.performs
  | looking processed =>
    cases hagenda
    rw [hooksOf_deedsOf_none rfl, List.append_nil]
    exact stage_checkDismissed h.performs
  | finishing processed asked =>
    cases hagenda
    exact stage_finish h.performs
  | serving processed errands herrands =>
    cases errands with
    | nil =>
      cases hagenda
      rw [hooksOf_deedsOf_none rfl, List.append_nil]
      exact stage_receive h.performs
    | cons errand errands =>
      obtain ⟨rfl, rfl⟩ := List.cons.inj hagenda
      obtain ⟨herrand, hattends⟩ := herrands task (List.mem_cons_self ..)
      obtain ⟨v, todo, rfl, htodo⟩ := h.errands herrand
      rw [hooksOf_deedsOf_ne hattends, List.append_nil]
      show RoundStage n u (todo ++ (errands ++ [.unit (.receive n u)])) (served processed)
      rw [← List.append_assoc]
      refine .serving processed _ ?_
      intro next hnext
      rcases List.mem_append.mp hnext with hnext | hnext
      · refine ⟨htodo next hnext, ?_⟩
        intro hnextAttends
        exact hattends (attends?_of_todo hqueued h.performs hnext hnextAttends)
      · exact herrands next (List.mem_cons_of_mem _ hnext)

/-- A turn that does not start the unit for the first time does not touch the mark. -/
theorem taken? (hplain : task.isPlain = true) (hqueued : w.taken? n u = some taken)
    (hstart : task = .unit (.startUnit n u) → taken = true) :
    w'.taken? n u = some taken := by
  have hworld : w'.taken? n u = progress.world.taken? n u := by
    rw [World.taken?, h.unit?, World.taken?]
  rw [hworld]
  by_cases hsame : task = .unit (.startUnit n u)
  · subst hsame
    obtain rfl := hstart rfl
    obtain ⟨error, rfl⟩ := startUnit_of_taken hqueued h.performs
    exact hqueued
  · rw [perform_taken? hplain h.performs hsame, hqueued]

/-- Who attends to the processor after a turn has attended to it before, if the turn does not
start the unit for the first time. -/
theorem attends (hqueued : w.taken? n u = some taken)
    (hstart : task = .unit (.startUnit n u) → taken = true) {who : Nat → Prop}
    (hwho : w.Tasks fun j task => task.attends? = some (.processor n u) → who j) :
    w'.Tasks fun j task => task.attends? = some (.processor n u) → who j := by
  have htodo : ∀ next ∈ progress.todo, next.attends? = some (.processor n u) → who me := by
    intro next hnext hattends
    exact h.task_holds hwho (attends?_of_todo hqueued h.performs hnext hattends)
  by_cases hlabour : task.isLabour = true
  · exact h.tasks_alone (h.agendas_labour hlabour) hwho htodo
  by_cases hsummons : task.summons? = some (.processor n u)
  · have hsame : progress.world.agendas = w.agendas := by
      obtain rfl | rfl := Task.summons?_cases hsummons
      · obtain rfl := hstart rfl
        obtain ⟨error, rfl⟩ := startUnit_of_taken hqueued h.performs
        rfl
      · rw [(stopUnit_of_queued hqueued h.performs).1]
    exact h.tasks_alone hsame hwho htodo
  · refine h.tasks hwho (fun next hnext _ => htodo next hnext) ?_
    intro j next _ hspawns hattends
    obtain hcharge | ⟨m, i, event, asked, rfl, heq⟩ := Task.attends?_cases hattends
    · obtain hnone | hsummoned := hspawns.2.1
      · rw [hnone] at hcharge
        cases hcharge
      · exact absurd (hsummoned.symm.trans hcharge) hsummons
    · cases heq
      obtain hnone | hsame | hserves := hspawns.1.2.2.2.1
      · cases hnone
      · -- only tasks on the way of an event feed a processor, and they are labour
        obtain ⟨sent, rfl⟩ | ⟨begun, before, rfl⟩ := Task.feeds?_cases hsame.symm
        · exact absurd rfl hlabour
        · exact absurd rfl hlabour
      · exact absurd (Task.isLabour_of_serves hserves.symm) hlabour

end Turn

/-! ## The keeper of a processor -/

/-- The processor of a unit with a queue, and the record of its hooks: it was not given away and
no hook was called, or one worker attends to it, which is at a stage of its round. -/
inductive Attended (w : World P) (n u : Nat) (hooks : List HookEvent) : Prop
  | idle (hmark : w.taken? n u = some false)
    (hnobody : w.Tasks fun _ task => task.attends? ≠ some (.processor n u)) (hnone : hooks = [])
  | kept (k : Nat) (agenda : List Task) (hmark : w.taken? n u = some true)
    (hagenda : w.agendas[k]? = some agenda)
    (hkeeper : w.Tasks fun j task => task.attends? = some (.processor n u) → j = k)
    (hstage : RoundStage n u agenda hooks)

/-- Every turn leaves the processor with one worker at most. -/
theorem Attended.turn (hattended : w.Attended n u hooks) (hplain : task.isPlain = true)
    (h : w.Turn me expired task rest progress w') :
    w'.Attended n u (hooks ++ hooksOf (.processor n u) (w.deedsOf me expired task)) := by
  cases hattended with
  | idle hmark hnobody hnone =>
    have hidle : task.attends? ≠ some (.processor n u) := h.task_holds hnobody
    rw [hooksOf_deedsOf_ne hidle, List.append_nil]
    by_cases hstart : task = .unit (.startUnit n u)
    · subst hstart
      obtain ⟨htaken, htodo, hagendas⟩ := startUnit_of_not_taken hmark h.performs
      refine .kept w.threads.length _ ?_ (h.agenda_spawned hagendas) ?_ ?_
      · rw [← htaken, World.taken?, h.unit?, World.taken?]
      · refine h.tasks_worker hagendas ?_ ?_ fun _ => rfl
        · intro j agenda hagenda next hnext hattends
          exact absurd hattends (hnobody j agenda hagenda next hnext)
        · intro next hnext hattends
          rw [htodo] at hnext
          obtain rfl := List.mem_singleton.mp hnext
          cases hattends
      · rw [hnone]
        exact .preparing false
    · have hnever : task = .unit (.startUnit n u) → false = true := fun hsame =>
        absurd hsame hstart
      exact .idle (h.taken? hplain hmark hnever) (h.attends hmark hnever hnobody) hnone
  | kept k agenda hmark hagenda hkeeper hstage =>
    have hkept {later : List Task} (hlater : w'.agendas[k]? = some later)
        (hstage : RoundStage n u later
          (hooks ++ hooksOf (.processor n u) (w.deedsOf me expired task))) :
        w'.Attended n u (hooks ++ hooksOf (.processor n u) (w.deedsOf me expired task)) :=
      .kept k later (h.taken? hplain hmark fun _ => rfl) hlater
        (h.attends hmark (fun _ => rfl) hkeeper) hstage
    by_cases hme : me = k
    · subst hme
      obtain rfl := Option.some.inj (h.agenda.symm.trans hagenda)
      exact hkept h.agenda_me (h.stage hmark hstage)
    · refine hkept (h.agenda_ne (Ne.symm hme) hagenda) ?_
      have hother : task.attends? ≠ some (.processor n u) := fun hattends =>
        hme (h.task_holds hkeeper hattends)
      rwa [hooksOf_deedsOf_ne hother, List.append_nil]

/-- Every move leaves the processor with one worker at most. -/
theorem Attended.move {move : Move P} (hattended : w.Attended n u hooks) (hplain : w.Plain)
    (h : w.move move = some w') :
    w'.Attended n u (hooks ++ hooksOf (.processor n u) (w.deeds move)) := by
  obtain ⟨me, expired, task, rest, progress, rfl, hturn⟩ | ⟨hdeeds, hsame⟩ := move_cases h
  · rw [hturn.deeds]
    refine hattended.turn ?_ hturn
    exact hplain _ (List.mem_of_getElem? hturn.agenda) task (List.mem_cons_self ..)
  · have hmark : w'.taken? n u = w.taken? n u := by rw [taken?, hsame.unit?, taken?]
    rw [hdeeds]
    show w'.Attended n u (hooks ++ [])
    rw [List.append_nil]
    cases hattended with
    | idle hfalse hnobody hnone => exact .idle (hmark.trans hfalse) (hsame.tasks hnobody) hnone
    | kept k agenda htrue hagenda hkeeper hstage =>
      exact .kept k agenda (hmark.trans htrue) (hsame.agendas ▸ hagenda) (hsame.tasks hkeeper)
        hstage

/-- Every course leaves the processor with one worker at most. -/
theorem Attended.follow {moves : List (Move P)} (hattended : w.Attended n u hooks)
    (hplain : w.Plain) (h : w.follow moves = some v) :
    v.Attended n u (hooks ++ hooksOf (.processor n u) (w.record moves)) := by
  induction moves generalizing w hooks with
  | nil =>
    obtain rfl := Option.some.inj h
    show w.Attended n u (hooks ++ [])
    rwa [List.append_nil]
  | cons move moves ih =>
    obtain ⟨z, hmove, h⟩ := Option.bind_eq_some_iff.mp h
    have hlater := ih (hattended.move hplain hmove) (hplain.move hmove) h
    rw [record, hmove, Option.elim_some, hooksOf, eventsOf_append, ← List.append_assoc]
    exact hlater

/-- What has been called is the beginning of a round. -/
theorem Attended.prefix_round (h : w.Attended n u hooks) :
    ∃ round, ProcessorRound round ∧ hooks <+: round := by
  cases h with
  | idle _ _ hnone =>
    rw [hnone]
    exact ⟨_, .served [] .returned, List.nil_prefix⟩
  | kept k agenda _ _ _ hstage => exact hstage.prefix_round

/-- Nobody attends to a processor that was never started. -/
theorem Untouched.attended (h : w.Untouched (.processor n u))
    (hqueued : (w.taken? n u).isSome = true) : w.Attended n u [] := by
  refine .idle ?_ ?_ rfl
  · obtain ⟨taken, htaken⟩ := Option.isSome_iff_exists.mp hqueued
    obtain ⟨unit, state, hunit, hstate, rfl⟩ := exists_queued_of_taken? htaken
    rw [htaken]
    obtain hfresh | hfresh := h.processor n u rfl unit hunit
    · rw [hstate] at hfresh
      cases hfresh
    · rw [hstate] at hfresh
      cases hfresh
      rfl
  · intro j agenda hagenda task htask hattends
    obtain hcharge | ⟨m, i, event, asked, rfl, heq⟩ := Task.attends?_cases hattends
    · exact h.not_charge j agenda hagenda task htask hcharge
    · exact h.unfed.tasks j agenda hagenda _ htask (congrArg some heq.symm)

/-- The processor of a unit with a queue goes through one round, or a part of it, on every course
that begins when it was never started, however often the unit is started and stopped on it. -/
theorem round_of_queued {moves : List (Move P)} (hplain : w.Plain)
    (hfresh : w.Untouched (.processor n u)) (hqueued : (w.taken? n u).isSome = true)
    (h : w.follow moves = some v) :
    ∃ round, ProcessorRound round ∧ hooksOf (.processor n u) (w.record moves) <+: round :=
  ((hfresh.attended hqueued).follow hplain h).prefix_round

end World

end EventPipeline
