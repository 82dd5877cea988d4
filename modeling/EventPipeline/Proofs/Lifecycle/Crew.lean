import EventPipeline.Proofs.Lifecycle.Launcher

/-!
# `EventPipeline.Proofs.Lifecycle.Crew`: what workers leave alone

The main thread starts and stops a stream, and all other threads work for one of its plugins.
At the end of the agenda of a worker stands the task of its loop, and before it what is left of
the way of one event (`Labour`). `Crew.move` says that every move leaves a crew of such workers.

A worker that does not take care of a plugin cannot change what others see of its unit. Nor can
it bring an event to a unit that accepts none (`Unfed.turn`), and a plugin that was never started
stays as it is whatever the workers do (`Untouched.turn`).
-/

set_option autoImplicit false

namespace EventPipeline

variable {P : Plugins}

/-! ## The tasks of workers -/

/-- A worker does such tasks: it is on an errand, or the task is the one of its loop. -/
def Task.isLabour (task : Task) : Bool :=
  task.isErrand || task.owner?.isSome

/-- The agenda of a worker: what is left of the way of one event and the task of its loop, or
nothing when it has come to its end. -/
inductive Labour : List Task → Prop
  | ended : Labour []
  | loop (errands : List Task) (task : Task)
    (herrands : ∀ errand ∈ errands, errand.isErrand = true) (h : task.owner?.isSome = true) :
    Labour (errands ++ [task])

/-- A worker has nothing but its labour to do. -/
theorem Labour.isLabour {agenda : List Task} (h : Labour agenda) :
    ∀ task ∈ agenda, task.isLabour = true := by
  cases h with
  | ended => simp
  | loop errands loop herrands howner =>
    intro task htask
    rcases List.mem_append.mp htask with htask | htask
    · simp [Task.isLabour, herrands task htask]
    · obtain rfl := List.mem_singleton.mp htask
      simp [Task.isLabour, howner]

/-- A worker that has something to do takes care of somebody. -/
theorem Labour.exists_owner {agenda : List Task} (h : Labour agenda) (hne : agenda ≠ []) :
    ∃ task ∈ agenda, task.owner?.isSome = true := by
  cases h with
  | ended => exact absurd rfl hne
  | loop errands task herrands howner => exact ⟨task, by simp, howner⟩

/-- A unit that accepts no events refuses those that are offered to it. -/
theorem ExecutionUnit.offer_of_closed {unit : ExecutionUnit P}
    (h : unit.state.signs.accepting = false) : unit.offer = .refused := by
  unfold offer
  split
  case h_1 state hstate | h_2 state hstate =>
    rw [hstate] at h
    exact if_neg (ne_true_of_eq_false h)

/-- The state of a unit that was never started. -/
def UnitState.IsFresh (state : UnitState) : Prop :=
  state = .inline {} ∨ state = .queued {}

namespace Task

/-- Whoever works for somebody takes care of a life. -/
theorem charge?_of_owner {task : Task} (h : task.owner?.isSome = true) :
    ∃ i, task.charge? = some i := by
  cases task with
  | unit task => cases task <;> first | exact ⟨_, rfl⟩ | cases h
  | source task => cases task <;> first | exact ⟨_, rfl⟩ | cases h
  | _ => cases h

/-- Nobody is summoned by a worker. -/
theorem summons?_of_labour {task : Task} (h : task.isLabour = true) : task.summons? = none := by
  cases task with
  | unit part => cases part <;> first | rfl | cases h
  | source part => cases part <;> first | rfl | cases h
  | _ => rfl

/-- An errand takes care of no life. -/
theorem charge?_of_errand {task : Task} (h : task.isErrand = true) : task.charge? = none := by
  cases task with
  | event | answer => rfl
  | _ => cases h

/-- Whoever takes care of a life summons nobody. -/
theorem summons?_of_charge {task : Task} {i : Instance} (h : task.charge? = some i) :
    task.summons? = none := by
  cases task with
  | unit part => cases part <;> first | rfl | cases h
  | source part => cases part <;> first | rfl | cases h
  | _ => rfl

/-- Whom a task summons it is about. -/
theorem subject?_of_summons {task : Task} {i : Instance} (h : task.summons? = some i) :
    task.subject? = some i := by
  cases task with
  | unit part => cases part <;> first | exact h | cases h
  | source part => cases part <;> first | exact h | cases h
  | _ => cases h

/-- Whose hook a task calls it is about. -/
theorem subject?_of_call {task : Task} {call : HookCall} (h : task.call? = some call) :
    task.subject? = some call.subject := by
  cases task with
  | event part => cases part <;> first | (obtain rfl := Option.some.inj h; rfl) | cases h
  | unit part => cases part <;> first | (obtain rfl := Option.some.inj h; rfl) | cases h
  | source part => cases part <;> first | (obtain rfl := Option.some.inj h; rfl) | cases h
  | _ => cases h

/-- A processor gets an event with an offer, or from its queue. -/
theorem serves?_cases {task : Task} {n u : Nat} (h : task.serves? = some (.processor n u)) :
    (∃ event, task = .event (.offer n u event)) ∨ task = .unit (.receive n u) := by
  cases task with
  | event part =>
    cases part with
    | offer m v event =>
      obtain ⟨rfl, rfl⟩ : m = n ∧ v = u := by simpa [serves?] using h
      exact .inl ⟨event, rfl⟩
    | _ => cases h
  | unit part =>
    cases part with
    | receive m v =>
      obtain ⟨rfl, rfl⟩ : m = n ∧ v = u := by simpa [serves?] using h
      exact .inr rfl
    | _ => cases h
  | _ => cases h

/-- Only a worker brings an event to a processor. -/
theorem isLabour_of_serves {task : Task} {i : Instance} (h : task.serves? = some i) :
    task.isLabour = true := by
  cases task with
  | event => rfl
  | unit part => cases part <;> first | rfl | cases h
  | _ => cases h

/-- A worker comes to a plugin from outside only to offer an event. -/
theorem offer_of_approaches {task : Task} {i : Instance} (h : task.isLabour = true)
    (hsubject : task.subject? = some i) (happroaches : task.approaches = true) :
    ∃ n u event, i = .processor n u ∧ task = .event (.offer n u event) := by
  cases task with
  | event part =>
    cases part with
    | offer n u event => exact ⟨n, u, event, (Option.some.inj hsubject).symm, rfl⟩
    | _ => cases happroaches
  | unit part => cases part <;> first | (cases happroaches; done) | cases h
  | source part => cases part <;> first | (cases happroaches; done) | cases h
  | _ => cases happroaches

end Task

/-! ## What shows of a unit -/

namespace Outline

variable {o o' : Outline} {task : Task} {ended : Option Nat} {todo : List Task}

/-- Handling an event does not change the signs of a unit. -/
theorem Handles.signs_eq (h : o.Handles task ended o' todo) (n u : Nat) :
    (o'.unit? n u).map (·.signs) = (o.unit? n u).map (·.signs) := by
  have hchange (m v : Nat) (f : UnitOutline → UnitOutline)
      (hf : ∀ unit, (f unit).signs = unit.signs) :
      ((o.changeUnit m v f).unit? n u).map (·.signs) = (o.unit? n u).map (·.signs) := by
    rw [unit?_changeUnit, Option.map_map]
    refine Option.map_congr fun unit _ => ?_
    show (if m = n ∧ v = u then f unit else unit).signs = unit.signs
    split
    · exact hf unit
    · rfl
  cases h with
  | takeInline m v | takeQueued m v | enqueue m v | settle m v | receive m v =>
    exact hchange m v _ fun _ => rfl
  | bounce m v =>
    rw [unit?_fail]
    exact hchange m v _ fun _ => rfl
  | release g | forward g => rw [unit?_emit]
  | drop m => rw [unit?_drop, unit?_receive]
  | bypass m | accept m => rw [unit?_receive]
  | refuse m | fail m => rw [unit?_fail]
  | _ => rfl

/-- Handling an event puts none into the queue of a unit, unless it feeds the processor. -/
theorem Handles.waiting_le (h : o.Handles task ended o' todo) {n u : Nat} {unit : UnitOutline}
    (hfeeds : task.feeds? ≠ some (.processor n u)) (hunit : o'.unit? n u = some unit) :
    ∃ before, o.unit? n u = some before ∧ unit.waiting ≤ before.waiting := by
  have hsame (hsame : o'.unit? n u = o.unit? n u) :
      ∃ before, o.unit? n u = some before ∧ unit.waiting ≤ before.waiting :=
    ⟨unit, hsame ▸ hunit, Nat.le_refl _⟩
  have hchange (m v : Nat) (f : UnitOutline → UnitOutline)
      (hf : m = n → v = u → ∀ before, (f before).waiting ≤ before.waiting)
      (heq : o'.unit? n u = (o.changeUnit m v f).unit? n u) :
      ∃ before, o.unit? n u = some before ∧ unit.waiting ≤ before.waiting := by
    rw [heq, unit?_changeUnit] at hunit
    obtain ⟨before, hbefore, rfl⟩ := Option.map_eq_some_iff.mp hunit
    refine ⟨before, hbefore, ?_⟩
    split
    case isTrue hplace => exact hf hplace.1 hplace.2 before
    case isFalse => exact Nat.le_refl _
  cases h with
  | takeInline m v | takeQueued m v =>
    exact hchange m v .take (fun _ _ _ => Nat.le_refl _) rfl
  | settle m v => exact hchange m v .finish (fun _ _ _ => Nat.le_refl _) rfl
  | receive m v => exact hchange m v .dequeue (fun _ _ _ => Nat.sub_le ..) rfl
  | enqueue m v =>
    exact hchange m v .enqueue (fun hm hv => absurd (by rw [Task.feeds?, hm, hv]) hfeeds) rfl
  | bounce m v => exact hchange m v .finish (fun _ _ _ => Nat.le_refl _) (unit?_fail ..)
  | release g | forward g => exact hsame (unit?_emit ..)
  | drop m => exact hsame (by rw [unit?_drop, unit?_receive])
  | bypass m | accept m => exact hsame (unit?_receive ..)
  | refuse m | fail m => exact hsame (unit?_fail ..)
  | _ => exact hsame rfl

/-- A turn of a loop changes the signs of no unit but its own, and no queue. -/
theorem Turns.unit?_eq (h : o.Turns task o' todo) (n u : Nat) :
    ∃ f : UnitOutline → UnitOutline, o'.unit? n u = (o.unit? n u).map f ∧
      (∀ unit, (f unit).waiting = unit.waiting) ∧
      (task.charge? ≠ some (.processor n u) → ∀ unit, (f unit).signs = unit.signs) := by
  have hsame : ∃ f : UnitOutline → UnitOutline, o.unit? n u = (o.unit? n u).map f ∧
      (∀ unit, (f unit).waiting = unit.waiting) ∧
      (task.charge? ≠ some (.processor n u) → ∀ unit, (f unit).signs = unit.signs) :=
    ⟨id, by simp, fun _ => rfl, fun _ _ => rfl⟩
  cases h with
  | ready m v | unfit m v | finished m v =>
    refine ⟨_, unit?_changeUnit .., fun unit => ?_, fun hcharge unit => ?_⟩
    · split <;> rfl
    · have hne : ¬ (m = n ∧ v = u) := fun hplace =>
        hcharge (by rw [Task.charge?, hplace.1, hplace.2])
      rw [if_neg hne]
  | _ => exact hsame

/-- A worker that takes an event from a queue has that to do first. -/
theorem Handles.labour (h : o.Handles task ended o' todo) (howner : task.owner?.isSome = true) :
    Labour todo := by
  cases h with
  | receive n u event =>
    exact .loop [.event (.process n u event false), .event (.settle n u)] _
      (by simp [Task.isErrand]) rfl
  | _ => cases howner

/-- A turn of a loop leads to the next one, or the worker has come to its end. -/
theorem Turns.labour (h : o.Turns task o' todo) : Labour todo := by
  have hlast (next : Task) (hnext : next.owner?.isSome = true) : Labour [next] :=
    .loop [] next (by simp) hnext
  cases h with
  | unfit | finished | ended => exact .ended
  | goOn t v _ next _ hnext => exact hlast next (by rw [hnext]; rfl)
  | emit t v payload continuation _ next _ hnext =>
    exact .loop [.event (.make (.trigger t) payload continuation)] next (by simp [Task.isErrand])
      (by rw [hnext]; rfl)
  | _ => exact hlast _ rfl

/-- A turn of a loop does not change sources. -/
theorem Turns.source?_eq (h : o.Turns task o' todo) (t u : Nat) :
    o'.source? t u = o.source? t u := by
  cases h <;> rfl

end Outline

namespace World

variable {w w' : World P} {me n u t : Nat} {task : Task} {rest : List Task}
  {progress : Progress P} {expired : Bool} {i : Instance}

/-- The signs of a unit of a node. -/
def signs? (w : World P) (n u : Nat) : Option Signs :=
  (w.unit? n u).map (·.state.signs)

/-- The signs show in the outline. -/
theorem signs?_eq (w : World P) (n u : Nat) :
    w.signs? n u = (w.outline.unit? n u).map (·.signs) := by
  rw [outline_unit?, Option.map_map]
  rfl

/-- What doing a task of a worker can be. -/
theorem perform_labour (hlabour : task.isLabour = true)
    (h : w.perform me expired task = some progress) :
    w.HandlesEvent task progress ∨ w.TurnsLoop task progress ∨
      ∃ answer, task = .answer answer ∧
        progress = .goOn (w.changeThread me fun thread => { thread with answer }) [] := by
  cases howner : task.owner? with
  | some owner =>
    obtain hhandles | hturns := loop_turns howner h
    · exact .inl hhandles
    · exact .inr (.inl hturns)
  | none =>
    cases task with
    | event task => exact .inl (performEvent_handles h)
    | answer answer => exact .inr (.inr ⟨answer, rfl, (Option.some.inj h).symm⟩)
    | unit part | source part => simp [Task.isLabour, Task.isErrand, howner] at hlabour
    | _ => cases hlabour

namespace Turn

/-- A worker adds no thread. -/
theorem agendas_labour (h : w.Turn me expired task rest progress w')
    (hlabour : task.isLabour = true) : progress.world.agendas = w.agendas := by
  obtain hhandles | hturns | ⟨answer, rfl, rfl⟩ := perform_labour hlabour h.performs
  · cases hhandles with
    | goOn handles threads => exact agendas_congr threads
  · cases hturns with
    | goOn turns threads => exact agendas_congr threads
    | breakDown owner outline threads => exact agendas_congr threads
  · exact agendas_answer ..

/-- Nobody but who takes care of a processor changes the signs of its unit with a task of a
worker. -/
theorem signs?_eq (h : w.Turn me expired task rest progress w') (hplain : task.isPlain = true)
    (haside : task.subject? = some (.processor n u) → task.isLabour = true)
    (hcharge : task.charge? ≠ some (.processor n u)) : w'.signs? n u = w.signs? n u := by
  by_cases hsubject : task.subject? = some (.processor n u)
  case neg => rw [signs?, h.unit?_eq hplain hsubject, signs?]
  have hworld : w'.signs? n u = progress.world.signs? n u := by rw [signs?, h.unit?, signs?]
  rw [hworld]
  obtain hhandles | hturns | ⟨answer, rfl, -⟩ := perform_labour (haside hsubject) h.performs
  · cases hhandles with
    | goOn handles =>
      rw [World.signs?_eq, World.signs?_eq w]
      exact handles.signs_eq n u
  · cases hturns with
    | @goOn v todo turns =>
      obtain ⟨f, hf, -, hsigns⟩ := turns.unit?_eq n u
      rw [World.signs?_eq, World.signs?_eq w]
      show (v.outline.unit? n u).map _ = _
      rw [hf, Option.map_map]
      exact Option.map_congr fun unit _ => hsigns hcharge unit
    | breakDown owner outline =>
      rw [World.signs?_eq, World.signs?_eq w]
      exact congrArg (fun o => (Outline.unit? o n u).map (·.signs)) outline
  · cases hsubject

/-- No task of a worker changes what shows of a source. -/
theorem source_eq (h : w.Turn me expired task rest progress w') (hplain : task.isPlain = true)
    (haside : task.subject? = some (.source t u) → task.isLabour = true) :
    (w'.source? t u).map SourceUnit.outline = (w.source? t u).map SourceUnit.outline := by
  by_cases hsubject : task.subject? = some (.source t u)
  case neg => rw [h.source?_eq hplain hsubject]
  rw [h.source?, ← outline_source?, ← outline_source?]
  obtain hhandles | hturns | ⟨answer, rfl, -⟩ := perform_labour (haside hsubject) h.performs
  · cases hhandles with
    | goOn handles => exact handles.source?_eq t u
  · cases hturns with
    | goOn turns => exact turns.source?_eq t u
    | breakDown owner outline => exact congrArg (Outline.source? · t u) outline
  · cases hsubject

/-- No worker asks a source to stop. -/
theorem haltsOf_eq (w : World P) (me : Nat) (expired : Bool)
    (haside : task.subject? = some i → task.isLabour = true) :
    haltsOf i (w.deedsOf me expired task) = [] := by
  refine haltsOf_deedsOf_ne fun t u asked hi htask => ?_
  have hlabour := haside (by rw [htask, hi]; rfl)
  rw [htask] at hlabour
  cases hlabour

end Turn

/-! ## The crew -/

/-- All threads but the main one are workers, nobody supervises streams, and all launches that
threads have in hand are launches of the world. -/
structure Crew (w : World P) : Prop where
  plain : w.Plain
  labour : ∀ j agenda, j ≠ 0 → w.agendas[j]? = some agenda → Labour agenda
  known : w.LaunchesKnown

/-- A worker has its labour to do after its turn, too. -/
theorem Turn.labour (h : w.Turn me expired task rest progress w')
    (hlabour : Labour (task :: rest)) :
    Labour (progress.next rest) := by
  generalize hagenda : task :: rest = agenda at hlabour
  cases hlabour with
  | ended => cases hagenda
  | loop errands loop herrands howner =>
    cases errands with
    | cons errand errands =>
      obtain ⟨rfl, hrest⟩ := List.cons.inj hagenda
      obtain ⟨v, todo, rfl, htodo⟩ := h.errands (herrands task (List.mem_cons_self ..))
      have hnext : todo ++ rest = todo ++ errands ++ [loop] := by
        rw [List.append_assoc]
        exact congrArg (todo ++ ·) hrest
      rw [Progress.next, hnext]
      refine .loop _ _ (fun next hnext => ?_) howner
      rcases List.mem_append.mp hnext with hnext | hnext
      · exact htodo next hnext
      · exact herrands next (List.mem_cons_of_mem _ hnext)
    | nil =>
      obtain ⟨rfl, rfl⟩ := List.cons.inj hagenda
      obtain ⟨owner, howns⟩ := Option.isSome_iff_exists.mp howner
      obtain hhandles | hturns := loop_turns howns h.performs
      · cases hhandles with
        | goOn handles =>
          rw [Progress.next, List.append_nil]
          exact handles.labour howner
      · cases hturns with
        | goOn turns =>
          rw [Progress.next, List.append_nil]
          exact turns.labour
        | breakDown => exact .ended

/-- A start or a stop adds no threads but workers. -/
theorem labour_of_conducts {o : Outline} {streams : List Stream} {spawned : List (List Task)}
    {todo : List Task} (h : w.Conducts me task o streams spawned todo) :
    ∀ agenda ∈ spawned, Labour agenda := by
  cases h with
  | startQueued | startSource =>
    intro agenda hagenda
    obtain rfl := List.mem_singleton.mp hagenda
    exact .loop [] _ (by simp) rfl
  | _ => simp

/-- A task in the life of a stream adds no threads but workers. -/
theorem Turn.spawns_labour (h : w.Turn me expired task rest progress w')
    (hplain : task.isPlain = true) :
    ∃ spawned, progress.world.agendas = w.agendas ++ spawned ∧
      ∀ agenda ∈ spawned, Labour agenda := by
  have hnone (heq : progress.world.agendas = w.agendas) : ∃ spawned,
      progress.world.agendas = w.agendas ++ spawned ∧ ∀ agenda ∈ spawned, Labour agenda :=
    ⟨[], by rw [heq, List.append_nil], by simp⟩
  obtain hhandles | hturns | hconducts | ⟨answer, rfl, rfl⟩ := perform_cases hplain h.performs
  · cases hhandles with
    | goOn handles threads => exact hnone (agendas_congr threads)
  · cases hturns with
    | goOn turns threads => exact hnone (agendas_congr threads)
    | breakDown owner outline threads => exact hnone (agendas_congr threads)
  · cases hconducts with
    | @goOn v todo spawned conducts threads =>
      refine ⟨spawned, ?_, labour_of_conducts conducts⟩
      show v.agendas = _
      rw [World.agendas, threads]
      exact map_newThreads spawned
    | breakDown halts threads => exact hnone (agendas_congr threads)
  · exact hnone (agendas_answer ..)

/-- Every move leaves a crew. -/
theorem Crew.move {move : Move P} (h : w.Crew) (hmove : w.move move = some w') : w'.Crew := by
  refine ⟨h.plain.move hmove, ?_, h.known.move hmove⟩
  obtain ⟨me, expired, task, rest, progress, rfl, hturn⟩ | ⟨-, hsame⟩ := move_cases hmove
  case inr =>
    rw [hsame.agendas]
    exact h.labour
  intro j agenda hj hagenda
  by_cases hme : j = me
  · subst hme
    obtain rfl := Option.some.inj (hturn.agenda_me.symm.trans hagenda)
    exact hturn.labour (h.labour j _ hj hturn.agenda)
  have hplain : task.isPlain = true :=
    h.plain _ (List.mem_of_getElem? hturn.agenda) task (List.mem_cons_self ..)
  obtain ⟨spawned, hspawned, hlabour⟩ := hturn.spawns_labour hplain
  rw [hturn.agendas, List.getElem?_modify_ne _ _ (Ne.symm hme), hspawned] at hagenda
  by_cases hlt : j < w.agendas.length
  · rw [List.getElem?_append_left hlt] at hagenda
    exact h.labour j agenda hj hagenda
  · rw [List.getElem?_append_right (Nat.le_of_not_lt hlt)] at hagenda
    exact hlabour agenda (List.mem_of_getElem? hagenda)

/-- The task of a turn is part of the life of a stream. -/
theorem Crew.isPlain (h : w.Crew) (hturn : w.Turn me expired task rest progress w') :
    task.isPlain = true :=
  h.plain _ (List.mem_of_getElem? hturn.agenda) task (List.mem_cons_self ..)

/-- The task of a turn of a worker is part of its labour. -/
theorem Crew.isLabour (h : w.Crew) (hme : me ≠ 0)
    (hturn : w.Turn me expired task rest progress w') : task.isLabour = true :=
  (h.labour me _ hme hturn.agenda).isLabour task (List.mem_cons_self ..)

/-! ## Processors that get no events -/

/-- No event waits for the processor, and nobody brings one to it. -/
structure Unfed (w : World P) (n u : Nat) : Prop where
  empty : ∀ unit, w.unit? n u = some unit → unit.state.waiting = 0
  tasks : w.Tasks fun _ task => task.feeds? ≠ some (.processor n u)

/-- An event that is offered to a unit that accepts none is rejected. -/
theorem todo_of_closed_offer {event : Event}
    (hclosed : ∀ signs, w.signs? n u = some signs → signs.accepting = false)
    (h : w.offer n u event = some progress) :
    ∃ v, progress = .goOn v [.dispatched .rejected] ∧ v.unit? n u = w.unit? n u := by
  simp only [offer, Option.bind_eq_bind, Option.bind_eq_some_iff] at h
  obtain ⟨node, hnode, unit, hunit, h⟩ := h
  have hfound : w.unit? n u = some unit := by simp [unit?, hnode, hunit]
  have hrefuses : unit.offer = .refused :=
    ExecutionUnit.offer_of_closed (hclosed unit.state.signs (by rw [signs?, hfound]; rfl))
  rw [hrefuses] at h
  obtain rfl := Option.some.inj h
  exact ⟨_, rfl, unit?_changeNode (f := fun node => { node with failed := node.failed + 1 })
    (fun _ => rfl) n u⟩

/-- A worker whose queue is empty gets no event from it. -/
theorem todo_of_empty_receive (hempty : ∀ unit, w.unit? n u = some unit → unit.state.waiting = 0)
    (h : w.receive expired n u = some progress) :
    ∀ next ∈ progress.todo, next.feeds? = none ∧ next.isErrand = false := by
  simp only [receive, Option.bind_eq_bind, Option.bind_eq_some_iff] at h
  obtain ⟨unit, hunit, h⟩ := h
  obtain ⟨event, later, hnext, hwaiting, -⟩ | ⟨hnext, -⟩ | hnext := unit.next_cases
  · exact absurd (hempty unit hunit) (Nat.ne_of_gt hwaiting)
  · rw [hnext] at h
    obtain rfl := Option.some.inj h
    simp [Progress.todo, Task.feeds?, Task.isErrand]
  · simp only [hnext] at h
    split at h
    · obtain rfl := Option.some.inj h
      simp [Progress.todo, Task.feeds?, Task.isErrand]
    · cases h

/-- No worker brings an event to a processor whose unit accepts none. -/
theorem Unfed.turn (hunfed : w.Unfed n u)
    (hclosed : ∀ signs, w.signs? n u = some signs → signs.accepting = false)
    (h : w.Turn me expired task rest progress w') (hplain : task.isPlain = true)
    (haside : task.subject? = some (.processor n u) → task.isLabour = true) : w'.Unfed n u := by
  have hnext (next : Task) (hmem : next ∈ progress.todo)
      (hstems : task.StemsFrom w.launches.length next) :
      next.feeds? ≠ some (.processor n u) := by
    intro hfeeds
    obtain hnone | hsame | hserves := hstems.2.2.2.1
    · exact absurd (hnone.symm.trans hfeeds) (by simp)
    · exact h.task_holds hunfed.tasks (hsame.symm.trans hfeeds)
    · obtain ⟨event, rfl⟩ | rfl := Task.serves?_cases (hserves.symm.trans hfeeds)
      · obtain ⟨v, rfl, -⟩ := todo_of_closed_offer hclosed h.performs
        obtain rfl := List.mem_singleton.mp hmem
        cases hfeeds
      · have hnone := (todo_of_empty_receive hunfed.empty h.performs next hmem).1
        exact absurd (hnone.symm.trans hfeeds) (by simp)
  constructor
  · intro unit hunit
    by_cases hsubject : task.subject? = some (.processor n u)
    case neg => exact hunfed.empty unit (h.unit?_eq hplain hsubject ▸ hunit)
    have hshows : progress.world.outline.unit? n u = some unit.outline := by
      rw [outline_unit?, ← h.unit?, hunit]
      rfl
    have hempty (before : UnitOutline) (hbefore : w.outline.unit? n u = some before) :
        before.waiting = 0 := by
      rw [outline_unit?] at hbefore
      obtain ⟨old, hold, rfl⟩ := Option.map_eq_some_iff.mp hbefore
      exact hunfed.empty old hold
    obtain hhandles | hturns | ⟨answer, rfl, -⟩ := perform_labour (haside hsubject) h.performs
    · cases hhandles with
      | goOn handles =>
        obtain ⟨before, hbefore, hle⟩ :=
          handles.waiting_le (h.task_holds hunfed.tasks) hshows
        rw [hempty before hbefore] at hle
        exact Nat.eq_zero_of_le_zero hle
    · cases hturns with
      | goOn turns =>
        obtain ⟨f, hf, hwaiting, -⟩ := turns.unit?_eq n u
        obtain ⟨before, hbefore, heq⟩ := Option.map_eq_some_iff.mp (hf.symm.trans hshows)
        show unit.outline.waiting = 0
        rw [← heq, hwaiting, hempty before hbefore]
      | breakDown owner outline =>
        exact hempty _ ((congrArg (Outline.unit? · n u) outline).symm.trans hshows)
    · cases hsubject
  · by_cases hlabour : task.isLabour = true
    · exact h.tasks_alone (h.agendas_labour hlabour) hunfed.tasks fun next hmem =>
        hnext next hmem (h.reaches.todo next hmem)
    · refine h.tasks hunfed.tasks hnext fun j next _ hspawns hfeeds => ?_
      obtain hnone | hsame | hserves := hspawns.1.2.2.2.1
      · exact absurd (hnone.symm.trans hfeeds) (by simp)
      · exact h.task_holds hunfed.tasks (hsame.symm.trans hfeeds)
      · exact hlabour (Task.isLabour_of_serves (hserves.symm.trans hfeeds))

theorem Unfed.same (h : w.Unfed n u) (hsame : Same w w') : w'.Unfed n u where
  empty unit hunit := h.empty unit (hsame.unit? n u ▸ hunit)
  tasks := hsame.tasks h.tasks

/-- A processor that gets no events processes none. -/
theorem Unfed.not_process (hunfed : w.Unfed n u) (h : w.Turn me expired task rest progress w')
    {deed : Deed} (hdeed : deed ∈ w.deedsOf me expired task)
    (hsubject : deed.subject = .processor n u) : deed.event.hook ≠ .process := by
  intro hhook
  obtain ⟨-, call, hcall, hcalled, hevent⟩ := mem_deedsOf hdeed
  rw [HookCall.hook_of_mem hevent] at hhook
  have hfeeds : task.feeds? = some call.subject := by
    cases task with
    | event part =>
      cases part with
      | process =>
        obtain rfl := Option.some.inj hcall
        rfl
      | _ => cases hcall
    | unit part => cases part <;> cases hcall <;> cases hhook
    | source part => cases part <;> cases hcall <;> cases hhook
    | _ => cases hcall
  exact h.task_holds hunfed.tasks (by rw [hfeeds, ← hcalled, hsubject])

/-! ## Plugins that were never started -/

/-- The plugin was never started: its unit is as it was built, and tasks only come to it from
outside. -/
structure Untouched (w : World P) (i : Instance) : Prop where
  outside : w.Tasks fun _ task => task.subject? = some i → task.approaches = true
  processor : ∀ n u, i = .processor n u → ∀ unit, w.unit? n u = some unit → unit.state.IsFresh
  source : ∀ t u, i = .source t u → ∀ unit, w.source? t u = some unit → unit.running = false

namespace Untouched

/-- A processor that was never started accepts no events. -/
theorem closed (h : w.Untouched (.processor n u)) {signs : Signs}
    (hsigns : w.signs? n u = some signs) :
    signs.accepting = false := by
  obtain ⟨unit, hunit, rfl⟩ := Option.map_eq_some_iff.mp hsigns
  obtain hstate | hstate := h.processor n u rfl unit hunit
  · rw [hstate]
    rfl
  · rw [hstate]
    rfl

/-- A processor that was never started gets no events. -/
theorem unfed (h : w.Untouched (.processor n u)) : w.Unfed n u := by
  constructor
  · intro unit hunit
    obtain hstate | hstate := h.processor n u rfl unit hunit
    · rw [hstate]
      rfl
    · rw [hstate]
      rfl
  · intro j agenda hagenda task htask hfeeds
    have houtside := h.outside j agenda hagenda task htask
    cases task with
    | event part =>
      cases part with
      | send | process => cases houtside hfeeds
      | _ => cases hfeeds
    | _ => cases hfeeds

/-- Nobody takes care of a plugin that was never started. -/
theorem not_charge (h : w.Untouched i) : w.Tasks fun _ task => task.charge? ≠ some i := by
  intro j agenda hagenda task htask hcharge
  have houtside := h.outside j agenda hagenda task htask (Task.subject?_of_charge hcharge)
  cases task with
  | unit part => cases part <;> first | (cases houtside; done) | cases hcharge
  | source part => cases part <;> first | (cases houtside; done) | cases hcharge
  | _ => cases hcharge

/-- What a worker does with a plugin that was never started: it offers an event in vain. -/
theorem offers (h : w.Untouched i) (hturn : w.Turn me expired task rest progress w')
    (hlabour : task.isLabour = true) (hsubject : task.subject? = some i) :
    ∃ n u event v, i = .processor n u ∧ task = .event (.offer n u event) ∧
      progress = .goOn v [.dispatched .rejected] ∧ v.unit? n u = w.unit? n u := by
  obtain ⟨n, u, event, rfl, rfl⟩ :=
    Task.offer_of_approaches hlabour hsubject (hturn.task_holds h.outside hsubject)
  obtain ⟨v, rfl, hunit⟩ := todo_of_closed_offer (fun signs => h.closed) hturn.performs
  exact ⟨n, u, event, v, rfl, rfl, rfl, hunit⟩

/-- No worker changes anything about a plugin that was never started. -/
theorem turn (h : w.Untouched i) (hturn : w.Turn me expired task rest progress w')
    (hplain : task.isPlain = true) (haside : task.subject? = some i → task.isLabour = true) :
    w'.Untouched i := by
  by_cases hsubject : task.subject? = some i
  case pos =>
    obtain ⟨n, u, event, v, rfl, rfl, rfl, hunit⟩ := h.offers hturn (haside hsubject) hsubject
    refine ⟨hturn.tasks_alone (hturn.agendas_labour rfl) h.outside ?_,
      fun m i hi unit hfound => ?_, by simp⟩
    · simp [Progress.todo, Task.dispatched, Task.subject?]
    · obtain ⟨rfl, rfl⟩ : n = m ∧ u = i := by simpa using hi
      rw [hturn.unit?] at hfound
      exact h.processor n u rfl unit (hunit.symm.trans hfound)
  refine ⟨?_, fun n u hi unit hunit => ?_, fun t u hi unit hunit => ?_⟩
  · have hnext (next : Task) (hstems : task.StemsFrom w.launches.length next)
        (hnext : next.subject? = some i) : next.approaches = true := by
      obtain hnone | hsame | happroaches := hstems.1
      · exact absurd (hnone.symm.trans hnext) (by simp)
      · exact absurd (hsame.symm.trans hnext) hsubject
      · exact happroaches
    exact hturn.tasks h.outside (fun next _ => hnext next) fun j next _ hspawns =>
      hnext next hspawns.1
  · subst hi
    exact h.processor n u rfl unit (hturn.unit?_eq hplain hsubject ▸ hunit)
  · subst hi
    exact h.source t u rfl unit (hturn.source?_eq hplain hsubject ▸ hunit)

/-- No worker calls a hook of a plugin that was never started. -/
theorem not_called (h : w.Untouched i) (hturn : w.Turn me expired task rest progress w')
    (haside : task.subject? = some i → task.isLabour = true) {deed : Deed}
    (hdeed : deed ∈ w.deedsOf me expired task) : deed.subject ≠ i := by
  intro hi
  obtain ⟨-, call, hcall, hcalled, -⟩ := mem_deedsOf hdeed
  have hsubject : task.subject? = some i := by
    rw [Task.subject?_of_call hcall, ← hcalled, hi]
  obtain ⟨n, u, event, v, -, rfl, -⟩ := h.offers hturn (haside hsubject) hsubject
  cases hcall

theorem same (h : w.Untouched i) (hsame : Same w w') : w'.Untouched i where
  outside := hsame.tasks h.outside
  processor n u hi unit hunit := h.processor n u hi unit (hsame.unit? n u ▸ hunit)
  source t u hi unit hunit := h.source t u hi unit (hsame.source? t u ▸ hunit)

end Untouched

end World
end EventPipeline
