import EventPipeline.Proofs.Lifecycle.Crew

/-!
# `EventPipeline.Proofs.Lifecycle.Worker`: the life of a queued processor

The processor of a queued unit lives on a worker thread of its own. `WorkerStage` says how far
it has come: what the worker still has to do, and which hooks were called. A turn of the worker
brings it to the next stage (`Enlisted.turn_self`), and the other workers leave it where it is
(`Enlisted.turn_other`). So a worker that comes to its end has seen a whole life of its processor,
whether or not anybody waited for it.
-/

set_option autoImplicit false

namespace EventPipeline

variable {P : Plugins}

/-- How far the worker of a queued unit has come: what it has to do, which belongs to the signs
of its unit, and the life of the processor on record. -/
inductive WorkerStage (n u : Nat) (signs : Signs) : List Task → List HookEvent → Prop
  | preparing (asked : Bool) (hready : signs.ready = false) (halive : signs.alive = true) :
    WorkerStage n u signs [.unit (.prepareWorker n u asked)] (Hook.prepare.entered asked)
  | unfit (upshot : Upshot) (h : upshot ≠ .returned) (hready : signs.ready = false) :
    WorkerStage n u signs [] (Hook.prepare.call upshot)
  | receiving (errands : List Task) (herrands : ∀ errand ∈ errands, errand.isErrand = true)
    (hruns : signs.ready = true ∧ signs.alive = true) :
    WorkerStage n u signs (errands ++ [.unit (.receive n u)]) (Hook.prepare.call .returned)
  | looking (hruns : signs.ready = true ∧ signs.alive = true) :
    WorkerStage n u signs [.unit (.checkDismissed n u)] (Hook.prepare.call .returned)
  | finishing (asked : Bool) (hruns : signs.ready = true ∧ signs.alive = true) :
    WorkerStage n u signs [.unit (.finishWorker n u asked)]
      (Hook.prepare.call .returned ++ Hook.finish.entered asked)
  | finished (upshot : Upshot) (hready : signs.ready = true) :
    WorkerStage n u signs [] (Hook.prepare.call .returned ++ Hook.finish.call upshot)

namespace WorkerStage

variable {n u : Nat} {signs : Signs} {agenda : List Task} {life : List HookEvent}

/-- A processor that is ready was made ready. -/
theorem prepared (h : WorkerStage n u signs agenda life) (hready : signs.ready = true) :
    Hook.prepare.call .returned <+: life := by
  cases h with
  | preparing asked hunready | unfit upshot hne hunready =>
    rw [hunready] at hready
    cases hready
  | receiving | looking => exact List.prefix_rfl
  | finishing | finished => exact List.prefix_append ..

/-- A worker that is not alive any more has nothing to do. -/
theorem ended (h : WorkerStage n u signs agenda life) (hdead : signs.alive = false) :
    agenda = [] := by
  cases h with
  | unfit | finished => rfl
  | preparing _ _ halive =>
    rw [halive] at hdead
    cases hdead
  | receiving _ _ hruns | looking hruns | finishing _ hruns =>
    rw [hruns.2] at hdead
    cases hdead

/-- A worker that has come to its end without a word about readiness has not made its processor
ready. -/
theorem unfit_of_ended (h : WorkerStage n u signs agenda life) (hagenda : agenda = [])
    (hunready : signs.ready = false) :
    ∃ upshot, upshot ≠ .returned ∧ life = Hook.prepare.call upshot := by
  cases h with
  | unfit upshot hne => exact ⟨upshot, hne, rfl⟩
  | finished upshot hready =>
    rw [hready] at hunready
    cases hunready
  | receiving => exact absurd hagenda (by simp)
  | preparing | looking | finishing => cases hagenda

/-- What the processor has lived is the beginning of a whole life. -/
theorem prefix_life (h : WorkerStage n u signs agenda life) :
    ∃ whole, ProcessorLife whole ∧ life <+: whole := by
  have hentered (hook : Hook) (made : Bool) (upshot : Upshot) :
      hook.entered made <+: hook.call upshot := by
    cases made <;> simp [Hook.entered, Hook.call]
  cases h with
  | preparing asked => exact ⟨_, .unfit .failed (by simp), hentered ..⟩
  | unfit upshot hne => exact ⟨_, .unfit upshot hne, List.prefix_rfl⟩
  | receiving | looking => exact ⟨_, .ready .returned, List.prefix_append ..⟩
  | finishing asked =>
    exact ⟨_, .ready .returned, (List.prefix_append_right_inj _).mpr (hentered ..)⟩
  | finished upshot => exact ⟨_, .ready upshot, List.prefix_rfl⟩

/-- A worker that has nothing to do any more has seen a whole life of its processor. -/
theorem whole (h : WorkerStage n u signs agenda life) (hagenda : agenda = []) :
    ProcessorLife life := by
  cases h with
  | unfit upshot hne => exact .unfit upshot hne
  | finished upshot => exact .ready upshot
  | receiving => exact absurd hagenda (by simp)
  | preparing | looking | finishing => cases hagenda

/-- A processor that was made ready is finished when its worker has nothing to do any more. -/
theorem released (h : WorkerStage n u signs agenda life) (hagenda : agenda = [])
    (hprepared : Hook.prepare.call .returned <+: life) :
    ∃ upshot, life = Hook.prepare.call .returned ++ Hook.finish.call upshot := by
  cases h with
  | unfit upshot hne => exact absurd (by simpa [Hook.call] using hprepared) hne.symm
  | finished upshot => exact ⟨upshot, rfl⟩
  | receiving => exact absurd hagenda (by simp)
  | preparing | looking | finishing => cases hagenda

/-- The worker of a processor handles an event, or it is at a turn of its loop. -/
theorem errand_or_owner {task : Task} (h : WorkerStage n u signs agenda life)
    (htask : task ∈ agenda) :
    task.isErrand = true ∨ task.owner? = some (.worker n u) := by
  cases h with
  | unfit | finished => cases htask
  | receiving errands herrands =>
    rcases List.mem_append.mp htask with htask | htask
    · exact .inl (herrands task htask)
    · obtain rfl := List.mem_singleton.mp htask
      exact .inr rfl
  | preparing | looking | finishing =>
    obtain rfl := List.mem_singleton.mp htask
    exact .inr rfl

end WorkerStage

/-- None of the tasks is on the way of an event. -/
def Errandless (agenda : List Task) : Prop :=
  ∀ task ∈ agenda, task.isErrand = false

namespace Outline

variable {o o' : Outline} {task : Task} {ended : Option Nat} {todo : List Task}

/-- A worker handles an event with the task of its loop only when it takes it from a queue. -/
theorem Handles.receives (h : o.Handles task ended o' todo) (howner : task.owner?.isSome = true) :
    ∃ n u unit, task = .unit (.receive n u) ∧ o.unit? n u = some unit ∧ 0 < unit.waiting := by
  cases h with
  | receive n u event node unit hnode hunit hwaiting =>
    exact ⟨n, u, unit, rfl, by simp [Outline.unit?, hnode, hunit], hwaiting⟩
  | _ => cases howner

/-- A turn of the loop of a queued unit that takes no event leads to none. -/
theorem Turns.errandless (h : o.Turns task o' todo) {n u : Nat}
    (howner : task.owner? = some (.worker n u)) : Errandless todo := by
  cases h with
  | goOn t v _ next hsource | emit t v payload continuation _ next hsource | ended t v _ hsource =>
    rw [howner] at hsource
    cases hsource
  | _ => simp [Errandless, Task.isErrand]

end Outline

/-- Whoever works for a queued unit takes care of its processor. -/
theorem Task.charge?_of_worker {task : Task} {n u : Nat} (h : task.owner? = some (.worker n u)) :
    task.charge? = some (.processor n u) := by
  have hplace {m v : Nat} (h : some (Owner.worker m v) = some (.worker n u)) :
      some (Instance.processor m v) = some (.processor n u) := by
    injection h with h
    injection h with hm hv
    rw [hm, hv]
  cases task with
  | unit part => cases part <;> first | exact hplace h | cases h
  | source part => cases part <;> cases h
  | _ => cases h

namespace World

variable {w w' v : World P} {k n u : Nat} {task : Task} {rest agenda : List Task}
  {progress : Progress P} {expired : Bool} {signs : Signs} {life : List HookEvent}

/-! ## What changes of a unit show -/

/-- A call of a hook does not change the signs of a unit. -/
theorem signs?_called {α : Type}
    {hook : P.Processor → P.Shared → Call P.Processor P.Shared NodeError α}
    {reply : Reply NodeError α} {called : World P}
    (hcall : w.callProcessor n u hook = some (reply, called)) :
    called.signs? n u = w.signs? n u := by
  rw [signs?_eq, (callProcessor_eq hcall).1, signs?_eq]

/-- A change of the state of a queued unit shows in its signs. -/
theorem signs?_changeQueue {f : QueueState → QueueState} {g : Signs → Signs}
    (hsigns : w.signs? n u = some signs) (hqueued : signs.queued = true)
    (h : ∀ state, (UnitState.queued (f state)).signs = g (UnitState.queued state).signs) :
    (w.changeUnit n u (·.changeQueue f)).signs? n u = some (g signs) := by
  obtain ⟨unit, hunit, rfl⟩ := Option.map_eq_some_iff.mp hsigns
  rw [signs?, unit?_changeUnit, if_pos ⟨rfl, rfl⟩, hunit]
  cases hstate : unit.state with
  | inline state =>
    rw [hstate] at hqueued
    cases hqueued
  | queued state => simp [ExecutionUnit.changeQueue, hstate, h]

/-- A change of the state of an inline unit shows in its signs. -/
theorem signs?_changeInline {f : InlineState → InlineState} {accepting later : Bool}
    (hsigns : w.signs? n u = some { accepting })
    (h : ∀ state, state.running = accepting → (f state).running = later) :
    (w.changeUnit n u (·.changeInline f)).signs? n u = some { accepting := later } := by
  obtain ⟨unit, hunit, heq⟩ := Option.map_eq_some_iff.mp hsigns
  rw [signs?, unit?_changeUnit, if_pos ⟨rfl, rfl⟩, hunit]
  cases hstate : unit.state with
  | queued state =>
    rw [hstate] at heq
    exact absurd (congrArg Signs.queued heq) (by simp [UnitState.signs])
  | inline state =>
    rw [hstate] at heq
    have hrunning : state.running = accepting := congrArg Signs.accepting heq
    simp [ExecutionUnit.changeInline, hstate, UnitState.signs, h state hrunning]

/-! ## Turns of the worker -/

/-- What a turn of the worker makes of the stage of its processor. Only the main thread has the
unit accept events, or closes its queue. -/
def Proceeds (w' : World P) (n u : Nat) (signs : Signs) (next : List Task)
    (life : List HookEvent) : Prop :=
  ∃ later, w'.signs? n u = some later ∧ later.queued = true ∧
    later.accepting = signs.accepting ∧ later.connected = signs.connected ∧
    WorkerStage n u later next life

/-- A turn with which the processor comes to a stage. -/
theorem Turn.proceeds (h : w.Turn k expired task rest progress w') {later : Signs}
    (hlater : progress.world.signs? n u = some later) (hqueued : later.queued = true)
    (haccepting : later.accepting = signs.accepting)
    (hconnected : later.connected = signs.connected)
    (hstage : WorkerStage n u later (progress.next rest) life) :
    w'.Proceeds n u signs (progress.next rest) life := by
  refine ⟨later, ?_, hqueued, haccepting, hconnected, hstage⟩
  rw [signs?, h.unit?]
  exact hlater

/-- The worker makes the processor ready. -/
theorem Turn.proceeds_prepare {asked : Bool} (hsigns : w.signs? n u = some signs)
    (hqueued : signs.queued = true) (hready : signs.ready = false) (halive : signs.alive = true)
    (h : w.Turn k expired (.unit (.prepareWorker n u asked)) [] progress w') :
    w'.Proceeds n u signs (progress.next [])
      (Hook.prepare.entered asked ++
        lifeOf (.processor n u) (w.deedsOf k expired (.unit (.prepareWorker n u asked)))) := by
  have hperform : w.prepareWorker n u asked = some progress := h.performs
  simp only [prepareWorker, Option.bind_eq_bind, Option.bind_eq_some_iff] at hperform
  obtain ⟨unit, hunit, ⟨reply, called⟩, hcall, hperform⟩ := hperform
  have hcalled : called.signs? n u = some signs := (signs?_called hcall).trans hsigns
  have hanswered (result : Except NodeError Unit) :
      (called.changeUnit n u (·.changeQueue fun s =>
        { s with ready := some result, alive := result.toBool })).signs? n u =
        some { signs with ready := result.toBool, alive := result.toBool } := by
    exact signs?_changeQueue (g := ({ · with ready := result.toBool, alive := result.toBool }))
      hcalled hqueued fun state => by simp [UnitState.signs]
  have hupshot : w.upshot? expired (.unit (.prepareWorker n u asked)) = reply.upshot? := by
    simp [upshot?, hcall]
  rw [lifeOf_deedsOf rfl rfl, hupshot]
  cases reply with
  | waiting limit =>
    cases asked with
    | true => simp at hperform
    | false =>
      obtain rfl : _ = progress := by simpa [andThen] using hperform
      exact h.proceeds hcalled hqueued rfl rfl (.preparing true hready halive)
  | panicked text =>
    obtain rfl := Option.some.inj hperform
    refine h.proceeds (hanswered _) hqueued rfl rfl ?_
    rw [Reply.upshot?, Hook.entered_append_some]
    exact .unfit .panicked (by simp) rfl
  | failed error =>
    obtain rfl := Option.some.inj hperform
    refine h.proceeds (hanswered _) hqueued rfl rfl ?_
    rw [Reply.upshot?, Hook.entered_append_some]
    exact .unfit .failed (by simp) rfl
  | returned value =>
    obtain rfl := Option.some.inj hperform
    refine h.proceeds (hanswered _) hqueued rfl rfl ?_
    rw [Reply.upshot?, Hook.entered_append_some]
    exact .receiving [] (by simp) ⟨rfl, rfl⟩

/-- The worker finishes the processor. -/
theorem Turn.proceeds_finish {asked : Bool} (hsigns : w.signs? n u = some signs)
    (hqueued : signs.queued = true) (hruns : signs.ready = true ∧ signs.alive = true)
    (h : w.Turn k expired (.unit (.finishWorker n u asked)) [] progress w') :
    w'.Proceeds n u signs (progress.next [])
      (Hook.prepare.call .returned ++ Hook.finish.entered asked ++
        lifeOf (.processor n u) (w.deedsOf k expired (.unit (.finishWorker n u asked)))) := by
  have hperform : w.finishWorker n u asked = some progress := h.performs
  simp only [finishWorker, Option.bind_eq_bind, Option.bind_eq_some_iff] at hperform
  obtain ⟨unit, hunit, ⟨reply, called⟩, hcall, hperform⟩ := hperform
  have hcalled : called.signs? n u = some signs := (signs?_called hcall).trans hsigns
  have hended (messages : List Message) :
      ((called.logAll messages).changeUnit n u (·.changeQueue fun s =>
        { s with alive := false })).signs? n u = some { signs with alive := false } :=
    signs?_changeQueue (g := ({ · with alive := false })) hcalled hqueued fun _ => rfl
  have hupshot : w.upshot? expired (.unit (.finishWorker n u asked)) = reply.upshot? := by
    simp [upshot?, hcall]
  rw [List.append_assoc, lifeOf_deedsOf rfl rfl, hupshot]
  cases reply with
  | waiting limit =>
    cases asked with
    | true => simp at hperform
    | false =>
      obtain rfl : _ = progress := by simpa [andThen] using hperform
      exact h.proceeds hcalled hqueued rfl rfl (.finishing true hruns)
  | panicked text =>
    obtain rfl := Option.some.inj hperform
    refine h.proceeds (hended _) hqueued rfl rfl ?_
    rw [Reply.upshot?, Hook.entered_append_some]
    exact .finished .panicked hruns.1
  | failed error =>
    obtain rfl := Option.some.inj hperform
    refine h.proceeds (hended _) hqueued rfl rfl ?_
    rw [Reply.upshot?, Hook.entered_append_some]
    exact .finished .failed hruns.1
  | returned value =>
    obtain rfl := Option.some.inj hperform
    refine h.proceeds (hended _) hqueued rfl rfl ?_
    rw [Reply.upshot?, Hook.entered_append_some]
    exact .finished .returned hruns.1

/-- The worker takes the next event from the queue, or looks whether it is to end. -/
theorem Turn.proceeds_receive (hsigns : w.signs? n u = some signs) (hqueued : signs.queued = true)
    (hruns : signs.ready = true ∧ signs.alive = true)
    (h : w.Turn k expired (.unit (.receive n u)) [] progress w') :
    w'.Proceeds n u signs (progress.next []) (Hook.prepare.call .returned) := by
  have hperform : w.receive expired n u = some progress := h.performs
  simp only [receive, Option.bind_eq_bind, Option.bind_eq_some_iff] at hperform
  obtain ⟨unit, hunit, hperform⟩ := hperform
  have hfinishing : WorkerStage n u signs [.unit (.finishWorker n u false)]
      (Hook.prepare.call .returned) := .finishing false hruns
  obtain ⟨event, later, hnext, -, hlater⟩ | ⟨hnext, -⟩ | hnext := unit.next_cases
  · simp only [hnext] at hperform
    obtain rfl := Option.some.inj hperform
    refine h.proceeds ?_ hqueued rfl rfl
      (.receiving [.event (.process n u event false), .event (.settle n u)]
        (by simp [Task.isErrand])
        hruns)
    have hsame : later.state.signs = unit.state.signs := congrArg UnitOutline.signs hlater
    show (w.changeUnit n u fun _ => later).signs? n u = some signs
    rw [signs?, unit?_changeUnit, if_pos ⟨rfl, rfl⟩, hunit, ← hsigns, signs?, hunit]
    exact congrArg some hsame
  · simp only [hnext] at hperform
    obtain rfl := Option.some.inj hperform
    exact h.proceeds hsigns hqueued rfl rfl hfinishing
  · simp only [hnext] at hperform
    split at hperform
    case isTrue =>
      obtain rfl := Option.some.inj hperform
      exact h.proceeds hsigns hqueued rfl rfl (.looking hruns)
    case isFalse => cases hperform

/-- The worker looks whether it is to end. -/
theorem Turn.proceeds_look (hsigns : w.signs? n u = some signs) (hqueued : signs.queued = true)
    (hruns : signs.ready = true ∧ signs.alive = true)
    (h : w.Turn k expired (.unit (.checkDismissed n u)) [] progress w') :
    w'.Proceeds n u signs (progress.next []) (Hook.prepare.call .returned) := by
  have hperform : w.checkDismissed n u = some progress := h.performs
  have hfinishing : WorkerStage n u signs [.unit (.finishWorker n u false)]
      (Hook.prepare.call .returned) := .finishing false hruns
  simp only [checkDismissed, Option.bind_eq_bind, Option.bind_eq_some_iff] at hperform
  obtain ⟨unit, hunit, hperform⟩ := hperform
  split at hperform
  · cases hperform
  · split at hperform
    · obtain rfl := Option.some.inj hperform
      exact h.proceeds hsigns hqueued rfl rfl hfinishing
    · obtain rfl := Option.some.inj hperform
      exact h.proceeds hsigns hqueued rfl rfl (.receiving [] (by simp) hruns)

/-- The worker handles an event. -/
theorem Turn.proceeds_errand {errands : List Task} (hplain : task.isPlain = true)
    (herrands : ∀ errand ∈ task :: errands, errand.isErrand = true)
    (hsigns : w.signs? n u = some signs) (hqueued : signs.queued = true)
    (hruns : signs.ready = true ∧ signs.alive = true)
    (h : w.Turn k expired task (errands ++ [.unit (.receive n u)]) progress w') :
    w'.Proceeds n u signs (progress.next (errands ++ [.unit (.receive n u)]))
      (Hook.prepare.call .returned) := by
  have herrand : task.isErrand = true := herrands task (List.mem_cons_self ..)
  have hcharge := Task.charge?_of_errand herrand
  have hkept : w'.signs? n u = some signs := by
    rw [h.signs?_eq hplain (fun _ => by simp [Task.isLabour, herrand]) (by simp [hcharge]), hsigns]
  obtain ⟨v, todo, rfl, htodo⟩ := h.errands herrand
  refine ⟨signs, hkept, hqueued, rfl, rfl, ?_⟩
  rw [Progress.next, ← List.append_assoc]
  refine .receiving _ (fun errand hmem => ?_) hruns
  rcases List.mem_append.mp hmem with hmem | hmem
  · exact htodo errand hmem
  · exact herrands errand (List.mem_cons_of_mem _ hmem)

/-- A turn of the worker brings the processor to a stage. -/
theorem Turn.proceeds_stage (hplain : task.isPlain = true)
    (hstage : WorkerStage n u signs (task :: rest) life) (hsigns : w.signs? n u = some signs)
    (hqueued : signs.queued = true) (h : w.Turn k expired task rest progress w') :
    w'.Proceeds n u signs (progress.next rest)
      (life ++ lifeOf (.processor n u) (w.deedsOf k expired task)) := by
  generalize hagenda : task :: rest = agenda at hstage
  cases hstage with
  | unfit | finished => cases hagenda
  | preparing asked hready halive =>
    obtain ⟨rfl, rfl⟩ := List.cons.inj hagenda
    exact h.proceeds_prepare hsigns hqueued hready halive
  | looking hruns =>
    obtain ⟨rfl, rfl⟩ := List.cons.inj hagenda
    rw [lifeOf_deedsOf_none rfl, List.append_nil]
    exact h.proceeds_look hsigns hqueued hruns
  | finishing asked hruns =>
    obtain ⟨rfl, rfl⟩ := List.cons.inj hagenda
    exact h.proceeds_finish hsigns hqueued hruns
  | receiving errands herrands hruns =>
    cases errands with
    | nil =>
      obtain ⟨rfl, rfl⟩ := List.cons.inj hagenda
      rw [lifeOf_deedsOf_none rfl, List.append_nil]
      exact h.proceeds_receive hsigns hqueued hruns
    | cons errand errands =>
      obtain ⟨rfl, rfl⟩ := List.cons.inj hagenda
      have hcharge := Task.charge?_of_errand (herrands task (List.mem_cons_self ..))
      rw [lifeOf_deedsOf_ne (by simp [hcharge]), List.append_nil]
      exact h.proceeds_errand hplain herrands hsigns hqueued hruns

/-! ## All turns -/

section

variable {unit : ExecutionUnit P} {state : QueueState}

/-- A worker can begin to make its processor ready. -/
theorem prepareWorker_isSome (hunit : w.unit? n u = some unit) :
    (w.prepareWorker n u false).isSome = true := by
  simp only [prepareWorker, callProcessor, hunit, Option.map_some, Option.bind_eq_bind,
    Option.bind_some]
  split
  · rfl
  · split <;> rfl

/-- A worker whose queue is closed finds an event in it, or that there will be none. -/
theorem receive_isSome (hunit : w.unit? n u = some unit) (hstate : unit.state = .queued state)
    (hclosed : state.connected = false) : (w.receive expired n u).isSome = true := by
  simp only [receive, hunit, Option.bind_eq_bind, Option.bind_some, ExecutionUnit.next, hstate]
  cases hqueue : state.queue with
  | nil => simp [hclosed, andThen]
  | cons event rest => rfl

/-- A worker can look whether it is to end. -/
theorem checkDismissed_isSome (hunit : w.unit? n u = some unit)
    (hstate : unit.state = .queued state) : (w.checkDismissed n u).isSome = true := by
  simp only [checkDismissed, hunit, hstate, Option.bind_eq_bind, Option.bind_some]
  split <;> rfl

/-- A worker can begin to finish its processor. -/
theorem finishWorker_isSome (hunit : w.unit? n u = some unit) :
    (w.finishWorker n u false).isSome = true := by
  simp only [finishWorker, callProcessor, hunit, Option.map_some, Option.bind_eq_bind,
    Option.bind_some]
  split <;> rfl

end

/-- The thread `k` is the worker of a queued unit. It has come to a stage, and nobody else takes
care of the life of the processor. -/
structure Enlisted (w : World P) (n u k : Nat) (signs : Signs) (agenda : List Task)
    (life : List HookEvent) : Prop where
  signs_eq : w.signs? n u = some signs
  queued : signs.queued = true
  agenda_eq : w.agendas[k]? = some agenda
  stage : WorkerStage n u signs agenda life
  held : w.HeldBy k (.processor n u)

namespace Enlisted

/-- The worker takes its turn. -/
theorem turn_self (h : w.Enlisted n u k signs agenda life)
    (hturn : w.Turn k expired task rest progress w') (hplain : task.isPlain = true) :
    ∃ later, later.accepting = signs.accepting ∧ later.connected = signs.connected ∧
      w'.Enlisted n u k later (progress.next rest)
        (life ++ lifeOf (.processor n u) (w.deedsOf k expired task)) := by
  obtain rfl : agenda = task :: rest := Option.some.inj (h.agenda_eq.symm.trans hturn.agenda)
  obtain ⟨later, hlater, hqueued, haccepting, hconnected, hstage⟩ :=
    hturn.proceeds_stage hplain h.stage h.signs_eq h.queued
  have hsummons : task.summons? = none :=
    (h.stage.errand_or_owner (List.mem_cons_self ..)).elim Task.summons?_of_errand fun howner =>
      Task.summons?_of_charge (Task.charge?_of_worker howner)
  exact ⟨later, haccepting, hconnected, hlater, hqueued, hturn.agenda_me, hstage,
    h.held.turn hturn (by simp [hsummons])⟩

/-- Another thread takes its turn with a task that leaves the processor to its worker. -/
theorem turn_other {j : Nat} (h : w.Enlisted n u k signs agenda life) (hj : j ≠ k)
    (hturn : w.Turn j expired task rest progress w') (hplain : task.isPlain = true)
    (haside : task.subject? = some (.processor n u) → task.isLabour = true) :
    lifeOf (.processor n u) (w.deedsOf j expired task) = [] ∧
      w'.Enlisted n u k signs agenda life := by
  have hcharge : task.charge? ≠ some (.processor n u) := fun hcharge =>
    hj (hturn.task_holds h.held hcharge)
  have hsummons : task.summons? ≠ some (.processor n u) := fun hsummons => by
    have hlabour := haside (Task.subject?_of_summons hsummons)
    rw [Task.summons?_of_labour hlabour] at hsummons
    cases hsummons
  exact ⟨lifeOf_deedsOf_ne hcharge, (hturn.signs?_eq hplain haside hcharge).trans h.signs_eq,
    h.queued, hturn.agenda_ne hj.symm h.agenda_eq, h.stage, h.held.turn hturn hsummons⟩

/-- The worker is where it is, also after a move that leaves everything alone. -/
theorem same (h : w.Enlisted n u k signs agenda life) (hsame : Same w w') :
    w'.Enlisted n u k signs agenda life where
  signs_eq := by rw [signs?, hsame.unit?]; exact h.signs_eq
  queued := h.queued
  agenda_eq := by rw [hsame.agendas]; exact h.agenda_eq
  stage := h.stage
  held := hsame.tasks h.held

/-- The unit has a queue. -/
theorem exists_state (h : w.Enlisted n u k signs agenda life) :
    ∃ unit state, w.unit? n u = some unit ∧ unit.state = .queued state ∧
      signs = (UnitState.queued state).signs := by
  obtain ⟨unit, hunit, hsigns⟩ := Option.map_eq_some_iff.mp h.signs_eq
  cases hstate : unit.state with
  | inline state =>
    rw [hstate] at hsigns
    exact absurd h.queued (by simp [← hsigns, UnitState.signs])
  | queued state => exact ⟨unit, state, hunit, hstate, by rw [← hsigns, hstate]⟩

/-- A worker that cannot go on has seen a whole life of its processor, or is inside one of its
hooks, if it handles no event and its queue is closed. -/
theorem stuck (h : w.Enlisted n u k signs agenda life) (herrandless : Errandless agenda)
    (hclosed : agenda = [] ∨ signs.connected = false) (hstuck : w.step k = none) :
    ProcessorLife life ∨ InsideHook life := by
  obtain ⟨unit, state, hunit, hstate, rfl⟩ := h.exists_state
  have hgoes {task : Task} {more : List Task} (hagenda : agenda = task :: more)
      (hperform : ∀ expired, (w.perform k expired task).isSome = true) : False :=
    step_ne_none (hagenda ▸ h.agenda_eq) hperform hstuck
  have hinside (before : List HookEvent) (hook : Hook) :
      InsideHook (before ++ hook.entered true) := ⟨hook, by simp [Hook.entered]⟩
  cases h.stage with
  | unfit | finished => exact .inl (h.stage.whole rfl)
  | preparing asked =>
    cases asked with
    | true => exact .inr (hinside [] .prepare)
    | false => exact (hgoes rfl fun _ => prepareWorker_isSome hunit).elim
  | looking => exact (hgoes rfl fun _ => checkDismissed_isSome hunit hstate).elim
  | receiving errands herrands =>
    cases errands with
    | cons errand errands =>
      have herrand := herrandless errand (by simp)
      rw [herrands errand (List.mem_cons_self ..)] at herrand
      cases herrand
    | nil =>
      have hconnected : state.connected = false := hclosed.resolve_left (by simp)
      exact (hgoes rfl fun _ => receive_isSome hunit hstate hconnected).elim
  | finishing asked =>
    cases asked with
    | true => exact .inr (hinside _ .finish)
    | false => exact (hgoes rfl fun _ => finishWorker_isSome hunit).elim

end Enlisted

/-- A worker that gets no events handles none. -/
theorem Turn.errandless (h : w.Turn k expired task rest progress w') (hunfed : w.Unfed n u)
    (hstage : WorkerStage n u signs (task :: rest) life) (herrandless : Errandless (task :: rest)) :
    Errandless (progress.next rest) := by
  have howner : task.owner? = some (.worker n u) :=
    (hstage.errand_or_owner (List.mem_cons_self ..)).resolve_left
      (ne_true_of_eq_false (herrandless task (List.mem_cons_self ..)))
  obtain hhandles | hturns := loop_turns howner h.performs
  · cases hhandles with
    | goOn handles =>
      obtain ⟨m, v, before, rfl, hbefore, hwaiting⟩ := handles.receives (by rw [howner]; rfl)
      obtain ⟨rfl, rfl⟩ : m = n ∧ v = u := by simpa [Task.owner?] using howner
      rw [outline_unit?] at hbefore
      obtain ⟨unit, hunit, rfl⟩ := Option.map_eq_some_iff.mp hbefore
      exact absurd (hunfed.empty unit hunit) (Nat.ne_of_gt hwaiting)
  · cases hturns with
    | breakDown => simp [Errandless, Progress.next]
    | goOn turns =>
      intro next hnext
      rcases List.mem_append.mp hnext with hnext | hnext
      · exact turns.errandless howner next hnext
      · exact herrandless next (List.mem_cons_of_mem _ hnext)

end World
end EventPipeline
