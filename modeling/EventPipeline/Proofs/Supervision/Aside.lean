import EventPipeline.Engine.Service
import EventPipeline.Proofs.Engine.Silence
import EventPipeline.Proofs.Engine.Steps

/-!
# `EventPipeline.Proofs.Supervision.Aside`: what supervision does not notice

Most of what threads do concerns no table of the supervisor: they move events, and start
and stop the parts of one stream. `Aside` says of two worlds that their supervisors and
their incarnations are the same, and `perform_aside` that every plain task keeps them so.
Such a task also tells no refusal that its thread was not told before
(`perform_errors`): what goes wrong with a node is never taken for an operation that cannot
be done.
-/

set_option autoImplicit false

namespace EventPipeline

variable {P : Plugins}

/-- The error says something of a node, or its thread was told it before. -/
def Task.tells (told : Answer) : Task → Prop
  | .answer (.failed error) => error.isRefusal = true → told = .failed error
  | _ => True

namespace World

variable {w v u : World P} {me : Nat}

/-- Nothing differs between two worlds that the supervision of streams goes by. -/
structure Aside (w v : World P) : Prop where
  supervisor : v.supervisor = w.supervisor
  incarnations : v.incarnations = w.incarnations

namespace Aside

theorem refl : Aside w w := ⟨rfl, rfl⟩

theorem trans (h : Aside w v) (h' : Aside v u) : Aside w u :=
  ⟨h'.supervisor.trans h.supervisor, h'.incarnations.trans h.incarnations⟩

theorem changeGate (g : GateId) (f : Gate → Gate) (h : Aside w v) :
    Aside w (v.changeGate g f) := by
  cases g <;> exact ⟨h.supervisor, h.incarnations⟩

theorem tell (event : Event) (fate : Fate) (h : Aside w v) : Aside w (v.tell event fate) := by
  unfold World.tell
  split <;> exact ⟨h.supervisor, h.incarnations⟩

/-- A call of a hook of a processor. -/
theorem callProcessor {α : Type} {n i : Nat}
    {hook : P.Processor → P.Shared → Call P.Processor P.Shared NodeError α}
    {reply : Reply NodeError α} {called : World P}
    (hcall : v.callProcessor n i hook = some (reply, called)) (h : Aside w v) :
    Aside w called := by
  obtain ⟨unit, hunit, heq⟩ := by simpa [World.callProcessor] using hcall
  obtain ⟨-, rfl⟩ := heq
  exact ⟨h.supervisor, h.incarnations⟩

/-- A call of a hook of a source. -/
theorem callSource {α : Type} {t i : Nat}
    {hook : P.Source → P.Shared → Call P.Source P.Shared NodeError α}
    {reply : Reply NodeError α} {called : World P}
    (hcall : v.callSource t i hook = some (reply, called)) (h : Aside w v) :
    Aside w called := by
  obtain ⟨unit, hunit, heq⟩ := by simpa [World.callSource] using hcall
  obtain ⟨-, rfl⟩ := heq
  exact ⟨h.supervisor, h.incarnations⟩

/-- A call of a hook of a heartbeat. -/
theorem callHeartbeat {α : Type} {i : Nat}
    {hook : P.Heartbeat → P.Shared → Call P.Heartbeat P.Shared StreamError α}
    {reply : Reply StreamError α} {called : World P}
    (hcall : v.callHeartbeat i hook = some (reply, called)) (h : Aside w v) :
    Aside w called := by
  obtain ⟨timer, htimer, heq⟩ := by simpa [World.callHeartbeat] using hcall
  obtain ⟨-, rfl⟩ := heq
  exact ⟨h.supervisor, h.incarnations⟩

end Aside

/-- Whatever a task of the thread `me` comes to, it concerns no table of the supervisor and
tells no new refusal. -/
def Spares (w : World P) (me : Nat) : Option (Progress P) → Prop :=
  ComesTo fun progress => Aside w progress.world ∧
    ∀ v todo, progress = .goOn v todo → ∀ task ∈ todo, task.tells (w.answerOf me)

namespace Spares

theorem none : w.Spares me Option.none := ComesTo.none

theorem bind {α : Type} {value : Option α} {next : α → Option (Progress P)}
    (h : ∀ a, value = some a → w.Spares me (next a)) : w.Spares me (value >>= next) :=
  ComesTo.bind h

theorem ite {c : Prop} [Decidable c] {a b : Option (Progress P)} (ha : w.Spares me a)
    (hb : w.Spares me b) : w.Spares me (if c then a else b) :=
  ComesTo.ite ha hb

theorem andThen {todo : List Task} (h : Aside w v)
    (htodo : ∀ task ∈ todo, task.tells (w.answerOf me)) : w.Spares me (v.andThen todo) := by
  rintro _ ⟨⟩
  refine ⟨h, ?_⟩
  rintro _ _ ⟨⟩
  exact htodo

theorem done (h : Aside w v) : w.Spares me v.done := .andThen h (by simp)

theorem breakDown {text : String} (h : Aside w v) :
    w.Spares me (some (.breakDown v text)) := by
  rintro _ ⟨⟩
  exact ⟨h, by simp⟩

end Spares

/-- Handing an event to the target of a gate. -/
theorem emit_spares (g : GateId) (event : Event) : w.Spares me (w.emit g event) := by
  refine .bind fun gate _ => .ite .none ?_
  split
  · exact .done (.tell _ _ ⟨rfl, rfl⟩)
  · exact .done (.tell _ _ (.changeGate g _ .refl))
  · rename_i completes _
    have hout : Aside w ({ w with output := w.output ++ [event] }.changeGate g Gate.count) :=
      .changeGate g _ ⟨rfl, rfl⟩
    cases completes with
    | true => exact .done (.tell _ _ hout)
    | false => exact .done hout
  · exact .andThen (.changeGate g _ .refl) (by simp [Task.tells])

/-- Bringing an event to a node. -/
theorem enter_spares (n : Nat) (event : Event) : w.Spares me (w.enter n event) := by
  refine .bind fun node _ => ?_
  have hdrop (v : World P) (event : Event) (reason : String) (h : Aside w v) :
      w.Spares me (((v.changeNode n fun node => { node with dropped := node.dropped + 1 }).tell
        event (.stopped reason)).andThen [.dispatched .dropped]) :=
    .andThen (.tell _ _ ⟨h.supervisor, h.incarnations⟩) (by simp [Task.tells, Task.dispatched])
  simp only
  split
  · exact hdrop _ _ _ ⟨rfl, rfl⟩
  · exact hdrop _ _ _ ⟨rfl, rfl⟩
  · exact .andThen ⟨rfl, rfl⟩ (by simp [Task.tells, Task.dispatched])
  · exact .andThen ⟨rfl, rfl⟩ (by simp [Task.tells])

theorem accepted_tells (node : Node P) (n : Nat) (event : Event) (told : Answer) :
    ∀ task ∈ accepted node n event, task.tells told := by
  unfold accepted
  split <;> simp [Task.tells, Task.dispatched]

/-- A unit does not take an event. -/
theorem reject_spares (n : Nat) (node : Node P) (unit : ExecutionUnit P) :
    w.Spares me (w.reject n node unit) :=
  .andThen ⟨rfl, rfl⟩ (by simp [Task.tells, Task.dispatched])

/-- Offering an event to a unit. -/
theorem offer_spares (n i : Nat) (event : Event) : w.Spares me (w.offer n i event) := by
  refine .bind fun node _ => .bind fun unit _ => ?_
  split
  · exact reject_spares n node unit
  · refine .andThen ⟨rfl, rfl⟩ fun task htask => ?_
    rcases List.mem_append.mp htask with htask | htask
    · simp only [List.mem_cons, List.not_mem_nil, or_false] at htask
      rcases htask with rfl | rfl | rfl <;> trivial
    · exact accepted_tells node n event _ task htask
  · exact .andThen ⟨rfl, rfl⟩ (by simp [Task.tells])

/-- Putting an event into the queue of a unit. -/
theorem send_spares (n i : Nat) (event : Event) : w.Spares me (w.send n i event) := by
  refine .bind fun node _ => .bind fun unit _ => ?_
  simp only
  split
  · exact .andThen ⟨rfl, rfl⟩ (accepted_tells node n event _)
  · exact .andThen ⟨rfl, rfl⟩ (by simp [Task.tells, Task.dispatched])

/-- Having an event processed. -/
theorem process_spares (n i : Nat) (event : Event) (asked : Bool) :
    w.Spares me (w.process n i event asked) := by
  refine .bind fun node _ => .bind fun unit _ => .bind fun result hcall => ?_
  obtain ⟨reply, called⟩ := result
  have hcalled := Aside.refl.callProcessor hcall
  have hfail (name : String) (error : NodeError) :
      w.Spares me (called.fail n name event error) :=
    .done (.tell _ _ ⟨hcalled.supervisor, hcalled.incarnations⟩)
  simp only
  split
  · exact .ite .none (.andThen hcalled (by simp [Task.tells]))
  · exact hfail _ _
  · exact hfail _ _
  · exact .done hcalled
  · exact .andThen hcalled (by simp [Task.tells])
  · exact .andThen hcalled (by simp [Task.tells])
  · exact .done (hcalled.tell _ _)

/-- A task on the way of an event. -/
theorem performEvent_spares (task : EventTask) : w.Spares me (w.performEvent task) := by
  cases task with
  | make g payload continuation =>
    exact .bind fun gate _ => .andThen (.changeGate g _ .refl) (by simp [Task.tells])
  | emit g event => exact emit_spares g event
  | leave g => exact .done (.changeGate g _ .refl)
  | enter n event => exact enter_spares n event
  | offer n i event => exact offer_spares n i event
  | send n i event => exact send_spares n i event
  | occupy n i =>
    refine .bind fun unit _ => ?_
    split
    · exact .ite .none (.done ⟨rfl, rfl⟩)
    · exact .done .refl
  | process n i event asked => exact process_spares n i event asked
  | settle n i => exact .done ⟨rfl, rfl⟩

/-- A task in the life of nodes and units. -/
theorem performUnit_spares (expired : Bool) (task : UnitTask) :
    w.Spares me (w.performUnit me expired task) := by
  cases task with
  | startNode n =>
    exact .bind fun node _ => .ite (.andThen .refl (by simp [Task.tells, Task.failed,
      StreamError.isRefusal])) (.andThen .refl (by simp [Task.tells]))
  | startUnits n i =>
    exact .bind fun node _ => .ite (.andThen .refl (by simp [Task.tells]))
      (.andThen ⟨rfl, rfl⟩ (by simp [Task.tells]))
  | startedUnit n i =>
    simp only [performUnit, startedUnit]
    split
    · rename_i error hanswer
      exact .andThen .refl (by simp [Task.tells, or_imp, forall_and, hanswer])
    · exact .andThen .refl (by simp [Task.tells])
  | startUnit n i =>
    refine .bind fun unit _ => ?_
    split
    · exact .andThen .refl (by simp [Task.tells])
    · exact .ite (.andThen .refl (by simp [Task.tells, Task.failed, StreamError.isRefusal]))
        (.andThen ⟨rfl, rfl⟩ (by simp [Task.tells]))
  | prepareInline n i asked =>
    refine .bind fun unit _ => .bind fun result hcall => ?_
    obtain ⟨reply, called⟩ := result
    have hcalled := Aside.refl.callProcessor hcall
    simp only
    split
    · exact .ite .none (.andThen hcalled (by simp [Task.tells]))
    · split
      · exact .andThen ⟨hcalled.supervisor, hcalled.incarnations⟩ (by simp [Task.tells])
      · exact .andThen ⟨hcalled.supervisor, hcalled.incarnations⟩
          (by simp [Task.tells, Task.failed, StreamError.isRefusal])
  | prepareWorker n i asked =>
    refine .bind fun unit _ => .bind fun result hcall => ?_
    obtain ⟨reply, called⟩ := result
    have hcalled := Aside.refl.callProcessor hcall
    simp only
    split
    · exact .ite .none (.andThen hcalled (by simp [Task.tells]))
    · exact .ite (.andThen ⟨hcalled.supervisor, hcalled.incarnations⟩ (by simp [Task.tells]))
        (.done ⟨hcalled.supervisor, hcalled.incarnations⟩)
  | awaitWorker n i =>
    refine .bind fun node _ => .bind fun unit _ => ?_
    split
    · exact .none
    · split
      · exact .andThen ⟨rfl, rfl⟩ (by simp [Task.tells])
      · exact .ite .none (.andThen .refl (by simp [Task.tells, Task.failed,
          StreamError.isRefusal]))
      · exact .ite (.andThen ⟨rfl, rfl⟩ (by simp [Task.tells, Task.failed,
          StreamError.isRefusal])) .none
  | receive n i =>
    refine .bind fun unit _ => ?_
    split
    · exact .andThen ⟨rfl, rfl⟩ (by simp [Task.tells])
    · exact .andThen .refl (by simp [Task.tells])
    · exact .ite (.andThen .refl (by simp [Task.tells])) .none
  | checkDismissed n i =>
    refine .bind fun unit _ => ?_
    split
    · exact .none
    · exact .ite (.andThen .refl (by simp [Task.tells]))
        (.andThen .refl (by simp [Task.tells]))
  | finishWorker n i asked =>
    refine .bind fun unit _ => .bind fun result hcall => ?_
    obtain ⟨reply, called⟩ := result
    have hcalled := Aside.refl.callProcessor hcall
    simp only
    split
    · exact .ite .none (.andThen hcalled (by simp [Task.tells]))
    · exact .done ⟨hcalled.supervisor, hcalled.incarnations⟩
  | stopNode n =>
    exact .bind fun node _ => .andThen .refl (by simp [Task.tells, or_imp, forall_and])
  | stoppedNode n => exact .bind fun node _ => .andThen ⟨rfl, rfl⟩ (by simp [Task.tells])
  | stopUnit n i =>
    refine .bind fun unit _ => ?_
    split
    · exact .ite (.andThen ⟨rfl, rfl⟩ (by simp [Task.tells])) (.done .refl)
    · exact .ite (.andThen .refl (by simp [Task.tells])) (.done .refl)
  | finishInline n i asked =>
    refine .bind fun unit _ => .bind fun result hcall => ?_
    obtain ⟨reply, called⟩ := result
    have hcalled := Aside.refl.callProcessor hcall
    simp only
    split
    · exact .ite .none (.andThen hcalled (by simp [Task.tells]))
    · exact .andThen ⟨hcalled.supervisor, hcalled.incarnations⟩ (by simp [Task.tells])
  | drain n i noted =>
    exact .bind fun unit _ => .ite (.done .refl) (.ite (.done ⟨rfl, rfl⟩)
      (.ite (.andThen ⟨rfl, rfl⟩ (by simp [Task.tells])) .none))
  | dismiss n i => exact .done ⟨rfl, rfl⟩
  | close n i =>
    refine .bind fun unit _ => ?_
    split
    · exact .done .refl
    · exact .ite .none (.done ⟨rfl, rfl⟩)
  | joinWorker n i =>
    refine .bind fun unit _ => ?_
    split
    · exact .done .refl
    · exact .ite .none (.done .refl)
  | stoppedUnit n i => exact .bind fun unit _ => .done ⟨rfl, rfl⟩

/-- A task in the life of triggers and sources. -/
theorem performSource_spares (expired : Bool) (task : SourceTask) :
    w.Spares me (w.performSource me expired task) := by
  cases task with
  | startTrigger t =>
    exact .bind fun trigger _ => .ite (.andThen .refl (by simp [Task.tells, Task.failed,
      StreamError.isRefusal])) (.andThen .refl (by simp [Task.tells]))
  | startSources t i =>
    exact .bind fun trigger _ => .ite (.andThen .refl (by simp [Task.tells]))
      (.andThen ⟨rfl, rfl⟩ (by simp [Task.tells]))
  | startedSource t i =>
    simp only [performSource, startedSource]
    split
    · rename_i error hanswer
      exact .andThen .refl (by simp [Task.tells, or_imp, forall_and, hanswer])
    · exact .andThen .refl (by simp [Task.tells])
  | startSource t i => exact .andThen ⟨rfl, rfl⟩ (by simp [Task.tells])
  | prepare t i l asked =>
    refine .bind fun unit _ => .bind fun result hcall => ?_
    obtain ⟨reply, called⟩ := result
    have hcalled := Aside.refl.callSource hcall
    cases reply with
    | waiting => exact .ite .none (.andThen hcalled (by simp [Task.tells]))
    | panicked text => exact .breakDown hcalled
    | failed error => exact .done ⟨hcalled.supervisor, hcalled.incarnations⟩
    | returned =>
      exact .bind fun launch _ => .andThen ⟨hcalled.supervisor, hcalled.incarnations⟩
        (by simp [Task.tells])
  | begin t i l delivered =>
    exact .bind fun launch _ => .ite (.andThen ⟨rfl, rfl⟩ (by simp [Task.tells]))
      (.andThen ⟨rfl, rfl⟩ (by simp [Task.tells]))
  | advance t i made resting =>
    refine .bind fun unit _ => .bind fun result hcall => ?_
    obtain ⟨reply, called⟩ := result
    have hcalled := Aside.refl.callSource hcall
    cases reply with
    | waiting => exact .ite .none (.andThen hcalled (by simp [Task.tells]))
    | panicked text => exact .breakDown hcalled
    | failed error =>
      exact .andThen ⟨hcalled.supervisor, hcalled.incarnations⟩ (by simp [Task.tells])
    | returned move => cases move <;> exact .andThen hcalled (by simp [Task.tells])
  | finish t i asked =>
    refine .bind fun result hcall => ?_
    obtain ⟨reply, called⟩ := result
    have hcalled := Aside.refl.callSource hcall
    cases reply with
    | waiting => exact .ite .none (.andThen hcalled (by simp [Task.tells]))
    | panicked text => exact .breakDown hcalled
    | returned | failed => exact .done hcalled
  | await t i l worker =>
    refine .bind fun unit _ => .bind fun launch _ => ?_
    split
    · exact .andThen ⟨rfl, rfl⟩ (by simp [Task.tells])
    · exact .ite (.andThen .refl (by simp [Task.tells, Task.failed, StreamError.isRefusal]))
        .none
    · exact .ite (.andThen .refl (by simp [Task.tells, Task.failed, StreamError.isRefusal]))
        (.ite (.andThen .refl (by simp [Task.tells])) .none)
  | giveUp t i l worker =>
    refine .bind fun trigger _ => .bind fun unit _ => .bind fun launch _ =>
      .andThen ⟨rfl, rfl⟩ fun task htask => ?_
    rcases List.mem_append.mp htask with htask | htask
    · split at htask
      · simp only [List.mem_cons, List.not_mem_nil, or_false] at htask
        rcases htask with rfl | rfl <;> trivial
      · simp at htask
    · obtain rfl := List.mem_singleton.mp htask
      exact fun h => absurd h (by simp [StreamError.isRefusal])
  | stopTrigger t =>
    exact .bind fun trigger _ => .andThen .refl (by simp [Task.tells, or_imp, forall_and])
  | stoppedTrigger t => exact .bind fun trigger _ => .andThen ⟨rfl, rfl⟩ (by simp [Task.tells])
  | stopSource t i =>
    exact .bind fun unit _ => .ite
      (.andThen ⟨rfl, rfl⟩ (by simp [Task.tells, or_imp, forall_and])) (.done .refl)
  | halt t i asked =>
    refine .bind fun result hcall => ?_
    obtain ⟨reply, called⟩ := result
    have hcalled := Aside.refl.callSource hcall
    cases reply with
    | waiting => exact .ite .none (.andThen hcalled (by simp [Task.tells]))
    | panicked text => exact .breakDown hcalled
    | returned | failed => exact .done hcalled
  | join name worker => exact .bind fun thread _ => .ite (.done ⟨rfl, rfl⟩) .none

/-- A task in the life of a stream. -/
theorem performStream_spares (task : StreamTask) :
    w.Spares me (w.performStream me task) := by
  cases task with
  | start s => exact .bind fun stream _ => .andThen .refl (by simp [Task.tells])
  | startProcessors s p =>
    cases p with
    | zero => exact .andThen .refl (by simp [Task.tells])
    | succ p =>
      exact .bind fun stream _ => .bind fun n _ => .andThen .refl (by simp [Task.tells])
  | startedProcessor s p =>
    refine .bind fun stream _ => ?_
    split
    · rename_i error hanswer
      exact .andThen .refl (by simp [Task.tells, or_imp, forall_and, hanswer,
        -List.map_drop])
    · exact .andThen .refl (by simp [Task.tells])
  | startTriggers s t =>
    refine .bind fun stream _ => ?_
    split
    · exact .andThen .refl (by simp [Task.tells])
    · exact .andThen ⟨rfl, rfl⟩ (by simp [Task.tells])
  | startedTrigger s t =>
    refine .bind fun stream _ => ?_
    split
    · rename_i error hanswer
      exact .andThen .refl (by simp [Task.tells, or_imp, forall_and, hanswer,
        -List.map_take])
    · exact .andThen .refl (by simp [Task.tells])
  | stop s =>
    exact .bind fun stream _ => .ite
      (.andThen ⟨rfl, rfl⟩ (by simp [Task.tells, or_imp, forall_and])) (.done .refl)
  | stopped s => exact .bind fun stream _ => .andThen ⟨rfl, rfl⟩ (by simp [Task.tells])

/-- A plain task concerns no table of the supervisor and tells no new refusal. -/
theorem perform_spares {expired : Bool} {task : Task} (hplain : task.isPlain = true) :
    w.Spares me (w.perform me expired task) := by
  cases task with
  | event task => exact performEvent_spares task
  | unit task => exact performUnit_spares expired task
  | source task => exact performSource_spares expired task
  | stream task => exact performStream_spares task
  | answer answer => exact .done ⟨rfl, rfl⟩
  | control | timer => simp [Task.isPlain] at hplain

end World
end EventPipeline
