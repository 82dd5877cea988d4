import EventPipeline.Proofs.Supervision.Lock

/-!
# `EventPipeline.Proofs.Supervision.Candor`: a refusal is never the fault of a stream

An operation is refused with one of five errors (`StreamError.isRefusal`). `Candid` says
that no incarnation ever fails to start with one of them: its stream is configured, and what
goes wrong while it is built and started is told as an error of the configuration, of a node
or of a breakdown. So whoever is told a refusal knows that nothing was started for it.
-/

set_option autoImplicit false

namespace EventPipeline

variable {P : Plugins}

/-- The thread builds an incarnation, and knows of no refusal. -/
structure Thread.Builds (thread : Thread) : Prop where
  shape : ∃ todo last, thread.agenda = todo ++ [last] ∧ ∀ task ∈ todo, task.isPlain = true
  told : ∀ error, thread.answer = .failed error → error.isRefusal = false
  tells : ∀ error, Task.answer (.failed error) ∈ thread.agenda → error.isRefusal = false

/-- A thread that builds an incarnation with a later task does a plain one now. -/
theorem Thread.Builds.tail {thread : Thread} {task : Task} {rest : List Task}
    (h : thread.Builds) (hagenda : thread.agenda = task :: rest) (hrest : rest ≠ []) :
    task.isPlain = true ∧
      ∃ todo last, rest = todo ++ [last] ∧ ∀ task ∈ todo, task.isPlain = true := by
  obtain ⟨todo, last, hshape, hplain⟩ := h.shape
  rw [hagenda] at hshape
  cases todo with
  | nil =>
    obtain ⟨-, rfl⟩ := List.cons.inj hshape
    exact absurd rfl hrest
  | cons first todo =>
    obtain ⟨rfl, rfl⟩ := List.cons.inj hshape
    exact ⟨hplain task (by simp), todo, last, rfl,
      fun task htask => hplain task (by simp [htask])⟩

namespace World

variable {w v u : World P} {me : Nat}

/-- Every incarnation belongs to a configured stream, and none has failed with a
refusal. -/
structure Candid (w : World P) : Prop where
  started : ∀ incarnation ∈ w.incarnations, ∀ error,
    incarnation.started = some (.error error) → error.isRefusal = false
  configured : ∀ incarnation ∈ w.incarnations,
    w.supervisor.config.streams.contains incarnation.name = true
  builders : ∀ thread ∈ w.threads, ∀ task ∈ thread.agenda, task.isBuilding = true →
    thread.Builds

/-! ## What incarnations are told -/

/-- Every incarnation is an old one, which was told nothing new but what the thread knew,
or one of a configured stream that was told nothing. -/
structure Honest (w : World P) (told : Answer) (v : World P) : Prop where
  config : v.supervisor.config = w.supervisor.config
  incarnations : ∀ incarnation ∈ v.incarnations,
    (∃ old ∈ w.incarnations, incarnation.name = old.name ∧ ∀ error,
      incarnation.started = some (.error error) →
        old.started = some (.error error) ∨ told = .failed error) ∨
    (w.supervisor.config.streams.contains incarnation.name = true ∧ incarnation.started = none)

namespace Honest

variable {told : Answer}

/-- The incarnations are the same ones. -/
theorem of_eq (hconfig : v.supervisor.config = w.supervisor.config)
    (h : v.incarnations = w.incarnations) : Honest w told v :=
  ⟨hconfig, fun incarnation hincarnation =>
    .inl ⟨incarnation, h ▸ hincarnation, rfl, fun _ h => .inl h⟩⟩

theorem refl : Honest w told w := of_eq rfl rfl

theorem of_aside (h : Aside w v) : Honest w told v :=
  of_eq (by rw [h.supervisor]) h.incarnations

/-- An incarnation is changed that keeps its name. -/
theorem changeIncarnation {i : Nat} {f : Incarnation → Incarnation}
    (hconfig : v.supervisor.config = w.supervisor.config)
    (hv : v.incarnations = w.incarnations.modify i f)
    (hf : ∀ incarnation, (f incarnation).name = incarnation.name ∧ ∀ error,
      (f incarnation).started = some (.error error) →
        incarnation.started = some (.error error) ∨ told = .failed error) :
    Honest w told v := by
  refine ⟨hconfig, fun incarnation hincarnation => .inl ?_⟩
  rw [hv] at hincarnation
  obtain hold | ⟨old, hold, rfl⟩ := mem_modify hincarnation
  · exact ⟨incarnation, hold, rfl, fun _ h => .inl h⟩
  · exact ⟨old, List.mem_of_getElem? hold, hf old⟩

end Honest

/-- Whatever a task comes to, incarnations are told nothing new but what the thread knew. -/
def Speaks (w : World P) (told : Answer) : Option (Progress P) → Prop :=
  ComesTo fun progress => Honest w told progress.world

namespace Speaks

variable {told : Answer}

theorem andThen {todo : List Task} (h : Honest w told v) : w.Speaks told (v.andThen todo) := by
  rintro _ ⟨⟩
  exact h

theorem none : w.Speaks told Option.none := ComesTo.none

theorem bind {α : Type} {value : Option α} {next : α → Option (Progress P)}
    (h : ∀ a, value = some a → w.Speaks told (next a)) : w.Speaks told (value >>= next) :=
  ComesTo.bind h

theorem ite {c : Prop} [Decidable c] {a b : Option (Progress P)} (ha : w.Speaks told a)
    (hb : w.Speaks told b) : w.Speaks told (if c then a else b) :=
  ComesTo.ite ha hb

end Speaks

/-- Giving up an incarnation tells it nothing. -/
theorem Honest.abandon {told : Answer} (w : World P) (i : Nat) : Honest w told (w.abandon i) := by
  unfold World.abandon
  split
  · exact .refl
  · have hchange (v : World P) (hconfig : v.supervisor.config = w.supervisor.config)
        (hv : v.incarnations = w.incarnations.modify i fun incarnation =>
          { incarnation with cancelled := true, aborted := true }) : Honest w told v :=
      .changeIncarnation hconfig hv fun _ => ⟨rfl, fun _ h => .inl h⟩
    simp only
    split <;> exact hchange _ rfl rfl

/-- A task in the life of heartbeats tells incarnations nothing. -/
theorem performTimer_speaks {told : Answer} (expired : Bool) (task : TimerTask) :
    w.Speaks told (w.performTimer expired task) := by
  have hcalls {α : Type} {h : Nat} {v : World P}
      {hook : P.Heartbeat → P.Shared → Call P.Heartbeat P.Shared StreamError α}
      {call : Reply StreamError α × World P} (hcall : w.callHeartbeat h hook = some call)
      (hconfig : v.supervisor.config = call.2.supervisor.config)
      (hv : v.incarnations = call.2.incarnations) : Honest w told v :=
    have hcalled := Aside.refl.callHeartbeat hcall
    .of_eq (hconfig.trans (by rw [hcalled.supervisor])) (hv.trans hcalled.incarnations)
  cases task with
  | prepare h asked =>
    refine .bind fun timer _ => .bind fun ⟨reply, called⟩ hcall => ?_
    cases reply with
    | waiting => exact .ite .none (.andThen (hcalls hcall rfl rfl))
    | returned | failed | panicked => exact .andThen (hcalls hcall rfl rfl)
  | pause h =>
    exact .bind fun timer _ => .ite (.andThen .refl) (.ite (.andThen (.of_eq rfl rfl)) .none)
  | beat h asked =>
    refine .bind fun timer _ => .bind fun ⟨reply, called⟩ hcall => ?_
    cases reply with
    | waiting => exact .ite .none (.andThen (hcalls hcall rfl rfl))
    | returned beat => cases beat <;> exact .andThen (hcalls hcall rfl rfl)
    | failed | panicked => exact .andThen (hcalls hcall rfl rfl)
  | finish h asked =>
    refine .bind fun ⟨reply, called⟩ hcall => ?_
    cases reply with
    | waiting => exact .ite .none (.andThen (hcalls hcall rfl rfl))
    | returned | failed | panicked => exact .andThen (hcalls hcall rfl rfl)
  | cancel h => exact .andThen (.of_eq rfl rfl)
  | await h => exact .bind fun timer _ => .ite (.andThen (.of_eq rfl rfl)) .none

/-- A task of supervision tells incarnations nothing but what its thread knows. -/
theorem performControl_speaks {told : Answer} (expired : Bool) (task : ControlTask)
    (htold : ∀ i, task = .built i → w.answerOf me = told) :
    w.Speaks told (w.performControl me expired task) := by
  cases task with
  | operate operation limited =>
    exact .ite (.ite (.andThen .refl) .none) (.andThen (.of_eq rfl rfl))
  | unlock => exact .andThen (.of_eq rfl rfl)
  | startLocked name =>
    simp only [performControl, startLocked]
    split
    · exact .andThen .refl
    split
    · exact .andThen .refl
    split
    · exact .andThen .refl
    rename_i hconfigured _
    refine .andThen ⟨rfl, fun incarnation hincarnation => ?_⟩
    obtain hold | rfl := by simpa [addIncarnation, spawn] using hincarnation
    · exact .inl ⟨incarnation, hold, rfl, fun _ h => .inl h⟩
    · exact .inr ⟨by simpa using hconfigured, rfl⟩
  | build i =>
    refine .bind fun incarnation _ => ?_
    have hbuilt := Builds.buildStream (w := w) incarnation.name w.supervisor.config
      w.supervisor.registry false
    simp only
    split
    · exact .none
    · exact .andThen (.of_aside hbuilt.toAside)
    · exact .andThen (.of_aside hbuilt.toAside)
    · rename_i s _
      refine .andThen (.changeIncarnation (i := i)
        (f := fun incarnation => { incarnation with stream := some s })
        (congrArg (·.config) hbuilt.supervisor) ?_ fun _ => ⟨rfl, fun _ h => .inl h⟩)
      exact congrArg (List.modify · i _) hbuilt.incarnations
  | built i =>
    refine .bind fun incarnation _ => ?_
    split
    · rename_i error hanswer
      refine .andThen (.changeIncarnation rfl rfl fun _ => ⟨rfl, fun error' h => .inr ?_⟩)
      obtain rfl : error = error' := by simpa using h
      exact (htold i rfl) ▸ hanswer
    · have hready : Honest w told (w.changeIncarnation i fun incarnation =>
          { incarnation with started := some (.ok ()) }) :=
        .changeIncarnation rfl rfl fun _ => ⟨rfl, by simp⟩
      exact .ite (.andThen hready) (.andThen hready)
  | awaitStarted i =>
    refine .bind fun incarnation _ => ?_
    simp only
    split
    · exact .andThen (.of_eq rfl rfl)
    · exact .andThen (.of_eq rfl rfl)
    · split
      · exact .andThen (.of_eq rfl rfl)
      · have habandon : Honest w told (w.abandon i) := .abandon w i
        exact .ite (.andThen ⟨habandon.config, habandon.incarnations⟩) .none
  | report i =>
    exact .bind fun incarnation _ => .ite (.andThen .refl)
      (.ite (.andThen .refl) (.andThen (.of_eq rfl rfl)))
  | pause i => exact .bind fun incarnation _ => .ite (.andThen .refl) .none
  | ended i broken =>
    exact .andThen (.changeIncarnation rfl rfl fun _ => ⟨rfl, fun _ h => .inl h⟩)
  | stopLocked name =>
    simp only [performControl, stopLocked]
    split
    · exact .andThen .refl
    · exact .andThen (.changeIncarnation rfl rfl fun _ => ⟨rfl, fun _ h => .inl h⟩)
  | awaitStopped i =>
    refine .bind fun incarnation _ => ?_
    have habandon : Honest w told (w.abandon i) := .abandon w i
    exact .ite (.andThen (.of_eq rfl rfl))
      (.ite (.andThen ⟨habandon.config, habandon.incarnations⟩) .none)
  | run =>
    refine .ite (.andThen .refl) ?_
    simp only
    split
    · exact .none
    · exact .andThen (.of_eq rfl rfl)
    · rintro _ ⟨⟩
      exact .of_eq rfl rfl
    · rename_i timers _
      have hmade : Builds w { w with shared := (buildHeartbeats w.supervisor.registry
          w.supervisor.config.heartbeats w.shared).shared } := ⟨⟨rfl, rfl⟩, rfl⟩
      have hbuilt := hmade.trans (.addTimers timers)
      exact .andThen (.of_eq (congrArg (·.config) hbuilt.supervisor) hbuilt.incarnations)
  | startAll names started timers =>
    cases names with
    | cons name names => exact .andThen .refl
    | nil =>
      have haside := (spawnTimers (w := w) timers).1
      exact .andThen (.of_aside ⟨haside.supervisor, haside.incarnations⟩)
  | startedOne names started timers => exact .andThen .refl
  | serve timers =>
    refine .ite (.andThen .refl) ?_
    split
    · exact .none
    · exact .andThen (.of_eq rfl rfl)
  | stopAll names count abandoned =>
    cases names with
    | cons name names => exact .andThen .refl
    | nil => exact .andThen (.of_eq rfl rfl)
  | stoppedOne names count abandoned => exact .andThen .refl
  | retire => exact .andThen (.of_eq rfl rfl)

/-- No task tells incarnations anything but the one that says how building went, which tells
what its thread knows. -/
theorem perform_speaks {told : Answer} (expired : Bool) (task : Task)
    (htold : ∀ i, task = .control (.built i) → w.answerOf me = told) :
    w.Speaks told (w.perform me expired task) := by
  cases task with
  | control task => exact performControl_speaks expired task fun i h => htold i (h ▸ rfl)
  | timer task => exact performTimer_speaks expired task
  | _ => exact fun progress h => .of_aside (perform_spares rfl progress h).1

/-! ## What goes wrong while a stream is built -/

/-- Whatever is told when something cannot be made has the property. -/
def FailsWith {σ α : Type} (Q : StreamError → Prop) (made : Made σ StreamError α) : Prop :=
  ∀ error, made.reply = .failed error → Q error

/-- What is made in two steps fails as one of them does. -/
theorem FailsWith.andThen {σ α β : Type} {Q : StreamError → Prop}
    {made : Made σ StreamError α} {next : α → σ → Made σ StreamError β} (h : FailsWith Q made)
    (hnext : ∀ a s, FailsWith Q (next a s)) : FailsWith Q (made.andThen next) := by
  intro error herror
  unfold Made.andThen at herror
  split at herror
  · exact hnext _ _ error herror
  · rename_i error' hmade
    obtain rfl : error' = error := by simpa using herror
    exact h error' hmade
  · simp at herror
  · simp at herror

/-- Building the parts of a stream is never refused. -/
theorem buildParts_failsWith {τ : Type} {templates : Fields τ} {stream : String}
    {build : World P → String → τ → Made (World P) StreamError Nat} {names : List String}
    (hbuild : ∀ v name template, FailsWith (·.isRefusal = false) (build v name template)) :
    FailsWith (·.isRefusal = false) (buildParts templates stream build names w) := by
  induction names generalizing w with
  | nil => simp [FailsWith, buildParts]
  | cons name names ih =>
    unfold buildParts
    split
    · rintro _ ⟨⟩
      rfl
    · exact (hbuild _ _ _).andThen fun _ _ => ih.andThen fun _ _ => by simp [FailsWith]

/-- Building a configured stream is never refused. -/
theorem buildStream_failsWith {name : String} {config : PipelineConfig}
    {registry : Registry P} {output : Bool} (h : config.streams.contains name = true) :
    FailsWith (·.isRefusal = false) (w.buildStream name config registry output) := by
  have hprocessor (v : World P) (name : String) (template : NodeTemplate) (within : Duration) :
      FailsWith (·.isRefusal = false) (v.buildProcessor registry name template within) := by
    unfold buildProcessor
    split
    · rintro _ ⟨⟩
      rfl
    · simp only
      split <;> rintro _ ⟨⟩
      rfl
  have htrigger (v : World P) (name : String) (template : TriggerTemplate) (within : Duration) :
      FailsWith (·.isRefusal = false) (v.buildTrigger registry name template within) := by
    unfold buildTrigger
    split
    · rintro _ ⟨⟩
      rfl
    · simp only
      split <;> rintro _ ⟨⟩
      rfl
  unfold buildStream
  split
  · rename_i error hlayout
    rintro _ ⟨⟩
    obtain ⟨members, hmembers⟩ := Option.isSome_iff_exists.mp h
    simp only [layoutOf, PipelineConfig.streamLayout, hmembers] at hlayout
    split at hlayout
    · simp at hlayout
    · rename_i hstreams
      split at hstreams
      · simp at hstreams
      · split at hstreams <;> simp at hstreams
    · obtain rfl := Except.error.inj hlayout
      rfl
  · refine (buildParts_failsWith fun _ _ _ => hprocessor _ _ _ _).andThen fun _ _ =>
      (buildParts_failsWith fun _ _ _ => htrigger _ _ _ _).andThen fun _ _ => ?_
    split
    · rintro _ ⟨⟩
      rfl
    · simp [FailsWith]

/-! ## Threads -/

/-- Whatever a task comes to, it adds at most threads that build an incarnation, and leads
to nothing of that kind itself. -/
def Launches (w : World P) : Option (Progress P) → Prop :=
  ComesTo fun progress =>
    (∃ spawned, (∀ agenda ∈ spawned, ∃ i, agenda = [.control (.build i)]) ∧
      progress.world.threads = w.threads ++ w.newThreads spawned) ∧
    ∀ task ∈ progress.todo, task.isBuilding = false

namespace Launches

theorem andThen {todo : List Task} (hthreads : v.threads = w.threads)
    (htodo : ∀ task ∈ todo, task.isBuilding = false) : w.Launches (v.andThen todo) := by
  rintro _ ⟨⟩
  exact ⟨⟨[], by simp, by simpa [Progress.world, newThreads] using hthreads⟩, htodo⟩

theorem none : w.Launches Option.none := ComesTo.none

theorem bind {α : Type} {value : Option α} {next : α → Option (Progress P)}
    (h : ∀ a, value = some a → w.Launches (next a)) : w.Launches (value >>= next) :=
  ComesTo.bind h

theorem ite {c : Prop} [Decidable c] {a b : Option (Progress P)} (ha : w.Launches a)
    (hb : w.Launches b) : w.Launches (if c then a else b) :=
  ComesTo.ite ha hb

end Launches

/-- A task of an operation that holds the lock adds at most a thread that builds an
incarnation. -/
theorem performControl_launches {expired : Bool} {task : ControlTask}
    (hcritical : (Task.control task).isCritical = true) :
    w.Launches (w.performControl me expired task) := by
  cases task with
  | unlock => exact .andThen rfl (by simp)
  | startLocked name =>
    simp only [performControl, startLocked]
    split
    · exact .andThen rfl (by simp)
    split
    · exact .andThen rfl (by simp)
    split
    · exact .andThen rfl (by simp)
    rintro _ ⟨⟩
    exact ⟨⟨[[.control (.build w.incarnations.length)]], by simp,
      by simp [Progress.world, newThreads, spawn, addIncarnation]⟩,
      by simp [Progress.todo]⟩
  | awaitStarted i =>
    refine .bind fun incarnation _ => ?_
    simp only
    split
    · exact .andThen rfl (by simp)
    · exact .andThen rfl (by simp)
    · split
      · exact .andThen rfl (by simp)
      · exact .ite (.andThen (abandon_supervisor w i).2 (by simp)) .none
  | stopLocked name =>
    simp only [performControl, stopLocked]
    split <;> exact .andThen rfl (by simp)
  | awaitStopped i =>
    exact .bind fun incarnation _ => .ite (.andThen rfl (by simp))
      (.ite (.andThen (abandon_supervisor w i).2 (by simp)) .none)
  | stopAll names count abandoned =>
    cases names <;> exact .andThen rfl (by simp)
  | stoppedOne names count abandoned => exact .andThen rfl (by simp)
  | _ => simp at hcritical

/-- What a task does to the threads: it adds some that do common tasks or build an
incarnation, or takes note of an answer on its own one. Only a task that builds an
incarnation leads to a task that says how that went. -/
theorem perform_threads {expired : Bool} {task : Task} {progress : Progress P}
    (h : w.perform me expired task = some progress) :
    ((∃ spawned, (∀ agenda ∈ spawned, Common agenda ∨ ∃ i, agenda = [.control (.build i)]) ∧
        progress.world.threads = w.threads ++ w.newThreads spawned) ∨
      ∃ answer, task = .answer answer ∧
        progress = .goOn (w.changeThread me fun thread => { thread with answer }) []) ∧
    ((∃ i, task = .control (.build i)) ∨ ∀ later ∈ progress.todo, later.isBuilding = false) := by
  cases hcritical : task.isCritical with
  | true =>
    cases task with
    | control task =>
      obtain ⟨⟨spawned, hspawned, hthreads⟩, htodo⟩ :=
        performControl_launches hcritical progress h
      exact ⟨.inl ⟨spawned, fun agenda hagenda => .inr (hspawned agenda hagenda), hthreads⟩,
        .inr htodo⟩
    | _ => simp at hcritical
  | false =>
    cases hspecial : task.isSpecial with
    | false =>
      obtain ⟨-, ⟨spawned, hspawned, hthreads⟩, htodo⟩ :=
        perform_frees hcritical hspecial progress h
      refine ⟨.inl ⟨spawned, fun agenda hagenda => .inl (hspawned agenda hagenda), hthreads⟩,
        .inr fun later hlater => ?_⟩
      cases progress with
      | goOn v todo => exact (htodo v todo rfl later hlater).2
      | breakDown => simp [Progress.todo] at hlater
    | true =>
      cases task with
      | answer answer =>
        obtain rfl := Option.some.inj h
        exact ⟨.inr ⟨answer, rfl, rfl⟩, .inr (by simp [Progress.todo])⟩
      | control task =>
        cases task with
        | operate operation limited =>
          have hentries (task : Task) (htask : task ∈ w.tasksOf operation ++ [.control .unlock]) :
              task.isBuilding = false := by
            obtain htask | htask := List.mem_append.mp htask
            · have hentry := isEntry_tasksOf w operation task htask
              cases task with
              | control task => cases task <;> first | rfl | simp [Task.isEntry] at hentry
              | _ => rfl
            · obtain rfl := List.mem_singleton.mp htask
              rfl
          have hlaunches : w.Launches (w.operate expired operation) :=
            .ite (.ite (.andThen rfl (by simp)) .none) (.andThen rfl hentries)
          obtain ⟨⟨spawned, hspawned, hthreads⟩, htodo⟩ := hlaunches progress h
          exact ⟨.inl ⟨spawned, fun agenda hagenda => .inr (hspawned agenda hagenda), hthreads⟩,
            .inr htodo⟩
        | build i =>
          have hthreads := (buildIncarnation_steady h).2.1
          exact ⟨.inl ⟨[], by simp, by simpa [newThreads] using hthreads⟩, .inl ⟨i, rfl⟩⟩
        | _ => simp [Task.isSpecial] at hspecial
      | _ => simp [Task.isSpecial] at hspecial

/-- A step leaves the threads alone that do not take it. -/
theorem step_threads_ne {t : Nat} {thread : Thread} (h : w.step me = some v) (ht : t ≠ me)
    (hthread : w.threads[t]? = some thread) : v.threads[t]? = some thread := by
  obtain ⟨_, task, rest, progress, -, -, hperform, rfl⟩ := step_perform h
  have hworld : progress.world.threads[t]? = some thread := by
    obtain ⟨spawned, -, hthreads⟩ | ⟨answer, -, rfl⟩ := (perform_threads hperform).1
    · rw [hthreads, List.getElem?_append_left (List.getElem?_eq_some_iff.mp hthread).1, hthread]
    · simp only [Progress.world, changeThread]
      rw [List.getElem?_modify_ne _ _ ht.symm, hthread]
  cases progress <;>
  · simp only [Progress.resume, changeThread]
    rw [List.getElem?_modify_ne _ _ ht.symm]
    exact hworld

/-! ## Threads that build an incarnation -/

/-- A plain task leads to plain tasks only. -/
theorem plain_todo {expired : Bool} {task : Task} {progress : Progress P}
    (hplain : task.isPlain = true) (h : w.perform me expired task = some progress) :
    ∀ later ∈ progress.todo, later.isPlain = true := by
  obtain hhandles | hturns | hconducts | ⟨answer, rfl, rfl⟩ := perform_cases hplain h
  · cases hhandles with
    | goOn handles => exact plain_of_handles handles
  · cases hturns with
    | goOn turns => exact plain_of_turns turns
    | breakDown => simp [Progress.todo]
  · cases hconducts with
    | goOn conducts => exact (plain_of_conducts conducts).1
    | breakDown => simp [Progress.todo]
  · simp [Progress.todo]

/-- What building the stream of an incarnation tells is no refusal. -/
theorem buildIncarnation_tells {i : Nat} {v : World P} {todo : List Task} (h : w.Candid)
    (hperform : w.buildIncarnation i = some (.goOn v todo)) :
    ∃ first, todo = [first, .control (.built i)] ∧ first.isPlain = true ∧
      ∀ error, first = .answer (.failed error) → error.isRefusal = false := by
  obtain ⟨incarnation, hincarnation, hperform⟩ := Option.bind_eq_some_iff.mp hperform
  have hconfigured := h.configured incarnation (List.mem_of_getElem? hincarnation)
  have hfails : FailsWith (·.isRefusal = false) (w.buildStream incarnation.name
      w.supervisor.config w.supervisor.registry false) := buildStream_failsWith hconfigured
  simp only at hperform
  split at hperform
  · simp at hperform
  · rename_i error hreply
    obtain ⟨-, rfl⟩ := Progress.goOn.inj (Option.some.inj hperform)
    refine ⟨_, rfl, rfl, fun error' heq => ?_⟩
    obtain rfl : error = error' := by simpa using heq
    exact hfails error hreply
  · obtain ⟨-, rfl⟩ := Progress.goOn.inj (Option.some.inj hperform)
    refine ⟨_, rfl, rfl, fun error heq => ?_⟩
    obtain rfl := (Answer.failed.inj (Task.answer.inj heq)).symm
    rfl
  · obtain ⟨-, rfl⟩ := Progress.goOn.inj (Option.some.inj hperform)
    exact ⟨_, rfl, rfl, fun _ h => by simp at h⟩

/-- A thread that builds an incarnation still does so after its first task. -/
theorem builds_step {thread : Thread} {task : Task} {rest todo : List Task} {expired : Bool}
    {since : Nat} (h : w.Candid) (hthread : w.threads[me]? = some thread)
    (hagenda : thread.agenda = task :: rest)
    (hperform : w.perform me expired task = some (.goOn v todo))
    (hanswer : ∀ answer, task ≠ .answer answer)
    (hbuilding : ∃ task ∈ todo ++ rest, task.isBuilding = true) :
    (thread.goOn todo since).Builds := by
  have hmem := List.mem_of_getElem? hthread
  have hknows : w.answerOf me = thread.answer := by simp [answerOf, hthread]
  have hnew : (thread.goOn todo since).agenda = todo ++ rest := by simp [Thread.goOn, hagenda]
  obtain ⟨later, hlater, hbuilds⟩ := hbuilding
  obtain ⟨i, rfl⟩ | htodo := (perform_threads hperform).2
  · have hthreadBuilds :=
      h.builders thread hmem (.control (.build i)) (by rw [hagenda]; simp) rfl
    obtain rfl : rest = [] := by
      by_contra hrest
      simpa [Task.isPlain] using (hthreadBuilds.tail hagenda hrest).1
    obtain ⟨first, rfl, hplain, htells⟩ := buildIncarnation_tells h hperform
    refine ⟨⟨[first], .control (.built i), hnew, by simpa using hplain⟩, hthreadBuilds.told,
      fun error herror => htells error ?_⟩
    rw [hnew] at herror
    simpa [eq_comm] using herror
  · have hrest : later ∈ rest := (List.mem_append.mp hlater).resolve_left fun hlater =>
      Bool.false_ne_true ((htodo later hlater).symm.trans hbuilds)
    have hthreadBuilds := h.builders thread hmem later (by rw [hagenda]; simp [hrest]) hbuilds
    obtain ⟨hplain, todo', last, rfl, hplains⟩ :=
      hthreadBuilds.tail hagenda (List.ne_nil_of_mem hrest)
    refine ⟨⟨todo ++ todo', last, by simp [hnew], fun task htask => ?_⟩, hthreadBuilds.told,
      fun error herror => ?_⟩
    · exact (List.mem_append.mp htask).elim (plain_todo hplain hperform task) (hplains task)
    · rw [hnew] at herror
      obtain herror | herror := List.mem_append.mp herror
      · by_contra hrefusal
        have htells := (perform_spares hplain _ hperform).2 v todo rfl _ herror
          (by simpa using hrefusal)
        exact hrefusal (hthreadBuilds.told error (hknows ▸ htells))
      · exact hthreadBuilds.tells error (by rw [hagenda]; exact List.mem_cons_of_mem _ herror)

/-- A thread that is told nothing wrong still builds an incarnation. -/
theorem builds_note {thread : Thread} {answer : Answer} {rest : List Task} {since : Nat}
    (h : w.Candid) (hthread : w.threads[me]? = some thread)
    (hagenda : thread.agenda = .answer answer :: rest)
    (hbuilding : ∃ task ∈ rest, task.isBuilding = true) :
    (Thread.goOn [] since { thread with answer }).Builds := by
  obtain ⟨later, hlater, hbuilds⟩ := hbuilding
  have hthreadBuilds := h.builders thread (List.mem_of_getElem? hthread) later
    (by rw [hagenda]; simp [hlater]) hbuilds
  obtain ⟨-, todo, last, rfl, hplains⟩ :=
    hthreadBuilds.tail hagenda (List.ne_nil_of_mem hlater)
  refine ⟨⟨todo, last, by simp [Thread.goOn, hagenda], hplains⟩, ?_, fun error herror => ?_⟩
  · rintro error rfl
    exact hthreadBuilds.tells error (by simp [hagenda])
  · exact hthreadBuilds.tells error
      (by rw [hagenda]; exact List.mem_cons_of_mem _ (by simpa [Thread.goOn, hagenda] using herror))

/-! ## All steps -/

/-- Threads that are new in a world do common tasks, or build an incarnation. -/
theorem Candid.builders_new {spawned : List (List Task)} (h : w.Candid)
    (hspawned : ∀ agenda ∈ spawned, Common agenda ∨ ∃ i, agenda = [.control (.build i)])
    (hthreads : v.threads = w.threads ++ w.newThreads spawned) :
    ∀ thread ∈ v.threads, ∀ task ∈ thread.agenda, task.isBuilding = true → thread.Builds := by
  intro thread hthread task htask hbuilds
  rw [hthreads] at hthread
  obtain hthread | hthread := List.mem_append.mp hthread
  · exact h.builders thread hthread task htask hbuilds
  · obtain ⟨agenda, hagenda, rfl⟩ := List.mem_map.mp hthread
    obtain hcommon | ⟨i, rfl⟩ := hspawned agenda hagenda
    · exact absurd ((hcommon task htask).2.symm.trans hbuilds) Bool.false_ne_true
    · exact ⟨⟨[], _, rfl, by simp⟩, by simp, by simp⟩

/-- What is said of incarnations stays true when they are told nothing wrong. -/
theorem Candid.honest {told : Answer} (h : w.Candid) (hhonest : Honest w told v)
    (htold : ∀ error, told = .failed error → error.isRefusal = false) :
    (∀ incarnation ∈ v.incarnations, ∀ error,
      incarnation.started = some (.error error) → error.isRefusal = false) ∧
    ∀ incarnation ∈ v.incarnations,
      v.supervisor.config.streams.contains incarnation.name = true := by
  refine ⟨fun incarnation hincarnation error herror => ?_, fun incarnation hincarnation => ?_⟩
  · obtain ⟨old, hold, -, hstarted⟩ | ⟨-, hnone⟩ := hhonest.incarnations incarnation hincarnation
    · exact (hstarted error herror).elim (h.started old hold error) (htold error)
    · simp [hnone] at herror
  · rw [hhonest.config]
    obtain ⟨old, hold, hname, -⟩ | ⟨hconfigured, -⟩ :=
      hhonest.incarnations incarnation hincarnation
    · exact hname ▸ h.configured old hold
    · exact hconfigured

/-- Whatever a thread does, no incarnation is told a refusal. -/
theorem Candid.step (h : w.Candid) (hstep : w.step me = some v) : v.Candid := by
  obtain ⟨thread, task, rest, progress, hthread, hagenda, hperform, rfl⟩ := step_perform hstep
  have hmem := List.mem_of_getElem? hthread
  have hincarnations : (progress.resume me).incarnations = progress.world.incarnations ∧
      (progress.resume me).supervisor = progress.world.supervisor := by
    cases progress <;> exact ⟨rfl, rfl⟩
  have hhonest : ∃ told, Honest w told progress.world ∧
      ∀ error, told = .failed error → error.isRefusal = false := by
    by_cases hbuilt : ∃ i, task = .control (.built i)
    · obtain ⟨i, rfl⟩ := hbuilt
      have hbuilds := h.builders thread hmem (.control (.built i)) (by rw [hagenda]; simp) rfl
      exact ⟨thread.answer, perform_speaks _ _ (fun _ _ => by simp [answerOf, hthread]) _ hperform,
        hbuilds.told⟩
    · exact ⟨.ok, perform_speaks _ _ (fun i hi => absurd ⟨i, hi⟩ hbuilt) _ hperform, by simp⟩
  obtain ⟨told, hhonest, htold⟩ := hhonest
  obtain ⟨hstarted, hconfigured⟩ := h.honest hhonest htold
  refine ⟨hincarnations.1 ▸ hstarted,
    by rw [hincarnations.1, hincarnations.2]; exact hconfigured, ?_⟩
  intro later hlater task' htask' hbuilds
  by_cases hanswer : ∃ answer, task = .answer answer
  · obtain ⟨answer, rfl⟩ := hanswer
    obtain rfl := Option.some.inj hperform
    simp only [Progress.resume, changeThread, List.modify_modify_eq] at hlater
    obtain hlater | ⟨old, hold, rfl⟩ := mem_modify hlater
    · exact h.builders later hlater task' htask' hbuilds
    · obtain rfl : thread = old := Option.some.inj (hthread.symm.trans hold)
      exact builds_note h hthread hagenda
        ⟨task', by simpa [Thread.goOn, hagenda] using htask', hbuilds⟩
  · have hanswer (answer : Answer) : task ≠ .answer answer := fun heq => hanswer ⟨answer, heq⟩
    obtain ⟨spawned, hspawned, hthreads⟩ | ⟨answer, rfl, -⟩ := (perform_threads hperform).1
    · have hnew := h.builders_new hspawned hthreads
      have hkept : progress.world.threads[me]? = some thread := by
        rw [hthreads, List.getElem?_append_left (List.getElem?_eq_some_iff.mp hthread).1, hthread]
      cases progress with
      | goOn v todo =>
        obtain hlater | ⟨old, hold, rfl⟩ := mem_modify (l := v.threads) hlater
        · exact hnew later hlater task' htask' hbuilds
        · obtain rfl : thread = old := Option.some.inj (hkept.symm.trans hold)
          exact builds_step h hthread hagenda hperform hanswer
            ⟨task', by simpa [Thread.goOn, hagenda] using htask', hbuilds⟩
      | breakDown v text =>
        obtain hlater | ⟨old, hold, rfl⟩ := mem_modify (l := v.threads) hlater
        · exact hnew later hlater task' htask' hbuilds
        · simp [Thread.breakDown] at htask'
    · exact absurd rfl (hanswer answer)

/-- Whatever happens, no incarnation is told a refusal. -/
theorem Candid.meet {occurrence : Occurrence P} (h : w.Candid)
    (hmeet : w.meet occurrence = some v) : v.Candid := by
  by_cases hstep : ∃ me, occurrence = .move (.step me)
  · obtain ⟨me, rfl⟩ := hstep
    exact h.step hmeet
  · obtain ⟨hsteady, hincarnations, spawned, hspawned, hthreads⟩ :=
      meet_steady hmeet fun me heq => hstep ⟨me, heq⟩
    refine ⟨hincarnations ▸ h.started, ?_, h.builders_new (fun agenda hagenda =>
      .inl (hspawned agenda hagenda)) hthreads⟩
    rw [hincarnations, hsteady.config]
    exact h.configured

/-- At first there are no incarnations. -/
theorem candid_supervising (config : PipelineConfig) (registry : Registry P)
    (shared : P.Shared) : (supervising config registry shared).Candid :=
  ⟨by simp [supervising], by simp [supervising], by simp [supervising]⟩

/-- In every state that a supervisor reaches, no incarnation was told a refusal. -/
theorem Candid.undergo {occurrences : List (Occurrence P)} (h : w.Candid)
    (hundergo : w.undergo occurrences = some v) : v.Candid :=
  undergo_invariant Candid.meet h hundergo

end World
end EventPipeline
