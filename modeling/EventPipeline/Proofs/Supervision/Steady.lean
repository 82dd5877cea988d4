import EventPipeline.Proofs.Engine.Building
import EventPipeline.Proofs.Supervision.Aside

/-!
# `EventPipeline.Proofs.Supervision.Steady`: what only operations change

Starting and stopping streams is done by the critical tasks of an operation, between the one
that takes the lock and the one that gives it back. Every other task is free: `step_free`
says that it leaves the streams alone that run and those that were given up, makes no
incarnation, and revives none (`Steady`). It may apply a report, but that only changes what
is known of a stream that runs.
-/

set_option autoImplicit false

namespace EventPipeline

variable {P : Plugins}

/-- The task is part of an operation that has taken the lock. -/
@[simp]
def Task.isCritical : Task → Bool
  | .control (.unlock) | .control (.startLocked _) | .control (.awaitStarted _)
  | .control (.stopLocked _) | .control (.awaitStopped _) | .control (.stopAll ..)
  | .control (.stoppedOne ..) => true
  | _ => false

/-- The task builds an incarnation or says how that went. -/
@[simp]
def Task.isBuilding : Task → Bool
  | .control (.build _) | .control (.built _) => true
  | _ => false

/-- The task takes the lock, takes note of an answer or builds an incarnation. -/
def Task.isSpecial : Task → Bool
  | .control (.operate ..) | .control (.build _) | .answer _ => true
  | _ => false

/-- Nothing on the agenda is part of an operation that has taken the lock. -/
def Free (agenda : List Task) : Prop :=
  ∀ task ∈ agenda, task.isCritical = false

/-- Nothing on the agenda is part of an operation that has taken the lock, or builds an
incarnation. -/
def Common (agenda : List Task) : Prop :=
  ∀ task ∈ agenda, task.isCritical = false ∧ task.isBuilding = false

@[simp]
theorem common_nil : Common [] := by simp [Common]

@[simp]
theorem common_cons {task : Task} {agenda : List Task} : Common (task :: agenda) ↔
    (task.isCritical = false ∧ task.isBuilding = false) ∧ Common agenda := by
  simp [Common]

/-- What is fixed of an incarnation unless it is given up. -/
def Incarnation.fixed (incarnation : Incarnation) : String × Bool :=
  (incarnation.name, incarnation.aborted)

/-- Tasks in the life of a stream are common. -/
theorem common_of_plain {agenda : List Task} (h : ∀ task ∈ agenda, task.isPlain = true) :
    Common agenda := by
  intro task htask
  have hplain := h task htask
  cases task <;> first | exact ⟨rfl, rfl⟩ | simp [Task.isPlain] at hplain

theorem Common.free {agenda : List Task} (h : Common agenda) : Free agenda :=
  fun task htask => (h task htask).1

theorem Common.append {agenda later : List Task} (h : Common agenda) (h' : Common later) :
    Common (agenda ++ later) :=
  fun task htask => (List.mem_append.mp htask).elim (h task) (h' task)

theorem Free.append {agenda later : List Task} (h : Free agenda) (h' : Free later) :
    Free (agenda ++ later) :=
  fun task htask => (List.mem_append.mp htask).elim (h task) (h' task)

theorem Free.tail {agenda : List Task} (h : Free agenda) : Free agenda.tail :=
  fun task htask => h task (List.mem_of_mem_tail htask)

namespace World

variable {w v u : World P} {me : Nat}

/-- An incarnation lives as long as it has not ended and its thread has not broken down. -/
theorem isAlive_iff {i : Nat} : w.isAlive i = true ↔ ∃ incarnation,
    w.incarnations[i]? = some incarnation ∧ incarnation.ended = false ∧
      w.brokenOf incarnation.thread = none := by
  unfold isAlive
  cases w.incarnations[i]? <;> simp

/-- No thread has recovered from a breakdown. -/
def Breaks (w v : World P) : Prop :=
  ∀ t, v.brokenOf t = none → w.brokenOf t = none

/-- Threads that are added mend nothing. -/
theorem Breaks.of_append {more : List Thread} (h : v.threads = w.threads ++ more) :
    Breaks w v := by
  intro t ht
  unfold brokenOf at *
  by_cases hlength : t < w.threads.length
  · rwa [h, List.getElem?_append_left hlength] at ht
  · rw [List.getElem?_eq_none (Nat.le_of_not_lt hlength)]
    rfl

/-- A change of a thread mends nothing if it does not mend that thread. -/
theorem Breaks.of_modify {f : Thread → Thread} (h : v.threads = w.threads.modify me f)
    (hf : ∀ thread, (f thread).broken = none → thread.broken = none) : Breaks w v := by
  intro t ht
  simp only [brokenOf, h, List.getElem?_modify, Option.bind_eq_none_iff] at *
  intro thread hthread
  have hbroken := ht _ (by rw [hthread]; rfl)
  split at hbroken
  · exact hf thread hbroken
  · exact hbroken

theorem Breaks.of_eq (h : v.threads = w.threads) : Breaks w v :=
  fun t ht => by rwa [brokenOf, h] at ht

/-- The tables of the supervisor show the same streams, and no incarnation was made, given
up or revived. -/
structure Steady (w v : World P) : Prop where
  config : v.supervisor.config = w.supervisor.config
  streams : v.supervisor.streams = w.supervisor.streams
  abandoned : v.supervisor.abandoned = w.supervisor.abandoned
  locked : v.supervisor.locked = w.supervisor.locked
  runtime : w.supervisor.runtime.Ascending →
    v.supervisor.runtime.names = w.supervisor.runtime.names
  incarnations : v.incarnations.map (·.fixed) = w.incarnations.map (·.fixed)
  alive : ∀ i, v.isAlive i = true → w.isAlive i = true

namespace Steady

theorem refl : Steady w w := ⟨rfl, rfl, rfl, rfl, fun _ => rfl, rfl, fun _ h => h⟩

theorem trans (h : Steady w v) (h' : Steady v u) : Steady w u where
  config := h'.config.trans h.config
  streams := h'.streams.trans h.streams
  abandoned := h'.abandoned.trans h.abandoned
  locked := h'.locked.trans h.locked
  runtime := fun hw =>
    have hv := Fields.ascending_iff_names.mpr
      (h.runtime hw ▸ Fields.ascending_iff_names.mp hw)
    (h'.runtime hv).trans (h.runtime hw)
  incarnations := h'.incarnations.trans h.incarnations
  alive := fun i hi => h.alive i (h'.alive i hi)

/-- Worlds with one supervisor, one list of incarnations and the same threads, of which some
may have broken down. -/
theorem of_aside (h : Aside w v) (hbreaks : Breaks w v) : Steady w v where
  config := by rw [h.supervisor]
  streams := by rw [h.supervisor]
  abandoned := by rw [h.supervisor]
  locked := by rw [h.supervisor]
  runtime := fun _ => by rw [h.supervisor]
  incarnations := by rw [h.incarnations]
  alive := fun i hi => by
    rw [isAlive_iff, h.incarnations] at *
    obtain ⟨incarnation, hincarnation, hended, hbroken⟩ := hi
    exact ⟨incarnation, hincarnation, hended, hbreaks _ hbroken⟩

/-- A change of an incarnation that neither gives it up nor revives it. -/
theorem changeIncarnation (i : Nat) {f : Incarnation → Incarnation}
    (hf : ∀ incarnation, (f incarnation).fixed = incarnation.fixed ∧
      (f incarnation).thread = incarnation.thread ∧
      ((f incarnation).ended = false → incarnation.ended = false)) :
    Steady w (w.changeIncarnation i f) where
  config := rfl
  streams := rfl
  abandoned := rfl
  locked := rfl
  runtime := fun _ => rfl
  incarnations := map_modify_eq fun incarnation _ => (hf incarnation).1
  alive := fun j hj => by
    rw [isAlive_iff] at *
    obtain ⟨incarnation, hincarnation, hended, hbroken⟩ := hj
    obtain ⟨rfl, old, hold, rfl⟩ | ⟨-, hold⟩ := getElem?_modify_cases hincarnation
    · obtain ⟨-, hthread, hrevived⟩ := hf old
      exact ⟨old, hold, hrevived hended, hthread ▸ hbroken⟩
    · exact ⟨incarnation, hold, hended, hbroken⟩

/-- A change of the supervisor that touches no table. -/
theorem changeSupervisor {f : Supervisor P → Supervisor P}
    (hf : ∀ s, (f s).config = s.config ∧ (f s).streams = s.streams ∧
      (f s).abandoned = s.abandoned ∧ (f s).locked = s.locked ∧ (f s).runtime = s.runtime) :
    Steady w (w.changeSupervisor f) :=
  have ⟨hconfig, hstreams, habandoned, hlocked, hruntime⟩ := hf w.supervisor
  ⟨hconfig, hstreams, habandoned, hlocked, fun _ => congrArg Fields.names hruntime, rfl,
    fun _ h => h⟩

end Steady

/-! ## Building a stream -/

/-- Building concerns no table of the supervisor and no thread. -/
structure Builds (w v : World P) : Prop extends Aside w v where
  threads : v.threads = w.threads

namespace Builds

theorem refl : Builds w w := ⟨.refl, rfl⟩

theorem trans (h : Builds w v) (h' : Builds v u) : Builds w u :=
  ⟨h.toAside.trans h'.toAside, h'.threads.trans h.threads⟩

theorem buildProcessor (registry : Registry P) (name : String) (template : NodeTemplate)
    (within : Duration) : Builds w (w.buildProcessor registry name template within).shared := by
  unfold World.buildProcessor
  split
  · exact .refl
  · simp only
    split <;> exact ⟨⟨rfl, rfl⟩, rfl⟩

theorem buildTrigger (registry : Registry P) (name : String) (template : TriggerTemplate)
    (within : Duration) : Builds w (w.buildTrigger registry name template within).shared := by
  unfold World.buildTrigger
  split
  · exact .refl
  · simp only
    split <;> exact ⟨⟨rfl, rfl⟩, rfl⟩

theorem buildStream (name : String) (config : PipelineConfig) (registry : Registry P)
    (output : Bool) : Builds w (w.buildStream name config registry output).shared :=
  BuildKeeps.buildStream (I := Builds w)
    ⟨fun _ _ _ _ h => h.trans (.buildProcessor ..), fun _ _ _ _ h => h.trans (.buildTrigger ..),
      fun _ g _ h => ⟨.changeGate g _ h.toAside, by cases g <;> exact h.threads⟩,
      fun _ _ h => ⟨⟨h.supervisor, h.incarnations⟩, h.threads⟩⟩ name config output .refl

end Builds

/-! ## Free tasks -/

/-- Whatever a task comes to, the tables stay steady, and what is left to do is common. -/
def Frees (w : World P) : Option (Progress P) → Prop :=
  ComesTo fun progress => Steady w progress.world ∧
    (∃ spawned, (∀ agenda ∈ spawned, Common agenda) ∧
      progress.world.threads = w.threads ++ w.newThreads spawned) ∧
    ∀ v todo, progress = .goOn v todo → Common todo

namespace Frees

theorem none : w.Frees Option.none := ComesTo.none

theorem bind {α : Type} {value : Option α} {next : α → Option (Progress P)}
    (h : ∀ a, value = some a → w.Frees (next a)) : w.Frees (value >>= next) :=
  ComesTo.bind h

theorem ite {c : Prop} [Decidable c] {a b : Option (Progress P)} (ha : w.Frees a)
    (hb : w.Frees b) : w.Frees (if c then a else b) :=
  ComesTo.ite ha hb

theorem spawning {todo : List Task} (spawned : List (List Task)) (h : Steady w v)
    (hspawned : ∀ agenda ∈ spawned, Common agenda)
    (hthreads : v.threads = w.threads ++ w.newThreads spawned) (htodo : Common todo) :
    w.Frees (v.andThen todo) := by
  rintro _ ⟨⟩
  refine ⟨h, ⟨spawned, hspawned, hthreads⟩, ?_⟩
  rintro _ _ ⟨⟩
  exact htodo

theorem andThen {todo : List Task} (h : Steady w v) (hthreads : v.threads = w.threads)
    (htodo : Common todo) : w.Frees (v.andThen todo) :=
  spawning [] h (by simp) (by simpa [newThreads] using hthreads) htodo

theorem done (h : Steady w v) (hthreads : v.threads = w.threads) : w.Frees v.done :=
  .andThen h hthreads (by simp)

theorem breakDown {text : String} (h : Steady w v) (hthreads : v.threads = w.threads) :
    w.Frees (some (.breakDown v text)) := by
  rintro _ ⟨⟩
  exact ⟨h, ⟨[], by simp, by simpa [Progress.world, newThreads] using hthreads⟩, by simp⟩

end Frees

/-- A plain task is free, unless it takes note of an answer. -/
theorem perform_plain_frees {expired : Bool} {task : Task} (hplain : task.isPlain = true)
    (hanswer : task.isSpecial = false) : w.Frees (w.perform me expired task) := by
  intro progress h
  obtain ⟨haside, -⟩ := perform_spares hplain progress h
  obtain hhandles | hturns | hconducts | ⟨answer, rfl, rfl⟩ := perform_cases hplain h
  · cases hhandles with
    | goOn handles threads =>
      exact Frees.andThen (.of_aside haside (.of_eq threads)) threads
        (common_of_plain (plain_of_handles handles)) _ rfl
  · cases hturns with
    | goOn turns threads =>
      exact Frees.andThen (.of_aside haside (.of_eq threads)) threads
        (common_of_plain (plain_of_turns turns)) _ rfl
    | breakDown owner outline threads =>
      exact Frees.breakDown (.of_aside haside (.of_eq threads)) threads _ rfl
  · cases hconducts with
    | @goOn v todo spawned conducts threads =>
      exact Frees.spawning spawned (.of_aside haside (.of_append threads)) (fun agenda hagenda =>
        common_of_plain ((plain_of_conducts conducts).2 agenda hagenda)) threads
        (common_of_plain (plain_of_conducts conducts).1) _ rfl
    | breakDown halts threads =>
      exact Frees.breakDown (.of_aside haside (.of_eq threads)) threads _ rfl
  · simp [Task.isSpecial] at hanswer

/-- A call of a hook of a heartbeat builds nothing. -/
theorem Builds.callHeartbeat {α : Type} {i : Nat}
    {hook : P.Heartbeat → P.Shared → Call P.Heartbeat P.Shared StreamError α}
    {reply : Reply StreamError α} {called : World P}
    (hcall : w.callHeartbeat i hook = some (reply, called)) : Builds w called := by
  obtain ⟨timer, htimer, heq⟩ := by simpa [World.callHeartbeat] using hcall
  obtain ⟨-, rfl⟩ := heq
  exact ⟨⟨rfl, rfl⟩, rfl⟩

/-- What is built leaves the tables steady. -/
theorem Builds.steady (h : Builds w v) : Steady w v :=
  .of_aside h.toAside (.of_eq h.threads)

/-- What is built is followed by free tasks. -/
theorem Frees.of_builds {todo : List Task} (h : Builds w v) (htodo : Common todo) :
    w.Frees (v.andThen todo) :=
  .andThen h.steady h.threads htodo

/-- A task in the life of heartbeats is free. -/
theorem performTimer_frees (expired : Bool) (task : TimerTask) :
    w.Frees (w.performTimer expired task) := by
  cases task with
  | prepare h asked =>
    refine .bind fun timer _ => .bind fun ⟨reply, called⟩ hcall => ?_
    have hcalled := Builds.callHeartbeat hcall
    cases reply with
    | waiting => exact .ite .none (.of_builds hcalled (by simp))
    | returned => exact .of_builds hcalled (by simp)
    | failed | panicked =>
      exact .of_builds ⟨⟨hcalled.supervisor, hcalled.incarnations⟩, hcalled.threads⟩ (by simp)
  | pause h =>
    exact .bind fun timer _ => .ite (.of_builds .refl (by simp))
      (.ite (.of_builds ⟨⟨rfl, rfl⟩, rfl⟩ (by simp)) .none)
  | beat h asked =>
    refine .bind fun timer _ => .bind fun ⟨reply, called⟩ hcall => ?_
    have hcalled := Builds.callHeartbeat hcall
    cases reply with
    | waiting => exact .ite .none (.of_builds hcalled (by simp))
    | returned beat =>
      cases beat with
      | nothing => exact .of_builds hcalled (by simp)
      | stop =>
        refine .andThen (hcalled.steady.trans ?_) hcalled.threads (by simp)
        exact .changeSupervisor fun _ => ⟨rfl, rfl, rfl, rfl, rfl⟩
    | failed error =>
      exact .of_builds ⟨⟨hcalled.supervisor, hcalled.incarnations⟩, hcalled.threads⟩ (by simp)
    | panicked =>
      exact .of_builds ⟨⟨hcalled.supervisor, hcalled.incarnations⟩, hcalled.threads⟩ (by simp)
  | finish h asked =>
    refine .bind fun ⟨reply, called⟩ hcall => ?_
    have hcalled := Builds.callHeartbeat hcall
    cases reply with
    | waiting => exact .ite .none (.of_builds hcalled (by simp))
    | returned | failed | panicked =>
      exact .of_builds ⟨⟨hcalled.supervisor, hcalled.incarnations⟩, hcalled.threads⟩ (by simp)
  | cancel h => exact .of_builds ⟨⟨rfl, rfl⟩, rfl⟩ (by simp)
  | await h =>
    exact .bind fun timer _ => .ite (.of_builds ⟨⟨rfl, rfl⟩, rfl⟩ (by simp)) .none

/-- What ends an incarnation is free. -/
theorem common_windDown (incarnation : Incarnation) (i : Nat) (broken : Option String) :
    Common (windDown incarnation i broken) := by
  unfold windDown
  cases incarnation.stream <;> simp

/-- The supervisor takes a report, or any other note that touches no table. -/
theorem Steady.applyReport {reports : List (String × StreamStats)}
    (report : String × StreamStats) :
    Steady w (w.changeSupervisor fun s =>
      { s with reports, runtime := World.applyReport s.runtime report }) := by
  refine ⟨rfl, rfl, rfl, rfl, fun hascending => ?_, rfl, fun _ h => h⟩
  show (World.applyReport w.supervisor.runtime report).names = _
  unfold World.applyReport
  split
  · rename_i hcontains
    exact Fields.names_put_of_contains hascending hcontains _
  · rfl

/-- Timers are added to what is built. -/
theorem Builds.addTimers (timers : List (Timer P)) : Builds w (w.addTimers timers).2 := by
  induction timers generalizing w with
  | nil => exact .refl
  | cons timer timers ih =>
    exact Builds.trans (v := (w.addTimer timer).2) ⟨⟨rfl, rfl⟩, rfl⟩ ih

/-- Every timer gets a thread. -/
theorem spawnTimers (timers : List Nat) :
    Aside w (timers.foldl (fun w h => (w.spawn [.timer (.prepare h false)]).2) w) ∧
      (timers.foldl (fun w h => (w.spawn [.timer (.prepare h false)]).2) w).threads =
        w.threads ++ w.newThreads (timers.map fun h => [.timer (.prepare h false)]) := by
  induction timers generalizing w with
  | nil => exact ⟨.refl, by simp [newThreads]⟩
  | cons h timers ih =>
    obtain ⟨haside, hthreads⟩ := ih (w := (w.spawn [.timer (.prepare h false)]).2)
    exact ⟨⟨haside.supervisor, haside.incarnations⟩, by simpa [spawn, newThreads] using hthreads⟩

/-- A task of supervision is free that is no part of an operation and is not special. -/
theorem performControl_frees {expired : Bool} {task : ControlTask}
    (hcritical : (Task.control task).isCritical = false)
    (hspecial : (Task.control task).isSpecial = false) :
    w.Frees (w.performControl me expired task) := by
  cases task with
  | operate | build => simp [Task.isSpecial] at hspecial
  | unlock | startLocked | awaitStarted | stopLocked | awaitStopped | stopAll | stoppedOne =>
    simp at hcritical
  | built i =>
    refine .bind fun incarnation _ => ?_
    split
    · exact .andThen (.changeIncarnation i fun _ => ⟨rfl, rfl, id⟩) rfl (by simp)
    · exact .ite (.andThen (.changeIncarnation i fun _ => ⟨rfl, rfl, id⟩) rfl
        (common_windDown _ _ _)) (.andThen (.changeIncarnation i fun _ => ⟨rfl, rfl, id⟩) rfl
        (by simp))
  | report i =>
    refine .bind fun incarnation _ => .ite (.andThen .refl rfl (common_windDown _ _ _))
      (.ite (.andThen .refl rfl (common_windDown _ _ _)) (.andThen ?_ rfl (by simp)))
    exact .changeSupervisor fun _ => ⟨rfl, rfl, rfl, rfl, rfl⟩
  | pause i =>
    exact .bind fun incarnation _ => .ite (.andThen .refl rfl (by simp)) .none
  | ended i broken =>
    exact .done (.changeIncarnation i fun _ => ⟨rfl, rfl, by simp⟩) rfl
  | run =>
    refine .ite (.andThen .refl rfl (by simp)) ?_
    simp only
    split
    · exact .none
    · exact .of_builds ⟨⟨rfl, rfl⟩, rfl⟩ (by simp)
    · exact .breakDown (Builds.steady ⟨⟨rfl, rfl⟩, rfl⟩) rfl
    · rename_i timers _
      have hmade : Builds w { w with shared := (buildHeartbeats w.supervisor.registry
          w.supervisor.config.heartbeats w.shared).shared } := ⟨⟨rfl, rfl⟩, rfl⟩
      have hbuilt := hmade.trans (.addTimers timers)
      refine .andThen (hbuilt.steady.trans ?_) hbuilt.threads (by simp)
      exact .changeSupervisor fun _ => ⟨rfl, rfl, rfl, rfl, rfl⟩
  | startAll names started timers =>
    cases names with
    | cons name names => exact .andThen .refl rfl (by simp)
    | nil =>
      obtain ⟨haside, hthreads⟩ := spawnTimers (w := w) timers
      exact .spawning (timers.map fun h => [.timer (.prepare h false)])
        (.of_aside ⟨haside.supervisor, haside.incarnations⟩ (.of_append hthreads))
        (by simp) hthreads (by simp)
  | startedOne names started timers =>
    exact .andThen .refl rfl (by simp)
  | serve timers =>
    refine .ite (.andThen .refl rfl (.append (fun task htask => ?_) (by simp))) ?_
    · obtain ⟨h, -, htask⟩ := List.mem_flatMap.mp htask
      obtain rfl | rfl := by simpa using htask
      all_goals exact ⟨rfl, rfl⟩
    split
    · exact .none
    · exact .andThen (.applyReport _) rfl (by simp)
  | retire =>
    exact .andThen (.changeSupervisor fun _ => ⟨rfl, rfl, rfl, rfl, rfl⟩) rfl (by simp)

/-- A task is free that is no part of an operation and is not special. -/
theorem perform_frees {expired : Bool} {task : Task} (hcritical : task.isCritical = false)
    (hspecial : task.isSpecial = false) : w.Frees (w.perform me expired task) := by
  cases task with
  | control task => exact performControl_frees hcritical hspecial
  | timer task => exact performTimer_frees expired task
  | _ => exact perform_plain_frees rfl hspecial

/-- Building an incarnation leaves the tables steady. -/
theorem buildIncarnation_steady {i : Nat} {progress : Progress P}
    (h : w.buildIncarnation i = some progress) :
    Steady w progress.world ∧ progress.world.threads = w.threads ∧
      ∃ v task, progress = .goOn v [task, .control (.built i)] ∧ task.isPlain = true := by
  obtain ⟨incarnation, -, h⟩ := Option.bind_eq_some_iff.mp h
  have hbuilt := Builds.buildStream (w := w) incarnation.name w.supervisor.config
    w.supervisor.registry false
  simp only at h
  split at h
  · simp at h
  · obtain rfl := Option.some.inj h
    exact ⟨hbuilt.steady, hbuilt.threads, _, _, rfl, rfl⟩
  · obtain rfl := Option.some.inj h
    exact ⟨hbuilt.steady, hbuilt.threads, _, _, rfl, rfl⟩
  · obtain rfl := Option.some.inj h
    exact ⟨hbuilt.steady.trans (.changeIncarnation i fun _ => ⟨rfl, rfl, id⟩), hbuilt.threads,
      _, _, rfl, rfl⟩

/-- Going on with a thread leaves the tables steady. -/
theorem steady_resume (me : Nat) (progress : Progress P) :
    Steady progress.world (progress.resume me) := by
  cases progress with
  | goOn v todo => exact .of_aside ⟨rfl, rfl⟩ (.of_modify rfl fun _ h => h)
  | breakDown v text => exact .of_aside ⟨rfl, rfl⟩ (.of_modify rfl fun _ h => by
      simp [Thread.breakDown] at h)

/-! ## Everything else that happens -/

/-- A thread that has no part in an operation leaves the tables steady while somebody holds the
lock. -/
theorem step_steady {agenda : List Task} (hlocked : w.supervisor.locked = true)
    (hagenda : w.agendas[me]? = some agenda) (hfree : Free agenda)
    (hstep : w.step me = some v) : Steady w v := by
  obtain ⟨thread, task, rest, progress, hthread, htasks, hperform, rfl⟩ := step_perform hstep
  obtain rfl : task :: rest = agenda := by simpa [agendas, hthread, htasks] using hagenda
  refine .trans ?_ (steady_resume me progress)
  cases hspecial : task.isSpecial with
  | false => exact (perform_frees (hfree task (by simp)) hspecial progress hperform).1
  | true =>
    cases task with
    | answer answer =>
      obtain rfl := Option.some.inj hperform
      exact .of_aside ⟨rfl, rfl⟩ (.of_modify rfl fun _ h => h)
    | control task =>
      cases task with
      | operate operation limited =>
        simp only [perform, performControl, operate, hlocked, if_true] at hperform
        split at hperform
        · obtain rfl := Option.some.inj hperform
          exact .refl
        · simp at hperform
      | build i => exact (buildIncarnation_steady hperform).1
      | _ => simp [Task.isSpecial] at hspecial
    | _ => simp [Task.isSpecial] at hspecial

/-- Whatever happens but a step of a thread, the tables stay steady, and at most a thread is
added that is to do something. -/
theorem meet_steady {occurrence : Occurrence P} (hmeet : w.meet occurrence = some v)
    (hstep : ∀ me, occurrence ≠ .move (.step me)) :
    Steady w v ∧ v.incarnations = w.incarnations ∧
      ∃ spawned, (∀ agenda ∈ spawned, Common agenda) ∧
        v.threads = w.threads ++ w.newThreads spawned := by
  cases occurrence with
  | move move =>
    cases move with
    | step me => exact absurd rfl (hstep me)
    | pass nanos | outside change =>
      obtain rfl := Option.some.inj hmeet
      exact ⟨.of_aside ⟨rfl, rfl⟩ (.of_eq rfl), rfl, [], by simp, by simp [newThreads]; rfl⟩
  | request request =>
    obtain rfl := Option.some.inj hmeet
    cases request with
    | operate operation =>
      exact ⟨.of_aside ⟨rfl, rfl⟩ (.of_append rfl), rfl,
        [[.control (.operate operation true)]],
        by simp, rfl⟩
    | run =>
      exact ⟨.of_aside ⟨rfl, rfl⟩ (.of_append rfl), rfl, [[.control .run]],
        by simp, rfl⟩
    | shutDown =>
      exact ⟨.changeSupervisor (f := fun s => { s with stopping := true })
        fun _ => ⟨rfl, rfl, rfl, rfl, rfl⟩, rfl, [], by simp, by simp [newThreads]; rfl⟩

/-- What holds of a world and stays true whatever happens next holds of every world that it
can become. -/
theorem undergo_invariant {p : World P → Prop} {occurrences : List (Occurrence P)}
    (hmeet : ∀ {w v : World P} {occurrence}, p w → w.meet occurrence = some v → p v)
    (h : p w) (hundergo : w.undergo occurrences = some v) : p v := by
  induction occurrences generalizing w with
  | nil =>
    obtain rfl := Option.some.inj hundergo
    exact h
  | cons occurrence occurrences ih =>
    obtain ⟨u, hu, hundergo⟩ := Option.bind_eq_some_iff.mp hundergo
    exact ih (hmeet h hu) hundergo

end World
end EventPipeline
