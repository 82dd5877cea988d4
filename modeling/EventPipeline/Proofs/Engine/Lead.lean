import EventPipeline.Proofs.Engine.Advance
import EventPipeline.Proofs.Engine.Steps

/-!
# `EventPipeline.Proofs.Engine.Lead`: the main thread follows its plan

`Conducts.advances` goes through all tasks of a start or a stop. A task that succeeds moves
the stream to a position from which what is left of the plan leads on, and the stream stays
in order; a task that fails dooms the main thread.
-/

set_option autoImplicit false

namespace EventPipeline

/-- The stream `s` consists of all triggers and nodes of the layout. -/
def Layout.Records (L : Layout) (streams : List Stream) (s : Nat) (running : Bool) : Prop :=
  ∃ stream, streams[s]? = some stream ∧ stream.triggers = List.range L.triggers.length ∧
    stream.processors = List.range L.nodes.length ∧ stream.running = running

/-- The running flag of the stream changes. -/
theorem Layout.Records.setRunning {L : Layout} {streams : List Stream} {s : Nat}
    {running : Bool} (h : L.Records streams s running) (later : Bool) :
    L.Records (setRunning streams s later) s later := by
  obtain ⟨stream, hstream, htriggers, hprocessors, -⟩ := h
  refine ⟨{ stream with running := later }, ?_, htriggers, hprocessors, rfl⟩
  rw [EventPipeline.setRunning, List.getElem?_modify_eq, hstream]
  rfl

/-- No task of the main thread carries an event. -/
theorem Leads.isLight {L : Layout} {s : Nat} {task : Task} {position goal : Position}
    (h : Leads L s task position goal) : task.IsLight := by
  cases h with
  | keep h =>
    cases task with
    | event task =>
      cases task with
      | occupy => exact ⟨fun _ => rfl, fun _ _ => rfl, fun _ _ => rfl⟩
      | _ => simp [Task.keeps] at h
    | _ => exact ⟨fun _ => rfl, fun _ _ => rfl, fun _ _ => rfl⟩
  | _ => exact ⟨fun _ => rfl, fun _ _ => rfl, fun _ _ => rfl⟩

/-- No task of a plan carries an event. -/
theorem Plan.isLight {L : Layout} {s : Nat} {agenda : List Task} {position goal : Position}
    (h : Plan L s agenda position goal) : ∀ task ∈ agenda, task.IsLight := by
  induction h with
  | nil => simp
  | same _ _ ih => exact ih
  | cons h _ _ ih => simpa using ⟨h.isLight, ih⟩

/-- What becomes of a stream when the main thread does a task that leads to the given goal:
the start fails, or the stream is in order at a position from which the new tasks lead to
the goal. -/
inductive Conducted (L : Layout) (s : Nat) (task : Task) (goal : Position) (o : Outline)
    (streams : List Stream) (agendas : List (List Task)) (ended : Nat → Nat) :
    List Task → Prop
  | fails {doom : Task} (hdoom : doom.dooms = true) (hmay : task.mayFail = true) :
    Conducted L s task goal o streams agendas ended [doom]
  | goesOn {position : Position} {todo : List Task}
    (ho : Orderly L position o agendas ended)
    (hrecords : L.Records streams s position.isRunning) (hplan : Plan L s todo position goal)
    (hmay : ∀ later ∈ todo, later.mayFail = true → task.mayFail = true) :
    Conducted L s task goal o streams agendas ended todo

namespace World.Conducts

variable {P : Plugins} {w : World P} {L : Layout} {s : Nat} {task : Task}
  {position goal : Position} {ended : Nat → Nat} {o : Outline} {streams : List Stream}
  {spawned : List (List Task)} {todo : List Task}

/-- The main thread follows its plan while it starts or stops nodes, or it fails. -/
theorem advances_unit {task : UnitTask} (h : w.Conducts 0 (.unit task) o streams spawned todo)
    (hleads : Leads L s (.unit task) position goal)
    (ho : Orderly L position w.outline w.agendas ended)
    (hrecords : L.Records w.streams s position.isRunning)
    (hanswer : ∀ error, w.answerOf 0 ≠ .failed error) :
    Conducted L s (.unit task) goal o streams (w.agendas ++ spawned) ended todo := by
  have ho' : Orderly L position w.outline (w.agendas ++ []) ended := by simpa using ho
  cases h with
  | fail task h o error => exact .fails rfl h
  | undo task h error hfailed => exact absurd hfailed (hanswer error)
  | startNode n =>
    cases hleads with
    | keep hk => simp [Task.keeps] at hk
    | startNode _ hn =>
      exact .goesOn ho' hrecords (.single (.startUnits n 0 hn)) fun _ _ _ => rfl
  | startUnits n u hu =>
    cases hleads with
    | keep hk => simp [Task.keeps] at hk
    | startUnits _ _ hn =>
      rw [ho.layout] at hu
      refine .goesOn ho' hrecords ?_ fun _ _ _ => rfl
      exact .cons (.startUnit n u hu) (by simp [Task.resumes]) (.single (.startedUnit n u hn))
  | startedNode n u hu =>
    cases hleads with
    | keep hk => simp [Task.keeps] at hk
    | startUnits =>
      refine .goesOn ho' hrecords ?_ fun _ _ _ => rfl
      exact .same (.risen (by rwa [ho.layout] at hu)) (.single (.keep rfl))
  | startedUnit n u =>
    cases hleads with
    | keep hk => simp [Task.keeps] at hk
    | startedUnit _ _ hn =>
      exact .goesOn ho' hrecords (.single (.startUnits n (u + 1) hn)) fun _ _ _ => rfl
  | startInline n u unit hunit hqueued =>
    cases hleads with
    | keep hk => simp [Task.keeps] at hk
    | startUnit _ _ hu =>
      rw [← Outline.isQueued_eq hunit, ho.layout] at hqueued
      refine .goesOn ho' hrecords ?_ fun _ _ _ => rfl
      exact .cons (.keep rfl) (by simp [Task.mayFail])
        (.single (.prepareInline n u false hu hqueued))
  | startQueued n u unit hunit hqueued =>
    cases hleads with
    | keep hk => simp [Task.keeps] at hk
    | startUnit =>
      exact .goesOn (ho.launch hunit hqueued) hrecords (.single (.awaitWorker n u))
        fun _ _ _ => rfl
  | prepareInline n u asked =>
    cases hleads with
    | keep hk => simp [Task.keeps] at hk
    | prepareInline _ _ _ hu hinline =>
      exact .goesOn ho' hrecords (.single (.prepareInline n u true hu hinline)) fun _ _ _ => rfl
  | preparedInline n u asked =>
    cases hleads with
    | keep hk => simp [Task.keeps] at hk
    | prepareInline _ _ _ _ hinline =>
      exact .goesOn (ho'.raiseInline hinline) hrecords (.single (.keep rfl)) fun _ _ _ => rfl
  | awaitWorker n u unit hunit hready =>
    cases hleads with
    | keep hk => simp [Task.keeps] at hk
    | awaitWorker =>
      exact .goesOn (ho'.raiseQueued hunit hready) hrecords (.single (.keep rfl)) fun _ _ _ => rfl
  | stopNode n =>
    cases hleads with
    | keep hk => simp [Task.keeps] at hk
    | stopNode =>
      refine .goesOn ho' hrecords ?_ fun later hlater hmay => ?_
      · rw [ho.layout]
        refine .append (Plan.map_range (p := fun u => .falling n u false)
          (fun u _ => .stopUnit n u) fun _ => rfl) ?_ (by simp [Task.mayFail])
        exact .same (.fallen (Nat.le_refl _)) (.single (.keep rfl))
      · simp only [List.mem_append, List.mem_map, List.mem_singleton] at hlater
        obtain ⟨_, -, rfl⟩ | rfl := hlater <;> simp [Task.mayFail] at hmay
  | stopInline n u unit hunit hqueued =>
    cases hleads with
    | keep hk => simp [Task.keeps] at hk
    | stopUnit =>
      rw [← Outline.isQueued_eq hunit, ho.layout] at hqueued
      refine .goesOn (ho'.lowerInline hqueued) hrecords ?_ (by simp [Task.mayFail])
      exact .cons (.keep rfl) (by simp [Task.mayFail]) (.single (.finishInline n u false))
  | stopQueued n u unit hunit hqueued =>
    cases hleads with
    | keep hk => simp [Task.keeps] at hk
    | stopUnit =>
      rw [← Outline.isQueued_eq hunit, ho.layout] at hqueued
      refine .goesOn ho' hrecords ?_ (by simp [Task.mayFail])
      refine .cons (.drain n u 0 hqueued) (by simp [Task.mayFail]) ?_
      refine .cons (.dismiss n u) (by simp [Task.mayFail]) ?_
      refine .cons (.close n u) (by simp [Task.mayFail]) ?_
      exact .cons (.joinWorker n u) (by simp [Task.mayFail]) (.single (.keep rfl))
  | stopNothing n u unit hunit haccepting =>
    cases hleads with
    | keep hk => simp [Task.keeps] at hk
    | stopUnit =>
      obtain ⟨hup, -⟩ : Phase.up.Holds unit := by simpa using ho.units n u unit hunit
      simp [hup] at haccepting
  | stoppedNode =>
    cases hleads with
    | keep => exact .goesOn ho' hrecords (.single (.keep rfl)) (by simp [Task.mayFail])
  | finishInline n u asked =>
    cases hleads with
    | keep hk => simp [Task.keeps] at hk
    | finishInline =>
      exact .goesOn ho' hrecords (.single (.finishInline n u true)) (by simp [Task.mayFail])
  | finishedInline n u asked =>
    cases hleads with
    | keep hk => simp [Task.keeps] at hk
    | finishInline =>
      exact .goesOn ho' hrecords (.single (.keep rfl)) (by simp [Task.mayFail])
  | stoppedUnit =>
    cases hleads with
    | keep => exact .goesOn ho' hrecords .nil (by simp)
  | drain n u noted left =>
    cases hleads with
    | keep hk => simp [Task.keeps] at hk
    | drain _ _ _ hqueued =>
      exact .goesOn ho' hrecords (.single (.drain n u left hqueued)) (by simp [Task.mayFail])
  | drained n u noted unit hunit hdrained =>
    cases hleads with
    | keep hk => simp [Task.keeps] at hk
    | drain _ _ _ hqueued =>
      exact .goesOn (ho'.idle hqueued hunit hdrained) hrecords .nil (by simp)
  | dismiss n u =>
    cases hleads with
    | keep hk => simp [Task.keeps] at hk
    | dismiss => exact .goesOn (ho'.release fun _ => rfl) hrecords .nil (by simp)
  | close n u =>
    cases hleads with
    | keep hk => simp [Task.keeps] at hk
    | close => exact .goesOn (ho'.release fun _ => rfl) hrecords .nil (by simp)
  | closeNothing n u =>
    cases hleads with
    | keep hk => simp [Task.keeps] at hk
    | close => exact .goesOn ho' hrecords .nil (by simp)
  | joinWorker n u unit hunit halive =>
    cases hleads with
    | keep hk => simp [Task.keeps] at hk
    | joinWorker => exact .goesOn (ho'.lowerQueued hunit halive) hrecords .nil (by simp)

/-- The main thread follows its plan while it starts or stops triggers, or it fails. -/
theorem advances_source {task : SourceTask}
    (h : w.Conducts 0 (.source task) o streams spawned todo)
    (hleads : Leads L s (.source task) position goal)
    (ho : Orderly L position w.outline w.agendas ended)
    (hrecords : L.Records w.streams s position.isRunning)
    (hanswer : ∀ error, w.answerOf 0 ≠ .failed error) :
    Conducted L s (.source task) goal o streams (w.agendas ++ spawned) ended todo := by
  have ho' : Orderly L position w.outline (w.agendas ++ []) ended := by simpa using ho
  cases h with
  | fail task h o error => exact .fails rfl h
  | undo task h error hfailed => exact absurd hfailed (hanswer error)
  | startTrigger t =>
    cases hleads with
    | keep hk => simp [Task.keeps] at hk
    | startTrigger => exact .goesOn ho' hrecords (.single (.startSources t 0)) fun _ _ _ => rfl
  | startSources t v hv =>
    cases hleads with
    | keep hk => simp [Task.keeps] at hk
    | startSources =>
      rw [ho.layout] at hv
      refine .goesOn ho' hrecords ?_ fun _ _ _ => rfl
      exact .cons (.startSource t v hv) (by simp [Task.resumes]) (.single (.startedSource t v))
  | startedTrigger t v hv =>
    cases hleads with
    | keep hk => simp [Task.keeps] at hk
    | startSources =>
      refine .goesOn ho' hrecords ?_ fun _ _ _ => rfl
      exact .same (.fed (by rwa [ho.layout] at hv)) (.single (.keep rfl))
  | startedSource t v =>
    cases hleads with
    | keep hk => simp [Task.keeps] at hk
    | startedSource =>
      exact .goesOn ho' hrecords (.single (.startSources t (v + 1))) fun _ _ _ => rfl
  | startSource t v l =>
    cases hleads with
    | keep hk => simp [Task.keeps] at hk
    | startSource _ _ hv =>
      have hlength : w.agendas.length = w.threads.length := by simp [agendas]
      refine .goesOn (ho.launchSource hv l) hrecords ?_ fun _ _ _ => rfl
      rw [hlength]
      exact .single (.await t v l _)
  | await t v l i =>
    cases hleads with
    | keep hk => simp [Task.keeps] at hk
    | await => exact .goesOn ho'.raiseSource hrecords (.single (.keep rfl)) fun _ _ _ => rfl
  | awaitInVain t v l i =>
    exact .fails rfl rfl
  | giveUp t v l i error =>
    cases hleads with
    | keep hk => simp [Task.keeps] at hk
  | stopTrigger t =>
    cases hleads with
    | keep hk => simp [Task.keeps] at hk
    | stopTrigger =>
      refine .goesOn ho' hrecords ?_ fun later hlater hmay => ?_
      · rw [ho.layout]
        refine .append (Plan.map_range (p := fun v => .closing t v none)
          (fun v _ => .stopSource t v) fun _ => rfl) ?_ (by simp [Task.mayFail])
        exact .same (.drained (Nat.le_refl _)) (.single (.keep rfl))
      · simp only [List.mem_append, List.mem_map, List.mem_singleton] at hlater
        obtain ⟨_, -, rfl⟩ | rfl := hlater <;> simp [Task.mayFail] at hmay
  | stoppedTrigger | halt =>
    cases hleads with
    | keep => exact .goesOn ho' hrecords (.single (.keep rfl)) (by simp [Task.mayFail])
  | halted =>
    cases hleads with
    | keep => exact .goesOn ho' hrecords .nil (by simp)
  | stopSource t v name source hsource =>
    cases hleads with
    | keep hk => simp [Task.keeps] at hk
    | stopSource =>
      obtain ⟨i, hi, hlower⟩ := ho'.lowerSource hsource
      refine .goesOn hlower hrecords ?_ (by simp [hi, Task.mayFail])
      rw [hi]
      exact .cons (.keep rfl) (by simp [Task.mayFail]) (.single (.join name t v i))
  | stopNoSource t v source hsource hrunning =>
    cases hleads with
    | keep hk => simp [Task.keeps] at hk
    | stopSource =>
      have := (ho.sources t v source hsource (by simp)).1
      simp [hrunning] at this
  | join name i thread hthread hended =>
    cases hleads with
    | keep hk => simp [Task.keeps] at hk
    | join =>
      refine .goesOn (ho'.joinSource ?_) hrecords .nil (by simp)
      simp [agendas, hthread, hended]

/-- The main thread follows its plan while it starts or stops a stream, or it fails. -/
theorem advances_stream {task : StreamTask}
    (h : w.Conducts 0 (.stream task) o streams spawned todo)
    (hleads : Leads L s (.stream task) position goal)
    (ho : Orderly L position w.outline w.agendas ended)
    (hrecords : L.Records w.streams s position.isRunning)
    (hanswer : ∀ error, w.answerOf 0 ≠ .failed error) :
    Conducted L s (.stream task) goal o streams (w.agendas ++ spawned) ended todo := by
  have ho' : Orderly L position w.outline (w.agendas ++ []) ended := by simpa using ho
  obtain ⟨record, hrecord, htriggers, hprocessors, hrunning⟩ := id hrecords
  cases h with
  | fail task h o error => exact .fails rfl h
  | undo task h error hfailed => exact absurd hfailed (hanswer error)
  | start _ stream hstream =>
    cases hleads with
    | keep hk => simp [Task.keeps] at hk
    | start =>
      obtain rfl : record = stream := by simpa [hrecord] using hstream
      refine .goesOn ho' hrecords ?_ fun _ _ _ => rfl
      rw [hprocessors, List.length_range]
      exact .single (.startProcessors _ (Nat.le_refl _))
  | startedProcessors =>
    cases hleads with
    | keep hk => simp [Task.keeps] at hk
    | startProcessors =>
      exact .goesOn ho' hrecords (.same .opened (.single (.startTriggers 0))) fun _ _ _ => rfl
  | startProcessors _ p n stream hstream hn =>
    cases hleads with
    | keep hk => simp [Task.keeps] at hk
    | startProcessors _ hp =>
      obtain rfl : record = stream := by simpa [hrecord] using hstream
      obtain rfl : p = n := by
        rw [hprocessors, List.getElem?_range (by omega), Option.some.injEq] at hn
        exact hn
      refine .goesOn ho' hrecords ?_ fun _ _ _ => rfl
      exact .cons (.startNode p hp) (by simp [Task.resumes])
        (.single (.startedProcessor p (by omega)))
  | startedProcessor _ p =>
    cases hleads with
    | keep hk => simp [Task.keeps] at hk
    | startedProcessor _ hp =>
      exact .goesOn ho' hrecords (.single (.startProcessors p hp)) fun _ _ _ => rfl
  | startTriggers _ i t stream hstream ht =>
    cases hleads with
    | keep hk => simp [Task.keeps] at hk
    | startTriggers =>
      obtain rfl : record = stream := by simpa [hrecord] using hstream
      obtain rfl : i = t := by
        rw [htriggers] at ht
        exact (List.getElem?_eq_some_iff.mp ht).choose_spec ▸ by simp
      refine .goesOn ho' hrecords ?_ fun _ _ _ => rfl
      exact .cons (.startTrigger i) (by simp [Task.resumes]) (.single (.startedTrigger i))
  | started _ i stream hstream hi =>
    cases hleads with
    | keep hk => simp [Task.keeps] at hk
    | startTriggers =>
      obtain rfl : record = stream := by simpa [hrecord] using hstream
      rw [htriggers, List.length_range] at hi
      have hrunning : Orderly L .running w.outline (w.agendas ++ []) ended := by
        refine ho'.congr_position (fun _ _ _ => rfl) fun t v hv => ?_
        have ht : t < i := by
          by_contra hle
          have : L.triggers[t]? = none := List.getElem?_eq_none (by omega)
          simp [Layout.sources, this] at hv
        simp [Position.source, ht]
      exact .goesOn hrunning (hrecords.setRunning true) (.single (.keep rfl)) fun _ _ _ => rfl
  | startedTriggers _ i =>
    cases hleads with
    | keep hk => simp [Task.keeps] at hk
    | startedTrigger =>
      exact .goesOn ho' hrecords (.single (.startTriggers (i + 1))) fun _ _ _ => rfl
  | stop _ stream hstream =>
    cases hleads with
    | keep hk => simp [Task.keeps] at hk
    | stop =>
      obtain rfl : record = stream := by simpa [hrecord] using hstream
      have hclosing : Orderly L (.closing 0 0 none) w.outline (w.agendas ++ []) ended :=
        ho'.congr_position (fun _ _ _ => rfl) fun t v _ => by simp [Position.source]
      refine .goesOn hclosing (hrecords.setRunning false) ?_ ?_
      · rw [htriggers, hprocessors, List.append_assoc]
        refine .append (Plan.map_range (p := fun t => .closing t 0 none)
          (fun t _ => .stopTrigger t) fun _ => rfl) ?_ (by simp [Task.mayFail])
        refine .same (.closed (Nat.le_refl _)) ?_
        exact .append (Plan.map_range (p := fun n => .falling n 0 false)
          (fun n _ => .stopNode n) fun _ => rfl) (.single (.keep rfl)) (by simp [Task.mayFail])
      · intro later hlater hmay
        simp only [List.mem_append, List.mem_map, List.mem_singleton] at hlater
        obtain (⟨_, -, rfl⟩ | ⟨_, -, rfl⟩) | rfl := hlater <;> simp [Task.mayFail] at hmay
  | stopNoStream _ stream hstream hstopped =>
    cases hleads with
    | keep hk => simp [Task.keeps] at hk
    | stop =>
      obtain rfl : record = stream := by simpa [hrecord] using hstream
      simp [hstopped, Position.isRunning] at hrunning
  | stopped =>
    cases hleads with
    | keep => exact .goesOn ho' hrecords (.single (.keep rfl)) (by simp [Task.mayFail])

/-- The main thread follows its plan, or it fails. -/
theorem advances (h : w.Conducts 0 task o streams spawned todo)
    (hleads : Leads L s task position goal)
    (ho : Orderly L position w.outline w.agendas ended)
    (hrecords : L.Records w.streams s position.isRunning)
    (hanswer : ∀ error, w.answerOf 0 ≠ .failed error) :
    Conducted L s task goal o streams (w.agendas ++ spawned) ended todo := by
  cases task with
  | unit task => exact h.advances_unit hleads ho hrecords hanswer
  | source task => exact h.advances_source hleads ho hrecords hanswer
  | stream task => exact h.advances_stream hleads ho hrecords hanswer
  | event task | control task | timer task | answer task =>
    cases h with
    | fail task h => simp [Task.mayFail] at h
    | undo task h => simp [Task.resumes] at h

end World.Conducts

end EventPipeline
