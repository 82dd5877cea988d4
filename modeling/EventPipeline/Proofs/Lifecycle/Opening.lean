import EventPipeline.Proofs.Lifecycle.Undoing

/-!
# `EventPipeline.Proofs.Lifecycle.Opening`: the scene from which a start begins

A stream that was just built can be started: all of its gates are wired, and no unit of it was
ever started (`pristine_of_built`). So the scene when the main thread is given the start to do is
the one in which every plugin is untouched (`scene_of_built`).
-/

set_option autoImplicit false

namespace EventPipeline

variable {P : Plugins}

/-- The units of a node that is built were never started. -/
theorem Node.buildUnits_isFresh {name : String} {mode : ExecutionMode}
    {make : P.Shared → Made P.Shared NodeError P.Processor} {count number : Nat}
    {shared : P.Shared} {units : List (ExecutionUnit P)}
    (h : (buildUnits name mode make count number shared).reply = .returned units) :
    ∀ unit ∈ units, unit.state.IsFresh := by
  induction count generalizing number shared units with
  | zero =>
    obtain rfl : [] = units := by simpa [buildUnits] using h
    simp
  | succ count ih =>
    obtain ⟨processor, -, heq⟩ := Made.andThen_returned h
    rw [buildUnits, heq] at h
    obtain ⟨rest, hrest, heq⟩ := Made.andThen_returned h
    rw [heq] at h
    obtain rfl := Reply.returned.inj h
    intro unit hunit
    obtain rfl | hunit := List.mem_cons.mp hunit
    · cases mode with
      | thread => exact .inr rfl
      | single | process => exact .inl rfl
    · exact ih hrest unit hunit

/-- The units of a node that is built were never started. -/
theorem Node.build_isFresh {name : String} {settings : NodeSettings}
    {make : P.Shared → Made P.Shared NodeError P.Processor} {shared : P.Shared} {node : Node P}
    (h : (build name settings make shared).1.reply = .returned node) :
    ∀ unit ∈ node.units, unit.state.IsFresh := by
  unfold build at h
  split at h
  case h_1 => simp at h
  case h_2 count hcount =>
    split at h
    · simp at h
    · obtain ⟨units, hunits, heq⟩ := Made.andThen_returned h
      rw [heq] at h
      obtain rfl := Reply.returned.inj h
      exact buildUnits_isFresh hunits

/-- The sources of a trigger that is built do not run. -/
theorem Trigger.buildUnits_idle {name : String}
    {make : P.Shared → Made P.Shared NodeError P.Source} {count number : Nat}
    {shared : P.Shared} {units : List (SourceUnit P)}
    (h : (buildUnits name make count number shared).reply = .returned units) :
    ∀ unit ∈ units, unit.running = false := by
  induction count generalizing number shared units with
  | zero =>
    obtain rfl : [] = units := by simpa [buildUnits] using h
    simp
  | succ count ih =>
    obtain ⟨source, -, heq⟩ := Made.andThen_returned h
    rw [buildUnits, heq] at h
    obtain ⟨rest, hrest, heq⟩ := Made.andThen_returned h
    rw [heq] at h
    obtain rfl := Reply.returned.inj h
    intro unit hunit
    obtain rfl | hunit := List.mem_cons.mp hunit
    · rfl
    · exact ih hrest unit hunit

/-- The sources of a trigger that is built do not run. -/
theorem Trigger.build_idle {name : String} {poolSize : Nat} {initWithin : Duration}
    {make : P.Shared → Made P.Shared NodeError P.Source} {shared : P.Shared}
    {trigger : Trigger P}
    (h : (build name poolSize initWithin make shared).reply = .returned trigger) :
    ∀ unit ∈ trigger.units, unit.running = false := by
  obtain ⟨units, hunits, heq⟩ := Made.andThen_returned h
  rw [build, heq] at h
  obtain rfl := Reply.returned.inj h
  exact buildUnits_idle hunits

namespace World

variable {w w' built : World P} {registry : Registry P} {shared : P.Shared} {name : String}
  {config : PipelineConfig} {output : Bool} {s : Nat} {stream : Stream}

/-- No unit in the world was ever started. -/
structure Pristine (w : World P) : Prop where
  units : ∀ node ∈ w.nodes, ∀ unit ∈ node.units, unit.state.IsFresh
  sources : ∀ trigger ∈ w.triggers, ∀ unit ∈ trigger.units, unit.running = false

/-- Building a processor starts none. -/
theorem Pristine.buildProcessor (hw : w.Pristine) (template : NodeTemplate) (within : Duration) :
    (w.buildProcessor registry name template within).shared.Pristine := by
  unfold World.buildProcessor
  split
  case h_1 => exact hw
  case h_2 factory hfactory =>
    simp only
    split
    case h_1 node hnode =>
      refine ⟨fun node' hnode' => ?_, hw.sources⟩
      rcases List.mem_append.mp hnode' with hnode' | hnode'
      · exact hw.units node' hnode'
      · obtain rfl := List.mem_singleton.mp hnode'
        exact Node.build_isFresh hnode
    all_goals exact ⟨hw.units, hw.sources⟩

/-- Building a trigger starts no source. -/
theorem Pristine.buildTrigger (hw : w.Pristine) (template : TriggerTemplate) (within : Duration) :
    (w.buildTrigger registry name template within).shared.Pristine := by
  unfold World.buildTrigger
  split
  case h_1 => exact hw
  case h_2 factory hfactory =>
    simp only
    split
    case h_1 trigger htrigger =>
      refine ⟨hw.units, fun trigger' htrigger' => ?_⟩
      rcases List.mem_append.mp htrigger' with htrigger' | htrigger'
      · exact hw.sources trigger' htrigger'
      · obtain rfl := List.mem_singleton.mp htrigger'
        exact Trigger.build_idle htrigger
    all_goals exact ⟨hw.units, hw.sources⟩

/-- A change of a gate starts no unit. -/
theorem Pristine.changeGate (hw : w.Pristine) (g : GateId) (f : Gate → Gate) :
    (w.changeGate g f).Pristine := by
  cases g with
  | node n =>
    refine ⟨fun node hnode => ?_, hw.sources⟩
    obtain hnode | ⟨old, hold, rfl⟩ := mem_modify hnode
    · exact hw.units node hnode
    · exact hw.units old (List.mem_of_getElem? hold)
  | trigger t =>
    refine ⟨hw.units, fun trigger htrigger => ?_⟩
    obtain htrigger | ⟨old, hold, rfl⟩ := mem_modify htrigger
    · exact hw.sources trigger htrigger
    · exact hw.sources old (List.mem_of_getElem? hold)

/-- No unit of a stream that was just built was ever started. -/
theorem pristine_of_built (hbuilt : (idle shared).buildStream name config registry output =
    { reply := .returned s, shared := built }) : built.Pristine := by
  have hkeeps : ((idle shared).buildStream name config registry output).shared.Pristine := by
    refine BuildKeeps.buildStream
      ⟨fun v name template within hv => hv.buildProcessor template within,
      fun v name template within hv => hv.buildTrigger template within,
      fun v g f hv => hv.changeGate g f, fun v stream hv => ⟨hv.units, hv.sources⟩⟩
      name config output
      ⟨?_, ?_⟩
    · simp [idle]
    · simp [idle]
  rwa [hbuilt] at hkeeps

/-- A stream that was just built can be started. -/
theorem startable_of_built (hbuilt : (idle shared).buildStream name config registry output =
    { reply := .returned s, shared := built }) : ∃ stream, built.Startable s stream := by
  obtain ⟨-, ⟨stream, hstream, htriggers, hprocessors, hidle⟩, hchain, -⟩ := buildStream_eq hbuilt
  refine ⟨stream, hstream, hidle, fun g hg => ?_, ?_⟩
  · have htarget := hchain.target?_ne g
    rw [Stream.parts, htriggers, hprocessors] at hg
    rcases List.mem_append.mp hg with hg | hg
    · obtain ⟨n, hn, rfl⟩ := List.mem_map.mp hg
      have hlt : n < built.nodes.length := by simpa [Outline.layout, outline] using hn
      rw [part?_node, List.getElem?_eq_getElem hlt]
      cases hgate : built.nodes[n].gate.target with
      | none => simp [outline_target?, gate?, List.getElem?_eq_getElem hlt, hgate] at htarget
      | some target => exact ⟨target, built.nodes[n].units.length, by rw [Option.map_some, hgate]⟩
    · obtain ⟨t, ht, rfl⟩ := List.mem_map.mp hg
      have hlt : t < built.triggers.length := by simpa [Outline.layout, outline] using ht
      rw [part?_trigger, List.getElem?_eq_getElem hlt]
      cases hgate : built.triggers[t].gate.target with
      | none => simp [outline_target?, gate?, List.getElem?_eq_getElem hlt, hgate] at htarget
      | some target =>
        exact ⟨target, built.triggers[t].units.length, by rw [Option.map_some, hgate]⟩
  · rw [Stream.parts, htriggers, hprocessors]
    refine List.nodup_append.mpr ⟨?_, ?_, fun a ha b hb hab => ?_⟩
    · exact List.Nodup.map (fun _ _ h => GateId.node.inj h)
        (List.nodup_reverse.mpr List.nodup_range)
    · exact List.Nodup.map (fun _ _ h => GateId.trigger.inj h) List.nodup_range
    · obtain ⟨n, -, rfl⟩ := List.mem_map.mp ha
      obtain ⟨t, -, rfl⟩ := List.mem_map.mp hb
      cases hab

/-! ## Tasks that are given to the main thread -/

/-- The main thread has further tasks to do, and the others have not. -/
theorem assign_agenda {j : Nat} {agenda tasks : List Task} (h : w.agendas[j]? = some agenda) :
    (w.assign 0 tasks).agendas[j]? = some (if j = 0 then agenda ++ tasks else agenda) := by
  rw [assign_agendas, List.getElem?_modify, h]
  by_cases hj : j = 0
  · simp [hj]
  · simp [hj, Ne.symm hj]

/-- A fact holds for all tasks if it did before, and for those that the main thread is given. -/
theorem Tasks.assign {p : Nat → Task → Prop} {tasks : List Task} (h : w.Tasks p)
    (htasks : ∀ task ∈ tasks, p 0 task) : (w.assign 0 tasks).Tasks p := by
  intro j agenda hagenda task htask
  obtain ⟨old, hold⟩ : ∃ old, w.agendas[j]? = some old := by
    have hlt := (List.getElem?_eq_some_iff.mp hagenda).1
    rw [assign_agendas, List.length_modify] at hlt
    exact ⟨_, List.getElem?_eq_getElem hlt⟩
  rw [assign_agenda hold] at hagenda
  obtain rfl := Option.some.inj hagenda
  by_cases hj : j = 0
  · subst hj
    rcases List.mem_append.mp htask with htask | htask
    · exact h 0 old hold task htask
    · exact htasks task htask
  · rw [if_neg hj] at htask
    exact h j old hold task htask

variable {record : List Deed} {standing : Standing} {i : Instance} {σ : Instance → Standing}
  {told : Answer} {tasks : List Task}

/-- A plugin keeps its standing when the main thread is given tasks that are about no plugin. -/
theorem Stands.assign (h : w.Stands record i standing)
    (hfree : ∀ task ∈ tasks, task.subject? = none) :
    (w.assign 0 tasks).Stands record i standing := by
  have hheld {k : Nat} (hheld : w.HeldBy k i) : (w.assign 0 tasks).HeldBy k i :=
    Tasks.assign hheld fun task htask hcharge => by
      rw [Task.charge?_of_free (hfree task htask)] at hcharge
      cases hcharge
  have houtside (huntouched : w.Untouched i) : (w.assign 0 tasks).Untouched i := by
    refine ⟨huntouched.outside.assign fun task htask hsubject => ?_, huntouched.processor,
      huntouched.source⟩
    rw [hfree task htask] at hsubject
    cases hsubject
  have hagenda {k : Nat} {agenda : List Task} (hk : k ≠ 0) (h : w.agendas[k]? = some agenda) :
      (w.assign 0 tasks).agendas[k]? = some agenda := by
    rw [assign_agenda h, if_neg hk]
  cases i with
  | processor n u =>
    have hspares (hspared : w.Spared record n u) : (w.assign 0 tasks).Spared record n u := by
      refine ⟨⟨hspared.unfed.empty, hspared.unfed.tasks.assign fun task htask => ?_⟩,
        hspared.record⟩
      simp [Task.feeds?_of_free (hfree task htask)]
    cases h with
    | untouched hstanding h hrecord => exact .untouched hstanding (houtside h) hrecord
    | inline accepting hsigns hkept hstage hspared hcalled =>
      exact .inline accepting hsigns (hheld hkept) hstage (fun h => hspares (hspared h)) hcalled
    | queued k signs agenda hk h hstage hspared hcalled =>
      exact .queued k signs agenda hk
        ⟨h.signs_eq, h.queued, hagenda hk h.agenda_eq, h.stage, hheld h.held⟩ hstage
        (fun h => ⟨hspares (hspared h).1, (hspared h).2⟩) hcalled
  | source t u =>
    cases h with
    | untouched hstanding h hrecord => exact .untouched hstanding (houtside h) hrecord
    | tended l k launch agenda source hk h hsource hstage hcalled =>
      refine .tended l k launch agenda source hk ⟨h.remains, hagenda hk h.agenda_eq, h.launch_eq,
        h.awaited, h.stage, hheld h.held, ?_⟩ hsource hstage hcalled
      refine h.named.assign fun task htask hl => ?_
      rw [Task.launch?_of_free (hfree task htask)] at hl
      cases hl

/-- The main thread of a scene is given tasks that are about no plugin. -/
theorem Scene.assign (h : w.Scene built σ told [] record)
    (hfree : ∀ task ∈ tasks, task.isPlain = true ∧ task.subject? = none) :
    (w.assign 0 tasks).Scene built σ .ok tasks record := by
  obtain ⟨thread, hthread, -⟩ := exists_thread h.agenda_eq
  refine ⟨⟨fun agenda hagenda task htask => ?_, fun j agenda hj hagenda => ?_, ?_⟩, h.frame_eq,
    h.streams_eq, fun i => (h.stands i).assign fun task htask => (hfree task htask).2, ?_, ?_⟩
  · have hplain : w.Tasks fun _ task => task.isPlain = true := fun j old hold task htask =>
      h.crew.plain old (List.mem_of_getElem? hold) task htask
    obtain ⟨j, hj⟩ := List.mem_iff_getElem?.mp hagenda
    exact (hplain.assign fun task htask => (hfree task htask).1) j agenda hj task htask
  · rw [assign_agendas, List.getElem?_modify_ne _ _ (Ne.symm hj)] at hagenda
    exact h.crew.labour j agenda hj hagenda
  · refine h.crew.known.assign fun task htask l hl => ?_
    rw [Task.launch?_of_free (hfree task htask).2] at hl
    cases hl
  · rw [assign_agenda h.agenda_eq, if_pos rfl, List.nil_append]
  · simp [answerOf, World.assign, changeThread, List.getElem?_modify_eq, hthread]

/-- In a world in which a stream was just built no plugin was touched. -/
theorem scene_of_built (hbuilt : (idle shared).buildStream name config registry output =
    { reply := .returned s, shared := built }) : built.Scene built (raised []) .ok [] [] := by
  have hpristine := pristine_of_built hbuilt
  have hthreads := (buildStream_eq hbuilt).1.threads
  have hagendas : built.agendas = [[]] := by simp [agendas, hthreads]
  have hnothing {p : Nat → Task → Prop} : built.Tasks p := by
    intro j agenda hagenda task htask
    rw [hagendas] at hagenda
    obtain rfl := List.mem_singleton.mp (List.mem_of_getElem? hagenda)
    cases htask
  have huntouched (i : Instance) : built.Untouched i := by
    refine ⟨hnothing, fun n u _ unit hunit => ?_, fun t u _ unit hunit => ?_⟩
    · obtain ⟨node, hnode, hunit⟩ := Option.bind_eq_some_iff.mp hunit
      exact hpristine.units node (List.mem_of_getElem? hnode) unit (List.mem_of_getElem? hunit)
    · obtain ⟨trigger, htrigger, hunit⟩ := Option.bind_eq_some_iff.mp hunit
      exact hpristine.sources trigger (List.mem_of_getElem? htrigger) unit
        (List.mem_of_getElem? hunit)
  refine ⟨⟨fun agenda hagenda task htask => ?_, fun j agenda hj hagenda => ?_, hnothing⟩, rfl, rfl,
    fun i => ?_, by simp [hagendas], by simp [answerOf, hthreads]⟩
  · rw [hagendas] at hagenda
    obtain rfl := List.mem_singleton.mp hagenda
    cases htask
  · rw [hagendas] at hagenda
    obtain rfl := List.mem_singleton.mp (List.mem_of_getElem? hagenda)
    exact .ended
  · cases i with
    | processor n u => exact .untouched rfl (huntouched _) (by simp)
    | source t u => exact .untouched rfl (huntouched _) (by simp)

end World
end EventPipeline
