import EventPipeline.Proofs.Engine.Route
import EventPipeline.Proofs.Engine.Sequential
import Mathlib.Data.List.Induction

/-!
# `EventPipeline.Proofs.Engine.Journeys`: a stream leaves the marks of its events

A stream with one trigger whose processors decide by the payload is, for all that it counts
and reports, a function of the payloads that its trigger emits. `World.Accounts` is the
invariant that carries the proof: the books of a world and the agendas of its threads together
hold the journeys of the events that have been made. All steps that can be taken while a
stream starts, runs and stops keep it (`Accounts.move`), and so does a whole course
(`Accounts.follow`). When the stop of the stream returns, no agenda and no queue holds an event
any more, so what the world shows are the journeys of its events (`marks_of_stopped`).

A journey does not ask for modes and pools. That two ways to set up the same stream come to
the same marks (`same_as_single`) is a consequence.
-/

set_option autoImplicit false

namespace EventPipeline

variable {P : Plugins} {route : List Stage}

/-- The node whose counter a mark belongs to. -/
def Mark.node? : Mark → Option Nat
  | received n | emitted n | dropped n | failed n => some n
  | told .. => none

/-! ## Tasks that leave no marks -/

/-- What the main thread does leaves no marks of events. -/
theorem Leads.ahead_eq {L : Layout} {s : Nat} {task : Task} {position goal : Position}
    (h : Leads L s task position goal) (route : List Stage) :
    task.ahead route = [] ∧ task.makes? = none := by
  cases h with
  | keep h =>
    cases task with
    | event task =>
      cases task with
      | occupy => exact ⟨rfl, rfl⟩
      | _ => simp [Task.keeps] at h
    | _ => exact ⟨rfl, rfl⟩
  | _ => exact ⟨rfl, rfl⟩

/-- What is in the plan of the main thread leaves no marks of events. -/
theorem Plan.ahead_eq {L : Layout} {s : Nat} {agenda : List Task} {position goal : Position}
    (h : Plan L s agenda position goal) (route : List Stage) : ahead route agenda = [] := by
  induction h with
  | nil => rfl
  | same _ _ ih => exact ih
  | cons h _ _ ih => rw [ahead_cons, (h.ahead_eq route).1, ih, List.append_nil]

/-- The task of a loop leaves no marks of events. -/
theorem Task.ahead_of_owner {task : Task} {owner : Owner} (h : task.owner? = some owner)
    (route : List Stage) : task.ahead route = [] ∧ task.makes? = none := by
  cases task <;> first | exact ⟨rfl, rfl⟩ | simp [owner?] at h

/-- A turn of a loop leads to no marks of events. -/
theorem Outline.Turns.ahead_eq {o o' : Outline} {task : Task} {todo : List Task}
    (h : o.Turns task o' todo) (route : List Stage) : ahead route todo = [] := by
  cases h with
  | goOn t v task next howner hnext => simp [(Task.ahead_of_owner hnext route).1]
  | emit t v payload continuation task next howner hnext =>
    rw [ahead_cons, ahead_cons, (Task.ahead_of_owner hnext route).1]
    rfl
  | _ => rfl

namespace World

variable {w w' v : World P} {task : Task} {rest todo : List Task} {me i : Nat}
  {entries : List (Json × Option Continuation)} {spawned : List (List Task)}
  {progress : Progress P} {L : Layout} {s : Nat} {goal position : Position}
  {ended : Nat → Nat} {thread worker : Thread} {output : Bool}

/-- New threads have no events. -/
theorem Conducts.ahead_spawned {o : Outline} {streams : List Stream}
    (h : w.Conducts me task o streams spawned todo) : ahead route spawned.flatten = [] := by
  cases h <;> rfl

/-! ## The account of a world -/

/-- The books of the world and the agendas of its threads together hold the journeys of the
events that were made of the entries. -/
structure Accounts (w : World P) (route : List Stage)
    (entries : List (Json × Option Continuation)) : Prop where
  staffed : w.Staffed route
  count : ∀ mark, (w.books route).count mark + (ahead route w.agendas.flatten).count mark =
    (journeys route 0 entries).count mark
  sequence : w.sequence = entries.length

/-- The marks on agendas one of which changes. -/
theorem count_ahead_modify {agendas : List (List Task)} {agenda : List Task}
    (h : agendas[me]? = some agenda) (f : List Task → List Task) (route : List Stage)
    (mark : Mark) :
    (ahead route (agendas.modify me f).flatten).count mark + (ahead route agenda).count mark =
      (ahead route agendas.flatten).count mark + (ahead route (f agenda)).count mark := by
  obtain ⟨before, after, rfl, -, hmodify⟩ := exists_append_of_getElem? h
  rw [hmodify]
  simp only [List.flatten_append, List.flatten_cons, ahead_append, List.count_append]
  omega

namespace Accounts

/-- The account does not depend on what a thread has been told. -/
theorem of_eq (h : w.Accounts route entries) (hv : Books route w v [] [])
    (hagendas : ∀ mark, (ahead route v.agendas.flatten).count mark =
      (ahead route w.agendas.flatten).count mark) : v.Accounts route entries := by
  refine ⟨hv.staffed h.staffed, fun mark => ?_, hv.sequence.trans h.sequence⟩
  have hbooks := hv.count mark
  have hcount := h.count mark
  rw [hagendas]
  simp only [List.count_nil] at hbooks
  omega

/-- A step that goes on moves marks between the books and the agendas, and adds the journey of
the event that it makes. -/
theorem goOn (h : w.Accounts route entries) (hyields : Yields route w task v todo)
    (hme : w.agendas[me]? = some (task :: rest)) (hagendas : v.agendas = w.agendas ++ spawned)
    (hspawned : ahead route spawned.flatten = []) :
    ((Progress.goOn v todo).resume me).Accounts route (entries ++ task.makes?.toList) := by
  have hme' : (w.agendas ++ spawned)[me]? = some (task :: rest) := by
    rw [List.getElem?_append_left (List.getElem?_eq_some_iff.mp hme).1, hme]
  refine ⟨⟨hyields.staffed.length, hyields.staffed.runs⟩, fun mark => ?_, ?_⟩
  · have hstep := count_ahead_modify hme' (todo ++ ·.tail) route mark
    have hbooks := hyields.count mark
    have hcount := h.count mark
    rw [show ((Progress.goOn v todo).resume me).books route = v.books route from rfl,
      agendas_resume, hagendas, journeys_append, Nat.zero_add, ← h.sequence]
    simp only [List.flatten_append, ahead_append, hspawned, List.tail_cons, ahead_cons,
      List.count_append, List.count_nil] at hstep ⊢
    omega
  · rw [List.length_append, ← h.sequence, ← hyields.sequence]
    rfl

/-- The last task of a thread that breaks down leaves no marks. -/
theorem breakDown {text : String} (h : w.Accounts route entries) (hsilent : Silent w v)
    (hme : w.agendas[me]? = some [task]) (htask : task.ahead route = [])
    (hagendas : v.agendas = w.agendas) :
    ((Progress.breakDown v text).resume me).Accounts route entries := by
  refine h.of_eq (.silent (hsilent.trans (silent_resume (.breakDown v text) me))) fun mark => ?_
  have hstep := count_ahead_modify hme (fun _ => []) route mark
  rw [show ((Progress.breakDown v text).resume me).agendas = v.agendas.modify me fun _ => []
    from agendas_breakDown rfl, hagendas]
  simpa [htask] using hstep

end Accounts

/-! ## Steps of workers -/

/-- A turn of a loop leads to no marks of events but those in a queue. -/
theorem loop_yields {expired : Bool} {owner : Owner} (howner : task.owner? = some owner)
    (hw : w.Staffed route) (h : w.perform me expired task = some (.goOn v todo)) :
    Yields route w task v todo := by
  cases task with
  | unit task =>
    cases task with
    | prepareWorker n u asked => exact prepareWorker_yields hw h
    | receive n u => exact receive_yields hw h
    | finishWorker n u asked => exact finishWorker_yields hw h
    | checkDismissed n u =>
      have hturns : w.TurnsLoop (.unit (.checkDismissed n u)) (.goOn v todo) :=
        checkDismissed_turns h
      cases hturns with
      | goOn turns => exact (perform_silent rfl h).yields hw rfl (turns.ahead_eq route)
    | _ => simp [Task.owner?] at howner
  | source task =>
    refine (perform_silent rfl h).yields hw rfl ?_
    obtain ⟨handles, -, -⟩ | hturns := loop_turns howner h
    · exact absurd (not_silent_of_handles handles) (by simp [Task.isSilent])
    · cases hturns with
      | goOn turns => exact turns.ahead_eq route
  | _ => simp [Task.owner?] at howner

/-- A step of a worker keeps the account. -/
theorem Accounts.step_worker (hchain : L.IsChain (if output then .output true else .tail))
    (htriggers : L.triggers.length = 1) (hc : w.OnCourse L s goal ended thread position)
    (hworker : w.threads[i + 1]? = some worker) (hagenda : worker.agenda = task :: rest)
    (hperform : w.perform (i + 1) (w.expired worker) task = some progress)
    (h : w.Accounts route entries) :
    (progress.resume (i + 1)).Accounts route (entries ++ task.makes?.toList) := by
  have hme : w.agendas[i + 1]? = some (task :: rest) := by simp [agendas, hworker, hagenda]
  obtain ⟨loop, hshaped, -⟩ := hc.order.threads i _ hme
  obtain ⟨-, rfl, owner, howner⟩ | ⟨last, owner, -, -, hfollows, -, -⟩ := hshaped.cons_cases
  · have hagendas : progress.world.agendas = w.agendas := by
      obtain ⟨-, threads, -⟩ | hturns := loop_turns howner hperform
      · exact agendas_congr threads
      · cases hturns with
        | goOn _ threads | breakDown _ _ threads => exact agendas_congr threads
    cases progress with
    | goOn v todo =>
      exact h.goOn (loop_yields howner h.staffed hperform) hme
        (hagendas.trans (List.append_nil _).symm) rfl
    | breakDown v text =>
      obtain ⟨htask, hmakes⟩ := Task.ahead_of_owner howner route
      rw [hmakes, Option.toList_none, List.append_nil]
      refine h.breakDown ?_ hme htask hagendas
      obtain hhandles | hturns := loop_turns howner hperform
      · cases hhandles
      · cases hturns with
        | breakDown howner' =>
          cases task with
          | source task => exact perform_silent rfl hperform
          | unit task => cases task <;> simp [Task.owner?] at howner'
          | _ => simp [Task.owner?] at howner'
  · cases task with
    | event task =>
      obtain ⟨rank, hrank, -⟩ := hfollows
      have hhandles := performEvent_handles hperform
      cases hhandles with
      | @goOn v todo handles threads =>
        refine h.goOn (performEvent_yields h.staffed (hc.order.layout ▸ hchain) ?_ hrank
          (hc.order.not_rejected hme handles) hperform) hme
          ((agendas_congr threads).trans (List.append_nil _).symm) rfl
        simpa [← hc.order.layout, Outline.layout, outline] using htriggers
    | answer answer =>
      obtain rfl : _ = progress := by simpa [perform, done] using hperform
      exact h.goOn ((Silent.refl.changeThread ..).yields h.staffed rfl rfl) hme
        ((agendas_answer ..).trans (List.append_nil _).symm) rfl
    | _ => exact hfollows.elim

/-! ## Steps of the main thread -/

/-- A step of the main thread keeps the account, unless it dooms the main thread. -/
theorem Accounts.step_main {goal' position' : Position} {ended' : Nat → Nat} {main : Thread}
    (hplain : w.Plain) (hc : w.OnCourse L s goal ended thread position)
    (hagenda : thread.agenda = task :: rest)
    (hperform : w.perform 0 (w.expired thread) task = some progress)
    (hgood : ¬ (progress.resume 0).IsDoomed)
    (hc' : (progress.resume 0).OnCourse L s goal' ended' main position')
    (h : w.Accounts route entries) :
    (progress.resume 0).Accounts route (entries ++ task.makes?.toList) := by
  have hme : w.agendas[0]? = some (task :: rest) := by simp [agendas, hc.main, hagenda]
  obtain ⟨before, after, -, hleads, -⟩ := (hagenda ▸ hc.plan).cons_inv
  obtain ⟨htask, hmakes⟩ := hleads.ahead_eq route
  -- New threads and what the main thread does next leave no marks.
  obtain ⟨v, todo, spawned, rfl, hagendas, hspawned⟩ : ∃ v todo spawned,
      progress = .goOn v todo ∧ v.agendas = w.agendas ++ spawned ∧
        ahead route spawned.flatten = [] := by
    obtain hhandles | hturns | hconducts | ⟨answer, rfl, rfl⟩ := perform_cases
      (hplain _ (List.mem_of_getElem? hme) task (by simp)) hperform
    · obtain @⟨v, todo, -, threads, -⟩ := hhandles
      exact ⟨v, todo, [], rfl, (agendas_congr threads).trans (List.append_nil _).symm, rfl⟩
    · have hnone := hleads.owner?_eq
      cases hturns with
      | goOn turns =>
        obtain ⟨owner, howner⟩ := turns.exists_owner
        simp [hnone] at howner
      | breakDown howner => simp [hnone] at howner
    · cases hconducts with
      | breakDown halts threads =>
        exact absurd (isDoomed_of_breakDown (agendas_congr threads ▸ hme)) hgood
      | @goOn v todo spawned conducts threads =>
        refine ⟨v, todo, spawned, rfl, ?_, conducts.ahead_spawned⟩
        simp [agendas, threads, Function.comp_def]
    · exact ⟨_, [], [], rfl, (agendas_answer ..).trans (List.append_nil _).symm, rfl⟩
  have htodo : ahead route todo = [] := by
    have hmain : main.agenda = todo ++ rest := by
      have hlater : ((Progress.goOn v todo).resume 0).agendas[0]? = some main.agenda := by
        simp [agendas, hc'.main]
      rw [agendas_resume, List.getElem?_modify_eq, hagendas,
        List.getElem?_append_left (List.getElem?_eq_some_iff.mp hme).1, hme] at hlater
      exact (Option.some.inj hlater).symm
    have hplan := hc'.plan.ahead_eq route
    rw [hmain, ahead_append] at hplan
    exact (List.append_eq_nil_iff.mp hplan).1
  refine h.goOn ?_ hme hagendas hspawned
  obtain hsilent | ⟨n, u, rfl⟩ | ⟨n, u, asked, rfl⟩ | ⟨n, u, asked, rfl⟩ :=
    isSilent_of_leads hleads
  · exact (perform_silent hsilent hperform).yields h.staffed hmakes (htodo.trans htask.symm)
  · exact occupy_yields h.staffed hperform
  · exact prepareInline_yields h.staffed hperform
  · exact finishInline_yields h.staffed hperform

/-! ## Courses -/

/-- What a step makes an event of is what its task makes an event of. -/
theorem makes?_step (hthread : w.threads[me]? = some thread)
    (hagenda : thread.agenda = task :: rest) : w.makes? (.step me) = task.makes? := by
  simp only [makes?, hthread, hagenda, Option.bind_eq_bind, Option.bind_some]
  cases task with
  | event task => cases task <;> rfl
  | _ => rfl

/-- Every move keeps the account, unless the main thread is doomed after it. -/
theorem Accounts.move {m : Move P} (hchain : L.IsChain (if output then .output true else .tail))
    (htriggers : L.triggers.length = 1) (hplain : w.Plain)
    (hc : w.OnCourse L s goal ended thread position) (h : w.move m = some w')
    (hgood : ¬ w'.IsDoomed) (ha : w.Accounts route entries) :
    w'.Accounts route (entries ++ (w.makes? m).toList) := by
  cases m with
  | pass nanos | outside change =>
    obtain rfl := Option.some.inj h
    rw [show w.makes? _ = none from rfl, Option.toList_none, List.append_nil]
    exact ha.of_eq (.of_eq rfl rfl rfl) fun _ => rfl
  | step me =>
    obtain ⟨worker, task, rest, progress, hworker, hagenda, hperform, rfl⟩ := step_perform h
    rw [makes?_step hworker hagenda]
    cases me with
    | zero =>
      obtain rfl : thread = worker := by simpa [hc.main] using hworker
      cases (Fares.onCourse hc).move hchain hplain h with
      | doomed hdoomed => exact absurd hdoomed hgood
      | onCourse hc' => exact ha.step_main hplain hc hagenda hperform hgood hc'
    | succ i => exact ha.step_worker hchain htriggers hc hworker hagenda hperform

/-- Every course keeps the account, unless the main thread is doomed after it. -/
theorem Accounts.follow {moves : List (Move P)}
    (hchain : L.IsChain (if output then .output true else .tail))
    (htriggers : L.triggers.length = 1) (hplain : w.Plain) (hf : w.Fares L s goal ended)
    (h : w.follow moves = some w') (hgood : ¬ w'.IsDoomed) (ha : w.Accounts route entries) :
    w'.Accounts route (entries ++ w.made moves) := by
  induction moves generalizing w ended entries with
  | nil =>
    obtain rfl := Option.some.inj h
    simpa [made] using ha
  | cons m moves ih =>
    obtain ⟨v, hv, h⟩ := Option.bind_eq_some_iff.mp h
    have hplain' := hplain.move hv
    have hgood' : ¬ v.IsDoomed := fun hdoomed => hgood (hdoomed.follow hplain' h)
    cases hf with
    | doomed hdoomed => exact absurd (hdoomed.move hplain hv) hgood'
    | onCourse hc =>
      have hlater := ih hplain' ((Fares.onCourse hc).move hchain hplain hv) h
        (ha.move hchain htriggers hplain hc hv hgood')
      simpa only [made, hv, Option.elim_some, List.append_assoc] using hlater

/-- Giving the idle main thread a task that leaves no marks keeps the account. -/
theorem Accounts.assign (hmain : w.agendas[0]? = some []) (htask : task.ahead route = [])
    (ha : w.Accounts route entries) : (w.assign 0 [task]).Accounts route entries := by
  refine ha.of_eq (.silent (Silent.refl.changeThread ..)) fun mark => ?_
  have hstep := count_ahead_modify hmain (· ++ [task]) route mark
  rw [assign_agendas]
  simpa [htask] using hstep

/-- A queue in which no event waits. -/
theorem queue_eq_nil {unit : ExecutionUnit P} (h : unit.outline.waiting = 0) :
    unit.state.queue = [] := by
  obtain ⟨name, processor, stats, state⟩ := unit
  cases state with
  | inline state => rfl
  | queued state => simpa [ExecutionUnit.outline, UnitState.waiting, UnitState.queue] using h

/-- When no event waits in a queue, the books hold what the world shows. -/
theorem books_eq (h : ∀ node ∈ w.nodes, ∀ unit ∈ node.units, unit.outline.waiting = 0) :
    w.books route = w.marks := by
  have hnodes : w.nodes.mapIdx (Node.books route) = w.nodes.mapIdx Node.marks := by
    refine List.mapIdx_eq_mapIdx_iff.mpr fun n hn => ?_
    have hholdings : (w.nodes[n].holdings.flatMap fun held => held.2.flatMap (workAt route n)) =
        [] := by
      refine List.flatMap_eq_nil_iff.mpr fun held hheld => ?_
      obtain ⟨unit, hunit, rfl⟩ := List.mem_map.mp hheld
      rw [queue_eq_nil (h _ (List.getElem_mem hn) unit hunit)]
      rfl
    rw [Node.books, hholdings, List.append_nil]
  rw [books, hnodes]
  rfl

/-- A world that was not started has an account of no events. -/
theorem Unstarted.accounts (hw : w.Unstarted) (hstaffed : w.Staffed route) :
    w.Accounts route [] := by
  have hagendas : w.agendas = [[]] := by simp [agendas, hw.threads]
  have hwaiting : ∀ node ∈ w.nodes, ∀ unit ∈ node.units, unit.outline.waiting = 0 := by
    intro node hnode unit hunit
    obtain ⟨queued, hfresh⟩ :=
      (hw.nodes node hnode).units unit.outline (List.mem_map_of_mem hunit)
    rw [hfresh]
    rfl
  have hmarks : w.marks = [] := by
    have hnodes : (w.nodes.mapIdx Node.marks).flatten = [] := by
      refine List.flatten_eq_nil_iff.mpr fun marks hmem => ?_
      obtain ⟨n, hn, rfl⟩ := List.mem_mapIdx.mp hmem
      obtain ⟨hreceived, hemitted, hdropped, hfailed, -⟩ := hw.nodes _ (List.getElem_mem hn)
      simp [Node.marks, show w.nodes[n].received = 0 from hreceived,
        show w.nodes[n].gate.emitted = 0 from hemitted,
        show w.nodes[n].dropped = 0 from hdropped, show w.nodes[n].failed = 0 from hfailed]
    rw [World.marks, hnodes, hw.fates]
    rfl
  refine ⟨hstaffed, fun mark => ?_, ?_⟩
  · rw [books_eq hwaiting, hmarks, hagendas]
    rfl
  · unfold sequence
    cases htrigger : w.triggers[0]? with
    | none => rfl
    | some trigger => exact (hw.triggers trigger (List.mem_of_getElem? htrigger)).2

/-- A stream whose processors decide by the payload leaves the marks of its events. When its
stop returns, it has a node for every stage of its route, and the counters and the fates on
record show the journeys of all events that its trigger made, and nothing else. -/
theorem marks_of_stopped {config : PipelineConfig} {registry : Registry P} {name : String}
    {ending : String → Json → Ending} {layout : StreamLayout}
    (hlayout : config.streamLayout name = .ok layout) (hone : layout.triggers.length = 1)
    (hdecides : config.DecidesAs registry name ending)
    (h : config.Ends registry name output entries w) :
    ∃ route, config.HasRoute registry name ending route ∧ w.nodes.length = route.length ∧
      w.marks.Perm (journeys route 0 entries) := by
  obtain @⟨shared, s, built, running, starting, stopping, hbuilt, hstarted, hrunning, hstopped,
    hreturned, hmade⟩ := h
  obtain ⟨hunstarted, hrecords, hchain, -⟩ := buildStream_eq hbuilt
  obtain ⟨⟨route, hroute, hstaffed⟩, layout', hlayout', htriggers⟩ :=
    buildStream_staffed hdecides hbuilt
  obtain rfl : layout = layout' := Except.ok.inj (hlayout.symm.trans hlayout')
  have hone' : built.outline.layout.triggers.length = 1 := by
    simpa [Outline.layout, outline, htriggers] using hone
  have hidle : built.agendas = [[]] := by simp [agendas, hunstarted.threads]
  have hplain : built.Plain := by simp [Plain, hidle]
  have hstart := fares_of_assign (s := s) (by simp [hidle]) hunstarted.orderly hrecords .start
  obtain ⟨-, hplain', hmain, hrecords', ho⟩ :=
    hstart.returned hchain (hplain.assign rfl) hstarted hrunning
  have hstop := fares_of_assign (s := s) hmain ho hrecords' .stop
  obtain ⟨-, -, hmain', -, ho'⟩ :=
    hstop.returned hchain (hplain'.assign rfl) hstopped hreturned
  have hstarting : (built.assign 0 [.stream (.start s)]).Accounts route [] :=
    (hunstarted.accounts hstaffed).assign (by simp [hidle]) rfl
  have hstopping : (running.assign 0 [.stream (.stop s)]).Accounts route _ :=
    (hstarting.follow hchain hone' (hplain.assign rfl) hstart hstarted
      hrunning.not_doomed).assign hmain rfl
  have haccounts := hstopping.follow hchain hone' (hplain'.assign rfl) hstop hstopped
    hreturned.not_doomed
  rw [List.nil_append, hmade] at haccounts
  refine ⟨route, hroute, haccounts.staffed.length, List.perm_iff_count.mpr fun mark => ?_⟩
  have hnil : ahead route w.agendas.flatten = [] := by
    rw [List.flatten_eq_nil_iff.mpr (ho'.agendas_eq_nil hmain')]
    rfl
  have hbooks : w.books route = w.marks := books_eq fun node hnode unit hunit => by
    obtain ⟨n, hn⟩ := List.mem_iff_getElem?.mp hnode
    obtain ⟨u, hu⟩ := List.mem_iff_getElem?.mp hunit
    exact (ho'.unit_settled hmain' hn hu).2
  have hcount := haccounts.count mark
  rw [hnil, hbooks] at hcount
  simpa using hcount

/-- A mark that only one of the elements of a list leaves. -/
theorem count_flatten_mapIdx {α : Type} {n : Nat} {mark : Mark} {g : Nat → α → List Mark}
    (hg : ∀ m a, m ≠ n → (g m a).count mark = 0) (l : List α) :
    (l.mapIdx g).flatten.count mark = (l[n]?).elim 0 fun a => (g n a).count mark := by
  induction l using List.reverseRecOn with
  | nil => rfl
  | append_singleton l a ih =>
    simp only [List.mapIdx_concat, List.flatten_append, List.flatten_cons, List.flatten_nil,
      List.append_nil, List.count_append, ih]
    by_cases hn : n = l.length
    · subst hn
      simp
    · rw [hg l.length a (Ne.symm hn), Nat.add_zero, List.getElem?_append]
      split
      · rfl
      · rw [List.getElem?_eq_none (by omega : l.length ≤ n), List.getElem?_eq_none (by simp; omega)]

/-- The marks of the counters of a node are those that the node shows. -/
theorem count_marks {n : Nat} {mark : Mark} (hmark : mark.node? = some n) :
    w.marks.count mark = (w.nodes[n]?).elim 0 fun node => (node.marks n).count mark := by
  have hfates : (w.fates.map FateReport.mark).count mark = 0 := by
    refine List.count_eq_zero.mpr fun hmem => ?_
    obtain ⟨report, -, rfl⟩ := List.mem_map.mp hmem
    simp [FateReport.mark, Mark.node?] at hmark
  rw [marks, List.count_append, hfates, Nat.add_zero]
  refine count_flatten_mapIdx (fun m node hm => ?_) _
  cases mark <;> simp_all [Mark.node?, Node.marks, List.count_replicate]

/-- The marks that belong to no node are those of the fates. -/
theorem filter_marks (w : World P) :
    w.marks.filter (·.node?.isNone) = w.fates.map FateReport.mark := by
  rw [marks, List.filter_append, List.filter_eq_nil_iff.mpr, List.nil_append,
    List.filter_eq_self.mpr]
  · intro mark hmark
    obtain ⟨report, -, rfl⟩ := List.mem_map.mp hmark
    rfl
  · intro mark hmark
    obtain ⟨marks, hmarks, hmark⟩ := List.mem_flatten.mp hmark
    obtain ⟨n, hn, rfl⟩ := List.mem_mapIdx.mp hmarks
    simp only [Node.marks, List.mem_append, List.mem_replicate] at hmark
    obtain ((⟨-, rfl⟩ | ⟨-, rfl⟩) | ⟨-, rfl⟩) | ⟨-, rfl⟩ := hmark <;> simp [Mark.node?]

/-- Two worlds with as many nodes that show the same marks show the same counters and, up to
their order, the same fates. -/
theorem shows_of_marks (hlength : w.nodes.length = v.nodes.length)
    (h : w.marks.Perm v.marks) :
    (w.fates.map FateReport.mark).Perm (v.fates.map FateReport.mark) ∧
      w.nodes.map (·.station.counts) = v.nodes.map (·.station.counts) := by
  refine ⟨?_, List.ext_getElem (by simpa using hlength) fun n hn hn' => ?_⟩
  · rw [← filter_marks, ← filter_marks]
    exact h.filter _
  · rw [List.length_map] at hn hn'
    have hcount (mark : Mark) (hmark : mark.node? = some n) :
        (w.nodes[n].marks n).count mark = (v.nodes[n].marks n).count mark := by
      have := h.count_eq mark
      rwa [count_marks hmark, count_marks hmark, List.getElem?_eq_getElem hn,
        List.getElem?_eq_getElem hn'] at this
    have hreceived := hcount (.received n) rfl
    have hemitted := hcount (.emitted n) rfl
    have hdropped := hcount (.dropped n) rfl
    have hfailed := hcount (.failed n) rfl
    simp only [Node.marks, List.count_append, List.count_replicate]
      at hreceived hemitted hdropped hfailed
    simp_all [Node.station]

/-- A stream does the same in all modes. Take a stream with one trigger, whose processors
decide by the payload, with any mode and any size of its pool for every node; and take the same
stream with all nodes in the mode `single`. If their triggers emit the same payloads, then after
their stops the same fates of the same events are on record, up to their order, and all nodes
have counted the same. -/
theorem same_as_single {config : PipelineConfig} {registry : Registry P} {name : String}
    {ending : String → Json → Ending} {layout : StreamLayout}
    (hlayout : config.streamLayout name = .ok layout) (hone : layout.triggers.length = 1)
    (hdecides : config.DecidesAs registry name ending)
    (h : config.Ends registry name output entries w)
    (hsingle : config.allSingle.Ends registry name output entries v) :
    (w.fates.map FateReport.mark).Perm (v.fates.map FateReport.mark) ∧
      w.nodes.map (·.station.counts) = v.nodes.map (·.station.counts) := by
  obtain ⟨route, hroute, hlength, hmarks⟩ := marks_of_stopped hlayout hone hdecides h
  obtain ⟨route', hroute', hlength', hmarks'⟩ := marks_of_stopped
    ((config.streamLayout_allSingle name).trans hlayout) hone hdecides.allSingle hsingle
  obtain rfl := hroute.unique hroute'.of_allSingle
  exact shows_of_marks (hlength.trans hlength'.symm) (hmarks.trans hmarks'.symm)

end World

/-! ## Two runs -/

/-- Plugins that share nothing and know nothing: processors end the way of events that carry
something, and sources emit two events and are done. -/
def sievePlugins : Plugins :=
  { relayPlugins with
    processor :=
      { relayPlugins.processor with
        process := fun _ payload _ _ =>
          { reply := .returned (if payload.isNull then .pass else .stop "not empty")
            plugin := ()
            shared := () } }
    source :=
      { relayPlugins.source with
        advance := fun turn _ _ =>
          { reply := .returned
              (if turn.made = 0 then .emit .null (some .recorded)
               else if turn.made = 1 then .emit (.bool true) (some .recorded)
               else .done)
            plugin := ()
            shared := () } } }

/-- The one processor and the one trigger that there is. -/
def sieveRegistry : Registry sievePlugins where
  triggers := [("tick", { make := fun _ _ => { reply := .returned (), shared := () } })]
  processors :=
    [("sieve",
      { kind := .transform, make := fun _ _ => { reply := .returned (), shared := () } })]

/-- A stream of one trigger and one node with two workers. -/
def sieveConfig : PipelineConfig where
  nodes := [("sieve", { plugin := "sieve", mode := .thread, poolSize := 2 })]
  triggers := [("tick", { plugin := "tick" })]
  streams := [("line", ["tick", "sieve"])]

/-- A course on which the stream starts, and the second event is done with before the first
one. -/
def sieveStart : List (Move sievePlugins) :=
  ([0, 0, 0, 0, 0, 1, 0, 0, 0, 0, 0, 2, 0, 0, 0, 0, 0, 0, 0, 0, 0, 0, 0]
    ++ List.replicate 20 3 ++ [2, 2, 2, 1, 1, 1, 1, 0, 0, 0, 0, 0, 0, 0, 0]).map .step

/-- A course on which the stream stops. -/
def sieveStop : List (Move sievePlugins) :=
  [0, 0, 0, 0, 0, 0, 0, 0, 0, 0, 0, 0, 1, 1, 0, 0, 0, 0, 0, 0, 2, 2, 0, 0, 0, 0, 0, 0].map .step

/-- A course on which the stream starts in the mode `single`. -/
def inlineSieveStart : List (Move sievePlugins) :=
  (List.replicate 17 0 ++ List.replicate 25 1 ++ List.replicate 8 0).map .step

/-- A course on which the stream stops in the mode `single`. -/
def inlineSieveStop : List (Move sievePlugins) :=
  (List.replicate 16 0).map .step

/-- The processors of the stream decide by the payload. -/
theorem decidesAs_sieve : sieveConfig.DecidesAs sieveRegistry "line"
    fun _ payload => if payload.isNull then .pass else .stop := by
  intro layout hlayout member hmember template htemplate factory hfactory shared processor hmade
    later hlater again payload shared' ending hending
  cases payload <;> exact (Option.some.inj hending).symm

/-- The stream of one trigger and one node leaves the same marks with two workers and in the
mode `single`, although its events are done with in another order. -/
theorem World.same_as_single_sieve : ∃ w v : World sievePlugins,
    sieveConfig.streamLayout "line" = .ok { triggers := ["tick"], processors := ["sieve"] } ∧
    sieveConfig.Ends sieveRegistry "line" true
      [(.null, some .recorded), (.bool true, some .recorded)] w ∧
    sieveConfig.allSingle.Ends sieveRegistry "line" true
      [(.null, some .recorded), (.bool true, some .recorded)] v ∧
    w.fates.map FateReport.mark = [.told 2 (.bool true) 1 .stopped, .told 1 .null 1 .completed] ∧
    (w.fates.map FateReport.mark).Perm (v.fates.map FateReport.mark) ∧
    w.nodes.map (·.station.counts) = v.nodes.map (·.station.counts) := by
  have hw : ∃ w : World sievePlugins, sieveConfig.Ends sieveRegistry "line" true
      [(.null, some .recorded), (.bool true, some .recorded)] w ∧
        w.fates.map FateReport.mark =
          [.told 2 (.bool true) 1 .stopped, .told 1 .null 1 .completed] := by
    refine ⟨_, @PipelineConfig.Ends.intro sievePlugins _ _ _ _ _ _ () 0 _ _ sieveStart sieveStop
      rfl rfl ⟨_, rfl, rfl, rfl, rfl⟩ rfl ⟨_, rfl, rfl, rfl, rfl⟩ ?_, ?_⟩
    · rfl
    · rfl
  have hv : ∃ v : World sievePlugins, sieveConfig.allSingle.Ends sieveRegistry "line" true
      [(.null, some .recorded), (.bool true, some .recorded)] v := by
    refine ⟨_, @PipelineConfig.Ends.intro sievePlugins _ _ _ _ _ _ () 0 _ _ inlineSieveStart
      inlineSieveStop rfl rfl ⟨_, rfl, rfl, rfl, rfl⟩ rfl ⟨_, rfl, rfl, rfl, rfl⟩ ?_⟩
    rfl
  obtain ⟨w, hw, hfates⟩ := hw
  obtain ⟨v, hv⟩ := hv
  exact ⟨w, v, rfl, hw, hv, hfates, same_as_single rfl rfl decidesAs_sieve hw hv⟩

end EventPipeline
