import EventPipeline.Proofs.Engine.Building
import EventPipeline.Proofs.Engine.Settlement

/-!
# `EventPipeline.Proofs.Engine.Conservation`: no event is lost

A world is on course when its stream is in order and the main thread is about to do what
leads to a goal: a running stream, or a stopped one. Every move keeps a world on course, or
it dooms the main thread, which then never returns with success (`Fares.move`). So does every
course (`Fares.follow`).

`settled_of_stopped` is the result. Take any stream that is built, started and stopped, with
its threads interleaving in any way. When the stop returns, no event was rejected on the way
and every event that the triggers emitted is accounted for.
-/

set_option autoImplicit false

namespace EventPipeline

/-! ## Tasks of the main thread and of workers -/

/-- Threads do the task of a loop only if they work for somebody. -/
theorem Outline.Turns.exists_owner {o o' : Outline} {task : Task} {todo : List Task}
    (h : o.Turns task o' todo) : ∃ owner, task.owner? = some owner := by
  cases h with
  | goOn t v task next howner | emit t v payload continuation task next howner
  | ended t v task howner => exact ⟨_, howner⟩
  | prepareAgain n u | ready n u | unfit n u | disconnected n u | look n u | dismissed n u
  | stay n u | finishAgain n u | finished n u => exact ⟨.worker n u, rfl⟩

/-- The main thread works for nobody. -/
theorem Leads.owner?_eq {L : Layout} {s : Nat} {task : Task} {position goal : Position}
    (h : Leads L s task position goal) : task.owner? = none := by
  cases h with
  | keep h =>
    cases task with
    | unit task => cases task <;> first | rfl | simp [Task.keeps] at h
    | source task => cases task <;> first | rfl | simp [Task.keeps] at h
    | _ => rfl
  | _ => rfl

/-- The main thread handles no event; at most it waits for a unit that handles one. -/
theorem Leads.handles_eq {L : Layout} {s : Nat} {task : Task} {position goal : Position}
    {o o' : Outline} {e : Option Nat} {todo : List Task} (h : Leads L s task position goal)
    (hhandles : o.Handles task e o' todo) :
    o' = o ∧ e = none ∧ todo = [] ∧ position = goal := by
  cases hhandles with
  | occupy =>
    cases h with
    | keep => exact ⟨rfl, rfl, rfl, rfl⟩
  | _ =>
    cases h with
    | keep h => simp [Task.keeps] at h

/-- Workers conduct nothing. -/
theorem World.Conducts.not_worker {P : Plugins} {w : World P} {me : Nat} {task : Task}
    {o : Outline} {streams : List Stream} {spawned : List (List Task)} {todo : List Task}
    (h : w.Conducts me task o streams spawned todo) :
    task.owner? = none ∧ ∀ owner, ¬ task.Follows owner := by
  cases h with
  | fail task h | undo task h =>
    cases task with
    | unit task => cases task <;> first | exact ⟨rfl, fun _ => id⟩ | cases h
    | source task => cases task <;> first | exact ⟨rfl, fun _ => id⟩ | cases h
    | stream task => exact ⟨rfl, fun _ => id⟩
    | _ => cases h
  | _ => exact ⟨rfl, fun _ => id⟩

/-- Conducting is not handling events. -/
theorem World.Conducts.not_event {P : Plugins} {w : World P} {me : Nat} {task : EventTask}
    {o : Outline} {streams : List Stream} {spawned : List (List Task)} {todo : List Task} :
    ¬ w.Conducts me (.event task) o streams spawned todo := fun h => by
  cases h with
  | fail _ h | undo _ h => cases h

namespace World

variable {P : Plugins} {w w' : World P} {L : Layout} {last : Target} {s me : Nat}
  {goal : Position} {ended : Nat → Nat}

/-- The stream `s` is in order, and the main thread is about to do what leads to the
goal. -/
structure OnCourse (w : World P) (L : Layout) (s : Nat) (goal : Position) (ended : Nat → Nat)
    (thread : Thread) (position : Position) : Prop where
  main : w.threads[0]? = some thread
  answer : ∀ error, thread.answer ≠ .failed error
  order : Orderly L position w.outline w.agendas ended
  records : L.Records w.streams s position.isRunning
  plan : Plan L s thread.agenda position goal

/-- Only a task that has an event processed ends one. -/
theorem endsAt?_step {thread : Thread} {task : Task} {rest : List Task}
    (hthread : w.threads[me]? = some thread) (hagenda : thread.agenda = task :: rest) :
    w.endsAt? (.step me) = w.endedBy? task := by
  simp only [endsAt?, hthread, hagenda, Option.bind_eq_bind, Option.bind_some]
  cases task with
  | event task =>
    cases task with
    | process n u event asked =>
      simp only [endedBy?]
      cases w.callProcessor n u (P.processor.process asked event.payload) with
      | none => rfl
      | some called =>
        obtain ⟨reply, called⟩ := called
        cases reply with
        | returned outcome => cases outcome <;> rfl
        | _ => rfl
    | _ => rfl
  | _ => rfl

/-- A task of a loop ends no event. -/
theorem endedBy?_eq_none {task : Task} {owner : Owner} (h : task.owner? = some owner) :
    w.endedBy? task = none := by
  cases task <;> first | rfl | simp [Task.owner?] at h

namespace OnCourse

variable {thread : Thread} {position : Position}

/-- A step of a worker keeps a world on course. -/
theorem step_worker {i : Nat} {task : Task} {rest : List Task} {worker : Thread}
    (hchain : L.IsChain last) (hc : w.OnCourse L s goal ended thread position)
    (hworker : w.threads[i + 1]? = some worker) (hagenda : worker.agenda = task :: rest)
    (h : w.StepsTo (i + 1) task w') :
    w'.OnCourse L s goal (fun n => ended n + if w.endedBy? task = some n then 1 else 0)
      thread position := by
  have hme : w.agendas[i + 1]? = some (task :: rest) := by simp [agendas, hworker, hagenda]
  have hmain : w'.threads[0]? = some thread := by
    rw [h.threads_ne (by omega) (List.getElem?_eq_some_iff.mp hc.main).1, hc.main]
  have hnone (h : w.endedBy? task = none) :
      (fun n => ended n + if w.endedBy? task = some n then 1 else 0) = ended := by
    simp [h]
  have hworks (howner : task.owner? = none) : ∃ owner, task.Follows owner := by
    obtain ⟨loop, hshaped, -⟩ := hc.order.threads i _ hme
    obtain ⟨-, -, owner, howner'⟩ | ⟨_, owner, -, -, hfollows, -⟩ := hshaped.cons_cases
    · simp [howner] at howner'
    · exact ⟨owner, hfollows⟩
  cases h with
  | handles todo since h threads streams =>
    refine ⟨hmain, hc.answer, ?_, streams ▸ hc.records, hc.plan⟩
    rw [agendas_goOn threads]
    exact hc.order.handles hchain hme h
  | turns todo since h threads streams =>
    obtain ⟨owner, howner⟩ := h.exists_owner
    refine ⟨hmain, hc.answer, ?_, streams ▸ hc.records, hc.plan⟩
    rw [agendas_goOn threads, hnone (endedBy?_eq_none howner)]
    exact hc.order.turns hme h
  | turnsOver text since t v howner outline threads streams =>
    refine ⟨hmain, hc.answer, ?_, streams ▸ hc.records, hc.plan⟩
    rw [agendas_breakDown threads, outline, hnone (endedBy?_eq_none howner)]
    exact hc.order.turnsOver hme howner
  | conducts spawned todo since h =>
    obtain ⟨howner, hfollows⟩ := h.not_worker
    obtain ⟨owner, h⟩ := hworks howner
    exact absurd h (hfollows owner)
  | halts text since t v asked h =>
    subst h
    obtain ⟨owner, h⟩ := hworks rfl
    exact h.elim
  | answers answer since h outline threads streams =>
    subst h
    refine ⟨hmain, hc.answer, ?_, streams ▸ hc.records, hc.plan⟩
    rw [agendas_note threads, outline, hnone rfl]
    exact hc.order.notes hme

/-- A step of the main thread that changes nothing but its agenda keeps a world on
course. -/
theorem step_alone {agenda : List Task} {f : List Task → List Task} {later : Thread}
    (hc : w.OnCourse L s goal ended thread position) (hmain : w'.threads[0]? = some later)
    (hanswer : ∀ error, later.answer ≠ .failed error) (hagenda : thread.agenda = agenda)
    (hf : f agenda = later.agenda) (houtline : w'.outline = w.outline)
    (hstreams : w'.streams = w.streams) (hagendas : w'.agendas = w.agendas.modify 0 f)
    {position' : Position} (hsame : position.Same L position')
    (hplan : Plan L s later.agenda position' goal) :
    w'.OnCourse L s goal ended later position' := by
  refine ⟨hmain, hanswer, ?_, ?_, hplan⟩
  · rw [houtline, hagendas]
    refine (hc.order.same hsame).main
      (show w.agendas[0]? = some agenda by simp [agendas, hc.main, hagenda]) ?_ ?_
    · exact hagenda ▸ hc.plan.isLight
    · exact hf ▸ hplan.isLight
  · rw [hstreams, ← hsame.isRunning]
    exact hc.records

/-- A step of the main thread keeps a world on course, or it dooms the main thread. -/
theorem step_main {task : Task} {rest : List Task}
    (hc : w.OnCourse L s goal ended thread position) (hagenda : thread.agenda = task :: rest)
    (h : w.StepsTo 0 task w') :
    ∃ later, w'.threads[0]? = some later ∧ (later.Doomed ∨ ∃ position',
      w'.OnCourse L s goal (fun n => ended n + if w.endedBy? task = some n then 1 else 0)
        later position') := by
  have hwhole := hc.plan
  rw [hagenda] at hwhole
  obtain ⟨before, after, hsame, hleads, hrest, hplan⟩ := hwhole.cons_inv
  have hanswer (error : StreamError) : w.answerOf 0 ≠ .failed error := by
    simpa [answerOf, hc.main] using hc.answer error
  have hnone (h : w.endedBy? task = none) :
      (fun n => ended n + if w.endedBy? task = some n then 1 else 0) = ended := by
    simp [h]
  cases h with
  | handles todo since h threads streams =>
    obtain ⟨houtline, hended, rfl, rfl⟩ := hleads.handles_eq h
    have hlater : w'.threads[0]? = some (thread.goOn [] since) := by
      rw [threads, List.getElem?_modify_eq, hc.main]
      rfl
    refine ⟨_, hlater, .inr ⟨before, ?_⟩⟩
    rw [hnone hended]
    refine hc.step_alone hlater hc.answer hagenda ?_ houtline streams (agendas_goOn threads)
      hsame ?_
    · simp [Thread.goOn, hagenda]
    · simpa [Thread.goOn, hagenda] using hplan
  | turns todo since h =>
    obtain ⟨owner, howner⟩ := h.exists_owner
    simp [hleads.owner?_eq] at howner
  | turnsOver text since t v howner => simp [hleads.owner?_eq] at howner
  | halts text since t v asked h threads =>
    refine ⟨thread.breakDown text since, ?_, .inl (.broken (by simp [Thread.breakDown]))⟩
    rw [threads, List.getElem?_modify_eq, hc.main]
    rfl
  | answers answer since h outline threads streams =>
    subst h
    cases hleads with
    | keep hkeeps =>
      obtain rfl : answer = .ok := by
        cases answer <;> first | rfl | simp [Task.keeps] at hkeeps
      have hlater : w'.threads[0]? = some (thread.note .ok since) := by
        rw [threads, List.getElem?_modify_eq, hc.main]
        rfl
      refine ⟨_, hlater, .inr ⟨before, ?_⟩⟩
      rw [hnone rfl]
      refine hc.step_alone hlater (by simp [Thread.note]) hagenda ?_ outline streams
        (agendas_note threads) hsame ?_
      · simp [Thread.note, hagenda]
      · simpa [Thread.note, hagenda] using hplan
  | conducts spawned todo since h threads =>
    have hlater : w'.threads[0]? = some (thread.goOn todo since) := by
      rw [threads, List.getElem?_modify_eq,
        List.getElem?_append_left (List.getElem?_eq_some_iff.mp hc.main).1, hc.main]
      rfl
    have htodo : (thread.goOn todo since).agenda = todo ++ rest := by
      simp [Thread.goOn, hagenda]
    have hended : w.endedBy? task = none := by
      cases task with
      | event task => simpa using h.not_event
      | _ => rfl
    refine ⟨_, hlater, ?_⟩
    cases h.advances hleads (hc.order.same hsame) (hsame.isRunning ▸ hc.records) hanswer with
    | fails hdoom hmay => exact .inl (.doomed [] _ rest htodo hdoom (hrest hmay))
    | @goesOn position' todo ho hrecords hplan' hmay =>
      refine .inr ⟨position', hlater, hc.answer, ?_, hrecords, ?_⟩
      · rw [agendas_goOn threads, map_newThreads, hnone hended]
        have hmain : w.agendas[0]? = some (task :: rest) := by simp [agendas, hc.main, hagenda]
        refine ho.main ?_ hwhole.isLight ?_
        · rw [List.getElem?_append_left (List.getElem?_eq_some_iff.mp hmain).1, hmain]
        · simpa [or_imp, forall_and] using ⟨hplan'.isLight, hplan.isLight⟩
      · rw [htodo]
        exact hplan'.append hplan fun later hlater hlaterMay => hrest (hmay later hlater hlaterMay)

/-- The main thread and the workers of a world on course have just rejected no event. -/
theorem not_rejects (hc : w.OnCourse L s goal ended thread position) : ¬ w.Rejects := by
  rintro ⟨rejecting, hmem, hrejected⟩
  obtain ⟨i, hi⟩ := List.mem_iff_getElem?.mp hmem
  cases i with
  | zero =>
    obtain rfl : thread = rejecting := by simpa [hc.main] using hi
    have hlight := hc.plan.not_rejected
    exact hlight hrejected
  | succ i =>
    obtain ⟨loop, hshaped, -⟩ := hc.order.threads i rejecting.agenda (by simp [agendas, hi])
    exact hshaped.not_rejected hrejected

end OnCourse

/-! ## Courses -/

/-- The main thread of the world is doomed. -/
def IsDoomed (w : World P) : Prop :=
  ∃ thread, w.threads[0]? = some thread ∧ thread.Doomed

/-- A world fares towards a goal: it is on course, or its main thread is doomed. -/
inductive Fares (w : World P) (L : Layout) (s : Nat) (goal : Position) (ended : Nat → Nat) :
    Prop
  | onCourse {thread : Thread} {position : Position}
    (h : w.OnCourse L s goal ended thread position)
  | doomed (h : w.IsDoomed)

/-- No move makes somebody supervise streams. -/
theorem Plain.move {m : Move P} (hplain : w.Plain) (h : w.move m = some w') : w'.Plain := by
  cases m with
  | step me => exact hplain.step h
  | pass nanos | outside change =>
    obtain rfl := Option.some.inj h
    exact hplain

/-- No move saves a doomed main thread. -/
theorem IsDoomed.move {m : Move P} (hplain : w.Plain) (hdoomed : w.IsDoomed)
    (h : w.move m = some w') : w'.IsDoomed := by
  obtain ⟨thread, hthread, hdoomed⟩ := hdoomed
  cases m with
  | pass nanos | outside change =>
    obtain rfl := Option.some.inj h
    exact ⟨thread, hthread, hdoomed⟩
  | step me =>
    by_cases hme : me = 0
    · subst hme
      exact hdoomed.step hplain h hthread
    · obtain ⟨_, task, rest, -, -, hsteps⟩ := step_cases hplain h
      refine ⟨thread, ?_, hdoomed⟩
      rw [hsteps.threads_ne (Ne.symm hme) (List.getElem?_eq_some_iff.mp hthread).1, hthread]

/-- No course saves a doomed main thread. -/
theorem IsDoomed.follow {moves : List (Move P)} (hplain : w.Plain) (hdoomed : w.IsDoomed)
    (h : w.follow moves = some w') : w'.IsDoomed := by
  induction moves generalizing w with
  | nil =>
    obtain rfl := Option.some.inj h
    exact hdoomed
  | cons m moves ih =>
    obtain ⟨v, hv, h⟩ := Option.bind_eq_some_iff.mp h
    exact ih (hplain.move hv) (hdoomed.move hplain hv) h

/-- Every move leaves a world faring. -/
theorem Fares.move {m : Move P} (hchain : L.IsChain last) (hplain : w.Plain)
    (hf : w.Fares L s goal ended) (h : w.move m = some w') :
    w'.Fares L s goal fun n => ended n + if w.endsAt? m = some n then 1 else 0 := by
  cases hf with
  | doomed hdoomed => exact .doomed (hdoomed.move hplain h)
  | @onCourse thread position hc =>
    cases m with
    | pass nanos | outside change =>
      obtain rfl := Option.some.inj h
      exact .onCourse ⟨hc.main, hc.answer, hc.order, hc.records, hc.plan⟩
    | step me =>
      obtain ⟨worker, task, rest, hworker, hagenda, hsteps⟩ := step_cases hplain h
      rw [endsAt?_step hworker hagenda]
      cases me with
      | succ i => exact .onCourse (hc.step_worker hchain hworker hagenda hsteps)
      | zero =>
        obtain rfl : thread = worker := by simpa [hc.main] using hworker
        obtain ⟨later, hlater, hdoomed | ⟨position', hc'⟩⟩ := hc.step_main hagenda hsteps
        · exact .doomed ⟨later, hlater, hdoomed⟩
        · exact .onCourse hc'

/-- Every course leaves a world faring. -/
theorem Fares.follow {moves : List (Move P)} (hchain : L.IsChain last) (hplain : w.Plain)
    (hf : w.Fares L s goal ended) (h : w.follow moves = some w') :
    w'.Plain ∧ w'.Fares L s goal fun n => ended n + endedAt n w moves := by
  induction moves generalizing w ended with
  | nil =>
    obtain rfl := Option.some.inj h
    exact ⟨hplain, by simpa [endedAt] using hf⟩
  | cons m moves ih =>
    obtain ⟨v, hv, h⟩ := Option.bind_eq_some_iff.mp h
    obtain ⟨hplain', hf'⟩ := ih (hplain.move hv) (hf.move hchain hplain hv) h
    refine ⟨hplain', ?_⟩
    have hended : (fun n => ended n + endedAt n w (m :: moves)) = fun n =>
        ended n + (if w.endsAt? m = some n then 1 else 0) + endedAt n v moves := by
      funext n
      simp only [endedAt, hv, Option.elim_some]
      omega
    rw [hended]
    exact hf'

/-- A doomed main thread has not returned with success. -/
theorem HasReturned.not_doomed (h : w.HasReturned .ok) : ¬ w.IsDoomed := fun hdoomed => by
  obtain ⟨thread, hthread, hdoomed⟩ := hdoomed
  obtain ⟨thread', hthread', hagenda, hbroken, hanswer⟩ := h
  obtain rfl : thread = thread' := by simpa [hthread] using hthread'
  cases hdoomed with
  | broken h => exact h hbroken
  | doomed earlier task later h => simp [hagenda] at h
  | failed error h => simp [hanswer] at h

/-- When the main thread returns with success, its stream is in order at the goal, and no
event was rejected on the way. -/
theorem Fares.returned {moves : List (Move P)} (hchain : L.IsChain last) (hplain : w.Plain)
    (hf : w.Fares L s goal ended) (h : w.follow moves = some w') (hreturned : w'.HasReturned .ok) :
    w.NeverRejects moves ∧ w'.Plain ∧ w'.agendas[0]? = some [] ∧
      L.Records w'.streams s goal.isRunning ∧
      Orderly L goal w'.outline w'.agendas fun n => ended n + endedAt n w moves := by
  refine ⟨?_, ?_⟩
  · rintro before ⟨after, rfl⟩ v hv
    obtain ⟨hplain', hf'⟩ := hf.follow hchain hplain hv
    cases hf' with
    | onCourse hc => exact hc.not_rejects
    | doomed hdoomed =>
      rw [follow_append, hv, Option.bind_some] at h
      exact absurd (hdoomed.follow hplain' h) hreturned.not_doomed
  · obtain ⟨hplain', hf'⟩ := hf.follow hchain hplain h
    cases hf' with
    | doomed hdoomed => exact absurd hdoomed hreturned.not_doomed
    | @onCourse thread position hc =>
      obtain ⟨thread', hthread', hagenda, -⟩ := hreturned
      obtain rfl : thread = thread' := by simpa [hc.main] using hthread'
      have hsame : position.Same L goal := (hagenda ▸ hc.plan).nil_same
      refine ⟨hplain', by simp [agendas, hc.main, hagenda], ?_, hc.order.same hsame⟩
      rw [← hsame.isRunning]
      exact hc.records

/-- Giving the idle main thread something to do changes nothing that shows. -/
theorem assign_agendas (tasks : List Task) :
    (w.assign 0 tasks).agendas = w.agendas.modify 0 (· ++ tasks) :=
  map_modify fun _ _ => rfl

/-- A world whose main thread is given a task to do that leads from where its stream is to a
goal is on course. -/
theorem fares_of_assign {task : Task} {position : Position} (hmain : w.agendas[0]? = some [])
    (ho : Orderly L position w.outline w.agendas ended)
    (hrecords : L.Records w.streams s position.isRunning) (hleads : Leads L s task position goal) :
    (w.assign 0 [task]).Fares L s goal ended := by
  obtain ⟨thread, hthread, hagenda⟩ := exists_thread hmain
  let later : Thread := { thread with agenda := [task], since := w.clock, answer := .ok }
  have hc : (w.assign 0 [task]).OnCourse L s goal ended later position := by
    refine ⟨?_, by simp [later], ?_, hrecords, .single hleads⟩
    · simp [later, assign, changeThread, List.getElem?_modify_eq, hthread, hagenda]
    · rw [assign_agendas]
      exact ho.main hmain (by simp) (by simpa using hleads.isLight)
  exact .onCourse hc

/-- Giving the main thread a task in the life of a stream makes nobody supervise streams. -/
theorem Plain.assign {task : Task} (hplain : w.Plain) (h : task.isPlain = true) :
    (w.assign 0 [task]).Plain := by
  intro agenda hagenda later hlater
  rw [assign_agendas] at hagenda
  obtain hold | ⟨old, hold, rfl⟩ := mem_modify hagenda
  · exact hplain agenda hold later hlater
  · rcases List.mem_append.mp hlater with hlater | hlater
    · exact hplain old (List.mem_of_getElem? hold) later hlater
    · obtain rfl := List.mem_singleton.mp hlater
      exact h

/-- No event is lost, counted twice or rejected. Take a stream that is built, started and
stopped; its threads may interleave in any way, time may pass at any moment, and what
plugins share may be changed from outside. When the stop returns, every event that the
triggers emitted is accounted for. -/
theorem settled_of_stopped {shared : P.Shared} {name : String} {config : PipelineConfig}
    {registry : Registry P} {output : Bool} {w₀ w₁ w₂ : World P}
    {starting stopping : List (Move P)}
    (hbuilt : (idle shared).buildStream name config registry output =
      { reply := .returned s, shared := w₀ })
    (hstarted : (w₀.assign 0 [.stream (.start s)]).follow starting = some w₁)
    (hrunning : w₁.HasReturned .ok)
    (hstopped : (w₁.assign 0 [.stream (.stop s)]).follow stopping = some w₂)
    (hreturned : w₂.HasReturned .ok) :
    (w₀.assign 0 [.stream (.start s)]).NeverRejects starting ∧
      (w₁.assign 0 [.stream (.stop s)]).NeverRejects stopping ∧
      ∃ stream, w₂.streams[s]? = some stream ∧ w₂.Settled stream fun n =>
        endedAt n (w₀.assign 0 [.stream (.start s)]) starting +
          endedAt n (w₁.assign 0 [.stream (.stop s)]) stopping := by
  obtain ⟨hunstarted, hrecords, hchain, -⟩ := buildStream_eq hbuilt
  have hidle : w₀.agendas = [[]] := by simp [agendas, hunstarted.threads]
  have hplain : w₀.Plain := by simp [Plain, hidle]
  obtain ⟨hstart, hplain, hmain, hrecords, ho⟩ :=
    (fares_of_assign (by simp [hidle]) hunstarted.orderly hrecords .start).returned hchain
      (hplain.assign rfl) hstarted hrunning
  obtain ⟨hstop, -, hmain, ⟨stream, hstream, htriggers, hprocessors, -⟩, ho⟩ :=
    (fares_of_assign hmain ho hrecords .stop).returned hchain (hplain.assign rfl) hstopped
      hreturned
  refine ⟨hstart, hstop, stream, hstream, ?_⟩
  simpa using ho.settled hchain hmain htriggers hprocessors

end World

/-! ## One run -/

/-- Plugins that share nothing and know nothing: processors pass every event on, and sources
emit one event and are done. -/
def relayPlugins : Plugins where
  Shared := Unit
  Processor := Unit
  Source := Unit
  Heartbeat := Unit
  processor :=
    { prepare := fun _ _ _ => { reply := .returned (), plugin := (), shared := () }
      process := fun _ _ _ _ => { reply := .returned .pass, plugin := (), shared := () }
      finish := fun _ _ _ => { reply := .returned (), plugin := (), shared := () } }
  source :=
    { prepare := fun _ _ _ => { reply := .returned (), plugin := (), shared := () }
      advance := fun turn _ _ =>
        { reply := .returned (if turn.made = 0 then .emit .null none else .done)
          plugin := ()
          shared := () }
      halt := fun _ _ _ => { reply := .returned (), plugin := (), shared := () }
      finish := fun _ _ _ => { reply := .returned (), plugin := (), shared := () } }
  heartbeat :=
    { prepare := fun _ _ _ _ => { reply := .returned (), plugin := (), shared := () }
      beat := fun _ _ _ _ => { reply := .returned .nothing, plugin := (), shared := () }
      finish := fun _ _ _ => { reply := .returned (), plugin := (), shared := () } }

/-- The one processor and the one trigger that there is. -/
def relayRegistry : Registry relayPlugins where
  triggers := [("tick", { make := fun _ _ => { reply := .returned (), shared := () } })]
  processors :=
    [("relay",
      { kind := .transform, make := fun _ _ => { reply := .returned (), shared := () } })]

/-- A stream of one trigger and one node, which runs in the given mode. -/
def relayConfig (mode : ExecutionMode) : PipelineConfig where
  nodes := [("relay", { plugin := "relay", mode })]
  triggers := [("tick", { plugin := "tick" })]
  streams := [("line", ["tick", "relay"])]

/-- A course on which the stream starts and its source emits its event. -/
def relayStart : List (Move relayPlugins) :=
  [0, 0, 0, 0, 0, 1, 0, 0, 0, 0, 0, 0, 0, 0, 0, 0, 0, 2, 0, 0, 0, 0, 0, 0, 0, 0, 2, 2, 2, 2, 2, 2,
    2, 1, 1, 1, 1, 2, 2, 2, 2].map .step

/-- A course on which the stream stops. -/
def relayStop : List (Move relayPlugins) :=
  [0, 0, 0, 0, 0, 0, 0, 0, 0, 0, 0, 0, 1, 1, 0, 0, 0, 0, 0, 0].map .step

/-- The stream of one trigger and one queued node is settled when it has stopped. -/
theorem World.settled_of_stopped_relay : ∃ w₀ w₁ w₂ : World relayPlugins,
    (idle ()).buildStream "line" (relayConfig .thread) relayRegistry false =
      { reply := .returned 0, shared := w₀ } ∧
    (w₀.assign 0 [.stream (.start 0)]).follow relayStart = some w₁ ∧ w₁.HasReturned .ok ∧
    (w₁.assign 0 [.stream (.stop 0)]).follow relayStop = some w₂ ∧ w₂.HasReturned .ok ∧
    ∃ stream, w₂.streams[0]? = some stream ∧ w₂.Settled stream fun n =>
      endedAt n (w₀.assign 0 [.stream (.start 0)]) relayStart +
        endedAt n (w₁.assign 0 [.stream (.stop 0)]) relayStop := by
  refine ⟨_, _, _, rfl, rfl, ⟨_, rfl, rfl, rfl, rfl⟩, rfl, ⟨_, rfl, rfl, rfl, rfl⟩, ?_⟩
  exact (@settled_of_stopped relayPlugins 0 () "line" (relayConfig .thread) relayRegistry false
    _ _ _ relayStart relayStop rfl rfl ⟨_, rfl, rfl, rfl, rfl⟩ rfl ⟨_, rfl, rfl, rfl, rfl⟩).2.2

end EventPipeline
