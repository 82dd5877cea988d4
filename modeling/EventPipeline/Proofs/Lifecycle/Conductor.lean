import EventPipeline.Proofs.Lifecycle.Standing

/-!
# `EventPipeline.Proofs.Lifecycle.Conductor`: what the main thread brings about

A scene says which standing every plugin has and what the main thread still has to do. It is
stable: no move of another thread changes it (`Scene.other`). A scene is `Safe` for a goal if the
goal holds on whichever course the main thread comes to the end of its agenda with a failure.
Whether a scene is safe is found out from the first task of the main thread: it leads to other
scenes, and if these are safe, it is safe as well. Each lemma below says this of one task; the
rest of the agenda does not matter for it.
-/

set_option autoImplicit false

namespace EventPipeline

variable {P : Plugins}

namespace World

variable {w w' v built : World P} {me n u t l k : Nat} {task : Task} {rest agenda todo : List Task}
  {progress : Progress P} {expired : Bool} {record : List Deed} {standing : Standing}
  {i : Instance} {σ : Instance → Standing} {told : Answer}

/-- The plugins have such standings, the main thread was told `told` last and has the agenda
left. Gates and streams are as they were built. -/
structure Scene (w built : World P) (σ : Instance → Standing) (told : Answer)
    (agenda : List Task) (record : List Deed) : Prop where
  crew : w.Crew
  frame_eq : w.frame = built.frame
  streams_eq : w.streams = built.streams
  stands : ∀ i, w.Stands record i (σ i)
  agenda_eq : w.agendas[0]? = some agenda
  told_eq : w.answerOf 0 = told

/-- What never changes does not change with a turn. -/
theorem Turn.frame_eq (h : w.Turn me expired task rest progress w') (hplain : task.isPlain = true) :
    w'.frame = w.frame := by
  rw [← h.reaches.frame hplain, frame, frame, h.nodes, h.triggers]

/-- What a thread was told last changes only with a task that tells it something. -/
theorem Turn.answerOf_eq (h : w.Turn me expired task rest progress w')
    (hsilent : ∀ answer, task ≠ .answer answer) : w'.answerOf me = w.answerOf me := by
  have hlt : me < w.threads.length := w.length_agendas ▸ h.me_lt
  obtain ⟨spawned, -, hthreads⟩ | ⟨answer, hanswer, -⟩ := (perform_threads h.performs).1
  case inr => exact absurd hanswer (hsilent answer)
  have hthread : progress.world.threads[me]? = some w.threads[me] := by
    rw [hthreads, List.getElem?_append_left hlt, List.getElem?_eq_getElem hlt]
  rw [h.resumes, answerOf, answerOf, List.getElem?_eq_getElem hlt]
  cases progress with
  | goOn v todo =>
    have hthread : v.threads[me]? = some w.threads[me] := hthread
    simp [Progress.resume, changeThread, Thread.goOn, List.getElem?_modify_eq, hthread]
  | breakDown v text =>
    have hthread : v.threads[me]? = some w.threads[me] := hthread
    simp [Progress.resume, changeThread, Thread.breakDown, List.getElem?_modify_eq, hthread]

namespace Scene

/-- No move of another thread changes a scene. -/
theorem other {move : Move P} (h : w.Scene built σ told agenda record)
    (hmove : w.move move = some w') (hother : move ≠ .step 0) :
    w'.Scene built σ told agenda (record ++ w.deeds move) := by
  have htold : w'.answerOf 0 = told := by
    obtain ⟨thread, hthread, -⟩ := exists_thread h.agenda_eq
    rw [← h.told_eq, answerOf, answerOf, move_threads_ne hmove hother hthread, hthread]
  obtain ⟨me, expired, task, rest, progress, rfl, hturn⟩ | ⟨hdeeds, hsame⟩ := move_cases hmove
  case inr =>
    rw [hdeeds, List.append_nil]
    refine ⟨h.crew.move hmove, ?_, hsame.streams.trans h.streams_eq,
      fun i => (h.stands i).same hsame,
      by rw [hsame.agendas]; exact h.agenda_eq, htold⟩
    rw [← h.frame_eq, frame, frame, hsame.nodes, hsame.triggers]
  have hme : me ≠ 0 := fun hme => hother (by rw [hme])
  have hplain := h.crew.isPlain hturn
  have hlabour := h.crew.isLabour hme hturn
  have hstreams : w'.streams = w.streams := by
    rw [hturn.streams]
    refine hturn.reaches.streams hplain fun part hpart => ?_
    rw [hpart] at hlabour
    cases hlabour
  rw [hturn.deeds]
  exact ⟨h.crew.move hmove, (hturn.frame_eq hplain).trans h.frame_eq, hstreams.trans h.streams_eq,
    fun i => (h.stands i).turn hturn hplain fun _ => ⟨hlabour, fun _ => hme⟩,
    hturn.agenda_ne (Ne.symm hme) h.agenda_eq, htold⟩

/-- The scene after a turn of the main thread that is about one plugin. -/
theorem turn (h : w.Scene built σ told (task :: rest) record) (hstep : w.step 0 = some w')
    (hturn : w.Turn 0 expired task rest (.goOn v todo) w')
    (hstands : w'.Stands (record ++ w.deedsOf 0 expired task) i standing)
    (haside : ∀ j, j ≠ i → task.IsAside 0 j) (hstreams : v.streams = w.streams)
    (hsilent : ∀ answer, task ≠ .answer answer) :
    w'.Scene built (Function.update σ i standing) told (todo ++ rest)
      (record ++ w.deedsOf 0 expired task) := by
  have hplain := h.crew.isPlain hturn
  have hmove : w.move (.step 0) = some w' := hstep
  refine ⟨h.crew.move hmove, (hturn.frame_eq hplain).trans h.frame_eq, ?_, fun j => ?_,
    hturn.agenda_me, (hturn.answerOf_eq hsilent).trans h.told_eq⟩
  · rw [hturn.streams]
    exact hstreams.trans h.streams_eq
  · by_cases hj : j = i
    · subst hj
      rw [Function.update_self]
      exact hstands
    · rw [Function.update_of_ne hj]
      exact (h.stands j).turn hturn hplain (haside j hj)

/-- The scene after a turn of the main thread that is about no plugin. -/
theorem turn_free (h : w.Scene built σ told (task :: rest) record) (hstep : w.step 0 = some w')
    (hturn : w.Turn 0 expired task rest (.goOn v todo) w') (haside : ∀ j, task.IsAside 0 j)
    (hstreams : v.streams = w.streams) (hsilent : ∀ answer, task ≠ .answer answer) :
    w'.Scene built σ told (todo ++ rest) (record ++ w.deedsOf 0 expired task) := by
  have hplain := h.crew.isPlain hturn
  have hmove : w.move (.step 0) = some w' := hstep
  refine ⟨h.crew.move hmove, (hturn.frame_eq hplain).trans h.frame_eq, ?_,
    fun j => (h.stands j).turn hturn hplain (haside j), hturn.agenda_me,
    (hturn.answerOf_eq hsilent).trans h.told_eq⟩
  rw [hturn.streams]
  exact hstreams.trans h.streams_eq

end Scene

/-! ## Goals -/

/-- Whenever the main thread has come to its end with the failure, the goal holds. -/
def Assures (w : World P) (error : StreamError) (goal : List Deed → World P → Prop)
    (record : List Deed) : Prop :=
  ∀ moves v, w.follow moves = some v → v.HasReturned (.failed error) →
    goal (record ++ w.record moves) v

variable {error : StreamError} {goal : List Deed → World P → Prop}

/-- The goal holds in the end if something holds until then that implies it. -/
theorem assures_of_invariant {I : List Deed → World P → Prop} (h : I record w)
    (hend : ∀ record w, I record w → w.HasReturned (.failed error) → goal record w)
    (hother : ∀ record w w' move, I record w → w.move move = some w' → move ≠ .step 0 →
      I (record ++ w.deeds move) w')
    (hmain : ∀ record w w', I record w → w.step 0 = some w' →
      I (record ++ w.deeds (.step 0)) w' ∨
        w'.Assures error goal (record ++ w.deeds (.step 0))) :
    w.Assures error goal record := by
  intro moves v hcourse hreturned
  induction moves generalizing w record with
  | nil =>
    obtain rfl := Option.some.inj hcourse
    rw [World.record, List.append_nil]
    exact hend record w h hreturned
  | cons move moves ih =>
    obtain ⟨z, hmove, hlater⟩ := Option.bind_eq_some_iff.mp hcourse
    rw [World.record, hmove, Option.elim_some, ← List.append_assoc]
    by_cases hme : move = .step 0
    · subst hme
      obtain hkept | hassures := hmain record w z h hmove
      · exact ih hkept hlater
      · exact hassures moves v hlater hreturned
    · exact ih (hother record w z move h hmove hme) hlater

/-- A thread that has something to do has not returned. -/
theorem not_returned {answer : Answer} (hagenda : w.agendas[0]? = some (task :: rest)) :
    ¬ w.HasReturned answer := by
  rintro ⟨thread, hthread, hempty, -⟩
  rw [agendas, List.getElem?_map, hthread, Option.map_some, hempty] at hagenda
  cases hagenda

/-- A main thread that has come to its end otherwise does not return with a failure. -/
theorem assures_of_over {thread : Thread} (hthread : w.threads[0]? = some thread)
    (hagenda : thread.agenda = [])
    (hover : thread.broken ≠ none ∨ thread.answer ≠ .failed error) :
    w.Assures error goal record := by
  refine assures_of_invariant (I := fun _ w => w.threads[0]? = some thread) hthread
    (fun record w h hreturned => ?_)
    (fun _ w w' move h hmove hother => move_threads_ne hmove hother h)
    fun record w w' h hstep => ?_
  · obtain ⟨found, hfound, -, hbroken, hanswer⟩ := hreturned
    obtain rfl := Option.some.inj (h.symm.trans hfound)
    obtain hover | hover := hover
    · exact absurd hbroken hover
    · exact absurd hanswer hover
  · obtain ⟨expired, task, rest, progress, hturn⟩ := step_turn hstep
    have hnothing := hturn.agenda
    rw [agendas, List.getElem?_map, h, Option.map_some, hagenda] at hnothing
    cases hnothing

/-- A main thread that has nothing left to do but to say that all went well does not return with a
failure. -/
theorem assures_of_success (hagenda : w.agendas[0]? = some [.answer .ok]) :
    w.Assures error goal record := by
  have hthread := exists_thread hagenda
  refine assures_of_invariant
    (I := fun _ w => ∃ thread, w.threads[0]? = some thread ∧ thread.agenda = [.answer .ok]) hthread
    (fun record w h hreturned => ?_) (fun record w w' move h hmove hother => ?_)
    fun record w w' h hstep => .inr ?_
  all_goals obtain ⟨thread, hthread, hagenda⟩ := h
  · exact absurd hreturned
      (not_returned (by rw [agendas, List.getElem?_map, hthread, ← hagenda]; rfl))
  · exact ⟨thread, move_threads_ne hmove hother hthread, hagenda⟩
  obtain ⟨expired, task, rest, progress, hturn⟩ := step_turn hstep
  have hbefore : w.agendas[0]? = some [.answer .ok] := by
    rw [agendas, List.getElem?_map, hthread, ← hagenda]
    rfl
  obtain ⟨rfl, rfl⟩ : .answer .ok = task ∧ [] = rest :=
    List.cons.inj (Option.some.inj (hbefore.symm.trans hturn.agenda))
  have hanswer := hturn.answerOf_answer
  have hlater := hturn.agenda_me
  obtain rfl := Option.some.inj hturn.performs
  obtain ⟨thread', hthread', hempty⟩ : ∃ thread, w'.threads[0]? = some thread ∧
      thread.agenda = [] := by simpa [agendas, Progress.next] using hlater
  rw [answerOf, hthread'] at hanswer
  have htold : thread'.answer = .ok := hanswer
  exact assures_of_over hthread' hempty (.inr (by rw [htold]; simp))

/-- A main thread that breaks down does not return. -/
theorem assures_of_breakDown {text : String}
    (hturn : w.Turn 0 expired task rest (.breakDown v text) w') :
    w'.Assures error goal record := by
  have hagenda := hturn.agenda_me
  obtain ⟨thread, hthread, hempty⟩ : ∃ thread, w'.threads[0]? = some thread ∧
      thread.agenda = [] := by simpa [agendas, Progress.next] using hagenda
  refine assures_of_over hthread hempty (.inl ?_)
  rw [hturn.resumes] at hthread
  simp only [Progress.resume, changeThread, List.getElem?_modify_eq] at hthread
  obtain ⟨before, -, rfl⟩ := Option.map_eq_some_iff.mp hthread
  simp [Thread.breakDown]

/-- Wherever there is such a scene, the goal holds when the main thread has failed. -/
def Safe (built : World P) (error : StreamError) (goal : List Deed → World P → Prop)
    (σ : Instance → Standing) (told : Answer) (agenda : List Task) : Prop :=
  ∀ (w : World P) record, w.Scene built σ told agenda record → w.Assures error goal record

/-- What a turn of the main thread with one plugin leads to: a standing of the plugin with which
what is left is safe, or nothing is left. -/
inductive Leads (built : World P) (error : StreamError) (goal : List Deed → World P → Prop)
    (σ : Instance → Standing) (told : Answer) (rest : List Task) (i : Instance) (w : World P)
    (record : List Deed) : Progress P → Prop
  | goOn {v : World P} {todo : List Task} (standing : Standing)
    (hstands : w.Stands record i standing)
    (hsafe : Safe built error goal (Function.update σ i standing) told (todo ++ rest)) :
    Leads built error goal σ told rest i w record (.goOn v todo)
  | breakDown {v : World P} {text : String} :
    Leads built error goal σ told rest i w record (.breakDown v text)

namespace Safe

/-- What a turn of the main thread has to lead to. -/
theorem of_turn
    (h : ∀ (w w' : World P) record expired progress, w.Scene built σ told (task :: rest) record →
      w.step 0 = some w' → w.Turn 0 expired task rest progress w' →
      w'.Assures error goal (record ++ w.deedsOf 0 expired task)) :
    Safe built error goal σ told (task :: rest) := by
  intro w record hscene
  refine assures_of_invariant
    (I := fun record w => w.Scene built σ told (task :: rest) record) hscene
    (fun record w h hreturned => absurd hreturned (not_returned h.agenda_eq))
    (fun record w w' move h hmove hother => h.other hmove hother) fun record w w' hscene hstep => ?_
  obtain ⟨expired, first, later, progress, hturn⟩ := step_turn hstep
  obtain ⟨rfl, rfl⟩ : task = first ∧ rest = later :=
    List.cons.inj (Option.some.inj (hscene.agenda_eq.symm.trans hturn.agenda))
  rw [hturn.deeds]
  exact .inr (h w w' record expired progress hscene hstep hturn)

/-- A task that is about no plugin changes no standing. -/
theorem of_free (hsubject : task.subject? = none) (hsilent : ∀ answer, task ≠ .answer answer)
    (h : ∀ (w : World P) record expired progress, w.Scene built σ told (task :: rest) record →
      w.perform 0 expired task = some progress → ∃ v todo, progress = .goOn v todo ∧
        v.streams = w.streams ∧ Safe built error goal σ told (todo ++ rest)) :
    Safe built error goal σ told (task :: rest) := by
  refine of_turn fun w w' record expired progress hscene hstep hturn => ?_
  obtain ⟨v, todo, rfl, hstreams, hsafe⟩ := h w record expired progress hscene hturn.performs
  refine hsafe w' _ (hscene.turn_free hstep hturn (fun j hj => ?_) hstreams hsilent)
  rw [hsubject] at hj
  cases hj

/-- A task that is about one plugin changes the standing of that plugin. -/
theorem of_subject (hsubject : task.subject? = none ∨ task.subject? = some i)
    (hsilent : ∀ answer, task ≠ .answer answer) (hunit : ∀ part, task ≠ .stream part)
    (h : ∀ (w w' : World P) record expired progress, w.Scene built σ told (task :: rest) record →
      w.Stands record i (σ i) → w.Turn 0 expired task rest progress w' →
      Leads built error goal σ told rest i w' (record ++ w.deedsOf 0 expired task) progress) :
    Safe built error goal σ told (task :: rest) := by
  refine of_turn fun w w' record expired progress hscene hstep hturn => ?_
  have hstreams := hturn.reaches.streams (hscene.crew.isPlain hturn) hunit
  cases h w w' record expired progress hscene (hscene.stands i) hturn with
  | breakDown => exact assures_of_breakDown hturn
  | goOn standing hstands hsafe =>
    refine hsafe w' _ (hscene.turn hstep hturn hstands (fun j hj hother => ?_) hstreams hsilent)
    obtain hsubject | hsubject := hsubject
    · exact absurd (hsubject.symm.trans hother) (by simp)
    · exact absurd (Option.some.inj (hsubject.symm.trans hother)) (Ne.symm hj)

/-- The main thread takes note of an answer. -/
theorem answer (answer : Answer) (h : Safe built error goal σ answer rest) :
    Safe built error goal σ told (.answer answer :: rest) := by
  refine of_turn fun w w' record expired progress hscene hstep hturn => h w' _ ?_
  have hplain := hscene.crew.isPlain hturn
  have haside (j : Instance) : Task.IsAside (.answer answer) 0 j := fun hj => by cases hj
  have htold := hturn.answerOf_answer
  have hmove : w.move (.step 0) = some w' := hstep
  obtain rfl := Option.some.inj hturn.performs
  exact ⟨hscene.crew.move hmove, (hturn.frame_eq hplain).trans hscene.frame_eq,
    hturn.streams.trans hscene.streams_eq, fun j => (hscene.stands j).turn hturn hplain (haside j),
    hturn.agenda_me, htold⟩

end Safe

end World
end EventPipeline
