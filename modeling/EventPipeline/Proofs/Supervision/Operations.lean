import EventPipeline.Proofs.Supervision.Candor

/-!
# `EventPipeline.Proofs.Supervision.Operations`: what an operation leaves behind

A thread that does an operation passes through few positions, and other threads cannot
disturb it there: they leave its agenda alone (`meet_thread`), and while it holds the lock
they leave the running streams alone (`Governed.meet_steady`). So what an operation has done by
the time it returns is read off its positions:

* `Operates.refused`: one that was refused and has stopped nothing has changed nothing that
  the supervisor shows;
* `Operates.restart_failed`: a restart that failed leaves its stream not running, unless it
  did not get the lock.
-/

set_option autoImplicit false

namespace EventPipeline

/-- The task is part of an operation and starts no stream. -/
def Task.isStop : Task → Bool
  | .answer _ | .control (.stopLocked _) | .control (.stopAll ..)
  | .control (.stoppedOne ..) => true
  | _ => false

namespace World

variable {P : Plugins} {w v u : World P} {t : Nat} {p q : World P → Prop}
  {occurrence : Occurrence P} {before occurrences : List (Occurrence P)}

/-! ## Courses, seen from one thread -/

/-- A course that begins with another one. -/
theorem undergo_append (before after : List (Occurrence P)) :
    w.undergo (before ++ after) = (w.undergo before).bind (·.undergo after) := by
  induction before generalizing w with
  | nil => rfl
  | cons occurrence before ih =>
    simp only [List.cons_append, undergo]
    cases w.meet occurrence with
    | none => rfl
    | some v => exact ih

namespace AtSteps

theorem nil : w.AtSteps t [] p := fun before _ hbefore _ => by
  simp at hbefore

theorem cons (h : p w) (hmeet : w.meet occurrence = some v) (hrest : v.AtSteps t occurrences p) :
    w.AtSteps t (occurrence :: occurrences) p := by
  intro before u hbefore hu
  cases before with
  | nil =>
    obtain rfl := Option.some.inj hu
    exact h
  | cons first before =>
    obtain ⟨rfl, hlater⟩ := List.cons_prefix_cons.mp hbefore
    exact hrest before u hlater (by simpa [undergo, hmeet] using hu)

theorem and (h : w.AtSteps t occurrences p) (h' : w.AtSteps t occurrences q) :
    w.AtSteps t occurrences fun u => p u ∧ q u :=
  fun before u hbefore hu => ⟨h before u hbefore hu, h' before u hbefore hu⟩

theorem take (h : w.AtSteps t occurrences p) (hbefore : before <+: occurrences) :
    w.AtSteps t before p :=
  fun earlier u hearlier hu => h earlier u (hearlier.trans hbefore) hu

theorem drop (h : w.AtSteps t (before ++ occurrences) p) (hu : w.undergo before = some u) :
    u.AtSteps t occurrences p := by
  intro earlier x hearlier hx
  refine h (before ++ earlier) x ?_ (by rw [undergo_append, hu]; exact hx)
  rw [List.append_assoc]
  exact (List.prefix_append_right_inj before).mpr hearlier

/-- What the steps of the thread and everything else keep holds at the end of the course. -/
theorem keeps (h : w.AtSteps t occurrences p)
    (hown : ∀ {w v : World P}, q w → p w → w.step t = some v → q v)
    (hothers : ∀ {w v : World P} {occurrence}, q w → occurrence ≠ .move (.step t) →
      w.meet occurrence = some v → q v)
    (hw : q w) (hundergo : w.undergo occurrences = some v) : q v := by
  induction occurrences generalizing w with
  | nil =>
    obtain rfl := Option.some.inj hundergo
    exact hw
  | cons occurrence occurrences ih =>
    obtain ⟨u, hmeet, hundergo⟩ := Option.bind_eq_some_iff.mp hundergo
    have hlater : u.AtSteps t occurrences p :=
      drop (show w.AtSteps t ([occurrence] ++ occurrences) p from h) (by simp [undergo, hmeet])
    refine ih hlater ?_ hundergo
    by_cases hstep : occurrence = .move (.step t)
    · subst hstep
      exact hown hw (h [] w (by simp) rfl) hmeet
    · exact hothers hw hstep hmeet

end AtSteps

/-- A thread that has something to do is not back with nothing. -/
theorem not_isBack_nil {task : Task} {rest : List Task}
    (h : w.agendas[t]? = some (task :: rest)) : ¬ w.IsBack t [] := by
  rintro ⟨thread, hthread, hagenda⟩
  simp [agendas, hthread, hagenda] at h

/-- Only a thread itself changes what it has to do. -/
theorem meet_thread {thread : Thread} (hmeet : w.meet occurrence = some v)
    (hoccurrence : occurrence ≠ .move (.step t)) (hthread : w.threads[t]? = some thread) :
    v.threads[t]? = some thread := by
  by_cases hstep : ∃ me, occurrence = .move (.step me)
  · obtain ⟨me, rfl⟩ := hstep
    exact step_threads_ne hmeet (fun heq => hoccurrence (heq ▸ rfl)) hthread
  · obtain ⟨-, -, spawned, -, hthreads⟩ := meet_steady hmeet fun me heq => hstep ⟨me, heq⟩
    rw [hthreads, List.getElem?_append_left (List.getElem?_eq_some_iff.mp hthread).1, hthread]

/-- What a thread knows and has to do after a step. -/
theorem resume_thread {thread : Thread} {todo : List Task} (hthread : v.threads[t]? = some thread) :
    ((Progress.goOn v todo).resume t).threads[t]? = some (thread.goOn todo v.clock) := by
  simp [Progress.resume, changeThread, hthread]

/-- A step of a thread whose first task is known. -/
theorem step_eq {thread : Thread} {task : Task} {rest : List Task}
    (hthread : w.threads[t]? = some thread) (hagenda : thread.agenda = task :: rest)
    (hstep : w.step t = some v) :
    ∃ progress, w.perform t (w.expired thread) task = some progress ∧ v = progress.resume t := by
  obtain ⟨thread', task', rest', progress, hthread', hagenda', hperform, rfl⟩ := step_perform hstep
  obtain rfl : thread = thread' := Option.some.inj (hthread.symm.trans hthread')
  obtain ⟨rfl, -⟩ := List.cons.inj (hagenda.symm.trans hagenda')
  exact ⟨progress, hperform, rfl⟩

/-- A thread that is in the middle of an operation holds the lock. -/
theorem Governed.holds {agenda : List Task} (h : w.Governed)
    (hagenda : w.agendas[t]? = some agenda) (hcritical : ¬ Free agenda) :
    w.supervisor.locked = true ∧ FreeBut (some t) w.agendas := by
  cases h.lock with
  | unlocked locked others => exact absurd (others t agenda (by simp) hagenda) hcritical
  | held holder body rest locked _ _ others =>
    by_cases hholder : t = holder
    · exact ⟨locked, hholder ▸ others⟩
    · exact absurd (others t agenda (by simpa using hholder) hagenda) hcritical

/-- While a thread is in the middle of an operation, nothing but its own steps changes the
tables. -/
theorem Governed.meet_steady {agenda : List Task} (h : w.Governed)
    (hagenda : w.agendas[t]? = some agenda) (hcritical : ¬ Free agenda)
    (hmeet : w.meet occurrence = some v) (hoccurrence : occurrence ≠ .move (.step t)) :
    Steady w v := by
  obtain ⟨hlocked, hothers⟩ := h.holds hagenda hcritical
  by_cases hstep : ∃ me, occurrence = .move (.step me)
  · obtain ⟨me, rfl⟩ := hstep
    obtain ⟨thread, _, _, _, hthread, -⟩ := step_perform hmeet
    have hme : w.agendas[me]? = some thread.agenda := by simp [agendas, hthread]
    refine step_steady hlocked hme (hothers me _ ?_ hme) hmeet
    rintro ⟨⟩
    exact hoccurrence rfl
  · exact (World.meet_steady hmeet fun me heq => hstep ⟨me, heq⟩).1

/-! ## What the supervisor shows -/

/-- The supervisor shows the same when its tables are the same and no incarnation that was
given up has ended. -/
theorem ShowsAlike.of_tables (hruntime : v.supervisor.runtime = w.supervisor.runtime)
    (hstreams : v.supervisor.streams = w.supervisor.streams)
    (habandoned : v.supervisor.abandoned = w.supervisor.abandoned)
    (halive : ∀ entry ∈ w.supervisor.abandoned, v.isAlive entry.2 = w.isAlive entry.2) :
    w.ShowsAlike v where
  running := congrArg Fields.names hruntime
  abandoned := by
    unfold abandonedStreams
    rw [habandoned, List.filter_congr halive]
  runtime := hruntime
  streams := hstreams

/-- Threads that change without a breakdown leave every incarnation alive. -/
theorem isAlive_congr {i : Nat} (hincarnations : v.incarnations[i]? = w.incarnations[i]?)
    (hbroken : ∀ t, v.brokenOf t = w.brokenOf t) : v.isAlive i = w.isAlive i := by
  simp [isAlive, hincarnations, hbroken]

/-- No thread breaks down by a change that does not break one. -/
theorem brokenOf_modify {f : Thread → Thread} (hf : ∀ thread, (f thread).broken = thread.broken)
    (h : v.threads = w.threads.modify t f) (i : Nat) : v.brokenOf i = w.brokenOf i := by
  simp only [brokenOf, h, List.getElem?_modify]
  cases w.threads[i]? with
  | none => rfl
  | some thread =>
    by_cases hi : t = i
    · simp [hi, hf]
    · simp [hi]

/-- A step shows nothing new that leaves the supervisor's tables and all incarnations alone. -/
theorem ShowsAlike.of_step {todo : List Task}
    (hruntime : v.supervisor.runtime = w.supervisor.runtime)
    (hstreams : v.supervisor.streams = w.supervisor.streams)
    (habandoned : v.supervisor.abandoned = w.supervisor.abandoned)
    (hincarnations : v.incarnations = w.incarnations)
    (hbroken : ∀ i, v.brokenOf i = w.brokenOf i) :
    w.ShowsAlike ((Progress.goOn v todo).resume t) := by
  refine .of_tables hruntime hstreams habandoned fun entry _ => isAlive_congr ?_ fun i => ?_
  · exact congrArg (·[entry.2]?) hincarnations
  · exact (brokenOf_modify (f := .goOn todo v.clock) (fun _ => rfl) rfl i).trans (hbroken i)

/-- Taking note of an answer shows nothing new. -/
theorem ShowsAlike.of_answer (answer : Answer) {todo : List Task} : w.ShowsAlike
    ((Progress.goOn (w.changeThread t fun thread => { thread with answer }) todo).resume t) :=
  .of_step rfl rfl rfl rfl
    (brokenOf_modify (f := fun thread => { thread with answer }) (fun _ => rfl) rfl)

/-- The start of an incarnation shows nothing new. -/
theorem ShowsAlike.of_launch {name : String} {todo : List Task} (h : w.Tables) :
    w.ShowsAlike ((Progress.goOn (w.launch name) todo).resume t) := by
  refine .of_tables rfl rfl rfl fun entry hentry => isAlive_congr ?_ fun i => ?_
  · have hfixed := h.abandoned entry.1 entry.2 (Fields.get?_of_mem h.abandonedAscend hentry)
    obtain ⟨incarnation, hincarnation, -⟩ := Option.map_eq_some_iff.mp hfixed
    exact List.getElem?_append_left (List.getElem?_eq_some_iff.mp hincarnation).1
  · refine (brokenOf_modify (v := (Progress.goOn (w.launch name) todo).resume t)
      (f := .goOn todo (w.launch name).clock) (fun _ => rfl) rfl i).trans ?_
    simp only [brokenOf, launch, spawn, addIncarnation]
    by_cases hlt : i < w.threads.length
    · rw [List.getElem?_append_left hlt]
    · rw [List.getElem?_append_right (by omega), List.getElem?_eq_none (l := w.threads) (by omega)]
      cases i - w.threads.length <;> rfl

/-! ## Operations that are refused -/

/-- What an operation still has to do that has neither stopped nor started anything, when it
is the given agenda with what comes later. -/
inductive Early (later : List Task) : List Task → Prop
  | asked (operation : Operation) (limited : Bool) :
    Early later (.control (.operate operation limited) :: later)
  | busy (error : StreamError) : Early later (.answer (.failed error) :: later)
  | entered (body last : List Task) (stops : ∀ task ∈ body, task.isStop = true)
    (starts : last = [] ∨ ∃ name, last = [.control (.startLocked name)]) :
    Early later (body ++ last ++ .control .unlock :: later)
  | back : Early later later

/-- What an operation still has to do that has started an incarnation, and what it knows. -/
inductive Late (later : List Task) : List Task → Answer → Prop
  | waiting (i : Nat) (answer : Answer) :
    Late later (.control (.awaitStarted i) :: .control .unlock :: later) answer
  | telling {told : Answer} (answer : Answer)
    (honest : ∀ error, told = .failed error → error.isRefusal = false) :
    Late later (.answer told :: .control .unlock :: later) answer
  | told {answer : Answer} (honest : ∀ error, answer = .failed error → error.isRefusal = false) :
    Late later (.control .unlock :: later) answer
  | back {answer : Answer} (honest : ∀ error, answer = .failed error → error.isRefusal = false) :
    Late later later answer

/-- What an operation knows that is done is no refusal if it has started an incarnation. -/
theorem Late.honest {agenda later : List Task} {answer : Answer} (h : Late later agenda answer)
    (hback : agenda = later) (error : StreamError) (herror : answer = .failed error) :
    error.isRefusal = false := by
  cases h with
  | waiting | telling => exact absurd (congrArg List.length hback) (by simp [Nat.add_assoc])
  | told honest | back honest => exact honest error herror

/-- An operation consists of stops, and at most one start at its end. -/
theorem early_tasksOf (operation : Operation) (later : List Task) :
    Early later (w.tasksOf operation ++ [.control .unlock] ++ later) := by
  have hentered (body last : List Task) (stops : ∀ task ∈ body, task.isStop = true)
      (starts : last = [] ∨ ∃ name, last = [.control (.startLocked name)]) :
      Early later (body ++ last ++ [.control .unlock] ++ later) := by
    have hentered : Early later (body ++ last ++ .control .unlock :: later) :=
      .entered body last stops starts
    simpa using hentered
  cases operation with
  | start name => exact hentered [] [.control (.startLocked name)] (by simp) (.inr ⟨name, rfl⟩)
  | stop name => exact hentered [.control (.stopLocked name)] [] (by simp [Task.isStop]) (.inl rfl)
  | restart name =>
    exact hentered [.control (.stopLocked name)] [.control (.startLocked name)]
      (by simp [Task.isStop]) (.inr ⟨name, rfl⟩)
  | stopAll =>
    exact hentered [.control (.stopAll w.supervisor.streams.names
      w.supervisor.streams.names.length 0)] [] (by simp [Task.isStop]) (.inl rfl)

/-- The thread goes on with further tasks in the place of its first one. -/
theorem thread_goOn {thread : Thread} {task : Task} {rest : List Task} {answer : Answer}
    (todo : List Task) (hthread : v.threads[t]? = some { thread with answer })
    (hagenda : thread.agenda = task :: rest) :
    ∃ thread', ((Progress.goOn v todo).resume t).threads[t]? = some thread' ∧
      thread'.agenda = todo ++ rest ∧ thread'.answer = answer :=
  ⟨_, resume_thread hthread, by simp [Thread.goOn, hagenda], rfl⟩

/-- A thread takes note of an answer. -/
theorem step_answer {thread : Thread} {rest : List Task} {answer : Answer}
    (hthread : w.threads[t]? = some thread) (hagenda : thread.agenda = .answer answer :: rest)
    (hstep : w.step t = some v) :
    ∃ thread', v.threads[t]? = some thread' ∧ thread'.agenda = rest ∧
      thread'.answer = answer := by
  obtain ⟨progress, hperform, rfl⟩ := step_eq hthread hagenda hstep
  obtain rfl := Option.some.inj hperform
  exact thread_goOn [] (v := w.changeThread t fun thread => { thread with answer })
    (by simp [changeThread, hthread]) hagenda

/-- A step of the thread shows nothing new, and leads to such tasks. -/
structure Idles (w : World P) (t : Nat) (thread : Thread) (progress : Progress P)
    (p : List Task → Prop) : Prop where
  shows : w.ShowsAlike (progress.resume t)
  goes : ∃ u todo answer, progress = .goOn u todo ∧ p todo ∧
    u.threads[t]? = some { thread with answer }

/-- A stop that finds no stream running shows nothing new, and leads to nothing but stops. -/
theorem perform_stop {thread : Thread} {task : Task} {expired : Bool} {progress : Progress P}
    (hthread : w.threads[t]? = some thread) (hstop : task.isStop = true)
    (hstops : ∀ name, task = .control (.stopLocked name) →
      w.supervisor.streams.contains name = false)
    (h : w.perform t expired task = some progress) :
    w.Idles t thread progress fun todo => ∀ task ∈ todo, task.isStop = true := by
  have hquiet (v : World P) (todo : List Task) (htodo : ∀ task ∈ todo, task.isStop = true)
      (hsupervisor : v.supervisor = w.supervisor) (hincarnations : v.incarnations = w.incarnations)
      (hthreads : v.threads = w.threads) :
      w.Idles t thread (.goOn v todo) fun todo => ∀ task ∈ todo, task.isStop = true :=
    ⟨.of_step (by rw [hsupervisor]) (by rw [hsupervisor]) (by rw [hsupervisor]) hincarnations
      (fun _ => by simp [brokenOf, hthreads]), v, todo, _, rfl, htodo, hthreads ▸ hthread⟩
  cases task with
  | answer answer =>
    obtain rfl := Option.some.inj h
    exact ⟨.of_answer answer, _, [], answer, rfl, by simp, by simp [changeThread, hthread]⟩
  | control task =>
    cases task with
    | stopLocked name =>
      have hstopped : w.supervisor.streams.get? name = none := by
        simpa [Fields.contains] using hstops name rfl
      simp only [perform, performControl, stopLocked, hstopped] at h
      obtain rfl := Option.some.inj h
      exact hquiet w _ (by simp [Task.isStop]) rfl rfl rfl
    | stopAll names count abandoned =>
      cases names <;> obtain rfl := Option.some.inj h
      · exact hquiet _ [] (by simp) rfl rfl rfl
      · exact hquiet w _ (by simp [Task.isStop]) rfl rfl rfl
    | stoppedOne names count abandoned =>
      obtain rfl := Option.some.inj h
      exact hquiet w _ (by simp [Task.isStop]) rfl rfl rfl
    | _ => simp [Task.isStop] at hstop
  | _ => simp [Task.isStop] at hstop

/-- A start shows nothing new as long as nobody has waited for it, whether it is refused or
an incarnation was launched. -/
theorem startLocked_idles {thread : Thread} {name : String} {progress : Progress P}
    (htables : w.Tables) (hthread : w.threads[t]? = some thread)
    (h : w.startLocked name = some progress) :
    w.Idles t thread progress fun todo =>
      (∃ error, todo = [.answer (.failed error)]) ∨ ∃ i, todo = [.control (.awaitStarted i)] := by
  have hrefuse (error : StreamError) :
      w.Idles t thread (.goOn w [.answer (.failed error)]) fun todo =>
        (∃ error, todo = [.answer (.failed error)]) ∨
          ∃ i, todo = [.control (.awaitStarted i)] :=
    ⟨.of_step rfl rfl rfl rfl fun _ => rfl, w, _, _, rfl, .inl ⟨error, rfl⟩, hthread⟩
  simp only [startLocked] at h
  split at h
  · exact Option.some.inj h ▸ hrefuse _
  split at h
  · exact Option.some.inj h ▸ hrefuse _
  split at h
  · exact Option.some.inj h ▸ hrefuse _
  obtain rfl := Option.some.inj h
  refine ⟨.of_launch htables, w.launch name, _, thread.answer, rfl, .inr ⟨_, rfl⟩, ?_⟩
  simp only [launch, spawn, addIncarnation]
  rw [List.getElem?_append_left (List.getElem?_eq_some_iff.mp hthread).1, hthread]

/-- An operation that has neither stopped nor started anything shows nothing new with a step,
unless it stops a stream. -/
theorem Early.step {thread : Thread} {later : List Task} (h : Early later thread.agenda)
    (htables : w.Tables) (hthread : w.threads[t]? = some thread)
    (hinside : ¬ w.IsBack t later) (hstops : ¬ w.IsStopping t) (hstep : w.step t = some v) :
    w.ShowsAlike v ∧ ∃ thread', v.threads[t]? = some thread' ∧
      (Early later thread'.agenda ∨ Late later thread'.agenda thread'.answer) := by
  -- it is enough to know to which tasks the first one leads
  have hfinish {task : Task} {rest : List Task} (hagenda : thread.agenda = task :: rest)
      (hidles : ∀ progress, w.perform t (w.expired thread) task = some progress →
        w.Idles t thread progress fun todo =>
          Early later (todo ++ rest) ∨ ∀ answer, Late later (todo ++ rest) answer) :
      w.ShowsAlike v ∧ ∃ thread', v.threads[t]? = some thread' ∧
        (Early later thread'.agenda ∨ Late later thread'.agenda thread'.answer) := by
    obtain ⟨progress, hperform, rfl⟩ := step_eq hthread hagenda hstep
    have hidles := hidles progress hperform
    obtain ⟨u, todo, answer, rfl, htodo, hu⟩ := hidles.goes
    obtain ⟨thread', hthread', hagenda', -⟩ := thread_goOn todo hu hagenda
    exact ⟨hidles.shows, thread', hthread', hagenda' ▸ htodo.imp_right (· thread'.answer)⟩
  generalize hagenda : thread.agenda = agenda at h
  cases h with
  | asked operation limited =>
    refine hfinish hagenda fun progress hperform => ?_
    simp only [perform, performControl, operate] at hperform
    split at hperform
    · split at hperform
      · obtain rfl := Option.some.inj hperform
        exact ⟨.of_step rfl rfl rfl rfl fun _ => rfl, w, _, _, rfl, .inl (.busy _), hthread⟩
      · simp at hperform
    · obtain rfl := Option.some.inj hperform
      exact ⟨.of_step rfl rfl rfl rfl fun _ => rfl, _, _, _, rfl,
        .inl (early_tasksOf operation later), hthread⟩
  | busy error =>
    refine hfinish hagenda fun progress hperform => ?_
    obtain rfl := Option.some.inj hperform
    exact ⟨.of_answer _, _, [], .failed error, rfl, .inl .back, by simp [changeThread, hthread]⟩
  | entered body last stops starts =>
    cases body with
    | cons task body =>
      refine hfinish hagenda fun progress hperform => ?_
      have hidles := perform_stop hthread (stops task (by simp)) (fun name heq => ?_) hperform
      · refine ⟨hidles.shows, hidles.goes.imp fun _ => .imp fun todo => .imp fun _ => ?_⟩
        refine .imp_right (.imp_left fun htodo => .inl ?_)
        have hentered : Early later ((todo ++ body) ++ last ++ .control .unlock :: later) :=
          .entered (todo ++ body) last (fun task htask =>
            (List.mem_append.mp htask).elim (htodo task) fun h => stops task (by simp [h])) starts
        simpa using hentered
      · subst heq
        by_contra hruns
        exact hstops ⟨thread, name, _, hthread, hagenda, by simpa using hruns⟩
    | nil =>
      obtain rfl | ⟨name, rfl⟩ := starts
      · refine hfinish hagenda fun progress hperform => ?_
        obtain rfl := Option.some.inj hperform
        exact ⟨.of_step rfl rfl rfl rfl fun _ => rfl, _, [], _, rfl, .inl .back, hthread⟩
      · refine hfinish hagenda fun progress hperform => ?_
        have hidles := startLocked_idles htables hthread hperform
        refine ⟨hidles.shows, hidles.goes.imp fun _ => .imp fun todo => .imp fun _ => ?_⟩
        refine .imp_right (.imp_left ?_)
        rintro (⟨error, rfl⟩ | ⟨i, rfl⟩)
        · exact .inl (.entered [.answer (.failed error)] [] (by simp [Task.isStop]) (.inl rfl))
        · exact .inr fun answer => .waiting i answer
  | back => exact absurd ⟨thread, hthread, hagenda⟩ hinside

/-- A start that somebody waited for is told no refusal, and changes the running streams only
when it went well. -/
theorem awaitStarted_tells {i : Nat} {expired : Bool} {progress : Progress P} (h : w.Candid)
    (hperform : w.awaitStarted expired i = some progress) :
    ∃ u told, progress = .goOn u [.answer told] ∧ u.threads = w.threads ∧
      (∀ error, told = .failed error → error.isRefusal = false) ∧
      (told = .ok ∨ u.supervisor.streams = w.supervisor.streams) := by
  obtain ⟨incarnation, hincarnation, hperform⟩ := Option.bind_eq_some_iff.mp hperform
  simp only at hperform
  split at hperform
  · obtain rfl := Option.some.inj hperform
    exact ⟨_, _, rfl, rfl, by simp, .inl rfl⟩
  · rename_i error hstarted
    obtain rfl := Option.some.inj hperform
    refine ⟨_, _, rfl, rfl, ?_, .inr rfl⟩
    rintro _ ⟨⟩
    exact h.started incarnation (List.mem_of_getElem? hincarnation) error hstarted
  · split at hperform
    · obtain rfl := Option.some.inj hperform
      refine ⟨_, _, rfl, rfl, ?_, .inr rfl⟩
      rintro _ ⟨⟩
      rfl
    · split at hperform
      · obtain rfl := Option.some.inj hperform
        obtain ⟨hsupervisor, hthreads⟩ := abandon_supervisor w i
        refine ⟨_, _, rfl, hthreads, ?_, .inr (congrArg (·.streams) hsupervisor :)⟩
        rintro _ ⟨⟩
        rfl
      · simp at hperform

/-- An operation that has started an incarnation is never told a refusal. -/
theorem Late.step {thread : Thread} {later : List Task}
    (h : Late later thread.agenda thread.answer) (hcandid : w.Candid)
    (hthread : w.threads[t]? = some thread) (hinside : ¬ w.IsBack t later)
    (hstep : w.step t = some v) :
    ∃ thread', v.threads[t]? = some thread' ∧ Late later thread'.agenda thread'.answer := by
  generalize hagenda : thread.agenda = agenda at h
  generalize hknows : thread.answer = knows at h
  cases h with
  | waiting i =>
    obtain ⟨progress, hperform, rfl⟩ := step_eq hthread hagenda hstep
    obtain ⟨u, told, rfl, hthreads, honest, -⟩ := awaitStarted_tells hcandid hperform
    obtain ⟨thread', hthread', hagenda', -⟩ := thread_goOn _ (hthreads ▸ hthread) hagenda
    exact ⟨thread', hthread', hagenda' ▸ .telling _ honest⟩
  | telling _ honest =>
    rename_i told
    obtain ⟨thread', hthread', hagenda', hanswer⟩ := step_answer hthread hagenda hstep
    exact ⟨thread', hthread', by rw [hagenda', hanswer]; exact .told honest⟩
  | told honest =>
    obtain ⟨progress, hperform, rfl⟩ := step_eq hthread hagenda hstep
    obtain rfl := Option.some.inj hperform
    obtain ⟨thread', hthread', hagenda', hanswer⟩ := thread_goOn []
      (v := w.changeSupervisor fun s => { s with locked := false }) hthread hagenda
    exact ⟨thread', hthread', by rw [hagenda', hanswer, hknows]; exact .back honest⟩
  | back => exact absurd ⟨thread, hthread, hagenda⟩ hinside

/-- An operation that has started an incarnation remains one of which nobody is told a
refusal. -/
theorem AtSteps.late {thread : Thread} {later : List Task}
    (h : w.AtSteps t occurrences fun u => ¬ u.IsBack t later) (hcandid : w.Candid)
    (hthread : w.threads[t]? = some thread) (hlate : Late later thread.agenda thread.answer)
    (hundergo : w.undergo occurrences = some v) :
    ∃ thread, v.threads[t]? = some thread ∧ Late later thread.agenda thread.answer := by
  refine (h.keeps (q := fun u => u.Candid ∧ ∃ thread, u.threads[t]? = some thread ∧
    Late later thread.agenda thread.answer) ?_ ?_ ⟨hcandid, thread, hthread, hlate⟩ hundergo).2
  · rintro w v ⟨hcandid, thread, hthread, hlate⟩ hinside hstep
    exact ⟨hcandid.step hstep, hlate.step hcandid hthread hinside hstep⟩
  · rintro w v occurrence ⟨hcandid, thread, hthread, hlate⟩ hne hmeet
    exact ⟨hcandid.meet hmeet, thread, meet_thread hmeet hne hthread, hlate⟩

/-- An operation that stops no stream has changed nothing, or has started an incarnation. -/
theorem AtSteps.early {thread : Thread} {later : List Task}
    (h : w.AtSteps t occurrences fun u => ¬ u.IsBack t later ∧ ¬ u.IsStopping t)
    (hgoverned : w.Governed) (hcandid : w.Candid) (hthread : w.threads[t]? = some thread)
    (hearly : Early later thread.agenda) (hundergo : w.undergo occurrences = some v) :
    ∃ thread, v.threads[t]? = some thread ∧
      (Early later thread.agenda ∨ Late later thread.agenda thread.answer) := by
  refine (h.keeps (q := fun u => u.Governed ∧ u.Candid ∧ ∃ thread, u.threads[t]? = some thread ∧
    (Early later thread.agenda ∨ Late later thread.agenda thread.answer)) ?_ ?_
    ⟨hgoverned, hcandid, thread, hthread, .inl hearly⟩ hundergo).2.2
  · rintro w v ⟨hgoverned, hcandid, thread, hthread, hearly | hlate⟩ ⟨hinside, hstops⟩ hstep
    · exact ⟨hgoverned.step hstep, hcandid.step hstep,
        (hearly.step hgoverned.tables hthread hinside hstops hstep).2⟩
    · obtain ⟨thread', hthread', hlate'⟩ := hlate.step hcandid hthread hinside hstep
      exact ⟨hgoverned.step hstep, hcandid.step hstep, thread', hthread', .inr hlate'⟩
  · rintro w v occurrence ⟨hgoverned, hcandid, thread, hthread, hposition⟩ hne hmeet
    exact ⟨hgoverned.meet hmeet, hcandid.meet hmeet, thread, meet_thread hmeet hne hthread,
      hposition⟩

/-- An operation that was refused, and has stopped no stream, changes nothing with its steps
that the supervisor shows. -/
theorem Operates.refused {operation : Operation} {later : List Task} {error : StreamError}
    (h : w.Operates t operation later (.failed error) occurrences v) (hgoverned : w.Governed)
    (hcandid : w.Candid) (hrefusal : error.isRefusal = true)
    (hstops : w.AtSteps t occurrences fun u => ¬ u.IsStopping t) :
    w.AtSteps t occurrences fun u => ∀ u', u.step t = some u' → u.ShowsAlike u' := by
  intro before u hbefore hu u' hstep
  obtain ⟨limited, thread, hthread, hagenda⟩ := h.begins
  have hatSteps := (h.inside.and hstops).take ((List.prefix_append ..).trans hbefore)
  obtain ⟨thread, hthread, hearly | hlate⟩ := hatSteps.early hgoverned hcandid hthread
    (hagenda ▸ .asked operation limited) hu
  · exact (hearly.step (hgoverned.undergo hu).tables hthread (h.inside before u hbefore hu)
      (hstops before u hbefore hu) hstep).1
  · -- the operation would not have been told a refusal
    obtain ⟨after, rfl⟩ := (List.prefix_append before _).trans hbefore
    obtain ⟨thread, hthread, hlate⟩ := (h.inside.drop hu).late (hcandid.undergo hu) hthread hlate
      (by simpa [undergo_append, hu] using h.course)
    obtain ⟨thread', hthread', hagenda⟩ := h.back
    obtain rfl : thread = thread' := Option.some.inj (hthread.symm.trans hthread')
    have hanswer : thread.answer = .failed error := by
      simpa [answerOf, hthread] using h.answer
    simp [hlate.honest hagenda error hanswer] at hrefusal

/-! ## Restarts that fail -/

/-- What a restart still has to do, and what it knows, given whether its stream runs. -/
inductive Restarting (name : String) (later : List Task) : Bool → List Task → Answer → Prop
  | asked (running : Bool) (answer : Answer) (limited : Bool) :
    Restarting name later running (.control (.operate (.restart name) limited) :: later) answer
  | busy (running : Bool) (answer : Answer) (within : Duration) :
    Restarting name later running (.answer (.failed (.controllerBusy within)) :: later) answer
  | stopping (running : Bool) (answer : Answer) : Restarting name later running
    (.control (.stopLocked name) :: .control (.startLocked name) :: .control .unlock :: later)
    answer
  | stopped (answer : Answer) (i : Nat) : Restarting name later false
    (.control (.awaitStopped i) :: .control (.startLocked name) :: .control .unlock :: later)
    answer
  | told (answer told : Answer) : Restarting name later false
    (.answer told :: .control (.startLocked name) :: .control .unlock :: later) answer
  | starting (answer : Answer) : Restarting name later false
    (.control (.startLocked name) :: .control .unlock :: later) answer
  | started (answer : Answer) (i : Nat) : Restarting name later false
    (.control (.awaitStarted i) :: .control .unlock :: later) answer
  | failing (answer told : Answer) :
    Restarting name later false (.answer told :: .control .unlock :: later) answer
  | failed (answer : Answer) : Restarting name later false (.control .unlock :: later) answer
  | succeeding (running : Bool) (answer : Answer) :
    Restarting name later running (.answer .ok :: .control .unlock :: later) answer
  | succeeded (running : Bool) : Restarting name later running (.control .unlock :: later) .ok

/-- A restart that does not wait for the lock holds it. -/
theorem Restarting.holds {name : String} {later agenda : List Task} {running : Bool}
    {answer : Answer} (h : Restarting name later running agenda answer) :
    ¬ Free agenda ∨ ∀ running, Restarting name later running agenda answer := by
  cases h with
  | asked | busy => right; intro running; constructor
  | _ => exact .inl fun hfree => by simpa using hfree (.control .unlock) (by simp)

/-- A restart that is at some position is not done. -/
theorem Restarting.ne {name : String} {later agenda : List Task} {running : Bool}
    {answer : Answer} (h : Restarting name later running agenda answer) : agenda ≠ later := by
  intro hback
  cases h <;> exact absurd (congrArg List.length hback) (by simp [Nat.add_assoc])

/-- A restart is done that knows the answer: it did not get the lock, or it has given it back,
and its stream does not run if it was told an error. -/
inductive Restarted (w : World P) (name : String) : Answer → Prop
  | busy (within : Duration) : Restarted w name (.failed (.controllerBusy within))
  | stopped (answer : Answer) (locked : w.supervisor.locked = false)
    (stopped : w.supervisor.streams.contains name = false) : Restarted w name answer
  | ok : Restarted w name .ok

/-- Whoever waits for an incarnation to end leaves the running streams alone. -/
theorem awaitStopped_tells {i : Nat} {expired : Bool} {progress : Progress P}
    (h : w.awaitStopped expired i = some progress) :
    ∃ u told, progress = .goOn u [.answer told] ∧ u.threads = w.threads ∧
      u.supervisor.streams = w.supervisor.streams := by
  obtain ⟨incarnation, -, h⟩ := Option.bind_eq_some_iff.mp h
  simp only at h
  split at h
  · obtain rfl := Option.some.inj h
    exact ⟨_, _, rfl, rfl, rfl⟩
  · split at h
    · obtain rfl := Option.some.inj h
      obtain ⟨hsupervisor, hthreads⟩ := abandon_supervisor w i
      exact ⟨_, _, rfl, hthreads, (congrArg (·.streams) hsupervisor :)⟩
    · simp at h

/-- Each step of a restart leads to its next position, or is the last one. -/
theorem Restarting.step {name : String} {later : List Task} {thread : Thread}
    (h : Restarting name later (w.supervisor.streams.contains name) thread.agenda thread.answer)
    (hcandid : w.Candid) (htables : w.Tables)
    (hthread : w.threads[t]? = some thread) (hstep : w.step t = some v) :
    ∃ thread', v.threads[t]? = some thread' ∧
      (Restarting name later (v.supervisor.streams.contains name) thread'.agenda
          thread'.answer ∨
        thread'.agenda = later ∧ Restarted v name thread'.answer) := by
  have hgo {u : World P} {task : Task} {rest : List Task} {answer : Answer} (todo : List Task)
      (hagenda : thread.agenda = task :: rest) (hu : u.threads[t]? = some { thread with answer })
      (hnext : Restarting name later (u.supervisor.streams.contains name) (todo ++ rest) answer ∨
        todo ++ rest = later ∧ Restarted ((Progress.goOn u todo).resume t) name answer) :
      ∃ thread', ((Progress.goOn u todo).resume t).threads[t]? = some thread' ∧
        (Restarting name later
            (((Progress.goOn u todo).resume t).supervisor.streams.contains name) thread'.agenda
            thread'.answer ∨
          thread'.agenda = later ∧
            Restarted ((Progress.goOn u todo).resume t) name thread'.answer) := by
    obtain ⟨thread', hthread', hagenda', hanswer⟩ := thread_goOn todo hu hagenda
    exact ⟨thread', hthread', by rw [hagenda', hanswer]; exact hnext⟩
  have hanswered (answer : Answer) :
      (w.changeThread t fun thread => { thread with answer }).threads[t]? =
        some { thread with answer } := by simp [changeThread, hthread]
  generalize hagenda : thread.agenda = agenda at h
  generalize hknows : thread.answer = knows at h
  generalize hrunning : w.supervisor.streams.contains name = running at h
  have hthread' : w.threads[t]? = some { thread with answer := knows } := by rw [← hknows, hthread]
  cases h with
  | asked =>
    obtain ⟨progress, hperform, rfl⟩ := step_eq hthread hagenda hstep
    simp only [perform, performControl, operate] at hperform
    split at hperform
    · split at hperform
      · obtain rfl := Option.some.inj hperform
        exact hgo _ hagenda hthread (.inl (.busy _ _ _))
      · simp at hperform
    · obtain rfl := Option.some.inj hperform
      exact hgo _ hagenda hthread (.inl (.stopping _ _))
  | busy =>
    obtain ⟨progress, hperform, rfl⟩ := step_eq hthread hagenda hstep
    obtain rfl := Option.some.inj hperform
    exact hgo [] hagenda (hanswered _) (.inr ⟨rfl, .busy _⟩)
  | stopping =>
    obtain ⟨progress, hperform, rfl⟩ := step_eq hthread hagenda hstep
    simp only [perform, performControl, stopLocked] at hperform
    split at hperform
    · rename_i hstopped
      obtain rfl := Option.some.inj hperform
      refine hgo _ hagenda hthread (.inl ?_)
      rw [Fields.contains, hstopped]
      exact .told _ _
    · obtain rfl := Option.some.inj hperform
      refine hgo _ hagenda hthread (.inl ?_)
      simp only [changeIncarnation, changeSupervisor, Fields.contains, Fields.get?_erase_self]
      exact .stopped _ _
  | stopped =>
    obtain ⟨progress, hperform, rfl⟩ := step_eq hthread hagenda hstep
    obtain ⟨u, told, rfl, hthreads, hstreams⟩ := awaitStopped_tells hperform
    refine hgo _ hagenda (hthreads ▸ hthread) (.inl ?_)
    rw [hstreams, hrunning]
    exact .told _ _
  | told =>
    obtain ⟨progress, hperform, rfl⟩ := step_eq hthread hagenda hstep
    obtain rfl := Option.some.inj hperform
    exact hgo [] hagenda (hanswered _) (.inl (hrunning ▸ .starting _))
  | starting =>
    obtain ⟨progress, hperform, rfl⟩ := step_eq hthread hagenda hstep
    have hidles := startLocked_idles htables hthread hperform
    obtain ⟨u, todo, answer, rfl, htodo, hu⟩ := hidles.goes
    refine hgo todo hagenda hu (.inl ?_)
    rw [show u.supervisor.streams = w.supervisor.streams from hidles.shows.streams, hrunning]
    obtain ⟨error, rfl⟩ | ⟨i, rfl⟩ := htodo
    · exact .failing _ _
    · exact .started _ _
  | started =>
    obtain ⟨progress, hperform, rfl⟩ := step_eq hthread hagenda hstep
    obtain ⟨u, told, rfl, hthreads, -, hstreams⟩ := awaitStarted_tells hcandid hperform
    refine hgo _ hagenda (hthreads ▸ hthread) (.inl ?_)
    obtain rfl | hstreams := hstreams
    · exact .succeeding _ _
    · rw [hstreams, hrunning]
      exact .failing _ _
  | failing =>
    obtain ⟨progress, hperform, rfl⟩ := step_eq hthread hagenda hstep
    obtain rfl := Option.some.inj hperform
    exact hgo [] hagenda (hanswered _) (.inl (hrunning ▸ .failed _))
  | failed =>
    obtain ⟨progress, hperform, rfl⟩ := step_eq hthread hagenda hstep
    obtain rfl := Option.some.inj hperform
    exact hgo [] hagenda hthread (.inr ⟨rfl, .stopped _ rfl hrunning⟩)
  | succeeding =>
    obtain ⟨progress, hperform, rfl⟩ := step_eq hthread hagenda hstep
    obtain rfl := Option.some.inj hperform
    exact hgo [] hagenda (hanswered _) (.inl (.succeeded _))
  | succeeded =>
    obtain ⟨progress, hperform, rfl⟩ := step_eq hthread hagenda hstep
    obtain rfl := Option.some.inj hperform
    exact hgo [] hagenda hthread' (.inr ⟨rfl, .ok⟩)

/-- Nothing but its own steps brings a restart to another position. -/
theorem Restarting.meet {name : String} {later : List Task} {thread : Thread}
    (h : Restarting name later (w.supervisor.streams.contains name) thread.agenda thread.answer)
    (hgoverned : w.Governed) (hthread : w.threads[t]? = some thread)
    (hmeet : w.meet occurrence = some v) (hne : occurrence ≠ .move (.step t)) :
    Restarting name later (v.supervisor.streams.contains name) thread.agenda thread.answer := by
  obtain hcritical | hany := h.holds
  · have hagenda : w.agendas[t]? = some thread.agenda := by simp [agendas, hthread]
    rw [(hgoverned.meet_steady hagenda hcritical hmeet hne).streams]
    exact h
  · exact hany _

/-- A restart that is under way is at one of its positions, or done. -/
theorem AtSteps.restarting {name : String} {later : List Task} {thread : Thread}
    (h : w.AtSteps t occurrences fun u => ¬ u.IsBack t later)
    (hgoverned : w.Governed) (hcandid : w.Candid) (hthread : w.threads[t]? = some thread)
    (hrestarting : Restarting name later (w.supervisor.streams.contains name) thread.agenda
      thread.answer) (hundergo : w.undergo occurrences = some v) :
    ∃ thread, v.threads[t]? = some thread ∧ (thread.agenda = later ∨
      Restarting name later (v.supervisor.streams.contains name) thread.agenda
        thread.answer) := by
  refine (h.keeps (q := fun u => u.Governed ∧ u.Candid ∧ ∃ thread, u.threads[t]? = some thread ∧
    (thread.agenda = later ∨ Restarting name later (u.supervisor.streams.contains name)
      thread.agenda thread.answer)) ?_ ?_
    ⟨hgoverned, hcandid, thread, hthread, .inr hrestarting⟩ hundergo).2.2
  · rintro w v ⟨hgoverned, hcandid, thread, hthread, hback | hrestarting⟩ hinside hstep
    · exact absurd ⟨thread, hthread, hback⟩ hinside
    · obtain ⟨thread', hthread', hnext⟩ :=
        hrestarting.step hcandid hgoverned.tables hthread hstep
      exact ⟨hgoverned.step hstep, hcandid.step hstep, thread', hthread',
        hnext.elim .inr fun hback => .inl hback.1⟩
  · rintro w v occurrence ⟨hgoverned, hcandid, thread, hthread, hposition⟩ hne hmeet
    exact ⟨hgoverned.meet hmeet, hcandid.meet hmeet, thread, meet_thread hmeet hne hthread,
      hposition.imp_right (·.meet hgoverned hthread hmeet hne)⟩

/-- A restart that failed leaves its stream not running, unless it did not get the lock. -/
theorem Operates.restart_failed {name : String} {later : List Task} {error : StreamError}
    (h : w.Operates t (.restart name) later (.failed error) occurrences v)
    (hgoverned : w.Governed) (hcandid : w.Candid)
    (hbusy : ∀ within, error ≠ .controllerBusy within) :
    v.supervisor.streams.contains name = false ∧ name ∉ v.runningStreams := by
  obtain ⟨before, rfl⟩ := h.ends
  obtain ⟨u, hu, hstep⟩ : ∃ u, w.undergo before = some u ∧ u.step t = some v := by
    obtain ⟨u, hu, hlast⟩ := Option.bind_eq_some_iff.mp (undergo_append before _ ▸ h.course)
    obtain ⟨v', hstep, hv⟩ := Option.bind_eq_some_iff.mp hlast
    exact ⟨u, hu, hstep.trans hv⟩
  obtain ⟨limited, thread, hthread, hagenda⟩ := h.begins
  obtain ⟨thread, hthread, hback | hrestarting⟩ :=
    (h.inside.take (List.prefix_append ..)).restarting hgoverned hcandid hthread
      (by rw [hagenda]; exact .asked _ _ limited) hu
  · exact absurd ⟨thread, hthread, hback⟩ (h.inside before u (List.prefix_refl _) hu)
  · obtain ⟨thread', hthread', hnext⟩ :=
      hrestarting.step (hcandid.undergo hu) (hgoverned.undergo hu).tables hthread hstep
    obtain ⟨last, hlast, hback⟩ := h.back
    obtain rfl : thread' = last := Option.some.inj (hthread'.symm.trans hlast)
    have hanswer : thread'.answer = .failed error := by simpa [answerOf, hthread'] using h.answer
    obtain hagain | ⟨-, hrestarted⟩ := hnext
    · exact absurd hback hagain.ne
    · generalize hknows : thread'.answer = knows at hrestarted
      cases hrestarted with
      | busy within =>
        obtain rfl := Answer.failed.inj (hknows.symm.trans hanswer)
        exact absurd rfl (hbusy within)
      | stopped _ locked stopped =>
        refine ⟨stopped, fun hruns => ?_⟩
        cases (hgoverned.undergo h.course).lock with
        | unlocked _ _ names =>
          rw [runningStreams, names, ← Fields.contains_iff, stopped] at hruns
          simp at hruns
        | held _ _ _ held => simp [locked] at held
      | ok => simp [hknows] at hanswer

end World
end EventPipeline
