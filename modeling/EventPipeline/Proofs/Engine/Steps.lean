import EventPipeline.Proofs.Engine.Plan

/-!
# `EventPipeline.Proofs.Engine.Steps`: one step of a world, in outline

`step_cases` gathers what a step of a thread can be: it handles an event, does a turn of a
loop, conducts a start or a stop, takes note of an answer, or breaks down. It holds for
worlds in which nobody supervises streams (`World.Plain`), and those stay so.
-/

set_option autoImplicit false

namespace EventPipeline

/-- The thread goes on with further tasks in the place of its first one. -/
def Thread.goOn (todo : List Task) (since : Nat) (thread : Thread) : Thread :=
  { thread with agenda := todo ++ thread.agenda.tail, since }

/-- The thread breaks down. -/
def Thread.breakDown (text : String) (since : Nat) (thread : Thread) : Thread :=
  { thread with agenda := [], since, broken := some text }

/-- The thread takes note of an answer. -/
def Thread.note (answer : Answer) (since : Nat) (thread : Thread) : Thread :=
  { thread with agenda := thread.agenda.tail, since, answer }

/-- What the thread does next that has made the progress. -/
def Progress.todo {P : Plugins} : Progress P → List Task
  | goOn _ todo => todo
  | breakDown .. => []

/-- The world after its thread `me` has made the progress. -/
def Progress.resume {P : Plugins} (me : Nat) : Progress P → World P
  | goOn w todo => w.changeThread me (.goOn todo w.clock)
  | breakDown w text => w.changeThread me (.breakDown text w.clock)

namespace World

variable {P : Plugins} {w w' : World P} {me : Nat}

/-- What every thread still has to do. -/
def agendas (w : World P) : List (List Task) :=
  w.threads.map (·.agenda)

/-- What is to do some thread has to do. -/
theorem exists_thread {j : Nat} {agenda : List Task} (h : w.agendas[j]? = some agenda) :
    ∃ thread, w.threads[j]? = some thread ∧ thread.agenda = agenda := by
  simpa [agendas] using h

/-- Nobody supervises streams. -/
def Plain (w : World P) : Prop :=
  ∀ agenda ∈ w.agendas, ∀ task ∈ agenda, task.isPlain = true

/-- New threads with the given agendas. -/
def newThreads (w : World P) (agendas : List (List Task)) : List Thread :=
  agendas.map fun agenda => { agenda, since := w.clock }

/-- What a step of the thread `me` that does the given task makes of a world. -/
inductive StepsTo (w : World P) (me : Nat) (task : Task) (w' : World P) : Prop
  | handles (todo : List Task) (since : Nat)
    (h : w.outline.Handles task (w.endedBy? task) w'.outline todo)
    (threads : w'.threads = w.threads.modify me (.goOn todo since))
    (streams : w'.streams = w.streams)
  | turns (todo : List Task) (since : Nat) (h : w.outline.Turns task w'.outline todo)
    (threads : w'.threads = w.threads.modify me (.goOn todo since))
    (streams : w'.streams = w.streams)
  | turnsOver (text : String) (since t v : Nat) (h : task.owner? = some (.source t v))
    (outline : w'.outline = w.outline)
    (threads : w'.threads = w.threads.modify me (.breakDown text since))
    (streams : w'.streams = w.streams)
  | conducts (spawned : List (List Task)) (todo : List Task) (since : Nat)
    (h : w.Conducts me task w'.outline w'.streams spawned todo)
    (threads : w'.threads =
      (w.threads ++ w.newThreads spawned).modify me (.goOn todo since))
  | halts (text : String) (since t v : Nat) (asked : Bool)
    (h : task = .source (.halt t v asked))
    (threads : w'.threads = w.threads.modify me (.breakDown text since))
  | answers (answer : Answer) (since : Nat) (h : task = .answer answer)
    (outline : w'.outline = w.outline)
    (threads : w'.threads = w.threads.modify me (.note answer since))
    (streams : w'.streams = w.streams)

/-- What doing a task that is part of the life of a stream can be. -/
theorem perform_cases {expired : Bool} {task : Task} {progress : Progress P}
    (hplain : task.isPlain = true) (h : w.perform me expired task = some progress) :
    w.HandlesEvent task progress ∨ w.TurnsLoop task progress ∨
      w.ConductsTask me task progress ∨
      ∃ answer, task = .answer answer ∧
        progress = .goOn (w.changeThread me fun thread => { thread with answer }) [] := by
  cases howner : task.owner? with
  | some owner =>
    obtain hhandles | hturns := loop_turns howner h
    · exact .inl hhandles
    · exact .inr (.inl hturns)
  | none =>
    cases task with
    | event task => exact .inl (performEvent_handles h)
    | unit task => exact .inr (.inr (.inl (performUnit_conducts howner h)))
    | source task => exact .inr (.inr (.inl (performSource_conducts howner h)))
    | stream task => exact .inr (.inr (.inl (performStream_conducts h)))
    | control | timer => simp [Task.isPlain] at hplain
    | answer answer =>
      obtain rfl : _ = progress := by simpa [perform, done] using h
      exact .inr (.inr (.inr ⟨answer, rfl, rfl⟩))

/-- A step does the first task of its thread. -/
theorem step_perform (h : w.step me = some w') :
    ∃ thread task rest progress, w.threads[me]? = some thread ∧ thread.agenda = task :: rest ∧
      w.perform me (w.expired thread) task = some progress ∧ w' = progress.resume me := by
  simp only [step, Option.bind_eq_bind, Option.bind_eq_some_iff] at h
  obtain ⟨thread, hthread, task, htask, progress, hperform, h⟩ := h
  refine ⟨thread, task, thread.agenda.tail, progress, hthread,
    List.eq_cons_of_mem_head? htask, hperform, ?_⟩
  cases progress with
  | goOn v todo | breakDown v text => exact (Option.some.inj h).symm

/-- A step is one of the steps that there are. -/
theorem step_cases (hplain : w.Plain) (h : w.step me = some w') :
    ∃ thread task rest, w.threads[me]? = some thread ∧ thread.agenda = task :: rest ∧
      w.StepsTo me task w' := by
  obtain ⟨thread, task, rest, progress, hthread, hagenda, hperform, rfl⟩ := step_perform h
  refine ⟨thread, task, rest, hthread, hagenda, ?_⟩
  have htaskPlain : task.isPlain = true :=
    hplain thread.agenda (List.mem_map_of_mem (List.mem_of_getElem? hthread)) task
      (by simp [hagenda])
  obtain hhandles | hturns | hconducts | ⟨answer, rfl, rfl⟩ := perform_cases htaskPlain hperform
  · cases hhandles with
    | @goOn v todo handles threads streams =>
      exact .handles todo v.clock handles (congrArg (·.modify me (.goOn todo v.clock)) threads)
        streams
  · cases hturns with
    | @goOn v todo turns threads streams =>
      exact .turns todo v.clock turns (congrArg (·.modify me (.goOn todo v.clock)) threads)
        streams
    | @breakDown v text t u owner outline threads streams =>
      exact .turnsOver text v.clock t u owner outline
        (congrArg (·.modify me (.breakDown text v.clock)) threads) streams
  · cases hconducts with
    | @goOn v todo spawned conducts threads =>
      exact .conducts spawned todo v.clock conducts
        (congrArg (·.modify me (.goOn todo v.clock)) threads)
    | @breakDown v text t u asked halts threads =>
      exact .halts text v.clock t u asked halts
        (congrArg (·.modify me (.breakDown text v.clock)) threads)
  · refine .answers answer w.clock rfl rfl ?_ rfl
    exact List.modify_modify_eq ..

/-! ## Nobody supervises streams -/

/-- The task of the loop of a source is part of the life of a stream. -/
theorem isPlain_of_owner {task : Task} {owner : Owner} (h : task.owner? = some owner) :
    task.isPlain = true := by
  cases task <;> first | rfl | simp [Task.owner?] at h

/-- Handling an event only leads to tasks of the life of a stream. -/
theorem plain_of_handles {o o' : Outline} {task : Task} {ended : Option Nat} {todo : List Task}
    (h : o.Handles task ended o' todo) : ∀ task ∈ todo, task.isPlain = true := by
  cases h with
  | takeInline n u event node unit hnode hunit hsigns =>
    cases hkind : node.kind <;> simp [onward, Task.isPlain, Task.dispatched]
  | enqueue n u event node unit hnode hunit =>
    cases hkind : node.kind <;> simp [onward, Task.isPlain, Task.dispatched]
  | _ => simp [Task.isPlain, Task.dispatched]

/-- A turn of a loop only leads to tasks of the life of a stream. -/
theorem plain_of_turns {o o' : Outline} {task : Task} {todo : List Task}
    (h : o.Turns task o' todo) : ∀ task ∈ todo, task.isPlain = true := by
  cases h with
  | goOn t v task next howner hnext => simpa using isPlain_of_owner hnext
  | emit t v payload continuation task next howner hnext =>
    simpa [Task.isPlain] using isPlain_of_owner hnext
  | _ => simp [Task.isPlain]

/-- A start or a stop of a stream only leads to tasks of the life of the stream. -/
theorem plain_of_conducts {task : Task} {o : Outline} {streams : List Stream}
    {spawned : List (List Task)} {todo : List Task}
    (h : w.Conducts me task o streams spawned todo) :
    (∀ task ∈ todo, task.isPlain = true) ∧
      ∀ agenda ∈ spawned, ∀ task ∈ agenda, task.isPlain = true := by
  cases h with
  | undo task h error hanswer stops hstops =>
    refine ⟨fun task htask => ?_, by simp⟩
    rcases List.mem_append.mp htask with htask | htask
    · exact hstops task htask
    · simp only [List.mem_singleton] at htask
      simp [htask, Task.isPlain]
  | giveUp t v l i error stops hstops =>
    refine ⟨fun task htask => ?_, by simp⟩
    rcases List.mem_append.mp htask with htask | htask
    · exact hstops task htask
    · simp only [List.mem_singleton] at htask
      simp [htask, Task.isPlain]
  | stop | stopNode | stopTrigger | stopSource =>
    simp [Task.isPlain, or_imp, forall_and]
  | _ => simp [Task.isPlain]

/-- A step leaves the threads alone that do not take it. -/
theorem StepsTo.threads_ne {task : Task} (h : w.StepsTo me task w') {i : Nat} (hi : i ≠ me)
    (hlength : i < w.threads.length) : w'.threads[i]? = w.threads[i]? := by
  cases h with
  | conducts spawned todo since h threads =>
    rw [threads, List.getElem?_modify_ne _ _ (Ne.symm hi), List.getElem?_append_left hlength]
  | handles _ _ _ threads | turns _ _ _ threads | turnsOver _ _ _ _ _ _ threads
  | halts _ _ _ _ _ _ threads | answers _ _ _ _ threads =>
    rw [threads, List.getElem?_modify_ne _ _ (Ne.symm hi)]

/-- The agendas of threads one of which has done its first task. -/
theorem agendas_goOn {threads : List Thread} {todo : List Task} {since : Nat}
    (h : w'.threads = threads.modify me (.goOn todo since)) :
    w'.agendas = (threads.map (·.agenda)).modify me (todo ++ ·.tail) := by
  rw [agendas, h]
  exact map_modify fun _ _ => rfl

/-- The agendas of threads one of which has broken down. -/
theorem agendas_breakDown {threads : List Thread} {text : String} {since : Nat}
    (h : w'.threads = threads.modify me (.breakDown text since)) :
    w'.agendas = (threads.map (·.agenda)).modify me fun _ => [] := by
  rw [agendas, h]
  exact map_modify fun _ _ => rfl

/-- The agendas of threads one of which has taken note of an answer. -/
theorem agendas_note {threads : List Thread} {answer : Answer} {since : Nat}
    (h : w'.threads = threads.modify me (.note answer since)) :
    w'.agendas = (threads.map (·.agenda)).modify me ([] ++ ·.tail) := by
  rw [agendas, h]
  exact map_modify fun _ _ => rfl

/-- The agendas of all threads and of new ones. -/
theorem map_newThreads (spawned : List (List Task)) :
    (w.threads ++ w.newThreads spawned).map (·.agenda) = w.agendas ++ spawned := by
  simp [agendas, newThreads, Function.comp_def]

/-- The agendas after a step that goes on. -/
theorem agendas_resume {v : World P} {todo : List Task} :
    ((Progress.goOn v todo).resume me).agendas = v.agendas.modify me (todo ++ ·.tail) :=
  agendas_goOn rfl

/-- A world with the same threads has the same agendas. -/
theorem agendas_congr {v : World P} (h : v.threads = w.threads) : v.agendas = w.agendas :=
  congrArg (·.map (·.agenda)) h

/-- Taking note of an answer leaves a thread with what it has to do. -/
theorem agendas_answer (w : World P) (me : Nat) (answer : Answer) :
    (w.changeThread me fun thread => { thread with answer }).agendas = w.agendas :=
  map_modify_eq fun _ _ => rfl

/-- A step adds agendas, and puts further tasks in the place of the first one of its
thread or takes away all of them. -/
theorem StepsTo.agendas_eq {task : Task} (h : w.StepsTo me task w') :
    ∃ spawned todo,
      (∀ agenda ∈ spawned, ∀ task ∈ agenda, task.isPlain = true) ∧
      (∀ task ∈ todo, task.isPlain = true) ∧
      (w'.agendas = (w.agendas ++ spawned).modify me (todo ++ ·.tail) ∨
        w'.agendas = w.agendas.modify me fun _ => []) := by
  cases h with
  | handles todo since h threads =>
    exact ⟨[], todo, by simp, plain_of_handles h,
      .inl (by simpa [agendas] using agendas_goOn threads)⟩
  | turns todo since h threads =>
    exact ⟨[], todo, by simp, plain_of_turns h,
      .inl (by simpa [agendas] using agendas_goOn threads)⟩
  | turnsOver text since t v h outline threads =>
    exact ⟨[], [], by simp, by simp, .inr (agendas_breakDown threads)⟩
  | conducts spawned todo since h threads =>
    refine ⟨spawned, todo, (plain_of_conducts h).2, (plain_of_conducts h).1, .inl ?_⟩
    rw [agendas_goOn threads, map_newThreads]
  | halts text since t v asked h threads =>
    exact ⟨[], [], by simp, by simp, .inr (agendas_breakDown threads)⟩
  | answers answer since h outline threads =>
    exact ⟨[], [], by simp, by simp, .inl (by simpa [agendas] using agendas_note threads)⟩

/-- A step leaves nobody to supervise streams. -/
theorem Plain.step (hplain : w.Plain) (h : w.step me = some w') : w'.Plain := by
  obtain ⟨thread, task, rest, hthread, hagenda, hsteps⟩ := step_cases hplain h
  obtain ⟨spawned, todo, hspawned, htodo, heq | heq⟩ := hsteps.agendas_eq
  · have hall : ∀ agenda ∈ w.agendas ++ spawned, ∀ task ∈ agenda, task.isPlain = true := by
      intro agenda hagenda
      rcases List.mem_append.mp hagenda with hagenda | hagenda
      · exact hplain agenda hagenda
      · exact hspawned agenda hagenda
    intro agenda hagenda later hlater
    obtain hold | ⟨old, hold, rfl⟩ := mem_modify (heq ▸ hagenda)
    · exact hall agenda hold later hlater
    · rcases List.mem_append.mp hlater with hlater | hlater
      · exact htodo later hlater
      · exact hall old (List.mem_of_getElem? hold) later (List.mem_of_mem_tail hlater)
  · intro agenda hagenda later hlater
    obtain hold | ⟨old, hold, rfl⟩ := mem_modify (heq ▸ hagenda)
    · exact hplain agenda hold later hlater
    · simp at hlater

/-! ## Doomed threads -/

/-- The task is one of those that decide about the end of a start: it takes note of an
answer, looks at one, or gives up a source. -/
def decides (task : Task) : Prop :=
  task.resumes = true ∨ task.givesUp = true ∨ ∃ answer, task = .answer answer

/-- Handling an event decides nothing. -/
theorem not_decides_of_handles {o o' : Outline} {task : Task} {ended : Option Nat}
    {todo : List Task} (h : o.Handles task ended o' todo) : ¬ decides task := by
  cases h <;> simp [decides, Task.resumes, Task.givesUp]

/-- The task of a loop decides nothing. -/
theorem not_decides_of_owner {task : Task} {owner : Owner} (h : task.owner? = some owner) :
    ¬ decides task := by
  cases task with
  | unit task => cases task <;> simp [Task.owner?, decides, Task.resumes, Task.givesUp] at *
  | source task => cases task <;> simp [Task.owner?, decides, Task.resumes, Task.givesUp] at *
  | _ => simp [Task.owner?] at h

/-- A turn of a loop decides nothing. -/
theorem not_decides_of_turns {o o' : Outline} {task : Task} {todo : List Task}
    (h : o.Turns task o' todo) : ¬ decides task := by
  cases h with
  | goOn t v task next howner | emit t v payload continuation task next howner
  | ended t v task howner => exact not_decides_of_owner howner
  | _ => simp [decides, Task.resumes, Task.givesUp]

/-- A task of a start or a stop that decides about its end decides that it fails, unless it
looks at an answer that is no error. -/
theorem fails_of_conducts {task : Task} {o : Outline} {streams : List Stream}
    {spawned : List (List Task)} {todo : List Task}
    (h : w.Conducts me task o streams spawned todo) (hdecides : decides task)
    (hanswer : task.resumes = true → ∃ error, w.answerOf me = .failed error) :
    ∃ stops error, todo = stops ++ [.answer (.failed error)] := by
  cases h with
  | fail task h o error => exact ⟨[], error, rfl⟩
  | undo task h error hanswer stops hstops => exact ⟨stops, error, rfl⟩
  | giveUp t v l i error stops hstops => exact ⟨stops, error, rfl⟩
  | startedUnit n u hgood | startedSource t v hgood | startedProcessor s p hgood
  | startedTriggers s i hgood =>
    obtain ⟨error, hanswer⟩ := hanswer rfl
    exact absurd hanswer (hgood error)
  | _ => simp [decides, Task.resumes, Task.givesUp] at hdecides

/-- What becomes of the thread that takes a step. -/
theorem StepsTo.thread_me {task : Task} {thread : Thread} (h : w.StepsTo me task w')
    (hthread : w.threads[me]? = some thread) :
    ∃ later, w'.threads[me]? = some later ∧
      ((∃ todo since, later = thread.goOn todo since ∧ (decides task →
          (task.resumes = true → ∃ error, thread.answer = .failed error) →
            ∃ stops error, todo = stops ++ [.answer (.failed error)])) ∨
        (∃ text since, later = thread.breakDown text since) ∨
        ∃ answer since, task = .answer answer ∧ later = thread.note answer since) := by
  have hlength : me < w.threads.length := (List.getElem?_eq_some_iff.mp hthread).1
  cases h with
  | handles todo since h threads =>
    exact ⟨_, by rw [threads, List.getElem?_modify_eq, hthread]; rfl,
      .inl ⟨todo, since, rfl, fun hdecides => absurd hdecides (not_decides_of_handles h)⟩⟩
  | turns todo since h threads =>
    exact ⟨_, by rw [threads, List.getElem?_modify_eq, hthread]; rfl,
      .inl ⟨todo, since, rfl, fun hdecides => absurd hdecides (not_decides_of_turns h)⟩⟩
  | turnsOver text since t v h outline threads =>
    exact ⟨_, by rw [threads, List.getElem?_modify_eq, hthread]; rfl,
      .inr (.inl ⟨text, since, rfl⟩)⟩
  | halts text since t v asked h threads =>
    exact ⟨_, by rw [threads, List.getElem?_modify_eq, hthread]; rfl,
      .inr (.inl ⟨text, since, rfl⟩)⟩
  | answers answer since h outline threads =>
    exact ⟨_, by rw [threads, List.getElem?_modify_eq, hthread]; rfl,
      .inr (.inr ⟨answer, since, h, rfl⟩)⟩
  | conducts spawned todo since h threads =>
    refine ⟨thread.goOn todo since, ?_, .inl ⟨todo, since, rfl, fun hdecides hanswer => ?_⟩⟩
    · rw [threads, List.getElem?_modify_eq, List.getElem?_append_left hlength, hthread]
      rfl
    · exact fails_of_conducts h hdecides (by simpa [answerOf, hthread] using hanswer)

/-- A course that begins with another one. -/
theorem follow_append (moves moves' : List (Move P)) :
    w.follow (moves ++ moves') = (w.follow moves).bind (·.follow moves') := by
  induction moves generalizing w with
  | nil => rfl
  | cons m moves ih =>
    simp only [List.cons_append, World.follow]
    cases w.move m with
    | none => rfl
    | some v => exact ih

end World

/-- A thread that is doomed stays so. -/
theorem Thread.Doomed.step {P : Plugins} {w w' : World P} {me : Nat} {thread : Thread}
    (hdoomed : thread.Doomed) (hplain : w.Plain) (h : w.step me = some w')
    (hthread : w.threads[me]? = some thread) :
    ∃ later, w'.threads[me]? = some later ∧ later.Doomed := by
  obtain ⟨thread', task, rest, hthread', hagenda, hsteps⟩ := World.step_cases hplain h
  obtain rfl : thread = thread' := by simpa [hthread] using hthread'
  obtain ⟨later, hlater, hcases⟩ := hsteps.thread_me hthread
  refine ⟨later, hlater, ?_⟩
  cases hdoomed with
  | broken hbroken =>
    obtain ⟨todo, since, rfl, -⟩ | ⟨text, since, rfl⟩ | ⟨answer, since, -, rfl⟩ := hcases
    · exact .broken hbroken
    · exact .broken (by simp [Thread.breakDown])
    · exact .broken hbroken
  | failed error hanswer hresume =>
    have htask : task.resumes = true := hresume task (by simp [hagenda])
    have hrest : ∀ task ∈ rest, task.resumes = true :=
      fun task htask => hresume task (by simp [hagenda, htask])
    obtain ⟨todo, since, rfl, htodo⟩ | ⟨text, since, rfl⟩ | ⟨answer, since, rfl, -⟩ := hcases
    · obtain ⟨stops, error, rfl⟩ := htodo (.inl htask) fun _ => ⟨error, hanswer⟩
      exact .doomed stops (.answer (.failed error)) rest (by simp [Thread.goOn, hagenda]) rfl
        hrest
    · exact .broken (by simp [Thread.breakDown])
    · simp [Task.resumes] at htask
  | doomed earlier doom after hsplit hdooms hafter =>
    cases earlier with
    | cons first earlier =>
      obtain ⟨rfl, rfl⟩ : first = task ∧ earlier ++ doom :: after = rest := by
        simpa [hagenda, eq_comm] using hsplit
      obtain ⟨todo, since, rfl, -⟩ | ⟨text, since, rfl⟩ | ⟨answer, since, -, rfl⟩ := hcases
      · exact .doomed (todo ++ earlier) doom after (by simp [Thread.goOn, hagenda]) hdooms hafter
      · exact .broken (by simp [Thread.breakDown])
      · exact .doomed earlier doom after (by simp [Thread.note, hagenda]) hdooms hafter
    | nil =>
      obtain ⟨rfl, rfl⟩ : doom = task ∧ after = rest := by
        simpa [hagenda, eq_comm] using hsplit
      have hdecides : World.decides doom ∧ doom.resumes = false := by
        cases doom with
        | answer answer => exact ⟨.inr (.inr ⟨answer, rfl⟩), rfl⟩
        | source task =>
          refine ⟨.inr (.inl hdooms), ?_⟩
          cases task <;> first | rfl | simp [Task.dooms, Task.givesUp] at hdooms
        | _ => simp [Task.dooms, Task.givesUp] at hdooms
      obtain ⟨todo, since, rfl, htodo⟩ | ⟨text, since, rfl⟩ | ⟨answer, since, rfl, rfl⟩ := hcases
      · obtain ⟨stops, error, rfl⟩ := htodo hdecides.1 (by simp [hdecides.2])
        exact .doomed stops (.answer (.failed error)) after (by simp [Thread.goOn, hagenda]) rfl
          hafter
      · exact .broken (by simp [Thread.breakDown])
      · cases answer with
        | failed error => exact .failed error rfl (by simpa [Thread.note, hagenda] using hafter)
        | _ => simp [Task.dooms, Task.givesUp] at hdooms

end EventPipeline
