import EventPipeline.Proofs.Engine.Conservation
import EventPipeline.Proofs.Lifecycle.Launch
import EventPipeline.Proofs.Supervision.Candor

/-!
# `EventPipeline.Proofs.Lifecycle.Launcher`: who launches a source, and its worker

A thread that launches a source waits until its worker says that the source is ready, or
gives it up when its time has passed. The deadline can fall between any two steps of the
worker. `Launcher` says how far the thread has come, beside the stage of the source, and
`Launcher.move` that every move of every thread leaves the two in agreement.

`source_life` is what follows: a source runs at most once and only if it became ready, it is
finished once if it became ready and never otherwise, and once its launch has failed because
its time had passed it does not run and never will. That is so if none of its hooks breaks down:
a source that breaks down while it runs takes its worker with it and is not finished
(`life_of_ended`).
-/

set_option autoImplicit false

namespace EventPipeline

variable {P : Plugins}

/-- A source was not ready in time. -/
def Answer.IsInitTimeout (answer : Answer) : Prop :=
  ∃ unit within, answer = .failed (.node (.initTimeout unit within))

/-- A source was given up that does not run. -/
structure Retired (launch : Launch) (agenda : List Task) : Prop where
  phase : launch.phase = .dismissed
  unmoving : Unmoving agenda

/-- How far the thread has come that launches a source on the worker `k`: what it still has
to do for that, when it was told `told` last. -/
inductive LauncherStage (t u l k : Nat) (launch : Launch) (agenda : List Task) (told : Answer) :
    List Task → Prop
  | waiting (hphase : launch.phase ≠ .dismissed) :
    LauncherStage t u l k launch agenda told [.source (.await t u l k)]
  | giving (hphase : launch.phase ≠ .dismissed) :
    LauncherStage t u l k launch agenda told [.source (.giveUp t u l k)]
  | halting (name : String) (asked : Bool) (error : NodeError)
    (hphase : launch.phase = .dismissed) :
    LauncherStage t u l k launch agenda told
      [.source (.halt t u asked), .source (.join name k), .failed error]
  | joining (name : String) (error : NodeError) (hphase : launch.phase = .dismissed) :
    LauncherStage t u l k launch agenda told [.source (.join name k), .failed error]
  | telling (answer : Answer) (hretired : answer.IsInitTimeout → Retired launch agenda) :
    LauncherStage t u l k launch agenda told [.answer answer]
  | back (hretired : told.IsInitTimeout → Retired launch agenda) :
    LauncherStage t u l k launch agenda told []

section

variable {t u l k : Nat} {launch later : Launch} {agenda next todo : List Task} {told : Answer}
  {life : List HookEvent}

/-- What the worker does leaves the launcher where it is. -/
theorem LauncherStage.of_worker (h : LauncherStage t u l k launch agenda told todo)
    (hphase : later.phase = .dismissed ↔ launch.phase = .dismissed)
    (hunmoving : launch.phase = .dismissed → Unmoving agenda → Unmoving next) :
    LauncherStage t u l k later next told todo := by
  have hkeeps (hretired : Retired launch agenda) : Retired later next :=
    ⟨hphase.mpr hretired.phase, hunmoving hretired.phase hretired.unmoving⟩
  cases h with
  | waiting h => exact .waiting (mt hphase.mp h)
  | giving h => exact .giving (mt hphase.mp h)
  | halting name asked error h => exact .halting name asked error (hphase.mpr h)
  | joining name error h => exact .joining name error (hphase.mpr h)
  | telling answer hretired => exact .telling answer fun htimeout => hkeeps (hretired htimeout)
  | back hretired => exact .back fun htimeout => hkeeps (hretired htimeout)

/-- Nothing that is not a timeout says that the source was given up. -/
theorem LauncherStage.tells {error : NodeError}
    (h : ∀ unit within, error ≠ .initTimeout unit within) :
    LauncherStage t u l k launch agenda told [.failed error] := by
  refine .telling _ fun htimeout => ?_
  obtain ⟨unit, within, heq⟩ := htimeout
  injection heq with heq
  injection heq with heq
  exact absurd heq (h unit within)

/-- A worker that could not make its source ready says so. -/
theorem SourceStage.error_eq {error : NodeError} (h : SourceStage t u l launch agenda life)
    (hready : launch.ready = some (.error error)) :
    ∃ unit reason, error = .initFailed unit reason := by
  cases h with
  | unfit unit reason hunfit =>
    rw [hunfit] at hready
    injection hready with hready
    injection hready with hready
    exact ⟨unit, reason, hready.symm⟩
  | preparing asked hnone | silent hnone =>
    rw [hnone] at hready
    cases hready
  | ready _ hok | running _ _ _ _ _ hok | finishing _ _ _ hok | complete _ _ _ hok | broken hok =>
    rw [hok] at hready
    cases hready

/-- A source does not run before its worker has said that it was started. -/
theorem SourceStage.unmoving_of_pending (h : SourceStage t u l launch agenda life)
    (hphase : launch.phase = .pending) : Unmoving agenda := by
  cases h with
  | running errands made resting herrands hmade hready hrunning => exact absurd hphase hrunning
  | _ => simp [Unmoving]

/-- A source that does not move is not inside the hook that runs it. -/
theorem SourceStage.not_inside (h : SourceStage t u l launch agenda life)
    (hunmoving : Unmoving agenda) : life.getLast? ≠ some (.calls .start) := by
  cases h with
  | running errands made resting => exact absurd (by simp) (hunmoving t u made resting)
  | preparing asked => cases asked <;> simp [Hook.entered]
  | finishing ran asked hran =>
    cases hran <;> cases asked <;> simp [Hook.entered, Hook.call]
  | complete ran finished hran => cases hran <;> simp [Hook.call]
  | _ => simp [Hook.call]

/-- What the source has lived is the beginning of a whole life, unless it broke down while it
ran. -/
theorem SourceStage.prefix_life (h : SourceStage t u l launch agenda life)
    (hsound : .ends .start .panicked ∉ life) : ∃ whole, SourceLife whole ∧ life <+: whole := by
  have hentered (hook : Hook) (made : Bool) (upshot : Upshot) :
      hook.entered made <+: hook.call upshot := by
    cases made <;> simp [Hook.entered, Hook.call]
  cases h with
  | preparing asked => exact ⟨_, .unfit .failed (by simp), hentered ..⟩
  | silent => exact ⟨_, .unfit .panicked (by simp), List.prefix_rfl⟩
  | unfit => exact ⟨_, .unfit .failed (by simp), List.prefix_rfl⟩
  | ready => exact ⟨_, .idle .returned, List.prefix_append ..⟩
  | running =>
    refine ⟨_, .ran .returned .returned, List.IsPrefix.trans ?_ (List.prefix_append ..)⟩
    exact (List.prefix_append_right_inj _).mpr (hentered ..)
  | finishing ran asked hran =>
    cases hran with
    | never => exact ⟨_, .idle .returned, by simpa using hentered ..⟩
    | ran upshot =>
      exact ⟨_, .ran upshot .returned, (List.prefix_append_right_inj _).mpr (hentered ..)⟩
  | complete ran finished hran =>
    cases hran with
    | never => exact ⟨_, .idle finished, by simp⟩
    | ran upshot => exact ⟨_, .ran upshot finished, List.prefix_rfl⟩
  | broken => exact absurd (by simp [Hook.call]) hsound

/-- A worker that has nothing to do any more has seen a whole life of its source, or the source
has broken down while it ran, and was not finished. -/
theorem SourceStage.whole_or_broken (h : SourceStage t u l launch agenda life)
    (hagenda : agenda = []) :
    SourceLife life ∨ life = Hook.prepare.call .returned ++ Hook.start.call .panicked := by
  cases h with
  | silent => exact .inl (.unfit .panicked (by simp))
  | unfit => exact .inl (.unfit .failed (by simp))
  | complete ran finished hran =>
    cases hran with
    | never => exact .inl (.idle finished)
    | ran upshot => exact .inl (.ran upshot finished)
  | broken => exact .inr rfl
  | running => exact absurd hagenda (by simp)
  | _ => cases hagenda

/-- The life of a source is whole when its worker has nothing to do any more, unless it broke down
while it ran. -/
theorem SourceStage.whole (h : SourceStage t u l launch agenda life) (hagenda : agenda = [])
    (hsound : .ends .start .panicked ∉ life) : SourceLife life := by
  obtain hwhole | rfl := h.whole_or_broken hagenda
  · exact hwhole
  · exact absurd (by simp [Hook.call]) hsound

end

namespace World

variable {w w' : World P} {me t u l k : Nat} {rest agenda todo : List Task} {launch : Launch}
  {life : List HookEvent} {expired : Bool} {progress : Progress P}

/-- The thread `me` launches the source on the worker `k`. It has come to a stage with that
and has the rest to do afterwards. -/
structure Launcher (w : World P) (me t u l k : Nat) (rest : List Task) (launch : Launch)
    (agenda : List Task) (life : List HookEvent) (todo : List Task) : Prop
    extends w.Launched me t u l k launch agenda life where
  apart : me ≠ k
  todo_eq : w.agendas[me]? = some (todo ++ rest)
  launcher : LauncherStage t u l k launch agenda (w.answerOf me) todo

/-- What follows when a thread has waited for a source. -/
theorem awaitSource_cases (h : w.awaitSource expired t u l k = some progress)
    (hlaunch : w.launches[l]? = some launch) :
    progress.todo = [.answer .ok] ∨
      (∃ error, launch.ready = some (.error error) ∧ progress.todo = [.failed error]) ∨
      (∃ unit, progress.todo = [.failed (silentWorker unit)]) ∨
      progress.todo = [.source (.giveUp t u l k)] := by
  simp only [awaitSource, Option.bind_eq_bind, Option.bind_eq_some_iff] at h
  obtain ⟨unit, -, found, hfound, h⟩ := h
  obtain rfl : launch = found := by simpa [hlaunch] using hfound
  split at h
  · obtain rfl := Option.some.inj h
    exact .inl rfl
  case h_2 error hready =>
    split at h
    · obtain rfl := Option.some.inj h
      exact .inr (.inl ⟨error, hready, rfl⟩)
    · cases h
  · split at h
    · obtain rfl := Option.some.inj h
      exact .inr (.inr (.inl ⟨unit.name, rfl⟩))
    · split at h
      · obtain rfl := Option.some.inj h
        exact .inr (.inr (.inr rfl))
      · cases h

/-- What follows when a thread has given up a source. -/
theorem giveUpSource_cases (h : w.giveUpSource t u l k = some progress)
    (hlaunch : w.launches[l]? = some launch) :
    progress.world.launches[l]? = some launch.giveUp ∧ ∃ name within,
      progress.todo =
        (if launch.phase = .started then [.source (.halt t u false), .source (.join name k)]
        else [])
          ++ [.failed (.initTimeout name within)] := by
  simp only [giveUpSource, Option.bind_eq_bind, Option.bind_eq_some_iff] at h
  obtain ⟨trigger, -, unit, -, found, hfound, h⟩ := h
  obtain rfl : launch = found := by simpa [hlaunch] using hfound
  obtain rfl := Option.some.inj h
  refine ⟨?_, unit.name, trigger.initWithin, rfl⟩
  show (w.launches.modify l Launch.giveUp)[l]? = _
  rw [List.getElem?_modify_eq, hlaunch]
  rfl

/-- What follows when a thread has asked a source to stop that does not break down at that. -/
theorem haltSource_cases {asked : Bool} (h : w.haltSource t u asked = some progress)
    (hsound : w.upshot? expired (.source (.halt t u asked)) ≠ some .panicked) :
    ∃ v, progress = .goOn v [] ∨ progress = .goOn v [.source (.halt t u true)] := by
  simp only [haltSource, Option.bind_eq_bind, Option.bind_eq_some_iff] at h
  obtain ⟨⟨reply, called⟩, hcall, h⟩ := h
  have hupshot : w.upshot? expired (.source (.halt t u asked)) = reply.upshot? := by
    simp [upshot?, hcall]
  cases reply with
  | waiting limit =>
    cases asked with
    | true => cases h
    | false =>
      obtain rfl := Option.some.inj h
      exact ⟨called, .inr rfl⟩
  | panicked text => exact absurd hupshot hsound
  | returned | failed =>
    obtain rfl := Option.some.inj h
    exact ⟨called, .inl rfl⟩

/-- A thread that has waited for the end of another one goes on with what it has to do. -/
theorem joinSource_cases {name : String} (h : w.joinSource name k = some progress)
    (hagenda : w.agendas[k]? = some agenda) : agenda = [] ∧ ∃ v, progress = .goOn v [] := by
  simp only [joinSource, Option.bind_eq_bind, Option.bind_eq_some_iff] at h
  obtain ⟨thread, hthread, h⟩ := h
  have heq : thread.agenda = agenda := by simpa [agendas, hthread] using hagenda
  split at h
  case isTrue hempty =>
    obtain rfl := Option.some.inj h
    exact ⟨heq ▸ List.isEmpty_iff.mp hempty, _, rfl⟩
  case isFalse => cases h

/-- A thread stays as it is while others move. -/
theorem move_threads_ne {move : Move P} {thread : Thread} (hmove : w.move move = some w')
    (hother : move ≠ .step me) (hthread : w.threads[me]? = some thread) :
    w'.threads[me]? = some thread := by
  cases move with
  | step j => exact step_threads_ne hmove (fun heq => hother (heq ▸ rfl)) hthread
  | pass nanos =>
    obtain rfl := Option.some.inj hmove
    exact hthread
  | outside change =>
    obtain rfl := Option.some.inj hmove
    exact hthread

/-- A thread that takes note of an answer was told that last. -/
theorem Turn.answerOf_answer {answer : Answer} {more : List Task}
    (h : w.Turn me expired (.answer answer) more progress w') : w'.answerOf me = answer := by
  have hlt : me < w.threads.length := w.length_agendas ▸ h.me_lt
  obtain rfl := Option.some.inj h.performs
  rw [h.resumes]
  simp [answerOf, Progress.resume, changeThread, Thread.goOn, List.getElem?_eq_getElem hlt]

namespace Launcher

variable {task : Task} {more : List Task}

/-- The launcher after a turn of its own with which it comes to a stage. -/
theorem comes {later : Launch} {todo' : List Task}
    (h : w.Launcher me t u l k rest launch agenda life todo)
    (hturn : w.Turn me expired task more progress w')
    (hlaunched : w'.Launched me t u l k later agenda life)
    (hnext : progress.next more = todo' ++ rest)
    (hstage : LauncherStage t u l k later agenda (w'.answerOf me) todo') :
    w'.Launcher me t u l k rest later agenda life todo' where
  toLaunched := hlaunched
  apart := h.apart
  todo_eq := hnext ▸ hturn.agenda_me
  launcher := hstage

/-- What the thread has to do next follows from its task, which does not break down. -/
theorem next_eq {next : List Task} (more : List Task) (htodo : progress.todo = next)
    (hne : next ≠ []) : progress.next more = next ++ more := by
  cases progress with
  | goOn => exact congrArg (· ++ more) htodo
  | breakDown => exact absurd htodo.symm hne

/-- The thread that launches the source takes its turn. -/
theorem turn_me (h : w.Launcher me t u l k rest launch agenda life (task :: todo))
    (hturn : w.Turn me expired task (todo ++ rest) progress w')
    (hsound : ∀ asked, task = .source (.halt t u asked) →
      w.upshot? expired task ≠ some .panicked) :
    lifeOf (.source t u) (w.deedsOf me expired task) = [] ∧
      ∃ later todo', w'.Launcher me t u l k rest later agenda life todo' := by
  have hsummons : task.summons? ≠ some (.source t u) := by
    generalize hall : task :: todo = all at h
    cases h.launcher with
    | back => cases hall
    | _ =>
      obtain ⟨rfl, -⟩ := List.cons.inj hall
      simp [Task.summons?]
  obtain ⟨hlife, hlaunched⟩ := h.turn_other h.apart hsummons hturn
  refine ⟨hlife, ?_⟩
  -- Only a thread that gives the source up changes its launch.
  have hkept (hkeeps : ∀ worker, task ≠ .source (.giveUp t u l worker)) :
      w'.Launched me t u l k launch agenda life := by
    obtain ⟨-, hlaunched⟩ | ⟨⟨worker, hgives⟩, -⟩ := hlaunched
    · exact hlaunched
    · exact absurd hgives (hkeeps worker)
  generalize hall : task :: todo = all at h
  cases h.launcher with
  | waiting hphase =>
    obtain ⟨rfl, rfl⟩ := List.cons.inj hall
    have hlaunched := hkept (by simp)
    obtain htodo | ⟨error, hready, htodo⟩ | ⟨unit, htodo⟩ | htodo :=
      awaitSource_cases hturn.performs h.launch_eq
    all_goals have hnext := next_eq ([] ++ rest) htodo (by simp)
    · exact ⟨launch, _, h.comes hturn hlaunched hnext
        (.telling .ok (by simp [Answer.IsInitTimeout]))⟩
    · obtain ⟨unit, reason, rfl⟩ := h.stage.error_eq hready
      exact ⟨launch, _, h.comes hturn hlaunched hnext (.tells (by simp))⟩
    · exact ⟨launch, _, h.comes hturn hlaunched hnext (.tells (by simp [silentWorker]))⟩
    · exact ⟨launch, _, h.comes hturn hlaunched hnext (.giving hphase)⟩
  | giving hphase =>
    obtain ⟨rfl, rfl⟩ := List.cons.inj hall
    obtain ⟨hgiven, name, within, htodo⟩ := giveUpSource_cases hturn.performs h.launch_eq
    have hnext := next_eq ([] ++ rest) htodo (by simp)
    have hlaunched : w'.Launched me t u l k launch.giveUp agenda life := by
      obtain ⟨hkeeps, -⟩ | ⟨-, hlaunched⟩ := hlaunched
      · exact absurd rfl (hkeeps k)
      · exact hlaunched
    refine ⟨launch.giveUp, _, h.comes hturn hlaunched hnext ?_⟩
    split
    case isTrue => exact .halting name false _ rfl
    case isFalse hstarted =>
      -- The source has not begun to run, and will see that it was given up.
      have hpending : launch.phase = .pending := by
        cases hlaunch : launch.phase <;> simp_all
      exact .telling _ fun _ => ⟨rfl, h.stage.unmoving_of_pending hpending⟩
  | halting name asked error hphase =>
    obtain ⟨rfl, rfl⟩ := List.cons.inj hall
    have hlaunched := hkept (by simp)
    obtain ⟨v, rfl | rfl⟩ := haltSource_cases hturn.performs (hsound asked rfl)
    · exact ⟨launch, _, h.comes hturn hlaunched rfl (.joining name error hphase)⟩
    · exact ⟨launch, _, h.comes hturn hlaunched rfl (.halting name true error hphase)⟩
  | joining name error hphase =>
    obtain ⟨rfl, rfl⟩ := List.cons.inj hall
    obtain ⟨rfl, v, rfl⟩ := joinSource_cases hturn.performs h.agenda_eq
    exact ⟨launch, _, h.comes hturn (hkept (by simp)) rfl
      (.telling _ fun _ => ⟨hphase, by simp [Unmoving]⟩)⟩
  | telling answer hretired =>
    obtain ⟨rfl, rfl⟩ := List.cons.inj hall
    have htold := hturn.answerOf_answer
    obtain rfl := Option.some.inj hturn.performs
    exact ⟨launch, [], h.comes hturn (hkept (by simp)) rfl (.back (htold.symm ▸ hretired))⟩
  | back => cases hall

/-- What a thread was told last it still knows after a move of another thread. -/
theorem answerOf_move {move : Move P} (h : w.Launcher me t u l k rest launch agenda life todo)
    (hmove : w.move move = some w') (hother : move ≠ .step me) :
    w'.answerOf me = w.answerOf me := by
  have hlt : me < w.threads.length := by
    simpa [agendas] using (List.getElem?_eq_some_iff.mp h.todo_eq).1
  have hthread : w.threads[me]? = some w.threads[me] := List.getElem?_eq_getElem hlt
  rw [answerOf, answerOf, move_threads_ne hmove hother hthread, hthread]

/-- Every move leaves the thread that launches the source, its worker and the record in
agreement. -/
theorem move (h : w.Launcher me t u l k rest launch agenda life todo) {move : Move P}
    (hmove : w.move move = some w') (hstarts : w.starts? move ≠ some (.source t u))
    (haway : move = .step me → ¬ w.IsBack me rest)
    (hsound : ∀ deed ∈ w.deeds move, deed.subject = .source t u →
      deed.event ≠ .ends .halt .panicked) :
    ∃ later next todo', w'.Launcher me t u l k rest later next
      (life ++ lifeOf (.source t u) (w.deeds move)) todo' := by
  obtain ⟨j, expired, task, more, progress, rfl, hturn⟩ | ⟨hdeeds, hsame⟩ := move_cases hmove
  case inr =>
    rw [hdeeds, lifeOf_nil, List.append_nil]
    refine ⟨launch, agenda, todo, h.toLaunched.same hsame, h.apart, ?_, ?_⟩
    · rw [hsame.agendas]
      exact h.todo_eq
    · rw [answerOf, hsame.threads]
      exact h.launcher
  by_cases hme : j = me
  case pos =>
    subst hme
    cases todo with
    | nil => exact absurd (isBack_iff.mpr h.todo_eq) (haway rfl)
    | cons first todo =>
      obtain ⟨rfl, rfl⟩ : first = task ∧ todo ++ rest = more := by
        have hagenda := h.todo_eq.symm.trans hturn.agenda
        exact List.cons.inj (Option.some.inj hagenda)
      have hhalts (asked : Bool) (hhalt : first = .source (.halt t u asked)) :
          w.upshot? expired first ≠ some .panicked := by
        intro hpanics
        have hcall : first.call? = some ⟨.source t u, .halt, asked⟩ := by
          rw [hhalt]
          rfl
        have hpanicked : Deed.mk j (.source t u) (.ends .halt .panicked) ∈ w.deeds (.step j) := by
          rw [hturn.deeds]
          exact mem_deedsOf_of_upshot hcall hpanics
        exact hsound _ hpanicked rfl rfl
      obtain ⟨hlife, later, todo', hlater⟩ := h.turn_me hturn hhalts
      rw [hturn.deeds, hlife, List.append_nil]
      exact ⟨later, agenda, todo', hlater⟩
  have hother : Move.step (P := P) j ≠ .step me := fun heq => hme (by injection heq)
  have htodo : w'.agendas[me]? = some (todo ++ rest) := hturn.agenda_ne (Ne.symm hme) h.todo_eq
  rw [hturn.deeds]
  by_cases hk : j = k
  case pos =>
    subst hk
    obtain rfl : agenda = task :: more := Option.some.inj (h.agenda_eq.symm.trans hturn.agenda)
    obtain ⟨later, -, hphase, hunmoving, hlater⟩ := h.turn_self hturn
    refine ⟨later, _, todo, hlater, h.apart, htodo, ?_⟩
    rw [h.answerOf_move hmove hother]
    exact h.launcher.of_worker hphase hunmoving
  have hsummons : task.summons? ≠ some (.source t u) := fun hsummons =>
    hstarts (hturn.starts.trans (Task.starts?_of_summons hsummons))
  obtain ⟨hlife, hlater⟩ := h.turn_other hk hsummons hturn
  rw [hlife, List.append_nil]
  obtain ⟨-, hlater⟩ | ⟨⟨worker, rfl⟩, -⟩ := hlater
  · refine ⟨launch, agenda, todo, hlater, h.apart, htodo, ?_⟩
    rw [h.answerOf_move hmove hother]
    exact h.launcher
  · -- Nobody but the two threads has the launch in hand.
    exact absurd (hturn.task_holds h.named rfl).2 (by simp [hk, hme])

/-- The launcher, its worker and the record are in agreement after every course. -/
theorem follow {moves : List (Move P)} {v : World P}
    (h : w.Launcher me t u l k rest launch agenda life todo) (hcourse : w.follow moves = some v)
    (hnever : .source t u ∉ w.started moves)
    (haway : StaysAway me rest w moves)
    (hsound : ∀ deed ∈ w.record moves, deed.subject = .source t u →
      deed.event ≠ .ends .halt .panicked) :
    ∃ later next todo', v.Launcher me t u l k rest later next
      (life ++ lifeOf (.source t u) (w.record moves)) todo' := by
  induction moves generalizing w launch agenda life todo with
  | nil =>
    obtain rfl := Option.some.inj hcourse
    rw [record, lifeOf_nil, List.append_nil]
    exact ⟨launch, agenda, todo, h⟩
  | cons move moves ih =>
    obtain ⟨z, hmove, hcourse⟩ := Option.bind_eq_some_iff.mp hcourse
    rw [record, hmove, Option.elim_some] at hsound ⊢
    obtain ⟨later, next, todo', hlater⟩ := h.move hmove (starts?_ne hnever)
      haway.1
      fun deed hdeed => hsound deed (List.mem_append_left _ hdeed)
    rw [lifeOf_append, ← List.append_assoc]
    exact ih hlater hcourse (not_started_tail hnever hmove) (haway.2 z hmove)
      fun deed hdeed => hsound deed (List.mem_append_right _ hdeed)

end Launcher

/-! ## Before the launch -/

/-- All launches that threads have in hand are launches of the world. -/
def LaunchesKnown (w : World P) : Prop :=
  w.Tasks fun _ task => ∀ l, task.launch? = some l → l < w.launches.length

/-- No move makes up launches. -/
theorem LaunchesKnown.move {move : Move P} (h : w.LaunchesKnown) (hmove : w.move move = some w') :
    w'.LaunchesKnown := by
  obtain ⟨j, expired, task, more, progress, rfl, hturn⟩ | ⟨-, hsame⟩ := move_cases hmove
  case inr =>
    unfold LaunchesKnown
    rw [hsame.launches]
    exact hsame.tasks h
  unfold LaunchesKnown
  rw [hturn.launches]
  have hgrows := hturn.reaches.grows
  have hold : w.Tasks fun _ task =>
      ∀ l, task.launch? = some l → l < progress.world.launches.length :=
    fun i agenda hagenda task htask l hl =>
      Nat.lt_of_lt_of_le (h i agenda hagenda task htask l hl) hgrows
  -- A launch that is new with the turn is the next one of the world.
  have hstems {next : Task} (hnext : task.StemsFrom w.launches.length next) (l : Nat)
      (hl : next.launch? = some l) : l < progress.world.launches.length := by
    obtain hnone | hsame | ⟨hnew, t, u, rfl⟩ := hnext.2.2.1
    · exact absurd (hnone.symm.trans hl) (by simp)
    · exact Nat.lt_of_lt_of_le (hturn.task_holds h l (hsame.symm.trans hl)) hgrows
    · obtain rfl := Option.some.inj (hnew.symm.trans hl)
      obtain rfl := Option.some.inj hturn.performs
      simp [Progress.world]
  exact hturn.tasks hold (fun next _ hnext => hstems hnext) fun i next _ hspawns => hstems hspawns.1

/-- The thread `me` is about to launch a source, of which nobody takes care yet, and has the
rest to do afterwards. -/
structure AboutToLaunch (w : World P) (me t u : Nat) (rest : List Task) : Prop where
  begins : w.IsBack me (.source (.startSource t u) :: rest)
  exists_source : (w.source? t u).isSome = true
  free : w.Tasks fun _ task => task.charge? ≠ some (.source t u)
  known : w.LaunchesKnown

/-- A thread launches a source of which nobody takes care yet, and goes on to wait for it. -/
theorem Turn.launches_source
    (hturn : w.Turn me expired (.source (.startSource t u)) rest progress w')
    (hexists : (w.source? t u).isSome = true)
    (hfree : w.Tasks fun _ task => task.charge? ≠ some (.source t u)) (hknown : w.LaunchesKnown) :
    progress.next rest = .source (.await t u w.launches.length w.threads.length) :: rest ∧
      w'.Launched me t u w.launches.length w.threads.length {}
        [.source (.prepare t u w.launches.length false)] [] := by
  obtain rfl := Option.some.inj hturn.performs
  have hagendas : (w.addLaunch.2.spawn
      [.source (.prepare t u w.launches.length false)]).2.agendas =
      w.agendas ++ [[.source (.prepare t u w.launches.length false)]] := by
    show (w.threads ++ [_]).map Thread.agenda = _
    rw [List.map_append]
    rfl
  have htasks {p : Nat → Task → Prop} (hold : w.Tasks p)
      (hprepare : p w.threads.length (.source (.prepare t u w.launches.length false)))
      (hawait : p me (.source (.await t u w.launches.length w.threads.length))) : w'.Tasks p :=
    hturn.tasks_worker hagendas hold (by simpa [Progress.todo] using hawait) hprepare
  refine ⟨rfl,
    { remains := hturn.remains hexists
      agenda_eq := hturn.agenda_spawned hagendas
      launch_eq := ?_
      awaited := by simp
      stage := .preparing false rfl (by simp)
      held := htasks (fun j agenda hagenda task htask hcharge => ?_) (fun _ => rfl)
        (by simp [Task.charge?])
      named := htasks (fun j agenda hagenda task htask hl => ?_) (fun _ => ⟨rfl, .inl rfl⟩)
        fun _ => ⟨rfl, .inr rfl⟩ }⟩
  · rw [hturn.launches]
    exact List.getElem?_concat_length
  · exact absurd hcharge (hfree j agenda hagenda task htask)
  · exact absurd (hknown j agenda hagenda task htask _ hl) (Nat.lt_irrefl _)

/-- The thread has launched the source, and waits for it. -/
theorem AboutToLaunch.launcher (h : w.AboutToLaunch me t u rest) (hstep : w.step me = some w') :
    w'.Launcher me t u w.launches.length w.threads.length rest {}
      [.source (.prepare t u w.launches.length false)] []
      [.source (.await t u w.launches.length w.threads.length)] := by
  obtain ⟨expired, task, more, progress, hturn⟩ := step_turn hstep
  obtain ⟨rfl, rfl⟩ : task = .source (.startSource t u) ∧ more = rest := by
    have hagenda := hturn.agenda.symm.trans (isBack_iff.mp h.begins)
    exact List.cons.inj (Option.some.inj hagenda)
  obtain ⟨hnext, hlaunched⟩ := hturn.launches_source h.exists_source h.free h.known
  exact
    { toLaunched := hlaunched
      apart := Nat.ne_of_lt (w.length_agendas ▸ hturn.me_lt)
      todo_eq := by rw [hturn.agenda_me, hnext, List.singleton_append]
      launcher := .waiting (by simp) }

/-! ## The end of a life -/

/-- A thread takes its turn if its task can be done. -/
theorem step_ne_none {task : Task} {more : List Task}
    (hagenda : w.agendas[k]? = some (task :: more))
    (hperform : ∀ expired, (w.perform k expired task).isSome = true) : w.step k ≠ none := by
  obtain ⟨thread, hthread, hthreadAgenda⟩ := exists_thread hagenda
  obtain ⟨progress, hprogress⟩ := Option.isSome_iff_exists.mp (hperform (w.expired thread))
  have hhead : thread.agenda.head? = some task := by rw [hthreadAgenda, List.head?_cons]
  simp only [step, hthread, hhead, hprogress, Option.bind_eq_bind, Option.bind_some]
  cases progress <;> simp

/-- A worker can begin to make its source ready. -/
theorem prepareSource_isSome (hsource : (w.source? t u).isSome = true)
    (hlaunch : w.launches[l]? = some launch) : (w.prepareSource t u l false).isSome = true := by
  obtain ⟨unit, hunit⟩ := Option.isSome_iff_exists.mp hsource
  simp only [prepareSource, callSource, hunit, hlaunch, Option.map_some, Option.bind_eq_bind,
    Option.bind_some]
  split <;> rfl

/-- A worker whose source is ready can begin to run it, or to finish it. -/
theorem beginSource_isSome {delivered : Bool} (hlaunch : w.launches[l]? = some launch) :
    (w.beginSource t u l delivered).isSome = true := by
  simp only [beginSource, hlaunch, Option.bind_eq_bind, Option.bind_some]
  split <;> rfl

/-- A worker can ask its source for its next move. -/
theorem advanceSource_isSome {made : Nat} (hsource : (w.source? t u).isSome = true) :
    (w.advanceSource expired t u made none).isSome = true := by
  obtain ⟨unit, hunit⟩ := Option.isSome_iff_exists.mp hsource
  simp only [advanceSource, callSource, hunit, Option.map_some, Option.bind_eq_bind,
    Option.bind_some]
  split <;> rfl

/-- A worker can begin to finish its source. -/
theorem finishSource_isSome (hsource : (w.source? t u).isSome = true) :
    (w.finishSource t u false).isSome = true := by
  obtain ⟨unit, hunit⟩ := Option.isSome_iff_exists.mp hsource
  simp only [finishSource, callSource, hunit, Option.map_some, Option.bind_eq_bind,
    Option.bind_some]
  split <;> rfl

/-- A worker that has come to its end has nothing to do. -/
theorem Launched.agenda_eq_nil (h : w.Launched me t u l k launch agenda life)
    (hended : w.hasEnded k = true) : agenda = [] := by
  obtain ⟨thread, hthread, rfl⟩ := exists_thread h.agenda_eq
  simpa [hasEnded, hthread] using hended

/-- A worker that cannot go on has seen a whole life of its source, or is inside one of its
hooks. -/
theorem Launched.stuck (h : w.Launched me t u l k launch agenda life) (hstuck : w.step k = none)
    (hsound : .ends .start .panicked ∉ life) : SourceLife life ∨ InsideHook life := by
  have hgoes {task : Task} {more : List Task} (hagenda : agenda = task :: more)
      (hperform : ∀ expired, (w.perform k expired task).isSome = true) : False :=
    step_ne_none (hagenda ▸ h.agenda_eq) hperform hstuck
  have hinside (before : List HookEvent) (hook : Hook) :
      InsideHook (before ++ hook.entered true) := ⟨hook, by simp [Hook.entered]⟩
  cases h.stage with
  | preparing asked =>
    cases asked with
    | true => exact .inr (hinside [] .prepare)
    | false => exact (hgoes rfl fun _ => prepareSource_isSome h.remains h.launch_eq).elim
  | silent | unfit | complete | broken => exact .inl (h.stage.whole rfl hsound)
  | ready => exact (hgoes rfl fun _ => beginSource_isSome h.launch_eq).elim
  | running errands made resting herrands hmade =>
    by_cases hentered : (decide (made ≠ 0) || resting.isSome) = true
    case pos =>
      rw [hentered]
      exact .inr (hinside _ .start)
    obtain ⟨rfl, rfl⟩ : made = 0 ∧ resting = none := by simpa using hentered
    -- A source that was not called yet has emitted no event that is still on its way.
    obtain rfl : errands = [] := Classical.byContradiction fun hne => hmade hne rfl
    exact (hgoes rfl fun _ => advanceSource_isSome h.remains).elim
  | finishing ran asked =>
    cases asked with
    | true => exact .inr (hinside _ .finish)
    | false => exact (hgoes rfl fun _ => finishSource_isSome h.remains).elim

/-- The life on record has what the record has. -/
theorem not_mem_lifeOf {i : Instance} {record : List Deed} {event : HookEvent}
    (h : ∀ deed ∈ record, deed.subject = i → deed.event ≠ event) : event ∉ lifeOf i record := by
  intro hevent
  obtain ⟨deed, hdeed, rfl⟩ := List.mem_map.mp hevent
  obtain ⟨hdeed, hcounts⟩ := List.mem_filter.mp hdeed
  have hsubject : deed.subject = i := by simpa using (Bool.and_eq_true_iff.mp hcounts).1
  exact h deed hdeed hsubject rfl

/-- The life of a source whose worker has ended, whatever its hooks do: it is a whole one, or the
source has broken down while it ran. Such a source was made ready and is never finished, unlike a
processor on a worker of its own. -/
theorem life_of_ended {v : World P} {moves : List (Move P)} (h : w.AboutToLaunch me t u rest)
    (hstep : w.step me = some w') (hcourse : w'.follow moves = some v)
    (hnever : .source t u ∉ w'.started moves) (hended : v.hasEnded w.threads.length = true) :
    SourceLife (lifeOf (.source t u) (w'.record moves)) ∨
      lifeOf (.source t u) (w'.record moves) =
        Hook.prepare.call .returned ++ Hook.start.call .panicked := by
  obtain ⟨⟨launch, agenda, hlaunched⟩, -⟩ := (h.launcher hstep).toLaunched.follow hcourse hnever
  rw [List.nil_append] at hlaunched
  exact hlaunched.stage.whole_or_broken (hlaunched.agenda_eq_nil hended)

/-- The life of a source whose hooks do not break down, on every course after its launch. It
runs at most once, and only if it became ready; it is finished once if it became ready, and
never otherwise, and that comes last. It is all done by one thread, which sees a whole life
if it comes to its end, and cannot be stuck outside of a hook. If the launch comes to its end
because the time of the source has passed, the source does not run then and never will. -/
theorem source_life {v : World P} {moves : List (Move P)} (h : w.AboutToLaunch me t u rest)
    (hstep : w.step me = some w') (hcourse : w'.follow moves = some v)
    (hnever : .source t u ∉ w'.started moves)
    (hsound : ∀ deed ∈ w'.record moves, deed.subject = .source t u →
      ∀ hook, deed.event ≠ .ends hook .panicked) :
    (∃ whole, SourceLife whole ∧ lifeOf (.source t u) (w'.record moves) <+: whole) ∧
    (v.hasEnded w.threads.length = true → SourceLife (lifeOf (.source t u) (w'.record moves))) ∧
    (v.step w.threads.length = none →
      SourceLife (lifeOf (.source t u) (w'.record moves)) ∨
        InsideHook (lifeOf (.source t u) (w'.record moves))) ∧
    (∀ deed ∈ w'.record moves, deed.subject = .source t u → deed.event.hook.isVital = true →
      deed.thread = w.threads.length) ∧
    ∀ before later z, moves = before ++ later → w'.follow before = some z →
      StaysAway me rest w' before → z.IsBack me rest → (z.answerOf me).IsInitTimeout →
      (lifeOf (.source t u) (w'.record before)).getLast? ≠ some (.calls .start) ∧
        ∀ deed ∈ z.record later, deed.subject = .source t u → deed.event.hook ≠ .start := by
  have hlauncher := h.launcher hstep
  obtain ⟨⟨launch, agenda, hlaunched⟩, hthreads⟩ := hlauncher.toLaunched.follow hcourse hnever
  rw [List.nil_append] at hlaunched
  have hnot : .ends .start .panicked ∉ lifeOf (.source t u) (w'.record moves) :=
    not_mem_lifeOf fun deed hdeed hsubject => hsound deed hdeed hsubject .start
  refine ⟨hlaunched.stage.prefix_life hnot, fun hended => ?_,
    fun hstuck => hlaunched.stuck hstuck hnot,
    hthreads, ?_⟩
  · exact hlaunched.stage.whole (hlaunched.agenda_eq_nil hended) hnot
  · rintro before later z rfl hz haway hback htimeout
    rw [record_append hz] at hsound
    rw [started_append hz, List.mem_append, not_or] at hnever
    obtain ⟨launch, agenda, todo, hlater⟩ := hlauncher.follow hz hnever.1 haway
      fun deed hdeed hsubject => hsound deed (List.mem_append_left _ hdeed) hsubject .halt
    -- The thread is back, so it has nothing to do any more for the launch.
    obtain rfl : todo = [] := by
      have hagenda := hlater.todo_eq.symm.trans (isBack_iff.mp hback)
      simpa using hagenda
    obtain ⟨hphase, hunmoving⟩ : Retired launch agenda := by
      cases hlater.launcher with
      | back hretired => exact hretired htimeout
    rw [follow_append, hz] at hcourse
    refine ⟨hlater.stage.not_inside hunmoving, ?_⟩
    exact hlater.follow_retired hphase hunmoving hcourse hnever.2

end World

/-! ## A launch that comes too late -/

/-- Plugins whose sources need some time to become ready. -/
def slowPlugins : Plugins :=
  { relayPlugins with
    source :=
      { relayPlugins.source with
        prepare := fun again _ _ =>
          { reply := if again then .returned () else .waiting none, plugin := (), shared := () } } }

/-- A world whose main thread is about to launch the one source of its trigger, which has a
second to become ready. -/
def slowWorld : World slowPlugins where
  shared := ()
  triggers :=
    [{ name := "tick"
       gate := { name := "tick" }
       units := [{ name := "tick-unit1", source := () }]
       initWithin := .ofSeconds 1 }]
  threads := [{ agenda := [.source (.startSource 0 0)] }]

/-- A course on which the main thread gives the source up when its time has passed. -/
def slowStart : List (Move slowPlugins) :=
  [.step 1, .pass Duration.perSecond, .step 0, .step 0, .step 0]

/-- A course on which the source becomes ready then. -/
def slowEnd : List (Move slowPlugins) :=
  [.step 1, .step 1, .step 1]

/-- A source that becomes ready after its time has passed is finished and never runs. -/
theorem World.source_life_slow : ∃ w z v : World slowPlugins,
    slowWorld.AboutToLaunch 0 0 0 [] ∧ slowWorld.step 0 = some w ∧
    w.follow slowStart = some z ∧ z.IsBack 0 [] ∧ (z.answerOf 0).IsInitTimeout ∧
    z.follow slowEnd = some v ∧ v.hasEnded 1 = true ∧
    SourceLife (lifeOf (.source 0 0) (w.record (slowStart ++ slowEnd))) ∧
    ∀ deed ∈ z.record slowEnd, deed.subject = .source 0 0 → deed.event.hook ≠ .start := by
  have habout : slowWorld.AboutToLaunch 0 0 0 [] := by
    refine ⟨⟨_, rfl, rfl⟩, rfl, fun j agenda hagenda task htask => ?_,
      fun j agenda hagenda task htask => ?_⟩
    all_goals
      obtain rfl := List.mem_singleton.mp (List.mem_of_getElem? hagenda)
      obtain rfl := List.mem_singleton.mp htask
    · simp [Task.charge?]
    · simp [Task.launch?]
  refine ⟨_, _, _, habout, rfl, rfl, ⟨_, rfl, rfl⟩, ⟨_, _, rfl⟩, rfl, rfl, ?_⟩
  have hlife := @World.source_life slowPlugins slowWorld _ 0 0 0 [] _ (slowStart ++ slowEnd) habout
    rfl rfl List.not_mem_nil fun deed hdeed _ hook => by
      have hdeed : deed ∈ [⟨1, .source 0 0, .calls .prepare⟩,
        ⟨1, .source 0 0, .ends .prepare .returned⟩, ⟨1, .source 0 0, .calls .finish⟩,
        ⟨1, .source 0 0, .ends .finish .returned⟩] := hdeed
      simp only [List.mem_cons, List.not_mem_nil, or_false] at hdeed
      rcases hdeed with rfl | rfl | rfl | rfl <;> simp
  obtain ⟨-, hended, -, -, htimeout⟩ := hlife
  refine ⟨hended rfl, (htimeout slowStart slowEnd _ rfl rfl ?_ ⟨_, rfl, rfl⟩ ⟨_, _, rfl⟩).2⟩
  -- Until then the main thread waits for the source, or is about to say how that ended.
  iterate 5 refine .cons (not_isBack rfl (by simp)) rfl ?_
  trivial

end EventPipeline
