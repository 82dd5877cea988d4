import EventPipeline.Proofs.Lifecycle.Turn

/-!
# `EventPipeline.Proofs.Lifecycle.Launch`: the life of a source

A source that is launched lives on a worker thread of its own. `SourceStage` says how far it
has come: what the worker still has to do, how far the launch is, and which hooks were called.
Every move leaves it at one of the stages (`Launched.move`), unless the source is launched once
more. A source that was given up before it ran never runs (`Retired.move`).
-/

set_option autoImplicit false

namespace EventPipeline

variable {P : Plugins}

/-- The source has run, or it was given up and has not. -/
inductive HasRun (launch : Launch) : List HookEvent → Prop
  | never (hphase : launch.phase = .dismissed) : HasRun launch []
  | ran (upshot : Upshot) (hphase : launch.phase ≠ .pending) :
    HasRun launch (Hook.start.call upshot)

/-- How far a launch of a source has come: what its worker has to do, and the life of the
source on record. -/
inductive SourceStage (t u l : Nat) (launch : Launch) : List Task → List HookEvent → Prop
  | preparing (asked : Bool) (hready : launch.ready = none) (hphase : launch.phase ≠ .started) :
    SourceStage t u l launch [.source (.prepare t u l asked)] (Hook.prepare.entered asked)
  | silent (hready : launch.ready = none) (hphase : launch.phase ≠ .started) :
    SourceStage t u l launch [] (Hook.prepare.call .panicked)
  | unfit (unit reason : String) (hready : launch.ready = some (.error (.initFailed unit reason)))
    (hphase : launch.phase ≠ .started) : SourceStage t u l launch [] (Hook.prepare.call .failed)
  | ready (delivered : Bool) (hready : launch.ready = some (.ok ()))
    (hphase : launch.phase ≠ .started)
    (hdelivered : delivered = false → launch.phase = .dismissed) :
    SourceStage t u l launch [.source (.begin t u l delivered)] (Hook.prepare.call .returned)
  | running (errands : List Task) (made : Nat) (resting : Option (Option Duration))
    (herrands : ∀ errand ∈ errands, errand.isErrand = true)
    (hmade : errands ≠ [] → made ≠ 0) (hready : launch.ready = some (.ok ()))
    (hphase : launch.phase ≠ .pending) :
    SourceStage t u l launch (errands ++ [.source (.advance t u made resting)])
      (Hook.prepare.call .returned ++ Hook.start.entered (decide (made ≠ 0) || resting.isSome))
  | finishing (ran : List HookEvent) (asked : Bool) (hran : HasRun launch ran)
    (hready : launch.ready = some (.ok ())) :
    SourceStage t u l launch [.source (.finish t u asked)]
      (Hook.prepare.call .returned ++ ran ++ Hook.finish.entered asked)
  | complete (ran : List HookEvent) (finished : Upshot) (hran : HasRun launch ran)
    (hready : launch.ready = some (.ok ())) :
    SourceStage t u l launch []
      (Hook.prepare.call .returned ++ ran ++ Hook.finish.call finished)
  | broken (hready : launch.ready = some (.ok ())) (hphase : launch.phase ≠ .pending) :
    SourceStage t u l launch []
      (Hook.prepare.call .returned ++ Hook.start.call .panicked)

/-- The launch is given up by whoever waits for it. -/
def Launch.giveUp (launch : Launch) : Launch :=
  { launch with phase := .dismissed, awaited := false }

/-- None of the tasks has a source run. -/
def Unmoving (agenda : List Task) : Prop :=
  ∀ t u made resting, Task.source (.advance t u made resting) ∉ agenda

/-- A launch that is given up leaves its source at the same stage. -/
theorem SourceStage.giveUp {t u l : Nat} {launch : Launch} {agenda : List Task}
    {life : List HookEvent} (h : SourceStage t u l launch agenda life) :
    SourceStage t u l launch.giveUp agenda life := by
  have hrun {ran : List HookEvent} (hran : HasRun launch ran) : HasRun launch.giveUp ran := by
    cases hran with
    | never => exact .never rfl
    | ran upshot => exact .ran upshot (by simp [Launch.giveUp])
  cases h with
  | preparing asked hready => exact .preparing asked hready (by simp [Launch.giveUp])
  | silent hready => exact .silent hready (by simp [Launch.giveUp])
  | unfit unit reason hready => exact .unfit unit reason hready (by simp [Launch.giveUp])
  | ready delivered hready =>
    exact .ready delivered hready (by simp [Launch.giveUp]) fun _ => rfl
  | running errands made resting herrands hmade hready =>
    exact .running errands made resting herrands hmade hready (by simp [Launch.giveUp])
  | finishing ran asked hran hready => exact .finishing ran asked (hrun hran) hready
  | complete ran finished hran hready => exact .complete ran finished (hrun hran) hready
  | broken hready => exact .broken hready (by simp [Launch.giveUp])

/-- The worker of a source launches nothing. -/
theorem SourceStage.summons?_eq {t u l : Nat} {launch : Launch} {task : Task} {rest : List Task}
    {life : List HookEvent} (h : SourceStage t u l launch (task :: rest) life) :
    task.summons? = none := by
  generalize hagenda : task :: rest = agenda at h
  cases h with
  | silent | unfit | complete | broken => cases hagenda
  | preparing | ready | finishing =>
    obtain ⟨rfl, -⟩ := List.cons.inj hagenda
    rfl
  | running errands made resting herrands =>
    cases errands with
    | nil =>
      obtain ⟨rfl, -⟩ := List.cons.inj hagenda
      rfl
    | cons errand errands =>
      obtain ⟨rfl, -⟩ := List.cons.inj hagenda
      exact Task.summons?_of_errand (herrands task (List.mem_cons_self ..))

/-- Whoever has somebody take care of a source launches it. -/
theorem Task.starts?_of_summons {task : Task} {t u : Nat}
    (h : task.summons? = some (.source t u)) : task.starts? = some (.source t u) := by
  cases task with
  | source task => cases task <;> exact h
  | unit task => cases task <;> cases h
  | _ => cases h

/-- A task that calls a hook that makes up the life of a plugin takes care of that life. -/
theorem Task.charge?_of_call {task : Task} {call : HookCall} (h : task.call? = some call)
    (hvital : call.hook.isVital = true) : task.charge? = some call.subject := by
  cases task with
  | event task =>
    cases task with
    | process =>
      obtain rfl := Option.some.inj h
      cases hvital
    | _ => cases h
  | unit task =>
    cases task with
    | prepareInline | prepareWorker | finishInline | finishWorker =>
      obtain rfl := Option.some.inj h
      rfl
    | _ => cases h
  | source task =>
    cases task with
    | prepare | advance | finish =>
      obtain rfl := Option.some.inj h
      rfl
    | halt =>
      obtain rfl := Option.some.inj h
      cases hvital
    | _ => cases h
  | _ => cases h

/-- Only a source that runs is called to start. -/
theorem Task.advance_of_call {task : Task} {call : HookCall} (h : task.call? = some call)
    (hstart : call.hook = .start) :
    ∃ t u made resting, task = .source (.advance t u made resting) := by
  cases task with
  | event task =>
    cases task <;> cases h
    cases hstart
  | unit task => cases task <;> cases h <;> cases hstart
  | source task =>
    cases task with
    | advance t u made resting => exact ⟨t, u, made, resting, rfl⟩
    | _ => cases h <;> cases hstart
  | _ => cases h

namespace World

variable {w w' : World P} {k l t u : Nat} {task : Task} {rest : List Task}
  {progress : Progress P} {expired : Bool} {launch : Launch} {life : List HookEvent}

/-- What a turn of the worker makes of a launch and of the stage of its source. Nobody but
who waits for the launch can give it up, and a source that was given up does not move. -/
structure Advances (w' : World P) (t u l : Nat) (launch : Launch) (agenda next : List Task)
    (life : List HookEvent) : Prop where
  goesOn : ∃ later, w'.launches[l]? = some later ∧ later.awaited = launch.awaited ∧
    (later.phase = .dismissed ↔ launch.phase = .dismissed) ∧ SourceStage t u l later next life
  unmoving : launch.phase = .dismissed → Unmoving agenda → Unmoving next

/-- A turn with which the source comes to a stage. -/
theorem Turn.advances (h : w.Turn k expired task rest progress w') {later : Launch}
    {agenda : List Task} (hlater : progress.world.launches[l]? = some later)
    (hawaited : later.awaited = launch.awaited)
    (hphase : later.phase = .dismissed ↔ launch.phase = .dismissed)
    (hstage : SourceStage t u l later (progress.next rest) life)
    (hunmoving : launch.phase = .dismissed → Unmoving agenda → Unmoving (progress.next rest)) :
    w'.Advances t u l launch agenda (progress.next rest) life :=
  ⟨⟨later, h.launches ▸ hlater, hawaited, hphase, hstage⟩, hunmoving⟩

/-- The worker makes the source ready. -/
theorem Turn.advances_prepare {asked : Bool} (hready : launch.ready = none)
    (hphase : launch.phase ≠ .started) (hlaunch : w.launches[l]? = some launch)
    (hawaited : launch.awaited = false → launch.phase = .dismissed)
    (h : w.Turn k expired (.source (.prepare t u l asked)) [] progress w') :
    w'.Advances t u l launch [.source (.prepare t u l asked)] (progress.next [])
      (Hook.prepare.entered asked ++
        lifeOf (.source t u) (w.deedsOf k expired (.source (.prepare t u l asked)))) := by
  have hperform : w.prepareSource t u l asked = some progress := h.performs
  simp only [prepareSource, Option.bind_eq_bind, Option.bind_eq_some_iff] at hperform
  obtain ⟨unit, hunit, ⟨reply, called⟩, hcall, hperform⟩ := hperform
  have hcalled : called.launches[l]? = some launch := by
    rw [(Near.refl.callSource hcall).launches, hlaunch]
  have hchanged (f : Launch → Launch) :
      (called.changeLaunch l f).launches[l]? = some (f launch) := by
    show (called.launches.modify l f)[l]? = _
    rw [List.getElem?_modify_eq, hcalled]
    rfl
  have hupshot : w.upshot? expired (.source (.prepare t u l asked)) = reply.upshot? := by
    simp [upshot?, hcall]
  rw [lifeOf_deedsOf rfl rfl, hupshot]
  cases reply with
  | waiting limit =>
    cases asked with
    | true => simp at hperform
    | false =>
      obtain rfl : _ = progress := by simpa [andThen] using hperform
      exact h.advances hcalled rfl Iff.rfl (.preparing true hready hphase)
        (by simp [Unmoving, Progress.next])
  | panicked text =>
    obtain rfl : _ = progress := by simpa using hperform
    refine h.advances hcalled rfl Iff.rfl ?_ (by simp [Unmoving, Progress.next])
    rw [Reply.upshot?, Hook.entered_append_some]
    exact .silent hready hphase
  | failed error =>
    obtain rfl : _ = progress := by simpa [done] using hperform
    refine h.advances (hchanged _) rfl Iff.rfl ?_ (by simp [Unmoving, Progress.next])
    rw [Reply.upshot?, Hook.entered_append_some]
    exact .unfit unit.name error.message rfl hphase
  | returned value =>
    obtain ⟨found, hfound, hperform⟩ := Option.bind_eq_some_iff.mp hperform
    obtain rfl : launch = found := by simpa [hlaunch] using hfound
    obtain rfl : _ = progress := by simpa [andThen] using hperform
    refine h.advances (hchanged _) rfl Iff.rfl ?_ (by simp [Unmoving, Progress.next])
    rw [Reply.upshot?, Hook.entered_append_some]
    exact .ready launch.awaited rfl hphase hawaited

/-- The worker lets the source run, unless it was given up. -/
theorem Turn.advances_begin {delivered : Bool} (hready : launch.ready = some (.ok ()))
    (hdelivered : delivered = false → launch.phase = .dismissed)
    (hlaunch : w.launches[l]? = some launch)
    (h : w.Turn k expired (.source (.begin t u l delivered)) [] progress w') :
    w'.Advances t u l launch [.source (.begin t u l delivered)] (progress.next [])
      (Hook.prepare.call .returned ++
        lifeOf (.source t u) (w.deedsOf k expired (.source (.begin t u l delivered)))) := by
  have hperform : w.beginSource t u l delivered = some progress := h.performs
  obtain ⟨found, hfound, hperform⟩ := Option.bind_eq_some_iff.mp hperform
  obtain rfl : launch = found := by simpa [hlaunch] using hfound
  have hchanged (f : Launch → Launch) :
      (w.changeLaunch l f).launches[l]? = some (f launch) := by
    show (w.launches.modify l f)[l]? = _
    rw [List.getElem?_modify_eq, hlaunch]
    rfl
  rw [lifeOf_deedsOf_none rfl, List.append_nil]
  split at hperform
  case isTrue hdismissed =>
    have hphase : launch.phase = .dismissed := by
      simp only [Bool.or_eq_true, Bool.not_eq_true', decide_eq_true_eq] at hdismissed
      exact hdismissed.elim hdelivered id
    obtain rfl : _ = progress := by simpa [andThen] using hperform
    refine h.advances (hchanged _) rfl ?_ (.finishing [] false (.never rfl) hready)
      (by simp [Unmoving, Progress.next])
    simp [hphase]
  case isFalse hdismissed =>
    have hphase : launch.phase ≠ .dismissed := by
      simp only [Bool.or_eq_true, decide_eq_true_eq, not_or] at hdismissed
      exact hdismissed.2
    obtain rfl : _ = progress := by simpa [andThen] using hperform
    refine h.advances (hchanged _) rfl ?_ (.running [] 0 none (by simp) (by simp) hready (by simp))
      fun hdismissed => absurd hdismissed hphase
    simp [hphase]

/-- A running source does its next move, or is done. -/
theorem Turn.advances_run {made : Nat} {resting : Option (Option Duration)}
    (hready : launch.ready = some (.ok ())) (hphase : launch.phase ≠ .pending)
    (hlaunch : w.launches[l]? = some launch)
    (h : w.Turn k expired (.source (.advance t u made resting)) [] progress w') :
    w'.Advances t u l launch [.source (.advance t u made resting)] (progress.next [])
      (Hook.prepare.call .returned ++ Hook.start.entered (decide (made ≠ 0) || resting.isSome) ++
        lifeOf (.source t u) (w.deedsOf k expired (.source (.advance t u made resting)))) := by
  have hperform : w.advanceSource expired t u made resting = some progress := h.performs
  simp only [advanceSource, Option.bind_eq_bind, Option.bind_eq_some_iff] at hperform
  obtain ⟨unit, hunit, ⟨reply, called⟩, hcall, hperform⟩ := hperform
  have hcalled : called.launches[l]? = some launch := by
    rw [(Near.refl.callSource hcall).launches, hlaunch]
  -- The agenda held a move of the source, so nothing is to be shown of one without.
  have hunmoving {next : List Task} (_ : launch.phase = .dismissed)
      (hagenda : Unmoving [.source (.advance t u made resting)]) : Unmoving next :=
    absurd (List.mem_singleton_self _) (hagenda t u made resting)
  rw [List.append_assoc, lifeOf_deedsOf rfl rfl]
  have hended (upshot : Upshot)
      (hupshot : w.upshot? expired (.source (.advance t u made resting)) = some upshot) :
      Hook.start.entered (decide (made ≠ 0) || resting.isSome) ++
        HookCall.events ⟨.source t u, .start, decide (made ≠ 0) || resting.isSome⟩
          (w.upshot? expired (.source (.advance t u made resting))) = Hook.start.call upshot := by
    rw [hupshot, Hook.entered_append_some]
  have hgoes (hupshot : w.upshot? expired (.source (.advance t u made resting)) = none) :
      Hook.start.entered (decide (made ≠ 0) || resting.isSome) ++
        HookCall.events ⟨.source t u, .start, decide (made ≠ 0) || resting.isSome⟩
          (w.upshot? expired (.source (.advance t u made resting))) = Hook.start.entered true := by
    rw [hupshot, Hook.entered_append_none]
  have hfinishing (upshot : Upshot) :
      SourceStage t u l launch [.source (.finish t u false)]
        (Hook.prepare.call .returned ++ Hook.start.call upshot) := by
    have hstage := SourceStage.finishing (t := t) (u := u) (l := l) _ false
      (.ran upshot hphase) hready
    rwa [show Hook.finish.entered false = [] from rfl, List.append_nil] at hstage
  cases reply with
  | waiting limit =>
    cases resting with
    | some rest => simp at hperform
    | none =>
      obtain rfl : _ = progress := by simpa [andThen] using hperform
      refine h.advances hcalled rfl Iff.rfl ?_ hunmoving
      rw [hgoes (by simp only [upshot?, hcall]; rfl)]
      have hstage := SourceStage.running (t := t) (u := u) (l := l) [] made (some limit)
        (by simp) (by simp) hready hphase
      rwa [Option.isSome_some, Bool.or_true] at hstage
  | panicked text =>
    obtain rfl : _ = progress := by simpa using hperform
    refine h.advances hcalled rfl Iff.rfl ?_ hunmoving
    rw [hended .panicked (by simp [upshot?, hcall, Reply.upshot?])]
    exact .broken hready hphase
  | failed error =>
    obtain rfl : _ = progress := by simpa [andThen] using hperform
    refine h.advances hcalled rfl Iff.rfl ?_ hunmoving
    rw [hended .failed (by simp [upshot?, hcall, Reply.upshot?])]
    exact hfinishing .failed
  | returned move =>
    cases move with
    | done =>
      obtain rfl : _ = progress := by simpa [andThen] using hperform
      refine h.advances hcalled rfl Iff.rfl ?_ hunmoving
      rw [hended .returned (by simp [upshot?, hcall, Reply.upshot?])]
      exact hfinishing .returned
    | emit payload continuation =>
      obtain rfl : _ = progress := by simpa [andThen] using hperform
      refine h.advances hcalled rfl Iff.rfl ?_ hunmoving
      rw [hgoes (by simp [upshot?, hcall])]
      have hstage := SourceStage.running (t := t) (u := u) (l := l)
        [.event (.make (.trigger t) payload continuation)] (made + 1) none
        (by simp [Task.isErrand]) (by simp) hready hphase
      simpa [Progress.next] using hstage

/-- The worker handles an event that its source has emitted. -/
theorem Turn.advances_errand {errands : List Task} {made : Nat}
    {resting : Option (Option Duration)}
    (herrands : ∀ errand ∈ task :: errands, errand.isErrand = true) (hmade : made ≠ 0)
    (hready : launch.ready = some (.ok ())) (hphase : launch.phase ≠ .pending)
    (hlaunch : w.launches[l]? = some launch)
    (h : w.Turn k expired task (errands ++ [.source (.advance t u made resting)]) progress w') :
    w'.Advances t u l launch (task :: errands ++ [.source (.advance t u made resting)])
      (progress.next (errands ++ [.source (.advance t u made resting)]))
      (Hook.prepare.call .returned ++ Hook.start.entered (decide (made ≠ 0) || resting.isSome) ++
        lifeOf (.source t u) (w.deedsOf k expired task)) := by
  have herrand : task.isErrand = true := herrands task (List.mem_cons_self ..)
  obtain ⟨v, todo, rfl, htodo⟩ := h.errands herrand
  have hcharge : task.charge? = none := by
    cases task <;> first | rfl | cases herrand
  have hlaunch? : task.launch? = none := by
    cases task <;> first | rfl | cases herrand
  have hkept : v.launches[l]? = some launch := by
    rw [← hlaunch]
    exact h.reaches.launches l (List.getElem?_eq_some_iff.mp hlaunch).1 (by simp [hlaunch?])
  rw [lifeOf_deedsOf_ne (by simp [hcharge]), List.append_nil]
  refine h.advances hkept rfl Iff.rfl ?_ fun _ hagenda =>
    absurd (by simp) (hagenda t u made resting)
  rw [Progress.next, ← List.append_assoc]
  refine .running _ made resting (fun errand hmem => ?_) (fun _ => hmade) hready hphase
  rcases List.mem_append.mp hmem with hmem | hmem
  · exact htodo errand hmem
  · exact herrands errand (List.mem_cons_of_mem _ hmem)

/-- The worker finishes the source. -/
theorem Turn.advances_finish {ran : List HookEvent} {asked : Bool} (hran : HasRun launch ran)
    (hready : launch.ready = some (.ok ())) (hlaunch : w.launches[l]? = some launch)
    (h : w.Turn k expired (.source (.finish t u asked)) [] progress w') :
    w'.Advances t u l launch [.source (.finish t u asked)] (progress.next [])
      (Hook.prepare.call .returned ++ ran ++ Hook.finish.entered asked ++
        lifeOf (.source t u) (w.deedsOf k expired (.source (.finish t u asked)))) := by
  have hperform : w.finishSource t u asked = some progress := h.performs
  simp only [finishSource, Option.bind_eq_bind, Option.bind_eq_some_iff] at hperform
  obtain ⟨⟨reply, called⟩, hcall, hperform⟩ := hperform
  have hcalled : called.launches[l]? = some launch := by
    rw [(Near.refl.callSource hcall).launches, hlaunch]
  have hupshot : w.upshot? expired (.source (.finish t u asked)) = reply.upshot? := by
    simp [upshot?, hcall]
  rw [List.append_assoc, lifeOf_deedsOf rfl rfl, hupshot]
  cases reply with
  | waiting limit =>
    cases asked with
    | true => simp at hperform
    | false =>
      obtain rfl : _ = progress := by simpa [andThen] using hperform
      exact h.advances hcalled rfl Iff.rfl (.finishing ran true hran hready)
        (by simp [Unmoving, Progress.next])
  | panicked text =>
    obtain rfl : _ = progress := by simpa using hperform
    refine h.advances hcalled rfl Iff.rfl ?_ (by simp [Unmoving, Progress.next])
    rw [Reply.upshot?, Hook.entered_append_some]
    exact .complete ran .panicked hran hready
  | failed error =>
    obtain rfl : _ = progress := by simpa [done] using hperform
    refine h.advances hcalled rfl Iff.rfl ?_ (by simp [Unmoving, Progress.next])
    rw [Reply.upshot?, Hook.entered_append_some]
    exact .complete ran .failed hran hready
  | returned value =>
    obtain rfl : _ = progress := by simpa [done] using hperform
    refine h.advances hcalled rfl Iff.rfl ?_ (by simp [Unmoving, Progress.next])
    rw [Reply.upshot?, Hook.entered_append_some]
    exact .complete ran .returned hran hready

/-- A turn of the worker brings the source to a stage. -/
theorem Turn.advances_stage (hstage : SourceStage t u l launch (task :: rest) life)
    (hlaunch : w.launches[l]? = some launch)
    (hawaited : launch.awaited = false → launch.phase = .dismissed)
    (h : w.Turn k expired task rest progress w') :
    w'.Advances t u l launch (task :: rest) (progress.next rest)
      (life ++ lifeOf (.source t u) (w.deedsOf k expired task)) := by
  generalize hagenda : task :: rest = agenda at hstage
  cases hstage with
  | preparing asked hready hphase =>
    obtain ⟨rfl, rfl⟩ := List.cons.inj hagenda
    exact h.advances_prepare hready hphase hlaunch hawaited
  | silent | unfit | complete | broken => cases hagenda
  | ready delivered hready hphase hdelivered =>
    obtain ⟨rfl, rfl⟩ := List.cons.inj hagenda
    exact h.advances_begin hready hdelivered hlaunch
  | running errands made resting herrands hmade hready hphase =>
    cases errands with
    | nil =>
      obtain ⟨rfl, rfl⟩ := List.cons.inj hagenda
      exact h.advances_run hready hphase hlaunch
    | cons errand errands =>
      obtain ⟨rfl, rfl⟩ := List.cons.inj hagenda
      exact h.advances_errand herrands (hmade (by simp)) hready hphase hlaunch
  | finishing ran asked hran hready =>
    obtain ⟨rfl, rfl⟩ := List.cons.inj hagenda
    exact h.advances_finish hran hready hlaunch

/-! ## All moves -/

/-- The source was launched on the worker `k`, which has come to a stage. Nobody but the
thread `me` can give it up, and nobody else takes care of its life. -/
structure Launched (w : World P) (me t u l k : Nat) (launch : Launch) (agenda : List Task)
    (life : List HookEvent) : Prop where
  remains : (w.source? t u).isSome = true
  agenda_eq : w.agendas[k]? = some agenda
  launch_eq : w.launches[l]? = some launch
  awaited : launch.awaited = false → launch.phase = .dismissed
  stage : SourceStage t u l launch agenda life
  held : w.HeldBy k (.source t u)
  named : w.Tasks fun j task => task.launch? = some l →
    task.subject? = some (.source t u) ∧ (j = k ∨ j = me)

/-- Waiting for a source changes no launch. -/
theorem launches_awaitSource {worker : Nat}
    (h : w.awaitSource expired t u l worker = some progress) :
    progress.world.launches = w.launches := by
  have hcomes : ComesTo (fun progress : Progress P => progress.world.launches = w.launches)
      (w.awaitSource expired t u l worker) := by
    have hgoes (v : World P) (todo : List Task) (hv : v.launches = w.launches) :
        ComesTo (fun progress : Progress P => progress.world.launches = w.launches)
          (v.andThen todo) := by
      rintro _ ⟨⟩
      exact hv
    refine .bind fun unit _ => .bind fun launch _ => ?_
    split
    · exact hgoes _ _ rfl
    · exact .ite (hgoes _ _ rfl) .none
    · exact .ite (hgoes _ _ rfl) (.ite (hgoes _ _ rfl) .none)
  exact hcomes progress h

/-- What a thread that does not take care of a source can do to its launch: give it up. -/
theorem Turn.launch_cases {me : Nat} (h : w.Turn me expired task rest progress w')
    (hlaunch : w.launches[l]? = some launch)
    (hnamed : task.launch? = some l → task.subject? = some (.source t u))
    (hcharge : task.charge? ≠ some (.source t u)) :
    (∀ worker, task ≠ .source (.giveUp t u l worker)) ∧ w'.launches[l]? = some launch ∨
      (∃ worker, task = .source (.giveUp t u l worker)) ∧
        w'.launches[l]? = some launch.giveUp := by
  by_cases hl : task.launch? = some l
  case neg =>
    refine .inl ⟨fun worker hgives => hl (hgives ▸ rfl), ?_⟩
    exact (h.launch_eq (List.getElem?_eq_some_iff.mp hlaunch).1 hl).trans hlaunch
  have hsubject := hnamed hl
  cases task with
  | source task =>
    cases task with
    | prepare s i m asked => exact absurd hsubject hcharge
    | begin s i m delivered => exact absurd hsubject hcharge
    | await s i m worker =>
      refine .inl ⟨by simp, ?_⟩
      rw [h.launches, launches_awaitSource h.performs, hlaunch]
    | giveUp s i m worker =>
      obtain rfl : m = l := Option.some.inj hl
      obtain ⟨rfl, rfl⟩ : s = t ∧ i = u := by
        simpa [Task.subject?, SourceTask.subject?] using hsubject
      refine .inr ⟨⟨worker, rfl⟩, ?_⟩
      have hperform : w.giveUpSource s i m worker = some progress := h.performs
      simp only [giveUpSource, Option.bind_eq_bind, Option.bind_eq_some_iff] at hperform
      obtain ⟨trigger, -, unit, -, found, -, hperform⟩ := hperform
      obtain rfl : _ = progress := by simpa [andThen] using hperform
      rw [h.launches]
      show (w.launches.modify m Launch.giveUp)[m]? = _
      rw [List.getElem?_modify_eq, hlaunch]
      rfl
    | _ => cases hl
  | _ => cases hl

namespace Launched

variable {me : Nat} {agenda : List Task}

/-- The launch is one of the world. -/
theorem lt (h : w.Launched me t u l k launch agenda life) : l < w.launches.length :=
  (List.getElem?_eq_some_iff.mp h.launch_eq).1

/-- After a turn, too, only tasks of the source name the launch. -/
theorem named_turn (h : w.Launched me t u l k launch agenda life) {j : Nat}
    (hturn : w.Turn j expired task rest progress w') :
    w'.Tasks fun j task => task.launch? = some l →
      task.subject? = some (.source t u) ∧ (j = k ∨ j = me) := by
  have hfresh : some w.launches.length ≠ some l := fun heq =>
    absurd (Option.some.inj heq) (Nat.ne_of_gt h.lt)
  refine hturn.tasks h.named (fun next _ hstems hnext => ?_) fun i next _ hspawns hnext => ?_
  · obtain hnone | hsame | ⟨hnew, -⟩ := hstems.2.2.1
    · exact absurd (hnone.symm.trans hnext) (by simp)
    · obtain ⟨hsubject, hthread⟩ := hturn.task_holds h.named (hsame.symm.trans hnext)
      refine ⟨?_, hthread⟩
      obtain hfree | hsubject' | happroaches := hstems.1
      · exact absurd ((Task.launch?_of_free hfree).symm.trans hnext) (by simp)
      · exact hsubject'.trans hsubject
      · exact absurd ((Task.launch?_of_approaches happroaches).symm.trans hnext) (by simp)
    · exact absurd (hnew.symm.trans hnext) hfresh
  · obtain hnone | hnew := hspawns.2.2.1
    · exact absurd (hnone.symm.trans hnext) (by simp)
    · exact absurd (hnew.symm.trans hnext) hfresh

/-- The source was launched, also after a move that leaves everything alone. -/
theorem same (h : w.Launched me t u l k launch agenda life) (hsame : Same w w') :
    w'.Launched me t u l k launch agenda life where
  remains := by rw [hsame.source?]; exact h.remains
  agenda_eq := by rw [hsame.agendas]; exact h.agenda_eq
  launch_eq := by rw [hsame.launches]; exact h.launch_eq
  awaited := h.awaited
  stage := h.stage
  held := hsame.tasks h.held
  named := hsame.tasks h.named

/-- The worker of a source takes its turn. -/
theorem turn_self (h : w.Launched me t u l k launch agenda life)
    (hturn : w.Turn k expired task rest progress w') :
    ∃ later, later.awaited = launch.awaited ∧
      (later.phase = .dismissed ↔ launch.phase = .dismissed) ∧
      (launch.phase = .dismissed → Unmoving agenda → Unmoving (progress.next rest)) ∧
      w'.Launched me t u l k later (progress.next rest)
        (life ++ lifeOf (.source t u) (w.deedsOf k expired task)) := by
  obtain rfl : agenda = task :: rest := Option.some.inj (h.agenda_eq.symm.trans hturn.agenda)
  obtain ⟨⟨later, hlater, hawaited, hphase, hstage⟩, hunmoving⟩ :=
    hturn.advances_stage h.stage h.launch_eq h.awaited
  have hsummons : task.summons? ≠ some (.source t u) := by
    rw [h.stage.summons?_eq]
    simp
  refine ⟨later, hawaited, hphase, hunmoving, hturn.remains h.remains, hturn.agenda_me, hlater,
    ?_, hstage, h.held.turn hturn hsummons, h.named_turn hturn⟩
  rw [hawaited, hphase]
  exact h.awaited

/-- Another thread takes its turn. It calls none of the hooks that the worker calls, and at
most gives the source up. -/
theorem turn_other {j : Nat} (h : w.Launched me t u l k launch agenda life) (hj : j ≠ k)
    (hsummons : task.summons? ≠ some (.source t u))
    (hturn : w.Turn j expired task rest progress w') :
    lifeOf (.source t u) (w.deedsOf j expired task) = [] ∧
      ((∀ worker, task ≠ .source (.giveUp t u l worker)) ∧
          w'.Launched me t u l k launch agenda life ∨
        (∃ worker, task = .source (.giveUp t u l worker)) ∧
          w'.Launched me t u l k launch.giveUp agenda life) := by
  have hcharge : task.charge? ≠ some (.source t u) := fun hcharge =>
    hj (hturn.task_holds h.held hcharge)
  have hnamed (hl : task.launch? = some l) : task.subject? = some (.source t u) :=
    (hturn.task_holds h.named hl).1
  refine ⟨lifeOf_deedsOf_ne hcharge, ?_⟩
  obtain ⟨hkeeps, hkept⟩ | ⟨hgives, hgiven⟩ := hturn.launch_cases h.launch_eq hnamed hcharge
  · exact .inl ⟨hkeeps, hturn.remains h.remains, hturn.agenda_ne hj.symm h.agenda_eq, hkept,
      h.awaited,
      h.stage, h.held.turn hturn hsummons, h.named_turn hturn⟩
  · exact .inr ⟨hgives, hturn.remains h.remains, hturn.agenda_ne hj.symm h.agenda_eq, hgiven,
      fun _ => rfl, h.stage.giveUp, h.held.turn hturn hsummons, h.named_turn hturn⟩

/-- What the worker does next is on record, and what it has done stays there. -/
theorem move (h : w.Launched me t u l k launch agenda life) {move : Move P}
    (hmove : w.move move = some w') (hstarts : w.starts? move ≠ some (.source t u)) :
    ∃ later next, w'.Launched me t u l k later next
        (life ++ lifeOf (.source t u) (w.deeds move)) ∧
      (launch.phase = .dismissed → Unmoving agenda → later.phase = .dismissed ∧ Unmoving next) := by
  obtain ⟨j, expired, task, rest, progress, rfl, hturn⟩ | ⟨hdeeds, hsame⟩ := move_cases hmove
  case inr =>
    rw [hdeeds, lifeOf_nil, List.append_nil]
    exact ⟨launch, agenda, h.same hsame, fun hphase hunmoving => ⟨hphase, hunmoving⟩⟩
  rw [hturn.deeds]
  by_cases hj : j = k
  case pos =>
    subst hj
    obtain rfl : agenda = task :: rest := Option.some.inj (h.agenda_eq.symm.trans hturn.agenda)
    obtain ⟨later, -, hphase, hunmoving, hlater⟩ := h.turn_self hturn
    exact ⟨later, _, hlater, fun hdismissed hstill =>
      ⟨hphase.mpr hdismissed, hunmoving hdismissed hstill⟩⟩
  have hsummons : task.summons? ≠ some (.source t u) := fun hsummons =>
    hstarts (hturn.starts.trans (Task.starts?_of_summons hsummons))
  obtain ⟨hlife, hlater⟩ := h.turn_other hj hsummons hturn
  rw [hlife, List.append_nil]
  obtain ⟨-, hlater⟩ | ⟨-, hlater⟩ := hlater
  · exact ⟨launch, agenda, hlater, fun hphase hunmoving => ⟨hphase, hunmoving⟩⟩
  · exact ⟨launch.giveUp, agenda, hlater, fun _ hunmoving => ⟨rfl, hunmoving⟩⟩

/-- Only the worker calls the hooks that make up the life of the source. -/
theorem thread_eq (h : w.Launched me t u l k launch agenda life) {move : Move P}
    (hmove : w.move move = some w') {deed : Deed} (hdeed : deed ∈ w.deeds move)
    (hsubject : deed.subject = .source t u) (hvital : deed.event.hook.isVital = true) :
    deed.thread = k := by
  obtain ⟨j, expired, task, rest, progress, rfl, hturn⟩ | ⟨hdeeds, -⟩ := move_cases hmove
  case inr =>
    rw [hdeeds] at hdeed
    cases hdeed
  rw [hturn.deeds] at hdeed
  obtain ⟨hthread, call, hcall, hcalled, hevent⟩ := mem_deedsOf hdeed
  rw [HookCall.hook_of_mem hevent] at hvital
  rw [hthread]
  refine hturn.task_holds h.held ?_
  rw [Task.charge?_of_call hcall hvital, ← hcalled, hsubject]

/-- A source that does not run and cannot be begun is not called to start. -/
theorem not_starts (h : w.Launched me t u l k launch agenda life) (hunmoving : Unmoving agenda)
    {move : Move P} (hmove : w.move move = some w') {deed : Deed} (hdeed : deed ∈ w.deeds move)
    (hsubject : deed.subject = .source t u) : deed.event.hook ≠ .start := by
  intro hhook
  obtain rfl : deed.thread = k := h.thread_eq hmove hdeed hsubject (by rw [hhook]; rfl)
  obtain ⟨j, expired, task, rest, progress, rfl, hturn⟩ | ⟨hdeeds, -⟩ := move_cases hmove
  case inr =>
    rw [hdeeds] at hdeed
    cases hdeed
  rw [hturn.deeds] at hdeed
  obtain ⟨rfl, call, hcall, hcalled, hevent⟩ := mem_deedsOf hdeed
  rw [HookCall.hook_of_mem hevent] at hhook
  obtain ⟨s, i, made, resting, rfl⟩ := Task.advance_of_call hcall hhook
  obtain rfl : agenda = _ := Option.some.inj (h.agenda_eq.symm.trans hturn.agenda)
  exact hunmoving s i made resting (List.mem_cons_self ..)

/-- The source was launched, also after a course. What its worker does is on record, and
nobody else calls the hooks that make up its life. -/
theorem follow {moves : List (Move P)} {v : World P}
    (h : w.Launched me t u l k launch agenda life) (hcourse : w.follow moves = some v)
    (hnever : .source t u ∉ w.started moves) :
    (∃ later next, v.Launched me t u l k later next
      (life ++ lifeOf (.source t u) (w.record moves))) ∧
    ∀ deed ∈ w.record moves, deed.subject = .source t u → deed.event.hook.isVital = true →
      deed.thread = k := by
  induction moves generalizing w launch agenda life with
  | nil =>
    obtain rfl := Option.some.inj hcourse
    rw [record, lifeOf_nil, List.append_nil]
    exact ⟨⟨launch, agenda, h⟩, by simp⟩
  | cons move moves ih =>
    obtain ⟨z, hmove, hcourse⟩ := Option.bind_eq_some_iff.mp hcourse
    obtain ⟨later, next, hlater, -⟩ := h.move hmove (starts?_ne hnever)
    obtain ⟨hlaunched, hthreads⟩ := ih hlater hcourse (not_started_tail hnever hmove)
    rw [record, hmove, Option.elim_some, lifeOf_append, ← List.append_assoc]
    refine ⟨hlaunched, fun deed hdeed hsubject hvital => ?_⟩
    rcases List.mem_append.mp hdeed with hdeed | hdeed
    · exact h.thread_eq hmove hdeed hsubject hvital
    · exact hthreads deed hdeed hsubject hvital

/-- A source that was given up before it ran is never called to start. -/
theorem follow_retired {moves : List (Move P)} {v : World P}
    (h : w.Launched me t u l k launch agenda life) (hphase : launch.phase = .dismissed)
    (hunmoving : Unmoving agenda) (hcourse : w.follow moves = some v)
    (hnever : .source t u ∉ w.started moves) :
    ∀ deed ∈ w.record moves, deed.subject = .source t u → deed.event.hook ≠ .start := by
  induction moves generalizing w launch agenda life with
  | nil => simp [record]
  | cons move moves ih =>
    obtain ⟨z, hmove, hcourse⟩ := Option.bind_eq_some_iff.mp hcourse
    obtain ⟨later, next, hlater, hretired⟩ := h.move hmove (starts?_ne hnever)
    obtain ⟨hphase, hstill⟩ := hretired hphase hunmoving
    rw [record, hmove, Option.elim_some]
    intro deed hdeed hsubject
    rcases List.mem_append.mp hdeed with hdeed | hdeed
    · exact h.not_starts hunmoving hmove hdeed hsubject
    · exact ih hlater hphase hstill hcourse (not_started_tail hnever hmove) deed hdeed hsubject

end Launched

end World
end EventPipeline
