import EventPipeline.Proofs.Lifecycle.Units

/-!
# `EventPipeline.Proofs.Lifecycle.Sources`: starting and stopping one source

The main thread launches a source that was never started on a worker, and halts one that is up.
A start makes the source come up, or it fails; a source that has begun to run before it was given
up is halted at once, and so it comes down (`Safe.start_source`). A source that is up and is
stopped comes down (`Safe.stop_source`). In both cases it has come down only when its worker has
ended.
-/

set_option autoImplicit false

namespace EventPipeline

variable {P : Plugins}

namespace SourceStage

variable {t u l : Nat} {launch : Launch} {agenda : List Task} {life : List HookEvent}

/-- A source that has said that it is ready was made ready. -/
theorem prepared (h : SourceStage t u l launch agenda life)
    (hready : launch.ready = some (.ok ())) : Hook.prepare.call .returned <+: life := by
  cases h with
  | preparing _ hunready | silent hunready | unfit _ _ hunready =>
    rw [hunready] at hready
    cases hready
  | ready => exact List.prefix_rfl
  | running | broken => exact List.prefix_append ..
  | finishing | complete =>
    rw [List.append_assoc]
    exact List.prefix_append ..

/-- A source that runs has said that it is ready. -/
theorem ready_of_started (h : SourceStage t u l launch agenda life)
    (hphase : launch.phase = .started) : launch.ready = some (.ok ()) := by
  cases h with
  | preparing _ _ hidle | silent _ hidle | unfit _ _ _ hidle | ready _ _ hidle =>
    exact absurd hphase hidle
  | running | finishing | complete | broken => assumption

/-- A source whose worker has ended without having said that it is ready was not made ready. -/
theorem unfit_of_ended (h : SourceStage t u l launch agenda life) (hagenda : agenda = [])
    (hready : launch.ready ≠ some (.ok ())) :
    ∃ upshot, upshot ≠ .returned ∧ life = Hook.prepare.call upshot := by
  cases h with
  | silent => exact ⟨.panicked, by simp, rfl⟩
  | unfit => exact ⟨.failed, by simp, rfl⟩
  | preparing => cases hagenda
  | ready | running | finishing | complete | broken => contradiction

/-- A source that nobody has let run was not called to start. -/
theorem not_started_of_pending (h : SourceStage t u l launch agenda life)
    (hphase : launch.phase = .pending) : .calls .start ∉ life := by
  have hnever {ran : List HookEvent} (hran : HasRun launch ran) : ran = [] := by
    cases hran with
    | never => rfl
    | ran _ hbegun => exact absurd hphase hbegun
  cases h with
  | preparing asked => cases asked <;> simp [Hook.entered]
  | silent | unfit | ready => simp [Hook.call]
  | running _ _ _ _ _ _ hbegun | broken _ hbegun => exact absurd hphase hbegun
  | finishing ran asked hran =>
    rw [hnever hran]
    cases asked <;> simp [Hook.entered, Hook.call]
  | complete ran finished hran =>
    rw [hnever hran]
    simp [Hook.call]

/-- A source that was not called to start has not broken down while it ran. -/
theorem sound_of_not_started (h : SourceStage t u l launch agenda life)
    (hnever : .calls .start ∉ life) : .ends .start .panicked ∉ life := by
  have hran {ran : List HookEvent} (hran : HasRun launch ran) (hnever : .calls .start ∉ ran) :
      ran = [] := by
    cases hran with
    | never => rfl
    | ran upshot => simp [Hook.call] at hnever
  cases h with
  | preparing asked => cases asked <;> simp [Hook.entered]
  | silent | unfit | ready => simp [Hook.call]
  | running errands made resting =>
    cases hmade : (decide (made ≠ 0) || resting.isSome) <;> simp [Hook.entered, Hook.call]
  | finishing ran asked hrun =>
    rw [hran hrun fun hmem => hnever (by simp [hmem])]
    cases asked <;> simp [Hook.entered, Hook.call]
  | complete ran finished hrun =>
    rw [hran hrun fun hmem => hnever (by simp [hmem])]
    simp [Hook.call]
  | broken => simp [Hook.call] at hnever

/-- The worker of a source that does not run has nothing to do but with the source. -/
theorem subject?_of_unmoving (h : SourceStage t u l launch agenda life) (hstill : Unmoving agenda) :
    ∀ task ∈ agenda, task.subject? = some (.source t u) := by
  intro task htask
  cases h with
  | silent | unfit | complete | broken => cases htask
  | preparing | ready | finishing =>
    obtain rfl := List.mem_singleton.mp htask
    rfl
  | running errands made resting => exact absurd (by simp) (hstill t u made resting)

end SourceStage

namespace World

variable {w w' v built : World P} {t u l k : Nat} {task : Task} {rest agenda todo : List Task}
  {progress : Progress P} {expired asked : Bool} {record : List Deed} {standing : Standing}
  {launch : Launch} {source : SourceOutline}

/-! ## What a turn of the main thread leaves -/

/-- The main thread brings a source to a stage and leaves its worker where it is. -/
theorem SourceStands.of_tended (hturn : w.Turn 0 expired task rest progress w') (hk : k ≠ 0)
    (h : w.Launched 0 t u l k launch agenda (lifeOf (.source t u) record))
    (hcalled : CalledBy k (.source t u) record) (hsummons : task.summons? = none)
    (hkeeps : ∀ worker, task ≠ .source (.giveUp t u l worker))
    (hsource : (progress.world.source? t u).map SourceUnit.outline = some source)
    (hstage : TendedStage source l k launch agenda (lifeOf (.source t u) record)
      (haltsOf (.source t u) record ++ haltsOf (.source t u) (w.deedsOf 0 expired task)) standing) :
    w'.SourceStands (record ++ w.deedsOf 0 expired task) t u standing := by
  obtain ⟨hlife, hlater⟩ := h.turn_other hk.symm (by simp [hsummons]) hturn
  obtain ⟨-, hlater⟩ | ⟨⟨worker, hgives⟩, -⟩ := hlater
  case inr => exact absurd hgives (hkeeps worker)
  have hsame : lifeOf (.source t u) (record ++ w.deedsOf 0 expired task) =
      lifeOf (.source t u) record := by
    rw [lifeOf_append, hlife, List.append_nil]
  refine .tended l k launch agenda source hk (hsame ▸ hlater) ?_ ?_ (hcalled.turn h.held hturn)
  · rw [hturn.source?]
    exact hsource
  · rw [hsame, haltsOf_append]
    exact hstage

/-- What shows of a source after a change of it. -/
theorem source?_changed {f : SourceUnit P → SourceUnit P} {g : SourceOutline → SourceOutline}
    (h : (w.source? t u).map SourceUnit.outline = some source)
    (hf : ∀ unit, (f unit).outline = g unit.outline) :
    ((w.changeSource t u f).source? t u).map SourceUnit.outline = some (g source) := by
  obtain ⟨unit, hunit, rfl⟩ := Option.map_eq_some_iff.mp h
  rw [source?_changeSource, if_pos ⟨rfl, rfl⟩, hunit, Option.map_some, Option.map_some, hf]

/-- What shows of a source does not change with a call of a hook. -/
theorem source?_called {α : Type} {hook : P.Source → P.Shared → Call P.Source P.Shared NodeError α}
    {reply : Reply NodeError α} {called : World P}
    (hcall : w.callSource t u hook = some (reply, called)) :
    (called.source? t u).map SourceUnit.outline = (w.source? t u).map SourceUnit.outline := by
  rw [← outline_source?, (callSource_eq hcall).1, outline_source?]

/-- Nobody asks a source to stop with a task that calls no hook. -/
theorem haltsOf_deedsOf_none {i : Instance} (h : task.call? = none) :
    haltsOf i (w.deedsOf 0 expired task) = [] := by
  rw [haltsOf, eventsOf_deedsOf, h]
  rfl

variable {error : StreamError} {goal : List Deed → World P → Prop} {σ : Instance → Standing}
  {told : Answer}

namespace Safe

/-! ## Starting -/

/-- Launching a source that was never started. -/
theorem startSource (hσ : σ (.source t u) = .untouched)
    (hexists : ∀ w : World P, w.frame = built.frame → (w.source? t u).isSome = true)
    (hlaunched : ∀ l k, Safe built error goal (Function.update σ (.source t u) (.launched l k)) told
      (.source (.await t u l k) :: rest)) :
    Safe built error goal σ told (.source (.startSource t u) :: rest) := by
  refine of_subject (.inr rfl) (by simp) (by simp)
    fun w w' record expired progress hscene hstands hturn => ?_
  rw [hσ] at hstands
  cases hstands with
  | tended _ _ _ _ _ _ _ _ hstage => cases hstage
  | untouched _ h hrecord =>
    have hsource := hexists w hscene.frame_eq
    obtain ⟨-, hlater⟩ := hturn.launches_source hsource h.not_charge hscene.crew.known
    obtain ⟨unit, hunit⟩ := Option.isSome_iff_exists.mp hsource
    obtain rfl := Option.some.inj hturn.performs
    refine .goOn (.launched w.launches.length w.threads.length) ?_ (hlaunched _ _)
    have hk : w.threads.length ≠ 0 := Nat.ne_of_gt (w.length_agendas ▸ hturn.me_lt)
    have hnone : ∀ deed ∈ record ++ w.deedsOf 0 expired (.source (.startSource t u)),
        deed.subject ≠ .source t u := fun deed hdeed =>
      hrecord deed (List.append_nil record ▸ hdeed)
    refine .tended w.launches.length w.threads.length {}
      [.source (.prepare t u w.launches.length false)] unit.outline hk ?_ ?_ ?_
      fun deed hdeed hsubject => absurd hsubject (hnone deed hdeed)
    · rw [lifeOf_eq_nil hnone]
      exact hlater
    · rw [hturn.source?]
      show (w.source? t u).map SourceUnit.outline = _
      rw [hunit]
      rfl
    · rw [lifeOf_eq_nil hnone, haltsOf_eq_nil hnone]
      exact .launched (h.source t u rfl unit hunit) (by simp) rfl

/-- Waiting for a source to be ready. -/
theorem await (hσ : σ (.source t u) = .launched l k)
    (hup : Safe built error goal (Function.update σ (.source t u) .up) told (.answer .ok :: rest))
    (hfailed : ∀ reason, Safe built error goal (Function.update σ (.source t u) .failed) told
      (.failed reason :: rest))
    (hgivesUp : Safe built error goal σ told (.source (.giveUp t u l k) :: rest)) :
    Safe built error goal σ told (.source (.await t u l k) :: rest) := by
  refine of_subject (.inr rfl) (by simp) (by simp)
    fun w w' record expired progress hscene hstands hturn => ?_
  rw [hσ] at hstands
  cases hstands with
  | untouched hstanding => cases hstanding
  | tended _ _ launch agenda source hk h hsource hstage hcalled =>
    cases hstage with
    | launched hrunning hphase hhalts =>
    have hperform : w.awaitSource expired t u l k = some progress := hturn.performs
    simp only [awaitSource, Option.bind_eq_bind, Option.bind_eq_some_iff] at hperform
    obtain ⟨unit, -, found, hfound, hperform⟩ := hperform
    obtain rfl := Option.some.inj (h.launch_eq.symm.trans hfound)
    have hasked : haltsOf (.source t u) record ++
        haltsOf (.source t u) (w.deedsOf 0 expired (.source (.await t u l k))) = [] := by
      rw [hhalts, haltsOf_deedsOf_none rfl]
      rfl
    have hfails (hended : w.hasEnded k = true) (hready : launch.ready ≠ some (.ok ()))
        (hsame : progress.world = w) :
        w'.Stands (record ++ w.deedsOf 0 expired (.source (.await t u l k)))
          (.source t u) .failed := by
      have hempty := h.agenda_eq_nil hended
      obtain ⟨upshot, hne, hlife⟩ := h.stage.unfit_of_ended hempty hready
      refine .of_tended hturn hk h hcalled rfl (by simp) (hsame ▸ hsource) ?_
      exact .failed upshot hrunning hasked hne hlife hempty
    split at hperform
    case h_1 hready =>
      obtain rfl := Option.some.inj hperform
      refine .goOn .up (.of_tended hturn hk h hcalled rfl (by simp) (source?_changed
        (g := fun _ => { running := true, worker := some k }) hsource fun _ => rfl) ?_) hup
      exact .up rfl (h.stage.prepared hready) hasked
    case h_2 reason hready =>
      split at hperform
      case isTrue hended =>
        obtain rfl := Option.some.inj hperform
        exact .goOn .failed (hfails hended (by simp [hready]) rfl) (hfailed reason)
      case isFalse => cases hperform
    case h_3 hready =>
      split at hperform
      case isTrue hended =>
        obtain rfl := Option.some.inj hperform
        exact .goOn .failed (hfails hended (by simp [hready]) rfl) (hfailed _)
      case isFalse =>
        split at hperform
        case isTrue =>
          obtain rfl := Option.some.inj hperform
          refine .goOn (.launched l k) (.of_tended hturn hk h hcalled rfl (by simp) hsource ?_)
            (by rw [← hσ, Function.update_eq_self]; exact hgivesUp)
          exact .launched hrunning hphase hasked
        case isFalse => cases hperform

/-- Giving up a source that was not ready in time. -/
theorem giveUp (hσ : σ (.source t u) = .launched l k)
    (hlate : ∀ unit within, Safe built error goal (Function.update σ (.source t u) .late) told
      (.failed (.initTimeout unit within) :: rest))
    (hruns : ∀ name unit within, Safe built error goal
      (Function.update σ (.source t u) (.halting k false)) told
      (.source (.halt t u false) :: .source (.join name k) ::
        .failed (.initTimeout unit within) :: rest)) :
    Safe built error goal σ told (.source (.giveUp t u l k) :: rest) := by
  refine of_subject (.inr rfl) (by simp) (by simp)
    fun w w' record expired progress hscene hstands hturn => ?_
  rw [hσ] at hstands
  cases hstands with
  | untouched hstanding => cases hstanding
  | tended _ _ launch agenda source hk h hsource hstage hcalled =>
    cases hstage with
    | launched hrunning hphase hhalts =>
    obtain ⟨hlife, hlater⟩ := h.turn_other hk.symm (by simp [Task.summons?]) hturn
    obtain ⟨hkeeps, -⟩ | ⟨-, hlater⟩ := hlater
    case inl => exact absurd rfl (hkeeps k)
    have hperform : w.giveUpSource t u l k = some progress := hturn.performs
    simp only [giveUpSource, Option.bind_eq_bind, Option.bind_eq_some_iff] at hperform
    obtain ⟨trigger, -, unit, -, found, hfound, hperform⟩ := hperform
    obtain rfl := Option.some.inj (h.launch_eq.symm.trans hfound)
    obtain rfl := Option.some.inj hperform
    have hshows : (w'.source? t u).map SourceUnit.outline = some source := by
      rw [hturn.source?]
      exact hsource
    have hsame : lifeOf (.source t u) (record ++ w.deedsOf 0 expired (.source (.giveUp t u l k))) =
        lifeOf (.source t u) record := by
      rw [lifeOf_append, hlife, List.append_nil]
    have hasked : haltsOf (.source t u)
        (record ++ w.deedsOf 0 expired (.source (.giveUp t u l k))) = [] := by
      rw [haltsOf_append, hhalts, haltsOf_deedsOf_none rfl]
      rfl
    have hcalled := hcalled.turn h.held hturn
    by_cases hstarted : launch.phase = .started
    · refine .goOn (.halting k false) (.tended l k launch.giveUp agenda source hk (hsame ▸ hlater)
        hshows ?_ hcalled) (by rw [if_pos hstarted]; exact hruns _ _ _)
      rw [hsame, hasked]
      exact .halting false hrunning (h.stage.prepared (h.stage.ready_of_started hstarted)) rfl
    · have hpending : launch.phase = .pending := by
        cases hlaunch : launch.phase with
        | pending => rfl
        | started => exact absurd hlaunch hstarted
        | dismissed => exact absurd hlaunch hphase
      refine .goOn .late (.tended l k launch.giveUp agenda source hk (hsame ▸ hlater) hshows ?_
        hcalled) (by rw [if_neg hstarted]; exact hlate _ _)
      rw [hsame, hasked]
      exact .late hrunning rfl (h.stage.not_started_of_pending hpending)
        ⟨rfl, h.stage.unmoving_of_pending hpending⟩

/-! ## Stopping -/

/-- Asking a source to stop, once it has been asked to. -/
theorem halt_step (hσ : σ (.source t u) = .halting k asked)
    (hwait : asked = false → Safe built error goal
      (Function.update σ (.source t u) (.halting k true)) told (.source (.halt t u true) :: rest))
    (hhalted : Safe built error goal (Function.update σ (.source t u) (.halted k)) told rest) :
    Safe built error goal σ told (.source (.halt t u asked) :: rest) := by
  refine of_subject (.inr rfl) (by simp) (by simp)
    fun w w' record expired progress hscene hstands hturn => ?_
  rw [hσ] at hstands
  cases hstands with
  | untouched hstanding => cases hstanding
  | tended l _ launch agenda source hk h hsource hstage hcalled =>
    cases hstage with
    | halting _ hrunning hprepared hhalts =>
    have hperform : w.haltSource t u asked = some progress := hturn.performs
    simp only [haltSource, Option.bind_eq_bind, Option.bind_eq_some_iff] at hperform
    obtain ⟨⟨reply, called⟩, hcall, hperform⟩ := hperform
    have hshows : (called.source? t u).map SourceUnit.outline = some source :=
      (source?_called hcall).trans hsource
    have hupshot : w.upshot? expired (.source (.halt t u asked)) = reply.upshot? := by
      simp [upshot?, hcall]
    have hadds : haltsOf (.source t u) record ++
        haltsOf (.source t u) (w.deedsOf 0 expired (.source (.halt t u asked))) =
        Hook.halt.entered asked ++ HookCall.events ⟨.source t u, .halt, asked⟩ reply.upshot? := by
      rw [hhalts, haltsOf, eventsOf_deedsOf, hupshot]
      exact congrArg _ (if_pos ⟨rfl, rfl⟩)
    have hends (upshot : Upshot) (h : reply.upshot? = some upshot) :
        haltsOf (.source t u) record ++
          haltsOf (.source t u) (w.deedsOf 0 expired (.source (.halt t u asked))) =
        Hook.halt.call upshot := by
      rw [hadds, h, Hook.entered_append_some]
    cases reply with
    | waiting limit =>
      cases asked with
      | true => cases hperform
      | false =>
        obtain rfl := Option.some.inj hperform
        refine .goOn (.halting k true) (.of_tended hturn hk h hcalled rfl (by simp) hshows ?_)
          (hwait rfl)
        rw [hadds, Reply.upshot?, Hook.entered_append_none]
        exact .halting true hrunning hprepared rfl
    | panicked text =>
      obtain rfl := Option.some.inj hperform
      exact .breakDown
    | returned value =>
      obtain rfl := Option.some.inj hperform
      refine .goOn (.halted k) (.of_tended hturn hk h hcalled rfl (by simp) hshows ?_) hhalted
      exact .halted .returned hrunning hprepared (hends .returned rfl)
    | failed reason =>
      obtain rfl := Option.some.inj hperform
      refine .goOn (.halted k) (.of_tended hturn hk h hcalled rfl (by simp) hshows ?_) hhalted
      exact .halted .failed hrunning hprepared (hends .failed rfl)

/-- Waiting for the end of the worker of a source that was asked to stop. -/
theorem join {name : String} (hσ : σ (.source t u) = .halted k)
    (h : Safe built error goal (Function.update σ (.source t u) .down) told rest) :
    Safe built error goal σ told (.source (.join name k) :: rest) := by
  refine of_subject (i := .source t u) (.inl rfl) (by simp) (by simp)
    fun w w' record expired progress hscene hstands hturn => ?_
  rw [hσ] at hstands
  cases hstands with
  | untouched hstanding => cases hstanding
  | tended l _ launch agenda source hk hworker hsource hstage hcalled =>
    cases hstage with
    | halted upshot hrunning hprepared hhalts =>
    have hshows := hturn.reaches.sources rfl t u (by simp [Task.subject?, SourceTask.subject?])
    obtain ⟨hended, v, rfl⟩ := joinSource_cases hturn.performs hworker.agenda_eq
    refine .goOn .down (.of_tended hturn hk hworker hcalled rfl (by simp) (hshows ▸ hsource) ?_) h
    rw [haltsOf_deedsOf_none rfl, List.append_nil]
    exact .down upshot hrunning hprepared hhalts hended

/-- A source that is to stop comes down. -/
theorem halt {name : String} (hσ : σ (.source t u) = .halting k false)
    (h : Safe built error goal (Function.update σ (.source t u) .down) told rest) :
    Safe built error goal σ told (.source (.halt t u false) :: .source (.join name k) :: rest) := by
  have hself (σ : Instance → Standing) (standing : Standing) :
      Function.update σ (.source t u) standing (.source t u) = standing := Function.update_self ..
  refine halt_step hσ (fun _ => halt_step (hself _ _) (fun hasked => by cases hasked) ?_) ?_
  all_goals refine join (hself _ _) ?_
  · rwa [Function.update_idem, Function.update_idem]
  · rwa [Function.update_idem]

/-- Stopping a source that is up. -/
theorem stopSource (hσ : σ (.source t u) = .up)
    (hhalting : ∀ k name, Safe built error goal
      (Function.update σ (.source t u) (.halting k false)) told
      (.source (.halt t u false) :: .source (.join name k) :: rest)) :
    Safe built error goal σ told (.source (.stopSource t u) :: rest) := by
  refine of_subject (.inr rfl) (by simp) (by simp)
    fun w w' record expired progress hscene hstands hturn => ?_
  rw [hσ] at hstands
  cases hstands with
  | untouched hstanding => cases hstanding
  | tended l k launch agenda source hk h hsource hstage hcalled =>
    cases hstage with
    | up hruns hprepared hhalts =>
    subst hruns
    obtain ⟨unit, hunit, hshows⟩ := Option.map_eq_some_iff.mp hsource
    have hrunning : unit.running = true := congrArg SourceOutline.running hshows
    have hworker : unit.worker = some k := congrArg SourceOutline.worker hshows
    have hperform : w.stopSource t u = some progress := hturn.performs
    simp only [World.stopSource, hunit, hrunning, hworker, if_true, Option.bind_eq_bind,
      Option.bind_some] at hperform
    obtain rfl := Option.some.inj hperform
    refine .goOn (.halting k false) (.of_tended hturn hk h hcalled rfl (by simp) (source?_changed
      (g := fun _ => { running := false, worker := none }) hsource fun _ => rfl) ?_) (hhalting k _)
    rw [hhalts, haltsOf_deedsOf_none rfl]
    exact .halting false rfl hprepared rfl

/-- A source that is up and is stopped comes down. -/
theorem stop_source (hσ : σ (.source t u) = .up)
    (h : Safe built error goal (Function.update σ (.source t u) .down) told rest) :
    Safe built error goal σ told (.source (.stopSource t u) :: rest) := by
  refine stopSource hσ fun k name => halt (Function.update_self ..) ?_
  rwa [Function.update_idem]

/-- A source that is started comes up, or it fails. -/
theorem start_source (hσ : σ (.source t u) = .untouched)
    (hexists : ∀ w : World P, w.frame = built.frame → (w.source? t u).isSome = true)
    (hup : Safe built error goal (Function.update σ (.source t u) .up) .ok rest)
    (hfailed : ∀ reason standing, standing.FailsWith reason (.source t u) →
      Safe built error goal (Function.update σ (.source t u) standing)
        (.failed (.node reason)) rest) :
    Safe built error goal σ told (.source (.startSource t u) :: rest) := by
  have hself (σ : Instance → Standing) (standing : Standing) :
      Function.update σ (.source t u) standing (.source t u) = standing := Function.update_self ..
  refine startSource hσ hexists fun l k => await (hself _ _) ?_ (fun reason => ?_)
    (giveUp (hself _ _) (fun unit within => ?_) fun name unit within => halt (hself _ _) ?_)
  · rw [Function.update_idem]
    exact answer _ hup
  · rw [Function.update_idem]
    exact answer _ (hfailed reason .failed (.inl rfl))
  · rw [Function.update_idem]
    exact answer _ (hfailed _ .late (.inr ⟨⟨unit, within, rfl⟩, .inl rfl⟩))
  · rw [Function.update_idem, Function.update_idem]
    exact answer _ (hfailed _ .down (.inr ⟨⟨unit, within, rfl⟩, .inr ⟨rfl, t, u, rfl⟩⟩))

end Safe

end World
end EventPipeline
