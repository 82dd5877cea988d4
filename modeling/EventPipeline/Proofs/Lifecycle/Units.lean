import EventPipeline.Proofs.Lifecycle.Conductor

/-!
# `EventPipeline.Proofs.Lifecycle.Units`: starting and stopping one processor

The main thread starts a processor that was never started, and stops one that is up. A start
makes the processor come up, or fail (`Safe.start_processor`), and a stop brings it down
(`Safe.stop_processor`), whatever the workers do meanwhile. Both are put together from one rule
for each task on the way.
-/

set_option autoImplicit false

namespace EventPipeline

variable {P : Plugins}

/-- A stage does not depend on what only the main thread changes of a unit. -/
theorem WorkerStage.congr {n u : Nat} {signs later : Signs} {agenda : List Task}
    {life : List HookEvent} (h : WorkerStage n u signs agenda life)
    (hready : later.ready = signs.ready)
    (halive : later.alive = signs.alive) : WorkerStage n u later agenda life := by
  cases h with
  | preparing asked hunready hlives =>
    exact .preparing asked (hready.trans hunready) (halive.trans hlives)
  | unfit upshot hne hunready => exact .unfit upshot hne (hready.trans hunready)
  | receiving errands herrands hruns =>
    exact .receiving errands herrands ⟨hready.trans hruns.1, halive.trans hruns.2⟩
  | looking hruns => exact .looking ⟨hready.trans hruns.1, halive.trans hruns.2⟩
  | finishing asked hruns => exact .finishing asked ⟨hready.trans hruns.1, halive.trans hruns.2⟩
  | finished upshot hwas => exact .finished upshot (hready.trans hwas)

namespace World

variable {w w' v built : World P} {n u k : Nat} {task : Task} {rest agenda todo : List Task}
  {progress : Progress P} {expired asked : Bool} {record : List Deed} {standing : Standing}
  {life : List HookEvent} {signs later : Signs}

/-! ## What a turn of the main thread leaves -/

/-- A processor that gets no events gets none from the main thread. -/
theorem Spared.conduct (h : w.Spared record n u) (hturn : w.Turn 0 expired task rest progress w')
    (hfeeds : task.feeds? = none) (hserves : task.serves? = none)
    (hempty : ∀ unit, progress.world.unit? n u = some unit → unit.state.waiting = 0) :
    w'.Spared (record ++ w.deedsOf 0 expired task) n u := by
  have hnone {next : Task} (hstems : task.StemsFrom w.launches.length next) :
      next.feeds? ≠ some (.processor n u) := by
    obtain hnext | hnext | hnext := hstems.2.2.2.1
    · simp [hnext]
    · simp [hnext, hfeeds]
    · simp [hnext, hserves]
  refine ⟨⟨fun unit hunit => hempty unit (hturn.unit? n u ▸ hunit), ?_⟩,
    fun deed hdeed hsubject => ?_⟩
  · exact hturn.tasks h.unfed.tasks (fun next _ hstems => hnone hstems) fun j next _ hspawns =>
      hnone hspawns.1
  · rcases List.mem_append.mp hdeed with hdeed | hdeed
    · exact h.record deed hdeed hsubject
    · exact h.unfed.not_process hturn hdeed hsubject

/-- A plugin that was never started is spared. -/
theorem Untouched.spared (h : w.Untouched (.processor n u))
    (hrecord : ∀ deed ∈ record, deed.subject ≠ .processor n u) : w.Spared record n u :=
  ⟨h.unfed, fun deed hdeed hsubject => absurd hsubject (hrecord deed hdeed)⟩

/-- The main thread brings an inline processor to a stage. -/
theorem ProcessorStands.of_inline (accepting : Bool)
    (hturn : w.Turn 0 expired task rest progress w') (hheld : w.HeldBy 0 (.processor n u))
    (hcalled : CalledBy 0 (.processor n u) record)
    (hagendas : progress.world.agendas = w.agendas)
    (hsigns : progress.world.signs? n u = some { accepting })
    (hstage : InlineStage accepting
      (lifeOf (.processor n u) record ++ lifeOf (.processor n u) (w.deedsOf 0 expired task))
        standing)
    (hspared : standing.isSpared = true →
      w.Spared record n u ∧ task.feeds? = none ∧ task.serves? = none) :
    w'.ProcessorStands (record ++ w.deedsOf 0 expired task) n u standing := by
  refine .inline accepting ?_ (hturn.tasks_alone hagendas hheld fun _ _ _ => rfl)
    (lifeOf_append ▸ hstage) (fun hspare => ?_) (hcalled.turn hheld hturn)
  · rw [signs?, hturn.unit?]
    exact hsigns
  · obtain ⟨hspared, hfeeds, hserves⟩ := hspared hspare
    refine hspared.conduct hturn hfeeds hserves fun unit hunit => ?_
    have hqueued : unit.state.signs.queued = false := by
      rw [signs?, hunit] at hsigns
      exact congrArg Signs.queued (Option.some.inj hsigns)
    cases hstate : unit.state with
    | inline => rfl
    | queued =>
      rw [hstate] at hqueued
      cases hqueued

/-- The main thread changes the signs of a queued unit, but the worker of the processor stays
where it is. -/
theorem ProcessorStands.of_queued (hturn : w.Turn 0 expired task rest progress w') (hk : k ≠ 0)
    (h : w.Enlisted n u k signs agenda (lifeOf (.processor n u) record))
    (hcalled : CalledBy k (.processor n u) record)
    (hagendas : progress.world.agendas = w.agendas)
    (hnone : task.charge? = none ∧ ∀ next ∈ progress.todo, next.charge? = none)
    (hsigns : progress.world.signs? n u = some later) (hqueued : later.queued = true)
    (hready : later.ready = signs.ready) (halive : later.alive = signs.alive)
    (hstage : QueuedStage later agenda (lifeOf (.processor n u) record) standing)
    (hspared : standing.isSpared = true →
      w'.Spared (record ++ w.deedsOf 0 expired task) n u ∧ Errandless agenda) :
    w'.ProcessorStands (record ++ w.deedsOf 0 expired task) n u standing := by
  have hlife : lifeOf (.processor n u) (record ++ w.deedsOf 0 expired task) =
      lifeOf (.processor n u) record := by
    rw [lifeOf_append, lifeOf_deedsOf_ne (by simp [hnone.1]), List.append_nil]
  rw [← hlife] at hstage h
  refine .queued k later agenda hk ⟨?_, hqueued, hturn.agenda_ne hk h.agenda_eq,
    h.stage.congr hready halive, ?_⟩ hstage hspared (hcalled.turn h.held hturn)
  · rw [signs?, hturn.unit?]
    exact hsigns
  · refine hturn.tasks_alone hagendas h.held fun next hnext hcharge => ?_
    rw [hnone.2 next hnext] at hcharge
    cases hcharge

/-! ## Starting -/

/-- A queued unit that was never started gets a worker. -/
theorem ProcessorStands.of_startUnit {unit : ExecutionUnit P}
    (hturn : w.Turn 0 expired (.unit (.startUnit n u)) rest progress w')
    (h : w.Untouched (.processor n u)) (hrecord : ∀ deed ∈ record, deed.subject ≠ .processor n u)
    (hunit : w.unit? n u = some unit) (hstate : unit.state = .queued {})
    (hprogress : progress = .goOn ((w.changeUnit n u (·.changeQueue fun s =>
      { s with taken := true, connected := true, alive := true })).spawn
        [.unit (.prepareWorker n u false)]).2 [.unit (.awaitWorker n u)]) :
    w'.ProcessorStands (record ++ w.deedsOf 0 expired (.unit (.startUnit n u))) n u .awaited := by
  subst hprogress
  have hlater : w'.unit? n u =
      some { unit with state := .queued { taken := true, connected := true, alive := true } } := by
    rw [hturn.unit?]
    show (w.changeUnit n u _).unit? n u = _
    rw [unit?_changeUnit, if_pos ⟨rfl, rfl⟩, hunit]
    simp [ExecutionUnit.changeQueue, hstate]
  have hagendas : ((w.changeUnit n u (·.changeQueue fun s =>
      { s with taken := true, connected := true, alive := true })).spawn
        [.unit (.prepareWorker n u false)]).2.agendas =
      w.agendas ++ [[.unit (.prepareWorker n u false)]] := by
    simp [agendas, spawn]
  have hlife : lifeOf (.processor n u) (record ++ w.deedsOf 0 expired (.unit (.startUnit n u))) =
      Hook.prepare.entered false := by
    rw [lifeOf_append, lifeOf_eq_nil hrecord]
    rfl
  have hheld : w'.HeldBy w.threads.length (.processor n u) :=
    hturn.tasks_worker hagendas
      (fun j agenda hagenda task htask hcharge =>
        absurd hcharge (h.not_charge j agenda hagenda task htask))
      (by simp [Progress.todo, Task.charge?]) fun _ => rfl
  have hk : w.threads.length ≠ 0 := Nat.ne_of_gt (w.length_agendas ▸ hturn.me_lt)
  have hspared : w'.Spared (record ++ w.deedsOf 0 expired (.unit (.startUnit n u))) n u := by
    refine (h.spared hrecord).conduct hturn rfl rfl fun found hfound => ?_
    obtain rfl := Option.some.inj (hlater.symm.trans ((hturn.unit? n u).trans hfound))
    rfl
  refine .queued w.threads.length
    { queued := true, accepting := false, connected := true, alive := true } _ hk
    ⟨by rw [signs?, hlater]; rfl, rfl, hturn.agenda_spawned hagendas, ?_, hheld⟩ (.awaited rfl)
    (fun _ => ⟨hspared, by simp [Errandless, Task.isErrand]⟩) fun deed hdeed hsubject => ?_
  case refine_2 => exact absurd hsubject (hrecord deed (List.append_nil record ▸ hdeed))
  rw [hlife]
  exact .preparing false rfl rfl

/-- Waiting until a unit is done with its events changes nothing, and leads to waiting on or to
nothing. -/
theorem drain_comes {noted : Nat} :
    ComesTo (fun progress : Progress P => ∃ messages todo,
      progress = .goOn (w.logAll messages) todo ∧
      (todo = [] ∨ ∃ left, todo = [.unit (.drain n u left)])) (w.drain n u noted) := by
  refine .bind fun unit _ => .ite ?_ (.ite ?_ (.ite ?_ .none))
  · rintro _ ⟨⟩
    exact ⟨[], [], by simp [logAll], .inl rfl⟩
  · rintro _ ⟨⟩
    exact ⟨_, [], rfl, .inl rfl⟩
  · rintro _ ⟨⟩
    exact ⟨_, _, rfl, .inr ⟨_, rfl⟩⟩

variable {error : StreamError} {goal : List Deed → World P → Prop} {σ : Instance → Standing}
  {told : Answer}

namespace Safe

/-- Starting a unit that was never started. -/
theorem startUnit (hσ : σ (.processor n u) = .untouched)
    (hinline : Safe built error goal (Function.update σ (.processor n u) (.entering false)) told
      (.event (.occupy n u) :: .unit (.prepareInline n u false) :: rest))
    (hqueued : Safe built error goal (Function.update σ (.processor n u) .awaited) told
      (.unit (.awaitWorker n u) :: rest)) :
    Safe built error goal σ told (.unit (.startUnit n u) :: rest) := by
  refine of_subject (.inr rfl) (by simp) (by simp)
    fun w w' record expired progress hscene hstands hturn => ?_
  rw [hσ] at hstands
  cases hstands with
  | inline _ _ _ hstage => cases hstage
  | queued _ _ _ _ _ hstage => cases hstage
  | untouched _ h hrecord =>
    have hperform : w.startUnit n u = some progress := hturn.performs
    simp only [World.startUnit, Option.bind_eq_bind, Option.bind_eq_some_iff] at hperform
    obtain ⟨unit, hunit, hperform⟩ := hperform
    obtain hstate | hstate := h.processor n u rfl unit hunit
    · simp only [hstate] at hperform
      obtain rfl := Option.some.inj hperform
      refine .goOn (.entering false) (.of_inline false hturn ?_ ?_ rfl ?_ ?_ ?_) hinline
      · exact fun j agenda hagenda task htask hcharge =>
          absurd hcharge (h.not_charge j agenda hagenda task htask)
      · exact fun deed hdeed hsubject => absurd hsubject (hrecord deed hdeed)
      · simp [Progress.world, signs?, hunit, hstate, UnitState.signs]
      · rw [lifeOf_eq_nil hrecord]
        exact .entering false rfl rfl
      · exact fun _ => ⟨h.spared hrecord, rfl, rfl⟩
    · simp only [hstate] at hperform
      obtain rfl := Option.some.inj hperform
      exact .goOn .awaited (.of_startUnit hturn h hrecord hunit hstate rfl) hqueued

/-- Waiting for the processor of an inline unit. -/
theorem occupy (h : Safe built error goal σ told rest) :
    Safe built error goal σ told (.event (.occupy n u) :: rest) := by
  refine of_turn fun w w' record expired progress hscene hstep hturn => ?_
  have hstreams := hturn.reaches.streams rfl (by simp)
  have hnext : ∃ v, progress = .goOn v [] := by
    have hperform : w.occupy n u = some progress := hturn.performs
    simp only [World.occupy, Option.bind_eq_bind, Option.bind_eq_some_iff] at hperform
    obtain ⟨unit, -, hperform⟩ := hperform
    split at hperform
    · split at hperform
      · cases hperform
      · exact ⟨_, (Option.some.inj hperform).symm⟩
    · exact ⟨_, (Option.some.inj hperform).symm⟩
  obtain ⟨v, rfl⟩ := hnext
  exact h w' _ (hscene.turn_free hstep hturn (fun j _ => ⟨rfl, fun hcharge => by cases hcharge⟩)
    hstreams (by simp))

/-- Making an inline processor ready, once it has been asked to. -/
theorem prepareInline_step (hσ : σ (.processor n u) = .entering asked)
    (hwait : asked = false → Safe built error goal
      (Function.update σ (.processor n u) (.entering true)) told
      (.unit (.prepareInline n u true) :: rest))
    (hup : Safe built error goal (Function.update σ (.processor n u) .up) told
      (.answer .ok :: rest))
    (hfailed : ∀ reason, Safe built error goal (Function.update σ (.processor n u) .failed) told
      (.failed reason :: rest)) :
    Safe built error goal σ told (.unit (.prepareInline n u asked) :: rest) := by
  refine of_subject (.inr rfl) (by simp) (by simp)
    fun w w' record expired progress hscene hstands hturn => ?_
  rw [hσ] at hstands
  cases hstands with
  | untouched hstanding => cases hstanding
  | queued _ _ _ _ _ hstage => cases hstage
  | inline accepting hsigns hheld hstage hspared hcalls =>
    cases hstage with
    | entering _ haccepting hlife =>
    subst haccepting
    have hperform : w.prepareInline n u asked = some progress := hturn.performs
    simp only [World.prepareInline, Option.bind_eq_bind, Option.bind_eq_some_iff] at hperform
    obtain ⟨unit, hunit, ⟨reply, called⟩, hcall, hperform⟩ := hperform
    have hcalled : called.signs? n u = some { accepting := false } :=
      (signs?_called hcall).trans hsigns
    have hagendas : called.agendas = w.agendas := (Near.refl.callProcessor hcall).agendas
    have hupshot : w.upshot? expired (.unit (.prepareInline n u asked)) = reply.upshot? := by
      simp [upshot?, hcall]
    have hadds : lifeOf (.processor n u) record ++ lifeOf (.processor n u)
        (w.deedsOf 0 expired (.unit (.prepareInline n u asked))) =
        Hook.prepare.entered asked ++
          HookCall.events ⟨.processor n u, .prepare, asked⟩ reply.upshot? := by
      rw [hlife, lifeOf_deedsOf rfl rfl, hupshot]
    have hspares : w.Spared record n u ∧ (Task.unit (.prepareInline n u asked)).feeds? = none ∧
        (Task.unit (.prepareInline n u asked)).serves? = none := ⟨hspared rfl, rfl, rfl⟩
    have hfails (upshot : Upshot) (hne : upshot ≠ .returned) (h : reply.upshot? = some upshot) :
        InlineStage false (lifeOf (.processor n u) record ++ lifeOf (.processor n u)
          (w.deedsOf 0 expired (.unit (.prepareInline n u asked)))) .failed := by
      rw [hadds, h, Hook.entered_append_some]
      exact .failed upshot rfl hne rfl
    have hleft : (called.changeUnit n u (·.changeInline fun s =>
        { s with occupied := false })).signs? n u = some { accepting := false } :=
      signs?_changeInline hcalled fun state hrunning => hrunning
    cases reply with
    | waiting limit =>
      cases asked with
      | true => cases hperform
      | false =>
        obtain rfl := Option.some.inj hperform
        refine .goOn (.entering true)
          (.of_inline false hturn hheld hcalls hagendas hcalled ?_ fun _ => hspares)
          (hwait rfl)
        rw [hadds, Reply.upshot?, Hook.entered_append_none]
        exact .entering true rfl rfl
    | returned value =>
      obtain rfl := Option.some.inj hperform
      refine .goOn .up (.of_inline true hturn hheld hcalls hagendas
        (signs?_changeInline hcalled fun _ _ => rfl) ?_ (by simp [Standing.isSpared])) hup
      rw [hadds, Reply.upshot?, Hook.entered_append_some]
      exact .up rfl rfl
    | failed reason =>
      obtain rfl := Option.some.inj hperform
      exact .goOn .failed
        (.of_inline false hturn hheld hcalls hagendas hleft (hfails .failed (by simp) rfl)
        fun _ => hspares) (hfailed _)
    | panicked text =>
      obtain rfl := Option.some.inj hperform
      exact .goOn .failed
        (.of_inline false hturn hheld hcalls hagendas hleft (hfails .panicked (by simp) rfl)
        fun _ => hspares) (hfailed _)

/-- Making an inline processor ready. -/
theorem prepareInline (hσ : σ (.processor n u) = .entering false)
    (hup : Safe built error goal (Function.update σ (.processor n u) .up) told
      (.answer .ok :: rest))
    (hfailed : ∀ reason, Safe built error goal (Function.update σ (.processor n u) .failed) told
      (.failed reason :: rest)) :
    Safe built error goal σ told (.unit (.prepareInline n u false) :: rest) := by
  refine prepareInline_step hσ (fun _ => ?_) hup hfailed
  refine prepareInline_step (Function.update_self ..) (fun hasked => by cases hasked) ?_
    fun reason => ?_
  · rw [Function.update_idem]
    exact hup
  · rw [Function.update_idem]
    exact hfailed reason

/-- Waiting for the worker of a queued processor. -/
theorem awaitWorker (hσ : σ (.processor n u) = .awaited)
    (hup : Safe built error goal (Function.update σ (.processor n u) .up) told
      (.answer .ok :: rest))
    (hfailed : ∀ reason, Safe built error goal (Function.update σ (.processor n u) .failed) told
      (.failed reason :: rest))
    (hlate : ∀ unit within, Safe built error goal (Function.update σ (.processor n u) .late) told
      (.failed (.initTimeout unit within) :: rest)) :
    Safe built error goal σ told (.unit (.awaitWorker n u) :: rest) := by
  refine of_subject (.inr rfl) (by simp) (by simp)
    fun w w' record expired progress hscene hstands hturn => ?_
  rw [hσ] at hstands
  cases hstands with
  | untouched hstanding => cases hstanding
  | inline _ _ _ hstage => cases hstage
  | queued k signs agenda hk h hstage hspared hcalls =>
    cases hstage with
    | awaited haccepting =>
    obtain ⟨hspared, herrandless⟩ := hspared rfl
    obtain ⟨unit, state, hunit, hstate, rfl⟩ := h.exists_state
    have hperform : w.awaitWorker expired n u = some progress := hturn.performs
    simp only [World.awaitWorker, Option.bind_eq_bind, Option.bind_eq_some_iff] at hperform
    obtain ⟨node, hnode, found, hfound, hperform⟩ := hperform
    obtain rfl : unit = found := by
      have hunit' : w.unit? n u = some found := by simp [unit?, hnode, hfound]
      exact Option.some.inj (hunit.symm.trans hunit')
    simp only [hstate] at hperform
    have hwaiting : state.queue.length = 0 := by
      have hempty := hspared.unfed.empty unit hunit
      rwa [hstate] at hempty
    have hnone (answer : Answer) (next : Task) (hnext : next ∈ [Task.answer answer]) :
        next.charge? = none := by
      obtain rfl := List.mem_singleton.mp hnext
      rfl
    split at hperform
    case h_1 hready =>
      obtain rfl := Option.some.inj hperform
      have hprepared : (UnitState.queued state).signs.ready = true := by
        simp [UnitState.signs, hready, Except.toBool]
      refine .goOn .up (.of_queued hturn hk h hcalls rfl ⟨rfl, hnone _⟩
        (signs?_changeQueue (g := ({ · with accepting := true })) h.signs_eq rfl fun _ => rfl)
        rfl rfl
        rfl (.up rfl (h.stage.prepared hprepared)) (by simp [Standing.isSpared])) hup
    case h_2 reason hready =>
      split at hperform
      · cases hperform
      case isFalse halive =>
        obtain rfl := Option.some.inj hperform
        have hended : agenda = [] := h.stage.ended (eq_false_of_ne_true halive)
        obtain ⟨upshot, hne, hlife⟩ :=
          h.stage.unfit_of_ended hended (by simp [UnitState.signs, hready, Except.toBool])
        refine .goOn .failed (.of_queued hturn hk h hcalls rfl ⟨rfl, hnone _⟩ h.signs_eq rfl rfl rfl
          (.failed upshot haccepting hne hlife hended) fun _ => ⟨?_, herrandless⟩) (hfailed reason)
        exact hspared.conduct hturn rfl rfl hspared.unfed.empty
    case h_3 hready =>
      split at hperform
      · obtain rfl := Option.some.inj hperform
        refine .goOn .late (.of_queued hturn hk h hcalls rfl ⟨rfl, hnone _⟩
          (signs?_changeQueue (g := ({ · with dismissed := true, connected := false }))
            h.signs_eq rfl
            fun _ => rfl) rfl rfl rfl (.late haccepting rfl) fun _ => ⟨?_, herrandless⟩) (hlate _ _)
        refine hspared.conduct hturn rfl rfl fun later hlater => ?_
        have hchanged : (w.changeUnit n u (·.changeQueue fun s =>
            { s with dismissed := true, connected := false })).unit? n u = some later := hlater
        rw [unit?_changeUnit, if_pos ⟨rfl, rfl⟩, hunit] at hchanged
        obtain rfl := Option.some.inj hchanged
        simp only [ExecutionUnit.changeQueue, hstate]
        exact hwaiting
      · cases hperform

/-- A processor that is started comes up, or it fails. -/
theorem start_processor (hσ : σ (.processor n u) = .untouched)
    (hup : Safe built error goal (Function.update σ (.processor n u) .up) .ok rest)
    (hfailed : ∀ reason standing, standing.FailsWith reason (.processor n u) →
      Safe built error goal (Function.update σ (.processor n u) standing) (.failed (.node reason))
        rest) :
    Safe built error goal σ told (.unit (.startUnit n u) :: rest) := by
  refine startUnit hσ (occupy (prepareInline (Function.update_self ..) ?_ fun reason => ?_))
    (awaitWorker (Function.update_self ..) ?_ (fun reason => ?_) fun unit within => ?_)
  all_goals rw [Function.update_idem]
  · exact answer _ hup
  · exact answer _ (hfailed reason .failed (.inl rfl))
  · exact answer _ hup
  · exact answer _ (hfailed reason .failed (.inl rfl))
  · exact answer _ (hfailed _ .late (.inr ⟨⟨unit, within, rfl⟩, .inl rfl⟩))

/-! ## Stopping -/

/-- Stopping a unit that is up. -/
theorem stopUnit (hσ : σ (.processor n u) = .up)
    (hinline : Safe built error goal (Function.update σ (.processor n u) (.leaving false)) told
      (.event (.occupy n u) :: .unit (.finishInline n u false) :: rest))
    (hqueued : Safe built error goal (Function.update σ (.processor n u) .draining) told
      (.unit (.drain n u 0) :: .unit (.dismiss n u) :: .unit (.close n u) ::
        .unit (.joinWorker n u) :: .unit (.stoppedUnit n u) :: rest)) :
    Safe built error goal σ told (.unit (.stopUnit n u) :: rest) := by
  refine of_subject (.inr rfl) (by simp) (by simp)
    fun w w' record expired progress hscene hstands hturn => ?_
  rw [hσ] at hstands
  have hperform : w.stopUnit n u = some progress := hturn.performs
  simp only [World.stopUnit, Option.bind_eq_bind, Option.bind_eq_some_iff] at hperform
  obtain ⟨unit, hunit, hperform⟩ := hperform
  cases hstands with
  | untouched hstanding => cases hstanding
  | inline accepting hsigns hheld hstage _ hcalls =>
    cases hstage with
    | up haccepting hlife =>
    subst haccepting
    have hsame : unit.state.signs = { accepting := true } := by
      rw [signs?, hunit] at hsigns
      exact Option.some.inj hsigns
    cases hstate : unit.state with
    | queued state =>
      rw [hstate] at hsame
      exact absurd (congrArg Signs.queued hsame) (by simp [UnitState.signs])
    | inline state =>
      have hrunning : state.running = true := by
        rw [hstate] at hsame
        exact congrArg Signs.accepting hsame
      simp only [hstate, hrunning, if_true] at hperform
      obtain rfl := Option.some.inj hperform
      refine .goOn (.leaving false) (.of_inline false hturn hheld hcalls rfl
        (signs?_changeInline hsigns fun _ _ => rfl) ?_ (by simp [Standing.isSpared])) hinline
      rw [hlife, lifeOf_deedsOf_none rfl]
      exact .leaving false rfl rfl
  | queued k signs agenda hk h hstage _ hcalls =>
    cases hstage with
    | up haccepting hprepared =>
    obtain ⟨found, state, hfound, hstate, rfl⟩ := h.exists_state
    obtain rfl := Option.some.inj (hunit.symm.trans hfound)
    have hruns : state.accepting = true := haccepting
    simp only [hstate, hruns, if_true] at hperform
    obtain rfl := Option.some.inj hperform
    exact .goOn .draining (.of_queued hturn hk h hcalls rfl
      ⟨rfl, by simp [Progress.todo, Task.charge?]⟩ h.signs_eq rfl rfl rfl (.draining hprepared)
      (by simp [Standing.isSpared])) hqueued

/-- Finishing an inline processor, once it has been asked to. -/
theorem finishInline_step (hσ : σ (.processor n u) = .leaving asked)
    (hwait : asked = false → Safe built error goal
      (Function.update σ (.processor n u) (.leaving true)) told
      (.unit (.finishInline n u true) :: rest))
    (hdown : Safe built error goal (Function.update σ (.processor n u) .down) told
      (.unit (.stoppedUnit n u) :: rest)) :
    Safe built error goal σ told (.unit (.finishInline n u asked) :: rest) := by
  refine of_subject (.inr rfl) (by simp) (by simp)
    fun w w' record expired progress hscene hstands hturn => ?_
  rw [hσ] at hstands
  cases hstands with
  | untouched hstanding => cases hstanding
  | queued _ _ _ _ _ hstage => cases hstage
  | inline accepting hsigns hheld hstage hspared hcalls =>
    cases hstage with
    | leaving _ haccepting hlife =>
    subst haccepting
    have hperform : w.finishInline n u asked = some progress := hturn.performs
    simp only [World.finishInline, Option.bind_eq_bind, Option.bind_eq_some_iff] at hperform
    obtain ⟨unit, hunit, ⟨reply, called⟩, hcall, hperform⟩ := hperform
    have hcalled : called.signs? n u = some { accepting := false } :=
      (signs?_called hcall).trans hsigns
    have hagendas : called.agendas = w.agendas := (Near.refl.callProcessor hcall).agendas
    have hupshot : w.upshot? expired (.unit (.finishInline n u asked)) = reply.upshot? := by
      simp [upshot?, hcall]
    have hadds : lifeOf (.processor n u) record ++ lifeOf (.processor n u)
        (w.deedsOf 0 expired (.unit (.finishInline n u asked))) =
        Hook.prepare.call .returned ++ (Hook.finish.entered asked ++
          HookCall.events ⟨.processor n u, .finish, asked⟩ reply.upshot?) := by
      rw [hlife, lifeOf_deedsOf rfl rfl, hupshot, List.append_assoc]
    have hends (upshot : Upshot) (h : reply.upshot? = some upshot) :
        InlineStage false (lifeOf (.processor n u) record ++ lifeOf (.processor n u)
          (w.deedsOf 0 expired (.unit (.finishInline n u asked)))) .down := by
      rw [hadds, h, Hook.entered_append_some]
      exact .down upshot rfl rfl
    have hleft (messages : List Message) : ((called.logAll messages).changeUnit n u
        (·.changeInline fun s => { s with occupied := false })).signs? n u =
          some { accepting := false } :=
      signs?_changeInline hcalled fun state hrunning => hrunning
    have hnone : Standing.down.isSpared = true → w.Spared record n u ∧
        (Task.unit (.finishInline n u asked)).feeds? = none ∧
        (Task.unit (.finishInline n u asked)).serves? = none := fun hspared => by cases hspared
    cases reply with
    | waiting limit =>
      cases asked with
      | true => cases hperform
      | false =>
        obtain rfl := Option.some.inj hperform
        refine .goOn (.leaving true) (.of_inline false hturn hheld hcalls hagendas hcalled ?_
          (by simp [Standing.isSpared])) (hwait rfl)
        rw [hadds, Reply.upshot?, Hook.entered_append_none]
        exact .leaving true rfl rfl
    | returned value =>
      obtain rfl := Option.some.inj hperform
      exact .goOn .down
        (.of_inline false hturn hheld hcalls hagendas (hleft _) (hends .returned rfl) hnone) hdown
    | failed reason =>
      obtain rfl := Option.some.inj hperform
      exact .goOn .down
        (.of_inline false hturn hheld hcalls hagendas (hleft _) (hends .failed rfl) hnone) hdown
    | panicked text =>
      obtain rfl := Option.some.inj hperform
      exact .goOn .down
        (.of_inline false hturn hheld hcalls hagendas (hleft _) (hends .panicked rfl) hnone) hdown

/-- Finishing an inline processor. -/
theorem finishInline (hσ : σ (.processor n u) = .leaving false)
    (hdown : Safe built error goal (Function.update σ (.processor n u) .down) told
      (.unit (.stoppedUnit n u) :: rest)) :
    Safe built error goal σ told (.unit (.finishInline n u false) :: rest) := by
  refine finishInline_step hσ (fun _ => ?_) hdown
  refine finishInline_step (Function.update_self ..) (fun hasked => by cases hasked) ?_
  rw [Function.update_idem]
  exact hdown

/-- A task with a queued unit that changes neither what its worker sees nor its worker. -/
theorem of_queued (f : Signs → Signs) (later : Standing) (hσ : σ (.processor n u) = standing)
    (hinline : ∀ accepting life, ¬ InlineStage accepting life standing)
    (hsubject : task.subject? = some (.processor n u)) (hcharge : task.charge? = none)
    (hstarted : standing ≠ .untouched) (hspared : later.isSpared = false)
    (hf : ∀ signs, (f signs).queued = signs.queued ∧ (f signs).ready = signs.ready ∧
      (f signs).alive = signs.alive)
    (hperform : ∀ (w : World P) k signs agenda life expired progress,
      w.Enlisted n u k signs agenda life → QueuedStage signs agenda life standing →
      w.perform 0 expired task = some progress → ∃ v todo, progress = .goOn v todo ∧
        v.agendas = w.agendas ∧ (∀ next ∈ todo, next.charge? = none) ∧
        v.signs? n u = some (f signs) ∧ QueuedStage (f signs) agenda life later ∧
        Safe built error goal (Function.update σ (.processor n u) later) told (todo ++ rest)) :
    Safe built error goal σ told (task :: rest) := by
  have hsilent (answer : Answer) : task ≠ .answer answer := by
    rintro rfl
    cases hsubject
  have hunit (part : StreamTask) : task ≠ .stream part := by
    rintro rfl
    cases hsubject
  refine of_subject (.inr hsubject) hsilent hunit
    fun w w' record expired progress hscene hstands hturn => ?_
  rw [hσ] at hstands
  cases hstands with
  | untouched hstanding => exact absurd hstanding hstarted
  | inline accepting _ _ hstage => exact absurd hstage (hinline accepting _)
  | queued k signs agenda hk h hstage _ hcalls =>
    obtain ⟨v, todo, rfl, hagendas, hnone, hsigns, hlater, hsafe⟩ :=
      hperform w k signs agenda _ expired progress h hstage hturn.performs
    obtain ⟨hqueued, hready, halive⟩ := hf signs
    exact .goOn later
      (.of_queued hturn hk h hcalls hagendas ⟨hcharge, hnone⟩ hsigns (hqueued.trans h.queued)
      hready halive hlater (by simp [hspared])) hsafe

/-- Waiting until a queued unit is done with its events. -/
theorem drain (hσ : σ (.processor n u) = .draining) (h : Safe built error goal σ told rest)
    (noted : Nat) : Safe built error goal σ told (.unit (.drain n u noted) :: rest) := by
  intro w record hscene
  -- The main thread may look any number of times before all events are done.
  refine assures_of_invariant
    (I := fun record w => ∃ noted, w.Scene built σ told (.unit (.drain n u noted) :: rest) record)
    ⟨noted, hscene⟩ (fun record w hlooks hreturned => ?_)
    (fun record w w' move hlooks hmove hother => ?_)
    fun record w w' hlooks hstep => ?_
  all_goals obtain ⟨noted, hscene⟩ := hlooks
  · exact absurd hreturned (not_returned hscene.agenda_eq)
  · exact ⟨noted, hscene.other hmove hother⟩
  obtain ⟨expired, task, later, progress, hturn⟩ := step_turn hstep
  obtain ⟨rfl, rfl⟩ : .unit (.drain n u noted) = task ∧ rest = later :=
    List.cons.inj (Option.some.inj (hscene.agenda_eq.symm.trans hturn.agenda))
  have hperform : w.drain n u noted = some progress := hturn.performs
  obtain ⟨messages, todo, rfl, htodo⟩ := drain_comes progress hperform
  have hstands := hscene.stands (.processor n u)
  rw [hσ] at hstands
  have hlater : w'.Stands (record ++ w.deedsOf 0 expired (.unit (.drain n u noted)))
      (.processor n u) .draining := by
    cases hstands with
    | untouched hstanding => cases hstanding
    | inline _ _ _ hstage => cases hstage
    | queued k signs agenda hk h hstage _ hcalls =>
      refine .of_queued hturn hk h hcalls rfl ⟨rfl, ?_⟩ h.signs_eq h.queued rfl rfl hstage
        (by simp [Standing.isSpared])
      obtain rfl | ⟨left, rfl⟩ := htodo
      · simp [Progress.todo]
      · simp [Progress.todo, Task.charge?]
  have hnext := hscene.turn hstep hturn hlater (fun j hj hother =>
    absurd (Option.some.inj hother) (Ne.symm hj)) rfl (by simp)
  rw [← hσ, Function.update_eq_self, ← hturn.deeds] at hnext
  obtain rfl | ⟨left, rfl⟩ := htodo
  · exact .inr (h w' _ hnext)
  · exact .inl ⟨left, hnext⟩

/-- Telling the worker of a queued unit to end. -/
theorem dismiss (hσ : σ (.processor n u) = .draining) (h : Safe built error goal σ told rest) :
    Safe built error goal σ told (.unit (.dismiss n u) :: rest) := by
  refine of_queued ({ · with dismissed := true }) .draining hσ
    (fun _ _ hstage => by cases hstage) rfl rfl (by simp) rfl (fun _ => ⟨rfl, rfl, rfl⟩)
    fun w k signs agenda life expired progress hworker hstage hperform => ?_
  cases hstage with
  | draining hprepared =>
  obtain rfl := Option.some.inj hperform
  refine ⟨_, [], rfl, rfl, by simp, signs?_changeQueue (g := ({ · with dismissed := true }))
    hworker.signs_eq hworker.queued fun _ => rfl, .draining hprepared, ?_⟩
  rw [← hσ, Function.update_eq_self]
  exact h

/-- Closing the queue of a unit. -/
theorem close (hσ : σ (.processor n u) = .draining)
    (h : Safe built error goal (Function.update σ (.processor n u) .closed) told rest) :
    Safe built error goal σ told (.unit (.close n u) :: rest) := by
  refine of_queued ({ · with accepting := false, connected := false }) .closed hσ
    (fun _ _ hstage => by cases hstage) rfl rfl (by simp) rfl (fun _ => ⟨rfl, rfl, rfl⟩)
    fun w k signs agenda life expired progress hworker hstage hperform => ?_
  cases hstage with
  | draining hprepared =>
  obtain ⟨unit, state, hunit, hstate, rfl⟩ := hworker.exists_state
  have hcloses : w.close n u = some progress := hperform
  simp only [World.close, hunit, hstate, Option.bind_eq_bind, Option.bind_some] at hcloses
  split at hcloses
  · cases hcloses
  · obtain rfl := Option.some.inj hcloses
    exact ⟨_, [], rfl, rfl, by simp,
      signs?_changeQueue (g := ({ · with accepting := false, connected := false }))
        hworker.signs_eq rfl
        fun _ => rfl, .closed rfl hprepared, h⟩

/-- Waiting for the end of the worker of a queued unit. -/
theorem joinWorker (hσ : σ (.processor n u) = .closed)
    (h : Safe built error goal (Function.update σ (.processor n u) .down) told rest) :
    Safe built error goal σ told (.unit (.joinWorker n u) :: rest) := by
  refine of_queued id .down hσ (fun _ _ hstage => by cases hstage) rfl rfl (by simp)
    rfl (fun _ => ⟨rfl, rfl, rfl⟩)
    fun w k signs agenda life expired progress hworker hstage hperform => ?_
  cases hstage with
  | closed haccepting hprepared =>
  obtain ⟨unit, state, hunit, hstate, rfl⟩ := hworker.exists_state
  have hjoins : w.joinWorker n u = some progress := hperform
  simp only [World.joinWorker, hunit, hstate, Option.bind_eq_bind, Option.bind_some] at hjoins
  split at hjoins
  · cases hjoins
  case isFalse halive =>
    obtain rfl := Option.some.inj hjoins
    exact ⟨w, [], rfl, rfl, by simp, hworker.signs_eq,
      .down haccepting hprepared (hworker.stage.ended (eq_false_of_ne_true halive)), h⟩

/-- Logging that a unit has stopped. -/
theorem stoppedUnit (hσ : σ (.processor n u) = .down) (h : Safe built error goal σ told rest) :
    Safe built error goal σ told (.unit (.stoppedUnit n u) :: rest) := by
  refine of_subject (.inr rfl) (by simp) (by simp)
    fun w w' record expired progress hscene hstands hturn => ?_
  rw [hσ] at hstands
  have hperform : w.stoppedUnit n u = some progress := hturn.performs
  simp only [World.stoppedUnit, Option.bind_eq_bind, Option.bind_eq_some_iff] at hperform
  obtain ⟨unit, -, hperform⟩ := hperform
  obtain rfl := Option.some.inj hperform
  refine .goOn .down ?_ (by rw [← hσ, Function.update_eq_self]; exact h)
  cases hstands with
  | untouched hstanding => cases hstanding
  | inline accepting hsigns hheld hstage _ hcalls =>
    refine .of_inline accepting hturn hheld hcalls rfl hsigns ?_ (by simp [Standing.isSpared])
    rw [lifeOf_deedsOf_none rfl, List.append_nil]
    exact hstage
  | queued k signs agenda hk h hstage _ hcalls =>
    exact .of_queued hturn hk h hcalls rfl ⟨rfl, by simp [Progress.todo]⟩ h.signs_eq h.queued
      rfl rfl hstage
      (by simp [Standing.isSpared])

/-- A processor that is up and is stopped comes down. -/
theorem stop_processor (hσ : σ (.processor n u) = .up)
    (h : Safe built error goal (Function.update σ (.processor n u) .down) told rest) :
    Safe built error goal σ told (.unit (.stopUnit n u) :: rest) := by
  have hself (standing : Standing) :
      Function.update σ (.processor n u) standing (.processor n u) = standing :=
    Function.update_self ..
  refine stopUnit hσ (occupy (finishInline (hself _) ?_))
    (drain (hself _) (dismiss (hself _) (close (hself _) ?_)) 0)
  · rw [Function.update_idem]
    exact stoppedUnit (hself _) h
  · rw [Function.update_idem]
    refine joinWorker (hself _) ?_
    rw [Function.update_idem]
    exact stoppedUnit (hself _) h

end Safe

end World
end EventPipeline
