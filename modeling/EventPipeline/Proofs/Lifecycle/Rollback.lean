import EventPipeline.Proofs.Lifecycle.Opening

/-!
# `EventPipeline.Proofs.Lifecycle.Rollback`: what a failed start leaves behind

When the start of a stream returns a failure, some plugin was not ready in time. Every plugin
before it in the order of the start was finished, no plugin after it was touched, and it is left
to itself: it may still become ready, and then its worker finishes it, but it gets no events and
never runs. Nothing that happens later changes this, and a stop of the stream has nothing to do.
`rolledBack_of_failed` is the main theorem. It holds for every way in which the threads of the
stream interleave.
-/

set_option autoImplicit false

namespace EventPipeline

variable {P : Plugins}

/-- The standing of a plugin once a start is undone. -/
def Standing.IsSettled (standing : Standing) : Prop :=
  standing = .untouched ∨ standing = .down ∨ standing = .failed ∨ standing = .late

namespace World

variable {w w' v built : World P} {n u t l k me s : Nat} {task : Task} {rest agenda : List Task}
  {progress : Progress P} {expired : Bool} {record : List Deed} {standing : Standing}
  {i failing : Instance} {before after : List Instance} {σ : Instance → Standing} {told : Answer}
  {stream : Stream} {reason : NodeError}

/-! ## What is left of plugins -/

/-- The unit of a processor accepts no events. -/
def Refuses (w : World P) (n u : Nat) : Prop :=
  ∃ unit, w.unit? n u = some unit ∧ unit.offer = .refused

/-- The worker `k` takes care of the plugin by itself. Its life is the beginning of a whole one, and
the worker can go on until it is whole, unless the plugin does not come back from a hook. -/
structure LivesOn (w : World P) (Life : List HookEvent → Prop) (k : Nat) (i : Instance)
    (record : List Deed) : Prop where
  apart : k ≠ 0
  called : CalledBy k i record
  prefix_life : ∃ whole, Life whole ∧ lifeOf i record <+: whole
  whole : w.step k = none → Life (lifeOf i record) ∨ InsideHook (lifeOf i record)

/-- A processor that was ready was finished once, and accepts no events. -/
structure IsReleased (w : World P) (n u : Nat) (record : List Deed) : Prop where
  life : ∃ upshot, lifeOf (.processor n u) record =
    Hook.prepare.call .returned ++ Hook.finish.call upshot
  refuses : w.Refuses n u

/-- A processor whose start has failed for the reason accepts and processes no events. It has not
become ready, or it was not ready in time and is left to its worker. -/
structure IsDropped (w : World P) (n u : Nat) (reason : NodeError) (record : List Deed) : Prop where
  refuses : w.Refuses n u
  idle : ∀ deed ∈ record, deed.subject = .processor n u → deed.event.hook ≠ .process
  alone : (∃ upshot, upshot ≠ .returned ∧
      lifeOf (.processor n u) record = Hook.prepare.call upshot) ∨
    Answer.IsInitTimeout (.failed (.node reason)) ∧
      ∃ k, w.LivesOn ProcessorLife k (.processor n u) record

/-- A source that was started was asked to stop, was finished last of all, and its worker has
ended. -/
structure IsHalted (w : World P) (t u : Nat) (record : List Deed) : Prop where
  asked : ∃ upshot, haltsOf (.source t u) record = Hook.halt.call upshot
  prepared : Hook.prepare.call .returned <+: lifeOf (.source t u) record
  life : SourceLife (lifeOf (.source t u) record)
  joined : ∃ k, k ≠ 0 ∧ CalledBy k (.source t u) record ∧ w.hasEnded k = true

/-- A source whose start has failed for the reason never runs. It has not become ready, or it was
not ready in time and is left to its worker. -/
structure NeverRuns (w : World P) (t u : Nat) (reason : NodeError) (record : List Deed) : Prop where
  never : .calls .start ∉ lifeOf (.source t u) record
  unasked : haltsOf (.source t u) record = []
  alone : (∃ upshot, upshot ≠ .returned ∧
      lifeOf (.source t u) record = Hook.prepare.call upshot) ∨
    Answer.IsInitTimeout (.failed (.node reason)) ∧
      ∃ k, w.LivesOn SourceLife k (.source t u) record

/-- What has become of a plugin at which a start has failed for the reason. A source may have
become ready just when its time had passed, and run: then it is halted like any other. -/
def HasFailed (w : World P) (reason : NodeError) (record : List Deed) : Instance → Prop
  | .processor n u => w.IsDropped n u reason record
  | .source t u => w.NeverRuns t u reason record ∨
    Answer.IsInitTimeout (.failed (.node reason)) ∧ w.IsHalted t u record

/-- A start that has failed at a plugin for the reason is undone: the plugins before it are
finished, and none after it was touched. -/
structure RolledBack (w : World P) (before : List Instance) (failing : Instance)
    (after : List Instance) (reason : NodeError) (record : List Deed) : Prop where
  processors : ∀ n u, .processor n u ∈ before → w.IsReleased n u record
  sources : ∀ t u, .source t u ∈ before → w.IsHalted t u record
  failing : w.HasFailed reason record failing
  after : ∀ i ∈ after, ∀ deed ∈ record, deed.subject ≠ i

/-- A unit without the sign that it accepts events refuses them. -/
theorem refuses_of_signs {signs : Signs} (hsigns : w.signs? n u = some signs)
    (hclosed : signs.accepting = false) : w.Refuses n u := by
  obtain ⟨unit, hunit, rfl⟩ := Option.map_eq_some_iff.mp hsigns
  exact ⟨unit, hunit, ExecutionUnit.offer_of_closed hclosed⟩

/-- A processor that is down was released. -/
theorem ProcessorStands.isReleased (h : w.ProcessorStands record n u .down) :
    w.IsReleased n u record := by
  cases h with
  | untouched hstanding => cases hstanding
  | inline accepting hsigns hheld hstage =>
    cases hstage with
    | down upshot haccepting hlife => exact ⟨⟨upshot, hlife⟩, refuses_of_signs hsigns haccepting⟩
  | queued k signs agenda hk h hstage =>
    cases hstage with
    | down haccepting hprepared hagenda =>
      exact ⟨h.stage.released hagenda hprepared, refuses_of_signs h.signs_eq haccepting⟩

/-- A processor that has failed, or that is late, was dropped. -/
theorem ProcessorStands.isDropped (h : w.ProcessorStands record n u standing)
    (hfails : standing.FailsWith reason (.processor n u)) : w.IsDropped n u reason record := by
  obtain rfl | ⟨htimeout, rfl | ⟨-, t, v, hi⟩⟩ := hfails
  case inr.inr => cases hi
  · cases h with
    | untouched hstanding => cases hstanding
    | inline accepting hsigns hheld hstage hspared =>
      cases hstage with
      | failed upshot haccepting hne hlife =>
        exact ⟨refuses_of_signs hsigns haccepting, (hspared rfl).record, .inl ⟨upshot, hne, hlife⟩⟩
    | queued k signs agenda hk h hstage hspared =>
      cases hstage with
      | failed upshot haccepting hne hlife =>
        exact ⟨refuses_of_signs h.signs_eq haccepting, (hspared rfl).1.record,
          .inl ⟨upshot, hne, hlife⟩⟩
  · cases h with
    | untouched hstanding => cases hstanding
    | inline _ _ _ hstage => cases hstage
    | queued k signs agenda hk h hstage hspared hcalled =>
      cases hstage with
      | late haccepting hclosed =>
        exact ⟨refuses_of_signs h.signs_eq haccepting, (hspared rfl).1.record,
          .inr ⟨htimeout, k, hk, hcalled, h.stage.prefix_life,
            h.stuck (hspared rfl).2 (.inr hclosed)⟩⟩

/-- A source that is down was halted. -/
theorem SourceStands.isHalted (h : w.SourceStands record t u .down)
    (hsound : ∀ deed ∈ record, deed.event ≠ .ends .start .panicked) : w.IsHalted t u record := by
  cases h with
  | untouched hstanding => cases hstanding
  | tended l k launch agenda source hk h hsource hstage hcalled =>
    cases hstage with
    | down upshot hrunning hprepared hhalts hagenda =>
      have hnever := not_mem_lifeOf (i := .source t u) fun deed hdeed _ => hsound deed hdeed
      refine ⟨⟨upshot, hhalts⟩, hprepared, h.stage.whole hagenda hnever, k, hk, hcalled, ?_⟩
      obtain ⟨thread, hthread, hempty⟩ := exists_thread (hagenda ▸ h.agenda_eq)
      simp [hasEnded, hthread, hempty]

/-- A source that has failed never runs. -/
theorem SourceStands.neverRuns_of_failed (h : w.SourceStands record t u .failed) :
    w.NeverRuns t u reason record := by
  cases h with
  | untouched hstanding => cases hstanding
  | tended l k launch agenda source hk h hsource hstage =>
    cases hstage with
    | failed upshot hrunning hhalts hne hlife =>
      exact ⟨by simp [hlife, Hook.call], hhalts, .inl ⟨upshot, hne, hlife⟩⟩

/-- A source that is late never runs. -/
theorem SourceStands.neverRuns_of_late (h : w.SourceStands record t u .late)
    (htimeout : Answer.IsInitTimeout (.failed (.node reason))) : w.NeverRuns t u reason record := by
  cases h with
  | untouched hstanding => cases hstanding
  | tended l k launch agenda source hk h hsource hstage hcalled =>
    cases hstage with
    | late hrunning hhalts hnever hretired =>
      have hsound := h.stage.sound_of_not_started hnever
      exact ⟨hnever, hhalts, .inr ⟨htimeout, k, hk, hcalled, h.stage.prefix_life hsound,
        fun hstuck => h.stuck hstuck hsound⟩⟩

/-- The plugin at which a start has failed. -/
theorem Stands.hasFailed (h : w.Stands record i standing) (hfails : standing.FailsWith reason i)
    (hsound : ∀ deed ∈ record, deed.event ≠ .ends .start .panicked) :
    w.HasFailed reason record i := by
  cases i with
  | processor n u => exact ProcessorStands.isDropped h hfails
  | source t u =>
    obtain rfl | ⟨htimeout, rfl | ⟨rfl, -⟩⟩ := hfails
    · exact .inl (SourceStands.neverRuns_of_failed h)
    · exact .inl (SourceStands.neverRuns_of_late h htimeout)
    · exact .inr ⟨htimeout, SourceStands.isHalted h hsound⟩

/-- No plugin occurs twice in the order of a start. -/
theorem Startable.nodup_startOrder (h : built.Startable s stream) : (built.startOrder s).Nodup := by
  rw [startOrder, h.stream_eq, Option.elim_some, List.nodup_flatMap]
  refine ⟨fun g _ => g.nodup_members _, h.nodup.imp fun {g k} hne => ?_⟩
  intro i hi hk
  obtain ⟨u, -, rfl⟩ := List.mem_map.mp hi
  obtain ⟨v, -, hsame⟩ := List.mem_map.mp hk
  exact hne (GateId.member_inj.mp hsame).1.symm

/-- In the scene in which all plugins before one that has failed are down, the start is undone. -/
theorem Scene.rolledBack
    (hscene : w.Scene built (fallen before failing standing) told agenda record)
    (h : built.Startable s stream) (horder : built.startOrder s = before ++ failing :: after)
    (hfails : standing.FailsWith reason failing)
    (hsound : ∀ deed ∈ record, deed.event ≠ .ends .start .panicked) :
    w.RolledBack before failing after reason record := by
  have hnodup := h.nodup_startOrder
  rw [horder] at hnodup
  obtain ⟨-, hlater, happart⟩ := List.nodup_append.mp hnodup
  have hdown (i : Instance) (hi : i ∈ before) : w.Stands record i .down := by
    have hstands := hscene.stands i
    rwa [fallen, Function.update_of_ne (happart i hi failing (List.mem_cons_self ..)), if_pos hi]
      at hstands
  refine ⟨fun n u hi => (hdown _ hi).isReleased, fun t u hi => (hdown _ hi).isHalted hsound, ?_,
    fun i hi => ?_⟩
  · have hstands := hscene.stands failing
    rw [fallen, Function.update_self] at hstands
    exact hstands.hasFailed hfails hsound
  · have hne : i ≠ failing := fun hsame => (List.nodup_cons.mp hlater).1 (hsame ▸ hi)
    have hnot : i ∉ before := fun hbefore =>
      happart i hbefore i (List.mem_cons_of_mem _ hi) rfl
    have hstands := hscene.stands i
    rw [fallen, Function.update_of_ne hne, if_neg hnot] at hstands
    cases i with
    | processor n u =>
      cases hstands with
      | untouched _ _ hrecord => exact hrecord
      | inline _ _ _ hstage => cases hstage
      | queued _ _ _ _ _ hstage => cases hstage
    | source t u =>
      cases hstands with
      | untouched _ _ hrecord => exact hrecord
      | tended _ _ _ _ _ _ _ _ hstage => cases hstage

/-! ## What happens afterwards -/

/-- Once a start is undone, a worker that still takes care of a plugin takes care of one that was
not ready in time. It has nothing else to do, and has no source run. -/
theorem Stands.late_of_charge {owned : Task} (h : w.Stands record i standing)
    (hsettled : standing.IsSettled) (hme : me ≠ 0) (hagenda : w.agendas[me]? = some agenda)
    (howned : owned ∈ agenda) (hcharge : owned.charge? = some i) :
    standing = .late ∧ ∀ task ∈ agenda, task.subject? = some i ∧
      ∀ t u made resting, task ≠ .source (.advance t u made resting) := by
  have hsame {k : Nat} {its : List Task} (hheld : w.HeldBy k i) (hits : w.agendas[k]? = some its) :
      its = agenda := by
    obtain rfl := hheld me agenda hagenda owned howned hcharge
    exact Option.some.inj (hits.symm.trans hagenda)
  have hnonempty (hempty : agenda = []) : False := by
    rw [hempty] at howned
    cases howned
  cases i with
  | processor n u =>
    cases h with
    | untouched _ h => exact absurd hcharge (h.not_charge me agenda hagenda owned howned)
    | inline _ _ hheld => exact absurd (hheld me agenda hagenda owned howned hcharge) hme
    | queued k signs its hk h hstage hspared =>
      obtain rfl := hsame h.held h.agenda_eq
      obtain rfl | rfl | rfl | rfl := hsettled
      · cases hstage
      · cases hstage with
        | down _ _ hempty => exact (hnonempty hempty).elim
      · cases hstage with
        | failed _ _ _ _ hempty => exact (hnonempty hempty).elim
      · refine ⟨rfl, fun task htask => ?_⟩
        have howner : task.owner? = some (.worker n u) :=
          (h.stage.errand_or_owner htask).resolve_left
            (ne_true_of_eq_false ((hspared rfl).2 task htask))
        have hcharges := Task.charge?_of_worker howner
        refine ⟨Task.subject?_of_charge hcharges, fun t v made resting hadvance => ?_⟩
        rw [hadvance] at hcharges
        cases hcharges
  | source t u =>
    cases h with
    | untouched _ h => exact absurd hcharge (h.not_charge me agenda hagenda owned howned)
    | tended l k launch its source hk h hsource hstage =>
      obtain rfl := hsame h.held h.agenda_eq
      obtain rfl | rfl | rfl | rfl := hsettled
      · cases hstage
      · cases hstage with
        | down _ _ _ _ hempty => exact (hnonempty hempty).elim
      · cases hstage with
        | failed _ _ _ _ _ hempty => exact (hnonempty hempty).elim
      · cases hstage with
        | late _ _ _ hretired =>
          refine ⟨rfl, fun task htask =>
            ⟨h.stage.subject?_of_unmoving hretired.unmoving task htask, ?_⟩⟩
          rintro s v made resting rfl
          exact hretired.unmoving s v made resting htask

/-- Every plugin is settled once a start is undone. -/
theorem isSettled_fallen (hfails : standing.FailsWith reason failing) (i : Instance) :
    (fallen before failing standing i).IsSettled := by
  by_cases hi : i = failing
  · subst hi
    rw [fallen, Function.update_self]
    obtain rfl | ⟨-, rfl | ⟨rfl, -⟩⟩ := hfails
    · exact .inr (.inr (.inl rfl))
    · exact .inr (.inr (.inr rfl))
    · exact .inr (.inl rfl)
  · rw [fallen, Function.update_of_ne hi]
    by_cases hbefore : i ∈ before
    · exact .inr (.inl (if_pos hbefore))
    · exact .inl (if_neg hbefore)

/-- Only the plugin at which the start has failed is late. -/
theorem eq_of_fallen_late (hlate : fallen before failing standing i = .late) : i = failing := by
  by_contra hne
  rw [fallen, Function.update_of_ne hne] at hlate
  by_cases hbefore : i ∈ before <;> simp [hbefore] at hlate

/-- Once a start is undone, all hooks that are called are called by the worker of the plugin that
has failed, and it is not called to start. -/
theorem Scene.aftermath (hscene : w.Scene built (fallen before failing standing) told agenda record)
    (hfails : standing.FailsWith reason failing) (hmain : ∀ task ∈ agenda, task.call? = none)
    (hturn : w.Turn me expired task rest progress w') :
    ∀ deed ∈ w.deedsOf me expired task,
      deed.thread ≠ 0 ∧ deed.subject = failing ∧ deed.event.hook ≠ .start := by
  intro deed hdeed
  obtain ⟨hthread, call, hcall, hcalled, hevent⟩ := mem_deedsOf hdeed
  have hme : me ≠ 0 := by
    rintro rfl
    obtain rfl : agenda = task :: rest := Option.some.inj (hscene.agenda_eq.symm.trans hturn.agenda)
    rw [hmain task (List.mem_cons_self ..)] at hcall
    cases hcall
  obtain ⟨owned, howned, howner⟩ :=
    (hscene.crew.labour me _ hme hturn.agenda).exists_owner (List.cons_ne_nil _ _)
  obtain ⟨i, hcharge⟩ := Task.charge?_of_owner howner
  obtain ⟨hlate, htasks⟩ := (hscene.stands i).late_of_charge (isSettled_fallen hfails i) hme
    hturn.agenda howned hcharge
  obtain ⟨hsubject, hstill⟩ := htasks task (List.mem_cons_self ..)
  refine ⟨hthread ▸ hme, ?_, fun hstart => ?_⟩
  · rw [hcalled, ← eq_of_fallen_late hlate]
    exact Option.some.inj ((Task.subject?_of_call hcall).symm.trans hsubject)
  · rw [HookCall.hook_of_mem hevent] at hstart
    obtain ⟨t, u, made, resting, hadvance⟩ := Task.advance_of_call hcall hstart
    exact hstill t u made resting hadvance

/-- Once a start is undone, it stays so, and a stop has nothing to do. -/
theorem Scene.follow {count : Nat} {later : List (Move P)} (h : built.Startable s stream)
    (hscene : w.Scene built (fallen before failing standing) told
      (List.replicate count (.stream (.stop s))) record)
    (hfails : standing.FailsWith reason failing) (hcourse : w.follow later = some v) :
    (∃ told agenda, v.Scene built (fallen before failing standing) told agenda
      (record ++ w.record later)) ∧
    ∀ deed ∈ w.record later,
      deed.thread ≠ 0 ∧ deed.subject = failing ∧ deed.event.hook ≠ .start := by
  induction later generalizing w count record with
  | nil =>
    obtain rfl := Option.some.inj hcourse
    rw [World.record, List.append_nil]
    exact ⟨⟨told, _, hscene⟩, by simp⟩
  | cons move later ih =>
    obtain ⟨z, hmove, hcourse⟩ := Option.bind_eq_some_iff.mp hcourse
    rw [World.record, hmove, Option.elim_some, ← List.append_assoc]
    have hdeeds : ∀ deed ∈ w.deeds move,
        deed.thread ≠ 0 ∧ deed.subject = failing ∧ deed.event.hook ≠ .start := by
      obtain ⟨me, expired, task, rest, progress, rfl, hturn⟩ | ⟨hnone, -⟩ := move_cases hmove
      · rw [hturn.deeds]
        refine hscene.aftermath hfails (fun task htask => ?_) hturn
        obtain rfl := List.eq_of_mem_replicate htask
        rfl
      · simp [hnone]
    have hnext : ∃ count, z.Scene built (fallen before failing standing) told
        (List.replicate count (.stream (.stop s))) (record ++ w.deeds move) := by
      by_cases hme : move = .step 0
      case neg => exact ⟨count, hscene.other hmove hme⟩
      subst hme
      obtain ⟨expired, task, rest, progress, hturn⟩ := step_turn hmove
      have hagenda := hscene.agenda_eq.symm.trans hturn.agenda
      cases count with
      | zero => cases hagenda
      | succ count =>
        obtain ⟨rfl, rfl⟩ : .stream (.stop s) = task ∧ List.replicate count _ = rest :=
          List.cons.inj (Option.some.inj hagenda)
        have hstops : w.stopStream s = some progress := hturn.performs
        simp only [stopStream, hscene.stream_eq h, h.idle, Option.bind_eq_bind, Option.bind_some]
          at hstops
        obtain rfl := Option.some.inj hstops
        rw [hturn.deeds]
        exact ⟨count, hscene.turn_free hmove hturn (fun j hj => by cases hj) rfl (by simp)⟩
    obtain ⟨count, hnext⟩ := hnext
    obtain ⟨hlast, hothers⟩ := ih hnext hcourse
    refine ⟨hlast, fun deed hdeed => ?_⟩
    rcases List.mem_append.mp hdeed with hdeed | hdeed
    · exact hdeeds deed hdeed
    · exact hothers deed hdeed

/-! ## A start that fails -/

variable {shared : P.Shared} {name : String} {config : PipelineConfig} {registry : Registry P}
  {output : Bool} {error : StreamError} {moves : List (Move P)}

/-- When the start of a stream that was just built returns a failure, some plugin has failed, all
plugins before it are down, and none after it was touched. -/
theorem scene_of_failed (h : built.Startable s stream)
    (hbuilt : (idle shared).buildStream name config registry output =
      { reply := .returned s, shared := built })
    (hcourse : (built.assign 0 [.stream (.start s)]).follow moves = some w)
    (hfailed : w.HasReturned (.failed error)) :
    ∃ before failing after reason standing, built.startOrder s = before ++ failing :: after ∧
      error = .node reason ∧ standing.FailsWith reason failing ∧
      w.Scene built (fallen before failing standing) (.failed error) []
        ((built.assign 0 [.stream (.start s)]).record moves) := by
  have hopening : (built.assign 0 [.stream (.start s)]).Scene built (raised []) .ok
      [.stream (.start s)] [] :=
    (scene_of_built hbuilt).assign (by simp [Task.isPlain, Task.subject?])
  have hfalls : Safe.FallsSafely built s error fun record w =>
      ∃ before failing after reason standing, built.startOrder s = before ++ failing :: after ∧
        error = .node reason ∧ standing.FailsWith reason failing ∧
        w.Scene built (fallen before failing standing) (.failed error) [] record := by
    intro before failing after reason standing horder hfails w record hscene
    refine assures_of_invariant (I := fun record w =>
        w.Scene built (fallen before failing standing) (.failed (.node reason)) [] record) hscene
      (fun record w hscene hfailed => ?_)
      (fun record w w' move hscene hmove hother => hscene.other hmove hother)
      fun record w w' hscene hstep => ?_
    · obtain ⟨thread, hthread, -, -, hanswer⟩ := hfailed
      have htold : w.answerOf 0 = .failed error := by
        rw [answerOf, hthread, Option.elim_some, hanswer]
      obtain rfl : error = .node reason := Answer.failed.inj (htold.symm.trans hscene.told_eq)
      exact ⟨before, failing, after, reason, standing, horder, rfl, hfails, hscene⟩
    · obtain ⟨expired, task, rest, progress, hturn⟩ := step_turn hstep
      exact absurd (hscene.agenda_eq.symm.trans hturn.agenda) (by simp)
  have hreached := Safe.start_stream h hfalls _ [] hopening moves w hcourse hfailed
  rwa [List.nil_append] at hreached

/-- Take a stream that was just built, and a start of it that returns a failure. No source of it
breaks down while it runs. Then some plugin has failed for the reason that is returned, and the
start is undone. It stays so on every later course, however often the stream is told to stop: the
main thread calls no hook any more, and the worker of the plugin that has failed at most finishes
it. -/
theorem rolledBack_of_failed
    (hbuilt : (idle shared).buildStream name config registry output =
      { reply := .returned s, shared := built })
    (hcourse : (built.assign 0 [.stream (.start s)]).follow moves = some w)
    (hfailed : w.HasReturned (.failed error))
    (hsound : ∀ deed ∈ (built.assign 0 [.stream (.start s)]).record moves,
      deed.event ≠ .ends .start .panicked) :
    ∃ before failing after reason, built.startOrder s = before ++ failing :: after ∧
      error = .node reason ∧
      w.RolledBack before failing after reason
        ((built.assign 0 [.stream (.start s)]).record moves) ∧
      ∀ count later v,
        (w.assign 0 (List.replicate count (.stream (.stop s)))).follow later = some v →
        v.RolledBack before failing after reason
          ((built.assign 0 [.stream (.start s)]).record moves ++
            (w.assign 0 (List.replicate count (.stream (.stop s)))).record later) ∧
        ∀ deed ∈ (w.assign 0 (List.replicate count (.stream (.stop s)))).record later,
          deed.thread ≠ 0 ∧ deed.subject = failing ∧ deed.event.hook ≠ .start := by
  obtain ⟨stream, h⟩ := startable_of_built hbuilt
  obtain ⟨before, failing, after, reason, standing, horder, hreason, hfails, hscene⟩ :=
    scene_of_failed h hbuilt hcourse hfailed
  refine ⟨before, failing, after, reason, horder, hreason,
    hscene.rolledBack h horder hfails hsound, fun count later v hlater => ?_⟩
  have hstops : ∀ task ∈ List.replicate count (Task.stream (.stop s)),
      task.isPlain = true ∧ task.subject? = none := by
    intro task htask
    obtain rfl := List.eq_of_mem_replicate htask
    exact ⟨rfl, rfl⟩
  obtain ⟨⟨told, agenda, hlast⟩, hdeeds⟩ := (hscene.assign hstops).follow h hfails hlater
  refine ⟨hlast.rolledBack h horder hfails fun deed hdeed => ?_, hdeeds⟩
  rcases List.mem_append.mp hdeed with hdeed | hdeed
  · exact hsound deed hdeed
  · intro hevent
    exact (hdeeds deed hdeed).2.2 (by rw [hevent]; rfl)

end World

/-! ## A source that is not ready in time -/

/-- The one processor, and the one trigger, whose source needs some time to become ready. -/
def slowRegistry : Registry slowPlugins where
  triggers := [("tick", { make := fun _ _ => { reply := .returned (), shared := () } })]
  processors :=
    [("relay",
      { kind := .transform, make := fun _ _ => { reply := .returned (), shared := () } })]

/-- A course on which the processor becomes ready and the source is given up. -/
def slowStreamStart : List (Move slowPlugins) :=
  ([0, 0, 0, 0, 0, 1, 0, 0, 0, 0, 0, 0, 0, 0, 0, 0, 0, 2].map .step : List (Move slowPlugins)) ++
    [.pass (5 * Duration.perSecond)] ++
    [0, 0, 0, 0, 0, 0, 0, 0, 0, 0, 0, 1, 1, 0, 0, 0, 0, 0].map .step

/-- A course on which the stream is told to stop, and the source becomes ready after all. -/
def slowStreamEnd : List (Move slowPlugins) :=
  [0, 2, 2, 2].map .step

/-- The source of a stream is not ready in time: its processor is finished and accepts no more
events, and the source is finished when it becomes ready after all, although the stream was told
to stop before. -/
theorem World.rolledBack_of_failed_slow : ∃ built w v : World slowPlugins, ∃ error,
    (idle ()).buildStream "line" (relayConfig .thread) slowRegistry false =
      { reply := .returned 0, shared := built } ∧
    (built.assign 0 [.stream (.start 0)]).follow slowStreamStart = some w ∧
    w.HasReturned (.failed error) ∧
    (w.assign 0 [.stream (.stop 0)]).follow slowStreamEnd = some v ∧
    lifeOf (.source 0 0) ((built.assign 0 [.stream (.start 0)]).record slowStreamStart ++
      (w.assign 0 [.stream (.stop 0)]).record slowStreamEnd) =
        Hook.prepare.call .returned ++ Hook.finish.call .returned ∧
    ∃ reason, error = .node reason ∧ v.RolledBack [.processor 0 0] (.source 0 0) [] reason
      ((built.assign 0 [.stream (.start 0)]).record slowStreamStart ++
        (w.assign 0 [.stream (.stop 0)]).record slowStreamEnd) := by
  refine ⟨_, _, _, _, rfl, rfl, ⟨_, rfl, rfl, rfl, rfl⟩, rfl, rfl, ?_⟩
  have h := @rolledBack_of_failed slowPlugins _ _ 0 () "line" (relayConfig .thread) slowRegistry
    false _ slowStreamStart rfl rfl ⟨_, rfl, rfl, rfl, rfl⟩ fun deed hdeed => by
      have hdeed : deed ∈ [⟨1, .processor 0 0, .calls .prepare⟩,
        ⟨1, .processor 0 0, .ends .prepare .returned⟩, ⟨2, .source 0 0, .calls .prepare⟩,
        ⟨1, .processor 0 0, .calls .finish⟩, ⟨1, .processor 0 0, .ends .finish .returned⟩] := hdeed
      simp only [List.mem_cons, List.not_mem_nil, or_false] at hdeed
      rcases hdeed with rfl | rfl | rfl | rfl | rfl <;> simp
  obtain ⟨before, failing, after, reason, h⟩ := h
  have horder : [.processor 0 0, .source 0 0] = before ++ failing :: after := h.1
  have hundone := (h.2.2.2 1 slowStreamEnd _ rfl).1
  refine ⟨reason, h.2.1, ?_⟩
  have hsplit : (before = [] ∧ failing = .processor 0 0 ∧ after = [.source 0 0]) ∨
      (before = [.processor 0 0] ∧ failing = .source 0 0 ∧ after = []) := by
    simpa [List.cons_eq_append_iff] using horder
  rcases hsplit with ⟨-, -, hafter⟩ | ⟨hbefore, hfailing, hafter⟩
  · -- The source was asked to become ready, so it does not come after the plugin that has failed.
    exact absurd rfl (hundone.after (.source 0 0) (by simp [hafter])
      ⟨2, .source 0 0, .calls .prepare⟩ (.tail _ (.tail _ (.head _))))
  · rw [hbefore, hfailing, hafter] at hundone
    exact hundone

end EventPipeline
