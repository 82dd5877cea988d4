import EventPipeline.Proofs.Lifecycle.Worker

/-!
# `EventPipeline.Proofs.Lifecycle.Standing`: how far a start has come with a plugin

While the main thread starts a stream, and while it undoes a start that has failed, every plugin
has a standing: it was not touched yet, it is up, it is down again, or it has failed, and there
are the standings between those. `World.Stands` says what holds for the unit of the plugin, for
its worker and for its record. Whatever other threads do, and whatever the main thread does with
other plugins, a plugin keeps its standing (`Stands.turn`).
-/

set_option autoImplicit false

namespace EventPipeline

variable {P : Plugins}

/-- How far the main thread has come with a plugin. -/
inductive Standing where
  /-- it was never started -/
  | untouched
  /-- the main thread makes an inline processor ready -/
  | entering (asked : Bool)
  /-- the main thread waits for the worker of a queued processor -/
  | awaited
  /-- the main thread waits for the worker of a source -/
  | launched (launch worker : Nat)
  | up
  /-- the main thread finishes an inline processor -/
  | leaving (asked : Bool)
  /-- a queued processor is to handle what it has taken -/
  | draining
  /-- the queue of a processor is closed -/
  | closed
  /-- the main thread asks a source to stop -/
  | halting (worker : Nat) (asked : Bool)
  /-- a source was asked to stop -/
  | halted (worker : Nat)
  | down
  /-- it did not become ready -/
  | failed
  /-- it was not ready in time -/
  | late

/-- A processor of such a standing has got no events. -/
def Standing.isSpared : Standing → Bool
  | entering _ | awaited | failed | late => true
  | _ => false

/-- The standing of a plugin whose start has failed for the reason. It did not become ready, or it
was not ready in time; a source that has run nevertheless is down. -/
def Standing.FailsWith (reason : NodeError) (i : Instance) (standing : Standing) : Prop :=
  standing = .failed ∨ Answer.IsInitTimeout (.failed (.node reason)) ∧
    (standing = .late ∨ standing = .down ∧ ∃ t u, i = .source t u)

/-- The standing of an inline processor, given whether its unit accepts events, and its life. -/
inductive InlineStage (accepting : Bool) (life : List HookEvent) : Standing → Prop
  | entering (asked : Bool) (haccepting : accepting = false)
    (hlife : life = Hook.prepare.entered asked) : InlineStage accepting life (.entering asked)
  | up (haccepting : accepting = true) (hlife : life = Hook.prepare.call .returned) :
    InlineStage accepting life .up
  | leaving (asked : Bool) (haccepting : accepting = false)
    (hlife : life = Hook.prepare.call .returned ++ Hook.finish.entered asked) :
    InlineStage accepting life (.leaving asked)
  | down (upshot : Upshot) (haccepting : accepting = false)
    (hlife : life = Hook.prepare.call .returned ++ Hook.finish.call upshot) :
    InlineStage accepting life .down
  | failed (upshot : Upshot) (haccepting : accepting = false) (h : upshot ≠ .returned)
    (hlife : life = Hook.prepare.call upshot) : InlineStage accepting life .failed

/-- The standing of a queued processor, given the signs of its unit, what its worker has to do,
and its life. -/
inductive QueuedStage (signs : Signs) (agenda : List Task) (life : List HookEvent) :
    Standing → Prop
  | awaited (haccepting : signs.accepting = false) : QueuedStage signs agenda life .awaited
  | up (haccepting : signs.accepting = true) (hprepared : Hook.prepare.call .returned <+: life) :
    QueuedStage signs agenda life .up
  | draining (hprepared : Hook.prepare.call .returned <+: life) :
    QueuedStage signs agenda life .draining
  | closed (haccepting : signs.accepting = false)
    (hprepared : Hook.prepare.call .returned <+: life) : QueuedStage signs agenda life .closed
  | down (haccepting : signs.accepting = false)
    (hprepared : Hook.prepare.call .returned <+: life) (hagenda : agenda = []) :
    QueuedStage signs agenda life .down
  | failed (upshot : Upshot) (haccepting : signs.accepting = false) (h : upshot ≠ .returned)
    (hlife : life = Hook.prepare.call upshot) (hagenda : agenda = []) :
    QueuedStage signs agenda life .failed
  | late (haccepting : signs.accepting = false) (hclosed : signs.connected = false) :
    QueuedStage signs agenda life .late

/-- The standing of a source that was launched on the worker `k`, given what shows of its unit,
what its worker has to do, its life, and how it was asked to stop. -/
inductive TendedStage (source : SourceOutline) (l k : Nat) (launch : Launch) (agenda : List Task)
    (life halts : List HookEvent) : Standing → Prop
  | launched (hrunning : source.running = false) (hphase : launch.phase ≠ .dismissed)
    (hhalts : halts = []) : TendedStage source l k launch agenda life halts (.launched l k)
  | up (hsource : source = { running := true, worker := some k })
    (hprepared : Hook.prepare.call .returned <+: life) (hhalts : halts = []) :
    TendedStage source l k launch agenda life halts .up
  | halting (asked : Bool) (hrunning : source.running = false)
    (hprepared : Hook.prepare.call .returned <+: life) (hhalts : halts = Hook.halt.entered asked) :
    TendedStage source l k launch agenda life halts (.halting k asked)
  | halted (upshot : Upshot) (hrunning : source.running = false)
    (hprepared : Hook.prepare.call .returned <+: life) (hhalts : halts = Hook.halt.call upshot) :
    TendedStage source l k launch agenda life halts (.halted k)
  | down (upshot : Upshot) (hrunning : source.running = false)
    (hprepared : Hook.prepare.call .returned <+: life) (hhalts : halts = Hook.halt.call upshot)
    (hagenda : agenda = []) : TendedStage source l k launch agenda life halts .down
  | failed (upshot : Upshot) (hrunning : source.running = false) (hhalts : halts = [])
    (h : upshot ≠ .returned) (hlife : life = Hook.prepare.call upshot) (hagenda : agenda = []) :
    TendedStage source l k launch agenda life halts .failed
  | late (hrunning : source.running = false) (hhalts : halts = []) (hstart : .calls .start ∉ life)
    (hretired : Retired launch agenda) : TendedStage source l k launch agenda life halts .late

/-- The unit of an inline processor that is spared accepts no events. -/
theorem InlineStage.closed {accepting : Bool} {standing : Standing} {life : List HookEvent}
    (h : InlineStage accepting life standing) (hspared : standing.isSpared = true) :
    accepting = false := by
  cases h with
  | entering | failed => assumption
  | up | leaving | down => cases hspared

/-- The unit of a queued processor that is spared accepts no events. -/
theorem QueuedStage.closed_of_spared {signs : Signs} {agenda : List Task} {life : List HookEvent}
    {standing : Standing} (h : QueuedStage signs agenda life standing)
    (hspared : standing.isSpared = true) : signs.accepting = false := by
  cases h with
  | awaited | failed | late => assumption
  | up | draining | closed | down => cases hspared

/-- The thread `me` leaves the plugin to others with the task: the task is about something else,
or it belongs to the labour of a worker. The main thread works for nobody. -/
def Task.IsAside (task : Task) (me : Nat) (i : Instance) : Prop :=
  task.subject? = some i → task.isLabour = true ∧ (task.charge? = some i → me ≠ 0)

namespace World

variable {w w' : World P} {me n u t l k : Nat} {task : Task} {rest agenda : List Task}
  {progress : Progress P} {expired : Bool} {record : List Deed} {standing : Standing}
  {i : Instance} {life : List HookEvent} {launch : Launch}

/-- The processor has got no events, and gets none. -/
structure Spared (w : World P) (record : List Deed) (n u : Nat) : Prop where
  unfed : w.Unfed n u
  record : ∀ deed ∈ record, deed.subject = .processor n u → deed.event.hook ≠ .process

/-- A processor gets no events as long as its unit accepts none. -/
theorem Spared.turn (h : w.Spared record n u)
    (hclosed : ∀ signs, w.signs? n u = some signs → signs.accepting = false)
    (hturn : w.Turn me expired task rest progress w') (hplain : task.isPlain = true)
    (haside : task.IsAside me (.processor n u)) :
    w'.Spared (record ++ w.deedsOf me expired task) n u := by
  refine ⟨h.unfed.turn hclosed hturn hplain fun hsubject => (haside hsubject).1, ?_⟩
  intro deed hdeed hsubject
  rcases List.mem_append.mp hdeed with hdeed | hdeed
  · exact h.record deed hdeed hsubject
  · exact h.unfed.not_process hturn hdeed hsubject

/-- The thread `k` has called all hooks that make up the life of the plugin. -/
def CalledBy (k : Nat) (i : Instance) (record : List Deed) : Prop :=
  ∀ deed ∈ record, deed.subject = i → deed.event.hook.isVital = true → deed.thread = k

/-- Nobody else calls such a hook as long as nobody else takes care of the plugin. -/
theorem CalledBy.turn (h : CalledBy k i record) (hheld : w.HeldBy k i)
    (hturn : w.Turn me expired task rest progress w') :
    CalledBy k i (record ++ w.deedsOf me expired task) := by
  intro deed hdeed hsubject hvital
  rcases List.mem_append.mp hdeed with hdeed | hdeed
  · exact h deed hdeed hsubject hvital
  · obtain ⟨hthread, call, hcall, hcalled, hevent⟩ := mem_deedsOf hdeed
    rw [HookCall.hook_of_mem hevent] at hvital
    rw [hthread]
    refine hturn.task_holds hheld ?_
    rw [Task.charge?_of_call hcall hvital, ← hcalled, hsubject]

/-- The standing of a processor. -/
inductive ProcessorStands (w : World P) (record : List Deed) (n u : Nat) (standing : Standing) :
    Prop
  | untouched (hstanding : standing = .untouched) (h : w.Untouched (.processor n u))
    (hrecord : ∀ deed ∈ record, deed.subject ≠ .processor n u)
  | inline (accepting : Bool) (hsigns : w.signs? n u = some { accepting })
    (hheld : w.HeldBy 0 (.processor n u))
    (hstage : InlineStage accepting (lifeOf (.processor n u) record) standing)
    (hspared : standing.isSpared = true → w.Spared record n u)
    (hcalled : CalledBy 0 (.processor n u) record)
  | queued (k : Nat) (signs : Signs) (agenda : List Task) (hk : k ≠ 0)
    (h : w.Enlisted n u k signs agenda (lifeOf (.processor n u) record))
    (hstage : QueuedStage signs agenda (lifeOf (.processor n u) record) standing)
    (hspared : standing.isSpared = true → w.Spared record n u ∧ Errandless agenda)
    (hcalled : CalledBy k (.processor n u) record)

/-- The standing of a source. -/
inductive SourceStands (w : World P) (record : List Deed) (t u : Nat) (standing : Standing) :
    Prop
  | untouched (hstanding : standing = .untouched) (h : w.Untouched (.source t u))
    (hrecord : ∀ deed ∈ record, deed.subject ≠ .source t u)
  | tended (l k : Nat) (launch : Launch) (agenda : List Task) (source : SourceOutline) (hk : k ≠ 0)
    (h : w.Launched 0 t u l k launch agenda (lifeOf (.source t u) record))
    (hsource : (w.source? t u).map SourceUnit.outline = some source)
    (hstage : TendedStage source l k launch agenda (lifeOf (.source t u) record)
      (haltsOf (.source t u) record) standing)
    (hcalled : CalledBy k (.source t u) record)

/-- The standing of a plugin. -/
def Stands (w : World P) (record : List Deed) : Instance → Standing → Prop
  | .processor n u, standing => w.ProcessorStands record n u standing
  | .source t u, standing => w.SourceStands record t u standing

/-- No hook of a plugin that was never started is called, either. -/
theorem Untouched.record_turn (h : w.Untouched i) (hrecord : ∀ deed ∈ record, deed.subject ≠ i)
    (hturn : w.Turn me expired task rest progress w') (haside : task.IsAside me i) :
    ∀ deed ∈ record ++ w.deedsOf me expired task, deed.subject ≠ i := by
  intro deed hdeed
  rcases List.mem_append.mp hdeed with hdeed | hdeed
  · exact hrecord deed hdeed
  · exact h.not_called hturn (fun hsubject => (haside hsubject).1) hdeed

/-- A processor keeps its standing. -/
theorem ProcessorStands.turn (h : w.ProcessorStands record n u standing)
    (hturn : w.Turn me expired task rest progress w') (hplain : task.isPlain = true)
    (haside : task.IsAside me (.processor n u)) :
    w'.ProcessorStands (record ++ w.deedsOf me expired task) n u standing := by
  have hlabour (hsubject : task.subject? = some (.processor n u)) : task.isLabour = true :=
    (haside hsubject).1
  cases h with
  | untouched hstanding h hrecord =>
    exact .untouched hstanding (h.turn hturn hplain hlabour) (h.record_turn hrecord hturn haside)
  | inline accepting hsigns hheld hstage hspared hcalled =>
    -- Nobody but the main thread takes care of an inline processor, and it does something else.
    have hcharge : task.charge? ≠ some (.processor n u) := fun hcharge =>
      (haside (Task.subject?_of_charge hcharge)).2 hcharge (hturn.task_holds hheld hcharge)
    have hsummons : task.summons? ≠ some (.processor n u) := fun hsummons => by
      rw [Task.summons?_of_labour (hlabour (Task.subject?_of_summons hsummons))] at hsummons
      cases hsummons
    have hlife : lifeOf (.processor n u) (record ++ w.deedsOf me expired task) =
        lifeOf (.processor n u) record := by
      rw [lifeOf_append, lifeOf_deedsOf_ne hcharge, List.append_nil]
    refine .inline accepting ((hturn.signs?_eq hplain hlabour hcharge).trans hsigns)
      (hheld.turn hturn hsummons) (hlife ▸ hstage) (fun h => ?_) (hcalled.turn hheld hturn)
    refine (hspared h).turn (fun signs hfound => ?_) hturn hplain haside
    obtain rfl := Option.some.inj (hsigns.symm.trans hfound)
    exact hstage.closed h
  | queued k signs agenda hk h hstage hspared hcalled =>
    have hcalled := hcalled.turn h.held hturn
    have hkeeps (hspare : standing.isSpared = true) :
        w'.Spared (record ++ w.deedsOf me expired task) n u := by
      refine (hspared hspare).1.turn (fun found hfound => ?_) hturn hplain haside
      obtain rfl := Option.some.inj (h.signs_eq.symm.trans hfound)
      exact hstage.closed_of_spared hspare
    by_cases hme : me = k
    · subst hme
      obtain rfl : agenda = task :: rest := Option.some.inj (h.agenda_eq.symm.trans hturn.agenda)
      obtain ⟨later, haccepting, hconnected, hlater⟩ := h.turn_self hturn hplain
      rw [← lifeOf_append] at hlater
      refine .queued me later _ hk hlater ?_ (fun hspare =>
        ⟨hkeeps hspare, hturn.errandless (hspared hspare).1.unfed h.stage (hspared hspare).2⟩)
        hcalled
      have hprepares (hprepared : Hook.prepare.call .returned <+: lifeOf (.processor n u) record) :
          Hook.prepare.call .returned <+:
            lifeOf (.processor n u) (record ++ w.deedsOf me expired task) := by
        rw [lifeOf_append]
        exact hprepared.trans (List.prefix_append ..)
      cases hstage with
      | awaited h => exact .awaited (haccepting.trans h)
      | up h hprepared => exact .up (haccepting.trans h) (hprepares hprepared)
      | draining hprepared => exact .draining (hprepares hprepared)
      | closed h hprepared => exact .closed (haccepting.trans h) (hprepares hprepared)
      | down h hprepared hagenda => cases hagenda
      | failed upshot h hne hlife hagenda => cases hagenda
      | late h hclosed => exact .late (haccepting.trans h) (hconnected.trans hclosed)
    · obtain ⟨hlife, hlater⟩ := h.turn_other hme hturn hplain hlabour
      have hsame : lifeOf (.processor n u) (record ++ w.deedsOf me expired task) =
          lifeOf (.processor n u) record := by
        rw [lifeOf_append, hlife, List.append_nil]
      exact .queued k signs agenda hk (hsame ▸ hlater) (hsame ▸ hstage)
        (fun hspare => ⟨hkeeps hspare, (hspared hspare).2⟩) hcalled

/-- A source that does not run and cannot be begun is not called to start. -/
theorem Turn.not_starts (h : w.Turn me expired task rest progress w')
    (hunmoving : Unmoving (task :: rest)) :
    .calls .start ∉ lifeOf i (w.deedsOf me expired task) := by
  refine not_mem_lifeOf fun deed hdeed _ hevent => ?_
  obtain ⟨-, call, hcall, -, hmem⟩ := mem_deedsOf hdeed
  have hhook : call.hook = .start := by
    rw [← HookCall.hook_of_mem hmem, hevent]
    rfl
  obtain ⟨s, v, made, resting, rfl⟩ := Task.advance_of_call hcall hhook
  exact hunmoving s v made resting (List.mem_cons_self ..)

/-- A source keeps its standing. -/
theorem SourceStands.turn (h : w.SourceStands record t u standing)
    (hturn : w.Turn me expired task rest progress w') (hplain : task.isPlain = true)
    (haside : task.IsAside me (.source t u)) :
    w'.SourceStands (record ++ w.deedsOf me expired task) t u standing := by
  have hlabour (hsubject : task.subject? = some (.source t u)) : task.isLabour = true :=
    (haside hsubject).1
  cases h with
  | untouched hstanding h hrecord =>
    exact .untouched hstanding (h.turn hturn hplain hlabour) (h.record_turn hrecord hturn haside)
  | tended l k launch agenda source hk h hsource hstage hcalled =>
    have hcalled := hcalled.turn h.held hturn
    have hshows : (w'.source? t u).map SourceUnit.outline = some source :=
      (hturn.source_eq hplain hlabour).trans hsource
    have hhalts : haltsOf (.source t u) (record ++ w.deedsOf me expired task) =
        haltsOf (.source t u) record := by
      rw [haltsOf_append, Turn.haltsOf_eq w me expired hlabour, List.append_nil]
    by_cases hme : me = k
    · subst hme
      obtain rfl : agenda = task :: rest := Option.some.inj (h.agenda_eq.symm.trans hturn.agenda)
      obtain ⟨later, -, hphase, hunmoving, hlater⟩ := h.turn_self hturn
      rw [← lifeOf_append] at hlater
      refine .tended l me later _ source hk hlater hshows ?_ hcalled
      rw [hhalts]
      have hprepares (hprepared : Hook.prepare.call .returned <+: lifeOf (.source t u) record) :
          Hook.prepare.call .returned <+:
            lifeOf (.source t u) (record ++ w.deedsOf me expired task) := by
        rw [lifeOf_append]
        exact hprepared.trans (List.prefix_append ..)
      cases hstage with
      | launched hrunning hpending hnone => exact .launched hrunning (mt hphase.mp hpending) hnone
      | up hup hprepared hnone => exact .up hup (hprepares hprepared) hnone
      | halting asked hrunning hprepared hasked =>
        exact .halting asked hrunning (hprepares hprepared) hasked
      | halted upshot hrunning hprepared hasked =>
        exact .halted upshot hrunning (hprepares hprepared) hasked
      | down upshot hrunning hprepared hasked hagenda => cases hagenda
      | failed upshot hrunning hnone hne hlife hagenda => cases hagenda
      | late hrunning hnone hstart hretired =>
        obtain ⟨hdismissed, hstill⟩ := hretired
        refine .late hrunning hnone ?_ ⟨hphase.mpr hdismissed, hunmoving hdismissed hstill⟩
        rw [lifeOf_append, List.mem_append, not_or]
        exact ⟨hstart, hturn.not_starts hstill⟩
    · have hsummons : task.summons? ≠ some (.source t u) := fun hsummons => by
        rw [Task.summons?_of_labour (hlabour (Task.subject?_of_summons hsummons))] at hsummons
        cases hsummons
      obtain ⟨hlife, hlater⟩ := h.turn_other hme hsummons hturn
      obtain ⟨-, hlater⟩ | ⟨⟨worker, rfl⟩, -⟩ := hlater
      case inr => cases hlabour rfl
      have hsame : lifeOf (.source t u) (record ++ w.deedsOf me expired task) =
          lifeOf (.source t u) record := by
        rw [lifeOf_append, hlife, List.append_nil]
      refine .tended l k launch agenda source hk (hsame ▸ hlater) hshows ?_ hcalled
      rw [hhalts, hsame]
      exact hstage

/-- Every plugin keeps its standing when a thread leaves it to others. -/
theorem Stands.turn (h : w.Stands record i standing)
    (hturn : w.Turn me expired task rest progress w') (hplain : task.isPlain = true)
    (haside : task.IsAside me i) : w'.Stands (record ++ w.deedsOf me expired task) i standing := by
  cases i with
  | processor n u => exact ProcessorStands.turn h hturn hplain haside
  | source t u => exact SourceStands.turn h hturn hplain haside

/-- Every plugin keeps its standing when nothing that matters changes. -/
theorem Stands.same (h : w.Stands record i standing) (hsame : Same w w') :
    w'.Stands record i standing := by
  cases i with
  | processor n u =>
    cases h with
    | untouched hstanding h hrecord => exact .untouched hstanding (h.same hsame) hrecord
    | inline accepting hsigns hheld hstage hspared hcalled =>
      refine .inline accepting (by rw [signs?, hsame.unit?]; exact hsigns) (hsame.tasks hheld)
        hstage
        (fun h => ⟨(hspared h).unfed.same hsame, (hspared h).record⟩) hcalled
    | queued k signs agenda hk h hstage hspared hcalled =>
      refine .queued k signs agenda hk (h.same hsame) hstage (fun h => ?_) hcalled
      exact ⟨⟨(hspared h).1.unfed.same hsame, (hspared h).1.record⟩, (hspared h).2⟩
  | source t u =>
    cases h with
    | untouched hstanding h hrecord => exact .untouched hstanding (h.same hsame) hrecord
    | tended l k launch agenda source hk h hsource hstage hcalled =>
      exact .tended l k launch agenda source hk (h.same hsame)
        (by rw [hsame.source?]; exact hsource) hstage hcalled

end World
end EventPipeline
