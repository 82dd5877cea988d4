import EventPipeline.Proofs.Lifecycle.Manning
import EventPipeline.Proofs.Lifecycle.Conductor

/-!
# `EventPipeline.Proofs.Lifecycle.Recruiting`: the start of a node mans its units

A thread that starts a node starts one unit after the other and waits for the worker of each to be
ready (`StartStage`), or it has met with a failure and undoes what it did (`FailStage`), from which
it does not come back to success. Whatever other threads do meanwhile, the units before the one that
it is about are manned, and the ones after it are vacant, or somebody else has started them
(`Recruits`). So when the thread is told that the node has started, all units of the node are manned
(`recruits_of_started`).
-/

set_option autoImplicit false

namespace EventPipeline

variable {P : Plugins}

/-- The units of a node that is built to run on threads are queued, and have taken no events. -/
theorem Node.buildUnits_queued {name : String}
    {make : P.Shared → Made P.Shared NodeError P.Processor} {count number : Nat}
    {shared : P.Shared} {units : List (ExecutionUnit P)}
    (h : (buildUnits name .thread make count number shared).reply = .returned units) :
    units.length = count ∧ ∀ unit ∈ units, unit.state = .queued {} ∧ unit.stats = {} := by
  induction count generalizing number shared units with
  | zero =>
    obtain rfl : [] = units := by simpa [buildUnits] using h
    simp
  | succ count ih =>
    obtain ⟨processor, -, heq⟩ := Made.andThen_returned h
    rw [buildUnits, heq] at h
    obtain ⟨others, hothers, heq⟩ := Made.andThen_returned h
    rw [heq] at h
    obtain rfl := Reply.returned.inj h
    obtain ⟨hlength, hqueued⟩ := ih hothers
    refine ⟨congrArg (· + 1) hlength, fun unit hunit => ?_⟩
    obtain rfl | hunit := List.mem_cons.mp hunit
    · exact ⟨rfl, rfl⟩
    · exact hqueued unit hunit

/-- A node that is built to run on threads has as many queued units as its pool, and has accepted
no events. -/
theorem Node.build_queued {name : String} {settings : NodeSettings}
    {make : P.Shared → Made P.Shared NodeError P.Processor} {shared : P.Shared} {node : Node P}
    (hmode : settings.mode = .thread)
    (h : (build name settings make shared).1.reply = .returned node) :
    node.units.length = max settings.poolSize 1 ∧ node.accepted = 0 ∧
      ∀ unit ∈ node.units, unit.state = .queued {} ∧ unit.stats = {} := by
  simp only [build, hmode, unitCount?] at h
  split at h
  · simp at h
  · obtain ⟨units, hunits, heq⟩ := Made.andThen_returned h
    rw [heq] at h
    obtain rfl := Reply.returned.inj h
    obtain ⟨hlength, hqueued⟩ := buildUnits_queued hunits
    exact ⟨hlength, rfl, hqueued⟩

namespace World

variable {w w' v z : World P} {me j k n u count up : Nat} {task : Task}
  {rest agenda later : List Task} {progress : Progress P} {expired : Bool}

/-! ## The units of a node that is started -/

/-- So many units of a node are manned and accept events. Each of the others is vacant, or its
processor was given away. The node has accepted no events. -/
structure Recruits (w : World P) (n count up : Nat) : Prop where
  node : ∃ node, w.nodes[n]? = some node ∧ node.units.length = count ∧ node.accepted = 0
  idle : w.Tasks fun _ task => task.delivers? ≠ some n
  manned : ∀ u < up, ∃ k, w.Manned n u k none [] [] [] 0
  others : ∀ u, up ≤ u → u < count → w.Vacant n u ∨ w.taken? n u = some true

theorem Recruits.same (h : w.Recruits n count up) (hsame : Same w w') : w'.Recruits n count up where
  node := hsame.nodes ▸ h.node
  idle := hsame.tasks h.idle
  manned u hu := by
    obtain ⟨k, hmanned⟩ := h.manned u hu
    exact ⟨k, hmanned.same hsame⟩
  others u hup hu := by
    obtain hvacant | htaken := h.others u hup hu
    · exact .inl (hvacant.same hsame)
    · refine .inr ?_
      rw [taken?, hsame.unit?]
      exact htaken

/-- A unit that nobody stops stays manned when no event is brought to its node. -/
theorem Manned.turn_unasked {awaited : Option Nat} (h : w.Manned n u k awaited [] [] [] 0)
    (hturn : w.Turn j expired task rest progress w') (hstop : task.stops? ≠ some n)
    (hother : awaited ≠ some j) (hquiet : task.delivers? ≠ some n) :
    w'.Manned n u k awaited [] [] [] 0 := by
  have hlater := h.turn hturn (fun hsame => hstop (hsame ▸ rfl)) hother
    fun hsame => absurd hsame hquiet
  rwa [List.prefix_nil.mp hlater.begun_prefix] at hlater

/-- Nobody is about to deliver an event to a node to which none is brought. -/
theorem Recruits.deals?_ne (h : w.Recruits n count up)
    (hturn : w.Turn j expired task rest progress w') (henters : task.enters? ≠ some n) :
    task.deals? ≠ some n := by
  intro hdeals
  obtain hsame | ⟨u, event, rfl⟩ := Task.deals?_cases hdeals
  · exact henters hsame
  · exact hturn.task_holds h.idle rfl

/-- The units of a node are as far as before after every turn that neither stops one of them nor
brings an event to the node. -/
theorem Recruits.turn (h : w.Recruits n count up) (hturn : w.Turn j expired task rest progress w')
    (hstop : task.stops? ≠ some n) (henters : task.enters? ≠ some n) : w'.Recruits n count up := by
  have hquiet : task.delivers? ≠ some n := hturn.task_holds h.idle
  obtain ⟨node, hnode, hcount, haccepted⟩ := h.node
  obtain ⟨after, hafter, hlength, hsame⟩ := hturn.node_kept hnode henters
  refine ⟨⟨after, hafter, hlength.trans hcount, hsame.trans haccepted⟩, ?_, fun u hu => ?_,
    fun u hup hu => ?_⟩
  · exact hturn.delivers (p := fun _ _ => False) (h.deals?_ne hturn henters) h.idle
  · obtain ⟨k, hmanned⟩ := h.manned u hu
    exact ⟨k, hmanned.turn_unasked hturn hstop (by rintro ⟨⟩) hquiet⟩
  · obtain hvacant | htaken := h.others u hup hu
    · by_cases hstart : task = .unit (.startUnit n u)
      · subst hstart
        exact .inr (hvacant.started hturn).2.taken?
      · exact .inl (hvacant.turn hturn hstart (fun hsame => hstop (hsame ▸ rfl)) hquiet)
    · exact .inr (hturn.taken?_kept htaken)

/-- One more unit is manned. -/
theorem Recruits.next (h : w.Recruits n count up) (hmanned : w.Manned n up k none [] [] [] 0) :
    w.Recruits n count (up + 1) where
  node := h.node
  idle := h.idle
  manned u hu := by
    obtain hlt | rfl := Nat.lt_succ_iff_lt_or_eq.mp hu
    · exact h.manned u hlt
    · exact ⟨k, hmanned⟩
  others u hup := h.others u (Nat.le_of_succ_le hup)

/-! ## The thread that starts the node -/

/-- What the thread has to do when so many units of the node are manned, before it comes to what
is later. -/
inductive StartStage (w : World P) (n count me : Nat) : List Task → Nat → Prop
  | begins : StartStage w n count me [.unit (.startNode n)] 0
  | next (u : Nat) (hu : u ≤ count) : StartStage w n count me [.unit (.startUnits n u)] u
  | starting (u : Nat) (hu : u < count) :
    StartStage w n count me [.unit (.startUnit n u), .unit (.startedUnit n u)] u
  | awaiting (u k : Nat) (hu : u < count) (hmanned : w.Manned n u k (some me) [] [] [] 0) :
    StartStage w n count me [.unit (.awaitWorker n u), .unit (.startedUnit n u)] u
  | told (u : Nat) (hu : u < count) :
    StartStage w n count me [.answer .ok, .unit (.startedUnit n u)] (u + 1)
  | judging (u : Nat) (hu : u < count) (htold : w.answerOf me = .ok) :
    StartStage w n count me [.unit (.startedUnit n u)] (u + 1)
  | ending : StartStage w n count me [.answer .ok] count
  | back (htold : w.answerOf me = .ok) : StartStage w n count me [] count

/-- What the thread has to do after a failure. -/
inductive FailStage (w : World P) (n me : Nat) : List Task → Prop
  | told (u : Nat) (error : StreamError) :
    FailStage w n me [.answer (.failed error), .unit (.startedUnit n u)]
  | judging (u : Nat) (error : StreamError) (htold : w.answerOf me = .failed error) :
    FailStage w n me [.unit (.startedUnit n u)]
  | undoing (units : List Nat) (error : StreamError) :
    FailStage w n me (units.map (fun u => Task.unit (.stopUnit n u)) ++ [.answer (.failed error)])
  | back (error : StreamError) (htold : w.answerOf me = .failed error) : FailStage w n me []

/-- A thread starts a node: it gets on, or it has failed. -/
inductive Starting (w : World P) (n count me : Nat) (later : List Task) : Prop
  | going (agenda : List Task) (up : Nat) (hagenda : w.agendas[me]? = some (agenda ++ later))
    (hstage : w.StartStage n count me agenda up) (hrecruits : w.Recruits n count up)
  | failing (agenda : List Task) (hagenda : w.agendas[me]? = some (agenda ++ later))
    (hstage : w.FailStage n me agenda)

/-- A turn of the thread that starts the node brings it from one stage to the next, or to a
failure. -/
theorem StartStage.turn (h : w.StartStage n count me (task :: agenda) up)
    (hturn : w.Turn me expired task (agenda ++ later) progress w')
    (hrecruits : w.Recruits n count up)
    (hstop : task.stops? ≠ some n) (henters : task.enters? ≠ some n)
    (hlater : ∀ u, ∀ next ∈ later, next.inside? ≠ some (.processor n u)) :
    w'.Starting n count me later := by
  have hafter := hrecruits.turn hturn hstop henters
  have hagenda := hturn.agenda_me
  have hperform := hturn.performs
  obtain ⟨node, hnode, hcount, -⟩ := hrecruits.node
  generalize hwhole : task :: agenda = whole at h
  cases h with
  | back => cases hwhole
  | begins =>
    cases hwhole
    have hstart : w.startNode n = some progress := hperform
    simp only [startNode, hnode, Option.bind_eq_bind, Option.bind_some] at hstart
    split at hstart
    · cases hstart
      exact .failing _ hagenda (.undoing [] _)
    · cases hstart
      exact .going _ 0 hagenda (.next 0 (Nat.zero_le _)) hafter
  | next _ hu =>
    cases hwhole
    have hstart : w.startUnits n up = some progress := hperform
    simp only [startUnits, hnode, hcount, Option.bind_eq_bind, Option.bind_some] at hstart
    split at hstart
    · rename_i hlt
      cases hstart
      exact .going _ up hagenda (.starting up hlt) hafter
    · rename_i hge
      obtain rfl : up = count := Nat.le_antisymm hu (Nat.le_of_not_lt hge)
      cases hstart
      exact .going _ up hagenda .ending hafter
  | starting _ hu =>
    cases hwhole
    -- If somebody else has started the unit in the meantime, it is not started again.
    obtain hvacant | htaken := hrecruits.others up (Nat.le_refl _) hu
    · obtain ⟨⟨v, rfl⟩, hmanned⟩ := hvacant.started hturn
      exact .going _ up hagenda (.awaiting up _ hu hmanned) hafter
    · obtain ⟨error, rfl⟩ := startUnit_of_taken htaken hperform
      exact .failing _ hagenda (.told up _)
  | awaiting _ k hu hmanned =>
    cases hwhole
    have hrest : ∀ next ∈ [Task.unit (.startedUnit n up)] ++ later,
        next.inside? ≠ some (.processor n up) := by
      intro next hnext
      obtain rfl | hnext := List.mem_cons.mp hnext
      · rintro ⟨⟩
      · exact hlater up next hnext
    obtain ⟨⟨v, rfl⟩, hready⟩ | ⟨v, error, rfl⟩ := hmanned.ready hturn hrest
    · exact .going _ (up + 1) hagenda (.told up hu) (hafter.next hready)
    · exact .failing _ hagenda (.told up _)
  | told u hu =>
    cases hwhole
    have htold := hturn.answerOf_answer
    cases hperform
    exact .going _ _ hagenda (.judging u hu htold) hafter
  | judging u hu htold =>
    cases hwhole
    have hstart : w.startedUnit me n u = some progress := hperform
    rw [startedUnit, htold] at hstart
    cases hstart
    exact .going _ _ hagenda (.next (u + 1) hu) hafter
  | ending =>
    cases hwhole
    have htold := hturn.answerOf_answer
    cases hperform
    exact .going [] _ hagenda (.back htold) hafter

/-- A turn of the thread that has failed brings it to no success. -/
theorem FailStage.turn (h : w.FailStage n me (task :: agenda))
    (hturn : w.Turn me expired task (agenda ++ later) progress w') (hstop : task.stops? ≠ some n) :
    w'.Starting n count me later := by
  have hagenda := hturn.agenda_me
  have hperform := hturn.performs
  generalize hwhole : task :: agenda = whole at h
  cases h with
  | back => cases hwhole
  | told u error =>
    cases hwhole
    have htold := hturn.answerOf_answer
    cases hperform
    exact .failing _ hagenda (.judging u error htold)
  | judging u error htold =>
    cases hwhole
    have hstart : w.startedUnit me n u = some progress := hperform
    rw [startedUnit, htold] at hstart
    cases hstart
    exact .failing _ hagenda (.undoing _ error)
  | undoing units error =>
    cases units with
    | cons u units =>
      -- No unit is stopped on the courses looked at, so the rollback never gets on.
      cases hwhole
      exact absurd rfl hstop
    | nil =>
      cases hwhole
      have htold := hturn.answerOf_answer
      cases hperform
      exact .failing [] hagenda (.back error htold)

/-- The task that a turn does is the one that is done with the move. -/
theorem Turn.taskOf (h : w.Turn j expired task rest progress w') :
    w.taskOf (.step j) = some task := by
  obtain ⟨thread, hthread, hhead⟩ := exists_thread h.agenda
  rw [World.taskOf, hthread, Option.bind_some, hhead]
  rfl

/-- The task that is done with a move, if there is one, is done with a turn. -/
theorem taskOf_cases {move : Move P} (h : w.move move = some w') :
    (∃ j expired task rest progress, w.taskOf move = some task ∧
      w.Turn j expired task rest progress w') ∨ w.taskOf move = none ∧ Same w w' := by
  cases move with
  | step j =>
    obtain ⟨expired, task, rest, progress, hturn⟩ := step_turn h
    exact .inl ⟨j, expired, task, rest, progress, hturn.taskOf, hturn⟩
  | pass | outside =>
    obtain rfl := Option.some.inj h
    exact .inr ⟨rfl, rfl, rfl, rfl, rfl, rfl⟩

/-- A thread that starts a node stays where it is as long as it is told nothing and the unit that it
waits for is manned. -/
theorem StartStage.kept (h : w.StartStage n count me agenda up)
    (htold : w'.answerOf me = w.answerOf me)
    (hmanned : ∀ u k, w.Manned n u k (some me) [] [] [] 0 → w'.Manned n u k (some me) [] [] [] 0) :
    w'.StartStage n count me agenda up := by
  cases h with
  | begins => exact .begins
  | next _ hu => exact .next up hu
  | starting _ hu => exact .starting up hu
  | awaiting _ k hu hawaited => exact .awaiting up k hu (hmanned up k hawaited)
  | told u hu => exact .told u hu
  | judging u hu hok => exact .judging u hu (htold.trans hok)
  | ending => exact .ending
  | back hok => exact .back (htold.trans hok)

/-- A thread that has failed stays where it is as long as it is told nothing. -/
theorem FailStage.kept (h : w.FailStage n me agenda) (htold : w'.answerOf me = w.answerOf me) :
    w'.FailStage n me agenda := by
  cases h with
  | told u error => exact .told u error
  | judging u error hfailed => exact .judging u error (htold.trans hfailed)
  | undoing units error => exact .undoing units error
  | back error hfailed => exact .back error (htold.trans hfailed)

/-- The thread that starts the node gets on, or has failed, after every move. -/
theorem Starting.move {move : Move P} (h : w.Starting n count me later)
    (hlater : ∀ u, ∀ next ∈ later, next.inside? ≠ some (.processor n u))
    (hmove : w.move move = some w') (haway : move = .step me → ¬ w.IsBack me later)
    (hspares : ∀ task, w.taskOf move = some task → task.stops? ≠ some n ∧ task.enters? ≠ some n) :
    w'.Starting n count me later := by
  obtain ⟨j, expired, task, rest, progress, rfl, hturn⟩ | ⟨-, hsame⟩ := move_cases hmove
  case inr =>
    have htold : w'.answerOf me = w.answerOf me := by rw [answerOf, hsame.threads, answerOf]
    cases h with
    | going agenda up hagenda hstage hrecruits =>
      exact .going agenda up (hsame.agendas ▸ hagenda)
        (hstage.kept htold fun _ _ hmanned => hmanned.same hsame) (hrecruits.same hsame)
    | failing agenda hagenda hstage =>
      exact .failing agenda (hsame.agendas ▸ hagenda) (hstage.kept htold)
  obtain ⟨hstop, henters⟩ := hspares task hturn.taskOf
  by_cases hj : j = me
  case pos =>
    subst hj
    -- The thread has not come to what is later yet, so its task belongs to the start.
    have hbusy {agenda : List Task} (hagenda : w.agendas[j]? = some (agenda ++ later)) :
        ∃ left, agenda = task :: left ∧ rest = left ++ later := by
      cases agenda with
      | nil => exact absurd (isBack_iff.mpr hagenda) (haway rfl)
      | cons first left =>
        obtain ⟨rfl, rfl⟩ := List.cons.inj (Option.some.inj (hturn.agenda.symm.trans hagenda))
        exact ⟨left, rfl, rfl⟩
    cases h with
    | going agenda up hagenda hstage hrecruits =>
      obtain ⟨left, rfl, rfl⟩ := hbusy hagenda
      exact hstage.turn hturn hrecruits hstop henters hlater
    | failing agenda hagenda hstage =>
      obtain ⟨left, rfl, rfl⟩ := hbusy hagenda
      exact hstage.turn hturn hstop
  case neg =>
    have htold {agenda : List Task} (hagenda : w.agendas[me]? = some agenda) :
        w'.answerOf me = w.answerOf me := by
      obtain ⟨thread, hthread, -⟩ := exists_thread hagenda
      have hother : Move.step j ≠ (.step me : Move P) := fun hsame => hj (Move.step.inj hsame)
      rw [answerOf, answerOf, move_threads_ne hmove hother hthread, hthread]
    have hne : some me ≠ some j := fun hsame => hj (Option.some.inj hsame).symm
    cases h with
    | going agenda up hagenda hstage hrecruits =>
      refine .going agenda up (hturn.agenda_ne (Ne.symm hj) hagenda)
        (hstage.kept (htold hagenda) fun u k hmanned => ?_) (hrecruits.turn hturn hstop henters)
      exact hmanned.turn_unasked hturn hstop hne (hturn.task_holds hrecruits.idle)
    | failing agenda hagenda hstage =>
      exact .failing agenda (hturn.agenda_ne (Ne.symm hj) hagenda) (hstage.kept (htold hagenda))

/-- The thread that starts the node gets on, or has failed, on every course. -/
theorem Starting.follow {moves : List (Move P)} (h : w.Starting n count me later)
    (hlater : ∀ u, ∀ next ∈ later, next.inside? ≠ some (.processor n u))
    (hcourse : w.follow moves = some z) (haway : StaysAway me later w moves)
    (hon : w.StaysOn n moves) (hunasked : w.StaysUnasked n moves) :
    z.Starting n count me later := by
  induction moves generalizing w with
  | nil =>
    obtain rfl := Option.some.inj hcourse
    exact h
  | cons move moves ih =>
    obtain ⟨v, hmove, hcourse⟩ := Option.bind_eq_some_iff.mp hcourse
    have hspares : ∀ task, w.taskOf move = some task →
        task.stops? ≠ some n ∧ task.enters? ≠ some n :=
      fun task htask => ⟨hon.1 task htask, hunasked.1 task htask⟩
    exact ih (h.move hlater hmove haway.1 hspares) hcourse (haway.2 v hmove) (hon.2 v hmove)
      (hunasked.2 v hmove)

/-- All units of a node are manned when it has started. -/
theorem Starting.recruits (h : z.Starting n count me later) (hback : z.IsBack me later)
    (hok : z.answerOf me = .ok) : z.Recruits n count count := by
  have hnothing {agenda : List Task} (hagenda : z.agendas[me]? = some (agenda ++ later)) :
      agenda = [] := by
    have hsame := Option.some.inj (hagenda.symm.trans (isBack_iff.mp hback))
    simpa using hsame
  cases h with
  | going agenda up hagenda hstage hrecruits =>
    obtain rfl := hnothing hagenda
    cases hstage
    exact hrecruits
  | failing agenda hagenda hstage =>
    obtain rfl := hnothing hagenda
    generalize hempty : ([] : List Task) = agenda at hstage
    cases hstage with
    | undoing units => simp at hempty
    | told | judging => cases hempty
    | back error hfailed =>
      rw [hok] at hfailed
      cases hfailed

/-- All units of a node are vacant when it was built and never started. -/
theorem recruits_of_built {name : String} {settings : NodeSettings}
    {make : P.Shared → Made P.Shared NodeError P.Processor} {shared : P.Shared} {built : Node P}
    {target : Option Target} (hmode : settings.mode = .thread)
    (hbuilt : (Node.build name settings make shared).1.reply = .returned built)
    (hnode : w.nodes[n]? = some { built with gate := { built.gate with target } })
    (hfresh : ∀ u, w.Untouched (.processor n u)) (hidle : ¬ w.IsDelivering n) :
    w.Recruits n (max settings.poolSize 1) 0 := by
  obtain ⟨hcount, haccepted, hqueued⟩ := Node.build_queued hmode hbuilt
  refine ⟨⟨_, hnode, hcount, haccepted⟩, ?_, fun u hu => absurd hu (Nat.not_lt_zero u),
    fun u _ hu => .inl ⟨?_, ?_⟩⟩
  · intro j agenda hagenda task htask hdelivers
    obtain ⟨thread, hthread, rfl⟩ := exists_thread hagenda
    exact hidle ⟨thread, List.mem_of_getElem? hthread, task, htask, hdelivers⟩
  · obtain ⟨unit, hunit⟩ : ∃ unit, built.units[u]? = some unit :=
      ⟨_, List.getElem?_eq_getElem (hcount ▸ hu)⟩
    refine ⟨unit, ?_, hqueued unit (List.mem_of_getElem? hunit)⟩
    rw [World.unit?, hnode, Option.bind_some]
    exact hunit
  · intro j agenda hagenda task htask hinside
    have happroaches := (hfresh u).outside j agenda hagenda task htask
      (Task.subject?_of_inside hinside)
    rw [Task.not_approaches_of_inside hinside] at happroaches
    cases happroaches

/-- All units of a node are manned when it was built to run on threads and a thread has started
it. -/
theorem recruits_of_started {name : String} {settings : NodeSettings}
    {make : P.Shared → Made P.Shared NodeError P.Processor} {shared : P.Shared} {built : Node P}
    {target : Option Target} {moves : List (Move P)} (hmode : settings.mode = .thread)
    (hbuilt : (Node.build name settings make shared).1.reply = .returned built)
    (hnode : w.nodes[n]? = some { built with gate := { built.gate with target } })
    (hfresh : ∀ u, w.Untouched (.processor n u)) (hidle : ¬ w.IsDelivering n)
    (hstarts : w.StartsNode me n later moves z) (hunasked : w.StaysUnasked n moves)
    (hon : w.StaysOn n moves) :
    z.Recruits n (max settings.poolSize 1) (max settings.poolSize 1) := by
  have hagenda := isBack_iff.mp hstarts.begins
  have hlater : ∀ u, ∀ next ∈ later, next.inside? ≠ some (.processor n u) := by
    intro u next hnext hinside
    have happroaches := (hfresh u).outside me _ hagenda next (List.mem_cons_of_mem _ hnext)
      (Task.subject?_of_inside hinside)
    rw [Task.not_approaches_of_inside hinside] at happroaches
    cases happroaches
  have hbegins : w.Starting n (max settings.poolSize 1) me later :=
    .going [.unit (.startNode n)] 0 hagenda .begins
      (recruits_of_built hmode hbuilt hnode hfresh hidle)
  exact (hbegins.follow hlater hstarts.course hstarts.away hon hunasked).recruits hstarts.back
    hstarts.answer

end World

end EventPipeline
