import EventPipeline.Proofs.Lifecycle.Dealing
import EventPipeline.Proofs.Lifecycle.Recruiting

/-!
# `EventPipeline.Proofs.Lifecycle.Serving`: the units of a node serve in turn

All units of a node are manned, and events come to the node one at a time. The event that the node
has accepted last is on its way to the unit whose turn it is, or it has come there (`Delivery`). The
number of events that the node has accepted says whose turn it is next, so what has fallen to a unit
is `turnOf` of the accepted events (`OnDuty`). Every turn of every thread keeps that up
(`OnDuty.turn`), whatever the processors make of the events. `World.inTurn_of_started` says what
it means for the events that the units process: each unit gets its own, in the order in which they
came and each of them once.
-/

set_option autoImplicit false

namespace EventPipeline

variable {P : Plugins}

/-! ## Events on their way to a unit -/

/-- Where the event is that a node has accepted last: it is with its unit, or on its way to it. -/
inductive Delivery where
  | idle
  | offered (unit : Nat) (event : Event)
  | sent (unit : Nat) (event : Event)

namespace Delivery

/-- The task with which the event goes on. -/
def task? (n : Nat) : Delivery → Option Task
  | idle => none
  | offered u event => some (.event (.offer n u event))
  | sent u event => some (.event (.send n u event))

/-- The events that come to a unit. -/
def coming (u : Nat) : Delivery → List Event
  | idle => []
  | offered v event | sent v event => if v = u then [event] else []

/-- How many of them the unit has accepted. -/
def counted (u : Nat) : Delivery → Nat
  | idle | offered .. => 0
  | sent v _ => if v = u then 1 else 0

/-- The task delivers the event. -/
theorem delivers?_of_task {delivery : Delivery} {n : Nat} {task : Task}
    (h : delivery.task? n = some task) : task.delivers? = some n := by
  cases delivery with
  | idle => cases h
  | offered | sent =>
    cases h
    rfl

end Delivery

namespace World

variable {w w' v z : World P} {me j k n u count : Nat} {task : Task} {rest agenda : List Task}
  {progress : Progress P} {expired : Bool} {accepted : List Event} {begun : Nat → List Event}
  {delivery : Delivery}

/-- The event is on its way where the delivery says: it is the next thing that one thread has to do,
and nobody delivers another event to the node. -/
inductive Delivers (w : World P) (n : Nat) : Delivery → Prop
  | idle (h : w.Tasks fun _ task => task.delivers? ≠ some n) : Delivers w n .idle
  | busy (delivery : Delivery) (j : Nat) (task : Task) (rest : List Task)
    (htask : delivery.task? n = some task) (hagenda : w.agendas[j]? = some (task :: rest))
    (hrest : ∀ next ∈ rest, next.delivers? ≠ some n)
    (hothers : w.Tasks fun i task => task.delivers? = some n → i = j) : Delivers w n delivery

/-- All tasks of all threads. -/
theorem isDelivering_of_tasks (hagenda : w.agendas[j]? = some agenda) (htask : task ∈ agenda)
    (hdelivers : task.delivers? = some n) : w.IsDelivering n := by
  obtain ⟨thread, hthread, rfl⟩ := exists_thread hagenda
  exact ⟨thread, List.mem_of_getElem? hthread, task, htask, hdelivers⟩

/-- When no event is on its way all of them are with their units. -/
theorem Delivers.eq_idle (h : w.Delivers n delivery) (hidle : ¬ w.IsDelivering n) :
    delivery = .idle := by
  cases h with
  | idle => rfl
  | busy delivery j task rest htask hagenda =>
    exact absurd (isDelivering_of_tasks hagenda (List.mem_cons_self ..)
      (Delivery.delivers?_of_task htask)) hidle

theorem Delivers.same (h : w.Delivers n delivery) (hsame : Same w w') : w'.Delivers n delivery := by
  cases h with
  | idle hnobody => exact .idle (hsame.tasks hnobody)
  | busy delivery j task rest htask hagenda hrest hothers =>
    exact .busy delivery j task rest htask (hsame.agendas ▸ hagenda) hrest (hsame.tasks hothers)

/-- The event stays where it is with a turn that neither delivers an event to the node nor brings
one there. -/
theorem Delivers.turn (h : w.Delivers n delivery) (hturn : w.Turn me expired task rest progress w')
    (henters : task.enters? ≠ some n) (hquiet : task.delivers? ≠ some n) :
    w'.Delivers n delivery := by
  have hdeals : task.deals? ≠ some n := by
    intro hdeals
    obtain hsame | ⟨u, event, rfl⟩ := Task.deals?_cases hdeals
    · exact henters hsame
    · exact hquiet rfl
  cases h with
  | idle hnobody => exact .idle (hturn.delivers (p := fun _ _ => False) hdeals hnobody)
  | busy delivery j first others htask hagenda hrest hothers =>
    have hj : j ≠ me := by
      rintro rfl
      obtain ⟨rfl, rfl⟩ := List.cons.inj (Option.some.inj (hturn.agenda.symm.trans hagenda))
      exact hquiet (Delivery.delivers?_of_task htask)
    exact .busy delivery j first others htask (hturn.agenda_ne hj hagenda) hrest
      (hturn.delivers (p := fun i _ => i = j) hdeals hothers)

/-- Who delivers an event to the node delivers the one that was accepted last. -/
theorem Delivers.current (h : w.Delivers n delivery)
    (hturn : w.Turn me expired task rest progress w') (hdelivers : task.delivers? = some n) :
    delivery.task? n = some task ∧ (∀ next ∈ rest, next.delivers? ≠ some n) ∧
      w.Tasks fun i task => task.delivers? = some n → i = me := by
  cases h with
  | idle hnobody => exact absurd hdelivers (hturn.task_holds hnobody)
  | busy delivery j first others htask hagenda hrest hothers =>
    obtain rfl : me = j := hturn.task_holds hothers hdelivers
    obtain ⟨rfl, rfl⟩ := List.cons.inj (Option.some.inj (hturn.agenda.symm.trans hagenda))
    exact ⟨htask, hrest, hothers⟩

/-- An event goes on with a task of the thread that has done the turn. -/
theorem Turn.delivers_next {next : Task} (hturn : w.Turn me expired task rest progress w')
    (hlabour : task.isLabour = true) (htodo : progress.todo = [next])
    (hnext : delivery.task? n = some next) (hrest : ∀ next ∈ rest, next.delivers? ≠ some n)
    (hothers : w.Tasks fun i task => task.delivers? = some n → i = me) :
    w'.Delivers n delivery := by
  have hagenda := hturn.agenda_me
  have halone : w'.Tasks fun i task => task.delivers? = some n → i = me :=
    hturn.tasks_alone (hturn.agendas_labour hlabour) hothers fun _ _ _ => rfl
  cases progress with
  | breakDown => cases htodo
  | goOn v todo =>
    obtain rfl : todo = [next] := htodo
    exact .busy delivery me next rest hnext hagenda hrest halone

/-! ## Nodes on duty -/

/-- All units of a node are manned. The node has accepted such events, and what has fallen to a unit
it has begun to process, or it is in its queue, or on its way. -/
structure OnDuty (w : World P) (n count : Nat) (accepted : List Event) (begun : Nat → List Event)
    (delivery : Delivery) : Prop where
  node : ∃ node, w.nodes[n]? = some node ∧ node.units.length = count ∧
    node.accepted = accepted.length
  delivers : w.Delivers n delivery
  units : ∀ u < count, ∃ k, w.Manned n u k none (begun u) (turnOf count u accepted)
    (delivery.coming u) (delivery.counted u)
  nobody : ∀ u, count ≤ u → begun u = []

/-- An event is processed or delivered only where there is a unit. -/
theorem Turn.finds_unit (h : w.Turn me expired task rest progress w')
    (htask : (∃ event asked, task = .event (.process n u event asked)) ∨
      (∃ event, task = .event (.offer n u event)) ∨ ∃ event, task = .event (.send n u event)) :
    ∃ node unit, w.nodes[n]? = some node ∧ node.units[u]? = some unit := by
  have hperform := h.performs
  obtain ⟨event, asked, rfl⟩ | ⟨event, rfl⟩ | ⟨event, rfl⟩ := htask
  all_goals
    obtain ⟨node, hnode, hperform⟩ := Option.bind_eq_some_iff.mp hperform
    obtain ⟨unit, hunit, -⟩ := Option.bind_eq_some_iff.mp hperform
    exact ⟨node, unit, hnode, hunit⟩

end World

/-- An event is begun with a task that has it processed. -/
theorem Task.begins?_cases {task : Task} {n u : Nat} {event : Event}
    (h : task.begins? n u = some event) : task = .event (.process n u event false) := by
  unfold begins? at h
  split at h
  · split at h
    · rename_i hsame
      obtain ⟨rfl, rfl⟩ := hsame
      cases h
      rfl
    · cases h
  · cases h

namespace World

variable {w w' v z : World P} {me j k n u count : Nat} {task : Task} {rest agenda : List Task}
  {progress : Progress P} {expired : Bool} {accepted : List Event} {begun : Nat → List Event}
  {delivery : Delivery}

/-- A node accepts an event only when one is brought to it. -/
theorem accepts?_of_not_enters (h : task.enters? ≠ some n) : w.accepts? n task = none := by
  unfold accepts?
  split
  · rename_i m event
    split
    · rename_i hsame
      exact absurd (congrArg some hsame) h
    · rfl
  · rfl

namespace OnDuty

theorem same (h : w.OnDuty n count accepted begun delivery) (hsame : Same w w') :
    w'.OnDuty n count accepted begun delivery where
  node := hsame.nodes ▸ h.node
  delivers := h.delivers.same hsame
  units u hu := by
    obtain ⟨k, hmanned⟩ := h.units u hu
    exact ⟨k, hmanned.same hsame⟩
  nobody := h.nobody

/-- A unit that does not exist processes no event. -/
theorem nobody_turn (h : w.OnDuty n count accepted begun delivery)
    (hturn : w.Turn me expired task rest progress w') (u : Nat) (hu : count ≤ u) :
    begun u ++ (task.begins? n u).toList = [] := by
  rw [h.nobody u hu, List.nil_append]
  cases hbegins : task.begins? n u with
  | none => rfl
  | some event =>
    obtain rfl := Task.begins?_cases hbegins
    obtain ⟨node, unit, hnode, hunit⟩ := hturn.finds_unit (.inl ⟨event, false, rfl⟩)
    obtain ⟨found, hfound, hcount, -⟩ := h.node
    obtain rfl := Option.some.inj (hnode.symm.trans hfound)
    have hlt := (List.getElem?_eq_some_iff.mp hunit).1
    exact absurd hlt (by omega)

/-- A turn that neither brings an event to the node nor delivers one, nor stops a unit of it. -/
theorem turn_aside (h : w.OnDuty n count accepted begun delivery)
    (hturn : w.Turn me expired task rest progress w') (hstop : task.stops? ≠ some n)
    (henters : task.enters? ≠ some n) (hquiet : task.delivers? ≠ some n) :
    w'.OnDuty n count accepted (fun u => begun u ++ (task.begins? n u).toList) delivery := by
  obtain ⟨node, hnode, hcount, haccepted⟩ := h.node
  obtain ⟨after, hafter, hlength, hsame⟩ := hturn.node_kept hnode henters
  refine ⟨⟨after, hafter, hlength.trans hcount, hsame.trans haccepted⟩,
    h.delivers.turn hturn henters hquiet, fun u hu => ?_, h.nobody_turn hturn⟩
  obtain ⟨k, hmanned⟩ := h.units u hu
  exact ⟨k, hmanned.turn hturn (fun hsame => hstop (hsame ▸ rfl)) (by rintro ⟨⟩)
    fun hsame => absurd hsame hquiet⟩

/-- The event comes on with a task that delivers it to its unit. The other units do not hear of
it. -/
theorem turn_delivers {later : Delivery} (h : w.OnDuty n count accepted begun delivery)
    (hturn : w.Turn me expired task rest progress w') (hdelivers : task.delivers? = some n)
    (hsubject : task.subject? = some (.processor n u)) (hlater : w'.Delivers n later)
    (hunit : ∃ k, w'.Manned n u k none (begun u) (turnOf count u accepted) (later.coming u)
      (later.counted u))
    (hothers : ∀ i, u ≠ i →
      later.coming i = delivery.coming i ∧ later.counted i = delivery.counted i) :
    w'.OnDuty n count accepted begun later := by
  have henters : task.enters? ≠ some n := by
    intro henters
    obtain ⟨event, rfl⟩ := Task.enters?_cases henters
    cases hdelivers
  obtain ⟨node, hnode, hcount, haccepted⟩ := h.node
  obtain ⟨after, hafter, hlength, hsame⟩ := hturn.node_kept hnode henters
  refine ⟨⟨after, hafter, hlength.trans hcount, hsame.trans haccepted⟩, hlater, fun i hi => ?_,
    h.nobody⟩
  by_cases hiu : u = i
  · subst hiu
    exact hunit
  · obtain ⟨k, hmanned⟩ := h.units i hi
    obtain ⟨hcoming, hcounted⟩ := hothers i hiu
    rw [hcoming, hcounted]
    refine ⟨k, hmanned.turn_outside hturn ?_ (by rintro ⟨⟩) ?_ fun _ => ?_⟩
    · rintro rfl
      cases hdelivers
    · rw [Task.inside?_of_delivers hdelivers]
      rintro ⟨⟩
    · rw [hsubject]
      rintro ⟨⟩
      exact hiu rfl

/-- The unit to which an event is delivered is one of those of the node. -/
theorem exists_unit (h : w.OnDuty n count accepted begun delivery)
    (hturn : w.Turn me expired task rest progress w')
    (htask : (∃ event, task = .event (.offer n u event)) ∨
      ∃ event, task = .event (.send n u event)) :
    u < count := by
  obtain ⟨node, unit, hnode, hunit⟩ := hturn.finds_unit (.inr htask)
  obtain ⟨found, hfound, hcount, -⟩ := h.node
  obtain rfl := Option.some.inj (hnode.symm.trans hfound)
  exact hcount ▸ (List.getElem?_eq_some_iff.mp hunit).1

/-- The event is offered to its unit, which accepts it. -/
theorem turn_offered {event : Event} (h : w.OnDuty n count accepted begun (.offered u event))
    (hturn : w.Turn me expired (.event (.offer n u event)) rest progress w') :
    w'.OnDuty n count accepted begun (.sent u event) := by
  obtain ⟨k, hmanned⟩ := h.units u (h.exists_unit hturn (.inl ⟨event, rfl⟩))
  rw [Delivery.coming, if_pos rfl] at hmanned
  obtain ⟨htodo, hlater⟩ := hmanned.offered hturn
  obtain ⟨-, hrest, hothers⟩ := h.delivers.current hturn rfl
  refine h.turn_delivers hturn rfl rfl (hturn.delivers_next rfl htodo rfl hrest hothers) ⟨k, ?_⟩
    fun i hi => ⟨rfl, if_neg hi⟩
  rw [Delivery.coming, Delivery.counted, if_pos rfl, if_pos rfl]
  exact hlater

/-- The event is put into the queue of its unit. -/
theorem turn_sent {event : Event} (h : w.OnDuty n count accepted begun (.sent u event))
    (hturn : w.Turn me expired (.event (.send n u event)) rest progress w') :
    w'.OnDuty n count accepted begun .idle := by
  obtain ⟨k, hmanned⟩ := h.units u (h.exists_unit hturn (.inr ⟨event, rfl⟩))
  rw [Delivery.coming, Delivery.counted, if_pos rfl, if_pos rfl] at hmanned
  obtain ⟨-, hrest, hothers⟩ := h.delivers.current hturn rfl
  refine h.turn_delivers hturn rfl rfl (.idle ?_) ⟨k, hmanned.sent hturn⟩ fun i hi =>
    ⟨(if_neg hi).symm, (if_neg hi).symm⟩
  -- The event was the only one on its way, and it has come to its unit.
  intro j agenda hagenda next hnext hdelivers
  obtain rfl : j = me := hturn.delivers (p := fun i _ => i = me) (by rintro ⟨⟩) hothers j agenda
    hagenda next hnext hdelivers
  obtain rfl := Option.some.inj (hturn.agenda_me.symm.trans hagenda)
  cases progress with
  | breakDown => cases hnext
  | goOn v todo =>
    rcases List.mem_append.mp hnext with hnext | hnext
    · obtain hnone | hsame := (hturn.reaches.todo next hnext).2.2.2.2
      · rw [hnone] at hdelivers
        cases hdelivers
      · rw [hsame] at hdelivers
        cases hdelivers
    · exact hrest next hnext hdelivers

/-- An event is brought to the node while no other one is on its way to a unit. -/
theorem turn_entered {event : Event} (h : w.OnDuty n count accepted begun .idle)
    (hturn : w.Turn me expired (.event (.enter n event)) rest progress w') :
    ∃ delivery, w'.OnDuty n count (accepted ++ (w.accepts? n (.event (.enter n event))).toList)
      begun delivery := by
  obtain ⟨node, hnode, hlength, haccepted⟩ := h.node
  have hidle : w.Tasks fun _ task => task.delivers? ≠ some n := by
    cases h.delivers with
    | idle hnobody => exact hnobody
    | busy _ _ _ _ htask => cases htask
  have hunits (u : Nat) (hu : u < count) :
      ∃ k, w'.Manned n u k none (begun u) (turnOf count u accepted) [] 0 := by
    obtain ⟨k, hmanned⟩ := h.units u hu
    exact ⟨k, hmanned.turn_outside hturn
      (by rintro ⟨⟩) (by rintro ⟨⟩) (by rintro ⟨⟩) (by rintro ⟨⟩)⟩
  obtain ⟨after, hafter, hsame, ⟨hnone, hstays, htodo⟩ | ⟨handed, hsome, hgrows, htodo⟩⟩ :=
    hturn.enter_cases hnode
  · rw [hnone, Option.toList_none, List.append_nil]
    refine ⟨.idle, ⟨after, hafter, hsame.trans hlength, hstays.trans haccepted⟩, .idle ?_, hunits,
      h.nobody⟩
    refine hturn.tasks_alone (hturn.agendas_labour rfl) hidle fun next hnext => ?_
    rw [htodo next hnext]
    rintro ⟨⟩
  · rw [hsome, Option.toList_some]
    rw [hlength, haccepted] at htodo
    refine ⟨.offered (accepted.length % count) handed,
      ⟨after, hafter, hsame.trans hlength, by rw [hgrows, haccepted, List.length_append]; rfl⟩,
      hturn.delivers_next rfl htodo rfl ?_ ?_, fun u hu => ?_, h.nobody⟩
    · exact fun next hnext => hidle me _ hturn.agenda next (List.mem_cons_of_mem _ hnext)
    · exact fun j agenda hagenda next hnext hdelivers =>
        absurd hdelivers (hidle j agenda hagenda next hnext)
    · obtain ⟨k, hlater⟩ := hunits u hu
      refine ⟨k, ?_⟩
      rw [turnOf_concat, Delivery.coming, Delivery.counted]
      split
      · exact hlater.expect handed
      · rwa [List.append_nil]

/-- Every turn keeps the units of a node on duty that stops none of them and brings an event to the
node only when no other one is on its way. -/
theorem turn (h : w.OnDuty n count accepted begun delivery)
    (hturn : w.Turn me expired task rest progress w') (hstop : task.stops? ≠ some n)
    (hone : task.enters? = some n → ¬ w.IsDelivering n) :
    ∃ delivery, w'.OnDuty n count (accepted ++ (w.accepts? n task).toList)
      (fun u => begun u ++ (task.begins? n u).toList) delivery := by
  by_cases henters : task.enters? = some n
  · -- Only here are events needed to come one at a time: the last one has reached its queue.
    obtain rfl := h.delivers.eq_idle (hone henters)
    obtain ⟨event, rfl⟩ := Task.enters?_cases henters
    obtain ⟨later, hlater⟩ := h.turn_entered hturn
    simpa [Task.begins?] using ⟨later, hlater⟩
  rw [accepts?_of_not_enters henters, Option.toList_none, List.append_nil]
  by_cases hdelivers : task.delivers? = some n
  · obtain ⟨htask, -, -⟩ := h.delivers.current hturn hdelivers
    cases delivery with
    | idle => cases htask
    | offered u event =>
      cases htask
      exact ⟨.sent u event, by simpa [Task.begins?] using h.turn_offered hturn⟩
    | sent u event =>
      cases htask
      exact ⟨.idle, by simpa [Task.begins?] using h.turn_sent hturn⟩
  · exact ⟨delivery, h.turn_aside hturn hstop henters hdelivers⟩

/-- Every such move keeps the units of a node on duty. -/
theorem move {move : Move P} (h : w.OnDuty n count accepted begun delivery)
    (hmove : w.move move = some w')
    (hone : ∀ task, w.taskOf move = some task → task.enters? = some n → ¬ w.IsDelivering n)
    (hon : ∀ task, w.taskOf move = some task → task.stops? ≠ some n) :
    ∃ delivery, w'.OnDuty n count (accepted ++ ((w.taskOf move).bind (w.accepts? n)).toList)
      (fun u => begun u ++ ((w.taskOf move).bind (Task.begins? n u)).toList) delivery := by
  obtain ⟨me, expired, task, rest, progress, htask, hturn⟩ | ⟨htask, hsame⟩ := taskOf_cases hmove
  · rw [htask]
    exact h.turn hturn (hon task htask) (hone task htask)
  · exact ⟨delivery, by simpa [htask] using h.same hsame⟩

/-- The units of a node stay on duty on every course on which none of them is stopped and events
come to the node one at a time. -/
theorem follow {moves : List (Move P)} (h : w.OnDuty n count accepted begun delivery)
    (hcourse : w.follow moves = some v) (hone : w.OneAtATime n moves) (hon : w.StaysOn n moves) :
    ∃ delivery, v.OnDuty n count (accepted ++ w.acceptedBy n moves)
      (fun u => begun u ++ w.processedBy n u moves) delivery := by
  induction moves generalizing w accepted begun delivery with
  | nil =>
    obtain rfl := Option.some.inj hcourse
    exact ⟨delivery, by simpa [acceptedBy, processedBy, along] using h⟩
  | cons move moves ih =>
    obtain ⟨z, hmove, hcourse⟩ := Option.bind_eq_some_iff.mp hcourse
    obtain ⟨later, hlater⟩ := h.move hmove hone.1 hon.1
    obtain ⟨last, hlast⟩ := ih hlater hcourse (hone.2 z hmove) (hon.2 z hmove)
    refine ⟨last, ?_⟩
    simpa only [acceptedBy, processedBy, along, hmove, Option.elim_some, List.append_assoc]
      using hlast

end OnDuty

/-! ## What a unit has served -/

/-- A thread can do its first task. -/
theorem step_isSome (hagenda : w.agendas[k]? = some (task :: rest))
    (hperform : ∀ expired, (w.perform k expired task).isSome = true) :
    (w.step k).isSome = true := by
  obtain ⟨thread, hthread, hhead⟩ := exists_thread hagenda
  obtain ⟨progress, hprogress⟩ := Option.isSome_iff_exists.mp (hperform (w.expired thread))
  simp only [step, hthread, hhead, List.head?_cons, hprogress, Option.bind_eq_bind,
    Option.bind_some]
  cases progress <;> rfl

/-- The worker of a manned unit comes back to the queue, and takes an event from it if there is
one. -/
theorem Manned.goesOn {left : Prop} {begun due coming : List Event} {counted : Nat}
    (h : w.Manned n u k none begun due coming counted) (hleft : left → coming = [] ∧ begun ≠ due) :
    w.GoesOn k n u left := by
  obtain ⟨agenda, hagenda, unit, state, hand, opened, hunit, hruns, hstage, htally⟩ := h.shift
  obtain ⟨thread, hthread, hwhole⟩ := exists_thread hagenda
  rw [hruns.ready rfl] at hstage
  refine ⟨⟨thread, hthread, ?_⟩, fun hback hneeded => ?_⟩
  · rw [hwhole]
    cases hstage with
    | waiting | holding | asking => exact .inr rfl
    | looking => exact .inl rfl
    | busy errands => exact .inr (by rw [List.getLast?_append]; rfl)
  · obtain rfl := Option.some.inj (hagenda.symm.trans (isBack_iff.mp hback))
    obtain ⟨rfl, hne⟩ := hleft hneeded
    -- The worker is back with nothing in hand, so what it has not begun waits in the queue.
    have hqueue : state.queue ≠ [] := by
      intro hempty
      have hdue := htally.due_eq
      generalize hwaits : [Task.unit (.receive n u)] = agenda at hstage
      cases hstage with
      | waiting =>
        rw [hempty] at hdue
        exact hne (by simpa using hdue.symm)
      | busy errands => cases errands <;> simp at hwaits
      | looking | holding | asking => cases hwaits
    obtain ⟨event, queue, hnext⟩ := List.exists_cons_of_ne_nil hqueue
    refine step_isSome hagenda fun expired => ?_
    show (w.receive expired n u).isSome = true
    simp only [receive, hunit, Option.bind_eq_bind, Option.bind_some, ExecutionUnit.next,
      hruns.state_eq, hnext]
    rfl

/-- A manned unit serves the events that have fallen to it. -/
theorem Manned.serves {unit : ExecutionUnit P} {begun due : List Event}
    (h : w.Manned n u k none begun due (delivery.coming u) (delivery.counted u))
    (hunit : w.unit? n u = some unit) (hdelivers : w.Delivers n delivery) :
    w.Serves n u unit due begun := by
  obtain ⟨agenda, hagenda, found, state, hand, opened, hfound, hruns, hstage, htally⟩ := h.shift
  obtain rfl := Option.some.inj (hunit.symm.trans hfound)
  refine ⟨h.begun_prefix, fun hidle => ?_, fun hidle hdone => ?_, k, h.goesOn fun hleft => ?_⟩
  · obtain rfl := hdelivers.eq_idle hidle
    exact htally.received_of_idle
  · -- As many were finished as were received: none is in hand, and none waits.
    obtain rfl := hdelivers.eq_idle hidle
    have hfinished := htally.finished_eq
    have hnone : unit.stats.received - unit.stats.finished = 0 := hdone
    have hclosed : opened = 0 := by omega
    have hempty : state.queue = [] := List.eq_nil_of_length_eq_zero (by omega)
    rw [hclosed] at hstage
    have hdue := htally.due_eq
    rw [hempty, hstage.hand_eq_nil, Delivery.coming] at hdue
    simpa using hdue.symm
  · obtain rfl := hdelivers.eq_idle hleft.1
    exact ⟨rfl, hleft.2⟩

/-- Nodes on duty deal their events out in turn. -/
theorem OnDuty.dealsInTurn (h : w.OnDuty n count accepted begun delivery) (hcount : 0 < count) :
    ∃ node, w.nodes[n]? = some node ∧ node.units.length = count ∧
      w.DealsInTurn n node accepted begun := by
  obtain ⟨node, hnode, rfl, -⟩ := h.node
  have hserves : ∀ u unit, node.units[u]? = some unit →
      w.Serves n u unit (turnOf node.units.length u accepted) (begun u) := by
    intro u unit hunit
    obtain ⟨k, hmanned⟩ := h.units u (List.getElem?_eq_some_iff.mp hunit).1
    refine hmanned.serves ?_ h.delivers
    rw [unit?, hnode, Option.bind_some, hunit]
  refine ⟨node, hnode, rfl, hserves, fun u hu j event hevent => ?_, h.nobody,
    fun hidle unit hunit other hother => ?_, fun hidle => ?_⟩
  · obtain ⟨left, hleft⟩ := (hserves u _ (List.getElem?_eq_getElem hu)).order
    rw [← getElem?_turnOf hu, ← hleft,
      List.getElem?_append_left (List.getElem?_eq_some_iff.mp hevent).1, hevent]
  · obtain ⟨u, hunit⟩ := List.mem_iff_getElem?.mp hunit
    obtain ⟨i, hother⟩ := List.mem_iff_getElem?.mp hother
    rw [(hserves u unit hunit).received hidle, (hserves i other hother).received hidle]
    exact length_turnOf_le (List.getElem?_eq_some_iff.mp hunit).1
      (List.getElem?_eq_some_iff.mp hother).1 accepted
  · have hreceived : node.units.map (·.stats.received) =
        (List.range node.units.length).map fun u =>
          (turnOf node.units.length u accepted).length := by
      refine List.ext_getElem (by simp) fun u hu _ => ?_
      rw [List.length_map] at hu
      rw [List.getElem_map, List.getElem_map, List.getElem_range]
      exact (hserves u _ (List.getElem?_eq_getElem hu)).received hidle
    rw [hreceived, sum_length_turnOf hcount]

/-- The units of a node are on duty when all of them were manned. -/
theorem Recruits.onDuty (h : w.Recruits n count count) :
    w.OnDuty n count [] (fun _ => []) .idle where
  node := h.node
  delivers := .idle h.idle
  units := h.manned
  nobody _ _ := rfl

/-- The units of a node that has started serve its events in turn: the event that the node accepts
as number `j * count + u` is processed by unit `u` as number `j`, and by no other unit, on every
course on which events come to the node one at a time and none of its units is stopped. -/
theorem inTurn_of_started {name : String} {settings : NodeSettings}
    {make : P.Shared → Made P.Shared NodeError P.Processor} {shared : P.Shared} {built : Node P}
    {target : Option Target} {later : List Task} {starting moves : List (Move P)}
    (hmode : settings.mode = .thread)
    (hbuilt : (Node.build name settings make shared).1.reply = .returned built)
    (hnode : w.nodes[n]? = some { built with gate := { built.gate with target } })
    (hfresh : ∀ u, w.Untouched (.processor n u)) (hidle : ¬ w.IsDelivering n)
    (hstarts : w.StartsNode me n later starting z) (hunasked : w.StaysUnasked n starting)
    (hup : w.StaysOn n starting) (hcourse : z.follow moves = some v) (hone : z.OneAtATime n moves)
    (hon : z.StaysOn n moves) :
    ∃ node, v.nodes[n]? = some node ∧ node.units.length = max settings.poolSize 1 ∧
      v.DealsInTurn n node (z.acceptedBy n moves) (fun u => z.processedBy n u moves) := by
  have hrecruits := recruits_of_started hmode hbuilt hnode hfresh hidle hstarts hunasked hup
  obtain ⟨delivery, hduty⟩ := hrecruits.onDuty.follow hcourse hone hon
  exact hduty.dealsInTurn (by omega)

end World

/-! ## A pool of two -/

/-- Plugins whose processors break down when they are to process a null. -/
def brittlePlugins : Plugins :=
  { relayPlugins with
    processor :=
      { relayPlugins.processor with
        process := fun _ payload _ _ =>
          { reply := if payload matches .null then .panicked none else .returned .pass
            plugin := ()
            shared := () } } }

/-- A node that is to run on two threads. -/
def poolSettings : NodeSettings where
  kind := .transform
  mode := .thread
  poolSize := 2
  initWithin := .ofSeconds 1

/-- The node with that pool. -/
def poolNode : Node brittlePlugins where
  name := "relay"
  kind := .transform
  gate := { name := "relay" }
  units :=
    [{ name := Node.unitName "relay" 1 .thread, processor := (), state := .queued {} },
      { name := Node.unitName "relay" 2 .thread, processor := (), state := .queued {} }]
  initWithin := .ofSeconds 1
  pollWithin := .ofSeconds 1

/-- Three events, of which the processor does not survive the first one. -/
def poolEvents : List Event :=
  [{ payload := .null, correlation := 1 }, { payload := .bool true, correlation := 2 },
    { payload := .bool false, correlation := 3 }]

/-- The tasks with which the events come to the node, one after the other. -/
def poolTasks : List Task :=
  poolEvents.map fun event => .event (.enter 0 event)

/-- A world with the node, whose main thread is about to start it and then to bring it the
events. -/
def poolWorld : World brittlePlugins where
  shared := ()
  nodes := [{ poolNode with gate := { poolNode.gate with target := some .tail } }]
  threads := [{ agenda := .unit (.startNode 0) :: poolTasks }]

/-- A course on which the node starts. -/
def poolStart : List (Move brittlePlugins) :=
  [0, 0, 0, 1, 0, 0, 0, 0, 0, 2, 0, 0, 0, 0, 0].map .step

/-- A course on which all events come to the node while its workers process them. -/
def poolServe : List (Move brittlePlugins) :=
  [0, 0, 0, 0, 1, 1, 0, 0, 0, 0, 0, 2, 0, 0, 1, 1, 1, 2, 1, 2, 1, 2, 0].map .step

/-- The world in which the node has started. -/
def poolStarted : World brittlePlugins :=
  (poolWorld.follow poolStart).getD poolWorld

/-- The world after the last event. -/
def poolServed : World brittlePlugins :=
  (poolStarted.follow poolServe).getD poolStarted

/-- The two units of the pool take turns, and the one that breaks down goes on to its next event. -/
theorem World.inTurn_of_started_pool :
    (Node.build (P := brittlePlugins) "relay" poolSettings
      (fun _ => { reply := .returned (), shared := () }) ()).1.reply = .returned poolNode ∧
    poolWorld.StartsNode 0 0 poolTasks poolStart poolStarted ∧
    poolStarted.follow poolServe = some poolServed ∧
    (poolStarted.acceptedBy 0 poolServe).map (·.correlation) = [1, 2, 3] ∧
    (poolStarted.processedBy 0 0 poolServe).map (·.correlation) = [1, 3] ∧
    (poolStarted.processedBy 0 1 poolServe).map (·.correlation) = [2] ∧
    ∃ node, poolServed.nodes[0]? = some node ∧ node.units.length = 2 ∧
      poolServed.DealsInTurn 0 node (poolStarted.acceptedBy 0 poolServe)
        (fun u => poolStarted.processedBy 0 u poolServe) := by
  have hbuilt : (Node.build (P := brittlePlugins) "relay" poolSettings
      (fun _ => { reply := .returned (), shared := () }) ()).1.reply = .returned poolNode := rfl
  have hstarts : poolWorld.StartsNode 0 0 poolTasks poolStart poolStarted := by
    refine ⟨⟨_, rfl, rfl⟩, rfl, ?_, ⟨_, rfl, rfl⟩, rfl⟩
    iterate 15
      refine .cons (not_isBack rfl fun h => absurd (congrArg List.length h) (by decide)) rfl ?_
    trivial
  have hfresh (u : Nat) : poolWorld.Untouched (.processor 0 u) := by
    refine ⟨fun j agenda hagenda task htask hsubject => ?_, fun m i hi unit hunit => ?_,
      fun t i hi => by cases hi⟩
    · have hfree : ∀ task ∈ Task.unit (.startNode 0) :: poolTasks, task.subject? = none := by decide
      obtain rfl := List.mem_singleton.mp (List.mem_of_getElem? hagenda)
      rw [hfree task htask] at hsubject
      cases hsubject
    · cases hi
      exact .inr ((Node.build_queued rfl hbuilt).2.2 unit (List.mem_of_getElem? hunit)).1
  have hmode : poolSettings.mode = .thread := rfl
  exact ⟨hbuilt, hstarts, rfl, rfl, rfl, rfl, inTurn_of_started hmode hbuilt rfl hfresh (by decide)
    hstarts (by decide) (by decide) rfl (by decide) (by decide)⟩

end EventPipeline
