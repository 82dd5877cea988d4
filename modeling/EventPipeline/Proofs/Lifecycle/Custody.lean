import EventPipeline.Proofs.Lifecycle.Opening
import EventPipeline.Proofs.Lifecycle.Treating

/-!
# `EventPipeline.Proofs.Lifecycle.Custody`: a transform loses no event

Whatever threads do and in whatever order, in every state of the life of a transform: an event that
is brought to it is inside the node until the node parts with it, once (`custody`). When it does,
the event is handed to the gate, its fate is told, or a unit has rejected it and nobody is told
(`exists_partsAs`). So an event that no unit rejects is handed on or its fate is told
(`onward_or_told`). A stream that was just built has no event inside its nodes (`inside_of_built`).
-/

set_option autoImplicit false

namespace EventPipeline

variable {P : Plugins}

namespace World

variable {w w' v : World P} {me n u : Nat} {task : Task} {rest : List Task}
  {progress : Progress P} {expired : Bool} {node : Node P} {moves : List (Move P)}

/-! ## A course -/

/-- The node is a transform, and no thread has an event of it in hand behind another task, unless
that one waits for a processor. -/
structure InCustody (n : Nat) (w : World P) : Prop where
  transform : ∃ node, w.nodes[n]? = some node ∧ node.kind = .transform
  front : ∀ agenda ∈ w.agendas, InFront n agenda

/-- A turn leaves a node in its role. -/
theorem Turn.kind_kept (h : w.Turn me expired task rest progress w')
    (hnode : w.nodes[n]? = some node) :
    ∃ later, w'.nodes[n]? = some later ∧ later.kind = node.kind := by
  cases hplain : task.isPlain with
  | false =>
    obtain ⟨later, hlater, hroster⟩ := h.roster_kept hplain hnode
    exact ⟨later, hlater, congrArg (·.1) hroster⟩
  | true =>
    have hframe := congrArg (·.1[n]?) (h.reaches.frame hplain)
    simp only [World.frame, List.getElem?_map, ← h.nodes, hnode, Option.map_some,
      Option.map_eq_some_iff, Prod.mk.injEq] at hframe
    obtain ⟨later, hlater, hkind, -⟩ := hframe
    exact ⟨later, hlater, hkind⟩

/-- Who has waited for a processor goes on with its next task. -/
theorem todo_of_occupy {todo : List Task} {m : Nat}
    (h : w.perform me expired (.event (.occupy m u)) = some (.goOn v todo)) : todo = [] := by
  have hoccupy : w.occupy m u = some (.goOn v todo) := h
  obtain ⟨unit, -, hoccupy⟩ := Option.bind_eq_some_iff.mp hoccupy
  split at hoccupy
  · split at hoccupy
    · cases hoccupy
    · cases hoccupy
      rfl
  · cases hoccupy
    rfl

/-- What a thread has to do after its turn is in order again. -/
theorem InCustody.turn (hcustody : w.InCustody n) (h : w.Turn me expired task rest progress w') :
    w'.InCustody n := by
  obtain ⟨⟨node, hnode, hkind⟩, hfront⟩ := hcustody
  obtain ⟨later, hlater, hsame⟩ := h.kind_kept hnode
  refine ⟨⟨later, hlater, hsame.trans hkind⟩, fun agenda hagenda => ?_⟩
  obtain ⟨j, hj⟩ := List.mem_iff_getElem?.mp hagenda
  by_cases hme : j = me
  · subst hme
    obtain rfl := Option.some.inj (h.agenda_me.symm.trans hj)
    have htask := hfront _ (List.mem_of_getElem? h.agenda)
    cases hprogress : progress with
    | breakDown => exact .nothing
    | goOn v todo =>
      have htodo : InFront n todo := by
        have := (h.accounts hnode hkind).front
        rwa [hprogress] at this
      show InFront n (todo ++ rest)
      -- Who has waited for a processor still has the event to process, in its next task.
      by_cases hoccupy : ∃ m u, task = .event (.occupy m u)
      · obtain ⟨m, u, rfl⟩ := hoccupy
        obtain rfl : todo = [] := todo_of_occupy (hprogress ▸ h.performs)
        exact htask.tail
      · exact htodo.append (htask.free fun m u hsame => hoccupy ⟨m, u, hsame⟩)
  · obtain hbefore | ⟨-, hspawned⟩ := h.agenda_of_ne hme hj
    · exact hfront agenda (List.mem_of_getElem? hbefore)
    · exact .of_free fun next hnext => Task.carried?_of_spawns (hspawned next hnext)

theorem InCustody.same (hcustody : w.InCustody n) (h : Same w w') : w'.InCustody n := by
  obtain ⟨hnode, hfront⟩ := hcustody
  refine ⟨by rwa [h.nodes], ?_⟩
  rwa [h.agendas]

/-- As long as no event is inside, no thread has one in hand. -/
theorem InCustody.of_empty (hnode : w.nodes[n]? = some node) (hkind : node.kind = .transform)
    (hempty : w.inside n = []) : w.InCustody n := by
  refine ⟨⟨node, hnode, hkind⟩, fun agenda hagenda => .of_free fun task htask => ?_⟩
  obtain ⟨thread, hthread, rfl⟩ := List.mem_map.mp hagenda
  have hthreads := (List.append_eq_nil_iff.mp hempty).1
  have hnone := List.flatMap_eq_nil_iff.mp hthreads thread hthread
  exact List.filterMap_eq_nil_iff.mp hnone task htask

theorem Same.inside (h : Same w w') : w'.inside n = w.inside n := by
  rw [World.inside, World.inside, queues, queues, h.nodes, h.threads]

/-- What one turn does to the events inside a transform. -/
theorem InCustody.balance (hcustody : w.InCustody n)
    (h : w.Turn me expired task rest progress w') (p : Event → Bool) :
    (w'.inside n).countP p + ((w.partsWith? n task).toList.map (·.1)).countP p =
      (w.inside n).countP p + (task.takes? n).toList.countP p := by
  obtain ⟨⟨node, hnode, hkind⟩, hfront⟩ := hcustody
  have hbalance := (h.accounts hnode hkind).balance p
  obtain ⟨spawned, hspawned, hstems⟩ := h.reaches.agendas
  have hagenda : progress.world.agendas[me]? = some (task :: rest) := by
    rw [hspawned, List.getElem?_append_left h.me_lt, h.agenda]
  have hload := load_modify hagenda (fun agenda => progress.next agenda.tail) (Task.brings n p)
  have hnew : load spawned (Task.brings n p) = 0 := by
    rw [load, List.sum_eq_zero]
    intro count hcount
    obtain ⟨agenda, hmem, rfl⟩ := List.mem_map.mp hcount
    exact List.countP_eq_zero.mpr fun next hnext => by
      simp [Task.brings, Task.carried?_of_spawns (hstems agenda hmem next hnext)]
  rw [← h.agendas, hspawned, load_append, hnew, List.tail_cons, List.countP_cons] at hload
  rw [List.countP_singleton] at hbalance
  rw [countP_inside, countP_inside]
  cases hprogress : progress with
  | goOn v todo =>
    rw [hprogress] at hload hbalance
    have hnext : (Progress.next rest (.goOn v todo)).countP (Task.brings n p) =
        todo.countP (Task.brings n p) + rest.countP (Task.brings n p) := List.countP_append
    have htodo : (Progress.todo (.goOn v todo)).countP (Task.brings n p) =
        todo.countP (Task.brings n p) := rfl
    omega
  | breakDown v text =>
    rw [hprogress] at hload hbalance
    -- Who breaks down has no event in hand, and forgets none.
    have herrand : task.isErrand = false := by
      by_contra hne
      obtain ⟨_, _, hgoOn, -⟩ := h.errands (by simpa using hne)
      rw [hgoOn] at hprogress
      cases hprogress
    have hrest : rest.countP (Task.brings n p) = 0 :=
      List.countP_eq_zero.mpr fun next hnext => by
        have hfree := (hfront _ (List.mem_of_getElem? h.agenda)).free (by
          rintro m u rfl
          cases herrand) next hnext
        simp [Task.brings, hfree]
    have hnext : (Progress.next rest (.breakDown v text)).countP (Task.brings n p) = 0 := rfl
    have htodo : (Progress.todo (.breakDown v text)).countP (Task.brings n p) = 0 := rfl
    omega

/-- What a course does to the events inside a transform. -/
theorem InCustody.follow (hcustody : w.InCustody n) (hcourse : w.follow moves = some v)
    (p : Event → Bool) :
    (v.inside n).countP p + ((w.partedBy n moves).map (·.1)).countP p =
      (w.inside n).countP p + (w.takenBy n moves).countP p := by
  induction moves generalizing w with
  | nil =>
    obtain rfl := Option.some.inj hcourse
    rfl
  | cons move moves ih =>
    obtain ⟨z, hmove, hrest⟩ := Option.bind_eq_some_iff.mp hcourse
    have htaken : w.takenBy n (move :: moves) =
        ((w.taskOf move).bind (Task.takes? n)).toList ++ z.takenBy n moves := by
      simp only [takenBy, along, hmove, Option.elim_some]
    have hparted : w.partedBy n (move :: moves) =
        ((w.taskOf move).bind (w.partsWith? n)).toList ++ z.partedBy n moves := by
      simp only [partedBy, along, hmove, Option.elim_some]
    rw [htaken, hparted, List.map_append, List.countP_append, List.countP_append]
    obtain ⟨me, expired, task, rest, progress, htask, hturn⟩ | ⟨htask, hsame⟩ := taskOf_cases hmove
    · have hlater := ih (hcustody.turn hturn) hrest
      have hbalance := hcustody.balance hturn p
      rw [htask, Option.bind_some, Option.bind_some]
      omega
    · have hlater := ih (hcustody.same hsame) hrest
      rw [hsame.inside] at hlater
      rw [htask, Option.bind_none, Option.bind_none]
      simpa using hlater

/-- A transform loses no event: whatever threads do from when none is inside, the events that are
brought to it are those that it parts with and those that are still inside. -/
theorem custody (hnode : w.nodes[n]? = some node) (hkind : node.kind = .transform)
    (hempty : w.inside n = []) (hcourse : w.follow moves = some v) :
    (w.takenBy n moves).Perm ((w.partedBy n moves).map (·.1) ++ v.inside n) := by
  classical
  have hcustody : w.InCustody n := .of_empty hnode hkind hempty
  -- Events are moved and never copied, so it is enough to count each of them.
  refine List.perm_iff_count.mpr fun event => ?_
  have hcount := hcustody.follow hcourse (· == event)
  rw [hempty, List.countP_nil, Nat.zero_add] at hcount
  rw [List.count_eq_countP, List.count_eq_countP, List.countP_append]
  omega

/-- A step with an event of a transform shows how the transform parts with it: the event is handed
to the gate next, its fate is told, or a unit has rejected it and nobody is told. -/
theorem exists_partsAs (hnode : w.nodes[n]? = some node) (hkind : node.kind = .transform)
    (hstep : w.step me = some w') (htask : w.taskOf (.step me) = some task)
    (hconcerns : task.concerns n = true) :
    ∃ progress, w' = progress.resume me ∧ PartsAs n w progress (w.partsWith? n task) := by
  obtain ⟨expired, found, rest, progress, hturn⟩ := step_turn hstep
  obtain rfl := Option.some.inj (hturn.taskOf.symm.trans htask)
  exact ⟨progress, hturn.resumes, (hturn.treats hnode hkind hconcerns).shown⟩

/-! ## Where nothing is rejected -/

theorem NeverRejects.head {move : Move P} (h : w.NeverRejects (move :: moves))
    (hmove : w.move move = some v) : ¬ v.Rejects :=
  h [move] (by simp) v (by simp [World.follow, hmove])

theorem NeverRejects.tail {move : Move P} (h : w.NeverRejects (move :: moves))
    (hmove : w.move move = some v) : v.NeverRejects moves := by
  intro before hbefore z hz
  exact h (move :: before) (List.cons_prefix_cons.mpr ⟨rfl, hbefore⟩) z
    (by simp [World.follow, hmove, hz])

/-- Who parts with an event because a unit rejects it says so next. -/
theorem InCustody.rejects {event : Event} (hcustody : w.InCustody n)
    (h : w.Turn me expired task rest progress w')
    (hparts : w.partsWith? n task = some (event, .rejected)) : w'.Rejects := by
  obtain ⟨node, hnode, hkind⟩ := hcustody.transform
  have hconcerns : task.concerns n = true := by
    by_contra hne
    rw [partsWith?_of_not_concerns (by simpa using hne)] at hparts
    cases hparts
  have hshown := (h.treats hnode hkind hconcerns).shown
  rw [hparts] at hshown
  cases hshown with
  | rejected htodo =>
    obtain ⟨thread, hthread, hagenda⟩ := List.mem_map.mp (List.mem_of_getElem? h.agenda_me)
    refine ⟨thread, hthread, ?_⟩
    cases progress with
    | goOn z todo =>
      obtain rfl : todo = [.dispatched .rejected] := htodo
      rw [hagenda]
      exact List.mem_cons_self ..
    | breakDown => cases htodo

theorem InCustody.not_rejected (hcustody : w.InCustody n) (hcourse : w.follow moves = some v)
    (hnever : w.NeverRejects moves) : ∀ part ∈ w.partedBy n moves, part.2 ≠ .rejected := by
  induction moves generalizing w with
  | nil => simp [partedBy, along]
  | cons move moves ih =>
    obtain ⟨z, hmove, hrest⟩ := Option.bind_eq_some_iff.mp hcourse
    intro part hpart
    have hpart : part ∈ ((w.taskOf move).bind (w.partsWith? n)).toList ++ z.partedBy n moves := by
      simpa only [partedBy, along, hmove, Option.elim_some] using hpart
    obtain ⟨me, expired, task, rest, progress, htask, hturn⟩ | ⟨htask, hsame⟩ := taskOf_cases hmove
    · rcases List.mem_append.mp hpart with hpart | hpart
      · rw [htask, Option.bind_some, Option.mem_toList] at hpart
        intro hrejected
        have hparts : w.partsWith? n task = some (part.1, .rejected) := by
          rw [← hrejected]
          exact hpart
        exact hnever.head hmove (hcustody.rejects hturn hparts)
      · exact ih (hcustody.turn hturn) hrest (hnever.tail hmove) part hpart
    · rw [htask] at hpart
      exact ih (hcustody.same hsame) hrest (hnever.tail hmove) part (by simpa using hpart)

/-- Where no unit rejects an event, a transform hands on every event that it parts with or tells its
fate. -/
theorem onward_or_told (hnode : w.nodes[n]? = some node) (hkind : node.kind = .transform)
    (hempty : w.inside n = []) (hcourse : w.follow moves = some v) (hnever : w.NeverRejects moves)
    {event : Event} {parting : Parting} (hparted : (event, parting) ∈ w.partedBy n moves) :
    (∃ payload, parting = .onward payload) ∨ ∃ fate, parting = .told fate := by
  have hcustody : w.InCustody n := .of_empty hnode hkind hempty
  have hnot := hcustody.not_rejected hcourse hnever _ hparted
  cases parting with
  | onward payload => exact .inl ⟨payload, rfl⟩
  | told fate => exact .inr ⟨fate, rfl⟩
  | rejected => exact absurd rfl hnot

/-! ## Built streams -/

/-- No event is inside the nodes of a stream that was just built. -/
theorem inside_of_built {shared : P.Shared} {name : String} {config : PipelineConfig}
    {registry : Registry P} {output : Bool} {s : Nat} {tasks : List Task}
    (hbuilt : (idle shared).buildStream name config registry output =
      { reply := .returned s, shared := w })
    (htasks : ∀ task ∈ tasks, task.carried? n = none) : (w.assign 0 tasks).inside n = [] := by
  have hthreads := (buildStream_eq hbuilt).1.threads
  have hqueues : (w.queues n).flatten = [] := by
    rw [queues]
    cases hnode : w.nodes[n]? with
    | none => rfl
    | some node =>
      refine List.flatten_eq_nil_iff.mpr fun queue hqueue => ?_
      obtain ⟨unit, hunit, rfl⟩ := List.mem_map.mp hqueue
      obtain hfresh | hfresh :=
        (pristine_of_built hbuilt).units node (List.mem_of_getElem? hnode) unit hunit
      · rw [hfresh]
        rfl
      · rw [hfresh]
        rfl
  have hsame : (w.assign 0 tasks).queues n = w.queues n := rfl
  rw [inside, hsame, hqueues, List.append_nil]
  simpa [assign, changeThread, hthreads] using htasks

end World
end EventPipeline
