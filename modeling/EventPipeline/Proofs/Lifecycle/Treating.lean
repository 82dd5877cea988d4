import EventPipeline.Engine.Custody
import EventPipeline.Proofs.Engine.Ledger
import EventPipeline.Proofs.Lifecycle.Recruiting

/-!
# `EventPipeline.Proofs.Lifecycle.Treating`: what one task does to the events of a transform

Who takes an event for a transform, has one in hand or takes one from a queue of it keeps account of
the event and shows how the transform parts with it (`Turn.treats`). All other tasks keep account of
the events of the transform too, since they have nothing to do with them (`Turn.accounts`).

A thread that breaks down forgets what it had to do, and so it matters that no event is lost with
it: only the first task of a thread has an event in hand, or the second one if the first one waits
for the processor (`InFront`), and such a thread does not break down.
-/

set_option autoImplicit false

namespace EventPipeline

variable {P : Plugins}

namespace Task

variable {task next : Task} {n u : Nat} {held : Event} {p : Event → Bool}

/-- The task has an event of the node in hand, of the kind that is counted. -/
def brings (n : Nat) (p : Event → Bool) (task : Task) : Bool :=
  (task.carried? n).any p

/-- The event that is handed to the gate of the node with a task. -/
def handed? (n : Nat) : Task → Option Event
  | .event (.emit (.node m) sent) => if m = n then some sent else none
  | _ => none

/-- The task has to do with the events of the node: it takes one, has one in hand, or takes one from
a queue. -/
def concerns (n : Nat) : Task → Bool
  | .event (.enter m _) | .event (.offer m _ _) | .event (.send m _ _)
  | .event (.process m _ _ _) | .unit (.receive m _) => m == n
  | _ => false

/-- Who has an event in hand delivers it or has it processed. -/
theorem carried?_cases (h : task.carried? n = some held) :
    task.delivers? = some n ∨ ∃ u, task.feeds? = some (.processor n u) := by
  cases task with
  | event part =>
    cases part with
    | offer m i event =>
      obtain ⟨rfl, -⟩ : m = n ∧ event = held := by simpa [carried?] using h
      exact .inl rfl
    | send m i event =>
      obtain ⟨rfl, -⟩ : m = n ∧ event = held := by simpa [carried?] using h
      exact .inl rfl
    | process m i event asked =>
      obtain ⟨rfl, -⟩ : m = n ∧ event = held := by simpa [carried?] using h
      exact .inr ⟨i, rfl⟩
    | _ => cases h
  | _ => cases h

variable (h : task.concerns n = false)
include h

theorem carried?_of_not_concerns : task.carried? n = none := by
  cases task with
  | event part => cases part <;> simp_all [carried?, concerns]
  | _ => rfl

theorem takes?_of_not_concerns : task.takes? n = none := by
  cases task with
  | event part => cases part <;> simp_all [takes?, concerns]
  | _ => rfl

theorem deals?_of_not_concerns : task.deals? ≠ some n := by
  cases task with
  | event part => cases part <;> simp_all [deals?, concerns]
  | _ => simp [deals?]

theorem feeds?_of_not_concerns (u : Nat) : task.feeds? ≠ some (.processor n u) := by
  cases task with
  | event part => cases part <;> simp_all [feeds?, concerns]
  | _ => simp [feeds?]

theorem serves?_of_not_concerns (u : Nat) : task.serves? ≠ some (.processor n u) := by
  cases task with
  | event part => cases part <;> simp_all [serves?, concerns]
  | unit part => cases part <;> simp_all [serves?, concerns]
  | _ => simp [serves?]

/-- What has nothing to do with the events of a node leads to nothing that has one in hand. -/
theorem carried?_of_stemsFrom {launches : Nat} (hstems : task.StemsFrom launches next) :
    next.carried? n = none := by
  obtain ⟨-, -, -, hfeeds, hdelivers⟩ := hstems
  cases hcarried : next.carried? n with
  | none => rfl
  | some held =>
    exfalso
    -- An event in hand was accepted by the node or taken from a queue just before.
    obtain hnext | ⟨u, hnext⟩ := carried?_cases hcarried
    · obtain hnone | hsame := hdelivers
      · exact absurd (hnone.symm.trans hnext) (by simp)
      · exact deals?_of_not_concerns h (hsame.symm.trans hnext)
    · obtain hnone | hsame | hsame := hfeeds
      · exact absurd (hnone.symm.trans hnext) (by simp)
      · exact feeds?_of_not_concerns h u (hsame.symm.trans hnext)
      · exact serves?_of_not_concerns h u (hsame.symm.trans hnext)

omit h in
/-- A new thread has no event in hand. -/
theorem carried?_of_spawns {launches : Nat} (h : task.Spawns launches next) :
    next.carried? n = none := by
  cases hcarried : next.carried? n with
  | none => rfl
  | some held =>
    exfalso
    have hsubject := h.2.2.2
    cases next with
    | event part =>
      cases part with
      | offer | send | process => cases hsubject
      | _ => cases hcarried
    | _ => cases hcarried

end Task

/-- Only the first task has an event of the node in hand, or the second one, if the first one waits
for a processor. -/
inductive InFront (n : Nat) : List Task → Prop
  | nothing : InFront n []
  | first {task : Task} {rest : List Task} (h : ∀ next ∈ rest, next.carried? n = none) :
    InFront n (task :: rest)
  | second {m u : Nat} {task : Task} {rest : List Task}
    (h : ∀ next ∈ rest, next.carried? n = none) :
    InFront n (.event (.occupy m u) :: task :: rest)

namespace InFront

variable {n : Nat} {task : Task} {agenda rest : List Task}

theorem of_free (h : ∀ next ∈ agenda, next.carried? n = none) : InFront n agenda := by
  cases agenda with
  | nil => exact .nothing
  | cons task rest => exact .first fun next hnext => h next (List.mem_cons_of_mem _ hnext)

theorem append (h : InFront n agenda) (hrest : ∀ next ∈ rest, next.carried? n = none) :
    InFront n (agenda ++ rest) := by
  have hfree {front : List Task} (h : ∀ next ∈ front, next.carried? n = none) :
      ∀ next ∈ front ++ rest, next.carried? n = none :=
    fun next hnext => (List.mem_append.mp hnext).elim (h next) (hrest next)
  cases h with
  | nothing => exact .of_free hrest
  | first h => exact .first (hfree h)
  | second h => exact .second (hfree h)

theorem tail (h : InFront n (task :: rest)) : InFront n rest := by
  cases h with
  | first h => exact .of_free h
  | second h => exact .first h

/-- Whoever does not wait for a processor has nothing in hand after its first task. -/
theorem free (h : InFront n (task :: rest)) (hoccupy : ∀ m u, task ≠ .event (.occupy m u)) :
    ∀ next ∈ rest, next.carried? n = none := by
  cases h with
  | first h => exact h
  | second => exact absurd rfl (hoccupy _ _)

end InFront

namespace ExecutionUnit

variable {unit : ExecutionUnit P}

/-- An event that is sent to a unit comes to the end of its queue, if it is taken. -/
theorem queue_send (event : Event) : (unit.send event).2.state.queue =
    unit.state.queue ++ if (unit.send event).1 then [event] else [] := by
  cases hstate : unit.state with
  | inline state => simp [send, changeQueue, hstate, finish, UnitState.queue]
  | queued state =>
    cases halive : state.alive with
    | true => simp [send, changeQueue, hstate, halive, UnitState.queue]
    | false => simp [send, changeQueue, hstate, halive, finish, UnitState.queue]

/-- The next event is the first one of the queue. -/
theorem queue_of_next {event : Event} {later : ExecutionUnit P}
    (h : unit.next = .event event later) : unit.state.queue = event :: later.state.queue := by
  unfold next at h
  split at h
  · rename_i state hstate
    split at h
    · rename_i hqueue
      cases h
      simp [changeQueue, hstate, UnitState.queue, hqueue]
    · split at h <;> cases h
  · cases h

end ExecutionUnit

namespace World

variable {w w' v : World P} {me n u : Nat} {task : Task} {rest : List Task}
  {progress : Progress P} {expired : Bool} {node : Node P} {p : Event → Bool}

/-! ## What is inside a node -/

/-- How many events of a kind wait in the queues of a node. -/
def stock (w : World P) (n : Nat) (p : Event → Bool) : Nat :=
  ((w.queues n).map (List.countP p)).sum

/-- The queues of a node are those of its units. -/
theorem getElem?_queues (w : World P) (n u : Nat) :
    (w.queues n)[u]? = (w.unit? n u).map (·.state.queue) := by
  rw [queues, unit?]
  cases w.nodes[n]? with
  | none => rfl
  | some node => exact List.getElem?_map ..

/-- How many events of a kind the tasks have in hand. -/
theorem countP_brings (tasks : List Task) (n : Nat) (p : Event → Bool) :
    tasks.countP (Task.brings n p) = (tasks.filterMap (Task.carried? n)).countP p := by
  rw [List.countP_filterMap]
  congr 1
  funext task
  unfold Task.brings
  cases task.carried? n <;> rfl

/-- How many events of a kind are inside a node. -/
theorem countP_inside (w : World P) (n : Nat) (p : Event → Bool) :
    (w.inside n).countP p = load w.agendas (Task.brings n p) + w.stock n p := by
  rw [inside, List.countP_append, List.countP_flatMap, List.countP_flatten, load, agendas,
    List.map_map, stock]
  congr 3
  funext thread
  exact (countP_brings thread.agenda n p).symm

/-- What waits in queues is the same if every unit has the same queue. -/
theorem stock_congr (h : ∀ u, SameMark UnitState.queue n u w v) (p : Event → Bool) :
    v.stock n p = w.stock n p := by
  have hqueues : v.queues n = w.queues n :=
    List.ext_getElem? fun u => by rw [getElem?_queues, getElem?_queues, h u]
  rw [stock, stock, hqueues]

/-- What waits in queues when the queue of one unit changes. -/
theorem stock_of_one {unit later : ExecutionUnit P} (hunit : w.unit? n u = some unit)
    (hlater : v.unit? n u = some later) (hothers : ∀ i ≠ u, v.unit? n i = w.unit? n i)
    (p : Event → Bool) :
    v.stock n p + unit.state.queue.countP p = w.stock n p + later.state.queue.countP p := by
  have hold : (w.queues n)[u]? = some unit.state.queue := by
    rw [getElem?_queues, hunit, Option.map_some]
  have hqueues : v.queues n = (w.queues n).modify u fun _ => later.state.queue := by
    refine List.ext_getElem? fun i => ?_
    rw [List.getElem?_modify, getElem?_queues, getElem?_queues]
    by_cases hi : u = i
    · subst hi
      simp [hunit, hlater]
    · simp [hi, hothers i (Ne.symm hi)]
  rw [stock, stock, hqueues]
  exact sum_modify hold

/-! ## One turn -/

/-- What a thread does next and what is on record show how a transform has parted with an event, or
that it has not: the event is handed to its gate, its fate is told, or neither. -/
inductive PartsAs (n : Nat) (w : World P) (progress : Progress P) :
    Option (Event × Parting) → Prop
  | nothing (hhanded : progress.todo.filterMap (Task.handed? n) = [])
      (hfates : progress.world.fates = w.fates) : PartsAs n w progress none
  | onward {event : Event} {payload : Json}
      (hhanded : progress.todo.filterMap (Task.handed? n) = [{ event with payload }])
      (hfates : progress.world.fates = w.fates) :
      PartsAs n w progress (some (event, .onward payload))
  | told {event : Event} {fate : Fate} {v : World P}
      (hhanded : progress.todo.filterMap (Task.handed? n) = [])
      (htold : progress.world = v.tell event fate) (hfates : v.fates = w.fates) :
      PartsAs n w progress (some (event, .told fate))
  | rejected {event : Event} (htodo : progress.todo = [.dispatched .rejected])
      (hfates : progress.world.fates = w.fates) : PartsAs n w progress (some (event, .rejected))

/-- A thread that does a task keeps account of the events of a node: what was in hand or in a queue
and what was taken is in hand or in a queue afterwards, or the node has parted with it. -/
structure KeepsAccount (n : Nat) (w : World P) (task : Task) (todo : List Task) (w' : World P) :
    Prop where
  front : InFront n todo
  balance : ∀ p, todo.countP (Task.brings n p) + w'.stock n p +
      ((w.partsWith? n task).toList.map (·.1)).countP p =
    [task].countP (Task.brings n p) + w.stock n p + (task.takes? n).toList.countP p

/-- A thread that does a task with an event of a transform keeps account of it, and shows how the
transform parts with it. -/
structure Treats (n : Nat) (w : World P) (task : Task) (progress : Progress P) (w' : World P) :
    Prop extends KeepsAccount n w task progress.todo w' where
  shown : PartsAs n w progress (w.partsWith? n task)

/-- If nothing happens to the queues, what was in hand and what was taken is in hand afterwards, or
the node has parted with it. -/
theorem KeepsAccount.of_stock {todo : List Task} (hfront : InFront n todo)
    (hstock : ∀ p, w'.stock n p = w.stock n p)
    (h : todo.filterMap (Task.carried? n) ++ (w.partsWith? n task).toList.map (·.1) =
      (task.carried? n).toList ++ (task.takes? n).toList) : KeepsAccount n w task todo w' := by
  refine ⟨hfront, fun p => ?_⟩
  have hcount := congrArg (List.countP p) h
  rw [List.countP_append, List.countP_append, ← countP_brings] at hcount
  have htask : ((task.carried? n).toList).countP p = [task].countP (Task.brings n p) := by
    rw [countP_brings]
    cases hcarried : task.carried? n <;> simp [hcarried]
  have := hstock p
  omega

theorem Treats.of_stock {parted : Option (Event × Parting)} (hparts : w.partsWith? n task = parted)
    (hshown : PartsAs n w progress parted) (hfront : InFront n progress.todo)
    (hstock : ∀ p, w'.stock n p = w.stock n p)
    (h : progress.todo.filterMap (Task.carried? n) ++ parted.toList.map (·.1) =
      (task.carried? n).toList ++ (task.takes? n).toList) : Treats n w task progress w' := by
  subst hparts
  exact ⟨.of_stock hfront hstock h, hshown⟩

theorem partsWith?_of_not_concerns (h : task.concerns n = false) : w.partsWith? n task = none := by
  cases task with
  | event part => cases part <;> simp_all [partsWith?, Task.concerns]
  | _ => rfl

section

attribute [local simp] Progress.todo Task.carried? Task.takes? Task.handed? Task.dispatched
  Parting.ofVerdict Parting.ofReply accepted

namespace Turn

variable (h : w.Turn me expired task rest progress w')
include h

/-- Only who puts events into the queues of a node or takes them from one changes what waits
there. -/
theorem stock_kept (hnode : w.nodes[n]? = some node)
    (hsend : ∀ u event, task ≠ .event (.send n u event))
    (hreceive : ∀ u, task ≠ .unit (.receive n u)) (p : Event → Bool) :
    w'.stock n p = w.stock n p := by
  refine stock_congr (fun u => ?_) p
  cases hplain : task.isPlain with
  | true => exact (perform_queue hplain h.performs (hsend u) (hreceive u)).of_nodes h.nodes
  | false =>
    obtain ⟨later, hlater, hroster⟩ := h.roster_kept hplain hnode
    have hunits : later.units = node.units := congrArg (·.2.1) hroster
    rw [SameMark, World.unit?, World.unit?, hlater, hnode, Option.bind_some, Option.bind_some,
      hunits]

/-- A task that has nothing to do with the events of a node. -/
theorem accounts_other (hnode : w.nodes[n]? = some node) (hconcerns : task.concerns n = false) :
    KeepsAccount n w task progress.todo w' := by
  have hsend (u : Nat) (event : Event) : task ≠ .event (.send n u event) := by
    rintro rfl
    simp [Task.concerns] at hconcerns
  have hreceive (u : Nat) : task ≠ .unit (.receive n u) := by
    rintro rfl
    simp [Task.concerns] at hconcerns
  have hfree : ∀ next ∈ progress.todo, next.carried? n = none := fun next hnext =>
    Task.carried?_of_stemsFrom hconcerns (h.reaches.todo next hnext)
  refine .of_stock (.of_free hfree) (h.stock_kept hnode hsend hreceive) ?_
  rw [List.filterMap_eq_nil_iff.mpr hfree, partsWith?_of_not_concerns hconcerns,
    Task.takes?_of_not_concerns hconcerns, Task.carried?_of_not_concerns hconcerns]
  rfl

/-- Bringing an event to the node. -/
theorem treats_enter {event : Event} (htask : task = .event (.enter n event))
    (hnode : w.nodes[n]? = some node) : Treats n w task progress w' := by
  subst htask
  have hstock := h.stock_kept hnode (by simp) (by simp)
  have henter : w.enter n event = some progress := h.performs
  simp only [enter, hnode, Option.bind_eq_bind, Option.bind_some] at henter
  have hparts : w.partsWith? n (.event (.enter n event)) =
      (Parting.ofVerdict node.name event.payload (node.judge event.payload).1).map
        ({ event with hops := event.hops + 1 }, ·) := by
    simp [partsWith?, hnode]
  cases hverdict : (node.judge event.payload).1 with
  | error error =>
    rw [hverdict] at henter hparts
    cases henter
    exact .of_stock hparts (.told (by simp) rfl rfl) (.of_free (by simp)) hstock (by simp)
  | ok verdict =>
    rw [hverdict] at henter hparts
    cases verdict with
    | accept =>
      cases henter
      exact .of_stock hparts (.nothing (by simp) rfl) (.first (by simp)) hstock (by simp)
    | continue_ =>
      cases henter
      exact .of_stock hparts (.onward (by simp) rfl) (.of_free (by simp)) hstock (by simp)
    | drop =>
      cases henter
      exact .of_stock hparts (.told (by simp) rfl rfl) (.of_free (by simp)) hstock (by simp)

/-- Offering an event of a transform to one of its units. -/
theorem treats_offer {event : Event} (htask : task = .event (.offer n u event))
    (hnode : w.nodes[n]? = some node) (hkind : node.kind = .transform) :
    Treats n w task progress w' := by
  subst htask
  have hstock := h.stock_kept hnode (by simp) (by simp)
  have hoffer : w.offer n u event = some progress := h.performs
  simp only [offer, hnode, Option.bind_eq_bind, Option.bind_some, Option.bind_eq_some_iff] at hoffer
  obtain ⟨unit, hunit, hoffer⟩ := hoffer
  have hlookup : w.unit? n u = some unit := by rw [World.unit?, hnode, Option.bind_some, hunit]
  cases hcase : unit.offer with
  | refused =>
    rw [hcase] at hoffer
    cases hoffer
    have hparts : w.partsWith? n (.event (.offer n u event)) = some (event, .rejected) := by
      simp [partsWith?, hlookup, hcase]
    exact .of_stock hparts (.rejected rfl rfl) (.of_free (by simp)) hstock (by simp)
  | inline later =>
    rw [hcase] at hoffer
    cases hoffer
    have hparts : w.partsWith? n (.event (.offer n u event)) = none := by
      simp [partsWith?, hlookup, hcase]
    -- The event waits in second place, behind the wait for the processor.
    exact .of_stock hparts (.nothing (by simp [hkind]) rfl) (.second (by simp [hkind])) hstock
      (by simp [hkind, List.filterMap_cons])
  | queued later =>
    rw [hcase] at hoffer
    cases hoffer
    have hparts : w.partsWith? n (.event (.offer n u event)) = none := by
      simp [partsWith?, hlookup, hcase]
    exact .of_stock hparts (.nothing (by simp) rfl) (.first (by simp)) hstock (by simp)

/-- Having an event processed by a transform. -/
theorem treats_process {event : Event} {asked : Bool}
    (htask : task = .event (.process n u event asked)) (hnode : w.nodes[n]? = some node)
    (hkind : node.kind = .transform) : Treats n w task progress w' := by
  subst htask
  have hstock := h.stock_kept hnode (by simp) (by simp)
  have hprocess : w.process n u event asked = some progress := h.performs
  simp only [process, hnode, Option.bind_eq_bind, Option.bind_some, Option.bind_eq_some_iff]
    at hprocess
  obtain ⟨unit, hunit, ⟨reply, called⟩, hcall, hprocess⟩ := hprocess
  have hlookup : w.unit? n u = some unit := by rw [World.unit?, hnode, Option.bind_some, hunit]
  rw [callProcessor, hlookup, Option.map_some] at hcall
  have hreply : (P.processor.process asked event.payload unit.processor w.shared).reply = reply :=
    congrArg Prod.fst (Option.some.inj hcall)
  have hfates : called.fates = w.fates := by
    rw [← show _ = called from congrArg Prod.snd (Option.some.inj hcall)]
    rfl
  have hparts : w.partsWith? n (.event (.process n u event asked)) =
      (Parting.ofReply unit.name event.payload reply).map (event, ·) := by
    simp [partsWith?, hlookup, hreply]
  cases reply with
  | waiting text =>
    cases asked with
    | true => cases hprocess
    | false =>
      cases hprocess
      exact .of_stock hparts (.nothing (by simp) hfates) (.first (by simp)) hstock (by simp)
  | failed | panicked =>
    cases hprocess
    exact .of_stock hparts (.told rfl rfl hfates) .nothing hstock (by simp)
  | returned outcome =>
    rw [hkind] at hprocess
    cases outcome with
    | pass | update =>
      cases hprocess
      exact .of_stock hparts (.onward (by simp) hfates) (.of_free (by simp)) hstock (by simp)
    | stop =>
      cases hprocess
      exact .of_stock hparts (.told rfl rfl hfates) .nothing hstock (by simp)

/-- Putting an event of a transform into a queue. -/
theorem treats_send {event : Event} (htask : task = .event (.send n u event))
    (hnode : w.nodes[n]? = some node) (hkind : node.kind = .transform) :
    Treats n w task progress w' := by
  subst htask
  have hsend : w.send n u event = some progress := h.performs
  simp only [send, hnode, Option.bind_eq_bind, Option.bind_some, Option.bind_eq_some_iff] at hsend
  obtain ⟨unit, hunit, hsend⟩ := hsend
  have hlookup : w.unit? n u = some unit := by rw [World.unit?, hnode, Option.bind_some, hunit]
  have hparts : w.partsWith? n (.event (.send n u event)) =
      if (unit.send event).1 then none else some (event, .rejected) := by
    simp [partsWith?, hlookup]
  have hothers : ∀ i ≠ u, w'.unit? n i = w.unit? n i := fun i hi =>
    h.unit?_eq rfl fun hsame => hi (by cases hsame; rfl)
  have hafter : (w.changeUnit n u fun _ => (unit.send event).2).unit? n u =
      some (unit.send event).2 := by
    rw [unit?_changeUnit, if_pos ⟨rfl, rfl⟩, hlookup, Option.map_some]
  have hstock (hlater : w'.unit? n u = some (unit.send event).2) (p : Event → Bool) :
      w'.stock n p = w.stock n p + (if (unit.send event).1 then [event] else []).countP p := by
    have hone := stock_of_one hlookup hlater hothers p
    rw [ExecutionUnit.queue_send, List.countP_append] at hone
    omega
  cases htaken : (unit.send event).1 with
  | true =>
    rw [htaken] at hsend hparts
    cases hsend
    refine ⟨⟨.of_free (by simp [hkind]), fun p => ?_⟩, hparts ▸ .nothing (by simp [hkind]) rfl⟩
    rw [hstock ((h.unit? n u).trans hafter), htaken, hparts]
    simp [hkind, Task.brings, Nat.add_comm]
  | false =>
    rw [htaken] at hsend hparts
    cases hsend
    have hlater : w'.unit? n u = some (unit.send event).2 := by
      have hsame := unit?_changeNode (w := w.changeUnit n u fun _ => (unit.send event).2) (m := n)
        (f := fun node => { node with failed := node.failed + 1 }) (fun _ => rfl) n u
      exact (h.unit? n u).trans (hsame.trans hafter)
    refine ⟨⟨.of_free (by simp), fun p => ?_⟩, hparts ▸ .rejected rfl rfl⟩
    rw [hstock hlater, htaken, hparts]
    simp [Task.brings, Nat.add_comm]

/-- Taking an event from a queue. -/
theorem treats_receive (htask : task = .unit (.receive n u)) : Treats n w task progress w' := by
  subst htask
  have hreceive : w.receive expired n u = some progress := h.performs
  obtain ⟨unit, hlookup, hreceive⟩ := Option.bind_eq_some_iff.mp hreceive
  have hparts : w.partsWith? n (.unit (.receive n u)) = none := rfl
  cases hnext : unit.next with
  | event event later =>
    rw [hnext] at hreceive
    cases hreceive
    have hlater : w'.unit? n u = some later := by
      refine (h.unit? n u).trans ?_
      show (w.changeUnit n u fun _ => later).unit? n u = some later
      rw [unit?_changeUnit, if_pos ⟨rfl, rfl⟩, hlookup, Option.map_some]
    have hothers : ∀ i ≠ u, w'.unit? n i = w.unit? n i := fun i hi =>
      h.unit?_eq rfl fun hsame => hi (by cases hsame; rfl)
    refine ⟨⟨.first (by simp), fun p => ?_⟩, .nothing (by simp) rfl⟩
    have hone := stock_of_one hlookup hlater hothers p
    rw [ExecutionUnit.queue_of_next hnext, List.countP_cons] at hone
    simp [Task.brings, List.countP_cons, hparts]
    omega
  | disconnected =>
    rw [hnext] at hreceive
    cases hreceive
    exact .of_stock hparts (.nothing (by simp) rfl) (.of_free (by simp))
      (stock_congr fun _ => SameMark.refl.of_nodes h.nodes) (by simp)
  | nothing =>
    rw [hnext] at hreceive
    cases expired with
    | true =>
      cases hreceive
      exact .of_stock hparts (.nothing (by simp) rfl) (.of_free (by simp))
        (stock_congr fun _ => SameMark.refl.of_nodes h.nodes) (by simp)
    | false => cases hreceive

/-- Who does something with an event of a transform keeps account of it, and shows how the transform
parts with it. -/
theorem treats (hnode : w.nodes[n]? = some node) (hkind : node.kind = .transform)
    (hconcerns : task.concerns n = true) : Treats n w task progress w' := by
  cases task with
  | event part =>
    cases part with
    | enter m event =>
      obtain rfl : m = n := by simpa [Task.concerns] using hconcerns
      exact h.treats_enter rfl hnode
    | offer m u event =>
      obtain rfl : m = n := by simpa [Task.concerns] using hconcerns
      exact h.treats_offer rfl hnode hkind
    | send m u event =>
      obtain rfl : m = n := by simpa [Task.concerns] using hconcerns
      exact h.treats_send rfl hnode hkind
    | process m u event asked =>
      obtain rfl : m = n := by simpa [Task.concerns] using hconcerns
      exact h.treats_process rfl hnode hkind
    | _ => cases hconcerns
  | unit part =>
    cases part with
    | receive m u =>
      obtain rfl : m = n := by simpa [Task.concerns] using hconcerns
      exact h.treats_receive rfl
    | _ => cases hconcerns
  | _ => cases hconcerns

/-- Every thread keeps account of the events of a transform. -/
theorem accounts (hnode : w.nodes[n]? = some node) (hkind : node.kind = .transform) :
    KeepsAccount n w task progress.todo w' := by
  cases hconcerns : task.concerns n with
  | false => exact h.accounts_other hnode hconcerns
  | true => exact (h.treats hnode hkind hconcerns).toKeepsAccount

end Turn

end

end World
end EventPipeline
