import EventPipeline.Proofs.Engine.Handling

/-!
# `EventPipeline.Proofs.Engine.Ledger`: where every event is

At every moment an event is in exactly one place: some counter has counted it, it waits in
the queue of a unit, or it is part of what some thread still has to do. The ledger of a
world says so with three equations. What gates sent to a node is what the node received,
and what is about to enter it. What a node received has left it, was dropped, has failed or
was ended in it, or is still inside. What a unit took is finished, or it is still to be.

`Ledger.handles` shows that no step on the way of an event breaks an equation, and
`Ledger.frame` that nothing else does which leaves counters and queues alone.
-/

set_option autoImplicit false

namespace EventPipeline

/-! ## What threads still have to do -/

/-- How many tasks of a kind all threads together still have to do. -/
def load (agendas : List (List Task)) (p : Task → Bool) : Nat :=
  (agendas.map (List.countP p)).sum

/-- The load when one thread changes what it has to do. -/
theorem load_modify {agendas : List (List Task)} {me : Nat} {agenda : List Task}
    (h : agendas[me]? = some agenda) (f : List Task → List Task) (p : Task → Bool) :
    load (agendas.modify me f) p + agenda.countP p = load agendas p + (f agenda).countP p :=
  sum_modify (φ := List.countP p) (f := f) h

/-- The load when one thread does its first task. -/
theorem load_step {agendas : List (List Task)} {me : Nat} {task : Task} {rest : List Task}
    (h : agendas[me]? = some (task :: rest)) (todo : List Task) (p : Task → Bool) :
    load (agendas.modify me (todo ++ ·.tail)) p + [task].countP p =
      load agendas p + todo.countP p := by
  have hload := load_modify h (todo ++ ·.tail) p
  rw [List.tail_cons, List.countP_append, List.countP_cons] at hload
  rw [List.countP_singleton]
  omega

/-- The load when there are new threads. -/
theorem load_append (agendas spawned : List (List Task)) (p : Task → Bool) :
    load (agendas ++ spawned) p = load agendas p + load spawned p := by
  simp [load]

namespace Task

/-- The task brings an event to a node. -/
def enters (n : Nat) : Task → Bool
  | .event (.enter m _) => m == n
  | _ => false

/-- The task carries an event of a unit that has counted it. -/
def holds (n u : Nat) : Task → Bool
  | .event (.send m v _) | .event (.settle m v) => m == n && v == u
  | _ => false

/-- The task carries an event that a node has received and that has not left it. What the
processor of a sink works on has left the node already. -/
def carries (n : Nat) (transform : Bool) : Task → Bool
  | .event (.emit (.node m) _) | .event (.offer m _ _) | .event (.send m _ _) => m == n
  | .event (.process m _ _ _) => m == n && transform
  | _ => false

/-- The task carries no event that some counter has counted. -/
def IsLight (task : Task) : Prop :=
  (∀ n, task.enters n = false) ∧ (∀ n u, task.holds n u = false) ∧
    ∀ n transform, task.carries n transform = false

end Task

/-! ## Balances -/

/-- What a unit took and is not in its counters or its queue any more. -/
def UnitOutline.balance (unit : UnitOutline) : Int :=
  unit.received - unit.finished - unit.waiting

/-- The processor of the node decides how events go on. -/
def NodeOutline.isTransform (node : NodeOutline) : Bool :=
  node.kind = .transform

/-- What has failed in the node and what waits in its queues, unless it has left the node
before. -/
def NodeOutline.kept (node : NodeOutline) : Nat :=
  if node.isTransform then node.failed + (node.units.map UnitOutline.waiting).sum else 0

/-- What the node received and is not in its counters or its queues any more. -/
def NodeOutline.balance (node : NodeOutline) : Int :=
  node.received - node.emitted - node.dropped - node.kept

/-- What a gate sent to a node. -/
def sentTo (n : Nat) (target : Option Target) (emitted : Nat) : Nat :=
  if target = some (.node n) then emitted else 0

namespace Outline

variable (o : Outline)

/-- The processor of a node decides how events go on. -/
def isTransform (n : Nat) : Bool :=
  (o.nodes[n]?).any (·.isTransform)

/-- What all gates sent to a node. -/
def sentTo (n : Nat) : Nat :=
  (o.nodes.map fun node => EventPipeline.sentTo n node.target node.emitted).sum +
    (o.triggers.map fun trigger =>
      EventPipeline.sentTo n trigger.target trigger.emitted).sum

/-- What a node received and is not in its counters or its queues any more. -/
def balance (n : Nat) : Int :=
  (o.nodes[n]?).elim 0 (·.balance)

/-- What was sent to a node and has not come there. -/
def arrears (n : Nat) : Int :=
  o.sentTo n - (o.nodes[n]?).elim 0 (·.received)

/-- What a unit took and is not in its counters or its queue any more. -/
def unitBalance (n u : Nat) : Int :=
  (o.unit? n u).elim 0 (·.balance)

end Outline

/-- Every event is in exactly one place, when the processor of every node has ended so
many events. -/
structure Ledger (o : Outline) (agendas : List (List Task)) (ended : Nat → Nat) : Prop where
  arrivals : ∀ n, n < o.nodes.length → o.arrears n = load agendas (Task.enters n)
  passage : ∀ n, n < o.nodes.length →
    o.balance n =
      load agendas (Task.carries n (o.isTransform n)) + if o.isTransform n then ended n else 0
  units : ∀ n u, (o.unit? n u).isSome → o.unitBalance n u = load agendas (Task.holds n u)

/-! ## How steps change balances -/

namespace Outline

variable {o : Outline} {m v n u : Nat}

/-- The role of a node belongs to the layout. -/
theorem isTransform_eq : o.isTransform n = (o.layout.nodes[n]?).any (·.kind = .transform) := by
  simp only [isTransform, layout, List.getElem?_map]
  cases o.nodes[n]? <;> rfl

/-- A change that adds to the balance of a node. -/
theorem balance_changeNode {f : NodeOutline → NodeOutline} {d : Int}
    (hf : ∀ node, o.nodes[m]? = some node → (f node).balance = node.balance + d)
    (hn : n < o.nodes.length) :
    (o.changeNode m f).balance n = o.balance n + if m = n then d else 0 := by
  simp only [balance, changeNode, List.getElem?_modify, List.getElem?_eq_getElem hn]
  by_cases hmn : m = n
  · subst hmn
    simp [hf _ (List.getElem?_eq_getElem hn)]
  · simp [hmn]

theorem balance_emit (g : GateId) (hn : n < o.nodes.length) :
    (o.emit g).balance n = o.balance n - if g = .node n then 1 else 0 := by
  cases g with
  | node m =>
    rw [emit, balance_changeNode (d := -1) (fun node _ => ?_) hn]
    · by_cases hmn : m = n <;> simp [hmn]; rfl
    · have : { node with emitted := node.emitted + 1 }.kept = node.kept := rfl
      simp only [NodeOutline.balance, this]
      omega
  | trigger t => simp [emit, balance, changeTrigger]

theorem balance_receive (hn : n < o.nodes.length) :
    (o.receive m).balance n = o.balance n + if m = n then 1 else 0 := by
  refine balance_changeNode (fun node _ => ?_) hn
  have : { node with received := node.received + 1 }.kept = node.kept := rfl
  simp only [NodeOutline.balance, this]
  omega

theorem balance_drop (hn : n < o.nodes.length) :
    (o.drop m).balance n = o.balance n + if m = n then -1 else 0 := by
  refine balance_changeNode (fun node _ => ?_) hn
  have : { node with dropped := node.dropped + 1 }.kept = node.kept := rfl
  simp only [NodeOutline.balance, this]
  omega

theorem balance_fail (hn : n < o.nodes.length) :
    (o.fail m).balance n =
      o.balance n + if m = n then (if o.isTransform n then -1 else 0) else 0 := by
  refine (balance_changeNode (d := if o.isTransform m then -1 else 0) (fun node hnode => ?_)
    hn).trans ?_
  · have : o.isTransform m = node.isTransform := by simp [isTransform, hnode]
    rw [this]
    by_cases hkind : node.kind = .transform
    · simp only [NodeOutline.balance, NodeOutline.kept, NodeOutline.isTransform, hkind,
        decide_true, if_true]
      omega
    · simp [NodeOutline.balance, NodeOutline.kept, NodeOutline.isTransform, hkind]
  · by_cases hmn : m = n <;> simp [hmn]

/-- A change of a unit that adds to the number of waiting events. -/
theorem balance_changeUnit {f : UnitOutline → UnitOutline} {node : NodeOutline}
    {unit : UnitOutline} (hnode : o.nodes[m]? = some node)
    (hunit : node.units[v]? = some unit) (hn : n < o.nodes.length) :
    (o.changeUnit m v f).balance n = o.balance n +
      if m = n ∧ o.isTransform n then (unit.waiting : Int) - (f unit).waiting else 0 := by
  refine (balance_changeNode
    (d := if o.isTransform m then (unit.waiting : Int) - (f unit).waiting else 0)
    (fun node' hnode' => ?_) hn).trans ?_
  · obtain rfl : node = node' := by simpa [hnode] using hnode'
    have : o.isTransform m = node.isTransform := by simp [isTransform, hnode]
    rw [this]
    have hsum := sum_modify (φ := UnitOutline.waiting) (f := f) hunit
    by_cases hkind : node.kind = .transform
    · simp only [NodeOutline.balance, NodeOutline.kept, NodeOutline.isTransform, hkind,
        decide_true, if_true]
      omega
    · simp [NodeOutline.balance, NodeOutline.kept, NodeOutline.isTransform, hkind]
  · by_cases hmn : m = n <;> simp [hmn]

/-- A change of a unit that keeps the number of waiting events. -/
theorem balance_changeUnit_eq {f : UnitOutline → UnitOutline}
    (hf : ∀ unit, (f unit).waiting = unit.waiting) (hn : n < o.nodes.length) :
    (o.changeUnit m v f).balance n = o.balance n := by
  refine (balance_changeNode (d := 0) (fun node _ => ?_) hn).trans (by simp)
  have hunits : (node.units.modify v f).map UnitOutline.waiting =
      node.units.map UnitOutline.waiting := map_modify_eq fun unit _ => hf unit
  simp [NodeOutline.balance, NodeOutline.kept, NodeOutline.isTransform, hunits]

theorem balance_take (hn : n < o.nodes.length) : (o.take m v).balance n = o.balance n :=
  balance_changeUnit_eq (f := .take) (fun _ => rfl) hn

theorem balance_finish (hn : n < o.nodes.length) : (o.finish m v).balance n = o.balance n :=
  balance_changeUnit_eq (f := .finish) (fun _ => rfl) hn

theorem balance_enqueue {node : NodeOutline} {unit : UnitOutline}
    (hnode : o.nodes[m]? = some node) (hunit : node.units[v]? = some unit)
    (hn : n < o.nodes.length) :
    (o.enqueue m v).balance n =
      o.balance n + if m = n ∧ o.isTransform n then -1 else 0 := by
  rw [enqueue, balance_changeUnit hnode hunit hn]
  simp only [UnitOutline.enqueue]
  split <;> omega

theorem balance_dequeue {node : NodeOutline} {unit : UnitOutline}
    (hnode : o.nodes[m]? = some node) (hunit : node.units[v]? = some unit)
    (hwaiting : 0 < unit.waiting) (hn : n < o.nodes.length) :
    (o.dequeue m v).balance n =
      o.balance n + if m = n ∧ o.isTransform n then 1 else 0 := by
  rw [dequeue, balance_changeUnit hnode hunit hn]
  simp only [UnitOutline.dequeue]
  split <;> omega

/-- A change of a node that keeps what it sent. -/
theorem sentTo_changeNode {f : NodeOutline → NodeOutline}
    (htarget : ∀ node, (f node).target = node.target)
    (hemitted : ∀ node, (f node).emitted = node.emitted) :
    (o.changeNode m f).sentTo n = o.sentTo n := by
  have hnodes : (o.nodes.modify m f).map
      (fun node => EventPipeline.sentTo n node.target node.emitted) =
        o.nodes.map fun node => EventPipeline.sentTo n node.target node.emitted :=
    map_modify_eq fun node _ => by rw [htarget, hemitted]
  simp only [sentTo, changeNode, hnodes]

/-- A change of a node that keeps what it sent and adds to what it received. -/
theorem arrears_changeNode {f : NodeOutline → NodeOutline} {d : Nat}
    (htarget : ∀ node, (f node).target = node.target)
    (hemitted : ∀ node, (f node).emitted = node.emitted)
    (hreceived : ∀ node, (f node).received = node.received + d) (hn : n < o.nodes.length) :
    (o.changeNode m f).arrears n = o.arrears n - if m = n then (d : Int) else 0 := by
  rw [arrears, arrears, sentTo_changeNode htarget hemitted]
  simp only [changeNode, List.getElem?_modify, List.getElem?_eq_getElem hn]
  by_cases hmn : m = n
  · simp [hmn, hreceived]
    omega
  · simp [hmn]

/-- A gate that hands on an event adds to what was sent to its target. -/
theorem arrears_emit {g : GateId} {target : Target} (hg : o.target? g = some (some target))
    (hn : n < o.nodes.length) :
    (o.emit g).arrears n = o.arrears n + if target = .node n then 1 else 0 := by
  have hsent : (o.emit g).sentTo n = o.sentTo n + if target = .node n then 1 else 0 := by
    cases g with
    | node m =>
      obtain ⟨node, hnode, htarget⟩ : ∃ node, o.nodes[m]? = some node ∧
          node.target = some target := by simpa [target?] using hg
      have hsum := sum_modify
        (φ := fun node => EventPipeline.sentTo n node.target node.emitted)
        (f := fun node => { node with emitted := node.emitted + 1 }) hnode
      simp only [EventPipeline.sentTo, htarget, Option.some.injEq] at hsum
      simp only [sentTo, emit, changeNode, EventPipeline.sentTo]
      by_cases hn : target = .node n
      · simp only [hn, if_true] at hsum ⊢
        omega
      · simp only [hn, if_false] at hsum ⊢
        omega
    | trigger t =>
      obtain ⟨trigger, htrigger, htarget⟩ : ∃ trigger, o.triggers[t]? = some trigger ∧
          trigger.target = some target := by simpa [target?] using hg
      have hsum := sum_modify
        (φ := fun trigger => EventPipeline.sentTo n trigger.target trigger.emitted)
        (f := fun trigger => { trigger with emitted := trigger.emitted + 1 }) htrigger
      simp only [EventPipeline.sentTo, htarget, Option.some.injEq] at hsum
      simp only [sentTo, emit, changeTrigger, EventPipeline.sentTo]
      by_cases hn : target = .node n
      · simp only [hn, if_true] at hsum ⊢
        omega
      · simp only [hn, if_false] at hsum ⊢
        omega
  have hreceived : ((o.emit g).nodes[n]?).elim 0 (·.received) =
      (o.nodes[n]?).elim 0 (·.received) := by
    cases g with
    | node m =>
      simp only [emit, changeNode, List.getElem?_modify, List.getElem?_eq_getElem hn]
      by_cases hmn : m = n <;> simp [hmn]
    | trigger t => rfl
  rw [arrears, arrears, hsent, hreceived]
  split <;> omega

/-- A change of a unit that adds to its balance. -/
theorem unitBalance_changeUnit {f : UnitOutline → UnitOutline} {d : Int}
    (hf : ∀ unit, o.unit? m v = some unit → (f unit).balance = unit.balance + d)
    (h : (o.unit? n u).isSome) :
    (o.changeUnit m v f).unitBalance n u =
      o.unitBalance n u + if m = n ∧ v = u then d else 0 := by
  obtain ⟨unit, hunit⟩ := Option.isSome_iff_exists.mp h
  rw [unitBalance, unit?_changeUnit, unitBalance, hunit]
  by_cases hmn : m = n ∧ v = u
  · obtain ⟨rfl, rfl⟩ := hmn
    simp [hf unit hunit]
  · simp [hmn]

@[simp] theorem length_receive : (o.receive m).nodes.length = o.nodes.length := by
  simp [receive, changeNode]

/-- The role of a node tells whether it is a transform. -/
theorem isTransform_of {node : NodeOutline} (hnode : o.nodes[m]? = some node) :
    o.isTransform m = decide (node.kind = .transform) := by
  simp [isTransform, hnode, NodeOutline.isTransform]

/-- What a step adds to the balance of a node, it adds to what threads carry in the node or
to what has ended there. -/
theorem Handles.balance_eq {o' : Outline} {task : Task} {e : Option Nat} {todo : List Task}
    (h : o.Handles task e o' todo) (hlost : ∀ g, o.target? g ≠ some none)
    (hmade : ∀ m payload continuation, task ≠ .event (.make (.node m) payload continuation))
    (hrejected : .dispatched .rejected ∉ todo) (hn : n < o.nodes.length) :
    o'.balance n + [task].countP (Task.carries n (o.isTransform n)) =
      o.balance n + todo.countP (Task.carries n (o.isTransform n)) +
        if o.isTransform n ∧ e = some n then 1 else 0 := by
  cases h with
  | make g payload continuation event =>
    cases g with
    | node m => exact absurd rfl (hmade m payload continuation)
    | trigger t => simp [Task.carries]
  | lose g event hg => exact absurd hg (hlost g)
  | release g event target hg hout =>
    rw [balance_emit _ hn]
    cases g with
    | node m => by_cases hmn : m = n <;> simp [Task.carries, hmn]
    | trigger t => simp [Task.carries]
  | forward g event m hg =>
    rw [balance_emit _ hn]
    cases g with
    | node m => by_cases hmn : m = n <;> simp [Task.carries, hmn]
    | trigger t => simp [Task.carries]
  | leave g => simp [Task.carries]
  | drop m event =>
    rw [balance_drop (by simpa using hn), balance_receive hn]
    by_cases hmn : m = n <;> simp [Task.carries, Task.dispatched, hmn]
  | bypass m event later =>
    rw [balance_receive hn]
    by_cases hmn : m = n <;> simp [Task.carries, Task.dispatched, hmn]
  | accept m u event later =>
    rw [balance_receive hn]
    by_cases hmn : m = n <;> simp [Task.carries, hmn]
  | refuse => simp at hrejected
  | takeInline m u event node unit hnode hunit hsigns =>
    rw [balance_take hn]
    by_cases hmn : m = n
    · subst hmn
      cases hkind : node.kind <;>
        simp [Task.carries, Task.dispatched, onward, isTransform_of hnode, hkind]
    · cases hkind : node.kind <;> simp [Task.carries, Task.dispatched, onward, hmn]
  | takeQueued m u event unit h hsigns =>
    rw [balance_take hn]
    by_cases hmn : m = n <;> simp [Task.carries, hmn]
  | enqueue m u event node unit hnode hunit =>
    rw [balance_enqueue hnode hunit hn]
    by_cases hmn : m = n
    · subst hmn
      cases hkind : node.kind <;>
        simp [Task.carries, Task.dispatched, onward, isTransform_of hnode, hkind]
    · cases hkind : node.kind <;> simp [Task.carries, Task.dispatched, onward, hmn]
  | bounce => simp at hrejected
  | occupy => simp [Task.carries]
  | wait m u event asked =>
    by_cases hmn : m = n <;> cases htransform : o.isTransform n <;> simp [Task.carries, hmn]
  | fail m u event asked =>
    rw [balance_fail hn]
    by_cases hmn : m = n <;> cases htransform : o.isTransform n <;> simp [Task.carries, hmn]
  | digest m u event asked ended node hnode hkind hended =>
    by_cases hmn : m = n
    · subst hmn
      simp [Task.carries, isTransform_of hnode, hkind]
    · obtain rfl | rfl := hended <;> simp [Task.carries, hmn]
  | pass m u event later asked node hnode hkind =>
    by_cases hmn : m = n
    · subst hmn
      simp [Task.carries, isTransform_of hnode, hkind]
    · simp [Task.carries, hmn]
  | stop m u event asked node hnode hkind =>
    by_cases hmn : m = n
    · subst hmn
      simp [Task.carries, isTransform_of hnode, hkind]
    · simp [Task.carries, hmn]
  | settle m u =>
    rw [balance_finish hn]
    simp [Task.carries]
  | receive m u event node unit hnode hunit hwaiting =>
    rw [balance_dequeue hnode hunit hwaiting hn]
    by_cases hmn : m = n <;> cases htransform : o.isTransform n <;> simp [Task.carries, hmn]

/-- A change of a node that touches neither what it sent nor what it received. -/
theorem arrears_changeNode_eq {f : NodeOutline → NodeOutline}
    (htarget : ∀ node, (f node).target = node.target)
    (hemitted : ∀ node, (f node).emitted = node.emitted)
    (hreceived : ∀ node, (f node).received = node.received) (hn : n < o.nodes.length) :
    (o.changeNode m f).arrears n = o.arrears n := by
  rw [arrears_changeNode (d := 0) htarget hemitted hreceived hn]
  simp

theorem arrears_receive (hn : n < o.nodes.length) :
    (o.receive m).arrears n = o.arrears n - if m = n then 1 else 0 :=
  arrears_changeNode (fun _ => rfl) (fun _ => rfl) (fun _ => rfl) hn

theorem arrears_changeUnit (f : UnitOutline → UnitOutline) (hn : n < o.nodes.length) :
    (o.changeUnit m v f).arrears n = o.arrears n :=
  arrears_changeNode_eq (fun _ => rfl) (fun _ => rfl) (fun _ => rfl) hn

theorem arrears_drop (hn : n < o.nodes.length) : (o.drop m).arrears n = o.arrears n :=
  arrears_changeNode_eq (fun _ => rfl) (fun _ => rfl) (fun _ => rfl) hn

theorem arrears_fail (hn : n < o.nodes.length) : (o.fail m).arrears n = o.arrears n :=
  arrears_changeNode_eq (fun _ => rfl) (fun _ => rfl) (fun _ => rfl) hn

/-- What a step adds to what was sent to a node, it adds to what the node received or what
is about to enter it. -/
theorem Handles.arrears_eq {o' : Outline} {task : Task} {e : Option Nat} {todo : List Task}
    (h : o.Handles task e o' todo) (hrejected : .dispatched .rejected ∉ todo)
    (hn : n < o.nodes.length) :
    o'.arrears n + [task].countP (Task.enters n) =
      o.arrears n + todo.countP (Task.enters n) := by
  cases h with
  | make | lose | leave | occupy | wait | digest | pass | stop => simp [Task.enters]
  | release g event target hg hout =>
    rw [arrears_emit hg hn]
    simp [Task.enters, hout n]
  | forward g event m hg =>
    rw [arrears_emit hg hn]
    by_cases hmn : m = n <;> simp [Task.enters, hmn]
  | drop m event =>
    rw [arrears_drop (by simpa using hn), arrears_receive hn]
    by_cases hmn : m = n <;> simp [Task.enters, Task.dispatched, hmn]
  | bypass m event later =>
    rw [arrears_receive hn]
    by_cases hmn : m = n <;> simp [Task.enters, Task.dispatched, hmn]
  | accept m u event later =>
    rw [arrears_receive hn]
    by_cases hmn : m = n <;> simp [Task.enters, hmn]
  | refuse | bounce => simp at hrejected
  | takeInline m u event node unit hnode hunit hsigns =>
    rw [Outline.take, arrears_changeUnit _ hn]
    cases hkind : node.kind <;> simp [Task.enters, Task.dispatched, onward]
  | takeQueued m u event unit h hsigns =>
    rw [Outline.take, arrears_changeUnit _ hn]
    simp [Task.enters]
  | enqueue m u event node unit hnode hunit =>
    rw [Outline.enqueue, arrears_changeUnit _ hn]
    cases hkind : node.kind <;> simp [Task.enters, Task.dispatched, onward]
  | fail m u event asked =>
    rw [arrears_fail hn]
    simp [Task.enters]
  | settle m u =>
    rw [Outline.finish, arrears_changeUnit _ hn]
    simp [Task.enters]
  | receive m u event node unit hnode hunit hwaiting =>
    rw [Outline.dequeue, arrears_changeUnit _ hn]
    simp [Task.enters]

/-- A change of a node that keeps its units keeps their balances. -/
theorem unitBalance_changeNode {f : NodeOutline → NodeOutline}
    (hf : ∀ node, (f node).units = node.units) :
    (o.changeNode m f).unitBalance n u = o.unitBalance n u := by
  rw [unitBalance, unit?_changeNode hf, unitBalance]

theorem unitBalance_take (hu : (o.unit? n u).isSome) :
    (o.take m v).unitBalance n u = o.unitBalance n u + if m = n ∧ v = u then 1 else 0 :=
  unitBalance_changeUnit (fun unit _ => by simp only [UnitOutline.take, UnitOutline.balance]; omega)
    hu

theorem unitBalance_finish (hu : (o.unit? n u).isSome) :
    (o.finish m v).unitBalance n u = o.unitBalance n u + if m = n ∧ v = u then -1 else 0 :=
  unitBalance_changeUnit
    (fun unit _ => by simp only [UnitOutline.finish, UnitOutline.balance]; omega) hu

theorem unitBalance_enqueue (hu : (o.unit? n u).isSome) :
    (o.enqueue m v).unitBalance n u = o.unitBalance n u + if m = n ∧ v = u then -1 else 0 :=
  unitBalance_changeUnit
    (fun unit _ => by simp only [UnitOutline.enqueue, UnitOutline.balance]; omega) hu

theorem unitBalance_dequeue {unit : UnitOutline} (hunit : o.unit? m v = some unit)
    (hwaiting : 0 < unit.waiting) (hu : (o.unit? n u).isSome) :
    (o.dequeue m v).unitBalance n u =
      o.unitBalance n u + if m = n ∧ v = u then 1 else 0 := by
  refine unitBalance_changeUnit (fun unit' hunit' => ?_) hu
  obtain rfl : unit = unit' := by simpa [hunit] using hunit'
  simp only [UnitOutline.dequeue, UnitOutline.balance]
  omega

theorem unitBalance_receive : (o.receive m).unitBalance n u = o.unitBalance n u :=
  unitBalance_changeNode fun _ => rfl

theorem unitBalance_drop : (o.drop m).unitBalance n u = o.unitBalance n u :=
  unitBalance_changeNode fun _ => rfl

theorem unitBalance_fail : (o.fail m).unitBalance n u = o.unitBalance n u :=
  unitBalance_changeNode fun _ => rfl

/-- What a step adds to the balance of a unit, it adds to what threads still hold of it. -/
theorem Handles.unitBalance_eq {o' : Outline} {task : Task} {e : Option Nat}
    {todo : List Task} (h : o.Handles task e o' todo)
    (hrejected : .dispatched .rejected ∉ todo) (hu : (o.unit? n u).isSome) :
    o'.unitBalance n u + [task].countP (Task.holds n u) =
      o.unitBalance n u + todo.countP (Task.holds n u) := by
  cases h with
  | make | lose | leave | occupy | wait | digest | pass | stop => simp [Task.holds]
  | release g | forward g => simp [unitBalance, Task.holds]
  | drop m event =>
    rw [unitBalance_drop, unitBalance_receive]
    simp [Task.holds, Task.dispatched]
  | bypass m event later =>
    rw [unitBalance_receive]
    simp [Task.holds, Task.dispatched]
  | accept m v event later =>
    rw [unitBalance_receive]
    simp [Task.holds]
  | refuse | bounce => simp at hrejected
  | takeInline m v event node unit hnode hunit hsigns =>
    rw [unitBalance_take hu]
    by_cases hmn : m = n ∧ v = u <;> cases hkind : node.kind <;>
      simp [Task.holds, Task.dispatched, onward, hmn]
  | takeQueued m v event unit h hsigns =>
    rw [unitBalance_take hu]
    by_cases hmn : m = n ∧ v = u <;> simp [Task.holds, hmn]
  | enqueue m v event node unit hnode hunit =>
    rw [unitBalance_enqueue hu]
    by_cases hmn : m = n ∧ v = u <;> cases hkind : node.kind <;>
      simp [Task.holds, Task.dispatched, onward, hmn]
  | fail m v event asked =>
    rw [unitBalance_fail]
    simp [Task.holds]
  | settle m v =>
    rw [unitBalance_finish hu]
    by_cases hmn : m = n ∧ v = u <;> simp [Task.holds, hmn]
  | receive m v event node unit hnode hunit hwaiting =>
    rw [unitBalance_dequeue (by simp [unit?, hnode, hunit]) hwaiting hu]
    by_cases hmn : m = n ∧ v = u <;> simp [Task.holds, hmn]

end Outline

/-! ## Steps keep the ledger -/

namespace Ledger

variable {o o' : Outline} {agendas : List (List Task)} {ended : Nat → Nat} {me : Nat}
  {task : Task} {rest todo : List Task}

/-- No step on the way of an event breaks the ledger, unless a unit rejects the event. -/
theorem handles {e : Option Nat} (hl : Ledger o agendas ended)
    (h : o.Handles task e o' todo) (hme : agendas[me]? = some (task :: rest))
    (hlost : ∀ g, o.target? g ≠ some none)
    (hmade : ∀ m payload continuation, task ≠ .event (.make (.node m) payload continuation))
    (hrejected : .dispatched .rejected ∉ todo) :
    Ledger o' (agendas.modify me (todo ++ ·.tail))
      fun n => ended n + if e = some n then 1 else 0 where
  arrivals n hn := by
    have hn' : n < o.nodes.length := by
      rwa [← Outline.length_layout, h.layout_eq, Outline.length_layout] at hn
    have hload := load_step hme todo (Task.enters n)
    have harrears := h.arrears_eq hrejected hn'
    have := hl.arrivals n hn'
    omega
  passage n hn := by
    have hn' : n < o.nodes.length := by
      rwa [← Outline.length_layout, h.layout_eq, Outline.length_layout] at hn
    have htransform : o'.isTransform n = o.isTransform n := by
      rw [Outline.isTransform_eq, h.layout_eq, ← Outline.isTransform_eq]
    have hload := load_step hme todo (Task.carries n (o.isTransform n))
    have hbalance := h.balance_eq hlost hmade hrejected hn'
    have := hl.passage n hn'
    rw [htransform]
    cases htransform : o.isTransform n with
    | true =>
      simp only [htransform, true_and, if_true] at *
      by_cases he : e = some n <;> simp only [he, if_true, if_false] at * <;> omega
    | false =>
      simp only [htransform, Bool.false_eq_true, false_and, if_false] at *
      omega
  units n u hu := by
    rw [Outline.unit?_isSome, h.layout_eq, ← Outline.unit?_isSome] at hu
    have hload := load_step hme todo (Task.holds n u)
    have hbalance := h.unitBalance_eq hrejected hu
    have := hl.units n u hu
    omega

/-- The ledger only depends on the load. -/
theorem congr_load {agendas' : List (List Task)} (hl : Ledger o agendas ended)
    (henters : ∀ n, load agendas' (Task.enters n) = load agendas (Task.enters n))
    (hholds : ∀ n u, load agendas' (Task.holds n u) = load agendas (Task.holds n u))
    (hcarries : ∀ n transform,
      load agendas' (Task.carries n transform) = load agendas (Task.carries n transform)) :
    Ledger o agendas' ended where
  arrivals n hn := by rw [henters]; exact hl.arrivals n hn
  passage n hn := by rw [hcarries]; exact hl.passage n hn
  units n u hu := by rw [hholds]; exact hl.units n u hu

/-- Tasks that carry no events can be replaced. -/
theorem light {agenda : List Task} (hl : Ledger o agendas ended)
    (hme : agendas[me]? = some agenda) (f : List Task → List Task)
    (hagenda : ∀ task ∈ agenda, task.IsLight) (hf : ∀ task ∈ f agenda, task.IsLight) :
    Ledger o (agendas.modify me f) ended := by
  have hcount {p : Task → Bool} {tasks : List Task} (h : ∀ task ∈ tasks, p task = false) :
      tasks.countP p = 0 := by
    rw [List.countP_eq_zero]
    intro task htask
    simp [h task htask]
  refine hl.congr_load (fun n => ?_) (fun n u => ?_) fun n transform => ?_
  · have hload := load_modify hme f (Task.enters n)
    rw [hcount fun task htask => (hagenda task htask).1 n,
      hcount fun task htask => (hf task htask).1 n] at hload
    exact hload
  · have hload := load_modify hme f (Task.holds n u)
    rw [hcount fun task htask => (hagenda task htask).2.1 n u,
      hcount fun task htask => (hf task htask).2.1 n u] at hload
    exact hload
  · have hload := load_modify hme f (Task.carries n transform)
    rw [hcount fun task htask => (hagenda task htask).2.2 n transform,
      hcount fun task htask => (hf task htask).2.2 n transform] at hload
    exact hload

/-- Threads that carry no events can be added. -/
theorem spawn {agenda : List Task} (hl : Ledger o agendas ended)
    (hagenda : ∀ task ∈ agenda, task.IsLight) : Ledger o (agendas ++ [agenda]) ended := by
  have hcount {p : Task → Bool} (h : ∀ task ∈ agenda, p task = false) :
      load [agenda] p = 0 := by
    simp only [load, List.map_cons, List.map_nil, List.sum_cons, List.sum_nil, Nat.add_zero,
      List.countP_eq_zero]
    intro task htask
    simp [h task htask]
  refine hl.congr_load (fun n => ?_) (fun n u => ?_) fun n transform => ?_
  · rw [load_append, hcount fun task htask => (hagenda task htask).1 n, Nat.add_zero]
  · rw [load_append, hcount fun task htask => (hagenda task htask).2.1 n u, Nat.add_zero]
  · rw [load_append, hcount fun task htask => (hagenda task htask).2.2 n transform,
      Nat.add_zero]

/-- Signs are not in the ledger. -/
theorem sign (hl : Ledger o agendas ended) (n u : Nat) {f : Signs → Signs}
    (hf : ∀ signs, (f signs).queued = signs.queued) :
    Ledger (o.sign n u f) agendas ended where
  arrivals m hm := by
    rw [← Outline.length_layout, Outline.layout_sign hf, Outline.length_layout] at hm
    rw [Outline.sign, Outline.arrears_changeUnit _ hm]
    exact hl.arrivals m hm
  passage m hm := by
    rw [← Outline.length_layout, Outline.layout_sign hf, Outline.length_layout] at hm
    have htransform : (o.sign n u f).isTransform m = o.isTransform m := by
      rw [Outline.isTransform_eq, Outline.layout_sign hf, ← Outline.isTransform_eq]
    rw [htransform, Outline.sign,
      Outline.balance_changeUnit_eq (f := fun unit => { unit with signs := f unit.signs })
        (fun _ => rfl) hm]
    exact hl.passage m hm
  units m v hv := by
    rw [Outline.unit?_isSome, Outline.layout_sign hf, ← Outline.unit?_isSome] at hv
    rw [Outline.sign, Outline.unitBalance_changeUnit (d := 0)
      (fun unit _ => by simp [UnitOutline.balance]) hv]
    simpa using hl.units m v hv

/-- Sources are not in the ledger. -/
theorem changeSource (hl : Ledger o agendas ended) (t v : Nat)
    (f : SourceOutline → SourceOutline) : Ledger (o.changeSource t v f) agendas ended where
  arrivals m hm := by
    have hsent : (o.changeSource t v f).sentTo m = o.sentTo m := by
      have htriggers : (o.triggers.modify t fun trigger =>
          { trigger with sources := trigger.sources.modify v f }).map
            (fun trigger => sentTo m trigger.target trigger.emitted) =
          o.triggers.map fun trigger => sentTo m trigger.target trigger.emitted :=
        map_modify_eq fun _ _ => rfl
      simp only [Outline.sentTo, Outline.changeSource, Outline.changeTrigger, htriggers]
    rw [Outline.arrears, hsent]
    exact hl.arrivals m hm
  passage m hm := hl.passage m hm
  units m v hv := hl.units m v hv

end Ledger
end EventPipeline
