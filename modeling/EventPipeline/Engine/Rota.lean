import EventPipeline.Engine.Record

/-!
# `EventPipeline.Engine.Rota`: the units of a node take turns

A node deals the events that its filter accepts out to its units: the first event to the first
unit, the next one to the next, and after the last unit it begins anew. An event that the filter
drops or lets by takes nobody's turn. `turnOf` says which events fall to a unit, and
`World.DealsInTurn` that the units of a node have served them so far.

What happens on a course is read off the tasks that are done on it: a node accepts an event when
it brings it to a unit, and a unit processes an event when the hook of its processor is called.
-/

set_option autoImplicit false

namespace EventPipeline

/-- What falls to one of so many who take turns. -/
def turnOf {α : Type} (count u : Nat) (items : List α) : List α :=
  (items.zipIdx.filter fun item => item.2 % count = u).map (·.1)

/-- The node one of whose units is given an event that the node has accepted. -/
def Task.delivers? : Task → Option Nat
  | .event (.offer n _ _) | .event (.send n _ _) => some n
  | _ => none

/-- The event that a unit begins to process. -/
def Task.begins? (n u : Nat) : Task → Option Event
  | .event (.process m i begun false) => if m = n ∧ i = u then some begun else none
  | _ => none

/-- The node to which a task brings an event. -/
def Task.enters? : Task → Option Nat
  | .event (.enter n _) => some n
  | _ => none

/-- The node of which a task stops a unit. -/
def Task.stops? : Task → Option Nat
  | .unit (.stopUnit n _) => some n
  | _ => none

namespace World

variable {P : Plugins}

/-- The task that is done with a move. -/
def taskOf (w : World P) : Move P → Option Task
  | .step me => (w.threads[me]?).bind (·.agenda.head?)
  | .pass _ | .outside _ => none

/-- What the tasks show that are done on a course, one after the other. -/
def along {α : Type} (shows? : World P → Task → Option α) : World P → List (Move P) → List α
  | _, [] => []
  | w, move :: moves =>
    ((w.taskOf move).bind (shows? w)).toList ++
      (w.move move).elim [] fun w => along shows? w moves

/-- Whenever a task is done on a course, it is done in such a world. -/
def Throughout (p : World P → Task → Prop) : World P → List (Move P) → Prop
  | _, [] => True
  | w, move :: moves =>
    (∀ task ∈ w.taskOf move, p w task) ∧ ∀ v ∈ w.move move, Throughout p v moves

instance decidableThroughout {p : World P → Task → Prop} [∀ w task, Decidable (p w task)] :
    ∀ (w : World P) (moves : List (Move P)), Decidable (Throughout p w moves)
  | _, [] => .isTrue trivial
  | w, move :: moves =>
    have : ∀ v, Decidable (Throughout p v moves) := fun v => decidableThroughout v moves
    inferInstanceAs (Decidable ((∀ task ∈ w.taskOf move, p w task) ∧
      ∀ v ∈ w.move move, Throughout p v moves))

/-- The event that a node accepts, as its units get it. -/
def accepts? (n : Nat) (w : World P) : Task → Option Event
  | .event (.enter m event) =>
    if m = n then
      (w.nodes[n]?).bind fun node =>
        match (node.judge event.payload).1 with
        | .ok .accept => some { event with hops := event.hops + 1 }
        | _ => none
    else none
  | _ => none

/-- The events that a node accepts on a course. -/
def acceptedBy (n : Nat) : World P → List (Move P) → List Event :=
  along (accepts? n)

/-- The events that a unit of a node begins to process on a course. -/
def processedBy (n u : Nat) : World P → List (Move P) → List Event :=
  along fun _ => Task.begins? n u

/-- An event that the node has accepted is on its way to one of its units. -/
def IsDelivering (w : World P) (n : Nat) : Prop :=
  ∃ thread ∈ w.threads, ∃ task ∈ thread.agenda, task.delivers? = some n

instance (w : World P) (n : Nat) : Decidable (w.IsDelivering n) :=
  inferInstanceAs
    (Decidable (∃ thread ∈ w.threads, ∃ task ∈ thread.agenda, task.delivers? = some n))

/-- The events come to the node one at a time: none is brought to it while another one is on its
way to a unit. -/
def OneAtATime (n : Nat) : World P → List (Move P) → Prop :=
  Throughout fun w task => task.enters? = some n → ¬ w.IsDelivering n

/-- No unit of the node is stopped on the course. -/
def StaysOn (n : Nat) : World P → List (Move P) → Prop :=
  Throughout fun _ task => task.stops? ≠ some n

/-- No event comes to the node on the course. -/
def StaysUnasked (n : Nat) : World P → List (Move P) → Prop :=
  Throughout fun _ task => task.enters? ≠ some n

instance (n : Nat) (w : World P) (moves : List (Move P)) : Decidable (w.OneAtATime n moves) :=
  inferInstanceAs (Decidable (Throughout _ w moves))

instance (n : Nat) (w : World P) (moves : List (Move P)) : Decidable (w.StaysOn n moves) :=
  inferInstanceAs (Decidable (Throughout _ w moves))

instance (n : Nat) (w : World P) (moves : List (Move P)) : Decidable (w.StaysUnasked n moves) :=
  inferInstanceAs (Decidable (Throughout _ w moves))

/-- On the course a thread starts a node, with which it is about to begin, and it is told in the
end that the node has started. -/
structure StartsNode (w : World P) (me n : Nat) (later : List Task) (moves : List (Move P))
    (v : World P) : Prop where
  begins : w.IsBack me (.unit (.startNode n) :: later)
  course : w.follow moves = some v
  away : StaysAway me later w moves
  back : v.IsBack me later
  answer : v.answerOf me = .ok

/-- The worker of a unit comes back to the queue, whatever becomes of the event that it is busy
with; and when it waits for the next event it can take one, if there is one `left` for it. -/
structure GoesOn (w : World P) (k n u : Nat) (left : Prop) : Prop where
  agenda : ∃ thread, w.threads[k]? = some thread ∧
    (thread.agenda = [.unit (.checkDismissed n u)] ∨
      thread.agenda.getLast? = some (.unit (.receive n u)))
  step : w.IsBack k [.unit (.receive n u)] → left → (w.step k).isSome = true

/-- A unit of a node serves the events whose turn it is: it has processed the first ones of them,
in the order in which they came and each of them once. -/
structure Serves (w : World P) (n u : Nat) (unit : ExecutionUnit P)
    (turn processed : List Event) : Prop where
  order : processed <+: turn
  received : ¬ w.IsDelivering n → unit.stats.received = turn.length
  complete : ¬ w.IsDelivering n → unit.stats.inFlight = 0 → processed = turn
  worker : ∃ k, w.GoesOn k n u (¬ w.IsDelivering n ∧ processed ≠ turn)

/-- The events that a node has accepted fall to its units in turn, and each unit serves its own: the
event that it processes as number `j` is the one that the node has accepted as number
`j * count + u`, both counted from zero. Once all of them are with their units, no unit has received
two more than another, and together they have received all. -/
structure DealsInTurn (w : World P) (n : Nat) (node : Node P) (accepted : List Event)
    (processed : Nat → List Event) : Prop where
  serves : ∀ u unit, node.units[u]? = some unit →
    w.Serves n u unit (turnOf node.units.length u accepted) (processed u)
  number : ∀ u < node.units.length, ∀ (j : Nat) (event : Event), (processed u)[j]? = some event →
    accepted[j * node.units.length + u]? = some event
  nobodyElse : ∀ u, node.units.length ≤ u → processed u = []
  balanced : ¬ w.IsDelivering n → ∀ unit ∈ node.units, ∀ other ∈ node.units,
    unit.stats.received ≤ other.stats.received + 1
  sum : ¬ w.IsDelivering n → (node.units.map (·.stats.received)).sum = accepted.length

end World
end EventPipeline
