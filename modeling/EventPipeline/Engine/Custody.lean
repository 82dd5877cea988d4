import EventPipeline.Engine.Rota

/-!
# `EventPipeline.Engine.Custody`: what a transform does with its events

A transform has an event from when it is brought to the node (`Task.takes?`) until the node parts
with it (`World.partsWith?`): the event goes on to the gate of the node, its fate is told, or a
unit rejects it, of which nobody is told. In between the event is inside the node
(`World.inside`): it waits in the queue of a unit, or some thread has it in hand, to offer it to a
unit, to put it into a queue or to have it processed.
-/

set_option autoImplicit false

namespace EventPipeline

/-- How a transform parts with an event. -/
inductive Parting where
  /-- the event goes on to the gate of the node, with this payload -/
  | onward (payload : Json)
  /-- its fate is told -/
  | told (fate : Fate)
  /-- a unit rejects it, and nobody is told -/
  | rejected

/-- The event that is brought to a node with a task, as the node has it. -/
def Task.takes? (n : Nat) : Task → Option Event
  | .event (.enter m brought) =>
    if m = n then some { brought with hops := brought.hops + 1 } else none
  | _ => none

/-- The event of a node that a task has in hand. -/
def Task.carried? (n : Nat) : Task → Option Event
  | .event (.offer m _ held) | .event (.send m _ held) | .event (.process m _ held _) =>
    if m = n then some held else none
  | _ => none

/-- How a transform parts with an event that the processor of one of its units was called with. -/
def Parting.ofReply (unit : String) (payload : Json) : Reply NodeError Outcome → Option Parting
  | .waiting _ => none
  | .returned .pass => some (.onward payload)
  | .returned (.update payload) => some (.onward payload)
  | .returned (.stop reason) => some (.told (.stopped reason))
  | .failed error => some (.told (.failed error))
  | .panicked text => some (.told (.failed (.panicked unit (panicText text))))

/-- How a transform parts with an event about which its filter has decided, unless it is
accepted. -/
def Parting.ofVerdict (node : String) (payload : Json) :
    Except NodeError FilterVerdict → Option Parting
  | .ok .accept => none
  | .ok .continue_ => some (.onward payload)
  | .ok .drop => some (.told (.stopped s!"dropped by filter of '{node}'"))
  | .error error => some (.told (.stopped s!"filter of '{node}' failed: {error.message}"))

namespace World

variable {P : Plugins}

/-- The event that a transform parts with when a task is done, and how. -/
def partsWith? (n : Nat) (w : World P) : Task → Option (Event × Parting)
  | .event (.enter m event) =>
    if m = n then
      (w.nodes[n]?).bind fun node =>
        (Parting.ofVerdict node.name event.payload (node.judge event.payload).1).map
          ({ event with hops := event.hops + 1 }, ·)
    else none
  | .event (.offer m u event) =>
    if m = n then
      (w.unit? n u).bind fun unit =>
        match unit.offer with
        | .refused => some (event, .rejected)
        | _ => none
    else none
  | .event (.send m u event) =>
    if m = n then
      (w.unit? n u).bind fun unit => if (unit.send event).1 then none else some (event, .rejected)
    else none
  | .event (.process m u event asked) =>
    if m = n then
      (w.unit? n u).bind fun unit =>
        (Parting.ofReply unit.name event.payload
          (P.processor.process asked event.payload unit.processor w.shared).reply).map (event, ·)
    else none
  | _ => none

/-- What waits in the queues of the units of a node. -/
def queues (w : World P) (n : Nat) : List (List Event) :=
  (w.nodes[n]?).elim [] fun node => node.units.map (·.state.queue)

/-- The events that are inside a node: some thread has them in hand, or they wait in a queue. -/
def inside (w : World P) (n : Nat) : List Event :=
  w.threads.flatMap (·.agenda.filterMap (Task.carried? n)) ++ (w.queues n).flatten

/-- The events that are brought to a node on a course. -/
def takenBy (n : Nat) : World P → List (Move P) → List Event :=
  along fun _ => Task.takes? n

/-- The events that a transform parts with on a course, and how it does. -/
def partedBy (n : Nat) : World P → List (Move P) → List (Event × Parting) :=
  along (partsWith? n)

end World
end EventPipeline
