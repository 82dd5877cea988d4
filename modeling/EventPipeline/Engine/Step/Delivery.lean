import EventPipeline.Engine.World

/-!
# `EventPipeline.Engine.Step.Delivery`: events on their way through nodes

A gate lets one thread at a time into its target. A node counts an event, asks its filter,
and offers the event to the unit whose turn it is; a sink also hands on the event as it
came.
-/

set_option autoImplicit false

namespace EventPipeline.World

variable {P : Plugins}

/-- Hands an event to the target of a gate, as soon as no other thread is inside. -/
def emit (w : World P) (g : GateId) (event : Event) : Option (Progress P) := do
  let gate ← w.gate? g
  if gate.occupied then none
  else
    match gate.target with
    | none =>
      ((w.note (.emitTargetMissing gate.name)).tell event
        (.failed (.emitNotRegistered gate.name))).done
    | some .tail => ((w.changeGate g Gate.count).tell event .completed).done
    | some (.output completes) =>
      let w := { w with output := w.output ++ [event] }.changeGate g Gate.count
      (if completes then w.tell event .completed else w).done
    | some (.node n) =>
      (w.changeGate g fun gate => { gate.count with occupied := true }).andThen
        [.event (.enter n event), .event (.leave g)]

/-- Brings an event to a node, which decides what to do with it. -/
def enter (w : World P) (n : Nat) (event : Event) : Option (Progress P) := do
  let node ← w.nodes[n]?
  let w := w.changeNode n fun node => { node with received := node.received + 1 }
  let event := { event with hops := event.hops + 1 }
  let drop (w : World P) (reason : String) : Option (Progress P) :=
    ((w.changeNode n fun node => { node with dropped := node.dropped + 1 }).tell event
      (.stopped reason)).andThen [.dispatched .dropped]
  let (verdict, messages) := node.judge event.payload
  let w := w.logAll messages
  match verdict with
  | .error error =>
    drop (w.note (.filterFailed node.name event.correlation error))
      s!"filter of '{node.name}' failed: {error.message}"
  | .ok .drop =>
    drop (w.note (.eventDropped node.name event.correlation))
      s!"dropped by filter of '{node.name}'"
  | .ok .continue_ => w.andThen [.event (.emit (.node n) event), .dispatched .bypassed]
  | .ok .accept =>
    (w.changeNode n fun node => { node with accepted := node.accepted + 1 }).andThen
      [.event (.offer n (node.accepted % node.units.length) event)]

/-- What follows when a unit has taken an event: a sink hands on the event as it came. -/
def accepted (node : Node P) (n : Nat) (event : Event) : List Task :=
  (if node.kind = .sink then [.event (.emit (.node n) event)] else [])
    ++ [.dispatched .submitted]

/-- What follows when a unit does not take an event. -/
def reject (w : World P) (n : Nat) (node : Node P) (unit : ExecutionUnit P) :
    Option (Progress P) :=
  ((w.changeNode n fun node => { node with failed := node.failed + 1 }).note
    (.submitRejected node.name unit.notReady)).andThen [.dispatched .rejected]

/-- Offers an event to a unit of a node. -/
def offer (w : World P) (n u : Nat) (event : Event) : Option (Progress P) := do
  let node ← w.nodes[n]?
  let unit ← node.units[u]?
  match unit.offer with
  | .refused => w.reject n node unit
  | .inline unit =>
    (w.changeUnit n u fun _ => unit).andThen
      ([.event (.occupy n u), .event (.process n u event false), .event (.settle n u)]
        ++ accepted node n event)
  | .queued unit => (w.changeUnit n u fun _ => unit).andThen [.event (.send n u event)]

/-- Puts an event into the queue of a unit of a node. -/
def send (w : World P) (n u : Nat) (event : Event) : Option (Progress P) := do
  let node ← w.nodes[n]?
  let unit ← node.units[u]?
  let (taken, unit) := unit.send event
  let w := w.changeUnit n u fun _ => unit
  if taken then w.andThen (accepted node n event) else w.reject n node unit

/-- Enters the processor of an inline unit, as soon as no other thread is inside. -/
def occupy (w : World P) (n u : Nat) : Option (Progress P) := do
  let unit ← w.unit? n u
  match unit.state with
  | .inline state =>
    if state.occupied then none
    else (w.changeUnit n u (·.changeInline fun s => { s with occupied := true })).done
  | .queued _ => w.done

/-- An event has failed in a unit of a node. -/
def fail (w : World P) (n : Nat) (unit : String) (event : Event) (error : NodeError) :
    Option (Progress P) :=
  (((w.changeNode n fun node => { node with failed := node.failed + 1 }).note
    (.processingFailed unit event.correlation error)).tell event (.failed error)).done

/-- Has an event processed, and sends it where the processor decides. What a sink decides
does not count. -/
def process (w : World P) (n u : Nat) (event : Event) (asked : Bool) :
    Option (Progress P) := do
  let node ← w.nodes[n]?
  let unit ← node.units[u]?
  let (reply, called) ← w.callProcessor n u (P.processor.process asked event.payload)
  match reply, node.kind with
  | .waiting _, _ =>
    if asked then none else called.andThen [.event (.process n u event true)]
  | .failed error, _ => called.fail n unit.name event error
  | .panicked text, _ => called.fail n unit.name event (.panicked unit.name (panicText text))
  | .returned _, .sink => called.done
  | .returned .pass, .transform => called.andThen [.event (.emit (.node n) event)]
  | .returned (.update payload), .transform =>
    called.andThen [.event (.emit (.node n) { event with payload })]
  | .returned (.stop reason), .transform => (called.tell event (.stopped reason)).done

/-- Counts an event that a unit is done with, and leaves its processor. -/
def settle (w : World P) (n u : Nat) : Option (Progress P) :=
  (w.changeUnit n u fun unit =>
    unit.finish.changeInline fun s => { s with occupied := false }).done

/-- Does a task on the way of an event. -/
def performEvent (w : World P) : EventTask → Option (Progress P)
  | .make g payload continuation => do
    let gate ← w.gate? g
    let (event, gate) := gate.fresh payload continuation
    (w.changeGate g fun _ => gate).andThen [.event (.emit g event)]
  | .emit g event => w.emit g event
  | .leave g => (w.changeGate g fun gate => { gate with occupied := false }).done
  | .enter n event => w.enter n event
  | .offer n u event => w.offer n u event
  | .send n u event => w.send n u event
  | .occupy n u => w.occupy n u
  | .process n u event asked => w.process n u event asked
  | .settle n u => w.settle n u

end EventPipeline.World
