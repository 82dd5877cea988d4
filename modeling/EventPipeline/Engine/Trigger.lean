import EventPipeline.Engine.Gate
import EventPipeline.Plugin.Registry

/-!
# `EventPipeline.Engine.Trigger`: the triggers of a stream

A trigger has sources that run side by side, each on a thread of its own. They share a
gate, so that the numbers of the events are the trigger's own.
-/

set_option autoImplicit false

namespace EventPipeline

/-- How far one launch of a source has come. -/
inductive LaunchPhase where
  | pending
  | started
  /-- who launched the source has given up, and it must not run -/
  | dismissed
deriving DecidableEq, Repr

/-- One launch of a source. -/
structure Launch where
  /-- what the source said about its readiness -/
  ready : Option (Except NodeError Unit) := none
  phase : LaunchPhase := .pending
  /-- who launched the source still waits for it -/
  awaited : Bool := true

/-- A unit of a trigger, with the source that it owns. -/
structure SourceUnit (P : Plugins) where
  name : String
  source : P.Source
  running : Bool := false
  /-- the thread on which the source runs -/
  worker : Option Nat := none

/-- A trigger. -/
structure Trigger (P : Plugins) where
  name : String
  gate : Gate
  units : List (SourceUnit P)
  initWithin : Duration

namespace Trigger

variable {P : Plugins}

/-- What the trigger has counted. -/
def stats (trigger : Trigger P) : TriggerStats :=
  { emitted := trigger.gate.emitted }

/-- Makes so many units, numbered from `number`, each with a source of its own. -/
def buildUnits (name : String) (make : P.Shared → Made P.Shared NodeError P.Source) :
    Nat → Nat → P.Shared → Made P.Shared NodeError (List (SourceUnit P))
  | 0, _, shared => { reply := .returned [], shared }
  | count + 1, number, shared =>
    (make shared).andThen fun source shared =>
      (buildUnits name make count (number + 1) shared).andThen fun units shared =>
        { reply := .returned ({ name := s!"{name}-unit{number}", source } :: units), shared }

/-- Makes a trigger; it has at least one source. -/
def build (name : String) (poolSize : Nat) (initWithin : Duration)
    (make : P.Shared → Made P.Shared NodeError P.Source) (shared : P.Shared) :
    Made P.Shared NodeError (Trigger P) :=
  (buildUnits name make (max poolSize 1) 1 shared).andThen fun units shared =>
    { reply := .returned { name, gate := { name }, units, initWithin }, shared }

end Trigger
end EventPipeline
