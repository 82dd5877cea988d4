import EventPipeline.Rules.Data
import EventPipeline.Rules.Ruler

/-!
# `EventPipeline.Engine.Filter`: which events a node processes

A filter is one rule set over the payload of an event. The actions of its rules are the
constants `CONTINUE`, `ACCEPT` and `DROP`; without a match an event is accepted.
-/

set_option autoImplicit false

namespace EventPipeline

open Rules

/-- What a node does with an event: pass it on untouched, process it, or drop it. -/
inductive FilterVerdict where
  | continue_ | accept | drop
deriving DecidableEq, Repr

/-- A compiled filter with the actions that its rules can call. -/
structure Filter where
  ruler : Ruler
  actions : Actions

namespace Filter

/-- The name of the one rule set of a filter. -/
def ruleSet : String := "local"

/-- The constants that a filter binds, with the verdicts they stand for. -/
def constants : List (String × Int64 × FilterVerdict) :=
  [("CONTINUE", 0, .continue_), ("ACCEPT", 1, .accept), ("DROP", -1, .drop)]

/-- Compiles the rules of a filter. -/
def compile (lines : List String) : Except RulerError (Filter × Message) := do
  let (ruler, actions) := Ruler.new {}
  let ruler ← constants.foldlM (fun ruler constant =>
    ruler.bind constant.1 (.int constant.2.1)) ruler
  let (ruler, message) ← ruler.registerRuleSet ruleSet lines
  return ({ ruler, actions }, message)

/-- The verdict that a value stands for. -/
def verdict? (value : Value) : Option FilterVerdict :=
  match value with
  | .int n => (constants.find? fun constant => constant.2.1 == n).map (·.2.2)
  | _ => none

/-- Decides about a payload, and reports the jumps on the way. -/
def decide (filter : Filter) (payload : Json) :
    Except NodeError FilterVerdict × List Message :=
  let search := filter.ruler.entry Actions.call ruleSet [("payload", .ofJson payload)]
  let (result, _, messages) := search.runFrom filter.actions
  let verdict : Except NodeError FilterVerdict :=
    match result with
    | .error e => .error (.filter e)
    | .ok .noMatch => .ok .accept
    | .ok (.matched value _) =>
      match verdict? value with
      | some verdict => .ok verdict
      | none => .error (.invalidFilterResult value.text)
  (verdict, messages)

end Filter
end EventPipeline
