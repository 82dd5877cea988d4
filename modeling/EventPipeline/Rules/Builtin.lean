import EventPipeline.Network.Ipv4
import EventPipeline.Pattern.Reader
import EventPipeline.Rules.Evaluator

/-!
# `EventPipeline.Rules.Builtin`: the built-in actions

Each is a function from its arguments to a value or an error; none of them keeps state.
-/

set_option autoImplicit false

namespace EventPipeline.Rules

/-- The built-in actions. -/
inductive Builtin where
  | exist | reMatch | numInRange | ipInNet | goto
deriving DecidableEq, Repr

namespace Builtin

/-- Every built-in action, in the order in which they are bound. -/
def all : List Builtin :=
  [exist, reMatch, numInRange, ipInNet, goto]

/-- The name of a built-in action. -/
def name : Builtin → String
  | exist => "exist"
  | reMatch => "re_match"
  | numInRange => "num_in_range"
  | ipInNet => "ip_in_net"
  | goto => "goto"

/-- A failure of the action. -/
def fail {α : Type} (b : Builtin) (reason : String) : Except EvalError α :=
  .error (.action b.name reason)

/-- The wrong number of arguments. -/
def arityError {α : Type} (b : Builtin) (expected given : Nat) : Except EvalError α :=
  b.fail s!"expects {expected} argument(s), got {given}"

/-- The text of the pattern that `re_match` looks for: the given pattern, anchored at the
start of the subject. -/
def anchored (pattern : String) : String :=
  "^(?:" ++ pattern ++ ")"

/-- Matches a pattern at the start of a subject. A text that is no pattern is an error. -/
def matchAnchored (pattern subject : String) : Except EvalError Bool :=
  match Pattern.read? (anchored pattern) with
  | some p => .ok (p.matchesSomewhere subject)
  | none => reMatch.fail "regex parse error"

/-- Tells whether an address lies in a network. -/
def addressInNetwork (ip net : String) : Except EvalError Bool :=
  match Network.Ipv4.parse? ip.toList with
  | none => ipInNet.fail s!"'{ip}' is not an IPv4 address"
  | some address =>
    match Network.Cidr.parse? net.toList with
    | none => ipInNet.fail s!"'{net}' is not an a.b.c.d/len network"
    | some network => .ok (network.contains address)

/-- What a built-in action answers to its arguments. -/
def run (b : Builtin) (args : List Value) : Except EvalError Value :=
  match b with
  | exist =>
    match args with
    | [v] => .ok (.bool v.isTruthy)
    | _ => b.arityError 1 args.length
  | reMatch =>
    match args with
    | [.str pattern, .str subject] => (matchAnchored pattern subject).map .bool
    | [_, _] => .ok (.bool false)
    | _ => b.arityError 2 args.length
  | numInRange =>
    match args with
    | [v, low, high] =>
      match v.asFloat?, low.asFloat?, high.asFloat? with
      | some x, some lo, some hi => .ok (.bool (lo ≤ x && x ≤ hi))
      | _, _, _ => b.fail "all arguments must be numeric"
    | _ => b.arityError 3 args.length
  | ipInNet =>
    match args with
    | [.str ip, .str net] => (addressInNetwork ip net).map .bool
    | [_, _] => b.fail "arguments must be strings"
    | _ => b.arityError 2 args.length
  | goto =>
    match args with
    | [.str target] => .ok (.goto target)
    | [other] => b.fail s!"target must be a string, got {other.typeName}"
    | _ => b.arityError 1 args.length

end Builtin

/-- What an action does: given how many times it has been called, this call included, and
the arguments, it answers with a value or an error. -/
abbrev Routine := Nat → List Value → Except EvalError Value

/-- The actions that exist, by serial number, with the number of their calls so far. -/
structure Actions where
  routines : Array (Routine × Nat) := #[]

namespace Actions

/-- Makes a new action. -/
def create (actions : Actions) (name : String) (routine : Routine) : Action × Actions :=
  ({ serial := actions.routines.size, name := name },
   { routines := actions.routines.push (routine, 0) })

/-- Calls an action and counts the call. -/
def call : Caller Actions := fun action args => ExceptT.mk fun actions =>
  match actions.routines[action.serial]? with
  | none => (.error (.unknownCallee action.name), actions)
  | some (routine, calls) =>
    (routine (calls + 1) args,
     { routines := actions.routines.setIfInBounds action.serial (routine, calls + 1) })

/-- A new action that does what a built-in one does. -/
def createBuiltin (actions : Actions) (b : Builtin) : Action × Actions :=
  actions.create b.name fun _ => b.run

/-- The global scope that binds every built-in action to its name. -/
def builtinScope (actions : Actions) : Scope × Actions :=
  Builtin.all.foldl (fun (scope, actions) b =>
    let (action, actions) := actions.createBuiltin b
    (scope.put b.name (.action action), actions)) ([], actions)

end Actions
end EventPipeline.Rules
