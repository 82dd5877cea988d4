import EventPipeline.Rules.Error
import EventPipeline.Rules.Token
import EventPipeline.Rules.Value

/-!
# `EventPipeline.Rules.Operation`: what the operators do to values

Integer arithmetic is exact or an overflow. As soon as one operand is a floating-point
number, arithmetic and comparison are those of floating-point numbers. A `goto` value is
no operand of any operator.
-/

set_option autoImplicit false

namespace EventPipeline.Rules

/-- The operands do not fit the operator. -/
def mismatch (op : Op) (left right : Value) : EvalError :=
  .typeMismatch op.symbol left.typeName right.typeName

/-- An exact integer result, or an overflow if it does not fit 64 bits. -/
def fitInteger (op : Op) (n : Int) : Except EvalError Value :=
  if -2 ^ 63 ≤ n ∧ n < 2 ^ 63 then .ok (.int (Int64.ofInt n)) else .error (.overflow op.symbol)

/-- Arithmetic on integers. Division goes toward zero. -/
def integerArithmetic (op : Op) (a b : Int) : Except EvalError Value :=
  match op with
  | .add => fitInteger op (a + b)
  | .sub => fitInteger op (a - b)
  | .mul => fitInteger op (a * b)
  | .div => if b = 0 then .error .divisionByZero else fitInteger op (a.tdiv b)
  | _ => .error (.unknownOperator op.symbol)

/-- Arithmetic on floating-point numbers. Only division by zero is an error. -/
def floatArithmetic (op : Op) (a b : Float) : Except EvalError Value :=
  match op with
  | .add => .ok (.float (a + b))
  | .sub => .ok (.float (a - b))
  | .mul => .ok (.float (a * b))
  | .div => if b == 0.0 then .error .divisionByZero else .ok (.float (a / b))
  | _ => .error (.unknownOperator op.symbol)

/-- Arithmetic on two numbers, exact if both are integers. -/
def arithmetic (op : Op) (left right : Value) : Except EvalError Value :=
  match left, right with
  | .int a, .int b => integerArithmetic op a.toInt b.toInt
  | _, _ =>
    match left.asFloat?, right.asFloat? with
    | some a, some b => floatArithmetic op a b
    | _, _ => .error (mismatch op left right)

/-- The order of two floating-point numbers, none if one of them is no number. -/
def compareFloats? (a b : Float) : Option Ordering :=
  if a < b then some .lt else if a == b then some .eq else if b < a then some .gt else none

/-- The order of two values of one type, or of two numbers. -/
def compareValues (op : Op) (left right : Value) : Except EvalError Ordering :=
  match left, right with
  | .int a, .int b => .ok (compare a.toInt b.toInt)
  | .str a, .str b => .ok (compare a b)
  | .bool a, .bool b => .ok (compare a b)
  | _, _ =>
    match left.asFloat?, right.asFloat? with
    | some a, some b =>
      match compareFloats? a b with
      | some order => .ok order
      | none => .error (mismatch op left right)
    | _, _ => .error (mismatch op left right)

/-- The characters of `part` occur one after another somewhere in `whole`. -/
def occursIn (part whole : List Char) : Bool :=
  match whole with
  | [] => part.isEmpty
  | c :: rest => part.isPrefixOf (c :: rest) || occursIn part rest

/-- Membership in a list, among the keys of a map, or as a part of a string. -/
def membership (item container : Value) : Except EvalError Bool :=
  match item, container with
  | _, .list items => .ok (items.any fun v => v.looseEq item)
  | .str key, .map entries => .ok (Fields.contains entries key)
  | .str part, .str whole => .ok (occursIn part.toList whole.toList)
  | _, _ => .error (mismatch .mem item container)

/-- The negation of a value: strings, lists, maps and actions count as true even when
they are empty. -/
def negate : Value → Bool
  | .bool b => !b
  | .int n => n == 0
  | .float x => x == 0.0
  | .null => true
  | _ => false

/-- Applies an operator to its one operand. -/
def applyUnary (op : Op) (operand : Value) : Except EvalError Value :=
  match operand with
  | .goto target => .error (.gotoOperand target)
  | _ =>
    match op with
    | .not => .ok (.bool (negate operand))
    | _ => .error (.unknownOperator op.symbol)

/-- Applies an operator to two operands that are no `goto` values. -/
def applyOperands (op : Op) (left right : Value) : Except EvalError Value :=
  match op with
  | .and => .ok (.bool (left.isTruthy && right.isTruthy))
  | .or => .ok (.bool (left.isTruthy || right.isTruthy))
  | .eq => .ok (.bool (left.looseEq right))
  | .ne => .ok (.bool !(left.looseEq right))
  | .gt => (compareValues op left right).map fun order => .bool (order == .gt)
  | .ge => (compareValues op left right).map fun order => .bool (order != .lt)
  | .lt => (compareValues op left right).map fun order => .bool (order == .lt)
  | .le => (compareValues op left right).map fun order => .bool (order != .gt)
  | .mem => (membership left right).map .bool
  | .add =>
    match left, right with
    | .str a, .str b => .ok (.str (a ++ b))
    | .list a, .list b => .ok (.list (a ++ b))
    | _, _ => arithmetic op left right
  | .sub | .mul | .div => arithmetic op left right
  | .assign | .not | .dot | .call | .item => .error (.unknownOperator op.symbol)

/-- Applies an operator to its two operands. -/
def applyBinary (op : Op) (left right : Value) : Except EvalError Value :=
  match left, right with
  | .goto target, _ => .error (.gotoOperand target)
  | _, .goto target => .error (.gotoOperand target)
  | _, _ => applyOperands op left right

end EventPipeline.Rules
