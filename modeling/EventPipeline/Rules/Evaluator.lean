import EventPipeline.Rules.Environment
import EventPipeline.Rules.Operation

/-!
# `EventPipeline.Rules.Evaluator`: the value of a token sequence

Evaluation keeps one stack of operands and one of operators for each open parenthesis.
A binary operator first reduces every operator on its level that binds at least as
tightly; a closing parenthesis reduces its whole level to one value.

Names and calls are resolved while the sequence is evaluated. Calling an action is an
effect: `Caller` says what it does, and its state survives an error.
-/

set_option autoImplicit false

namespace EventPipeline.Rules

/-- An evaluation that may fail and that calls actions with a state `σ`. -/
abbrev Eval (σ : Type) := ExceptT EvalError (StateM σ)

/-- What calling an action does. -/
abbrev Caller (σ : Type) := Action → List Value → Eval σ Value

/-- How token sequences get their values. -/
abbrev Evaluator (σ : Type) := Environment → List Token → Eval σ Value

/-- A malformed token sequence. -/
def unbalanced (detail : String) : EvalError :=
  .unbalancedExpression detail

/-- The operator lacks an operand. -/
def missingOperand (op : Op) : EvalError :=
  unbalanced s!"missing operand for `{op.symbol}`"

/-- The operands and operators of one nesting level, the latest first. -/
structure Level where
  operands : List Value := []
  operators : List Op := []

namespace Level

/-- Applies an operator to the latest operands. -/
def applyTo (op : Op) (operands : List Value) : Except EvalError (List Value) :=
  if op.isUnary then
    match operands with
    | [] => .error (missingOperand op)
    | v :: rest => (applyUnary op v).map (· :: rest)
  else
    match operands with
    | right :: left :: rest => (applyBinary op left right).map (· :: rest)
    | _ => .error (missingOperand op)

/-- Reduces the latest operators as long as `p` holds of them. -/
def reduceWhile (p : Op → Bool) : List Op → List Value → Except EvalError Level
  | [], operands => .ok { operands := operands, operators := [] }
  | op :: ops, operands =>
    if p op then (applyTo op operands).bind (reduceWhile p ops)
    else .ok { operands := operands, operators := op :: ops }

/-- Adds a value. -/
def pushOperand (level : Level) (v : Value) : Level :=
  { level with operands := v :: level.operands }

/-- Adds an operator, after reducing those before it that bind at least as tightly. A
unary operator has nothing to its left to reduce. -/
def pushOperator (level : Level) (op : Op) : Except EvalError Level :=
  if op.isUnary then .ok { level with operators := op :: level.operators }
  else
    (reduceWhile (fun top => op.precedence ≤ top.precedence) level.operators level.operands).map
      fun reduced => { reduced with operators := op :: reduced.operators }

/-- Reduces everything to the one value that has to remain. -/
def flush (level : Level) : Except EvalError Value :=
  (reduceWhile (fun _ => true) level.operators level.operands).bind fun reduced =>
    match reduced.operands with
    | [v] => .ok v
    | [] => .error (unbalanced "empty expression")
    | vs => .error (unbalanced s!"{vs.length} operands left without operators")

end Level

/-- Lifts a result without effects. -/
def Eval.ofExcept {σ α : Type} (result : Except EvalError α) : Eval σ α :=
  ExceptT.mk (pure result)

section

variable {σ : Type} (caller : Caller σ) (env : Environment)

mutual

/-- The value of a token that stands alone. Names that are not bound are `null`; a call
is resolved before its arguments are evaluated. -/
def Token.eval : Token → Eval σ Value
  | .integer n => pure (.int n)
  | .float x => pure (.float x)
  | .str s => pure (.str s)
  | .bool b => pure (.bool b)
  | .null => pure .null
  | .identifier name => pure ((env.get? name).getD .null)
  | .call name args =>
    match env.get? name with
    | some (.action action) => do caller action (← Token.evalAll args)
    | some other => throw (.notCallable name other.typeName)
    | none => throw (.unknownCallee name)
  | .operator op => throw (missingOperand op)
  | .leftParen => throw (unbalanced "1 unclosed '('")
  | .rightParen => throw (unbalanced "unexpected ')'")

/-- The values of the arguments of a call, from left to right. -/
def Token.evalAll : List Token → Eval σ (List Value)
  | [] => pure []
  | t :: ts => do
    let v ← Token.eval t
    let vs ← Token.evalAll ts
    pure (v :: vs)

end

/-- Evaluates the tokens that follow on the current level `level` and the levels
`outer` around it. -/
def evaluateFrom (level : Level) (outer : List Level) : List Token → Eval σ Value
  | [] =>
    match outer with
    | [] => Eval.ofExcept level.flush
    | _ => throw (unbalanced s!"{outer.length} unclosed '('")
  | .leftParen :: ts => evaluateFrom {} (level :: outer) ts
  | .rightParen :: ts =>
    match outer with
    | [] => throw (unbalanced "unexpected ')'")
    | parent :: further => do
      let v ← Eval.ofExcept level.flush
      evaluateFrom (parent.pushOperand v) further ts
  | .operator op :: ts => do
    let level ← Eval.ofExcept (level.pushOperator op)
    evaluateFrom level outer ts
  | t :: ts => do
    let v ← t.eval caller env
    evaluateFrom (level.pushOperand v) outer ts

/-- The value of a token sequence. -/
def evaluate (tokens : List Token) : Eval σ Value :=
  evaluateFrom caller env {} [] tokens

end

end EventPipeline.Rules
