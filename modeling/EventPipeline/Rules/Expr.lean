import EventPipeline.Rules.Evaluator

/-!
# `EventPipeline.Rules.Expr`: expressions and how they are written

An expression is a tree of operators over operand tokens. `Expr.eval` is its value in post
order: the left operand, the right operand, then the operator. `Expr.Spelled` says which
token sequences write it down: parentheses may stand around every part, and they have to
where a looser operator is an operand of a tighter one.
-/

set_option autoImplicit false

namespace EventPipeline.Rules

/-- The operators that are written between two operands. -/
def Op.isBinary : Op → Bool
  | .not | .dot | .call | .item => false
  | _ => true

/-- An expression. -/
inductive Expr where
  | operand (t : Token) (isOperand : t.isOperand)
  | not (e : Expr)
  | binary (op : Op) (isBinary : op.isBinary) (left right : Expr)

namespace Expr

/-- The tokens write the expression down at a place where only operators that bind at
least as tightly as the floor may stand without parentheses. Operators of one precedence
group to the left. -/
inductive Spelled : (floor : Nat) → Expr → List Token → Prop where
  | operand {floor : Nat} {t : Token} {isOperand : t.isOperand} :
    Spelled floor (.operand t isOperand) [t]
  | not {floor : Nat} {e : Expr} {ts : List Token} (hfloor : floor ≤ Op.not.precedence)
    (he : Spelled Op.not.precedence e ts) : Spelled floor (.not e) (.operator .not :: ts)
  | binary {floor : Nat} {op : Op} {isBinary : op.isBinary} {left right : Expr}
    {ls rs : List Token} (hfloor : floor ≤ op.precedence)
    (hleft : Spelled op.precedence left ls) (hright : Spelled (op.precedence + 1) right rs) :
    Spelled floor (.binary op isBinary left right) (ls ++ .operator op :: rs)
  | parens {floor : Nat} {e : Expr} {ts : List Token} (he : Spelled 0 e ts) :
    Spelled floor e (.leftParen :: ts ++ [.rightParen])

variable {σ : Type} (caller : Caller σ) (env : Environment)

/-- The value of an expression. Both operands of every operator are evaluated. -/
def eval : Expr → Eval σ Value
  | .operand t _ => t.eval caller env
  | .not e => do
    let v ← e.eval
    Eval.ofExcept (applyUnary .not v)
  | .binary op _ left right => do
    let l ← left.eval
    let r ← right.eval
    Eval.ofExcept (applyBinary op l r)

end Expr

/-- The result of integer arithmetic before it has to fit 64 bits; a division by zero has
none. -/
def exactResult? (op : Op) (a b : Int) : Option Int :=
  match op with
  | .add => some (a + b)
  | .sub => some (a - b)
  | .mul => some (a * b)
  | .div => if b = 0 then none else some (a.tdiv b)
  | _ => none

/-- The outcome of integer arithmetic is the exact result, or the error that says why there
is none. -/
inductive ExactOrError (op : Op) (a b : Int) : Except EvalError Value → Prop where
  | exact {c : Int64} (h : exactResult? op a b = some c.toInt) :
    ExactOrError op a b (.ok (.int c))
  | overflow {n : Int} (h : exactResult? op a b = some n)
    (hfit : ¬(-2 ^ 63 ≤ n ∧ n < 2 ^ 63)) : ExactOrError op a b (.error (.overflow op.symbol))
  | divisionByZero (h : exactResult? op a b = none) :
    ExactOrError op a b (.error .divisionByZero)

end EventPipeline.Rules
