/-!
# `EventPipeline.Rules.Token`: operators and tokens of the rule language
-/

set_option autoImplicit false

namespace EventPipeline.Rules

/-- The operators that have a precedence. The tokenizer produces all but `dot`, `call`
and `item`, and those three and `assign` have no evaluation rule. -/
inductive Op where
  | assign | or | and | eq | ne | mem | gt | ge | lt | le
  | add | sub | mul | div | not | dot | call | item
deriving DecidableEq, Repr

namespace Op

/-- Every operator, in the order of the precedence table. -/
def all : List Op :=
  [assign, or, and, eq, ne, mem, gt, ge, lt, le, add, sub, mul, div, not, dot, call, item]

/-- How tightly an operator binds, loosest first. -/
def precedence : Op → Nat
  | assign => 0
  | or => 1
  | and => 2
  | eq | ne | mem => 3
  | gt | ge | lt | le => 4
  | add | sub => 5
  | mul | div => 6
  | not => 7
  | dot => 8
  | call | item => 9

/-- The operator takes one operand, on its right. -/
def isUnary (op : Op) : Bool :=
  op = not

/-- How an operator is written. -/
def symbol : Op → String
  | assign => "="
  | or => "||"
  | and => "&&"
  | eq => "=="
  | ne => "!="
  | mem => "~="
  | gt => ">"
  | ge => ">="
  | lt => "<"
  | le => "<="
  | add => "+"
  | sub => "-"
  | mul => "*"
  | div => "/"
  | not => "!"
  | dot => "."
  | call => "call"
  | item => "item"

end Op

/-- A unit of rule text. A call with its arguments is one token. -/
inductive Token where
  | integer (n : Int64)
  | float (x : Float)
  | str (s : String)
  | bool (b : Bool)
  | null
  | identifier (name : String)
  | call (name : String) (args : List Token)
  | operator (op : Op)
  | leftParen
  | rightParen

namespace Token

instance : Inhabited Token := ⟨null⟩

/-- The token stands for a value on its own. -/
def isOperand : Token → Bool
  | operator _ | leftParen | rightParen => false
  | _ => true

end Token
end EventPipeline.Rules
