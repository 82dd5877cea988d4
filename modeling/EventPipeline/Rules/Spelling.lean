import EventPipeline.Rules.Lexer

/-!
# `EventPipeline.Rules.Spelling`: tokens that can be read, and how they are written

Not every token can stand in a rule: no text has a negative integer, `null`, or a string in which
both quotes occur. `Token.IsLexable` says which tokens there are texts for.

`Spelling` says how tokens are written next to each other: with one space between them, and with
the arguments of a call between the parenthesis right behind its name and the one that closes it.
A string may be put into either quote that does not occur in it, and a floating-point number may
be written with any digits that stand for it; everything else is written in one way only.
-/

set_option autoImplicit false

namespace EventPipeline.Rules

/-- At least one decimal digit and nothing else. -/
def IsDigits (cs : List Char) : Prop :=
  cs ≠ [] ∧ ∀ c ∈ cs, c.isDigit = true

/-- The floating-point number that digits, a point and digits stand for. -/
def decimalValue (whole fraction : List Char) : Float :=
  Float.ofScientific (digitsValue (whole ++ fraction)) true fraction.length

/-- A segment of a name: a character that starts one, and characters that continue it. -/
def IsSegment : List Char → Prop
  | [] => False
  | c :: cs => isNameStart c = true ∧ ∀ d ∈ cs, isNameChar d = true

/-- A dotted name: segments with a dot between any two of them. -/
def IsDottedName (cs : List Char) : Prop :=
  ∃ (first : List Char) (further : List (List Char)), IsSegment first ∧
    (∀ segment ∈ further, IsSegment segment) ∧ cs = first ++ further.flatMap ('.' :: ·)

namespace Token

/-- There is a text that has the token. -/
inductive IsLexable : Token → Prop
  | integer {n : Int64} (hsign : 0 ≤ n.toInt) : IsLexable (.integer n)
  | float {whole fraction : List Char} (hwhole : IsDigits whole) (hfraction : IsDigits fraction) :
    IsLexable (.float (decimalValue whole fraction))
  | str {s : String} (hquote : '"' ∉ s.toList ∨ '\'' ∉ s.toList) : IsLexable (.str s)
  | bool {b : Bool} : IsLexable (.bool b)
  | identifier {name : String} (hname : IsDottedName name.toList) (htrue : name ≠ "TRUE")
    (hfalse : name ≠ "FALSE") : IsLexable (.identifier name)
  | call {name : String} {args : List Token} (hname : isCallName name.toList = true)
    (hargs : ∀ arg ∈ args, IsLexable arg) (hoperands : ∀ arg ∈ args, arg.isOperand = true) :
    IsLexable (.call name args)
  | operator {op : Op} (hop : op ∉ [Op.dot, .call, .item]) : IsLexable (.operator op)
  | leftParen : IsLexable .leftParen
  | rightParen : IsLexable .rightParen

/-- The characters write down the token, which is not a call. -/
inductive Spelling : Token → List Char → Prop
  | integer (n : Int64) : Spelling (.integer n) (Nat.toDigits 10 n.toInt.toNat)
  | float (whole fraction : List Char) (hwhole : IsDigits whole) (hfraction : IsDigits fraction) :
    Spelling (.float (decimalValue whole fraction)) (whole ++ '.' :: fraction)
  | str (s : String) (quote : Char) (hquote : quote = '"' ∨ quote = '\'')
    (hfree : quote ∉ s.toList) : Spelling (.str s) (quote :: s.toList ++ [quote])
  | bool (b : Bool) : Spelling (.bool b) (if b then "TRUE" else "FALSE").toList
  | identifier (name : String) : Spelling (.identifier name) name.toList
  | operator (op : Op) : Spelling (.operator op) op.symbol.toList
  | leftParen : Spelling .leftParen ['(']
  | rightParen : Spelling .rightParen [')']

end Token

/-- What stands behind a token when `rest` writes down the tokens that follow it. -/
def spaced (ts : List Token) (rest : List Char) : List Char :=
  if ts.isEmpty then [] else ' ' :: rest

/-- The characters write down the tokens, one space apart. -/
inductive Spelling : List Token → List Char → Prop
  | nil : Spelling [] []
  | cons {t : Token} {ts : List Token} {cs rest : List Char} (ht : t.Spelling cs)
    (hts : Spelling ts rest) : Spelling (t :: ts) (cs ++ spaced ts rest)
  | call {name : String} {args ts : List Token} {inside rest : List Char}
    (hargs : Spelling args inside) (hts : Spelling ts rest) :
    Spelling (.call name args :: ts) (name.toList ++ '(' :: inside ++ [')'] ++ spaced ts rest)

end EventPipeline.Rules
