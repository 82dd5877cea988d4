/-!
# `EventPipeline.Rules.Error`: what can go wrong in the rule language

One type per stage: reading text into tokens, evaluating tokens, reading rule files,
and keeping rule sets. Each has a `code`, which names its kind, and a `message`.
-/

set_option autoImplicit false

namespace EventPipeline.Rules

/-- Why a text has no tokens. Positions are byte offsets. -/
inductive LexError where
  | unexpectedChar (char : Char) (pos : Nat)
  | unterminatedCall (name : String) (pos : Nat)
  | unterminatedString (pos : Nat)
  | invalidCallArgument (name : String) (pos : Nat)
  | numberOutOfRange (text : String) (pos : Nat)
deriving DecidableEq, Repr

/-- The text of a tokenizing error. -/
def LexError.message : LexError → String
  | unexpectedChar c pos => s!"illegal character '{c}' at offset {pos}"
  | unterminatedCall name pos =>
    s!"call '{name}' opened at offset {pos} has no matching ')'"
  | unterminatedString pos => s!"string literal opened at offset {pos} is not closed"
  | invalidCallArgument name pos =>
    s!"argument of call '{name}' at offset {pos} must be a literal, identifier or call"
  | numberOutOfRange text pos => s!"number literal '{text}' at offset {pos} is out of range"

/-- The kind of a tokenizing error. -/
def LexError.code : LexError → String
  | unexpectedChar .. => "UnexpectedChar"
  | unterminatedCall .. => "UnterminatedCall"
  | unterminatedString .. => "UnterminatedString"
  | invalidCallArgument .. => "InvalidCallArgument"
  | numberOutOfRange .. => "NumberOutOfRange"

/-- Why a token sequence has no value. -/
inductive EvalError where
  | unbalancedExpression (detail : String)
  | unknownOperator (symbol : String)
  | typeMismatch (op left right : String)
  | unknownCallee (name : String)
  | notCallable (name kind : String)
  | action (name reason : String)
  | divisionByZero
  | overflow (symbol : String)
  | gotoOperand (target : String)
deriving DecidableEq, Repr

/-- The text of an evaluation error. -/
def EvalError.message : EvalError → String
  | unbalancedExpression detail => s!"unbalanced expression: {detail}"
  | unknownOperator symbol => s!"operator `{symbol}` is not supported"
  | typeMismatch op left right => s!"operator `{op}` cannot be applied to {left} and {right}"
  | unknownCallee name => s!"unknown callee '{name}'"
  | notCallable name kind => s!"'{name}' is a {kind}, not a callable"
  | action name reason => s!"action '{name}' failed: {reason}"
  | divisionByZero => "division by zero"
  | overflow symbol => s!"integer overflow in `{symbol}`"
  | gotoOperand target =>
    s!"goto('{target}') must be a whole condition or action, not an operand"

/-- The kind of an evaluation error. -/
def EvalError.code : EvalError → String
  | unbalancedExpression .. => "UnbalancedExpression"
  | unknownOperator .. => "UnknownOperator"
  | typeMismatch .. => "TypeMismatch"
  | unknownCallee .. => "UnknownCallee"
  | notCallable .. => "NotCallable"
  | action .. => "Action"
  | divisionByZero => "DivisionByZero"
  | overflow .. => "Overflow"
  | gotoOperand .. => "GotoOperand"

/-- Why a text is no rule file, or a line no rule. Lines are counted from 1. -/
inductive RuleFileError where
  | duplicateRuleSet (name : String) (line : Nat)
  | orphanRule (line : Nat)
  | malformedLine (line : Nat) (text : String)
  | malformedRule (text : String)
  | unreadable (path reason : String)
deriving DecidableEq, Repr

/-- The text of a rule-file error. -/
def RuleFileError.message : RuleFileError → String
  | duplicateRuleSet name line => s!"duplicate rule set '{name}' at line {line}"
  | orphanRule line => s!"rule at line {line} appears before any rule set header"
  | malformedLine line text => s!"malformed rule at line {line}: `{text}`"
  | malformedRule text =>
    s!"rule `{text}` does not have the shape `IF <condition> THEN <action>`"
  | unreadable path reason => s!"cannot read rule file {path}: {reason}"

/-- The kind of a rule-file error. -/
def RuleFileError.code : RuleFileError → String
  | duplicateRuleSet .. => "DuplicateRuleSet"
  | orphanRule .. => "OrphanRule"
  | malformedLine .. => "MalformedLine"
  | malformedRule .. => "MalformedRule"
  | unreadable .. => "Io"

/-- Why rule sets could not be registered, removed or evaluated. -/
inductive RulerError where
  | duplicateRuleSet (name : String)
  | duplicateAction (name : String)
  | noSuchRuleSet (name : String)
  | noSuchAction (name : String)
  | gotoDepthExceeded (limit : Nat)
  | lex (rule : String) (source : LexError)
  | parse (source : RuleFileError)
  | eval (source : EvalError)
deriving DecidableEq, Repr

/-- The text of a rule-set error. -/
def RulerError.message : RulerError → String
  | duplicateRuleSet name => s!"cannot register rule set '{name}': already exists"
  | duplicateAction name => s!"cannot register action '{name}': name already bound"
  | noSuchRuleSet name => s!"rule set '{name}' does not exist"
  | noSuchAction name => s!"action '{name}' is not registered"
  | gotoDepthExceeded limit => s!"goto chain exceeded {limit} nested rule sets"
  | lex rule source => s!"in rule `{rule}`: {source.message}"
  | parse source => source.message
  | eval source => source.message

/-- The kind of a rule-set error, with the kind of the error in it. -/
def RulerError.code : RulerError → String
  | duplicateRuleSet .. => "DuplicateRuleSet"
  | duplicateAction .. => "DuplicateAction"
  | noSuchRuleSet .. => "NoSuchRuleSet"
  | noSuchAction .. => "NoSuchAction"
  | gotoDepthExceeded .. => "GotoDepthExceeded"
  | lex _ source => "Lex." ++ source.code
  | parse source => "Parse." ++ source.code
  | eval source => "Eval." ++ source.code

/-- The texts of the causes below a rule-set error. -/
def RulerError.causes : RulerError → List String
  | lex _ source => [source.message]
  | _ => []

end EventPipeline.Rules
