import EventPipeline.Message
import EventPipeline.Rules.Builtin
import EventPipeline.Rules.Lexer
import EventPipeline.Rules.RuleFile

/-!
# `EventPipeline.Rules.Ruler`: named rule sets

A ruler holds compiled rule sets and a global scope. `Ruler.entry` looks for the first
rule of a set whose condition is true and answers with the value of its action. A
condition or an action whose value is a `goto` continues in another set; if that set has
no match, the search resumes behind the rule that jumped. Jumps may be nested to a fixed
depth.
-/

set_option autoImplicit false

namespace EventPipeline.Rules

/-- The tokens of a text. -/
def tokenize (text : String) : Except LexError (List Token) :=
  go (text.toList.length + 1) (Cursor.start text)
where
  /-- The tokens at a cursor, on a bound on the text that is left. -/
  go (fuel : Nat) (cursor : Cursor) : Except LexError (List Token) :=
    match fuel with
    | 0 => .ok []
    | fuel + 1 =>
      match cursor.next with
      | (.error e, _) => .error e
      | (.ok none, _) => .ok []
      | (.ok (some t), after) => (go fuel after).map (t :: ·)

/-- A compiled rule. -/
structure Rule where
  text : String
  condition : List Token
  action : List Token

/-- Every parenthesis on the level of the tokens is matched. `depth` counts those that
are open. -/
def checkParens (depth : Nat) : List Token → Except EvalError Unit
  | [] => if depth = 0 then .ok () else .error (unbalanced s!"{depth} unclosed '('")
  | .leftParen :: ts => checkParens (depth + 1) ts
  | .rightParen :: ts =>
    match depth with
    | 0 => .error (unbalanced "unexpected ')'")
    | depth + 1 => checkParens depth ts
  | _ :: ts => checkParens depth ts

/-- Compiles one half of the rule `line`. -/
def compileHalf (line text : String) : Except RulerError (List Token) :=
  match tokenize text with
  | .error e => .error (.lex line e)
  | .ok tokens =>
    match checkParens 0 tokens with
    | .error e => .error (.eval e)
    | .ok () => .ok tokens

/-- Compiles a rule line. -/
def Rule.compile (line : String) : Except RulerError Rule := do
  let (condition, action) ← (splitRule line).mapError .parse
  let condition ← compileHalf line condition
  let action ← compileHalf line action
  return { text := String.ofList (Text.trim line.toList), condition, action }

/-- What a search in a rule set finds. -/
inductive Verdict where
  | matched (value : Value) (rule : String)
  | noMatch

/-- A ruler: its rule sets by name, and its actions and constants. -/
structure Ruler where
  ruleSets : Fields (List Rule) := []
  globals : Scope := []

/-- How deep jumps may be nested. -/
def maxGotoDepth : Nat := 32

namespace Ruler

/-- A ruler with the built-in actions. -/
def new (actions : Actions) : Ruler × Actions :=
  let (globals, actions) := actions.builtinScope
  ({ globals := globals }, actions)

/-- Compiles rules and keeps them under a name that is still free. -/
def registerRuleSet (ruler : Ruler) (name : String) (lines : List String) :
    Except RulerError (Ruler × Message) :=
  if ruler.ruleSets.contains name then .error (.duplicateRuleSet name)
  else
    match lines.mapM Rule.compile with
    | .error e => .error e
    | .ok rules =>
      .ok ({ ruler with ruleSets := ruler.ruleSets.put name rules },
        .ruleSetRegistered name rules.length)

/-- Registers rule sets one after another up to the first that fails; those before it
stay. -/
def registerAll (ruler : Ruler) : List RuleSetSource →
    Ruler × List Message × Except RulerError Unit
  | [] => (ruler, [], .ok ())
  | (name, lines) :: rest =>
    match ruler.registerRuleSet name lines with
    | .error e => (ruler, [], .error e)
    | .ok (ruler, message) =>
      let (ruler, messages, result) := registerAll ruler rest
      (ruler, message :: messages, result)

/-- Reads a rule file and registers every rule set in it. -/
def loadRules (ruler : Ruler) (text : String) :
    Ruler × List Message × Except RulerError Unit :=
  match parseRules text with
  | .error e => (ruler, [], .error (.parse e))
  | .ok sets => ruler.registerAll sets

/-- Binds an action or a constant to a name that is still free. -/
def bind (ruler : Ruler) (name : String) (value : Value) : Except RulerError Ruler :=
  if ruler.globals.contains name then .error (.duplicateAction name)
  else .ok { ruler with globals := ruler.globals.put name value }

/-- Removes a rule set. -/
def clearRuleSet (ruler : Ruler) (name : String) : Except RulerError Ruler :=
  if ruler.ruleSets.contains name then
    .ok { ruler with ruleSets := ruler.ruleSets.erase name }
  else .error (.noSuchRuleSet name)

/-- Removes an action or a constant. -/
def clearAction (ruler : Ruler) (name : String) : Except RulerError Ruler :=
  if ruler.globals.contains name then .ok { ruler with globals := ruler.globals.erase name }
  else .error (.noSuchAction name)

/-- There is a rule set of that name. -/
def hasRuleSet (ruler : Ruler) (name : String) : Bool :=
  ruler.ruleSets.contains name

end Ruler

/-- A search: it may fail, it calls actions with a state `σ`, and it reports jumps, the
latest first. -/
abbrev Search (σ : Type) := ExceptT RulerError (StateM (σ × List Message))

/-- Evaluation as a part of a search. -/
def Search.ofEval {σ α : Type} (eval : Eval σ α) : Search σ α :=
  ExceptT.mk fun (actions, messages) =>
    let (result, actions) := eval.run actions
    (result.mapError .eval, (actions, messages))

/-- Reports a message. -/
def Search.report {σ : Type} (message : Message) : Search σ Unit :=
  ExceptT.mk fun (actions, messages) => (.ok (), (actions, message :: messages))

/-- What one rule leads to. -/
inductive Outcome where
  | matched (value : Value)
  | noMatch
  | jump (target : String)

section

variable {σ : Type} (evaluator : Evaluator σ)

/-- Evaluates one rule: its condition, and its action if the condition is true. -/
def Rule.fire (env : Environment) (rule : Rule) : Eval σ Outcome := do
  match ← evaluator env rule.condition with
  | .goto target => return .jump target
  | condition =>
    if condition.isTruthy then
      match ← evaluator env rule.action with
      | .goto target => return .jump target
      | value => return .matched value
    else return .noMatch

/-- Goes through the rules of a set up to the first match; `jump` searches another set. -/
def scan (env : Environment) (jump : String → Search σ Verdict) :
    List Rule → Search σ Verdict
  | [] => return .noMatch
  | rule :: rest => do
    match ← Search.ofEval (rule.fire evaluator env) with
    | .noMatch => scan env jump rest
    | .matched value => return .matched value rule.text
    | .jump target =>
      match ← jump target with
      | .matched value text => return .matched value text
      | .noMatch => scan env jump rest

/-- Searches the rule set `name`; jumps may be nested `room` deep from here. -/
def searchSet (ruleSets : Fields (List Rule)) (env : Environment) :
    (room : Nat) → (name : String) → Search σ Verdict
  | 0, name =>
    match ruleSets.get? name with
    | none => throw (.noSuchRuleSet name)
    | some rules => scan evaluator env (fun _ => throw (.gotoDepthExceeded maxGotoDepth)) rules
  | room + 1, name =>
    match ruleSets.get? name with
    | none => throw (.noSuchRuleSet name)
    | some rules =>
      scan evaluator env (fun target => do
        Search.report (.gotoFollowed name target (maxGotoDepth - room))
        searchSet ruleSets env room target) rules

/-- What the rules of a search see: the globals, and the given bindings in a scope of their
own. -/
def Ruler.environment (ruler : Ruler) (input : List (String × Value)) : Environment :=
  (Environment.push { globals := ruler.globals }).setAll input

/-- Searches a rule set with the given bindings. -/
def Ruler.search (ruler : Ruler) (name : String) (input : List (String × Value)) :
    Search σ Verdict :=
  searchSet evaluator ruler.ruleSets (ruler.environment input) maxGotoDepth name

end

/-- Searches a rule set with the given bindings, and calls actions on the way. -/
def Ruler.entry {σ : Type} (caller : Caller σ) (ruler : Ruler) (name : String)
    (input : List (String × Value)) : Search σ Verdict :=
  ruler.search (evaluate caller) name input

/-- The result of a search, the state it leaves and the jumps it reports, in order. -/
def Search.runFrom {σ α : Type} (search : Search σ α) (actions : σ) :
    Except RulerError α × σ × List Message :=
  let (result, actions, messages) := search.run (actions, [])
  (result, actions, messages.reverse)

end EventPipeline.Rules
