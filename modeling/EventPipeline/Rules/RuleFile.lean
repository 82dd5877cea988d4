import EventPipeline.Rules.Error
import EventPipeline.Text.Blank
import EventPipeline.Text.Category

/-!
# `EventPipeline.Rules.RuleFile`: rule lines and rule files

A rule is a line `IF <condition> THEN <action>`. A rule file holds rule sets: a header
line `name:` and rules below it, indented by a tab or four spaces. Blank lines and lines
that start with `#` do not count.
-/

set_option autoImplicit false

namespace EventPipeline.Rules

/-- The word between a condition and an action, with its spaces. -/
def thenWord : List Char := " THEN ".toList

/-- Splits a text in front of the first ` THEN ` that has something on both sides; `seen`
says whether something is already in front. -/
def splitAtThen? (seen : Bool) (cs : List Char) : Option (List Char × List Char) :=
  match cs with
  | [] => none
  | c :: rest =>
    if seen && thenWord.isPrefixOf cs && thenWord.length < cs.length then
      some ([], cs.drop thenWord.length)
    else (splitAtThen? true rest).map fun (condition, action) => (c :: condition, action)

/-- The condition and the action of a rule line. White space counts as single spaces, and
the condition ends at the first ` THEN `. -/
def splitRule (line : String) : Except RuleFileError (String × String) :=
  match Text.collapse line.toList with
  | 'I' :: 'F' :: ' ' :: rest =>
    match splitAtThen? false rest with
    | some (condition, action) => .ok (String.ofList condition, String.ofList action)
    | none => .error (.malformedRule line)
  | _ => .error (.malformedRule line)

/-- What a line of a rule file is. -/
inductive FileLine where
  | ignored
  | header (name : String)
  | rule (text : String)
  | malformed

/-- The name in a header line: a letter or underscore and word characters up to a colon
with only white space behind it. -/
def headerName? (raw : List Char) : Option String :=
  match raw with
  | c :: cs =>
    if c.isAlpha || c == '_' then
      match cs.dropWhile Text.isWordChar with
      | ':' :: rest =>
        if rest.all Text.isBlank then some (String.ofList (c :: cs.takeWhile Text.isWordChar))
        else none
      | _ => none
    else none
  | [] => none

/-- What is behind the indentation of a line: a tab or four spaces. -/
def unindent? : List Char → Option (List Char)
  | '\t' :: rest => some rest
  | ' ' :: ' ' :: ' ' :: ' ' :: rest => some rest
  | _ => none

/-- The first word starts with `IF`, which no word character follows. White space ends a word and
is no word character. -/
def startsWithIf (cs : List Char) : Bool :=
  match (Text.trimStart cs).takeWhile (!Text.isBlank ·) with
  | 'I' :: 'F' :: rest => !(rest.head?.any Text.isWordChar)
  | _ => false

/-- The line is indented and starts with `IF`. -/
def isRuleLine (raw : List Char) : Bool :=
  match unindent? raw with
  | some rest => startsWithIf rest
  | none => false

/-- Classifies a line. -/
def FileLine.ofRaw (raw : List Char) : FileLine :=
  let trimmed := Text.trim raw
  if trimmed.isEmpty || trimmed.head? == some '#' then .ignored
  else
    match headerName? raw with
    | some name => .header name
    | none =>
      if isRuleLine raw then .rule (String.ofList (Text.collapse trimmed)) else .malformed

/-- A rule set as a rule file gives it: its name and its rules. -/
abbrev RuleSetSource := String × List String

/-- Adds one line, the `line`-th of its file, to the rule sets read so far. These are in
reverse order, and so are the rules of each. -/
def addLine (sets : List RuleSetSource) (line : Nat) (raw : List Char) :
    Except RuleFileError (List RuleSetSource) :=
  match FileLine.ofRaw raw with
  | .ignored => .ok sets
  | .header name =>
    if sets.any (·.1 == name) then .error (.duplicateRuleSet name line)
    else .ok ((name, []) :: sets)
  | .rule text =>
    match sets with
    | [] => .error (.orphanRule line)
    | (name, rules) :: others => .ok ((name, text :: rules) :: others)
  | .malformed => .error (.malformedLine line (String.ofList raw))

/-- Adds lines, counted from `line`. -/
def addLines (sets : List RuleSetSource) (line : Nat) :
    List (List Char) → Except RuleFileError (List RuleSetSource)
  | [] => .ok sets
  | raw :: rest => (addLine sets line raw).bind fun sets => addLines sets (line + 1) rest

/-- Rule sets that were read in reverse, in the order of their file. -/
def inOrder (sets : List RuleSetSource) : List RuleSetSource :=
  sets.reverse.map fun (name, rules) => (name, rules.reverse)

/-- The rule sets of a rule file, in its order. -/
def parseRules (text : String) : Except RuleFileError (List RuleSetSource) :=
  (addLines [] 1 (Text.lines text.toList)).map inOrder

end EventPipeline.Rules
