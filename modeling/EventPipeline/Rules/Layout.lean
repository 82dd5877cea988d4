import EventPipeline.Rules.RuleFile

/-!
# `EventPipeline.Rules.Layout`: the ways to write a rule file

A rule file is written line by line. `FileLine.Line` says how a line of each kind may be written: a
header with its colon, a rule behind a tab or four spaces and with its spaces widened as one likes,
and blank lines and comments, which do not count. A line that cannot be written in any of these
ways is malformed.

`IsLayout` says which texts lay out a list of rule sets, and `IsFault` what is wrong with the first
line that keeps a text from laying out anything.
-/

set_option autoImplicit false

namespace EventPipeline.Rules

open Text (isBlank isWordChar)

/-! ### Lines -/

/-- The name of a rule set: a letter or underscore and then word characters. -/
def IsSetName : List Char → Prop
  | [] => False
  | c :: cs => (c.isAlpha || c == '_') = true ∧ ∀ d ∈ cs, isWordChar d = true

/-- A rule as it is kept: it starts with the word `IF`, and there is white space between its words
only, one space each. -/
def IsRuleText (rule : List Char) : Prop :=
  (∃ rest, rule = 'I' :: 'F' :: rest ∧ ∀ c ∈ rest.head?, isWordChar c = false) ∧
    Text.collapse rule = rule

/-- Nothing but white space. -/
def IsBlankText (cs : List Char) : Prop :=
  ∀ c ∈ cs, isBlank c = true

/-- The second text is the first one with each space widened to white space of any kind. -/
inductive Widens : List Char → List Char → Prop where
  | nil : Widens [] []
  | visible {c : Char} {cs wide : List Char} (hc : isBlank c = false) (h : Widens cs wide) :
    Widens (c :: cs) (c :: wide)
  | space {blanks cs wide : List Char} (hne : blanks ≠ []) (hblanks : IsBlankText blanks)
    (h : Widens cs wide) : Widens (' ' :: cs) (blanks ++ wide)

/-- The ways to write a line. -/
inductive FileLine.Line : FileLine → List Char → Prop where
  | blank {blanks : List Char} (h : IsBlankText blanks) : Line .ignored blanks
  | comment {blanks : List Char} (h : IsBlankText blanks) (text : List Char) :
    Line .ignored (blanks ++ '#' :: text)
  | header {name : String} {blanks : List Char} (hname : IsSetName name.toList)
    (h : IsBlankText blanks) : Line (.header name) (name.toList ++ ':' :: blanks)
  | rule {text : String} {indent blanks wide trailing : List Char}
    (hindent : indent = ['\t'] ∨ indent = [' ', ' ', ' ', ' ']) (hblanks : IsBlankText blanks)
    (htext : IsRuleText text.toList) (hwide : Widens text.toList wide)
    (htrailing : IsBlankText trailing) :
    Line (.rule text) (indent ++ (blanks ++ (wide ++ trailing)))

/-- The line counts. -/
def FileLine.counts : FileLine → Bool
  | .ignored => false
  | _ => true

/-! ### Texts -/

/-- The text is written in these lines, with a line feed between any two of them. -/
inductive IsWritten : List FileLine → List Char → Prop where
  | last {f : FileLine} {raw : List Char} (h : f.Line raw) (hraw : '\n' ∉ raw) : IsWritten [f] raw
  | next {f : FileLine} {raw : List Char} {fs : List FileLine} {cs : List Char} (h : f.Line raw)
    (hraw : '\n' ∉ raw) (hnext : IsWritten fs cs) : IsWritten (f :: fs) (raw ++ '\n' :: cs)

/-- What is written of rule sets: for each its header, and then its rules. -/
def entries (sets : List RuleSetSource) : List FileLine :=
  sets.flatMap fun set => .header set.1 :: set.2.map .rule

/-- The text lays out the rule sets: its lines are theirs, in this order, with others that do not
count anywhere. -/
def IsLayout (sets : List RuleSetSource) (text : String) : Prop :=
  ∃ fs, IsWritten fs text.toList ∧ fs.filter FileLine.counts = entries sets

/-- Rule sets that a rule file can hold. -/
structure IsRuleFile (sets : List RuleSetSource) : Prop where
  nodup : (sets.map Prod.fst).Nodup
  names : ∀ set ∈ sets, IsSetName set.1.toList
  rules : ∀ set ∈ sets, ∀ rule ∈ set.2, IsRuleText rule.toList

/-- The line written without more white space than it needs. -/
def FileLine.write : FileLine → List Char
  | .header name => name.toList ++ [':']
  | .rule text => ' ' :: ' ' :: ' ' :: ' ' :: text.toList
  | .ignored | .malformed => []

/-- The rule sets written without more white space than they need. -/
def render (sets : List RuleSetSource) : String :=
  String.ofList ((entries sets).flatMap fun f => f.write ++ ['\n'])

/-! ### Faults -/

/-- What is wrong with a line behind others: its header was there before, it is a rule and there
was no header, or it is no line of any kind. The error tells which line it is, counted from 1. -/
inductive IsFault (before : List (List Char)) (raw : List Char) : RuleFileError → Prop where
  | duplicate {name : String} (h : (FileLine.header name).Line raw)
    (hbefore : ∃ earlier ∈ before, (FileLine.header name).Line earlier) :
    IsFault before raw (.duplicateRuleSet name (before.length + 1))
  | orphan {text : String} (h : (FileLine.rule text).Line raw)
    (hbefore : ∀ earlier ∈ before, ∀ name, ¬(FileLine.header name).Line earlier) :
    IsFault before raw (.orphanRule (before.length + 1))
  | malformed (h : ∀ f : FileLine, ¬f.Line raw) :
    IsFault before raw (.malformedLine (before.length + 1) (String.ofList raw))

/-- None of the lines is at fault. -/
def NoFault (lines : List (List Char)) : Prop :=
  ∀ before raw after e, lines = before ++ raw :: after → ¬IsFault before raw e

end EventPipeline.Rules
