import EventPipeline.Number.Instances
import EventPipeline.Pattern.Basic

/-!
# `EventPipeline.Pattern.Reader`: reading patterns

`Pattern.read?` reads a pattern from its text and answers `none` if the text is no
pattern. Groups may be named, may set flags for themselves or for the rest of the
enclosing group, and classes in brackets may be nested and combined. There is no
looking around and no reference to earlier groups, and nesting is bounded.

The reader goes through the text once. Every function takes the text that is left and
gives back what it leaves; the loops run on a bound on the length of the text.
-/

set_option autoImplicit false

namespace EventPipeline.Pattern

/-- What the flags of a pattern switch on. -/
structure Flags where
  ignoreCase : Bool := false
  multiLine : Bool := false
  dotAll : Bool := false
  crlf : Bool := false
  unicode : Bool := true
  verbose : Bool := false

/-- A piece of a pattern with the depth of its nesting. A setting of flags is a piece
without a pattern, which nothing can repeat. -/
structure Piece where
  pattern : Option Pattern
  depth : Nat := 0

/-- How deep a pattern may be nested. -/
def maxDepth : Nat := 250

/-- In verbose mode, skips white space and comments. -/
def skipBlank (verbose : Bool) (cs : List Char) : List Char :=
  if verbose then go false cs else cs
where
  go (inComment : Bool) : List Char → List Char
    | [] => []
    | c :: cs =>
      if inComment then go (c != '\n') cs
      else if Text.isBlank c then go false cs
      else if c == '#' then go true cs
      else c :: cs

/-- Moves past one character and what is skipped after it. -/
def bump (verbose : Bool) (cs : List Char) : List Char :=
  skipBlank verbose (cs.drop 1)

/-- The pieces of a concatenation in order, as one piece. -/
def concat (pieces : List Piece) : Piece :=
  let parts := pieces.filterMap (·.pattern)
  { pattern := some (match parts with
      | [] => .empty
      | p :: ps => ps.foldl .seq p)
    depth := (pieces.map (·.depth)).foldl max 0 + if pieces.length < 2 then 0 else 1 }

/-- Alternatives in order, as one piece. -/
def alternation (pieces : List Piece) : Piece :=
  match pieces with
  | [piece] => piece
  | _ =>
    let parts := pieces.filterMap (·.pattern)
    { pattern := some (match parts with
        | [] => .empty
        | p :: ps => ps.foldl .alt p)
      depth := (pieces.map (·.depth)).foldl max 0 + 1 }

/-- A hexadecimal digit. -/
def isHex (c : Char) : Bool :=
  c.isDigit || ('a' ≤ c && c ≤ 'f') || ('A' ≤ c && c ≤ 'F')

/-- The value of hexadecimal digits. -/
def hexValue (cs : List Char) : Nat :=
  cs.foldl (fun n c =>
    16 * n + if c.isDigit then c.toNat - 48 else c.toLower.toNat - 97 + 10) 0

/-- The character with a number, if there is one. -/
def charOf? (n : Nat) : Option Char :=
  if n.isValidChar then some (Char.ofNat n) else none

/-- What an escape, or a single character, stands for. -/
inductive Atom where
  | char (c : Char)
  | set (s : CharSet)
  | look (l : Look)

/-- The atom, with the text after it. -/
abbrev AtomResult := Option (Atom × List Char)

/-- Reads up to the closing brace, from the opening one on. -/
def braced? (verbose : Bool) (fuel : Nat) (cs : List Char) : Option (List Char × List Char) :=
  match fuel with
  | 0 => none
  | fuel + 1 =>
    match bump verbose cs with
    | [] => none
    | '}' :: rest => some ([], rest)
    | c :: rest => (braced? verbose fuel (c :: rest)).map fun (inner, rest) => (c :: inner, rest)

/-- The given number of hexadecimal digits. -/
def fixedHex? (verbose : Bool) (count : Nat) (cs : List Char) : Option (List Char × List Char) :=
  match count, cs with
  | 0, cs => some ([], cs)
  | _ + 1, [] => none
  | count + 1, c :: rest =>
    if isHex c then
      (fixedHex? verbose count (skipBlank verbose rest)).map fun (more, rest) =>
        (c :: more, rest)
    else none

/-- The character of a hexadecimal escape, after its letter. -/
def hexEscape? (verbose : Bool) (count : Nat) (cs : List Char) : Option (Char × List Char) :=
  match skipBlank verbose cs with
  | '{' :: rest => do
    let (digits, rest) ← braced? verbose (rest.length + 1) ('{' :: rest)
    if digits.isEmpty || !digits.all isHex then none
    else do
      let c ← charOf? (hexValue digits)
      pure (c, skipBlank verbose rest)
  | cs => do
    let (digits, rest) ← fixedHex? verbose count cs
    let c ← charOf? (hexValue digits)
    pure (c, rest)

/-- Splits a text at the first place where `mark` occurs. -/
def splitAt? (mark : List Char) (cs : List Char) : Option (List Char × List Char) :=
  match cs with
  | [] => none
  | c :: rest =>
    if mark.isPrefixOf (c :: rest) then some ([], (c :: rest).drop mark.length)
    else (splitAt? mark rest).map fun (before, after) => (c :: before, after)

/-- The set of the property that is named in braces. -/
def propertySet? (name : List Char) : Option CharSet :=
  match splitAt? ['!', '='] name with
  | some (key, value) => (CharSet.keyed? key value).map CharSet.compl
  | none =>
    match (splitAt? [':'] name).or (splitAt? ['='] name) with
    | some (key, value) => CharSet.keyed? key value
    | none => CharSet.named? name

/-- The set of a property, which is named by one letter or in braces. -/
def property? (verbose : Bool) (cs : List Char) : Option (CharSet × List Char) :=
  match skipBlank verbose cs with
  | [] => none
  | '\\' :: _ => none
  | '{' :: rest => do
    let (name, rest) ← braced? verbose (rest.length + 1) ('{' :: rest)
    let s ← propertySet? name
    pure (s, rest)
  | c :: rest => do
    let s ← CharSet.named? [c]
    pure (s, skipBlank verbose rest)

/-- The set of a property escape, after its letter. -/
def propertyEscape? (flags : Flags) (negated : Bool) (cs : List Char) : AtomResult := do
  guard flags.unicode
  let (s, rest) ← property? flags.verbose cs
  let s := s.foldIf flags.ignoreCase
  pure (.set (if negated then s.compl else s), rest)

/-- Characters with a meaning in patterns. -/
def isMeta (c : Char) : Bool :=
  "\\.+*?()|[]\x7b\x7d^$#&-~".toList.contains c

/-- Characters that stand for themselves after a backslash. -/
def isEscapable (c : Char) : Bool :=
  isMeta c || (c.toNat < 128 && !c.isAlphanum && c != '<' && c != '>')

/-- The condition that is named in braces, after the opening one. Without a name the brace
belongs to what follows the condition. -/
def bracedBoundary? (flags : Flags) (cs : List Char) : AtomResult :=
  let u := flags.unicode
  match skipBlank flags.verbose cs with
  | [] => none
  | c :: _ =>
    if c.isAlpha || c == '-' then do
      let (name, rest) ← braced? flags.verbose (cs.length + 1) ('{' :: cs)
      match String.ofList name with
      | "start" => pure (.look (.wordStart u), rest)
      | "end" => pure (.look (.wordEnd u), rest)
      | "start-half" => pure (.look (.wordStartHalf u), rest)
      | "end-half" => pure (.look (.wordEndHalf u), rest)
      | _ => none
    else some (.look (.boundary u), '{' :: cs)

/-- The condition after `\b`, which may be named in braces. -/
def boundaryEscape? (flags : Flags) (cs : List Char) : AtomResult :=
  match cs with
  | '{' :: rest => bracedBoundary? flags rest
  | _ => some (.look (.boundary flags.unicode), cs)

/-- The atom of an escape, after its backslash. -/
def escape? (flags : Flags) (cs : List Char) : AtomResult :=
  match cs with
  | [] => none
  | c :: rest =>
    let u := flags.unicode
    if c.isDigit then none
    else if c == 'x' then do
      let (code, after) ← hexEscape? flags.verbose 2 rest
      let inBraces := (skipBlank flags.verbose rest).head? == some '{'
      -- without Unicode, two digits stand for a byte
      if !u && !inBraces && 128 ≤ code.toNat then none else some (.char code, after)
    else if c == 'u' then (hexEscape? flags.verbose 4 rest).map fun (c, rest) => (.char c, rest)
    else if c == 'U' then (hexEscape? flags.verbose 8 rest).map fun (c, rest) => (.char c, rest)
    else if c == 'p' || c == 'P' then propertyEscape? flags (c == 'P') rest
    else
      match CharSet.escapeClass? u c with
      | some s => some (.set s, rest)
      | none =>
        if isEscapable c then some (.char c, rest)
        else
          match c with
          | 'a' => some (.char '\x07', rest)
          | 'f' => some (.char '\x0c', rest)
          | 't' => some (.char '\t', rest)
          | 'n' => some (.char '\n', rest)
          | 'r' => some (.char '\r', rest)
          | 'v' => some (.char '\x0b', rest)
          | 'A' => some (.look .textStart, rest)
          | 'z' => some (.look .textEnd, rest)
          | 'b' => boundaryEscape? flags rest
          | 'B' => some (.look (.noBoundary u), rest)
          | '<' => some (.look (.wordStart u), rest)
          | '>' => some (.look (.wordEnd u), rest)
          | _ => none

/-- How two operands of a bracketed class combine. -/
inductive ClassOp where
  | inter | diff | symmDiff

/-- Combines two sets; when case is ignored, both take their case variants first. -/
def ClassOp.combine (flags : Flags) (op : ClassOp) (a b : CharSet) : CharSet :=
  let a := a.foldIf flags.ignoreCase
  let b := b.foldIf flags.ignoreCase
  match op with
  | inter => .inter a b
  | diff => .diff a b
  | symmDiff => .symmDiff a b

/-- A bracketed class that is still open: the members of the current operand, latest
first, with their depths, and the operand to the left of an operator. -/
structure OpenClass where
  negated : Bool
  members : List (CharSet × Nat) := []
  left : Option (CharSet × Nat × ClassOp) := none

namespace OpenClass

/-- The current operand with its depth. -/
def operand (open_ : OpenClass) : CharSet × Nat :=
  (CharSet.unions (open_.members.reverse.map (·.1)),
   (open_.members.map (·.2)).foldl max 0 + if open_.members.length < 2 then 0 else 1)

/-- The class so far, with its operator applied. -/
def value (flags : Flags) (open_ : OpenClass) : CharSet × Nat :=
  let (s, depth) := open_.operand
  match open_.left with
  | none => (s, depth)
  | some (left, leftDepth, op) => (op.combine flags left s, max leftDepth depth + 1)

/-- Starts the right operand of an operator. -/
def startOperand (flags : Flags) (open_ : OpenClass) (op : ClassOp) : OpenClass :=
  let (s, depth) := open_.value flags
  { open_ with members := [], left := some (s, depth, op) }

/-- Adds a member. -/
def add (open_ : OpenClass) (s : CharSet) (depth : Nat := 0) : OpenClass :=
  { open_ with members := (s, depth) :: open_.members }

/-- Adds a member that may go beyond ASCII only with Unicode. -/
def add? (flags : Flags) (open_ : OpenClass) (s : CharSet) (depth : Nat := 0) :
    Option OpenClass :=
  if !flags.unicode && s.exceedsAscii then none else some (open_.add s depth)

/-- The set of the whole class once its bracket is closed. -/
def close (flags : Flags) (open_ : OpenClass) : CharSet × Nat :=
  let (s, depth) := open_.value flags
  let s := s.foldIf flags.ignoreCase
  let universe_ : CharSet := if flags.unicode then .any else .range 0 255
  (if open_.negated then .inter universe_ s.compl else s, depth + 1)

end OpenClass

/-- The negation at the beginning of a class. -/
def negation (verbose : Bool) (cs : List Char) : Bool × List Char :=
  match cs with
  | '^' :: rest => (true, skipBlank verbose rest)
  | _ => (false, cs)

/-- Opens a class: an optional negation, hyphens, and a closing bracket that stands first
count as members. -/
def openClass? (verbose : Bool) (cs : List Char) : Option (OpenClass × List Char) :=
  let (negated, cs) := negation verbose (skipBlank verbose cs)
  let (open_, cs) := hyphens (cs.length + 1) { negated := negated } cs
  firstBracket? open_ cs
where
  hyphens (fuel : Nat) (open_ : OpenClass) (cs : List Char) : OpenClass × List Char :=
    match fuel, cs with
    | fuel + 1, '-' :: rest => hyphens fuel (open_.add (.single '-')) (skipBlank verbose rest)
    | _, cs => (open_, cs)
  firstBracket? (open_ : OpenClass) (cs : List Char) : Option (OpenClass × List Char) :=
    match cs with
    | [] => none
    | c :: rest =>
      if c == ']' && open_.members.isEmpty then
        match skipBlank verbose rest with
        | [] => none
        | d :: more => some (open_.add (.single ']'), d :: more)
      else some (open_, c :: rest)

/-- The set of a named ASCII class, from its name on. -/
def asciiName? (negated : Bool) (cs : List Char) : Option (CharSet × List Char) :=
  match cs.dropWhile (· != ':') with
  | ':' :: ']' :: rest =>
    (CharSet.asciiClass? (String.ofList (cs.takeWhile (· != ':')))).map fun s =>
      (if negated then s.compl else s, rest)
  | _ => none

/-- A named ASCII class such as `[:alpha:]`, after its opening bracket. -/
def asciiClass? (cs : List Char) : Option (CharSet × List Char) :=
  match cs with
  | ':' :: rest =>
    let (negated, rest) := negation false rest
    asciiName? negated rest
  | _ => none

/-- One character or escape. -/
def atom? (flags : Flags) (cs : List Char) : AtomResult :=
  match cs with
  | [] => none
  | '\\' :: rest => escape? flags rest
  | c :: rest => some (.char c, rest)

/-- One character or escape inside a class. A character beyond ASCII needs Unicode. -/
def classAtom? (flags : Flags) (cs : List Char) : AtomResult := do
  let (atom, rest) ← atom? flags cs
  match atom with
  | .char c => if flags.unicode || c.toNat < 128 then some (atom, rest) else none
  | _ => some (atom, rest)

/-- The set that an atom is as a member of a class. -/
def Atom.set? : Atom → Option CharSet
  | char c => some (.single c)
  | set s => some s
  | look _ => none

/-- The range from one atom to another. -/
def Atom.range? : Atom → Atom → Option CharSet
  | char low, char high => if low ≤ high then some (.range low.toNat high.toNat) else none
  | _, _ => none

/-- The end of a range that begins with the given atom, after its hyphen. Before a bracket
or another hyphen the hyphen begins no range. -/
def rangeEnd? (flags : Flags) (first : Atom) (cs : List Char) : Option (CharSet × List Char) :=
  match skipBlank flags.verbose cs with
  | [] => none
  | c :: more =>
    if c == ']' || c == '-' then first.set?.map fun s => (s, '-' :: cs)
    else do
      let (last, rest) ← classAtom? flags (c :: more)
      let s ← first.range? last
      pure (s, rest)

/-- A member of a class: a character, a range or the set of an escape. -/
def classMember? (flags : Flags) (cs : List Char) : Option (CharSet × List Char) := do
  let (first, rest) ← classAtom? flags cs
  match skipBlank flags.verbose rest with
  | [] => none
  | c :: more =>
    if c == '-' then rangeEnd? flags first more
    else first.set?.map fun s => (s, c :: more)

/-- The operator that is written with a character twice. -/
def ClassOp.of? : Char → Option ClassOp
  | '&' => some inter
  | '-' => some diff
  | '~' => some symmDiff
  | _ => none

/-- An operator between two operands of a class. -/
def classOp? (cs : List Char) : Option (ClassOp × List Char) :=
  match cs with
  | c :: d :: rest => if c == d then (ClassOp.of? c).map fun op => (op, rest) else none
  | _ => none

/-- How far the reading of a class has come: the class is open, inside of others with the
innermost first, or it is closed, a set with the depth of its nesting. -/
inductive ClassState where
  | reading (current : OpenClass) (outer : List OpenClass)
  | closed (s : CharSet) (depth : Nat)

/-- Closes a class, which becomes a member of the class around it. -/
def closeClass? (flags : Flags) (current : OpenClass) (outer : List OpenClass) :
    Option ClassState :=
  let (s, depth) := current.close flags
  match outer with
  | [] => some (.closed s depth)
  | parent :: further => (parent.add? flags s depth).map fun parent => .reading parent further

/-- What follows an opening bracket inside a class: a named ASCII class, or an inner class. -/
def innerClass? (flags : Flags) (current : OpenClass) (outer : List OpenClass)
    (cs : List Char) : Option (ClassState × List Char) :=
  match asciiClass? cs with
  | some (s, rest) => (current.add? flags s).map fun current => (.reading current outer, rest)
  | none =>
    (openClass? flags.verbose cs).map fun (inner, rest) =>
      (.reading inner (current :: outer), rest)

/-- Reads an operator or a member of a class. -/
def classPart? (flags : Flags) (current : OpenClass) (outer : List OpenClass)
    (cs : List Char) : Option (ClassState × List Char) :=
  match classOp? cs with
  | some (op, rest) => some (.reading (current.startOperand flags op) outer, rest)
  | none => do
    let (s, rest) ← classMember? flags cs
    let current ← current.add? flags s
    pure (.reading current outer, rest)

/-- Reads one element of a class: an operator, a member or the border of a class. -/
def classElement? (flags : Flags) (current : OpenClass) (outer : List OpenClass)
    (cs : List Char) : Option (ClassState × List Char) :=
  match cs with
  | [] => none
  | c :: rest =>
    if c == '[' then innerClass? flags current outer rest
    else if c == ']' then (closeClass? flags current outer).map fun state => (state, rest)
    else classPart? flags current outer (c :: rest)

/-- Reads a class after its opening bracket. -/
def class? (flags : Flags) (fuel : Nat) (current : OpenClass) (outer : List OpenClass)
    (cs : List Char) : Option ((CharSet × Nat) × List Char) :=
  match fuel with
  | 0 => none
  | fuel + 1 => do
    let (state, rest) ← classElement? flags current outer (skipBlank flags.verbose cs)
    match state with
    | .closed s depth => some ((s, depth), rest)
    | .reading current outer => class? flags fuel current outer rest

/-- Sets one flag. The flag that swaps greedy and lazy repetition changes no match. -/
def Flags.set? (flags : Flags) (c : Char) (value : Bool) : Option Flags :=
  match c with
  | 'i' => some { flags with ignoreCase := value }
  | 'm' => some { flags with multiLine := value }
  | 's' => some { flags with dotAll := value }
  | 'R' => some { flags with crlf := value }
  | 'u' => some { flags with unicode := value }
  | 'x' => some { flags with verbose := value }
  | 'U' => some flags
  | _ => none

/-- Reads flags up to `:` or `)`, which is given back with the text after it. No flag may
occur twice, at most one hyphen may occur, and a flag must follow it. -/
def flags? (flags : Flags) (seen : List Char) : List Char → Option ((Flags × Bool) × List Char)
  | [] => none
  | c :: rest =>
    if c == ')' || c == ':' then
      if seen.head? == some '-' || (c == ')' && seen.isEmpty) then none
      else some ((flags, c == ':'), rest)
    else if seen.contains c then none
    else if c == '-' then flags? flags (c :: seen) rest
    else do
      let flags ← flags.set? c (!seen.contains '-')
      flags? flags (c :: seen) rest

/-- Whether the characters are the name of a group. -/
def isGroupName : List Char → Bool
  | [] => false
  | first :: others =>
    (first == '_' || Text.isAlphabetic first)
      && others.all fun c => c == '_' || c == '.' || c == '[' || c == ']' || Text.isAlphanumeric c

/-- The name of a group up to the closing angle. -/
def groupName? (cs : List Char) : Option (String × List Char) :=
  match cs.dropWhile (· != '>') with
  | [] => none
  | _ :: rest =>
    let name := cs.takeWhile (· != '>')
    if isGroupName name then some (String.ofList name, rest) else none

/-- Decimal digits. -/
def digits (verbose : Bool) (fuel : Nat) (cs : List Char) : List Char × List Char :=
  match fuel, cs with
  | fuel + 1, c :: rest =>
    if c.isDigit then
      let (more, rest) := digits verbose fuel (skipBlank verbose rest)
      (c :: more, rest)
    else ([], cs)
  | _, cs => ([], cs)

/-- A number of rounds: decimal digits, with white space around them. -/
def count? (verbose : Bool) (cs : List Char) : Option (Nat × List Char) :=
  let (digits, rest) := digits verbose (cs.length + 1) (cs.dropWhile Text.isBlank)
  let n := digits.foldl (fun n c => 10 * n + (c.toNat - 48)) 0
  if digits.isEmpty || 2 ^ 32 ≤ n then none
  else some (n, skipBlank verbose (rest.dropWhile Text.isBlank))

/-- The greatest number of rounds, if there is one, after the comma. -/
def upperBound? (verbose : Bool) (least : Nat) (cs : List Char) :
    Option ((Nat × Option Nat) × List Char) :=
  match skipBlank verbose cs with
  | [] => none
  | c :: rest =>
    if c == '}' then some ((least, none), rest)
    else do
      let (most, rest) ← count? verbose (c :: rest)
      match rest with
      | [] => none
      | c :: rest => if c == '}' && least ≤ most then some ((least, some most), rest) else none

/-- The bounds of a repetition after its opening brace. -/
def bounds? (verbose : Bool) (cs : List Char) : Option ((Nat × Option Nat) × List Char) := do
  let (least, rest) ← count? verbose (skipBlank verbose cs)
  match rest with
  | [] => none
  | c :: rest =>
    if c == '}' then some ((least, some least), rest)
    else if c == ',' then upperBound? verbose least rest
    else none

/-- A group that is still open: what surrounds it. -/
structure OpenGroup where
  flags : Flags
  pieces : List Piece
  alternatives : List Piece

/-- The state of the reader: the flags in force, the pieces of the current concatenation
and the finished alternatives of the current group, latest first, the groups around it,
innermost first, and the names of groups so far. -/
structure Reader where
  flags : Flags := {}
  pieces : List Piece := []
  alternatives : List Piece := []
  outer : List OpenGroup := []
  names : List String := []

namespace Reader

/-- Adds a piece. -/
def add (r : Reader) (p : Pattern) (depth : Nat := 0) : Reader :=
  { r with pieces := { pattern := some p, depth := depth } :: r.pieces }

/-- The current group as one piece. -/
def group (r : Reader) : Piece :=
  alternation (concat r.pieces.reverse :: r.alternatives).reverse

/-- Starts the next alternative of the current group. -/
def nextAlternative (r : Reader) : Reader :=
  { r with pieces := [], alternatives := concat r.pieces.reverse :: r.alternatives }

/-- Opens a group with the given flags. -/
def openGroup (r : Reader) (flags : Flags) : Reader :=
  { r with
    flags := flags, pieces := [], alternatives := []
    outer := { flags := r.flags, pieces := r.pieces, alternatives := r.alternatives } :: r.outer }

/-- Closes the current group, which becomes a piece of the group around it. -/
def closeGroup? (r : Reader) : Option Reader :=
  match r.outer with
  | [] => none
  | around :: outer =>
    let group := r.group
    some { r with
      flags := around.flags, alternatives := around.alternatives, outer := outer
      pieces := { group with depth := group.depth + 1 } :: around.pieces }

/-- Puts the latest piece into a repetition. -/
def times? (r : Reader) (least : Nat) (most : Option Nat) : Option Reader :=
  match r.pieces with
  | { pattern := some p, depth := depth } :: others =>
    some { r with
      pieces := { pattern := some (.rounds p least most), depth := depth + 1 } :: others }
  | _ => none

/-- Adds a set. Without Unicode, a set with members beyond ASCII stands for single bytes
and is refused. -/
def addSet? (r : Reader) (s : CharSet) (depth : Nat := 0) : Option Reader :=
  if !r.flags.unicode && s.exceedsAscii then none else some (r.add (.set s) depth)

/-- Adds the set of a dot. -/
def addDot? (r : Reader) : Option Reader :=
  if !r.flags.unicode then none
  else
    let s : CharSet :=
      if r.flags.dotAll then .any
      else if r.flags.crlf then .diff .any (.union (.single '\n') (.single '\r'))
      else .diff .any (.single '\n')
    some (r.add (.set s))

/-- Adds a character, with its case variants when case is ignored. -/
def addChar (r : Reader) (c : Char) : Reader :=
  r.add (.set ((CharSet.single c).foldIf r.flags.ignoreCase))

/-- Reads a character that is an element of its own. -/
def single? (r : Reader) (c : Char) : Option Reader :=
  match c with
  | ')' => r.closeGroup?
  | '|' => some r.nextAlternative
  | '.' => r.addDot?
  | '^' => some (r.add (.look (if r.flags.multiLine then .lineStart r.flags.crlf else .textStart)))
  | '$' => some (r.add (.look (if r.flags.multiLine then .lineEnd r.flags.crlf else .textEnd)))
  | c => some (r.addChar c)

/-- Adds an atom. -/
def addAtom? (r : Reader) : Atom → Option Reader
  | .char c => some (r.addChar c)
  | .set s => r.addSet? s
  | .look l => some (r.add (.look l))

end Reader

/-- Skips the question mark that makes a repetition lazy. -/
def skipLazy (cs : List Char) : List Char :=
  match cs with
  | '?' :: rest => rest
  | _ => cs

/-- After `(?`, a condition on what is ahead or behind. -/
def looksAround : List Char → Bool
  | '=' :: _ | '!' :: _ | '<' :: '=' :: _ | '<' :: '!' :: _ => true
  | _ => false

/-- The text after the mark of a name. -/
def afterNameMark? : List Char → Option (List Char)
  | 'P' :: '<' :: rest | '<' :: rest => some rest
  | _ => none

/-- What follows `(?`: a group with a name or with flags, or flags for the rest of the group
around it. -/
def groupHead? (r : Reader) (cs : List Char) : Option (Reader × List Char) :=
  match afterNameMark? cs with
  | some rest => do
    let (name, rest) ← groupName? rest
    if r.names.contains name then none
    else some ({ r.openGroup r.flags with names := name :: r.names }, rest)
  | none => do
    let ((flags, opens), rest) ← flags? r.flags [] cs
    if opens then some (r.openGroup flags, rest)
    else some ({ r with flags := flags, pieces := { pattern := none } :: r.pieces }, rest)

/-- What follows an opening parenthesis. -/
def groupStart? (r : Reader) (cs : List Char) : Option (Reader × List Char) :=
  match skipBlank r.flags.verbose cs with
  | [] => some (r.openGroup r.flags, [])
  | c :: rest =>
    if c == '?' then if looksAround rest then none else groupHead? r rest
    else some (r.openGroup r.flags, c :: rest)

/-- What follows an opening bracket: a class. -/
def bracketed? (r : Reader) (cs : List Char) : Option (Reader × List Char) := do
  let (open_, rest) ← openClass? r.flags.verbose cs
  let ((s, depth), rest) ← class? r.flags (rest.length + 1) open_ [] rest
  let r ← r.addSet? s depth
  pure (r, rest)

/-- What follows an opening brace: the bounds of a repetition. -/
def repeated? (r : Reader) (cs : List Char) : Option (Reader × List Char) := do
  let ((least, most), rest) ← bounds? r.flags.verbose cs
  let after ← r.times? least most
  pure (after, skipLazy (skipBlank r.flags.verbose rest))

/-- What follows a backslash: an escape. -/
def escaped? (r : Reader) (cs : List Char) : Option (Reader × List Char) := do
  let (atom, rest) ← escape? r.flags cs
  let r ← r.addAtom? atom
  pure (r, rest)

/-- The bounds of a repetition that one character stands for. -/
def rounds? : Char → Option (Nat × Option Nat)
  | '?' => some (0, some 1)
  | '*' => some (0, none)
  | '+' => some (1, none)
  | _ => none

/-- Reads one element of a pattern, which is not blank. -/
def element? (r : Reader) (cs : List Char) : Option (Reader × List Char) :=
  match cs with
  | [] => none
  | c :: rest =>
    if c == '(' then groupStart? r rest
    else if c == '[' then bracketed? r rest
    else if c == '{' then repeated? r rest
    else if c == '\\' then escaped? r rest
    else
      match rounds? c with
      | some (least, most) => (r.times? least most).map fun r => (r, skipLazy rest)
      | none => (r.single? c).map fun r => (r, rest)

/-- Reads the rest of a pattern in a bounded number of elements. -/
def readFrom? (fuel : Nat) (r : Reader) (cs : List Char) : Option Piece :=
  match fuel with
  | 0 => none
  | fuel + 1 =>
    match skipBlank r.flags.verbose cs with
    | [] => if r.outer.isEmpty then some r.group else none
    | cs => do
      let (r, rest) ← element? r cs
      readFrom? fuel r rest

/-- Reads the rest of a pattern. -/
def readRest? (r : Reader) (cs : List Char) : Option Piece :=
  readFrom? (cs.length + 1) r cs

/-- The pattern that a text describes, however deep it is nested. -/
def readPiece? (text : String) : Option Piece :=
  readRest? {} text.toList

/-- The pattern that a text describes. -/
def read? (text : String) : Option Pattern := do
  let piece ← readPiece? text
  if maxDepth < piece.depth then none else piece.pattern

end EventPipeline.Pattern
