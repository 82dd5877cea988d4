import EventPipeline.Document.Basic

/-!
# `EventPipeline.Document.Yaml.Scalar`: scalars of indented documents

A place in a text is the rest of the text with the column where it starts. Scalars stand
without quotes, where an indicator or a comment ends them, or between single or double
quotes. A scalar may go on over several lines, which are folded into one.
-/

set_option autoImplicit false

namespace EventPipeline.Document.Yaml

/-- A place in a text. -/
structure Place where
  rest : List Char
  /-- how many characters stand before it on its line -/
  column : Nat := 0
  /-- there are only blanks before it on its line -/
  fresh : Bool := true

/-- A reader that moves forward in a text, which may fail. -/
abbrev Reader := StateT Place Option

/-- A character that ends a line. -/
def isBreak (c : Char) : Bool :=
  c == '\n' || c == '\r' || c == '\u0085' || c == '\u2028' || c == '\u2029'

/-- Space inside a line. -/
def isSpace (c : Char) : Bool :=
  c == ' ' || c == '\t'

/-- The text ends, or goes on with space or a new line. -/
def blankNext : List Char → Bool
  | [] => true
  | c :: _ => isSpace c || isBreak c

/-- A character that may stand in a document. -/
def isPrintable (c : Char) : Bool :=
  let n := c.toNat
  n == 0x09 || n == 0x0A || n == 0x0D || (0x20 ≤ n && n ≤ 0x7E) || n == 0x85
    || (0xA0 ≤ n && n ≤ 0xD7FF) || (0xE000 ≤ n && n ≤ 0xFFFD && n != 0xFEFF) || 0x10000 ≤ n

namespace Place

/-- The place after the next character. -/
def advance (p : Place) : Place :=
  match p.rest with
  | [] => p
  | '\r' :: '\n' :: cs => { rest := cs }
  | c :: cs =>
    if isBreak c then { rest := cs }
    else { rest := cs, column := p.column + 1, fresh := p.fresh && isSpace c }

/-- The place so many characters further on. -/
def skip (p : Place) : Nat → Place
  | 0 => p
  | n + 1 => p.advance.skip n

/-- A mark between documents stands here. -/
def atMark (p : Place) : Bool :=
  p.column == 0 &&
    (("---".toList.isPrefixOf p.rest || "...".toList.isPrefixOf p.rest)
      && blankNext (p.rest.drop 3))

end Place

/-- The rest of the text. -/
def rest : Reader (List Char) :=
  fun p => some (p.rest, p)

/-- Takes so many characters. -/
def drop (n : Nat) : Reader Unit :=
  fun p => some ((), p.skip n)

/-- Takes blanks and ends of lines, on a bound on their number, and counts the lines that
end. No tab may stand on a new line before the given column. -/
def foldBreaks (floor : Nat) : Nat → Reader Nat
  | 0 => failure
  | fuel + 1 => do
    let p ← get
    match p.rest with
    | [] => return 0
    | c :: _ =>
      if isBreak c then
        drop 1
        return (← foldBreaks floor fuel) + 1
      else if isSpace c then
        if c == '\t' && p.fresh && p.column < floor then failure
        else
          drop 1
          foldBreaks floor fuel
      else return 0

/-- What stands for so many line ends inside a scalar: a single one is a space, and of
several the first does not count. -/
def folded (breaks : Nat) : List Char :=
  if breaks ≤ 1 then [' '] else List.replicate (breaks - 1) '\n'

/-- A character that ends a scalar without quotes inside brackets. -/
def isFlowIndicator (c : Char) : Bool :=
  c == ',' || c == '[' || c == ']' || c == '{' || c == '}'

/-- The part of a scalar without quotes that stands on one line, and how many characters
it takes, without the blanks at its end. The blanks just before are given, and so is
their number. -/
def plainLine (flow : Bool) (blanks : List Char) : List Char → List Char × Nat
  | [] => ([], 0)
  | c :: cs =>
    if isBreak c then ([], 0)
    else if isSpace c then plainLine flow (blanks ++ [c]) cs
    else if c == '#' && !blanks.isEmpty then ([], 0)
    else if c == ':' && blankNext cs then ([], 0)
    else if flow && isFlowIndicator c then ([], 0)
    else
      let (more, taken) := plainLine flow [] cs
      (blanks ++ c :: more, blanks.length + 1 + taken)

/-- Takes the further lines of a scalar without quotes, on a bound on their number, and
says whether there are any. Outside of brackets they stand at or after the given
column. -/
def plainMore (flow : Bool) (floor : Nat) : Nat → Reader (List Char × Bool)
  | 0 => failure
  | fuel + 1 => do
    let cs ← rest
    if !blankNext cs then return ([], false)
    let breaks ← foldBreaks (if flow then 0 else floor) (cs.length + 1)
    let p ← get
    if breaks = 0 || (!flow && p.column < floor) || p.atMark || p.rest.head? == some '#' then
      return ([], false)
    let (line, taken) := plainLine flow [] p.rest
    if line.isEmpty then return ([], false)
    drop taken
    let (more, _) ← plainMore flow floor fuel
    return (folded breaks ++ line ++ more, true)

/-- Takes a scalar without quotes, and says whether it goes over several lines. -/
def plainScalar (flow : Bool) (floor : Nat) : Reader (String × Bool) := do
  let cs ← rest
  let (line, taken) := plainLine flow [] cs
  drop taken
  let after ← rest
  -- inside brackets no indicator may follow the colon directly
  if flow && after.head? == some ':' && (after.drop 1).head?.any isFlowIndicator then failure
  let (more, several) ← plainMore flow floor (cs.length + 1)
  return (String.ofList (line ++ more), several)

/-- Takes so many hexadecimal digits that stand for a character. -/
def character (length : Nat) : Reader Char := do
  let digits := (← rest).take length
  drop length
  match if digits.length == length then Plain.digits? 16 digits else none with
  | some n => if h : n.isValidChar then return Char.ofNatAux n h else failure
  | none => failure

/-- Takes what follows the backslash of an escape. -/
def escaped : Reader Char := do
  let cs ← rest
  drop 1
  match cs.head? with
  | some '0' => return '\x00'
  | some 'a' => return '\x07'
  | some 'b' => return '\x08'
  | some 't' | some '\t' => return '\t'
  | some 'n' => return '\n'
  | some 'v' => return '\x0b'
  | some 'f' => return '\x0c'
  | some 'r' => return '\r'
  | some 'e' => return '\x1b'
  | some ' ' => return ' '
  | some '"' => return '"'
  | some '/' => return '/'
  | some '\\' => return '\\'
  | some 'N' => return '\u0085'
  | some '_' => return '\u00a0'
  | some 'L' => return '\u2028'
  | some 'P' => return '\u2029'
  | some 'x' => character 2
  | some 'u' => character 4
  | some 'U' => character 8
  | _ => failure

/-- Takes the rest of a scalar between quotes, on a bound on its length, and says whether
it goes over several lines. -/
def quotedRest (double : Bool) : Nat → Reader (List Char × Bool)
  | 0 => failure
  | fuel + 1 => do
    let cs ← rest
    match cs with
    | [] => failure
    | c :: more =>
      let quote := if double then '"' else '\''
      let afterBlanks := cs.dropWhile isSpace
      if c == quote then
        if !double && more.head? == some quote then
          drop 2
          cons quote (← quotedRest double fuel)
        else
          drop 1
          return ([], false)
      else if isBreak c || (isSpace c && afterBlanks.head?.any isBreak) then
        let breaks ← foldBreaks 0 (cs.length + 1)
        let (text, _) ← quotedRest double fuel
        return (folded breaks ++ text, true)
      else if double && c == '\\' then
        drop 1
        if more.head?.any isBreak then
          let breaks ← foldBreaks 0 (cs.length + 1)
          let (text, _) ← quotedRest double fuel
          return (List.replicate (breaks - 1) '\n' ++ text, true)
        else
          let e ← escaped
          cons e (← quotedRest double fuel)
      else
        drop 1
        cons c (← quotedRest double fuel)
where
  /-- Puts a character in front of the text read so far. -/
  cons (c : Char) (read : List Char × Bool) : Reader (List Char × Bool) :=
    pure (c :: read.1, read.2)

/-- A scalar without quotes can start with this text. -/
def startsPlain (flow : Bool) : List Char → Bool
  | [] => false
  | c :: cs =>
    let indicators := "-?:,[]\x7b\x7d#&*!|>'\"%@`".toList
    if !(isSpace c || isBreak c || indicators.contains c) then true
    else if c == '-' then !(cs.head?.any isSpace)
    else (c == '?' || c == ':') && !flow && !blankNext cs

/-- Takes a scalar, and says whether it goes over several lines. -/
def scalar (flow : Bool) (floor : Nat) : Reader (Document × Bool) := do
  let cs ← rest
  match cs.head? with
  | some '"' =>
    drop 1
    let (text, several) ← quotedRest true (cs.length + 1)
    return (.str (String.ofList text), several)
  | some '\'' =>
    drop 1
    let (text, several) ← quotedRest false (cs.length + 1)
    return (.str (String.ofList text), several)
  | _ =>
    if startsPlain flow cs then
      let (text, several) ← plainScalar flow floor
      return (.plain text, several)
    else failure

end EventPipeline.Document.Yaml
