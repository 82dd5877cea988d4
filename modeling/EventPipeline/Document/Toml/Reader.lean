import EventPipeline.Document.Toml.Table

/-!
# `EventPipeline.Document.Toml.Reader`: documents of tables and assignments

Reads a notation of one statement a line: `[name]` opens a table, `[[name]]` opens a new
table of a list, and `name = value` assigns to a name of the open table. `Toml.read?`
reads a whole text. Dates and times are no values here.
-/

set_option autoImplicit false

namespace EventPipeline.Document.Toml

/-- A reader of the rest of a text, which may fail. -/
abbrev Reader := StateT (List Char) Option

namespace Reader

/-- The next character, if there is one. -/
def peek : Reader (Option Char) :=
  fun cs => some (cs.head?, cs)

/-- Takes characters as long as they pass a test. -/
def takeWhile (test : Char → Bool) : Reader (List Char) :=
  fun cs => some (cs.takeWhile test, cs.dropWhile test)

/-- Takes a fixed text if it comes next, and says whether it did. -/
def accept (text : String) : Reader Bool :=
  fun cs =>
    if text.toList.isPrefixOf cs then some (true, cs.drop text.toList.length)
    else some (false, cs)

/-- Takes a fixed text. -/
def expect (text : String) : Reader Unit := do
  if ← accept text then pure () else failure

/-- Takes the next character. -/
def take : Reader Char
  | [] => none
  | c :: cs => some (c, cs)

/-- How many characters are left. -/
def remaining : Reader Nat :=
  fun cs => some (cs.length, cs)

end Reader

open Reader

/-- Space inside a line. -/
def isSpace (c : Char) : Bool :=
  c == ' ' || c == '\t'

/-- A character that may stand in a comment or a string: no control character but the
tab. -/
def isText (c : Char) : Bool :=
  c == '\t' || (c.toNat ≥ 32 && c.toNat != 127)

/-- Takes the end of a line, and says whether there was one. -/
def lineEnd : Reader Bool := do
  if ← accept "\n" then return true
  accept "\r\n"

/-- Takes space inside a line and a comment. -/
def skipRest : Reader Unit := do
  let _ ← takeWhile isSpace
  if ← accept "#" then
    let _ ← takeWhile isText

/-- Takes space, comments and line ends, on a bound on the length of the text. -/
def skipLines : Nat → Reader Unit
  | 0 => pure ()
  | fuel + 1 => do
    skipRest
    if ← lineEnd then skipLines fuel

/-- Takes so many hexadecimal digits that stand for a character. -/
def character (length : Nat) : Reader Char := do
  let digits ← (List.range length).mapM fun _ => take
  match Plain.digits? 16 digits with
  | some n => if h : n.isValidChar then return Char.ofNatAux n h else failure
  | none => failure

/-- Takes what follows the backslash of an escape. -/
def escaped : Reader Char := do
  match ← take with
  | 'b' => return '\x08'
  | 't' => return '\t'
  | 'n' => return '\n'
  | 'f' => return '\x0c'
  | 'r' => return '\r'
  | '"' => return '"'
  | '\\' => return '\\'
  | 'u' => character 4
  | 'U' => character 8
  | _ => failure

/-- Takes the rest of a string of one line, on a bound on its length. In a literal string
nothing is escaped. -/
def lineString (literal : Bool) : Nat → Reader (List Char)
  | 0 => failure
  | fuel + 1 => do
    let c ← take
    if c == (if literal then '\'' else '"') then return []
    else if !isText c then failure
    else
      let c ← if c == '\\' && !literal then escaped else pure c
      return c :: (← lineString literal fuel)

/-- Takes the rest of a string of several lines, on a bound on its length. Up to two
quotes may stand before the three that end it. -/
def blockString (literal : Bool) : Nat → Reader (List Char)
  | 0 => failure
  | fuel + 1 => do
    let quote := if literal then '\'' else '"'
    if ← accept (String.ofList [quote, quote, quote]) then
      let more ← takeWhile (· == quote)
      if more.length ≤ 2 then return more else failure
    else if ← lineEnd then return '\n' :: (← blockString literal fuel)
    else
      let c ← take
      if !isText c then failure
      else if c == '\\' && !literal then
        let blank ← takeWhile isSpace
        if ← lineEnd then
          let length ← remaining
          skipBlankLines length
          blockString literal fuel
        else if !blank.isEmpty then failure
        else
          let c ← escaped
          return c :: (← blockString literal fuel)
      else return c :: (← blockString literal fuel)
where
  /-- Takes blanks and line ends. -/
  skipBlankLines : Nat → Reader Unit
    | 0 => pure ()
    | fuel + 1 => do
      let _ ← takeWhile isSpace
      if ← lineEnd then skipBlankLines fuel

/-- Takes a string, if one comes next. -/
def string? : Reader (Option String) := do
  let length := (← remaining) + 1
  if ← accept "\"\"\"" then
    let _ ← lineEnd
    return String.ofList (← blockString false length)
  else if ← accept "'''" then
    let _ ← lineEnd
    return String.ofList (← blockString true length)
  else if ← accept "\"" then return String.ofList (← lineString false length)
  else if ← accept "'" then return String.ofList (← lineString true length)
  else return none

/-- A character of a name without quotes. -/
def isBare (c : Char) : Bool :=
  c.isAlphanum || c == '_' || c == '-'

/-- Takes one part of a name; its quotes, if any, end on the same line. -/
def simpleName : Reader String := do
  let length := (← remaining) + 1
  if ← accept "\"" then return String.ofList (← lineString false length)
  else if ← accept "'" then return String.ofList (← lineString true length)
  else
    let cs ← takeWhile isBare
    if cs.isEmpty then failure else return String.ofList cs

/-- Takes a name of parts with dots between them, on a bound on their number. -/
def dottedName : Nat → Reader (List String)
  | 0 => failure
  | fuel + 1 => do
    let _ ← takeWhile isSpace
    let part ← simpleName
    let _ ← takeWhile isSpace
    if ← accept "." then return part :: (← dottedName fuel) else return [part]

/-- Removes the underscores between digits. -/
def joined? (isDigit : Char → Bool) (cs : List Char) : Option (List Char) :=
  let parts := cs.splitOn '_'
  if parts.all fun part => !part.isEmpty && part.all isDigit then some parts.flatten else none

/-- Removes the sign of a number. -/
def unsigned (cs : List Char) : List Char :=
  match cs with
  | '+' :: rest | '-' :: rest => rest
  | _ => cs

/-- The digits of a decimal number without a sign; of several digits the first is not
`0`. -/
def decimal? (cs : List Char) : Option (List Char) :=
  (joined? Char.isDigit cs).filter fun digits => digits.length == 1 || digits.head? != some '0'

/-- The value of a whole number. -/
def int? (cs : List Char) : Option Int :=
  let based (base : Nat) (digits : List Char) : Option Int := do
    let digits ← joined? (fun c => (Plain.digit? base c).isSome) digits
    let n ← Plain.digits? base digits
    return n
  let n? := match cs with
    | '0' :: 'x' :: rest => based 16 rest
    | '0' :: 'o' :: rest => based 8 rest
    | '0' :: 'b' :: rest => based 2 rest
    | _ =>
      ((decimal? (unsigned cs)).bind (Plain.digits? 10)).map fun n =>
        if cs.head? == some '-' then -(n : Int) else n
  n?.filter fun n => -(2 ^ 63 : Int) ≤ n && n < 2 ^ 63

/-- The value of a floating-point number: with a fraction, an exponent or both, or one of
the names of infinity and `NaN`. -/
def float? (cs : List Char) : Option Float :=
  let body := unsigned cs
  let minus := cs.head? == some '-'
  let signed (x : Float) : Float := if minus then -x else x
  if body == "inf".toList then some (signed (1.0 / 0.0))
  else if body == "nan".toList then some (signed (0.0 / 0.0))
  else
    let isPower (c : Char) : Bool := c == 'e' || c == 'E'
    let mantissa := body.takeWhile fun c => !isPower c
    let power := body.dropWhile fun c => !isPower c
    let whole := mantissa.takeWhile (· != '.')
    let fraction := mantissa.dropWhile (· != '.')
    let fraction? : Option (List Char) := match fraction with
      | [] => some []
      | _ :: digits => (joined? Char.isDigit digits).map ('.' :: ·)
    let power? : Option (List Char) := match power with
      | [] => some []
      | _ :: rest =>
        let sign := rest.takeWhile fun c => c == '+' || c == '-'
        if sign.length ≤ 1 then
          (joined? Char.isDigit (rest.drop sign.length)).map fun digits => 'e' :: sign ++ digits
        else none
    if fraction.isEmpty && power.isEmpty then none
    else do
      let whole ← decimal? whole
      let fraction ← fraction?
      let power ← power?
      let x ← Number.readFloat? (whole ++ fraction ++ power)
      if x.isInf && !minus then none else some (signed x)

/-- A character inside a number or a word. -/
def isWordChar (c : Char) : Bool :=
  isBare c || c == '+' || c == '.'

/-- Takes a number or a truth value. -/
def word : Reader Document := do
  let cs ← takeWhile isWordChar
  if cs == "true".toList then return .bool true
  else if cs == "false".toList then return .bool false
  else
    match int? cs, float? cs with
    | some n, _ => return .int n
    | none, some x => return .float x
    | none, none => failure

mutual

/-- Takes a value, on a bound on the length of its text. -/
def value (fuel : Nat) : Reader Document :=
  match fuel with
  | 0 => failure
  | fuel + 1 => do
    if let some s ← string? then return .str s
    else if ← accept "[" then return .list (← elements fuel)
    else if ← accept "\x7b" then
      let _ ← takeWhile isSpace
      if ← accept "\x7d" then return .map []
      else return .map (tableFields (← inlineTable fuel []))
    else word

/-- Takes the elements of a list up to its end; a comma may stand after the last one. -/
def elements (fuel : Nat) : Reader (List Document) :=
  match fuel with
  | 0 => failure
  | fuel + 1 => do
    skipLines fuel
    if ← accept "]" then return []
    else
      let d ← value fuel
      skipLines fuel
      if ← accept "," then return d :: (← elements fuel)
      else
        expect "]"
        return [d]

/-- Takes the assignments of a table inside one line up to its end. -/
def inlineTable (fuel : Nat) (table : Table) : Reader Table :=
  match fuel with
  | 0 => failure
  | fuel + 1 => do
    let name ← dottedName fuel
    expect "="
    let _ ← takeWhile isSpace
    let d ← value fuel
    let _ ← takeWhile isSpace
    let table ← (table.assign? [] name d : Option Table)
    if ← accept "," then inlineTable fuel table
    else
      expect "\x7d"
      return table

end

/-- Takes the end of a statement: the end of its line or of the text. -/
def statementEnd : Reader Unit := do
  skipRest
  if !(← lineEnd) && (← peek).isSome then failure

/-- Takes all statements of a text, on a bound on its length, given the tables so far and
the path of the table that is open. -/
def statements : Nat → Table → List String → Reader Table
  | 0, _, _ => failure
  | fuel + 1, table, opened => do
    skipLines fuel
    if (← peek).isNone then return table
    else if ← accept "[[" then
      let path ← dottedName fuel
      expect "]]"
      statementEnd
      statements fuel (← (table.openElement? path : Option Table)) path
    else if ← accept "[" then
      let path ← dottedName fuel
      expect "]"
      statementEnd
      statements fuel (← (table.open? path : Option Table)) path
    else
      let name ← dottedName fuel
      expect "="
      let _ ← takeWhile isSpace
      let d ← value fuel
      statementEnd
      statements fuel (← (table.assign? opened name d : Option Table)) opened

/-- Reads a text. A byte order mark at its start does not count. -/
def read? (text : String) : Option Document :=
  let cs := match text.toList with
    | '\ufeff' :: rest => rest
    | cs => cs
  ((statements (cs.length + 2) [] []).run cs).map fun result => .map (tableFields result.1)

end EventPipeline.Document.Toml
