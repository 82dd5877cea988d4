import EventPipeline.Document.Yaml.Scalar

/-!
# `EventPipeline.Document.Yaml.Reader`: documents of indented lists and mappings

Reads a notation whose structure is the indentation of its lines: elements of a list
start with a dash, fields of a mapping with a name and a colon, and both may also stand
in brackets, where the lines do not matter. `Yaml.read?` reads a whole text that holds
one document. Anchors, tags and block scalars are refused.
-/

set_option autoImplicit false

namespace EventPipeline.Document.Yaml

/-- Takes blanks, comments and ends of lines, on a bound on their number. Where tabs are
not allowed none may stand before what comes next; on a new line of block structure they
never are. -/
def skipBlank (flow tabs : Bool) : Nat → Reader Unit
  | 0 => failure
  | fuel + 1 => do
    match (← rest).head? with
    | some ' ' => drop 1; skipBlank flow tabs fuel
    | some '\t' => if tabs then do drop 1; skipBlank flow tabs fuel else failure
    | some '#' =>
      drop ((← rest).takeWhile fun c => !isBreak c).length
      skipBlank flow tabs fuel
    | some c => if isBreak c then do drop 1; skipBlank flow flow fuel
    | none => pure ()

/-- Takes everything up to the next token. -/
def skipTo (flow tabs : Bool) : Reader Unit := do
  skipBlank flow tabs ((← rest).length + 1)

/-- What was taken since the given place is short enough for a name, and on one line. -/
def isNameSpan (start : Place) : Reader Bool := do
  let taken := start.rest.length - (← rest).length
  return taken ≤ 1024 && !(start.rest.take taken).any isBreak

/-- The text that a scalar shows. -/
def scalarText? : Document → Option String
  | .str s | .plain s => some s
  | _ => none

/-- What stands where a value is left out. -/
def absent : Document := .plain ""

mutual

/-- Takes a value inside brackets, on a bound on the length of its text. -/
def flowNode (fuel : Nat) : Reader Document :=
  match fuel with
  | 0 => failure
  | fuel + 1 => do
    match (← rest).head? with
    | some '[' => do drop 1; return .list (← flowItems fuel)
    | some '{' => do drop 1; return .map (← flowFields fuel)
    | _ => return (← scalar true 0).1

/-- Takes what follows a name inside brackets that started at the given place: a colon and
a value, or nothing. -/
def flowValue? (fuel : Nat) (start : Place) : Reader (Option Document) :=
  match fuel with
  | 0 => failure
  | fuel + 1 => do
    skipTo true true
    if (← rest).head? == some ':' then
      guard (← isNameSpan start)
      drop 1
      skipTo true true
      if (← rest).head?.any fun c => c == ',' || c == ']' || c == '}' then return some absent
      else return some (← flowNode fuel)
    else return none

/-- Takes the elements of a list in brackets up to its end; a comma may stand after the
last one. -/
def flowItems (fuel : Nat) : Reader (List Document) :=
  match fuel with
  | 0 => failure
  | fuel + 1 => do
    skipTo true true
    if (← rest).head? == some ']' then
      drop 1
      return []
    let start ← get
    let item ← flowNode fuel
    -- an element with a colon is a mapping of one field
    let item ← match ← flowValue? fuel start with
      | some value =>
        match scalarText? item with
        | some name => pure (Document.map [(name, value)])
        | none => failure
      | none => pure item
    skipTo true true
    match (← rest).head? with
    | some ',' => do drop 1; return item :: (← flowItems fuel)
    | some ']' => do drop 1; return [item]
    | _ => failure

/-- Takes the fields of a mapping in brackets up to its end. -/
def flowFields (fuel : Nat) : Reader (List (String × Document)) :=
  match fuel with
  | 0 => failure
  | fuel + 1 => do
    skipTo true true
    if (← rest).head? == some '}' then
      drop 1
      return []
    let start ← get
    let name ← (scalarText? (← flowNode fuel) : Option String)
    let value := (← flowValue? fuel start).getD absent
    skipTo true true
    match (← rest).head? with
    | some ',' => do drop 1; return (name, value) :: (← flowFields fuel)
    | some '}' => do drop 1; return [(name, value)]
    | _ => failure

end

/-- A dash that starts an element comes next. -/
def atDash : List Char → Bool
  | '-' :: cs => blankNext cs
  | _ => false

/-- A colon that ends a name comes next. -/
def atColon : List Char → Bool
  | ':' :: cs => blankNext cs
  | _ => false

/-- Takes space inside a line. -/
def skipSpace : Reader Unit := do
  drop ((← rest).takeWhile isSpace).length

/-- Takes a scalar or a value in brackets. The name says whether it can name a field: it
can if it is a scalar on one line and a colon follows on that line. -/
def leaf (floor : Nat) : Reader (Document × Option String) := do
  let start ← get
  let cs := start.rest
  if cs.head? == some '[' || cs.head? == some '{' then
    return (← flowNode (cs.length + 1), none)
  else
    let (d, several) ← scalar false floor
    skipSpace
    let p ← get
    let isName := !several && !p.fresh && atColon p.rest && (← isNameSpan start)
    return (d, if isName then scalarText? d else none)

/-- Where the value of a field or an element stands. -/
inductive Slot where
  /-- alone on its lines, or after a dash -/
  | open
  /-- after the colon of a name -/
  | field
deriving DecidableEq

mutual

/-- Takes a value whose lines start at or after the given column, on a bound on the
length of its text. The elements of a list may start one column before. -/
def blockNode (fuel : Nat) (floor : Nat) (slot : Slot) : Reader Document :=
  match fuel with
  | 0 => failure
  | fuel + 1 => do
    let p ← get
    if p.rest.isEmpty || p.atMark then return absent
    else if p.fresh && p.column < floor then
      if slot == .field && p.column + 1 == floor && atDash p.rest then
        return .list (← blockItems fuel p.column)
      else return absent
    else
      -- after a colon on the same line no further structure may start
      let structured := p.fresh || slot == .open
      if atDash p.rest then
        if structured then return .list (← blockItems fuel p.column) else failure
      else
        let (d, name) ← leaf floor
        match name with
        | some name =>
          if structured then return .map (← blockFields fuel p.column name) else failure
        | none => return d

/-- Takes the elements of a list whose dashes stand in the given column. -/
def blockItems (fuel : Nat) (column : Nat) : Reader (List Document) :=
  match fuel with
  | 0 => failure
  | fuel + 1 => do
    drop 1
    skipTo false false
    let item ← blockNode fuel (column + 1) .open
    skipTo false true
    let p ← get
    if p.rest.isEmpty || p.column < column then return [item]
    else if p.fresh && p.column == column && !p.atMark then
      -- a list under a name ends where the next name starts
      if atDash p.rest then return item :: (← blockItems fuel column) else return [item]
    else if p.atMark then return [item]
    else failure

/-- Takes the fields of a mapping whose names stand in the given column, after the first
name. -/
def blockFields (fuel : Nat) (column : Nat) (name : String) :
    Reader (List (String × Document)) :=
  match fuel with
  | 0 => failure
  | fuel + 1 => do
    drop 1
    skipTo false true
    let value ← blockNode fuel (column + 1) .field
    skipTo false true
    let p ← get
    if p.rest.isEmpty || p.column < column || p.atMark then return [(name, value)]
    else if p.fresh && p.column == column && !atDash p.rest then
      match ← leaf (column + 1) with
      | (_, some next) => return (name, value) :: (← blockFields fuel column next)
      | (_, none) => failure
    else failure

end

/-- Takes a whole text with one document. -/
def wholeText : Reader Document := do
  skipTo false false
  let p ← get
  if p.atMark && p.rest.head? == some '-' then
    drop 3
    skipTo false false
  let d ← blockNode ((← rest).length + 2) 0 .open
  skipTo false true
  let p ← get
  if p.atMark && p.rest.head? == some '.' then
    drop 3
    skipTo false false
  if (← rest).isEmpty then return d else failure

/-- Reads a text. A byte order mark at its start does not count. -/
def read? (text : String) : Option Document :=
  let cs := match text.toList with
    | '\ufeff' :: rest => rest
    | cs => cs
  if cs.all isPrintable then (wholeText.run { rest := cs }).map (·.1) else none

end EventPipeline.Document.Yaml
