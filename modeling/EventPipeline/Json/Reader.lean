import EventPipeline.Json.Basic

/-!
# `EventPipeline.Json.Reader`: reading the data format

A text is read in two steps: into tokens, and from tokens into a value. The second
step keeps the containers that are still open on a stack, so that it goes through the
tokens once. Objects keep their fields in the order of the text, also when names
repeat; `Json.sorted` puts them into key order.
-/

set_option autoImplicit false

namespace EventPipeline.Json

/-- A token: punctuation, or a value without parts. -/
inductive Token where
  | beginArray | endArray | beginObject | endObject | colon | comma
  | value (j : Json)

/-- The number `significand · 10^exponent`, rounded once when the significand becomes a
floating-point number and once when it is scaled. What is too great has no value. -/
def scale? (significand : Nat) (exponent : Int) : Option Float :=
  let f := Float.ofNat significand
  if significand = 0 then some 0.0
  else if 308 < exponent then none
  else if 0 ≤ exponent then
    let g := f * Float.ofScientific 1 false exponent.toNat
    if g.isInf then none else some g
  else go 3 f (-exponent).toNat
where
  /-- Divides by `10^n`, at most by `10^308` at a time. -/
  go (rounds : Nat) (f : Float) (n : Nat) : Option Float :=
    if n ≤ 308 then some (f / Float.ofScientific 1 false n)
    else if f == 0.0 then some f
    else
      match rounds with
      | 0 => some 0.0
      | rounds + 1 => go rounds (f / Float.ofScientific 1 false 308) (n - 308)

/-- The digits that fit a 64-bit significand, and how many do not. -/
def significand (start : Nat) (digits : List Char) : Nat × Nat :=
  match digits with
  | [] => (start, 0)
  | d :: ds =>
    let next := 10 * start + (d.toNat - 48)
    if next < 2 ^ 64 then significand next ds else (start, digits.length)

/-- The value of a number literal, given its digits before and after the point and its
exponent. A number too great for a floating-point number is infinite here; nothing that
reads a number accepts it. -/
def number (negative : Bool) (whole : List Char) (fraction : Option (List Char))
    (exponent : Option Int) : Json :=
  let (s, dropped) := significand 0 whole
  if dropped = 0 && fraction.isNone && exponent.isNone && (!negative || s ≤ 2 ^ 63) then
    if negative && s = 0 then float (-0.0) else int (if negative then -(s : Int) else s)
  else
    let digits := fraction.getD []
    let (s', kept) : Nat × Nat :=
      let (t, rest) := significand s digits
      (t, digits.length - rest)
    let power := (dropped : Int) - kept + exponent.getD 0
    match scale? s' power with
    | some f => float (if negative then -f else f)
    | none => float (if negative then -(1.0 / 0.0) else 1.0 / 0.0)

/-- The value of a text of decimal digits. -/
def digitsValue (cs : List Char) : Nat :=
  cs.foldl (fun n c => 10 * n + (c.toNat - 48)) 0

/-- Takes a minus sign, if one stands there. -/
def readSign (cs : List Char) : Bool × List Char :=
  match cs with
  | '-' :: rest => (true, rest)
  | _ => (false, cs)

/-- Reads the digits after a point, if one stands there. -/
def readFraction? (cs : List Char) : Option (Option (List Char) × List Char) :=
  match cs with
  | '.' :: rest =>
    let digits := rest.takeWhile Char.isDigit
    if digits.isEmpty then none else some (some digits, rest.dropWhile Char.isDigit)
  | _ => some (none, cs)

/-- Takes the sign of an exponent, if one stands there. -/
def readExponentSign (cs : List Char) : Bool × List Char :=
  match cs with
  | '+' :: rest => (false, rest)
  | _ => readSign cs

/-- Reads an exponent, if one stands there. -/
def readExponent? (cs : List Char) : Option (Option Int × List Char) :=
  match cs with
  | c :: rest =>
    if c == 'e' || c == 'E' then
      let (minus, rest) := readExponentSign rest
      let digits := rest.takeWhile Char.isDigit
      if digits.isEmpty then none
      else
        -- beyond this bound every exponent acts alike
        let n : Int := min (digitsValue digits) 1000000
        some (some (if minus then -n else n), rest.dropWhile Char.isDigit)
    else some (none, cs)
  | [] => some (none, cs)

/-- Reads a number literal. -/
def readNumber? (cs : List Char) : Option (Json × List Char) :=
  let (negative, rest) := readSign cs
  let whole := rest.takeWhile Char.isDigit
  if whole.isEmpty || (whole.head? == some '0' && whole.length != 1) then none
  else do
    let (fraction, rest) ← readFraction? (rest.dropWhile Char.isDigit)
    let (exponent, rest) ← readExponent? rest
    pure (number negative whole fraction exponent, rest)

/-- The value of a hexadecimal digit. -/
def hexValue? (c : Char) : Option Nat :=
  if c.isDigit then some (c.toNat - 48)
  else if 'a' ≤ c && c ≤ 'f' then some (c.toNat - 87)
  else if 'A' ≤ c && c ≤ 'F' then some (c.toNat - 55)
  else none

/-- Four hexadecimal digits. -/
def unit? (cs : List Char) : Option (Nat × List Char) :=
  match cs with
  | a :: b :: c :: d :: rest => do
    let a ← hexValue? a
    let b ← hexValue? b
    let c ← hexValue? c
    let d ← hexValue? d
    pure (((a * 16 + b) * 16 + c) * 16 + d, rest)
  | _ => none

/-- The character that a backslash and a single character stand for. -/
def escaped? (e : Char) : Option Char :=
  match e with
  | '"' => some '"'
  | '\\' => some '\\'
  | '/' => some '/'
  | 'b' => some '\x08'
  | 'f' => some '\x0c'
  | 'n' => some '\n'
  | 'r' => some '\r'
  | 't' => some '\t'
  | _ => none

/-- Reads the second of two units that stand for one character. -/
def readLow? (high : Nat) (cs : List Char) : Option (Char × List Char) :=
  match cs with
  | '\\' :: 'u' :: rest => do
    let (low, rest) ← unit? rest
    if 0xDC00 ≤ low && low ≤ 0xDFFF then
      some (Char.ofNat (0x10000 + (high - 0xD800) * 1024 + (low - 0xDC00)), rest)
    else none
  | _ => none

/-- Reads an escape after its backslash. Escapes of 16-bit units come alone or in pairs that
stand for one character. -/
def readEscape? (cs : List Char) : Option (Char × List Char) :=
  match cs with
  | 'u' :: rest => do
    let (high, rest) ← unit? rest
    if 0xD800 ≤ high && high ≤ 0xDBFF then readLow? high rest
    else if 0xDC00 ≤ high && high ≤ 0xDFFF then none
    else some (Char.ofNat high, rest)
  | e :: rest => (escaped? e).map fun c => (c, rest)
  | [] => none

/-- Reads the character of a string that is spelled from `c` on. -/
def readChar? (c : Char) (rest : List Char) : Option (Char × List Char) :=
  if c == '\\' then readEscape? rest else if c.toNat < 32 then none else some (c, rest)

/-- Reads the rest of a string after its opening quote, on a bound on its length. -/
def readString? (fuel : Nat) (cs : List Char) : Option (List Char × List Char) :=
  match fuel, cs with
  | 0, _ => none
  | _, [] => none
  | fuel + 1, c :: rest =>
    if c == '"' then some ([], rest)
    else do
      let (c, rest) ← readChar? c rest
      let (more, rest) ← readString? fuel rest
      pure (c :: more, rest)

/-- White space of the format. -/
def isSpace (c : Char) : Bool :=
  c == ' ' || c == '\n' || c == '\t' || c == '\r'

/-- Reads a word such as `true`. -/
def readWord? (cs : List Char) : Option (Json × List Char) :=
  match cs with
  | 'n' :: 'u' :: 'l' :: 'l' :: rest => some (null, rest)
  | 't' :: 'r' :: 'u' :: 'e' :: rest => some (bool true, rest)
  | 'f' :: 'a' :: 'l' :: 's' :: 'e' :: rest => some (bool false, rest)
  | _ => none

/-- Reads the token that starts with the character `c`. -/
def readToken? (c : Char) (rest : List Char) : Option (Token × List Char) :=
  match c with
  | '[' => some (.beginArray, rest)
  | ']' => some (.endArray, rest)
  | '{' => some (.beginObject, rest)
  | '}' => some (.endObject, rest)
  | ':' => some (.colon, rest)
  | ',' => some (.comma, rest)
  | '"' =>
    (readString? (rest.length + 1) rest).map fun (s, rest) =>
      (.value (str (String.ofList s)), rest)
  | _ =>
    let scalar := if c == '-' || c.isDigit then readNumber? (c :: rest) else readWord? (c :: rest)
    scalar.map fun (j, rest) => (.value j, rest)

/-- The tokens of a text, on a bound on its length. -/
def tokensFrom? (fuel : Nat) (cs : List Char) : Option (List Token) :=
  match fuel, cs with
  | _, [] => some []
  | 0, _ => none
  | fuel + 1, c :: rest =>
    if isSpace c then tokensFrom? fuel rest
    else do
      let (t, rest) ← readToken? c rest
      (tokensFrom? fuel rest).map (t :: ·)

/-- The tokens of a text. -/
def tokens? (cs : List Char) : Option (List Token) :=
  tokensFrom? (cs.length + 1) cs

/-- A container that is still open, with its parts so far in reverse; an object also
with the name of the field to come. -/
inductive Frame where
  | array (items : List Json)
  | object (fields : List (String × Json)) (key : String)

/-- What may come next. -/
inductive Expected where
  /-- a value -/
  | item
  /-- a value, or the end of an array without elements -/
  | itemOrEnd
  /-- the name of a field, for the object with the given fields -/
  | key (fields : List (String × Json))
  /-- the same, or the end of an object without fields -/
  | keyOrEnd
  /-- the colon after a name -/
  | colon (fields : List (String × Json)) (key : String)
  /-- what follows a value inside the innermost container, or after the whole text -/
  | after (j : Json)

/-- How deep containers may be nested. -/
def maxDepth : Nat := 127

/-- Reads the rest of a value from tokens. -/
def build? (expected : Expected) (stack : List Frame) (tokens : List Token) : Option Json :=
  match tokens with
  | [] =>
    match expected, stack with
    | .after j, [] => some j
    | _, _ => none
  | t :: ts =>
    match expected, t with
    | .itemOrEnd, .endArray => build? (.after (arr [])) (stack.drop 1) ts
    | .item, .value j | .itemOrEnd, .value j => build? (.after j) stack ts
    | .item, .beginArray | .itemOrEnd, .beginArray =>
      if stack.length < maxDepth then build? .itemOrEnd (.array [] :: stack) ts else none
    | .item, .beginObject | .itemOrEnd, .beginObject =>
      if stack.length < maxDepth then build? .keyOrEnd stack ts else none
    | .keyOrEnd, .endObject => build? (.after (obj [])) stack ts
    | .keyOrEnd, .value (.str k) => build? (.colon [] k) stack ts
    | .key fields, .value (.str k) => build? (.colon fields k) stack ts
    | .colon fields k, .colon => build? .item (.object fields k :: stack) ts
    | .after j, .comma =>
      match stack with
      | .array items :: outer => build? .item (.array (j :: items) :: outer) ts
      | .object fields k :: outer => build? (.key ((k, j) :: fields)) outer ts
      | [] => none
    | .after j, .endArray =>
      match stack with
      | .array items :: outer => build? (.after (arr (j :: items).reverse)) outer ts
      | _ => none
    | .after j, .endObject =>
      match stack with
      | .object fields k :: outer => build? (.after (obj ((k, j) :: fields).reverse)) outer ts
      | _ => none
    | _, _ => none

/-- Reads a text that holds one value. -/
def read? (text : String) : Option Json :=
  (tokens? text.toList).bind (build? .item [])

end EventPipeline.Json
