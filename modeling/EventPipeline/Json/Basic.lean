import EventPipeline.Data.Fields
import EventPipeline.Number.FloatText

/-!
# `EventPipeline.Json.Basic`: the data that events and configurations carry

Whole numbers and floating-point numbers are different values. `Json.compact` writes a
value without white space.
-/

set_option autoImplicit false

namespace EventPipeline

/-- A value of the data format: whole numbers lie between `-2^63` and `2^64 - 1`. -/
inductive Json where
  | null
  | bool (b : Bool)
  | int (n : Int)
  | float (x : Float)
  | str (s : String)
  | arr (items : List Json)
  | obj (fields : List (String × Json))

namespace Json

instance : Inhabited Json := ⟨null⟩

/-- The field of an object. -/
def field? (j : Json) (name : String) : Option Json :=
  match j with
  | obj fields => Fields.get? fields name
  | _ => none

/-- The text of a string. -/
def string? : Json → Option String
  | str s => some s
  | _ => none

/-- The value is `null`. -/
def isNull : Json → Bool
  | null => true
  | _ => false

mutual

/-- The same value with the fields of every object in key order; of two fields with one
name the later counts. -/
def sorted : Json → Json
  | arr items => arr (sortedItems items)
  | obj fields => obj (sortedFields fields [])
  | j => j

/-- Sorts every element of a list. -/
def sortedItems : List Json → List Json
  | [] => []
  | j :: js => sorted j :: sortedItems js

/-- Adds sorted fields to those collected so far. -/
def sortedFields : List (String × Json) → Fields Json → Fields Json
  | [], collected => collected
  | (k, j) :: rest, collected => sortedFields rest (collected.put k (sorted j))

end

/-- A floating-point number as a number of the format: with a fraction or an exponent,
positionally from `10^-5` up to below `10^16`. What is no finite number is `null`. -/
def floatText (x : Float) : String :=
  if x.isNaN || x.isInf then "null"
  else
    let sign := if x.toBits.toNat < 2 ^ 63 then "" else "-"
    let b := Number.Binary.ofBits x.toBits
    if b.mantissa = 0 then sign ++ "0.0"
    else
      let d := b.shortest .even
      let digits := toString d.digits
      -- the place of the point, counted from the first digit
      let point : Int := digits.length + d.exponent
      if 0 ≤ d.exponent && point ≤ 16 then sign ++ d.positional ++ ".0"
      else if -5 < point && point ≤ 16 then sign ++ d.positional
      else
        let mantissa := match digits.toList with
          | first :: (second :: more) =>
            String.ofList [first] ++ "." ++ String.ofList (second :: more)
          | cs => String.ofList cs
        sign ++ mantissa ++ "e" ++ toString (point - 1)

/-- The digit of a number below sixteen. -/
def hexDigit (n : Nat) : Char :=
  if n < 10 then Char.ofNat (48 + n) else Char.ofNat (87 + n)

/-- A character inside a string of the format. -/
def escape (c : Char) : List Char :=
  match c with
  | '"' => ['\\', '"']
  | '\\' => ['\\', '\\']
  | '\n' => ['\\', 'n']
  | '\r' => ['\\', 'r']
  | '\t' => ['\\', 't']
  | '\x08' => ['\\', 'b']
  | '\x0c' => ['\\', 'f']
  | _ =>
    if c.toNat < 32 then
      ['\\', 'u', '0', '0', hexDigit (c.toNat / 16), hexDigit (c.toNat % 16)]
    else [c]

/-- A string with its quotes. -/
def quoted (s : String) : String :=
  "\"" ++ String.ofList (s.toList.flatMap escape) ++ "\""

mutual

/-- The text of a value without white space. -/
def compact : Json → String
  | null => "null"
  | bool b => if b then "true" else "false"
  | int n => toString n
  | float x => floatText x
  | str s => quoted s
  | arr items => "[" ++ ",".intercalate (compactItems items) ++ "]"
  | obj fields => "\x7b" ++ ",".intercalate (compactFields fields) ++ "\x7d"

/-- The texts of the elements of a list. -/
def compactItems : List Json → List String
  | [] => []
  | j :: js => compact j :: compactItems js

/-- The texts of the fields of an object. -/
def compactFields : List (String × Json) → List String
  | [] => []
  | (k, j) :: rest => (quoted k ++ ":" ++ compact j) :: compactFields rest

end

end Json
end EventPipeline
