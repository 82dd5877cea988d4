import EventPipeline.Json.Basic
import EventPipeline.Number.ReadFloat

/-!
# `EventPipeline.Document.Basic`: the common shape of configuration documents

Three notations describe configurations. Each is read into a `Document`, which keeps
what the notations distinguish: a plain scalar has no type of its own and means what is
asked of it, and the fields of a mapping stay in the order of the text, also when names
repeat.
-/

set_option autoImplicit false

namespace EventPipeline

/-- A document: a scalar, a list, or a mapping with its fields in the order of the text. -/
inductive Document where
  | null
  | bool (b : Bool)
  | int (n : Int)
  | float (x : Float)
  /-- a number that is too great for any number type -/
  | overflow
  | str (s : String)
  /-- a scalar without quotes whose type depends on what is asked of it -/
  | plain (s : String)
  | list (items : List Document)
  | map (fields : List (String × Document))

namespace Document

instance : Inhabited Document := ⟨null⟩

mutual

/-- A value of the data format as a document. -/
def ofJson : Json → Document
  | .null => null
  | .bool b => bool b
  | .int n => int n
  | .float x => if x.isInf then overflow else float x
  | .str s => str s
  | .arr items => list (ofItems items)
  | .obj fields => map (ofFields fields)

/-- The elements of a list as documents. -/
def ofItems : List Json → List Document
  | [] => []
  | j :: js => ofJson j :: ofItems js

/-- The fields of an object as documents. -/
def ofFields : List (String × Json) → List (String × Document)
  | [] => []
  | (k, j) :: rest => (k, ofJson j) :: ofFields rest

end

namespace Plain

/-- The scalar says that there is no value. -/
def isNull (s : String) : Bool :=
  s == "" || s == "~" || s == "null" || s == "Null" || s == "NULL"

/-- The truth value that a scalar stands for. -/
def bool? (s : String) : Option Bool :=
  if s == "true" || s == "True" || s == "TRUE" then some true
  else if s == "false" || s == "False" || s == "FALSE" then some false
  else none

/-- The digit of a character in a number system up to base 16. -/
def digit? (base : Nat) (c : Char) : Option Nat :=
  let value? :=
    if c.isDigit then some (c.toNat - 48)
    else if 'a' ≤ c && c ≤ 'f' then some (c.toNat - 87)
    else if 'A' ≤ c && c ≤ 'F' then some (c.toNat - 55)
    else none
  value?.filter (· < base)

/-- The number that digits of the given base write. -/
def digits? (base : Nat) (cs : List Char) : Option Nat :=
  if cs.isEmpty then none
  else cs.foldlM (fun n c => (digit? base c).map fun d => base * n + d) 0

/-- A number with a mark for its base in front, or a decimal number. Of decimal digits
the first is `0` only in the number zero. -/
def natural? (cs : List Char) : Option Nat :=
  match cs with
  | '0' :: 'x' :: rest => digits? 16 rest
  | '0' :: 'o' :: rest => digits? 8 rest
  | '0' :: 'b' :: rest => digits? 2 rest
  | ['0'] => some 0
  | '0' :: _ => none
  | _ => digits? 10 cs

/-- The whole number that a scalar writes. -/
def int? (s : String) : Option Int :=
  match s.toList with
  | '+' :: rest => (natural? rest).map Int.ofNat
  | '-' :: rest => (natural? rest).map fun n => -(n : Int)
  | cs => (natural? cs).map Int.ofNat

/-- The number without a sign that a scalar writes. -/
def unsigned? (s : String) : Option Nat :=
  match s.toList with
  | '+' :: rest => natural? rest
  | cs => natural? cs

/-- The floating-point number that a scalar writes. Infinity and `NaN` have names of
their own. -/
def float? (s : String) : Option Float :=
  let body := match s.toList with
    | '+' :: rest => rest
    | cs => cs
  let signed := match body with
    | '+' :: _ | '-' :: _ => s.toList.head? == some '+'
    | _ => false
  if signed then none
  else if [".inf", ".Inf", ".INF"].contains (String.ofList body) then some (1.0 / 0.0)
  else if ["-.inf", "-.Inf", "-.INF"].contains s then some (-(1.0 / 0.0))
  else if [".nan", ".NaN", ".NAN"].contains s then some (0.0 / 0.0)
  else (Number.readFloat? body).filter Float.isFinite

/-- Decimal digits after a leading zero, which no number has. -/
def isPaddedNumber (s : String) : Bool :=
  let cs := match s.toList with
    | '+' :: rest | '-' :: rest => rest
    | cs => cs
  cs.length > 1 && cs.head? == some '0' && cs.all Char.isDigit

/-- A finite number as data. What is no finite number is `null`. -/
def jsonOfFloat (x : Float) : Json :=
  if x.isFinite then .float x else .null

/-- What a scalar means where any data will do. Whole numbers beyond 64 bits mean
nothing. -/
def json? (s : String) : Option Json :=
  if isNull s then some .null
  else
    match bool? s, int? s with
    | some b, _ => some (.bool b)
    | none, some n =>
      if -(2 ^ 63 : Int) ≤ n && n < 2 ^ 64 then some (.int n)
      else if -(2 ^ 127 : Int) ≤ n && n < 2 ^ 128 then none
      else some ((float? s).elim (.str s) jsonOfFloat)
    | none, none =>
      if isPaddedNumber s then some (.str s)
      else some ((float? s).elim (.str s) jsonOfFloat)

end Plain

mutual

/-- A document as data. Fields are put into key order, and of two with one name the
later counts. -/
def json? : Document → Option Json
  | null => some .null
  | bool b => some (.bool b)
  | int n => some (.int n)
  | float x => some (Plain.jsonOfFloat x)
  | overflow => none
  | str s => some (.str s)
  | plain s => Plain.json? s
  | list items => (jsonItems? items).map .arr
  | map fields => (jsonFields? fields []).map .obj

/-- The elements of a list as data. -/
def jsonItems? : List Document → Option (List Json)
  | [] => some []
  | d :: ds =>
    match json? d, jsonItems? ds with
    | some j, some js => some (j :: js)
    | _, _ => none

/-- Adds the fields of a mapping to those collected so far. -/
def jsonFields? : List (String × Document) → Fields Json → Option (Fields Json)
  | [], collected => some collected
  | (k, d) :: rest, collected =>
    match json? d with
    | some j => jsonFields? rest (collected.put k j)
    | none => none

end

end Document
end EventPipeline
