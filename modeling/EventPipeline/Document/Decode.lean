import EventPipeline.Document.Basic

/-!
# `EventPipeline.Document.Decode`: what a document says where a type is asked for

A decoder reads a document as a value of one type, or says why that cannot be done.
Records are mappings from the names of their fields, or lists of the fields in their
order; of the fields that a record does not know none counts.
-/

set_option autoImplicit false

namespace EventPipeline.Document

/-- A decoded value, or why there is none. -/
abbrev Decoded (α : Type) := Except String α

/-- Reads a text. A plain scalar is the text that it shows. -/
def text : Document → Decoded String
  | str s | plain s => .ok s
  | _ => .error "expected a text"

/-- Reads a truth value. -/
def flag : Document → Decoded Bool
  | bool b => .ok b
  | plain s => (Plain.bool? s).elim (.error "expected a truth value") .ok
  | _ => .error "expected a truth value"

/-- Reads a whole number of 64 bits without a sign. -/
def count (d : Document) : Decoded Nat :=
  let n? : Option Nat := match d with
    | int n => if 0 ≤ n then some n.toNat else none
    | plain s => Plain.unsigned? s
    | _ => none
  match n? with
  | some n => if n < 2 ^ 64 then .ok n else .error "the number is too great"
  | none => .error "expected a whole number"

/-- Reads a whole number of 64 bits with a sign. -/
def whole (d : Document) : Decoded Int :=
  let n? : Option Int := match d with
    | int n => some n
    | plain s => Plain.int? s
    | _ => none
  match n? with
  | some n =>
    if -(2 ^ 63 : Int) ≤ n && n < 2 ^ 63 then .ok n else .error "the number is too great"
  | none => .error "expected a whole number"

/-- Reads a number; whole numbers will do. -/
def number : Document → Decoded Float
  | float x => .ok x
  | int n => .ok (Float.ofInt n)
  | plain s => (Plain.float? s).elim (.error "expected a number") .ok
  | _ => .error "expected a number"

/-- Reads any data. -/
def data (d : Document) : Decoded Json :=
  d.json?.elim (.error "a number is too great") .ok

/-- Reads what may be missing. -/
def optional {α : Type} (decode : Document → Decoded α) : Document → Decoded (Option α)
  | null => .ok none
  | plain s => if Plain.isNull s then .ok none else (decode (plain s)).map some
  | d => (decode d).map some

/-- Reads a list, which may also be left empty. -/
def listOf {α : Type} (decode : Document → Decoded α) : Document → Decoded (List α)
  | list items => items.mapM decode
  | plain "" => .ok []
  | _ => .error "expected a list"

/-- Reads a mapping from names, which may also be left empty. Of two fields with one
name the later counts. -/
def mapOf {α : Type} (decode : Document → Decoded α) : Document → Decoded (Fields α)
  | map fields => do
    let pairs ← fields.mapM fun field => return (field.1, ← decode field.2)
    return Fields.ofPairs pairs
  | plain "" => .ok []
  | _ => .error "expected a mapping"

/-- The fields of a record with the given names. No field may come twice. -/
def record (names : List String) : Document → Decoded (Fields Document)
  | map fields =>
    fields.foldlM (fun found field =>
      if !names.contains field.1 then .ok found
      else if Fields.contains found field.1 then .error s!"duplicate field '{field.1}'"
      else .ok (Fields.put found field.1 field.2)) []
  | list items =>
    if items.length ≤ names.length then .ok (Fields.ofPairs (names.zip items))
    else .error "too many fields"
  | plain "" => .ok []
  | _ => .error "expected a record"

/-- A field that a record must have. -/
def required {α : Type} (fields : Fields Document) (name : String)
    (decode : Document → Decoded α) : Decoded α :=
  match fields.get? name with
  | some d => decode d
  | none => .error s!"missing field '{name}'"

/-- A field that a record may have. -/
def fieldD {α : Type} (fields : Fields Document) (name : String) (value : α)
    (decode : Document → Decoded α) : Decoded α :=
  match fields.get? name with
  | some d => decode d
  | none => .ok value

/-- Reads one of several names. In place of a name the data format also takes a mapping
from the name to `null`. -/
def oneOf {α : Type} (choices : List (String × α)) (d : Document) : Decoded α :=
  let name? := match d with
    | str s | plain s => some s
    | map [(s, null)] => some s
    | _ => none
  match name?.bind fun name => Fields.get? choices name with
  | some a => .ok a
  | none => .error "expected one of the known names"

end EventPipeline.Document
