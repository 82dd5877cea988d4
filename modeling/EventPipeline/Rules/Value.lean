import EventPipeline.Data.Fields
import EventPipeline.Number.FloatText

/-!
# `EventPipeline.Rules.Value`: the values of the rule language

Integers are 64-bit, floating-point numbers are binary64. Equality is `strictEq`;
`looseEq` also compares an integer with a floating-point number by value.
-/

set_option autoImplicit false

namespace EventPipeline.Rules

/-- A callable, known by its serial number: two actions are the same exactly if their
serial numbers are, whatever their names. -/
structure Action where
  serial : Nat
  name : String

/-- A value of the rule language. A `goto` value asks for a transfer to a rule set. -/
inductive Value where
  | null
  | bool (b : Bool)
  | int (n : Int64)
  | float (x : Float)
  | str (s : String)
  | list (items : List Value)
  | map (entries : List (String × Value))
  | action (a : Action)
  | goto (target : String)

namespace Value

instance : Inhabited Value := ⟨null⟩

/-- The name of a value's type, as error texts give it. -/
def typeName : Value → String
  | null => "null"
  | bool _ => "bool"
  | int _ => "integer"
  | float _ => "float"
  | str _ => "string"
  | list _ => "list"
  | map _ => "map"
  | action _ => "action"
  | goto _ => "goto"

/-- A value as a condition. -/
def isTruthy : Value → Bool
  | null => false
  | bool b => b
  | int n => n != 0
  | float x => x != 0.0
  | str s => s != ""
  | list items => !items.isEmpty
  | map entries => !entries.isEmpty
  | action _ | goto _ => true

/-- The value is `null`. -/
def isNull : Value → Bool
  | null => true
  | _ => false

/-- The floating-point number nearest to a numeric value. -/
def asFloat? : Value → Option Float
  | int n => some (Float.ofInt n.toInt)
  | float x => some x
  | _ => none

/-- The text of a string value. -/
def asString? : Value → Option String
  | str s => some s
  | _ => none

mutual

/-- Equality of values of one type. Floating-point numbers compare as numbers, so `NaN`
differs from itself, and actions by identity. -/
def strictEq : Value → Value → Bool
  | null, null => true
  | bool a, bool b => a == b
  | int a, int b => a == b
  | float a, float b => a == b
  | str a, str b => a == b
  | list a, list b => strictEqList a b
  | map a, map b => strictEqEntries a b
  | action a, action b => a.serial == b.serial
  | goto a, goto b => a == b
  | _, _ => false

/-- Equality of two lists, element by element. -/
def strictEqList : List Value → List Value → Bool
  | [], [] => true
  | a :: as, b :: bs => strictEq a b && strictEqList as bs
  | _, _ => false

/-- Equality of the entries of two maps: the same keys with equal values. -/
def strictEqEntries : List (String × Value) → List (String × Value) → Bool
  | [], [] => true
  | (k, a) :: as, (l, b) :: bs => k == l && strictEq a b && strictEqEntries as bs
  | _, _ => false

end

mutual

/-- Equality in which an integer equals the floating-point number that it rounds to, also
inside lists. The entries of maps compare strictly. -/
def looseEq : Value → Value → Bool
  | int a, float b => Float.ofInt a.toInt == b
  | float a, int b => Float.ofInt b.toInt == a
  | list a, list b => looseEqList a b
  | a, b => strictEq a b

/-- Loose equality of two lists, element by element. -/
def looseEqList : List Value → List Value → Bool
  | [], [] => true
  | a :: as, b :: bs => looseEq a b && looseEqList as bs
  | _, _ => false

end

mutual

/-- How a value is written. -/
def text : Value → String
  | null => "NULL"
  | bool true => "TRUE"
  | bool false => "FALSE"
  | int n => toString n.toInt
  | float x => Number.floatText x
  | str s => s!"'{s}'"
  | list items => "[" ++ ", ".intercalate (texts items) ++ "]"
  | map entries => "\x7b" ++ ", ".intercalate (entryTexts entries) ++ "\x7d"
  | action a => s!"<action {a.name}>"
  | goto target => s!"<goto {target}>"

/-- How the elements of a list are written. -/
def texts : List Value → List String
  | [] => []
  | v :: vs => text v :: texts vs

/-- How the entries of a map are written. -/
def entryTexts : List (String × Value) → List String
  | [] => []
  | (k, v) :: rest => s!"{k}: {text v}" :: entryTexts rest

end

end Value
end EventPipeline.Rules
