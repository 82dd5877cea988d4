import EventPipeline.Json.Basic
import EventPipeline.Rules.Value

/-!
# `EventPipeline.Rules.Data`: data as values of the rule language
-/

set_option autoImplicit false

namespace EventPipeline.Rules.Value

mutual

/-- The value of a piece of data. A whole number that does not fit 64 bits with sign
becomes a floating-point number. -/
def ofJson : Json → Value
  | .null => .null
  | .bool b => .bool b
  | .int n =>
    if -2 ^ 63 ≤ n ∧ n < 2 ^ 63 then .int (Int64.ofInt n) else .float (Float.ofInt n)
  | .float x => .float x
  | .str s => .str s
  | .arr items => .list (ofItems items)
  | .obj fields => .map (ofFields fields)

/-- The values of the elements of a list. -/
def ofItems : List Json → List Value
  | [] => []
  | j :: js => ofJson j :: ofItems js

/-- The values of the fields of an object. -/
def ofFields : List (String × Json) → List (String × Value)
  | [] => []
  | (k, j) :: rest => (k, ofJson j) :: ofFields rest

end

end EventPipeline.Rules.Value
