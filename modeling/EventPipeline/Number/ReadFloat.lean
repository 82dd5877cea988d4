import EventPipeline.Number.Shortest

/-!
# `EventPipeline.Number.ReadFloat`: decimal texts as floating-point numbers

A decimal text stands for the floating-point number nearest to it.
-/

set_option autoImplicit false

namespace EventPipeline.Number

/-- The value of a text of decimal digits. -/
def digitsValue (cs : List Char) : Nat :=
  cs.foldl (fun n c => 10 * n + (c.toNat - 48)) 0

/-- The floating-point number nearest to `digits · 10^exponent`. Exponents far beyond the
range of the format are cut off, which changes no result. -/
def nearestFloat (digits : Nat) (exponent : Int) : Float :=
  if digits = 0 then 0.0
  else if 400 < exponent then 1.0 / 0.0
  else if exponent < -(400 + (Nat.toDigits 10 digits).length : Int) then 0.0
  else if 0 ≤ exponent then Float.ofScientific digits false exponent.toNat
  else Float.ofScientific digits true (-exponent).toNat

/-- Reads digits with an optional point among them and an optional exponent. -/
def readUnsigned? (cs : List Char) : Option Float :=
  let whole := cs.takeWhile Char.isDigit
  let rest := cs.dropWhile Char.isDigit
  let (fraction, rest) := match rest with
    | '.' :: more => (more.takeWhile Char.isDigit, more.dropWhile Char.isDigit)
    | _ => ([], rest)
  let value (exponent : Int) : Option Float :=
    if whole.isEmpty && fraction.isEmpty then none
    else some (nearestFloat (digitsValue (whole ++ fraction)) (exponent - fraction.length))
  match rest with
  | [] => value 0
  | e :: more =>
    if e == 'e' || e == 'E' then
      let (minus, digits) := match more with
        | '-' :: digits => (true, digits)
        | '+' :: digits => (false, digits)
        | _ => (false, more)
      if digits.isEmpty || !digits.all Char.isDigit then none
      else
        let n : Int := digitsValue digits
        value (if minus then -n else n)
    else none

/-- Reads a number with an optional sign; `inf`, `infinity` and `nan` are written in any
case. -/
def readFloat? (cs : List Char) : Option Float :=
  let (minus, cs) := match cs with
    | '-' :: rest => (true, rest)
    | '+' :: rest => (false, rest)
    | _ => (false, cs)
  let name := String.ofList (cs.map Char.toLower)
  let magnitude : Option Float :=
    if name == "inf" || name == "infinity" then some (1.0 / 0.0)
    else if name == "nan" then some (0.0 / 0.0)
    else readUnsigned? cs
  magnitude.map fun x => if minus then -x else x

end EventPipeline.Number
