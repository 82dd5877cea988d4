import EventPipeline.Number.Shortest

/-!
# `EventPipeline.Number.FloatText`: how a floating-point number is written

Numbers are written with the fewest digits that identify them and always
positionally: there is no exponent however large or small the number is, and a whole
number has no fraction. Zero keeps its sign.
-/

set_option autoImplicit false

namespace EventPipeline.Number

/-- A decimal written out with a point where it is needed. -/
def Decimal.positional (d : Decimal) : String :=
  let digits := toString d.digits
  if 0 ≤ d.exponent then
    digits ++ "".pushn '0' d.exponent.toNat
  else
    let places := (-d.exponent).toNat
    let cs := ("".pushn '0' (places + 1 - digits.length) ++ digits).toList
    let whole := cs.length - places
    String.ofList (cs.take whole) ++ "." ++ String.ofList (cs.drop whole)

/-- The text of a floating-point number. -/
def floatText (x : Float) : String :=
  if x.isNaN then "NaN"
  else
    let sign := if x.toBits.toNat < 2 ^ 63 then "" else "-"
    if x.isInf then sign ++ "inf"
    else
      let b := Binary.ofBits x.toBits
      if b.mantissa = 0 then sign ++ "0" else sign ++ (b.shortest .upper).positional

end EventPipeline.Number
