import EventPipeline.Number.Shortest

/-!
# `EventPipeline.Number.Duration`: lengths of time

A duration is a whole number of nanoseconds. Configurations give seconds as
floating-point numbers, which are rounded to the nearest nanosecond.
-/

set_option autoImplicit false

namespace EventPipeline

/-- A length of time in nanoseconds. -/
structure Duration where
  nanos : Nat
deriving DecidableEq, Repr, Inhabited

namespace Duration

/-- The number of nanoseconds in a second. -/
def perSecond : Nat := 10 ^ 9

/-- A whole number of seconds. -/
def ofSeconds (seconds : Nat) : Duration :=
  { nanos := seconds * perSecond }

/-- Whole milliseconds; what is left over does not count. -/
def millis (d : Duration) : Nat :=
  d.nanos / 10 ^ 6

/-- A quotient rounded to the nearest whole number, a half to the even one. -/
def roundQuotient (num den : Nat) : Nat :=
  let q := num / den
  match compare (2 * (num % den)) den with
  | .lt => q
  | .gt => q + 1
  | .eq => if q % 2 = 0 then q else q + 1

/-- A number of seconds as a duration, rounded to the nearest nanosecond. Negative
numbers, `NaN` and numbers of seconds that do not fit 64 bits have none. -/
def ofFloat? (seconds : Float) : Option Duration :=
  if seconds.isNaN || seconds.isInf || seconds < 0.0 then none
  else
    let b := Number.Binary.ofBits seconds.toBits
    let num := b.mantissa * 2 ^ b.exponent.toNat * perSecond
    let den := 2 ^ (-b.exponent).toNat
    if b.mantissa * 2 ^ b.exponent.toNat < 2 ^ 64 * den then
      some { nanos := roundQuotient num den }
    else none

/-- A number of seconds as a duration, zero if there is none. -/
def ofFloat (seconds : Float) : Duration :=
  (ofFloat? seconds).getD { nanos := 0 }

/-- A whole number and a fraction of `10 ^ places` parts, without trailing zeros. -/
def decimalText (whole fraction places : Nat) : String :=
  let digits := (toString fraction).toList
  let padded := List.replicate (places - digits.length) '0' ++ digits
  let kept := (padded.reverse.dropWhile (· == '0')).reverse
  if kept.isEmpty then toString whole else toString whole ++ "." ++ String.ofList kept

/-- The text of a duration, in the largest unit of which it has at least one. -/
def text (d : Duration) : String :=
  let n := d.nanos
  if perSecond ≤ n then decimalText (n / perSecond) (n % perSecond) 9 ++ "s"
  else if 10 ^ 6 ≤ n then decimalText (n / 10 ^ 6) (n % 10 ^ 6) 6 ++ "ms"
  else if 10 ^ 3 ≤ n then decimalText (n / 10 ^ 3) (n % 10 ^ 3) 3 ++ "µs"
  else toString n ++ "ns"

end Duration
end EventPipeline
