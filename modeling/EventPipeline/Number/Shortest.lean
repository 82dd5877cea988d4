import EventPipeline.Number.Instances

/-!
# `EventPipeline.Number.Shortest`: the shortest decimal that reads back

A finite binary number is the centre of an interval of reals that round to it.
`shortest` picks from that interval the decimal with the fewest digits, and of
two such decimals the nearer one.

A decimal of the form `d · 10^g` is compared with the binary number on one
integer scale, `Grid`, so that every comparison is one of natural numbers.
-/

set_option autoImplicit false

namespace EventPipeline.Number

/-- A finite non-negative binary number `mantissa · 2^exponent`. -/
structure Binary where
  mantissa : Nat
  exponent : Int
  /-- The gap to the number below is half the gap to the number above. -/
  narrowBelow : Bool

/-- The magnitude held in the bits of a finite 64-bit number; the sign bit is ignored. -/
def Binary.ofBits (bits : UInt64) : Binary :=
  let biased : Nat := (bits.toNat / 2 ^ 52) % 2048
  let fraction : Nat := bits.toNat % 2 ^ 52
  if biased = 0 then
    { mantissa := fraction, exponent := -1074, narrowBelow := false }
  else
    { mantissa := 2 ^ 52 + fraction
      exponent := (biased : Int) - 1075
      narrowBelow := fraction = 0 && 1 < biased }

/-- A non-negative decimal `digits · 10^exponent`. -/
structure Decimal where
  digits : Nat
  exponent : Int
deriving Repr, DecidableEq

/-- The common integer scale of the decimals `d · 10^g` and of a binary number with
exponent `q`: one step of the decimal grid is `step`, a quarter of the binary number's
last place is `quarter`. -/
structure Grid where
  step : Nat
  quarter : Nat

/-- The grid of the multiples of `10^g` against the last place `2^q`. -/
def Grid.make (g q : Int) : Grid where
  step := 10 ^ g.toNat * 2 ^ (2 - q).toNat
  quarter := 10 ^ (-g).toNat * 2 ^ (q - 2).toNat

/-- The decimal `d` of the grid rounds to `x`: it lies between the midpoints to the two
neighbours of `x`, the midpoints themselves included exactly when the mantissa is even. -/
def Grid.readsBack (grid : Grid) (x : Binary) (d : Nat) : Bool :=
  let low := (4 * x.mantissa - if x.narrowBelow then 1 else 2) * grid.quarter
  let high := (4 * x.mantissa + 2) * grid.quarter
  let at' := d * grid.step
  if x.mantissa % 2 = 0 then low ≤ at' && at' ≤ high else low < at' && at' < high

/-- Which of two equally near decimals is taken. -/
inductive Tie where
  | upper | even
deriving DecidableEq

/-- The decimal of the grid that reads back as `x` and lies nearest to it, if there is
one. Only the two neighbours of `x` on the grid can do so. -/
def Grid.nearest? (grid : Grid) (tie : Tie) (x : Binary) : Option Nat :=
  let value := 4 * x.mantissa * grid.quarter
  let below := value / grid.step
  let above := below + 1
  match 0 < below && grid.readsBack x below, grid.readsBack x above with
  | true, true =>
    some (match compare (2 * value) ((below + above) * grid.step), tie with
      | .lt, _ => below
      | .gt, _ | .eq, .upper => above
      | .eq, .even => if below % 2 = 0 then below else above)
  | true, false => some below
  | false, true => some above
  | false, false => none

/-- The number of decimal places in front of the point: the least `k` with `x < 10^k`,
for `x` not zero. -/
def Binary.magnitude (x : Binary) : Int :=
  let estimate := (((x.mantissa.log2 : Int) + x.exponent) * 30103).fdiv 100000
  let below (k : Int) : Bool :=
    x.mantissa * 2 ^ x.exponent.toNat * 10 ^ (-k).toNat
      < 10 ^ k.toNat * 2 ^ (-x.exponent).toNat
  ((List.range 5).map fun (i : Nat) => estimate - 1 + (i : Int)).find? below |>.getD (estimate + 4)

/-- Drops the trailing zeros of the digits. -/
def Decimal.strip (d : Decimal) : Decimal :=
  if _h : d.digits ≠ 0 ∧ d.digits % 10 = 0 then
    Decimal.strip { digits := d.digits / 10, exponent := d.exponent + 1 }
  else d
termination_by d.digits
decreasing_by exact Nat.div_lt_self (by omega) (by decide)

/-- The exact value of a binary number as a decimal. -/
def Binary.exact (x : Binary) : Decimal where
  digits := x.mantissa * 2 ^ x.exponent.toNat * 5 ^ (-x.exponent).toNat
  exponent := min x.exponent 0

/-- The shortest decimal that reads back as `x`, for `x` not zero. -/
def Binary.shortest (tie : Tie) (x : Binary) : Decimal :=
  let k := x.magnitude
  let candidate (n : Nat) : Option Decimal :=
    let g := k - ((n : Int) + 1)
    ((Grid.make g x.exponent).nearest? tie x).map fun d => { digits := d, exponent := g }
  (((List.range 17).findSome? candidate).getD x.exact).strip

end EventPipeline.Number
