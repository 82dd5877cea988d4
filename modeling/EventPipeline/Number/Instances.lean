/-!
# `EventPipeline.Number.Instances`: powers and sums of numbers

Powers of numbers and the zero of sums are those of the core library, whatever others a
module knows.
-/

set_option autoImplicit false

namespace EventPipeline

/-- Powers of natural numbers. -/
scoped instance (priority := 10000) powNat : Pow Nat Nat := instPowNat

/-- Powers of integers. -/
scoped instance (priority := 10000) powInt : Pow Int Nat := instPowNat

attribute [default_instance 10000] powNat powInt

/-- The sum of no natural numbers. -/
scoped instance (priority := 10000) zeroNat : Zero Nat := Zero.ofOfNat0

end EventPipeline
