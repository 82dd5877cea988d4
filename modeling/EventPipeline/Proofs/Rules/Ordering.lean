import EventPipeline.Proofs.Number.WholeNumbers
import EventPipeline.Proofs.Rules.Equality

/-!
# `EventPipeline.Proofs.Rules.Ordering`: how the operators order numbers

Of two numbers the six operators of comparison all tell the same: which of the two comes first
(`applyBinary_number`). This order of the two is `numberOrder`. Two integers are compared as they
are, and everything else as floating-point numbers, which are in the order of their keys
(`unpackedCompare_eq`). So exactly one of `<`, `==` and `>` holds, and `numberOrder_swap` says that
the order is the same seen from the other side.

From one comparison to the next the two ways of comparing do not fit together. Between two integers
there can be a floating-point number that both are rounded to, and then `<=` and `==` go from either
one to the other, whatever the order of the two is. `le_trans_iff` and `eq_trans_iff` say that
nothing else stands against transitivity, and `nearestInt_eq_of_step` that it takes more than 53
bits.
-/

set_option autoImplicit false

namespace EventPipeline.Rules

open Number

/-! ## Keys of floating-point numbers -/

open Float.Model (UnpackedFloat)

/-- What puts a floating-point number in order: its class, its exponent and its mantissa. Negative
numbers with the larger ones come first. -/
def floatKey : UnpackedFloat → Int × Int × Int
  | .notANumber | .zero _ => (0, 0, 0)
  | .infinity .negative => (-2, 0, 0)
  | .infinity .positive => (2, 0, 0)
  | .finite .negative m e _ => (-1, -e, -m)
  | .finite .positive m e _ => (1, e, m)

/-- The order of keys: the first part in which they differ decides. -/
def compareKeys : Int × Int × Int → Int × Int × Int → Ordering :=
  compareLex (compareOn fun key => key.1)
    (compareLex (compareOn fun key => key.2.1) (compareOn fun key => key.2.2))

instance : Std.TransCmp compareKeys :=
  inferInstanceAs (Std.TransCmp (compareLex _ (compareLex _ _)))

theorem compareKeys_mk (a b c a' b' c' : Int) :
    compareKeys (a, b, c) (a', b', c') =
      (compare a a').then ((compare b b').then (compare c c')) :=
  rfl

theorem compareKeys_swap (k l : Int × Int × Int) : compareKeys l k = (compareKeys k l).swap :=
  Std.OrientedCmp.eq_swap

/-- Numbers are ordered as their keys are. -/
theorem unpackedCompare_eq {f g : UnpackedFloat} (hf : f.isNaN = false) (hg : g.isNaN = false) :
    f.compare g = some (compareKeys (floatKey f) (floatKey g)) := by
  cases f with
  | notANumber => cases hf
  | infinity s =>
    cases g with
    | notANumber => cases hg
    | infinity t => cases s <;> cases t <;> rfl
    | zero t => cases s <;> rfl
    | finite t => cases s <;> cases t <;> rfl
  | zero s =>
    cases g with
    | notANumber => cases hg
    | infinity t => cases t <;> rfl
    | zero t => rfl
    | finite t => cases t <;> rfl
  | finite s m d hm =>
    cases g with
    | notANumber => cases hg
    | infinity t => cases s <;> cases t <;> rfl
    | zero t => cases s <;> rfl
    | finite t n e hn =>
      cases s <;> cases t
      case negative.negative =>
        have hkeys : compareKeys (-1, -d, -m) (-1, -e, -n) = (compare d e).swap.then
            (compare m n).swap := by
          simp only [compareKeys_mk, compare_neg_neg, compare_natCast, Int.compare_swap,
            Nat.compare_swap]
          rfl
        exact congrArg some ((Ordering.swap_then _ _).trans hkeys.symm)
      case positive.positive =>
        have hkeys : compareKeys (1, d, m) (1, e, n) = (compare d e).then (compare m n) := by
          rw [compareKeys_mk, compare_natCast]
          rfl
        exact congrArg some hkeys.symm
      all_goals rfl

/-- The three tests of two floating-point numbers come to their order. -/
theorem compareFloats?_eq (x y : Float) :
    compareFloats? x y = x.toModel.unpack.compare y.toModel.unpack := by
  have hlt : x < y ↔ x.toModel.unpack.compare y.toModel.unpack = some .lt :=
    ⟨fun h => beq_iff_eq.mp (of_decide_eq_true h), fun h => decide_eq_true (beq_iff_eq.mpr h)⟩
  have heq : (x == y) = (x.toModel.unpack.compare y.toModel.unpack == some .eq) := rfl
  have hgt : y < x ↔ x.toModel.unpack.compare y.toModel.unpack = some .gt := by
    have hless : y < x ↔ y.toModel.unpack.compare x.toModel.unpack = some .lt :=
      ⟨fun h => beq_iff_eq.mp (of_decide_eq_true h), fun h => decide_eq_true (beq_iff_eq.mpr h)⟩
    rw [hless, unpackedCompare_swap x.toModel.unpack]
    cases x.toModel.unpack.compare y.toModel.unpack with
    | none => simp
    | some order => cases order <;> simp
  simp only [compareFloats?, hlt, heq, hgt]
  cases x.toModel.unpack.compare y.toModel.unpack with
  | none => rfl
  | some order => cases order <;> rfl

/-! ## Numbers among the values -/

/-- The value is an integer, or a floating-point number that is a number. -/
inductive IsNumber : Value → Prop
  | int (n : Int64) : IsNumber (.int n)
  | float {x : Float} (h : x.isNaN = false) : IsNumber (.float x)

/-- The key of the floating-point number that a number is converted to. -/
def numberKey : Value → Int × Int × Int
  | .int n => floatKey (Float.ofInt n.toInt).toModel.unpack
  | .float x => floatKey x.toModel.unpack
  | _ => (0, 0, 0)

/-- The order of two numbers: exact between integers, and else between their keys. -/
def numberOrder : Value → Value → Ordering
  | .int m, .int n => compare m.toInt n.toInt
  | a, b => compareKeys (numberKey a) (numberKey b)

variable {a b c : Value}

theorem stands_ofInt64 (n : Int64) :
    Stands (nearestInt n.toInt) (Float.ofInt n.toInt).toModel.unpack := by
  have hlow := n.le_toInt
  have hhigh := n.toInt_lt
  exact stands_ofInt (by omega)

theorem isNaN_of_stands {z : Int} {f : UnpackedFloat} (h : Stands z f) : f.isNaN = false := by
  cases h <;> rfl

/-- What an integer is converted to is a number. -/
theorem isNaN_ofInt64 (n : Int64) : (Float.ofInt n.toInt).toModel.unpack.isNaN = false :=
  isNaN_of_stands (stands_ofInt64 n)

/-- Integers become floating-point numbers in the order of what they are rounded to. -/
theorem compareKeys_int (m n : Int64) :
    compareKeys (numberKey (.int m)) (numberKey (.int n)) =
      compare (nearestInt m.toInt) (nearestInt n.toInt) := by
  have hstands := (stands_ofInt64 m).compare_eq (stands_ofInt64 n)
  rw [unpackedCompare_eq (isNaN_ofInt64 m) (isNaN_ofInt64 n), Option.some.injEq] at hstands
  exact hstands

/-- The order is the same seen from the other number. -/
theorem numberOrder_swap (ha : IsNumber a) (hb : IsNumber b) :
    numberOrder b a = (numberOrder a b).swap := by
  cases ha with
  | int m =>
    cases hb with
    | int n => exact (Int.compare_swap _ _).symm
    | float => exact compareKeys_swap _ _
  | float => cases hb <;> exact compareKeys_swap _ _

/-- What the operators compare two numbers with. -/
theorem compareValues_number (op : Op) (ha : IsNumber a) (hb : IsNumber b) :
    compareValues op a b = .ok (numberOrder a b) := by
  have hfloats {x y : Float} (hx : x.isNaN = false) (hy : y.isNaN = false) :
      compareFloats? x y =
        some (compareKeys (floatKey x.toModel.unpack) (floatKey y.toModel.unpack)) := by
    rw [compareFloats?_eq, unpackedCompare_eq hx hy]
  cases ha with
  | int m =>
    cases hb with
    | int n => rfl
    | float hy =>
      simp only [compareValues, Value.asFloat?, hfloats (isNaN_ofInt64 m) hy, numberOrder,
        numberKey]
  | float hx =>
    cases hb with
    | int n =>
      simp only [compareValues, Value.asFloat?, hfloats hx (isNaN_ofInt64 n), numberOrder,
        numberKey]
    | float hy => simp only [compareValues, Value.asFloat?, hfloats hx hy, numberOrder, numberKey]

/-- Numbers are equal exactly if none of them comes before the other. -/
theorem looseEq_number (ha : IsNumber a) (hb : IsNumber b) :
    a.looseEq b = (numberOrder a b == .eq) := by
  have hfloats {x y : Float} (hx : x.isNaN = false) (hy : y.isNaN = false) :
      (x == y) =
        (compareKeys (floatKey x.toModel.unpack) (floatKey y.toModel.unpack) == .eq) := by
    show (x.toModel.unpack.compare y.toModel.unpack == some .eq) = _
    rw [unpackedCompare_eq hx hy]
    rfl
  cases ha with
  | int m =>
    cases hb with
    | int n =>
      show (m == n) = (compare m.toInt n.toInt == .eq)
      rw [Bool.eq_iff_iff, beq_iff_eq, beq_iff_eq, Int.compare_eq_eq, Int64.toInt_inj]
    | float hy => exact hfloats (isNaN_ofInt64 m) hy
  | float hx =>
    cases hb with
    | int n =>
      show (Float.ofInt n.toInt == _) = _
      rw [float_beq_comm]
      exact hfloats hx (isNaN_ofInt64 n)
    | float hy => exact hfloats hx hy

/-- All that the operators tell of two numbers is their order. -/
theorem applyBinary_number (ha : IsNumber a) (hb : IsNumber b) :
    applyBinary .lt a b = .ok (.bool (numberOrder a b == .lt)) ∧
    applyBinary .eq a b = .ok (.bool (numberOrder a b == .eq)) ∧
    applyBinary .gt a b = .ok (.bool (numberOrder a b == .gt)) ∧
    applyBinary .le a b = .ok (.bool (numberOrder a b != .gt)) ∧
    applyBinary .ge a b = .ok (.bool (numberOrder a b != .lt)) ∧
    applyBinary .ne a b = .ok (.bool (numberOrder a b != .eq)) := by
  have hoperands (op : Op) : applyBinary op a b = applyOperands op a b := by
    cases ha <;> cases hb <;> rfl
  simp only [hoperands, applyOperands, compareValues_number _ ha hb, looseEq_number ha hb]
  exact ⟨rfl, trivial, rfl, rfl, rfl, rfl⟩

/-! ## From one comparison to the next -/

/-- The outer two are integers and the second one is smaller, and the middle one is a floating-point
number. -/
inductive IsStep : Value → Value → Value → Prop
  | mk {m n : Int64} (x : Float) (h : n.toInt < m.toInt) : IsStep (.int m) (.float x) (.int n)

/-- The keys keep the order of the numbers, but they can make different integers equal. -/
theorem isLE_compareKeys (ha : IsNumber a) (hb : IsNumber b) (h : (numberOrder a b).isLE = true) :
    (compareKeys (numberKey a) (numberKey b)).isLE = true := by
  cases ha with
  | int m =>
    cases hb with
    | int n =>
      rw [compareKeys_int, Int.isLE_compare]
      exact nearestInt_mono (Int.isLE_compare.mp h)
    | float => exact h
  | float => cases hb <;> exact h

/-- Comparison is transitive but for a step between integers. -/
theorem isLE_numberOrder_iff (ha : IsNumber a) (hb : IsNumber b) (hc : IsNumber c)
    (hab : (numberOrder a b).isLE = true) (hbc : (numberOrder b c).isLE = true) :
    (numberOrder a c).isLE = true ↔ ¬ IsStep a b c := by
  have hkeys : (compareKeys (numberKey a) (numberKey c)).isLE = true :=
    Std.TransCmp.isLE_trans (isLE_compareKeys ha hb hab) (isLE_compareKeys hb hc hbc)
  cases ha with
  | float => cases hc <;> exact iff_of_true hkeys nofun
  | int m =>
    cases hc with
    | float => exact iff_of_true hkeys nofun
    | int n =>
      cases hb with
      | int k =>
        refine iff_of_true (Int.isLE_compare.mpr ?_) nofun
        exact Int.le_trans (Int.isLE_compare.mp hab) (Int.isLE_compare.mp hbc)
      | float =>
        refine Int.isLE_compare.trans ⟨fun hle hstep => ?_, fun hstep => ?_⟩
        · cases hstep with
          | mk _ hlt => exact Int.not_lt.mpr hle hlt
        · exact Int.not_lt.mp fun hlt => hstep (.mk _ hlt)

/-- Equality is transitive but for a step between integers, in either direction. -/
theorem numberOrder_eq_iff (ha : IsNumber a) (hb : IsNumber b) (hc : IsNumber c)
    (hab : numberOrder a b = .eq) (hbc : numberOrder b c = .eq) :
    numberOrder a c = .eq ↔ ¬ IsStep a b c ∧ ¬ IsStep c b a := by
  have hba : numberOrder b a = .eq := by
    rw [numberOrder_swap ha hb, hab]
    rfl
  have hcb : numberOrder c b = .eq := by
    rw [numberOrder_swap hb hc, hbc]
    rfl
  rw [← isLE_numberOrder_iff ha hb hc (hab ▸ rfl) (hbc ▸ rfl),
    ← isLE_numberOrder_iff hc hb ha (hcb ▸ rfl) (hba ▸ rfl), numberOrder_swap ha hc]
  cases numberOrder a c <;> decide

theorem le_iff (ha : IsNumber a) (hb : IsNumber b) :
    applyBinary .le a b = .ok (.bool true) ↔ (numberOrder a b).isLE = true := by
  obtain ⟨-, -, -, hle, -⟩ := applyBinary_number ha hb
  rw [hle, Except.ok.injEq, Value.bool.injEq]
  cases numberOrder a b <;> decide

theorem eq_iff (ha : IsNumber a) (hb : IsNumber b) :
    applyBinary .eq a b = .ok (.bool true) ↔ numberOrder a b = .eq := by
  obtain ⟨-, heq, -⟩ := applyBinary_number ha hb
  rw [heq, Except.ok.injEq, Value.bool.injEq, beq_iff_eq]

/-- From `a <= b` and `b <= c` follows `a <= c`, unless `a` and `c` are integers in the other order
with a floating-point number between them. -/
theorem le_trans_iff (ha : IsNumber a) (hb : IsNumber b) (hc : IsNumber c)
    (hab : applyBinary .le a b = .ok (.bool true)) (hbc : applyBinary .le b c = .ok (.bool true)) :
    applyBinary .le a c = .ok (.bool true) ↔ ¬ IsStep a b c := by
  rw [le_iff ha hb] at hab
  rw [le_iff hb hc] at hbc
  rw [le_iff ha hc, isLE_numberOrder_iff ha hb hc hab hbc]

/-- From `a == b` and `b == c` follows `a == c`, unless `a` and `c` are different integers with a
floating-point number between them. -/
theorem eq_trans_iff (ha : IsNumber a) (hb : IsNumber b) (hc : IsNumber c)
    (hab : applyBinary .eq a b = .ok (.bool true)) (hbc : applyBinary .eq b c = .ok (.bool true)) :
    applyBinary .eq a c = .ok (.bool true) ↔ ¬ IsStep a b c ∧ ¬ IsStep c b a := by
  rw [eq_iff ha hb] at hab
  rw [eq_iff hb hc] at hbc
  rw [eq_iff ha hc, numberOrder_eq_iff ha hb hc hab hbc]

/-- A step is between integers that are rounded to the same number, and not both of them have at
most 53 bits. -/
theorem nearestInt_eq_of_step {m n : Int64} {x : Float} (hx : x.isNaN = false)
    (hmx : applyBinary .le (.int m) (.float x) = .ok (.bool true))
    (hxn : applyBinary .le (.float x) (.int n) = .ok (.bool true)) (h : n.toInt < m.toInt) :
    nearestInt m.toInt = nearestInt n.toInt ∧
      (2 ^ 53 < m.toInt.natAbs ∨ 2 ^ 53 < n.toInt.natAbs) := by
  have hm : IsNumber (.int m) := .int m
  have hn : IsNumber (.int n) := .int n
  rw [le_iff hm (.float hx)] at hmx
  rw [le_iff (.float hx) hn] at hxn
  have hkeys : (compareKeys (numberKey (.int m)) (numberKey (.int n))).isLE = true :=
    Std.TransCmp.isLE_trans (isLE_compareKeys hm (.float hx) hmx)
      (isLE_compareKeys (.float hx) hn hxn)
  rw [compareKeys_int, Int.isLE_compare] at hkeys
  have hequal := Int.le_antisymm hkeys (nearestInt_mono (Int.le_of_lt h))
  refine ⟨hequal, ?_⟩
  by_contra hsmall
  rw [not_or, Nat.not_lt, Nat.not_lt] at hsmall
  rw [nearestInt_of_le hsmall.1, nearestInt_of_le hsmall.2] at hequal
  exact Int.ne_of_gt h hequal

/-- The first integer that is not a floating-point number, the number that it is rounded to, and the
integer that this number is. -/
example : applyBinary .eq (.int 9007199254740993) (.float 9007199254740992.0) = .ok (.bool true) ∧
    applyBinary .eq (.float 9007199254740992.0) (.int 9007199254740992) = .ok (.bool true) ∧
      applyBinary .eq (.int 9007199254740993) (.int 9007199254740992) = .ok (.bool false) :=
  ⟨rfl, rfl, rfl⟩

end EventPipeline.Rules
