import EventPipeline.Proofs.Number.Rounding

/-!
# `EventPipeline.Proofs.Number.WholeNumbers`: whole numbers as floating-point numbers

`Float.ofInt` is what makes an integer a floating-point number. It rounds the integer to 53
significant bits, `nearestInt`, and the result stands for exactly that integer (`stands_ofInt`).
Floating-point numbers that stand for integers are ordered as the integers are
(`Stands.compare_eq`), and so comparing two converted integers compares the rounded ones
(`ofInt_le_iff`).

The conversion rounds in steps: it shifts the bits of the number one by one and remembers what it
has dropped (`shiftRight_succ`), and it may have to shift once more, because rounding up can give
a bit too many.
-/

set_option autoImplicit false

namespace EventPipeline.Number

open Duration
open Float.Model (UnpackedFloat Format)
open Float.Model.UnpackedFloat

/-! ### Numbers that stand for integers -/

/-- The unpacked number stands for the integer: it is a zero, or its mantissa has 53 bits. -/
inductive Stands : Int → UnpackedFloat → Prop
  | zero (sign : Sign) : Stands 0 (.zero sign)
  | finite (sign : Sign) {n m : Nat} {e : Int} (hm : 0 < m) (hlow : 2 ^ 52 ≤ m)
    (hhigh : m < 2 ^ 53) (hleast : -52 ≤ e) (hmost : e ≤ 971)
    (hvalue : m * 2 ^ (e + 52).toNat = n * 2 ^ 52) :
    Stands (sign.apply n) (.finite sign m e hm)

theorem two_pow_mul_congr {a b c d : Nat} (h : a + b = c + d) :
    (2 : Nat) ^ a * 2 ^ b = 2 ^ c * 2 ^ d := by
  rw [← Nat.pow_add, ← Nat.pow_add, h]

theorem log2_eq_of_bounds {m : Nat} (hlow : 2 ^ 52 ≤ m) (hhigh : m < 2 ^ 53) : m.log2 = 52 :=
  (Nat.log2_eq_iff (by omega)).mpr ⟨hlow, hhigh⟩

theorem ofBitVec_unpackSign (sign : Sign) (e : BitVec 11) (m : BitVec 52) :
    Sign.ofBitVec (unpackSign (packComponents .binary64 sign e m)) = sign := by
  have hbit : unpackSign (packComponents .binary64 sign e m) = sign.toBitVec := by
    refine BitVec.eq_of_getLsbD_eq fun i hi => ?_
    obtain rfl : i = 0 := by omega
    show (BitVec.extractLsb 63 63 (sign.toBitVec ++ e ++ m)).getLsbD 0 = sign.toBitVec.getLsbD 0
    rw [BitVec.getLsbD_extractLsb, BitVec.getLsbD_append, BitVec.getLsbD_append]
    simp
  rw [hbit]
  cases sign <;> rfl

theorem finite_congr {s t : Sign} {m n : Nat} {d e : Int} {hm : 0 < m} {hn : 0 < n} (hsign : s = t)
    (hmantissa : m = n) (hexponent : d = e) :
    UnpackedFloat.finite s m d hm = UnpackedFloat.finite t n e hn := by
  subst hsign hmantissa hexponent
  rfl

/-- The exponent is stored with a bias, and the first bit of the mantissa is left out. -/
theorem pack_finite {sign : Sign} {m biased : Nat} {e : Int} {hm : 0 < m} (hlow : 2 ^ 52 ≤ m)
    (hhigh : m < 2 ^ 53) (hbiased : biased = e + 1075) (hlast : biased < 2047) :
    pack .binary64 (.finite sign m e hm) =
      packComponents .binary64 sign (BitVec.ofNat 11 biased) (BitVec.ofNat 52 m) := by
  have hexponent : (e + Format.binary64.exponentBias +
      Format.binary64.mantissaBitsWithoutImplicit).toNat = biased := by
    have hbias : (Format.binary64.exponentBias : Int) = 1023 := rfl
    have hbits : (Format.binary64.mantissaBitsWithoutImplicit : Int) = 52 := rfl
    rw [hbias, hbits]
    omega
  have hoverflow : ¬ 2 ^ Format.binary64.exponentBits ≤ biased + 1 := by
    show ¬ 2048 ≤ biased + 1
    omega
  have hnormal : m.log2 + 1 = Format.binary64.mantissaBits := by
    rw [log2_eq_of_bounds hlow hhigh]
    rfl
  show (if 2 ^ Format.binary64.exponentBits ≤ (e + Format.binary64.exponentBias +
      Format.binary64.mantissaBitsWithoutImplicit).toNat + 1 then _
    else if m.log2 + 1 = Format.binary64.mantissaBits then _ else _) = _
  rw [hexponent, if_neg hoverflow, if_pos hnormal]

/-- The biased exponent is neither of the two that have a meaning of their own. -/
theorem unpack_packComponents (sign : Sign) {m biased : Nat} {e : Int} {hm : 0 < m}
    (hlow : 2 ^ 52 ≤ m) (hhigh : m < 2 ^ 53) (hbiased : biased = e + 1075)
    (hfirst : 0 < biased) (hlast : biased < 2047) :
    unpack .binary64
        (packComponents .binary64 sign (BitVec.ofNat 11 biased) (BitVec.ofNat 52 m)) =
      .finite sign m e hm := by
  have hfits : (BitVec.ofNat 11 biased).toNat = biased := by
    rw [BitVec.toNat_ofNat]
    omega
  have hnotLast : BitVec.ofNat 11 biased ≠ -1#11 := by
    intro heq
    have := congrArg BitVec.toNat heq
    rw [hfits] at this
    have hvalue : (-1#11).toNat = 2047 := rfl
    omega
  have hnotFirst : BitVec.ofNat 11 biased ≠ 0#11 := by
    intro heq
    have := congrArg BitVec.toNat heq
    rw [hfits] at this
    have hvalue : (0#11).toNat = 0 := rfl
    omega
  have hmantissa : (1#1 ++ BitVec.ofNat 52 m).toNat = m := by
    rw [BitVec.toNat_append, ← Nat.shiftLeft_add_eq_or_of_lt (BitVec.isLt _),
      Nat.shiftLeft_eq, BitVec.toNat_ofNat, BitVec.toNat_ofNat]
    omega
  unfold unpack
  rw [unpackExponent_packComponents, if_neg hnotLast, if_neg hnotFirst]
  refine finite_congr (ofBitVec_unpackSign sign _ _) ?_ ?_
  · rw [unpackMantissa_packComponents]
    exact hmantissa
  · have hbias : (Format.binary64.exponentBias : Int) = 1023 := rfl
    have hbits : (Format.binary64.mantissaBitsWithoutImplicit : Int) = 52 := rfl
    rw [hfits, hbias, hbits]
    omega

theorem compare_natCast (m n : Nat) : compare (m : Int) n = compare m n := by
  rcases Nat.lt_trichotomy m n with hlt | rfl | hgt
  · rw [Nat.compare_eq_lt.mpr hlt, Int.compare_eq_lt.mpr (Int.ofNat_lt.mpr hlt)]
  · rw [Nat.compare_eq_eq.mpr rfl, Int.compare_eq_eq.mpr rfl]
  · rw [Nat.compare_eq_gt.mpr hgt, Int.compare_eq_gt.mpr (Int.ofNat_lt.mpr hgt)]

theorem compare_neg_neg (a b : Int) : compare (-a) (-b) = compare b a := by
  rcases Int.lt_trichotomy b a with hlt | rfl | hgt
  · rw [Int.compare_eq_lt.mpr hlt, Int.compare_eq_lt.mpr (Int.neg_lt_neg hlt)]
  · rw [Int.compare_eq_eq.mpr rfl, Int.compare_eq_eq.mpr rfl]
  · rw [Int.compare_eq_gt.mpr hgt, Int.compare_eq_gt.mpr (Int.neg_lt_neg hgt)]

namespace Stands

variable {a b z : Int} {f g : UnpackedFloat}

/-- Packing such a number loses nothing. -/
theorem unpack_pack (h : Stands z f) : unpack .binary64 (pack .binary64 f) = f := by
  cases h with
  | zero sign => cases sign <;> rfl
  | @finite sign n m e hm hlow hhigh hleast hmost hvalue =>
    obtain ⟨biased, hbiased⟩ : ∃ biased : Nat, (biased : Int) = e + 1075 :=
      ⟨(e + 1075).toNat, by omega⟩
    rw [pack_finite hlow hhigh hbiased (by omega)]
    exact unpack_packComponents sign hlow hhigh hbiased (by omega) (by omega)

theorem neg (h : Stands z f) : Stands (-z) f.neg := by
  cases h with
  | zero sign => exact .zero _
  | finite sign hm hlow hhigh hleast hmost hvalue =>
    cases sign with
    | negative =>
      rw [Sign.apply, Int.neg_neg]
      exact Stands.finite .positive hm hlow hhigh hleast hmost hvalue
    | positive => exact Stands.finite .negative hm hlow hhigh hleast hmost hvalue

theorem pos_of_value {m n k : Nat} (hm : 0 < m) (hvalue : m * 2 ^ k = n * 2 ^ 52) : 0 < n := by
  refine Nat.pos_of_ne_zero fun hzero => ?_
  rw [hzero, Nat.zero_mul] at hvalue
  have := Nat.mul_pos hm (Nat.two_pow_pos k)
  omega

/-- Of two numbers with mantissas of 53 bits, the one with the smaller exponent is smaller. -/
theorem lt_of_exponent_lt {m₁ m₂ n₁ n₂ : Nat} {e₁ e₂ : Int} (hhigh : m₁ < 2 ^ 53)
    (hlow : 2 ^ 52 ≤ m₂) (hleast : -52 ≤ e₁) (hlt : e₁ < e₂)
    (h₁ : m₁ * 2 ^ (e₁ + 52).toNat = n₁ * 2 ^ 52) (h₂ : m₂ * 2 ^ (e₂ + 52).toNat = n₂ * 2 ^ 52) :
    n₁ < n₂ := by
  refine Nat.lt_of_mul_lt_mul_right (a := 2 ^ 52) ?_
  calc
    n₁ * 2 ^ 52 = m₁ * 2 ^ (e₁ + 52).toNat := h₁.symm
    _ < 2 ^ 53 * 2 ^ (e₁ + 52).toNat := Nat.mul_lt_mul_of_pos_right hhigh (Nat.two_pow_pos _)
    _ = 2 ^ 52 * 2 ^ ((e₁ + 52).toNat + 1) := two_pow_mul_congr (by omega)
    _ ≤ m₂ * 2 ^ (e₂ + 52).toNat :=
      Nat.mul_le_mul hlow (Nat.pow_le_pow_right (by decide) (by omega))
    _ = n₂ * 2 ^ 52 := h₂

/-- The exponents decide, and then the mantissas. -/
theorem compare_magnitudes {m₁ m₂ n₁ n₂ : Nat} {e₁ e₂ : Int} (hlow₁ : 2 ^ 52 ≤ m₁)
    (hhigh₁ : m₁ < 2 ^ 53) (hlow₂ : 2 ^ 52 ≤ m₂) (hhigh₂ : m₂ < 2 ^ 53) (hleast₁ : -52 ≤ e₁)
    (hleast₂ : -52 ≤ e₂) (h₁ : m₁ * 2 ^ (e₁ + 52).toNat = n₁ * 2 ^ 52)
    (h₂ : m₂ * 2 ^ (e₂ + 52).toNat = n₂ * 2 ^ 52) :
    (compare e₁ e₂).then (compare m₁ m₂) = compare n₁ n₂ := by
  rcases Int.lt_trichotomy e₁ e₂ with hlt | rfl | hgt
  · rw [Int.compare_eq_lt.mpr hlt,
      Nat.compare_eq_lt.mpr (lt_of_exponent_lt hhigh₁ hlow₂ hleast₁ hlt h₁ h₂)]
    rfl
  · rw [Int.compare_eq_eq.mpr rfl]
    show compare m₁ m₂ = compare n₁ n₂
    rw [← compare_mul_right (Nat.two_pow_pos (e₁ + 52).toNat) m₁ m₂, h₁, h₂,
      compare_mul_right (Nat.two_pow_pos 52)]
  · rw [Int.compare_eq_gt.mpr hgt,
      Nat.compare_eq_gt.mpr (lt_of_exponent_lt hhigh₂ hlow₁ hleast₂ hgt h₂ h₁)]
    rfl

/-- Such numbers are ordered as the integers they stand for. -/
theorem compare_eq (ha : Stands a f) (hb : Stands b g) : f.compare g = some (compare a b) := by
  cases ha with
  | zero s =>
    cases hb with
    | zero t => rfl
    | finite t hm hlow hhigh hleast hmost hvalue =>
      have hpos := pos_of_value hm hvalue
      cases t with
      | positive => exact congrArg some (Int.compare_eq_lt.mpr (by simpa [Sign.apply])).symm
      | negative => exact congrArg some (Int.compare_eq_gt.mpr (by simpa [Sign.apply])).symm
  | @finite s n₁ m₁ e₁ hm₁ hlow₁ hhigh₁ hleast₁ hmost₁ h₁ =>
    have hpos₁ := pos_of_value hm₁ h₁
    cases hb with
    | zero t =>
      cases s with
      | positive => exact congrArg some (Int.compare_eq_gt.mpr (by simpa [Sign.apply])).symm
      | negative => exact congrArg some (Int.compare_eq_lt.mpr (by simpa [Sign.apply])).symm
    | @finite t n₂ m₂ e₂ hm₂ hlow₂ hhigh₂ hleast₂ hmost₂ h₂ =>
      have hpos₂ := pos_of_value hm₂ h₂
      have hcompare := compare_magnitudes hlow₁ hhigh₁ hlow₂ hhigh₂ hleast₁ hleast₂ h₁ h₂
      cases s with
      | positive =>
        cases t with
        | positive => exact congrArg some (hcompare.trans (compare_natCast n₁ n₂).symm)
        | negative =>
          exact congrArg some (Int.compare_eq_gt.mpr (by simp only [Sign.apply]; omega)).symm
      | negative =>
        cases t with
        | positive =>
          exact congrArg some (Int.compare_eq_lt.mpr (by simp only [Sign.apply]; omega)).symm
        | negative =>
          have hswap : compare (-(n₁ : Int)) (-(n₂ : Int)) = (compare n₁ n₂).swap := by
            rw [Nat.compare_swap, ← compare_natCast]
            exact compare_neg_neg _ _
          exact congrArg some ((congrArg Ordering.swap hcompare).trans hswap.symm)

end Stands

/-! ### Shifting and rounding -/

/-- After shifts the last bit dropped is apart, and of the others it is known whether one is set. -/
theorem shiftRight_succ (m k : Nat) :
    ExtendedMantissa.mk m false false >>> (k + 1) =
      ⟨m / 2 ^ (k + 1), m / 2 ^ k % 2 != 0, m % 2 ^ k != 0⟩ := by
  induction k with
  | zero => simp [HShiftRight.hShiftRight, Nat.repeat, ExtendedMantissa.shiftRightOne, Nat.mod_one]
  | succ k ih =>
    have hstep : ExtendedMantissa.mk m false false >>> (k + 2) =
        (ExtendedMantissa.mk m false false >>> (k + 1)).shiftRightOne := rfl
    have hparts : m % 2 ^ (k + 1) = m % 2 ^ k + 2 ^ k * (m / 2 ^ k % 2) := by
      rw [Nat.pow_succ, Nat.mod_mul]
    have hsticky : (m / 2 ^ k % 2 != 0 || m % 2 ^ k != 0) = (m % 2 ^ (k + 1) != 0) := by
      rw [hparts, Bool.eq_iff_iff, Bool.or_eq_true, bne_iff_ne, bne_iff_ne, bne_iff_ne]
      have hpos := Nat.two_pow_pos k
      rcases Nat.mod_two_eq_zero_or_one (m / 2 ^ k) with hbit | hbit
      · rw [hbit]
        omega
      · rw [hbit]
        omega
    rw [hstep, ih]
    simp only [ExtendedMantissa.shiftRightOne, Nat.div_div_eq_div_mul, ← Nat.pow_succ, hsticky]

/-- What is left after shifts is rounded as the quotient is. -/
theorem roundedMantissa_shiftRight (m k : Nat) :
    (ExtendedMantissa.mk m false false >>> k).roundedMantissa = roundQuotient m (2 ^ k) := by
  cases k with
  | zero =>
    have hexact : roundQuotient (m * 1) 1 = m := roundQuotient_mul (by decide) m
    rw [Nat.mul_one] at hexact
    exact hexact.symm
  | succ k =>
    have hparts : m % 2 ^ (k + 1) = m % 2 ^ k + 2 ^ k * (m / 2 ^ k % 2) := by
      rw [Nat.pow_succ, Nat.mod_mul]
    have hpow : (2 : Nat) ^ (k + 1) = 2 ^ k * 2 := Nat.pow_succ 2 k
    have hlt : m % 2 ^ k < 2 ^ k := Nat.mod_lt m (Nat.two_pow_pos k)
    have hcases := roundQuotient_cases m (2 ^ (k + 1))
    rw [hparts, hpow] at hcases
    rw [shiftRight_succ, hpow]
    -- the bit dropped last and those before it tell on which side of the middle the number is
    rcases Nat.mod_two_eq_zero_or_one (m / 2 ^ k) with hbit | hbit <;>
      rcases Nat.eq_zero_or_pos (m % 2 ^ k) with hrest | hrest <;>
        rw [hbit] at hcases ⊢
    · rw [hrest] at hcases ⊢
      show m / (2 ^ k * 2) = _
      omega
    · rw [bne_iff_ne.mpr (Nat.ne_of_gt hrest)]
      show m / (2 ^ k * 2) = _
      omega
    · rw [hrest] at hcases ⊢
      show m / (2 ^ k * 2) + m / (2 ^ k * 2) % 2 = _
      omega
    · rw [bne_iff_ne.mpr (Nat.ne_of_gt hrest)]
      show m / (2 ^ k * 2) + 1 = _
      omega

/-- The exponent with which a mantissa has 53 bits, unless the format has none so small. -/
theorem targetExponent_eq (m : Nat) (e : Int) :
    Format.binary64.targetExponent (Float.Model.totalExponent m e) =
      max (e + m.log2 - 52) (-1074) := by
  have hbits : (Format.binary64.mantissaBits : Int) = 53 := rfl
  have hminimum : Format.binary64.minExponent = -1074 := rfl
  unfold Format.targetExponent Float.Model.totalExponent
  rw [hbits, hminimum]
  omega

/-- A mantissa of at least 53 bits is shifted until it has 53. -/
theorem shiftToTargetExponent_eq {m k : Nat} {e : Int} (hlog : m.log2 = 52 + k)
    (hleast : -1074 ≤ e + k) :
    shiftToTargetExponent .binary64 m e .exact =
      (ExtendedMantissa.mk m false false >>> k, e + k) := by
  have htarget : Format.binary64.targetExponent (Float.Model.totalExponent m e) = e + k := by
    rw [targetExponent_eq, hlog]
    omega
  have hshift : (e + k - e).toNat = k := by omega
  unfold shiftToTargetExponent shiftToExponent
  dsimp only
  rw [htarget, hshift]
  rfl

/-- Rounding to a mantissa that has 53 bits ends there. -/
theorem roundWithAccuracy_of_lt {m k q : Nat} {e : Int} (sign : Sign) (hlog : m.log2 = 52 + k)
    (hleast : -1074 ≤ e + k) (hround : roundQuotient m (2 ^ k) = q) (hlow : 2 ^ 52 ≤ q)
    (hhigh : q < 2 ^ 53) (hq : 0 < q) :
    roundWithAccuracy .binary64 sign m e .exact = .finite sign q (e + k) hq := by
  unfold roundWithAccuracy
  rw [shiftToTargetExponent_eq hlog hleast]
  dsimp only
  rw [roundedMantissa_shiftRight, hround,
    shiftToTargetExponent_eq (k := 0) (log2_eq_of_bounds hlow hhigh) (by omega)]
  have hexponent : e + k + (0 : Nat) = e + k := Int.add_zero _
  refine (dif_neg (Nat.ne_of_gt hq)).trans ?_
  exact congrArg (fun exponent => UnpackedFloat.finite sign q exponent hq) hexponent

/-- Rounding up can give a bit too many. One more shift then drops a zero. -/
theorem roundWithAccuracy_of_eq {m k : Nat} {e : Int} (sign : Sign) (hlog : m.log2 = 52 + k)
    (hleast : -1074 ≤ e + k) (hround : roundQuotient m (2 ^ k) = 2 ^ 53) :
    roundWithAccuracy .binary64 sign m e .exact =
      .finite sign (2 ^ 52) (e + k + 1) (Nat.two_pow_pos 52) := by
  unfold roundWithAccuracy
  rw [shiftToTargetExponent_eq hlog hleast]
  dsimp only
  rw [roundedMantissa_shiftRight, hround,
    shiftToTargetExponent_eq (k := 1) (m := 2 ^ 53) Nat.log2_two_pow (by omega)]
  rfl

theorem log2_mul_two_pow {n : Nat} (hn : n ≠ 0) (c : Nat) : (n * 2 ^ c).log2 = n.log2 + c := by
  have hpos := Nat.two_pow_pos c
  refine (Nat.log2_eq_iff (Nat.mul_ne_zero hn (Nat.ne_of_gt hpos))).mpr ⟨?_, ?_⟩
  · rw [Nat.pow_add]
    exact Nat.mul_le_mul_right _ (Nat.log2_self_le hn)
  · rw [Nat.add_right_comm, Nat.pow_add]
    exact Nat.mul_lt_mul_of_pos_right Nat.lt_log2_self hpos

/-- The rounded mantissa of 53 bits, against what the number itself is rounded to. -/
theorem roundQuotient_mantissa {n c : Nat} (hc : 52 ≤ n.log2 + c) :
    roundQuotient (n * 2 ^ c) (2 ^ (n.log2 + c - 52)) * 2 ^ n.log2 = nearest n * 2 ^ 52 := by
  by_cases hlog : 52 ≤ n.log2
  · -- bits are dropped from the number itself
    have hden : 2 ^ (n.log2 + c - 52) = 2 ^ c * lastPlace n :=
      two_pow_eq_mul_lastPlace (by omega)
    have hpow : 2 ^ n.log2 = 2 ^ 52 * lastPlace n := two_pow_eq_mul_lastPlace (by omega)
    rw [hden, Nat.mul_comm (2 ^ c), roundQuotient_mul_mul (Nat.two_pow_pos c), hpow, nearest,
      Nat.mul_comm (2 ^ 52), Nat.mul_assoc]
  · -- only zeros are dropped, and the number has fewer than 53 bits
    have hnum : n * 2 ^ c = n * 2 ^ (52 - n.log2) * 2 ^ (n.log2 + c - 52) := by
      rw [Nat.mul_assoc, ← Nat.pow_add]
      congr 2
      omega
    have hsmall : n ≤ 2 ^ 53 := by
      have hlt : n < 2 ^ (n.log2 + 1) := Nat.lt_log2_self
      have hle : (2 : Nat) ^ (n.log2 + 1) ≤ 2 ^ 53 := Nat.pow_le_pow_right (by decide) (by omega)
      omega
    rw [hnum, roundQuotient_mul (Nat.two_pow_pos _), nearest_of_le hsmall, Nat.mul_assoc,
      ← Nat.pow_add]
    congr 2
    omega

/-- Rounding a number that is written with at least 53 bits and a matching exponent. -/
theorem stands_roundWithAccuracy {n c : Nat} (sign : Sign) (hn : n ≠ 0) (hlt : n < 2 ^ 64)
    (hc : 52 ≤ n.log2 + c) :
    Stands (sign.apply (nearest n))
      (roundWithAccuracy .binary64 sign (n * 2 ^ c) (-c) .exact) := by
  have hlog : n.log2 < 64 := (Nat.log2_lt hn).mpr hlt
  have hpos := Nat.two_pow_pos n.log2
  have hvalue := roundQuotient_mantissa hc
  obtain ⟨hlow, hhigh⟩ := nearest_bounds hn
  obtain ⟨j, hj⟩ : ∃ j, j = n.log2 + c - 52 := ⟨_, rfl⟩
  have hshift : (n * 2 ^ c).log2 = 52 + j := by
    rw [log2_mul_two_pow hn]
    omega
  have hexponent : (-(c : Int) + j + 52).toNat = n.log2 := by omega
  rw [← hj] at hvalue
  have hmlow : 2 ^ 52 ≤ roundQuotient (n * 2 ^ c) (2 ^ j) := by
    refine Nat.le_of_mul_le_mul_right ?_ hpos
    rw [hvalue, Nat.mul_comm]
    exact Nat.mul_le_mul_right _ hlow
  have hmhigh : roundQuotient (n * 2 ^ c) (2 ^ j) ≤ 2 ^ 53 := by
    refine Nat.le_of_mul_le_mul_right ?_ hpos
    rw [hvalue]
    calc
      nearest n * 2 ^ 52 ≤ 2 ^ (n.log2 + 1) * 2 ^ 52 := Nat.mul_le_mul_right _ hhigh
      _ = 2 ^ 53 * 2 ^ n.log2 := two_pow_mul_congr (by omega)
  -- rounding can reach the next power of two, and then there is a second shift
  obtain hless | heq := Nat.lt_or_eq_of_le hmhigh
  · rw [roundWithAccuracy_of_lt sign hshift (by omega) rfl hmlow hless (by omega)]
    refine .finite sign _ hmlow hless (by omega) (by omega) ?_
    rw [hexponent, hvalue]
  · rw [roundWithAccuracy_of_eq sign hshift (by omega) heq]
    refine .finite sign _ (by decide) (by decide) (by omega) (by omega) ?_
    have hnext : (-(c : Int) + j + 1 + 52).toNat = n.log2 + 1 := by omega
    rw [hnext, ← hvalue, heq]
    exact two_pow_mul_congr (by omega)

/-! ### Conversions -/

/-- Multiplying by one changes nothing. -/
theorem Stands.mul_one {z : Int} {f : UnpackedFloat} (h : Stands z f) :
    UnpackedFloat.mul .binary64 f (Float.ofBits 4607182418800017408).toModel.unpack = f := by
  have hone : (Float.ofBits 4607182418800017408).toModel.unpack =
      .finite .positive (2 ^ 52) (-52) (Nat.two_pow_pos 52) := rfl
  rw [hone]
  cases h with
  | zero sign => cases sign <;> rfl
  | @finite sign n m e hm hlow hhigh hleast hmost hvalue =>
    have hlog : (m * 2 ^ 52).log2 = 52 + 52 := by
      rw [log2_mul_two_pow (Nat.ne_of_gt hm), log2_eq_of_bounds hlow hhigh]
    have hround := roundQuotient_mul (Nat.two_pow_pos 52) m
    have hsign : sign * .positive = sign := by cases sign <;> rfl
    show roundWithAccuracy .binary64 (sign * .positive) (m * 2 ^ 52) (e + -52) .exact = _
    rw [roundWithAccuracy_of_lt _ hlog (by omega) hround hlow hhigh hm, hsign]
    congr 1
    omega

/-- A number of at most 53 bits gets its mantissa by shifting in zeros. -/
theorem stands_ofInt_of_lt {n : Nat} (hn : n ≠ 0) (hlt : n < 2 ^ 53) :
    Stands (nearest n) (UnpackedFloat.ofInt .binary64 n) := by
  have hlog : n.log2 ≤ 52 := Nat.le_of_lt_succ ((Nat.log2_lt hn).mpr hlt)
  have hround : UnpackedFloat.ofInt .binary64 n = roundWithAccuracy .binary64 .positive
      (n * 2 ^ (52 - n.log2)) (-(52 - n.log2 : Nat)) .exact := by
    have hpos : (0 : Int) < n := by omega
    have htarget : Format.binary64.targetExponent (Float.Model.totalExponent n 0) =
        -(52 - n.log2 : Nat) := by
      rw [targetExponent_eq]
      omega
    have hshift : (0 - -((52 - n.log2 : Nat) : Int)).toNat = 52 - n.log2 := by omega
    unfold UnpackedFloat.ofInt UnpackedFloat.normalize
    rw [Int.compare_eq_gt.mpr hpos]
    show UnpackedFloat.round .binary64 .positive n 0 = _
    unfold UnpackedFloat.round decreaseExponent
    dsimp only
    rw [htarget, hshift, Nat.shiftLeft_eq, Int.zero_sub]
  rw [hround]
  exact stands_roundWithAccuracy .positive hn (by omega) (by omega)

/-- Converting a natural number rounds it to 53 significant bits. -/
theorem stands_ofNat {n : Nat} (hlt : n < 2 ^ 64) :
    Stands (nearest n) (Float.ofNat n).toModel.unpack := by
  by_cases hzero : n = 0
  · subst hzero
    exact .zero .positive
  by_cases hsmall : n < 2 ^ 53
  · -- the number is converted exactly and then multiplied by one
    have hexact := stands_ofInt_of_lt hzero hsmall
    have hnat : n.toUInt64.toNat = n := UInt64.toNat_ofNat_of_lt hlt
    have hconverted : n.toUInt64.toFloat.toModel.unpack = UnpackedFloat.ofInt .binary64 n := by
      show unpack .binary64 (pack .binary64 (UnpackedFloat.ofInt .binary64 n.toUInt64.toNat)) = _
      rw [hnat, hexact.unpack_pack]
    have hproduct : Float.ofNat n = n.toUInt64.toFloat * Float.ofBits 4607182418800017408 :=
      dif_pos ⟨hsmall, by decide⟩
    have hunpack : (Float.ofNat n).toModel.unpack = UnpackedFloat.ofInt .binary64 n := by
      rw [hproduct]
      show unpack .binary64 (pack .binary64 (UnpackedFloat.mul .binary64
        n.toUInt64.toFloat.toModel.unpack (Float.ofBits 4607182418800017408).toModel.unpack)) = _
      rw [hconverted, hexact.mul_one, hexact.unpack_pack]
    rw [hunpack]
    exact hexact
  · -- the number is written with zeros behind it and rounded
    have hscientific : Float.ofNat n = { toModel := Float.Model.ofScientific n 0 } :=
      dif_neg fun h => hsmall h.1
    have hrounded : Stands (nearest n)
        (roundWithAccuracy .binary64 .positive (n * 2 ^ 53) (-53) .exact) :=
      stands_roundWithAccuracy (c := 53) .positive hzero hlt (by omega)
    have hproduct : UnpackedFloat.ofScientific .binary64 n 0 =
        roundWithAccuracy .binary64 .positive (n * 2 ^ 53) (-53) .exact := by
      have hbits : (2 : Int) ^ Format.binary64.exponentBits = 2048 := rfl
      unfold UnpackedFloat.ofScientific
      rw [dif_neg hzero, hbits, if_neg (by omega), if_neg (by omega), if_pos (by omega)]
      show roundWithAccuracy .binary64 .positive (n <<< 53 * 1) (-53) .exact = _
      rw [Nat.shiftLeft_eq, Nat.mul_one]
    rw [hscientific]
    show Stands _ (unpack .binary64 (pack .binary64 (UnpackedFloat.ofScientific .binary64 n 0)))
    rw [hproduct, hrounded.unpack_pack]
    exact hrounded

/-- The integer of 53 significant bits that is nearest to an integer. -/
def nearestInt (z : Int) : Int :=
  z.sign * nearest z.natAbs

theorem nearestInt_natCast (n : Nat) : nearestInt n = nearest n := by
  cases n with
  | zero => rfl
  | succ n => exact Int.one_mul _

theorem nearestInt_neg (z : Int) : nearestInt (-z) = -nearestInt z := by
  rw [nearestInt, nearestInt, Int.sign_neg, Int.natAbs_neg, Int.neg_mul]

theorem stands_ofInt {z : Int} (hlt : z.natAbs < 2 ^ 64) :
    Stands (nearestInt z) (Float.ofInt z).toModel.unpack := by
  cases z with
  | ofNat n =>
    rw [Int.ofNat_eq_natCast, nearestInt_natCast]
    exact stands_ofNat hlt
  | negSucc n =>
    have hnat := (stands_ofNat hlt).neg
    have hunpack : (Float.ofInt (Int.negSucc n)).toModel.unpack =
        (Float.ofNat (n + 1)).toModel.unpack.neg := hnat.unpack_pack
    rw [hunpack, Int.negSucc_eq, nearestInt_neg]
    exact (nearestInt_natCast (n + 1)).symm ▸ hnat

/-- Comparing converted integers compares what they are rounded to. -/
theorem ofInt_le_iff {a b : Int} (ha : a.natAbs < 2 ^ 64) (hb : b.natAbs < 2 ^ 64) :
    Float.ofInt a ≤ Float.ofInt b ↔ nearestInt a ≤ nearestInt b := by
  have hcompare := (stands_ofInt ha).compare_eq (stands_ofInt hb)
  have hle : Float.ofInt a ≤ Float.ofInt b ↔
      (Float.ofInt a).toModel.unpack.le (Float.ofInt b).toModel.unpack = true := decide_eq_true_iff
  rw [hle, UnpackedFloat.le, hcompare]
  exact Int.isLE_compare

/-- An integer of at most 53 bits is not changed. -/
theorem nearestInt_of_le {z : Int} (h : z.natAbs ≤ 2 ^ 53) : nearestInt z = z := by
  rw [nearestInt, nearest_of_le h, Int.sign_mul_natAbs]

/-- A larger integer is not rounded to a smaller one. -/
theorem nearestInt_mono {a b : Int} (h : a ≤ b) : nearestInt a ≤ nearestInt b := by
  obtain ⟨m, rfl | rfl⟩ := a.eq_nat_or_neg
  · obtain ⟨n, rfl⟩ := Int.eq_ofNat_of_zero_le (Int.le_trans (Int.natCast_nonneg m) h)
    rw [nearestInt_natCast, nearestInt_natCast]
    exact Int.ofNat_le.mpr (nearest_mono (Int.ofNat_le.mp h))
  · obtain ⟨n, rfl | rfl⟩ := b.eq_nat_or_neg
    · rw [nearestInt_neg, nearestInt_natCast, nearestInt_natCast]
      omega
    · rw [nearestInt_neg, nearestInt_neg, nearestInt_natCast, nearestInt_natCast]
      exact Int.neg_le_neg (Int.ofNat_le.mpr (nearest_mono (by omega)))

end EventPipeline.Number
