import EventPipeline.Number.Duration

/-!
# `EventPipeline.Proofs.Number.Rounding`: rounding whole numbers

`Duration.roundQuotient` rounds a quotient to the nearest whole number and a half to the even one.
What it does is told by cases (`roundQuotient_cases`); it keeps the order of its numerators
(`roundQuotient_mono`), and multiplying both numbers changes nothing.

`nearest` is what rounding to 53 significant bits makes of a whole number. It keeps the order too
(`nearest_mono`), and numbers up to `2 ^ 53` are not changed (`nearest_of_le`).
-/

set_option autoImplicit false

namespace EventPipeline

namespace Duration

/-- A quotient is rounded down or up to the nearer number, and from the middle to the even one. -/
theorem roundQuotient_cases (num den : Nat) :
    (roundQuotient num den = num / den ∧ 2 * (num % den) ≤ den ∧
        (2 * (num % den) = den → num / den % 2 = 0)) ∨
      (roundQuotient num den = num / den + 1 ∧ den ≤ 2 * (num % den) ∧
        (2 * (num % den) = den → num / den % 2 = 1)) := by
  unfold roundQuotient
  dsimp only
  split
  · rename_i hless
    have := Nat.compare_eq_lt.mp hless
    exact .inl ⟨rfl, by omega, by omega⟩
  · rename_i hgreater
    have := Nat.compare_eq_gt.mp hgreater
    exact .inr ⟨rfl, by omega, by omega⟩
  · rename_i htie
    have := Nat.compare_eq_eq.mp htie
    split
    · rename_i heven
      exact .inl ⟨rfl, by omega, fun _ => heven⟩
    · exact .inr ⟨rfl, by omega, by omega⟩

/-- A quotient is rounded to zero exactly if it is at most a half. -/
theorem roundQuotient_pos_iff {num den : Nat} (hden : 0 < den) :
    0 < roundQuotient num den ↔ den < 2 * num := by
  have hparts := Nat.div_add_mod num den
  have hmod := Nat.mod_lt num hden
  cases hquotient : num / den with
  | zero =>
    have hall : num % den = num := by simpa [hquotient] using hparts
    obtain ⟨hround, hle, -⟩ | ⟨hround, hle, htie⟩ := roundQuotient_cases num den
    · omega
    · omega
  | succ q =>
    -- the quotient is at least one, and so is what it is rounded to
    have hle : den ≤ num := by
      rw [← hparts, hquotient]
      exact Nat.le_add_right_of_le (Nat.le_mul_of_pos_right den (Nat.succ_pos q))
    obtain ⟨hround, -⟩ | ⟨hround, -⟩ := roundQuotient_cases num den
    · omega
    · omega

/-- A larger quotient is not rounded to a smaller number. -/
theorem roundQuotient_mono {a b : Nat} (den : Nat) (h : a ≤ b) :
    roundQuotient a den ≤ roundQuotient b den := by
  have hquotients : a / den ≤ b / den := Nat.div_le_div_right h
  have hlow := roundQuotient_cases a den
  have hhigh := roundQuotient_cases b den
  obtain hlt | heq := Nat.lt_or_eq_of_le hquotients
  · omega
  · -- the remainders are ordered as the numbers are, and in the middle both are rounded alike
    have ha := Nat.div_add_mod a den
    have hb := Nat.div_add_mod b den
    rw [heq] at ha hlow
    omega

/-- A whole quotient is not changed. -/
theorem roundQuotient_mul {den : Nat} (hden : 0 < den) (n : Nat) :
    roundQuotient (n * den) den = n := by
  have hcases := roundQuotient_cases (n * den) den
  rw [Nat.mul_div_cancel n hden, Nat.mul_mod_left] at hcases
  omega

/-- Multiplying two numbers by a third keeps their order. -/
theorem compare_mul_right {c : Nat} (hc : 0 < c) (a b : Nat) :
    compare (a * c) (b * c) = compare a b := by
  rcases Nat.lt_trichotomy a b with hlt | rfl | hgt
  · rw [Nat.compare_eq_lt.mpr hlt, Nat.compare_eq_lt]
    exact Nat.mul_lt_mul_of_pos_right hlt hc
  · rw [Nat.compare_eq_eq.mpr rfl, Nat.compare_eq_eq.mpr rfl]
  · rw [Nat.compare_eq_gt.mpr hgt, Nat.compare_eq_gt]
    exact Nat.mul_lt_mul_of_pos_right hgt hc

/-- Multiplying both numbers of a quotient changes nothing. -/
theorem roundQuotient_mul_mul {c : Nat} (hc : 0 < c) (num den : Nat) :
    roundQuotient (num * c) (den * c) = roundQuotient num den := by
  unfold roundQuotient
  dsimp only
  rw [Nat.mul_mod_mul_right, ← Nat.mul_assoc, compare_mul_right hc,
    Nat.mul_div_mul_right num den hc]

end Duration

namespace Number

open Duration

/-- The gap between the numbers of 53 significant bits that are as large as `n`. -/
def lastPlace (n : Nat) : Nat :=
  2 ^ (n.log2 - 52)

/-- The number of 53 significant bits that is nearest to `n`; of two such numbers, the one whose
last bit is zero. -/
def nearest (n : Nat) : Nat :=
  roundQuotient n (lastPlace n) * lastPlace n

theorem lastPlace_pos (n : Nat) : 0 < lastPlace n :=
  Nat.two_pow_pos _

/-- The powers of two from the gap on are multiples of it. -/
theorem two_pow_eq_mul_lastPlace {n k l : Nat} (h : k = l + (n.log2 - 52)) :
    2 ^ k = 2 ^ l * lastPlace n := by
  rw [h, Nat.pow_add, lastPlace]

/-- A multiple of the gap is not changed, and others are not moved across it. -/
theorem nearest_mul {n m : Nat} (h : n = m * lastPlace n) : nearest n = n := by
  have hround := roundQuotient_mul (lastPlace_pos n) m
  rw [← h] at hround
  rw [nearest, hround, ← h]

/-- A number up to `2 ^ 53` has at most 53 significant bits, or it is a power of two. -/
theorem nearest_of_le {n : Nat} (h : n ≤ 2 ^ 53) : nearest n = n := by
  by_cases hlast : n = 2 ^ 53
  · subst hlast
    rfl
  · have hlog : n.log2 ≤ 52 := by
      by_cases hn : n = 0
      · subst hn
        exact Nat.zero_le 52
      · exact Nat.le_of_lt_succ ((Nat.log2_lt hn).mpr (by omega))
    refine nearest_mul (m := n) ?_
    rw [lastPlace, Nat.sub_eq_zero_of_le hlog, Nat.pow_zero, Nat.mul_one]

/-- Rounding stays between the powers of two around a number. -/
theorem nearest_bounds {n : Nat} (hn : n ≠ 0) :
    2 ^ n.log2 ≤ nearest n ∧ nearest n ≤ 2 ^ (n.log2 + 1) := by
  have hlow : 2 ^ n.log2 ≤ n := Nat.log2_self_le hn
  have hhigh : n < 2 ^ (n.log2 + 1) := Nat.lt_log2_self
  by_cases hlog : n.log2 ≤ 52
  · have hle : n ≤ 2 ^ 53 :=
      Nat.le_of_lt (Nat.lt_of_lt_of_le hhigh (Nat.pow_le_pow_right (by decide) (by omega)))
    rw [nearest_of_le hle]
    exact ⟨hlow, Nat.le_of_lt hhigh⟩
  · -- both powers are multiples of the gap
    have hfirst : 2 ^ n.log2 = 2 ^ 52 * lastPlace n := two_pow_eq_mul_lastPlace (by omega)
    have hsecond : 2 ^ (n.log2 + 1) = 2 ^ 53 * lastPlace n := two_pow_eq_mul_lastPlace (by omega)
    rw [hfirst] at hlow ⊢
    rw [hsecond] at hhigh ⊢
    have hpos := lastPlace_pos n
    have hbelow := roundQuotient_mono (lastPlace n) hlow
    have habove := roundQuotient_mono (lastPlace n) (Nat.le_of_lt hhigh)
    rw [roundQuotient_mul hpos] at hbelow habove
    exact ⟨Nat.mul_le_mul_right _ hbelow, Nat.mul_le_mul_right _ habove⟩

/-- A larger number is not rounded to a smaller one. -/
theorem nearest_mono {a b : Nat} (h : a ≤ b) : nearest a ≤ nearest b := by
  by_cases ha : a = 0
  · subst ha
    exact Nat.zero_le _
  have hb : b ≠ 0 := by omega
  have hlogs : a.log2 ≤ b.log2 :=
    (Nat.le_log2 hb).mpr (Nat.le_trans (Nat.log2_self_le ha) h)
  obtain hlt | heq := Nat.lt_or_eq_of_le hlogs
  · -- a power of two lies between them
    calc
      nearest a ≤ 2 ^ (a.log2 + 1) := (nearest_bounds ha).2
      _ ≤ 2 ^ b.log2 := Nat.pow_le_pow_right (by decide) hlt
      _ ≤ nearest b := (nearest_bounds hb).1
  · have hgap : lastPlace a = lastPlace b := by rw [lastPlace, lastPlace, heq]
    rw [nearest, nearest, hgap]
    exact Nat.mul_le_mul_right _ (roundQuotient_mono _ h)

end Number

end EventPipeline
