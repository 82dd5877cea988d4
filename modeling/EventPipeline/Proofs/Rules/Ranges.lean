import EventPipeline.Proofs.Number.WholeNumbers
import EventPipeline.Rules.Builtin

/-!
# `EventPipeline.Proofs.Rules.Ranges`: ranges of integers

A rule can ask in two ways whether an integer lies in a range. The operators compare integers as
they are (`withinByOperators_int`). The action `num_in_range` makes floating-point numbers of them
first, so what it compares are the nearest integers of 53 significant bits (`numInRange_int`).

Rounding keeps the order, and so whatever lies in a range lies in it for the action too
(`numInRange_of_within`). The action also takes an integer outside of the range for one inside,
but only if it is rounded to the same number as the bound (`within_or_rounded`). That needs more
than 53 bits: up to `2 ^ 53` the two ways agree (`numInRange_eq_withinByOperators`).
-/

set_option autoImplicit false

namespace EventPipeline.Rules

open Number

/-- What the operators say of `low <= x && x <= high`. -/
def withinByOperators (x low high : Value) : Except EvalError Value := do
  let above ← applyBinary .le low x
  let below ← applyBinary .le x high
  applyBinary .and above below

/-- The operator `<=` compares two integers exactly. -/
theorem applyBinary_le_int (a b : Int64) :
    applyBinary .le (.int a) (.int b) = .ok (.bool (decide (a.toInt ≤ b.toInt))) := by
  have horder : (compare a.toInt b.toInt != .gt) = decide (a.toInt ≤ b.toInt) := by
    rw [Bool.eq_iff_iff, bne_iff_ne, decide_eq_true_iff]
    exact Int.compare_ne_gt
  rw [← horder]
  rfl

theorem withinByOperators_int (x low high : Int64) :
    withinByOperators (.int x) (.int low) (.int high) =
      .ok (.bool (decide (low.toInt ≤ x.toInt ∧ x.toInt ≤ high.toInt))) := by
  rw [withinByOperators, applyBinary_le_int, applyBinary_le_int, Bool.decide_and]
  rfl

theorem natAbs_toInt_lt (n : Int64) : n.toInt.natAbs < 2 ^ 64 := by
  have hlow := n.le_toInt
  have hhigh := n.toInt_lt
  omega

namespace Builtin

/-- The action compares what the integers are rounded to. -/
theorem numInRange_int (x low high : Int64) :
    numInRange.run [.int x, .int low, .int high] =
      .ok (.bool (decide (nearestInt low.toInt ≤ nearestInt x.toInt ∧
        nearestInt x.toInt ≤ nearestInt high.toInt))) := by
  have hlow := ofInt_le_iff (natAbs_toInt_lt low) (natAbs_toInt_lt x)
  have hhigh := ofInt_le_iff (natAbs_toInt_lt x) (natAbs_toInt_lt high)
  rw [Bool.decide_and, ← decide_eq_decide.mpr hlow, ← decide_eq_decide.mpr hhigh]
  rfl

/-- Up to `2 ^ 53` every integer is a floating-point number, and then the action is what the
operators say. -/
theorem numInRange_eq_withinByOperators {x low high : Int64} (hx : x.toInt.natAbs ≤ 2 ^ 53)
    (hlow : low.toInt.natAbs ≤ 2 ^ 53) (hhigh : high.toInt.natAbs ≤ 2 ^ 53) :
    numInRange.run [.int x, .int low, .int high] =
      withinByOperators (.int x) (.int low) (.int high) := by
  rw [numInRange_int, withinByOperators_int, nearestInt_of_le hx, nearestInt_of_le hlow,
    nearestInt_of_le hhigh]

variable {x low high : Int64}

/-- Whatever is in the range by the operators is in it for the action. -/
theorem numInRange_of_within
    (h : withinByOperators (.int x) (.int low) (.int high) = .ok (.bool true)) :
    numInRange.run [.int x, .int low, .int high] = .ok (.bool true) := by
  rw [withinByOperators_int, Except.ok.injEq, Value.bool.injEq, decide_eq_true_iff] at h
  rw [numInRange_int, Except.ok.injEq, Value.bool.injEq, decide_eq_true_iff]
  exact ⟨nearestInt_mono h.1, nearestInt_mono h.2⟩

/-- What the action takes for inside the range is inside, or is rounded to the bound it is
beyond. -/
theorem within_or_rounded
    (h : numInRange.run [.int x, .int low, .int high] = .ok (.bool true)) :
    (low.toInt ≤ x.toInt ∨ nearestInt x.toInt = nearestInt low.toInt) ∧
      (x.toInt ≤ high.toInt ∨ nearestInt x.toInt = nearestInt high.toInt) := by
  rw [numInRange_int, Except.ok.injEq, Value.bool.injEq, decide_eq_true_iff] at h
  obtain ⟨hlow, hhigh⟩ := h
  constructor
  · rcases Int.lt_or_le x.toInt low.toInt with hlt | hle
    · exact .inr (Int.le_antisymm (nearestInt_mono (Int.le_of_lt hlt)) hlow)
    · exact .inl hle
  · rcases Int.lt_or_le high.toInt x.toInt with hlt | hle
    · exact .inr (Int.le_antisymm hhigh (nearestInt_mono (Int.le_of_lt hlt)))
    · exact .inl hle

/-- The first integer that is not a floating-point number is rounded down into the range. -/
example : numInRange.run [.int 9007199254740993, .int 0, .int 9007199254740992] =
    .ok (.bool true) ∧
      withinByOperators (.int 9007199254740993) (.int 0) (.int 9007199254740992) =
        .ok (.bool false) := by
  rw [numInRange_int, withinByOperators_int]
  exact ⟨rfl, rfl⟩

end Builtin

end EventPipeline.Rules
