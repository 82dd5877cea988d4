import EventPipeline.Rules.Operation
import Mathlib.Data.List.Forall2

/-!
# `EventPipeline.Proofs.Rules.Equality`: which values count as equal

The operators `==`, `!=` and `~=` compare values with `Value.looseEq`. `looseEq_iff_alike` says
which values that makes equal: those that are strictly equal, an integer and the floating-point
number it is rounded to, and lists whose elements are equal in this sense, to any depth (`Alike`).

`looseEq_comm` and `looseEq_of_strictEq` are the laws of it. `looseEq_list_iff` and
`looseEq_map_iff` tell how it goes into lists and into maps. The two differ: elements of lists are
compared loosely, and entries of maps strictly. So inside a map a number of one type is not equal
to a number of the other.
-/

set_option autoImplicit false

namespace EventPipeline.Rules

/-! ## Floating-point numbers -/

section

open Float.Model (UnpackedFloat)

/-- The order of two signs, seen from the other one. -/
theorem compare_sign_swap (s t : UnpackedFloat.Sign) : compare t s = (compare s t).swap := by
  cases s <;> cases t <;> rfl

/-- The order of exponents first and mantissas second, seen from the other number. -/
theorem compare_then_swap (d e : Int) (m n : Nat) :
    (compare e d).then (compare n m) = ((compare d e).then (compare m n)).swap := by
  rw [Ordering.swap_then, Int.compare_swap, Nat.compare_swap]

/-- The order of two floating-point numbers, seen from the other one. -/
theorem unpackedCompare_swap (f g : UnpackedFloat) :
    g.compare f = (f.compare g).map Ordering.swap := by
  cases f with
  | notANumber => cases g <;> rfl
  | infinity s =>
    cases g with
    | infinity t => exact congrArg some (compare_sign_swap s t)
    | notANumber | zero | finite => cases s <;> rfl
  | zero s =>
    cases g with
    | infinity t | finite t => cases t <;> rfl
    | notANumber | zero => rfl
  | finite s m d hm =>
    cases g with
    | infinity t => cases t <;> rfl
    | notANumber => rfl
    | zero t => cases s <;> rfl
    | finite t n e hn =>
      cases s <;> cases t
      case negative.negative =>
        exact congrArg (fun order => some (Ordering.swap order)) (compare_then_swap d e m n)
      case positive.positive => exact congrArg some (compare_then_swap d e m n)
      all_goals rfl

/-- Equality of floating-point numbers is symmetric. -/
theorem float_beq_comm (x y : Float) : (x == y) = (y == x) := by
  show (x.toModel.unpack.compare y.toModel.unpack == some .eq) =
    (y.toModel.unpack.compare x.toModel.unpack == some .eq)
  rw [unpackedCompare_swap x.toModel.unpack]
  cases x.toModel.unpack.compare y.toModel.unpack with
  | none => rfl
  | some order => cases order <;> rfl

end

namespace Value

/-! ## Laws -/

mutual

/-- Strict equality is symmetric. -/
theorem strictEq_comm (a b : Value) : strictEq a b = strictEq b a := by
  cases a with
  | null => cases b <;> rfl
  | bool =>
    cases b with
    | bool => exact BEq.comm
    | _ => rfl
  | int =>
    cases b with
    | int => exact BEq.comm
    | _ => rfl
  | float x =>
    cases b with
    | float y => exact float_beq_comm x y
    | _ => rfl
  | str =>
    cases b with
    | str => exact BEq.comm
    | _ => rfl
  | list as =>
    cases b with
    | list bs => exact strictEqList_comm as bs
    | _ => rfl
  | map as =>
    cases b with
    | map bs => exact strictEqEntries_comm as bs
    | _ => rfl
  | action =>
    cases b with
    | action => exact BEq.comm
    | _ => rfl
  | goto =>
    cases b with
    | goto => exact BEq.comm
    | _ => rfl

theorem strictEqList_comm (as bs : List Value) : strictEqList as bs = strictEqList bs as := by
  cases as with
  | nil => cases bs <;> rfl
  | cons a as =>
    cases bs with
    | nil => rfl
    | cons b bs => rw [strictEqList, strictEqList, strictEq_comm a b, strictEqList_comm as bs]

theorem strictEqEntries_comm (as bs : List (String × Value)) :
    strictEqEntries as bs = strictEqEntries bs as := by
  cases as with
  | nil => cases bs <;> rfl
  | cons entry as =>
    cases bs with
    | nil => cases entry; rfl
    | cons entry' bs =>
      obtain ⟨k, a⟩ := entry
      obtain ⟨l, b⟩ := entry'
      have hkeys : (k == l) = (l == k) := BEq.comm
      rw [strictEqEntries, strictEqEntries, hkeys, strictEq_comm a b, strictEqEntries_comm as bs]

end

mutual

/-- Loose equality is symmetric. -/
theorem looseEq_comm (a b : Value) : looseEq a b = looseEq b a := by
  cases a with
  | list as =>
    cases b with
    | list bs => exact looseEqList_comm as bs
    | _ => rfl
  | int =>
    cases b with
    | int => exact strictEq_comm _ _
    | _ => rfl
  | float =>
    cases b with
    | float => exact strictEq_comm _ _
    | _ => rfl
  | null | bool | str | map | action | goto =>
    cases b <;> exact strictEq_comm _ _

theorem looseEqList_comm (as bs : List Value) : looseEqList as bs = looseEqList bs as := by
  cases as with
  | nil => cases bs <;> rfl
  | cons a as =>
    cases bs with
    | nil => rfl
    | cons b bs => rw [looseEqList, looseEqList, looseEq_comm a b, looseEqList_comm as bs]

end

mutual

/-- What is strictly equal is loosely equal. -/
theorem looseEq_of_strictEq {a b : Value} (h : strictEq a b = true) : looseEq a b = true := by
  cases a with
  | list as =>
    cases b with
    | list bs => exact looseEqList_of_strictEqList h
    | _ => cases h
  | int =>
    cases b with
    | float => cases h
    | _ => exact h
  | float =>
    cases b with
    | int => cases h
    | _ => exact h
  | null | bool | str | map | action | goto => cases b <;> exact h

theorem looseEqList_of_strictEqList {as bs : List Value} (h : strictEqList as bs = true) :
    looseEqList as bs = true := by
  cases as with
  | nil => cases bs <;> exact h
  | cons a as =>
    cases bs with
    | nil => exact h
    | cons b bs =>
      obtain ⟨hfirst, hrest⟩ := Bool.and_eq_true_iff.mp h
      exact Bool.and_eq_true_iff.mpr
        ⟨looseEq_of_strictEq hfirst, looseEqList_of_strictEqList hrest⟩

end

/-! ## Structure -/

/-- The elements of two lists are loosely equal, one by one. -/
theorem looseEqList_iff {as bs : List Value} :
    looseEqList as bs = true ↔ List.Forall₂ (fun a b => looseEq a b = true) as bs := by
  induction as generalizing bs with
  | nil => cases bs <;> simp [looseEqList]
  | cons a as ih =>
    cases bs with
    | nil => simp [looseEqList]
    | cons b bs => rw [looseEqList, Bool.and_eq_true_iff, List.forall₂_cons, ih]

/-- The entries of two maps have the same keys and strictly equal values. -/
theorem strictEqEntries_iff {as bs : List (String × Value)} :
    strictEqEntries as bs = true ↔
      List.Forall₂ (fun a b => a.1 = b.1 ∧ strictEq a.2 b.2 = true) as bs := by
  induction as generalizing bs with
  | nil => cases bs <;> simp [strictEqEntries]
  | cons a as ih =>
    cases bs with
    | nil => simp [strictEqEntries]
    | cons b bs =>
      rw [strictEqEntries, Bool.and_eq_true_iff, Bool.and_eq_true_iff, beq_iff_eq,
        List.forall₂_cons, ih]

/-- Two lists are equal exactly if they have the same length and equal elements. -/
theorem looseEq_list_iff {as bs : List Value} :
    looseEq (.list as) (.list bs) = true ↔
      List.Forall₂ (fun a b => looseEq a b = true) as bs :=
  looseEqList_iff

/-- Two maps are equal exactly if they have the same keys and strictly equal values. -/
theorem looseEq_map_iff {as bs : List (String × Value)} :
    looseEq (.map as) (.map bs) = true ↔
      List.Forall₂ (fun a b => a.1 = b.1 ∧ strictEq a.2 b.2 = true) as bs :=
  strictEqEntries_iff

/-- Lists that hold the same number as different types are equal, and such maps are not. -/
example : looseEq (.list [.list [.int 1]]) (.list [.list [.float 1.0]]) = true ∧
    looseEq (.map [("n", .int 1)]) (.map [("n", .float 1.0)]) = false := by
  decide

/-- Two values are the same, up to integers that stand for floating-point numbers, or the other way
round, outside of maps. -/
inductive Alike : Value → Value → Prop
  | strict {a b : Value} (h : strictEq a b = true) : Alike a b
  | rounded {n : Int64} {x : Float} (h : (Float.ofInt n.toInt == x) = true) :
    Alike (.int n) (.float x)
  | rounds {n : Int64} {x : Float} (h : (Float.ofInt n.toInt == x) = true) :
    Alike (.float x) (.int n)
  | cons {a b : Value} {as bs : List Value} (hfirst : Alike a b)
    (hrest : Alike (.list as) (.list bs)) : Alike (.list (a :: as)) (.list (b :: bs))

/-- Values that are alike are loosely equal. -/
theorem Alike.looseEq {a b : Value} (h : Alike a b) : looseEq a b = true := by
  induction h with
  | strict h => exact looseEq_of_strictEq h
  | rounded h | rounds h => exact h
  | cons _ _ hfirst hrest => exact Bool.and_eq_true_iff.mpr ⟨hfirst, hrest⟩

mutual

/-- Values that are loosely equal are alike. -/
theorem alike_of_looseEq {a b : Value} (h : looseEq a b = true) : Alike a b := by
  cases a with
  | list as =>
    cases b with
    | list bs => exact alike_of_looseEqList h
    | _ => exact .strict h
  | int =>
    cases b with
    | float => exact .rounded h
    | _ => exact .strict h
  | float =>
    cases b with
    | int => exact .rounds h
    | _ => exact .strict h
  | null | bool | str | map | action | goto => cases b <;> exact .strict h

theorem alike_of_looseEqList {as bs : List Value} (h : looseEqList as bs = true) :
    Alike (.list as) (.list bs) := by
  cases as with
  | nil => cases bs <;> exact .strict h
  | cons a as =>
    cases bs with
    | nil => exact .strict h
    | cons b bs =>
      obtain ⟨hfirst, hrest⟩ := Bool.and_eq_true_iff.mp h
      exact .cons (alike_of_looseEq hfirst) (alike_of_looseEqList hrest)

end

/-- Loosely equal are exactly the values that are alike. -/
theorem looseEq_iff_alike {a b : Value} : looseEq a b = true ↔ Alike a b :=
  ⟨alike_of_looseEq, Alike.looseEq⟩

end Value

/-- An item is a member of a list exactly if it is alike to one of its elements. -/
theorem membership_list_iff {item : Value} {items : List Value} :
    membership item (.list items) = .ok true ↔ ∃ v ∈ items, Value.Alike item v := by
  have hany : membership item (.list items) = .ok (items.any fun v => v.looseEq item) := by
    cases item <;> rfl
  rw [hany, Except.ok.injEq, List.any_eq_true]
  refine exists_congr fun v => and_congr_right fun _ => ?_
  rw [Value.looseEq_comm, Value.looseEq_iff_alike]

end EventPipeline.Rules
