import EventPipeline.Engine.Rota
import Mathlib.Algebra.BigOperators.Group.Finset.Basic

/-!
# `EventPipeline.Proofs.Lifecycle.Dealing`: what falls to whom

Things that are dealt out in turn to so many: the one with the number `j * count + u` is the one
with the number `j` of those that fall to `u` (`getElem?_turnOf`), nobody gets more than one more
than another (`length_turnOf_le`), and nothing is left over (`sum_length_turnOf`).
-/

set_option autoImplicit false

namespace EventPipeline

variable {α : Type} {count u v : Nat} {items : List α}

@[simp] theorem turnOf_nil : turnOf count u ([] : List α) = [] := rfl

/-- One thing more falls to the one whose turn it is. -/
theorem turnOf_concat (item : α) :
    turnOf count u (items ++ [item]) =
      turnOf count u items ++ if items.length % count = u then [item] else [] := by
  rw [turnOf, List.zipIdx_append, List.filter_append, List.map_append, ← turnOf]
  congr 1
  by_cases hturn : items.length % count = u
  · simp [hturn]
  · simp [hturn]

/-- How many things fall to `u`. -/
theorem length_turnOf (hu : u < count) (items : List α) :
    (turnOf count u items).length = (items.length + (count - 1 - u)) / count := by
  induction items using List.reverseRecOn with
  | nil => simp [Nat.div_eq_of_lt (by omega : count - 1 - u < count)]
  | append_singleton items item ih =>
    have hnext : (items ++ [item]).length + (count - 1 - u) =
        items.length + (count - 1 - u) + 1 := by
      rw [List.length_append, List.length_singleton]
      omega
    have hlt : items.length % count < count := Nat.mod_lt _ (by omega)
    have hsplit : items.length + (count - 1 - u) + 1 =
        count * (items.length / count) + (items.length % count + (count - u)) := by
      have := Nat.div_add_mod items.length count
      omega
    have hturn : count ∣ items.length + (count - 1 - u) + 1 ↔ items.length % count = u := by
      rw [hsplit, Nat.dvd_add_right (Nat.dvd_mul_right ..)]
      constructor
      · rintro ⟨rounds, hrounds⟩
        -- The sum is less than two rounds and more than none.
        obtain _ | _ | rounds := rounds
        · omega
        · omega
        · have : count * 2 ≤ count * (rounds + 1 + 1) := Nat.mul_le_mul_left _ (by omega)
          omega
      · intro h
        rw [h, Nat.add_sub_cancel' (Nat.le_of_lt hu)]
    rw [turnOf_concat, List.length_append, ih, hnext, Nat.succ_div]
    by_cases h : items.length % count = u
    · rw [if_pos h, if_pos (hturn.mpr h), List.length_singleton]
    · rw [if_neg h, if_neg (mt hturn.mp h), List.length_nil]

/-- Nobody gets more than one more than another. -/
theorem length_turnOf_le (hu : u < count) (hv : v < count) (items : List α) :
    (turnOf count u items).length ≤ (turnOf count v items).length + 1 := by
  rw [length_turnOf hu, length_turnOf hv, ← Nat.add_div_right _ (by omega : 0 < count)]
  exact Nat.div_le_div_right (by omega)

/-- Nothing is left over. -/
theorem sum_length_turnOf (hcount : 0 < count) (items : List α) :
    ((List.range count).map fun u => (turnOf count u items).length).sum = items.length := by
  induction items using List.reverseRecOn with
  | nil => simp
  | append_singleton items item ih =>
    have hone : ((List.range count).map fun u =>
        (if items.length % count = u then [item] else []).length).sum = 1 := by
      show ∑ u ∈ Finset.range count, _ = 1
      rw [Finset.sum_eq_single_of_mem (items.length % count)
        (Finset.mem_range.mpr (Nat.mod_lt _ hcount)) fun u _ hne => by rw [if_neg hne.symm]; rfl]
      simp
    simp only [turnOf_concat, List.length_append, List.sum_map_add, ih, hone, List.length_singleton]

/-- The thing with the number `j * count + u` is the one with the number `j` for `u`. -/
theorem getElem?_turnOf (hu : u < count) (j : Nat) :
    (turnOf count u items)[j]? = items[j * count + u]? := by
  induction items using List.reverseRecOn with
  | nil => simp
  | append_singleton items item ih =>
    have hsplit := Nat.div_add_mod items.length count
    rw [turnOf_concat]
    by_cases hturn : items.length % count = u
    case neg =>
      have hne : j * count + u ≠ items.length := by
        intro heq
        rw [← heq, Nat.mul_comm, Nat.mul_add_mod, Nat.mod_eq_of_lt hu] at hturn
        exact hturn rfl
      rw [if_neg hturn, List.append_nil, ih]
      obtain hlt | hgt := Nat.lt_or_gt_of_ne hne
      · rw [List.getElem?_append_left hlt]
      · rw [List.getElem?_eq_none (by omega), List.getElem?_eq_none (by simp; omega)]
    case pos =>
      have hlength : (turnOf count u items).length = items.length / count := by
        have hsum : items.length + (count - 1 - u) =
            count * (items.length / count) + (count - 1) := by omega
        have hrest : (count - 1) / count = 0 := Nat.div_eq_of_lt (by omega)
        rw [length_turnOf hu, hsum, Nat.mul_add_div (by omega : 0 < count), hrest, Nat.add_zero]
      rw [if_pos hturn, Nat.mul_comm]
      obtain hlt | rfl | hgt := Nat.lt_trichotomy j (items.length / count)
      · have hrounds : count * (j + 1) ≤ count * (items.length / count) := Nat.mul_le_mul_left _ hlt
        rw [Nat.mul_succ] at hrounds
        rw [List.getElem?_append_left (by omega), ih, Nat.mul_comm,
          List.getElem?_append_left (by omega)]
      · rw [← hlength, List.getElem?_concat_length, hlength, ← hturn, hsplit,
          List.getElem?_concat_length]
      · have hrounds : count * (items.length / count + 1) ≤ count * j := Nat.mul_le_mul_left _ hgt
        rw [Nat.mul_succ] at hrounds
        rw [List.getElem?_eq_none (by simp; omega), List.getElem?_eq_none (by simp; omega)]

end EventPipeline
