import EventPipeline.Text.Blank

/-!
# `EventPipeline.Text.Bytes`: a text as its bytes

A text is stored in UTF-8, where a character takes one to four bytes. Bytes can be looked at one by
one, at any offset. A piece of the text has to begin and end between two characters, and `slice?`
gives none for any other pair of offsets.
-/

set_option autoImplicit false

namespace EventPipeline.Text

/-- The offset is in front of a character or at the end of the text. -/
def IsBoundary (text : String) (pos : Nat) : Prop :=
  String.Pos.Raw.IsValid text ⟨pos⟩

instance (text : String) (pos : Nat) : Decidable (IsBoundary text pos) :=
  inferInstanceAs (Decidable (String.Pos.Raw.IsValid text ⟨pos⟩))

/-- The byte at an offset, as the character of that number. In ASCII this is the character that
stands there. -/
def peek? (text : String) (pos : Nat) : Option Char :=
  text.toByteArray.data[pos]?.map Char.ofUInt8

theorem lt_of_peek? {text : String} {pos : Nat} {c : Char} (h : peek? text pos = some c) :
    pos < text.utf8ByteSize := by
  obtain ⟨b, hb, -⟩ := Option.map_eq_some_iff.mp h
  obtain ⟨hlt, -⟩ := Array.getElem?_eq_some_iff.mp hb
  exact hlt

/-- The first offset from `pos` on whose byte has not the property. -/
def skipWhile (p : Char → Bool) (text : String) (pos : Nat) : Nat :=
  match _hpeek : peek? text pos with
  | none => pos
  | some c => if p c then skipWhile p text (pos + 1) else pos
termination_by text.utf8ByteSize - pos
decreasing_by
  have := lt_of_peek? _hpeek
  omega

theorem le_skipWhile (p : Char → Bool) (text : String) (pos : Nat) :
    pos ≤ skipWhile p text pos := by
  fun_induction skipWhile p text pos with
  | case1 => exact Nat.le_refl _
  | case2 pos c _ _ ih => exact Nat.le_of_succ_le ih
  | case3 => exact Nat.le_refl _

theorem skipWhile_step {p : Char → Bool} {text : String} {pos : Nat} {c : Char}
    (hpeek : peek? text pos = some c) (hc : p c = true) :
    skipWhile p text pos = skipWhile p text (pos + 1) := by
  rw [skipWhile.eq_def]
  split
  · rename_i hnone
    rw [hpeek] at hnone
    cases hnone
  · rename_i hsome
    rw [hpeek] at hsome
    cases hsome
    rw [if_pos hc]

theorem skipWhile_stop {p : Char → Bool} {text : String} {pos : Nat}
    (h : (peek? text pos).any p = false) : skipWhile p text pos = pos := by
  rw [skipWhile.eq_def]
  split
  · rfl
  · rename_i hsome
    rw [hsome, Option.any_some] at h
    rw [if_neg (Bool.eq_false_iff.mp h)]

theorem lt_skipWhile {p : Char → Bool} {text : String} {pos : Nat} {c : Char}
    (hpeek : peek? text pos = some c) (hc : p c = true) : pos < skipWhile p text pos := by
  rw [skipWhile_step hpeek hc]
  exact le_skipWhile p text (pos + 1)

/-- The piece of the text between two offsets. There is none if the offsets are in the wrong order,
beyond the end of the text, or inside a character. -/
def slice? (text : String) (first last : Nat) : Option String :=
  if h : first ≤ last ∧ IsBoundary text first ∧ IsBoundary text last then
    some (text.extract ⟨⟨first⟩, h.2.1⟩ ⟨⟨last⟩, h.2.2⟩)
  else none

end EventPipeline.Text
