import EventPipeline.Text.Bytes

/-!
# `EventPipeline.Proofs.Text.Bytes`: characters seen through their bytes

A character of ASCII is one byte, its own number, and all bytes of the others are at least 128. So a
property that does not tell characters beyond ASCII apart (`IsUniform`) can be decided on bytes. A
look at the byte where a character starts finds what the character has (`any_peek?`), and bytes with
the property are gone through up to the first character that does not have it (`skipWhile_eq`).

Offsets between two characters are those of the prefixes of a text (`isBoundary_iff`), and cutting
between two of them gives the characters in between (`slice?_eq`).
-/

set_option autoImplicit false

namespace EventPipeline.Text

open String (utf8EncodeChar)

/-! ### Lengths -/

/-- The bytes of two texts in a row. -/
@[simp] theorem byteLength_append (cs ds : List Char) :
    byteLength (cs ++ ds) = byteLength cs + byteLength ds := by
  rw [byteLength, List.map_append, List.sum_append]
  rfl

theorem byteLength_cons (c : Char) (cs : List Char) :
    byteLength (c :: cs) = c.utf8Size + byteLength cs :=
  List.sum_cons

/-- A character of ASCII is one byte more. -/
theorem byteLength_snoc {c : Char} (hc : c.toNat < 128) (cs : List Char) :
    byteLength (cs ++ [c]) = byteLength cs + 1 := by
  have hone : c.utf8Size = 1 := Char.utf8Size_eq_one_iff.mpr (Nat.le_of_lt_succ hc)
  rw [byteLength_append, byteLength_cons, hone]
  rfl

theorem utf8ByteSize_ofList (cs : List Char) : (String.ofList cs).utf8ByteSize = byteLength cs := by
  induction cs with
  | nil => rfl
  | cons c cs ih =>
    rw [String.ofList_cons, String.utf8ByteSize_append, String.utf8ByteSize_singleton, ih]
    rfl

/-- The bytes of the characters of a text are the bytes of the text. -/
theorem byteLength_toList (s : String) : byteLength s.toList = s.utf8ByteSize := by
  rw [← utf8ByteSize_ofList, String.ofList_toList]

/-! ### Characters -/

/-- The bytes of a text. -/
def bytes (cs : List Char) : List UInt8 :=
  cs.flatMap utf8EncodeChar

theorem bytes_append (cs ds : List Char) : bytes (cs ++ ds) = bytes cs ++ bytes ds :=
  List.flatMap_append

theorem bytes_cons (c : Char) (cs : List Char) : bytes (c :: cs) = utf8EncodeChar c ++ bytes cs :=
  List.flatMap_cons

theorem length_bytes (cs : List Char) : (bytes cs).length = byteLength cs := by
  induction cs with
  | nil => rfl
  | cons c cs ih =>
    rw [bytes_cons, List.length_append, String.length_utf8EncodeChar, ih, byteLength_cons]

/-- A character of ASCII is one byte. -/
theorem utf8EncodeChar_ascii {c : Char} (h : c.toNat < 128) :
    utf8EncodeChar c = [UInt8.ofNat c.toNat] :=
  if_pos (Nat.le_of_lt_succ h)

/-- The bytes of the other characters are no characters of ASCII. -/
theorem le_of_mem_utf8EncodeChar {c : Char} {b : UInt8} (h : 128 ≤ c.toNat)
    (hb : b ∈ utf8EncodeChar c) : 128 ≤ b.toNat := by
  have hbyte {n : Nat} (hlow : 128 ≤ n) (hhigh : n < 256) : 128 ≤ (UInt8.ofNat n).toNat := by
    rw [UInt8.toNat_ofNat_of_lt' hhigh]
    exact hlow
  have hfirst : ¬ c.val.toNat ≤ 0x7f := Nat.not_le.mpr h
  unfold utf8EncodeChar at hb
  dsimp only at hb
  rw [if_neg hfirst] at hb
  split at hb
  · simp only [List.mem_cons, List.not_mem_nil, or_false] at hb
    obtain rfl | rfl := hb <;> exact hbyte (by omega) (by omega)
  split at hb
  · simp only [List.mem_cons, List.not_mem_nil, or_false] at hb
    obtain rfl | rfl | rfl := hb <;> exact hbyte (by omega) (by omega)
  · simp only [List.mem_cons, List.not_mem_nil, or_false] at hb
    obtain rfl | rfl | rfl | rfl := hb <;> exact hbyte (by omega) (by omega)

/-- The property does not tell characters beyond ASCII apart. -/
def IsUniform (p : Char → Bool) : Prop :=
  ∀ c d : Char, 128 ≤ c.toNat → 128 ≤ d.toNat → p c = p d

/-- The bytes of a character have such a property if the character has. -/
theorem IsUniform.apply_byte {p : Char → Bool} (hp : IsUniform p) {c : Char} {b : UInt8}
    (hb : b ∈ utf8EncodeChar c) : p (Char.ofUInt8 b) = p c := by
  by_cases hc : c.toNat < 128
  · rw [utf8EncodeChar_ascii hc, List.mem_singleton] at hb
    have hsame : Char.ofUInt8 (UInt8.ofNat c.toNat) = c := by
      refine Char.toNat_inj.mp ?_
      show (UInt8.ofNat c.toNat).toNat = c.toNat
      exact UInt8.toNat_ofNat_of_lt' (Nat.lt_trans hc (by decide))
    rw [hb, hsame]
  · rw [Nat.not_lt] at hc
    exact hp _ _ (le_of_mem_utf8EncodeChar hc hb) hc

/-- A property that only characters of ASCII have. -/
theorem isUniform_of_ascii {q : Char → Bool} (h : ∀ c, q c = true → c.toNat < 128) :
    IsUniform q := by
  have hno {c : Char} (hc : 128 ≤ c.toNat) : q c = false := by
    rw [← Bool.not_eq_true]
    exact fun hq => Nat.not_lt.mpr hc (h c hq)
  exact fun c d hc hd => (hno hc).trans (hno hd).symm

theorem isUniform_beq {a : Char} (ha : a.toNat < 128) : IsUniform (· == a) :=
  isUniform_of_ascii fun _ h => beq_iff_eq.mp h ▸ ha

theorem isUniform_bne {a : Char} (ha : a.toNat < 128) : IsUniform (· != a) :=
  fun c d hc hd => congrArg not (isUniform_beq ha c d hc hd)

theorem isUniform_or {p q : Char → Bool} (hp : IsUniform p) (hq : IsUniform q) :
    IsUniform fun c => p c || q c := by
  intro c d hc hd
  show (p c || q c) = (p d || q d)
  rw [hp c d hc hd, hq c d hc hd]

/-! ### Offsets in a text -/

variable {text : String} {pre mid rest : List Char} {p : Char → Bool}

/-- The bytes of a text behind a prefix. -/
theorem peek?_add (h : text.toList = pre ++ rest) (i : Nat) :
    peek? text (byteLength pre + i) = (bytes rest)[i]?.map Char.ofUInt8 := by
  have hdata : text.toByteArray.data.toList = bytes text.toList := by
    rw [← String.utf8Encode_toList]
    exact congrArg Array.toList List.data_toByteArray
  rw [peek?, ← Array.getElem?_toList, hdata, h, bytes_append, ← length_bytes,
    List.getElem?_append_right (Nat.le_add_right _ _), Nat.add_sub_cancel_left]

/-- At the end of a text there is no byte. -/
theorem peek?_end (h : text.toList = pre) : peek? text (byteLength pre) = none := by
  have htext : text.toList = pre ++ [] := h.trans (List.append_nil pre).symm
  exact peek?_add htext 0

/-- All bytes of a character have the uniform properties that it has. -/
theorem exists_peek?_add {c : Char} (h : text.toList = pre ++ c :: rest) {i : Nat}
    (hi : i < c.utf8Size) :
    ∃ d, peek? text (byteLength pre + i) = some d ∧ ∀ p, IsUniform p → p d = p c := by
  have hlength : i < (utf8EncodeChar c).length := by
    rw [String.length_utf8EncodeChar]
    exact hi
  refine ⟨.ofUInt8 (utf8EncodeChar c)[i], ?_, fun p hp => hp.apply_byte (List.getElem_mem hlength)⟩
  rw [peek?_add h, bytes_cons, List.getElem?_append_left hlength, List.getElem?_eq_getElem hlength]
  rfl

/-- The byte where a character starts has the uniform properties of the character, and if that is
ASCII it is the character. -/
theorem exists_peek? {c : Char} (h : text.toList = pre ++ c :: rest) :
    ∃ d, peek? text (byteLength pre) = some d ∧ (∀ p, IsUniform p → p d = p c) ∧
      (c.toNat < 128 → d = c) := by
  obtain ⟨d, hd, huniform⟩ := exists_peek?_add h c.utf8Size_pos
  refine ⟨d, hd, huniform, fun hc => ?_⟩
  have hbeq := huniform (· == c) (isUniform_beq hc)
  exact beq_iff_eq.mp (hbeq.trans (beq_self_eq_true c))

/-- A look at the byte where a character starts tells whether it has a uniform property. -/
theorem any_peek? (h : text.toList = pre ++ rest) (hp : IsUniform p) :
    (peek? text (byteLength pre)).any p = rest.head?.any p := by
  cases rest with
  | nil =>
    rw [peek?_end (h.trans (List.append_nil pre))]
    rfl
  | cons c rest =>
    obtain ⟨d, hd, huniform, -⟩ := exists_peek? h
    rw [hd]
    exact huniform p hp

/-- The byte where a character starts is one of ASCII exactly if the character is. -/
theorem peek?_eq_some_iff {c : Char} (h : text.toList = pre ++ rest) (hc : c.toNat < 128) :
    peek? text (byteLength pre) = some c ↔ rest.head? = some c := by
  have hsome (x : Option Char) : x.any (· == c) = true ↔ x = some c := by
    cases x <;> simp
  rw [← hsome, ← hsome, any_peek? h (isUniform_beq hc)]

/-- Bytes with a property are gone through one by one. -/
theorem skipWhile_add {pos k : Nat}
    (h : ∀ i < k, ∃ d, peek? text (pos + i) = some d ∧ p d = true) :
    skipWhile p text pos = skipWhile p text (pos + k) := by
  induction k with
  | zero => rfl
  | succ k ih =>
    obtain ⟨d, hd, hp⟩ := h k (Nat.lt_succ_self k)
    rw [ih fun i hi => h i (Nat.lt_succ_of_lt hi), skipWhile_step hd hp]
    rfl

/-- Going through bytes stops at the first character that does not have the property. -/
theorem skipWhile_eq (h : text.toList = pre ++ rest) (hp : IsUniform p) :
    skipWhile p text (byteLength pre) = byteLength (pre ++ rest.takeWhile p) := by
  induction rest generalizing pre with
  | nil =>
    rw [List.takeWhile_nil, List.append_nil]
    refine skipWhile_stop ?_
    rw [any_peek? h hp]
    rfl
  | cons c rest ih =>
    cases hc : p c with
    | false =>
      rw [List.takeWhile_cons_of_neg (Bool.eq_false_iff.mp hc), List.append_nil]
      refine skipWhile_stop ?_
      rw [any_peek? h hp]
      exact hc
    | true =>
      -- all bytes of the character have the property, and then comes the next character
      have hchar : skipWhile p text (byteLength pre) =
          skipWhile p text (byteLength (pre ++ [c])) := by
        rw [byteLength_append, byteLength_cons]
        refine skipWhile_add fun i hi => ?_
        obtain ⟨d, hd, huniform⟩ := exists_peek?_add h hi
        exact ⟨d, hd, (huniform p hp).trans hc⟩
      rw [hchar, ih (h.trans (List.append_cons pre c rest)), List.takeWhile_cons_of_pos hc,
        ← List.append_cons]

/-- Between two characters are the ends of prefixes. -/
theorem isBoundary_iff {pos : Nat} :
    IsBoundary text pos ↔ ∃ pre rest, text.toList = pre ++ rest ∧ pos = byteLength pre := by
  rw [IsBoundary, String.Pos.Raw.isValid_iff_exists_take_toList]
  constructor
  · rintro ⟨i, hi⟩
    exact ⟨text.toList.take i, text.toList.drop i, (List.take_append_drop i _).symm,
      hi.trans (utf8ByteSize_ofList _)⟩
  · rintro ⟨pre, rest, htext, hpos⟩
    refine ⟨pre.length, ?_⟩
    rw [utf8ByteSize_ofList, htext, List.take_left]
    exact hpos

theorem isBoundary_of_append (h : text.toList = pre ++ rest) : IsBoundary text (byteLength pre) :=
  isBoundary_iff.mpr ⟨pre, rest, h, rfl⟩

theorem IsBoundary.le {pos : Nat} (h : IsBoundary text pos) : pos ≤ text.utf8ByteSize :=
  h.le_utf8ByteSize

/-- Cutting between two characters gives those in between. -/
theorem slice?_eq (h : text.toList = pre ++ mid ++ rest) :
    slice? text (byteLength pre) (byteLength (pre ++ mid)) = some (String.ofList mid) := by
  have hfirst : IsBoundary text (byteLength pre) :=
    isBoundary_of_append (h.trans (List.append_assoc pre mid rest))
  have hlast : IsBoundary text (byteLength (pre ++ mid)) := isBoundary_of_append h
  have hle : byteLength pre ≤ byteLength (pre ++ mid) := by
    rw [byteLength_append]
    exact Nat.le_add_right _ _
  have hbytes : text.toByteArray = (String.ofList pre).toByteArray ++
      ((String.ofList mid).toByteArray ++ (String.ofList rest).toByteArray) := by
    rw [← String.toByteArray_append, ← String.toByteArray_append, ← String.ofList_append,
      ← String.ofList_append, ← List.append_assoc, ← h, String.ofList_toList]
  have hsize (cs : List Char) : byteLength cs = (String.ofList cs).toByteArray.size :=
    (utf8ByteSize_ofList cs).symm
  have hcut : text.toByteArray.extract (byteLength pre) (byteLength (pre ++ mid)) =
      (String.ofList mid).toByteArray := by
    rw [hbytes, byteLength_append, hsize pre, hsize mid]
    exact ByteArray.extract_append_size_add (i := 0) |>.trans (ByteArray.extract_append_eq_left rfl)
  rw [slice?, dif_pos ⟨hle, hfirst, hlast⟩, Option.some.injEq, ← String.toByteArray_inj,
    String.toByteArray_extract]
  exact hcut

/-- A letter of two bytes cannot be cut in two. -/
example : slice? "né" 0 1 = some "n" ∧ slice? "né" 0 2 = none ∧ slice? "né" 1 3 = some "é" := by
  decide

end EventPipeline.Text
