import EventPipeline.Proofs.Rules.Positions
import EventPipeline.Proofs.Text.Words
import EventPipeline.Rules.ByteScan

/-!
# `EventPipeline.Proofs.Rules.ByteUnits`: units read byte by byte

The scanners of `ByteScan` are compared with those of `Cursor`, one by one. Where a cursor has read
a part of the text, the offset of the other is the number of bytes of that part, and each scanner
comes to the offset and the result that the cursor comes to (`seen`). All pieces that are cut out
lie between two such offsets, so that `slice?` has them. `lexeme?_eq` is the outcome for the units
of the language, and `skipIgnored_eq` for what is between them.

What carries this is that the kinds of characters that the scanners ask for are uniform beyond
ASCII. A character is one of ASCII, which is one byte, or each of its bytes is treated as the
character is.
-/

set_option autoImplicit false

namespace EventPipeline.Rules

open Text

/-! ### Kinds of characters -/

theorem isUniform_isDigit : IsUniform Char.isDigit :=
  isUniform_of_ascii fun c h => by
    have hbounds : 48 ≤ c.toNat ∧ c.toNat ≤ 57 := Char.isDigit_iff_toNat.mp h
    omega

theorem isUniform_isAlpha : IsUniform Char.isAlpha :=
  isUniform_of_ascii fun c h => by
    have hbounds := toNat_of_isAlpha h
    omega

theorem isUniform_isSeparator : IsUniform isSeparator :=
  isUniform_or (isUniform_or (isUniform_or (isUniform_or (isUniform_beq (by decide))
    (isUniform_beq (by decide))) (isUniform_beq (by decide))) (isUniform_beq (by decide)))
    (isUniform_beq (by decide))

theorem isUniform_isNameStart : IsUniform isNameStart :=
  isUniform_or (isUniform_or isUniform_isAlpha (isUniform_beq (by decide)))
    (isUniform_beq (by decide))

theorem isUniform_isNameChar : IsUniform isNameChar :=
  isUniform_or (isUniform_or (isUniform_or isUniform_isAlpha isUniform_isDigit)
    (isUniform_beq (by decide))) (isUniform_beq (by decide))

variable {c : Char} {cs pre rest : List Char} {text : String} {cursor : Cursor}

/-- Ignored characters up to the end of a comment, and then what is ignored behind it. -/
theorem spanIgnored_true (cs : List Char) :
    spanIgnored true cs =
      (cs.takeWhile (· != '\n') ++ (spanIgnored false (cs.dropWhile (· != '\n'))).1,
        (spanIgnored false (cs.dropWhile (· != '\n'))).2) := by
  induction cs with
  | nil => rfl
  | cons c cs ih =>
    cases hend : c != '\n' with
    | false =>
      obtain rfl : c = '\n' := bne_eq_false_iff_eq.mp hend
      rfl
    | true =>
      rw [spanIgnored, if_pos rfl, hend, ih,
        List.takeWhile_cons_of_pos (p := (· != '\n')) hend,
        List.dropWhile_cons_of_pos (p := (· != '\n')) hend]
      rfl

theorem ascii_of_isSeparator (h : isSeparator c = true) : c.toNat < 128 ∧ c ≠ '#' := by
  simp only [isSeparator, Bool.or_eq_true, beq_iff_eq] at h
  obtain (((rfl | rfl) | rfl) | rfl) | rfl := h <;> decide

theorem ascii_of_isNameStart (h : isNameStart c = true) : c.toNat < 128 := by
  simp only [isNameStart, Bool.or_eq_true, beq_iff_eq] at h
  obtain (halpha | rfl) | rfl := h
  · have hbounds := toNat_of_isAlpha halpha
    omega
  · decide
  · decide

namespace ByteScan

theorem skipIgnored_end {pos : Nat} (h : peek? text pos = none) : skipIgnored text pos = pos := by
  rw [skipIgnored.eq_def]
  split
  · rfl
  · rename_i hsome
    rw [h] at hsome
    cases hsome

theorem skipIgnored_of_peek? {pos : Nat} {d : Char} (h : peek? text pos = some d) :
    skipIgnored text pos =
      if isSeparator d then skipIgnored text (pos + 1)
      else if d == '#' then skipIgnored text (skipWhile (· != '\n') text pos)
      else pos := by
  rw [skipIgnored.eq_def]
  split
  · rename_i hnone
    rw [h] at hnone
    cases hnone
  · rename_i hsome
    rw [h] at hsome
    cases hsome
    rfl

/-- The bytes that are ignored are those of the characters that are. -/
theorem skipIgnored_eq (h : text.toList = pre ++ rest) :
    skipIgnored text (byteLength pre) = byteLength (pre ++ (spanIgnored false rest).1) := by
  -- a comment is gone through at once, so the induction is on the length of the text
  induction hlength : rest.length using Nat.strongRecOn generalizing pre rest with
  | _ length ih =>
    subst hlength
    cases rest with
    | nil =>
      rw [skipIgnored_end (peek?_end (h.trans (List.append_nil pre)))]
      exact congrArg byteLength (List.append_nil pre).symm
    | cons c cs =>
      obtain ⟨d, hd, huniform, -⟩ := exists_peek? h
      rw [skipIgnored_of_peek? hd, huniform _ isUniform_isSeparator,
        huniform (· == '#') (isUniform_beq (by decide)), spanIgnored, if_neg Bool.false_ne_true]
      by_cases hseparator : isSeparator c = true
      · obtain ⟨hascii, hhash⟩ := ascii_of_isSeparator hseparator
        rw [if_pos hseparator, hseparator, Bool.true_or, if_pos rfl, beq_false_of_ne hhash,
          ← byteLength_snoc hascii _, ih cs.length (Nat.lt_succ_self _)
            (h.trans (List.append_cons pre c cs)) rfl, ← List.append_cons]
      · rw [if_neg hseparator, Bool.eq_false_iff.mpr hseparator, Bool.false_or]
        by_cases hhash : (c == '#') = true
        · have hstart : c != '\n' := by
            rw [beq_iff_eq.mp hhash]
            rfl
          have hdrop : (cs.dropWhile (· != '\n')).length < (c :: cs).length :=
            Nat.lt_succ_of_le (length_dropWhile_le _ cs)
          have hsplit : text.toList =
              pre ++ (c :: cs).takeWhile (· != '\n') ++ cs.dropWhile (· != '\n') := by
            rw [h, List.append_assoc, List.takeWhile_cons_of_pos (p := (· != '\n')) hstart,
              List.cons_append, List.takeWhile_append_dropWhile]
          rw [if_pos hhash, if_pos hhash, skipWhile_eq h (isUniform_bne (by decide)),
            ih _ hdrop hsplit rfl, hhash, spanIgnored_true,
            List.takeWhile_cons_of_pos (p := (· != '\n')) hstart, List.append_assoc,
            List.cons_append]
        · rw [if_neg hhash, if_neg hhash, List.append_nil]

/-- What is seen of a cursor that something has been read at: the result and the offset. -/
def seen {α : Type} (read : α × Cursor) : α × Nat :=
  (read.1, read.2.pos)

/-! ### Units -/

/-- A point and a certain byte behind it are a point and such a character. -/
theorem isPointAt_iff {p : Char → Bool} (h : text.toList = pre ++ rest) (hp : IsUniform p) :
    isPointAt p text (byteLength pre) = true ↔ ∃ d more, rest = '.' :: d :: more ∧ p d = true := by
  rw [isPointAt, Bool.and_eq_true, beq_iff_eq, peek?_eq_some_iff h (by decide)]
  cases rest with
  | nil => simp
  | cons c rest =>
    rw [List.head?_cons, Option.some.injEq]
    by_cases hc : c = '.'
    · subst hc
      rw [← byteLength_snoc (c := '.') (by decide),
        any_peek? (h.trans (List.append_cons pre _ rest)) hp]
      cases rest <;> simp
    · simp [hc]

/-- The two parts of a literal with a point. -/
theorem readNumber_fraction {whole : List Char} (hwhole : ∀ c ∈ whole, c.isDigit = true)
    (fraction : List Char) (start : Nat) :
    readNumber true (String.ofList (whole ++ '.' :: fraction)) start =
      .ok (.token (.float (decimalValue whole fraction))) := by
  have hpoint : ∀ c ∈ whole, (c != '.') = true := by
    intro c hc
    rw [bne_iff_ne]
    rintro rfl
    exact absurd (hwhole _ hc) (by decide)
  have hno : ∀ c ∈ ('.' :: fraction).head?, (c != '.') = false := by
    simp
  rw [readNumber, if_pos rfl, String.toList_ofList, takeWhile_append_of_stop hpoint hno,
    dropWhile_append_of_stop hpoint hno]
  rfl

/-- Numbers. -/
theorem number?_eq (h : text.toList = pre ++ cursor.rest) (hpos : cursor.pos = byteLength pre) :
    number? text cursor.pos = some (seen cursor.number) := by
  have hwhole : skipWhile Char.isDigit text (byteLength pre) =
      byteLength (pre ++ cursor.rest.takeWhile Char.isDigit) := skipWhile_eq h isUniform_isDigit
  have hbehind : text.toList =
      pre ++ cursor.rest.takeWhile Char.isDigit ++ cursor.rest.dropWhile Char.isDigit := by
    rw [List.append_assoc, List.takeWhile_append_dropWhile, h]
  have hdigits : ∀ c ∈ cursor.rest.takeWhile Char.isDigit, c.isDigit = true :=
    List.all_eq_true.mp List.all_takeWhile
  have hpoint := isPointAt_iff hbehind isUniform_isDigit
  obtain ⟨d, more, hrest, hd⟩ | hno := fraction_cases cursor.rest
  · have hfraction : text.toList = pre ++ (cursor.rest.takeWhile Char.isDigit ++
        '.' :: (d :: more).takeWhile Char.isDigit) ++ (d :: more).dropWhile Char.isDigit := by
      rw [hbehind, hrest]
      simp only [List.append_assoc, List.cons_append, List.takeWhile_append_dropWhile]
    have hstop : skipWhile Char.isDigit text
        (byteLength (pre ++ cursor.rest.takeWhile Char.isDigit) + 1) =
          byteLength (pre ++ (cursor.rest.takeWhile Char.isDigit ++
            '.' :: (d :: more).takeWhile Char.isDigit)) := by
      rw [hrest] at hbehind
      rw [← byteLength_snoc (c := '.') (by decide),
        skipWhile_eq (hbehind.trans (List.append_cons _ _ _)) isUniform_isDigit]
      simp only [List.append_assoc, List.singleton_append]
    rw [hrest] at hpoint
    rw [number?, hpos, hwhole, hpoint.mpr ⟨d, more, rfl, hd⟩, if_pos rfl, hstop,
      slice?_eq hfraction, Cursor.number_of_fraction hrest hd, seen, Cursor.past, hpos,
      ← byteLength_append, ← readNumber_fraction hdigits _ (byteLength pre)]
    rfl
  · have hno' : isPointAt Char.isDigit text
        (byteLength (pre ++ cursor.rest.takeWhile Char.isDigit)) = false := by
      rw [← Bool.not_eq_true, hpoint]
      rintro ⟨d, more, hrest, hd⟩
      rw [hno d more hrest] at hd
      cases hd
    rw [number?, hpos, hwhole, hno', if_neg Bool.false_ne_true, slice?_eq hbehind,
      Cursor.number_of_integer hno, seen, Cursor.past, hpos, ← byteLength_append]
    simp [readNumber]

/-- Strings, at an opening quote of ASCII. -/
theorem string?_eq (h : text.toList = pre ++ cursor.rest) (hpos : cursor.pos = byteLength pre)
    (hrest : cursor.rest = c :: cs) (hascii : c.toNat < 128) :
    string? text cursor.pos c = some (seen (cursor.string c cs)) := by
  rw [hrest] at h
  have hbody : text.toList = pre ++ [c] ++ cs := h.trans (List.append_cons pre c cs)
  have hsplit : text.toList = pre ++ [c] ++ cs.takeWhile (· != c) ++ cs.dropWhile (· != c) := by
    rw [List.append_assoc, List.takeWhile_append_dropWhile, hbody]
  have hstop := skipWhile_eq hbody (isUniform_bne hascii)
  rw [string?, hpos, ← byteLength_snoc hascii _, hstop]
  cases hclose : cs.dropWhile (· != c) with
  | nil =>
    have hread : cursor.string c cs = (.error (.unterminatedString cursor.pos), cursor.atEnd) := by
      rw [Cursor.string, hclose]
    rw [hclose, List.append_nil] at hsplit
    have hwhole : byteLength (pre ++ [c] ++ cs.takeWhile (· != c)) =
        byteLength pre + byteLength cursor.rest := by
      rw [← hsplit, h, hrest, byteLength_append]
    rw [peek?_end hsplit, Option.isNone_none, if_pos rfl, hwhole, hread, seen, Cursor.atEnd,
      Cursor.past, hpos]
    rfl
  | cons close rest =>
    have hquote : close = c := by
      have hfirst := List.head?_dropWhile_not (· != c) cs
      rw [hclose] at hfirst
      simpa using hfirst
    have hread : cursor.string c cs =
        (.ok (.token (.str (String.ofList (cs.takeWhile (· != c))))),
          cursor.past (c :: cs.takeWhile (· != c) ++ [c]) rest) := by
      rw [Cursor.string, hclose, hquote]
    rw [hclose, hquote] at hsplit
    rw [(peek?_eq_some_iff hsplit hascii).mpr rfl, Option.isNone_some, if_neg Bool.false_ne_true,
      slice?_eq hsplit, ← byteLength_snoc hascii _, hread, seen, Cursor.past, hpos,
      ← byteLength_append]
    simp [List.append_assoc]

/-- A name ends where it does, by bytes and by characters. -/
theorem nameEnd_eq (h : text.toList = pre ++ c :: cs) (hascii : c.toNat < 128) :
    nameEnd text (byteLength pre) = byteLength (pre ++ (c :: cs.takeWhile isNameChar ++
      (spanSegments (cs.dropWhile isNameChar)).1)) := by
  -- each further segment is a shorter name
  induction hlength : cs.length using Nat.strongRecOn generalizing pre c cs with
  | _ length ih =>
    have hsplit : text.toList =
        pre ++ [c] ++ cs.takeWhile isNameChar ++ cs.dropWhile isNameChar := by
      rw [List.append_assoc, List.takeWhile_append_dropWhile, h, List.append_assoc]
      rfl
    have hstop : skipWhile isNameChar text (byteLength pre + 1) =
        byteLength (pre ++ [c] ++ cs.takeWhile isNameChar) := by
      rw [← byteLength_snoc hascii _, skipWhile_eq (h.trans (List.append_cons pre c cs))
        isUniform_isNameChar]
    have hpoint := isPointAt_iff hsplit isUniform_isNameStart
    rw [nameEnd, hstop]
    by_cases hmore : isPointAt isNameStart text
        (byteLength (pre ++ [c] ++ cs.takeWhile isNameChar)) = true
    · obtain ⟨d, more, hrest, hd⟩ := hpoint.mp hmore
      have hlt : more.length < length := by
        have hle := length_dropWhile_le isNameChar cs
        rw [hrest, List.length_cons, List.length_cons] at hle
        omega
      rw [hrest] at hsplit
      rw [dif_pos hmore, ← byteLength_snoc (c := '.') (by decide),
        ih _ hlt (hsplit.trans (List.append_cons _ _ _)) (ascii_of_isNameStart hd) rfl, hrest,
        spanSegments, if_pos hd]
      simp [List.append_assoc]
    · have hnil : spanSegments (cs.dropWhile isNameChar) = ([], cs.dropWhile isNameChar) := by
        refine spanSegments_eq_nil fun d more hrest => ?_
        rw [← Bool.not_eq_true]
        exact fun hd => hmore (hpoint.mpr ⟨d, more, hrest, hd⟩)
      rw [dif_neg hmore, hnil, List.append_nil, List.append_assoc]
      rfl

/-- Names, truth values and call openings. -/
theorem word?_eq (h : text.toList = pre ++ cursor.rest) (hpos : cursor.pos = byteLength pre)
    (hrest : cursor.rest = c :: cs) (hascii : c.toNat < 128) :
    word? text cursor.pos = some (seen (cursor.word c cs)) := by
  rw [hrest] at h
  have hstop := nameEnd_eq h hascii
  have hread := cursor.word_eq c cs
  have hsegments := Cursor.spanSegments_split (cs.dropWhile isNameChar)
  dsimp only at hread
  generalize hword : c :: cs.takeWhile isNameChar ++
    (spanSegments (cs.dropWhile isNameChar)).1 = word at hstop hread
  generalize (spanSegments (cs.dropWhile isNameChar)).2 = rest at hread hsegments
  have hsplit : text.toList = pre ++ word ++ rest := by
    rw [h, ← hword, List.append_assoc, List.append_assoc, hsegments, List.cons_append,
      List.takeWhile_append_dropWhile]
  have hcall : (peek? text (byteLength (pre ++ word)) == some '(' &&
      isCallName (String.ofList word).toList) = true ↔
        rest.head? = some '(' ∧ isCallName word = true := by
    rw [Bool.and_eq_true, beq_iff_eq, peek?_eq_some_iff hsplit (by decide), String.toList_ofList]
  obtain ⟨inner, hinner, hname, hread⟩ | ⟨hno, hread⟩ := hread
  · have hopen := hcall.mpr ⟨by rw [hinner]; rfl, hname⟩
    rw [word?, hpos, hstop, slice?_eq hsplit, hread, seen, Cursor.past, hpos,
      ← byteLength_append, ← List.append_assoc, byteLength_snoc (c := '(') (by decide)]
    exact if_pos hopen
  · have hplain := fun hopen => Bool.eq_false_iff.mp
      (hno _ (List.head?_eq_some_iff.mp (hcall.mp hopen).1).choose_spec) (hcall.mp hopen).2
    rw [word?, hpos, hstop, slice?_eq hsplit, hread, seen, Cursor.past, hpos, ← byteLength_append]
    exact if_neg hplain

/-- The operator tables of bytes and of characters. -/
theorem operatorAt?_cons (c : Char) (cs : List Char) :
    operatorAt? (c :: cs) = operatorFrom c cs.head? := by
  unfold operatorFrom
  cases cs with
  | nil =>
    split
    case h_12 => simp_all [operatorAt?]
    all_goals rfl
  | cons d ds =>
    rw [List.head?_cons]
    split
    case h_12 => simp_all [operatorAt?]
    any_goals rfl
    -- the operators of two bytes
    all_goals
      split
      · rename_i hbehind
        cases hbehind
        rfl
      · rw [operatorAt?] <;> simp_all

/-- Which operator stands at a byte. -/
theorem operatorFrom_eq {d : Char} (h : text.toList = pre ++ c :: cs)
    (hbyte : ∀ p, IsUniform p → p d = p c) (hascii : c.toNat < 128 → d = c) :
    operatorFrom d (peek? text (byteLength pre + 1)) = operatorAt? (c :: cs) := by
  have hcongr {c : Char} {behind other : Option Char}
      (hsame : ∀ a : Char, a.toNat < 128 → (behind = some a ↔ other = some a)) :
      operatorFrom c behind = operatorFrom c other := by
    simp only [operatorFrom, hsame '=' (by decide), hsame '&' (by decide), hsame '|' (by decide)]
  rw [operatorAt?_cons]
  by_cases hc : c.toNat < 128
  · rw [hascii hc, ← byteLength_snoc hc _]
    exact hcongr fun a ha => peek?_eq_some_iff (h.trans (List.append_cons pre c cs)) ha
  · -- beyond ASCII there is no operator
    have hnone {e : Char} (he : ¬ e.toNat < 128) (behind : Option Char) :
        operatorFrom e behind = none :=
      Option.eq_none_iff_forall_ne_some.mpr fun _ hop => he (ascii_of_operatorFrom hop).1
    have hd : decide (d.toNat < 128) = decide (c.toNat < 128) :=
      hbyte _ (isUniform_of_ascii fun _ h => of_decide_eq_true h)
    rw [hnone hc, hnone fun hlt => hc (of_decide_eq_true (hd ▸ decide_eq_true hlt))]

/-- An operator has as many bytes as characters. -/
theorem byteLength_operator {op : Op} {width : Nat} (h : operatorAt? (c :: cs) = some (op, width)) :
    byteLength ((c :: cs).take width) = width := by
  rw [operatorAt?_cons] at h
  have hone {e : Char} (he : e.toNat < 128) : e.utf8Size = 1 :=
    Char.utf8Size_eq_one_iff.mpr (Nat.le_of_lt_succ he)
  obtain ⟨hc, rfl | ⟨rfl, d, hd, hascii⟩⟩ := ascii_of_operatorFrom h
  · rw [List.take_succ_cons, List.take_zero, byteLength_cons, hone hc]
    rfl
  · obtain ⟨ds, rfl⟩ := List.head?_eq_some_iff.mp hd
    rw [List.take_succ_cons, List.take_succ_cons, List.take_zero, byteLength_cons, byteLength_cons,
      hone hc, hone hascii]
    rfl

/-- Operators, and what is none. -/
theorem operator?_eq {d : Char} (h : text.toList = pre ++ cursor.rest)
    (hpos : cursor.pos = byteLength pre) (hrest : cursor.rest = c :: cs)
    (hbyte : ∀ p, IsUniform p → p d = p c) (hascii : c.toNat < 128 → d = c) :
    operator? text cursor.pos d = some (seen (cursor.operator c cs)) := by
  rw [hrest] at h
  have hop := operatorFrom_eq h hbyte hascii
  rw [operator?, hpos, hop, Cursor.operator]
  cases hread : operatorAt? (c :: cs) with
  | none =>
    have hall : text.toList = pre ++ (c :: cs) ++ [] := by
      rw [h, List.append_nil]
    have hend : byteLength (pre ++ (c :: cs)) = text.utf8ByteSize := by
      rw [← h, byteLength_toList]
    dsimp only
    rw [← hend, slice?_eq hall, seen, hpos]
    simp
  | some found =>
    obtain ⟨op, width⟩ := found
    show some (_, byteLength pre + width) = some (_, cursor.pos + byteLength ((c :: cs).take width))
    rw [hpos, byteLength_operator hread]

/-- The unit at a character, read at its first byte. -/
theorem lexeme?_eq {d : Char} (h : text.toList = pre ++ cursor.rest)
    (hpos : cursor.pos = byteLength pre) (hrest : cursor.rest = c :: cs)
    (hbyte : ∀ p, IsUniform p → p d = p c) (hascii : c.toNat < 128 → d = c) :
    lexeme? text cursor.pos d = some (seen (cursor.lexeme c cs)) := by
  have hbeq {a : Char} (ha : a.toNat < 128) : (d == a) = (c == a) := hbyte _ (isUniform_beq ha)
  -- what is one byte of ASCII is left behind by one step
  have hone {l : Except LexError Lexeme} (hc : c.toNat < 128) :
      some (l, cursor.pos + 1) = some (seen (l, cursor.past [c] cs)) := by
    rw [seen, Cursor.past, hpos, ← byteLength_snoc hc _, byteLength_append]
  rw [lexeme?, Cursor.lexeme, hbeq (by decide), hbeq (by decide), hbeq (by decide),
    hbeq (by decide), hbyte _ isUniform_isDigit, hbyte _ isUniform_isNameStart]
  by_cases hopen : (c == '(') = true
  · rw [if_pos hopen, if_pos hopen]
    exact hone (beq_iff_eq.mp hopen ▸ by decide)
  rw [if_neg hopen, if_neg hopen]
  by_cases hclose : (c == ')') = true
  · rw [if_pos hclose, if_pos hclose]
    exact hone (beq_iff_eq.mp hclose ▸ by decide)
  rw [if_neg hclose, if_neg hclose]
  by_cases hquote : (c == '"' || c == '\'') = true
  · have hc : c.toNat < 128 := by
      rw [Bool.or_eq_true, beq_iff_eq, beq_iff_eq] at hquote
      obtain rfl | rfl := hquote <;> decide
    rw [if_pos hquote, if_pos hquote, hascii hc]
    exact string?_eq h hpos hrest hc
  rw [if_neg hquote, if_neg hquote]
  by_cases hdigit : c.isDigit = true
  · rw [if_pos hdigit, if_pos hdigit]
    exact number?_eq h hpos
  rw [if_neg hdigit, if_neg hdigit]
  by_cases hname : isNameStart c = true
  · rw [if_pos hname, if_pos hname]
    exact word?_eq h hpos hrest (ascii_of_isNameStart hname)
  · rw [if_neg hname, if_neg hname]
    exact operator?_eq h hpos hrest hbyte hascii

end ByteScan

end EventPipeline.Rules
