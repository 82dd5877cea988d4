import EventPipeline.Proofs.Text.Words
import EventPipeline.Rules.Spelling

/-!
# `EventPipeline.Proofs.Rules.Lexemes`: one unit of rule text

The first character of a unit selects the scanner that reads it (`Cursor.exists_scanner`), so what
holds of each scanner holds of `Cursor.lexeme`. What a single call of it reads, in both directions:

* `Cursor.isLexable_of_lexeme`: whatever the text is, a unit that is read out of it is one that
  can stand in a rule.
* `Cursor.reads_of_spelling`: at the spelling of a token, in front of a space, a closing
  parenthesis or the end of the text, exactly that token is read and exactly its spelling is
  used up. `Cursor.reads_callOpen` is the same for a name and the parenthesis behind it.
-/

set_option autoImplicit false

namespace EventPipeline.Rules

open Text (takeWhile_append_of_stop dropWhile_append_of_stop)

/-! ### Which characters start what -/

/-- Where the letters are. -/
theorem toNat_of_isAlpha {c : Char} (h : c.isAlpha = true) :
    65 ≤ c.toNat ∧ c.toNat ≤ 90 ∨ 97 ≤ c.toNat ∧ c.toNat ≤ 122 := by
  obtain hupper | hlower := Bool.or_eq_true_iff.mp h
  · exact .inl (of_decide_eq_true hupper)
  · obtain ⟨hlow, hhigh⟩ := Bool.and_eq_true_iff.mp hlower
    exact .inr ⟨of_decide_eq_true hlow, of_decide_eq_true hhigh⟩

/-- A character that starts a name is not a digit. -/
theorem isDigit_eq_false_of_isNameStart {c : Char} (h : isNameStart c = true) :
    c.isDigit = false := by
  rw [← Bool.not_eq_true]
  intro hdigit
  have hrange : 48 ≤ c.toNat ∧ c.toNat ≤ 57 := Char.isDigit_iff_toNat.mp hdigit
  simp only [isNameStart, Bool.or_eq_true, beq_iff_eq] at h
  obtain (halpha | rfl) | rfl := h
  · obtain hupper | hlower := toNat_of_isAlpha halpha
    · omega
    · omega
  · exact absurd hdigit (by decide)
  · exact absurd hdigit (by decide)

/-- A name that can be called is a segment of a dotted name. -/
theorem isSegment_of_isCallName {cs : List Char} (h : isCallName cs = true) : IsSegment cs := by
  cases cs with
  | nil => simp [isCallName] at h
  | cons c cs =>
    simp only [isCallName, Bool.and_eq_true, List.all_eq_true] at h
    constructor
    · simp only [isNameStart, h.1, Bool.true_or]
    · intro d hd
      simp only [isNameChar, h.2 d hd, Bool.true_or]

/-- A character of a kind that no bracket, quote or separator is of. -/
theorem unmarked {p : Char → Bool} {c : Char} (h : p c = true)
    (hmarks : [' ', '\t', '\r', '\n', ',', '#', '(', ')', '"', '\''].all (!p ·) = true) :
    (isSeparator c || c == '#') = false ∧ (c == '(') = false ∧ (c == ')') = false ∧
      (c == '"' || c == '\'') = false := by
  have hne : ∀ d ∈ [' ', '\t', '\r', '\n', ',', '#', '(', ')', '"', '\''], (c == d) = false := by
    intro d hd
    rw [beq_eq_false_iff_ne]
    rintro rfl
    have hmark := List.all_eq_true.mp hmarks c hd
    rw [h] at hmark
    cases hmark
  simp_all [isSeparator]

/-- What may stand behind a token without running into it. -/
def Stops (tail : List Char) : Prop :=
  ∀ c ∈ tail.head?, c = ' ' ∨ c = ')'

theorem stops_nil : Stops [] := by
  intro c hc
  cases hc

theorem stops_space (tail : List Char) : Stops (' ' :: tail) := by
  intro c hc
  cases hc
  exact .inl rfl

theorem stops_paren (tail : List Char) : Stops (')' :: tail) := by
  intro c hc
  cases hc
  exact .inr rfl

/-- A token stops at the end of the text, at a space or at a closing parenthesis. -/
theorem Stops.cases {tail : List Char} (h : Stops tail) :
    tail = [] ∨ ∃ more, tail = ' ' :: more ∨ tail = ')' :: more := by
  cases tail with
  | nil => exact .inl rfl
  | cons c more =>
    refine .inr ⟨more, ?_⟩
    obtain rfl | rfl := h c rfl
    · exact .inl rfl
    · exact .inr rfl

/-- Neither digits nor the characters of a name go on where a token may stop. -/
theorem Stops.not {p : Char → Bool} {tail : List Char} (h : Stops tail) (hspace : p ' ' = false)
    (hparen : p ')' = false) : ∀ c ∈ tail.head?, p c = false := by
  intro c hc
  obtain rfl | rfl := h c hc
  · exact hspace
  · exact hparen

/-! ### Names -/

/-- Further segments of a name are read where they stand. -/
theorem spanSegments_eq_nil {cs : List Char}
    (h : ∀ c rest, cs = '.' :: c :: rest → isNameStart c = false) :
    spanSegments cs = ([], cs) := by
  rw [spanSegments.eq_def]
  split
  · rename_i c rest
    rw [if_neg (by simp [h c rest rfl])]
  · rfl

/-- What is read behind the first segment of a name is further segments. -/
theorem spanSegments_eq_flatMap (cs : List Char) :
    ∃ further : List (List Char), (∀ segment ∈ further, IsSegment segment) ∧
      (spanSegments cs).1 = further.flatMap ('.' :: ·) := by
  fun_induction spanSegments cs with
  | case1 c rest hstart more ih =>
    obtain ⟨further, hfurther, heq⟩ := ih
    refine ⟨(c :: rest.takeWhile isNameChar) :: further, ?_, ?_⟩
    · intro segment hsegment
      cases hsegment with
      | head => exact ⟨hstart, List.all_eq_true.mp List.all_takeWhile⟩
      | tail _ hmem => exact hfurther segment hmem
    · show '.' :: c :: rest.takeWhile isNameChar ++ more.1 = _
      rw [heq, List.flatMap_cons]
  | case2 => exact ⟨[], by simp, rfl⟩
  | case3 => exact ⟨[], by simp, rfl⟩

/-- The characters of a segment end at the dot of the next one, or where the name ends. -/
theorem span_segment {cs tail : List Char} (hcs : ∀ d ∈ cs, isNameChar d = true)
    (htail : ∀ c ∈ tail.head?, isNameChar c = false ∧ c ≠ '.') (further : List (List Char)) :
    (cs ++ (further.flatMap ('.' :: ·) ++ tail)).takeWhile isNameChar = cs ∧
      (cs ++ (further.flatMap ('.' :: ·) ++ tail)).dropWhile isNameChar =
        further.flatMap ('.' :: ·) ++ tail := by
  have hstop : ∀ d ∈ (further.flatMap ('.' :: ·) ++ tail).head?, isNameChar d = false := by
    intro d hd
    cases further with
    | nil => exact (htail d hd).1
    | cons segment further =>
      cases hd
      rfl
  exact ⟨takeWhile_append_of_stop hcs hstop, dropWhile_append_of_stop hcs hstop⟩

/-- Further segments that stand in the text are read to their end. -/
theorem spanSegments_append {further : List (List Char)} {tail : List Char}
    (hfurther : ∀ segment ∈ further, IsSegment segment)
    (htail : ∀ c ∈ tail.head?, isNameChar c = false ∧ c ≠ '.') :
    spanSegments (further.flatMap ('.' :: ·) ++ tail) =
      (further.flatMap ('.' :: ·), tail) := by
  induction further with
  | nil =>
    rw [List.flatMap_nil, List.nil_append, spanSegments]
    intro d rest hdot
    exact (htail '.' (by rw [hdot]; rfl)).2 rfl
  | cons segment further ih =>
    cases segment with
    | nil => exact (hfurther [] List.mem_cons_self).elim
    | cons c cs =>
      obtain ⟨hstart, hcs⟩ := hfurther (c :: cs) List.mem_cons_self
      obtain ⟨htake, hdrop⟩ := span_segment hcs htail further
      rw [List.flatMap_cons, List.append_assoc, List.cons_append, List.cons_append, spanSegments,
        if_pos hstart, htake, hdrop, ih fun segment hmem =>
          hfurther segment (List.mem_cons_of_mem _ hmem)]

/-- The characters that are read as a name are a dotted name. -/
theorem isDottedName_word {c : Char} (hstart : isNameStart c = true) (cs : List Char) :
    IsDottedName
      (c :: cs.takeWhile isNameChar ++ (spanSegments (cs.dropWhile isNameChar)).1) := by
  obtain ⟨further, hfurther, heq⟩ := spanSegments_eq_flatMap (cs.dropWhile isNameChar)
  refine ⟨c :: cs.takeWhile isNameChar, further, ?_, hfurther, by rw [heq]⟩
  exact ⟨hstart, List.all_eq_true.mp List.all_takeWhile⟩

/-- The token of a name that opens no call: two of them are truth values. -/
def Token.ofName (name : String) : Token :=
  if name == "TRUE" then .bool true else if name == "FALSE" then .bool false else .identifier name

theorem isLexable_ofName {word : List Char} (h : IsDottedName word) :
    (Token.ofName (String.ofList word)).IsLexable := by
  rw [Token.ofName]
  split
  · exact .bool
  · rename_i htrue
    split
    · exact .bool
    · rename_i hfalse
      rw [beq_iff_eq] at htrue hfalse
      exact .identifier (by rwa [String.toList_ofList]) htrue hfalse

/-! ### Digits and operators -/

theorem IsDigits.exists_cons {cs : List Char} (h : IsDigits cs) :
    ∃ c more, cs = c :: more ∧ c.isDigit = true := by
  obtain ⟨hne, hdigits⟩ := h
  obtain ⟨c, more, rfl⟩ := List.exists_cons_of_ne_nil hne
  exact ⟨c, more, rfl, hdigits c List.mem_cons_self⟩

theorem digitsValue_toDigits (n : Nat) : digitsValue (Nat.toDigits 10 n) = n :=
  Nat.ofDigitChars_toDigits (by decide) (by decide)

theorem isDigits_toDigits (n : Nat) : IsDigits (Nat.toDigits 10 n) :=
  ⟨Nat.toDigits_ne_nil, fun _ hc => Nat.isDigit_of_mem_toDigits (by decide) (by decide) hc⟩

theorem isDigits_takeWhile {d : Char} {more : List Char} (h : d.isDigit = true) :
    IsDigits ((d :: more).takeWhile Char.isDigit) := by
  refine ⟨?_, List.all_eq_true.mp List.all_takeWhile⟩
  rw [List.takeWhile_cons_of_pos h]
  exact List.cons_ne_nil _ _

/-- Three operators are never read. -/
theorem not_mem_of_operatorAt? {cs : List Char} {op : Op} {width : Nat}
    (h : operatorAt? cs = some (op, width)) : op ∉ [Op.dot, .call, .item] := by
  unfold operatorAt? at h
  split at h <;> simp at h <;> simp [← h.1]

/-- Where an operator stops there is no longer one. -/
theorem operatorAt?_symbol {op : Op} (hop : op ∉ [Op.dot, .call, .item]) {tail : List Char}
    (hstop : Stops tail) :
    operatorAt? (op.symbol.toList ++ tail) = some (op, op.symbol.toList.length) := by
  obtain rfl | ⟨more, rfl | rfl⟩ := hstop.cases <;>
    cases op <;> first | rfl | (exact absurd hop (by decide))

/-- An operator starts with a character that nothing else starts with. -/
theorem symbol_cons {op : Op} (hop : op ∉ [Op.dot, .call, .item]) :
    ∃ c more, op.symbol.toList = c :: more ∧ (isSeparator c || c == '#') = false ∧
      (c == '(') = false ∧ (c == ')') = false ∧ (c == '"' || c == '\'') = false ∧
      c.isDigit = false ∧ isNameStart c = false := by
  cases op <;> first | exact ⟨_, _, rfl, by decide⟩ | exact absurd hop (by decide)

/-! ### Scanners -/

/-- Behind digits there is a point and a digit, or there is not. -/
theorem fraction_cases (cs : List Char) :
    (∃ d more, cs.dropWhile Char.isDigit = '.' :: d :: more ∧ d.isDigit = true) ∨
      ∀ d more, cs.dropWhile Char.isDigit = '.' :: d :: more → d.isDigit = false := by
  by_cases hfraction : ∃ d more,
      cs.dropWhile Char.isDigit = '.' :: d :: more ∧ d.isDigit = true
  · exact .inl hfraction
  · refine .inr fun d more hpoint => ?_
    rw [← Bool.not_eq_true]
    exact fun hd => hfraction ⟨d, more, hpoint, hd⟩

namespace Cursor

variable {cursor after : Cursor} {c : Char} {cs : List Char} {l : Lexeme}

/-- A number is an integer unless a point and a digit stand behind its digits. -/
theorem number_of_integer
    (h : ∀ d more, cursor.rest.dropWhile Char.isDigit = '.' :: d :: more → d.isDigit = false) :
    cursor.number =
      (if digitsValue (cursor.rest.takeWhile Char.isDigit) ≤ maxInteger then
          .ok (.token (.integer (Int64.ofNat (digitsValue (cursor.rest.takeWhile Char.isDigit)))))
        else .error (.numberOutOfRange (String.ofList (cursor.rest.takeWhile Char.isDigit))
          cursor.pos),
        cursor.past (cursor.rest.takeWhile Char.isDigit)
          (cursor.rest.dropWhile Char.isDigit)) := by
  unfold number
  dsimp only
  split
  · rename_i d more hrest
    rw [if_neg (by simp [h d more hrest])]
  · rfl

/-- A number with a point and a digit behind its digits has a fraction. -/
theorem number_of_fraction {d : Char} {more : List Char}
    (hrest : cursor.rest.dropWhile Char.isDigit = '.' :: d :: more) (hd : d.isDigit = true) :
    cursor.number =
      (.ok (.token (.float (decimalValue (cursor.rest.takeWhile Char.isDigit)
        ((d :: more).takeWhile Char.isDigit)))),
       cursor.past (cursor.rest.takeWhile Char.isDigit ++ '.' :: (d :: more).takeWhile Char.isDigit)
        ((d :: more).dropWhile Char.isDigit)) := by
  unfold number
  rw [hrest]
  exact if_pos hd

/-- What is read as a name: the opening of a call, if a parenthesis stands right behind it. -/
theorem word_eq (cursor : Cursor) (c : Char) (cs : List Char) :
    let word := c :: cs.takeWhile isNameChar ++ (spanSegments (cs.dropWhile isNameChar)).1
    let rest := (spanSegments (cs.dropWhile isNameChar)).2
    (∃ inner, rest = '(' :: inner ∧ isCallName word = true ∧
      cursor.word c cs =
        (.ok (.callOpen (String.ofList word)), cursor.past (word ++ ['(']) inner)) ∨
    ((∀ inner, rest = '(' :: inner → isCallName word = false) ∧
      cursor.word c cs = (.ok (.token (.ofName (String.ofList word))), cursor.past word rest)) := by
  intro word rest
  unfold Cursor.word
  dsimp only
  split
  · rename_i inner hinner
    split
    · rename_i hname
      exact .inl ⟨inner, hinner, hname, rfl⟩
    · rename_i hname
      exact .inr ⟨fun _ _ => Bool.eq_false_iff.mpr hname, rfl⟩
  · rename_i hother
    exact .inr ⟨fun inner hinner => (hother inner hinner).elim, rfl⟩

/-- An operator at the first character `c`, or nothing that could be read. -/
def operator (cursor : Cursor) (c : Char) (cs : List Char) : Except LexError Lexeme × Cursor :=
  match operatorAt? (c :: cs) with
  | some (op, width) =>
    (.ok (.token (.operator op)), cursor.past ((c :: cs).take width) ((c :: cs).drop width))
  | none => (.error (.unexpectedChar c cursor.pos), cursor)

theorem operator_of_some {op : Op} {width : Nat} (h : operatorAt? (c :: cs) = some (op, width)) :
    cursor.operator c cs =
      (.ok (.token (.operator op)),
        cursor.past ((c :: cs).take width) ((c :: cs).drop width)) := by
  rw [operator, h]

theorem exists_of_operator_eq_ok (h : cursor.operator c cs = (.ok l, after)) :
    ∃ op width, operatorAt? (c :: cs) = some (op, width) ∧ l = .token (.operator op) ∧
      after = cursor.past ((c :: cs).take width) ((c :: cs).drop width) := by
  unfold operator at h
  split at h
  · rename_i op width hop
    cases h
    exact ⟨op, width, hop, rfl, rfl⟩
  · cases h

/-- The scanners of the units, each with the first characters that it is for. Operators are what
is left. -/
inductive Scanner (c : Char) : (Cursor → List Char → Except LexError Lexeme × Cursor) → Prop
  | leftParen (hc : c = '(') :
      Scanner c fun cursor cs => (.ok (.token .leftParen), cursor.past [c] cs)
  | close (hc : c = ')') : Scanner c fun cursor cs => (.ok .close, cursor.past [c] cs)
  | string (hquote : c = '"' ∨ c = '\'') : Scanner c fun cursor cs => cursor.string c cs
  | number (hdigit : c.isDigit = true) : Scanner c fun cursor _ => cursor.number
  | word (hstart : isNameStart c = true) : Scanner c fun cursor cs => cursor.word c cs
  | operator : Scanner c fun cursor cs => cursor.operator c cs

/-- The first character of a unit alone decides which scanner reads it. -/
theorem exists_scanner (c : Char) :
    ∃ scan, Scanner c scan ∧ ∀ cursor cs, lexeme cursor c cs = scan cursor cs := by
  cases hopen : c == '(' with
  | true =>
    refine ⟨_, .leftParen (beq_iff_eq.mp hopen), fun cursor cs => ?_⟩
    rw [lexeme, if_pos hopen]
  | false =>
    cases hclose : c == ')' with
    | true =>
      refine ⟨_, .close (beq_iff_eq.mp hclose), fun cursor cs => ?_⟩
      rw [lexeme, hopen, hclose]
      rfl
    | false =>
      cases hquote : c == '"' || c == '\'' with
      | true =>
        refine ⟨_, .string (by simpa using hquote), fun cursor cs => ?_⟩
        rw [lexeme, hopen, hclose, hquote]
        rfl
      | false =>
        cases hdigit : c.isDigit with
        | true =>
          refine ⟨_, .number hdigit, fun cursor cs => ?_⟩
          rw [lexeme, hopen, hclose, hquote, hdigit]
          rfl
        | false =>
          cases hstart : isNameStart c with
          | true =>
            refine ⟨_, .word hstart, fun cursor cs => ?_⟩
            rw [lexeme, hopen, hclose, hquote, hdigit, hstart]
            rfl
          | false =>
            refine ⟨_, .operator, fun cursor cs => ?_⟩
            rw [lexeme, hopen, hclose, hquote, hdigit, hstart]
            rfl

end Cursor

/-! ### What is read can stand in a rule -/

/-- The unit belongs to a token that can stand in a rule. -/
def Lexeme.IsLexable : Lexeme → Prop
  | .token t => t.IsLexable
  | .callOpen name => isCallName name.toList = true
  | .close => True

namespace Cursor

variable {cursor after : Cursor} {c : Char} {cs : List Char} {l : Lexeme}

theorem isLexable_of_number (hrest : cursor.rest = c :: cs) (hdigit : c.isDigit = true)
    (h : cursor.number = (.ok l, after)) : l.IsLexable := by
  obtain ⟨d, more, hpoint, hd⟩ | hno := fraction_cases cursor.rest
  · rw [number_of_fraction hpoint hd] at h
    cases h
    refine .float ?_ (isDigits_takeWhile hd)
    rw [hrest]
    exact isDigits_takeWhile hdigit
  · rw [number_of_integer hno] at h
    split at h
    · rename_i hle
      cases h
      have hlt : digitsValue (cursor.rest.takeWhile Char.isDigit) < 2 ^ 63 := by
        rw [maxInteger] at hle
        omega
      refine .integer ?_
      rw [Int64.toInt_ofNat_of_lt hlt]
      exact Int.natCast_nonneg _
    · cases h

theorem isLexable_of_string (hquote : c = '"' ∨ c = '\'')
    (h : cursor.string c cs = (.ok l, after)) : l.IsLexable := by
  unfold string at h
  split at h
  · cases h
  · cases h
    have hfree : c ∉ cs.takeWhile (· != c) := by
      intro hmem
      simpa using List.all_eq_true.mp List.all_takeWhile c hmem
    refine .str ?_
    rw [String.toList_ofList]
    obtain rfl | rfl := hquote
    · exact .inl hfree
    · exact .inr hfree

theorem isLexable_of_word (hstart : isNameStart c = true)
    (h : cursor.word c cs = (.ok l, after)) : l.IsLexable := by
  obtain ⟨inner, -, hcall, hread⟩ | ⟨-, hread⟩ := cursor.word_eq c cs
  · rw [hread] at h
    cases h
    show isCallName _ = true
    rwa [String.toList_ofList]
  · rw [hread] at h
    cases h
    exact isLexable_ofName (isDottedName_word hstart cs)

/-- A unit that is read can stand in a rule. -/
theorem isLexable_of_lexeme (hrest : cursor.rest = c :: cs)
    (h : cursor.lexeme c cs = (.ok l, after)) : l.IsLexable := by
  obtain ⟨scan, hscan, hlexeme⟩ := exists_scanner c
  rw [hlexeme] at h
  cases hscan with
  | leftParen =>
    cases h
    exact .leftParen
  | close =>
    cases h
    trivial
  | string hquote => exact isLexable_of_string hquote h
  | number hdigit => exact isLexable_of_number hrest hdigit h
  | word hstart => exact isLexable_of_word hstart h
  | operator =>
    obtain ⟨op, width, hop, rfl, -⟩ := exists_of_operator_eq_ok h
    exact .operator (not_mem_of_operatorAt? hop)

end Cursor

/-! ### What is written is read -/

/-- The unit is read out of the characters and out of all of them, with `tail` behind them. -/
def Cursor.Reads (cursor : Cursor) (cs tail : List Char) (l : Lexeme) : Prop :=
  ∃ c more, cs = c :: more ∧ (isSeparator c || c == '#') = false ∧
    cursor.lexeme c (more ++ tail) = (.ok l, cursor.past cs tail)

/-- The unit that a token is read as. -/
def Token.lexeme : Token → Lexeme
  | .rightParen => .close
  | t => .token t

namespace Cursor

variable (cursor : Cursor) {cs tail : List Char}

/-- A unit that starts with a digit is a number. -/
theorem reads_of_number {l : Lexeme} (hcs : ∃ c more, cs = c :: more ∧ c.isDigit = true)
    (h : cursor.number = (.ok l, cursor.past cs tail)) : cursor.Reads cs tail l := by
  obtain ⟨c, more, rfl, hdigit⟩ := hcs
  obtain ⟨hignored, hopen, hclose, hquote⟩ := unmarked hdigit rfl
  refine ⟨c, more, rfl, hignored, ?_⟩
  rw [lexeme, hopen, hclose, hquote, hdigit]
  exact h

theorem reads_integer {n : Int64} (hsign : 0 ≤ n.toInt) (hstop : Stops tail)
    (hrest : cursor.rest = Nat.toDigits 10 n.toInt.toNat ++ tail) :
    cursor.Reads (Nat.toDigits 10 n.toInt.toNat) tail (.token (.integer n)) := by
  have hdigits := isDigits_toDigits n.toInt.toNat
  have hend := hstop.not (p := Char.isDigit) rfl rfl
  have hvalue : Int64.ofNat n.toInt.toNat = n := by
    rw [← Int64.ofInt_eq_ofNat, Int.toNat_of_nonneg hsign, Int64.ofInt_toInt]
  have hle : n.toInt.toNat ≤ maxInteger := by
    have hlt := n.toInt_lt
    rw [maxInteger]
    omega
  apply reads_of_number cursor hdigits.exists_cons
  rw [number, hrest]
  dsimp only
  rw [takeWhile_append_of_stop hdigits.2 hend, dropWhile_append_of_stop hdigits.2 hend,
    digitsValue_toDigits, if_pos hle, hvalue]
  obtain rfl | ⟨more, rfl | rfl⟩ := hstop.cases
  · rfl
  · rfl
  · rfl

theorem reads_float {whole fraction : List Char} (hwhole : IsDigits whole)
    (hfraction : IsDigits fraction) (hstop : Stops tail)
    (hrest : cursor.rest = whole ++ '.' :: fraction ++ tail) :
    cursor.Reads (whole ++ '.' :: fraction) tail
      (.token (.float (decimalValue whole fraction))) := by
  obtain ⟨c, more, rfl, hc⟩ := hwhole.exists_cons
  obtain ⟨d, digits, rfl, hd⟩ := hfraction.exists_cons
  have hend := hstop.not (p := Char.isDigit) rfl rfl
  have hpoint : ∀ e ∈ ('.' :: (d :: digits) ++ tail).head?, e.isDigit = false := by
    intro e he
    cases he
    rfl
  rw [List.append_assoc] at hrest
  apply reads_of_number cursor ⟨c, _, rfl, hc⟩
  rw [number, hrest]
  dsimp only
  rw [takeWhile_append_of_stop hwhole.2 hpoint, dropWhile_append_of_stop hwhole.2 hpoint]
  show (if d.isDigit = true then _ else _) = _
  have htake := takeWhile_append_of_stop hfraction.2 hend
  have hdrop := dropWhile_append_of_stop hfraction.2 hend
  rw [List.cons_append] at htake hdrop
  rw [if_pos hd, List.append_eq, htake, hdrop]
  rfl

theorem reads_str {s : String} {quote : Char} (hquote : quote = '"' ∨ quote = '\'')
    (hfree : quote ∉ s.toList) :
    cursor.Reads (quote :: s.toList ++ [quote]) tail (.token (.str s)) := by
  have hcontent : ∀ c ∈ s.toList, (c != quote) = true := by
    intro c hc
    rw [bne_iff_ne]
    rintro rfl
    exact hfree hc
  have hend : ∀ c ∈ (quote :: tail).head?, (c != quote) = false := by
    intro c hc
    cases hc
    exact bne_self_eq_false quote
  have hstring : cursor.string quote (s.toList ++ [quote] ++ tail) =
      (.ok (.token (.str s)), cursor.past (quote :: s.toList ++ [quote]) tail) := by
    rw [List.append_assoc, List.singleton_append, string, takeWhile_append_of_stop hcontent hend,
      dropWhile_append_of_stop hcontent hend, String.ofList_toList]
  obtain rfl | rfl := hquote
  · exact ⟨'"', s.toList ++ ['"'], rfl, rfl, hstring⟩
  · exact ⟨'\'', s.toList ++ ['\''], rfl, rfl, hstring⟩

/-- A unit that starts as a name does is a name, a truth value or the opening of a call. -/
theorem reads_of_word {c : Char} {more tail : List Char} {l : Lexeme}
    (hstart : isNameStart c = true)
    (h : cursor.word c (more ++ tail) = (.ok l, cursor.past (c :: more) tail)) :
    cursor.Reads (c :: more) tail l := by
  obtain ⟨hignored, hopen, hclose, hquote⟩ := unmarked hstart rfl
  refine ⟨c, more, rfl, hignored, ?_⟩
  rw [lexeme, hopen, hclose, hquote, isDigit_eq_false_of_isNameStart hstart, hstart]
  exact h

/-- A name, or one of the two truth values, that is read to where the token stops. -/
theorem reads_of_isDottedName {name tail : List Char} (hname : IsDottedName name)
    (hstop : Stops tail) :
    cursor.Reads name tail (.token (.ofName (String.ofList name))) := by
  obtain ⟨first, further, hfirst, hfurther, rfl⟩ := hname
  cases first with
  | nil => exact hfirst.elim
  | cons c cs =>
    obtain ⟨hstart, hcs⟩ := hfirst
    have htail : ∀ d ∈ tail.head?, isNameChar d = false ∧ d ≠ '.' := by
      intro d hd
      obtain rfl | rfl := hstop d hd
      · exact ⟨rfl, by decide⟩
      · exact ⟨rfl, by decide⟩
    obtain ⟨htake, hdrop⟩ := span_segment hcs htail further
    apply reads_of_word cursor hstart
    rw [word, List.append_eq, List.append_assoc, htake, hdrop, spanSegments_append hfurther htail]
    obtain rfl | ⟨more, rfl | rfl⟩ := hstop.cases
    · rfl
    · rfl
    · rfl

/-- A name that can be called and the parenthesis behind it. -/
theorem reads_callOpen {name : String} (hname : isCallName name.toList = true) :
    cursor.Reads (name.toList ++ ['(']) tail (.callOpen name) := by
  have hsegment := isSegment_of_isCallName hname
  have hword : String.ofList name.toList = name := String.ofList_toList
  generalize name.toList = cs at *
  cases cs with
  | nil => exact hsegment.elim
  | cons c cs =>
    obtain ⟨hstart, hcs⟩ := hsegment
    have hparen : ∀ d ∈ ('(' :: tail).head?, isNameChar d = false ∧ d ≠ '.' := by
      intro d hd
      cases hd
      exact ⟨rfl, by decide⟩
    obtain ⟨htake, hdrop⟩ := span_segment hcs hparen []
    have hsegments : spanSegments ('(' :: tail) = ([], '(' :: tail) :=
      spanSegments_append (List.forall_mem_nil _) hparen
    rw [List.flatMap_nil, List.nil_append] at htake hdrop
    apply reads_of_word cursor hstart
    rw [word, List.append_eq, List.append_assoc, List.singleton_append, htake, hdrop, hsegments]
    show (if isCallName (c :: cs ++ []) = true then _ else _) = _
    rw [List.append_nil, if_pos hname, hword]
    rfl

theorem reads_operator {op : Op} (hop : op ∉ [Op.dot, .call, .item]) (hstop : Stops tail) :
    cursor.Reads op.symbol.toList tail (.token (.operator op)) := by
  obtain ⟨c, more, hcs, hignored, hopen, hclose, hquote, hdigit, hstart⟩ := symbol_cons hop
  have hat := operatorAt?_symbol hop hstop
  refine ⟨c, more, hcs, hignored, ?_⟩
  rw [hcs, List.cons_append] at hat
  rw [lexeme, hopen, hclose, hquote, hdigit, hstart, hat]
  show (_, cursor.past _ _) = _
  rw [← List.cons_append, List.take_left', List.drop_left', hcs]
  · rfl
  · rfl

/-- At the spelling of a token the token is read. -/
theorem reads_of_spelling {t : Token} (ht : t.IsLexable) (hspell : t.Spelling cs)
    (hstop : Stops tail) (hrest : cursor.rest = cs ++ tail) : cursor.Reads cs tail t.lexeme := by
  cases hspell with
  | integer n =>
    cases ht with
    | integer hsign => exact reads_integer cursor hsign hstop hrest
  | float whole fraction hwhole hfraction => exact reads_float cursor hwhole hfraction hstop hrest
  | str s quote hquote hfree => exact reads_str cursor hquote hfree
  | bool b =>
    have hname : IsDottedName (if b then "TRUE" else "FALSE").toList := by
      refine ⟨_, [], ?_, by simp, (List.append_nil _).symm⟩
      cases b <;> exact ⟨rfl, List.all_eq_true.mp rfl⟩
    have hread := cursor.reads_of_isDottedName hname hstop
    cases b <;> exact hread
  | identifier name =>
    cases ht with
    | identifier hname htrue hfalse =>
      have hread := cursor.reads_of_isDottedName hname hstop
      rw [String.ofList_toList, Token.ofName, if_neg (by simpa using htrue),
        if_neg (by simpa using hfalse)] at hread
      exact hread
  | operator op =>
    cases ht with
    | operator hop => exact reads_operator cursor hop hstop
  | leftParen => exact ⟨'(', [], rfl, rfl, rfl⟩
  | rightParen => exact ⟨')', [], rfl, rfl, rfl⟩

end Cursor

end EventPipeline.Rules
