import EventPipeline.Proofs.Rules.Tokens
import EventPipeline.Proofs.Text.Bytes

/-!
# `EventPipeline.Proofs.Rules.Positions`: where reading stands

A cursor is the text that is left and the offset at which it starts, and the two have to agree:
the offset is the number of bytes of the characters that were read. `Cursor.Reaches` says so of
two cursors in one text. Every scanner takes its cursor to one that it reaches, whether it finds
what it looks for or not; `Cursor.reaches_lexeme` and `Cursor.reaches_next` are the results.

Where a text ends does not depend on how far it has been read (`Cursor.Reaches.stop_eq`). Each token
that is read leaves a shorter text (`Cursor.length_next_lt`), so the bound on the tokens of a text
does not count, and `Cursor.tokens_eq` reads them one by one.
-/

set_option autoImplicit false

namespace EventPipeline

namespace Rules.Cursor

/-- The other cursor stands further on in the same text, and its offset counts the bytes in
between. -/
def Reaches (cursor after : Cursor) : Prop :=
  ∃ taken, cursor.rest = taken ++ after.rest ∧ after.pos = cursor.pos + Text.byteLength taken

/-- The offset of the end of the text. -/
def stop (cursor : Cursor) : Nat :=
  cursor.pos + Text.byteLength cursor.rest

namespace Reaches

variable {cursor mid after : Cursor}

theorem refl (cursor : Cursor) : cursor.Reaches cursor := ⟨[], rfl, rfl⟩

theorem trans (h : cursor.Reaches mid) (h' : mid.Reaches after) : cursor.Reaches after := by
  obtain ⟨taken, hrest, hpos⟩ := h
  obtain ⟨more, hmore, hafter⟩ := h'
  refine ⟨taken ++ more, ?_, ?_⟩
  · rw [hrest, hmore, List.append_assoc]
  · rw [hafter, hpos, Text.byteLength_append, Nat.add_assoc]

/-- Going past the characters that stand there. -/
theorem past {cs rest : List Char} (h : cursor.rest = cs ++ rest) :
    cursor.Reaches (cursor.past cs rest) :=
  ⟨cs, h, rfl⟩

/-- The text ends where it ends. -/
theorem stop_eq (h : cursor.Reaches after) : after.stop = cursor.stop := by
  obtain ⟨taken, hrest, hpos⟩ := h
  rw [stop, stop, hrest, hpos, Text.byteLength_append, Nat.add_assoc]

/-- What is left is the end of what was left. -/
theorem suffix (h : cursor.Reaches after) : after.rest <:+ cursor.rest := by
  obtain ⟨taken, hrest, -⟩ := h
  exact ⟨taken, hrest.symm⟩

end Reaches

/-! ### Scanners -/

/-- What is ignored and what follows it are the text. -/
theorem spanIgnored_split (inComment : Bool) (cs : List Char) :
    (spanIgnored inComment cs).1 ++ (spanIgnored inComment cs).2 = cs := by
  induction cs generalizing inComment with
  | nil => rfl
  | cons c cs ih =>
    rw [spanIgnored]
    split
    · exact congrArg (c :: ·) (ih (c != '\n'))
    · split
      · exact congrArg (c :: ·) (ih (c == '#'))
      · rfl

/-- The further segments of a name and what follows them are the text. -/
theorem spanSegments_split (cs : List Char) : (spanSegments cs).1 ++ (spanSegments cs).2 = cs := by
  fun_induction spanSegments cs with
  | case1 c rest hstart more ih =>
    show '.' :: c :: rest.takeWhile isNameChar ++ more.1 ++ more.2 = '.' :: c :: rest
    rw [List.append_assoc, ih, List.cons_append, List.cons_append, List.takeWhile_append_dropWhile]
  | case2 => rfl
  | case3 => rfl

variable {cursor : Cursor} {c : Char} {cs : List Char}

theorem reaches_skipIgnored (cursor : Cursor) : cursor.Reaches cursor.skipIgnored :=
  .past (spanIgnored_split false cursor.rest).symm

theorem reaches_number (cursor : Cursor) : cursor.Reaches cursor.number.2 := by
  have hwhole : cursor.rest =
      cursor.rest.takeWhile Char.isDigit ++ cursor.rest.dropWhile Char.isDigit :=
    List.takeWhile_append_dropWhile.symm
  obtain ⟨d, more, hpoint, hd⟩ | hno := fraction_cases cursor.rest
  · have hdigits : (d :: more).takeWhile Char.isDigit ++ (d :: more).dropWhile Char.isDigit =
        d :: more := List.takeWhile_append_dropWhile
    rw [number_of_fraction hpoint hd]
    apply Reaches.past
    rw [List.append_assoc, List.cons_append, hdigits, ← hpoint, ← hwhole]
  · rw [number_of_integer hno]
    exact .past hwhole

/-- A string literal that is not closed takes the whole text. -/
theorem reaches_string (hrest : cursor.rest = c :: cs) : cursor.Reaches (cursor.string c cs).2 := by
  have hbody : cs.takeWhile (· != c) ++ cs.dropWhile (· != c) = cs :=
    List.takeWhile_append_dropWhile
  unfold string
  dsimp only
  split
  · exact .past (List.append_nil _).symm
  · rename_i close rest hclose
    apply Reaches.past
    rw [hrest, List.append_assoc, List.cons_append, List.singleton_append, ← hclose, hbody]

theorem reaches_word (hrest : cursor.rest = c :: cs) : cursor.Reaches (cursor.word c cs).2 := by
  have hsegments := spanSegments_split (cs.dropWhile isNameChar)
  have hword : cursor.rest =
      c :: cs.takeWhile isNameChar ++ (spanSegments (cs.dropWhile isNameChar)).1 ++
        (spanSegments (cs.dropWhile isNameChar)).2 := by
    rw [hrest, List.append_assoc, hsegments, List.cons_append, List.takeWhile_append_dropWhile]
  obtain ⟨inner, hinner, -, hread⟩ | ⟨-, hread⟩ := cursor.word_eq c cs
  · rw [hread]
    apply Reaches.past
    rw [hword, hinner, List.append_assoc _ ['('], List.singleton_append]
  · rw [hread]
    exact .past hword

theorem reaches_operator (hrest : cursor.rest = c :: cs) :
    cursor.Reaches (cursor.operator c cs).2 := by
  unfold operator
  split
  · rename_i op width hop
    exact .past (hrest.trans (List.take_append_drop width _).symm)
  · exact .refl cursor

/-- Reading a unit goes forward in the text, and so does failing to read one. -/
theorem reaches_lexeme (hrest : cursor.rest = c :: cs) :
    cursor.Reaches (cursor.lexeme c cs).2 := by
  obtain ⟨scan, hscan, hlexeme⟩ := exists_scanner c
  rw [hlexeme]
  cases hscan with
  | leftParen => exact .past hrest
  | close => exact .past hrest
  | string => exact reaches_string hrest
  | number => exact reaches_number cursor
  | word => exact reaches_word hrest
  | operator => exact reaches_operator hrest

/-! ### Tokens -/

/-- Reading a token is skipping what is ignored and reading a unit, and then going on behind it;
at the end of the text there is no further token, unless calls are open. -/
theorem next_eq (cursor : Cursor) (calls : List OpenCall) :
    cursor.next calls =
      match cursor.skipIgnored.rest with
      | [] =>
        match calls with
        | [] => (.ok none, cursor.skipIgnored)
        | inner :: _ => (.error (.unterminatedCall inner.name inner.pos), cursor.skipIgnored)
      | c :: cs =>
        match cursor.skipIgnored.lexeme c cs with
        | (.error e, after) => (.error e, after)
        | (.ok l, after) => after.proceed cursor.skipIgnored.pos l calls := by
  split
  · rename_i hend
    rw [next.eq_def]
    dsimp only
    split
    · rfl
    · rename_i hcons
      rw [hend] at hcons
      cases hcons
  · rename_i c cs hhere
    split
    · rename_i e after hlexeme
      rw [next.eq_def]
      dsimp only
      split
      · rename_i hnil
        rw [hhere] at hnil
        cases hnil
      · rename_i hcons
        rw [hhere] at hcons
        cases hcons
        split <;> rename_i hlex
        all_goals
          rw [hlexeme] at hlex
          cases hlex
        rfl
    · rename_i l after hlexeme
      exact next_of_lexeme calls hhere hlexeme

/-- At the end of a text there is no further token. -/
theorem next_of_end (h : cursor.skipIgnored.rest = []) :
    cursor.next = (.ok none, cursor.skipIgnored) := by
  rw [next_eq, h]

/-- Reading tokens from the same place on is the same. -/
theorem next_congr {cursor other : Cursor} (h : cursor.skipIgnored = other.skipIgnored)
    (calls : List OpenCall) : cursor.next calls = other.next calls := by
  rw [next_eq cursor, next_eq other, h]

/-- A unit that is read is at least one character of the text that is left. -/
theorem length_lexeme_lt_rest {at_ : Cursor} {l : Lexeme}
    (hhere : cursor.skipIgnored.rest = c :: cs)
    (hlexeme : cursor.skipIgnored.lexeme c cs = (.ok l, at_)) :
    at_.rest.length < cursor.rest.length :=
  Nat.lt_of_lt_of_le (length_lexeme_lt hhere hlexeme) cursor.length_skipIgnored_le

/-- A token takes at least one character. -/
theorem length_next_lt {cursor after : Cursor} {calls : List OpenCall} {t : Token}
    (h : cursor.next calls = (.ok (some t), after)) : after.rest.length < cursor.rest.length := by
  fun_induction Cursor.next cursor calls with
  | case1 => cases h
  | case2 => cases h
  | case3 => cases h
  | case4 cursor calls here c cs hhere name at_ hlexeme ih =>
    exact Nat.lt_trans (ih h) (length_lexeme_lt_rest hhere hlexeme)
  | case5 cursor here c cs hhere at_ hlexeme =>
    cases h
    exact length_lexeme_lt_rest hhere hlexeme
  | case6 cursor here c cs hhere at_ hlexeme =>
    cases h
    exact length_lexeme_lt_rest hhere hlexeme
  | case7 cursor here c cs hhere at_ hlexeme inner call parent further ih =>
    have hcall : call = .call inner.name inner.args.reverse := by
      simp [call]
    rw [hcall] at ih
    exact Nat.lt_trans (ih h) (length_lexeme_lt_rest hhere hlexeme)
  | case8 cursor here c cs hhere read at_ hlexeme =>
    cases h
    exact length_lexeme_lt_rest hhere hlexeme
  | case9 cursor here c cs hhere read at_ hlexeme inner outer hoperand ih =>
    exact Nat.lt_trans (ih h) (length_lexeme_lt_rest hhere hlexeme)
  | case10 => cases h

/-- What reading goes on to behind a unit is again in the text. -/
theorem reaches_proceed {after : Cursor} {start : Nat} {l : Lexeme} {calls : List OpenCall}
    (h : ∀ calls, after.Reaches (after.next calls).2) :
    after.Reaches (after.proceed start l calls).2 := by
  cases l with
  | callOpen name => exact h _
  | close =>
    cases calls with
    | nil => exact .refl after
    | cons inner outer =>
      cases outer with
      | nil => exact .refl after
      | cons parent further => exact h _
  | token t =>
    cases calls with
    | nil => exact .refl after
    | cons inner outer =>
      rw [proceed]
      split
      · exact h _
      · exact .refl after

/-- Reading a token goes forward in the text, and so does failing to read one. -/
theorem reaches_next (cursor : Cursor) (calls : List OpenCall) :
    cursor.Reaches (cursor.next calls).2 := by
  -- a call takes many units, so the induction is on the text that is left, with any calls open
  induction hlength : cursor.rest.length using Nat.strongRecOn generalizing cursor calls with
  | _ length ih =>
    have hskip := reaches_skipIgnored cursor
    rw [next_eq]
    split
    · split
      · exact hskip
      · exact hskip
    · rename_i c cs hhere
      have hunit := reaches_lexeme hhere
      split
      · rename_i e after hlexeme
        rw [hlexeme] at hunit
        exact hskip.trans hunit
      · rename_i l after hlexeme
        have hshorter := length_lexeme_lt_rest hhere hlexeme
        rw [hlexeme] at hunit
        rw [hlength] at hshorter
        exact (hskip.trans hunit).trans
          (reaches_proceed fun calls => ih _ hshorter after calls rfl)

/-! ### All tokens -/

/-- The tokens at a cursor. -/
def tokens (cursor : Cursor) : Except LexError (List Token) :=
  tokenize.go (cursor.rest.length + 1) cursor

/-- Any bound that suffices gives the same tokens. -/
theorem go_eq_tokens {fuel : Nat} {cursor : Cursor} (h : cursor.rest.length < fuel) :
    tokenize.go fuel cursor = cursor.tokens := by
  have key : ∀ (fuel fuel' : Nat) (cursor : Cursor), cursor.rest.length < fuel →
      cursor.rest.length < fuel' → tokenize.go fuel cursor = tokenize.go fuel' cursor := by
    intro fuel
    induction fuel with
    | zero =>
      intro fuel' cursor h
      exact absurd h (Nat.not_lt_zero _)
    | succ fuel ih =>
      intro fuel' cursor h h'
      obtain ⟨fuel', rfl⟩ := Nat.exists_eq_succ_of_ne_zero (Nat.ne_of_gt (Nat.zero_lt_of_lt h'))
      rw [tokenize.go, tokenize.go]
      split
      · rfl
      · rfl
      · rename_i t after hnext
        have hshorter := length_next_lt hnext
        rw [ih fuel' after (by omega) (by omega)]
  exact key fuel _ cursor h (Nat.lt_succ_self _)

/-- The tokens at a cursor are the next one and those behind it. -/
theorem tokens_eq (cursor : Cursor) :
    cursor.tokens =
      match cursor.next with
      | (.error e, _) => .error e
      | (.ok none, _) => .ok []
      | (.ok (some t), after) => after.tokens.map (t :: ·) := by
  rw [tokens, tokenize.go]
  rcases hnext : cursor.next with ⟨_ | _ | t, after⟩
  · rfl
  · rfl
  · dsimp only
    rw [go_eq_tokens (length_next_lt hnext)]

end Rules.Cursor

/-- The tokens of a text are those at its start. -/
theorem Rules.tokenize_eq (text : String) :
    Rules.tokenize text = (Rules.Cursor.start text).tokens := rfl

end EventPipeline
