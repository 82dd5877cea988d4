import EventPipeline.Proofs.Rules.Positions

/-!
# `EventPipeline.Proofs.Rules.Joining`: the tokens of a text line by line

Between two tokens the tokenizer remembers nothing. So a text may be cut at a line feed, provided
that what stands in front of it has tokens: those are the first tokens of the text, and the others
are the tokens of the rest, with all error positions counted from the beginning
(`tokenize_join`). Two facts carry the proof:

* `Cursor.next_shift`: where a text starts is added to every position and changes nothing else.
* `Cursor.next_continued`: no token that is read looks beyond a line feed, whatever follows it.
-/

set_option autoImplicit false

namespace EventPipeline

/-! ### Positions that are moved -/

namespace Rules

/-- The same error at a position that is `offset` bytes further on. -/
def LexError.shift (offset : Nat) : LexError → LexError
  | unexpectedChar c pos => unexpectedChar c (pos + offset)
  | unterminatedCall name pos => unterminatedCall name (pos + offset)
  | unterminatedString pos => unterminatedString (pos + offset)
  | invalidCallArgument name pos => invalidCallArgument name (pos + offset)
  | numberOutOfRange text pos => numberOutOfRange text (pos + offset)

/-- The same open call at a position that is `offset` bytes further on. -/
def OpenCall.shift (offset : Nat) (call : OpenCall) : OpenCall :=
  { call with pos := call.pos + offset }

namespace Cursor

/-- The same text that starts `offset` bytes further on. -/
def shift (offset : Nat) (cursor : Cursor) : Cursor :=
  { cursor with pos := cursor.pos + offset }

/-- What is read, with its positions `offset` bytes further on. -/
def shiftRead {α : Type} (offset : Nat) (read : Except LexError α × Cursor) :
    Except LexError α × Cursor :=
  (read.1.mapError (·.shift offset), read.2.shift offset)

section

variable (offset : Nat) (cursor : Cursor)

@[simp] theorem rest_shift : (cursor.shift offset).rest = cursor.rest := rfl

@[simp] theorem past_shift (cs rest : List Char) :
    (cursor.shift offset).past cs rest = (cursor.past cs rest).shift offset := by
  simp only [past, shift, Nat.add_right_comm]

@[simp] theorem skipIgnored_shift :
    (cursor.shift offset).skipIgnored = cursor.skipIgnored.shift offset :=
  past_shift offset cursor _ _

theorem number_shift : (cursor.shift offset).number = shiftRead offset cursor.number := by
  obtain ⟨d, more, hpoint, hd⟩ | hno := fraction_cases cursor.rest
  · have hshift : (cursor.shift offset).number = _ := number_of_fraction hpoint hd
    rw [hshift, number_of_fraction hpoint hd, past_shift]
    rfl
  · have hshift : (cursor.shift offset).number = _ := number_of_integer hno
    rw [hshift, number_of_integer hno, rest_shift, past_shift, shiftRead]
    by_cases hle : digitsValue (cursor.rest.takeWhile Char.isDigit) ≤ maxInteger
    · rw [if_pos hle, if_pos hle]
      rfl
    · rw [if_neg hle, if_neg hle]
      rfl

theorem string_shift (quote : Char) (body : List Char) :
    (cursor.shift offset).string quote body = shiftRead offset (cursor.string quote body) := by
  unfold string atEnd
  dsimp only
  split
  · rw [past_shift]
    rfl
  · rw [past_shift]
    rfl

theorem word_shift (first : Char) (more : List Char) :
    (cursor.shift offset).word first more = shiftRead offset (cursor.word first more) := by
  unfold word
  dsimp only
  split
  · split
    · rw [past_shift]
      rfl
    · rw [past_shift]
      rfl
  · rw [past_shift]
    rfl

theorem operator_shift (c : Char) (cs : List Char) :
    (cursor.shift offset).operator c cs = shiftRead offset (cursor.operator c cs) := by
  unfold operator
  split
  · rw [past_shift]
    rfl
  · rfl

/-- A unit is the same wherever its text starts. -/
theorem lexeme_shift (c : Char) (cs : List Char) :
    (cursor.shift offset).lexeme c cs = shiftRead offset (cursor.lexeme c cs) := by
  obtain ⟨scan, hscan, hlexeme⟩ := exists_scanner c
  rw [hlexeme, hlexeme]
  cases hscan with
  | leftParen =>
    show (_, (cursor.shift offset).past [c] cs) = _
    rw [past_shift]
    rfl
  | close =>
    show (_, (cursor.shift offset).past [c] cs) = _
    rw [past_shift]
    rfl
  | string => exact string_shift offset cursor c cs
  | number => exact number_shift offset cursor
  | word => exact word_shift offset cursor c cs
  | operator => exact operator_shift offset cursor c cs

theorem proceed_shift {after : Cursor} (start : Nat) (l : Lexeme) (calls : List OpenCall)
    (h : ∀ calls : List OpenCall,
      (after.shift offset).next (calls.map (·.shift offset)) =
        shiftRead offset (after.next calls)) :
    (after.shift offset).proceed (start + offset) l (calls.map (·.shift offset)) =
      shiftRead offset (after.proceed start l calls) := by
  cases l with
  | callOpen name => exact h ({ name, pos := start, args := [] } :: calls)
  | close =>
    cases calls with
    | nil => rfl
    | cons inner outer =>
      cases outer with
      | nil => rfl
      | cons parent further =>
        exact h ({ parent with args := .call inner.name inner.args.reverse :: parent.args } ::
          further)
  | token t =>
    cases calls with
    | nil => rfl
    | cons inner outer =>
      rw [List.map_cons, proceed, proceed]
      split
      · exact h ({ inner with args := t :: inner.args } :: outer)
      · rfl

/-- A token is the same wherever its text starts. -/
theorem next_shift (calls : List OpenCall) :
    (cursor.shift offset).next (calls.map (·.shift offset)) =
      shiftRead offset (cursor.next calls) := by
  -- on the length of the text, for any open calls: behind a unit the text is shorter, but the calls
  -- that are open may be others
  induction hlength : cursor.rest.length using Nat.strongRecOn generalizing cursor calls with
  | _ length ih =>
    rw [next_eq, next_eq cursor, skipIgnored_shift, rest_shift]
    split
    · cases calls with
      | nil => rfl
      | cons inner outer => rfl
    · rename_i c cs hhere
      rw [lexeme_shift]
      rcases hlexeme : cursor.skipIgnored.lexeme c cs with ⟨_ | l, after⟩
      · rfl
      · have hshorter := length_lexeme_lt_rest hhere hlexeme
        rw [hlength] at hshorter
        exact proceed_shift offset _ l calls fun calls => ih _ hshorter after calls rfl

end

/-! ### Texts that go on -/

/-- The same place in a text that goes on behind a line feed. -/
def continued (cursor : Cursor) (more : List Char) : Cursor :=
  { cursor with rest := cursor.rest ++ '\n' :: more }

end Cursor

section

variable (more : List Char)

/-- A scanner that stops at a line feed takes the same from a text that goes on behind one, and
leaves the same and what follows. -/
theorem span_continued {p : Char → Bool} (hp : p '\n' = false) (cs : List Char) :
    (cs ++ '\n' :: more).takeWhile p = cs.takeWhile p ∧
      (cs ++ '\n' :: more).dropWhile p = cs.dropWhile p ++ '\n' :: more :=
  ⟨Text.takeWhile_append_cons hp cs more, Text.dropWhile_append_cons hp cs more⟩

theorem spanSegments_continued (cs : List Char) :
    spanSegments (cs ++ '\n' :: more) =
      ((spanSegments cs).1, (spanSegments cs).2 ++ '\n' :: more) := by
  fun_induction spanSegments cs with
  | case1 c rest hstart segments ih =>
    obtain ⟨htake, hdrop⟩ := span_continued more (p := isNameChar) rfl rest
    rw [List.cons_append, List.cons_append, spanSegments, if_pos hstart, htake, hdrop, ih]
  | case2 c rest hstart =>
    rw [List.cons_append, List.cons_append, spanSegments, if_neg hstart]
  | case3 cs hother =>
    refine spanSegments_eq_nil fun c rest hcs => ?_
    cases cs with
    | nil => cases hcs
    | cons d ds =>
      cases ds with
      | nil =>
        -- a dot at the end of the text, and then the line feed
        cases hcs
        rfl
      | cons e es =>
        cases hcs
        exact (hother c es rfl).elim

theorem operatorAt?_continued {cs : List Char} {op : Op} {width : Nat}
    (h : operatorAt? cs = some (op, width)) :
    operatorAt? (cs ++ '\n' :: more) = some (op, width) ∧
      (cs ++ '\n' :: more).take width = cs.take width ∧
      (cs ++ '\n' :: more).drop width = cs.drop width ++ '\n' :: more := by
  have hassign {cs : List Char} (h : ∀ rest, cs = '=' :: rest → False) (rest : List Char)
      (heq : cs ++ '\n' :: more = '=' :: rest) : False := by
    cases cs with
    | nil => cases heq
    | cons c cs =>
      cases heq
      exact h cs rfl
  unfold operatorAt? at h
  split at h <;> cases h
  -- an operator of one character does not become one of two by a line feed
  case h_2.refl hnext => exact ⟨operatorAt?.eq_2 _ (hassign hnext), rfl, rfl⟩
  case h_4.refl hnext => exact ⟨operatorAt?.eq_4 _ (hassign hnext), rfl, rfl⟩
  case h_6.refl hnext => exact ⟨operatorAt?.eq_6 _ (hassign hnext), rfl, rfl⟩
  case h_8.refl hnext => exact ⟨operatorAt?.eq_8 _ (hassign hnext), rfl, rfl⟩
  all_goals exact ⟨rfl, rfl, rfl⟩

/-- The same is ignored, if a token follows. -/
theorem spanIgnored_continued {inComment : Bool} {cs : List Char}
    (h : (spanIgnored inComment cs).2 ≠ []) :
    spanIgnored inComment (cs ++ '\n' :: more) =
      ((spanIgnored inComment cs).1, (spanIgnored inComment cs).2 ++ '\n' :: more) := by
  induction cs generalizing inComment with
  | nil => exact absurd rfl h
  | cons c cs ih =>
    rw [List.cons_append]
    rw [spanIgnored] at h
    simp only [spanIgnored]
    split at h
    · rename_i hcomment
      rw [if_pos hcomment, if_pos hcomment, ih h]
    · rename_i hcomment
      rw [if_neg hcomment, if_neg hcomment]
      split at h
      · rename_i hignored
        rw [if_pos hignored, if_pos hignored, ih h]
      · rename_i hignored
        rw [if_neg hignored, if_neg hignored]
        rfl

/-- Where everything is ignored, so is the line feed behind it, which ends a comment. -/
theorem spanIgnored_line {inComment : Bool} {cs : List Char}
    (h : (spanIgnored inComment cs).2 = []) :
    spanIgnored inComment (cs ++ '\n' :: more) =
      (cs ++ '\n' :: (spanIgnored false more).1, (spanIgnored false more).2) := by
  induction cs generalizing inComment with
  | nil =>
    rw [List.nil_append, spanIgnored]
    -- inside a comment the line feed ends it, and outside it is a separator
    cases inComment with
    | true => rfl
    | false => rfl
  | cons c cs ih =>
    rw [List.cons_append]
    rw [spanIgnored] at h ⊢
    split at h
    · rename_i hcomment
      rw [if_pos hcomment, ih h]
      rfl
    · rename_i hcomment
      rw [if_neg hcomment]
      split at h
      · rename_i hignored
        rw [if_pos hignored, ih h]
        rfl
      · cases h

end

namespace Cursor

variable (more : List Char) {cursor after : Cursor} {c : Char} {cs : List Char} {l : Lexeme}

theorem number_continued (cursor : Cursor) :
    (cursor.continued more).number = (cursor.number.1, cursor.number.2.continued more) := by
  obtain ⟨htake, hdrop⟩ := span_continued more (p := Char.isDigit) rfl cursor.rest
  obtain ⟨d, digits, hpoint, hd⟩ | hno := fraction_cases cursor.rest
  · obtain ⟨htake', hdrop'⟩ := span_continued more (p := Char.isDigit) rfl (d :: digits)
    rw [hpoint] at hdrop
    have hcontinued : (cursor.continued more).number = _ := number_of_fraction hdrop hd
    rw [number_of_fraction hpoint hd, hcontinued]
    rw [List.cons_append] at htake' hdrop'
    simp only [continued, htake, List.append_eq, htake', hdrop']
    rfl
  · have hno' : ∀ d digits,
        (cursor.continued more).rest.dropWhile Char.isDigit = '.' :: d :: digits →
          d.isDigit = false := by
      intro d digits hpoint
      rw [continued, hdrop] at hpoint
      match hrest : cursor.rest.dropWhile Char.isDigit, hpoint with
      | [_], hpoint =>
        -- the point is the last character of the text
        cases hpoint
        rfl
      | _ :: e :: ds, hpoint =>
        cases hpoint
        exact hno d ds hrest
    have hcontinued : (cursor.continued more).number = _ := number_of_integer hno'
    rw [number_of_integer hno, hcontinued]
    simp only [continued, htake, hdrop]
    rfl

/-- A string literal that is closed is closed in front of the line feed. -/
theorem string_continued (h : cursor.string c cs = (.ok l, after)) :
    (cursor.continued more).string c (cs ++ '\n' :: more) = (.ok l, after.continued more) := by
  unfold string at h ⊢
  dsimp only at h ⊢
  split at h
  · cases h
  · rename_i close rest hclose
    -- the quote that closes it stands in the text, and is the first one in the longer text as well
    have hopen : cs.takeWhile (· != c) ++ close :: rest = cs := by
      rw [← hclose]
      exact List.takeWhile_append_dropWhile
    have hcontent : ∀ d ∈ cs.takeWhile (· != c), (d != c) = true :=
      List.all_eq_true.mp List.all_takeWhile
    have hstop : ∀ d ∈ (close :: (rest ++ '\n' :: more)).head?, (d != c) = false := by
      intro d hd
      have hnot := List.head?_dropWhile_not (· != c) cs
      rw [hclose] at hnot
      cases hd
      exact hnot
    have hjoined : cs ++ '\n' :: more =
        cs.takeWhile (· != c) ++ close :: (rest ++ '\n' :: more) := by
      rw [← List.cons_append, ← List.append_assoc, hopen]
    cases h
    rw [hjoined, Text.dropWhile_append_of_stop hcontent hstop,
      Text.takeWhile_append_of_stop hcontent hstop]
    rfl

theorem word_continued (h : cursor.word c cs = (.ok l, after)) :
    (cursor.continued more).word c (cs ++ '\n' :: more) = (.ok l, after.continued more) := by
  obtain ⟨htake, hdrop⟩ := span_continued more (p := isNameChar) rfl cs
  have hword := (cursor.continued more).word_eq c (cs ++ '\n' :: more)
  rw [htake, hdrop, spanSegments_continued] at hword
  obtain ⟨inner, hinner, hname, hread⟩ | ⟨hname, hread⟩ := cursor.word_eq c cs
  · rw [hread] at h
    cases h
    obtain ⟨inner', hinner', -, hread'⟩ | ⟨hname', -⟩ := hword
    · rw [hinner, List.cons_append] at hinner'
      cases hinner'
      exact hread'
    · rw [hname' (inner ++ '\n' :: more) (by rw [hinner, List.cons_append])] at hname
      cases hname
  · rw [hread] at h
    cases h
    obtain ⟨inner', hinner', hname', -⟩ | ⟨-, hread'⟩ := hword
    · -- the parenthesis cannot be behind the line feed
      cases hrest : (spanSegments (cs.dropWhile isNameChar)).2 with
      | nil =>
        rw [hrest] at hinner'
        cases hinner'
      | cons d rest =>
        rw [hrest] at hinner'
        cases hinner'
        rw [hname rest hrest] at hname'
        cases hname'
    · exact hread'

/-- A unit that is read ends in front of the line feed. -/
theorem lexeme_continued (h : cursor.lexeme c cs = (.ok l, after)) :
    (cursor.continued more).lexeme c (cs ++ '\n' :: more) = (.ok l, after.continued more) := by
  obtain ⟨scan, hscan, hlexeme⟩ := exists_scanner c
  rw [hlexeme] at h ⊢
  cases hscan with
  | leftParen =>
    cases h
    rfl
  | close =>
    cases h
    rfl
  | string => exact string_continued more h
  | number =>
    have hread : cursor.number = (.ok l, after) := h
    show (cursor.continued more).number = _
    rw [number_continued, hread]
  | word => exact word_continued more h
  | operator =>
    obtain ⟨op, width, hop, rfl, rfl⟩ := exists_of_operator_eq_ok h
    obtain ⟨hop', htake, hdrop⟩ := operatorAt?_continued more hop
    rw [List.cons_append] at hop' htake hdrop
    show (cursor.continued more).operator c (cs ++ '\n' :: more) = _
    rw [operator_of_some hop', htake, hdrop]
    rfl

theorem skipIgnored_continued (h : cursor.skipIgnored.rest ≠ []) :
    (cursor.continued more).skipIgnored = cursor.skipIgnored.continued more := by
  show (cursor.continued more).past (spanIgnored false (cursor.rest ++ '\n' :: more)).1
    (spanIgnored false (cursor.rest ++ '\n' :: more)).2 = _
  rw [spanIgnored_continued more h]
  rfl

theorem proceed_continued {start : Nat} {calls : List OpenCall} {t : Token} {end_ : Cursor}
    (hnext : ∀ (calls : List OpenCall), after.next calls = (.ok (some t), end_) →
      (after.continued more).next calls = (.ok (some t), end_.continued more))
    (h : after.proceed start l calls = (.ok (some t), end_)) :
    (after.continued more).proceed start l calls = (.ok (some t), end_.continued more) := by
  cases l with
  | callOpen name => exact hnext _ h
  | close =>
    cases calls with
    | nil =>
      cases h
      rfl
    | cons inner outer =>
      cases outer with
      | nil =>
        cases h
        rfl
      | cons parent further => exact hnext _ h
  | token read =>
    cases calls with
    | nil =>
      cases h
      rfl
    | cons inner outer =>
      rw [proceed] at h ⊢
      split at h
      · rename_i hoperand
        rw [if_pos hoperand]
        exact hnext _ h
      · cases h

/-- A token that is read ends in front of the line feed, inside the same calls. -/
theorem next_continued {calls : List OpenCall} {t : Token}
    (h : cursor.next calls = (.ok (some t), after)) :
    (cursor.continued more).next calls = (.ok (some t), after.continued more) := by
  induction hlength : cursor.rest.length using Nat.strongRecOn generalizing cursor calls with
  | _ length ih =>
    rw [next_eq] at h
    split at h
    · split at h
      · cases h
      · cases h
    · rename_i c cs hhere
      split at h
      · cases h
      · rename_i l at_ hlexeme
        have hshorter := length_lexeme_lt_rest hhere hlexeme
        rw [hlength] at hshorter
        have hskip := skipIgnored_continued more (hhere ▸ List.cons_ne_nil c cs)
        have hhere' : (cursor.continued more).skipIgnored.rest = c :: (cs ++ '\n' :: more) := by
          rw [hskip, continued, hhere, List.cons_append]
        have hlexeme' : (cursor.continued more).skipIgnored.lexeme c (cs ++ '\n' :: more) =
            (.ok l, at_.continued more) := by
          rw [hskip]
          exact lexeme_continued more hlexeme
        rw [next_of_lexeme calls hhere' hlexeme', hskip]
        exact proceed_continued more (fun calls h => ih _ hshorter h rfl) h

/-- There is no further token only where everything that is left is ignored, and no call is
open. -/
theorem end_of_next {calls : List OpenCall} (h : cursor.next calls = (.ok none, after)) :
    calls = [] ∧ cursor.skipIgnored.rest = [] := by
  fun_induction Cursor.next cursor calls with
  | case1 cursor here hnil => exact ⟨rfl, hnil⟩
  | case2 => cases h
  | case3 => cases h
  | case4 cursor calls here c cs hhere name at_ hlexeme ih =>
    -- the call that has been opened is still open
    exact absurd (ih h).1 (List.cons_ne_nil _ _)
  | case5 => cases h
  | case6 => cases h
  | case7 cursor here c cs hhere at_ hlexeme inner call parent further ih =>
    have hcall : call = .call inner.name inner.args.reverse := by
      simp [call]
    rw [hcall] at ih
    exact absurd (ih h).1 (List.cons_ne_nil _ _)
  | case8 => cases h
  | case9 cursor here c cs hhere read at_ hlexeme inner outer hoperand ih =>
    exact absurd (ih h).1 (List.cons_ne_nil _ _)
  | case10 => cases h

/-! ### All tokens -/

/-- The tokens are the same wherever their text starts, and so are errors but for their
position. -/
theorem tokens_shift (offset : Nat) (cursor : Cursor) :
    (cursor.shift offset).tokens = cursor.tokens.mapError (·.shift offset) := by
  induction hlength : cursor.rest.length using Nat.strongRecOn generalizing cursor with
  | _ length ih =>
    have hnext : (cursor.shift offset).next = shiftRead offset cursor.next :=
      next_shift offset cursor []
    rw [tokens_eq, tokens_eq cursor, hnext]
    rcases hread : cursor.next with ⟨_ | _ | t, after⟩
    · rfl
    · rfl
    · have hshorter := length_next_lt hread
      rw [hlength] at hshorter
      show (after.shift offset).tokens.map (t :: ·) = _
      rw [ih _ hshorter after rfl]
      show _ = (after.tokens.map (t :: ·)).mapError _
      cases after.tokens with
      | error e => rfl
      | ok ts => rfl

/-- Behind the tokens of a text come those of what follows the line feed. -/
theorem tokens_continued {ts : List Token} (h : cursor.tokens = .ok ts) :
    (cursor.continued more).tokens =
      (tokens { rest := more, pos := cursor.stop + 1 }).map (ts ++ ·) := by
  induction hlength : cursor.rest.length using Nat.strongRecOn generalizing cursor ts with
  | _ length ih =>
    rw [tokens_eq] at h
    split at h
    · cases h
    · rename_i after hnext
      cases h
      -- the text has ended, and reading goes on behind the line feed
      have hend := (end_of_next hnext).2
      have hskip : (cursor.continued more).skipIgnored =
          ({ rest := more, pos := cursor.stop + 1 } : Cursor).skipIgnored := by
        show (cursor.continued more).past (spanIgnored false (cursor.rest ++ '\n' :: more)).1
          (spanIgnored false (cursor.rest ++ '\n' :: more)).2 = _
        rw [spanIgnored_line more hend]
        simp only [skipIgnored, past, continued, stop, Text.byteLength, List.map_append,
          List.map_cons, List.sum_append, List.sum_cons]
        congr 1
        have hbreak : Char.utf8Size '\n' = 1 := rfl
        omega
      rw [tokens_eq, tokens_eq { rest := more, pos := cursor.stop + 1 }, next_congr hskip]
      split
      · rfl
      · rfl
      · rename_i t end_ _
        cases end_.tokens with
        | error e => rfl
        | ok us => rfl
    · rename_i t after hnext
      have hshorter := length_next_lt hnext
      have hstop : after.stop = cursor.stop := by
        have hreach := reaches_next cursor []
        rw [hnext] at hreach
        exact hreach.stop_eq
      rw [hlength] at hshorter
      cases hafter : after.tokens with
      | error e =>
        rw [hafter] at h
        cases h
      | ok us =>
        rw [hafter] at h
        cases h
        rw [tokens_eq, next_continued more hnext]
        show (after.continued more).tokens.map (t :: ·) = _
        rw [ih _ hshorter hafter rfl, hstop]
        cases tokens { rest := more, pos := cursor.stop + 1 } with
        | error e => rfl
        | ok vs => rfl

end Cursor

/-- Tokens of a text that is put together at a line feed, where the first part has tokens: those
of the first part, and then those of the second part. An error of the second part is an error of
the whole text, at a position that counts the first part and the line feed. -/
theorem tokenize_join {first second : String} {ts : List Token} (h : tokenize first = .ok ts) :
    (∀ us, tokenize second = .ok us → tokenize (first ++ "\n" ++ second) = .ok (ts ++ us)) ∧
      ∀ e, tokenize second = .error e →
        tokenize (first ++ "\n" ++ second) = .error (e.shift (first.utf8ByteSize + 1)) := by
  have hstart : Cursor.start (first ++ "\n" ++ second) =
      (Cursor.start first).continued second.toList := by
    simp [Cursor.start, Cursor.continued]
  have hstop : (Cursor.start first).stop = first.utf8ByteSize := by
    show 0 + Text.byteLength first.toList = _
    rw [Nat.zero_add, Text.byteLength_toList]
  have hsecond : ({ rest := second.toList, pos := first.utf8ByteSize + 1 } : Cursor) =
      (Cursor.start second).shift (first.utf8ByteSize + 1) := by
    simp [Cursor.start, Cursor.shift]
  have hjoined : tokenize (first ++ "\n" ++ second) =
      ((tokenize second).mapError (·.shift (first.utf8ByteSize + 1))).map (ts ++ ·) := by
    rw [tokenize_eq (first ++ "\n" ++ second), hstart, Cursor.tokens_continued _ h, hstop, hsecond,
      Cursor.tokens_shift, tokenize_eq second]
  constructor
  · intro us hus
    rw [hjoined, hus]
    rfl
  · intro e he
    rw [hjoined, he]
    rfl

/-- A comment that would open a call ends at the line feed, and offsets count the letter of two
bytes in front of it. -/
theorem tokenize_join_comment :
    tokenize "'é' # f(" = .ok [.str "é"] ∧
      tokenize ("'é' # f(" ++ "\n" ++ "'b'") = .ok [.str "é", .str "b"] ∧
      tokenize ("'é' # f(" ++ "\n" ++ " 'b") = .error (.unterminatedString 11) := by
  have hcomment : Cursor.tokens { rest := [' ', '#', ' ', 'f', '('], pos := 4 } = .ok [] := by
    rw [Cursor.tokens_eq, Cursor.next_eq]
    rfl
  have hfirst : tokenize "'é' # f(" = .ok [.str "é"] := by
    have hchars : "'é' # f(".toList = ['\'', 'é', '\'', ' ', '#', ' ', 'f', '('] :=
      String.toList_ofList
    show Cursor.tokens { rest := "'é' # f(".toList, pos := 0 } = _
    rw [hchars, Cursor.tokens_eq, Cursor.next_eq]
    show (Cursor.tokens { rest := [' ', '#', ' ', 'f', '('], pos := 4 }).map _ = _
    rw [hcomment]
    rfl
  have hsecond : tokenize "'b'" = .ok [.str "b"] := by
    have hchars : "'b'".toList = ['\'', 'b', '\''] := String.toList_ofList
    show Cursor.tokens { rest := "'b'".toList, pos := 0 } = _
    rw [hchars, Cursor.tokens_eq, Cursor.next_eq]
    show (Cursor.tokens { rest := [], pos := 3 }).map _ = _
    rw [Cursor.tokens_eq, Cursor.next_eq]
    rfl
  have hopen : tokenize " 'b" = .error (.unterminatedString 1) := by
    have hchars : " 'b".toList = [' ', '\'', 'b'] := String.toList_ofList
    show Cursor.tokens { rest := " 'b".toList, pos := 0 } = _
    rw [hchars, Cursor.tokens_eq, Cursor.next_eq]
    rfl
  exact ⟨hfirst, (tokenize_join hfirst).1 _ hsecond, (tokenize_join hfirst).2 _ hopen⟩

end Rules

end EventPipeline
