import EventPipeline.Rules.Lexer
import EventPipeline.Text.Bytes

/-!
# `EventPipeline.Rules.ByteScan`: reading rule text byte by byte

A lexer keeps the whole text and an offset in it. It decides on single bytes, goes on one byte at a
time, and cuts what it has found out of the text. All names and signs of the language are ASCII, but
comments and strings hold any characters, and these are gone through by their bytes too.

Cutting out a piece fails if one of its ends is not between two characters, and then reading has no
result at all. Otherwise the scanners are those of `Cursor`, with an offset for the text that is
left. `Request` is what a lexer can be asked for, and it goes on from wherever the last request has
left it.
-/

set_option autoImplicit false

namespace EventPipeline.Rules.ByteScan

open Text

/-- The offset behind separators and comments. -/
def skipIgnored (text : String) (pos : Nat) : Nat :=
  match _hpeek : peek? text pos with
  | none => pos
  | some c =>
    if isSeparator c then skipIgnored text (pos + 1)
    else if _hcomment : c == '#' then skipIgnored text (skipWhile (· != '\n') text pos)
    else pos
termination_by text.utf8ByteSize - pos
decreasing_by
  · have hlt := lt_of_peek? _hpeek
    omega
  · have hlt := lt_of_peek? _hpeek
    have hskip := lt_skipWhile (p := (· != '\n')) _hpeek (by rw [beq_iff_eq.mp _hcomment]; rfl)
    omega

theorem le_skipIgnored (text : String) (pos : Nat) : pos ≤ skipIgnored text pos := by
  fun_induction skipIgnored text pos with
  | case1 => exact Nat.le_refl _
  | case2 pos c _ _ ih => exact Nat.le_of_succ_le ih
  | case3 pos c _ _ _ ih => exact Nat.le_trans (le_skipWhile _ text pos) ih
  | case4 => exact Nat.le_refl _

/-- A point stands at the offset, and right behind it a byte with the property. -/
def isPointAt (p : Char → Bool) (text : String) (pos : Nat) : Bool :=
  peek? text pos == some '.' && (peek? text (pos + 1)).any p

/-- The value of a number literal, which is a fraction or a whole number. -/
def readNumber (isFraction : Bool) (literal : String) (start : Nat) : Except LexError Lexeme :=
  if isFraction then
    let whole := literal.toList.takeWhile (· != '.')
    let fraction := (literal.toList.dropWhile (· != '.')).tail
    .ok (.token (.float
      (Float.ofScientific (digitsValue (whole ++ fraction)) true fraction.length)))
  else
    let n := digitsValue literal.toList
    if n ≤ maxInteger then .ok (.token (.integer (Int64.ofNat n)))
    else .error (.numberOutOfRange literal start)

/-- A number literal at a digit. -/
def number? (text : String) (start : Nat) : Option (Except LexError Lexeme × Nat) := do
  let whole := skipWhile Char.isDigit text start
  let isFraction := isPointAt Char.isDigit text whole
  let stop := if isFraction then skipWhile Char.isDigit text (whole + 1) else whole
  let literal ← slice? text start stop
  return (readNumber isFraction literal start, stop)

/-- A string literal at its opening quote. -/
def string? (text : String) (start : Nat) (quote : Char) :
    Option (Except LexError Lexeme × Nat) := do
  let stop := skipWhile (· != quote) text (start + 1)
  if (peek? text stop).isNone then return (.error (.unterminatedString start), stop)
  else
    let body ← slice? text (start + 1) stop
    return (.ok (.token (.str body)), stop + 1)

/-- The offset behind the name that starts at `pos`: its first segment, and the further ones, each
with its dot. -/
def nameEnd (text : String) (pos : Nat) : Nat :=
  let stop := skipWhile isNameChar text (pos + 1)
  if _hpoint : isPointAt isNameStart text stop then nameEnd text (stop + 1) else stop
termination_by text.utf8ByteSize - pos
decreasing_by
  have hlt := lt_of_peek? (beq_iff_eq.mp (Bool.and_eq_true_iff.mp _hpoint).1)
  have hskip := le_skipWhile isNameChar text (pos + 1)
  omega

theorem lt_nameEnd (text : String) (pos : Nat) : pos < nameEnd text pos := by
  fun_induction nameEnd text pos with
  | case1 pos stop _ ih =>
    have hskip : pos + 1 ≤ stop := le_skipWhile isNameChar text (pos + 1)
    omega
  | case2 pos stop _ => exact le_skipWhile isNameChar text (pos + 1)

/-- A name, truth value or call opening at a character that starts a name. -/
def word? (text : String) (start : Nat) : Option (Except LexError Lexeme × Nat) := do
  let stop := nameEnd text start
  let name ← slice? text start stop
  if peek? text stop == some '(' && isCallName name.toList then
    return (.ok (.callOpen name), stop + 1)
  else
    return (.ok (.token (if name == "TRUE" then .bool true
      else if name == "FALSE" then .bool false else .identifier name)), stop)

/-- The operator that starts with `c`, by the byte behind it, and its length. -/
def operatorFrom (c : Char) (behind : Option Char) : Option (Op × Nat) :=
  match c with
  | '!' => if behind = some '=' then some (.ne, 2) else some (.not, 1)
  | '=' => if behind = some '=' then some (.eq, 2) else some (.assign, 1)
  | '>' => if behind = some '=' then some (.ge, 2) else some (.gt, 1)
  | '<' => if behind = some '=' then some (.le, 2) else some (.lt, 1)
  | '~' => if behind = some '=' then some (.mem, 2) else none
  | '&' => if behind = some '&' then some (.and, 2) else none
  | '|' => if behind = some '|' then some (.or, 2) else none
  | '+' => some (.add, 1)
  | '-' => some (.sub, 1)
  | '*' => some (.mul, 1)
  | '/' => some (.div, 1)
  | _ => none

/-- What is read as an operator is ASCII. -/
theorem ascii_of_operatorFrom {c : Char} {behind : Option Char} {op : Op} {width : Nat}
    (h : operatorFrom c behind = some (op, width)) :
    c.toNat < 128 ∧ (width = 1 ∨ width = 2 ∧ ∃ d, behind = some d ∧ d.toNat < 128) := by
  unfold operatorFrom at h
  split at h
  any_goals cases h
  any_goals exact ⟨by decide, .inl rfl⟩
  all_goals
    split at h
    · rename_i hbehind
      cases h
      exact ⟨by decide, .inr ⟨rfl, _, hbehind, by decide⟩⟩
    · cases h
      try exact ⟨by decide, .inl rfl⟩

/-- An operator, which takes one byte or two. What is none is reported as the character that stands
there. -/
def operator? (text : String) (start : Nat) (c : Char) : Option (Except LexError Lexeme × Nat) :=
  match operatorFrom c (peek? text (start + 1)) with
  | some (op, width) => some (.ok (.token (.operator op)), start + width)
  | none => do
    let rest ← slice? text start text.utf8ByteSize
    return (.error (.unexpectedChar (rest.toList.headD '\x00') start), start)

/-- The unit that starts at the offset, where the byte is `c`. -/
def lexeme? (text : String) (start : Nat) (c : Char) : Option (Except LexError Lexeme × Nat) :=
  if c == '(' then some (.ok (.token .leftParen), start + 1)
  else if c == ')' then some (.ok .close, start + 1)
  else if c == '"' || c == '\'' then string? text start c
  else if c.isDigit then number? text start
  else if isNameStart c then word? text start
  else operator? text start c

section Lengths

variable {text : String} {start after : Nat} {c : Char} {l : Lexeme}
  {read : Except LexError Lexeme}

theorem lt_of_number? (hpeek : peek? text start = some c) (hdigit : c.isDigit = true)
    (h : number? text start = some (read, after)) : start < after := by
  have hwhole := lt_skipWhile hpeek hdigit
  have hmore := le_skipWhile Char.isDigit text (skipWhile Char.isDigit text start + 1)
  obtain ⟨literal, -, hread⟩ := Option.bind_eq_some_iff.mp h
  cases hread
  split <;> omega

theorem lt_of_string? (h : string? text start c = some (read, after)) : start < after := by
  have hbody := le_skipWhile (· != c) text (start + 1)
  unfold string? at h
  dsimp only at h
  split at h
  · cases h
    omega
  · obtain ⟨body, -, hread⟩ := Option.bind_eq_some_iff.mp h
    cases hread
    omega

theorem lt_of_word? (h : word? text start = some (read, after)) : start < after := by
  have hname := lt_nameEnd text start
  obtain ⟨name, -, hread⟩ := Option.bind_eq_some_iff.mp h
  split at hread <;> cases hread <;> omega

theorem lt_of_operator? (h : operator? text start c = some (.ok l, after)) : start < after := by
  unfold operator? at h
  split at h
  · rename_i op width hop
    have hwidth := (ascii_of_operatorFrom hop).2
    cases h
    omega
  · obtain ⟨rest, -, hread⟩ := Option.bind_eq_some_iff.mp h
    cases hread

/-- A unit takes at least one byte. -/
theorem lt_of_lexeme? (hpeek : peek? text start = some c)
    (h : lexeme? text start c = some (.ok l, after)) : start < after := by
  unfold lexeme? at h
  split at h
  · cases h
    exact Nat.lt_succ_self start
  split at h
  · cases h
    exact Nat.lt_succ_self start
  split at h
  · exact lt_of_string? h
  split at h
  · rename_i hdigit
    exact lt_of_number? hpeek hdigit h
  split at h
  · exact lt_of_word? h
  · exact lt_of_operator? h

end Lengths

/-- Reads the next token inside the calls that are open, and where reading ended. -/
def next? (text : String) (pos : Nat) (calls : List OpenCall := []) :
    Option (Except LexError (Option Token) × Nat) :=
  let here := skipIgnored text pos
  match _hpeek : peek? text here with
  | none =>
    match calls with
    | [] => some (.ok none, here)
    | inner :: _ => some (.error (.unterminatedCall inner.name inner.pos), here)
  | some c =>
    match _hlexeme : lexeme? text here c with
    | none => none
    | some (.error e, after) => some (.error e, after)
    | some (.ok (.callOpen name), after) =>
      next? text after ({ name := name, pos := here, args := [] } :: calls)
    | some (.ok .close, after) =>
      match calls with
      | [] => some (.ok (some .rightParen), after)
      | inner :: outer =>
        let call := Token.call inner.name inner.args.reverse
        match outer with
        | [] => some (.ok (some call), after)
        | parent :: further =>
          next? text after ({ parent with args := call :: parent.args } :: further)
    | some (.ok (.token t), after) =>
      match calls with
      | [] => some (.ok (some t), after)
      | inner :: outer =>
        if t.isOperand then next? text after ({ inner with args := t :: inner.args } :: outer)
        else some (.error (.invalidCallArgument inner.name here), after)
termination_by text.utf8ByteSize - pos
decreasing_by
  all_goals
    have hlt := lt_of_peek? _hpeek
    have hunit := lt_of_lexeme? _hpeek _hlexeme
    have hskip : pos ≤ here := le_skipIgnored text pos
    omega

/-- The stream of tokens: an error takes it to the end of the text. -/
def nextFused? (text : String) (pos : Nat) : Option (Except LexError (Option Token) × Nat) :=
  match next? text pos with
  | some (.error e, _) => some (.error e, text.utf8ByteSize)
  | result => result

/-- What a lexer can be asked for. -/
inductive Request where
  /-- the next token -/
  | next
  /-- the next token of the stream -/
  | iterate
  /-- to begin again -/
  | reset
deriving DecidableEq, Repr

/-- The answer at an offset, and where the lexer stands then. To begin again has no token for an
answer. -/
def Request.answer? (text : String) (pos : Nat) :
    Request → Option (Except LexError (Option Token) × Nat)
  | next => next? text pos
  | iterate => nextFused? text pos
  | reset => some (.ok none, 0)

/-- Where the lexer stands after a number of requests. -/
def offset? (text : String) (pos : Nat) : List Request → Option Nat
  | [] => some pos
  | request :: more => do
    let (_, after) ← request.answer? text pos
    offset? text after more

/-- The answer at a cursor, and the cursor then. -/
def Request.answer (text : String) (cursor : Cursor) :
    Request → Except LexError (Option Token) × Cursor
  | next => cursor.next
  | iterate => cursor.nextFused
  | reset => (.ok none, .start text)

/-- The cursor after a number of requests. -/
def cursorAfter (text : String) (requests : List Request) : Cursor :=
  requests.foldl (fun cursor request => (request.answer text cursor).2) (.start text)

end EventPipeline.Rules.ByteScan
