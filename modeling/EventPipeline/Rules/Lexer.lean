import EventPipeline.Rules.Error
import EventPipeline.Rules.Token
import EventPipeline.Text.Blank

/-!
# `EventPipeline.Rules.Lexer`: reading rule text into tokens

Spaces, tabs, line ends and commas separate tokens, and `#` starts a comment that runs
to the end of the line. A name right in front of `(` opens a call, whose arguments are
literals, names and calls up to the matching `)`.

A `Cursor` is the text still to be read with the byte offset where it starts.
`Cursor.lexeme` reads the smallest units; `Cursor.next` folds those of a call into
one token and keeps the calls that are still open on a stack, the innermost first.
-/

set_option autoImplicit false

namespace EventPipeline.Rules

/-- The text still to be read and its byte offset in the whole text. -/
structure Cursor where
  rest : List Char
  pos : Nat

/-- Characters that separate tokens. -/
def isSeparator (c : Char) : Bool :=
  c == ' ' || c == '\t' || c == '\r' || c == '\n' || c == ','

/-- Characters that start a segment of a name. -/
def isNameStart (c : Char) : Bool :=
  c.isAlpha || c == '_' || c == '@'

/-- Characters that continue a segment of a name. -/
def isNameChar (c : Char) : Bool :=
  c.isAlphanum || c == '_' || c == '-'

/-- Names that can be called: a letter or underscore and then letters, digits and
underscores. -/
def isCallName : List Char → Bool
  | [] => false
  | c :: cs => (c.isAlpha || c == '_') && cs.all fun c => c.isAlphanum || c == '_'

namespace Cursor

/-- The start of a text. -/
def start (text : String) : Cursor :=
  { rest := text.toList, pos := 0 }

/-- Moves past the characters of `cs`, which leaves `rest`. -/
def past (cursor : Cursor) (cs rest : List Char) : Cursor :=
  { rest := rest, pos := cursor.pos + Text.byteLength cs }

/-- The end of the text. -/
def atEnd (cursor : Cursor) : Cursor :=
  cursor.past cursor.rest []

end Cursor

/-- Dropping characters never lengthens a text. -/
theorem length_dropWhile_le {α : Type} (p : α → Bool) (l : List α) :
    (l.dropWhile p).length ≤ l.length :=
  (List.dropWhile_sublist p).length_le

/-- Splits off separators and comments, as the ignored characters and the rest;
`inComment` says whether the text starts inside a comment. -/
def spanIgnored (inComment : Bool) : List Char → List Char × List Char
  | [] => ([], [])
  | c :: cs =>
    if inComment then
      let (skipped, rest) := spanIgnored (c != '\n') cs
      (c :: skipped, rest)
    else if isSeparator c || c == '#' then
      let (skipped, rest) := spanIgnored (c == '#') cs
      (c :: skipped, rest)
    else ([], c :: cs)

/-- Skips separators and comments. -/
def Cursor.skipIgnored (cursor : Cursor) : Cursor :=
  let (skipped, rest) := spanIgnored false cursor.rest
  cursor.past skipped rest

/-- The longest operator at the front of a text and its length. -/
def operatorAt? : List Char → Option (Op × Nat)
  | '!' :: '=' :: _ => some (.ne, 2)
  | '!' :: _ => some (.not, 1)
  | '=' :: '=' :: _ => some (.eq, 2)
  | '=' :: _ => some (.assign, 1)
  | '>' :: '=' :: _ => some (.ge, 2)
  | '>' :: _ => some (.gt, 1)
  | '<' :: '=' :: _ => some (.le, 2)
  | '<' :: _ => some (.lt, 1)
  | '~' :: '=' :: _ => some (.mem, 2)
  | '&' :: '&' :: _ => some (.and, 2)
  | '|' :: '|' :: _ => some (.or, 2)
  | '+' :: _ => some (.add, 1)
  | '-' :: _ => some (.sub, 1)
  | '*' :: _ => some (.mul, 1)
  | '/' :: _ => some (.div, 1)
  | _ => none

/-- The further segments of a dotted name, each with its dot. -/
def spanSegments (cs : List Char) : List Char × List Char :=
  match cs with
  | '.' :: c :: rest =>
    if isNameStart c then
      let more := spanSegments (rest.dropWhile isNameChar)
      ('.' :: c :: rest.takeWhile isNameChar ++ more.1, more.2)
    else ([], cs)
  | _ => ([], cs)
termination_by cs.length
decreasing_by
  have := length_dropWhile_le isNameChar rest
  simp only [List.length_cons]; omega

/-- The smallest units of rule text. -/
inductive Lexeme where
  | token (t : Token)
  | callOpen (name : String)
  | close

/-- The value of a text of decimal digits. -/
def digitsValue (cs : List Char) : Nat :=
  cs.foldl (fun n c => 10 * n + (c.toNat - '0'.toNat)) 0

/-- The greatest 64-bit integer. -/
def maxInteger : Nat := 2 ^ 63 - 1

/-- A number literal at a digit: digits, and a fraction if a digit follows the point. -/
def Cursor.number (cursor : Cursor) : Except LexError Lexeme × Cursor :=
  let whole := cursor.rest.takeWhile Char.isDigit
  let rest := cursor.rest.dropWhile Char.isDigit
  let integer : Except LexError Lexeme × Cursor :=
    let n := digitsValue whole
    (if n ≤ maxInteger then .ok (.token (.integer (Int64.ofNat n)))
      else .error (.numberOutOfRange (String.ofList whole) cursor.pos),
     cursor.past whole rest)
  match rest with
  | '.' :: d :: more =>
    if d.isDigit then
      let fraction := (d :: more).takeWhile Char.isDigit
      let text := whole ++ '.' :: fraction
      (.ok (.token (.float
        (Float.ofScientific (digitsValue (whole ++ fraction)) true fraction.length))),
       cursor.past text ((d :: more).dropWhile Char.isDigit))
    else integer
  | _ => integer

/-- A string literal at its opening quote. There are no escapes. -/
def Cursor.string (cursor : Cursor) (quote : Char) (body : List Char) :
    Except LexError Lexeme × Cursor :=
  let content := body.takeWhile (· != quote)
  match body.dropWhile (· != quote) with
  | [] => (.error (.unterminatedString cursor.pos), cursor.atEnd)
  | close :: rest =>
    (.ok (.token (.str (String.ofList content))),
     cursor.past (quote :: content ++ [close]) rest)

/-- A name, truth value or call opening at a character that starts a name. -/
def Cursor.word (cursor : Cursor) (first : Char) (more : List Char) :
    Except LexError Lexeme × Cursor :=
  let segment := first :: more.takeWhile isNameChar
  let (segments, rest) := spanSegments (more.dropWhile isNameChar)
  let word := segment ++ segments
  let name := String.ofList word
  let plain : Except LexError Lexeme × Cursor :=
    (.ok (.token (if name == "TRUE" then .bool true
      else if name == "FALSE" then .bool false else .identifier name)),
     cursor.past word rest)
  match rest with
  | '(' :: inner =>
    if isCallName word then (.ok (.callOpen name), cursor.past (word ++ ['(']) inner)
    else plain
  | _ => plain

/-- The unit that starts at the first character `c`, with `cs` behind it. -/
def Cursor.lexeme (cursor : Cursor) (c : Char) (cs : List Char) :
    Except LexError Lexeme × Cursor :=
  if c == '(' then (.ok (.token .leftParen), cursor.past [c] cs)
  else if c == ')' then (.ok .close, cursor.past [c] cs)
  else if c == '"' || c == '\'' then cursor.string c cs
  else if c.isDigit then cursor.number
  else if isNameStart c then cursor.word c cs
  else
    match operatorAt? (c :: cs) with
    | some (op, width) =>
      (.ok (.token (.operator op)),
       cursor.past ((c :: cs).take width) ((c :: cs).drop width))
    | none => (.error (.unexpectedChar c cursor.pos), cursor)

/-- A call whose closing parenthesis is still to come, with its arguments so far in
reverse. -/
structure OpenCall where
  name : String
  pos : Nat
  args : List Token

section Lengths

/-- What follows separators and comments is no longer than the text. -/
theorem length_spanIgnored_le (inComment : Bool) (cs : List Char) :
    (spanIgnored inComment cs).2.length ≤ cs.length := by
  induction cs generalizing inComment with
  | nil => simp [spanIgnored]
  | cons c cs ih =>
    have h₁ := ih (c != '\n')
    have h₂ := ih (c == '#')
    unfold spanIgnored
    split
    · simp only [List.length_cons]; omega
    · split
      · simp only [List.length_cons]; omega
      · simp

/-- Skipping separators and comments never lengthens the text that is left. -/
theorem Cursor.length_skipIgnored_le (cursor : Cursor) :
    cursor.skipIgnored.rest.length ≤ cursor.rest.length :=
  length_spanIgnored_le false cursor.rest

/-- What follows the further segments of a name is no longer than the text. -/
theorem length_spanSegments_le (cs : List Char) :
    (spanSegments cs).2.length ≤ cs.length := by
  fun_induction spanSegments cs with
  | case1 c rest _ more ih =>
    have := length_dropWhile_le isNameChar rest
    simp only [List.length_cons]
    exact Nat.le_trans ih (by omega)
  | case2 => simp
  | case3 => simp

/-- An operator is one or two characters wide. -/
theorem operatorAt?_width {cs : List Char} {op : Op} {width : Nat}
    (h : operatorAt? cs = some (op, width)) : 0 < width ∧ width ≤ 2 := by
  unfold operatorAt? at h
  split at h <;> simp at h <;> omega

/-- A lexeme takes at least one character. -/
theorem Cursor.length_lexeme_lt {cursor : Cursor} {c : Char} {cs : List Char}
    (hrest : cursor.rest = c :: cs) {l : Lexeme} {after : Cursor}
    (h : cursor.lexeme c cs = (.ok l, after)) : after.rest.length < cursor.rest.length := by
  rw [hrest, List.length_cons]
  unfold lexeme at h
  split at h
  · cases h; simp [past]
  split at h
  · cases h; simp [past]
  split at h
  · unfold string at h
    have hd := length_dropWhile_le (· != c) cs
    dsimp only at h
    split at h
    · simp at h
    · rename_i rest hrest'
      cases h
      rw [hrest'] at hd
      simp only [List.length_cons] at hd
      simp only [past]; omega
  split at h
  · rename_i hdigit
    have hw := length_dropWhile_le Char.isDigit cs
    have hdrop : cursor.rest.dropWhile Char.isDigit = cs.dropWhile Char.isDigit := by
      rw [hrest]; simp [hdigit]
    unfold number at h
    simp only [hdrop] at h
    split at h
    · rename_i d more hmore
      have hm := length_dropWhile_le Char.isDigit (d :: more)
      have hlen := congrArg List.length hmore
      simp only [List.length_cons] at hlen hm
      split at h
      · injection h with _ h; subst h
        simp only [past]; omega
      · injection h with _ h; subst h
        simp only [past]; omega
    · injection h with _ h; subst h
      simp only [past]; omega
  split at h
  · unfold word at h
    have hd := length_dropWhile_le isNameChar cs
    have hs := length_spanSegments_le (cs.dropWhile isNameChar)
    dsimp only at h
    split at h
    · rename_i inner hinner
      rw [hinner] at hs
      simp only [List.length_cons] at hs
      split at h
      · injection h with _ h; subst h; simp only [past]; omega
      · injection h with _ h; subst h; simp only [past, hinner, List.length_cons]; omega
    · injection h with _ h; subst h; simp only [past]; omega
  split at h
  · rename_i op width hop
    have := operatorAt?_width hop
    injection h with _ h; subst h
    simp only [past, List.length_drop, List.length_cons]; omega
  · simp at h

end Lengths

/-- Reads the next token inside the calls that are open. The result is `none` at the end
of the text; the cursor stands where reading ended, also after an error. -/
def Cursor.next (cursor : Cursor) (calls : List OpenCall := []) :
    Except LexError (Option Token) × Cursor :=
  let here := cursor.skipIgnored
  match _hrest : here.rest with
  | [] =>
    match calls with
    | [] => (.ok none, here)
    | inner :: _ => (.error (.unterminatedCall inner.name inner.pos), here)
  | c :: cs =>
    match _hlex : here.lexeme c cs with
    | (.error e, after) => (.error e, after)
    | (.ok (.callOpen name), after) =>
      after.next ({ name := name, pos := here.pos, args := [] } :: calls)
    | (.ok .close, after) =>
      match calls with
      | [] => (.ok (some .rightParen), after)
      | inner :: outer =>
        let call := Token.call inner.name inner.args.reverse
        match outer with
        | [] => (.ok (some call), after)
        | parent :: further =>
          after.next ({ parent with args := call :: parent.args } :: further)
    | (.ok (.token t), after) =>
      match calls with
      | [] => (.ok (some t), after)
      | inner :: outer =>
        if t.isOperand then after.next ({ inner with args := t :: inner.args } :: outer)
        else (.error (.invalidCallArgument inner.name here.pos), after)
termination_by cursor.rest.length
decreasing_by
  all_goals
    have := Cursor.length_lexeme_lt _hrest _hlex
    have : here.rest.length ≤ cursor.rest.length := Cursor.length_skipIgnored_le cursor
    omega

/-- The stream of tokens at a cursor: after an error there are no more, and the cursor
stands at the end of the text. -/
def Cursor.nextFused (cursor : Cursor) : Except LexError (Option Token) × Cursor :=
  match cursor.next with
  | (.error e, after) => (.error e, after.atEnd)
  | result => result

end EventPipeline.Rules
