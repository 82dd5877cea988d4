import EventPipeline.Proofs.Rules.ByteUnits

/-!
# `EventPipeline.Proofs.Rules.ByteTokens`: tokens read byte by byte

Reading a token takes many units, and the same units are read at bytes and at characters. So
`next?_eq` says that reading at bytes never fails, with any calls open, and that it gives what
`Cursor.next` gives.

`requests_safe` is about a lexer that is asked for one thing after another, tokens and new
beginnings in any order, also behind errors. By `offset?_eq` it stands at a boundary of the text
each time, and `isSafe_answer` is what a single request adds: errors are at boundaries too, and a
token takes the lexer further on.
-/

set_option autoImplicit false

namespace EventPipeline.Rules.ByteScan

open Text

variable {c : Char} {cs : List Char} {text : String} {cursor : Cursor}

/-! ### Tokens -/

/-- How reading goes on behind a token that is complete. -/
def deliver? (text : String) (after : Nat) (t : Token) :
    List OpenCall → Option (Except LexError (Option Token) × Nat)
  | [] => some (.ok (some t), after)
  | inner :: outer => next? text after ({ inner with args := t :: inner.args } :: outer)

/-- How reading goes on behind a unit that starts at `start`. -/
def proceed? (text : String) (start after : Nat) :
    Lexeme → List OpenCall → Option (Except LexError (Option Token) × Nat)
  | .callOpen name, calls => next? text after ({ name, pos := start, args := [] } :: calls)
  | .close, [] => deliver? text after .rightParen []
  | .close, inner :: outer => deliver? text after (.call inner.name inner.args.reverse) outer
  | .token t, [] => deliver? text after t []
  | .token t, inner :: outer =>
    if t.isOperand then deliver? text after t (inner :: outer)
    else some (.error (.invalidCallArgument inner.name start), after)

/-- How reading goes on behind what has been read as a unit, or not. -/
def goOn? (text : String) (start after : Nat) (calls : List OpenCall) :
    Except LexError Lexeme → Option (Except LexError (Option Token) × Nat)
  | .error e => some (.error e, after)
  | .ok l => proceed? text start after l calls

theorem next?_of_end {pos : Nat} (calls : List OpenCall)
    (hpeek : peek? text (skipIgnored text pos) = none) :
    next? text pos calls =
      match calls with
      | [] => some (.ok none, skipIgnored text pos)
      | inner :: _ =>
        some (.error (.unterminatedCall inner.name inner.pos), skipIgnored text pos) := by
  rw [next?.eq_def]
  dsimp only
  split
  · rfl
  · rename_i hsome
    rw [hpeek] at hsome
    cases hsome

theorem next?_of_lexeme? {pos after : Nat} {d : Char} {read : Except LexError Lexeme}
    (calls : List OpenCall) (hpeek : peek? text (skipIgnored text pos) = some d)
    (hlexeme : lexeme? text (skipIgnored text pos) d = some (read, after)) :
    next? text pos calls = goOn? text (skipIgnored text pos) after calls read := by
  rw [next?.eq_def]
  dsimp only
  split
  · rename_i hnone
    rw [hpeek] at hnone
    cases hnone
  · rename_i hsome
    rw [hpeek] at hsome
    cases hsome
    split <;> rename_i hlex
    all_goals
      rw [hlexeme] at hlex
      cases hlex
    · rfl
    · rfl
    · cases calls with
      | nil => rfl
      | cons inner outer => cases outer <;> rfl
    · cases calls <;> rfl

/-- A cursor in a text has read a part of it. -/
theorem exists_read (h : (Cursor.start text).Reaches cursor) :
    ∃ pre, text.toList = pre ++ cursor.rest ∧ cursor.pos = byteLength pre := by
  obtain ⟨pre, hrest, hpos⟩ := h
  exact ⟨pre, hrest, hpos.trans (Nat.zero_add _)⟩

/-- Reading on behind a unit is the same, if reading tokens from there on is. -/
theorem proceed?_eq {after : Cursor} {start : Nat} (l : Lexeme) (calls : List OpenCall)
    (h : ∀ calls, next? text after.pos calls = some (seen (after.next calls))) :
    proceed? text start after.pos l calls = some (seen (after.proceed start l calls)) := by
  cases l with
  | callOpen name => exact h _
  | close =>
    cases calls with
    | nil => rfl
    | cons inner outer =>
      cases outer with
      | nil => rfl
      | cons parent further => exact h _
  | token t =>
    cases calls with
    | nil => rfl
    | cons inner outer =>
      rw [proceed?, Cursor.proceed]
      split
      · exact h _
      · rfl

/-- Reading a token byte by byte never fails, and it gives what reading the characters does. -/
theorem next?_eq (h : (Cursor.start text).Reaches cursor) (calls : List OpenCall) :
    next? text cursor.pos calls = some (seen (cursor.next calls)) := by
  -- a call takes many units, so the induction is on the text that is left, with any calls open
  induction hlength : cursor.rest.length using Nat.strongRecOn generalizing cursor calls with
  | _ length ih =>
    obtain ⟨pre, hsplit, hpos⟩ := exists_read h
    have hhere := h.trans (Cursor.reaches_skipIgnored cursor)
    obtain ⟨pre', hsplit', hpos'⟩ := exists_read hhere
    have hskip : skipIgnored text cursor.pos = cursor.skipIgnored.pos := by
      rw [hpos, skipIgnored_eq hsplit, byteLength_append, ← hpos]
      rfl
    rw [Cursor.next_eq]
    cases hrest : cursor.skipIgnored.rest with
    | nil =>
      rw [hrest, List.append_nil] at hsplit'
      have hend : peek? text (skipIgnored text cursor.pos) = none := by
        rw [hskip, hpos', peek?_end hsplit']
      rw [next?_of_end calls hend, hskip]
      cases calls <;> rfl
    | cons c cs =>
      rw [hrest] at hsplit'
      obtain ⟨d, hd, hbyte, hascii⟩ := exists_peek? hsplit'
      rw [← hpos', ← hskip] at hd
      have hread := lexeme?_eq (hrest ▸ hsplit') hpos' hrest hbyte hascii
      have hunit := Cursor.reaches_lexeme hrest
      rw [← hskip] at hread
      dsimp only
      rcases hlexeme : cursor.skipIgnored.lexeme c cs with ⟨e | l, after⟩
      · rw [hlexeme] at hread
        rw [next?_of_lexeme? calls hd hread]
        rfl
      · have hshorter := Cursor.length_lexeme_lt_rest hrest hlexeme
        rw [hlexeme] at hread hunit
        rw [hlength] at hshorter
        rw [next?_of_lexeme? calls hd hread, hskip]
        exact proceed?_eq l calls fun calls => ih _ hshorter (hhere.trans hunit) calls rfl

/-! ### Requests -/

variable {calls : List OpenCall} {after : Cursor} {e : LexError} {t : Token}

/-- The offset that an error is at. -/
def errorAt : LexError → Nat
  | .unexpectedChar _ pos | .unterminatedCall _ pos | .unterminatedString pos
  | .invalidCallArgument _ pos | .numberOutOfRange _ pos => pos

/-- What stops the reading of a unit is reported where the unit starts. -/
theorem errorAt_of_lexeme (h : cursor.lexeme c cs = (.error e, after)) :
    errorAt e = cursor.pos := by
  obtain ⟨scan, hscan, hlexeme⟩ := Cursor.exists_scanner c
  rw [hlexeme] at h
  cases hscan with
  | leftParen => cases h
  | close => cases h
  | string =>
    replace h : cursor.string c cs = (.error e, after) := h
    unfold Cursor.string at h
    split at h
    · cases h
      rfl
    · cases h
  | number =>
    replace h : cursor.number = (.error e, after) := h
    obtain ⟨d, more, hpoint, hd⟩ | hno := fraction_cases cursor.rest
    · rw [Cursor.number_of_fraction hpoint hd] at h
      cases h
    · rw [Cursor.number_of_integer hno] at h
      obtain ⟨hread, -⟩ := Prod.mk.inj h
      split at hread
      · cases hread
      · cases hread
        rfl
  | word =>
    replace h : cursor.word c cs = (.error e, after) := h
    obtain ⟨inner, -, -, hread⟩ | ⟨-, hread⟩ := cursor.word_eq c cs
    · rw [hread] at h
      cases h
    · rw [hread] at h
      cases h
  | operator =>
    replace h : cursor.operator c cs = (.error e, after) := h
    unfold Cursor.operator at h
    split at h
    · cases h
    · cases h
      rfl

theorem isBoundary_pos (h : (Cursor.start text).Reaches cursor) : IsBoundary text cursor.pos := by
  obtain ⟨pre, hsplit, hpos⟩ := exists_read h
  rw [hpos]
  exact isBoundary_of_append hsplit

theorem isBoundary_skipIgnored (h : (Cursor.start text).Reaches cursor) :
    IsBoundary text cursor.skipIgnored.pos :=
  isBoundary_pos (h.trans (Cursor.reaches_skipIgnored cursor))

theorem reaches_unit {read : Except LexError Lexeme} (h : (Cursor.start text).Reaches cursor)
    (hhere : cursor.skipIgnored.rest = c :: cs)
    (hlexeme : cursor.skipIgnored.lexeme c cs = (read, after)) :
    (Cursor.start text).Reaches after := by
  have hunit := Cursor.reaches_lexeme hhere
  rw [hlexeme] at hunit
  exact (h.trans (Cursor.reaches_skipIgnored cursor)).trans hunit

/-- Errors are at boundaries, if the calls that are open are. -/
theorem isBoundary_errorAt (h : (Cursor.start text).Reaches cursor)
    (hcalls : ∀ call ∈ calls, IsBoundary text call.pos)
    (hnext : cursor.next calls = (.error e, after)) : IsBoundary text (errorAt e) := by
  fun_induction Cursor.next cursor calls with
  | case1 => cases hnext
  | case2 cursor here hend inner outer =>
    rw [← Except.error.inj (Prod.mk.inj hnext).1]
    exact hcalls _ List.mem_cons_self
  | case3 cursor calls here c cs hhere found at_ hlexeme =>
    rw [← Except.error.inj (Prod.mk.inj hnext).1, errorAt_of_lexeme hlexeme]
    exact isBoundary_skipIgnored h
  | case4 cursor calls here c cs hhere name at_ hlexeme ih =>
    refine ih (reaches_unit h hhere hlexeme) ?_ hnext
    exact List.forall_mem_cons.mpr ⟨isBoundary_skipIgnored h, hcalls⟩
  | case5 => cases hnext
  | case6 => cases hnext
  | case7 cursor here c cs hhere at_ hlexeme inner call parent further ih =>
    have hcall : call = .call inner.name inner.args.reverse := by
      simp [call]
    rw [hcall] at ih
    obtain ⟨-, hparent, hfurther⟩ := List.forall_mem_cons.mp hcalls |>.imp_right
      List.forall_mem_cons.mp
    exact ih (reaches_unit h hhere hlexeme) (List.forall_mem_cons.mpr ⟨hparent, hfurther⟩) hnext
  | case8 => cases hnext
  | case9 cursor here c cs hhere read at_ hlexeme inner outer hoperand ih =>
    obtain ⟨hinner, houter⟩ := List.forall_mem_cons.mp hcalls
    exact ih (reaches_unit h hhere hlexeme) (List.forall_mem_cons.mpr ⟨hinner, houter⟩) hnext
  | case10 =>
    rw [← Except.error.inj (Prod.mk.inj hnext).1]
    exact isBoundary_skipIgnored h

/-- A token takes at least one byte. -/
theorem pos_lt_of_next (hnext : cursor.next = (.ok (some t), after)) : cursor.pos < after.pos := by
  have hreaches := Cursor.reaches_next cursor []
  have hshorter := Cursor.length_next_lt hnext
  rw [hnext] at hreaches
  obtain ⟨taken, hrest, hpos⟩ := hreaches
  cases taken with
  | nil =>
    rw [hrest] at hshorter
    exact absurd hshorter (Nat.lt_irrefl _)
  | cons c cs =>
    have hsize := c.utf8Size_pos
    rw [hpos, byteLength_cons]
    omega

/-- What holds of an answer at an offset: the lexer stands at a boundary then, an error is at one,
and a token takes the lexer further on. -/
structure IsSafe (text : String) (pos : Nat) (answer : Except LexError (Option Token))
    (after : Nat) : Prop where
  stop : IsBoundary text after
  error : ∀ e, answer = .error e → IsBoundary text (errorAt e)
  token : ∀ t, answer = .ok (some t) → pos < after

/-- Every request keeps the cursor in the text. -/
theorem reaches_answer (h : (Cursor.start text).Reaches cursor) (request : Request) :
    (Cursor.start text).Reaches (request.answer text cursor).2 := by
  cases request with
  | next => exact h.trans (Cursor.reaches_next cursor [])
  | iterate =>
    have hnext := Cursor.reaches_next cursor []
    rw [Request.answer, Cursor.nextFused]
    split
    · rename_i e after hread
      rw [hread] at hnext
      exact (h.trans hnext).trans (.past (List.append_nil _).symm)
    · exact h.trans hnext
  | reset => exact .refl _

/-- A text ends where its bytes do. -/
theorem stop_eq_utf8ByteSize (h : (Cursor.start text).Reaches cursor) :
    cursor.stop = text.utf8ByteSize := by
  rw [h.stop_eq, Cursor.stop, ← byteLength_toList]
  exact Nat.zero_add _

/-- A request at bytes has the answer that it has at characters. -/
theorem answer?_eq (h : (Cursor.start text).Reaches cursor) (request : Request) :
    request.answer? text cursor.pos = some (seen (request.answer text cursor)) := by
  cases request with
  | next => exact next?_eq h []
  | iterate =>
    have hnext := h.trans (Cursor.reaches_next cursor [])
    rw [Request.answer?, nextFused?, next?_eq h [], Request.answer, Cursor.nextFused]
    rcases hread : cursor.next with ⟨e | t, after⟩
    · rw [hread] at hnext
      rw [← stop_eq_utf8ByteSize hnext]
      rfl
    · rfl
  | reset => rfl

/-- What one request does. -/
theorem isSafe_answer (h : (Cursor.start text).Reaches cursor) (request : Request) :
    IsSafe text cursor.pos (request.answer text cursor).1 (request.answer text cursor).2.pos := by
  refine ⟨isBoundary_pos (reaches_answer h request), fun e herror => ?_, fun t htoken => ?_⟩
  · have hnext {after : Cursor} (hread : cursor.next = (.error e, after)) :
        IsBoundary text (errorAt e) := isBoundary_errorAt h (List.forall_mem_nil _) hread
    cases request with
    | next => exact hnext (Prod.ext herror rfl)
    | iterate =>
      rw [Request.answer, Cursor.nextFused] at herror
      split at herror
      · rename_i found after hread
        cases herror
        exact hnext hread
      · exact hnext (Prod.ext herror rfl)
    | reset => cases herror
  · cases request with
    | next => exact pos_lt_of_next (Prod.ext htoken rfl)
    | iterate =>
      rw [Request.answer, Cursor.nextFused] at htoken ⊢
      split at htoken
      · cases htoken
      · exact pos_lt_of_next (Prod.ext htoken rfl)
    | reset => cases htoken

/-- Requests one after another, at bytes and at characters. -/
theorem offset?_eq (h : (Cursor.start text).Reaches cursor) (requests : List Request) :
    let last := requests.foldl (fun cursor request => (request.answer text cursor).2) cursor
    offset? text cursor.pos requests = some last.pos ∧ (Cursor.start text).Reaches last := by
  induction requests generalizing cursor with
  | nil => exact ⟨rfl, h⟩
  | cons request more ih =>
    obtain ⟨hoffset, hreaches⟩ := ih (reaches_answer h request)
    refine ⟨?_, hreaches⟩
    rw [offset?, answer?_eq h request]
    exact hoffset

/-- Whatever a lexer has been asked for, it stands at a boundary of the text, and no piece that it
takes is out of range or ends inside a character: the next request has an answer, and that answer
is safe. -/
theorem requests_safe (text : String) (requests : List Request) (request : Request) :
    let cursor := cursorAfter text requests
    let answer := request.answer text cursor
    offset? text 0 requests = some cursor.pos ∧
      request.answer? text cursor.pos = some (answer.1, answer.2.pos) ∧
      cursor.pos ≤ text.utf8ByteSize ∧ IsBoundary text cursor.pos ∧
      IsSafe text cursor.pos answer.1 answer.2.pos := by
  intro cursor answer
  obtain ⟨hoffset, hreaches⟩ := offset?_eq (.refl (Cursor.start text)) requests
  have hboundary : IsBoundary text cursor.pos := isBoundary_pos hreaches
  exact ⟨hoffset, answer?_eq hreaches request, hboundary.le, hboundary,
    isSafe_answer hreaches request⟩

end EventPipeline.Rules.ByteScan
