import EventPipeline.Proofs.Rules.Lexemes
import EventPipeline.Rules.Ruler

/-!
# `EventPipeline.Proofs.Rules.Tokens`: the texts and the token lists

`tokenize` reads a text one token at a time, and `Cursor.next` reads one token while the calls
that are open wait on a stack for their arguments. The theorems:

* `Cursor.isLexable_of_next`: a token that is read can stand in a rule. What carries the proof is
  that the open calls have names that can be called, and arguments that can stand in a rule.
* `Cursor.next_of_arguments`: the arguments of a call, written in a row in front of its closing
  parenthesis, all end up in the call, whichever calls are open around it.
* `tokenize_eq_iff_isLexable`: the results of `tokenize` are the lists of tokens that can stand in
  a rule, and tokenizing is a left inverse of writing them down.
-/

set_option autoImplicit false

namespace EventPipeline.Rules

/-- The open call is on the way to a call that can stand in a rule. -/
structure OpenCall.IsLexable (call : OpenCall) : Prop where
  name : isCallName call.name.toList = true
  args : ∀ arg ∈ call.args, arg.IsLexable
  operands : ∀ arg ∈ call.args, arg.isOperand = true

namespace OpenCall.IsLexable

variable {call : OpenCall}

/-- A call that has just been opened. -/
theorem opened {name : String} {pos : Nat} (hname : isCallName name.toList = true) :
    OpenCall.IsLexable { name, pos, args := [] } :=
  ⟨hname, List.forall_mem_nil _, List.forall_mem_nil _⟩

/-- One more argument. -/
theorem push (h : call.IsLexable) {t : Token} (ht : t.IsLexable) (hoperand : t.isOperand = true) :
    OpenCall.IsLexable { call with args := t :: call.args } :=
  ⟨h.name, List.forall_mem_cons.mpr ⟨ht, h.args⟩, List.forall_mem_cons.mpr ⟨hoperand, h.operands⟩⟩

/-- The call that is closed. -/
theorem closed (h : call.IsLexable) : (Token.call call.name call.args.reverse).IsLexable := by
  refine .call h.name ?_ ?_
  · intro arg harg
    exact h.args arg (List.mem_reverse.mp harg)
  · intro arg harg
    exact h.operands arg (List.mem_reverse.mp harg)

end OpenCall.IsLexable

namespace Cursor

/-- A token that is read can stand in a rule, if the calls that are open are such. -/
theorem isLexable_of_next {cursor after : Cursor} {calls : List OpenCall} {t : Token}
    (hcalls : ∀ call ∈ calls, call.IsLexable) (h : cursor.next calls = (.ok (some t), after)) :
    t.IsLexable := by
  fun_induction Cursor.next cursor calls with
  | case1 => cases h
  | case2 => cases h
  | case3 => cases h
  | case4 cursor calls here c cs hrest name at_ hlexeme ih =>
    have hname : isCallName name.toList = true := isLexable_of_lexeme hrest hlexeme
    exact ih (List.forall_mem_cons.mpr ⟨.opened hname, hcalls⟩) h
  | case5 =>
    cases h
    exact .rightParen
  | case6 cursor here c cs hrest at_ hlexeme inner =>
    cases h
    exact (hcalls inner List.mem_cons_self).closed
  | case7 cursor here c cs hrest at_ hlexeme inner call parent further ih =>
    obtain ⟨hinner, houter⟩ := List.forall_mem_cons.mp hcalls
    obtain ⟨hparent, hfurther⟩ := List.forall_mem_cons.mp houter
    have hcall : call = .call inner.name inner.args.reverse := by
      simp [call]
    rw [hcall] at ih
    exact ih (List.forall_mem_cons.mpr ⟨hparent.push hinner.closed rfl, hfurther⟩) h
  | case8 cursor here c cs hrest read at_ hlexeme =>
    cases h
    exact isLexable_of_lexeme hrest hlexeme
  | case9 cursor here c cs hrest read at_ hlexeme inner outer hoperand ih =>
    obtain ⟨hinner, houter⟩ := List.forall_mem_cons.mp hcalls
    have hread : read.IsLexable := isLexable_of_lexeme hrest hlexeme
    exact ih (List.forall_mem_cons.mpr ⟨hinner.push hread hoperand, houter⟩) h
  | case10 => cases h

end Cursor

/-- The tokens of a text can stand in a rule. -/
theorem isLexable_of_go {fuel : Nat} {cursor : Cursor} {ts : List Token}
    (h : tokenize.go fuel cursor = .ok ts) : ∀ t ∈ ts, t.IsLexable := by
  induction fuel generalizing cursor ts with
  | zero =>
    cases h
    exact List.forall_mem_nil _
  | succ fuel ih =>
    rw [tokenize.go] at h
    split at h
    · cases h
    · cases h
      exact List.forall_mem_nil _
    · rename_i t after hnext
      cases hrest : tokenize.go fuel after with
      | error e =>
        rw [hrest] at h
        cases h
      | ok rest =>
        rw [hrest] at h
        cases h
        exact List.forall_mem_cons.mpr
          ⟨Cursor.isLexable_of_next (List.forall_mem_nil _) hnext, ih hrest⟩

namespace Cursor

/-! ### One unit more -/

/-- How reading goes on behind a token that is complete: it is the result, or an argument of the
innermost open call. -/
def deliver (after : Cursor) (t : Token) :
    List OpenCall → Except LexError (Option Token) × Cursor
  | [] => (.ok (some t), after)
  | inner :: outer => after.next ({ inner with args := t :: inner.args } :: outer)

/-- How reading goes on behind a unit that starts at `start`. -/
def proceed (start : Nat) (after : Cursor) :
    Lexeme → List OpenCall → Except LexError (Option Token) × Cursor
  | .callOpen name, calls => after.next ({ name, pos := start, args := [] } :: calls)
  | .close, [] => after.deliver .rightParen []
  | .close, inner :: outer => after.deliver (.call inner.name inner.args.reverse) outer
  | .token t, [] => after.deliver t []
  | .token t, inner :: outer =>
    if t.isOperand then after.deliver t (inner :: outer)
    else (.error (.invalidCallArgument inner.name start), after)

/-- Reading a token is reading a unit and going on behind it. -/
theorem next_of_lexeme {cursor after : Cursor} {c : Char} {cs : List Char} {l : Lexeme}
    (calls : List OpenCall) (hrest : cursor.skipIgnored.rest = c :: cs)
    (hlexeme : cursor.skipIgnored.lexeme c cs = (.ok l, after)) :
    cursor.next calls = after.proceed cursor.skipIgnored.pos l calls := by
  rw [next.eq_def]
  dsimp only
  split
  · rename_i hnil
    rw [hrest] at hnil
    cases hnil
  · rename_i hcons
    rw [hrest] at hcons
    cases hcons
    split <;> rename_i hlex
    all_goals
      rw [hlexeme] at hlex
      cases hlex
    · rfl
    · cases calls with
      | nil => rfl
      | cons inner outer => cases outer <;> rfl
    · cases calls <;> rfl

variable {cursor : Cursor} {cs tail : List Char}

/-- Where a unit stands there is nothing to skip. -/
theorem next_of_reads {l : Lexeme} (calls : List OpenCall) (hrest : cursor.rest = cs ++ tail)
    (hreads : cursor.Reads cs tail l) :
    cursor.next calls = (cursor.past cs tail).proceed cursor.pos l calls := by
  obtain ⟨c, more, rfl, hignored, hlexeme⟩ := hreads
  have hskip : cursor.skipIgnored = cursor := by
    rw [skipIgnored, hrest, List.cons_append, spanIgnored, hignored]
    show cursor.past [] (c :: more ++ tail) = cursor
    rw [← hrest]
    rfl
  rw [← hskip] at hrest hlexeme
  rw [next_of_lexeme calls hrest hlexeme, hskip]

/-- Two ways that are gone one after the other. -/
theorem past_past (cursor : Cursor) (cs ds mid tail : List Char) :
    (cursor.past cs mid).past ds tail = cursor.past (cs ++ ds) tail := by
  simp only [past, Text.byteLength, List.map_append, List.sum_append, Nat.add_assoc]

/-- A space is skipped. -/
theorem next_of_space (calls : List OpenCall) (hrest : cursor.rest = ' ' :: tail) :
    cursor.next calls = (cursor.past [' '] tail).next calls := by
  have hskip : (cursor.past [' '] tail).skipIgnored = cursor.skipIgnored := by
    rw [skipIgnored, skipIgnored, hrest, spanIgnored]
    exact past_past ..
  rw [next.eq_def, next.eq_def (cursor.past [' '] tail), hskip]

end Cursor

/-! ### One token more -/

/-- At the characters the token is read, inside the calls that are open. -/
def Delivers (t : Token) (cs : List Char) (calls : List OpenCall) : Prop :=
  ∀ (cursor : Cursor) (tail : List Char), Stops tail → cursor.rest = cs ++ tail →
    ∃ after : Cursor, after.rest = tail ∧ cursor.next calls = after.deliver t calls

/-- What is read up to the closing parenthesis of a call are its arguments. -/
def ReadsArguments (args : List Token) (inside : List Char) : Prop :=
  ∀ (cursor : Cursor) (tail : List Char) (inner : OpenCall) (outer : List OpenCall),
    cursor.rest = inside ++ ')' :: tail →
    ∃ here : Cursor, here.rest = ')' :: tail ∧
      cursor.next (inner :: outer) =
        here.next ({ inner with args := args.reverse ++ inner.args } :: outer)

theorem Stops.spaced {tail : List Char} (h : Stops tail) (ts : List Token) (rest : List Char) :
    Stops (spaced ts rest ++ tail) := by
  cases ts with
  | nil => exact h
  | cons t ts => exact stops_space _

/-- A token that is no call is read where it is written. -/
theorem delivers_of_spelling {t : Token} {cs : List Char} {calls : List OpenCall}
    (ht : t.IsLexable) (hspell : t.Spelling cs) (hoperand : calls ≠ [] → t.isOperand = true) :
    Delivers t cs calls := by
  intro cursor tail hstop hrest
  refine ⟨cursor.past cs tail, rfl, ?_⟩
  rw [cursor.next_of_reads calls hrest (cursor.reads_of_spelling ht hspell hstop hrest)]
  cases calls with
  | nil => cases t <;> rfl
  | cons inner outer =>
    have hop := hoperand (List.cons_ne_nil _ _)
    have hlexeme : t.lexeme = .token t := by
      cases t with
      | rightParen => cases hop
      | _ => rfl
    rw [hlexeme, Cursor.proceed, if_pos hop]

/-- A call is read where its arguments are. -/
theorem delivers_call {name : String} {args : List Token} {inside : List Char}
    (hname : isCallName name.toList = true) (hargs : ReadsArguments args inside)
    (calls : List OpenCall) :
    Delivers (.call name args) (name.toList ++ '(' :: inside ++ [')']) calls := by
  intro cursor tail _ hrest
  have hopen : cursor.rest = (name.toList ++ ['(']) ++ (inside ++ ')' :: tail) := by
    rw [hrest]
    simp only [List.append_assoc, List.cons_append, List.nil_append]
  obtain ⟨here, hhere, hnext⟩ := hargs (cursor.past (name.toList ++ ['(']) (inside ++ ')' :: tail))
    tail { name, pos := cursor.pos, args := [] } calls rfl
  have hclose : here.Reads [')'] tail .close := ⟨')', [], rfl, rfl, rfl⟩
  refine ⟨here.past [')'] tail, rfl, ?_⟩
  rw [cursor.next_of_reads calls hopen (cursor.reads_callOpen hname), Cursor.proceed, hnext,
    here.next_of_reads _ hhere hclose, Cursor.proceed, List.append_nil, List.reverse_reverse]

/-- An argument, and the others behind it. -/
theorem ReadsArguments.cons {t : Token} {ts : List Token} {cs rest : List Char}
    (ht : ∀ inner outer, Delivers t cs (inner :: outer)) (hts : ReadsArguments ts rest) :
    ReadsArguments (t :: ts) (cs ++ spaced ts rest) := by
  intro cursor tail inner outer hrest
  rw [List.append_assoc] at hrest
  obtain ⟨after, hafter, hnext⟩ :=
    ht inner outer cursor _ ((stops_paren tail).spaced ts rest) hrest
  rw [hnext, Cursor.deliver]
  cases ts with
  | nil => exact ⟨after, hafter, rfl⟩
  | cons u ts =>
    -- the space in front of the other arguments
    have hspace : after.rest = ' ' :: (rest ++ ')' :: tail) := hafter
    rw [after.next_of_space _ hspace]
    obtain ⟨here, hhere, hothers⟩ := hts (after.past [' '] (rest ++ ')' :: tail)) tail
      { inner with args := t :: inner.args } outer rfl
    refine ⟨here, hhere, ?_⟩
    rw [hothers, List.reverse_cons (a := t), List.append_assoc, List.singleton_append]

/-- Arguments that are written in a row are read in a row. -/
theorem readsArguments_of_spelling {ts : List Token} {cs : List Char} (hspell : Spelling ts cs)
    (hlex : ∀ t ∈ ts, t.IsLexable) (hop : ∀ t ∈ ts, t.isOperand = true) :
    ReadsArguments ts cs := by
  induction hspell with
  | nil =>
    intro cursor tail inner outer hrest
    exact ⟨cursor, hrest, rfl⟩
  | cons ht _ ih =>
    obtain ⟨hlext, hlexts⟩ := List.forall_mem_cons.mp hlex
    obtain ⟨hopt, hopts⟩ := List.forall_mem_cons.mp hop
    exact .cons (fun _ _ => delivers_of_spelling hlext ht fun _ => hopt) (ih hlexts hopts)
  | call _ _ ihargs ih =>
    obtain ⟨hlext, hlexts⟩ := List.forall_mem_cons.mp hlex
    obtain ⟨-, hopts⟩ := List.forall_mem_cons.mp hop
    cases hlext with
    | call hname hlexargs hopargs =>
      exact .cons (fun _ _ => delivers_call hname (ihargs hlexargs hopargs) _) (ih hlexts hopts)

/-! ### A whole text -/

/-- The characters are a text that has the tokens. -/
def ReadsAll (ts : List Token) (cs : List Char) : Prop :=
  ∀ (cursor : Cursor) (fuel : Nat), cursor.rest = cs → cs.length < fuel →
    tokenize.go fuel cursor = .ok ts

theorem readsAll_nil : ReadsAll [] [] := by
  intro cursor fuel hrest hfuel
  obtain ⟨fuel, rfl⟩ := Nat.exists_eq_succ_of_ne_zero (Nat.ne_of_gt hfuel)
  have hnext : cursor.next = (.ok none, cursor.skipIgnored) := by
    have hskip : cursor.skipIgnored.rest = [] := by
      rw [Cursor.skipIgnored, hrest]
      rfl
    rw [Cursor.next.eq_def]
    dsimp only
    split
    · rfl
    · rename_i hcons
      rw [hskip] at hcons
      cases hcons
  rw [tokenize.go, hnext]

/-- A space in front of a text. -/
theorem ReadsAll.space {ts : List Token} {cs : List Char} (h : ReadsAll ts cs) :
    ReadsAll ts (' ' :: cs) := by
  intro cursor fuel hrest hfuel
  rw [List.length_cons] at hfuel
  obtain ⟨fuel, rfl⟩ := Nat.exists_eq_succ_of_ne_zero (Nat.ne_of_gt (Nat.zero_lt_of_lt hfuel))
  have hcs := h (cursor.past [' '] cs) (fuel + 1) rfl (by omega)
  rw [tokenize.go] at hcs ⊢
  rw [cursor.next_of_space _ hrest]
  exact hcs

/-- A token, and the others behind it. -/
theorem ReadsAll.cons {t : Token} {ts : List Token} {cs rest : List Char} (ht : Delivers t cs [])
    (hcs : cs ≠ []) (hts : ReadsAll ts rest) : ReadsAll (t :: ts) (cs ++ spaced ts rest) := by
  have hspaced : ReadsAll ts (spaced ts rest) := by
    cases ts with
    | nil => exact readsAll_nil
    | cons u ts => exact hts.space
  intro cursor fuel hrest hfuel
  obtain ⟨fuel, rfl⟩ := Nat.exists_eq_succ_of_ne_zero (Nat.ne_of_gt (Nat.zero_lt_of_lt hfuel))
  obtain ⟨after, hafter, hnext⟩ := ht cursor (spaced ts rest)
    (by simpa using stops_nil.spaced ts rest) hrest
  have hlength := List.length_pos_iff.mpr hcs
  rw [List.length_append] at hfuel
  rw [tokenize.go, hnext]
  show (tokenize.go fuel after).map (t :: ·) = .ok (t :: ts)
  rw [hspaced after fuel hafter (by omega)]
  rfl

theorem ne_nil_of_spelling {t : Token} {cs : List Char} (ht : t.IsLexable)
    (hspell : t.Spelling cs) : cs ≠ [] := by
  obtain ⟨c, more, rfl, -, -⟩ :=
    Cursor.reads_of_spelling { rest := cs ++ [], pos := 0 } ht hspell stops_nil rfl
  exact List.cons_ne_nil c more

/-- Tokens that are written in a row are read in a row. -/
theorem readsAll_of_spelling {ts : List Token} {cs : List Char} (hspell : Spelling ts cs)
    (hlex : ∀ t ∈ ts, t.IsLexable) : ReadsAll ts cs := by
  induction hspell with
  | nil => exact readsAll_nil
  | cons ht _ ih =>
    obtain ⟨hlext, hlexts⟩ := List.forall_mem_cons.mp hlex
    exact .cons (delivers_of_spelling hlext ht fun h => absurd rfl h) (ne_nil_of_spelling hlext ht)
      (ih hlexts)
  | call hargs _ _ ih =>
    obtain ⟨hlext, hlexts⟩ := List.forall_mem_cons.mp hlex
    cases hlext with
    | call hname hlexargs hopargs =>
      have hinside := readsArguments_of_spelling hargs hlexargs hopargs
      exact .cons (delivers_call hname hinside []) (by simp) (ih hlexts)

/-! ### Writing tokens down -/

/-- The token can be written in front of whatever is written. -/
def Writable (t : Token) : Prop :=
  ∀ {ts : List Token} {rest : List Char}, Spelling ts rest → ∃ cs, Spelling (t :: ts) cs

theorem exists_spelling_of_writable {ts : List Token} (h : ∀ t ∈ ts, Writable t) :
    ∃ cs, Spelling ts cs := by
  induction ts with
  | nil => exact ⟨[], .nil⟩
  | cons t ts ih =>
    obtain ⟨ht, hts⟩ := List.forall_mem_cons.mp h
    obtain ⟨rest, hrest⟩ := ih hts
    exact ht hrest

/-- Whatever can stand in a rule can be written down. -/
theorem Token.IsLexable.writable {t : Token} (ht : t.IsLexable) : Writable t := by
  intro ts rest hts
  induction ht generalizing ts rest with
  | integer => exact ⟨_, .cons (.integer _) hts⟩
  | float hwhole hfraction => exact ⟨_, .cons (.float _ _ hwhole hfraction) hts⟩
  | @str s hquote =>
    obtain hfree | hfree := hquote
    · exact ⟨_, .cons (.str s '"' (.inl rfl) hfree) hts⟩
    · exact ⟨_, .cons (.str s '\'' (.inr rfl) hfree) hts⟩
  | bool => exact ⟨_, .cons (.bool _) hts⟩
  | identifier => exact ⟨_, .cons (.identifier _) hts⟩
  | call _ _ _ ih =>
    obtain ⟨inside, hinside⟩ := exists_spelling_of_writable fun arg harg => ih arg harg
    exact ⟨_, .call hinside hts⟩
  | operator => exact ⟨_, .cons (.operator _) hts⟩
  | leftParen => exact ⟨_, .cons .leftParen hts⟩
  | rightParen => exact ⟨_, .cons .rightParen hts⟩

/-- The token lists that `tokenize` gives are those of tokens that can stand in a rule. There is
a text for each of them, and whichever way it is written down, it is read as what it was. -/
theorem tokenize_eq_iff_isLexable (ts : List Token) :
    ((∃ text, tokenize text = .ok ts) ↔ ∀ t ∈ ts, t.IsLexable) ∧
      ((∀ t ∈ ts, t.IsLexable) → (∃ text : String, Spelling ts text.toList) ∧
        ∀ text : String, Spelling ts text.toList → tokenize text = .ok ts) := by
  have hspelling : (∀ t ∈ ts, t.IsLexable) → ∃ text : String, Spelling ts text.toList := by
    intro hlex
    obtain ⟨cs, hspell⟩ := exists_spelling_of_writable fun t ht => (hlex t ht).writable
    exact ⟨String.ofList cs, by rwa [String.toList_ofList]⟩
  have hread : (∀ t ∈ ts, t.IsLexable) →
      ∀ text : String, Spelling ts text.toList → tokenize text = .ok ts := by
    intro hlex text hspell
    exact readsAll_of_spelling hspell hlex (Cursor.start text) _ rfl (Nat.lt_succ_self _)
  refine ⟨⟨?_, ?_⟩, ?_⟩
  · rintro ⟨text, htext⟩
    exact isLexable_of_go htext
  · intro hlex
    obtain ⟨text, hspell⟩ := hspelling hlex
    exact ⟨text, hread hlex text hspell⟩
  · intro hlex
    exact ⟨hspelling hlex, hread hlex⟩

/-- A call in a call, an operator in front of another one, and a dotted name. -/
theorem tokenize_nested :
    tokenize "f(g('a' x) 1) && ! x.y" = .ok
      [.call "f" [.call "g" [.str "a", .identifier "x"], .integer 1], .operator .and,
        .operator .not, .identifier "x.y"] := by
  have hx : (Token.identifier "x").IsLexable :=
    .identifier ⟨['x'], [], ⟨rfl, List.forall_mem_nil _⟩, List.forall_mem_nil _, rfl⟩ (by decide)
      (by decide)
  have hxy : (Token.identifier "x.y").IsLexable :=
    .identifier ⟨['x'], [['y']], ⟨rfl, List.forall_mem_nil _⟩,
      List.forall_mem_singleton.mpr ⟨rfl, List.forall_mem_nil _⟩, rfl⟩ (by decide) (by decide)
  have ha : (Token.str "a").IsLexable := .str (.inl (by decide))
  have hone : (Token.integer 1).IsLexable := .integer (by decide)
  have hg : (Token.call "g" [.str "a", .identifier "x"]).IsLexable :=
    .call rfl (by simp [ha, hx]) (by simp [Token.isOperand])
  have hf : (Token.call "f" [.call "g" [.str "a", .identifier "x"], .integer 1]).IsLexable :=
    .call rfl (by simp [hg, hone]) (by simp [Token.isOperand])
  have hlex : ∀ t ∈ [Token.call "f" [.call "g" [.str "a", .identifier "x"], .integer 1],
      .operator .and, .operator .not, .identifier "x.y"], t.IsLexable := by
    have hand : (Token.operator .and).IsLexable := .operator (by decide)
    have hnot : (Token.operator .not).IsLexable := .operator (by decide)
    simp [hf, hand, hnot, hxy]
  refine ((tokenize_eq_iff_isLexable _).2 hlex).2 _ ?_
  have hinner : Spelling [.str "a", .identifier "x"] "'a' x".toList :=
    .cons (.str "a" '\'' (.inr rfl) (by decide)) (.cons (.identifier "x") .nil)
  have hargs : Spelling [.call "g" [.str "a", .identifier "x"], .integer 1] "g('a' x) 1".toList :=
    .call hinner (.cons (.integer 1) .nil)
  exact .call hargs
    (.cons (.operator .and) (.cons (.operator .not) (.cons (.identifier "x.y") .nil)))

end EventPipeline.Rules
