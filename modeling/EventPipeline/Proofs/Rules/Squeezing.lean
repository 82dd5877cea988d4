import EventPipeline.Proofs.Rules.Positions
import EventPipeline.Proofs.Text.Words
import Mathlib.Data.List.Forall2

/-!
# `EventPipeline.Proofs.Rules.Squeezing`: rule text with less white space

White space separates tokens, and how much of it there is matters in string literals only. Take a
text of one line and make every stretch of white space in it one space. `tokenize_squeeze`: its
tokens are those of the text itself, with their string literals squeezed in the same way.

The line must not break because a comment runs to the end of its line: without the line break
what follows the comment would belong to it.
-/

set_option autoImplicit false

namespace EventPipeline.Rules

open Text (isBlank isBlank_eq_false_of_visible squeeze squeeze_cons)

/-! ### White space and the characters of tokens -/

theorem isBlank_eq_false_of_isAlpha {c : Char} (h : c.isAlpha = true) : isBlank c = false := by
  obtain hupper | hlower := toNat_of_isAlpha h
  · exact isBlank_eq_false_of_visible (by omega) (by omega)
  · exact isBlank_eq_false_of_visible (by omega) (by omega)

theorem isBlank_eq_false_of_isDigit {c : Char} (h : c.isDigit = true) : isBlank c = false := by
  have hrange : 48 ≤ c.toNat ∧ c.toNat ≤ 57 := Char.isDigit_iff_toNat.mp h
  exact isBlank_eq_false_of_visible (by omega) (by omega)

theorem isBlank_eq_false_of_isNameStart {c : Char} (h : isNameStart c = true) :
    isBlank c = false := by
  simp only [isNameStart, Bool.or_eq_true, beq_iff_eq] at h
  obtain (halpha | rfl) | rfl := h
  · exact isBlank_eq_false_of_isAlpha halpha
  · rfl
  · rfl

theorem isBlank_eq_false_of_isNameChar {c : Char} (h : isNameChar c = true) :
    isBlank c = false := by
  simp only [isNameChar, Char.isAlphanum, Bool.or_eq_true, beq_iff_eq] at h
  obtain ((halpha | hdigit) | rfl) | rfl := h
  · exact isBlank_eq_false_of_isAlpha halpha
  · exact isBlank_eq_false_of_isDigit hdigit
  · rfl
  · rfl

theorem isBlank_eq_false_of_operatorAt? {c : Char} {cs : List Char} {op : Op} {width : Nat}
    (h : operatorAt? (c :: cs) = some (op, width)) : isBlank c = false := by
  unfold operatorAt? at h
  split at h <;> rename_i heq <;> first | (cases heq; rfl) | cases h

/-- A unit does not start with white space. -/
theorem Cursor.isBlank_eq_false_of_lexeme {cursor after : Cursor} {c : Char} {cs : List Char}
    {l : Lexeme} (h : cursor.lexeme c cs = (.ok l, after)) : isBlank c = false := by
  obtain ⟨scan, hscan, hlexeme⟩ := exists_scanner c
  rw [hlexeme] at h
  cases hscan with
  | leftParen hc =>
    rw [hc]
    rfl
  | close hc =>
    rw [hc]
    rfl
  | string hquote =>
    obtain rfl | rfl := hquote
    · rfl
    · rfl
  | number hdigit => exact isBlank_eq_false_of_isDigit hdigit
  | word hstart => exact isBlank_eq_false_of_isNameStart hstart
  | operator =>
    obtain ⟨op, width, hop, -⟩ := exists_of_operator_eq_ok h
    exact isBlank_eq_false_of_operatorAt? hop

/-- A scanner that stops at white space stops at all of it. -/
theorem stops_of_visible {p : Char → Bool} (h : ∀ c, p c = true → isBlank c = false) (c : Char)
    (hc : isBlank c = true) : p c = false := by
  rw [← Bool.not_eq_true]
  intro hp
  rw [h c hp] at hc
  cases hc

/-- Such a scanner takes the same characters from a squeezed text, and leaves it squeezed. -/
theorem span_squeeze {p : Char → Bool} (h : ∀ c, p c = true → isBlank c = false)
    (cs : List Char) :
    (squeeze cs).takeWhile p = cs.takeWhile p ∧
      (squeeze cs).dropWhile p = squeeze (cs.dropWhile p) := by
  have hstops := stops_of_visible h
  constructor
  · exact Text.takeWhile_squeeze_of_stop hstops cs
  · refine Text.dropWhile_squeeze (fun c hc => ?_) cs
    rw [hstops c hc, hstops ' ' rfl]

/-- A character that is no white space stands in the text where it stands in the squeezed one. -/
theorem exists_of_squeeze_eq_cons {c : Char} {cs ds : List Char} (h : squeeze cs = c :: ds)
    (hc : isBlank c = false) : ∃ es, cs = c :: es ∧ ds = squeeze es := by
  have hhead := Text.head?_squeeze cs
  cases cs with
  | nil => cases h
  | cons d es =>
    cases hd : isBlank d with
    | false =>
      rw [squeeze_cons hd] at h
      cases h
      exact ⟨es, rfl, rfl⟩
    | true =>
      rw [h] at hhead
      have hspace : c = ' ' := by simpa [hd] using hhead
      rw [hspace] at hc
      cases hc

/-! ### Tokens -/

mutual

/-- The token with its string literals squeezed. -/
def Token.squeeze : Token → Token
  | .str s => .str (String.ofList (Text.squeeze s.toList))
  | .call name args => .call name (Token.squeezeAll args)
  | t => t

/-- The tokens with their string literals squeezed. -/
def Token.squeezeAll : List Token → List Token
  | [] => []
  | t :: ts => t.squeeze :: Token.squeezeAll ts

end

theorem Token.squeezeAll_eq_map (ts : List Token) :
    Token.squeezeAll ts = ts.map Token.squeeze := by
  induction ts with
  | nil => rfl
  | cons t ts ih => rw [squeezeAll, ih, List.map_cons]

@[simp] theorem Token.isOperand_squeeze (t : Token) : t.squeeze.isOperand = t.isOperand := by
  cases t <;> rfl

/-- Names have no string literals. -/
theorem Token.squeeze_ofName (name : String) : (Token.ofName name).squeeze = .ofName name := by
  unfold Token.ofName
  split
  · rfl
  · split
    · rfl
    · rfl

/-- The unit with the string literals of its token squeezed. -/
def Lexeme.squeeze : Lexeme → Lexeme
  | .token t => .token t.squeeze
  | .callOpen name => .callOpen name
  | .close => .close

/-! ### Units -/

theorem mem_squeeze_of_ne {c : Char} {cs : List Char} (hc : c ≠ ' ') (h : c ∉ cs) :
    c ∉ squeeze cs := fun hmem => (Text.mem_of_mem_squeeze hmem).elim hc h

/-- A comment without a line break runs to the end of the text. -/
theorem spanIgnored_comment {cs : List Char} (h : '\n' ∉ cs) : (spanIgnored true cs).2 = [] := by
  induction cs with
  | nil => rfl
  | cons c cs ih =>
    have hgo : (c != '\n') = true := by simpa using Ne.symm (List.ne_of_not_mem_cons h)
    rw [spanIgnored, if_pos rfl, hgo]
    exact ih (List.not_mem_of_not_mem_cons h)

/-- The same is ignored in a squeezed text, if what comes then is no white space. -/
theorem spanIgnored_squeeze {cs : List Char} (hline : '\n' ∉ cs)
    (hstop : ∀ c ∈ (spanIgnored false cs).2.head?, isBlank c = false) :
    (spanIgnored false (squeeze cs)).2 = squeeze (spanIgnored false cs).2 := by
  induction cs with
  | nil => rfl
  | cons c cs ih =>
    have hcs := List.not_mem_of_not_mem_cons hline
    cases hignored : isSeparator c || c == '#' with
    | false =>
      have hstay (ds : List Char) : spanIgnored false (c :: ds) = ([], c :: ds) := by
        simp [spanIgnored, hignored]
      rw [hstay] at hstop ⊢
      rw [squeeze_cons (hstop c rfl), hstay]
    | true =>
      have hskip (ds : List Char) :
          (spanIgnored false (c :: ds)).2 = (spanIgnored (c == '#') ds).2 := by
        simp [spanIgnored, hignored]
      cases hcomment : c == '#' with
      | true =>
        obtain rfl := beq_iff_eq.mp hcomment
        rw [squeeze_cons rfl, hskip, hskip, beq_self_eq_true, spanIgnored_comment hcs,
          spanIgnored_comment (mem_squeeze_of_ne (by decide) hcs)]
        rfl
      | false =>
        rw [hskip, hcomment] at hstop ⊢
        cases hblank : isBlank c with
        | false => rw [squeeze_cons hblank, hskip, hcomment, ih hcs hstop]
        | true =>
          rw [Text.squeeze_blank_cons hblank]
          split
          · exact ih hcs hstop
          · rw [← ih hcs hstop]
            simp [spanIgnored, isSeparator]

/-- A squeezed text has the same further segments of a name. -/
theorem spanSegments_squeeze (cs : List Char) :
    spanSegments (squeeze cs) = ((spanSegments cs).1, squeeze (spanSegments cs).2) := by
  -- where the text has no further segment, the squeezed text has none
  have hnone : ∀ cs : List Char, (∀ c rest, cs = '.' :: c :: rest → isNameStart c = false) →
      spanSegments (squeeze cs) = ([], squeeze cs) := by
    intro cs h
    refine spanSegments_eq_nil fun c rest hcs => ?_
    obtain ⟨ds, rfl, hds⟩ := exists_of_squeeze_eq_cons hcs rfl
    rw [← Bool.not_eq_true]
    intro hstart
    obtain ⟨es, rfl, -⟩ :=
      exists_of_squeeze_eq_cons hds.symm (isBlank_eq_false_of_isNameStart hstart)
    rw [h c es rfl] at hstart
    cases hstart
  fun_induction spanSegments cs with
  | case1 c rest hstart more ih =>
    obtain ⟨htake, hdrop⟩ := span_squeeze (fun _ => isBlank_eq_false_of_isNameChar) rest
    rw [squeeze_cons rfl, squeeze_cons (isBlank_eq_false_of_isNameStart hstart), spanSegments,
      if_pos hstart, htake, hdrop, ih]
  | case2 c rest hstart =>
    refine hnone _ fun d ds heq => ?_
    cases heq
    simpa using hstart
  | case3 cs hother =>
    exact hnone cs fun d ds heq => (hother d ds heq).elim

/-- A squeezed text starts with the same operator. -/
theorem operatorAt?_squeeze {cs : List Char} {op : Op} {width : Nat}
    (h : operatorAt? cs = some (op, width)) :
    operatorAt? (squeeze cs) = some (op, width) ∧
      (squeeze cs).drop width = squeeze (cs.drop width) := by
  have hassign {cs : List Char} (h : ∀ more, cs = '=' :: more → False) (more : List Char)
      (heq : squeeze cs = '=' :: more) : False := by
    obtain ⟨es, hes, -⟩ := exists_of_squeeze_eq_cons heq rfl
    exact h es hes
  unfold operatorAt? at h
  split at h <;> cases h
  -- all characters of an operator are visible, and so is the one that would make it a longer one
  case h_2.refl hnext => exact ⟨operatorAt?.eq_2 _ (hassign hnext), rfl⟩
  case h_4.refl hnext => exact ⟨operatorAt?.eq_4 _ (hassign hnext), rfl⟩
  case h_6.refl hnext => exact ⟨operatorAt?.eq_6 _ (hassign hnext), rfl⟩
  case h_8.refl hnext => exact ⟨operatorAt?.eq_8 _ (hassign hnext), rfl⟩
  all_goals exact ⟨rfl, rfl⟩

section

variable {cursor cursor' after : Cursor} {c : Char} {cs : List Char} {l : Lexeme}

/-- A number is read from a squeezed text as it is from the text. -/
theorem Cursor.number_squeeze (hrest : cursor'.rest = squeeze cursor.rest)
    (h : cursor.number = (.ok l, after)) :
    ∃ after', cursor'.number = (.ok l.squeeze, after') ∧ after'.rest = squeeze after.rest := by
  obtain ⟨htake, hdrop⟩ := span_squeeze (fun _ => isBlank_eq_false_of_isDigit) cursor.rest
  rw [← hrest] at htake hdrop
  obtain ⟨d, more, hpoint, hd⟩ | hno := fraction_cases cursor.rest
  · obtain ⟨htake', hdrop'⟩ := span_squeeze (fun _ => isBlank_eq_false_of_isDigit) (d :: more)
    have hblank := isBlank_eq_false_of_isDigit hd
    rw [squeeze_cons hblank] at htake' hdrop'
    rw [number_of_fraction hpoint hd] at h
    cases h
    rw [hpoint, squeeze_cons rfl, squeeze_cons hblank] at hdrop
    rw [number_of_fraction hdrop hd, htake, htake']
    exact ⟨_, rfl, hdrop'⟩
  · -- a point and a digit are visible: if they stand in the squeezed text, they stand in the text
    have hno' : ∀ d more, cursor'.rest.dropWhile Char.isDigit = '.' :: d :: more →
        d.isDigit = false := by
      intro d more hpoint
      rw [hdrop] at hpoint
      obtain ⟨es, hes, hmore⟩ := exists_of_squeeze_eq_cons hpoint rfl
      rw [← Bool.not_eq_true]
      intro hd
      obtain ⟨fs, rfl, -⟩ :=
        exists_of_squeeze_eq_cons hmore.symm (isBlank_eq_false_of_isDigit hd)
      rw [hno d fs hes] at hd
      cases hd
    rw [number_of_integer hno] at h
    rw [number_of_integer hno', htake]
    split at h
    · rename_i hle
      cases h
      rw [if_pos hle]
      exact ⟨_, rfl, hdrop⟩
    · cases h

/-- A string literal is squeezed with its text. -/
theorem Cursor.string_squeeze (hquote : isBlank c = false)
    (h : cursor.string c cs = (.ok l, after)) :
    ∃ after', cursor'.string c (squeeze cs) = (.ok l.squeeze, after') ∧
      after'.rest = squeeze after.rest := by
  have hblank (d : Char) (hd : isBlank d = true) : (d != c) = true := by
    rw [bne_iff_ne]
    rintro rfl
    rw [hd] at hquote
    cases hquote
  unfold string at h ⊢
  dsimp only at h ⊢
  rw [Text.takeWhile_squeeze hblank, Text.dropWhile_squeeze fun d hd => by
    rw [hblank d hd, hblank ' ' rfl]]
  split at h
  · cases h
  · rename_i close rest hclose
    cases h
    have hstop := List.head?_dropWhile_not (· != c) cs
    rw [hclose] at hstop
    obtain rfl : close = c := by simpa using hstop
    rw [hclose, squeeze_cons hquote]
    refine ⟨cursor'.past (close :: squeeze (cs.takeWhile (· != close)) ++ [close]) (squeeze rest),
      ?_, rfl⟩
    simp [Lexeme.squeeze, Token.squeeze]

/-- A name is read from a squeezed text as it is from the text. -/
theorem Cursor.word_squeeze (h : cursor.word c cs = (.ok l, after)) :
    ∃ after', cursor'.word c (squeeze cs) = (.ok l.squeeze, after') ∧
      after'.rest = squeeze after.rest := by
  obtain ⟨htake, hdrop⟩ := span_squeeze (fun _ => isBlank_eq_false_of_isNameChar) cs
  have hword := cursor'.word_eq c (squeeze cs)
  rw [htake, hdrop, spanSegments_squeeze] at hword
  obtain ⟨inner, hinner, hname, hread⟩ | ⟨hname, hread⟩ := cursor.word_eq c cs
  · rw [hread] at h
    cases h
    obtain ⟨inner', hinner', -, hread'⟩ | ⟨hname', -⟩ := hword
    · rw [hinner, squeeze_cons rfl] at hinner'
      cases hinner'
      exact ⟨_, hread', rfl⟩
    · rw [hname' (squeeze inner) (by rw [hinner, squeeze_cons rfl])] at hname
      cases hname
  · rw [hread] at h
    cases h
    obtain ⟨inner', hinner', hname', -⟩ | ⟨-, hread'⟩ := hword
    · obtain ⟨inner, hinner, -⟩ := exists_of_squeeze_eq_cons hinner' rfl
      rw [hname inner hinner] at hname'
      cases hname'
    · rw [Lexeme.squeeze, Token.squeeze_ofName]
      exact ⟨_, hread', rfl⟩

/-- A unit is read from a squeezed text as it is from the text, with its string literal
squeezed. -/
theorem Cursor.lexeme_squeeze (hrest : cursor.rest = c :: cs)
    (hrest' : cursor'.rest = squeeze (c :: cs)) (h : cursor.lexeme c cs = (.ok l, after)) :
    ∃ after', cursor'.lexeme c (squeeze cs) = (.ok l.squeeze, after') ∧
      after'.rest = squeeze after.rest := by
  have hblank := isBlank_eq_false_of_lexeme h
  obtain ⟨scan, hscan, hlexeme⟩ := exists_scanner c
  rw [hlexeme] at h ⊢
  cases hscan with
  | leftParen =>
    cases h
    exact ⟨_, rfl, rfl⟩
  | close =>
    cases h
    exact ⟨_, rfl, rfl⟩
  | string => exact string_squeeze hblank h
  | number => exact number_squeeze (hrest ▸ hrest') h
  | word => exact word_squeeze h
  | operator =>
    obtain ⟨op, width, hop, rfl, rfl⟩ := exists_of_operator_eq_ok h
    obtain ⟨hop', hdrop⟩ := operatorAt?_squeeze hop
    rw [squeeze_cons hblank] at hop' hdrop
    exact ⟨_, operator_of_some hop', hdrop⟩

end

/-! ### Tokens of a squeezed text -/

/-- The other call is the same, with the string literals in its arguments squeezed. -/
structure OpenCall.Squeezes (call other : OpenCall) : Prop where
  name : other.name = call.name
  args : other.args = call.args.map Token.squeeze

namespace OpenCall.Squeezes

variable {call other : OpenCall}

/-- One more argument. -/
theorem push (h : call.Squeezes other) (t : Token) :
    OpenCall.Squeezes { call with args := t :: call.args }
      { other with args := t.squeeze :: other.args } :=
  ⟨h.name, congrArg (t.squeeze :: ·) h.args⟩

/-- The call that is closed. -/
theorem closed (h : call.Squeezes other) :
    Token.call other.name other.args.reverse =
      (Token.call call.name call.args.reverse).squeeze := by
  rw [h.name, h.args, Token.squeeze, Token.squeezeAll_eq_map, List.map_reverse]

end OpenCall.Squeezes

namespace Cursor

/-- Reading in a squeezed text goes on behind the same unit. -/
theorem exists_proceed_squeeze {cursor cursor' at_ : Cursor} {c : Char} {cs : List Char}
    {l : Lexeme} (hline : '\n' ∉ cursor.rest) (hrest : cursor'.rest = Text.squeeze cursor.rest)
    (hhere : cursor.skipIgnored.rest = c :: cs)
    (hlexeme : cursor.skipIgnored.lexeme c cs = (.ok l, at_)) (calls : List OpenCall) :
    ∃ at' : Cursor, at'.rest = Text.squeeze at_.rest ∧ '\n' ∉ at_.rest ∧
      ∃ start, cursor'.next calls = at'.proceed start l.squeeze calls := by
  have hblank := isBlank_eq_false_of_lexeme hlexeme
  have hhere' : cursor'.skipIgnored.rest = Text.squeeze (c :: cs) := by
    rw [← hhere]
    show (spanIgnored false cursor'.rest).2 = _
    rw [hrest]
    refine spanIgnored_squeeze hline fun d hd => ?_
    obtain rfl : c = d := by simpa [hhere] using (show d ∈ cursor.skipIgnored.rest.head? from hd)
    exact hblank
  obtain ⟨at', hlexeme', hat'⟩ := lexeme_squeeze hhere hhere' hlexeme
  refine ⟨at', hat', ?_, _, next_of_lexeme calls (by rw [hhere', squeeze_cons hblank]) hlexeme'⟩
  have hreach := (reaches_skipIgnored cursor).trans (reaches_lexeme hhere)
  rw [hlexeme] at hreach
  exact fun hmem => hline (hreach.suffix.subset hmem)

/-- A token is read from a squeezed text as it is from the text, with its string literals
squeezed, and what is left is squeezed as well. -/
theorem next_squeeze {cursor cursor' after : Cursor} {calls calls' : List OpenCall}
    {read : Option Token} (hline : '\n' ∉ cursor.rest)
    (hrest : cursor'.rest = Text.squeeze cursor.rest)
    (hcalls : List.Forall₂ OpenCall.Squeezes calls calls')
    (h : cursor.next calls = (.ok read, after)) :
    ∃ after', cursor'.next calls' = (.ok (read.map Token.squeeze), after') ∧
      after'.rest = Text.squeeze after.rest ∧ '\n' ∉ after.rest := by
  fun_induction Cursor.next cursor calls generalizing cursor' calls' with
  | case1 =>
    rename_i cursor here hnil
    obtain ⟨hread, hafter⟩ := Prod.mk.inj h
    obtain rfl := Except.ok.inj hread
    obtain rfl : cursor.skipIgnored = after := hafter
    cases hcalls
    have hend : (spanIgnored false cursor.rest).2 = [] := hnil
    have hnil' : cursor'.skipIgnored.rest = [] := by
      show (spanIgnored false cursor'.rest).2 = []
      rw [hrest, spanIgnored_squeeze hline (by rw [hend]; exact fun _ hd => by cases hd), hend,
        Text.squeeze_nil]
    exact ⟨_, next_of_end hnil', hnil'.trans (congrArg Text.squeeze hnil).symm,
      hnil ▸ List.not_mem_nil⟩
  | case2 => cases h
  | case3 => cases h
  | case4 =>
    rename_i cursor calls here c cs hhere name at_ hlexeme ih
    obtain ⟨at', hat', hline', start, hnext⟩ :=
      exists_proceed_squeeze hline hrest hhere hlexeme calls'
    have hopened : OpenCall.Squeezes { name, pos := here.pos, args := [] }
        { name, pos := start, args := [] } := ⟨rfl, rfl⟩
    obtain ⟨after', hafter', hleft⟩ := ih hline' hat' (.cons hopened hcalls) h
    exact ⟨after', hnext.trans hafter', hleft⟩
  | case5 =>
    rename_i cursor here c cs hhere at_ hlexeme
    obtain ⟨at', hat', hline', start, hnext⟩ :=
      exists_proceed_squeeze hline hrest hhere hlexeme calls'
    cases h
    cases hcalls
    exact ⟨at', hnext, hat', hline'⟩
  | case6 =>
    rename_i cursor here c cs hhere at_ hlexeme inner
    obtain ⟨at', hat', hline', start, hnext⟩ :=
      exists_proceed_squeeze hline hrest hhere hlexeme calls'
    cases h
    cases hcalls with
    | cons hinner hnone =>
      cases hnone
      refine ⟨at', hnext.trans ?_, hat', hline'⟩
      rw [Option.map_some, ← hinner.closed]
      rfl
  | case7 =>
    rename_i cursor here c cs hhere at_ hlexeme inner call parent further ih
    obtain ⟨at', hat', hline', start, hnext⟩ :=
      exists_proceed_squeeze hline hrest hhere hlexeme calls'
    have hcall : call = .call inner.name inner.args.reverse := by
      simp [call]
    rw [hcall] at ih
    cases hcalls with
    | cons hinner houter =>
      cases houter with
      | cons hparent hfurther =>
        obtain ⟨after', hafter', hleft⟩ :=
          ih hline' hat' (.cons (hparent.push (.call inner.name inner.args.reverse)) hfurther) h
        rw [← hinner.closed] at hafter'
        exact ⟨after', hnext.trans hafter', hleft⟩
  | case8 =>
    rename_i cursor here c cs hhere read at_ hlexeme
    obtain ⟨at', hat', hline', start, hnext⟩ :=
      exists_proceed_squeeze hline hrest hhere hlexeme calls'
    cases h
    cases hcalls
    exact ⟨at', hnext, hat', hline'⟩
  | case9 =>
    rename_i cursor here c cs hhere read at_ hlexeme inner outer hoperand ih
    obtain ⟨at', hat', hline', start, hnext⟩ :=
      exists_proceed_squeeze hline hrest hhere hlexeme calls'
    cases hcalls with
    | cons hinner houter =>
      obtain ⟨after', hafter', hleft⟩ := ih hline' hat' (.cons (hinner.push read) houter) h
      refine ⟨after', hnext.trans ?_, hleft⟩
      rw [Lexeme.squeeze, proceed, if_pos (by rw [Token.isOperand_squeeze, hoperand])]
      exact hafter'
  | case10 => cases h

/-- The tokens of a squeezed line. -/
theorem tokens_squeeze {cursor cursor' : Cursor} {ts : List Token} (hline : '\n' ∉ cursor.rest)
    (hrest : cursor'.rest = Text.squeeze cursor.rest) (h : cursor.tokens = .ok ts) :
    cursor'.tokens = .ok (ts.map Token.squeeze) := by
  induction hlength : cursor.rest.length using Nat.strongRecOn generalizing cursor cursor' ts with
  | _ length ih =>
    rw [tokens_eq] at h ⊢
    split at h
    · cases h
    · rename_i after hnext
      cases h
      obtain ⟨after', hnext', -⟩ := next_squeeze hline hrest .nil hnext
      rw [hnext']
      rfl
    · rename_i t after hnext
      obtain ⟨after', hnext', hafter', hleft⟩ := next_squeeze hline hrest .nil hnext
      have hshorter := length_next_lt hnext
      rw [hlength] at hshorter
      cases hmore : after.tokens with
      | error e =>
        rw [hmore] at h
        cases h
      | ok more =>
        rw [hmore] at h
        cases h
        rw [hnext']
        show after'.tokens.map _ = _
        rw [ih _ hshorter hleft hafter' hmore rfl]
        rfl

end Cursor

/-- The tokens of a line in which every stretch of white space is made one space: those of the
line, with their string literals squeezed in the same way. -/
theorem tokenize_squeeze {text : String} {ts : List Token} (hline : '\n' ∉ text.toList)
    (h : tokenize text = .ok ts) :
    tokenize (String.ofList (squeeze text.toList)) = .ok (ts.map Token.squeeze) := by
  have hstart : (Cursor.start (String.ofList (squeeze text.toList))).rest =
      squeeze (Cursor.start text).rest := by
    rw [Cursor.start, Cursor.start, String.toList_ofList]
  rw [tokenize_eq] at h ⊢
  exact Cursor.tokens_squeeze hline hstart h

end EventPipeline.Rules
