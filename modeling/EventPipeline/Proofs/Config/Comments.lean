import EventPipeline.Config.Format
import EventPipeline.Proofs.Json.Easing
import EventPipeline.Proofs.Text.Lines

/-!
# `EventPipeline.Proofs.Config.Comments`: comments and trailing commas

A configuration in the data format may have comment lines between its lines and commas behind the
last part of a container. `stripComments` takes them out of the text and knows nothing of string
literals. So a text that is annotated in this way reads as the text itself
(`read?_stripComments`), provided that the text has no comma in front of a closing bracket. In a
text of the data format such a comma can only stand in a string literal, and then it is lost.
-/

set_option autoImplicit false

namespace EventPipeline

open Json (Eases)

/-! ### Lines -/

namespace Text

variable {cs rest line : List Char}

/-- The text is a line with all that follows it in the other text. -/
def StartsLine (rest cs : List Char) : Prop :=
  rest = cs ∨ ∃ before, cs = before ++ '\n' :: rest

/-- One more line in front, of which the line end is not kept. -/
theorem eases_line {lines : List (List Char)} (h : Eases rest (['\n'].intercalate lines))
    (line : List Char) {ending : List Char} (hending : ending = [] ∨ ending = ['\r']) :
    Eases (line ++ (ending ++ '\n' :: rest)) (['\n'].intercalate (line :: lines)) := by
  cases lines with
  | nil =>
    -- the line is the last one, so that its line end goes
    have hnone : ∀ d ∈ ([] : List Char).head?, Json.isSpace d = true := fun d hd => nomatch hd
    have hend : Eases ('\n' :: rest) [] := .drop (.inr rfl) h hnone
    have hall : Eases (ending ++ '\n' :: rest) [] := by
      obtain rfl | rfl := hending
      · exact hend
      · exact .drop (.inl rfl) hend hnone
    simpa using hall.append_left line
  | cons next lines =>
    have hend : Eases ('\n' :: rest) ('\n' :: ['\n'].intercalate (next :: lines)) := .keep '\n' h
    have hall : Eases (ending ++ '\n' :: rest) ('\n' :: ['\n'].intercalate (next :: lines)) := by
      obtain rfl | rfl := hending
      · exact hend
      · refine .drop (.inl rfl) hend ?_
        intro d hd
        cases hd
        rfl
    rw [List.intercalate_cons_cons, List.append_assoc]
    exact hall.append_left line

/-- What is left when the lines of a text are joined again, where the line that has begun starts
with `current`, in reverse. -/
theorem eases_lines_go (current cs : List Char) :
    Eases (current.reverse ++ cs) (['\n'].intercalate (lines.go current cs)) := by
  induction cs generalizing current with
  | nil =>
    rw [lines.go]
    split
    · rename_i h
      obtain rfl := List.isEmpty_iff.mp h
      exact .nil
    · rw [List.intercalate_singleton, List.append_nil]
      exact .refl _
  | cons c cs ih =>
    by_cases hc : c = '\n'
    · subst hc
      obtain ⟨line, ending, hcurrent, hending, hlines⟩ := lines_go_newline current
      rw [hlines, hcurrent, List.append_assoc]
      exact eases_line (ih []) line hending
    · rw [lines.go]
      · simpa using ih (c :: current)
      · exact hc

/-- Joining the lines of a text again leaves line ends out and nothing else. -/
theorem eases_lines (cs : List Char) : Eases cs (['\n'].intercalate (lines cs)) :=
  eases_lines_go [] cs

/-- A line stands at the beginning of the text or behind a line feed. -/
theorem startsLine_of_mem_go {current : List Char} (h : line ∈ lines.go current cs) :
    line <+: current.reverse ++ cs ∨
      ∃ before rest, cs = before ++ '\n' :: rest ∧ line <+: rest := by
  induction cs generalizing current with
  | nil =>
    rw [lines.go] at h
    split at h
    · cases h
    · obtain rfl := List.mem_singleton.mp h
      exact .inl (List.prefix_append _ _)
  | cons c cs ih =>
    by_cases hc : c = '\n'
    · subst hc
      obtain ⟨first, ending, hcurrent, -, hlines⟩ := lines_go_newline current
      rw [hlines] at h
      obtain rfl | hmore := List.mem_cons.mp h
      · rw [hcurrent, List.append_assoc]
        exact .inl (List.prefix_append _ _)
      · obtain hfirst | ⟨before, rest, rfl, hrest⟩ := ih hmore
        · exact .inr ⟨[], cs, rfl, hfirst⟩
        · exact .inr ⟨'\n' :: before, rest, rfl, hrest⟩
    · rw [lines.go] at h
      · obtain hfirst | ⟨before, rest, rfl, hrest⟩ := ih h
        · exact .inl (by simpa using hfirst)
        · exact .inr ⟨c :: before, rest, rfl, hrest⟩
      · exact hc

/-- Every line is the beginning of what its place in the text starts. -/
theorem exists_startsLine (h : line ∈ lines cs) : ∃ rest, StartsLine rest cs ∧ line <+: rest := by
  obtain hfirst | ⟨before, rest, hcs, hrest⟩ := startsLine_of_mem_go h
  · exact ⟨cs, .inl rfl, hfirst⟩
  · exact ⟨rest, .inr ⟨before, hcs⟩, hrest⟩

end Text

/-! ### Commas and comments -/

namespace PipelineConfig

open Text (isBlank trimStart lines StartsLine)

variable {t v w : List Char} {d : Char}

/-- A closing bracket stands there, perhaps behind white space. -/
def closes (cs : List Char) : Bool :=
  (trimStart cs).head?.any fun d => d == '}' || d == ']'

/-- No comma of the text stands before a closing bracket. -/
def NoneTrails : List Char → Prop
  | [] => True
  | c :: cs => (c = ',' → closes cs = false) ∧ NoneTrails cs

/-- The second text is the first with commas in front of closing brackets. -/
inductive WithCommas : List Char → List Char → Prop
  | nil : WithCommas [] []
  | keep {t v : List Char} (c : Char) (h : WithCommas t v) : WithCommas (c :: t) (c :: v)
  | trail {t v : List Char} (hcloses : closes v = true) (h : WithCommas t v) :
    WithCommas t (',' :: v)

/-- The line is a comment. -/
def IsComment (line : List Char) : Prop :=
  "//".toList <+: trimStart line

/-- The second list of lines is the first with comments between its lines. -/
inductive WithComments : List (List Char) → List (List Char) → Prop
  | nil : WithComments [] []
  | keep {ls ms : List (List Char)} (line : List Char) (h : WithComments ls ms) :
    WithComments (line :: ls) (line :: ms)
  | comment {ls ms : List (List Char)} {line : List Char} (hline : IsComment line)
    (h : WithComments ls ms) : WithComments ls (line :: ms)

/-- The second text is the first with trailing commas and with comment lines. -/
def Annotates (text annotated : String) : Prop :=
  ∃ v, WithCommas text.toList v ∧ WithComments (lines v) (lines annotated.toList)

theorem stripCommas_cons (c : Char) (cs : List Char) :
    stripCommas (c :: cs) =
      if c == ',' && closes cs then stripCommas cs else c :: stripCommas cs := rfl

/-- With more commas the text starts as before, behind its white space, but for a comma. -/
theorem WithCommas.head? (h : WithCommas t v) (hd : d ≠ ',')
    (hhead : (trimStart v).head? = some d) : (trimStart t).head? = some d := by
  induction h with
  | nil => exact hhead
  | keep c h ih =>
    cases hc : isBlank c with
    | true =>
      rw [trimStart, List.dropWhile_cons_of_pos hc] at hhead ⊢
      exact ih hhead
    | false =>
      rw [trimStart, List.dropWhile_cons_of_neg (by simp [hc])] at hhead ⊢
      exact hhead
  | trail hcloses h ih =>
    have hcomma : ',' = d := by simpa [trimStart, isBlank] using hhead
    exact absurd hcomma.symm hd

/-- What stands there is one bracket or the other. -/
theorem closes_iff : closes t = true ↔
    (trimStart t).head? = some '}' ∨ (trimStart t).head? = some ']' := by
  unfold closes
  cases (trimStart t).head? with
  | none => simp
  | some d => simp

/-- No bracket is added. -/
theorem WithCommas.closes (h : WithCommas t v) (hcloses : closes v = true) :
    closes t = true := by
  rw [closes_iff] at hcloses ⊢
  exact hcloses.imp (h.head? (by decide)) (h.head? (by decide))

/-- The commas that were added are taken out again, and no others. -/
theorem WithCommas.stripCommas (h : WithCommas t v) (hnone : NoneTrails t) :
    stripCommas v = t := by
  induction h with
  | nil => rfl
  | @keep t v c h ih =>
    obtain ⟨hcomma, hrest⟩ := hnone
    have hkeep : (c == ',' && PipelineConfig.closes v) = false := by
      rw [Bool.and_eq_false_imp]
      intro hc
      rw [← Bool.not_eq_true]
      intro hcloses
      rw [h.closes hcloses] at hcomma
      cases hcomma (beq_iff_eq.mp hc)
    rw [stripCommas_cons, hkeep, if_neg Bool.false_ne_true, ih hrest]
  | trail hcloses h ih =>
    rw [stripCommas_cons, hcloses, Bool.and_true, if_pos (beq_self_eq_true ','), ih hnone]

/-! ### Line ends -/

/-- Line ends that are left out are white space. -/
theorem head?_of_eases (h : Eases t w) : (trimStart w).head? = (trimStart t).head? := by
  induction h with
  | nil => rfl
  | keep c h ih =>
    cases hc : isBlank c with
    | true =>
      rw [trimStart, trimStart, List.dropWhile_cons_of_pos hc, List.dropWhile_cons_of_pos hc]
      exact ih
    | false =>
      rw [trimStart, trimStart, List.dropWhile_cons_of_neg (by simp [hc]),
        List.dropWhile_cons_of_neg (by simp [hc])]
      rfl
  | drop hend h hspace ih =>
    rw [ih]
    obtain rfl | rfl := hend <;> rfl

theorem closes_of_eases (h : Eases t w) : closes w = closes t := by
  rw [closes, closes, head?_of_eases h]

/-- Without its line ends a text has no trailing commas either. -/
theorem NoneTrails.eases (h : Eases t w) (hnone : NoneTrails t) : NoneTrails w := by
  induction h with
  | nil => trivial
  | keep c h ih => exact ⟨fun hc => closes_of_eases h ▸ hnone.1 hc, ih hnone.2⟩
  | drop hend h hspace ih => exact ih hnone.2

/-- No comma is added in front of white space. -/
theorem WithCommas.startsWithSpace (h : WithCommas t v)
    (hv : ∀ d ∈ v.head?, Json.isSpace d = true) : ∀ d ∈ t.head?, Json.isSpace d = true := by
  cases h with
  | nil => exact hv
  | keep c h => exact hv
  | trail hcloses h => cases hv ',' rfl

/-- It makes no difference whether commas are added first, or line ends are left out first. -/
theorem WithCommas.eases (h : WithCommas t v) (heases : Eases v w) :
    ∃ t', WithCommas t' w ∧ Eases t t' := by
  induction heases generalizing t with
  | nil =>
    cases h
    exact ⟨[], .nil, .nil⟩
  | keep c heases ih =>
    cases h with
    | keep c h =>
      obtain ⟨t', hcommas, ht⟩ := ih h
      exact ⟨c :: t', .keep c hcommas, .keep c ht⟩
    | trail hcloses h =>
      obtain ⟨t', hcommas, ht⟩ := ih h
      exact ⟨t', .trail (closes_of_eases heases ▸ hcloses) hcommas, ht⟩
  | drop hend heases hspace ih =>
    cases h with
    | keep c h =>
      obtain ⟨t', hcommas, ht⟩ := ih h
      exact ⟨t', hcommas, .drop hend ht (hcommas.startsWithSpace hspace)⟩
    | trail => exact absurd hend (by decide)

/-! ### Lines that are comments -/

/-- Without the commas the text has its lines in the same places. -/
theorem WithCommas.exists_line {before rest : List Char}
    (h : WithCommas t (before ++ '\n' :: rest)) :
    ∃ before' rest', t = before' ++ '\n' :: rest' ∧ WithCommas rest' rest := by
  induction before generalizing t with
  | nil =>
    cases h with
    | keep _ h => exact ⟨[], _, rfl, h⟩
  | cons c before ih =>
    cases h with
    | keep _ h =>
      obtain ⟨before', rest', rfl, hrest⟩ := ih h
      exact ⟨c :: before', rest', rfl, hrest⟩
    | trail _ h => exact ih h

/-- What a comment line starts starts with a slash, behind its white space. -/
theorem IsComment.head? {line rest : List Char} (h : IsComment line) (hbegins : line <+: rest) :
    (trimStart rest).head? = some '/' := by
  obtain ⟨more, hmore⟩ := h
  obtain ⟨behind, rfl⟩ := hbegins
  have hline : (line.dropWhile isBlank).isEmpty = false := by
    rw [show line.dropWhile isBlank = "//".toList ++ more from hmore.symm]
    rfl
  rw [trimStart, List.dropWhile_append, hline, if_neg Bool.false_ne_true,
    show line.dropWhile isBlank = "//".toList ++ more from hmore.symm]
  rfl

/-- A text of the data format has no line that is a comment, nor does it get one from commas. -/
theorem WithCommas.not_isComment {ts : List Json.Token} (h : WithCommas t v)
    (htokens : Json.tokens? t = some ts) {line : List Char} (hline : line ∈ lines v) :
    ¬ IsComment line := by
  intro hcomment
  obtain ⟨rest, hstarts, hbegins⟩ := Text.exists_startsLine hline
  have hslash := hcomment.head? hbegins
  obtain rfl | ⟨before, rfl⟩ := hstarts
  · exact Json.head?_ne_slash htokens (h.head? (by decide) hslash)
  · obtain ⟨before', rest', rfl, hrest⟩ := h.exists_line
    exact Json.head?_line_ne_slash htokens (hrest.head? (by decide) hslash)

/-- The comments that were added are taken out again. -/
theorem WithComments.filter_eq {ls ms : List (List Char)} (h : WithComments ls ms)
    (hnone : ∀ line ∈ ls, ¬ IsComment line) :
    ms.filter (fun line => !"//".toList.isPrefixOf (trimStart line)) = ls := by
  induction h with
  | nil => rfl
  | keep line h ih =>
    obtain ⟨hline, hmore⟩ := List.forall_mem_cons.mp hnone
    have hkept : "//".toList.isPrefixOf (trimStart line) = false := by
      rw [← Bool.not_eq_true, List.isPrefixOf_iff_prefix]
      exact hline
    rw [List.filter_cons_of_pos (by rw [hkept]; rfl), ih hmore]
  | comment hline h ih =>
    have hdropped : "//".toList.isPrefixOf (trimStart _) = true :=
      List.isPrefixOf_iff_prefix.mpr hline
    rw [List.filter_cons_of_neg (by rw [hdropped]; decide), ih hnone]

/-! ### Annotated texts -/

/-- A text of the data format without a comma in front of a closing bracket may be annotated with
comment lines and trailing commas: what is left without them holds the same value. -/
theorem read?_stripComments {text annotated : String} {j : Json}
    (hread : Json.read? text = some j) (hnone : NoneTrails text.toList)
    (h : Annotates text annotated) : Json.read? (stripComments annotated) = some j := by
  obtain ⟨v, hcommas, hcomments⟩ := h
  obtain ⟨ts, htokens, hvalue⟩ := Option.bind_eq_some_iff.mp hread
  have hlines := hcomments.filter_eq fun line => hcommas.not_isComment htokens
  obtain ⟨t', hcommas', heases⟩ := hcommas.eases (Text.eases_lines v)
  have hstrip : (stripComments annotated).toList = t' := by
    rw [stripComments, String.toList_ofList, hlines]
    exact hcommas'.stripCommas (hnone.eases heases)
  rw [Json.read?, hstrip, Json.tokens?_of_eases heases htokens]
  exact hvalue

/-- A comma behind the last element, and a comment line behind the comma. -/
example : Annotates "[1\n]" "[1,\n  // no more\n]" :=
  ⟨"[1,\n]".toList, .keep '[' (.keep '1' (.trail rfl (.keep '\n' (.keep ']' .nil)))),
    .keep _ (.comment (List.isPrefixOf_iff_prefix.mp rfl) (.keep _ .nil))⟩

/-- So the annotated text holds the same configuration. -/
theorem parse_annotated {text annotated path : String} {j : Json}
    (hread : Json.read? text = some j) (hnone : NoneTrails text.toList)
    (h : Annotates text annotated) :
    parse annotated .json path = (ofDocument (.ofJson j)).mapError (.parse path) := by
  rw [parse, document?, read?_stripComments hread hnone h]
  rfl

/-- A comma in a string literal is lost if it stands in front of a bracket. -/
example : stripComments "[\"[1,]\"]" = "[\"[1]\"]" := by
  decide

end PipelineConfig
end EventPipeline
