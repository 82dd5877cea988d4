import EventPipeline.Proofs.Rules.Squeezing
import EventPipeline.Rules.Layout

/-!
# `EventPipeline.Proofs.Rules.Classifying`: what a line of a rule file is

`FileLine.ofRaw` tells what a line is by four tests, one after another. `FileLine.ofRaw_eq_iff` says
that it is right: a line is of a kind exactly if that kind may be written so. Hence no line can be
written in two ways, and what the tests do not see does not count either: a carriage return that a
line ends in (`FileLine.ofRaw_append_return`).
-/

set_option autoImplicit false

namespace EventPipeline.Rules

open Text (isBlank isWordChar trim trimStart trimEnd words unwords collapse squeeze)

/-! ### Widened texts -/

/-- Widening spaces changes no word. -/
theorem Widens.words_go {cs wide : List Char} (h : Widens cs wide) (current : List Char) :
    Text.words.go current wide = Text.words.go current cs := by
  induction h generalizing current with
  | nil => rfl
  | visible hc _ ih =>
    rw [Text.words.go, Text.words.go, if_neg (by simp [hc]), if_neg (by simp [hc]), ih]
  | @space blanks cs wide hne hblanks _ ih =>
    have hblank {c : Char} (hc : isBlank c = true) (ds : List Char) :
        Text.words.go current (c :: ds) = Text.words.go current [] ++ words ds :=
      @Text.words_go_append c [] ds hc current
    obtain ⟨b, bs, rfl⟩ := List.exists_cons_of_ne_nil hne
    obtain ⟨hb, hbs⟩ := List.forall_mem_cons.mp hblanks
    rw [List.cons_append, hblank hb, hblank rfl, Text.words_append_of_blank hbs, words, words, ih]

/-- Squeezing takes back what widening does. -/
theorem widens_squeeze (cs : List Char) : Widens (squeeze cs) cs := by
  induction hlength : cs.length using Nat.strongRecOn generalizing cs with
  | _ length ih =>
    cases cs with
    | nil => exact .nil
    | cons c cs =>
      rw [List.length_cons] at hlength
      cases hc : isBlank c with
      | false =>
        rw [Text.squeeze_cons hc]
        exact .visible hc (ih _ (by omega) cs rfl)
      | true =>
        -- the whole stretch of white space becomes one space
        have hblanks : IsBlankText (c :: cs.takeWhile isBlank) :=
          List.forall_mem_cons.mpr ⟨hc, List.all_eq_true.mp List.all_takeWhile⟩
        have hshorter := length_dropWhile_le isBlank cs
        have hrest := ih (cs.dropWhile isBlank).length (by omega) (cs.dropWhile isBlank) rfl
        have hwide := Widens.space (List.cons_ne_nil _ _) hblanks hrest
        rw [List.cons_append, List.takeWhile_append_dropWhile] at hwide
        rw [Text.squeeze_stretch hc]
        exact hwide

/-! ### The first word -/

/-- The first word is all that tells whether a text starts with `IF`. -/
theorem startsWithIf_congr {cs ds : List Char} (h : words cs = words ds) :
    startsWithIf cs = startsWithIf ds := by
  rw [startsWithIf, startsWithIf, Text.takeWhile_trimStart, Text.takeWhile_trimStart, h]

/-- A rule as it is kept starts with `IF`. -/
theorem startsWithIf_of_isRuleText {rule : List Char} (h : IsRuleText rule) :
    startsWithIf rule = true := by
  obtain ⟨⟨rest, rfl, hrest⟩, -⟩ := h
  have htrim : trimStart ('I' :: 'F' :: rest) = 'I' :: 'F' :: rest :=
    Text.dropWhile_of_stop fun c hc => by
      cases hc
      rfl
  have htake : ('I' :: 'F' :: rest).takeWhile (!isBlank ·) =
      'I' :: 'F' :: rest.takeWhile (!isBlank ·) := rfl
  rw [startsWithIf, htrim, htake]
  cases rest with
  | nil => rfl
  | cons c rest =>
    have hc : isWordChar c = false := hrest c rfl
    cases hblank : isBlank c with
    | true => simp [hblank]
    | false => simp [hblank, hc]

/-- A text that starts with `IF` is a rule when it is collapsed. -/
theorem isRuleText_collapse {cs : List Char} (h : startsWithIf cs = true) :
    IsRuleText (collapse cs) := by
  refine ⟨?_, Text.collapse_collapse cs⟩
  rw [startsWithIf, Text.takeWhile_trimStart] at h
  rw [collapse]
  cases hwords : words cs with
  | nil =>
    rw [hwords] at h
    cases h
  | cons w ws =>
    rw [hwords, List.headD_cons] at h
    split at h
    · rename_i rest
      refine ⟨rest ++ ws.flatMap (' ' :: ·), Text.unwords_cons _ ws, fun c hc => ?_⟩
      cases rest with
      | cons d rest =>
        cases hc
        simpa using h
      | nil =>
        -- the first word is `IF` alone, and a space follows if anything does
        cases ws with
        | nil => cases hc
        | cons v ws =>
          cases hc
          decide
    · cases h

/-! ### Headers -/

theorem isNameStart_of_isSetName {c : Char} (h : (c.isAlpha || c == '_') = true) :
    isNameStart c = true := by
  rw [isNameStart, h]
  rfl

/-- The name of a header. -/
theorem headerName?_eq_some_iff {raw : List Char} {name : String} :
    headerName? raw = some name ↔
      ∃ blanks, IsSetName name.toList ∧ IsBlankText blanks ∧
        raw = name.toList ++ ':' :: blanks := by
  constructor
  · intro h
    unfold headerName? at h
    split at h
    · rename_i c cs
      -- a character that starts a name, a colon behind the word, and white space behind the colon
      split at h
      · rename_i hstart
        split at h
        · rename_i blanks hcolon
          split at h
          · rename_i hblanks
            cases h
            rw [String.toList_ofList]
            refine ⟨blanks, ⟨hstart, List.all_eq_true.mp List.all_takeWhile⟩,
              List.all_eq_true.mp hblanks, ?_⟩
            rw [← hcolon, List.cons_append, List.takeWhile_append_dropWhile]
          · cases h
        · cases h
      · cases h
    · cases h
  · rintro ⟨blanks, hname, hblanks, rfl⟩
    cases hchars : name.toList with
    | nil =>
      rw [hchars] at hname
      cases hname
    | cons c cs =>
      rw [hchars] at hname
      obtain ⟨hstart, hword⟩ := hname
      have hcolon : ∀ d ∈ (':' :: blanks).head?, isWordChar d = false := by
        intro d hd
        cases hd
        decide
      rw [List.cons_append, headerName?, if_pos hstart,
        Text.dropWhile_append_of_stop hword hcolon, Text.takeWhile_append_of_stop hword hcolon,
        ← hchars, String.ofList_toList]
      exact if_pos (List.all_eq_true.mpr hblanks)

/-! ### Rules -/

theorem isRuleLine_eq_true_iff {raw : List Char} :
    isRuleLine raw = true ↔
      ∃ indent rest, (indent = ['\t'] ∨ indent = [' ', ' ', ' ', ' ']) ∧ raw = indent ++ rest ∧
        startsWithIf rest = true := by
  constructor
  · intro h
    unfold isRuleLine unindent? at h
    split at h
    · rename_i rest hrest
      split at hrest
      · cases hrest
        exact ⟨['\t'], rest, .inl rfl, rfl, h⟩
      · cases hrest
        exact ⟨[' ', ' ', ' ', ' '], rest, .inr rfl, rfl, h⟩
      · cases hrest
    · cases h
  · rintro ⟨indent, rest, rfl | rfl, rfl, h⟩
    · exact h
    · exact h

/-! ### Classification -/

/-- A line that counts for a header or a rule does not look like a comment. -/
theorem ofRaw_of_visible {raw : List Char} {c : Char} (h : (trimStart raw).head? = some c)
    (hc : c ≠ '#') :
    FileLine.ofRaw raw =
      match headerName? raw with
      | some name => .header name
      | none =>
        if isRuleLine raw then .rule (String.ofList (collapse raw)) else .malformed := by
  have hhead : (trim raw).head? = some c := by rw [Text.head?_trim, h]
  have hne : (trim raw).isEmpty = false := by
    cases htrim : trim raw with
    | nil =>
      rw [htrim] at hhead
      cases hhead
    | cons d ds => rfl
  have hcollapse : collapse (trim raw) = collapse raw := by
    rw [collapse, Text.words_trim, collapse]
  rw [FileLine.ofRaw, hne, hhead, hcollapse]
  exact if_neg (by simp [hc])

/-- The first character of a line that is not blank. -/
theorem head?_trimStart_append {blanks cs : List Char} {c : Char} (h : IsBlankText blanks)
    (hc : isBlank c = false) : (trimStart (blanks ++ c :: cs)).head? = some c := by
  have hstop : ∀ d ∈ (c :: cs).head?, isBlank d = false := by
    intro d hd
    cases hd
    exact hc
  rw [trimStart, Text.dropWhile_append_of_stop h hstop]
  rfl

theorem isBlankText_indent {indent : List Char}
    (h : indent = ['\t'] ∨ indent = [' ', ' ', ' ', ' ']) : IsBlankText indent := by
  obtain rfl | rfl := h
  · intro c hc
    obtain rfl := List.mem_singleton.mp hc
    rfl
  · intro c hc
    obtain rfl : c = ' ' := by simpa using hc
    rfl

/-- What can be written as a line is that line. -/
theorem FileLine.Line.ofRaw_eq {f : FileLine} {raw : List Char} (h : f.Line raw) :
    FileLine.ofRaw raw = f := by
  cases h with
  | blank h =>
    have hdrop : (raw ++ []).dropWhile isBlank = [] :=
      Text.dropWhile_append_of_stop h fun c hc => by cases hc
    rw [List.append_nil] at hdrop
    rw [FileLine.ofRaw, trim, trimStart, hdrop]
    rfl
  | @comment blanks h text =>
    have hhead : (trim (blanks ++ '#' :: text)).head? = some '#' := by
      rw [Text.head?_trim]
      exact head?_trimStart_append h rfl
    rw [FileLine.ofRaw, hhead]
    exact if_pos (by simp)
  | @header name blanks hname h =>
    have hheader := headerName?_eq_some_iff.mpr ⟨blanks, hname, h, rfl⟩
    cases hchars : name.toList with
    | nil =>
      rw [hchars] at hname
      cases hname
    | cons c cs =>
      rw [hchars] at hname hheader
      have hc : isNameStart c = true := isNameStart_of_isSetName hname.1
      have hhead : (trimStart (c :: cs ++ ':' :: blanks)).head? = some c :=
        head?_trimStart_append (List.forall_mem_nil _) (isBlank_eq_false_of_isNameStart hc)
      have hne : c ≠ '#' := by
        rintro rfl
        cases hc
      rw [ofRaw_of_visible hhead hne, hheader]
  | @rule text indent blanks wide trailing hindent hblanks htext hwide htrailing =>
    have hfront : IsBlankText (indent ++ blanks) :=
      List.forall_mem_append.mpr ⟨isBlankText_indent hindent, hblanks⟩
    have hbody : words (blanks ++ (wide ++ trailing)) = words text.toList := by
      rw [Text.words_append_of_blank hblanks, Text.words_append_blank wide htrailing]
      exact hwide.words_go []
    have hraw : words (indent ++ (blanks ++ (wide ++ trailing))) = words text.toList := by
      rw [Text.words_append_of_blank (isBlankText_indent hindent), hbody]
    -- the first character of the rule is visible, and so it is not widened
    have hhead :
        (trimStart (indent ++ (blanks ++ (wide ++ trailing)))).head? = some 'I' := by
      obtain ⟨⟨rest, hrest, -⟩, -⟩ := htext
      rw [hrest] at hwide
      cases hwide with
      | visible hc h =>
        rw [← List.append_assoc]
        exact head?_trimStart_append hfront hc
    have hheader : headerName? (indent ++ (blanks ++ (wide ++ trailing))) = none := by
      obtain rfl | rfl := hindent
      · rfl
      · rfl
    have hrule : isRuleLine (indent ++ (blanks ++ (wide ++ trailing))) = true := by
      refine isRuleLine_eq_true_iff.mpr ⟨indent, _, hindent, rfl, ?_⟩
      rw [startsWithIf_congr hbody]
      exact startsWithIf_of_isRuleText htext
    have hcollapse : collapse (indent ++ (blanks ++ (wide ++ trailing))) = text.toList := by
      rw [collapse, hraw]
      exact htext.2
    rw [ofRaw_of_visible hhead (by decide), hheader, hrule, hcollapse, String.ofList_toList]
    rfl

/-- An indented line that starts with `IF` writes the rule that is left when it is collapsed. -/
theorem line_of_startsWithIf {indent rest : List Char}
    (hindent : indent = ['\t'] ∨ indent = [' ', ' ', ' ', ' ']) (h : startsWithIf rest = true) :
    (FileLine.rule (String.ofList (collapse (indent ++ rest)))).Line (indent ++ rest) := by
  obtain ⟨blanks, hblanks, hrest⟩ := Text.exists_append_trimStart rest
  obtain ⟨trailing, htrailing, hbody⟩ := Text.exists_trimEnd_append (trimStart rest)
  -- the line is white space, then what is left when it is trimmed, and white space again; only the
  -- part in the middle is widened
  have hwords : words (indent ++ rest) = words (trim rest) := by
    rw [Text.words_append_of_blank (isBlankText_indent hindent), Text.words_trim]
  have hlast := Text.isBlank_getLast?_trimEnd (trimStart rest)
  have hfirst : ∀ c ∈ (trim rest).head?, isBlank c = false := by
    rw [Text.head?_trim]
    exact Text.isBlank_head?_trimStart rest
  have hrule : collapse (indent ++ rest) = squeeze (trim rest) := by
    rw [← Text.collapse_eq_squeeze hfirst hlast, collapse, hwords, collapse]
  have htext : IsRuleText (collapse (indent ++ rest)) := by
    rw [collapse, hwords, ← collapse]
    refine isRuleText_collapse ?_
    rw [startsWithIf_congr (Text.words_trim rest)]
    exact h
  have hwide : Widens (collapse (indent ++ rest)) (trim rest) := by
    rw [hrule]
    exact widens_squeeze (trim rest)
  rw [← String.toList_ofList (l := collapse (indent ++ rest))] at htext hwide
  have hline := FileLine.Line.rule hindent hblanks htext hwide htrailing
  have hraw : blanks ++ (trim rest ++ trailing) = rest := by
    rw [trim, ← hbody, ← hrest]
  rw [hraw] at hline
  exact hline

/-- A line that is not malformed can be written so. -/
theorem FileLine.line_ofRaw {raw : List Char} (h : FileLine.ofRaw raw ≠ .malformed) :
    (FileLine.ofRaw raw).Line raw := by
  obtain ⟨blanks, hblanks, hraw⟩ := Text.exists_append_trimStart raw
  cases hstart : trimStart raw with
  | nil =>
    have hall : IsBlankText raw := by
      rw [hraw, hstart, List.append_nil]
      exact hblanks
    have hline : FileLine.ignored.Line raw := .blank hall
    rw [hline.ofRaw_eq]
    exact hline
  | cons c cs =>
    by_cases hc : c = '#'
    · have hline : FileLine.ignored.Line raw := by
        rw [hraw, hstart, hc]
        exact .comment hblanks cs
      rw [hline.ofRaw_eq]
      exact hline
    · have hkind := ofRaw_of_visible (by rw [hstart]; rfl) hc
      rw [hkind] at h ⊢
      split
      · rename_i name hname
        obtain ⟨blanks, hset, hblanks, rfl⟩ := headerName?_eq_some_iff.mp hname
        exact .header hset hblanks
      · rename_i hname
        rw [hname] at h
        dsimp only at h
        split
        · rename_i hrule
          obtain ⟨indent, rest, hindent, rfl, hif⟩ := isRuleLine_eq_true_iff.mp hrule
          exact line_of_startsWithIf hindent hif
        · rename_i hrule
          exact absurd (if_neg hrule) h

/-- The tests tell what a line is: it is of a kind if that kind can be written so, and otherwise
malformed. -/
theorem FileLine.ofRaw_eq_iff {f : FileLine} {raw : List Char} (hf : f ≠ .malformed) :
    FileLine.ofRaw raw = f ↔ f.Line raw := by
  constructor
  · rintro rfl
    exact FileLine.line_ofRaw hf
  · exact FileLine.Line.ofRaw_eq

/-- No way of writing a line is left for one that is malformed. -/
theorem FileLine.ofRaw_eq_malformed_iff {raw : List Char} :
    FileLine.ofRaw raw = .malformed ↔ ∀ f : FileLine, ¬f.Line raw := by
  constructor
  · intro h f hline
    rw [hline.ofRaw_eq] at h
    subst h
    cases hline
  · intro h
    by_contra hne
    exact h _ (FileLine.line_ofRaw hne)

/-! ### Line ends -/

section

variable (cs : List Char)

/-- The last character of a line belongs to its last part. -/
theorem exists_of_append_return {cs front back : List Char} (h : cs ++ ['\r'] = front ++ back)
    (hne : back ≠ []) : ∃ rest, back = rest ++ ['\r'] ∧ cs = front ++ rest := by
  obtain hnil | ⟨rest, last, hback⟩ := List.eq_nil_or_concat' back
  · exact absurd hnil hne
  · rw [hback, ← List.append_assoc] at h
    obtain ⟨hcs, hlast⟩ := List.append_inj' h rfl
    exact ⟨rest, by rw [hback, hlast], hcs⟩

theorem headerName?_append_return : headerName? (cs ++ ['\r']) = headerName? cs := by
  refine Option.ext fun name => ?_
  rw [headerName?_eq_some_iff, headerName?_eq_some_iff]
  constructor
  · rintro ⟨blanks, hname, hblanks, hraw⟩
    obtain ⟨rest, hback, rfl⟩ := exists_of_append_return hraw (List.cons_ne_nil _ _)
    cases rest with
    | nil => cases hback
    | cons d rest =>
      cases hback
      exact ⟨rest, hname, (List.forall_mem_append.mp hblanks).1, rfl⟩
  · rintro ⟨blanks, hname, hblanks, rfl⟩
    refine ⟨blanks ++ ['\r'], hname, ?_, by simp⟩
    exact List.forall_mem_append.mpr ⟨hblanks, List.forall_mem_singleton.mpr rfl⟩

theorem isRuleLine_append_return : isRuleLine (cs ++ ['\r']) = isRuleLine cs := by
  have hwords (rest : List Char) : words (rest ++ ['\r']) = words rest :=
    Text.words_append_blank rest (List.forall_mem_singleton.mpr rfl)
  rw [Bool.eq_iff_iff, isRuleLine_eq_true_iff, isRuleLine_eq_true_iff]
  constructor
  · rintro ⟨indent, back, hindent, hraw, hif⟩
    have hne : back ≠ [] := by
      rintro rfl
      cases hif
    obtain ⟨rest, rfl, rfl⟩ := exists_of_append_return hraw hne
    rw [startsWithIf_congr (hwords rest)] at hif
    exact ⟨indent, rest, hindent, rfl, hif⟩
  · rintro ⟨indent, rest, hindent, rfl, hif⟩
    rw [← startsWithIf_congr (hwords rest)] at hif
    exact ⟨indent, rest ++ ['\r'], hindent, List.append_assoc _ _ _, hif⟩

/-- A carriage return that a line ends in does not count. -/
theorem FileLine.ofRaw_append_return : FileLine.ofRaw (cs ++ ['\r']) = FileLine.ofRaw cs := by
  have hreturn : IsBlankText ['\r'] := List.forall_mem_singleton.mpr rfl
  rw [FileLine.ofRaw, FileLine.ofRaw, Text.trim_append_of_blank cs hreturn,
    headerName?_append_return, isRuleLine_append_return]

end

end EventPipeline.Rules
