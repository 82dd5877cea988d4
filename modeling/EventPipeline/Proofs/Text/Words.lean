import EventPipeline.Text.Blank

/-!
# `EventPipeline.Proofs.Text.Words`: words and the white space between them

`words` splits a text at its white space, and `collapse` puts one space between any two words.
`squeeze` only shortens: every stretch of white space becomes one space, where it stands. A text
that neither starts nor ends with white space is squeezed when it is collapsed
(`collapse_eq_squeeze`), and scanners that do not tell one kind of white space from another read
a squeezed text as they read the text itself (`takeWhile_squeeze`, `dropWhile_squeeze`).
-/

set_option autoImplicit false

namespace EventPipeline.Text

/-- The visible characters of ASCII are no white space. -/
theorem isBlank_eq_false_of_visible {c : Char} (hlow : 32 < c.toNat) (hhigh : c.toNat < 127) :
    isBlank c = false := by
  simp only [isBlank, Bool.or_eq_false_iff, Bool.and_eq_false_iff, decide_eq_false_iff_not]
  omega

/-- The text starts with white space. -/
def startsBlank (cs : List Char) : Bool :=
  cs.head?.any isBlank

/-- Every stretch of white space becomes one space. -/
def squeeze : List Char → List Char
  | [] => []
  | c :: cs =>
    if isBlank c then if startsBlank cs then squeeze cs else ' ' :: squeeze cs
    else c :: squeeze cs

variable {c d : Char} {cs ds : List Char}

@[simp] theorem squeeze_nil : squeeze [] = [] := rfl

theorem squeeze_cons (h : isBlank c = false) : squeeze (c :: cs) = c :: squeeze cs := by
  simp [squeeze, h]

/-- Of a stretch of white space its last character becomes the space. -/
theorem squeeze_blank_cons (h : isBlank c = true) :
    squeeze (c :: cs) = if startsBlank cs then squeeze cs else ' ' :: squeeze cs := by
  simp [squeeze, h]

/-- What is squeezed starts as the text does, but for the kind of white space. -/
theorem head?_squeeze (cs : List Char) :
    (squeeze cs).head? = cs.head?.map fun c => if isBlank c then ' ' else c := by
  induction cs with
  | nil => rfl
  | cons c cs ih =>
    cases hc : isBlank c with
    | false => simp [squeeze_cons hc, hc]
    | true =>
      rw [squeeze_blank_cons hc]
      cases hcs : startsBlank cs with
      | false => simp [hc]
      | true =>
        cases cs with
        | nil => cases hcs
        | cons d ds =>
          have hd : isBlank d = true := hcs
          simpa [hc, hd] using ih

/-- Squeezing brings in spaces and nothing else. -/
theorem mem_of_mem_squeeze (h : c ∈ squeeze cs) : c = ' ' ∨ c ∈ cs := by
  induction cs with
  | nil => cases h
  | cons d ds ih =>
    rw [squeeze] at h
    split at h
    · split at h
      · exact (ih h).imp_right (List.mem_cons_of_mem d)
      · obtain rfl | hmem := List.mem_cons.mp h
        · exact .inl rfl
        · exact (ih hmem).imp_right (List.mem_cons_of_mem d)
    · obtain rfl | hmem := List.mem_cons.mp h
      · exact .inr List.mem_cons_self
      · exact (ih hmem).imp_right (List.mem_cons_of_mem d)

/-- A stretch of white space as a whole. -/
theorem squeeze_stretch (h : isBlank c = true) :
    squeeze (c :: cs) = ' ' :: squeeze (cs.dropWhile isBlank) := by
  induction cs generalizing c with
  | nil => simp [squeeze_blank_cons h, startsBlank]
  | cons d ds ih =>
    rw [squeeze_blank_cons h]
    cases hd : isBlank d with
    | false => simp [startsBlank, hd]
    | true =>
      rw [List.dropWhile_cons_of_pos hd, ← ih hd]
      simp [startsBlank, hd]

/-! ### Scanners -/

section

variable {p : Char → Bool}

/-- Nothing is taken from a text that starts with no character of the kind. -/
theorem takeWhile_of_stop (h : ∀ c ∈ cs.head?, p c = false) : cs.takeWhile p = [] := by
  cases cs with
  | nil => rfl
  | cons c cs => exact List.takeWhile_cons_of_neg (by simp [h c rfl])

/-- Nothing is dropped from a text that starts with no character of the kind. -/
theorem dropWhile_of_stop (h : ∀ c ∈ cs.head?, p c = false) : cs.dropWhile p = cs := by
  cases cs with
  | nil => rfl
  | cons c cs => exact List.dropWhile_cons_of_neg (by simp [h c rfl])

/-- Characters of one kind in front of a text that starts with none of the kind. -/
theorem takeWhile_append_of_stop {tail : List Char}
    (hcs : ∀ c ∈ cs, p c = true) (htail : ∀ c ∈ tail.head?, p c = false) :
    (cs ++ tail).takeWhile p = cs := by
  rw [List.takeWhile_append_of_pos hcs, takeWhile_of_stop htail, List.append_nil]

theorem dropWhile_append_of_stop {tail : List Char}
    (hcs : ∀ c ∈ cs, p c = true) (htail : ∀ c ∈ tail.head?, p c = false) :
    (cs ++ tail).dropWhile p = tail := by
  rw [List.dropWhile_append_of_pos hcs, dropWhile_of_stop htail]

/-- A character at which a scanner stops, wherever it stops in front of it. -/
theorem takeWhile_append_cons (hd : p d = false) (cs tail : List Char) :
    (cs ++ d :: tail).takeWhile p = cs.takeWhile p := by
  induction cs with
  | nil => simp [hd]
  | cons c cs ih =>
    cases hc : p c with
    | false => simp [hc]
    | true => simp [hc, ih]

theorem dropWhile_append_cons (hd : p d = false) (cs tail : List Char) :
    (cs ++ d :: tail).dropWhile p = cs.dropWhile p ++ d :: tail := by
  induction cs with
  | nil => simp [hd]
  | cons c cs ih =>
    cases hc : p c with
    | false => simp [hc]
    | true => simp [hc, ih]

/-- What is dropped from a squeezed text by a scanner that sees all white space as one. -/
theorem dropWhile_squeeze (hp : ∀ c, isBlank c = true → p c = p ' ') (cs : List Char) :
    (squeeze cs).dropWhile p = squeeze (cs.dropWhile p) := by
  induction cs with
  | nil => rfl
  | cons c cs ih =>
    cases hc : isBlank c with
    | false =>
      rw [squeeze_cons hc]
      cases hpc : p c with
      | false => simp [hpc, squeeze_cons hc]
      | true => simp [hpc, ih]
    | true =>
      have hspace := hp c hc
      cases hpc : p c with
      | false =>
        have hstop : ∀ rest, (' ' :: rest).dropWhile p = ' ' :: rest := by
          intro rest
          simp [← hspace, hpc]
        rw [squeeze_stretch hc, hstop, List.dropWhile_cons_of_neg (by simp [hpc]),
          squeeze_stretch hc]
      | true =>
        rw [squeeze_blank_cons hc, List.dropWhile_cons_of_pos hpc]
        split
        · exact ih
        · rw [List.dropWhile_cons_of_pos (by rw [← hspace]; exact hpc), ih]

/-- What is taken from a squeezed text by a scanner that takes all white space. -/
theorem takeWhile_squeeze (hp : ∀ c, isBlank c = true → p c = true) (cs : List Char) :
    (squeeze cs).takeWhile p = squeeze (cs.takeWhile p) := by
  induction cs with
  | nil => rfl
  | cons c cs ih =>
    cases hc : isBlank c with
    | false =>
      rw [squeeze_cons hc]
      cases hpc : p c with
      | false => simp [hpc]
      | true => simp [hpc, ih, squeeze_cons hc]
    | true =>
      have hstarts : startsBlank (cs.takeWhile p) = startsBlank cs := by
        cases cs with
        | nil => rfl
        | cons d ds =>
          cases hd : isBlank d with
          | false => cases hpd : p d <;> simp [startsBlank, hpd, hd]
          | true => simp [startsBlank, hp d hd]
      rw [List.takeWhile_cons_of_pos (hp c hc), squeeze_blank_cons hc, squeeze_blank_cons hc,
        hstarts]
      split
      · exact ih
      · rw [List.takeWhile_cons_of_pos (hp ' ' rfl), ih]

/-- What is taken from a squeezed text by a scanner that stops at white space. -/
theorem takeWhile_squeeze_of_stop (hp : ∀ c, isBlank c = true → p c = false) (cs : List Char) :
    (squeeze cs).takeWhile p = cs.takeWhile p := by
  induction cs with
  | nil => rfl
  | cons c cs ih =>
    cases hc : isBlank c with
    | false =>
      rw [squeeze_cons hc]
      cases hpc : p c with
      | false => simp [hpc]
      | true => simp [hpc, ih]
    | true =>
      rw [squeeze_stretch hc, List.takeWhile_cons_of_neg (by simp [hp ' ' rfl]),
        List.takeWhile_cons_of_neg (by simp [hp c hc])]

end

/-! ### Words -/

/-- White space ends a word and starts none. -/
theorem words_go_append (hc : isBlank c = true) (current : List Char) :
    words.go current (cs ++ c :: ds) = words.go current cs ++ words ds := by
  induction cs generalizing current with
  | nil =>
    rw [List.nil_append, words.go, words.go, if_pos hc]
    split
    · rfl
    · rfl
  | cons d cs ih =>
    rw [List.cons_append, words.go, words.go, ih, ih]
    split
    · split
      · rfl
      · rfl
    · rfl

/-- The words on both sides of white space. -/
theorem words_append (hc : isBlank c = true) (cs ds : List Char) :
    words (cs ++ c :: ds) = words cs ++ words ds :=
  words_go_append hc []

/-- A word has characters, and no white space among them. -/
def IsWord (w : List Char) : Prop :=
  w ≠ [] ∧ ∀ c ∈ w, isBlank c = false

theorem isWord_of_mem_go {current w : List Char} (hcurrent : ∀ c ∈ current, isBlank c = false)
    (h : w ∈ words.go current cs) : IsWord w := by
  have hlast (hne : current.isEmpty = false) : IsWord current.reverse := by
    refine ⟨?_, fun c hc => hcurrent c (List.mem_reverse.mp hc)⟩
    simpa using hne
  induction cs generalizing current with
  | nil =>
    rw [words.go] at h
    split at h
    · cases h
    · rename_i hne
      obtain rfl := List.mem_singleton.mp h
      exact hlast (by simpa using hne)
  | cons c cs ih =>
    rw [words.go] at h
    split at h
    · split at h
      · exact ih (List.forall_mem_nil _) h (fun hne => by cases hne)
      · rename_i hne
        obtain rfl | hmem := List.mem_cons.mp h
        · exact hlast (by simpa using hne)
        · exact ih (List.forall_mem_nil _) hmem (fun hne => by cases hne)
    · rename_i hc
      have hmore : ∀ d ∈ c :: current, isBlank d = false :=
        List.forall_mem_cons.mpr ⟨by simpa using hc, hcurrent⟩
      refine ih hmore h fun _ => ⟨by simp, fun d hd => hmore d (List.mem_reverse.mp hd)⟩

/-- The words of a text are words. -/
theorem isWord_of_mem {w : List Char} (h : w ∈ words cs) : IsWord w :=
  isWord_of_mem_go (List.forall_mem_nil _) h

/-- There is a word where a character is no white space. -/
theorem words_go_ne_nil {current : List Char}
    (h : current ≠ [] ∨ ∃ c ∈ cs, isBlank c = false) : words.go current cs ≠ [] := by
  induction cs generalizing current with
  | nil =>
    obtain hne | ⟨c, hc, -⟩ := h
    · simp [words.go, hne]
    · cases hc
  | cons d ds ih =>
    rw [words.go]
    split
    · rename_i hd
      split
      · rename_i hnil
        obtain hne | ⟨c, hc, hblank⟩ := h
        · exact absurd (List.isEmpty_iff.mp hnil) hne
        · obtain rfl | hmem := List.mem_cons.mp hc
          · rw [hd] at hblank
            cases hblank
          · exact ih (.inr ⟨c, hmem, hblank⟩)
      · exact List.cons_ne_nil _ _
    · exact ih (.inl (List.cons_ne_nil _ _))

/-- A text with a character that is no white space has a word. -/
theorem words_ne_nil (hc : c ∈ cs) (h : isBlank c = false) : words cs ≠ [] :=
  words_go_ne_nil (.inr ⟨c, hc, h⟩)

/-- A first word and further ones. -/
theorem unwords_cons (w : List Char) (ws : List (List Char)) :
    unwords (w :: ws) = w ++ ws.flatMap (' ' :: ·) := by
  induction ws generalizing w with
  | nil => simp [unwords, List.intercalate]
  | cons v ws ih =>
    have hcons : unwords (w :: v :: ws) = w ++ ' ' :: unwords (v :: ws) := by
      simp [unwords, List.intercalate]
    rw [hcons, ih, List.flatMap_cons, List.cons_append]

/-- Words on both sides of a space. -/
theorem unwords_append {ws vs : List (List Char)} (hws : ws ≠ []) (hvs : vs ≠ []) :
    unwords (ws ++ vs) = unwords ws ++ ' ' :: unwords vs := by
  obtain ⟨w, ws, rfl⟩ := List.exists_cons_of_ne_nil hws
  obtain ⟨v, vs, rfl⟩ := List.exists_cons_of_ne_nil hvs
  rw [List.cons_append, unwords_cons, unwords_cons, unwords_cons, List.flatMap_append,
    List.flatMap_cons, List.append_assoc, List.cons_append]

/-- A text that ends without white space, behind the characters of a word. -/
theorem unwords_go (hlast : ∀ c ∈ cs.getLast?, isBlank c = false) (current : List Char) :
    unwords (words.go current cs) =
      current.reverse ++ squeeze (if current.isEmpty then cs.dropWhile isBlank else cs) := by
  induction cs generalizing current with
  | nil =>
    cases current with
    | nil => rfl
    | cons d ds => simp [words.go, unwords_cons]
  | cons c cs ih =>
    have hrest : ∀ d ∈ cs.getLast?, isBlank d = false := by
      intro d hd
      cases cs with
      | nil => cases hd
      | cons e es => exact hlast d (by simpa using hd)
    rw [words.go]
    cases hc : isBlank c with
    | false =>
      rw [if_neg (by simp), ih hrest, if_neg (by simp), List.reverse_cons, List.append_assoc,
        List.singleton_append, List.dropWhile_cons_of_neg (by simp [hc]), ite_self,
        squeeze_cons hc]
    | true =>
      rw [if_pos rfl]
      cases current with
      | nil =>
        simpa [List.dropWhile_cons_of_pos hc] using ih hrest []
      | cons e es =>
        -- the white space does not end the text, so a further word comes
        have hmore : words.go [] cs ≠ [] := by
          cases hend : cs.getLast? with
          | none =>
            obtain rfl := List.getLast?_eq_none_iff.mp hend
            have hblank := hlast c rfl
            rw [hc] at hblank
            cases hblank
          | some d => exact words_ne_nil (List.mem_of_getLast? hend) (hrest d hend)
        show unwords ([(e :: es).reverse] ++ words.go [] cs) =
          (e :: es).reverse ++ squeeze (c :: cs)
        rw [unwords_append (List.cons_ne_nil _ _) hmore, unwords_cons, List.flatMap_nil,
          List.append_nil, ih hrest, squeeze_stretch hc]
        rfl

/-- A text without white space at its ends is squeezed when it is collapsed. -/
theorem collapse_eq_squeeze (hfirst : ∀ c ∈ cs.head?, isBlank c = false)
    (hlast : ∀ c ∈ cs.getLast?, isBlank c = false) : collapse cs = squeeze cs := by
  rw [collapse, words, unwords_go hlast [], List.isEmpty_nil, if_pos rfl,
    dropWhile_of_stop hfirst]
  rfl

/-- Without white space at its ends nothing is trimmed. -/
theorem trim_eq_self (hfirst : ∀ c ∈ cs.head?, isBlank c = false)
    (hlast : ∀ c ∈ cs.getLast?, isBlank c = false) : trim cs = cs := by
  have hend : ∀ c ∈ cs.reverse.head?, isBlank c = false := by
    rw [List.head?_reverse]
    exact hlast
  rw [trim, trimStart, dropWhile_of_stop hfirst, trimEnd, dropWhile_of_stop hend,
    List.reverse_reverse]

/-! ### Trimming -/

/-- White space has no words. -/
theorem words_eq_nil_iff : words cs = [] ↔ ∀ c ∈ cs, isBlank c = true := by
  constructor
  · intro h c hc
    cases hblank : isBlank c with
    | true => rfl
    | false => exact absurd h (words_ne_nil hc hblank)
  · intro h
    induction cs with
    | nil => rfl
    | cons c cs ih =>
      obtain ⟨hc, hcs⟩ := List.forall_mem_cons.mp h
      have hsplit := words_append hc [] cs
      rw [List.nil_append, ih hcs] at hsplit
      exact hsplit

/-- White space in front changes no word. -/
theorem words_append_of_blank (h : ∀ c ∈ cs, isBlank c = true) (ds : List Char) :
    words (cs ++ ds) = words ds := by
  induction cs with
  | nil => rfl
  | cons c cs ih =>
    obtain ⟨hc, hcs⟩ := List.forall_mem_cons.mp h
    rw [List.cons_append, ← ih hcs]
    exact words_append hc [] (cs ++ ds)

/-- White space at the end changes no word. -/
theorem words_append_blank (cs : List Char) (h : ∀ d ∈ ds, isBlank d = true) :
    words (cs ++ ds) = words cs := by
  cases ds with
  | nil => rw [List.append_nil]
  | cons d ds =>
    obtain ⟨hd, hds⟩ := List.forall_mem_cons.mp h
    rw [words_append hd, words_eq_nil_iff.mpr hds, List.append_nil]

/-- The white space that is trimmed in front. -/
theorem exists_append_trimStart (cs : List Char) :
    ∃ blanks, (∀ c ∈ blanks, isBlank c = true) ∧ cs = blanks ++ trimStart cs :=
  ⟨cs.takeWhile isBlank, List.all_eq_true.mp List.all_takeWhile,
    List.takeWhile_append_dropWhile.symm⟩

/-- The white space that is trimmed at the end. -/
theorem exists_trimEnd_append (cs : List Char) :
    ∃ blanks, (∀ c ∈ blanks, isBlank c = true) ∧ cs = trimEnd cs ++ blanks := by
  obtain ⟨blanks, hblanks, hcs⟩ := exists_append_trimStart cs.reverse
  refine ⟨blanks.reverse, fun c hc => hblanks c (List.mem_reverse.mp hc), ?_⟩
  rw [trimEnd, ← List.reverse_append, ← trimStart, ← hcs, List.reverse_reverse]

/-- Trimming changes no word. -/
theorem words_trimStart (cs : List Char) : words (trimStart cs) = words cs := by
  obtain ⟨blanks, hblanks, hcs⟩ := exists_append_trimStart cs
  rw [hcs, words_append_of_blank hblanks, ← hcs]

theorem words_trimEnd (cs : List Char) : words (trimEnd cs) = words cs := by
  obtain ⟨blanks, hblanks, hcs⟩ := exists_trimEnd_append cs
  rw [hcs, words_append_blank _ hblanks, ← hcs]

theorem words_trim (cs : List Char) : words (trim cs) = words cs := by
  rw [trim, words_trimEnd, words_trimStart]

/-- What is left does not start with white space. -/
theorem isBlank_head?_trimStart (cs : List Char) :
    ∀ c ∈ (trimStart cs).head?, isBlank c = false := by
  intro c hc
  have hnot := List.head?_dropWhile_not isBlank cs
  rw [trimStart] at hc
  rw [hc] at hnot
  exact hnot

/-- What is left does not end with white space. -/
theorem isBlank_getLast?_trimEnd (cs : List Char) :
    ∀ c ∈ (trimEnd cs).getLast?, isBlank c = false := by
  rw [trimEnd, List.getLast?_reverse]
  exact isBlank_head?_trimStart cs.reverse

/-- A visible character stays, and what is behind it is trimmed. -/
theorem trimEnd_cons (hc : isBlank c = false) (cs : List Char) :
    trimEnd (c :: cs) = c :: trimEnd cs := by
  rw [trimEnd, trimEnd, List.reverse_cons, List.dropWhile_append]
  split
  · rename_i hnil
    rw [List.isEmpty_iff.mp hnil, List.dropWhile_cons_of_neg (by simp [hc])]
    rfl
  · rw [List.reverse_append]
    rfl

/-- Trimming at the end leaves the beginning alone. -/
theorem head?_trim (cs : List Char) : (trim cs).head? = (trimStart cs).head? := by
  rw [trim]
  cases hcs : trimStart cs with
  | nil => rfl
  | cons c rest =>
    have hc : isBlank c = false := isBlank_head?_trimStart cs c (by rw [hcs]; rfl)
    rw [trimEnd_cons hc]
    rfl

/-- White space at the end is trimmed. -/
theorem trimEnd_append_of_blank (cs : List Char) (h : ∀ d ∈ ds, isBlank d = true) :
    trimEnd (cs ++ ds) = trimEnd cs := by
  have hreverse : ∀ d ∈ ds.reverse, isBlank d = true := fun d hd => h d (List.mem_reverse.mp hd)
  rw [trimEnd, trimEnd, List.reverse_append, List.dropWhile_append_of_pos hreverse]

theorem trim_append_of_blank (cs : List Char) (h : ∀ d ∈ ds, isBlank d = true) :
    trim (cs ++ ds) = trim cs := by
  rw [trim, trim, trimStart, trimStart, List.dropWhile_append]
  split
  · rename_i hnil
    have hdrop : (ds ++ []).dropWhile isBlank = [] :=
      dropWhile_append_of_stop h fun c hc => by cases hc
    rw [List.append_nil] at hdrop
    rw [List.isEmpty_iff.mp hnil, hdrop]
  · exact trimEnd_append_of_blank _ h

/-- A word that has begun goes on up to white space. -/
theorem exists_words_go {current : List Char} (h : current ≠ []) (cs : List Char) :
    ∃ ws, words.go current cs = (current.reverse ++ cs.takeWhile (!isBlank ·)) :: ws := by
  induction cs generalizing current with
  | nil => exact ⟨[], by simp [words.go, h]⟩
  | cons c cs ih =>
    rw [words.go]
    cases hc : isBlank c with
    | true => exact ⟨words.go [] cs, by simp [h, hc]⟩
    | false =>
      obtain ⟨ws, hws⟩ := ih (List.cons_ne_nil c current)
      exact ⟨ws, by simp [hws, hc]⟩

/-- The first word is what stands in front, up to white space. -/
theorem takeWhile_trimStart (cs : List Char) :
    (trimStart cs).takeWhile (!isBlank ·) = (words cs).headD [] := by
  rw [← words_trimStart]
  have hfirst := isBlank_head?_trimStart cs
  cases hcs : trimStart cs with
  | nil => rfl
  | cons c rest =>
    -- a visible character begins the first word
    have hc : isBlank c = false := hfirst c (by rw [hcs]; rfl)
    obtain ⟨ws, hws⟩ := exists_words_go (List.cons_ne_nil c []) rest
    have hwords : words (c :: rest) = words.go [c] rest := by
      rw [words, words.go, if_neg (by simp [hc])]
    rw [hwords, hws]
    simp [hc]

/-- A word is the only word of itself. -/
theorem words_of_isWord {w : List Char} (h : IsWord w) : words w = [w] := by
  -- the part of the word that has been read is general
  have key : ∀ (cs current : List Char), (∀ c ∈ cs, isBlank c = false) →
      current.reverse ++ cs ≠ [] → words.go current cs = [current.reverse ++ cs] := by
    intro cs
    induction cs with
    | nil =>
      intro current _ hne
      rw [List.append_nil] at hne ⊢
      rw [words.go, if_neg (by simpa using hne)]
    | cons c cs ih =>
      intro current hvisible _
      obtain ⟨hc, hcs⟩ := List.forall_mem_cons.mp hvisible
      rw [words.go, if_neg (by simp [hc]), ih (c :: current) hcs (by simp)]
      simp
  exact key w [] h.2 h.1

/-- Words joined by single spaces are the words of the text. -/
theorem words_unwords {ws : List (List Char)} (h : ∀ w ∈ ws, IsWord w) :
    words (unwords ws) = ws := by
  induction ws with
  | nil => rfl
  | cons w ws ih =>
    obtain ⟨hw, hws⟩ := List.forall_mem_cons.mp h
    cases ws with
    | nil =>
      rw [unwords_cons, List.flatMap_nil, List.append_nil, words_of_isWord hw]
    | cons v vs =>
      have hsplit := unwords_append (List.cons_ne_nil w []) (List.cons_ne_nil v vs)
      rw [List.singleton_append] at hsplit
      rw [hsplit, words_append rfl, ih hws, unwords_cons, List.flatMap_nil, List.append_nil,
        words_of_isWord hw]
      rfl

/-- A text that has been collapsed stays as it is. -/
theorem collapse_collapse (cs : List Char) : collapse (collapse cs) = collapse cs := by
  rw [collapse, collapse, words_unwords fun w hw => isWord_of_mem hw]

end EventPipeline.Text
