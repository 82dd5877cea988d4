import EventPipeline.Proofs.Rules.Squeezing

/-!
# `EventPipeline.Proofs.Rules.Halves`: the two halves of a rule line

A rule line `IF <condition> THEN <action>` is collapsed before it is split, and each half is
tokenized on its own. `Rule.compile_of_halves` says what becomes of two halves that are put
together to a line: the line compiles, the rule has their tokens, and only in string literals the
white space of the line has become single spaces. The word `THEN` may stand in the action and,
inside a literal or a comment, next to other characters in the condition, but it must not be a
word of the condition.
-/

set_option autoImplicit false

namespace EventPipeline.Rules

open Text (isBlank words unwords collapse IsWord takeWhile_append_of_stop)

/-! ### Parentheses -/

/-- The token is an opening parenthesis. -/
def Token.isOpening : Token → Bool
  | .leftParen => true
  | _ => false

/-- The token is a closing parenthesis. -/
def Token.isClosing : Token → Bool
  | .rightParen => true
  | _ => false

/-- Every parenthesis has its partner: there are as many of one kind as of the other, and nowhere
have more been closed than opened. -/
structure IsBalanced (ts : List Token) : Prop where
  closed : ts.countP Token.isClosing = ts.countP Token.isOpening
  nested : ∀ before, before <+: ts →
    before.countP Token.isClosing ≤ before.countP Token.isOpening

/-- The beginnings of a list are the empty one and those that start with its head. -/
theorem forall_prefix_cons {α : Type} {p : List α → Prop} {a : α} {as : List α} :
    (∀ before, before <+: a :: as → p before) ↔
      p [] ∧ ∀ before, before <+: as → p (a :: before) := by
  constructor
  · intro h
    exact ⟨h [] List.nil_prefix,
      fun before hbefore => h _ (List.cons_prefix_cons.mpr ⟨rfl, hbefore⟩)⟩
  · rintro ⟨hnil, hcons⟩ before hbefore
    cases before with
    | nil => exact hnil
    | cons b before =>
      obtain ⟨rfl, hrest⟩ := List.cons_prefix_cons.mp hbefore
      exact hcons before hrest

/-- The check with some parentheses open. -/
theorem checkParens_eq_ok_iff {depth : Nat} {ts : List Token} :
    checkParens depth ts = .ok () ↔
      ts.countP Token.isClosing = depth + ts.countP Token.isOpening ∧
        ∀ before, before <+: ts →
          before.countP Token.isClosing ≤ depth + before.countP Token.isOpening := by
  induction ts generalizing depth with
  | nil =>
    rw [checkParens]
    split
    · rename_i hzero
      simp [hzero]
    · rename_i hopen
      simp [Ne.symm hopen]
  | cons t ts ih =>
    rw [forall_prefix_cons]
    cases t with
    | leftParen =>
      rw [checkParens, ih]
      simp [List.countP_cons, Token.isOpening, Token.isClosing, Nat.add_right_comm depth 1,
        Nat.add_assoc]
    | rightParen =>
      cases depth with
      | zero =>
        -- the check fails here, and the beginning that ends here has too many closed
        have hfail : ¬ ∀ before, before <+: ts →
            (Token.rightParen :: before).countP Token.isClosing ≤
              0 + (Token.rightParen :: before).countP Token.isOpening := by
          intro h
          simpa [Token.isOpening, Token.isClosing] using h [] List.nil_prefix
        constructor
        · intro h
          cases h
        · rintro ⟨-, -, h⟩
          exact absurd h hfail
      | succ depth =>
        have hequal (a b : Nat) : a + 1 = depth + 1 + b ↔ a = depth + b := by omega
        have hless (a b : Nat) : a + 1 ≤ depth + 1 + b ↔ a ≤ depth + b := by omega
        rw [checkParens, ih]
        simp [List.countP_cons, Token.isOpening, Token.isClosing, hequal, hless]
    | _ =>
      show checkParens depth ts = .ok () ↔ _
      rw [ih]
      simp [Token.isOpening, Token.isClosing]

/-- The check accepts exactly the tokens whose parentheses are balanced. -/
theorem checkParens_zero_eq_ok_iff {ts : List Token} :
    checkParens 0 ts = .ok () ↔ IsBalanced ts := by
  rw [checkParens_eq_ok_iff, Nat.zero_add]
  constructor
  · rintro ⟨hclosed, hnested⟩
    exact ⟨hclosed, fun before hbefore => by simpa using hnested before hbefore⟩
  · rintro ⟨hclosed, hnested⟩
    exact ⟨hclosed, fun before hbefore => by simpa using hnested before hbefore⟩

/-- Squeezing leaves parentheses alone. -/
theorem checkParens_map_squeeze (depth : Nat) (ts : List Token) :
    checkParens depth (ts.map Token.squeeze) = checkParens depth ts := by
  induction ts generalizing depth with
  | nil => rfl
  | cons t ts ih =>
    cases t with
    | rightParen =>
      cases depth with
      | zero => rfl
      | succ depth => exact ih depth
    | _ => exact ih _

/-! ### Where a line is split -/

/-- The line is not split inside a word. -/
theorem splitAtThen?_append {w : List Char} (hw : ∀ c ∈ w, isBlank c = false) (seen : Bool)
    (rest : List Char) :
    splitAtThen? seen (w ++ rest) =
      (splitAtThen? (seen || !w.isEmpty) rest).map fun halves => (w ++ halves.1, halves.2) := by
  induction w generalizing seen with
  | nil => simp
  | cons c w ih =>
    obtain ⟨hc, hcs⟩ := List.forall_mem_cons.mp hw
    -- the split starts with a space, and there is none in a word
    have hspace : (' ' == c) = false := by
      rw [beq_eq_false_iff_ne]
      rintro rfl
      cases hc
    have hprefix (cs : List Char) : thenWord.isPrefixOf (c :: cs) = false := by
      show (' ' == c && _) = false
      rw [hspace, Bool.false_and]
    rw [List.cons_append, splitAtThen?, hprefix, Bool.and_false, Bool.false_and,
      if_neg Bool.false_ne_true, ih hcs]
    simp [Function.comp_def]

/-- The line is not split in front of another word. -/
theorem splitAtThen?_space {v rest : List Char} (hv : ∀ c ∈ v, isBlank c = false)
    (hthen : v ≠ "THEN".toList) :
    splitAtThen? true (' ' :: (v ++ ' ' :: rest)) =
      (splitAtThen? true (v ++ ' ' :: rest)).map fun halves => (' ' :: halves.1, halves.2) := by
  have hprefix : thenWord.isPrefixOf (' ' :: (v ++ ' ' :: rest)) = false := by
    rw [← Bool.not_eq_true, List.isPrefixOf_iff_prefix]
    rintro ⟨more, hmore⟩
    -- both texts go on with a word and a space, so that the words are the same
    have hword : "THEN".toList ++ ' ' :: more = v ++ ' ' :: rest := List.tail_eq_of_cons_eq hmore
    have htake := congrArg (List.takeWhile (!isBlank ·)) hword
    have hstop : ∀ cs : List Char, ∀ c ∈ (' ' :: cs).head?, (!isBlank c) = false := by
      intro cs c hc
      cases hc
      rfl
    rw [takeWhile_append_of_stop (by simp [isBlank]) (hstop more),
      takeWhile_append_of_stop (by simpa using hv) (hstop rest)] at htake
    exact hthen htake.symm
  rw [splitAtThen?, hprefix, Bool.and_false, Bool.false_and, if_neg Bool.false_ne_true]

/-- Behind words that are not `THEN` the line is split at the first `THEN`. -/
theorem splitAtThen?_flatMap {ws : List (List Char)} {action : List Char}
    (hws : ∀ w ∈ ws, IsWord w) (hthen : "THEN".toList ∉ ws) (haction : action ≠ []) :
    splitAtThen? true (ws.flatMap (' ' :: ·) ++ (thenWord ++ action)) =
      some (ws.flatMap (' ' :: ·), action) := by
  induction ws with
  | nil =>
    obtain ⟨c, action, rfl⟩ := List.exists_cons_of_ne_nil haction
    have hchars : thenWord = [' ', 'T', 'H', 'E', 'N', ' '] := String.toList_ofList
    simp [splitAtThen?, hchars]
  | cons w ws ih =>
    obtain ⟨hw, hws⟩ := List.forall_mem_cons.mp hws
    have hne := List.ne_of_not_mem_cons hthen
    -- a space stands behind every word, also behind the last one
    obtain ⟨rest, hrest⟩ : ∃ rest, ws.flatMap (' ' :: ·) ++ (thenWord ++ action) = ' ' :: rest := by
      cases ws with
      | nil => exact ⟨_, rfl⟩
      | cons v ws => exact ⟨_, rfl⟩
    rw [List.flatMap_cons, List.append_assoc, List.cons_append, hrest,
      splitAtThen?_space hw.2 hne.symm, splitAtThen?_append hw.2, Bool.true_or, ← hrest,
      ih hws (List.not_mem_of_not_mem_cons hthen)]
    rfl

/-- A condition without the word `THEN` and an action are split where they were put together. -/
theorem splitAtThen?_unwords {ws : List (List Char)} {action : List Char} (hne : ws ≠ [])
    (hws : ∀ w ∈ ws, IsWord w) (hthen : "THEN".toList ∉ ws) (haction : action ≠ []) :
    splitAtThen? false (unwords ws ++ (thenWord ++ action)) = some (unwords ws, action) := by
  obtain ⟨w, ws, rfl⟩ := List.exists_cons_of_ne_nil hne
  obtain ⟨hw, hws⟩ := List.forall_mem_cons.mp hws
  have hseen : (false || !w.isEmpty) = true := by simpa using hw.1
  rw [Text.unwords_cons, List.append_assoc, splitAtThen?_append hw.2, hseen,
    splitAtThen?_flatMap hws (List.not_mem_of_not_mem_cons hthen) haction]
  rfl

/-! ### Halves -/

/-- The text is one line without white space at its ends, and it has the tokens, with balanced
parentheses. -/
structure IsHalf (text : String) (ts : List Token) : Prop where
  nonempty : text.toList ≠ []
  line : '\n' ∉ text.toList
  first : ∀ c ∈ text.toList.head?, isBlank c = false
  last : ∀ c ∈ text.toList.getLast?, isBlank c = false
  tokens : tokenize text = .ok ts
  balanced : IsBalanced ts

variable {condition action : String} {cs as : List Token}

/-- A half has a word. -/
theorem IsHalf.words_ne_nil (h : IsHalf condition cs) : words condition.toList ≠ [] := by
  obtain ⟨c, rest, hcons⟩ := List.exists_cons_of_ne_nil h.nonempty
  refine Text.words_ne_nil (c := c) ?_ (h.first c ?_)
  · rw [hcons]
    exact List.mem_cons_self
  · rw [hcons]
    rfl

/-- A half compiles by itself, with its string literals squeezed. -/
theorem IsHalf.compileHalf_collapse (h : IsHalf condition cs) (line : String) :
    compileHalf line (String.ofList (collapse condition.toList)) =
      .ok (cs.map Token.squeeze) := by
  have hparens : checkParens 0 (cs.map Token.squeeze) = .ok () := by
    rw [checkParens_map_squeeze]
    exact checkParens_zero_eq_ok_iff.mpr h.balanced
  rw [Text.collapse_eq_squeeze h.first h.last]
  simp only [compileHalf, tokenize_squeeze h.line h.tokens, hparens]

/-- What a line that is put together looks like when it is collapsed. -/
theorem collapse_line (hcondition : words condition.toList ≠ [])
    (haction : words action.toList ≠ []) :
    collapse ("IF " ++ condition ++ " THEN " ++ action).toList =
      'I' :: 'F' :: ' ' :: (collapse condition.toList ++
        (thenWord ++ collapse action.toList)) := by
  have hline : ("IF " ++ condition ++ " THEN " ++ action).toList =
      "IF".toList ++ ' ' :: (condition.toList ++ ' ' :: ("THEN".toList ++ ' ' :: action.toList)) :=
    by simp
  have hblank : isBlank ' ' = true := rfl
  have hif : words "IF".toList = ["IF".toList] := rfl
  have hthen : words "THEN".toList = ["THEN".toList] := rfl
  rw [collapse, hline, Text.words_append hblank, Text.words_append hblank,
    Text.words_append hblank, hif, hthen, Text.unwords_append (List.cons_ne_nil _ _) (by simp),
    Text.unwords_append hcondition (by simp), Text.unwords_append (List.cons_ne_nil _ _) haction]
  rfl

/-- A line that is put together is split into its halves. -/
theorem splitRule_of_halves (hcondition : IsHalf condition cs) (haction : IsHalf action as)
    (hthen : "THEN".toList ∉ words condition.toList) :
    splitRule ("IF " ++ condition ++ " THEN " ++ action) =
      .ok (String.ofList (collapse condition.toList), String.ofList (collapse action.toList)) := by
  obtain ⟨w, ws, hwords⟩ := List.exists_cons_of_ne_nil haction.words_ne_nil
  -- the split needs an action, and the first word of this one is not empty
  have hw : w ≠ [] := (Text.isWord_of_mem (hwords ▸ List.mem_cons_self)).1
  have hne : collapse action.toList ≠ [] := by
    rw [collapse, hwords, Text.unwords_cons]
    simp [hw]
  have hsplit : splitAtThen? false (collapse condition.toList ++
      (thenWord ++ collapse action.toList)) =
        some (collapse condition.toList, collapse action.toList) :=
    splitAtThen?_unwords hcondition.words_ne_nil (fun w => Text.isWord_of_mem) hthen hne
  rw [splitRule, collapse_line hcondition.words_ne_nil haction.words_ne_nil]
  simp only [hsplit]

/-- A line has no white space at its ends, if its action has none at its end. -/
theorem trim_line (haction : IsHalf action as) :
    Text.trim ("IF " ++ condition ++ " THEN " ++ action).toList =
      ("IF " ++ condition ++ " THEN " ++ action).toList := by
  refine Text.trim_eq_self (fun c hc => ?_) fun c hc => ?_
  · have hfirst : ("IF " ++ condition ++ " THEN " ++ action).toList.head? = some 'I' := by simp
    rw [hfirst] at hc
    cases hc
    rfl
  · refine haction.last c ?_
    rw [String.toList_append, List.getLast?_append_of_ne_nil _ haction.nonempty] at hc
    exact hc

/-- Put a condition and an action together to a rule line, where the condition does not have the
word `THEN`. The line compiles, and the rule has the tokens of the condition and of the action.
Only in string literals something changes: every stretch of white space becomes one space. -/
theorem Rule.compile_of_halves (hcondition : IsHalf condition cs) (haction : IsHalf action as)
    (hthen : "THEN".toList ∉ words condition.toList) :
    Rule.compile ("IF " ++ condition ++ " THEN " ++ action) =
      .ok { text := "IF " ++ condition ++ " THEN " ++ action
            condition := cs.map Token.squeeze
            action := as.map Token.squeeze } := by
  rw [Rule.compile, splitRule_of_halves hcondition haction hthen]
  simp only [Except.mapError, Bind.bind, Except.bind, hcondition.compileHalf_collapse,
    haction.compileHalf_collapse, trim_line haction, String.ofList_toList]
  rfl

/-- A condition with two spaces in its string literal. -/
theorem isHalf_spaced : IsHalf "( payload == 'a  b' )"
    [.leftParen, .identifier "payload", .operator .eq, .str "a  b", .rightParen] := by
  have hlex : ∀ t ∈ [Token.leftParen, .identifier "payload", .operator .eq, .str "a  b",
      .rightParen], t.IsLexable := by
    have hchars : ∀ c ∈ "ayload".toList, isNameChar c = true :=
      List.all_eq_true.mp (by decide)
    have hname : (Token.identifier "payload").IsLexable :=
      .identifier ⟨"payload".toList, [], ⟨rfl, hchars⟩, List.forall_mem_nil _, rfl⟩
        (by decide) (by decide)
    have heq : (Token.operator .eq).IsLexable := .operator (by decide)
    have hstr : (Token.str "a  b").IsLexable := .str (.inl (by decide))
    simp [hname, heq, hstr, Token.IsLexable.leftParen, Token.IsLexable.rightParen]
  have hspell : Spelling [.leftParen, .identifier "payload", .operator .eq, .str "a  b",
      .rightParen] "( payload == 'a  b' )".toList :=
    .cons .leftParen (.cons (.identifier "payload") (.cons (.operator .eq)
      (.cons (.str "a  b" '\'' (.inr rfl) (by decide)) (.cons .rightParen .nil))))
  exact {
    nonempty := by decide
    line := by decide
    first := by simp [isBlank]
    last := by simp [isBlank]
    tokens := readsAll_of_spelling hspell hlex (Cursor.start _) _ rfl (Nat.lt_succ_self _)
    balanced := checkParens_zero_eq_ok_iff.mp rfl }

/-- An action that is a string literal. -/
theorem isHalf_hit : IsHalf "'hit'" [.str "hit"] := by
  have hlex : ∀ t ∈ [Token.str "hit"], t.IsLexable :=
    List.forall_mem_singleton.mpr (.str (.inl (by decide)))
  have hspell : Spelling [.str "hit"] "'hit'".toList :=
    .cons (.str "hit" '\'' (.inr rfl) (by decide)) .nil
  exact {
    nonempty := by decide
    line := by decide
    first := by simp [isBlank]
    last := by simp [isBlank]
    tokens := readsAll_of_spelling hspell hlex (Cursor.start _) _ rfl (Nat.lt_succ_self _)
    balanced := checkParens_zero_eq_ok_iff.mp rfl }

/-- The two spaces in the string literal of the condition become one. -/
theorem Rule.compile_spaced :
    IsHalf "( payload == 'a  b' )"
        [.leftParen, .identifier "payload", .operator .eq, .str "a  b", .rightParen] ∧
      IsHalf "'hit'" [.str "hit"] ∧ "THEN".toList ∉ words "( payload == 'a  b' )".toList ∧
      Rule.compile ("IF " ++ "( payload == 'a  b' )" ++ " THEN " ++ "'hit'") =
        .ok { text := "IF ( payload == 'a  b' ) THEN 'hit'"
              condition :=
                [.leftParen, .identifier "payload", .operator .eq, .str "a b", .rightParen]
              action := [.str "hit"] } := by
  have hthen : "THEN".toList ∉ words "( payload == 'a  b' )".toList := by decide
  exact ⟨isHalf_spaced, isHalf_hit, hthen, Rule.compile_of_halves isHalf_spaced isHalf_hit hthen⟩

/-- So the condition of the rule is not what its text is tokenized to. -/
theorem Rule.compile_spaced_ne_tokenize :
    IsHalf "( payload == 'a  b' )"
        [.leftParen, .identifier "payload", .operator .eq, .str "a  b", .rightParen] ∧
      IsHalf "'hit'" [.str "hit"] ∧ "THEN".toList ∉ words "( payload == 'a  b' )".toList ∧
      ∀ rule, Rule.compile ("IF " ++ "( payload == 'a  b' )" ++ " THEN " ++ "'hit'") = .ok rule →
        Except.ok rule.condition ≠ tokenize "( payload == 'a  b' )" := by
  have hthen : "THEN".toList ∉ words "( payload == 'a  b' )".toList := by decide
  refine ⟨isHalf_spaced, isHalf_hit, hthen, fun rule hrule => ?_⟩
  rw [Rule.compile, splitRule_of_halves isHalf_spaced isHalf_hit hthen] at hrule
  simp only [Except.mapError, Bind.bind, Except.bind, isHalf_spaced.compileHalf_collapse,
    isHalf_hit.compileHalf_collapse] at hrule
  obtain rfl := Except.ok.inj hrule
  rw [isHalf_spaced.tokens]
  intro heq
  have hliteral : String.ofList (Text.squeeze "a  b".toList) = "a  b" := by
    simpa [Token.squeeze] using heq
  exact absurd hliteral (by decide)

end EventPipeline.Rules
