import EventPipeline.Proofs.Text.Words
import EventPipeline.Rules.RuleFile

/-!
# `EventPipeline.Proofs.Rules.Splitting`: where a rule line is split

A rule line is collapsed first, and what the reader makes of it depends on the collapsed line alone.
`IsSplit` says that a condition and an action, both not empty, are one way to read that line as
`IF <condition> THEN <action>`. There may be several, because ` THEN ` may stand in the line more
than once, and `IsFirstSplit` is the one with the shortest condition.

`splitRule_spec` is the result: the reader finds the first split of a line that has any, and calls
every other line malformed. It rests on the same statement about characters,
`splitAtThen?_eq_some_iff`. A split is found (`SplitsAt.of_splitAtThen?`), and it is no longer than
any other (`SplitsAt.exists_le`); two splits whose conditions are equally long are the same.
-/

set_option autoImplicit false

namespace EventPipeline.Rules

/-! ### Characters -/

/-- The text is a condition, ` THEN ` and an action. The action has characters, and so has the
condition together with what is `seen` of it in front of the text. -/
structure SplitsAt (seen : Bool) (cs condition action : List Char) : Prop where
  shape : cs = condition ++ (thenWord ++ action)
  action_ne_nil : action ≠ []
  condition_ne_nil : seen = false → condition ≠ []

variable {seen : Bool} {cs condition action : List Char}

/-- The test for ` THEN ` and an action at the front of a text. -/
theorem atThen_iff :
    (seen && thenWord.isPrefixOf cs && thenWord.length < cs.length) = true ↔
      seen = true ∧ ∃ action, action ≠ [] ∧ cs = thenWord ++ action := by
  rw [Bool.and_eq_true_iff, Bool.and_eq_true_iff, List.isPrefixOf_iff_prefix, decide_eq_true_iff,
    and_assoc]
  refine and_congr_right fun _ => ⟨?_, ?_⟩
  · rintro ⟨⟨action, rfl⟩, hlength⟩
    refine ⟨action, ?_, rfl⟩
    rintro rfl
    rw [List.append_nil] at hlength
    exact Nat.lt_irrefl _ hlength
  · rintro ⟨action, haction, rfl⟩
    refine ⟨List.prefix_append _ _, ?_⟩
    rw [List.length_append]
    exact Nat.lt_add_of_pos_right (List.length_pos_iff.mpr haction)

/-- What is found is a split. -/
theorem SplitsAt.of_splitAtThen? (h : splitAtThen? seen cs = some (condition, action)) :
    SplitsAt seen cs condition action := by
  fun_induction splitAtThen? seen cs generalizing condition with
  | case1 => cases h
  | case2 seen c rest hthen =>
    obtain ⟨hseen, more, hmore, hshape⟩ := atThen_iff.mp hthen
    have hdrop : (c :: rest).drop thenWord.length = more := by rw [hshape, List.drop_left]
    rw [if_pos hthen, hdrop] at h
    cases h
    exact ⟨hshape, hmore, fun hnot => by rw [hseen] at hnot; cases hnot⟩
  | case3 seen c rest hthen ih =>
    rw [if_neg hthen] at h
    obtain ⟨⟨front, back⟩, hfound, heq⟩ := Option.map_eq_some_iff.mp h
    cases heq
    obtain ⟨hshape, hback, -⟩ := ih hfound
    exact ⟨congrArg (c :: ·) hshape, hback, fun _ => List.cons_ne_nil _ _⟩

/-- Where there is a split one is found, and its condition is no longer. -/
theorem SplitsAt.exists_le (h : SplitsAt seen cs condition action) :
    ∃ front back, splitAtThen? seen cs = some (front, back) ∧
      front.length ≤ condition.length := by
  fun_induction splitAtThen? seen cs generalizing condition with
  | case1 =>
    obtain ⟨hshape, -, -⟩ := h
    have hchars : thenWord ≠ [] := by decide
    simp [hchars] at hshape
  | case2 seen c rest hthen => exact ⟨[], _, if_pos hthen, Nat.zero_le _⟩
  | case3 seen c rest hthen ih =>
    obtain ⟨hshape, haction, hcondition⟩ := h
    cases condition with
    | nil =>
      -- then the split is here, where none was found
      have hseen : seen = true := by
        rw [← Bool.not_eq_false]
        exact fun hseen => hcondition hseen rfl
      exact absurd (atThen_iff.mpr ⟨hseen, action, haction, hshape⟩) hthen
    | cons d condition =>
      obtain ⟨rfl, hrest⟩ := List.cons.inj hshape
      obtain ⟨front, back, hfound, hle⟩ := ih ⟨hrest, haction, fun hnot => by cases hnot⟩
      refine ⟨c :: front, back, ?_, Nat.succ_le_succ hle⟩
      rw [if_neg hthen, hfound, Option.map_some]

/-- The length of the condition tells which split it is. -/
theorem SplitsAt.eq_of_length {front back : List Char} (h : SplitsAt seen cs condition action)
    (h' : SplitsAt seen cs front back) (hlength : front.length = condition.length) :
    front = condition ∧ back = action := by
  have hshapes := h'.shape.symm.trans h.shape
  obtain ⟨hfront, hback⟩ := List.append_inj hshapes hlength
  exact ⟨hfront, List.append_cancel_left hback⟩

/-- A text is split where the condition is shortest. -/
theorem splitAtThen?_eq_some_iff :
    splitAtThen? seen cs = some (condition, action) ↔
      SplitsAt seen cs condition action ∧
        ∀ front back, SplitsAt seen cs front back → condition.length ≤ front.length := by
  constructor
  · intro h
    refine ⟨.of_splitAtThen? h, fun front back hsplit => ?_⟩
    obtain ⟨first, rest, hfirst, hle⟩ := hsplit.exists_le
    rw [h] at hfirst
    cases hfirst
    exact hle
  · rintro ⟨hsplit, hshortest⟩
    obtain ⟨front, back, hfound, hle⟩ := hsplit.exists_le
    have hfront := SplitsAt.of_splitAtThen? hfound
    have hlength := Nat.le_antisymm hle (hshortest front back hfront)
    obtain ⟨rfl, rfl⟩ := hsplit.eq_of_length hfront hlength
    exact hfound

/-! ### Lines -/

/-- The line with its white space collapsed. -/
def collapsed (line : String) : String :=
  String.ofList (Text.collapse line.toList)

/-- Collapsed, the line reads `IF <condition> THEN <action>`. -/
structure IsSplit (line condition action : String) : Prop where
  shape : collapsed line = "IF " ++ condition ++ " THEN " ++ action
  condition_ne : condition ≠ ""
  action_ne : action ≠ ""

/-- Of the ways to read the line it is the one with the shortest condition. -/
structure IsFirstSplit (line condition action : String) : Prop extends
    IsSplit line condition action where
  shortest : ∀ front back, IsSplit line front back → condition.length ≤ front.length

/-- The rest of a line behind its `IF `. -/
def afterIf? : List Char → Option (List Char)
  | 'I' :: 'F' :: ' ' :: rest => some rest
  | _ => none

theorem afterIf?_eq_some_iff {rest : List Char} :
    afterIf? cs = some rest ↔ cs = 'I' :: 'F' :: ' ' :: rest := by
  constructor
  · intro h
    unfold afterIf? at h
    split at h
    · cases h
      rfl
    · cases h
  · rintro rfl
    rfl

/-- The split of a line is that of the text behind its `IF `. -/
theorem splitRule_eq (line : String) :
    splitRule line =
      match (afterIf? (Text.collapse line.toList)).bind (splitAtThen? false) with
      | some (condition, action) => .ok (String.ofList condition, String.ofList action)
      | none => .error (.malformedRule line) := by
  unfold splitRule
  split
  · rename_i rest hrest
    rw [hrest]
    rfl
  · rename_i hother
    have hnone : afterIf? (Text.collapse line.toList) = none := by
      rw [Option.eq_none_iff_forall_ne_some]
      exact fun rest hrest => hother rest (afterIf?_eq_some_iff.mp hrest)
    rw [hnone]
    rfl

variable {line condition action : String}

theorem isSplit_iff :
    IsSplit line condition action ↔
      ∃ rest, afterIf? (Text.collapse line.toList) = some rest ∧
        SplitsAt false rest condition.toList action.toList := by
  have hne (s : String) : s ≠ "" ↔ s.toList ≠ [] := by simp
  have hline : collapsed line = "IF " ++ condition ++ " THEN " ++ action ↔
      Text.collapse line.toList =
        'I' :: 'F' :: ' ' :: (condition.toList ++ (thenWord ++ action.toList)) := by
    have hif : "IF ".toList = ['I', 'F', ' '] := rfl
    rw [← String.toList_inj, collapsed, String.toList_ofList, String.toList_append,
      String.toList_append, String.toList_append, hif, List.append_assoc, List.append_assoc]
    rfl
  constructor
  · rintro ⟨hshape, hcondition, haction⟩
    exact ⟨_, afterIf?_eq_some_iff.mpr (hline.mp hshape), rfl, (hne _).mp haction,
      fun _ => (hne _).mp hcondition⟩
  · rintro ⟨rest, hrest, hshape, haction, hcondition⟩
    rw [afterIf?_eq_some_iff, hshape] at hrest
    exact ⟨hline.mpr hrest, (hne _).mpr (hcondition rfl), (hne _).mpr haction⟩

theorem isFirstSplit_iff :
    IsFirstSplit line condition action ↔
      (afterIf? (Text.collapse line.toList)).bind (splitAtThen? false) =
        some (condition.toList, action.toList) := by
  rw [Option.bind_eq_some_iff]
  constructor
  · rintro ⟨hsplit, hshortest⟩
    obtain ⟨rest, hrest, hchars⟩ := isSplit_iff.mp hsplit
    refine ⟨rest, hrest, splitAtThen?_eq_some_iff.mpr ⟨hchars, fun front back hother => ?_⟩⟩
    have hfront : IsSplit line (String.ofList front) (String.ofList back) := by
      rw [isSplit_iff, String.toList_ofList, String.toList_ofList]
      exact ⟨rest, hrest, hother⟩
    have hle := hshortest _ _ hfront
    rwa [← String.length_toList, String.length_ofList] at hle
  · rintro ⟨rest, hrest, hfound⟩
    obtain ⟨hchars, hshortest⟩ := splitAtThen?_eq_some_iff.mp hfound
    refine ⟨isSplit_iff.mpr ⟨rest, hrest, hchars⟩, fun front back hother => ?_⟩
    obtain ⟨rest', hrest', hother⟩ := isSplit_iff.mp hother
    obtain rfl := Option.some.inj (hrest.symm.trans hrest')
    rw [← String.length_toList, ← String.length_toList]
    exact hshortest _ _ hother

/-- A line is split exactly into its first split. -/
theorem splitRule_eq_ok_iff :
    splitRule line = .ok (condition, action) ↔ IsFirstSplit line condition action := by
  have hofList (cs : List Char) (s : String) : String.ofList cs = s ↔ cs = s.toList := by
    rw [← String.toList_inj, String.toList_ofList]
  rw [isFirstSplit_iff, splitRule_eq]
  cases (afterIf? (Text.collapse line.toList)).bind (splitAtThen? false) with
  | none => simp
  | some halves => simp [Prod.ext_iff, hofList]

/-- The only error names the line as it was given. -/
theorem splitRule_cases (line : String) :
    (∃ condition action, splitRule line = .ok (condition, action)) ∨
      splitRule line = .error (.malformedRule line) := by
  rw [splitRule_eq]
  split
  · exact .inl ⟨_, _, rfl⟩
  · exact .inr rfl

/-- A line that has a split is split. -/
theorem exists_splitRule_eq_ok_iff :
    (∃ halves, splitRule line = .ok halves) ↔
      ∃ condition action, IsSplit line condition action := by
  constructor
  · rintro ⟨⟨condition, action⟩, hread⟩
    exact ⟨condition, action, (splitRule_eq_ok_iff.mp hread).toIsSplit⟩
  · rintro ⟨condition, action, hsplit⟩
    obtain ⟨rest, hrest, hchars⟩ := isSplit_iff.mp hsplit
    obtain ⟨front, back, hfound, -⟩ := hchars.exists_le
    rw [splitRule_eq, hrest, Option.bind_some, hfound]
    exact ⟨_, rfl⟩

/-- A line without a split is malformed, and the error names the line as it was given. -/
theorem splitRule_eq_error_iff {e : RuleFileError} :
    splitRule line = .error e ↔
      e = .malformedRule line ∧ ∀ condition action, ¬IsSplit line condition action := by
  have hread : (∃ halves, splitRule line = .ok halves) ↔
      ∃ condition action, IsSplit line condition action := exists_splitRule_eq_ok_iff
  obtain ⟨condition, action, hok⟩ | herror := splitRule_cases line
  · obtain ⟨front, back, hsplit⟩ := hread.mp ⟨_, hok⟩
    rw [hok]
    refine iff_of_false (fun h => by cases h) ?_
    rintro ⟨-, hnone⟩
    exact hnone front back hsplit
  · have hnone : ∀ condition action, ¬IsSplit line condition action := by
      intro front back hsplit
      obtain ⟨halves, hok⟩ := hread.mpr ⟨front, back, hsplit⟩
      rw [herror] at hok
      cases hok
    rw [herror, Except.error.injEq]
    exact ⟨fun h => ⟨h.symm, hnone⟩, fun h => h.1.symm⟩

/-- The collapsed line is read as the line is; an error names the text that was read. -/
theorem splitRule_collapsed (line : String) :
    splitRule (collapsed line) =
      (splitRule line).mapError fun _ => .malformedRule (collapsed line) := by
  have hcollapse : Text.collapse (collapsed line).toList = Text.collapse line.toList := by
    rw [collapsed, String.toList_ofList, Text.collapse_collapse]
  rw [splitRule_eq, splitRule_eq, hcollapse]
  split
  · rfl
  · rfl

/-- The reader of rule lines. A line is split exactly if it reads `IF <condition> THEN <action>`
when it is collapsed, with a condition and an action that are not empty, and of the ways to read it
so the one with the shortest condition is taken. Every other line is malformed, and the error has
the line as it was given. So the white space of a line does not count, and the halves joined again
are the collapsed line. -/
theorem splitRule_spec (line : String) :
    ((∃ halves, splitRule line = .ok halves) ↔
      ∃ condition action, IsSplit line condition action) ∧
    (∀ condition action,
      splitRule line = .ok (condition, action) ↔ IsFirstSplit line condition action) ∧
    (∀ e, splitRule line = .error e ↔
      e = .malformedRule line ∧ ∀ condition action, ¬IsSplit line condition action) ∧
    splitRule (collapsed line) =
      ((splitRule line).mapError fun _ => .malformedRule (collapsed line)) ∧
    ∀ condition action, splitRule line = .ok (condition, action) →
      "IF " ++ condition ++ " THEN " ++ action = collapsed line :=
  ⟨exists_splitRule_eq_ok_iff, fun _ _ => splitRule_eq_ok_iff, fun _ => splitRule_eq_error_iff,
    splitRule_collapsed line, fun _ _ hread => (splitRule_eq_ok_iff.mp hread).shape.symm⟩

/-- ` THEN ` stands in the line three times, and the first one with a condition in front counts. -/
example : splitRule "IF\tTHEN  THEN x THEN y " = .ok ("THEN", "x THEN y") :=
  rfl

end EventPipeline.Rules
