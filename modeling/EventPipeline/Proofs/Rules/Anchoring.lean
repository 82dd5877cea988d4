import EventPipeline.Proofs.Pattern.Groups
import EventPipeline.Rules.Builtin

/-!
# `EventPipeline.Proofs.Rules.Anchoring`: the anchor of `re_match`

`re_match` anchors a pattern by its text: it puts the pattern between `^(?:` and `)`, reads what
this makes, and looks for a match anywhere in the subject. A match of the whole then is a match of
the pattern at the start (`matchesSomewhere_anchor`), and a pattern that can be read on its own can
be read in the group. So the action does what it should on every pattern
(`matchAnchored_of_readPiece?`), apart from two kinds of patterns that it refuses: those that end
in a comment of verbose mode, which takes the closing parenthesis, and those that are nested so
deep that the two levels around them are too much.

What is not a pattern is refused, too, unless it closes the group of the anchor itself. For all
other texts `matchAnchored_eq_ok_iff` tells when the action answers and what. A stray parenthesis
is the exception: in `a)|(b` the second alternative stands outside of the group, and matches
everywhere.
-/

set_option autoImplicit false

namespace EventPipeline

namespace Pattern

theorem merge_isEmpty (places more : List Nat) :
    (merge places more).isEmpty = (places.isEmpty && more.isEmpty) := by
  induction more generalizing places with
  | nil => exact (Bool.and_true _).symm
  | cons i more ih =>
    show (merge (if places.contains i then places else i :: places) more).isEmpty = _
    rw [ih]
    split
    · rename_i hmem
      cases places with
      | nil => cases hmem
      | cons j places => rfl
    · cases places with
      | nil => rfl
      | cons j places => rfl

/-- A pattern behind `^` matches somewhere exactly if it matches at the start. -/
theorem matchesSomewhere_anchor (p : Pattern) (text : String) :
    (seq (look .textStart) p).matchesSomewhere text = p.matchesStart text := by
  have hstart (cs : Array Char) : ((seq (look .textStart) p).ends cs 0).isEmpty =
      (p.ends cs 0).isEmpty := by
    show (merge [] (p.ends cs 0)).isEmpty = _
    rw [merge_isEmpty]
    rfl
  -- no later place is the start of the text
  have hlater (cs : Array Char) : (List.range cs.size).any
      ((fun i => !((seq (look .textStart) p).ends cs i).isEmpty) ∘ Nat.succ) = false :=
    List.any_eq_false.mpr fun i _ => Bool.false_ne_true
  unfold matchesSomewhere matchesStart
  dsimp only
  rw [List.range_succ_eq_map, List.any_cons, List.any_map, hstart, hlater, Bool.or_false]

end Pattern

namespace Rules.Builtin

open Pattern

/-- What stands around the group that the anchor puts a pattern into. -/
def aroundAnchor : OpenGroup where
  flags := {}
  pieces := [{ pattern := some (.look .textStart) }]
  alternatives := []

/-- Behind `^(?:` the reader is inside of the group. -/
theorem readPiece?_anchored (pattern : String) :
    readPiece? (anchored pattern) =
      readRest? (Reader.within {} [aroundAnchor]) (pattern.toList ++ [')']) := by
  have htext : (anchored pattern).toList =
      '^' :: '(' :: '?' :: ':' :: (pattern.toList ++ [')']) := by
    simp [anchored]
  rw [readPiece?, htext]
  have hcaret : next? {} ('^' :: '(' :: '?' :: ':' :: (pattern.toList ++ [')'])) =
    some (Reader.add {} (.look .textStart), '(' :: '?' :: ':' :: (pattern.toList ++ [')'])) := rfl
  have hgroup : next? (Reader.add {} (.look .textStart))
      ('(' :: '?' :: ':' :: (pattern.toList ++ [')'])) =
    some (Reader.within {} [aroundAnchor], pattern.toList ++ [')']) := rfl
  rw [readRest?_of_element hcaret, readRest?_of_element hgroup]

theorem close_aroundAnchor {piece : Piece} {q : Pattern} (h : piece.pattern = some q) :
    aroundAnchor.close piece =
      { pattern := some (.seq (.look .textStart) q), depth := piece.depth + 2 } := by
  obtain ⟨pattern, depth⟩ := piece
  cases h
  have hdepth : max (max 0 0) (depth + 1) + 1 = depth + 2 := by omega
  rw [← hdepth]
  rfl

/-- A pattern that can be read on its own is matched at the start of the subject, unless it takes
the closing parenthesis or is nested too deep for two further levels. -/
theorem matchAnchored_of_readPiece? {pattern : String} {piece : Piece} {q : Pattern}
    (h : readPiece? pattern = some piece) (hq : piece.pattern = some q) (subject : String) :
    matchAnchored pattern subject =
      if readPiece? (pattern ++ ")") = none ∧ piece.depth + 2 ≤ maxDepth then
        .ok (q.matchesStart subject)
      else reMatch.fail "regex parse error" := by
  have hbehind : readPiece? (pattern ++ ")") = readRest? {} (pattern.toList ++ [')']) := by
    rw [readPiece?, String.toList_append]
    rfl
  have hread : Pattern.read? (anchored pattern) =
      (readRest? (Reader.within {} [aroundAnchor]) (pattern.toList ++ [')'])).bind fun piece =>
        if maxDepth < piece.depth then none else piece.pattern := by
    rw [Pattern.read?, readPiece?_anchored]
    rfl
  rw [matchAnchored, hread, hbehind]
  -- either the parenthesis closes the group, or a comment takes it
  obtain ⟨halone, hinside⟩ | ⟨halone, hinside⟩ :=
    readRest?_closing h (.behind pattern.toList) aroundAnchor
  · rw [halone, hinside, close_aroundAnchor hq, Option.bind_some]
    dsimp only
    by_cases hdepth : piece.depth + 2 ≤ maxDepth
    · rw [if_neg (Nat.not_lt.mpr hdepth), if_pos ⟨rfl, hdepth⟩]
      exact congrArg Except.ok (matchesSomewhere_anchor q subject)
    · rw [if_pos (Nat.lt_of_not_le hdepth), if_neg fun hboth => hdepth hboth.2]
  · rw [halone, hinside]
    exact (if_neg fun hboth => Option.some_ne_none _ hboth.1).symm

/-- The comment takes the parenthesis. -/
example : (readPiece? "(?x)a #").isSome ∧ (matchAnchored "(?x)a #" "a").toOption = none := by
  decide

/-- A text that cannot be read on its own is refused, unless it closes the group of the anchor. -/
theorem matchAnchored_of_refused {pattern : String} (h : readPiece? pattern = none)
    (hstray : ¬HasStray {} pattern.toList) (subject : String) :
    matchAnchored pattern subject = reMatch.fail "regex parse error" := by
  have hinside : readPiece? (anchored pattern) = none := by
    rw [readPiece?_anchored]
    refine Classical.byContradiction fun hsome => ?_
    exact readRest?_of_within (.behind pattern.toList) hsome hstray h
  rw [matchAnchored, Pattern.read?, hinside]
  rfl

/-- The first parenthesis closes the group of the anchor. -/
example : (readPiece? "a)|(b").isNone ∧ (matchAnchored "a)|(b" "zzb").toOption = some true := by
  decide

/-- A text without a stray parenthesis has an answer exactly if it is a pattern, with room for the
anchor and without a comment at its end, and the answer is whether the pattern matches at the
start of the subject. -/
theorem matchAnchored_eq_ok_iff {pattern : String} (hstray : ¬HasStray {} pattern.toList)
    (subject : String) (answer : Bool) :
    matchAnchored pattern subject = .ok answer ↔
      ∃ piece q, readPiece? pattern = some piece ∧ piece.pattern = some q ∧
        readPiece? (pattern ++ ")") = none ∧ piece.depth + 2 ≤ maxDepth ∧
        q.matchesStart subject = answer := by
  cases hread : readPiece? pattern with
  | none =>
    rw [matchAnchored_of_refused hread hstray]
    constructor
    · rintro ⟨⟩
    · rintro ⟨_, _, ⟨⟩, _⟩
  | some piece =>
    obtain ⟨q, hq⟩ := exists_pattern_of_readRest? hread
    rw [matchAnchored_of_readPiece? hread hq]
    constructor
    · intro h
      split at h
      · rename_i hboth
        exact ⟨piece, q, rfl, hq, hboth.1, hboth.2, Except.ok.inj h⟩
      · cases h
    · rintro ⟨_, q', ⟨⟩, hq', hparen, hdepth, rfl⟩
      obtain rfl := Option.some.inj (hq.symm.trans hq')
      exact if_pos ⟨hparen, hdepth⟩

end Rules.Builtin

end EventPipeline
