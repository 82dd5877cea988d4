import EventPipeline.Proofs.Pattern.Elements

/-!
# `EventPipeline.Proofs.Pattern.Groups`: reading a pattern inside of a group

The reader goes through a text element by element (`Steps`). The groups around a pattern do not
matter for its elements (`element?_within`), only a closing parenthesis that closes one of these
groups is refused outside of them. So the reader takes the same steps on a pattern alone and on
the pattern inside of a group that is closed behind it (`Steps.within`).

* `readRest?_closing`: a text that can be read alone can be read inside of the group. The piece that
  comes out is the group with the piece that the text is alone. It is otherwise only if a comment
  at the end of the text takes the parenthesis, and that shows when the parenthesis stands behind
  the text alone.
* `readRest?_of_within`: a text that can be read inside of the group can be read alone, or it has a
  parenthesis that closes the group before its end (`HasStray`).
-/

set_option autoImplicit false

namespace EventPipeline.Pattern

variable {r r' : Reader} {cs cs' rest : List Char}

/-! ### Elements -/

/-- The reader inside of further groups. -/
def Reader.within (r : Reader) (groups : List OpenGroup) : Reader :=
  { r with outer := r.outer ++ groups }

theorem within_nil (r : Reader) : r.within [] = r := by
  rw [Reader.within, List.append_nil]

section Elements

variable (r : Reader) (groups : List OpenGroup)

theorem times?_within (least : Nat) (most : Option Nat) :
    (r.within groups).times? least most = (r.times? least most).map (·.within groups) := by
  obtain ⟨flags, pieces, alternatives, outer, names⟩ := r
  cases pieces with
  | nil => rfl
  | cons piece others =>
    obtain ⟨pattern, depth⟩ := piece
    cases pattern with
    | none => rfl
    | some p => rfl

theorem addSet?_within (s : CharSet) (depth : Nat) :
    (r.within groups).addSet? s depth = (r.addSet? s depth).map (·.within groups) := by
  unfold Reader.addSet?
  show (if !r.flags.unicode && s.exceedsAscii then none else _) = _
  split
  · rfl
  · rfl

theorem addDot?_within : (r.within groups).addDot? = r.addDot?.map (·.within groups) := by
  unfold Reader.addDot?
  show (if !r.flags.unicode then none else _) = _
  split
  · rfl
  · rfl

theorem addAtom?_within (atom : Atom) :
    (r.within groups).addAtom? atom = (r.addAtom? atom).map (·.within groups) := by
  cases atom with
  | char c => rfl
  | set s => exact addSet?_within r groups s 0
  | look l => rfl

/-- The groups around matter only for a parenthesis that closes one of them. -/
theorem single?_within {c : Char} (h : c = ')' → r.outer ≠ []) :
    (r.within groups).single? c = (r.single? c).map (·.within groups) := by
  unfold Reader.single?
  split
  · cases houter : r.outer with
    | nil => exact absurd houter (h rfl)
    | cons around outer =>
      -- the group that is closed is one of the reader's own
      unfold Reader.closeGroup?
      rw [Reader.within, houter]
      rfl
  · rfl
  · exact addDot?_within r groups
  · rfl
  · rfl
  · rfl

/-- A step that does not depend on the groups around. -/
theorem bind_within {α : Type} (o : Option α) {f f' : α → Option (Reader × List Char)}
    (h : ∀ a, f' a = (f a).map fun read => (read.1.within groups, read.2)) :
    (o >>= f') = (o >>= f).map fun read => (read.1.within groups, read.2) := by
  cases o with
  | none => rfl
  | some a => exact h a

/-- The last step, which gives back the reader with the text that is left. -/
theorem leave_within {o o' : Option Reader} (rest : List Char)
    (h : o' = o.map (·.within groups)) :
    (o' >>= fun r => some (r, rest)) =
      (o >>= fun r => some (r, rest)).map fun read => (read.1.within groups, read.2) := by
  rw [h]
  cases o with
  | none => rfl
  | some r => rfl

theorem groupHead?_within (cs : List Char) :
    groupHead? (r.within groups) cs =
      (groupHead? r cs).map fun read => (read.1.within groups, read.2) := by
  unfold groupHead?
  cases afterNameMark? cs with
  | some rest =>
    refine bind_within groups (groupName? rest) fun read => ?_
    show (if r.names.contains read.1 then none else _) =
      Option.map _ (if r.names.contains read.1 then none else _)
    split
    · rfl
    · rfl
  | none =>
    refine bind_within groups (flags? r.flags [] cs) fun read => ?_
    obtain ⟨⟨flags, opens⟩, rest⟩ := read
    cases opens with
    | true => rfl
    | false => rfl

theorem groupStart?_within (cs : List Char) :
    groupStart? (r.within groups) cs =
      (groupStart? r cs).map fun read => (read.1.within groups, read.2) := by
  have hflags : (r.within groups).flags = r.flags := rfl
  unfold groupStart?
  rw [hflags]
  cases skipBlank r.flags.verbose cs with
  | nil => rfl
  | cons c rest =>
    dsimp only
    split
    · split
      · rfl
      · exact groupHead?_within r groups rest
    · rfl

theorem bracketed?_within (cs : List Char) :
    bracketed? (r.within groups) cs =
      (bracketed? r cs).map fun read => (read.1.within groups, read.2) := by
  refine bind_within groups (openClass? r.flags.verbose cs) fun opened => ?_
  refine bind_within groups (class? r.flags _ opened.1 [] opened.2) fun read => ?_
  exact leave_within groups read.2 (addSet?_within r groups read.1.1 read.1.2)

theorem repeated?_within (cs : List Char) :
    repeated? (r.within groups) cs =
      (repeated? r cs).map fun read => (read.1.within groups, read.2) := by
  refine bind_within groups (bounds? r.flags.verbose cs) fun read => ?_
  exact leave_within groups _ (times?_within r groups read.1.1 read.1.2)

theorem escaped?_within (cs : List Char) :
    escaped? (r.within groups) cs =
      (escaped? r cs).map fun read => (read.1.within groups, read.2) := by
  refine bind_within groups (escape? r.flags cs) fun read => ?_
  exact leave_within groups read.2 (addAtom?_within r groups read.1)

/-- Elements are read alike inside of groups and outside. -/
theorem element?_within {c : Char} (rest : List Char) (h : c = ')' → r.outer ≠ []) :
    element? (r.within groups) (c :: rest) =
      (element? r (c :: rest)).map fun read => (read.1.within groups, read.2) := by
  unfold element?
  dsimp only
  split
  · exact groupStart?_within r groups rest
  split
  · exact bracketed?_within r groups rest
  split
  · exact repeated?_within r groups rest
  split
  · exact escaped?_within r groups rest
  split
  · rw [times?_within, Option.map_map, Option.map_map]
    rfl
  · rw [single?_within r groups h, Option.map_map, Option.map_map]
    rfl

end Elements

/-! ### Runs of the reader -/

/-- The next element of a text, with blanks in front of it. -/
def next? (r : Reader) (cs : List Char) : Option (Reader × List Char) :=
  element? r (skipBlank r.flags.verbose cs)

/-- The reader goes on in a text, element by element. -/
inductive Steps : Reader → List Char → Reader → List Char → Prop
  | refl (r : Reader) (cs : List Char) : Steps r cs r cs
  | step {r r' last : Reader} {cs rest left : List Char} (hnext : next? r cs = some (r', rest))
    (hsteps : Steps r' rest last left) : Steps r cs last left

/-- Reading comes to a parenthesis that closes no group. -/
def HasStray (r : Reader) (cs : List Char) : Prop :=
  ∃ last left rest, Steps r cs last left ∧ last.outer = [] ∧
    skipBlank last.flags.verbose left = ')' :: rest

theorem Steps.readRest?_eq {last : Reader} {left : List Char} (h : Steps r cs last left) :
    readRest? r cs = readRest? last left := by
  induction h with
  | refl => rfl
  | step hnext _ ih => rw [readRest?_of_element hnext, ih]

theorem next?_lt (h : next? r cs = some (r', rest)) : rest.length < cs.length :=
  Nat.lt_of_lt_of_le (length_lt_of_element? h) (length_skipBlank_le _ _)

/-- A pattern is read by steps to its end, where no group is open. -/
theorem steps_of_readRest? {piece : Piece} (h : readRest? r cs = some piece) :
    ∃ last left, Steps r cs last left ∧ skipBlank last.flags.verbose left = [] ∧
      last.outer = [] ∧ last.group = piece := by
  -- every element makes the text shorter
  induction hlen : cs.length using Nat.strongRecOn generalizing r cs with
  | ind n ih =>
    by_cases hblank : skipBlank r.flags.verbose cs = []
    · rw [readRest?_of_blank hblank] at h
      split at h
      · rename_i houter
        exact ⟨r, cs, .refl r cs, hblank, List.isEmpty_iff.mp houter, Option.some.inj h⟩
      · cases h
    · cases hnext : next? r cs with
      | none =>
        rw [readRest?_of_refused hblank hnext] at h
        cases h
      | some read =>
        obtain ⟨r', rest⟩ := read
        rw [readRest?_of_element hnext] at h
        obtain ⟨last, left, hsteps, hrest⟩ := ih rest.length (hlen ▸ next?_lt hnext) h rfl
        exact ⟨last, left, .step hnext hsteps, hrest⟩

/-- What a group is read as has a pattern, unlike a setting of flags. -/
theorem exists_pattern_group (r : Reader) : ∃ q, r.group.pattern = some q := by
  unfold Reader.group
  rw [List.reverse_cons]
  cases r.alternatives.reverse with
  | nil => exact ⟨_, rfl⟩
  | cons first others =>
    cases others with
    | nil => exact ⟨_, rfl⟩
    | cons second others => exact ⟨_, rfl⟩

theorem exists_pattern_of_readRest? {piece : Piece} (h : readRest? r cs = some piece) :
    ∃ q, piece.pattern = some q := by
  obtain ⟨last, _, _, _, _, rfl⟩ := steps_of_readRest? h
  exact exists_pattern_group last

/-! ### The text alone, and inside of a group that is closed behind it -/

/-- What can be read next can be read next inside of groups. -/
theorem next?_within (h : next? r cs = some (r', rest)) (hcs : WithParen cs cs') :
    ∃ rest', WithParen rest rest' ∧
      ∀ groups, next? (r.within groups) cs' = some (r'.within groups, rest') := by
  have hblank := hcs.skipBlank r.flags.verbose
  have hfollows := element?_follows r hblank
  unfold next? at h
  rw [h] at hfollows
  obtain ⟨rest', hread, hrest⟩ := hfollows
  refine ⟨rest', hrest, fun groups => ?_⟩
  unfold next?
  show element? (r.within groups) (skipBlank r.flags.verbose cs') = _
  cases hnext : skipBlank r.flags.verbose cs with
  | nil =>
    rw [hnext] at h
    cases h
  | cons c more =>
    rw [hnext] at h hblank
    obtain ⟨more', hnext', -⟩ := hblank.of_cons
    rw [hnext'] at hread ⊢
    -- a parenthesis that closes nothing could not have been read
    have hopen : c = ')' → r.outer ≠ [] := by
      rintro rfl houter
      have hclose : element? r (')' :: more) = r.closeGroup?.map fun r => (r, more) := rfl
      rw [hclose, Reader.closeGroup?, houter] at h
      cases h
    rw [element?_within r groups more' hopen, hread]
    rfl

theorem Steps.within {last : Reader} {left : List Char} (h : Steps r cs last left)
    (hcs : WithParen cs cs') :
    ∃ left', WithParen left left' ∧
      ∀ groups, Steps (r.within groups) cs' (last.within groups) left' := by
  induction h generalizing cs' with
  | refl => exact ⟨cs', hcs, fun _ => .refl _ _⟩
  | step hnext _ ih =>
    obtain ⟨rest', hrest, hnext'⟩ := next?_within hnext hcs
    obtain ⟨left', hleft, hsteps⟩ := ih hrest
    exact ⟨left', hleft, fun groups => .step (hnext' groups) (hsteps groups)⟩

/-- A group that gets its last piece from a group in it. -/
def OpenGroup.close (around : OpenGroup) (piece : Piece) : Piece :=
  alternation (concat ({ piece with depth := piece.depth + 1 } :: around.pieces).reverse ::
    around.alternatives).reverse

/-- A parenthesis at the end closes the last group but one. -/
theorem readRest?_paren (hparen : skipBlank r.flags.verbose cs = [')']) :
    readRest? r cs =
      match r.outer with
      | [around] => some (around.close r.group)
      | _ => none := by
  have hread : element? r (skipBlank r.flags.verbose cs) = r.closeGroup?.map fun r => (r, []) := by
    rw [hparen]
    rfl
  unfold Reader.closeGroup? at hread
  split
  · rename_i around houter
    rw [houter] at hread
    rw [readRest?_of_element hread, readRest?_of_blank (by cases around.flags.verbose <;> rfl)]
    rfl
  · rename_i hone
    cases houter : r.outer with
    | nil =>
      rw [houter] at hread
      exact readRest?_of_refused (by rw [hparen]; exact List.cons_ne_nil _ _) hread
    | cons around outer =>
      rw [houter] at hread
      rw [readRest?_of_element hread, readRest?_of_blank (by cases around.flags.verbose <;> rfl)]
      refine if_neg fun hempty => hone around ?_
      have hnil : outer = [] := List.isEmpty_iff.mp hempty
      rw [houter, hnil]

/-- A text that can be read alone can be read inside of a group that is closed behind it, unless
a comment takes the parenthesis. -/
theorem readRest?_closing {piece : Piece} (h : readRest? r cs = some piece)
    (hcs : WithParen cs cs') (around : OpenGroup) :
    (readRest? r cs' = none ∧ readRest? (r.within [around]) cs' = some (around.close piece)) ∨
      (readRest? r cs' = some piece ∧ readRest? (r.within [around]) cs' = none) := by
  obtain ⟨last, left, hsteps, hblank, houter, rfl⟩ := steps_of_readRest? h
  obtain ⟨left', hleft, hwithin⟩ := hsteps.within hcs
  have halone : readRest? r cs' = readRest? last left' := by
    have hnil := (hwithin []).readRest?_eq
    rwa [within_nil, within_nil] at hnil
  have hblank' := hleft.skipBlank last.flags.verbose
  rw [hblank] at hblank'
  rw [halone, (hwithin [around]).readRest?_eq]
  obtain hnil | hparen := hblank'.of_nil
  · -- a comment has taken the parenthesis: the text alone is complete, the group is not
    refine .inr ⟨?_, ?_⟩
    · rw [readRest?_of_blank hnil, houter]
      rfl
    · have hnil : skipBlank (last.within [around]).flags.verbose left' = [] := hnil
      rw [readRest?_of_blank hnil, Reader.within, houter]
      rfl
  · -- the parenthesis is left: it closes the group, and alone it closes nothing
    refine .inl ⟨?_, ?_⟩
    · rw [readRest?_paren hparen, houter]
    · have hparen : skipBlank (last.within [around]).flags.verbose left' = [')'] := hparen
      rw [readRest?_paren hparen, Reader.within, houter]
      rfl

theorem outer_within_ne_nil (r : Reader) (around : OpenGroup) :
    (r.within [around]).outer ≠ [] :=
  List.append_ne_nil_of_right_ne_nil _ (List.cons_ne_nil _ _)

/-- A text that is at its end inside of a group cannot be read. -/
theorem readRest?_of_open (hblank : skipBlank r.flags.verbose cs = []) (houter : r.outer ≠ []) :
    readRest? r cs = none := by
  rw [readRest?_of_blank hblank]
  exact if_neg fun hempty => houter (List.isEmpty_iff.mp hempty)

/-- What is lost cannot be read inside of a group. -/
theorem readRest?_of_lost {around : OpenGroup} (h : LostElement r rest) :
    readRest? (r.within [around]) rest = none := by
  obtain rfl | ⟨more, rfl, hparen⟩ := h
  · exact readRest?_of_open (by cases (r.within [around]).flags.verbose <;> rfl)
      (outer_within_ne_nil r around)
  · have hbrace : skipBlank (r.within [around]).flags.verbose ('{' :: more) = '{' :: more := by
      cases (r.within [around]).flags.verbose <;> rfl
    refine readRest?_of_refused (by rw [hbrace]; exact List.cons_ne_nil _ _) ?_
    -- there is no number in front of the parenthesis
    have hcount : count? r.flags.verbose [')'] = none := by cases r.flags.verbose <;> rfl
    have hbounds : bounds? r.flags.verbose more = none := by
      unfold bounds?
      rw [hparen, hcount]
      rfl
    rw [hbrace]
    show (bounds? r.flags.verbose more >>= _) = none
    rw [hbounds]
    rfl

theorem HasStray.of_next? (hnext : next? r cs = some (r', rest)) (h : HasStray r' rest) :
    HasStray r cs := by
  obtain ⟨last, left, more, hsteps, hlast⟩ := h
  exact ⟨last, left, more, .step hnext hsteps, hlast⟩

/-- At the end of the text the parenthesis has to close the group. -/
theorem readRest?_of_end {around : OpenGroup} (hcs : WithParen cs cs')
    (hblank : skipBlank r.flags.verbose cs = [])
    (h : readRest? (r.within [around]) cs' ≠ none) : readRest? r cs ≠ none := by
  have hblank' := hcs.skipBlank r.flags.verbose
  rw [hblank] at hblank'
  obtain hnil | hparen := hblank'.of_nil
  · have hnil : skipBlank (r.within [around]).flags.verbose cs' = [] := hnil
    exact absurd (readRest?_of_open hnil (outer_within_ne_nil r around)) h
  · have hparen : skipBlank (r.within [around]).flags.verbose cs' = [')'] := hparen
    rw [readRest?_paren hparen, Reader.within] at h
    cases houter : r.outer with
    | nil =>
      rw [readRest?_of_blank hblank, houter]
      exact Option.some_ne_none _
    | cons first outer =>
      -- the parenthesis closes another group
      rw [houter] at h
      cases outer with
      | nil => exact absurd rfl h
      | cons second outer => exact absurd rfl h

/-- An element that is read inside of the group is read alone, or nothing more can be read. -/
theorem next?_cases {around : OpenGroup} {c : Char} {more : List Char} (hcs : WithParen cs cs')
    (htext : skipBlank r.flags.verbose cs = c :: more) (hopen : c = ')' → r.outer ≠ []) :
    (∃ r' rest rest', next? r cs = some (r', rest) ∧
        next? (r.within [around]) cs' = some (r'.within [around], rest') ∧
        WithParen rest rest') ∨
      readRest? (r.within [around]) cs' = none := by
  have hblank := hcs.skipBlank r.flags.verbose
  rw [htext] at hblank
  obtain ⟨more', htext', -⟩ := hblank.of_cons
  have hfollows := element?_follows r hblank
  rw [htext'] at hfollows
  have hwithin : next? (r.within [around]) cs' =
      (element? r (c :: more')).map fun read => (read.1.within [around], read.2) := by
    rw [← element?_within r [around] more' hopen, ← htext']
    rfl
  cases hread : element? r (c :: more) with
  | some read =>
    rw [hread] at hfollows
    obtain ⟨rest', hread', hrest⟩ := hfollows
    rw [hread'] at hwithin
    exact .inl ⟨read.1, read.2, rest', by rw [next?, htext, hread], hwithin, hrest⟩
  | none =>
    rw [hread] at hfollows
    refine .inr ?_
    cases hread' : element? r (c :: more') with
    | none =>
      rw [hread'] at hwithin
      have htext' : skipBlank (r.within [around]).flags.verbose cs' = c :: more' := htext'
      exact readRest?_of_refused (by rw [htext']; exact List.cons_ne_nil _ _) hwithin
    | some read =>
      rw [hread'] at hwithin
      rw [readRest?_of_element hwithin]
      exact readRest?_of_lost (hfollows read.1 read.2 hread')

/-- A text that can be read inside of a group that is closed behind it can be read alone, unless
it closes the group itself. -/
theorem readRest?_of_within {around : OpenGroup} (hcs : WithParen cs cs')
    (h : readRest? (r.within [around]) cs' ≠ none) (hstray : ¬HasStray r cs) :
    readRest? r cs ≠ none := by
  induction hlen : cs.length using Nat.strongRecOn generalizing r cs cs' with
  | ind n ih =>
    -- the two readings go on side by side until the shorter text ends
    cases htext : skipBlank r.flags.verbose cs with
    | nil => exact readRest?_of_end hcs htext h
    | cons c more =>
      have hopen : c = ')' → r.outer ≠ [] := by
        rintro rfl houter
        exact hstray ⟨r, cs, more, .refl r cs, houter, htext⟩
      obtain ⟨r', rest, rest', hnext, hnext', hrest⟩ | hnone := next?_cases hcs htext hopen
      · rw [readRest?_of_element hnext'] at h
        rw [readRest?_of_element hnext]
        exact ih rest.length (hlen ▸ next?_lt hnext) hrest h
          (fun hlater => hstray (hlater.of_next? hnext)) rfl
      · exact absurd hnone h

end EventPipeline.Pattern
