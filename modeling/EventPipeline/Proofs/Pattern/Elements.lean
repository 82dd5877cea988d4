import EventPipeline.Proofs.Pattern.Classes

/-!
# `EventPipeline.Proofs.Pattern.Elements`: elements in front of a closing parenthesis

An element of a pattern is read alike on its own and with a closing parenthesis behind it
(`element?_follows`). If the text alone is refused and the longer one is not, then the reader has
come to the end of the longer text, or to a brace with only the parenthesis behind it
(`LostElement`). Neither can close a group.
-/

set_option autoImplicit false

namespace EventPipeline.Pattern

variable {cs cs' : List Char}

/-! ### Groups and repetitions -/

theorem flags?_follows (flags : Flags) (seen : List Char) (h : WithParen cs cs') :
    Follows spent (flags? flags seen cs) (flags? flags seen cs') := by
  induction cs generalizing flags seen cs' with
  | nil =>
    obtain rfl | rfl := h.of_nil
    · exact .of_none
    · -- the parenthesis ends the flags, and nothing is left
      show Follows spent none (if seen.head? == some '-' || (true && seen.isEmpty) then none
        else some ((flags, false), []))
      split
      · exact .of_none
      · exact .of_lost rfl
  | cons c rest ih =>
    obtain ⟨rest', rfl, hrest⟩ := h.of_cons
    unfold flags?
    refine .ite (fun _ => .ite (fun _ => .of_none) fun _ => .of_withParen hrest) fun _ => ?_
    refine .ite (fun _ => .of_none) fun _ => ?_
    refine .ite (fun _ => ih _ _ hrest) fun _ => ?_
    exact .bind_option _ fun flags => ih _ _ hrest

theorem groupName?_follows (h : WithParen cs cs') :
    Follows never (groupName? cs) (groupName? cs') := by
  unfold groupName?
  obtain ⟨hnil, hnil'⟩ | ⟨c, rest, rest', hnext, hnext', hrest, hname⟩ :=
    h.dropWhile_cases (p := (· != '>')) rfl
  · rw [hnil, hnil']
    exact .of_none
  · rw [hnext, hnext', hname]
    exact .ite (fun _ => .of_withParen hrest) fun _ => .of_none

theorem looksAround_eq (h : WithParen cs cs') : looksAround cs = looksAround cs' := by
  unfold looksAround
  split
  · obtain ⟨rest', rfl, -⟩ := h.of_cons
    rfl
  · obtain ⟨rest', rfl, -⟩ := h.of_cons
    rfl
  · obtain ⟨_, rfl, hmore⟩ := h.of_cons
    obtain ⟨rest', rfl, -⟩ := hmore.of_cons
    rfl
  · obtain ⟨_, rfl, hmore⟩ := h.of_cons
    obtain ⟨rest', rfl, -⟩ := hmore.of_cons
    rfl
  · -- none of the four marks stands in front of one of the texts alone
    rename_i hequal hbang hbehind hnotBehind
    split
    · obtain ⟨rest, rfl, -⟩ := h.of_cons_right (by decide)
      exact absurd rfl (hequal rest)
    · obtain ⟨rest, rfl, -⟩ := h.of_cons_right (by decide)
      exact absurd rfl (hbang rest)
    · obtain ⟨_, rfl, hmore⟩ := h.of_cons_right (by decide)
      obtain ⟨rest, rfl, -⟩ := hmore.of_cons_right (by decide)
      exact absurd rfl (hbehind rest)
    · obtain ⟨_, rfl, hmore⟩ := h.of_cons_right (by decide)
      obtain ⟨rest, rfl, -⟩ := hmore.of_cons_right (by decide)
      exact absurd rfl (hnotBehind rest)
    · rfl

theorem afterNameMark?_cases (h : WithParen cs cs') :
    (afterNameMark? cs = none ∧ afterNameMark? cs' = none) ∨
      ∃ rest rest', afterNameMark? cs = some rest ∧ afterNameMark? cs' = some rest' ∧
        WithParen rest rest' := by
  unfold afterNameMark?
  split
  · obtain ⟨_, rfl, hmore⟩ := h.of_cons
    obtain ⟨rest', rfl, hrest⟩ := hmore.of_cons
    exact .inr ⟨_, _, rfl, rfl, hrest⟩
  · obtain ⟨rest', rfl, hrest⟩ := h.of_cons
    exact .inr ⟨_, _, rfl, rfl, hrest⟩
  · rename_i hnamed hangle
    refine .inl ⟨rfl, ?_⟩
    split
    · obtain ⟨_, rfl, hmore⟩ := h.of_cons_right (by decide)
      obtain ⟨rest, rfl, -⟩ := hmore.of_cons_right (by decide)
      exact absurd rfl (hnamed rest)
    · obtain ⟨rest, rfl, -⟩ := h.of_cons_right (by decide)
      exact absurd rfl (hangle rest)
    · rfl

theorem groupHead?_follows (r : Reader) (h : WithParen cs cs') :
    Follows spent (groupHead? r cs) (groupHead? r cs') := by
  unfold groupHead?
  obtain ⟨hnone, hnone'⟩ | ⟨rest, rest', hsome, hsome', hrest⟩ := afterNameMark?_cases h
  · rw [hnone, hnone']
    refine (flags?_follows r.flags [] h).bind (fun read rest rest' hrest => ?_) ?_
    · exact .ite (fun _ => .of_withParen hrest) fun _ => .of_withParen hrest
    · intro read rest' hspent
      dsimp only
      split
      · exact .of_lost hspent
      · exact .of_lost hspent
  · rw [hsome, hsome']
    refine (groupName?_follows hrest).bind_of_never fun name rest rest' hrest => ?_
    exact .ite (fun _ => .of_none) fun _ => .of_withParen hrest

theorem groupStart?_follows (r : Reader) (h : WithParen cs cs') :
    Follows spent (groupStart? r cs) (groupStart? r cs') := by
  have hblank := h.skipBlank r.flags.verbose
  unfold groupStart?
  generalize skipBlank r.flags.verbose cs = text at hblank ⊢
  generalize skipBlank r.flags.verbose cs' = text' at hblank ⊢
  cases hblank using WithParen.heads with
  | nil => exact .of_withParen .taken
  | paren => exact .of_withParen (.behind [])
  | cons c rest rest' hrest hcons =>
    dsimp only
    rw [looksAround_eq hrest]
    refine .ite (fun _ => ?_) fun _ => .of_withParen hcons
    exact .ite (fun _ => .of_none) fun _ => groupHead?_follows r hrest

theorem digits_eq (verbose : Bool) {fuel fuel' : Nat} (h : WithParen cs cs')
    (hfuel : cs.length < fuel) (hfuel' : cs'.length < fuel') :
    (digits verbose fuel cs).1 = (digits verbose fuel' cs').1 ∧
      WithParen (digits verbose fuel cs).2 (digits verbose fuel' cs').2 := by
  induction fuel generalizing fuel' cs cs' with
  | zero => exact absurd hfuel (Nat.not_lt_zero _)
  | succ fuel ih =>
    obtain ⟨fuel', rfl⟩ : ∃ k, fuel' = k + 1 := ⟨fuel' - 1, by omega⟩
    cases h using WithParen.heads with
    | nil => exact ⟨rfl, .taken⟩
    | paren => exact ⟨rfl, .behind []⟩
    | cons c rest rest' hrest hcons =>
      have hblank := length_skipBlank_le verbose rest
      have hblank' := length_skipBlank_le verbose rest'
      rw [List.length_cons] at hfuel hfuel'
      obtain ⟨hmore, hafter⟩ :
          (digits verbose fuel (skipBlank verbose rest)).1 =
              (digits verbose fuel' (skipBlank verbose rest')).1 ∧
            WithParen (digits verbose fuel (skipBlank verbose rest)).2
              (digits verbose fuel' (skipBlank verbose rest')).2 :=
        ih (hrest.skipBlank verbose) (by omega) (by omega)
      unfold digits
      by_cases hdigit : c.isDigit = true
      · simp only [hdigit, if_true]
        exact ⟨congrArg (c :: ·) hmore, hafter⟩
      · simp only [hdigit]
        exact ⟨rfl, hcons⟩

theorem count?_follows (verbose : Bool) (h : WithParen cs cs') :
    Follows never (count? verbose cs) (count? verbose cs') := by
  have hblank := length_dropWhile_le Text.isBlank cs
  have hblank' := length_dropWhile_le Text.isBlank cs'
  obtain ⟨hdigits, hrest⟩ := digits_eq verbose h.dropBlank (Nat.lt_succ_of_le hblank)
    (Nat.lt_succ_of_le hblank')
  unfold count?
  dsimp only
  rw [hdigits]
  exact .ite (fun _ => .of_none) fun _ => .of_withParen (hrest.dropBlank.skipBlank verbose)

theorem upperBound?_follows (verbose : Bool) (least : Nat) (h : WithParen cs cs') :
    Follows never (upperBound? verbose least cs) (upperBound? verbose least cs') := by
  have hblank := h.skipBlank verbose
  unfold upperBound?
  generalize skipBlank verbose cs = text at hblank ⊢
  generalize skipBlank verbose cs' = text' at hblank ⊢
  cases hblank using WithParen.heads with
  | nil => exact .of_none
  | paren => exact .of_none
  | cons c rest rest' hrest hcons =>
    refine .ite (fun _ => .of_withParen hrest) fun _ => ?_
    refine (count?_follows verbose hcons).bind_of_never fun most rest rest' hrest => ?_
    -- a closing brace has to follow
    cases hrest using WithParen.heads with
    | nil => exact .of_none
    | paren => exact .of_none
    | cons d after after' hafter =>
      exact .ite (fun _ => .of_withParen hafter) fun _ => .of_none

theorem bounds?_follows (verbose : Bool) (h : WithParen cs cs') :
    Follows never (bounds? verbose cs) (bounds? verbose cs') := by
  have hblank := h.skipBlank verbose
  refine (count?_follows verbose hblank).bind_of_never fun least rest rest' hrest => ?_
  cases hrest using WithParen.heads with
  | nil => exact .of_none
  | paren => exact .of_none
  | cons d after after' hafter =>
    refine .ite (fun _ => .of_withParen hafter) fun _ => ?_
    exact .ite (fun _ => upperBound?_follows verbose least hafter) fun _ => .of_none

/-! ### Elements of a pattern -/

/-- Nothing is left of the text, or a repetition without bounds. -/
def LostElement (r : Reader) (rest : List Char) : Prop :=
  rest = [] ∨ ∃ more, rest = '{' :: more ∧ skipBlank r.flags.verbose more = [')']

theorem bracketed?_follows (r : Reader) (h : WithParen cs cs') :
    Follows never (bracketed? r cs) (bracketed? r cs') := by
  refine (openClass?_follows r.flags.verbose h).bind (fun open_ rest rest' hrest => ?_) ?_
  · have hlen := hrest.length_le
    -- neither of the two bounds is reached
    have hfuel : class? r.flags (rest.length + 1) open_ [] rest =
        class? r.flags (rest'.length + 1) open_ [] rest := class?_fuel (by omega) (by omega)
    dsimp only
    rw [hfuel]
    refine (class?_follows r.flags _ open_ [] hrest).bind_of_never fun read rest rest' hrest => ?_
    exact .bind_option _ fun r => .of_withParen hrest
  · intro open_ rest' hshort
    dsimp only
    rw [class?_of_short hshort]
    exact .of_none

theorem repeated?_follows (r : Reader) (h : WithParen cs cs') :
    Follows never (repeated? r cs) (repeated? r cs') := by
  refine (bounds?_follows r.flags.verbose h).bind_of_never fun read rest rest' hrest => ?_
  exact .bind_option _ fun after => .of_withParen (hrest.skipBlank r.flags.verbose).skipLazy

theorem escaped?_follows (r : Reader) (h : WithParen cs cs') :
    Follows LostElement (escaped? r cs) (escaped? r cs') := by
  refine (escape?_follows r.flags h).bind (fun atom rest rest' hrest => ?_) ?_
  · exact .bind_option _ fun r => .of_withParen hrest
  · intro atom rest' hlost
    cases hlost with
    | escaped => exact .bind_option_of_none _ fun r => .of_lost (.inl rfl)
    | unbounded l hparen => exact .of_lost (.inr ⟨_, rfl, hparen⟩)

theorem element?_follows (r : Reader) (h : WithParen cs cs') :
    Follows LostElement (element? r cs) (element? r cs') := by
  cases h using WithParen.heads with
  | nil => exact .of_none
  | paren =>
    -- the parenthesis is an element, and the last one
    exact .map_option_of_none _ fun r => .inl rfl
  | cons c rest rest' hrest =>
    have hgroup : Follows LostElement (groupStart? r rest) (groupStart? r rest') :=
      (groupStart?_follows r hrest).mono fun _ _ => .inl
    unfold element?
    refine .ite (fun _ => hgroup) fun _ => ?_
    refine .ite (fun _ => (bracketed?_follows r hrest).of_never) fun _ => ?_
    refine .ite (fun _ => (repeated?_follows r hrest).of_never) fun _ => ?_
    refine .ite (fun _ => escaped?_follows r hrest) fun _ => ?_
    cases rounds? c with
    | some bounds => exact .map_option _ hrest.skipLazy
    | none => exact .map_option _ hrest

end EventPipeline.Pattern
