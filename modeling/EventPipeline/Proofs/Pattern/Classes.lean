import EventPipeline.Proofs.Pattern.Scanners

/-!
# `EventPipeline.Proofs.Pattern.Classes`: classes in front of a closing parenthesis

In a class a parenthesis is a character like any other. So a class that the end of the text breaks
off can go on with the parenthesis behind it, and then it is still open (`LostClass`) and nothing
closes it any more (`class?_of_short`). A class that is closed is read alike in both texts
(`class?_follows`).
-/

set_option autoImplicit false

namespace EventPipeline.Pattern

variable {cs cs' : List Char}

/-- Where the shorter text is refused, at most the parenthesis is left. -/
def short {α : Type} (_ : α) (rest : List Char) : Prop :=
  rest = [] ∨ rest = [')']

theorem negation_eq (verbose : Bool) (h : WithParen cs cs') :
    (negation verbose cs).1 = (negation verbose cs').1 ∧
      WithParen (negation verbose cs).2 (negation verbose cs').2 := by
  unfold negation
  split
  · obtain ⟨rest', rfl, hrest⟩ := h.of_cons
    exact ⟨rfl, hrest.skipBlank verbose⟩
  · rename_i hmark
    split
    · obtain ⟨rest, rfl, -⟩ := h.of_cons_right (by decide)
      exact absurd rfl (hmark rest)
    · exact ⟨rfl, h⟩

theorem hyphens_of_ne (verbose : Bool) (fuel : Nat) (open_ : OpenClass) {c : Char}
    (hc : c ≠ '-') (rest : List Char) :
    openClass?.hyphens verbose fuel open_ (c :: rest) = (open_, c :: rest) := by
  unfold openClass?.hyphens
  split
  · rename_i heq
    exact absurd (List.cons.inj heq).1 hc
  · rfl

theorem hyphens_eq (verbose : Bool) {fuel fuel' : Nat} (open_ : OpenClass) (h : WithParen cs cs')
    (hfuel : cs.length < fuel) (hfuel' : cs'.length < fuel') :
    (openClass?.hyphens verbose fuel open_ cs).1 = (openClass?.hyphens verbose fuel' open_ cs').1 ∧
      WithParen (openClass?.hyphens verbose fuel open_ cs).2
        (openClass?.hyphens verbose fuel' open_ cs').2 := by
  -- both bounds are beyond the texts, so neither of them ends the loop
  induction fuel generalizing fuel' open_ cs cs' with
  | zero => exact absurd hfuel (Nat.not_lt_zero _)
  | succ fuel ih =>
    obtain ⟨fuel', rfl⟩ : ∃ k, fuel' = k + 1 := ⟨fuel' - 1, by omega⟩
    cases h using WithParen.heads with
    | nil => exact ⟨rfl, .taken⟩
    | paren => exact ⟨rfl, .behind []⟩
    | cons c rest rest' hrest hcons =>
      by_cases hc : c = '-'
      · subst hc
        have hblank := length_skipBlank_le verbose rest
        have hblank' := length_skipBlank_le verbose rest'
        rw [List.length_cons] at hfuel hfuel'
        exact ih _ (hrest.skipBlank verbose) (by omega) (by omega)
      · rw [hyphens_of_ne verbose _ open_ hc, hyphens_of_ne verbose _ open_ hc]
        exact ⟨rfl, hcons⟩

theorem firstBracket?_follows (verbose : Bool) (open_ : OpenClass) (h : WithParen cs cs') :
    Follows short (openClass?.firstBracket? verbose open_ cs)
      (openClass?.firstBracket? verbose open_ cs') := by
  cases h using WithParen.heads with
  | nil => exact .of_none
  | paren => exact .of_lost (.inr rfl)
  | cons c rest rest' hrest hcons =>
    have hblank := hrest.skipBlank verbose
    unfold openClass?.firstBracket?
    refine .ite (fun _ => ?_) fun _ => .of_withParen hcons
    -- the bracket is a member of the class, which must go on behind it
    generalize skipBlank verbose rest = text at hblank ⊢
    generalize skipBlank verbose rest' = text' at hblank ⊢
    cases hblank using WithParen.heads with
    | nil => exact .of_none
    | paren => exact .of_lost (.inr rfl)
    | cons d more more' _ hmore => exact .of_withParen hmore

theorem openClass?_follows (verbose : Bool) (h : WithParen cs cs') :
    Follows short (openClass? verbose cs) (openClass? verbose cs') := by
  obtain ⟨hnegated, hrest⟩ := negation_eq verbose (h.skipBlank verbose)
  obtain ⟨hopen, hrest⟩ := hyphens_eq verbose
    { negated := (negation verbose (skipBlank verbose cs)).1 } hrest (Nat.lt_succ_self _)
    (Nat.lt_succ_self _)
  unfold openClass?
  dsimp only
  rw [← hnegated, ← hopen]
  exact firstBracket?_follows verbose _ hrest

theorem asciiName?_follows (negated : Bool) (h : WithParen cs cs') :
    Follows never (asciiName? negated cs) (asciiName? negated cs') := by
  unfold asciiName?
  obtain ⟨hnil, hnil'⟩ | ⟨c, rest, rest', hnext, hnext', hrest, hname⟩ :=
    h.dropWhile_cases (p := (· != ':')) rfl
  · rw [hnil, hnil']
    exact .of_none
  · -- both names end at the same colon, and a bracket stands behind both or neither
    rw [hnext, hnext', hname]
    split
    · rename_i after heq
      obtain ⟨rfl, rfl⟩ := List.cons.inj heq
      obtain ⟨after', rfl, hafter⟩ := hrest.of_cons
      exact .map_option _ hafter
    · rename_i hmark
      split
      · rename_i after' heq
        obtain ⟨rfl, rfl⟩ := List.cons.inj heq
        obtain ⟨after, rfl, -⟩ := hrest.of_cons_right (by decide)
        exact absurd rfl (hmark after)
      · exact .of_none

theorem asciiClass?_follows (h : WithParen cs cs') :
    Follows never (asciiClass? cs) (asciiClass? cs') := by
  unfold asciiClass?
  split
  · rename_i rest
    obtain ⟨rest', rfl, hrest⟩ := h.of_cons
    obtain ⟨hnegated, hname⟩ := negation_eq false hrest
    show Follows never (asciiName? (negation false rest).1 (negation false rest).2)
      (asciiName? (negation false rest').1 (negation false rest').2)
    rw [← hnegated]
    exact asciiName?_follows _ hname
  · rename_i hmark
    split
    · obtain ⟨rest, rfl, -⟩ := h.of_cons_right (by decide)
      exact absurd rfl (hmark rest)
    · exact .of_none

theorem atom?_of_ne (flags : Flags) {c : Char} (hc : c ≠ '\\') (rest : List Char) :
    atom? flags (c :: rest) = some (.char c, rest) := by
  unfold atom?
  split
  · contradiction
  · rename_i heq
    exact absurd (List.cons.inj heq).1 hc
  · rename_i heq
    obtain ⟨rfl, rfl⟩ := List.cons.inj heq
    rfl

theorem atom?_follows (flags : Flags) (h : WithParen cs cs') :
    Follows (LostAtom flags.verbose) (atom? flags cs) (atom? flags cs') := by
  cases h using WithParen.heads with
  | nil => exact .of_none
  | paren => exact .of_lost (.escaped (.char ')'))
  | cons c rest rest' hrest =>
    by_cases hescape : c = '\\'
    · subst hescape
      exact escape?_follows flags hrest
    · rw [atom?_of_ne flags hescape, atom?_of_ne flags hescape]
      exact .of_withParen hrest

theorem classAtom?_follows (flags : Flags) (h : WithParen cs cs') :
    Follows (LostAtom flags.verbose) (classAtom? flags cs) (classAtom? flags cs') := by
  refine (atom?_follows flags h).bind (fun atom rest rest' hrest => ?_) fun atom rest' hlost => ?_
  · dsimp only
    split
    · exact .ite (fun _ => .of_withParen hrest) fun _ => .of_none
    · exact .of_withParen hrest
  · dsimp only
    split
    · split
      · exact .of_lost hlost
      · exact .of_none
    · exact .of_lost hlost

theorem rangeEnd?_follows (flags : Flags) (first : Atom)
    (h : WithParen ('-' :: cs) ('-' :: cs')) :
    Follows short (rangeEnd? flags first cs) (rangeEnd? flags first cs') := by
  obtain ⟨_, ⟨⟩, hcs⟩ := h.of_cons
  have hblank := hcs.skipBlank flags.verbose
  have hrange {t t' : List Char} (ht : WithParen t t') :
      Follows short
        (classAtom? flags t >>= fun read =>
          first.range? read.1 >>= fun s => some (s, read.2))
        (classAtom? flags t' >>= fun read =>
          first.range? read.1 >>= fun s => some (s, read.2)) := by
    refine (classAtom?_follows flags ht).bind (fun last rest rest' hrest => ?_) ?_
    · exact .bind_option _ fun s => .of_withParen hrest
    · intro last rest' hlost
      cases hlost with
      | escaped => exact .bind_option_of_none _ fun s => .of_lost (.inl rfl)
      | unbounded l =>
        -- no range ends with a condition
        cases first
        all_goals exact .of_none
  unfold rangeEnd?
  generalize skipBlank flags.verbose cs = text at hblank ⊢
  generalize skipBlank flags.verbose cs' = text' at hblank ⊢
  cases hblank using WithParen.heads with
  | nil => exact .of_none
  | paren => exact hrange (.behind [])
  | cons c more more' _ hmore => exact .ite (fun _ => .map_option _ h) fun _ => hrange hmore

theorem classMember?_follows (flags : Flags) (h : WithParen cs cs') :
    Follows short (classMember? flags cs) (classMember? flags cs') := by
  refine (classAtom?_follows flags h).bind (fun first rest rest' hrest => ?_) ?_
  · have hblank := hrest.skipBlank flags.verbose
    dsimp only
    generalize skipBlank flags.verbose rest = text at hblank ⊢
    generalize skipBlank flags.verbose rest' = text' at hblank ⊢
    cases hblank using WithParen.heads with
    | nil => exact .of_none
    | paren => exact .map_option_of_none _ fun s => .inr rfl
    | cons c more more' _ hmore =>
      refine .ite (fun hhyphen => ?_) fun _ => .map_option _ hmore
      obtain rfl := beq_iff_eq.mp hhyphen
      exact rangeEnd?_follows flags first hmore
  · intro first rest' hlost
    cases hlost with
    | escaped =>
      have hnil : skipBlank flags.verbose [] = [] := by cases flags.verbose <;> rfl
      dsimp only
      rw [hnil]
      exact .of_none
    | @unbounded l rest hparen =>
      -- no condition is a member of a class
      have hbrace : skipBlank flags.verbose ('{' :: rest) = '{' :: rest := by
        cases flags.verbose <;> rfl
      dsimp only
      rw [hbrace]
      exact .of_none

theorem classOp?_follows (h : WithParen cs cs') :
    Follows never (classOp? cs) (classOp? cs') := by
  -- no operator is written with parentheses
  have hparen (c : Char) : classOp? [c, ')'] = none := by
    unfold classOp?
    dsimp only
    split
    · rename_i hc
      rw [beq_iff_eq.mp hc]
      rfl
    · rfl
  match cs with
  | [] =>
    obtain rfl | rfl := h.of_nil
    · exact .of_none
    · exact .of_none
  | [c] =>
    obtain ⟨rest', rfl, hrest⟩ := h.of_cons
    obtain rfl | rfl := hrest.of_nil
    · exact .of_none
    · rw [hparen]
      exact .of_none
  | c :: d :: rest =>
    obtain ⟨_, rfl, hmore⟩ := h.of_cons
    obtain ⟨rest', rfl, hrest⟩ := hmore.of_cons
    exact .ite (fun _ => .map_option _ hrest) fun _ => .of_none

/-- The class is open, and at most the parenthesis is left. -/
def LostClass (state : ClassState) (rest : List Char) : Prop :=
  (∃ current outer, state = .reading current outer) ∧ short state rest

theorem innerClass?_follows (flags : Flags) (current : OpenClass) (outer : List OpenClass)
    (h : WithParen cs cs') :
    Follows LostClass (innerClass? flags current outer cs)
      (innerClass? flags current outer cs') := by
  have hascii := asciiClass?_follows h
  unfold innerClass?
  cases hread : asciiClass? cs with
  | some read =>
    rw [hread] at hascii
    obtain ⟨rest', hread', hrest⟩ := hascii
    rw [hread']
    exact .map_option _ hrest
  | none =>
    -- what is no named class here is none with the parenthesis either
    rw [hread] at hascii
    rw [hascii.eq_none]
    exact (openClass?_follows flags.verbose h).map
      (g := fun inner => ClassState.reading inner (current :: outer))
      fun inner rest' hshort => ⟨⟨_, _, rfl⟩, hshort⟩

theorem classPart?_follows (flags : Flags) (current : OpenClass) (outer : List OpenClass)
    (h : WithParen cs cs') :
    Follows LostClass (classPart? flags current outer cs)
      (classPart? flags current outer cs') := by
  have hop := classOp?_follows h
  unfold classPart?
  cases hread : classOp? cs with
  | some read =>
    rw [hread] at hop
    obtain ⟨rest', hread', hrest⟩ := hop
    rw [hread']
    exact .of_withParen hrest
  | none =>
    rw [hread] at hop
    rw [hop.eq_none]
    refine (classMember?_follows flags h).bind (fun s rest rest' hrest => ?_) ?_
    · exact .bind_option _ fun current => .of_withParen hrest
    · intro s rest' hshort
      exact .bind_option_of_none _ fun current => .of_lost ⟨⟨_, _, rfl⟩, hshort⟩

theorem classElement?_follows (flags : Flags) (current : OpenClass) (outer : List OpenClass)
    (h : WithParen cs cs') :
    Follows LostClass (classElement? flags current outer cs)
      (classElement? flags current outer cs') := by
  cases h using WithParen.heads with
  | nil => exact .of_none
  | paren => exact classPart?_follows flags current outer (.behind [])
  | cons c rest rest' hrest hcons =>
    unfold classElement?
    refine .ite (fun _ => innerClass?_follows flags current outer hrest) fun _ => ?_
    refine .ite (fun _ => .map_option _ hrest) fun _ => ?_
    exact classPart?_follows flags current outer hcons

/-- At the end of the text a parenthesis is no member of a class. -/
theorem classMember?_paren (flags : Flags) : classMember? flags [')'] = none := by
  have hatom : classAtom? flags [')'] = some (.char ')', []) :=
    if_pos (Bool.or_eq_true_iff.mpr (.inr rfl))
  have hnil : skipBlank flags.verbose [] = [] := by cases flags.verbose <;> rfl
  unfold classMember?
  rw [hatom, Option.bind_eq_bind, Option.bind_some]
  dsimp only
  rw [hnil]

/-- Neither nothing nor a parenthesis closes a class. -/
theorem class?_of_short {flags : Flags} {fuel : Nat} {current : OpenClass}
    {outer : List OpenClass} {rest : List Char} (h : rest = [] ∨ rest = [')']) :
    class? flags fuel current outer rest = none := by
  cases fuel with
  | zero => rfl
  | succ fuel =>
    obtain rfl | rfl := h
    · have hnil : skipBlank flags.verbose [] = [] := by cases flags.verbose <;> rfl
      unfold class?
      rw [hnil]
      rfl
    · have hparen : skipBlank flags.verbose [')'] = [')'] := by cases flags.verbose <;> rfl
      have hpart : classElement? flags current outer [')'] = none := by
        show (classMember? flags [')'] >>= _) = none
        rw [classMember?_paren]
        rfl
      unfold class?
      rw [hparen, hpart]
      rfl

theorem class?_follows (flags : Flags) (fuel : Nat) (current : OpenClass)
    (outer : List OpenClass) (h : WithParen cs cs') :
    Follows never (class? flags fuel current outer cs) (class? flags fuel current outer cs') := by
  induction fuel generalizing current outer cs cs' with
  | zero => exact .of_none
  | succ fuel ih =>
    have hblank := h.skipBlank flags.verbose
    refine (classElement?_follows flags current outer hblank).bind ?_ ?_
    · intro state rest rest' hrest
      cases state with
      | reading current outer => exact ih current outer hrest
      | closed s depth => exact .of_withParen hrest
    · -- the class is open, and what is left does not close it
      rintro _ rest' ⟨⟨current, outer, rfl⟩, hshort⟩
      dsimp only
      rw [class?_of_short hshort]
      exact .of_none

end EventPipeline.Pattern
