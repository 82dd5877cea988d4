import EventPipeline.Proofs.Pattern.Lengths

/-!
# `EventPipeline.Proofs.Pattern.Scanners`: reading in front of a closing parenthesis

A pattern can be read on its own, and it can be read with a closing parenthesis behind it. The
scanners of the reader make the same of both texts (`Follows`), up to the end of the shorter one.
There they can differ in two ways. In verbose mode a comment at the end of the text takes the
parenthesis (`WithParen.taken`). And a scanner that fails at the end of the text can succeed when
it finds the parenthesis there; then what it leaves is too little to go on (`lost`).

There is one lemma for each scanner, `…_follows`: for escapes in this module, for classes in
`Classes.lean`, and for the elements of a pattern in `Elements.lean`.
-/

set_option autoImplicit false

namespace EventPipeline.Pattern

/-- The text with a closing parenthesis behind it. A comment at the end of the text takes the
parenthesis, and then nothing is left of either text. -/
inductive WithParen : List Char → List Char → Prop
  | behind (cs : List Char) : WithParen cs (cs ++ [')'])
  | taken : WithParen [] []

namespace WithParen

variable {c : Char} {cs cs' : List Char}

/-- The texts are at their end, apart from the parenthesis, or they begin with the same
character. -/
@[elab_as_elim]
theorem heads {motive : (cs cs' : List Char) → WithParen cs cs' → Prop} {cs cs' : List Char}
    (h : WithParen cs cs') (nil : motive [] [] taken) (paren : motive [] [')'] (behind []))
    (cons : ∀ c rest rest' (_ : WithParen rest rest') (hcons : WithParen (c :: rest) (c :: rest')),
      motive (c :: rest) (c :: rest') hcons) : motive cs cs' h := by
  cases h with
  | taken => exact nil
  | behind =>
    cases cs with
    | nil => exact paren
    | cons c rest => exact cons c rest _ (behind rest) (behind (c :: rest))

theorem of_nil (h : WithParen [] cs') : cs' = [] ∨ cs' = [')'] := by
  cases h with
  | behind => exact .inr rfl
  | taken => exact .inl rfl

theorem of_cons (h : WithParen (c :: cs) cs') :
    ∃ rest', cs' = c :: rest' ∧ WithParen cs rest' := by
  cases h with
  | behind => exact ⟨_, rfl, behind cs⟩

theorem of_cons_right {rest' : List Char} (h : WithParen cs (c :: rest')) (hc : c ≠ ')') :
    ∃ rest, cs = c :: rest ∧ WithParen rest rest' := by
  cases cs with
  | nil =>
    obtain heq | heq := h.of_nil
    · cases heq
    · exact absurd (List.cons.inj heq).1 hc
  | cons d cs =>
    obtain ⟨_, heq, hrest⟩ := h.of_cons
    obtain ⟨rfl, rfl⟩ := List.cons.inj heq
    exact ⟨cs, rfl, hrest⟩

/-- The texts begin alike, apart from a parenthesis. -/
theorem head?_beq (h : WithParen cs cs') (hc : c ≠ ')') :
    (cs.head? == some c) = (cs'.head? == some c) := by
  cases h using heads with
  | nil => rfl
  | paren => exact (beq_eq_false_iff_ne.mpr fun heq => hc (Option.some.inj heq).symm).symm
  | cons d rest rest' _ => rfl

/-- Only at the end of the text can the parenthesis be taken. -/
theorem skipBlank_go (cs : List Char) (inComment : Bool) :
    WithParen (skipBlank.go inComment cs) (skipBlank.go inComment (cs ++ [')'])) := by
  induction cs generalizing inComment with
  | nil =>
    cases inComment with
    | false => exact behind []
    | true =>
      -- the comment goes on behind the end of the text
      exact taken
  | cons c cs ih =>
    rw [List.cons_append]
    unfold skipBlank.go
    cases inComment with
    | true => exact ih _
    | false =>
      by_cases hblank : Text.isBlank c
      · simp only [hblank, if_true]
        exact ih _
      · by_cases hmark : (c == '#') = true
        · simp only [hblank, hmark, if_true]
          exact ih _
        · simp only [hblank, hmark]
          exact behind (c :: cs)

theorem skipBlank (h : WithParen cs cs') (verbose : Bool) :
    WithParen (skipBlank verbose cs) (Pattern.skipBlank verbose cs') := by
  cases h with
  | behind =>
    cases verbose with
    | false => exact behind cs
    | true => exact skipBlank_go cs false
  | taken =>
    cases verbose with
    | false => exact taken
    | true => exact taken

theorem bump (h : WithParen cs cs') (verbose : Bool) :
    WithParen (bump verbose cs) (Pattern.bump verbose cs') := by
  refine WithParen.skipBlank ?_ verbose
  cases h using heads with
  | nil => exact taken
  | paren => exact taken
  | cons c rest rest' hrest => exact hrest

theorem dropBlank (h : WithParen cs cs') :
    WithParen (cs.dropWhile Text.isBlank) (cs'.dropWhile Text.isBlank) := by
  cases h with
  | taken => exact taken
  | behind =>
    induction cs with
    | nil => exact behind []
    | cons c cs ih =>
      rw [List.cons_append]
      unfold List.dropWhile
      cases Text.isBlank c with
      | true => exact ih
      | false => exact behind (c :: cs)

theorem length_le (h : WithParen cs cs') : cs.length ≤ cs'.length := by
  cases h with
  | behind =>
    rw [List.length_append]
    exact Nat.le_add_right _ _
  | taken => exact Nat.le_refl _

/-- What goes up to a mark goes up to the same mark in both texts. -/
theorem dropWhile_cases (h : WithParen cs cs') {p : Char → Bool} (hp : p ')' = true) :
    (cs.dropWhile p = [] ∧ cs'.dropWhile p = []) ∨
      ∃ c rest rest', cs.dropWhile p = c :: rest ∧ cs'.dropWhile p = c :: rest' ∧
        WithParen rest rest' ∧ cs'.takeWhile p = cs.takeWhile p := by
  cases h with
  | taken => exact .inl ⟨rfl, rfl⟩
  | behind =>
    -- without the mark all of the text goes, and the parenthesis with it
    induction cs with
    | nil => exact .inl ⟨rfl, by rw [List.nil_append, List.dropWhile_cons_of_pos hp]; rfl⟩
    | cons c cs ih =>
      rw [List.cons_append]
      by_cases hc : p c = true
      · rw [List.dropWhile_cons_of_pos hc, List.dropWhile_cons_of_pos hc,
          List.takeWhile_cons_of_pos hc, List.takeWhile_cons_of_pos hc]
        obtain hnil | ⟨d, rest, rest', hrest, hrest', hparen, htake⟩ := ih
        · exact .inl hnil
        · exact .inr ⟨d, rest, rest', hrest, hrest', hparen, congrArg (c :: ·) htake⟩
      · rw [List.dropWhile_cons_of_neg hc, List.dropWhile_cons_of_neg hc,
          List.takeWhile_cons_of_neg hc, List.takeWhile_cons_of_neg hc]
        exact .inr ⟨c, cs, cs ++ [')'], rfl, rfl, behind cs, rfl⟩

theorem skipLazy (h : WithParen cs cs') : WithParen (skipLazy cs) (Pattern.skipLazy cs') := by
  cases h using heads with
  | nil => exact taken
  | paren => exact behind []
  | cons c rest rest' hrest hcons =>
    -- a question mark begins both texts or neither
    unfold Pattern.skipLazy
    split <;> split <;> simp_all

end WithParen

/-- What is read of the longer text is what is read of the shorter one. Where the shorter one is
refused, what is left of the longer one is lost. -/
def Follows {α : Type} (lost : α → List Char → Prop) :
    Option (α × List Char) → Option (α × List Char) → Prop
  | some (a, rest), longer => ∃ rest', longer = some (a, rest') ∧ WithParen rest rest'
  | none, longer => ∀ a rest', longer = some (a, rest') → lost a rest'

/-- Where the shorter text is refused, the longer one is refused, too. -/
def never {α : Type} (_ : α) (_ : List Char) : Prop :=
  False

/-- Where the shorter text is refused, the parenthesis is read. -/
def spent {α : Type} (_ : α) (rest : List Char) : Prop :=
  rest = []

namespace Follows

variable {α β γ : Type} {lost : α → List Char → Prop} {lost' : β → List Char → Prop}
variable {x x' : Option (α × List Char)}

theorem of_withParen {a : α} {rest rest' : List Char} (h : WithParen rest rest') :
    Follows lost (some (a, rest)) (some (a, rest')) :=
  ⟨rest', rfl, h⟩

theorem of_lost {a : α} {rest' : List Char} (h : lost a rest') :
    Follows lost none (some (a, rest')) := by
  rintro _ _ ⟨⟩
  exact h

theorem of_none : Follows lost none none := by
  rintro _ _ ⟨⟩

/-- Two scanners one after another. -/
theorem bind {f f' : α × List Char → Option (β × List Char)} (h : Follows lost x x')
    (hread : ∀ a rest rest', WithParen rest rest' → Follows lost' (f (a, rest)) (f' (a, rest')))
    (hlost : ∀ a rest', lost a rest' → Follows lost' none (f' (a, rest'))) :
    Follows lost' (x >>= f) (x' >>= f') := by
  cases x with
  | some read =>
    obtain ⟨a, rest⟩ := read
    obtain ⟨rest', rfl, hrest⟩ := h
    exact hread a rest rest' hrest
  | none =>
    cases x' with
    | none => exact of_none
    | some read => exact hlost read.1 read.2 (h read.1 read.2 rfl)

theorem bind_of_never {f f' : α × List Char → Option (β × List Char)} (h : Follows never x x')
    (hread : ∀ a rest rest', WithParen rest rest' → Follows lost' (f (a, rest)) (f' (a, rest'))) :
    Follows lost' (x >>= f) (x' >>= f') :=
  h.bind hread fun _ _ hnever => hnever.elim

/-- A step that does not read. -/
theorem bind_option (o : Option γ) {f f' : γ → Option (α × List Char)}
    (h : ∀ c, Follows lost (f c) (f' c)) : Follows lost (o >>= f) (o >>= f') := by
  cases o with
  | none => exact of_none
  | some c => exact h c

theorem bind_option_of_none (o : Option γ) {f' : γ → Option (α × List Char)}
    (h : ∀ c, Follows lost none (f' c)) : Follows lost none (o >>= f') := by
  cases o with
  | none => exact of_none
  | some c => exact h c

theorem map {g : α → β} (h : Follows lost x x')
    (hlost : ∀ a rest', lost a rest' → lost' (g a) rest') :
    Follows lost' (x.map fun read => (g read.1, read.2))
      (x'.map fun read => (g read.1, read.2)) := by
  cases x with
  | some read =>
    obtain ⟨rest', rfl, hrest⟩ := h
    exact of_withParen hrest
  | none =>
    cases x' with
    | none => exact of_none
    | some read => exact of_lost (hlost read.1 read.2 (h read.1 read.2 rfl))

theorem map_of_never {g : α → β} (h : Follows never x x') :
    Follows lost' (x.map fun read => (g read.1, read.2))
      (x'.map fun read => (g read.1, read.2)) :=
  h.map fun _ _ hnever => hnever.elim

theorem map_option (o : Option γ) {g : γ → α} {rest rest' : List Char}
    (h : WithParen rest rest') :
    Follows lost (o.map fun c => (g c, rest)) (o.map fun c => (g c, rest')) := by
  cases o with
  | none => exact of_none
  | some c => exact of_withParen h

theorem map_option_of_none (o : Option γ) {g : γ → α} {rest' : List Char}
    (h : ∀ c, lost (g c) rest') : Follows lost none (o.map fun c => (g c, rest')) := by
  cases o with
  | none => exact of_none
  | some c => exact of_lost (h c)

theorem mono {lost' : α → List Char → Prop} (h : Follows lost x x')
    (hlost : ∀ a rest', lost a rest' → lost' a rest') : Follows lost' x x' := by
  cases x with
  | some read => exact h
  | none => exact fun a rest' hread => hlost a rest' (h a rest' hread)

theorem of_never (h : Follows never x x') : Follows lost x x' := by
  cases x with
  | some read => exact h
  | none => exact fun a rest' hread => (h a rest' hread).elim

/-- Both texts take the same branch. -/
theorem ite {p : Prop} [Decidable p] {y y' : Option (α × List Char)}
    (hpos : p → Follows lost x x') (hneg : ¬p → Follows lost y y') :
    Follows lost (if p then x else y) (if p then x' else y') := by
  split
  · rename_i hp
    exact hpos hp
  · rename_i hp
    exact hneg hp

theorem eq_none {x' : Option (α × List Char)} (h : Follows never none x') : x' = none := by
  cases x' with
  | none => rfl
  | some read => exact (h read.1 read.2 rfl).elim

end Follows

/-! ### Escapes -/

variable {cs cs' : List Char}

theorem braced?_of_bump {verbose : Bool} (h : bump verbose cs = []) (fuel : Nat) :
    braced? verbose fuel cs = none := by
  cases fuel with
  | zero => rfl
  | succ fuel =>
    unfold braced?
    rw [h]

theorem braced?_of_brace {verbose : Bool} {rest : List Char}
    (h : bump verbose cs = '}' :: rest) (fuel : Nat) :
    braced? verbose (fuel + 1) cs = some ([], rest) := by
  rw [braced?, h]
  rfl

theorem braced?_of_cons {verbose : Bool} {c : Char} {rest : List Char}
    (h : bump verbose cs = c :: rest) (hc : c ≠ '}') (fuel : Nat) :
    braced? verbose (fuel + 1) cs =
      (braced? verbose fuel (c :: rest)).map fun read => (c :: read.1, read.2) := by
  rw [braced?, h]
  split
  · contradiction
  · rename_i heq
    exact absurd (List.cons.inj heq).1 hc
  · rename_i heq
    obtain ⟨rfl, rfl⟩ := List.cons.inj heq
    rfl

theorem braced?_follows (verbose : Bool) {fuel fuel' : Nat} (h : WithParen cs cs')
    (hfuel : cs.length ≤ fuel) (hfuel' : cs'.length ≤ fuel') :
    Follows never (braced? verbose fuel cs) (braced? verbose fuel' cs') := by
  have hnil (k : Nat) : braced? verbose k [] = none :=
    braced?_of_bump (by cases verbose <;> rfl) k
  have hparen (k : Nat) : braced? verbose k [')'] = none :=
    braced?_of_bump (by cases verbose <;> rfl) k
  -- the texts differ in length, and so may their bounds
  induction fuel generalizing fuel' cs cs' with
  | zero =>
    obtain rfl := List.eq_nil_of_length_eq_zero (Nat.le_zero.mp hfuel)
    obtain rfl | rfl := h.of_nil
    · rw [hnil fuel']
      exact .of_none
    · rw [hparen]
      exact .of_none
  | succ fuel ih =>
    have hbump := h.bump verbose
    cases hnext : bump verbose cs with
    | nil =>
      rw [hnext] at hbump
      rw [braced?_of_bump hnext]
      obtain hnext' | hnext' := hbump.of_nil
      · rw [braced?_of_bump hnext']
        exact .of_none
      · -- the parenthesis stands between the braces, and the second brace is missing all the same
        cases fuel' with
        | zero => exact .of_none
        | succ fuel' =>
          rw [braced?_of_cons hnext' (by decide), hparen]
          exact .of_none
    | cons c rest =>
      rw [hnext] at hbump
      obtain ⟨rest', hnext', hrest⟩ := hbump.of_cons
      have hlen := length_bump_le verbose cs
      have hlen' := length_bump_le verbose cs'
      rw [hnext, List.length_cons] at hlen
      rw [hnext', List.length_cons] at hlen'
      obtain ⟨fuel', rfl⟩ : ∃ k, fuel' = k + 1 := ⟨fuel' - 1, by omega⟩
      by_cases hbrace : c = '}'
      · subst hbrace
        rw [braced?_of_brace hnext, braced?_of_brace hnext']
        exact .of_withParen hrest
      · rw [braced?_of_cons hnext hbrace, braced?_of_cons hnext' hbrace]
        have hread : WithParen (c :: rest) (c :: rest') := hnext' ▸ hnext ▸ h.bump verbose
        refine (ih hread ?_ ?_).map_of_never
        · rw [List.length_cons]
          omega
        · rw [List.length_cons]
          omega

theorem fixedHex?_follows (verbose : Bool) (count : Nat) (h : WithParen cs cs') :
    Follows never (fixedHex? verbose count cs) (fixedHex? verbose count cs') := by
  induction count generalizing cs cs' with
  | zero => exact .of_withParen h
  | succ count ih =>
    cases h using WithParen.heads with
    | nil => exact .of_none
    | paren => exact .of_none
    | cons c rest rest' hrest =>
      unfold fixedHex?
      exact .ite (fun _ => (ih (hrest.skipBlank verbose)).map_of_never) fun _ => .of_none

theorem hexEscape?_follows (verbose : Bool) (count : Nat) (h : WithParen cs cs') :
    Follows never (hexEscape? verbose count cs) (hexEscape? verbose count cs') := by
  have hblank := h.skipBlank verbose
  unfold hexEscape?
  generalize skipBlank verbose cs = text at hblank
  generalize skipBlank verbose cs' = text' at hblank
  split
  · obtain ⟨rest', rfl, hrest⟩ := hblank.of_cons
    refine (braced?_follows verbose hblank (Nat.le_refl _) (Nat.le_refl _)).bind_of_never ?_
    intro digits rest rest' hrest
    dsimp only
    split
    · exact .of_none
    · exact .bind_option _ fun c => .of_withParen (hrest.skipBlank verbose)
  · -- the other text does not begin with a brace either
    rename_i hbrace
    split
    · obtain ⟨rest, rfl, -⟩ := hblank.of_cons_right (by decide)
      exact absurd rfl (hbrace rest)
    · refine (fixedHex?_follows verbose count hblank).bind_of_never ?_
      intro digits rest rest' hrest
      exact .bind_option _ fun c => .of_withParen hrest

theorem property?_follows (verbose : Bool) (h : WithParen cs cs') :
    Follows spent (property? verbose cs) (property? verbose cs') := by
  have hblank := h.skipBlank verbose
  unfold property?
  generalize skipBlank verbose cs = text at hblank
  generalize skipBlank verbose cs' = text' at hblank
  split
  · obtain rfl | rfl := hblank.of_nil
    · exact .of_none
    · -- no property is named by the parenthesis
      exact .bind_option_of_none _ fun s => .of_lost (by cases verbose <;> rfl)
  · obtain ⟨rest', rfl, -⟩ := hblank.of_cons
    exact .of_none
  · obtain ⟨rest', rfl, hrest⟩ := hblank.of_cons
    refine (braced?_follows verbose hblank (Nat.le_refl _) (Nat.le_refl _)).bind_of_never ?_
    intro name rest rest' hrest
    exact .bind_option _ fun s => .of_withParen hrest
  · rename_i c rest hescape hbrace
    obtain ⟨rest', rfl, hrest⟩ := hblank.of_cons
    split
    · contradiction
    · rename_i heq
      exact absurd (List.cons.inj heq).1 (by simpa using hescape)
    · rename_i heq
      exact absurd (List.cons.inj heq).1 (by simpa using hbrace)
    · rename_i heq
      obtain ⟨rfl, rfl⟩ := List.cons.inj heq
      exact .bind_option _ fun s => .of_withParen (hrest.skipBlank verbose)

/-- An escape that is refused on its own can be read when the parenthesis stands behind it: the
parenthesis itself is escaped, or a repetition without bounds stands behind a word boundary. -/
inductive LostAtom (verbose : Bool) : Atom → List Char → Prop
  | escaped (a : Atom) : LostAtom verbose a []
  | unbounded (l : Look) {rest : List Char} (h : skipBlank verbose rest = [')']) :
    LostAtom verbose (.look l) ('{' :: rest)

theorem propertyEscape?_follows (flags : Flags) (negated : Bool) (h : WithParen cs cs') :
    Follows (LostAtom flags.verbose) (propertyEscape? flags negated cs)
      (propertyEscape? flags negated cs') := by
  refine .bind_option _ fun _ => (property?_follows flags.verbose h).bind ?_ ?_
  · intro s rest rest' hrest
    exact .of_withParen hrest
  · rintro s _ rfl
    exact .of_lost (.escaped _)

theorem bracedBoundary?_follows (flags : Flags) (h : WithParen ('{' :: cs) ('{' :: cs')) :
    Follows (LostAtom flags.verbose) (bracedBoundary? flags cs) (bracedBoundary? flags cs') := by
  obtain ⟨_, ⟨⟩, hrest⟩ := h.of_cons
  have hblank := hrest.skipBlank flags.verbose
  unfold bracedBoundary?
  dsimp only
  split
  · rename_i hnil
    rw [hnil] at hblank
    obtain hnil' | hparen := hblank.of_nil
    · rw [hnil']
      exact .of_none
    · -- the brace is no name, and behind the condition it begins a repetition
      rw [hparen]
      exact .of_lost (.unbounded _ hparen)
  · rename_i c more hnext
    rw [hnext] at hblank
    obtain ⟨more', hnext', -⟩ := hblank.of_cons
    rw [hnext']
    dsimp only
    refine .ite (fun _ => ?_) fun _ => .of_withParen h
    have hbraced := braced?_follows flags.verbose h (Nat.le_refl _) (Nat.le_refl _)
    refine hbraced.bind_of_never fun name rest rest' hrest => ?_
    dsimp only
    split
    all_goals first | exact .of_withParen hrest | exact .of_none

theorem boundaryEscape?_follows (flags : Flags) (h : WithParen cs cs') :
    Follows (LostAtom flags.verbose) (boundaryEscape? flags cs) (boundaryEscape? flags cs') := by
  unfold boundaryEscape?
  split
  · obtain ⟨rest', rfl, -⟩ := h.of_cons
    exact bracedBoundary?_follows flags h
  · rename_i hbrace
    split
    · obtain ⟨rest, rfl, -⟩ := h.of_cons_right (by decide)
      exact absurd rfl (hbrace rest)
    · exact .of_withParen h

theorem escape?_follows (flags : Flags) (h : WithParen cs cs') :
    Follows (LostAtom flags.verbose) (escape? flags cs) (escape? flags cs') := by
  cases h using WithParen.heads with
  | nil => exact .of_none
  | paren =>
    -- the backslash at the end of the text escapes the parenthesis
    exact .of_lost (.escaped (.char ')'))
  | cons c rest rest' hrest =>
    have hhex (count : Nat) : Follows (LostAtom flags.verbose)
        ((hexEscape? flags.verbose count rest).map fun read => (.char read.1, read.2))
        ((hexEscape? flags.verbose count rest').map fun read => (.char read.1, read.2)) :=
      (hexEscape?_follows flags.verbose count hrest).map_of_never
    unfold escape?
    dsimp only
    -- one branch for each letter that has something to read behind it
    refine .ite (fun _ => .of_none) fun _ => ?_
    refine .ite (fun _ => ?_) fun _ => ?_
    · have hbraces := (hrest.skipBlank flags.verbose).head?_beq (c := '{') (by decide)
      refine (hexEscape?_follows flags.verbose 2 hrest).bind_of_never ?_
      intro code after after' hafter
      dsimp only
      rw [hbraces]
      exact .ite (fun _ => .of_none) fun _ => .of_withParen hafter
    refine .ite (fun _ => hhex 4) fun _ => ?_
    refine .ite (fun _ => hhex 8) fun _ => ?_
    refine .ite (fun _ => propertyEscape?_follows flags _ hrest) fun _ => ?_
    cases CharSet.escapeClass? flags.unicode c with
    | some s => exact .of_withParen hrest
    | none =>
      refine .ite (fun _ => .of_withParen hrest) fun _ => ?_
      split
      all_goals first
        | exact .of_withParen hrest
        | exact boundaryEscape?_follows flags hrest
        | exact .of_none

end EventPipeline.Pattern
