import EventPipeline.Pattern.Reader

/-!
# `EventPipeline.Proofs.Pattern.Lengths`: the reader comes to an end

Every scanner of the reader leaves at most the text that it got (`Leaves`), and one that reads an
element of a class or of a pattern leaves less. So the bound on the length of the text, on which
the loops of the reader run, is never what ends them: a loop that may run longer gives the same
(`class?_fuel`, `readFrom?_fuel`).
-/

set_option autoImplicit false

namespace EventPipeline.Pattern

/-- At most so many characters are left of the text. -/
def Leaves {α : Type} (n : Nat) (x : Option (α × List Char)) : Prop :=
  ∀ a rest, x = some (a, rest) → rest.length ≤ n

namespace Leaves

variable {α β γ : Type} {m n : Nat} {x : Option (α × List Char)}

theorem of_le {a : α} {rest : List Char} (h : rest.length ≤ n) : Leaves n (some (a, rest)) := by
  rintro _ _ ⟨⟩
  exact h

theorem of_none : Leaves n (none : Option (α × List Char)) := by
  rintro _ _ ⟨⟩

theorem mono (h : Leaves m x) (hle : m ≤ n) : Leaves n x :=
  fun a rest hread => Nat.le_trans (h a rest hread) hle

theorem bind {f : α × List Char → Option (β × List Char)} (h : Leaves m x)
    (hread : ∀ a rest, rest.length ≤ m → Leaves n (f (a, rest))) : Leaves n (x >>= f) := by
  cases x with
  | none => exact of_none
  | some read => exact hread read.1 read.2 (h read.1 read.2 rfl)

theorem bind_option {o : Option γ} {f : γ → Option (α × List Char)} (h : ∀ c, Leaves n (f c)) :
    Leaves n (o >>= f) := by
  cases o with
  | none => exact of_none
  | some c => exact h c

theorem map {g : α → β} (h : Leaves n x) : Leaves n (x.map fun read => (g read.1, read.2)) := by
  cases x with
  | none => exact of_none
  | some read => exact of_le (h read.1 read.2 rfl)

theorem map_option {o : Option γ} {g : γ → α} {rest : List Char} (h : rest.length ≤ n) :
    Leaves n (o.map fun c => (g c, rest)) := by
  cases o with
  | none => exact of_none
  | some c => exact of_le h

end Leaves

/-! ### Blanks and escapes -/

theorem length_skipBlank_le (verbose : Bool) (cs : List Char) :
    (skipBlank verbose cs).length ≤ cs.length := by
  have hgo (inComment : Bool) : (skipBlank.go inComment cs).length ≤ cs.length := by
    induction cs generalizing inComment with
    | nil => exact Nat.le_refl _
    | cons c cs ih =>
      unfold skipBlank.go
      split
      · exact Nat.le_succ_of_le (ih _)
      · split
        · exact Nat.le_succ_of_le (ih _)
        · split
          · exact Nat.le_succ_of_le (ih _)
          · exact Nat.le_refl _
  cases verbose with
  | false => exact Nat.le_refl _
  | true => exact hgo false

theorem length_bump_le (verbose : Bool) (cs : List Char) :
    (bump verbose cs).length ≤ cs.length - 1 := by
  have hle := length_skipBlank_le verbose (cs.drop 1)
  rw [List.length_drop] at hle
  exact hle

theorem length_dropWhile_le (p : Char → Bool) (cs : List Char) :
    (cs.dropWhile p).length ≤ cs.length :=
  (List.dropWhile_suffix p).length_le

theorem braced?_leaves (verbose : Bool) (fuel : Nat) (cs : List Char) :
    Leaves (cs.length - 1) (braced? verbose fuel cs) := by
  induction fuel generalizing cs with
  | zero => exact .of_none
  | succ fuel ih =>
    have hlen := length_bump_le verbose cs
    unfold braced?
    split
    · exact .of_none
    · rename_i rest hnext
      rw [hnext, List.length_cons] at hlen
      exact .of_le (by omega)
    · -- the character that was there is gone, so each round has a shorter text
      rename_i c rest _ hnext
      rw [hnext] at hlen
      exact ((ih _).mono (by omega)).map

theorem fixedHex?_leaves (verbose : Bool) (count : Nat) (cs : List Char) :
    Leaves cs.length (fixedHex? verbose count cs) := by
  induction count generalizing cs with
  | zero => exact .of_le (Nat.le_refl _)
  | succ count ih =>
    cases cs with
    | nil => exact .of_none
    | cons c rest =>
      have hlen := length_skipBlank_le verbose rest
      unfold fixedHex?
      split
      · exact ((ih _).mono (Nat.le_succ_of_le hlen)).map
      · exact .of_none

theorem hexEscape?_leaves (verbose : Bool) (count : Nat) (cs : List Char) :
    Leaves cs.length (hexEscape? verbose count cs) := by
  have hlen := length_skipBlank_le verbose cs
  unfold hexEscape?
  split
  · rename_i rest hnext
    rw [hnext, List.length_cons] at hlen
    refine (braced?_leaves verbose _ _).bind fun digits after hafter => ?_
    rw [List.length_cons] at hafter
    have hblank := length_skipBlank_le verbose after
    dsimp only
    split
    · exact .of_none
    · exact .bind_option fun c => .of_le (by omega)
  · exact (fixedHex?_leaves verbose count _).bind fun digits after hafter =>
      .bind_option fun c => .of_le (by omega)

theorem property?_leaves (verbose : Bool) (cs : List Char) :
    Leaves cs.length (property? verbose cs) := by
  have hlen := length_skipBlank_le verbose cs
  unfold property?
  split
  · exact .of_none
  · exact .of_none
  · rename_i rest hnext
    rw [hnext] at hlen
    refine (braced?_leaves verbose _ _).bind fun name after hafter => ?_
    exact .bind_option fun s => .of_le (by omega)
  · rename_i c rest _ _ hnext
    rw [hnext, List.length_cons] at hlen
    have hblank := length_skipBlank_le verbose rest
    exact .bind_option fun s => .of_le (by omega)

theorem propertyEscape?_leaves (flags : Flags) (negated : Bool) (cs : List Char) :
    Leaves cs.length (propertyEscape? flags negated cs) :=
  .bind_option fun _ => (property?_leaves flags.verbose cs).bind fun _ _ hrest => .of_le hrest

theorem bracedBoundary?_leaves (flags : Flags) (cs : List Char) :
    Leaves (cs.length + 1) (bracedBoundary? flags cs) := by
  unfold bracedBoundary?
  dsimp only
  split
  · exact .of_none
  · split
    · refine (braced?_leaves flags.verbose _ _).bind fun name rest hrest => ?_
      rw [List.length_cons] at hrest
      dsimp only
      split
      all_goals first | exact .of_le (by omega) | exact .of_none
    · exact .of_le (Nat.le_refl _)

theorem boundaryEscape?_leaves (flags : Flags) (cs : List Char) :
    Leaves cs.length (boundaryEscape? flags cs) := by
  unfold boundaryEscape?
  split
  · exact bracedBoundary?_leaves flags _
  · exact .of_le (Nat.le_refl _)

theorem escape?_leaves (flags : Flags) (cs : List Char) : Leaves cs.length (escape? flags cs) := by
  cases cs with
  | nil => exact .of_none
  | cons c rest =>
    have hhex (count : Nat) :=
      (hexEscape?_leaves flags.verbose count rest).mono (Nat.le_succ rest.length)
    have hrest : rest.length ≤ (c :: rest).length := Nat.le_succ _
    unfold escape?
    dsimp only
    split
    · exact .of_none
    split
    · refine (hhex 2).bind fun code after hafter => ?_
      dsimp only
      split
      · exact .of_none
      · exact .of_le hafter
    split
    · exact (hhex 4).map
    split
    · exact (hhex 8).map
    split
    · exact (propertyEscape?_leaves flags _ rest).mono hrest
    split
    · exact .of_le hrest
    split
    · exact .of_le hrest
    split
    all_goals first
      | exact .of_le hrest
      | exact (boundaryEscape?_leaves flags rest).mono hrest
      | exact .of_none

/-! ### Classes -/

theorem length_negation_le (verbose : Bool) (cs : List Char) :
    (negation verbose cs).2.length ≤ cs.length := by
  unfold negation
  split
  · exact Nat.le_succ_of_le (length_skipBlank_le verbose _)
  · exact Nat.le_refl _

theorem length_hyphens_le (verbose : Bool) (fuel : Nat) (open_ : OpenClass) (cs : List Char) :
    (openClass?.hyphens verbose fuel open_ cs).2.length ≤ cs.length := by
  induction fuel generalizing open_ cs with
  | zero => exact Nat.le_refl _
  | succ fuel ih =>
    unfold openClass?.hyphens
    split
    · rename_i k rest heq
      obtain rfl := Nat.succ.inj heq
      exact Nat.le_trans (ih _ _) (Nat.le_succ_of_le (length_skipBlank_le verbose rest))
    · exact Nat.le_refl _

theorem openClass?_leaves (verbose : Bool) (cs : List Char) :
    Leaves cs.length (openClass? verbose cs) := by
  have hblank := length_skipBlank_le verbose cs
  have hnegation := length_negation_le verbose (skipBlank verbose cs)
  have hhyphens := length_hyphens_le verbose
    ((negation verbose (skipBlank verbose cs)).2.length + 1)
    { negated := (negation verbose (skipBlank verbose cs)).1 }
    (negation verbose (skipBlank verbose cs)).2
  unfold openClass?
  dsimp only
  unfold openClass?.firstBracket?
  split
  · exact .of_none
  · rename_i c rest hnext
    rw [hnext, List.length_cons] at hhyphens
    split
    · have hafter := length_skipBlank_le verbose rest
      split
      · exact .of_none
      · rename_i d more hmore
        rw [hmore] at hafter
        exact .of_le (by omega)
    · exact .of_le (by rw [List.length_cons]; omega)

theorem asciiName?_leaves (negated : Bool) (cs : List Char) :
    Leaves cs.length (asciiName? negated cs) := by
  have hname := length_dropWhile_le (· != ':') cs
  unfold asciiName?
  split
  · rename_i rest hnext
    rw [hnext, List.length_cons, List.length_cons] at hname
    exact .map_option (by omega)
  · exact .of_none

theorem asciiClass?_leaves (cs : List Char) : Leaves cs.length (asciiClass? cs) := by
  unfold asciiClass?
  split
  · rename_i rest
    exact (asciiName?_leaves _ _).mono (Nat.le_succ_of_le (length_negation_le false rest))
  · exact .of_none

theorem atom?_leaves (flags : Flags) (cs : List Char) :
    Leaves (cs.length - 1) (atom? flags cs) := by
  unfold atom?
  split
  · exact .of_none
  · exact escape?_leaves flags _
  · exact .of_le (Nat.le_refl _)

theorem classAtom?_leaves (flags : Flags) (cs : List Char) :
    Leaves (cs.length - 1) (classAtom? flags cs) := by
  refine (atom?_leaves flags cs).bind fun atom rest hrest => ?_
  dsimp only
  split
  · split
    · exact .of_le hrest
    · exact .of_none
  · exact .of_le hrest

theorem rangeEnd?_leaves (flags : Flags) (first : Atom) (cs : List Char) :
    Leaves (cs.length + 1) (rangeEnd? flags first cs) := by
  have hblank := length_skipBlank_le flags.verbose cs
  unfold rangeEnd?
  split
  · exact .of_none
  · rename_i c more hnext
    rw [hnext] at hblank
    split
    · -- a hyphen that begins no range is given back
      exact .map_option (Nat.le_refl _)
    · refine (classAtom?_leaves flags _).bind fun last rest hrest => ?_
      exact .bind_option fun s => .of_le (by omega)

theorem classMember?_leaves (flags : Flags) (cs : List Char) :
    Leaves (cs.length - 1) (classMember? flags cs) := by
  refine (classAtom?_leaves flags cs).bind fun first rest hrest => ?_
  have hblank := length_skipBlank_le flags.verbose rest
  dsimp only
  split
  · exact .of_none
  · rename_i c more hnext
    rw [hnext, List.length_cons] at hblank
    split
    · exact (rangeEnd?_leaves flags first more).mono (by omega)
    · exact .map_option (by rw [List.length_cons]; omega)

theorem classOp?_leaves (cs : List Char) : Leaves (cs.length - 1) (classOp? cs) := by
  unfold classOp?
  split
  · split
    · exact .map_option (Nat.le_succ _)
    · exact .of_none
  · exact .of_none

theorem innerClass?_leaves (flags : Flags) (current : OpenClass) (outer : List OpenClass)
    (cs : List Char) : Leaves cs.length (innerClass? flags current outer cs) := by
  unfold innerClass?
  split
  · rename_i s rest hread
    exact .map_option (asciiClass?_leaves cs s rest hread)
  · exact (openClass?_leaves flags.verbose cs).map
      (g := fun inner => ClassState.reading inner (current :: outer))

theorem classPart?_leaves (flags : Flags) (current : OpenClass) (outer : List OpenClass)
    (cs : List Char) : Leaves (cs.length - 1) (classPart? flags current outer cs) := by
  unfold classPart?
  split
  · rename_i op rest hop
    exact .of_le (classOp?_leaves cs op rest hop)
  · refine (classMember?_leaves flags cs).bind fun s rest hrest => ?_
    exact .bind_option fun _ => .of_le hrest

theorem classElement?_leaves (flags : Flags) (current : OpenClass) (outer : List OpenClass)
    (cs : List Char) : Leaves (cs.length - 1) (classElement? flags current outer cs) := by
  unfold classElement?
  split
  · exact .of_none
  · split
    · exact innerClass?_leaves flags current outer _
    · split
      · exact .map_option (Nat.le_refl _)
      · exact classPart?_leaves flags current outer _

variable {flags : Flags} {current : OpenClass} {outer : List OpenClass} {cs rest : List Char}

theorem length_lt_of_classElement? {state : ClassState}
    (h : classElement? flags current outer cs = some (state, rest)) : rest.length < cs.length := by
  cases cs with
  | nil => cases h
  | cons c cs => exact Nat.lt_succ_of_le (classElement?_leaves flags current outer _ _ _ h)

theorem class?_leaves (flags : Flags) (fuel : Nat) (current : OpenClass) (outer : List OpenClass)
    (cs : List Char) : Leaves cs.length (class? flags fuel current outer cs) := by
  induction fuel generalizing current outer cs with
  | zero => exact .of_none
  | succ fuel ih =>
    have hblank := length_skipBlank_le flags.verbose cs
    refine (classElement?_leaves flags current outer _).bind fun state rest hrest => ?_
    cases state with
    | reading current outer => exact (ih current outer rest).mono (by omega)
    | closed s depth => exact .of_le (by omega)

/-- Reading a class never runs out of fuel. -/
theorem class?_fuel {fuel fuel' : Nat} (hfuel : cs.length < fuel) (hfuel' : cs.length < fuel') :
    class? flags fuel current outer cs = class? flags fuel' current outer cs := by
  -- the induction is on the bound, not on the text: an element is any number of characters
  induction fuel generalizing fuel' current outer cs with
  | zero => exact absurd hfuel (Nat.not_lt_zero _)
  | succ fuel ih =>
    obtain ⟨fuel', rfl⟩ : ∃ k, fuel' = k + 1 := ⟨fuel' - 1, by omega⟩
    unfold class?
    cases hread : classElement? flags current outer (skipBlank flags.verbose cs) with
    | none => rfl
    | some read =>
      obtain ⟨state, rest⟩ := read
      have hblank := length_skipBlank_le flags.verbose cs
      have hlt := length_lt_of_classElement? hread
      cases state with
      | reading current outer => exact ih (by omega) (by omega)
      | closed s depth => rfl

/-! ### Groups and repetitions -/

theorem flags?_leaves (flags : Flags) (seen cs : List Char) :
    Leaves cs.length (flags? flags seen cs) := by
  induction cs generalizing flags seen with
  | nil => exact .of_none
  | cons c rest ih =>
    have hrest : rest.length ≤ (c :: rest).length := Nat.le_succ _
    unfold flags?
    split
    · split
      · exact .of_none
      · exact .of_le hrest
    split
    · exact .of_none
    split
    · exact (ih _ _).mono hrest
    · exact .bind_option fun flags => (ih _ _).mono hrest

theorem groupName?_leaves (cs : List Char) : Leaves cs.length (groupName? cs) := by
  have hname := length_dropWhile_le (· != '>') cs
  unfold groupName?
  split
  · exact .of_none
  · rename_i rest hnext
    rw [hnext, List.length_cons] at hname
    dsimp only
    split
    · exact .of_le (by omega)
    · exact .of_none

theorem length_afterNameMark?_le {cs rest : List Char} (h : afterNameMark? cs = some rest) :
    rest.length ≤ cs.length := by
  unfold afterNameMark? at h
  split at h
  · cases h
    exact Nat.le_add_right _ 2
  · cases h
    exact Nat.le_succ _
  · cases h

theorem groupHead?_leaves (r : Reader) (cs : List Char) : Leaves cs.length (groupHead? r cs) := by
  unfold groupHead?
  split
  · rename_i rest hmark
    have hlen := length_afterNameMark?_le hmark
    refine (groupName?_leaves rest).bind fun name after hafter => ?_
    dsimp only
    split
    · exact .of_none
    · exact .of_le (by omega)
  · refine (flags?_leaves r.flags [] cs).bind fun read after hafter => ?_
    dsimp only
    split
    · exact .of_le hafter
    · exact .of_le hafter

theorem groupStart?_leaves (r : Reader) (cs : List Char) :
    Leaves cs.length (groupStart? r cs) := by
  have hblank := length_skipBlank_le r.flags.verbose cs
  unfold groupStart?
  split
  · exact .of_le (Nat.zero_le _)
  · rename_i c rest hnext
    rw [hnext] at hblank
    split
    · split
      · exact .of_none
      · rw [List.length_cons] at hblank
        exact (groupHead?_leaves r rest).mono (by omega)
    · exact .of_le hblank

theorem length_digits_le (verbose : Bool) (fuel : Nat) (cs : List Char) :
    (digits verbose fuel cs).2.length ≤ cs.length := by
  induction fuel generalizing cs with
  | zero => exact Nat.le_refl _
  | succ fuel ih =>
    unfold digits
    split
    · rename_i k c rest heq
      obtain rfl := Nat.succ.inj heq
      have hblank := length_skipBlank_le verbose rest
      have hmore := ih (skipBlank verbose rest)
      split
      · exact Nat.le_trans hmore (Nat.le_succ_of_le hblank)
      · exact Nat.le_refl _
    · exact Nat.le_refl _

theorem count?_leaves (verbose : Bool) (cs : List Char) : Leaves cs.length (count? verbose cs) := by
  have hbefore := length_dropWhile_le Text.isBlank cs
  have hdigits := length_digits_le verbose (cs.length + 1) (cs.dropWhile Text.isBlank)
  unfold count?
  dsimp only
  split
  · exact .of_none
  · refine .of_le (Nat.le_trans (length_skipBlank_le verbose _) ?_)
    exact Nat.le_trans (length_dropWhile_le _ _) (Nat.le_trans hdigits hbefore)

theorem upperBound?_leaves (verbose : Bool) (least : Nat) (cs : List Char) :
    Leaves cs.length (upperBound? verbose least cs) := by
  have hblank := length_skipBlank_le verbose cs
  unfold upperBound?
  split
  · exact .of_none
  · rename_i c rest hnext
    rw [hnext] at hblank
    split
    · rw [List.length_cons] at hblank
      exact .of_le (by omega)
    · refine (count?_leaves verbose _).bind fun most after hafter => ?_
      dsimp only
      split
      · exact .of_none
      · rw [List.length_cons] at hafter
        split
        · exact .of_le (by omega)
        · exact .of_none

theorem bounds?_leaves (verbose : Bool) (cs : List Char) :
    Leaves cs.length (bounds? verbose cs) := by
  have hblank := length_skipBlank_le verbose cs
  refine (count?_leaves verbose _).bind fun least after hafter => ?_
  dsimp only
  split
  · exact .of_none
  · rename_i c rest
    rw [List.length_cons] at hafter
    split
    · exact .of_le (by omega)
    · split
      · exact (upperBound?_leaves verbose least rest).mono (by omega)
      · exact .of_none

/-! ### Patterns -/

theorem length_skipLazy_le (cs : List Char) : (skipLazy cs).length ≤ cs.length := by
  unfold skipLazy
  split
  · exact Nat.le_succ _
  · exact Nat.le_refl _

theorem bracketed?_leaves (r : Reader) (cs : List Char) : Leaves cs.length (bracketed? r cs) := by
  refine (openClass?_leaves r.flags.verbose cs).bind fun open_ after hafter => ?_
  refine (class?_leaves r.flags _ open_ [] after).bind fun read rest hrest => ?_
  exact .bind_option fun r => .of_le (Nat.le_trans hrest hafter)

theorem repeated?_leaves (r : Reader) (cs : List Char) : Leaves cs.length (repeated? r cs) := by
  refine (bounds?_leaves r.flags.verbose cs).bind fun read rest hrest => ?_
  refine .bind_option fun after => .of_le ?_
  exact Nat.le_trans (length_skipLazy_le _)
    (Nat.le_trans (length_skipBlank_le r.flags.verbose rest) hrest)

theorem escaped?_leaves (r : Reader) (cs : List Char) : Leaves cs.length (escaped? r cs) :=
  (escape?_leaves r.flags cs).bind fun _ _ hrest => .bind_option fun _ => .of_le hrest

theorem element?_leaves (r : Reader) (cs : List Char) :
    Leaves (cs.length - 1) (element? r cs) := by
  unfold element?
  split
  · exact .of_none
  rename_i c rest
  split
  · exact groupStart?_leaves r rest
  split
  · exact bracketed?_leaves r rest
  split
  · exact repeated?_leaves r rest
  split
  · exact escaped?_leaves r rest
  split
  · exact .map_option (length_skipLazy_le rest)
  · exact .map_option (Nat.le_refl _)

theorem length_lt_of_element? {r r' : Reader} (h : element? r cs = some (r', rest)) :
    rest.length < cs.length := by
  cases cs with
  | nil => cases h
  | cons c cs => exact Nat.lt_succ_of_le (element?_leaves r _ _ _ h)

/-- Reading a pattern never runs out of fuel. -/
theorem readFrom?_fuel {fuel fuel' : Nat} {r : Reader} (hfuel : cs.length < fuel)
    (hfuel' : cs.length < fuel') : readFrom? fuel r cs = readFrom? fuel' r cs := by
  induction fuel generalizing fuel' r cs with
  | zero => exact absurd hfuel (Nat.not_lt_zero _)
  | succ fuel ih =>
    obtain ⟨fuel', rfl⟩ : ∃ k, fuel' = k + 1 := ⟨fuel' - 1, by omega⟩
    unfold readFrom?
    split
    · rfl
    · cases hread : element? r (skipBlank r.flags.verbose cs) with
      | none => rfl
      | some read =>
        have hblank := length_skipBlank_le r.flags.verbose cs
        have hlt := length_lt_of_element? hread
        exact ih (by omega) (by omega)

theorem readRest?_of_blank {r : Reader} (h : skipBlank r.flags.verbose cs = []) :
    readRest? r cs = if r.outer.isEmpty then some r.group else none := by
  rw [readRest?, readFrom?, h]

theorem readRest?_of_refused {r : Reader} (hblank : skipBlank r.flags.verbose cs ≠ [])
    (h : element? r (skipBlank r.flags.verbose cs) = none) : readRest? r cs = none := by
  rw [readRest?, readFrom?]
  split
  · contradiction
  · rw [h]
    rfl

/-- After an element the rest of the text is read. -/
theorem readRest?_of_element {r r' : Reader}
    (h : element? r (skipBlank r.flags.verbose cs) = some (r', rest)) :
    readRest? r cs = readRest? r' rest := by
  have hblank := length_skipBlank_le r.flags.verbose cs
  have hlt := length_lt_of_element? h
  rw [readRest?, readFrom?]
  split
  · rename_i hnil
    rw [hnil] at h
    cases h
  · rw [h]
    exact readFrom?_fuel (by omega) (Nat.lt_succ_self _)

end EventPipeline.Pattern
