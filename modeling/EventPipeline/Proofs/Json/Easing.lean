import EventPipeline.Json.Reader
import EventPipeline.Proofs.Text.Words

/-!
# `EventPipeline.Proofs.Json.Easing`: line ends between tokens

No token of the data format has a control character in it. So a reader that is inside a token
cannot tell two texts apart that go on alike up to a control character, where the second goes on
with any white space or ends (`LooksAlike`). Two facts follow. Line ends in front of white space,
or at the end of a text, may be left out, and the tokens stay the same (`tokens?_of_eases`). And
every line starts between two tokens, so that no line of a text with tokens starts with a slash
(`head?_line_ne_slash`).
-/

set_option autoImplicit false

namespace EventPipeline.Json

open Text (isBlank trimStart takeWhile_of_stop dropWhile_of_stop)

/-! ### Texts that look alike -/

/-- Texts that are related look alike inside a token: the second goes on as the first does, up to
a control character, and where it does not, white space follows or nothing. -/
structure LooksAlike (R : List Char → List Char → Prop) : Prop where
  cons {c : Char} {cs ds : List Char} (h : R (c :: cs) ds) (hc : 32 ≤ c.toNat) :
    ∃ ds', ds = c :: ds' ∧ R cs ds'
  head {cs ds : List Char} (h : R cs ds) :
    ∀ d ∈ ds.head?, isSpace d = true ∨ cs.head? = some d

/-- What is read from the first text is read from the second one too. What is left of them is
related again, and it is no longer than the bound. -/
def Agrees {α : Type} (R : List Char → List Char → Prop) (bound : Nat)
    (first second : Option (α × List Char)) : Prop :=
  ∀ a rest, first = some (a, rest) →
    ∃ rest', second = some (a, rest') ∧ R rest rest' ∧ rest'.length ≤ bound

namespace Agrees

variable {α β : Type} {R : List Char → List Char → Prop} {bound : Nat}
  {first second : Option (α × List Char)}

theorem none (second : Option (α × List Char)) : Agrees R bound none second := by
  intro a rest h
  cases h

theorem some {a : α} {rest rest' : List Char} (h : R rest rest')
    (hbound : rest'.length ≤ bound) : Agrees R bound (some (a, rest)) (some (a, rest')) := by
  intro b more heq
  cases heq
  exact ⟨rest', rfl, h, hbound⟩

theorem mono {larger : Nat} (h : Agrees R bound first second) (hbound : bound ≤ larger) :
    Agrees R larger first second := by
  intro a rest hfirst
  obtain ⟨rest', hsecond, hrest, hlength⟩ := h a rest hfirst
  exact ⟨rest', hsecond, hrest, Nat.le_trans hlength hbound⟩

/-- Two readers in a row. -/
theorem bind {more more' : α × List Char → Option (β × List Char)}
    (h : Agrees R bound first second)
    (hmore : ∀ a rest rest', R rest rest' → rest'.length ≤ bound →
      Agrees R bound (more (a, rest)) (more' (a, rest'))) :
    Agrees R bound (first.bind more) (second.bind more') := by
  intro b rest hrest
  obtain ⟨⟨a, left⟩, hfirst, hlast⟩ := Option.bind_eq_some_iff.mp hrest
  obtain ⟨left', hsecond, hleft, hlength⟩ := h a left hfirst
  rw [hsecond]
  exact hmore a left left' hleft hlength b rest hlast

/-- What becomes of the result of a reader. -/
theorem map (h : Agrees R bound first second) (f : α → β) :
    Agrees R bound (first.map fun (a, rest) => (f a, rest))
      (second.map fun (a, rest) => (f a, rest)) := by
  intro b rest hrest
  obtain ⟨⟨a, left⟩, hfirst, heq⟩ := Option.map_eq_some_iff.mp hrest
  cases heq
  obtain ⟨rest', hsecond, hrest', hlength⟩ := h a rest hfirst
  rw [hsecond]
  exact ⟨rest', rfl, hrest', hlength⟩

theorem ite {p : Prop} [Decidable p] {first' second' : Option (α × List Char)}
    (hpos : p → Agrees R bound first second) (hneg : ¬ p → Agrees R bound first' second') :
    Agrees R bound (if p then first else first') (if p then second else second') := by
  by_cases h : p
  · rw [if_pos h, if_pos h]
    exact hpos h
  · rw [if_neg h, if_neg h]
    exact hneg h

end Agrees

/-- Digits are no control characters. -/
theorem visible_of_isDigit {c : Char} (h : c.isDigit = true) : 32 ≤ c.toNat := by
  have hrange : 48 ≤ c.toNat ∧ c.toNat ≤ 57 := Char.isDigit_iff_toNat.mp h
  omega

/-- White space is no digit. -/
theorem isDigit_of_isSpace {c : Char} (h : isSpace c = true) : c.isDigit = false := by
  simp only [isSpace, Bool.or_eq_true, beq_iff_eq] at h
  obtain ((rfl | rfl) | rfl) | rfl := h <;> rfl

namespace LooksAlike

variable {R : List Char → List Char → Prop} {c : Char} {cs ds : List Char}

/-- Both texts start with the character, or none of them does. -/
theorem cases (hR : LooksAlike R) (h : R cs ds) (hc : 32 ≤ c.toNat) (hspace : isSpace c = false) :
    (∃ cs' ds', cs = c :: cs' ∧ ds = c :: ds' ∧ R cs' ds') ∨
      (∀ cs', cs = c :: cs' → False) ∧ ∀ ds', ds = c :: ds' → False := by
  by_cases hhead : cs.head? = some c
  · obtain ⟨cs', rfl⟩ := List.head?_eq_some_iff.mp hhead
    obtain ⟨ds', rfl, hrest⟩ := hR.cons h hc
    exact .inl ⟨cs', ds', rfl, rfl, hrest⟩
  · refine .inr ⟨fun cs' hcs => hhead (hcs ▸ rfl), fun ds' hds => ?_⟩
    obtain hblank | hsame := hR.head h c (hds ▸ rfl)
    · rw [hspace] at hblank
      cases hblank
    · exact hhead hsame

/-- A stretch of text without control characters. -/
theorem append (hR : LooksAlike R) (lit : List Char) (h : R (lit ++ cs) ds)
    (hlit : ∀ c ∈ lit, 32 ≤ c.toNat) : ∃ ds', ds = lit ++ ds' ∧ R cs ds' := by
  induction lit generalizing ds with
  | nil => exact ⟨ds, rfl, h⟩
  | cons c lit ih =>
    obtain ⟨hc, hmore⟩ := List.forall_mem_cons.mp hlit
    obtain ⟨_, rfl, hrest⟩ := hR.cons h hc
    obtain ⟨ds', rfl, hend⟩ := ih hrest hmore
    exact ⟨ds', rfl, hend⟩

/-- The digits in front are the same. -/
theorem digits (hR : LooksAlike R) (h : R cs ds) :
    ds.takeWhile Char.isDigit = cs.takeWhile Char.isDigit ∧
      R (cs.dropWhile Char.isDigit) (ds.dropWhile Char.isDigit) := by
  -- where the first text has no digit, the second has none
  have hstop {cs ds : List Char} (h : R cs ds) (hcs : ∀ c ∈ cs.head?, c.isDigit = false) :
      ds.takeWhile Char.isDigit = cs.takeWhile Char.isDigit ∧
        R (cs.dropWhile Char.isDigit) (ds.dropWhile Char.isDigit) := by
    have hds : ∀ d ∈ ds.head?, d.isDigit = false := by
      intro d hd
      obtain hblank | hsame := hR.head h d hd
      · exact isDigit_of_isSpace hblank
      · exact hcs d hsame
    rw [takeWhile_of_stop hcs, takeWhile_of_stop hds, dropWhile_of_stop hcs,
      dropWhile_of_stop hds]
    exact ⟨rfl, h⟩
  induction cs generalizing ds with
  | nil =>
    refine hstop h ?_
    intro c hc
    cases hc
  | cons c cs ih =>
    cases hc : c.isDigit with
    | true =>
      obtain ⟨ds', rfl, hrest⟩ := hR.cons h (visible_of_isDigit hc)
      obtain ⟨htake, hdrop⟩ := ih hrest
      rw [List.takeWhile_cons_of_pos hc, List.takeWhile_cons_of_pos hc,
        List.dropWhile_cons_of_pos hc, List.dropWhile_cons_of_pos hc, htake]
      exact ⟨rfl, hdrop⟩
    | false =>
      refine hstop h ?_
      intro d hd
      cases hd
      exact hc

/-! ### Numbers -/

/-- The sign of a number. -/
theorem readSign (hR : LooksAlike R) (h : R cs ds) :
    (readSign ds).1 = (readSign cs).1 ∧ R (readSign cs).2 (readSign ds).2 ∧
      (readSign ds).2.length ≤ ds.length := by
  obtain ⟨cs', ds', rfl, rfl, hrest⟩ | ⟨hcs, hds⟩ := hR.cases h (c := '-') (by decide) rfl
  · exact ⟨rfl, hrest, Nat.le_succ _⟩
  · rw [Json.readSign.eq_2 cs hcs, Json.readSign.eq_2 ds hds]
    exact ⟨rfl, h, Nat.le_refl _⟩

/-- The sign of an exponent. -/
theorem readExponentSign (hR : LooksAlike R) (h : R cs ds) :
    (readExponentSign ds).1 = (readExponentSign cs).1 ∧
      R (readExponentSign cs).2 (readExponentSign ds).2 ∧
        (readExponentSign ds).2.length ≤ ds.length := by
  obtain ⟨cs', ds', rfl, rfl, hrest⟩ | ⟨hcs, hds⟩ := hR.cases h (c := '+') (by decide) rfl
  · exact ⟨rfl, hrest, Nat.le_succ _⟩
  · rw [Json.readExponentSign.eq_2 cs hcs, Json.readExponentSign.eq_2 ds hds]
    exact hR.readSign h

/-- Digits of which there has to be one. -/
theorem someDigits {α : Type} (hR : LooksAlike R) (h : R cs ds) (value : List Char → α) :
    Agrees R ds.length
      (if (cs.takeWhile Char.isDigit).isEmpty then none
        else some (value (cs.takeWhile Char.isDigit), cs.dropWhile Char.isDigit))
      (if (ds.takeWhile Char.isDigit).isEmpty then none
        else some (value (ds.takeWhile Char.isDigit), ds.dropWhile Char.isDigit)) := by
  obtain ⟨htake, hdrop⟩ := hR.digits h
  rw [htake]
  exact .ite (fun _ => .none _)
    fun _ => .some hdrop (List.dropWhile_sublist Char.isDigit).length_le

/-- The fraction of a number. -/
theorem readFraction? (hR : LooksAlike R) (h : R cs ds) :
    Agrees R ds.length (readFraction? cs) (readFraction? ds) := by
  obtain ⟨cs', ds', rfl, rfl, hrest⟩ | ⟨hcs, hds⟩ := hR.cases h (c := '.') (by decide) rfl
  · exact (hR.someDigits hrest some).mono (Nat.le_succ _)
  · rw [Json.readFraction?.eq_2 cs hcs, Json.readFraction?.eq_2 ds hds]
    exact .some h (Nat.le_refl _)

/-- The exponent of a number, after its letter. -/
theorem readExponent?_letter (hR : LooksAlike R) (h : R cs ds)
    (hc : (c == 'e' || c == 'E') = true) :
    Agrees R ds.length (Json.readExponent? (c :: cs)) (Json.readExponent? (c :: ds)) := by
  obtain ⟨hsign, hrest, hlength⟩ := hR.readExponentSign h
  simp only [Json.readExponent?, if_pos hc, hsign]
  exact (hR.someDigits hrest fun digits => some <|
    if (Json.readExponentSign cs).1 = true then -min (digitsValue digits : Int) 1000000
    else min (digitsValue digits : Int) 1000000).mono hlength

/-- The exponent of a number. -/
theorem readExponent? (hR : LooksAlike R) (h : R cs ds) :
    Agrees R ds.length (readExponent? cs) (readExponent? ds) := by
  obtain ⟨cs', ds', rfl, rfl, hrest⟩ | ⟨hcs, hds⟩ := hR.cases h (c := 'e') (by decide) rfl
  · exact (hR.readExponent?_letter hrest rfl).mono (Nat.le_succ _)
  obtain ⟨cs', ds', rfl, rfl, hrest⟩ | ⟨hcs', hds'⟩ := hR.cases h (c := 'E') (by decide) rfl
  · exact (hR.readExponent?_letter hrest rfl).mono (Nat.le_succ _)
  have hnone : ∀ es : List Char, (∀ es', es = 'e' :: es' → False) →
      (∀ es', es = 'E' :: es' → False) → Json.readExponent? es = some (none, es) := by
    intro es he hE
    cases es with
    | nil => rfl
    | cons c es =>
      refine if_neg fun hletter => ?_
      obtain hc | hc := Bool.or_eq_true_iff.mp hletter
      · exact he es (beq_iff_eq.mp hc ▸ rfl)
      · exact hE es (beq_iff_eq.mp hc ▸ rfl)
  rw [hnone cs hcs hcs', hnone ds hds hds']
  exact .some h (Nat.le_refl _)

/-- A number, which takes at least one character. -/
theorem readNumber? (hR : LooksAlike R) (h : R cs ds) :
    Agrees R (ds.length - 1) (readNumber? cs) (readNumber? ds) := by
  obtain ⟨hsign, hrest, hlength⟩ := hR.readSign h
  obtain ⟨htake, hdrop⟩ := hR.digits hrest
  have hsplit := congrArg List.length
    (List.takeWhile_append_dropWhile (p := Char.isDigit) (l := (Json.readSign ds).2))
  simp only [Json.readNumber?, hsign, htake]
  refine .ite (fun _ => .none _) fun hwhole => ?_
  -- one digit at least was taken, so that what is left is shorter
  have hsome : 0 < ((Json.readSign ds).2.takeWhile Char.isDigit).length := by
    rw [htake, List.length_pos_iff]
    intro hnil
    simp [hnil] at hwhole
  have hshort : ((Json.readSign ds).2.dropWhile Char.isDigit).length ≤ ds.length - 1 := by
    rw [List.length_append] at hsplit
    omega
  refine ((hR.readFraction? hdrop).mono hshort).bind ?_
  intro fraction rest rest' hrest' hlength'
  refine ((hR.readExponent? hrest').mono hlength').bind ?_
  intro exponent left left' hleft hlength''
  exact .some hleft hlength''

end LooksAlike

/-! ### Strings -/

/-- A hexadecimal digit is no control character. -/
theorem visible_of_hexValue? {c : Char} {n : Nat} (h : hexValue? c = some n) : 32 ≤ c.toNat := by
  unfold hexValue? at h
  split at h
  · exact visible_of_isDigit ‹_›
  split at h
  · rename_i hrange
    simp only [Bool.and_eq_true, decide_eq_true_eq] at hrange
    have hfrom : 97 ≤ c.toNat := hrange.1
    omega
  split at h
  · rename_i hrange
    simp only [Bool.and_eq_true, decide_eq_true_eq] at hrange
    have hfrom : 65 ≤ c.toNat := hrange.1
    omega
  · cases h

/-- A character that is escaped by a letter is no control character. -/
theorem visible_of_escaped? {e c : Char} (h : escaped? e = some c) : 32 ≤ e.toNat := by
  unfold escaped? at h
  split at h <;> first | decide | cases h

namespace LooksAlike

variable {R : List Char → List Char → Prop} {c : Char} {cs ds : List Char}

/-- Four hexadecimal digits. -/
theorem unit? (hR : LooksAlike R) (h : R cs ds) : Agrees R ds.length (unit? cs) (unit? ds) := by
  intro n rest hn
  unfold Json.unit? at hn
  split at hn
  · simp only [Option.bind_eq_bind, Option.bind_eq_some_iff] at hn
    obtain ⟨a, ha, b, hb, c, hc, d, hd, hvalue⟩ := hn
    cases hvalue
    obtain ⟨_, rfl, h₁⟩ := hR.cons h (visible_of_hexValue? ha)
    obtain ⟨_, rfl, h₂⟩ := hR.cons h₁ (visible_of_hexValue? hb)
    obtain ⟨_, rfl, h₃⟩ := hR.cons h₂ (visible_of_hexValue? hc)
    obtain ⟨ds', rfl, h₄⟩ := hR.cons h₃ (visible_of_hexValue? hd)
    refine ⟨ds', ?_, h₄, Nat.le_add_right ds'.length 4⟩
    simp only [Json.unit?, ha, hb, hc, hd]
    rfl
  · cases hn

/-- The second of two units. -/
theorem readLow? (hR : LooksAlike R) (h : R cs ds) (high : Nat) :
    Agrees R ds.length (readLow? high cs) (readLow? high ds) := by
  intro c rest hc
  unfold Json.readLow? at hc
  split at hc
  · obtain ⟨ds', rfl, hunit⟩ := hR.append ['\\', 'u'] h (by simp)
    refine Agrees.bind ((hR.unit? hunit).mono (Nat.le_add_right ds'.length 2)) ?_ c rest hc
    intro low rest rest' hrest hlength
    exact .ite (fun _ => .some hrest hlength) fun _ => .none _
  · cases hc

/-- An escape, after its backslash. -/
theorem readEscape? (hR : LooksAlike R) (h : R cs ds) :
    Agrees R ds.length (readEscape? cs) (readEscape? ds) := by
  obtain ⟨cs', ds', rfl, rfl, hrest⟩ | ⟨hcs, hds⟩ := hR.cases h (c := 'u') (by decide) rfl
  · refine Agrees.bind ((hR.unit? hrest).mono (Nat.le_succ _)) ?_
    intro high rest rest' hrest' hlength
    refine .ite (fun _ => (hR.readLow? hrest' high).mono hlength) fun _ => ?_
    exact .ite (fun _ => .none _) fun _ => .some hrest' hlength
  · intro c rest hc
    cases cs with
    | nil => cases hc
    | cons e cs =>
      rw [Json.readEscape?.eq_2 e cs fun heq => hcs cs (heq ▸ rfl)] at hc
      obtain ⟨c', hescaped, heq⟩ := Option.map_eq_some_iff.mp hc
      cases heq
      obtain ⟨ds', rfl, hrest⟩ := hR.cons h (visible_of_escaped? hescaped)
      refine ⟨ds', ?_, hrest, Nat.le_succ _⟩
      rw [Json.readEscape?.eq_2 e ds' fun heq => hds ds' (heq ▸ rfl), hescaped]
      rfl

/-- A character of a string. -/
theorem readChar? (hR : LooksAlike R) (h : R cs ds) :
    Agrees R ds.length (readChar? c cs) (readChar? c ds) := by
  refine .ite (fun _ => hR.readEscape? h) fun _ => ?_
  exact .ite (fun _ => .none _) fun _ => .some h (Nat.le_refl _)

/-- The rest of a string, if the second bound is large enough. -/
theorem readString? (hR : LooksAlike R) {fuel fuel' : Nat} (h : R cs ds)
    (hfuel : ds.length < fuel') :
    Agrees R ds.length (readString? fuel cs) (readString? fuel' ds) := by
  induction fuel generalizing fuel' cs ds with
  | zero => exact .none _
  | succ fuel ih =>
    obtain ⟨fuel', rfl⟩ := Nat.exists_eq_succ_of_ne_zero (Nat.ne_zero_of_lt hfuel)
    cases cs with
    | nil => exact .none _
    | cons c cs =>
      by_cases hc : 32 ≤ c.toNat
      · obtain ⟨ds', rfl, hrest⟩ := hR.cons h hc
        refine Agrees.mono ?_ (Nat.le_succ ds'.length)
        refine .ite (fun _ => .some hrest (Nat.le_refl _)) fun _ => (hR.readChar? hrest).bind ?_
        intro d rest rest' hrest' hlength
        refine ((ih hrest' ?_).mono hlength).bind ?_
        · exact Nat.lt_of_le_of_lt hlength (Nat.lt_of_succ_lt_succ hfuel)
        · intro more left left' hleft hlength'
          exact .some hleft hlength'
      · -- a control character is neither a quote nor a backslash
        have hne : ∀ d : Char, 32 ≤ d.toNat → (c == d) = false := by
          intro d hd
          rw [beq_eq_false_iff_ne]
          rintro rfl
          exact hc hd
        have hnone : Json.readString? (fuel + 1) (c :: cs) = none := by
          simp [Json.readString?, Json.readChar?, hne '"' (by decide), hne '\\' (by decide),
            Nat.lt_of_not_le hc]
        rw [hnone]
        exact .none _

/-! ### Tokens -/

/-- A word, which takes at least one character. -/
theorem readWord? (hR : LooksAlike R) (h : R cs ds) :
    Agrees R (ds.length - 1) (readWord? cs) (readWord? ds) := by
  intro j rest hj
  unfold Json.readWord? at hj
  split at hj
  · cases hj
    obtain ⟨ds', rfl, hrest⟩ := hR.append ['n', 'u', 'l', 'l'] h (by simp)
    exact ⟨ds', rfl, hrest, Nat.le_add_right ds'.length 3⟩
  · cases hj
    obtain ⟨ds', rfl, hrest⟩ := hR.append ['t', 'r', 'u', 'e'] h (by simp)
    exact ⟨ds', rfl, hrest, Nat.le_add_right ds'.length 3⟩
  · cases hj
    obtain ⟨ds', rfl, hrest⟩ := hR.append ['f', 'a', 'l', 's', 'e'] h (by simp)
    exact ⟨ds', rfl, hrest, Nat.le_add_right ds'.length 4⟩
  · cases hj

end LooksAlike

/-- A token starts with a character that is no white space, and no token starts with a slash. -/
theorem start_of_readToken? {c : Char} {cs rest : List Char} {t : Token}
    (h : readToken? c cs = some (t, rest)) : 33 ≤ c.toNat ∧ c.toNat ≤ 126 ∧ c ≠ '/' := by
  unfold readToken? at h
  split at h
  iterate 7 exact ⟨by decide, by decide, by decide⟩
  obtain ⟨⟨j, left⟩, hscalar, -⟩ := Option.map_eq_some_iff.mp h
  split at hscalar
  · rename_i hnumber
    obtain hminus | hdigit := Bool.or_eq_true_iff.mp hnumber
    · obtain rfl := beq_iff_eq.mp hminus
      exact ⟨by decide, by decide, by decide⟩
    · have hrange : 48 ≤ c.toNat ∧ c.toNat ≤ 57 := Char.isDigit_iff_toNat.mp hdigit
      refine ⟨by omega, by omega, ?_⟩
      rintro rfl
      cases hdigit
  · unfold readWord? at hscalar
    split at hscalar
    · rename_i heq
      cases heq
      exact ⟨by decide, by decide, by decide⟩
    · rename_i heq
      cases heq
      exact ⟨by decide, by decide, by decide⟩
    · rename_i heq
      cases heq
      exact ⟨by decide, by decide, by decide⟩
    · cases hscalar

/-- A token, of which both texts have the first character. -/
theorem LooksAlike.readToken? {R : List Char → List Char → Prop} (hR : LooksAlike R) {c : Char}
    {cs ds : List Char} (h : R cs ds) (hcons : R (c :: cs) (c :: ds)) :
    Agrees R ds.length (readToken? c cs) (readToken? c ds) := by
  have hrest : ∀ t : Token, Agrees R ds.length (some (t, cs)) (some (t, ds)) :=
    fun t => .some h (Nat.le_refl _)
  unfold Json.readToken?
  split
  iterate 6 exact hrest _
  · exact (hR.readString? h (Nat.lt_succ_self _)).map fun s =>
      Token.value (str (String.ofList s))
  · refine Agrees.map (.ite (fun _ => ?_) fun _ => ?_) _
    · exact hR.readNumber? hcons
    · exact hR.readWord? hcons

/-- A relation between texts that look alike takes a token of the first text to the same token of
the second. -/
theorem LooksAlike.exists_readToken? {R : List Char → List Char → Prop} (hR : LooksAlike R)
    {c : Char} {cs ds rest : List Char} {t : Token} (h : R (c :: cs) ds)
    (htoken : Json.readToken? c cs = some (t, rest)) :
    ∃ ds' rest', ds = c :: ds' ∧ Json.readToken? c ds' = some (t, rest') ∧ R rest rest' ∧
      rest'.length ≤ ds'.length := by
  obtain ⟨hvisible, -, -⟩ := start_of_readToken? htoken
  obtain ⟨ds', rfl, hcs⟩ := hR.cons h (Nat.le_of_succ_le hvisible)
  obtain ⟨rest', hother, hrest, hlength⟩ := hR.readToken? hcs h t rest htoken
  exact ⟨ds', rest', rfl, hother, hrest, hlength⟩

/-! ### Line ends that are left out -/

/-- The second text is the first without some carriage returns and line feeds that stood in front
of white space or at the end. -/
inductive Eases : List Char → List Char → Prop
  | nil : Eases [] []
  | keep {cs ds : List Char} (c : Char) (h : Eases cs ds) : Eases (c :: cs) (c :: ds)
  | drop {c : Char} {cs ds : List Char} (hc : c = '\r' ∨ c = '\n') (h : Eases cs ds)
    (hspace : ∀ d ∈ ds.head?, isSpace d = true) : Eases (c :: cs) ds

theorem Eases.refl (cs : List Char) : Eases cs cs := by
  induction cs with
  | nil => exact .nil
  | cons c cs ih => exact .keep c ih

/-- The same text in front of both. -/
theorem Eases.append_left {cs ds : List Char} (h : Eases cs ds) (before : List Char) :
    Eases (before ++ cs) (before ++ ds) := by
  induction before with
  | nil => exact h
  | cons c before ih => exact .keep c ih

/-- Inside a token no line end is missed. -/
theorem looksAlike_eases : LooksAlike Eases where
  cons h hc := by
    cases h with
    | keep c h => exact ⟨_, rfl, h⟩
    | drop hend =>
      obtain rfl | rfl := hend
      · exact absurd hc (by decide)
      · exact absurd hc (by decide)
  head h := by
    intro d hd
    cases h with
    | nil => cases hd
    | keep c h => exact .inr hd
    | drop hend h hspace => exact .inl (hspace d hd)

/-- Behind the first token of a text stand the others. -/
theorem exists_of_tokensFrom? {fuel : Nat} {c : Char} {cs : List Char} {ts : List Token}
    (hc : isSpace c = false) (h : tokensFrom? (fuel + 1) (c :: cs) = some ts) :
    ∃ t rest more, readToken? c cs = some (t, rest) ∧ tokensFrom? fuel rest = some more ∧
      ts = t :: more := by
  rw [tokensFrom?, hc, if_neg Bool.false_ne_true] at h
  obtain ⟨⟨t, rest⟩, htoken, hmore⟩ := Option.bind_eq_some_iff.mp h
  obtain ⟨more, hrest, rfl⟩ := Option.map_eq_some_iff.mp hmore
  exact ⟨t, rest, more, htoken, hrest, rfl⟩

/-- The tokens of a text without its line ends, if the second bound is large enough. -/
theorem tokensFrom?_of_eases {fuel fuel' : Nat} {cs ds : List Char} {ts : List Token}
    (h : Eases cs ds) (hfuel : ds.length < fuel') (htokens : tokensFrom? fuel cs = some ts) :
    tokensFrom? fuel' ds = some ts := by
  induction fuel generalizing fuel' cs ds ts with
  | zero =>
    cases h with
    | nil =>
      obtain ⟨fuel', rfl⟩ := Nat.exists_eq_succ_of_ne_zero (Nat.ne_zero_of_lt hfuel)
      exact htokens
    | keep => cases htokens
    | drop => cases htokens
  | succ fuel ih =>
    obtain ⟨fuel', rfl⟩ := Nat.exists_eq_succ_of_ne_zero (Nat.ne_zero_of_lt hfuel)
    cases cs with
    | nil =>
      cases h
      exact htokens
    | cons c cs =>
      cases hc : isSpace c with
      | true =>
        rw [tokensFrom?, if_pos hc] at htokens
        cases h with
        | keep _ h =>
          rw [tokensFrom?, if_pos hc]
          exact ih h (Nat.lt_of_succ_lt_succ hfuel) htokens
        | drop _ h =>
          -- the second reader does not see this line end, and stays where it is
          exact ih h hfuel htokens
      | false =>
        obtain ⟨t, rest, more, htoken, hmore, rfl⟩ := exists_of_tokensFrom? hc htokens
        obtain ⟨ds', rest', rfl, htoken', hrest, hlength⟩ :=
          looksAlike_eases.exists_readToken? h htoken
        have hless : rest'.length < fuel' :=
          Nat.lt_of_le_of_lt hlength (Nat.lt_of_succ_lt_succ hfuel)
        rw [tokensFrom?, hc, if_neg Bool.false_ne_true, htoken']
        exact congrArg (Option.map (t :: ·)) (ih hrest hless hmore)

/-- A text has the same tokens without its line ends. -/
theorem tokens?_of_eases {cs ds : List Char} {ts : List Token} (h : Eases cs ds)
    (htokens : tokens? cs = some ts) : tokens? ds = some ts :=
  tokensFrom?_of_eases h (Nat.lt_succ_self _) htokens

/-! ### Lines -/

/-- The first text is what the second is up to a line feed, and behind it stands `rest`. -/
def EndsLine (rest cs ds : List Char) : Prop :=
  ∃ before, cs = before ++ '\n' :: rest ∧ ds = before ++ ['\n']

/-- No token goes beyond the end of a line. -/
theorem looksAlike_endsLine (rest : List Char) : LooksAlike (EndsLine rest) where
  cons h hc := by
    obtain ⟨before, hcs, rfl⟩ := h
    cases before with
    | nil =>
      obtain ⟨rfl, -⟩ := List.cons.inj hcs
      exact absurd hc (by decide)
    | cons c before =>
      obtain ⟨rfl, rfl⟩ := List.cons.inj hcs
      exact ⟨before ++ ['\n'], rfl, before, rfl, rfl⟩
  head h := by
    obtain ⟨before, rfl, rfl⟩ := h
    intro d hd
    cases before with
    | nil =>
      cases hd
      exact .inl rfl
    | cons c before => exact .inr hd

/-- What stands behind the end of a line has tokens of its own. -/
theorem exists_tokensFrom?_of_line {fuel : Nat} {before rest : List Char} {ts : List Token}
    (h : tokensFrom? fuel (before ++ '\n' :: rest) = some ts) :
    ∃ fuel' more, tokensFrom? fuel' rest = some more := by
  induction fuel generalizing before ts with
  | zero => cases before <;> cases h
  | succ fuel ih =>
    cases before with
    | nil => exact ⟨fuel, ts, h⟩
    | cons c before =>
      cases hc : isSpace c with
      | true =>
        rw [List.cons_append, tokensFrom?, if_pos hc] at h
        exact ih h
      | false =>
        obtain ⟨t, left, more, htoken, hmore, -⟩ := exists_of_tokensFrom? hc h
        -- the token is the same when the text ends with this line, so it does not go beyond
        have hline : EndsLine rest (c :: (before ++ '\n' :: rest)) (c :: before ++ ['\n']) :=
          ⟨c :: before, rfl, rfl⟩
        obtain ⟨-, -, -, -, ⟨before', rfl, -⟩, -⟩ :=
          (looksAlike_endsLine rest).exists_readToken? hline htoken
        exact ih hmore

/-- A text with tokens does not start with a slash, nor with a slash behind white space. -/
theorem head?_ne_slash {fuel : Nat} {cs : List Char} {ts : List Token}
    (h : tokensFrom? fuel cs = some ts) : (trimStart cs).head? ≠ some '/' := by
  induction fuel generalizing cs ts with
  | zero =>
    cases cs with
    | nil => simp [trimStart]
    | cons => cases h
  | succ fuel ih =>
    cases cs with
    | nil => simp [trimStart]
    | cons c cs =>
      cases hc : isSpace c with
      | true =>
        rw [tokensFrom?, if_pos hc] at h
        have hblank : isBlank c = true := by
          simp only [isSpace, Bool.or_eq_true, beq_iff_eq] at hc
          obtain ((rfl | rfl) | rfl) | rfl := hc <;> rfl
        rw [trimStart, List.dropWhile_cons_of_pos hblank]
        exact ih h
      | false =>
        obtain ⟨t, rest, more, htoken, -, -⟩ := exists_of_tokensFrom? hc h
        obtain ⟨hfrom, hto, hslash⟩ := start_of_readToken? htoken
        have hblank : isBlank c = false := Text.isBlank_eq_false_of_visible hfrom (by omega)
        rw [trimStart, List.dropWhile_cons_of_neg (by simp [hblank])]
        intro hhead
        exact hslash (Option.some.inj hhead)

/-- No line of a text with tokens starts with a slash, nor with a slash behind white space. -/
theorem head?_line_ne_slash {before rest : List Char} {ts : List Token}
    (h : tokens? (before ++ '\n' :: rest) = some ts) : (trimStart rest).head? ≠ some '/' := by
  obtain ⟨fuel, more, hmore⟩ := exists_tokensFrom?_of_line h
  exact head?_ne_slash hmore

end EventPipeline.Json
