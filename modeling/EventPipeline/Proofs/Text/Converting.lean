import EventPipeline.Proofs.Text.LetterCase
import EventPipeline.Text.Convert

/-!
# `EventPipeline.Proofs.Text.Converting`: converting a text twice

Converting a text to upper or lower case a second time changes nothing. Proper case and title case
work on words: they keep their number and join them by single spaces (`words_proper`,
`words_title`), and converting twice is converting each word twice.

A word is capitalized by upper case for its first character alone, and that may give more than one
letter. The second time the further ones stand inside the word and are lowered. So the result stays
the same exactly if they are lower case already (`CapitalizesOnce`, `capitalize_capitalize_iff`).

Inside a title there is one more exception. Capitalizing can turn a word into a small one, which the
next conversion writes small. It needs a first letter that is not lower case of its own upper case,
and the only such word is `ın` with a dotless i (`lower_capitalize_mem_iff`).
-/

set_option autoImplicit false

namespace EventPipeline.Text

open LetterCase

variable {c : Char} {cs w : List Char}

/-! ### Words -/

/-- What the upper case of the character has behind its first letter is lower case. Of most
characters there is nothing behind it, but the sharp s has a second capital letter there. -/
def CapitalizesOnce (c : Char) : Prop :=
  ∀ d ∈ (upperChar c).tail, lowerChar d = [d]

/-- The code points that have small letters of ASCII in their lower case are among these. -/
def IsSmallSource (n : Nat) : Prop :=
  65 ≤ n ∧ n ≤ 122 ∨ n = 304 ∨ n = 8490
deriving Decidable

/-- What the listed upper cases are like: a capital sigma can only be their first letter, and those
that may have small letters of ASCII in their lower case start no small word with it. -/
theorem upperExpansions_spec :
    ∀ entry ∈ upperExpansions.toList, 'Σ' ∉ entry.2.tail.map Char.ofNat ∧
      ((∀ m ∈ entry.2, IsSmallSource m) →
        ∀ s ∈ smallWords, ¬(entry.2.map Char.ofNat).flatMap lowerChar <+: s) := by
  decide

/-- A capital sigma can only be the first letter of an upper case. -/
theorem sigma_notMem_tail (c : Char) : 'Σ' ∉ (upperChar c).tail := by
  rw [upperChar_eq, ← List.map_tail]
  obtain ⟨run, -, -, heq⟩ | ⟨-, ⟨entry, hentry, -, heq⟩ | hself⟩ :=
    convert_cases upperRuns upperExpansions c.toNat
  · rw [heq]
    exact List.not_mem_nil
  · rw [heq]
    exact (upperExpansions_spec entry (Array.mem_toList_iff.mpr hentry)).1
  · rw [hself]
    exact List.not_mem_nil

/-- A capitalized word stays as it is exactly if its first letter has an upper case that does. -/
theorem capitalize_capitalize_iff :
    capitalize (capitalize (c :: cs)) = capitalize (c :: cs) ↔ CapitalizesOnce c := by
  obtain ⟨u, us, hupper⟩ := List.exists_cons_of_ne_nil (upperChar_ne_nil c)
  have hfirst : upperChar u = [u] := upperChar_of_mem (hupper ▸ List.mem_cons_self)
  have hsigma : 'Σ' ∉ us ++ lower cs := by
    rw [List.mem_append]
    rintro (hmem | hmem)
    · refine sigma_notMem_tail c ?_
      rw [hupper]
      exact hmem
    · exact ne_sigma_of_lower (lowerChar_of_mem_lower hmem) rfl
  have hrest : lower (us ++ lower cs) = us.flatMap lowerChar ++ lower cs := by
    rw [lower_eq_flatMap hsigma, List.flatMap_append,
      flatMap_lowerChar fun _ => lowerChar_of_mem_lower]
  rw [CapitalizesOnce, capitalize, hupper, List.cons_append, capitalize, hfirst, hrest,
    List.singleton_append, List.cons.injEq, List.append_cancel_right_eq, List.tail_cons]
  exact ⟨fun h => lowerChar_of_flatMap h.2, fun h => ⟨rfl, flatMap_lowerChar h⟩⟩

theorem lower_ne_nil (h : w ≠ []) : lower w ≠ [] := by
  obtain ⟨c, cs, rfl⟩ := List.exists_cons_of_ne_nil h
  rw [lower, lower.go]
  split
  · split
    · exact List.cons_ne_nil _ _
    · exact List.cons_ne_nil _ _
  · exact List.append_ne_nil_of_left_ne_nil (lowerChar_ne_nil c) _

theorem isBlank_of_mem_lower {d : Char} (h : ∀ c ∈ cs, isBlank c = false) (hd : d ∈ lower cs) :
    isBlank d = false := by
  obtain rfl | ⟨c, hc, hmem⟩ := exists_of_mem_lower hd
  · rfl
  · exact isBlank_of_mem_lowerChar (h c hc) hmem

theorem isWord_lower (h : IsWord w) : IsWord (lower w) :=
  ⟨lower_ne_nil h.1, fun _ => isBlank_of_mem_lower h.2⟩

/-- A capitalized word is a word. -/
theorem isWord_capitalize (h : IsWord w) : IsWord (capitalize w) := by
  obtain ⟨hne, hchars⟩ := h
  obtain ⟨c, cs, rfl⟩ := List.exists_cons_of_ne_nil hne
  obtain ⟨hc, hcs⟩ := List.forall_mem_cons.mp hchars
  refine ⟨List.append_ne_nil_of_left_ne_nil (upperChar_ne_nil c) _, fun d hd => ?_⟩
  obtain hupper | hlower := List.mem_append.mp hd
  · exact isBlank_of_mem_upperChar hc hupper
  · exact isBlank_of_mem_lower hcs hlower

/-- A word inside a title is a word. -/
theorem isWord_titleWord (h : IsWord w) : IsWord (titleWord w) := by
  rw [titleWord]
  split
  · exact isWord_lower h
  · exact isWord_capitalize h

/-! ### Small words -/

/-- The letters of small words are small letters of ASCII. -/
theorem small_letters {s : List Char} (hs : s ∈ smallWords) :
    ∀ d ∈ s, 97 ≤ d.toNat ∧ d.toNat ≤ 122 := by
  have hall : (smallWords.all fun s => s.all fun d =>
      Nat.ble 97 d.toNat && Nat.ble d.toNat 122) = true := by
    decide
  simp only [List.all_eq_true, Bool.and_eq_true, Nat.ble_eq] at hall
  exact hall s hs

/-- A word that starts with an upper case is not small. -/
theorem capitalize_notMem_small (hw : w ≠ []) : capitalize w ∉ smallWords := by
  intro hmem
  obtain ⟨c, cs, rfl⟩ := List.exists_cons_of_ne_nil hw
  obtain ⟨u, us, hupper⟩ := List.exists_cons_of_ne_nil (upperChar_ne_nil c)
  have hfirst : upperChar u = [u] := upperChar_of_mem (hupper ▸ List.mem_cons_self)
  obtain ⟨hlow, hhigh⟩ := small_letters hmem u (by
    rw [capitalize, hupper]
    exact List.mem_cons_self)
  -- a small letter is not its own upper case
  have hsmall : ∀ n < 128, 97 ≤ n → n ≤ 122 → [(Char.ofNat n).toUpper] ≠ [Char.ofNat n] := by
    decide
  refine hsmall u.toNat (by omega) hlow hhigh ?_
  rw [Char.ofNat_toNat, ← hfirst, upperChar, if_pos (by omega)]

/-- What becomes of a word inside a title the second time. -/
theorem titleWord_titleWord_iff :
    titleWord (titleWord (c :: cs)) = titleWord (c :: cs) ↔ lower (c :: cs) ∈ smallWords ∨
      CapitalizesOnce c ∧ lower (capitalize (c :: cs)) ∉ smallWords := by
  by_cases hsmall : lower (c :: cs) ∈ smallWords
  · have htitle : titleWord (c :: cs) = lower (c :: cs) := by
      rw [titleWord, if_pos (List.contains_iff_mem.mpr hsmall)]
    have hagain : titleWord (lower (c :: cs)) = lower (c :: cs) := by
      rw [titleWord, lower_lower, if_pos (List.contains_iff_mem.mpr hsmall)]
    rw [htitle, hagain]
    exact iff_of_true rfl (.inl hsmall)
  · have htitle : titleWord (c :: cs) = capitalize (c :: cs) := by
      rw [titleWord, if_neg fun h => hsmall (List.contains_iff_mem.mp h)]
    rw [htitle, titleWord, or_iff_right hsmall]
    by_cases hagain : lower (capitalize (c :: cs)) ∈ smallWords
    · rw [if_pos (List.contains_iff_mem.mpr hagain)]
      refine iff_of_false (fun heq => ?_) fun h => h.2 hagain
      rw [heq] at hagain
      exact capitalize_notMem_small (List.cons_ne_nil c cs) hagain
    · rw [if_neg fun h => hagain (List.contains_iff_mem.mp h), capitalize_capitalize_iff]
      exact (and_iff_left hagain).symm

/-! ### Words that become small -/

/-- A capital sigma leaves one of the two small ones. -/
theorem sigma_of_mem (h : 'Σ' ∈ cs) : 'σ' ∈ lower cs ∨ 'ς' ∈ lower cs := by
  have key : ∀ cs before, 'Σ' ∈ cs → 'σ' ∈ lower.go before cs ∨ 'ς' ∈ lower.go before cs := by
    intro cs
    induction cs with
    | nil =>
      intro before h
      cases h
    | cons c cs ih =>
      intro before h
      rw [lower.go]
      obtain rfl | hmem := List.mem_cons.mp h
      · rw [if_pos (beq_self_eq_true 'Σ')]
        split
        · exact .inr (List.mem_append_left _ (List.mem_singleton_self _))
        · exact .inl (List.mem_append_left _ (List.mem_singleton_self _))
      · exact (ih (c :: before) hmem).imp (List.mem_append_right _) (List.mem_append_right _)
  exact key cs [] h

/-- Without a capital sigma the first character is changed by itself. -/
theorem lower_cons (h : 'Σ' ∉ c :: cs) : lower (c :: cs) = lowerChar c ++ lower cs := by
  rw [lower_eq_flatMap h, lower_eq_flatMap (List.not_mem_of_not_mem_cons h), List.flatMap_cons]

/-- What has small letters of ASCII in its lower case, what has such characters in its upper case,
and what has an `i` without a dot in its lower case. -/
theorem letter_sources :
    ((lowerRuns.toList.filter fun run => !isOutside run (97, 122)) =
        [(65, 90, 1, 97), (8490, 8490, 1, 107)] ∧
      (lowerExpansions.toList.filter fun entry => entry.2.any fun m => 97 ≤ m && m ≤ 122) =
        [(304, [105, 775])]) ∧
    (upperRuns.toList.filter fun run => !(isOutside run (65, 122) &&
        isOutside run (304, 304) && isOutside run (8490, 8490))) =
      [(97, 122, 1, 65), (305, 305, 1, 73), (383, 383, 1, 83)] ∧
    (lowerRuns.toList.filter fun run => !isOutside run (305, 305)) = [] ∧
      (lowerExpansions.toList.filter fun entry => entry.2.any fun m => 305 ≤ m && m ≤ 305) =
        [] := by
  decide

/-- Which characters have a small letter of ASCII in their lower case. -/
theorem isSmallSource_of_mem {d : Char} (h : d ∈ lowerChar c) (hlow : 97 ≤ d.toNat)
    (hhigh : d.toNat ≤ 122) : IsSmallSource c.toNat := by
  obtain ⟨⟨hruns, hlisted⟩, -⟩ := letter_sources
  rw [lowerChar_eq, List.mem_map] at h
  obtain ⟨m, hm, rfl⟩ := h
  refine toNat_ofNat_induction (P := fun m => 97 ≤ m → m ≤ 122 → _)
    (fun hzero => absurd hzero (by decide)) (fun hlow hhigh => ?_) hlow hhigh
  obtain ⟨run, hrun, hcovers⟩ | ⟨entry, hentry, hkey⟩ | hself :=
    exists_of_mem_convert hm hlow hhigh
  · rw [hruns, List.mem_cons, List.mem_singleton] at hrun
    obtain ⟨hfirst, hlast, -⟩ := covers_iff.mp hcovers
    obtain rfl | rfl := hrun
    · dsimp only at hfirst hlast
      exact .inl (by omega)
    · exact .inr (.inr (Nat.le_antisymm hlast hfirst))
  · rw [hlisted, List.mem_singleton] at hentry
    rw [hentry] at hkey
    exact .inr (.inl hkey.symm)
  · exact .inl (by omega)

/-- The table of upper case reaches the characters whose lower case has a small letter of ASCII
from few others. -/
theorem toNat_of_upper_run {run : Nat × Nat × Nat × Nat} {n : Nat} (hrun : run ∈ upperRuns)
    (hn : covers run n = true) (h : IsSmallSource (imageOf run n)) :
    97 ≤ n ∧ n ≤ 122 ∨ n = 305 ∨ n = 383 := by
  obtain ⟨-, hruns, -⟩ := letter_sources
  have hreaches : run ∈ [(97, 122, 1, 65), (305, 305, 1, 73), (383, 383, 1, 83)] := by
    rw [← hruns, List.mem_filter, Array.mem_toList_iff, Bool.not_eq_true', ← Bool.not_eq_true,
      Bool.and_eq_true, Bool.and_eq_true]
    refine ⟨hrun, fun ⟨⟨hascii, hdotted⟩, hkelvin⟩ => ?_⟩
    have hoff := imageOf_of_isOutside hascii hn
    have hoff' := imageOf_of_isOutside hdotted hn
    have hoff'' := imageOf_of_isOutside hkelvin hn
    dsimp only at hoff hoff' hoff''
    rw [IsSmallSource] at h
    omega
  obtain ⟨hfirst, hlast, -⟩ := covers_iff.mp hn
  simp only [List.mem_cons, List.not_mem_nil, or_false] at hreaches
  obtain rfl | rfl | rfl := hreaches
  · exact .inl ⟨hfirst, hlast⟩
  · exact .inr (.inl (Nat.le_antisymm hlast hfirst))
  · exact .inr (.inr (Nat.le_antisymm hlast hfirst))

/-- A character that starts a small word through its upper case does so by itself, unless it is
an `i` without a dot. -/
theorem lower_upperChar {s : List Char} (hs : s ∈ smallWords)
    (hstart : (upperChar c).flatMap lowerChar <+: s) :
    (upperChar c).flatMap lowerChar = lowerChar c ∨ c = 'ı' := by
  have hsmall : ∀ m ∈ LetterCase.convert upperRuns upperExpansions c.toNat, IsSmallSource m := by
    intro m hm
    obtain ⟨d, hd⟩ := List.exists_mem_of_ne_nil _ (lowerChar_ne_nil (.ofNat m))
    have hmem : d ∈ s := by
      rw [upperChar_eq] at hstart
      exact hstart.subset (List.mem_flatMap.mpr ⟨.ofNat m, List.mem_map_of_mem hm, hd⟩)
    obtain ⟨hlow, hhigh⟩ := small_letters hs d hmem
    exact toNat_ofNat_induction (P := fun k => IsSmallSource k → IsSmallSource m)
      (fun hzero => absurd hzero (by decide)) id (isSmallSource_of_mem hd hlow hhigh)
  obtain ⟨run, hrun, hcovers, heq⟩ | ⟨-, ⟨entry, hentry, -, heq⟩ | hself⟩ :=
    convert_cases upperRuns upperExpansions c.toNat
  · rw [heq] at hsmall
    have hsource := toNat_of_upper_run hrun hcovers (hsmall _ (List.mem_singleton_self _))
    obtain ⟨hlow, hhigh⟩ | hdotless | hlong := hsource
    · have hascii : ∀ n < 128, 97 ≤ n →
          (upperChar (.ofNat n)).flatMap lowerChar = lowerChar (.ofNat n) := by
        decide
      have hletter := hascii c.toNat (by omega) hlow
      rw [Char.ofNat_toNat] at hletter
      exact .inl hletter
    · exact .inr (Char.toNat_inj.mp hdotless)
    · -- the long s has the upper case of the s, which starts no small word
      have hnone : ∀ s ∈ smallWords, ¬['S'].flatMap lowerChar <+: s := by
        decide
      obtain rfl : c = 'ſ' := Char.toNat_inj.mp hlong
      rw [irregular_letters.2.2.1] at hstart
      exact absurd hstart (hnone s hs)
  · rw [upperChar_eq, heq] at hstart
    rw [heq] at hsmall
    exact absurd hstart
      ((upperExpansions_spec entry (Array.mem_toList_iff.mpr hentry)).2 hsmall s hs)
  · rw [upperChar_eq, hself, List.map_singleton, Char.ofNat_toNat, List.flatMap_singleton]
    exact .inl rfl

/-- The lower case of `ın`, which is no small word but becomes one once it is capitalized. -/
def dotlessIn : List Char :=
  ['ı', 'n']

/-- Only a dotless i comes to a dotless i. -/
theorem eq_dotless_of_mem (h : 'ı' ∈ lowerChar c) : c = 'ı' := by
  obtain ⟨-, -, hruns, hlisted⟩ := letter_sources
  rw [lowerChar_eq, List.mem_map] at h
  obtain ⟨m, hm, hchar⟩ := h
  obtain rfl : m = 305 :=
    toNat_ofNat_induction (P := fun k => k = 305 → m = 305) (fun hzero => absurd hzero (by decide))
      id (congrArg Char.toNat hchar)
  obtain ⟨run, hrun, -⟩ | ⟨entry, hentry, -⟩ | hself :=
    exists_of_mem_convert hm (Nat.le_refl 305) (Nat.le_refl 305)
  · rw [hruns] at hrun
    cases hrun
  · rw [hlisted] at hentry
    cases hentry
  · exact Char.toNat_inj.mp hself

/-- A word that becomes small by being capitalized begins with a dotless i. -/
theorem lower_eq_dotlessIn (h : lower (c :: cs) ∉ smallWords)
    (hsmall : lower (capitalize (c :: cs)) ∈ smallWords) : lower (c :: cs) = dotlessIn := by
  have hnone : ∀ s ∈ smallWords, 'σ' ∉ s ∧ 'ς' ∉ s := by
    decide
  obtain ⟨hopen, hfinal⟩ := hnone _ hsmall
  have hsigma : 'Σ' ∉ capitalize (c :: cs) := fun hmem =>
    (sigma_of_mem hmem).elim hopen hfinal
  have hcapital : lower (capitalize (c :: cs)) = (upperChar c).flatMap lowerChar ++ lower cs := by
    rw [lower_eq_flatMap hsigma, capitalize, List.flatMap_append,
      flatMap_lowerChar fun _ => lowerChar_of_mem_lower]
  rw [hcapital, List.mem_append, not_or] at hopen hfinal
  rw [hcapital] at hsmall
  have hplain : 'Σ' ∉ c :: cs := by
    rw [List.mem_cons]
    rintro (rfl | hmem)
    · rw [capitalize, irregular_letters.1.2.2] at hsigma
      exact hsigma List.mem_cons_self
    · exact (sigma_of_mem hmem).elim hopen.2 hfinal.2
  rw [lower_cons hplain] at h ⊢
  obtain heq | rfl := lower_upperChar hsmall (List.prefix_append _ _)
  · rw [heq] at hsmall
    exact absurd hsmall h
  · obtain ⟨hlower, hupper⟩ := irregular_letters.2.1
    have hcapital : lowerChar 'I' = ['i'] := by
      decide
    have hin : ∀ s ∈ smallWords, s.head? = some 'i' → s.tail = ['n'] := by
      decide
    rw [hupper, List.flatMap_singleton, hcapital] at hsmall
    have hrest : lower cs = ['n'] := hin _ hsmall rfl
    rw [hrest, hlower]
    rfl

/-- A word that is not small becomes small by being capitalized in one case only. -/
theorem lower_capitalize_mem_iff (h : lower (c :: cs) ∉ smallWords) :
    lower (capitalize (c :: cs)) ∈ smallWords ↔ lower (c :: cs) = dotlessIn := by
  refine ⟨lower_eq_dotlessIn h, fun heq => ?_⟩
  have hplain : 'Σ' ∉ c :: cs := by
    intro hmem
    have hsmall := sigma_of_mem hmem
    rw [heq] at hsmall
    exact absurd hsmall (by decide)
  rw [lower_cons hplain] at heq
  obtain ⟨d, ds, hfirst⟩ := List.exists_cons_of_ne_nil (lowerChar_ne_nil c)
  have hd : d = 'ı' := by
    rw [hfirst] at heq
    exact (List.cons.inj heq).1
  obtain rfl : c = 'ı' := eq_dotless_of_mem (hd ▸ hfirst ▸ List.mem_cons_self)
  obtain ⟨hlower, hupper⟩ := irregular_letters.2.1
  rw [hlower] at heq
  have hrest : lower cs = ['n'] := (List.cons.inj heq).2
  rw [capitalize, hupper, hrest]
  decide

/-! ### Texts -/

/-- The words that a title makes of the words of a text. -/
def titleWords : List (List Char) → List (List Char)
  | [] => []
  | first :: others => capitalize first :: others.map titleWord

theorem convert_proper (cs : List Char) :
    convert .proper cs = unwords ((words cs).map capitalize) :=
  rfl

theorem convert_title (cs : List Char) : convert .title cs = unwords (titleWords (words cs)) := by
  rw [convert]
  split
  · rename_i hnone
    rw [hnone]
    rfl
  · rename_i hsome
    rw [hsome, titleWords]

theorem isWord_of_mem_map {f : List Char → List Char} {ws : List (List Char)}
    (hf : ∀ w, IsWord w → IsWord (f w)) (h : ∀ w ∈ ws, IsWord w) : ∀ w ∈ ws.map f, IsWord w := by
  intro v hv
  obtain ⟨w, hw, rfl⟩ := List.mem_map.mp hv
  exact hf w (h w hw)

theorem isWord_of_mem_titleWords {ws : List (List Char)} (h : ∀ w ∈ ws, IsWord w) :
    ∀ w ∈ titleWords ws, IsWord w := by
  cases ws with
  | nil => exact h
  | cons first others =>
    obtain ⟨hfirst, hothers⟩ := List.forall_mem_cons.mp h
    exact List.forall_mem_cons.mpr ⟨isWord_capitalize hfirst,
      isWord_of_mem_map (fun _ => isWord_titleWord) hothers⟩

theorem words_proper (cs : List Char) : words (convert .proper cs) = (words cs).map capitalize :=
  words_unwords (isWord_of_mem_map (fun _ => isWord_capitalize) fun _ => isWord_of_mem)

theorem words_title (cs : List Char) : words (convert .title cs) = titleWords (words cs) := by
  rw [convert_title]
  exact words_unwords (isWord_of_mem_titleWords fun _ => isWord_of_mem)

/-- Texts in single spaces are the same exactly if their words are. -/
theorem unwords_inj {vs ws : List (List Char)} (hvs : ∀ w ∈ vs, IsWord w)
    (hws : ∀ w ∈ ws, IsWord w) : unwords vs = unwords ws ↔ vs = ws := by
  refine ⟨fun heq => ?_, congrArg unwords⟩
  rw [← words_unwords hvs, heq, words_unwords hws]

/-- The first letter of the word has an upper case that does not change any more. -/
def StaysCapitalized (w : List Char) : Prop :=
  ∀ c ∈ w.head?, CapitalizesOnce c

/-- The word stays the same inside a title: it is small, or it stays capitalized and does not
become small. -/
def StaysInTitle (w : List Char) : Prop :=
  lower w ∈ smallWords ∨ StaysCapitalized w ∧ lower w ≠ dotlessIn

@[simp] theorem staysCapitalized_cons : StaysCapitalized (c :: cs) ↔ CapitalizesOnce c := by
  simp [StaysCapitalized]

theorem capitalize_word_iff (h : IsWord w) :
    capitalize (capitalize w) = capitalize w ↔ StaysCapitalized w := by
  obtain ⟨c, cs, rfl⟩ := List.exists_cons_of_ne_nil h.1
  rw [capitalize_capitalize_iff, staysCapitalized_cons]

theorem titleWord_word_iff (h : IsWord w) :
    titleWord (titleWord w) = titleWord w ↔ StaysInTitle w := by
  obtain ⟨c, cs, rfl⟩ := List.exists_cons_of_ne_nil h.1
  rw [titleWord_titleWord_iff, StaysInTitle, staysCapitalized_cons]
  by_cases hsmall : lower (c :: cs) ∈ smallWords
  · exact iff_of_true (.inl hsmall) (.inl hsmall)
  · rw [lower_capitalize_mem_iff hsmall]

theorem titleWords_titleWords_iff {ws : List (List Char)} (h : ∀ w ∈ ws, IsWord w) :
    titleWords (titleWords ws) = titleWords ws ↔
      (∀ w ∈ ws.head?, StaysCapitalized w) ∧ ∀ w ∈ ws.tail, StaysInTitle w := by
  cases ws with
  | nil => simp [titleWords]
  | cons first others =>
    obtain ⟨hfirst, hothers⟩ := List.forall_mem_cons.mp h
    simp only [titleWords, List.cons.injEq, List.map_map, List.map_inj_left, List.head?_cons,
      Option.mem_some_iff, forall_eq', List.tail_cons, capitalize_word_iff hfirst]
    exact and_congr_right fun _ => forall₂_congr fun w hw => titleWord_word_iff (hothers w hw)

/-- Upper case and lower case are the same the second time. Proper case is so exactly if each word
has a first letter whose upper case does not change any more; of a title the first word has to be
like that, and each further one a word that stays in a title. Proper case and title case keep the
number of words and join them by single spaces. -/
theorem convert_convert (cs : List Char) :
    convert .upper (convert .upper cs) = convert .upper cs ∧
    convert .lower (convert .lower cs) = convert .lower cs ∧
    (convert .proper (convert .proper cs) = convert .proper cs ↔
      ∀ w ∈ words cs, StaysCapitalized w) ∧
    (convert .title (convert .title cs) = convert .title cs ↔
      (∀ w ∈ (words cs).head?, StaysCapitalized w) ∧ ∀ w ∈ (words cs).tail, StaysInTitle w) ∧
    ∀ style ∈ [TextCase.proper, TextCase.title],
      (words (convert style cs)).length = (words cs).length ∧
        convert style cs = unwords (words (convert style cs)) := by
  have hwords : ∀ w ∈ words cs, IsWord w := fun _ => isWord_of_mem
  refine ⟨upper_upper cs, lower_lower cs, ?_, ?_, ?_⟩
  · have hproper := isWord_of_mem_map (fun _ => isWord_capitalize) hwords
    rw [convert_proper (convert .proper cs), words_proper, convert_proper,
      unwords_inj (isWord_of_mem_map (fun _ => isWord_capitalize) hproper) hproper, List.map_map,
      List.map_inj_left]
    exact forall₂_congr fun w hw => capitalize_word_iff (hwords w hw)
  · have htitle := isWord_of_mem_titleWords hwords
    rw [convert_title (convert .title cs), words_title, convert_title,
      unwords_inj (isWord_of_mem_titleWords htitle) htitle, titleWords_titleWords_iff hwords]
  · intro style hstyle
    rw [List.mem_cons, List.mem_singleton] at hstyle
    obtain rfl | rfl := hstyle
    · rw [words_proper, List.length_map]
      exact ⟨rfl, convert_proper cs⟩
    · rw [words_title]
      refine ⟨?_, convert_title cs⟩
      cases words cs with
      | nil => rfl
      | cons first others => rw [titleWords, List.length_cons, List.length_map, List.length_cons]

/-- Neither proper case nor title case stays the same for every text: a sharp s becomes two capital
letters, of which the second is lowered next, and a capitalized `In` is a small word. -/
theorem convert_convert_ne :
    convert .proper (convert .proper ['ß']) ≠ convert .proper ['ß'] ∧
      convert .title (convert .title ['a', ' ', 'ı', 'n']) ≠
        convert .title ['a', ' ', 'ı', 'n'] := by
  obtain ⟨-, ⟨hlower, hupper⟩, -, hsharp⟩ := irregular_letters
  have hproper : convert .proper ['ß'] = ['S', 'S'] := by
    rw [convert_proper, show words ['ß'] = [['ß']] from rfl, List.map_singleton, capitalize, hsharp]
    rfl
  have hagain : convert .proper ['S', 'S'] = ['S', 's'] := by
    decide
  have hword : titleWord ['ı', 'n'] = ['I', 'n'] := by
    have hsame : lower ['ı', 'n'] = ['ı', 'n'] := by
      rw [lower_cons (by decide), hlower]
      decide
    rw [titleWord, hsame, if_neg (by decide), capitalize, hupper]
    decide
  have htitle : convert .title ['a', ' ', 'ı', 'n'] = ['A', ' ', 'I', 'n'] := by
    rw [convert_title, show words ['a', ' ', 'ı', 'n'] = [['a'], ['ı', 'n']] by decide, titleWords,
      List.map_singleton, hword]
    decide
  have htitleAgain : convert .title ['A', ' ', 'I', 'n'] = ['A', ' ', 'i', 'n'] := by
    decide
  rw [hproper, hagain, htitle, htitleAgain]
  decide

end EventPipeline.Text
