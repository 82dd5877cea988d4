import EventPipeline.Proofs.Text.Words
import EventPipeline.Text.LetterCase
import Mathlib.Data.List.Basic

/-!
# `EventPipeline.Proofs.Text.LetterCase`: what a change of case leads to

The case mappings of characters are tables of runs, so a law of all characters is a check of the
runs and the listed expansions. `isSettled` checks that nothing a table maps to is mapped further:
`convert_of_mem_convert`. It takes sets of code points as numbers (`unionBits`), so that one
operation compares all of them. `imagesOutside` checks that a table maps nothing into some ranges.
What is checked of either table is its `IsSound`.

For characters this says that upper case and lower case are final (`upperChar_of_mem`,
`lowerChar_of_mem`) and that no white space comes of other characters. For texts it gives
`upper_upper` and `lower_lower`. The final form of the letter sigma is lower case too, so the choice
between the two forms is made only once.
-/

set_option autoImplicit false

namespace EventPipeline.Text

namespace LetterCase

/-! ### Tables -/

/-- The run maps the code point. -/
def covers (run : Nat × Nat × Nat × Nat) (n : Nat) : Bool :=
  run.1.ble n && n.ble run.2.1 && ((n - run.1) % run.2.2.1).beq 0

/-- What the run maps a code point to. -/
def imageOf (run : Nat × Nat × Nat × Nat) (n : Nat) : Nat :=
  run.2.2.2 + (n - run.1)

/-- The run maps to nothing in the range. -/
def isOutside (run : Nat × Nat × Nat × Nat) (range : Nat × Nat) : Bool :=
  (run.2.2.2 + (run.2.1 - run.1)).blt range.1 || range.2.blt run.2.2.2

variable {run : Nat × Nat × Nat × Nat} {range : Nat × Nat} {n m : Nat}

theorem covers_iff :
    covers run n = true ↔ run.1 ≤ n ∧ n ≤ run.2.1 ∧ (n - run.1) % run.2.2.1 = 0 := by
  simp [covers, and_assoc]

theorem isOutside_iff :
    isOutside run range = true ↔
      run.2.2.2 + (run.2.1 - run.1) < range.1 ∨ range.2 < run.2.2.2 := by
  simp [isOutside]

/-- A run that is outside of a range maps nothing into it. -/
theorem imageOf_of_isOutside (h : isOutside run range = true) (hn : covers run n = true) :
    imageOf run n < range.1 ∨ range.2 < imageOf run n := by
  obtain ⟨hfirst, hlast, -⟩ := covers_iff.mp hn
  have hapart := isOutside_iff.mp h
  simp only [imageOf]
  omega

variable {runs : Runs} {expansions : Array (Nat × List Nat)}

/-- The runs are searched before the listed code points. -/
theorem convert_eq (runs : Runs) (expansions : Array (Nat × List Nat)) (n : Nat) :
    convert runs expansions n =
      (runs.toList.findSome? fun run => if covers run n then some (imageOf run n) else none).elim
        (((expansions.toList.find? fun entry => entry.1 == n).map (·.2)).getD [n])
        fun m => [m] := by
  have htest (run : Nat × Nat × Nat × Nat) :
      (run.1 ≤ n && n ≤ run.2.1 && (n - run.1) % run.2.2.1 = 0) = covers run n := by
    rw [Bool.eq_iff_iff, covers_iff]
    simp [and_assoc]
  have hlookup : lookupRun? runs n =
      runs.toList.findSome? fun run => if covers run n then some (imageOf run n) else none := by
    rw [lookupRun?, Array.findSome?_toList]
    refine congrArg (Array.findSome? · runs) (funext fun run => ?_)
    rw [← htest]
    rfl
  rw [convert, hlookup, Array.find?_toList]
  cases runs.toList.findSome? fun run => if covers run n then some (imageOf run n) else none with
  | none => rfl
  | some m => rfl

/-- A code point has the image of a run, or else it is listed, or else it stays as it is. -/
theorem convert_cases (runs : Runs) (expansions : Array (Nat × List Nat)) (n : Nat) :
    (∃ run ∈ runs, covers run n = true ∧ convert runs expansions n = [imageOf run n]) ∨
      (∀ run ∈ runs, covers run n = false) ∧
        ((∃ entry ∈ expansions, entry.1 = n ∧ convert runs expansions n = entry.2) ∨
          convert runs expansions n = [n]) := by
  rw [convert_eq]
  cases hlookup : runs.toList.findSome? fun run =>
      if covers run n then some (imageOf run n) else none with
  | some image =>
    obtain ⟨run, hrun, hsome⟩ := List.exists_of_findSome?_eq_some hlookup
    obtain ⟨hcovers, hvalue⟩ := Option.ite_none_right_eq_some.mp hsome
    cases hvalue
    exact .inl ⟨run, Array.mem_toList_iff.mp hrun, hcovers, rfl⟩
  | none =>
    refine .inr ⟨fun run hrun => ?_, ?_⟩
    · have hmiss := List.findSome?_eq_none_iff.mp hlookup run (Array.mem_toList_iff.mpr hrun)
      rw [← Bool.not_eq_true]
      intro hcovers
      cases ite_eq_right_iff.mp hmiss hcovers
    · cases hfind : expansions.toList.find? fun entry => entry.1 == n with
      | none => exact .inr rfl
      | some entry =>
        have hkey : (entry.1 == n) = true :=
          List.find?_some (p := fun entry : Nat × List Nat => entry.1 == n) hfind
        exact .inl ⟨entry, Array.mem_toList_iff.mp (List.mem_of_find?_eq_some hfind),
          beq_iff_eq.mp hkey, rfl⟩

/-- A code point that is neither in a run nor listed stays as it is. -/
theorem convert_eq_self (hruns : ∀ run ∈ runs, covers run n = false)
    (hlisted : ∀ entry ∈ expansions, entry.1 ≠ n) : convert runs expansions n = [n] := by
  obtain ⟨run, hrun, hcovers, -⟩ | ⟨-, ⟨entry, hentry, hkey, -⟩ | hself⟩ :=
    convert_cases runs expansions n
  · rw [hruns run hrun] at hcovers
    cases hcovers
  · exact absurd hkey (hlisted entry hentry)
  · exact hself

/-! ### Settled tables -/

/-- A set of numbers as a number, which has a bit for each of them. -/
def bitsOf (ns : List Nat) : Nat :=
  ns.foldr (fun n bits => 1 <<< n ||| bits) 0

/-- The numbers of all the lists as one number. -/
def unionBits (nss : List (List Nat)) : Nat :=
  nss.foldr (fun ns bits => bitsOf ns ||| bits) 0

theorem testBit_bitsOf {ns : List Nat} : (bitsOf ns).testBit n = true ↔ n ∈ ns := by
  induction ns with
  | nil => simp [bitsOf]
  | cons m ns ih =>
    have hbit : (1 <<< m).testBit n = true ↔ n = m := by
      rw [Nat.one_shiftLeft, Nat.testBit_two_pow, decide_eq_true_iff, eq_comm]
    rw [bitsOf, List.foldr_cons, ← bitsOf, Nat.testBit_or, Bool.or_eq_true, hbit, ih,
      List.mem_cons]

theorem testBit_unionBits {nss : List (List Nat)} :
    (unionBits nss).testBit n = true ↔ ∃ ns ∈ nss, n ∈ ns := by
  induction nss with
  | nil => simp [unionBits]
  | cons ns nss ih =>
    rw [unionBits, List.foldr_cons, ← unionBits, Nat.testBit_or, Bool.or_eq_true, testBit_bitsOf,
      ih, List.exists_mem_cons_iff]

/-- Sets without a common bit have no common number. -/
theorem notMem_of_land_unionBits {nss mss : List (List Nat)}
    (h : unionBits nss &&& unionBits mss = 0) {ns ms : List Nat} (hns : ns ∈ nss) (hms : ms ∈ mss)
    (hm : n ∈ ms) : n ∉ ns := by
  intro hn
  have hbit : (unionBits nss &&& unionBits mss).testBit n = true := by
    rw [Nat.testBit_and, testBit_unionBits.mpr ⟨ns, hns, hn⟩, testBit_unionBits.mpr ⟨ms, hms, hm⟩]
    rfl
  rw [h, Nat.zero_testBit] at hbit
  cases hbit

/-- The code points that the run maps. -/
def keysOf (run : Nat × Nat × Nat × Nat) : List Nat :=
  List.range' run.1 ((run.2.1 - run.1) / run.2.2.1 + 1) run.2.2.1

/-- The code points that the run maps to. -/
def imagesOf (run : Nat × Nat × Nat × Nat) : List Nat :=
  List.range' run.2.2.2 ((run.2.1 - run.1) / run.2.2.1 + 1) run.2.2.1

/-- A covered code point and its image have the same place in the run. -/
theorem exists_of_covers (h : covers run n = true) :
    ∃ i < (run.2.1 - run.1) / run.2.2.1 + 1,
      n = run.1 + run.2.2.1 * i ∧ imageOf run n = run.2.2.2 + run.2.2.1 * i := by
  obtain ⟨hfirst, hlast, hmod⟩ := covers_iff.mp h
  have hplace : run.2.2.1 * ((n - run.1) / run.2.2.1) = n - run.1 :=
    Nat.mul_div_cancel' (Nat.dvd_of_mod_eq_zero hmod)
  refine ⟨(n - run.1) / run.2.2.1, Nat.lt_succ_of_le (Nat.div_le_div_right (by omega)), ?_, ?_⟩
  · rw [hplace, Nat.add_sub_cancel' hfirst]
  · rw [hplace, imageOf]

theorem mem_keysOf (h : covers run n = true) : n ∈ keysOf run := by
  obtain ⟨i, hi, hkey, -⟩ := exists_of_covers h
  exact List.mem_range'.mpr ⟨i, hi, hkey⟩

theorem imageOf_mem (h : covers run n = true) : imageOf run n ∈ imagesOf run := by
  obtain ⟨i, hi, -, himage⟩ := exists_of_covers h
  exact List.mem_range'.mpr ⟨i, hi, himage⟩

/-- Nothing that the table maps to is mapped further. -/
def isSettled (runs : Runs) (expansions : Array (Nat × List Nat)) : Bool :=
  unionBits (runs.toList.map keysOf ++ expansions.toList.map fun entry => [entry.1]) &&&
    unionBits (runs.toList.map imagesOf ++ expansions.toList.map (·.2)) == 0

theorem convert_of_mem_convert (h : isSettled runs expansions = true)
    (hm : m ∈ convert runs expansions n) : convert runs expansions m = [m] := by
  have hself {ms : List Nat} (hms : ms ∈ runs.toList.map imagesOf ++ expansions.toList.map (·.2))
      (hm : m ∈ ms) : convert runs expansions m = [m] := by
    refine convert_eq_self (fun run hrun => ?_) fun entry hentry hkey => ?_
    · have hkeys := List.mem_map_of_mem (f := keysOf) (Array.mem_toList_iff.mpr hrun)
      rw [← Bool.not_eq_true]
      exact fun hcovers => notMem_of_land_unionBits (beq_iff_eq.mp h)
        (List.mem_append_left _ hkeys) hms hm (mem_keysOf hcovers)
    · have hkeys := List.mem_map_of_mem (f := fun entry : Nat × List Nat => [entry.1])
        (Array.mem_toList_iff.mpr hentry)
      exact notMem_of_land_unionBits (beq_iff_eq.mp h) (List.mem_append_right _ hkeys) hms hm
        (List.mem_singleton.mpr hkey.symm)
  obtain ⟨run, hrun, hcovers, heq⟩ | ⟨-, ⟨entry, hentry, -, heq⟩ | hn⟩ :=
    convert_cases runs expansions n
  · have hmem : m ∈ imagesOf run := by
      rw [heq, List.mem_singleton] at hm
      rw [hm]
      exact imageOf_mem hcovers
    exact hself (List.mem_append_left _
      (List.mem_map_of_mem (f := imagesOf) (Array.mem_toList_iff.mpr hrun))) hmem
  · rw [heq] at hm
    exact hself (List.mem_append_right _
      (List.mem_map_of_mem (f := (·.2)) (Array.mem_toList_iff.mpr hentry))) hm
  · have hmn := hm
    rw [hn, List.mem_singleton] at hmn
    rw [hmn, hn]

/-! ### Ranges that are not reached -/

/-- The code point is in none of the ranges. -/
def Outside (ranges : List (Nat × Nat)) (n : Nat) : Prop :=
  ∀ range ∈ ranges, n < range.1 ∨ range.2 < n

/-- The table maps nothing into the ranges. -/
def imagesOutside (ranges : List (Nat × Nat)) (runs : Runs)
    (expansions : Array (Nat × List Nat)) : Bool :=
  ranges.all fun range =>
    (runs.toList.all fun run => isOutside run range) &&
      expansions.toList.all fun entry => entry.2.all fun m => m.blt range.1 || range.2.blt m

theorem outside_of_mem_convert {ranges : List (Nat × Nat)}
    (h : imagesOutside ranges runs expansions = true) (hn : Outside ranges n)
    (hm : m ∈ convert runs expansions n) : Outside ranges m := by
  intro range hrange
  simp only [imagesOutside, Bool.and_eq_true, List.all_eq_true, Array.mem_toList_iff,
    Bool.or_eq_true, Nat.blt_eq] at h
  obtain ⟨hruns, hexpansions⟩ := h range hrange
  obtain ⟨run, hrun, hcovers, heq⟩ | ⟨-, ⟨entry, hentry, -, heq⟩ | hself⟩ :=
    convert_cases runs expansions n
  · rw [heq, List.mem_singleton] at hm
    subst hm
    exact imageOf_of_isOutside (hruns run hrun) hcovers
  · rw [heq] at hm
    exact hexpansions entry hentry m hm
  · rw [hself, List.mem_singleton] at hm
    rw [hm]
    exact hn range hrange

/-- What is mapped into a range comes of a run or an expansion that reaches it, or from the range
itself. -/
theorem exists_of_mem_convert {low high : Nat} (hm : m ∈ convert runs expansions n)
    (hlow : low ≤ m) (hhigh : m ≤ high) :
    (∃ run ∈ runs.toList.filter fun run => !isOutside run (low, high), covers run n = true) ∨
      (∃ entry ∈ expansions.toList.filter fun entry => entry.2.any fun m => low ≤ m && m ≤ high,
        entry.1 = n) ∨ n = m := by
  obtain ⟨run, hrun, hcovers, heq⟩ | ⟨-, ⟨entry, hentry, hkey, heq⟩ | hself⟩ :=
    convert_cases runs expansions n
  · rw [heq, List.mem_singleton] at hm
    refine .inl ⟨run, List.mem_filter.mpr ⟨Array.mem_toList_iff.mpr hrun, ?_⟩, hcovers⟩
    rw [Bool.not_eq_true', ← Bool.not_eq_true]
    intro houtside
    have hoff := imageOf_of_isOutside houtside hcovers
    dsimp only at hoff
    omega
  · rw [heq] at hm
    refine .inr (.inl ⟨entry, List.mem_filter.mpr ⟨Array.mem_toList_iff.mpr hentry, ?_⟩, hkey⟩)
    exact List.any_eq_true.mpr ⟨m, hm, by simp [hlow, hhigh]⟩
  · rw [hself, List.mem_singleton] at hm
    exact .inr (.inr hm.symm)

/-- A table whose expansions are not empty maps nothing to nothing. -/
theorem convert_ne_nil (h : (expansions.toList.all fun entry => !entry.2.isEmpty) = true) :
    convert runs expansions n ≠ [] := by
  obtain ⟨run, -, -, heq⟩ | ⟨-, ⟨entry, hentry, -, heq⟩ | hself⟩ :=
    convert_cases runs expansions n
  · rw [heq]
    exact List.cons_ne_nil _ _
  · rw [List.all_eq_true] at h
    have hne := h entry (Array.mem_toList_iff.mpr hentry)
    rw [heq]
    simpa using hne
  · rw [hself]
    exact List.cons_ne_nil _ _

/-- In ASCII a table maps only the letters of one run. -/
theorem convert_ascii {first last image : Nat} (hletters : (first, last, 1, image) ∈ runs)
    (hruns : (runs.toList.all fun run =>
      run == (first, last, 1, image) || Nat.ble 128 run.1) = true)
    (hlisted : (expansions.toList.all fun entry => Nat.ble 128 entry.1) = true) (hn : n < 128) :
    convert runs expansions n = [if first ≤ n ∧ n ≤ last then image + (n - first) else n] := by
  simp only [List.all_eq_true, Array.mem_toList_iff, Bool.or_eq_true, beq_iff_eq,
    Nat.ble_eq] at hruns hlisted
  obtain ⟨run, hrun, hcovers, heq⟩ | ⟨hno, ⟨entry, hentry, hkey, -⟩ | hself⟩ :=
    convert_cases runs expansions n
  · obtain ⟨hfirst, hlast, -⟩ := covers_iff.mp hcovers
    obtain rfl | hhigh := hruns run hrun
    · rw [heq, if_pos ⟨hfirst, hlast⟩]
      rfl
    · omega
  · have hhigh := hlisted entry hentry
    omega
  · rw [hself, if_neg]
    rintro ⟨hfirst, hlast⟩
    have hcovers := hno _ hletters
    rw [covers_iff.mpr ⟨hfirst, hlast, Nat.mod_one _⟩] at hcovers
    cases hcovers

/-! ### The two tables -/

/-- The code points of white space. -/
def blankRanges : List (Nat × Nat) := [
  (9, 13), (32, 32), (0x85, 0x85), (0xA0, 0xA0), (0x1680, 0x1680), (0x2000, 0x200A),
  (0x2028, 0x2029), (0x202F, 0x202F), (0x205F, 0x205F), (0x3000, 0x3000)]

/-- What the laws of a case rest on: the table is settled and leads to no white space, and in ASCII
it maps the letters alone. -/
structure IsSound (letters : Nat × Nat × Nat × Nat) (runs : Runs)
    (expansions : Array (Nat × List Nat)) : Prop where
  settled : isSettled runs expansions = true
  blanks : imagesOutside blankRanges runs expansions = true
  letters : (runs.toList.all fun run => run == letters || Nat.ble 128 run.1) = true
  listed : (expansions.toList.all fun entry => Nat.ble 128 entry.1) = true
  filled : (expansions.toList.all fun entry => !entry.2.isEmpty) = true

instance (letters : Nat × Nat × Nat × Nat) (runs : Runs) (expansions : Array (Nat × List Nat)) :
    Decidable (IsSound letters runs expansions) :=
  decidable_of_iff (_ ∧ _ ∧ _ ∧ _ ∧ _)
    ⟨fun ⟨settled, blanks, letters, listed, filled⟩ => ⟨settled, blanks, letters, listed, filled⟩,
      fun h => ⟨h.settled, h.blanks, h.letters, h.listed, h.filled⟩⟩

-- the bits of a table are joined run by run, so their evaluation nests as deep as the table is long
set_option maxRecDepth 2000 in
theorem upper_isSound : IsSound (97, 122, 1, 65) upperRuns upperExpansions := by
  decide

set_option maxRecDepth 2000 in
theorem lower_isSound : IsSound (65, 90, 1, 97) lowerRuns lowerExpansions := by
  decide

/-- What the table of upper case makes of ASCII. -/
theorem convert_upper_ascii (h : n < 128) :
    convert upperRuns upperExpansions n = [if 97 ≤ n ∧ n ≤ 122 then 65 + (n - 97) else n] :=
  convert_ascii (Array.mem_toList_iff.mp List.mem_cons_self) upper_isSound.letters
    upper_isSound.listed h

/-- What the table of lower case makes of ASCII. -/
theorem convert_lower_ascii (h : n < 128) :
    convert lowerRuns lowerExpansions n = [if 65 ≤ n ∧ n ≤ 90 then 97 + (n - 65) else n] :=
  convert_ascii (Array.mem_toList_iff.mp List.mem_cons_self) lower_isSound.letters
    lower_isSound.listed h

end LetterCase

open LetterCase

/-! ### Characters -/

/-- The tables list the letters of ASCII too. -/
theorem upperChar_eq (c : Char) :
    upperChar c = (convert upperRuns upperExpansions c.toNat).map Char.ofNat := by
  have hascii : ∀ n < 128, (Char.ofNat n).toUpper =
      Char.ofNat (if 97 ≤ n ∧ n ≤ 122 then 65 + (n - 97) else n) := by
    decide
  unfold upperChar
  split
  · rename_i hlt
    rw [convert_upper_ascii hlt, List.map_singleton, ← hascii c.toNat hlt, Char.ofNat_toNat]
  · rfl

theorem lowerChar_eq (c : Char) :
    lowerChar c = (convert lowerRuns lowerExpansions c.toNat).map Char.ofNat := by
  have hascii : ∀ n < 128, (Char.ofNat n).toLower =
      Char.ofNat (if 65 ≤ n ∧ n ≤ 90 then 97 + (n - 65) else n) := by
    decide
  unfold lowerChar
  split
  · rename_i hlt
    rw [convert_lower_ascii hlt, List.map_singleton, ← hascii c.toNat hlt, Char.ofNat_toNat]
  · rfl

/-- What holds of zero and of a number holds of the character that it makes. -/
theorem toNat_ofNat_induction {P : Nat → Prop} (zero : P 0) {n : Nat} (h : P n) :
    P (Char.ofNat n).toNat := by
  by_cases hvalid : n.isValidChar
  · rw [Char.ofNat, dif_pos hvalid]
    exact h
  · rw [Char.ofNat, dif_neg hvalid]
    exact zero

/-- A character of an upper case is upper case itself. -/
theorem upperChar_of_mem {c d : Char} (h : d ∈ upperChar c) : upperChar d = [d] := by
  rw [upperChar_eq, List.mem_map] at h
  obtain ⟨n, hn, rfl⟩ := h
  have hfixed : convert upperRuns upperExpansions (Char.ofNat n).toNat = [(Char.ofNat n).toNat] :=
    toNat_ofNat_induction (P := fun n => convert upperRuns upperExpansions n = [n])
      (convert_upper_ascii (by decide)) (convert_of_mem_convert upper_isSound.settled hn)
  rw [upperChar_eq, hfixed, List.map_singleton, Char.ofNat_toNat]

/-- A character of a lower case is lower case itself. -/
theorem lowerChar_of_mem {c d : Char} (h : d ∈ lowerChar c) : lowerChar d = [d] := by
  rw [lowerChar_eq, List.mem_map] at h
  obtain ⟨n, hn, rfl⟩ := h
  have hfixed : convert lowerRuns lowerExpansions (Char.ofNat n).toNat = [(Char.ofNat n).toNat] :=
    toNat_ofNat_induction (P := fun n => convert lowerRuns lowerExpansions n = [n])
      (convert_lower_ascii (by decide)) (convert_of_mem_convert lower_isSound.settled hn)
  rw [lowerChar_eq, hfixed, List.map_singleton, Char.ofNat_toNat]

theorem upperChar_ne_nil (c : Char) : upperChar c ≠ [] := by
  rw [upperChar_eq, Ne, List.map_eq_nil_iff]
  exact convert_ne_nil upper_isSound.filled

theorem lowerChar_ne_nil (c : Char) : lowerChar c ≠ [] := by
  rw [lowerChar_eq, Ne, List.map_eq_nil_iff]
  exact convert_ne_nil lower_isSound.filled

theorem isBlank_eq_false_iff {c : Char} : isBlank c = false ↔ Outside blankRanges c.toNat := by
  simp only [isBlank, Outside, blankRanges, Bool.or_eq_false_iff, Bool.and_eq_false_iff,
    decide_eq_false_iff_not, List.forall_mem_cons, List.not_mem_nil, false_implies, implies_true,
    and_true]
  omega

/-- The upper case of a character that is no white space has none. -/
theorem isBlank_of_mem_upperChar {c d : Char} (h : isBlank c = false) (hd : d ∈ upperChar c) :
    isBlank d = false := by
  rw [upperChar_eq, List.mem_map] at hd
  obtain ⟨n, hn, rfl⟩ := hd
  rw [isBlank_eq_false_iff] at h ⊢
  exact toNat_ofNat_induction (P := Outside blankRanges) (isBlank_eq_false_iff (c := '\x00').mp rfl)
    (outside_of_mem_convert upper_isSound.blanks h hn)

/-- The lower case of a character that is no white space has none. -/
theorem isBlank_of_mem_lowerChar {c d : Char} (h : isBlank c = false) (hd : d ∈ lowerChar c) :
    isBlank d = false := by
  rw [lowerChar_eq, List.mem_map] at hd
  obtain ⟨n, hn, rfl⟩ := hd
  rw [isBlank_eq_false_iff] at h ⊢
  exact toNat_ofNat_induction (P := Outside blankRanges) (isBlank_eq_false_iff (c := '\x00').mp rfl)
    (outside_of_mem_convert lower_isSound.blanks h hn)

/-! ### Texts -/

variable {cs ds : List Char} {c d : Char}

/-- Upper case of upper case is the same. -/
theorem upper_upper (cs : List Char) : upper (upper cs) = upper cs := by
  have hfixed : ∀ d ∈ upper cs, upperChar d = [d] := by
    intro d hd
    obtain ⟨c, -, hmem⟩ := List.mem_flatMap.mp hd
    exact upperChar_of_mem hmem
  calc
    upper (upper cs) = (upper cs).flatMap fun d => [d] := List.flatMap_congr hfixed
    _ = upper cs := List.flatMap_singleton' _

/-- The case of some letters that are looked up by themselves: a sigma has two small forms, the `i`
without a dot and the long `s` have the capital letters of others, and the sharp `s` has two. -/
theorem irregular_letters :
    (lowerChar 'Σ' = ['σ'] ∧ lowerChar 'ς' = ['ς'] ∧ upperChar 'Σ' = ['Σ']) ∧
      (lowerChar 'ı' = ['ı'] ∧ upperChar 'ı' = ['I']) ∧
        upperChar 'ſ' = ['S'] ∧ upperChar 'ß' = ['S', 'S'] := by
  simp only [upperChar_eq, lowerChar_eq, convert_eq]
  decide

/-- The capital sigma is not lower case. -/
theorem lowerChar_sigma : lowerChar 'Σ' = ['σ'] :=
  irregular_letters.1.1

theorem ne_sigma_of_lower (h : lowerChar c = [c]) : c ≠ 'Σ' := by
  rintro rfl
  rw [lowerChar_sigma] at h
  exact absurd h (by decide)

/-- A character of a lower case text comes of one character alone, or it is a final sigma. -/
theorem exists_of_mem_lower (h : d ∈ lower cs) : d = 'ς' ∨ ∃ c ∈ cs, d ∈ lowerChar c := by
  have key : ∀ cs before, d ∈ lower.go before cs → d = 'ς' ∨ ∃ c ∈ cs, d ∈ lowerChar c := by
    intro cs
    induction cs with
    | nil =>
      intro before h
      cases h
    | cons c cs ih =>
      intro before h
      rw [lower.go, List.mem_append] at h
      obtain hhere | hrest := h
      · split at hhere
        · rename_i hsigma
          split at hhere
          · exact .inl (List.mem_singleton.mp hhere)
          · refine .inr ⟨c, List.mem_cons_self, ?_⟩
            rw [beq_iff_eq.mp hsigma, lowerChar_sigma]
            exact hhere
        · exact .inr ⟨c, List.mem_cons_self, hhere⟩
      · obtain hfinal | ⟨e, he, hmem⟩ := ih _ hrest
        · exact .inl hfinal
        · exact .inr ⟨e, List.mem_cons_of_mem c he, hmem⟩
  exact key cs [] h

/-- All of a lower case text is lower case, character by character. -/
theorem lowerChar_of_mem_lower (h : d ∈ lower cs) : lowerChar d = [d] := by
  obtain rfl | ⟨c, -, hmem⟩ := exists_of_mem_lower h
  · exact irregular_letters.1.2.1
  · exact lowerChar_of_mem hmem

/-- Without a capital sigma each character is changed by itself. -/
theorem lower_eq_flatMap (h : 'Σ' ∉ cs) : lower cs = cs.flatMap lowerChar := by
  have key : ∀ cs before, 'Σ' ∉ cs → lower.go before cs = cs.flatMap lowerChar := by
    intro cs
    induction cs with
    | nil => exact fun _ _ => rfl
    | cons c cs ih =>
      intro before h
      have hc : ¬(c == 'Σ') = true := by
        rw [beq_iff_eq]
        exact fun hsigma => h (hsigma ▸ List.mem_cons_self)
      rw [lower.go, if_neg hc, ih _ (List.not_mem_of_not_mem_cons h), List.flatMap_cons]
  exact key cs [] h

theorem flatMap_lowerChar (h : ∀ d ∈ cs, lowerChar d = [d]) : cs.flatMap lowerChar = cs :=
  (List.flatMap_congr h).trans (List.flatMap_singleton' cs)

/-- A text that is lower case, character by character, is its own lower case. -/
theorem lower_eq_self (h : ∀ d ∈ cs, lowerChar d = [d]) : lower cs = cs := by
  have hsigma : 'Σ' ∉ cs := fun hmem => ne_sigma_of_lower (h _ hmem) rfl
  rw [lower_eq_flatMap hsigma, flatMap_lowerChar h]

/-- Lower case of lower case is the same: a sigma keeps the form that it has been given. -/
theorem lower_lower (cs : List Char) : lower (lower cs) = lower cs :=
  lower_eq_self fun _ => lowerChar_of_mem_lower

/-- A text that becomes itself, character by character, is lower case. -/
theorem lowerChar_of_flatMap (h : cs.flatMap lowerChar = cs) : ∀ d ∈ cs, lowerChar d = [d] := by
  -- no character vanishes, so the text can only keep its length if each stays one character
  have hlength : ∀ cs : List Char, cs.length ≤ (cs.flatMap lowerChar).length := by
    intro cs
    induction cs with
    | nil => exact Nat.zero_le _
    | cons c cs ih =>
      have hpos := List.length_pos_iff.mpr (lowerChar_ne_nil c)
      rw [List.flatMap_cons, List.length_append, List.length_cons]
      omega
  induction cs with
  | nil => exact List.forall_mem_nil _
  | cons c cs ih =>
    rw [List.flatMap_cons] at h
    have hone : (lowerChar c).length = [c].length := by
      have hpos := List.length_pos_iff.mpr (lowerChar_ne_nil c)
      have hall := congrArg List.length h
      have hrest := hlength cs
      rw [List.length_append, List.length_cons] at hall
      rw [List.length_singleton]
      omega
    obtain ⟨hc, hcs⟩ := List.append_inj (h.trans List.singleton_append.symm) hone
    exact List.forall_mem_cons.mpr ⟨hc, ih hcs⟩

end EventPipeline.Text
