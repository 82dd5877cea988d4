import EventPipeline.Network.Ipv4
import Mathlib.Data.List.TakeWhile

/-!
# `EventPipeline.Proofs.Network.Notation`: which texts are addresses and networks

Every address has one text, `Ipv4.text`, and the reader accepts that text and no other
(`Ipv4.parse?_eq_some_iff`). This goes back to the numbers of an address: what is read as a number
up to 255 is the shortest decimal text of that number (`octet?_eq_some_iff`).

Networks have more than one text. The length may be left out if it is 32, and a length that is
written may have zeros and a plus sign in front of it. `Cidr.Spelling` says so, and
`Cidr.parse?_eq_some_iff` proves that these texts are the ones the reader accepts.
-/

set_option autoImplicit false

namespace EventPipeline.Network

/-! ### Decimal texts -/

/-- At least one decimal digit and nothing else. -/
def IsNumeral (cs : List Char) : Prop :=
  cs ≠ [] ∧ ∀ c ∈ cs, c.isDigit = true

theorem isNumeral_toDigits (n : Nat) : IsNumeral (Nat.toDigits 10 n) :=
  ⟨Nat.toDigits_ne_nil, fun _ hc => Nat.isDigit_of_mem_toDigits (by decide) (by decide) hc⟩

theorem decimalValue_toDigits (n : Nat) : decimalValue (Nat.toDigits 10 n) = n :=
  Nat.ofDigitChars_toDigits (by decide) (by decide)

/-- The point and the slash are no digits. -/
theorem IsNumeral.not_mem {cs : List Char} {mark : Char} (h : IsNumeral cs)
    (hmark : mark.isDigit = false) : mark ∉ cs := by
  intro hmem
  rw [h.2 mark hmem] at hmark
  cases hmark

theorem isNumeral_iff {cs : List Char} :
    IsNumeral cs ↔ (cs.isEmpty || !cs.all Char.isDigit) = false := by
  simp [IsNumeral]

/-- The digit with the value of a digit is that digit. -/
theorem digitChar_value {c : Char} (h : c.isDigit = true) :
    Nat.digitChar (c.toNat - '0'.toNat) = c ∧ c.toNat - '0'.toNat < 10 := by
  obtain ⟨hlow, hhigh⟩ := Char.isDigit_iff_toNat.mp h
  have hzero : '0'.toNat = 48 := rfl
  have hnine : '9'.toNat = 57 := rfl
  have hlt : c.toNat - '0'.toNat < 10 := by omega
  refine ⟨Char.toNat_inj.mp ?_, hlt⟩
  rw [Nat.toNat_digitChar_of_lt_ten hlt]
  omega

/-- Digits behind a positive number are the last digits of its continuation. -/
theorem toDigits_ofDigitChars {cs : List Char} (hdigits : ∀ c ∈ cs, c.isDigit = true) {n : Nat}
    (hn : 0 < n) : Nat.toDigits 10 (Nat.ofDigitChars 10 cs n) = Nat.toDigits 10 n ++ cs := by
  induction cs generalizing n with
  | nil => exact (List.append_nil _).symm
  | cons c cs ih =>
    obtain ⟨hc, hcs⟩ := List.forall_mem_cons.mp hdigits
    obtain ⟨hchar, hlt⟩ := digitChar_value hc
    have hstep : Nat.toDigits 10 (10 * n + (c.toNat - '0'.toNat)) = Nat.toDigits 10 n ++ [c] := by
      rw [← Nat.toDigits_append_toDigits (by decide) hn hlt, Nat.toDigits_of_lt_base hlt, hchar]
    rw [Nat.ofDigitChars_cons, ih hcs (by omega), hstep, List.append_assoc, List.singleton_append]

/-- A decimal text without superfluous zeros is the shortest text of its value. -/
theorem toDigits_decimalValue {cs : List Char} (h : IsNumeral cs)
    (hzero : cs.head? = some '0' → cs.length ≤ 1) : Nat.toDigits 10 (decimalValue cs) = cs := by
  obtain ⟨c, cs, rfl⟩ := List.exists_cons_of_ne_nil h.1
  obtain ⟨hc, hcs⟩ := List.forall_mem_cons.mp h.2
  obtain ⟨hchar, hlt⟩ := digitChar_value hc
  have hvalue : decimalValue (c :: cs) = Nat.ofDigitChars 10 cs (c.toNat - '0'.toNat) :=
    congrArg (Nat.ofDigitChars 10 cs) (Nat.zero_add _)
  rw [hvalue]
  by_cases hfirst : c = '0'
  · have hnil : cs = [] := by simpa [hfirst] using hzero
    subst hfirst hnil
    rfl
  · have hpos : 0 < c.toNat - '0'.toNat := by
      have hne : c.toNat ≠ '0'.toNat := fun heq => hfirst (Char.toNat_inj.mp heq)
      have hlow := (Char.isDigit_iff_toNat.mp hc).1
      omega
    rw [toDigits_ofDigitChars hcs hpos, Nat.toDigits_of_lt_base hlt, hchar, List.singleton_append]

/-- The shortest text of a number has no superfluous zeros. -/
theorem length_toDigits_of_zero {n : Nat} (h : (Nat.toDigits 10 n).head? = some '0') :
    (Nat.toDigits 10 n).length ≤ 1 := by
  induction n using Nat.strongRecOn with
  | ind n ih =>
    rw [Nat.toDigits_eq_if (by decide)] at h ⊢
    split
    · exact Nat.le_refl 1
    · rename_i hbase
      rw [if_neg hbase] at h
      -- the number without its last digit has the same first digit, and so it is zero
      have hshort := ih (n / 10) (by omega)
      have hvalue := decimalValue_toDigits (n / 10)
      obtain ⟨c, cs, hcs⟩ := List.exists_cons_of_ne_nil (@Nat.toDigits_ne_nil (n / 10) 10)
      rw [hcs] at h hshort hvalue
      obtain rfl := Option.some.inj h
      obtain rfl : cs = [] := by simpa using hshort rfl
      have hzero : decimalValue ['0'] = 0 := rfl
      omega

/-- What is read as a number of an address is the shortest text of a number up to 255. -/
theorem octet?_eq_some_iff {cs : List Char} {n : Nat} :
    octet? cs = some n ↔ n ≤ 255 ∧ cs = Nat.toDigits 10 n := by
  constructor
  · intro h
    unfold octet? at h
    split at h
    · cases h
    rename_i hform
    split at h
    · cases h
    rename_i hzero
    split at h
    · rename_i hle
      cases h
      rw [Bool.or_assoc, Bool.or_left_comm, Bool.or_eq_true, not_or] at hform
      have hnumeral := isNumeral_iff.mpr (Bool.not_eq_true _ ▸ hform.2)
      refine ⟨hle, (toDigits_decimalValue hnumeral fun hhead => ?_).symm⟩
      simpa [hhead] using hzero
    · cases h
  · rintro ⟨hle, rfl⟩
    have hform := isNumeral_iff.mp (isNumeral_toDigits n)
    have hlength : (Nat.toDigits 10 n).length ≤ 3 :=
      (Nat.length_toDigits_le_iff (by decide) (by decide)).mpr (by omega)
    have hzero : ¬ ((Nat.toDigits 10 n).head? == some '0' && 1 < (Nat.toDigits 10 n).length) := by
      rw [Bool.and_eq_true, beq_iff_eq, decide_eq_true_eq]
      rintro ⟨hhead, hlong⟩
      exact absurd (length_toDigits_of_zero hhead) (by omega)
    unfold octet?
    rw [if_neg (by simpa [hlength] using hform), if_neg hzero, decimalValue_toDigits, if_pos hle]

/-! ### Addresses -/

namespace Ipv4

/-- The four numbers of an address. -/
def octets (address : Ipv4) : List Nat :=
  [address.toNat / 256 / 256 / 256, address.toNat / 256 / 256 % 256, address.toNat / 256 % 256,
    address.toNat % 256]

/-- The text of an address: its numbers with points between them. -/
def text (address : Ipv4) : List Char :=
  ['.'].intercalate (address.octets.map (Nat.toDigits 10))

theorem le_of_mem_octets {address : Ipv4} {n : Nat} (h : n ∈ address.octets) : n ≤ 255 := by
  have hlt := address.isLt
  simp only [octets, List.mem_cons, List.not_mem_nil, or_false] at h
  omega

/-- The text of an address falls into the texts of its numbers. -/
theorem splitOn_text (address : Ipv4) :
    address.text.splitOn '.' = address.octets.map (Nat.toDigits 10) := by
  refine List.splitOn_intercalate '.' ?_ (List.cons_ne_nil _ _)
  refine List.forall_mem_map.mpr fun n _ => ?_
  exact (isNumeral_toDigits n).not_mem rfl

theorem octets_ofNat {a b c d : Nat} (ha : a ≤ 255) (hb : b ≤ 255) (hc : c ≤ 255)
    (hd : d ≤ 255) :
    octets (BitVec.ofNat 32 (((a * 256 + b) * 256 + c) * 256 + d)) = [a, b, c, d] := by
  simp only [octets, BitVec.toNat_ofNat, List.cons.injEq, and_true]
  omega

/-- A text is read as an address exactly if it is the text of that address. -/
theorem parse?_eq_some_iff {cs : List Char} {address : Ipv4} :
    parse? cs = some address ↔ cs = address.text := by
  constructor
  · intro h
    unfold parse? at h
    split at h
    · rename_i a b c d hparts
      cases h
      -- the text is put together again from its four parts, each of which is the text of a number
      have hjoin : ['.'].intercalate (cs.splitOn '.') = cs := List.intercalate_splitOn '.'
      rw [← hjoin, text]
      generalize cs.splitOn '.' = parts at hparts
      simp only [List.map_eq_cons_iff, List.map_eq_nil_iff, octet?_eq_some_iff] at hparts
      obtain ⟨_, _, rfl, ⟨ha, rfl⟩, _, _, rfl, ⟨hb, rfl⟩, _, _, rfl, ⟨hc, rfl⟩, _, _, rfl,
        ⟨hd, rfl⟩, rfl⟩ := hparts
      rw [octets_ofNat ha hb hc hd]
      rfl
    · cases h
  · rintro rfl
    have hread : address.octets.map (octet? ∘ Nat.toDigits 10) = address.octets.map some :=
      List.map_congr_left fun n hn => octet?_eq_some_iff.mpr ⟨le_of_mem_octets hn, rfl⟩
    unfold parse?
    rw [splitOn_text, List.map_map, hread]
    -- the numbers are the digits of the address to the base 256
    refine congrArg some (BitVec.eq_of_toNat_eq ?_)
    have hlt := address.isLt
    rw [BitVec.toNat_ofNat]
    omega

/-- There is no slash in the text of an address. -/
theorem slash_not_mem_text (address : Ipv4) : '/' ∉ address.text := by
  simp only [text, octets, List.map_cons, List.map_nil, List.intercalate_cons_cons,
    List.intercalate_singleton, List.mem_append, List.mem_singleton, not_or]
  have hnumber (n : Nat) : '/' ∉ Nat.toDigits 10 n := (isNumeral_toDigits n).not_mem rfl
  simp [hnumber]

end Ipv4

/-! ### Networks -/

/-- What is read as a length is a decimal text with an optional plus sign. -/
theorem length?_eq_some_iff {cs : List Char} {n : Nat} :
    length? cs = some n ↔ ∃ sign digits, cs = sign ++ digits ∧ (sign = [] ∨ sign = ['+']) ∧
      IsNumeral digits ∧ decimalValue digits = n := by
  have hread (digits : List Char) :
      (if digits.isEmpty || !digits.all Char.isDigit then none else some (decimalValue digits)) =
        some n ↔ IsNumeral digits ∧ decimalValue digits = n := by
    rw [isNumeral_iff]
    cases digits.isEmpty || !digits.all Char.isDigit <;> simp
  unfold length?
  dsimp only
  rw [hread]
  split
  · rename_i rest
    constructor
    · rintro ⟨hdigits, hvalue⟩
      exact ⟨['+'], rest, rfl, .inr rfl, hdigits, hvalue⟩
    · rintro ⟨sign, digits, heq, rfl | rfl, hdigits, hvalue⟩
      · -- a plus sign is no digit
        rw [List.nil_append] at heq
        have hplus : '+' ∉ digits := hdigits.not_mem rfl
        exact absurd (heq ▸ List.mem_cons_self) hplus
      · obtain rfl := (List.cons.inj heq).2
        exact ⟨hdigits, hvalue⟩
  · rename_i hplus
    constructor
    · rintro ⟨hdigits, hvalue⟩
      exact ⟨[], cs, rfl, .inl rfl, hdigits, hvalue⟩
    · rintro ⟨sign, digits, rfl, rfl | rfl, hdigits, hvalue⟩
      · exact ⟨hdigits, hvalue⟩
      · exact absurd rfl (hplus digits)

/-- The characters describe the network: its address, behind which the length may be left out if
it is 32, and is otherwise written in decimal, with an optional plus sign. -/
inductive Cidr.Spelling (network : Cidr) : List Char → Prop
  | alone (hlength : network.length = 32) : Spelling network network.address.text
  | withLength (sign digits : List Char) (hsign : sign = [] ∨ sign = ['+'])
    (hdigits : IsNumeral digits) (hlength : decimalValue digits = network.length) :
    Spelling network (network.address.text ++ '/' :: (sign ++ digits))

/-- A network without a slash in its text is a single address. -/
theorem Cidr.Spelling.length_eq {network : Cidr} {cs : List Char} (h : network.Spelling cs)
    (hslash : '/' ∉ cs) : network.length = 32 := by
  cases h with
  | alone hlength => exact hlength
  | withLength sign digits =>
    exact absurd (List.mem_append_right _ List.mem_cons_self) hslash

/-- A text is read as a network if its address and its length are read. -/
theorem Cidr.parse?_eq_some {cs : List Char} {network : Cidr} :
    parse? cs = some network ↔ Ipv4.parse? (cs.takeWhile (· != '/')) = some network.address ∧
      suffix? (cs.dropWhile (· != '/')) = some network.length := by
  unfold parse?
  constructor
  · intro h
    obtain ⟨address, haddress, h⟩ := Option.bind_eq_some_iff.mp h
    obtain ⟨length, hlength, h⟩ := Option.bind_eq_some_iff.mp h
    split at h
    · cases h
      exact ⟨haddress, hlength⟩
    · cases h
  · rintro ⟨haddress, hlength⟩
    rw [haddress, hlength]
    exact dif_pos network.length_le

/-- A text is read as a network exactly if it describes that network. -/
theorem Cidr.parse?_eq_some_iff {cs : List Char} {network : Cidr} :
    parse? cs = some network ↔ network.Spelling cs := by
  have hfree : ∀ c ∈ network.address.text, (c != '/') = true := by
    intro c hc
    exact bne_iff_ne.mpr fun heq => network.address.slash_not_mem_text (heq ▸ hc)
  rw [parse?_eq_some, Ipv4.parse?_eq_some_iff]
  constructor
  · rintro ⟨haddress, hlength⟩
    have hparts := List.takeWhile_append_dropWhile (p := (· != '/')) (l := cs)
    rw [haddress] at hparts
    unfold suffix? at hlength
    split at hlength
    · rename_i hrest
      rw [hrest, List.append_nil] at hparts
      exact hparts ▸ .alone (Option.some.inj hlength).symm
    · rename_i mark rest hrest
      -- what stops the address is a slash
      obtain rfl : mark = '/' := by
        have hhead := List.head?_dropWhile_not (· != '/') cs
        simpa [hrest] using hhead
      obtain ⟨sign, digits, rfl, hsign, hdigits, hvalue⟩ := length?_eq_some_iff.mp hlength
      rw [hrest] at hparts
      exact hparts ▸ .withLength sign digits hsign hdigits hvalue
  · intro h
    cases h with
    | alone hlength =>
      rw [List.takeWhile_eq_self_iff.mpr hfree, List.dropWhile_eq_nil_iff.mpr hfree, hlength]
      exact ⟨rfl, rfl⟩
    | withLength sign digits hsign hdigits hlength =>
      rw [List.takeWhile_append_of_pos hfree, List.dropWhile_append_of_pos hfree]
      exact ⟨List.append_nil _,
        length?_eq_some_iff.mpr ⟨sign, digits, rfl, hsign, hdigits, hlength⟩⟩

end EventPipeline.Network
