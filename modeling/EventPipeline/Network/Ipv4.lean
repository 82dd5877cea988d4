/-!
# `EventPipeline.Network.Ipv4`: addresses and networks

An address is written as four numbers up to 255 without superfluous zeros, a network as
an address with an optional length: `10.0.0.0/8`. An address lies in a network if it
agrees with the network's address on as many leading bits as the length says.
-/

set_option autoImplicit false

namespace EventPipeline.Network

/-- An address as thirty-two bits. -/
abbrev Ipv4 := BitVec 32

/-- A network: an address and the number of leading bits that count. -/
structure Cidr where
  address : Ipv4
  length : Nat
  length_le : length ≤ 32
deriving DecidableEq

/-- The value of a text of decimal digits. -/
def decimalValue (cs : List Char) : Nat :=
  cs.foldl (fun n c => 10 * n + (c.toNat - '0'.toNat)) 0

/-- One number of an address: one to three digits, without superfluous zeros, up to 255. -/
def octet? (cs : List Char) : Option Nat :=
  if cs.isEmpty || 3 < cs.length || !cs.all Char.isDigit then none
  else if cs.head? == some '0' && 1 < cs.length then none
  else if decimalValue cs ≤ 255 then some (decimalValue cs) else none

/-- Reads an address. -/
def Ipv4.parse? (cs : List Char) : Option Ipv4 :=
  match (cs.splitOn '.').map octet? with
  | [some a, some b, some c, some d] =>
    some (BitVec.ofNat 32 (((a * 256 + b) * 256 + c) * 256 + d))
  | _ => none

/-- Reads the length of a network: decimal digits, with an optional plus sign in front. -/
def length? (cs : List Char) : Option Nat :=
  let digits := match cs with
    | '+' :: rest => rest
    | _ => cs
  if digits.isEmpty || !digits.all Char.isDigit then none else some (decimalValue digits)

/-- Reads what stands behind the address of a network: nothing, which stands for all bits, or
a slash and a length. -/
def suffix? (cs : List Char) : Option Nat :=
  match cs with
  | [] => some 32
  | _ :: rest => length? rest

/-- Reads a network. Without a length it is a single address. -/
def Cidr.parse? (cs : List Char) : Option Cidr := do
  let address ← Ipv4.parse? (cs.takeWhile (· != '/'))
  let length ← suffix? (cs.dropWhile (· != '/'))
  if h : length ≤ 32 then some { address := address, length := length, length_le := h }
  else none

/-- A word shifted to the left by fewer places than it has; other shifts are none. -/
def shiftLeft? (word : Ipv4) (places : Nat) : Option Ipv4 :=
  if places < 32 then some (word <<< places) else none

/-- The bits that count in a network: the leading ones. A network of length zero has none of
them and needs no shift. -/
def Cidr.mask? (network : Cidr) : Option Ipv4 :=
  if network.length = 0 then some 0 else shiftLeft? (BitVec.allOnes 32) (32 - network.length)

/-- No length of a network asks for a shift that is none. -/
theorem Cidr.isSome_mask? (network : Cidr) : network.mask?.isSome := by
  unfold mask? shiftLeft?
  split
  · rfl
  · rw [if_pos (by omega)]
    rfl

/-- The mask of a network. -/
def Cidr.mask (network : Cidr) : Ipv4 :=
  network.mask?.get network.isSome_mask?

/-- The address lies in the network. -/
def Cidr.contains (network : Cidr) (address : Ipv4) : Bool :=
  address &&& network.mask == network.address &&& network.mask

end EventPipeline.Network
