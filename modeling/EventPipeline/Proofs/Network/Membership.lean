import EventPipeline.Proofs.Network.Notation
import EventPipeline.Rules.Builtin

/-!
# `EventPipeline.Proofs.Network.Membership`: which addresses lie in a network

An address lies in a network if the two agree on as many leading bits as the length of the network
says, `AgreeOn`. The computation masks both addresses and compares what is left
(`Cidr.contains_iff_agreeOn`), so nothing that stands behind the leading bits counts.

`ipInNet_iff_agreeOn` is this for the built-in action on texts, and `ipInNet_ok_iff` says on which
texts the action has an answer at all: `Ipv4.text` and `Cidr.Spelling` are what it reads, and every
other pair of texts is a failure of the action (`ipInNet_cases`).
-/

set_option autoImplicit false

namespace EventPipeline

namespace Network

variable {network other : Cidr} {address a b c : Ipv4} {m n : Nat}

/-! ### Leading bits -/

/-- The two addresses agree on their first `n` bits, counted from the most significant one. -/
def AgreeOn (n : Nat) (a b : Ipv4) : Prop :=
  ∀ i < n, a.getMsbD i = b.getMsbD i

instance : Decidable (AgreeOn n a b) :=
  inferInstanceAs (Decidable (∀ i < n, a.getMsbD i = b.getMsbD i))

theorem AgreeOn.symm (h : AgreeOn n a b) : AgreeOn n b a :=
  fun i hi => (h i hi).symm

theorem AgreeOn.trans (hab : AgreeOn n a b) (hbc : AgreeOn n b c) : AgreeOn n a c :=
  fun i hi => (hab i hi).trans (hbc i hi)

/-- Addresses that agree on some bits agree on fewer. -/
theorem AgreeOn.mono (h : AgreeOn n a b) (hle : m ≤ n) : AgreeOn m a b :=
  fun i hi => h i (Nat.lt_of_lt_of_le hi hle)

/-! ### Masks -/

/-- The mask is there and is what a shift of all bits leaves; a shift by all places leaves none. -/
theorem Cidr.mask?_eq (network : Cidr) :
    network.mask? = some (BitVec.allOnes 32 <<< (32 - network.length)) := by
  unfold mask? shiftLeft?
  split
  · rename_i hzero
    rw [hzero]
    rfl
  · exact if_pos (by omega)

/-- The mask consists of the bits that count. -/
theorem Cidr.getMsbD_mask (network : Cidr) (i : Nat) :
    network.mask.getMsbD i = decide (i < network.length) := by
  have hle := network.length_le
  simp only [mask, network.mask?_eq, Option.get_some, BitVec.getMsbD_shiftLeft,
    BitVec.getMsbD_allOnes]
  exact decide_eq_decide.mpr (by omega)

/-- An address lies in a network exactly if it agrees with the address of the network on the
leading bits. -/
theorem Cidr.contains_iff_agreeOn :
    network.contains address = true ↔ AgreeOn network.length address network.address := by
  unfold contains
  rw [beq_iff_eq]
  constructor
  · intro h i hi
    have hbit := congrArg (fun word : Ipv4 => word.getMsbD i) h
    simpa only [BitVec.getMsbD_and, network.getMsbD_mask, decide_eq_true hi, Bool.and_true]
      using hbit
  · intro h
    -- behind the leading bits the mask leaves nothing of either address
    refine BitVec.eq_of_getMsbD_eq fun i _ => ?_
    rw [BitVec.getMsbD_and, BitVec.getMsbD_and, network.getMsbD_mask]
    by_cases hi : i < network.length
    · rw [h i hi]
    · rw [decide_eq_false hi, Bool.and_false, Bool.and_false]

/-- Networks of one length whose addresses agree on the leading bits hold the same addresses. -/
theorem Cidr.contains_congr (hlength : other.length = network.length)
    (hagree : AgreeOn network.length other.address network.address) (address : Ipv4) :
    other.contains address = network.contains address := by
  rw [Bool.eq_iff_iff, contains_iff_agreeOn, contains_iff_agreeOn, hlength]
  exact ⟨fun h => h.trans hagree, fun h => h.trans hagree.symm⟩

/-- A network with the same address and a smaller length holds no fewer addresses. -/
theorem Cidr.contains_of_length_le (haddress : other.address = network.address)
    (hle : other.length ≤ network.length) (h : network.contains address = true) :
    other.contains address = true := by
  rw [contains_iff_agreeOn] at h ⊢
  exact haddress ▸ h.mono hle

end Network

open Network

namespace Rules.Builtin

variable {ip net : String} {address : Ipv4} {network : Cidr}

/-! ### The built-in action -/

/-- What the action answers to texts that are read. -/
theorem ipInNet_run_of_parse (hip : Ipv4.parse? ip.toList = some address)
    (hnet : Cidr.parse? net.toList = some network) :
    ipInNet.run [.str ip, .str net] = .ok (.bool (network.contains address)) := by
  unfold run addressInNetwork
  dsimp only
  rw [hip, hnet]
  rfl

/-- Either both texts are read, or the action fails on the first that is not. -/
theorem ipInNet_cases (ip net : String) :
    (∃ (address : Ipv4) (network : Cidr), ip.toList = address.text ∧
        network.Spelling net.toList ∧
        ipInNet.run [.str ip, .str net] = .ok (.bool (network.contains address))) ∨
      ((¬ ∃ address : Ipv4, ip.toList = address.text) ∧
        ipInNet.run [.str ip, .str net] = ipInNet.fail s!"'{ip}' is not an IPv4 address") ∨
      ((¬ ∃ network : Cidr, network.Spelling net.toList) ∧
        ipInNet.run [.str ip, .str net] =
          ipInNet.fail s!"'{net}' is not an a.b.c.d/len network") := by
  cases hip : Ipv4.parse? ip.toList with
  | none =>
    refine .inr (.inl ⟨?_, ?_⟩)
    · rintro ⟨address, htext⟩
      rw [Ipv4.parse?_eq_some_iff.mpr htext] at hip
      cases hip
    · unfold run addressInNetwork
      dsimp only
      rw [hip]
      rfl
  | some address =>
    cases hnet : Cidr.parse? net.toList with
    | none =>
      refine .inr (.inr ⟨?_, ?_⟩)
      · rintro ⟨network, hspelling⟩
        rw [Cidr.parse?_eq_some_iff.mpr hspelling] at hnet
        cases hnet
      · unfold run addressInNetwork
        dsimp only
        rw [hip, hnet]
        rfl
    | some network =>
      exact .inl ⟨address, network, Ipv4.parse?_eq_some_iff.mp hip,
        Cidr.parse?_eq_some_iff.mp hnet, ipInNet_run_of_parse hip hnet⟩

/-- The action has an answer exactly if the first text is that of an address and the second one
describes a network. Everything else is a failure of the action. -/
theorem ipInNet_ok_iff (ip net : String) :
    ((∃ answer, ipInNet.run [.str ip, .str net] = .ok answer) ↔
        (∃ address : Ipv4, ip.toList = address.text) ∧
          ∃ network : Cidr, network.Spelling net.toList) ∧
      ((∃ answer, ipInNet.run [.str ip, .str net] = .ok answer) ∨
        ∃ reason, ipInNet.run [.str ip, .str net] = .error (.action "ip_in_net" reason)) := by
  have hfails {reason : String} (h : ipInNet.run [.str ip, .str net] = ipInNet.fail reason) :
      ¬ ∃ answer, ipInNet.run [.str ip, .str net] = .ok answer := by
    rintro ⟨answer, hanswer⟩
    rw [h] at hanswer
    cases hanswer
  obtain ⟨address, network, htext, hspelling, hrun⟩ | ⟨htext, hrun⟩ | ⟨hspelling, hrun⟩ :=
    ipInNet_cases ip net
  · exact ⟨iff_of_true ⟨_, hrun⟩ ⟨⟨address, htext⟩, network, hspelling⟩, .inl ⟨_, hrun⟩⟩
  · exact ⟨iff_of_false (hfails hrun) fun h => htext h.1, .inr ⟨_, hrun⟩⟩
  · exact ⟨iff_of_false (hfails hrun) fun h => hspelling h.2, .inr ⟨_, hrun⟩⟩

/-- A length may have a plus sign in front of it. -/
example : ipInNet.run [.str "1.2.3.4", .str "1.0.0.0/+8"] = .ok (.bool true) := by
  rfl

/-- The answer for an address and a network. No mask needs a shift by all places; a network that
leaves its length out counts all bits; the answer is whether the addresses agree on the leading
bits. So it is the same for every network with this length that differs behind them only, and a
network with the same address and a smaller length holds the address as well. -/
theorem ipInNet_iff_agreeOn (hip : Ipv4.parse? ip.toList = some address)
    (hnet : Cidr.parse? net.toList = some network) :
    network.mask?.isSome ∧ network.Spelling net.toList ∧
      ('/' ∉ net.toList → network.length = 32) ∧
      ∃ answer, ipInNet.run [.str ip, .str net] = .ok (.bool answer) ∧
        (answer = true ↔ AgreeOn network.length address network.address) ∧
        (∀ (text : String) (other : Cidr), Cidr.parse? text.toList = some other →
          other.length = network.length →
          AgreeOn network.length other.address network.address →
          ipInNet.run [.str ip, .str text] = .ok (.bool answer)) ∧
        (answer = true → ∀ (text : String) (other : Cidr), Cidr.parse? text.toList = some other →
          other.address = network.address → other.length ≤ network.length →
          ipInNet.run [.str ip, .str text] = .ok (.bool true)) := by
  have hspelling := Cidr.parse?_eq_some_iff.mp hnet
  refine ⟨network.isSome_mask?, hspelling, ?_, network.contains address,
    ipInNet_run_of_parse hip hnet, Cidr.contains_iff_agreeOn, ?_, ?_⟩
  · exact fun hslash => hspelling.length_eq hslash
  · intro text other hother hlength hagree
    rw [ipInNet_run_of_parse hip hother, Cidr.contains_congr hlength hagree]
  · intro hanswer text other hother haddress hle
    rw [ipInNet_run_of_parse hip hother, Cidr.contains_of_length_le haddress hle hanswer]

/-- A network with host bits, seen from an address that differs in them. -/
theorem ipInNet_iff_agreeOn_host :
    Ipv4.parse? "192.168.1.7".toList = some 0xC0A80107 ∧
      Cidr.parse? "192.168.1.99/24".toList = some ⟨0xC0A80163, 24, by decide⟩ ∧
      ipInNet.run [.str "192.168.1.7", .str "192.168.1.99/24"] = .ok (.bool true) ∧
      ipInNet.run [.str "192.168.1.7", .str "192.168.1.0/24"] = .ok (.bool true) ∧
      ipInNet.run [.str "192.168.1.7", .str "192.168.1.99/0"] = .ok (.bool true) := by
  have hip : Ipv4.parse? "192.168.1.7".toList = some 0xC0A80107 := by decide
  have hnet : Cidr.parse? "192.168.1.99/24".toList = some ⟨0xC0A80163, 24, by decide⟩ := by decide
  obtain ⟨-, -, -, answer, hrun, hiff, hhost, hshorter⟩ := ipInNet_iff_agreeOn hip hnet
  obtain rfl : answer = true := hiff.mpr (by decide)
  refine ⟨hip, hnet, hrun, ?_, ?_⟩
  · exact hhost "192.168.1.0/24" ⟨0xC0A80100, 24, by decide⟩ (by decide) rfl (by decide)
  · exact hshorter rfl "192.168.1.99/0" ⟨0xC0A80163, 0, by decide⟩ (by decide) rfl (by decide)

end Rules.Builtin

end EventPipeline
