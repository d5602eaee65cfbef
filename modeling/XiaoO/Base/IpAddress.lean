import Mathlib.Data.Nat.Bitwise
import Mathlib.Tactic

/-!
# Internet addresses

Addresses of both families as words, networks as those that begin with the same bits, the networks
for special purposes, and the IPv4 address that an IPv6 address embeds.

## What is proved

How networks are told by octets (`V4.octets_iff_isShared`) and by masks of the first segment
(`V6.masked_iff_isUniqueLocal`, `V6.masked_iff_isLinkLocal`).
-/

namespace XiaoO.Base.Ip

open Nat

abbrev V4 := BitVec 32

abbrev V6 := BitVec 128

inductive IpAddr where
  | v4 (a : V4)
  | v6 (a : V6)
  deriving DecidableEq

/-- It begins with the same bits as the network. -/
def InNet {w : ℕ} (net : BitVec w) (bits : ℕ) (a : BitVec w) : Prop :=
  a.toNat / 2 ^ (w - bits) = net.toNat / 2 ^ (w - bits)
  deriving Decidable

namespace V4

def ofOctets (a b c d : ℕ) : V4 := BitVec.ofNat 32 (((a * 256 + b) * 256 + c) * 256 + d)

variable (a : V4)

/-- The octet at a place, from the left. -/
def octet (i : ℕ) : ℕ := a.toNat / 2 ^ (24 - 8 * i) % 256

def IsLoopback : Prop := InNet (ofOctets 127 0 0 0) 8 a
  deriving Decidable

def IsPrivate : Prop :=
  InNet (ofOctets 10 0 0 0) 8 a ∨ InNet (ofOctets 172 16 0 0) 12 a ∨ InNet (ofOctets 192 168 0 0) 16 a
  deriving Decidable

def IsLinkLocal : Prop := InNet (ofOctets 169 254 0 0) 16 a
  deriving Decidable

def IsShared : Prop := InNet (ofOctets 100 64 0 0) 10 a
  deriving Decidable

def IsUnspecified : Prop := a = ofOctets 0 0 0 0
  deriving Decidable

def IsBroadcast : Prop := a = ofOctets 255 255 255 255
  deriving Decidable

def IsMulticast : Prop := InNet (ofOctets 224 0 0 0) 4 a
  deriving Decidable

def IsDocumentation : Prop :=
  InNet (ofOctets 192 0 2 0) 24 a ∨ InNet (ofOctets 198 51 100 0) 24 a ∨ InNet (ofOctets 203 0 113 0) 24 a
  deriving Decidable

/-- A network of which the second octet is within bounds. -/
theorem octets_iff_isShared : (a.octet 0 = 100 ∧ 64 ≤ a.octet 1 ∧ a.octet 1 ≤ 127) ↔ a.IsShared := by
  have hn : (ofOctets 100 64 0 0).toNat = 1681915904 := by decide
  unfold IsShared InNet
  simp only [octet]
  omega

end V4

variable (a : V6)

namespace V6

/-- The segment of 16 bits at a place, from the left. -/
def segment (i : ℕ) : ℕ := a.toNat / 2 ^ (112 - 16 * i) % 2 ^ 16

/-- The last 32 bits. -/
def lowV4 : V4 := BitVec.ofNat 32 a.toNat

def IsLoopback : Prop := a = 1
  deriving Decidable

def IsUnspecified : Prop := a = 0
  deriving Decidable

/-- Private addresses: `fc00::/7`. -/
def IsUniqueLocal : Prop := InNet (0xfc00 <<< 112 : V6) 7 a
  deriving Decidable

/-- The network `fe80::/10`. -/
def IsLinkLocal : Prop := InNet (0xfe80 <<< 112 : V6) 10 a
  deriving Decidable

/-- The network `ff00::/8`. -/
def IsMulticast : Prop := InNet (0xff00 <<< 112 : V6) 8 a
  deriving Decidable

/-- The networks `2001:db8::/32` and `3fff::/20`. -/
def IsDocumentation : Prop := InNet (0x20010db8 <<< 96 : V6) 32 a ∨ InNet (0x3fff <<< 112 : V6) 20 a
  deriving Decidable

/-- IPv4-mapped addresses, `::ffff:0:0/96`. -/
def IsMapped : Prop := InNet (0xffff <<< 32 : V6) 96 a
  deriving Decidable

/-- IPv4-compatible addresses, `::/96`. -/
def IsCompatible : Prop := InNet (0 : V6) 96 a
  deriving Decidable

/-- The network `64:ff9b::/96`. -/
def IsNat64 : Prop := InNet (0x0064ff9b <<< 96 : V6) 96 a
  deriving Decidable

/-- `to_ipv4_mapped`. -/
def toV4Mapped? : Option V4 := if IsMapped a then some a.lowV4 else none

end V6

/-! ### Masks -/

/-- A mask of high bits takes the low bits away. -/
theorem and_highMask {s k n : ℕ} (h : s < 2 ^ (k + n)) : s &&& ((2 ^ n - 1) <<< k) = (s >>> k) <<< k := by
  refine eq_of_testBit_eq fun i => ?_
  rw [testBit_and, testBit_shiftLeft, testBit_shiftLeft, testBit_two_pow_sub_one, testBit_shiftRight]
  by_cases hk : k ≤ i
  · rw [show k + (i - k) = i by omega]
    by_cases hn : i - k < n
    · simp [hk, hn]
    · have hb : s.testBit i = false :=
        Nat.testBit_lt_two_pow (h.trans_le (Nat.pow_le_pow_right (by decide) (by omega)))
      simp [hb]
  · simp [hk]

namespace V6

theorem segment_zero : a.segment 0 = a.toNat / 2 ^ 112 := by
  unfold segment
  omega

theorem segment_zero_lt : a.segment 0 < 2 ^ 16 := mod_lt _ (by decide)

/-- Unique local addresses by a mask of the first segment. -/
theorem masked_iff_isUniqueLocal : a.segment 0 &&& 0xfe00 = 0xfc00 ↔ a.IsUniqueLocal := by
  have hm : a.segment 0 &&& 0xfe00 = a.segment 0 >>> 9 <<< 9 := and_highMask (n := 7) a.segment_zero_lt
  have hn : (0xfc00 <<< 112 : V6).toNat = 0xfc00 * 2 ^ 112 := by decide
  rw [hm, segment_zero, shiftLeft_eq, shiftRight_eq_div_pow]
  unfold IsUniqueLocal InNet
  omega

theorem masked_iff_isLinkLocal : a.segment 0 &&& 0xffc0 = 0xfe80 ↔ a.IsLinkLocal := by
  have hm : a.segment 0 &&& 0xffc0 = a.segment 0 >>> 6 <<< 6 := and_highMask (n := 10) a.segment_zero_lt
  have hn : (0xfe80 <<< 112 : V6).toNat = 0xfe80 * 2 ^ 112 := by decide
  rw [hm, segment_zero, shiftLeft_eq, shiftRight_eq_div_pow]
  unfold IsLinkLocal InNet
  omega

end V6

/-! ### Internal addresses -/

/-- An address that is not one of a public host. -/
def V4.IsInternal (a : V4) : Prop :=
  a.IsLoopback ∨ a.IsPrivate ∨ a.IsLinkLocal ∨ a.IsShared ∨ a.IsUnspecified ∨ a.IsBroadcast ∨
    a.IsMulticast ∨ a.IsDocumentation
  deriving Decidable

/-- An address with an IPv4 address in its last bits. -/
def V6.Embeds : Prop := a.IsMapped ∨ a.IsCompatible ∨ a.IsNat64
  deriving Decidable

def V6.IsInternal (a : V6) : Prop :=
  a.IsLoopback ∨ a.IsUniqueLocal ∨ a.IsLinkLocal ∨ a.IsUnspecified ∨ a.IsMulticast ∨ a.IsDocumentation ∨
    a.Embeds ∧ a.lowV4.IsInternal
  deriving Decidable

def IpAddr.IsInternal : IpAddr → Prop
  | .v4 a => a.IsInternal
  | .v6 a => a.IsInternal

instance : DecidablePred IpAddr.IsInternal := fun ip =>
  match ip with
  | .v4 a => inferInstanceAs (Decidable a.IsInternal)
  | .v6 a => inferInstanceAs (Decidable a.IsInternal)

end XiaoO.Base.Ip
