import Mathlib.Algebra.Order.Ring.Nat
import Mathlib.Data.List.Basic

/-!
# Network addresses

Addresses and prefixes as `net/netip` has them, the IPv4 addresses that an IPv6
address may carry, and the ranges that are set aside for special use.
-/

namespace OufMcp.Network

/-- The addresses that share their leading bits with a base. -/
structure Range (w : Nat) where
  base : BitVec w
  length : Nat
  deriving DecidableEq, Repr

def Range.contains {w : Nat} (range : Range w) (address : BitVec w) : Bool :=
  decide (address.toNat / 2 ^ (w - range.length) = range.base.toNat / 2 ^ (w - range.length))

theorem Range.contains_eq_base {w : Nat} {wide narrow : Range w} {address : BitVec w}
    (longer : wide.length ≤ narrow.length) (fits : narrow.length ≤ w)
    (inside : narrow.contains address = true) :
    wide.contains address = wide.contains narrow.base := by
  have same := of_decide_eq_true inside
  have power : 2 ^ (w - wide.length) =
      2 ^ (w - narrow.length) * 2 ^ (narrow.length - wide.length) := by
    rw [← Nat.pow_add]
    congr 1
    omega
  unfold contains
  rw [power, ← Nat.div_div_eq_div_mul, ← Nat.div_div_eq_div_mul, ← Nat.div_div_eq_div_mul, same]

/-- Neither range has the base of the other, so they have no address in common. -/
def Range.Apart {w : Nat} (range other : Range w) : Prop :=
  range.length ≤ w ∧ other.length ≤ w ∧ range.contains other.base = false ∧
    other.contains range.base = false

instance {w : Nat} (range other : Range w) : Decidable (range.Apart other) := by
  unfold Range.Apart
  infer_instance

theorem Range.Apart.outside {w : Nat} {range other : Range w} {address : BitVec w}
    (apart : range.Apart other) (inside : range.contains address = true) :
    other.contains address = false := by
  obtain ⟨fits, otherFits, first, second⟩ := apart
  rcases Nat.le_total other.length range.length with shorter | longer
  · exact (contains_eq_base shorter fits inside).trans second
  · by_contra both
    rw [contains_eq_base longer otherFits (Bool.not_eq_false _ ▸ both), first] at inside
    cases inside

def ipv4 (a b c d length : Nat) : Range 32 :=
  ⟨BitVec.ofNat 32 (((a * 256 + b) * 256 + c) * 256 + d), length⟩

/-- A prefix from its leading groups; the groups that are left out are zero. -/
def ipv6 (groups : List Nat) (length : Nat) : Range 128 :=
  ⟨BitVec.ofNat 128 (groups.foldl (· * 65536 + ·) 0 * 65536 ^ (8 - groups.length)), length⟩

inductive Addr where
  | v4 (address : BitVec 32)
  | v6 (address : BitVec 128)
  deriving DecidableEq, Repr

inductive Prefix where
  | v4 (range : Range 32)
  | v6 (range : Range 128)
  deriving DecidableEq, Repr

def Prefix.contains : Prefix → Addr → Bool
  | .v4 range, .v4 address => range.contains address
  | .v6 range, .v6 address => range.contains address
  | _, _ => false

/-- `netip.AddrFromSlice` -/
def addrFromSlice (raw : List UInt8) : Option Addr :=
  let value := raw.foldl (fun sofar byte => sofar * 256 + byte.toNat) 0
  if raw.length = 4 then some (.v4 (BitVec.ofNat 32 value))
  else if raw.length = 16 then some (.v6 (BitVec.ofNat 128 value))
  else none

def low (address : BitVec 128) : BitVec 32 := address.setWidth 32

def mapped : Range 128 := ipv6 [0, 0, 0, 0, 0, 0xffff] 96

namespace Addr

/-- An IPv4-mapped address becomes the IPv4 address. -/
def unmap : Addr → Addr
  | .v4 address => .v4 address
  | .v6 address => if mapped.contains address then .v4 (low address) else .v6 address

def isUnspecified : Addr → Bool
  | .v4 address => (ipv4 0 0 0 0 32).contains address
  | .v6 address => (ipv6 [] 128).contains address

def isLoopback : Addr → Bool
  | .v4 address => (ipv4 127 0 0 0 8).contains address
  | .v6 address => (ipv6 [0, 0, 0, 0, 0, 0, 0, 1] 128).contains address

def isMulticast : Addr → Bool
  | .v4 address => (ipv4 224 0 0 0 4).contains address
  | .v6 address => (ipv6 [0xff00] 8).contains address

def isLinkLocalUnicast : Addr → Bool
  | .v4 address => (ipv4 169 254 0 0 16).contains address
  | .v6 address => (ipv6 [0xfe80] 10).contains address

def isBroadcast : Addr → Bool
  | .v4 address => (ipv4 255 255 255 255 32).contains address
  | .v6 _ => false

def isGlobalUnicast (addr : Addr) : Bool :=
  !(addr.isUnspecified || addr.isBroadcast || addr.isLoopback || addr.isMulticast
    || addr.isLinkLocalUnicast)

def isPrivate : Addr → Bool
  | .v4 address => (ipv4 10 0 0 0 8).contains address || (ipv4 172 16 0 0 12).contains address
      || (ipv4 192 168 0 0 16).contains address
  | .v6 address => (ipv6 [0xfc00] 7).contains address

end Addr

/-! ## Special use -/

def compatible : Range 128 := ipv6 [] 96

def nat64 : Range 128 := ipv6 [0x64, 0xff9b] 96

def sixToFour : Range 128 := ipv6 [0x2002] 16

def teredo : Range 128 := ipv6 [0x2001, 0] 32

/-- The IPv4 addresses an IPv6 address carries: in its last bits, after the 6to4 prefix, or as
the server and the inverted client of a Teredo tunnel. -/
def embedded (address : BitVec 128) : List (BitVec 32) :=
  (if mapped.contains address || compatible.contains address || nat64.contains address then
    [low address] else []) ++
  (if sixToFour.contains address then [low (address >>> 80)] else []) ++
  (if teredo.contains address then [low (address >>> 64), ~~~ low address] else [])

def thisNetwork : Range 32 := ipv4 0 0 0 0 8

/-- IPv4 addresses that are no public unicast addresses: this network, loopback, private, shared,
link-local, multicast, documentation, benchmarking and reserved with the broadcast address. -/
def special4 : List (Range 32) :=
  [thisNetwork, ipv4 127 0 0 0 8, ipv4 10 0 0 0 8, ipv4 172 16 0 0 12, ipv4 192 168 0 0 16,
    ipv4 100 64 0 0 10, ipv4 169 254 0 0 16, ipv4 224 0 0 0 4, ipv4 192 0 2 0 24,
    ipv4 198 51 100 0 24, ipv4 203 0 113 0 24, ipv4 198 18 0 0 15, ipv4 240 0 0 0 4]

def discardOnly : Range 128 := ipv6 [0x100] 64

/-- The newer of the two documentation prefixes. -/
def documentation : Range 128 := ipv6 [0x3fff] 20

/-- IPv6 addresses that are no public unicast addresses: unspecified, loopback, unique-local,
link-local, site-local, multicast, discard-only, documentation and benchmarking. -/
def special6 : List (Range 128) :=
  [ipv6 [] 128, ipv6 [0, 0, 0, 0, 0, 0, 0, 1] 128, ipv6 [0xfc00] 7, ipv6 [0xfe80] 10,
    ipv6 [0xfec0] 10, ipv6 [0xff00] 8, discardOnly, ipv6 [0x2001, 0xdb8] 32, documentation,
    ipv6 [0x2001, 2] 48]

/-- Neither the address nor an IPv4 address it carries is of special use. -/
def PublicUnicast : Addr → Prop
  | .v4 address => ∀ range ∈ special4, range.contains address = false
  | .v6 address => (∀ range ∈ special6, range.contains address = false) ∧
      ∀ carried ∈ embedded address, ∀ range ∈ special4, range.contains carried = false

/-! ## Carried addresses -/

def compatibleWith (range : Range 32) : Range 128 :=
  ⟨range.base.setWidth 128, 96 + range.length⟩

theorem compatibleWith_contains {range : Range 32} (short : range.length ≤ 32)
    (address : BitVec 128) :
    (compatibleWith range).contains address = true ↔
      compatible.contains address = true ∧ range.contains (low address) = true := by
  have base : (range.base.setWidth 128).toNat = range.base.toNat := by
    rw [BitVec.toNat_setWidth]
    exact Nat.mod_eq_of_lt (Nat.lt_trans range.base.isLt (by decide))
  have rest : 128 - (96 + range.length) = 32 - range.length := by omega
  have lowest : (low address).toNat = address.toNat % 2 ^ 32 := BitVec.toNat_setWidth ..
  have zero : compatible.contains address = true ↔ address.toNat / 2 ^ 32 = 0 := by
    rw [Range.contains, decide_eq_true_iff]
    rfl
  simp only [Range.contains, compatibleWith, decide_eq_true_eq, base, rest, lowest] at zero ⊢
  rw [zero]
  have small : range.base.toNat < 2 ^ 32 := range.base.isLt
  generalize range.base.toNat = b at small ⊢
  generalize address.toNat = a
  have split : 2 ^ 32 = 2 ^ (32 - range.length) * 2 ^ range.length := by
    rw [← Nat.pow_add, Nat.sub_add_cancel short]
  constructor
  · intro same
    have below : a < 2 ^ 32 := by
      have quotient : a / 2 ^ (32 - range.length) < 2 ^ range.length := by
        rw [same]
        exact Nat.div_lt_of_lt_mul (split ▸ small)
      rw [split, Nat.mul_comm]
      exact (Nat.div_lt_iff_lt_mul (Nat.two_pow_pos _)).mp quotient
    exact ⟨Nat.div_eq_of_lt below, by rw [Nat.mod_eq_of_lt below]; exact same⟩
  · rintro ⟨none, same⟩
    have below : a < 2 ^ 32 := by
      rcases Nat.div_eq_zero_iff.mp none with impossible | below
      · cases impossible
      · exact below
    rw [Nat.mod_eq_of_lt below] at same
    exact same

end OufMcp.Network
