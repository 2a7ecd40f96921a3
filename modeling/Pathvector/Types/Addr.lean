/-
# Addresses and prefixes

The model of `std::net` addresses, of the `IpAddress` trait both families implement
and of `Nlri` (`pathvector-types/src/nlri.rs`).

Code that is generic over the family in Rust is generic here: it takes a type `A` with
`[IpAddress A]`. An `Nlri` keeps the host bits it was built with (`Nlri::new` does not
mask), and `Nlri.masked` is the canonical form. The difference matters: the best-path
table of the Loc-RIB is a prefix trie, so it is keyed by the masked prefix, while its
candidate table is keyed by the NLRI as given.
-/
import Mathlib.Data.BitVec
import Mathlib.Tactic.Common

set_option autoImplicit false

namespace Pathvector

/-! ## Addresses -/

/-- `std::net::Ipv4Addr`. -/
structure Ipv4Addr where
  bits : BitVec 32
  deriving DecidableEq, Repr

/-- `std::net::Ipv6Addr`. -/
structure Ipv6Addr where
  bits : BitVec 128
  deriving DecidableEq, Repr

/-- `std::net::IpAddr`. -/
inductive IpAddr where
  | V4 (addr : Ipv4Addr)
  | V6 (addr : Ipv6Addr)
  deriving DecidableEq, Repr

namespace Ipv4Addr

/-- `Ipv4Addr::new(a, b, c, d)`, the dotted quad. -/
def new (a b c d : UInt8) : Ipv4Addr :=
  ⟨a.toBitVec ++ b.toBitVec ++ c.toBitVec ++ d.toBitVec⟩

def UNSPECIFIED : Ipv4Addr := ⟨0⟩

def is_unspecified (a : Ipv4Addr) : Bool := a.bits == 0

/-- `127.0.0.0/8`. -/
def is_loopback (a : Ipv4Addr) : Bool := a.bits.extractLsb' 24 8 == 127

/-- `224.0.0.0/4`. -/
def is_multicast (a : Ipv4Addr) : Bool := a.bits.extractLsb' 28 4 == 14

def is_broadcast (a : Ipv4Addr) : Bool := a.bits == BitVec.allOnes 32

/-- `Ord for Ipv4Addr`: the order of the octets read as one big-endian number. -/
def cmp (a b : Ipv4Addr) : Ordering := compare a.bits.toNat b.bits.toNat

end Ipv4Addr

namespace Ipv6Addr

def is_unspecified (a : Ipv6Addr) : Bool := a.bits == 0

/-- `ff00::/8`. -/
def is_multicast (a : Ipv6Addr) : Bool := a.bits.extractLsb' 120 8 == 255

def cmp (a b : Ipv6Addr) : Ordering := compare a.bits.toNat b.bits.toNat

end Ipv6Addr

/-- `Ord for IpAddr`: every IPv4 address comes before every IPv6 address. -/
def IpAddr.cmp : IpAddr → IpAddr → Ordering
  | .V4 a, .V4 b => a.cmp b
  | .V6 a, .V6 b => a.cmp b
  | .V4 _, .V6 _ => .lt
  | .V6 _, .V4 _ => .gt

/-! ## The address families -/

/-- The sealed trait of the two address types: an address is a bit vector of the
family's width. -/
class IpAddress (A : Type) where
  width : ℕ
  to_bits : A → BitVec width
  of_bits : BitVec width → A
  to_bits_of_bits : ∀ b, to_bits (of_bits b) = b

instance : IpAddress Ipv4Addr where
  width := 32
  to_bits := Ipv4Addr.bits
  of_bits := Ipv4Addr.mk
  to_bits_of_bits _ := rfl

instance : IpAddress Ipv6Addr where
  width := 128
  to_bits := Ipv6Addr.bits
  of_bits := Ipv6Addr.mk
  to_bits_of_bits _ := rfl

/-! ## Prefixes -/

instance neZero_33 : NeZero 33 := ⟨by decide⟩

instance neZero_129 : NeZero 129 := ⟨by decide⟩

/-- `Nlri<A>`: an address and a prefix length no longer than the address. Host bits
are kept as given. -/
structure Nlri (A : Type) [IpAddress A] where
  ip : A
  mask : ℕ
  mask_le : mask ≤ IpAddress.width A

namespace Nlri

variable {A : Type} [IpAddress A]

instance [DecidableEq A] : DecidableEq (Nlri A) := fun p q =>
  decidable_of_iff (p.ip = q.ip ∧ p.mask = q.mask) <| by
    cases p
    cases q
    simp only [mk.injEq]

instance [DecidableEq A] : LawfulBEq (Nlri A) := inferInstance

/-- `Nlri::new`: rejects a mask that exceeds the address width. -/
def new (ip : A) (mask : ℕ) : Option (Nlri A) :=
  if h : mask ≤ IpAddress.width A then some ⟨ip, mask, h⟩ else none

def prefix_len (p : Nlri A) : ℕ := p.mask

/-- The network bits of a prefix length: the `len` leading bits. -/
def netmask (A : Type) [IpAddress A] (len : ℕ) : BitVec (IpAddress.width A) :=
  BitVec.allOnes _ <<< (IpAddress.width A - len)

/-- `Nlri::masked`: the canonical form, with the host bits zeroed. -/
def masked (p : Nlri A) : Nlri A :=
  { p with ip := IpAddress.of_bits (IpAddress.to_bits p.ip &&& netmask A p.mask) }

/-- A prefix in canonical form. Wire decoding yields only these. -/
def Canonical (p : Nlri A) : Prop := p.masked = p

instance [DecidableEq A] (p : Nlri A) : Decidable p.Canonical := decEq _ _

@[simp]
theorem masked_masked (p : Nlri A) : p.masked.masked = p.masked := by
  simp only [masked, IpAddress.to_bits_of_bits, BitVec.and_assoc, BitVec.and_self]

theorem masked_canonical (p : Nlri A) : p.masked.Canonical :=
  masked_masked p

theorem getMsbD_netmask {len : ℕ} (h : len ≤ IpAddress.width A) (i : ℕ) :
    (netmask A len).getMsbD i = decide (i < len) := by
  rw [netmask, BitVec.getMsbD_shiftLeft, BitVec.getMsbD_allOnes]
  rw [decide_eq_decide]
  omega

/-- Two prefixes have one network if they agree in length and in the bits of that length. -/
theorem masked_eq_iff {p q : Nlri A} :
    p.masked = q.masked ↔ p.mask = q.mask ∧ ∀ i < p.mask,
      (IpAddress.to_bits p.ip).getMsbD i = (IpAddress.to_bits q.ip).getMsbD i := by
  constructor
  · intro h
    have hmask : p.masked.mask = q.masked.mask := congrArg Nlri.mask h
    change p.mask = q.mask at hmask
    have hbits : IpAddress.to_bits p.ip &&& netmask A p.mask
        = IpAddress.to_bits q.ip &&& netmask A q.mask := by
      have hip := congrArg (fun n => IpAddress.to_bits n.ip) h
      simpa only [masked, IpAddress.to_bits_of_bits] using hip
    refine ⟨hmask, fun i hi => ?_⟩
    have hbit := congrArg (fun b => b.getMsbD i) hbits
    simpa only [BitVec.getMsbD_and, getMsbD_netmask p.mask_le, getMsbD_netmask q.mask_le, ← hmask,
      decide_eq_true hi, Bool.and_true] using hbit
  · rintro ⟨hmask, hbits⟩
    have hnet : IpAddress.to_bits p.ip &&& netmask A p.mask
        = IpAddress.to_bits q.ip &&& netmask A q.mask := by
      refine BitVec.eq_of_getMsbD_eq fun i _ => ?_
      rw [BitVec.getMsbD_and, BitVec.getMsbD_and, getMsbD_netmask p.mask_le,
        getMsbD_netmask q.mask_le, ← hmask]
      by_cases hi : i < p.mask
      · rw [hbits i hi]
      · rw [decide_eq_false hi, Bool.and_false, Bool.and_false]
    obtain ⟨ip', mask', hle'⟩ := q
    cases hmask
    simp only [masked, hnet]

theorem Canonical.masked_inj {p q : Nlri A} (hp : p.Canonical) (hq : q.Canonical) :
    p.masked = q.masked ↔ p = q := by
  rw [hp, hq]

end Nlri

/-- The IPv4 prefix `a.b.c.d/mask`, as parsed from text. -/
def Nlri.v4 (a b c d : UInt8) (mask : Fin 33) : Nlri Ipv4Addr :=
  ⟨Ipv4Addr.new a b c d, mask, Nat.le_of_lt_succ mask.isLt⟩

/-- The IPv6 prefix with the given address bits. -/
def Nlri.v6 (bits : BitVec 128) (mask : Fin 129) : Nlri Ipv6Addr :=
  ⟨⟨bits⟩, mask, Nat.le_of_lt_succ mask.isLt⟩

end Pathvector
