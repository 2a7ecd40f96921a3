/-
# Prefixes on the wire

The NLRI helpers of `message/update.rs`: a prefix is a length octet and as many address octets as
the length needs. The decoder masks what it reads, so a prefix that was read is canonical, and the
encoder writes back the octets it came from, with the bits after the prefix cleared.

The two families have the same code; `decode_nlri` is that code for either.
-/
import Pathvector.Wire.Cursor

set_option autoImplicit false

namespace Pathvector.Wire

section

variable {A : Type} [IpAddress A]

/-- The address octets a prefix length needs. -/
def byte_count (prefix_len : ℕ) : ℕ := (prefix_len + 7) / 8

/-- `decode_nlri_v4` and `decode_nlri_v6`. -/
def decode_nlri (A : Type) [IpAddress A] (cur : List UInt8) :
    Except CodecError (Nlri A × List UInt8) := do
  let (prefix_len, cur) ← read_u8 cur
  if IpAddress.width A < prefix_len.toNat then .error (.InvalidNlri prefix_len)
  else
    let (addr_bytes, cur) ← read_bytes (byte_count prefix_len.toNat) cur
    let octets := addr_bytes
      ++ List.replicate (IpAddress.width A / 8 - byte_count prefix_len.toNat) 0
    match Nlri.new (IpAddress.of_bits (BitVec.ofNat _ (be_value octets)) : A) prefix_len.toNat with
    | some n => .ok (n.masked, cur)
    | none => .error (.InvalidNlri prefix_len)

/-- `encode_nlri_v4` and `encode_nlri_v6`. -/
def encode_nlri (n : Nlri A) : List UInt8 :=
  UInt8.ofNat n.prefix_len
    :: (be_bytes (IpAddress.width A / 8) (IpAddress.to_bits n.ip).toNat).take
      (byte_count n.prefix_len)

def decode_nlri_v4 : List UInt8 → Except CodecError (Nlri Ipv4Addr × List UInt8) :=
  decode_nlri Ipv4Addr

def decode_nlri_v6 : List UInt8 → Except CodecError (Nlri Ipv6Addr × List UInt8) :=
  decode_nlri Ipv6Addr

def decode_nlri_list_v4 (cur : List UInt8) : Except CodecError (List (Nlri Ipv4Addr)) :=
  Reader.read_all decode_nlri_v4 cur

def decode_nlri_list_v6 (cur : List UInt8) : Except CodecError (List (Nlri Ipv6Addr)) :=
  Reader.read_all decode_nlri_v6 cur

def encode_nlri_list_v4 (nlris : List (Nlri Ipv4Addr)) : List UInt8 :=
  nlris.flatMap encode_nlri_v4

/-! ## Masked addresses -/

theorem mod_of_canonical {p : Nlri A} (h : p.Canonical) :
    (IpAddress.to_bits p.ip).toNat % 2 ^ (IpAddress.width A - p.mask) = 0 := by
  have hmask : IpAddress.to_bits p.ip &&& Nlri.netmask A p.mask = IpAddress.to_bits p.ip := by
    have hip := congrArg (fun q : Nlri A => IpAddress.to_bits q.ip) h
    simpa only [Nlri.masked, IpAddress.to_bits_of_bits] using hip
  apply Nat.eq_of_testBit_eq
  intro i
  rw [Nat.testBit_mod_two_pow, Nat.zero_testBit]
  by_cases hi : i < IpAddress.width A - p.mask
  · have hbit : (IpAddress.to_bits p.ip).getLsbD i = false := by
      rw [← hmask, BitVec.getLsbD_and, Nlri.netmask, BitVec.getLsbD_shiftLeft]
      simp [hi]
    rw [← BitVec.testBit_toNat] at hbit
    rw [hbit, Bool.and_false]
  · simp [hi]

theorem of_bits_of_canonical {p : Nlri A} (h : p.Canonical) :
    (IpAddress.of_bits (IpAddress.to_bits p.ip &&& Nlri.netmask A p.mask) : A) = p.ip :=
  congrArg Nlri.ip h

/-- The address octets of a canonical prefix, filled up with zeros, are its address. -/
theorem be_value_of_canonical {p : Nlri A} (h : p.Canonical)
    (h8 : 8 * (IpAddress.width A / 8) = IpAddress.width A) :
    be_value ((be_bytes (IpAddress.width A / 8) (IpAddress.to_bits p.ip).toNat).take
        (byte_count p.mask)
      ++ List.replicate (IpAddress.width A / 8 - byte_count p.mask) 0)
      = (IpAddress.to_bits p.ip).toNat := by
  generalize hv : (IpAddress.to_bits p.ip).toNat = v
  generalize hW : IpAddress.width A / 8 = W at h8
  have hk : byte_count p.mask ≤ W := by
    have hle := p.mask_le
    unfold byte_count
    omega
  have hlow : v % 256 ^ (W - byte_count p.mask) = 0 := by
    have hmod := mod_of_canonical h
    rw [hv] at hmod
    have hpow : (256 : ℕ) ^ (W - byte_count p.mask) = 2 ^ (8 * (W - byte_count p.mask)) := by
      rw [Nat.pow_mul]
    rw [hpow]
    refine Nat.mod_eq_zero_of_dvd (dvd_trans (pow_dvd_pow 2 ?_) (Nat.dvd_of_mod_eq_zero hmod))
    unfold byte_count
    omega
  have hlt : v / 256 ^ (W - byte_count p.mask) < 256 ^ byte_count p.mask := by
    apply Nat.div_lt_of_lt_mul
    rw [← Nat.pow_add, Nat.sub_add_cancel hk, ← hv]
    have hpow : (256 : ℕ) ^ W = 2 ^ IpAddress.width A := by
      rw [← h8, Nat.pow_mul]
    rw [hpow]
    exact (IpAddress.to_bits p.ip).isLt
  rw [take_be_bytes hk, be_value_append_zeros, be_value_be_bytes_of_lt hlt]
  exact Nat.div_mul_cancel (Nat.dvd_of_mod_eq_zero hlow)

/-! ## Reading back -/

theorem decode_nlri_eq_ok {cur rest : List UInt8} {n : Nlri A}
    (h : decode_nlri A cur = .ok (n, rest)) :
    n.Canonical ∧ ∃ bs : List UInt8, bs.length = 1 + byte_count n.mask ∧ cur = bs ++ rest := by
  obtain ⟨⟨prefix_len, cur'⟩, hlen, hbody⟩ := Reader.bind_eq_ok.1 h
  obtain rfl := read_u8_eq_ok hlen
  dsimp only at hbody
  split at hbody
  · cases hbody
  · obtain ⟨⟨bs, cur''⟩, hbs, hnew⟩ := Reader.bind_eq_ok.1 hbody
    obtain ⟨rfl, hbslen⟩ := read_bytes_eq_ok hbs
    split at hnew
    · rename_i m hm
      unfold Nlri.new at hm
      split at hm
      · cases hm
        cases hnew
        refine ⟨Nlri.masked_canonical _, prefix_len :: bs, ?_, rfl⟩
        rw [List.length_cons, hbslen]
        exact Nat.add_comm _ _
      · cases hm
    · cases hnew

theorem shrinks_decode_nlri : Reader.Shrinks (decode_nlri A) := by
  intro cur n rest h
  obtain ⟨-, bs, hlen, rfl⟩ := decode_nlri_eq_ok h
  rw [List.length_append]
  omega

section

variable (h8 : 8 * (IpAddress.width A / 8) = IpAddress.width A) (n : Nlri A)
include h8

theorem length_encode_nlri : (encode_nlri n).length = 1 + byte_count n.mask := by
  have hle := n.mask_le
  have hk : byte_count n.mask ≤ IpAddress.width A / 8 := by
    unfold byte_count
    omega
  rw [encode_nlri, List.length_cons, List.length_take, length_be_bytes, Nlri.prefix_len,
    Nat.min_eq_left hk, Nat.add_comm]

theorem decode_encode_nlri (hw : IpAddress.width A < 256) {n : Nlri A} (hn : n.Canonical)
    (rest : List UInt8) :
    decode_nlri A (encode_nlri n ++ rest) = .ok (n, rest) := by
  have hle := n.mask_le
  have hlen : (UInt8.ofNat n.mask).toNat = n.mask := by
    exact Nat.mod_eq_of_lt (by omega)
  have hk : byte_count n.mask ≤ IpAddress.width A / 8 := by
    unfold byte_count
    omega
  have htake : ((be_bytes (IpAddress.width A / 8) (IpAddress.to_bits n.ip).toNat).take
      (byte_count n.mask)).length = byte_count n.mask := by
    rw [List.length_take, length_be_bytes, Nat.min_eq_left hk]
  unfold decode_nlri encode_nlri Nlri.prefix_len
  rw [List.cons_append, read_u8_cons, Reader.ok_bind]
  dsimp only
  rw [if_neg (by omega), hlen, read_bytes_append htake, Reader.ok_bind]
  rw [be_value_of_canonical hn h8, Nlri.new, dif_pos hle]
  dsimp only
  congr 2
  have hip := of_bits_of_canonical hn
  obtain ⟨ip, mask, hmask⟩ := n
  simp only [Nlri.masked, IpAddress.to_bits_of_bits, BitVec.ofNat_toNat, BitVec.setWidth_eq,
    Nlri.mk.injEq, and_true]
  exact hip

theorem rewrites_nlri (hw : IpAddress.width A < 256) :
    Reader.Rewrites (decode_nlri A) encode_nlri := by
  intro cur n rest h
  obtain ⟨hn, bs, hlen, rfl⟩ := decode_nlri_eq_ok h
  constructor
  · rw [length_encode_nlri h8, List.length_append, hlen]
  · exact decode_encode_nlri h8 hw hn

end

end

theorem rewrites_nlri_v4 : Reader.Rewrites decode_nlri_v4 encode_nlri_v4 :=
  rewrites_nlri (A := Ipv4Addr) rfl (by decide)

theorem rewrites_nlri_v6 : Reader.Rewrites decode_nlri_v6 encode_nlri_v6 :=
  rewrites_nlri (A := Ipv6Addr) rfl (by decide)

theorem rewrites_nlri_list_v4 {cur : List UInt8} {nlris : List (Nlri Ipv4Addr)}
    (h : decode_nlri_list_v4 cur = .ok nlris) :
    (encode_nlri_list_v4 nlris).length ≤ cur.length
      ∧ decode_nlri_list_v4 (encode_nlri_list_v4 nlris) = .ok nlris :=
  rewrites_nlri_v4.read_all shrinks_decode_nlri h

end Pathvector.Wire
