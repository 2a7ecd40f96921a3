/-
# RTR messages

The protocol data units of the RPKI-to-router protocol (`pathvector-rpki/src/pdu.rs`, RFC 8210),
and what the prefix PDUs among them say: that a validated ROA payload is there, or no longer.

A payload is known by its network. The address of a PDU may have bits beyond its length; the prefix
trie of the table does not see them, and neither does `Vrp`.
-/
import Pathvector.Lib.Journal
import Pathvector.Types.Addr

set_option autoImplicit false

namespace Pathvector.Rpki

inductive RtrVersion where
  | V0
  | V1
  deriving DecidableEq

structure PrefixFlags where
  announce : Bool
  deriving DecidableEq

structure EndOfDataIntervals where
  refresh : UInt32
  retry : UInt32
  expire : UInt32
  deriving DecidableEq

inductive Pdu where
  | SerialNotify (session_id : UInt16) (serial : UInt32)
  | SerialQuery (session_id : UInt16) (serial : UInt32)
  | ResetQuery
  | CacheResponse (session_id : UInt16)
  | Ipv4Prefix (flags : PrefixFlags) (prefix_len max_len : UInt8) (addr : Ipv4Addr) (asn : UInt32)
  | Ipv6Prefix (flags : PrefixFlags) (prefix_len max_len : UInt8) (addr : Ipv6Addr) (asn : UInt32)
  | EndOfData (session_id : UInt16) (serial : UInt32) (intervals : Option EndOfDataIntervals)
  | CacheReset
  | ErrorReport (error_code : UInt16) (pdu_copy : List UInt8) (text : String)
  | RouterKey
  deriving DecidableEq

/-! ## Validated ROA payloads -/

/-- A validated ROA payload: the AS may originate the network, down to a length. -/
structure Vrp (A : Type) [IpAddress A] where
  network : Nlri A
  canonical : network.Canonical
  max_len : UInt8
  asn : UInt32

namespace Vrp

variable {A : Type} [IpAddress A]

/-- The payload for the network of a prefix. -/
def of_nlri (p : Nlri A) (max_len : UInt8) (asn : UInt32) : Vrp A :=
  ⟨p.masked, p.masked_canonical, max_len, asn⟩

/-- RFC 6811: the payload covers a prefix that is no shorter and agrees with it in its bits. -/
def Covers (v : Vrp A) (ip : A) (len : ℕ) : Prop :=
  v.network.mask ≤ len ∧ ∀ i < v.network.mask,
    (IpAddress.to_bits v.network.ip).getMsbD i = (IpAddress.to_bits ip).getMsbD i

/-- A payload covers the prefix if its network is that of the address, at a length that is no
longer. -/
theorem covers_iff {v : Vrp A} {ip : A} {len : ℕ} :
    v.Covers ip len ↔
      v.network.mask ≤ len ∧ ∃ p, Nlri.new ip v.network.mask = some p ∧ p.masked = v.network := by
  have hnew : Nlri.new ip v.network.mask = some ⟨ip, v.network.mask, v.network.mask_le⟩ :=
    dif_pos v.network.mask_le
  have hbits : (⟨ip, v.network.mask, v.network.mask_le⟩ : Nlri A).masked = v.network ↔
      ∀ i < v.network.mask,
        (IpAddress.to_bits ip).getMsbD i = (IpAddress.to_bits v.network.ip).getMsbD i := by
    have hcanonical : v.network.masked = v.network := v.canonical
    have hiff := Nlri.masked_eq_iff (p := ⟨ip, v.network.mask, v.network.mask_le⟩) (q := v.network)
    rw [hcanonical] at hiff
    exact hiff.trans (and_iff_right rfl)
  rw [Covers, hnew]
  refine and_congr_right fun _ => ?_
  constructor
  · intro h
    exact ⟨_, rfl, hbits.2 fun i hi => (h i hi).symm⟩
  · rintro ⟨p, hp, hmasked⟩ i hi
    cases hp
    exact (hbits.1 hmasked i hi).symm

/-- RFC 6811: the payload lets the AS originate a prefix of that length; AS 0 originates
nothing. -/
def Matches (v : Vrp A) (len : ℕ) (origin_asn : UInt32) : Prop :=
  len ≤ v.max_len.toNat ∧ v.asn = origin_asn ∧ v.asn ≠ 0

end Vrp

/-- A payload of either family. -/
inductive Payload where
  | v4 (vrp : Vrp Ipv4Addr)
  | v6 (vrp : Vrp Ipv6Addr)

/-- What a PDU says about a payload; nothing if it is not a prefix PDU, or its length is none. -/
def Pdu.change? : Pdu → Option (Change Payload)
  | .Ipv4Prefix flags prefix_len max_len addr asn =>
    (Nlri.new addr prefix_len.toNat).map fun p => ⟨flags.announce, .v4 (.of_nlri p max_len asn)⟩
  | .Ipv6Prefix flags prefix_len max_len addr asn =>
    (Nlri.new addr prefix_len.toNat).map fun p => ⟨flags.announce, .v6 (.of_nlri p max_len asn)⟩
  | _ => none

/-- The payloads that were announced and not withdrawn since. -/
def Live (pdus : List Pdu) (v : Payload) : Prop := Journal.Live (pdus.filterMap Pdu.change?) v

end Pathvector.Rpki
