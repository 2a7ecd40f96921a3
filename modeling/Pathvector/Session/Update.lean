/-
# UPDATE messages

`UpdateMessage`, `PathAttribute` and the attribute encoder
(`pathvector-session/src/message/update.rs`). The bytes of the path attributes matter
twice below: they are the key by which outgoing announcements are grouped, and they are
what a receiver is told about a prefix.
-/
import Pathvector.Lib.BigEndian
import Pathvector.Types.Attr

set_option autoImplicit false

namespace Pathvector

/-! ## Messages -/

/-- `Prefix`, a prefix of either family inside a multiprotocol attribute. -/
inductive Prefix where
  | V4 (nlri : Nlri Ipv4Addr)
  | V6 (nlri : Nlri Ipv6Addr)
  deriving DecidableEq

def Prefix.v4? : Prefix → Option (Nlri Ipv4Addr)
  | .V4 n => some n
  | .V6 _ => none

def Prefix.v6? : Prefix → Option (Nlri Ipv6Addr)
  | .V6 n => some n
  | .V4 _ => none

structure MpReachNlri where
  afi_safi : AfiSafi
  next_hop : NextHop
  prefixes : List Prefix
  deriving DecidableEq

structure MpUnreachNlri where
  afi_safi : AfiSafi
  prefixes : List Prefix
  deriving DecidableEq

inductive PathAttribute where
  | Origin (origin : Origin)
  | AsPath (path : AsPath)
  | NextHop (addr : Ipv4Addr)
  | Med (med : UInt32)
  | LocalPref (lp : UInt32)
  | AtomicAggregate
  | Aggregator (agg : Aggregator)
  | Communities (cs : List Community)
  | OriginatorId (id : Ipv4Addr)
  | ClusterList (ids : List UInt32)
  | MpReachNlri (mp : MpReachNlri)
  | MpUnreachNlri (mp : MpUnreachNlri)
  | ExtendedCommunities (ecs : List ExtendedCommunity)
  | As4Path (path : Pathvector.AsPath)
  | As4Aggregator (asn : UInt32) (bgp_id : Ipv4Addr)
  | LargeCommunities (lcs : List LargeCommunity)
  | OnlyToCustomer (asn : Asn)
  | Unknown (flags type_code : UInt8) (value : List UInt8)
  deriving DecidableEq

structure UpdateMessage where
  withdrawn : List (Nlri Ipv4Addr)
  attributes : List PathAttribute
  announced : List (Nlri Ipv4Addr)
  deriving DecidableEq

/-! ## Encoding -/

/-- The longest message, without and with the extended-message capability. -/
def MAX_LEN : ℕ := 4096
def MAX_LEN_EXTENDED : ℕ := 65535

def Ipv4Addr.octets (a : Ipv4Addr) : List UInt8 := be_bytes 4 a.bits.toNat

def Ipv6Addr.octets (a : Ipv6Addr) : List UInt8 := be_bytes 16 a.bits.toNat

def put_u32 (x : UInt32) : List UInt8 := be_bytes 4 x.toNat

def FLAG_OPTIONAL : UInt8 := 0x80
def FLAG_TRANSITIVE : UInt8 := 0x40
def FLAG_PARTIAL : UInt8 := 0x20
def FLAG_EXT_LEN : UInt8 := 0x10
def FLAGS_WKM : UInt8 := FLAG_TRANSITIVE
def FLAGS_ONT : UInt8 := FLAG_OPTIONAL
def FLAGS_OT : UInt8 := FLAG_OPTIONAL ||| FLAG_TRANSITIVE

/-- `PathAttribute::type_code`. -/
def PathAttribute.type_code : PathAttribute → UInt8
  | .Origin _ => 1
  | .AsPath _ => 2
  | .NextHop _ => 3
  | .Med _ => 4
  | .LocalPref _ => 5
  | .AtomicAggregate => 6
  | .Aggregator _ => 7
  | .Communities _ => 8
  | .OriginatorId _ => 9
  | .ClusterList _ => 10
  | .MpReachNlri _ => 14
  | .MpUnreachNlri _ => 15
  | .ExtendedCommunities _ => 16
  | .As4Path _ => 17
  | .As4Aggregator _ _ => 18
  | .LargeCommunities _ => 32
  | .OnlyToCustomer _ => 35
  | .Unknown _ type_code _ => type_code

/-- The attribute is one that holds prefixes. -/
def PathAttribute.is_mp : PathAttribute → Bool
  | .MpReachNlri _ | .MpUnreachNlri _ => true
  | _ => false

/-- The attributes around the prefixes. -/
def around (attributes : List PathAttribute) : List PathAttribute :=
  attributes.filter fun a => !a.is_mp

/-- `nlri_encoded_len` and `nlri_v6_encoded_len`. -/
def nlri_encoded_len {A : Type} [IpAddress A] (n : Nlri A) : ℕ := 1 + (n.prefix_len + 7) / 8

def encode_nlri_v4 (n : Nlri Ipv4Addr) : List UInt8 :=
  UInt8.ofNat n.prefix_len :: n.ip.octets.take ((n.prefix_len + 7) / 8)

def encode_nlri_v6 (n : Nlri Ipv6Addr) : List UInt8 :=
  UInt8.ofNat n.prefix_len :: n.ip.octets.take ((n.prefix_len + 7) / 8)

def encode_prefix : Prefix → List UInt8
  | .V4 n => encode_nlri_v4 n
  | .V6 n => encode_nlri_v6 n

/-- One segment of `encode_as_path_segments`; its length field is one octet. -/
def encode_as_path_segment (seg : AsPathSegment) : List UInt8 :=
  let seg_type : UInt8 := match seg with
    | .Set _ => 1
    | .Sequence _ => 2
    | .ConfedSequence _ => 3
    | .ConfedSet _ => 4
  seg_type :: UInt8.ofNat seg.asns.length :: seg.asns.flatMap put_u32

def encode_as_path_segments (path : AsPath) : List UInt8 :=
  path.segments.flatMap encode_as_path_segment

def encode_next_hop : NextHop → List UInt8
  | .V4 ip => ip.octets
  | .V6 ip => ip.octets
  | .V6WithLinkLocal g ll => g.octets ++ ll.octets

def encode_afi_safi (f : AfiSafi) : List UInt8 := be_bytes 2 f.afi.toNat ++ [f.safi]

/-- `encode_attr_value`: the flags and the value; the type code is the attribute's own. -/
def encode_attr_value : PathAttribute → UInt8 × List UInt8
  | .Origin origin => (FLAGS_WKM, [origin.as_u8])
  | .AsPath path => (FLAGS_WKM, encode_as_path_segments path)
  | .NextHop ip => (FLAGS_WKM, ip.octets)
  | .Med med => (FLAGS_ONT, put_u32 med)
  | .LocalPref lp => (FLAGS_WKM, put_u32 lp)
  | .OnlyToCustomer asn => (FLAGS_OT, put_u32 asn)
  | .AtomicAggregate => (FLAGS_WKM, [])
  | .Aggregator agg => (FLAGS_OT, put_u32 agg.asn ++ agg.ip.octets)
  | .Communities cs => (FLAGS_OT, cs.flatMap put_u32)
  | .OriginatorId id => (FLAGS_ONT, id.octets)
  | .ClusterList ids => (FLAGS_ONT, ids.flatMap put_u32)
  | .MpReachNlri mp =>
    let nh_bytes := encode_next_hop mp.next_hop
    (FLAGS_ONT, encode_afi_safi mp.afi_safi ++ [UInt8.ofNat nh_bytes.length] ++ nh_bytes ++ [0]
      ++ mp.prefixes.flatMap encode_prefix)
  | .MpUnreachNlri mp =>
    (FLAGS_ONT, encode_afi_safi mp.afi_safi ++ mp.prefixes.flatMap encode_prefix)
  | .ExtendedCommunities ecs => (FLAGS_OT, ecs.flatMap fun ec => be_bytes 8 ec.bytes.toNat)
  | .As4Path path => (FLAGS_OT, encode_as_path_segments path)
  | .As4Aggregator asn bgp_id => (FLAGS_OT, put_u32 asn ++ bgp_id.octets)
  | .LargeCommunities lcs =>
    (FLAGS_OT, lcs.flatMap fun lc =>
      put_u32 lc.global_administrator ++ put_u32 lc.local_data_1 ++ put_u32 lc.local_data_2)
  | .Unknown flags _ value =>
    -- An optional transitive attribute we pass on unseen is marked partial.
    if flags &&& FLAG_OPTIONAL != 0 && flags &&& FLAG_TRANSITIVE != 0 then
      (flags ||| FLAG_PARTIAL, value)
    else (flags, value)

/-- `encode_one_path_attr`: the length field takes two octets past 255. -/
def encode_one_path_attr (attr : PathAttribute) : List UInt8 :=
  let (flags, value) := encode_attr_value attr
  if 255 < value.length then
    (flags ||| FLAG_EXT_LEN) :: attr.type_code :: be_bytes 2 value.length ++ value
  else flags :: attr.type_code :: UInt8.ofNat value.length :: value

def encode_attributes (attrs : List PathAttribute) : List UInt8 :=
  attrs.flatMap encode_one_path_attr

end Pathvector
