/-
# Path attributes

The value types of `pathvector-types`: `peer_type.rs`, `role.rs`, `attr.rs`, `afi.rs`,
`community.rs` and `aspath.rs`. The newtypes around `u32` (`Asn`, `LocalPref`, `Med`,
`Community`) are `UInt32` here.
-/
import Pathvector.Types.Addr

set_option autoImplicit false

namespace Pathvector

/-- `PeerType`, the kind of session a route was learned over. -/
inductive PeerType where
  | Internal
  | External
  | Local
  | ConfedMember
  deriving DecidableEq, Repr

/-- `Role` (RFC 9234). -/
inductive Role where
  | Provider
  | RouteServer
  | RsClient
  | Customer
  | Peer
  deriving DecidableEq, Repr

/-- `Origin`, in preference order. -/
inductive Origin where
  | Igp
  | Egp
  | Incomplete
  deriving DecidableEq, Repr

/-- `Origin::as_u8`, which is also the order of the enumeration. -/
def Origin.as_u8 : Origin → UInt8
  | .Igp => 0
  | .Egp => 1
  | .Incomplete => 2

abbrev Asn : Type := UInt32
abbrev LocalPref : Type := UInt32
abbrev Med : Type := UInt32
abbrev Community : Type := UInt32

/-- `Asn::TRANS`, AS_TRANS (RFC 6793). -/
def Asn.TRANS : Asn := 23456

/-- `Asn::is_four_byte`: the number does not fit a two-octet AS field. -/
def Asn.is_four_byte (a : Asn) : Bool := 65535 < a

def LocalPref.DEFAULT : LocalPref := 100

namespace Community

def NO_EXPORT : Community := 0xFFFFFF01
def NO_ADVERTISE : Community := 0xFFFFFF02
def NO_EXPORT_SUBCONFED : Community := 0xFFFFFF03
def BLACKHOLE : Community := 0xFFFF029A

end Community

structure LargeCommunity where
  global_administrator : UInt32
  local_data_1 : UInt32
  local_data_2 : UInt32
  deriving DecidableEq, Repr

/-- `ExtendedCommunity([u8; 8])`, the eight octets as one big-endian word. -/
structure ExtendedCommunity where
  bytes : UInt64
  deriving DecidableEq, Repr

inductive NextHop where
  | V4 (addr : Ipv4Addr)
  | V6 (addr : Ipv6Addr)
  | V6WithLinkLocal (global link_local : Ipv6Addr)
  deriving DecidableEq, Repr

structure Aggregator where
  asn : Asn
  ip : Ipv4Addr
  deriving DecidableEq, Repr

/-- An optional transitive attribute this implementation does not interpret. -/
structure UnknownAttribute where
  type_code : UInt8
  value : List UInt8
  deriving DecidableEq, Repr

/-- `AfiSafi`, the address family of a multiprotocol attribute. -/
structure AfiSafi where
  afi : UInt16
  safi : UInt8
  deriving DecidableEq, Repr

def AfiSafi.IPV4_UNICAST : AfiSafi := ⟨1, 1⟩
def AfiSafi.IPV6_UNICAST : AfiSafi := ⟨2, 1⟩

/-! ## AS paths -/

inductive AsPathSegment where
  | Sequence (asns : List Asn)
  | Set (asns : List Asn)
  | ConfedSequence (asns : List Asn)
  | ConfedSet (asns : List Asn)
  deriving DecidableEq, Repr

namespace AsPathSegment

def asns : AsPathSegment → List Asn
  | .Sequence v | .Set v | .ConfedSequence v | .ConfedSet v => v

/-- A set counts once and confederation segments do not count (RFC 4271, RFC 5065). -/
def path_length : AsPathSegment → ℕ
  | .Sequence v => v.length
  | .Set _ => 1
  | .ConfedSequence _ | .ConfedSet _ => 0

def contains (seg : AsPathSegment) (asn : Asn) : Bool := seg.asns.contains asn

def is_empty (seg : AsPathSegment) : Bool := seg.asns.isEmpty

def is_confed : AsPathSegment → Bool
  | .ConfedSequence _ | .ConfedSet _ => true
  | .Sequence _ | .Set _ => false

/-- The same kind of segment over other AS numbers. -/
def with_asns : AsPathSegment → List Asn → AsPathSegment
  | .Sequence _, v => .Sequence v
  | .Set _, v => .Set v
  | .ConfedSequence _, v => .ConfedSequence v
  | .ConfedSet _, v => .ConfedSet v

end AsPathSegment

structure AsPath where
  segments : List AsPathSegment
  deriving DecidableEq, Repr

namespace AsPath

section

variable (path : AsPath) (asn : Asn)

def new : AsPath := ⟨[]⟩

def from_sequence (asns : List Asn) : AsPath :=
  if asns.isEmpty then new else ⟨[.Sequence asns]⟩

/-- `AsPath::prepend`: a full first segment (255 entries) starts a new one. -/
def prepend : AsPath :=
  match path.segments with
  | .Sequence asns :: rest =>
    if asns.length < 255 then ⟨.Sequence (asn :: asns) :: rest⟩
    else ⟨.Sequence [asn] :: path.segments⟩
  | _ => ⟨.Sequence [asn] :: path.segments⟩

/-- `AsPath::prepend_confed`. -/
def prepend_confed : AsPath :=
  match path.segments with
  | .ConfedSequence asns :: rest =>
    if asns.length < 255 then ⟨.ConfedSequence (asn :: asns) :: rest⟩
    else ⟨.ConfedSequence [asn] :: path.segments⟩
  | _ => ⟨.ConfedSequence [asn] :: path.segments⟩

def contains : Bool :=
  path.segments.any fun seg => seg.contains asn

def path_length : ℕ := (path.segments.map AsPathSegment.path_length).sum

/-- `AsPath::origin_as` (RFC 6811, with RFC 6907's treatment of confederation paths). -/
def origin_as (local_as : Asn) : Option Asn :=
  match path.segments.getLast? with
  | some (.Sequence asns) => asns.getLast?
  | some (.ConfedSequence _) | some (.ConfedSet _) | none => some local_as
  | some (.Set _) => none

/-- `AsPath::neighboring_as`: the first AS number of the first non-empty sequence. -/
def neighboring_as : Option Asn :=
  path.segments.findSome? fun
    | .Sequence asns => asns.head?
    | _ => none

def is_empty : Bool :=
  path.segments.isEmpty || path.segments.all AsPathSegment.is_empty

/-- `AsPath::downgrade_for_two_byte_peer`: the AS_TRANS form for a two-octet peer, and
the original path when the two differ. -/
def downgrade_for_two_byte_peer : AsPath × Option AsPath :=
  if path.segments.any fun seg => seg.asns.any Asn.is_four_byte then
    (⟨path.segments.map fun seg =>
        seg.with_asns (seg.asns.map fun a => if Asn.is_four_byte a then Asn.TRANS else a)⟩,
      some path)
  else (path, none)

/-- `AsPath::strip_confed_segments`. -/
def strip_confed_segments : AsPath :=
  ⟨path.segments.filter fun seg => !seg.is_confed⟩

end

end AsPath

end Pathvector
