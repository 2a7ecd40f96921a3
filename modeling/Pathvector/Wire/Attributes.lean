/-
# Path attributes on the wire

The attribute decoder of `message/update.rs` (RFC 4271, RFC 7606). The attribute block is a
sequence of type-length-value triples. A triple that cannot be read ends the session; a triple
whose value is malformed becomes an error entry with a policy, and decoding goes on after it.

The type codes the decoder knows are an enumeration here, `AttrType`; every other code is `none`.
-/
import Pathvector.Wire.Prefixes

set_option autoImplicit false

namespace Pathvector

def Origin.from_u8 (v : UInt8) : Option Origin :=
  if v = 0 then some .Igp else if v = 1 then some .Egp else if v = 2 then some .Incomplete else none

namespace Wire

/-! ## Type codes -/

/-- The `ATTR_*` constants. -/
inductive AttrType where
  | ORIGIN
  | AS_PATH
  | NEXT_HOP
  | MED
  | LOCAL_PREF
  | ATOMIC_AGGREGATE
  | AGGREGATOR
  | COMMUNITY
  | ORIGINATOR_ID
  | CLUSTER_LIST
  | MP_REACH_NLRI
  | MP_UNREACH_NLRI
  | EXTENDED_COMMUNITIES
  | AS4_PATH
  | AS4_AGGREGATOR
  | LARGE_COMMUNITY
  | ONLY_TO_CUSTOMER
  deriving DecidableEq, Repr

namespace AttrType

def code : AttrType → UInt8
  | ORIGIN => 1
  | AS_PATH => 2
  | NEXT_HOP => 3
  | MED => 4
  | LOCAL_PREF => 5
  | ATOMIC_AGGREGATE => 6
  | AGGREGATOR => 7
  | COMMUNITY => 8
  | ORIGINATOR_ID => 9
  | CLUSTER_LIST => 10
  | MP_REACH_NLRI => 14
  | MP_UNREACH_NLRI => 15
  | EXTENDED_COMMUNITIES => 16
  | AS4_PATH => 17
  | AS4_AGGREGATOR => 18
  | LARGE_COMMUNITY => 32
  | ONLY_TO_CUSTOMER => 35

def all : List AttrType :=
  [ORIGIN, AS_PATH, NEXT_HOP, MED, LOCAL_PREF, ATOMIC_AGGREGATE, AGGREGATOR, COMMUNITY,
    ORIGINATOR_ID, CLUSTER_LIST, MP_REACH_NLRI, MP_UNREACH_NLRI, EXTENDED_COMMUNITIES, AS4_PATH,
    AS4_AGGREGATOR, LARGE_COMMUNITY, ONLY_TO_CUSTOMER]

/-- The attribute a type code stands for, if the decoder knows it. -/
def of_code (type_code : UInt8) : Option AttrType := all.find? fun k => k.code == type_code

theorem of_code_eq_some {type_code : UInt8} {k : AttrType} (h : of_code type_code = some k) :
    k.code = type_code := by
  have hk := List.find?_some h
  exact eq_of_beq hk

@[simp]
theorem of_code_code (k : AttrType) : of_code k.code = some k := by
  cases k <;> rfl

end AttrType

/-! ## Errors -/

/-- `AttributeDecodeError`, with its `detail`. -/
structure AttributeError extends AttributeDecodeError where
  detail : String
  deriving DecidableEq

def rfc7606_policy (type_code : UInt8) : AttributeErrorPolicy :=
  match AttrType.of_code type_code with
  | some .ORIGIN | some .AS_PATH | some .NEXT_HOP | some .LOCAL_PREF => .TreatAsWithdraw
  | some .MP_REACH_NLRI | some .ONLY_TO_CUSTOMER => .TreatAsWithdraw
  | _ => .AttributeDiscard

/-- `expected_optional_transitive`: the Optional and Transitive bits of the attributes the decoder
knows. -/
def expected_optional_transitive (type_code : UInt8) : Option (Bool × Bool) :=
  match AttrType.of_code type_code with
  | some .ORIGIN | some .AS_PATH | some .NEXT_HOP | some .LOCAL_PREF | some .ATOMIC_AGGREGATE =>
    some (false, true)
  | some .MED | some .ORIGINATOR_ID | some .CLUSTER_LIST | some .MP_REACH_NLRI
  | some .MP_UNREACH_NLRI => some (true, false)
  | some .AGGREGATOR | some .COMMUNITY | some .EXTENDED_COMMUNITIES | some .AS4_PATH
  | some .AS4_AGGREGATOR | some .LARGE_COMMUNITY | some .ONLY_TO_CUSTOMER => some (true, true)
  | none => none

def error_detail : CodecError → String
  | .InvalidOrigin _ => "invalid ORIGIN value"
  | .UnknownAsPathSegmentType _ => "unknown AS_PATH segment type"
  | .InvalidAttribute _ detail => detail
  | .Truncated _ _ => "attribute value truncated"
  | _ => "malformed attribute"

/-! ## Values -/

/-- The AS numbers of one path segment. -/
def read_asns : ℕ → List UInt8 → Except CodecError (List Asn × List UInt8)
  | 0, cur => .ok ([], cur)
  | n + 1, cur =>
    if cur.length < 4 then
      .error (.InvalidAttribute AttrType.AS_PATH.code "truncated ASN in AS_PATH segment")
    else do
      let (asn, cur) ← read_u32 cur
      let (asns, cur) ← read_asns n cur
      pure (asn :: asns, cur)

section

variable (k : AttrType) (n : ℕ) (detail : String) (cur : List UInt8)
  (body : Except CodecError PathAttribute)

/-- The kind of a path segment. -/
def segment_of (seg_type : UInt8) (asns : List Asn) : Option AsPathSegment :=
  if seg_type = 1 then some (.Set asns)
  else if seg_type = 2 then some (.Sequence asns)
  else if seg_type = 3 then some (.ConfedSequence asns)
  else if seg_type = 4 then some (.ConfedSet asns)
  else none

/-- One round of `decode_as_path_segments`. The segment type is looked at last. -/
def decode_as_path_segment : Except CodecError (AsPathSegment × List UInt8) := do
  let (seg_type, cur) ← read_u8 cur
  let (count, cur) ← read_u8 cur
  let (asns, cur) ← read_asns count.toNat cur
  match segment_of seg_type asns with
  | some seg => .ok (seg, cur)
  | none => .error (.UnknownAsPathSegmentType seg_type)

def decode_as_path_segments : Except CodecError (List AsPathSegment) :=
  Reader.read_all decode_as_path_segment cur

def AFI_IPV4 : UInt16 := 1
def AFI_IPV6 : UInt16 := 2

def decode_next_hop (afi : UInt16) (bytes : List UInt8) : Except CodecError NextHop :=
  if afi = AFI_IPV4 ∧ bytes.length = 4 then .ok (.V4 (ipv4_of_octets bytes))
  else if afi = AFI_IPV6 ∧ bytes.length = 16 then .ok (.V6 (ipv6_of_octets bytes))
  else if afi = AFI_IPV6 ∧ bytes.length = 32 then
    .ok (.V6WithLinkLocal (ipv6_of_octets (bytes.take 16)) (ipv6_of_octets (bytes.drop 16)))
  else .error (.InvalidAttribute AttrType.MP_REACH_NLRI.code "unexpected next-hop length for AFI")

/-- `decode_mp_nlri`: the prefixes of a family that is not known are skipped. -/
def decode_mp_nlri (afi : UInt16) (cur : List UInt8) : Except CodecError (List Prefix) :=
  if afi = AFI_IPV4 then (decode_nlri_list_v4 cur).map fun ns => ns.map Prefix.V4
  else if afi = AFI_IPV6 then (decode_nlri_list_v6 cur).map fun ns => ns.map Prefix.V6
  else .ok []

def read_extended_community :
    Except CodecError (ExtendedCommunity × List UInt8) := do
  let (bytes, cur) ← read_bytes 8 cur
  pure (⟨UInt64.ofNat (be_value bytes)⟩, cur)

def read_large_community : Except CodecError (LargeCommunity × List UInt8) := do
  let (ga, cur) ← read_u32 cur
  let (ld1, cur) ← read_u32 cur
  let (ld2, cur) ← read_u32 cur
  pure (⟨ga, ld1, ld2⟩, cur)

/-- A value whose length has to be `n`. -/
def exactly : Except CodecError PathAttribute :=
  if cur.length ≠ n then .error (.InvalidAttribute k.code detail) else body

/-- A value whose length has to be a multiple of `n`. -/
def multiple_of : Except CodecError PathAttribute :=
  if cur.length % n ≠ 0 then .error (.InvalidAttribute k.code detail) else body

/-- An AGGREGATOR of four octets of AS number, or of two. -/
def decode_aggregator (four_byte_asn : Bool) (cur : List UInt8) : Except CodecError PathAttribute :=
  if four_byte_asn then
    exactly .AGGREGATOR 8 "AGGREGATOR must be 8 bytes (4-byte ASN mode)" cur do
      let (asn, cur) ← read_u32 cur
      let (ip, _) ← read_ipv4addr cur
      pure (.Aggregator ⟨asn, ip⟩)
  else
    exactly .AGGREGATOR 6 "AGGREGATOR must be 6 bytes (2-byte ASN mode)" cur do
      let (asn, cur) ← read_u16 cur
      let (ip, _) ← read_ipv4addr cur
      pure (.Aggregator ⟨asn.toUInt32, ip⟩)

/-- The value of an MP_REACH_NLRI. -/
def decode_mp_reach : Except CodecError PathAttribute :=
  if cur.length < 4 then
    .error (.InvalidAttribute AttrType.MP_REACH_NLRI.code "MP_REACH_NLRI too short")
  else do
    let (afi, cur) ← read_u16 cur
    let (safi, cur) ← read_u8 cur
    let (nh_len, cur) ← read_u8 cur
    let (nh_bytes, cur) ← read_bytes nh_len.toNat cur
    let next_hop ← decode_next_hop afi nh_bytes
    let (_snpa, cur) ← read_u8 cur
    let prefixes ← decode_mp_nlri afi cur
    pure (.MpReachNlri ⟨⟨afi, safi⟩, next_hop, prefixes⟩)

/-- The value of an MP_UNREACH_NLRI. -/
def decode_mp_unreach : Except CodecError PathAttribute :=
  if cur.length < 3 then
    .error (.InvalidAttribute AttrType.MP_UNREACH_NLRI.code "MP_UNREACH_NLRI too short")
  else do
    let (afi, cur) ← read_u16 cur
    let (safi, cur) ← read_u8 cur
    let prefixes ← decode_mp_nlri afi cur
    pure (.MpUnreachNlri ⟨⟨afi, safi⟩, prefixes⟩)

end

/-- `decode_attr_value`, for an attribute the decoder knows. -/
def decode_known_value (four_byte_asn : Bool) (cur : List UInt8) :
    AttrType → Except CodecError PathAttribute
  | .ORIGIN => exactly .ORIGIN 1 "ORIGIN must be exactly 1 byte" cur do
      let (v, _) ← read_u8 cur
      match Origin.from_u8 v with
      | some origin => .ok (.Origin origin)
      | none => .error (.InvalidOrigin v)
  | .AS_PATH => do
      let segments ← decode_as_path_segments cur
      pure (.AsPath ⟨segments⟩)
  | .NEXT_HOP => exactly .NEXT_HOP 4 "NEXT_HOP must be exactly 4 bytes" cur do
      let (ip, _) ← read_ipv4addr cur
      pure (.NextHop ip)
  | .MED => exactly .MED 4 "MED must be exactly 4 bytes" cur do
      let (med, _) ← read_u32 cur
      pure (.Med med)
  | .LOCAL_PREF => exactly .LOCAL_PREF 4 "LOCAL_PREF must be exactly 4 bytes" cur do
      let (lp, _) ← read_u32 cur
      pure (.LocalPref lp)
  | .ONLY_TO_CUSTOMER =>
    exactly .ONLY_TO_CUSTOMER 4 "ONLY_TO_CUSTOMER must be exactly 4 bytes" cur do
      let (asn, _) ← read_u32 cur
      pure (.OnlyToCustomer asn)
  | .ATOMIC_AGGREGATE =>
    exactly .ATOMIC_AGGREGATE 0 "ATOMIC_AGGREGATE must be exactly 0 bytes" cur
      (.ok .AtomicAggregate)
  | .AGGREGATOR => decode_aggregator four_byte_asn cur
  | .COMMUNITY => multiple_of .COMMUNITY 4 "COMMUNITY length must be a multiple of 4" cur do
      let communities ← Reader.read_all read_u32 cur
      pure (.Communities communities)
  | .ORIGINATOR_ID => exactly .ORIGINATOR_ID 4 "ORIGINATOR_ID must be exactly 4 bytes" cur do
      let (id, _) ← read_ipv4addr cur
      pure (.OriginatorId id)
  | .CLUSTER_LIST =>
    multiple_of .CLUSTER_LIST 4 "CLUSTER_LIST length must be a multiple of 4" cur do
      let ids ← Reader.read_all read_u32 cur
      pure (.ClusterList ids)
  | .MP_REACH_NLRI => decode_mp_reach cur
  | .MP_UNREACH_NLRI => decode_mp_unreach cur
  | .EXTENDED_COMMUNITIES =>
    multiple_of .EXTENDED_COMMUNITIES 8 "EXTENDED_COMMUNITIES length must be a multiple of 8" cur do
      let ecs ← Reader.read_all read_extended_community cur
      pure (.ExtendedCommunities ecs)
  | .AS4_PATH => do
      let segments ← decode_as_path_segments cur
      pure (.As4Path ⟨segments⟩)
  | .AS4_AGGREGATOR =>
    exactly .AS4_AGGREGATOR 8 "AS4_AGGREGATOR must be exactly 8 bytes" cur do
      let (asn, cur) ← read_u32 cur
      let (bgp_id, _) ← read_ipv4addr cur
      pure (.As4Aggregator asn bgp_id)
  | .LARGE_COMMUNITY =>
    multiple_of .LARGE_COMMUNITY 12 "LARGE_COMMUNITY length must be a multiple of 12" cur do
      let lcs ← Reader.read_all read_large_community cur
      pure (.LargeCommunities lcs)

def decode_attr_value (flags type_code : UInt8) (cur : List UInt8) (four_byte_asn : Bool) :
    Except CodecError PathAttribute :=
  match AttrType.of_code type_code with
  | some k => decode_known_value four_byte_asn cur k
  | none => .ok (.Unknown flags type_code cur)

/-! ## The attribute block -/

/-- An attribute as it stands on the wire. -/
structure Tlv where
  flags : UInt8
  type_code : UInt8
  value : List UInt8
  deriving DecidableEq

namespace Tlv

/-- The length field has two octets. -/
def extended (t : Tlv) : Bool := t.flags &&& FLAG_EXT_LEN != 0

def optional (t : Tlv) : Bool := t.flags &&& FLAG_OPTIONAL != 0

def transitive (t : Tlv) : Bool := t.flags &&& FLAG_TRANSITIVE != 0

/-- The length field, in one octet or in two. -/
def len_bytes (t : Tlv) : List UInt8 :=
  if t.extended then be_bytes 2 t.value.length else [UInt8.ofNat t.value.length]

/-- The octets of the attribute. -/
def bytes (t : Tlv) : List UInt8 := t.flags :: t.type_code :: t.len_bytes ++ t.value

/-- The value is no longer than its length field can say. -/
def Complete (t : Tlv) : Prop := t.value.length ≤ if t.extended then 65535 else 255

instance (t : Tlv) : Decidable t.Complete := inferInstanceAs (Decidable (_ ≤ _))

end Tlv

/-- The length field of an attribute. -/
def read_len (flags : UInt8) (cur : List UInt8) : Except CodecError (ℕ × List UInt8) :=
  if flags &&& FLAG_EXT_LEN != 0 then do
    let (len, cur) ← read_u16 cur
    pure (len.toNat, cur)
  else do
    let (len, cur) ← read_u8 cur
    pure (len.toNat, cur)

/-- The structural part of one round of `decode_path_attributes`. -/
def read_attribute (cur : List UInt8) : Except CodecError (Tlv × List UInt8) := do
  let (flags, cur) ← read_u8 cur
  let (type_code, cur) ← read_u8 cur
  let (len, cur) ← read_len flags cur
  let (val, cur) ← read_bytes len cur
  pure (⟨flags, type_code, val⟩, cur)

/-- The error for an attribute that was there before (RFC 7606 section 3(g)). -/
def duplicate_error (type_code : UInt8) : AttributeError where
  type_code := type_code
  policy :=
    if type_code = AttrType.MP_REACH_NLRI.code ∨ type_code = AttrType.MP_UNREACH_NLRI.code then
      .SessionReset (.UpdateMessage .MalformedAttributeList) []
    else .AttributeDiscard
  detail := "duplicate attribute type code"

/-- The error for an unknown attribute that claims to be well known; it is sent back whole. -/
def unrecognized_error (t : Tlv) : AttributeError where
  type_code := t.type_code
  policy := .SessionReset (.UpdateMessage .UnrecognizedWellKnownAttribute)
    (t.type_code
      :: (if t.extended then be_bytes 2 (min t.value.length 65535)
        else [UInt8.ofNat t.value.length])
      ++ t.value)
  detail := "unrecognized well-known attribute (Optional bit not set)"

/-- The error for wrong Optional or Transitive bits (RFC 7606 section 3(c)). -/
def flags_error (type_code : UInt8) : AttributeError where
  type_code := type_code
  policy := .TreatAsWithdraw
  detail := "attribute flags conflict (Optional or Transitive bit)"

/-- The error for a value that does not decode. -/
def value_error (type_code : UInt8) (e : CodecError) : AttributeError where
  type_code := type_code
  policy := rfc7606_policy type_code
  detail := error_detail e

/-- What a round makes of the attribute it has read; `seen` says whether its type code was there
before. -/
def outcome (four_byte_asn seen : Bool) (t : Tlv) : Except AttributeError PathAttribute :=
  if seen then .error (duplicate_error t.type_code)
  else
    let decoded := (decode_attr_value t.flags t.type_code t.value four_byte_asn).mapError
      (value_error t.type_code)
    match expected_optional_transitive t.type_code with
    | some (expect_optional, expect_transitive) =>
      if t.optional ≠ expect_optional ∨ t.transitive ≠ expect_transitive then
        .error (flags_error t.type_code)
      else decoded
    | none => if t.optional then decoded else .error (unrecognized_error t)

/-- The variables of the loop of `decode_path_attributes`. -/
structure AttrState where
  attrs : List PathAttribute
  errors : List AttributeError
  seen : List UInt8
  deriving DecidableEq

def AttrState.new : AttrState := ⟨[], [], []⟩

/-- The rest of a round. -/
def take_attribute (four_byte_asn : Bool) (st : AttrState) (t : Tlv) : AttrState :=
  match outcome four_byte_asn (st.seen.contains t.type_code) t with
  | .ok a => ⟨st.attrs ++ [a], st.errors, t.type_code :: st.seen⟩
  | .error e => ⟨st.attrs, st.errors ++ [e], t.type_code :: st.seen⟩

def decode_path_attributes (cur : List UInt8) (four_byte_asn : Bool) :
    Except CodecError (List PathAttribute × List AttributeError) :=
  (Reader.drain
    (fun st cur => (read_attribute cur).map fun r => (take_attribute four_byte_asn st r.1, r.2))
    cur.length AttrState.new cur).map fun st => (st.attrs, st.errors)

end Wire

end Pathvector
