/-
# Messages on the wire

`BgpMessage::decode_with_limit_and_caps` and `BgpMessage::encode`
(`pathvector-session/src/message/`), with the bodies of the five message types, and the framing of
`BgpCodec` (`framing/mod.rs`) that cuts the byte stream into messages.
-/
import Pathvector.Wire.Attributes

set_option autoImplicit false

namespace Pathvector

/-- `Role::from_wire_value`. -/
def Role.from_wire_value (v : UInt8) : Option Role :=
  if v = 0 then some .Provider
  else if v = 1 then some .RouteServer
  else if v = 2 then some .RsClient
  else if v = 3 then some .Customer
  else if v = 4 then some .Peer
  else none

namespace Wire

/-! ## Headers -/

inductive MessageType where
  | Open
  | Update
  | Notification
  | Keepalive
  | RouteRefresh
  deriving DecidableEq, Repr

namespace MessageType

def as_u8 : MessageType → UInt8
  | Open => 1
  | Update => 2
  | Notification => 3
  | Keepalive => 4
  | RouteRefresh => 5

def from_u8 (v : UInt8) : Except CodecError MessageType :=
  if v = 1 then .ok Open
  else if v = 2 then .ok Update
  else if v = 3 then .ok Notification
  else if v = 4 then .ok Keepalive
  else if v = 5 then .ok RouteRefresh
  else .error (.UnknownMessageType v)

end MessageType

def MARKER : List UInt8 := List.replicate 16 0xFF

def HEADER_LEN : ℕ := 19

def decode_header (cur : List UInt8) (max_len : ℕ) :
    Except CodecError ((MessageType × UInt16) × List UInt8) := do
  let (marker, cur) ← read_bytes 16 cur
  if marker ≠ MARKER then .error .InvalidMarker
  else
    let (length, cur) ← read_u16 cur
    if length.toNat < HEADER_LEN ∨ max_len < length.toNat then .error (.InvalidLength length)
    else
      let (v, cur) ← read_u8 cur
      let msg_type ← MessageType.from_u8 v
      pure ((msg_type, length), cur)

/-- `encode_header`; the length field is two octets. -/
def encode_header (msg_type : MessageType) (body_len : ℕ) : List UInt8 :=
  MARKER ++ be_bytes 2 (HEADER_LEN + body_len) ++ [msg_type.as_u8]

/-- The message with the given body. -/
def with_header (msg_type : MessageType) (body : List UInt8) : List UInt8 :=
  encode_header msg_type body.length ++ body

/-! ## OPEN -/

def OPT_PARAM_CAPABILITIES : UInt8 := 2

/-- The families of a Graceful Restart capability: `while cur.remaining() >= 4`. -/
def decode_gr_families : List UInt8 → List GracefulRestartFamily
  | a :: b :: safi :: fwd_flags :: cur =>
    ⟨⟨UInt16.ofNat (be_value [a, b]), safi⟩, fwd_flags &&& 0x80 != 0⟩ :: decode_gr_families cur
  | _ => []

/-- A capability whose value has to have at least `n` octets. -/
def at_least (code : UInt8) (n : ℕ) (cur : List UInt8) (body : Except CodecError Capability) :
    Except CodecError Capability :=
  if cur.length < n then .error (.InvalidCapability code) else body

def decode_capability (code : UInt8) (cur : List UInt8) : Except CodecError Capability :=
  if code = 1 then at_least code 4 cur do
    let (afi, cur) ← read_u16 cur
    let (_reserved, cur) ← read_u8 cur
    let (safi, _) ← read_u8 cur
    pure (.MultiProtocol ⟨afi, safi⟩)
  else if code = 2 then .ok .RouteRefresh
  else if code = 9 then at_least code 1 cur do
    let (value, _) ← read_u8 cur
    match Role.from_wire_value value with
    | some role => pure (.Role role)
    | none => pure (.Unknown code [value])
  else if code = 6 then .ok .ExtendedMessage
  else if code = 65 then at_least code 4 cur do
    let (asn, _) ← read_u32 cur
    pure (.FourByteAsn asn)
  else if code = 64 then at_least code 2 cur do
    let (flags_time, cur) ← read_u16 cur
    pure (.GracefulRestart (flags_time >>> 12).toUInt8 (flags_time &&& 0x0FFF)
      (decode_gr_families cur))
  else .ok (.Unknown code cur)

/-- One capability of an optional parameter. -/
def read_capability (cur : List UInt8) : Except CodecError (Capability × List UInt8) := do
  let (cap_code, cur) ← read_u8 cur
  let (cap_len, cur) ← read_u8 cur
  let (cap_cur, cur) ← read_bytes cap_len.toNat cur
  let cap ← decode_capability cap_code cap_cur
  pure (cap, cur)

/-- One optional parameter. -/
def read_parameter (cur : List UInt8) : Except CodecError (List Capability × List UInt8) := do
  let (param_type, cur) ← read_u8 cur
  let (param_len, cur) ← read_u8 cur
  let (param_cur, cur) ← read_bytes param_len.toNat cur
  if param_type ≠ OPT_PARAM_CAPABILITIES then .error (.UnsupportedOptionalParameter param_type)
  else
    let caps ← Reader.read_all read_capability param_cur
    pure (caps, cur)

def decode_capabilities (opt_cur : List UInt8) : Except CodecError (List Capability) :=
  (Reader.read_all read_parameter opt_cur).map List.flatten

/-- `encode_capabilities`; the length field is one octet. -/
def encode_capabilities (caps : List Capability) : List UInt8 :=
  caps.flatMap fun cap =>
    cap.code :: UInt8.ofNat (encode_capability_value cap).length :: encode_capability_value cap

end Wire

namespace OpenMessage

open Wire

/-- `OpenMessage::decode`. -/
def decode (cur : List UInt8) : Except Wire.CodecError (OpenMessage × List UInt8) := do
  let (version, cur) ← read_u8 cur
  if version ≠ 4 then .error (.UnsupportedVersion version)
  else
    let (my_as, cur) ← read_u16 cur
    let (hold_time, cur) ← read_u16 cur
    let (bgp_id, cur) ← read_ipv4addr cur
    let (opt_len, cur) ← read_u8 cur
    let (opt_cur, cur) ← read_bytes opt_len.toNat cur
    let capabilities ← decode_capabilities opt_cur
    pure (⟨version, my_as, hold_time, bgp_id, capabilities⟩, cur)

/-- The optional parameters of `OpenMessage::encode`: one, or none. -/
def encode_opt_params (m : OpenMessage) : List UInt8 :=
  let caps_bytes := encode_capabilities m.capabilities
  if caps_bytes.isEmpty then []
  else OPT_PARAM_CAPABILITIES :: UInt8.ofNat caps_bytes.length :: caps_bytes

/-- `OpenMessage::encode`. -/
def encode (m : OpenMessage) : List UInt8 :=
  with_header .Open
    (4 :: be_bytes 2 m.my_as.toNat ++ be_bytes 2 m.hold_time.toNat ++ m.bgp_id.octets
      ++ UInt8.ofNat m.encode_opt_params.length :: m.encode_opt_params)

end OpenMessage

/-! ## NOTIFICATION -/

/-- `MsgHeaderError::from_u8`. -/
def MsgHeaderError.from_u8 (v : UInt8) : MsgHeaderError :=
  if v = 1 then .ConnectionNotSynchronized
  else if v = 2 then .BadMessageLength
  else if v = 3 then .BadMessageType
  else .Unknown v

def MsgHeaderError.as_u8 : MsgHeaderError → UInt8
  | .ConnectionNotSynchronized => 1
  | .BadMessageLength => 2
  | .BadMessageType => 3
  | .Unknown v => v

/-- `OpenMsgError::from_u8`. -/
def OpenMsgError.from_u8 (v : UInt8) : OpenMsgError :=
  if v = 1 then .UnsupportedVersionNumber
  else if v = 2 then .BadPeerAs
  else if v = 3 then .BadBgpIdentifier
  else if v = 4 then .UnsupportedOptionalParameter
  else if v = 6 then .UnacceptableHoldTime
  else if v = 7 then .UnsupportedCapability
  else if v = 11 then .RoleMismatch
  else .Unknown v

def OpenMsgError.as_u8 : OpenMsgError → UInt8
  | .UnsupportedVersionNumber => 1
  | .BadPeerAs => 2
  | .BadBgpIdentifier => 3
  | .UnsupportedOptionalParameter => 4
  | .UnacceptableHoldTime => 6
  | .UnsupportedCapability => 7
  | .RoleMismatch => 11
  | .Unknown v => v

/-- `UpdateMsgError::from_u8`. -/
def UpdateMsgError.from_u8 (v : UInt8) : UpdateMsgError :=
  if v = 1 then .MalformedAttributeList
  else if v = 2 then .UnrecognizedWellKnownAttribute
  else if v = 3 then .MissingWellKnownAttribute
  else if v = 4 then .AttributeFlagsError
  else if v = 5 then .AttributeLengthError
  else if v = 6 then .InvalidOriginAttribute
  else if v = 8 then .InvalidNextHopAttribute
  else if v = 9 then .OptionalAttributeError
  else if v = 10 then .InvalidNetworkField
  else if v = 11 then .MalformedAsPath
  else .Unknown v

def UpdateMsgError.as_u8 : UpdateMsgError → UInt8
  | .MalformedAttributeList => 1
  | .UnrecognizedWellKnownAttribute => 2
  | .MissingWellKnownAttribute => 3
  | .AttributeFlagsError => 4
  | .AttributeLengthError => 5
  | .InvalidOriginAttribute => 6
  | .InvalidNextHopAttribute => 8
  | .OptionalAttributeError => 9
  | .InvalidNetworkField => 10
  | .MalformedAsPath => 11
  | .Unknown v => v

/-- `CeaseError::from_u8`. -/
def CeaseError.from_u8 (v : UInt8) : CeaseError :=
  if v = 1 then .MaximumNumberOfPrefixesReached
  else if v = 2 then .AdministrativeShutdown
  else if v = 3 then .PeerDeconfigured
  else if v = 4 then .AdministrativeReset
  else if v = 5 then .ConnectionRejected
  else if v = 6 then .OtherConfigurationChange
  else if v = 7 then .ConnectionCollisionResolution
  else if v = 8 then .OutOfResources
  else if v = 9 then .HardReset
  else if v = 10 then .BfdDown
  else .Unknown v

def CeaseError.as_u8 : CeaseError → UInt8
  | .MaximumNumberOfPrefixesReached => 1
  | .AdministrativeShutdown => 2
  | .PeerDeconfigured => 3
  | .AdministrativeReset => 4
  | .ConnectionRejected => 5
  | .OtherConfigurationChange => 6
  | .ConnectionCollisionResolution => 7
  | .OutOfResources => 8
  | .HardReset => 9
  | .BfdDown => 10
  | .Unknown v => v

namespace NotificationError

/-- `NotificationError::from_codes`. -/
def from_codes (code subcode : UInt8) : NotificationError :=
  if code = 1 then .MessageHeader (.from_u8 subcode)
  else if code = 2 then .OpenMessage (.from_u8 subcode)
  else if code = 3 then .UpdateMessage (.from_u8 subcode)
  else if code = 4 then .HoldTimerExpired
  else if code = 5 then
    if subcode = 1 then .FsmErrorOpenSent
    else if subcode = 2 then .FsmErrorOpenConfirm
    else if subcode = 3 then .FsmErrorEstablished
    else .FsmError
  else if code = 6 then .Cease (.from_u8 subcode)
  else .Unknown code subcode

/-- `NotificationError::as_codes`. -/
def as_codes : NotificationError → UInt8 × UInt8
  | .MessageHeader s => (1, s.as_u8)
  | .OpenMessage s => (2, s.as_u8)
  | .UpdateMessage s => (3, s.as_u8)
  | .HoldTimerExpired => (4, 0)
  | .FsmError => (5, 0)
  | .FsmErrorOpenSent => (5, 1)
  | .FsmErrorOpenConfirm => (5, 2)
  | .FsmErrorEstablished => (5, 3)
  | .Cease s => (6, s.as_u8)
  | .Unknown code subcode => (code, subcode)

end NotificationError

namespace NotificationMessage

open Wire

/-- `NotificationMessage::decode`. -/
def decode (cur : List UInt8) : Except Wire.CodecError NotificationMessage := do
  let (code, cur) ← read_u8 cur
  let (subcode, data) ← read_u8 cur
  pure ⟨.from_codes code subcode, data⟩

/-- `NotificationMessage::encode`. -/
def encode (m : NotificationMessage) : List UInt8 :=
  with_header .Notification (m.error.as_codes.1 :: m.error.as_codes.2 :: m.data)

end NotificationMessage

/-! ## ROUTE-REFRESH -/

/-- `RouteRefreshSubtype::from_u8`. -/
def RouteRefreshSubtype.from_u8 (v : UInt8) : RouteRefreshSubtype :=
  if v = 0 then .Refresh else if v = 1 then .BeginRefresh else if v = 2 then .EndRefresh
  else .Unknown v

def RouteRefreshSubtype.as_u8 : RouteRefreshSubtype → UInt8
  | .Refresh => 0
  | .BeginRefresh => 1
  | .EndRefresh => 2
  | .Unknown v => v

namespace RouteRefreshMessage

open Wire

/-- `RouteRefreshMessage::decode`. -/
def decode (cur : List UInt8) : Except Wire.CodecError (RouteRefreshMessage × List UInt8) := do
  let (afi, cur) ← read_u16 cur
  let (subtype, cur) ← read_u8 cur
  let (safi, cur) ← read_u8 cur
  pure (⟨⟨afi, safi⟩, .from_u8 subtype⟩, cur)

/-- `RouteRefreshMessage::encode`. -/
def encode (m : RouteRefreshMessage) : List UInt8 :=
  with_header .RouteRefresh (be_bytes 2 m.afi_safi.afi.toNat ++ [m.subtype.as_u8, m.afi_safi.safi])

end RouteRefreshMessage

/-! ## UPDATE -/

namespace Wire

inductive UpdateDecodeOutcome where
  | Clean (update : UpdateMessage)
  | Partial (update : UpdateMessage) (errors : List AttributeError)
      (treat_as_withdraw session_reset : Bool)
  deriving DecidableEq

end Wire

/-- `matches!(policy, SessionReset { .. })`. -/
def AttributeErrorPolicy.is_session_reset : AttributeErrorPolicy → Bool
  | .SessionReset _ _ => true
  | _ => false

namespace UpdateMessage

open Wire

/-- The outcome of a decoded body. -/
def classify (update : UpdateMessage) (attr_errors : List AttributeError) : UpdateDecodeOutcome :=
  if attr_errors.isEmpty then .Clean update
  else .Partial update attr_errors (attr_errors.any fun e => e.policy == .TreatAsWithdraw)
    (attr_errors.any fun e => e.policy.is_session_reset)

/-- `UpdateMessage::decode`. -/
def decode (cur : List UInt8) (four_byte_asn : Bool) :
    Except Wire.CodecError UpdateDecodeOutcome := do
  let (withdrawn_len, cur) ← read_u16 cur
  let (wd_cur, cur) ← read_bytes withdrawn_len.toNat cur
  let withdrawn ← decode_nlri_list_v4 wd_cur
  let (attrs_len, cur) ← read_u16 cur
  let (attrs_cur, cur) ← read_bytes attrs_len.toNat cur
  let (attributes, attr_errors) ← decode_path_attributes attrs_cur four_byte_asn
  let announced ← decode_nlri_list_v4 cur
  pure (classify ⟨withdrawn, attributes, announced⟩ attr_errors)

/-- The body of an UPDATE. -/
def encode_body (m : UpdateMessage) : List UInt8 :=
  be_bytes 2 (encode_nlri_list_v4 m.withdrawn).length ++ encode_nlri_list_v4 m.withdrawn
    ++ (be_bytes 2 (encode_attributes m.attributes).length ++ encode_attributes m.attributes)
    ++ encode_nlri_list_v4 m.announced

/-- `UpdateMessage::encode`. -/
def encode (m : UpdateMessage) : List UInt8 := with_header .Update m.encode_body

end UpdateMessage

/-! ## Any message -/

namespace BgpMessage

open Wire

/-- The message a decoded UPDATE is. -/
def of_update : UpdateDecodeOutcome → BgpMessage
  | .Clean u => .Update u
  | .Partial update errors treat_as_withdraw session_reset =>
    .MalformedUpdate
      ⟨update, errors.map AttributeError.toAttributeDecodeError, treat_as_withdraw, session_reset⟩

/-- A body that has to be used up. -/
def to_end (total_len : UInt16) (msg : BgpMessage) (cur : List UInt8) :
    Except Wire.CodecError BgpMessage :=
  if cur.isEmpty then .ok msg else .error (.InvalidLength total_len)

/-- The body of a message, by its type. -/
def decode_body (four_byte_asn : Bool) (total_len : UInt16) (cur : List UInt8) :
    MessageType → Except Wire.CodecError BgpMessage
  | .Open => do
    let (m, cur) ← OpenMessage.decode cur
    to_end total_len (.Open m) cur
  | .Update => do
    let u ← UpdateMessage.decode cur four_byte_asn
    pure (of_update u)
  | .Notification => do
    let m ← NotificationMessage.decode cur
    pure (.Notification m)
  | .Keepalive => to_end total_len .Keepalive cur
  | .RouteRefresh => do
    let (m, cur) ← RouteRefreshMessage.decode cur
    to_end total_len (.RouteRefresh m) cur

/-- `BgpMessage::decode_with_limit_and_caps`. -/
def decode_with_limit_and_caps (buf : List UInt8) (max_len : ℕ) (four_byte_asn : Bool) :
    Except Wire.CodecError BgpMessage := do
  let ((msg_type, total_len), cur) ← decode_header buf max_len
  if buf.length ≠ total_len.toNat then .error (.InvalidLength total_len)
  else decode_body four_byte_asn total_len cur msg_type

/-- `BgpMessage::decode_with_limit`. -/
def decode_with_limit (buf : List UInt8) (max_len : ℕ) : Except Wire.CodecError BgpMessage :=
  decode_with_limit_and_caps buf max_len true

/-- `BgpMessage::decode`. -/
def decode (buf : List UInt8) : Except Wire.CodecError BgpMessage :=
  decode_with_limit buf MAX_LEN_EXTENDED

/-- `BgpMessage::encode`; a malformed UPDATE is never sent. -/
def encode : BgpMessage → Option (List UInt8)
  | .Open m => some m.encode
  | .Update m => some m.encode
  | .Notification m => some m.encode
  | .Keepalive => some (encode_header .Keepalive 0)
  | .RouteRefresh m => some m.encode
  | .MalformedUpdate _ => none

end BgpMessage

/-! ## Framing -/

namespace Wire

structure BgpCodec where
  max_msg_len : ℕ
  four_byte_asn_negotiated : Bool
  deriving DecidableEq

namespace BgpCodec

def new : BgpCodec := ⟨MAX_LEN, true⟩

end BgpCodec

end Wire

end Pathvector
