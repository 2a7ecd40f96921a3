/-
# Session vocabulary

What the session layer tells the daemon about a peer: the capabilities of an OPEN
message (`message/open.rs`), NOTIFICATION messages (`message/notification.rs`) and why
a session ended.
-/
import Pathvector.Types.Attr

set_option autoImplicit false

namespace Pathvector

structure GracefulRestartFamily where
  afi_safi : AfiSafi
  forwarding_preserved : Bool
  deriving DecidableEq, Repr

inductive Capability where
  | MultiProtocol (family : AfiSafi)
  | RouteRefresh
  | FourByteAsn (asn : UInt32)
  | Role (role : Role)
  | GracefulRestart (restart_flags : UInt8) (restart_time : UInt16)
      (families : List GracefulRestartFamily)
  | ExtendedMessage
  | Unknown (code : UInt8) (value : List UInt8)
  deriving DecidableEq, Repr

/-! ## NOTIFICATION messages -/

inductive MsgHeaderError where
  | ConnectionNotSynchronized
  | BadMessageLength
  | BadMessageType
  | Unknown (subcode : UInt8)
  deriving DecidableEq, Repr

inductive OpenMsgError where
  | UnsupportedVersionNumber
  | BadPeerAs
  | BadBgpIdentifier
  | UnsupportedOptionalParameter
  | UnacceptableHoldTime
  | UnsupportedCapability
  | RoleMismatch
  | Unknown (subcode : UInt8)
  deriving DecidableEq, Repr

inductive UpdateMsgError where
  | MalformedAttributeList
  | UnrecognizedWellKnownAttribute
  | MissingWellKnownAttribute
  | AttributeFlagsError
  | AttributeLengthError
  | InvalidOriginAttribute
  | InvalidNextHopAttribute
  | OptionalAttributeError
  | InvalidNetworkField
  | MalformedAsPath
  | Unknown (subcode : UInt8)
  deriving DecidableEq, Repr

inductive CeaseError where
  | MaximumNumberOfPrefixesReached
  | AdministrativeShutdown
  | PeerDeconfigured
  | AdministrativeReset
  | ConnectionRejected
  | OtherConfigurationChange
  | ConnectionCollisionResolution
  | OutOfResources
  | HardReset
  | BfdDown
  | Unknown (subcode : UInt8)
  deriving DecidableEq, Repr

inductive NotificationError where
  | MessageHeader (e : MsgHeaderError)
  | OpenMessage (e : OpenMsgError)
  | UpdateMessage (e : UpdateMsgError)
  | HoldTimerExpired
  | FsmError
  | FsmErrorOpenSent
  | FsmErrorOpenConfirm
  | FsmErrorEstablished
  | Cease (e : CeaseError)
  | Unknown (code subcode : UInt8)
  deriving DecidableEq, Repr

structure NotificationMessage where
  error : NotificationError
  data : List UInt8
  deriving DecidableEq, Repr

/-! ## Shutdown reasons

The reason of an administrative shutdown travels in the data of the NOTIFICATION. It is cut by
bytes when it is sent, and read as UTF-8 when it arrives. -/

/-- `encode_shutdown_message` (RFC 9003): a length octet and at most 128 bytes of the reason. -/
def encode_shutdown_message (msg : String) : List UInt8 :=
  let bytes := msg.toUTF8.data.toList
  let len := min bytes.length 128
  len.toUInt8 :: bytes.take len

/-- `decode_shutdown_message`. -/
def decode_shutdown_message : List UInt8 → Option String
  | [] => none
  | len :: rest => String.fromUTF8? ⟨(rest.take (min len.toNat rest.length)).toArray⟩

theorem decode_encode_shutdown (s : String) : decode_shutdown_message (encode_shutdown_message s)
    = String.fromUTF8? (s.toByteArray.extract 0 (min s.utf8ByteSize 128)) := by
  have hlen : s.toUTF8.data.toList.length = s.utf8ByteSize := rfl
  have hlt : min s.utf8ByteSize 128 < 256 := by omega
  have hbyte : (min s.utf8ByteSize 128).toUInt8.toNat = min s.utf8ByteSize 128 :=
    Nat.mod_eq_of_lt hlt
  simp only [encode_shutdown_message, decode_shutdown_message, hlen, List.length_take, hbyte]
  congr 1
  apply ByteArray.ext
  apply Array.toList_inj.1
  simp [List.take_take]

/-- The reason is read back as far as 128 bytes go, if that is whole characters. -/
theorem decode_encode_shutdown_iff {s t : String} :
    decode_shutdown_message (encode_shutdown_message s) = some t ↔
      (∃ u, t ++ u = s) ∧ t.utf8ByteSize = min s.utf8ByteSize 128 := by
  rw [decode_encode_shutdown, String.fromUTF8?]
  constructor
  · intro h
    split at h
    · next hv =>
      cases h
      have hle : min s.utf8ByteSize 128 ≤ s.utf8ByteSize := Nat.min_le_left ..
      have hcut : String.Pos.Raw.IsValid s ⟨min s.utf8ByteSize 128⟩ :=
        String.Pos.Raw.isValid_iff_isValidUTF8_extract_zero.2 ⟨hle, hv⟩
      refine ⟨⟨⟨_, hcut.isValidUTF8_extract_utf8ByteSize⟩, ?_⟩, ?_⟩
      · rw [← String.toByteArray_inj, String.toByteArray_append]
        simp only [String.fromUTF8]
        rw [ByteArray.extract_append_extract, Nat.min_eq_left (Nat.zero_le _),
          Nat.max_eq_right hle, ← String.size_toByteArray, ByteArray.extract_zero_size]
      · rw [← String.size_toByteArray]
        simp only [String.fromUTF8, ByteArray.size_extract, String.size_toByteArray]
        omega
    · cases h
  · rintro ⟨⟨u, rfl⟩, hsize⟩
    have hbytes : (t ++ u).toByteArray.extract 0 (min (t ++ u).utf8ByteSize 128)
        = t.toByteArray := by
      rw [← hsize, String.toByteArray_append, ← String.size_toByteArray,
        ByteArray.extract_append_eq_left rfl]
    rw [dif_pos (hbytes ▸ t.isValidUTF8)]
    exact congrArg some (String.toByteArray_inj.1 hbytes)

/-- What the receiver of a reason is to read: all of it, or as many whole characters from its
start as 128 bytes hold. -/
structure Shortened (s t : String) : Prop where
  front : ∃ u, t ++ u = s
  whole : s.utf8ByteSize ≤ 128 → t = s
  longest : 128 < s.utf8ByteSize → t.utf8ByteSize ≤ 128 ∧
    ∀ t' u, t' ++ u = s → t'.utf8ByteSize ≤ 128 → t'.utf8ByteSize ≤ t.utf8ByteSize

/-- **Shutdown reasons.** A reason arrives as it should if and only if it has at most 128 bytes,
or whole characters end at byte 128. -/
theorem shutdown_reason_iff (s : String) :
    (∃ t, decode_shutdown_message (encode_shutdown_message s) = some t ∧ Shortened s t) ↔
      s.utf8ByteSize ≤ 128 ∨ ∃ t u, t ++ u = s ∧ t.utf8ByteSize = 128 := by
  constructor
  · rintro ⟨t, hdec, -⟩
    obtain ⟨⟨u, hu⟩, hsize⟩ := decode_encode_shutdown_iff.1 hdec
    refine (Nat.lt_or_ge 128 s.utf8ByteSize).symm.imp_right fun hlong => ⟨t, u, hu, ?_⟩
    rw [hsize, Nat.min_eq_right (Nat.le_of_lt hlong)]
  · rintro (hshort | ⟨t, u, rfl, hsize⟩)
    · refine ⟨s, decode_encode_shutdown_iff.2 ⟨⟨"", String.append_empty⟩, ?_⟩,
        ⟨"", String.append_empty⟩, fun _ => rfl, fun hlong => absurd hshort (not_le.2 hlong)⟩
      rw [Nat.min_eq_left hshort]
    · have hlong : 128 ≤ (t ++ u).utf8ByteSize := by
        rw [String.utf8ByteSize_append]
        omega
      refine ⟨t, decode_encode_shutdown_iff.2 ⟨⟨u, rfl⟩, ?_⟩, ⟨u, rfl⟩, fun hshort => ?_,
        fun _ => ⟨hsize.le, fun t' _ _ h => hsize ▸ h⟩⟩
      · rw [hsize, Nat.min_eq_right hlong]
      · have hu : u.utf8ByteSize = 0 := by
          rw [String.utf8ByteSize_append] at hshort
          omega
        rw [String.utf8ByteSize_eq_zero_iff.1 hu, String.append_empty]

/-- 127 letters and one that takes two bytes. -/
def cut_reason : String := String.ofList (List.replicate 127 'a') ++ "é"

/-- The length of 128 cuts the last letter, and the receiver reads nothing. -/
theorem cut_reason_lost :
    cut_reason.utf8ByteSize = 129 ∧
      decode_shutdown_message (encode_shutdown_message cut_reason) = none := by
  decide +kernel

inductive TerminationReason where
  | Unclean
  | Notification (n : NotificationMessage)
  | OperatorStop
  deriving DecidableEq, Repr

end Pathvector
