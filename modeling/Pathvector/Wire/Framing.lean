/-
# The shape of a message

What a message that decodes looks like: a header, and in an UPDATE the three fields of the body.
Decoding a message of that shape is decoding its fields.
-/
import Pathvector.Wire.Messages

set_option autoImplicit false

namespace Pathvector.Wire

variable {max_len : ℕ} {four_byte_asn : Bool} {msg_type : MessageType} {buf cur body : List UInt8}
  {total_len : UInt16} {msg : BgpMessage}

/-! ## Headers -/

theorem MessageType.from_u8_eq_ok {v : UInt8} {k : MessageType}
    (h : MessageType.from_u8 v = .ok k) : v = k.as_u8 := by
  unfold from_u8 at h
  repeat' split at h
  all_goals
    cases h
    try assumption

@[simp]
theorem MessageType.from_u8_as_u8 (k : MessageType) : from_u8 k.as_u8 = .ok k := by
  cases k <;> rfl

theorem length_encode_header (msg_type : MessageType) (n : ℕ) :
    (encode_header msg_type n).length = HEADER_LEN := rfl

theorem length_with_header (msg_type : MessageType) (body : List UInt8) :
    (with_header msg_type body).length = HEADER_LEN + body.length := by
  rw [with_header, List.length_append, length_encode_header]

theorem decode_header_encode_header (hmax : HEADER_LEN + body.length ≤ max_len)
    (hfits : HEADER_LEN + body.length < 65536) :
    decode_header (with_header msg_type body) max_len =
      .ok ((msg_type, UInt16.ofNat (HEADER_LEN + body.length)), body) := by
  have hlen : (UInt16.ofNat (HEADER_LEN + body.length)).toNat = HEADER_LEN + body.length := by
    rw [UInt16.toNat_ofNat', Nat.mod_eq_of_lt hfits]
  have hread := read_u16_be_bytes (UInt16.ofNat (HEADER_LEN + body.length)) (msg_type.as_u8 :: body)
  rw [hlen] at hread
  have hshape : with_header msg_type body =
      MARKER ++ (be_bytes 2 (HEADER_LEN + body.length) ++ msg_type.as_u8 :: body) := by
    simp only [with_header, encode_header, List.append_assoc, List.singleton_append]
  have hmarker : MARKER.length = 16 := rfl
  unfold decode_header
  rw [hshape, read_bytes_append hmarker, Reader.ok_bind]
  dsimp only
  rw [if_neg (by simp), hread, Reader.ok_bind]
  dsimp only
  rw [if_neg (by omega), read_u8_cons, Reader.ok_bind]
  rw [MessageType.from_u8_as_u8]
  rfl

theorem decode_header_eq_ok (h : decode_header buf max_len = .ok ((msg_type, total_len), cur)) :
    total_len.toNat ≤ max_len
      ∧ buf = MARKER ++ be_bytes 2 total_len.toNat ++ msg_type.as_u8 :: cur := by
  obtain ⟨⟨marker, c1⟩, hmarker, h1⟩ := Reader.bind_eq_ok.1 h
  obtain ⟨rfl, -⟩ := read_bytes_eq_ok hmarker
  dsimp only at h1
  split at h1
  · cases h1
  · rename_i hm
    obtain ⟨⟨len, c2⟩, hlen, h2⟩ := Reader.bind_eq_ok.1 h1
    obtain rfl := read_u16_eq_ok hlen
    split at h2
    · cases h2
    · obtain ⟨⟨v, c3⟩, hv, h3⟩ := Reader.bind_eq_ok.1 h2
      obtain rfl := read_u8_eq_ok hv
      obtain ⟨k, hk, h4⟩ := Reader.bind_eq_ok.1 h3
      cases h4
      obtain rfl := MessageType.from_u8_eq_ok hk
      rw [not_not] at hm
      refine ⟨by omega, ?_⟩
      rw [hm, List.append_assoc]

theorem decode_with_header (four_byte_asn : Bool) (hmax : HEADER_LEN + body.length ≤ max_len)
    (hfits : HEADER_LEN + body.length < 65536) :
    BgpMessage.decode_with_limit_and_caps (with_header msg_type body) max_len four_byte_asn =
      BgpMessage.decode_body four_byte_asn (UInt16.ofNat (HEADER_LEN + body.length)) body
        msg_type := by
  have hlen : (UInt16.ofNat (HEADER_LEN + body.length)).toNat = HEADER_LEN + body.length := by
    rw [UInt16.toNat_ofNat', Nat.mod_eq_of_lt hfits]
  unfold BgpMessage.decode_with_limit_and_caps
  rw [decode_header_encode_header hmax hfits, Reader.ok_bind]
  dsimp only
  rw [if_neg]
  rw [length_with_header, hlen, not_not]

theorem eq_with_header
    (h : BgpMessage.decode_with_limit_and_caps buf max_len four_byte_asn = .ok msg) :
    ∃ msg_type body, buf = with_header msg_type body ∧ HEADER_LEN + body.length ≤ max_len
      ∧ HEADER_LEN + body.length < 65536 := by
  obtain ⟨⟨⟨msg_type, total_len⟩, cur⟩, hheader, hbody⟩ := Reader.bind_eq_ok.1 h
  obtain ⟨hmax, hbuf⟩ := decode_header_eq_ok hheader
  dsimp only at hbody
  split at hbody
  · cases hbody
  · rename_i hlen
    rw [not_not, hbuf] at hlen
    simp only [List.length_append, List.length_cons, length_be_bytes] at hlen
    have hmarker : MARKER.length = 16 := rfl
    have hlt := total_len.toNat_lt
    have htotal : total_len.toNat = HEADER_LEN + cur.length := by
      unfold HEADER_LEN
      omega
    refine ⟨msg_type, cur, ?_, by omega, by omega⟩
    rw [hbuf, htotal]
    simp only [with_header, encode_header, List.append_assoc, List.singleton_append]

theorem to_end_eq_ok {msg' : BgpMessage} (h : BgpMessage.to_end total_len msg cur = .ok msg') :
    msg = msg' := by
  unfold BgpMessage.to_end at h
  split at h
  · exact Except.ok.inj h
  · cases h

/-! ## UPDATE bodies -/

/-- The three fields of an UPDATE, as octets. -/
structure Body where
  wd : List UInt8
  attrs : List UInt8
  ann : List UInt8
  deriving DecidableEq

variable {b : Body}

namespace Body

/-- The length fields can say how long the first two fields are. -/
def Fits (b : Body) : Prop := b.wd.length < 65536 ∧ b.attrs.length < 65536

def bytes (b : Body) : List UInt8 :=
  be_bytes 2 b.wd.length ++ b.wd ++ (be_bytes 2 b.attrs.length ++ b.attrs) ++ b.ann

/-- Decoding the fields. -/
def decode (b : Body) (four_byte_asn : Bool) : Except CodecError UpdateDecodeOutcome := do
  let withdrawn ← decode_nlri_list_v4 b.wd
  let (attributes, attr_errors) ← decode_path_attributes b.attrs four_byte_asn
  let announced ← decode_nlri_list_v4 b.ann
  pure (UpdateMessage.classify ⟨withdrawn, attributes, announced⟩ attr_errors)

theorem length_bytes (b : Body) :
    b.bytes.length = 4 + b.wd.length + b.attrs.length + b.ann.length := by
  simp only [bytes, List.length_append, length_be_bytes]
  omega

end Body

theorem read_field {bs : List UInt8} (hbs : bs.length < 65536) (rest : List UInt8) :
    read_u16 (be_bytes 2 bs.length ++ (bs ++ rest)) =
      .ok (UInt16.ofNat bs.length, bs ++ rest)
      ∧ read_bytes (UInt16.ofNat bs.length).toNat (bs ++ rest) = .ok (bs, rest) := by
  have hlen : (UInt16.ofNat bs.length).toNat = bs.length := by
    rw [UInt16.toNat_ofNat', Nat.mod_eq_of_lt hbs]
  have hread := read_u16_be_bytes (UInt16.ofNat bs.length) (bs ++ rest)
  rw [hlen] at hread
  exact ⟨hread, read_bytes_append hlen.symm rest⟩

theorem decode_body_bytes (hb : b.Fits) (four_byte_asn : Bool) :
    UpdateMessage.decode b.bytes four_byte_asn = b.decode four_byte_asn := by
  obtain ⟨hwd, hattrs⟩ := hb
  have hshape : b.bytes = be_bytes 2 b.wd.length
      ++ (b.wd ++ (be_bytes 2 b.attrs.length ++ (b.attrs ++ b.ann))) := by
    simp only [Body.bytes, List.append_assoc]
  obtain ⟨hlen1, hfield1⟩ := read_field hwd (be_bytes 2 b.attrs.length ++ (b.attrs ++ b.ann))
  obtain ⟨hlen2, hfield2⟩ := read_field hattrs b.ann
  unfold UpdateMessage.decode Body.decode
  rw [hshape, hlen1, Reader.ok_bind]
  dsimp only
  rw [hfield1, Reader.ok_bind]
  cases decode_nlri_list_v4 b.wd with
  | error e => rfl
  | ok withdrawn =>
    rw [Reader.ok_bind, Reader.ok_bind, hlen2, Reader.ok_bind]
    rw [hfield2, Reader.ok_bind]

theorem eq_body_bytes {out : UpdateDecodeOutcome}
    (h : UpdateMessage.decode cur four_byte_asn = .ok out) :
    ∃ b : Body, b.Fits ∧ cur = b.bytes := by
  obtain ⟨⟨wlen, c1⟩, hwlen, h1⟩ := Reader.bind_eq_ok.1 h
  obtain ⟨⟨wd, c2⟩, hwd, h2⟩ := Reader.bind_eq_ok.1 h1
  obtain ⟨withdrawn, -, h3⟩ := Reader.bind_eq_ok.1 h2
  obtain ⟨⟨alen, c3⟩, halen, h4⟩ := Reader.bind_eq_ok.1 h3
  obtain ⟨⟨attrs, ann⟩, hattrs, -⟩ := Reader.bind_eq_ok.1 h4
  obtain ⟨rfl, hattrslen⟩ := read_bytes_eq_ok hattrs
  obtain rfl := read_u16_eq_ok halen
  obtain ⟨rfl, hwdlen⟩ := read_bytes_eq_ok hwd
  obtain rfl := read_u16_eq_ok hwlen
  have hw := wlen.toNat_lt
  have ha := alen.toNat_lt
  refine ⟨⟨wd, attrs, ann⟩, ⟨?_, ?_⟩, ?_⟩
  · dsimp only
    omega
  · dsimp only
    omega
  · rw [Body.bytes, hwdlen, hattrslen]
    simp only [List.append_assoc]

/-- A message that decodes to an UPDATE, sound or not, is three fields behind a header. -/
theorem update_frame (out : UpdateDecodeOutcome)
    (h : BgpMessage.decode_with_limit_and_caps buf max_len four_byte_asn
      = .ok (BgpMessage.of_update out)) :
    ∃ b : Body, b.Fits ∧ buf = with_header .Update b.bytes ∧ HEADER_LEN + b.bytes.length ≤ max_len
      ∧ HEADER_LEN + b.bytes.length < 65536
      ∧ ∃ u, b.decode four_byte_asn = .ok u ∧
        BgpMessage.of_update u = BgpMessage.of_update out := by
  obtain ⟨msg_type, body, rfl, hmax, hfits⟩ := eq_with_header h
  rw [decode_with_header four_byte_asn hmax hfits] at h
  cases msg_type with
  | Update =>
    obtain ⟨u, hu, heq⟩ := Reader.bind_eq_ok.1 h
    obtain ⟨b, hb, rfl⟩ := eq_body_bytes hu
    rw [decode_body_bytes hb] at hu
    exact ⟨b, hb, rfl, hmax, hfits, u, hu, Except.ok.inj heq⟩
  | Open =>
    obtain ⟨⟨m, cur⟩, -, hend⟩ := Reader.bind_eq_ok.1 h
    exact absurd (to_end_eq_ok hend) (by cases out <;> simp [BgpMessage.of_update])
  | Notification =>
    obtain ⟨m, -, heq⟩ := Reader.bind_eq_ok.1 h
    exact absurd (Except.ok.inj heq) (by cases out <;> simp [BgpMessage.of_update])
  | Keepalive => exact absurd (to_end_eq_ok h) (by cases out <;> simp [BgpMessage.of_update])
  | RouteRefresh =>
    obtain ⟨⟨m, cur⟩, -, hend⟩ := Reader.bind_eq_ok.1 h
    exact absurd (to_end_eq_ok hend) (by cases out <;> simp [BgpMessage.of_update])

theorem decode_update_frame (hb : b.Fits) (four_byte_asn : Bool)
    (hmax : HEADER_LEN + b.bytes.length ≤ max_len) (hfits : HEADER_LEN + b.bytes.length < 65536) :
    BgpMessage.decode_with_limit_and_caps (with_header .Update b.bytes) max_len four_byte_asn =
      (b.decode four_byte_asn).map BgpMessage.of_update := by
  rw [decode_with_header four_byte_asn hmax hfits, BgpMessage.decode_body, decode_body_bytes hb]
  cases b.decode four_byte_asn with
  | error e => rfl
  | ok u => rfl

theorem decode_eq_clean {m : UpdateMessage} :
    b.decode four_byte_asn = .ok (.Clean m) ↔
      decode_nlri_list_v4 b.wd = .ok m.withdrawn
        ∧ decode_path_attributes b.attrs four_byte_asn = .ok (m.attributes, [])
        ∧ decode_nlri_list_v4 b.ann = .ok m.announced := by
  constructor
  · intro h
    obtain ⟨withdrawn, hw, h1⟩ := Reader.bind_eq_ok.1 h
    obtain ⟨⟨attributes, errors⟩, ha, h2⟩ := Reader.bind_eq_ok.1 h1
    obtain ⟨announced, hn, h3⟩ := Reader.bind_eq_ok.1 h2
    have hclass := Except.ok.inj h3
    unfold UpdateMessage.classify at hclass
    split at hclass
    · rename_i hempty
      cases hclass
      rw [List.isEmpty_iff] at hempty
      exact ⟨hw, hempty ▸ ha, hn⟩
    · cases hclass
  · rintro ⟨hw, ha, hn⟩
    rw [Body.decode, hw, ha, hn]
    rfl

end Pathvector.Wire
