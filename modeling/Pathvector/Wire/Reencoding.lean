/-
# Writing back what was read

What an UPDATE looks like when it is decoded and encoded again. Values come back octet for octet,
up to the reserved octet of MP_REACH_NLRI, the bits after a prefix and the prefixes of an unknown
family. Flags come back in the form the encoder knows for each attribute. An unknown attribute
keeps its own flags, the Extended Length bit too; the encoder chooses the width of the length
field by the length of the value alone, so the two can disagree.
-/
import Mathlib.Data.FinEnum
import Pathvector.Wire.Framing
import Pathvector.Wire.Isolation
import Pathvector.Wire.Paths

set_option autoImplicit false

namespace Pathvector.Wire

variable {a : PathAttribute} {cur rest v seen : List UInt8} {attrs : List PathAttribute}
  {k : AttrType} {body : Except CodecError PathAttribute} {t : Tlv} {ts : List Tlv}
  {four_byte_asn : Bool} {n : ℕ} {asns : List Asn} {detail : String} {ip : Ipv4Addr}
  {afi : UInt16}

/-! ## Values that come back octet for octet -/

theorem consumes_read_u32 : Reader.Consumes read_u32 put_u32 := fun _ _ _ h => read_u32_eq_ok h

theorem consumes_read_ipv4addr : Reader.Consumes read_ipv4addr Ipv4Addr.octets :=
  fun _ _ _ h => read_ipv4addr_eq_ok h

theorem put_u32_ne_nil (x : UInt32) : put_u32 x ≠ [] := by
  apply List.ne_nil_of_length_pos
  rw [length_put_u32]
  omega

theorem consumes_read_extended_community :
    Reader.Consumes read_extended_community fun ec => be_bytes 8 ec.bytes.toNat := by
  intro cur ec rest h
  obtain ⟨⟨bs, rest'⟩, hbs, heq⟩ := Reader.bind_eq_ok.1 h
  obtain ⟨rfl, hlen⟩ := read_bytes_eq_ok hbs
  cases heq
  dsimp only
  rw [UInt64.toNat_ofNat', be_bytes_value_mod hlen (by norm_num)]

theorem consumes_read_large_community :
    Reader.Consumes read_large_community fun lc =>
      put_u32 lc.global_administrator ++ put_u32 lc.local_data_1 ++ put_u32 lc.local_data_2 := by
  intro cur lc rest h
  obtain ⟨⟨ga, c1⟩, hga, h1⟩ := Reader.bind_eq_ok.1 h
  obtain ⟨⟨ld1, c2⟩, hld1, h2⟩ := Reader.bind_eq_ok.1 h1
  obtain ⟨⟨ld2, c3⟩, hld2, h3⟩ := Reader.bind_eq_ok.1 h2
  cases h3
  rw [read_u32_eq_ok hga, read_u32_eq_ok hld1, read_u32_eq_ok hld2, List.append_assoc,
    List.append_assoc]

/-! ## Each attribute's value -/

theorem exactly_eq_ok (h : exactly k n detail cur body = .ok a) :
    cur.length = n ∧ body = .ok a := by
  unfold exactly at h
  split at h
  · cases h
  · exact ⟨by omega, h⟩

theorem multiple_of_eq_ok (h : multiple_of k n detail cur body = .ok a) : body = .ok a := by
  unfold multiple_of at h
  split at h
  · cases h
  · exact h

theorem eq_put_u32 {x : UInt32} (hlen : cur.length = 4) (h : read_u32 cur = .ok (x, rest)) :
    put_u32 x = cur :=
  (consumes_read_u32.eq_write (hlen.trans (length_put_u32 x).symm) h).symm

theorem eq_octets (hlen : cur.length = 4) (h : read_ipv4addr cur = .ok (ip, rest)) :
    ip.octets = cur :=
  (consumes_read_ipv4addr.eq_write (hlen.trans (length_octets ip).symm) h).symm

theorem eq_put_u32_octets {c1 : List UInt8} {asn : UInt32} (hlen : cur.length = 8)
    (hasn : read_u32 cur = .ok (asn, c1)) (hip : read_ipv4addr c1 = .ok (ip, rest)) :
    put_u32 asn ++ ip.octets = cur := by
  have hcur := read_u32_eq_ok hasn
  have hc1 : c1.length = 4 := by
    rw [hcur, List.length_append, length_put_u32] at hlen
    omega
  rw [hcur, eq_octets hc1 hip]

theorem decode_next_hop_eq_ok {bytes : List UInt8} {nh : NextHop}
    (h : decode_next_hop afi bytes = .ok nh) : encode_next_hop nh = bytes := by
  unfold decode_next_hop at h
  split at h
  · rename_i hc
    cases h
    exact octets_ipv4_of_octets hc.2
  · split at h
    · rename_i hc
      cases h
      exact octets_ipv6_of_octets hc.2
    · split at h
      · rename_i hc
        cases h
        have htake : (bytes.take 16).length = 16 := by
          rw [List.length_take, hc.2]
          rfl
        have hdrop : (bytes.drop 16).length = 16 := by
          rw [List.length_drop, hc.2]
        rw [encode_next_hop, octets_ipv6_of_octets htake, octets_ipv6_of_octets hdrop,
          List.take_append_drop]
      · cases h

theorem flatMap_encode_prefix_v4 (ns : List (Nlri Ipv4Addr)) :
    (ns.map Prefix.V4).flatMap encode_prefix = ns.flatMap encode_nlri_v4 := by
  rw [List.flatMap_map]
  rfl

theorem flatMap_encode_prefix_v6 (ns : List (Nlri Ipv6Addr)) :
    (ns.map Prefix.V6).flatMap encode_prefix = ns.flatMap encode_nlri_v6 := by
  rw [List.flatMap_map]
  rfl

/-- The prefixes of a multiprotocol attribute, written in no more room and read back. -/
theorem rewrites_mp_nlri {prefixes : List Prefix} (h : decode_mp_nlri afi cur = .ok prefixes) :
    (prefixes.flatMap encode_prefix).length ≤ cur.length
      ∧ decode_mp_nlri afi (prefixes.flatMap encode_prefix) = .ok prefixes := by
  unfold decode_mp_nlri at h ⊢
  split at h
  · cases hns : decode_nlri_list_v4 cur with
    | error e =>
      rw [hns] at h
      cases h
    | ok ns =>
      rw [hns] at h
      cases h
      obtain ⟨hlen, hback⟩ := rewrites_nlri_list_v4 hns
      rw [if_pos ‹_›, flatMap_encode_prefix_v4]
      refine ⟨hlen, ?_⟩
      rw [encode_nlri_list_v4] at hback
      rw [hback]
      rfl
  · split at h
    · cases hns : decode_nlri_list_v6 cur with
      | error e =>
        rw [hns] at h
        cases h
      | ok ns =>
        rw [hns] at h
        cases h
        obtain ⟨hlen, hback⟩ := rewrites_nlri_v6.read_all shrinks_decode_nlri hns
        rw [if_neg ‹_›, if_pos ‹_›, flatMap_encode_prefix_v6]
        refine ⟨hlen, ?_⟩
        rw [decode_nlri_list_v6, hback]
        rfl
    · -- The prefixes of another family were skipped and are not written.
      cases h
      rw [if_neg ‹_›, if_neg ‹_›]
      exact ⟨Nat.zero_le _, rfl⟩

/-- The flags the encoder writes. -/
def AttrType.flags : AttrType → UInt8
  | .ORIGIN | .AS_PATH | .NEXT_HOP | .LOCAL_PREF | .ATOMIC_AGGREGATE => FLAGS_WKM
  | .MED | .ORIGINATOR_ID | .CLUSTER_LIST | .MP_REACH_NLRI | .MP_UNREACH_NLRI => FLAGS_ONT
  | .AGGREGATOR | .COMMUNITY | .EXTENDED_COMMUNITIES | .AS4_PATH | .AS4_AGGREGATOR
  | .LARGE_COMMUNITY | .ONLY_TO_CUSTOMER => FLAGS_OT

/-- The flags an unknown attribute is passed on with: an optional transitive one is partial. -/
def partial_flags (flags : UInt8) : UInt8 :=
  if flags &&& FLAG_OPTIONAL != 0 && flags &&& FLAG_TRANSITIVE != 0 then flags ||| FLAG_PARTIAL
  else flags

/-- The Partial bit is set on an optional transitive attribute that is not known. -/
def set_partial_bit : PathAttribute → PathAttribute
  | .Unknown flags type_code value => .Unknown (partial_flags flags) type_code value
  | a => a

theorem encode_attr_value_unknown (flags type_code : UInt8) (value : List UInt8) :
    encode_attr_value (.Unknown flags type_code value) = (partial_flags flags, value) := by
  simp only [encode_attr_value, partial_flags]
  split <;> rfl

/-- The value `v` of an attribute `k` was decoded to `a`; written again it is no longer, and is
decoded to `a` again. -/
structure Reencodes (k : AttrType) (v : List UInt8) (a : PathAttribute) : Prop where
  known : set_partial_bit a = a
  type_code : a.type_code = k.code
  flags : (encode_attr_value a).1 = k.flags
  length_le : (encode_attr_value a).2.length ≤ v.length
  decode : decode_known_value true (encode_attr_value a).2 k = .ok a

theorem Reencodes.of_eq (h : decode_known_value true v k = .ok a) (hknown : set_partial_bit a = a)
    (htype : a.type_code = k.code) (hflags : (encode_attr_value a).1 = k.flags)
    (hvalue : (encode_attr_value a).2 = v) : Reencodes k v a where
  known := hknown
  type_code := htype
  flags := hflags
  length_le := le_of_eq (congrArg List.length hvalue)
  decode := hvalue ▸ h

theorem reencodes_mp_reach (h : decode_mp_reach v = .ok a) : Reencodes .MP_REACH_NLRI v a := by
  unfold decode_mp_reach at h
  split at h
  · cases h
  · obtain ⟨⟨afi, c1⟩, hafi, h1⟩ := Reader.bind_eq_ok.1 h
    obtain ⟨⟨safi, c2⟩, hsafi, h2⟩ := Reader.bind_eq_ok.1 h1
    obtain ⟨⟨nh_len, c3⟩, hnhlen, h3⟩ := Reader.bind_eq_ok.1 h2
    obtain ⟨⟨nh_bytes, c4⟩, hnhbytes, h4⟩ := Reader.bind_eq_ok.1 h3
    obtain ⟨next_hop, hnh, h5⟩ := Reader.bind_eq_ok.1 h4
    obtain ⟨⟨snpa, c5⟩, hsnpa, h6⟩ := Reader.bind_eq_ok.1 h5
    obtain ⟨prefixes, hprefixes, h7⟩ := Reader.bind_eq_ok.1 h6
    cases h7
    obtain ⟨hplen, hpback⟩ := rewrites_mp_nlri hprefixes
    obtain rfl := read_u8_eq_ok hsnpa
    obtain ⟨rfl, hblen⟩ := read_bytes_eq_ok hnhbytes
    obtain rfl := read_u8_eq_ok hnhlen
    obtain rfl := read_u8_eq_ok hsafi
    obtain rfl := read_u16_eq_ok hafi
    have hbytes := decode_next_hop_eq_ok hnh
    -- The value again, with the reserved octet cleared.
    have hvalue : (encode_attr_value (.MpReachNlri ⟨⟨afi, safi⟩, next_hop, prefixes⟩)).2 =
        be_bytes 2 afi.toNat ++ safi :: nh_len :: (nh_bytes ++ 0 :: prefixes.flatMap encode_prefix)
        := by
      simp only [encode_attr_value, encode_afi_safi, hbytes, hblen, UInt8.ofNat_toNat,
        List.append_assoc, List.cons_append, List.nil_append]
    refine ⟨rfl, rfl, rfl, ?_, ?_⟩
    · rw [hvalue]
      simp only [List.length_append, List.length_cons] at hplen ⊢
      omega
    · rw [hvalue, decode_known_value, decode_mp_reach, if_neg]
      · rw [read_u16_be_bytes, Reader.ok_bind]
        dsimp only
        rw [read_u8_cons, Reader.ok_bind]
        rw [read_u8_cons, Reader.ok_bind]
        rw [read_bytes_append hblen, Reader.ok_bind]
        rw [hnh, Reader.ok_bind, read_u8_cons, Reader.ok_bind]
        rw [hpback]
        rfl
      · simp only [List.length_append, List.length_cons, length_be_bytes]
        omega

theorem reencodes_mp_unreach (h : decode_mp_unreach v = .ok a) :
    Reencodes .MP_UNREACH_NLRI v a := by
  unfold decode_mp_unreach at h
  split at h
  · cases h
  · obtain ⟨⟨afi, c1⟩, hafi, h1⟩ := Reader.bind_eq_ok.1 h
    obtain ⟨⟨safi, c2⟩, hsafi, h2⟩ := Reader.bind_eq_ok.1 h1
    obtain ⟨prefixes, hprefixes, h3⟩ := Reader.bind_eq_ok.1 h2
    cases h3
    obtain ⟨hplen, hpback⟩ := rewrites_mp_nlri hprefixes
    obtain rfl := read_u8_eq_ok hsafi
    obtain rfl := read_u16_eq_ok hafi
    have hvalue : (encode_attr_value (.MpUnreachNlri ⟨⟨afi, safi⟩, prefixes⟩)).2 =
        be_bytes 2 afi.toNat ++ safi :: prefixes.flatMap encode_prefix := by
      simp only [encode_attr_value, encode_afi_safi, List.append_assoc, List.cons_append,
        List.nil_append]
    refine ⟨rfl, rfl, rfl, ?_, ?_⟩
    · rw [hvalue]
      simp only [List.length_append, List.length_cons] at hplen ⊢
      omega
    · rw [hvalue, decode_known_value, decode_mp_unreach, if_neg]
      · rw [read_u16_be_bytes, Reader.ok_bind]
        dsimp only
        rw [read_u8_cons, Reader.ok_bind]
        rw [hpback]
        rfl
      · simp only [List.length_append, List.length_cons, length_be_bytes]
        omega

/-- Every value that was decoded, in four-octet AS mode, can be written again. -/
theorem reencodes_of_decode (h : decode_known_value true v k = .ok a) : Reencodes k v a := by
  cases k with
  | ORIGIN =>
    obtain ⟨hlen, hbody⟩ := exactly_eq_ok h
    obtain ⟨⟨o, rest⟩, ho, hmatch⟩ := Reader.bind_eq_ok.1 hbody
    obtain rfl := read_u8_eq_ok ho
    obtain rfl : rest = [] := by
      apply List.eq_nil_of_length_eq_zero
      simpa using hlen
    dsimp only at hmatch
    split at hmatch
    · rename_i origin horigin
      cases hmatch
      refine .of_eq h rfl rfl rfl ?_
      -- each of the three known codes is written as it was read
      unfold Origin.from_u8 at horigin
      split at horigin
      · rename_i hv
        cases horigin
        rw [hv]
        rfl
      · split at horigin
        · rename_i hv
          cases horigin
          rw [hv]
          rfl
        · split at horigin
          · rename_i hv
            cases horigin
            rw [hv]
            rfl
          · cases horigin
    · cases hmatch
  | AS_PATH | AS4_PATH =>
    obtain ⟨segments, hsegments, heq⟩ := Reader.bind_eq_ok.1 h
    cases heq
    exact .of_eq h rfl rfl rfl (decode_as_path_segments_eq_ok hsegments)
  | NEXT_HOP | ORIGINATOR_ID =>
    obtain ⟨hlen, hbody⟩ := exactly_eq_ok h
    obtain ⟨⟨ip, rest⟩, hip, heq⟩ := Reader.bind_eq_ok.1 hbody
    cases heq
    exact .of_eq h rfl rfl rfl (eq_octets hlen hip)
  | MED | LOCAL_PREF | ONLY_TO_CUSTOMER =>
    obtain ⟨hlen, hbody⟩ := exactly_eq_ok h
    obtain ⟨⟨x, rest⟩, hx, heq⟩ := Reader.bind_eq_ok.1 hbody
    cases heq
    exact .of_eq h rfl rfl rfl (eq_put_u32 hlen hx)
  | ATOMIC_AGGREGATE =>
    obtain ⟨hlen, hbody⟩ := exactly_eq_ok h
    cases hbody
    exact .of_eq h rfl rfl rfl (List.eq_nil_of_length_eq_zero hlen).symm
  | AGGREGATOR | AS4_AGGREGATOR =>
    obtain ⟨hlen, hbody⟩ := exactly_eq_ok h
    obtain ⟨⟨asn, c1⟩, hasn, h1⟩ := Reader.bind_eq_ok.1 hbody
    obtain ⟨⟨ip, rest⟩, hip, heq⟩ := Reader.bind_eq_ok.1 h1
    cases heq
    exact .of_eq h rfl rfl rfl (eq_put_u32_octets hlen hasn hip)
  | COMMUNITY | CLUSTER_LIST =>
    obtain ⟨ids, hids, heq⟩ := Reader.bind_eq_ok.1 (multiple_of_eq_ok h)
    cases heq
    exact .of_eq h rfl rfl rfl (consumes_read_u32.read_all put_u32_ne_nil hids).symm
  | MP_REACH_NLRI => exact reencodes_mp_reach h
  | MP_UNREACH_NLRI => exact reencodes_mp_unreach h
  | EXTENDED_COMMUNITIES =>
    obtain ⟨ecs, hecs, heq⟩ := Reader.bind_eq_ok.1 (multiple_of_eq_ok h)
    cases heq
    refine .of_eq h rfl rfl rfl (consumes_read_extended_community.read_all (fun ec => ?_) hecs).symm
    apply List.ne_nil_of_length_pos
    rw [length_be_bytes]
    omega
  | LARGE_COMMUNITY =>
    obtain ⟨lcs, hlcs, heq⟩ := Reader.bind_eq_ok.1 (multiple_of_eq_ok h)
    cases heq
    refine .of_eq h rfl rfl rfl (consumes_read_large_community.read_all (fun lc => ?_) hlcs).symm
    apply List.ne_nil_of_length_pos
    rw [List.length_append, length_put_u32]
    omega

/-! ## Attributes -/

theorem outcome_of_flags (hcode : t.type_code = k.code)
    (hflags : t.flags = k.flags ∨ t.flags = k.flags ||| FLAG_EXT_LEN)
    (hvalue : decode_known_value four_byte_asn t.value k = .ok a) :
    outcome four_byte_asn false t = .ok a := by
  refine outcome_of_expected hcode ?_ hvalue
  rw [hcode, Tlv.optional, Tlv.transitive]
  rcases hflags with hflags | hflags
  · rw [hflags]
    cases k <;> rfl
  · rw [hflags]
    cases k <;> rfl

/-- An unknown attribute that has the Extended Length bit and does not need it. -/
def NeedlessExtLen : PathAttribute → Prop
  | .Unknown flags _ value => flags &&& FLAG_EXT_LEN ≠ 0 ∧ value.length ≤ 255
  | _ => False

instance (a : PathAttribute) : Decidable (NeedlessExtLen a) := by
  cases a <;> unfold NeedlessExtLen <;> infer_instance

/-- The attribute the encoder means to write. -/
def tlv_of (a : PathAttribute) : Tlv where
  flags :=
    if 255 < (encode_attr_value a).2.length then (encode_attr_value a).1 ||| FLAG_EXT_LEN
    else (encode_attr_value a).1
  type_code := a.type_code
  value := (encode_attr_value a).2

theorem Tlv.length_bytes (t : Tlv) :
    t.bytes.length = 2 + (if t.extended then 2 else 1) + t.value.length := by
  simp only [Tlv.bytes, List.length_append, List.length_cons, length_len_bytes]
  omega

theorem ext_len_or (flags : UInt8) : (flags ||| FLAG_EXT_LEN) &&& FLAG_EXT_LEN ≠ 0 := by
  revert flags
  decide +kernel

theorem or_ext_len {flags : UInt8} (h : flags &&& FLAG_EXT_LEN ≠ 0) :
    flags ||| FLAG_EXT_LEN = flags := by
  revert flags
  decide +kernel

theorem partial_flags_bits (flags : UInt8) :
    partial_flags flags &&& FLAG_EXT_LEN = flags &&& FLAG_EXT_LEN
      ∧ partial_flags flags &&& FLAG_OPTIONAL = flags &&& FLAG_OPTIONAL := by
  revert flags
  decide +kernel

/-- The flags the encoder starts from have the Extended Length bit only where an unknown attribute
brings it. -/
theorem ext_len_encode_attr_value :
    (encode_attr_value a).1 &&& FLAG_EXT_LEN ≠ 0 ↔
      ∃ flags type_code value, a = .Unknown flags type_code value ∧ flags &&& FLAG_EXT_LEN ≠ 0 := by
  cases a with
  | Unknown flags type_code value =>
    rw [encode_attr_value_unknown, (partial_flags_bits flags).1]
    constructor
    · exact fun h => ⟨flags, type_code, value, rfl, h⟩
    · rintro ⟨flags', type_code', value', heq, h⟩
      cases heq
      exact h
  | _ =>
    simp only [encode_attr_value, reduceCtorEq, false_and, exists_const, iff_false, not_not]
    rfl

/-- Where the two agree, the encoder's length field is as wide as its flags say. -/
theorem encode_one_path_attr_eq (h : ¬NeedlessExtLen a) :
    encode_one_path_attr a = (tlv_of a).bytes
      ∧ ((tlv_of a).extended = true ↔ 255 < (tlv_of a).value.length) := by
  unfold encode_one_path_attr
  dsimp only
  by_cases hlong : 255 < (encode_attr_value a).2.length
  · have hext : (tlv_of a).extended = true := by
      have hflag := ext_len_or (encode_attr_value a).1
      rw [Tlv.extended, tlv_of]
      rw [if_pos hlong]
      simpa using hflag
    refine ⟨?_, iff_of_true hext hlong⟩
    rw [if_pos hlong, Tlv.bytes, Tlv.len_bytes, if_pos hext, tlv_of]
    rw [if_pos hlong]
  · have hext : ¬(tlv_of a).extended = true := by
      rw [Tlv.extended, tlv_of]
      rw [if_neg hlong]
      intro hflag
      obtain ⟨flags, type_code, value, rfl, hbit⟩ :=
        ext_len_encode_attr_value.1 (by simpa using hflag)
      rw [encode_attr_value_unknown] at hlong
      exact h ⟨hbit, not_lt.1 hlong⟩
    refine ⟨?_, iff_of_false hext hlong⟩
    rw [if_neg hlong, Tlv.bytes, Tlv.len_bytes, if_neg hext, tlv_of]
    rw [if_neg hlong]
    rfl

/-- One attribute, written again: complete, of the same type, no longer, and decoded to the same
value, marked partial if it is not known. -/
theorem outcome_tlv_of (ht : t.Complete) (h : outcome true false t = .ok a)
    (hne : ¬NeedlessExtLen a) :
    (tlv_of a).Complete ∧ (tlv_of a).type_code = t.type_code
      ∧ (tlv_of a).bytes.length ≤ t.bytes.length
      ∧ outcome true false (tlv_of a) = .ok (set_partial_bit a) := by
  obtain ⟨-, hext⟩ := encode_one_path_attr_eq hne
  -- All but the outcome follows from the value not being longer.
  have hsize (hle : (tlv_of a).value.length ≤ t.value.length) :
      (tlv_of a).Complete ∧ (tlv_of a).bytes.length ≤ t.bytes.length := by
    unfold Tlv.Complete at ht ⊢
    rw [Tlv.length_bytes, Tlv.length_bytes]
    by_cases hlong : (tlv_of a).extended = true
    · have hlen := hext.1 hlong
      rw [if_pos hlong, if_pos hlong]
      split at ht
      · rw [if_pos ‹_›]
        omega
      · omega
    · have hlen : ¬255 < (tlv_of a).value.length := fun hlt => hlong (hext.2 hlt)
      rw [if_neg hlong, if_neg hlong]
      split <;> omega
  obtain ⟨-, ⟨k, hk, -, hvalue⟩ | ⟨hcode, hopt, rfl⟩⟩ := outcome_eq_ok h
  · have hre := reencodes_of_decode hvalue
    obtain ⟨hcomplete, hlen⟩ := hsize hre.length_le
    have htype : (tlv_of a).type_code = k.code := hre.type_code
    refine ⟨hcomplete, ?_, hlen, ?_⟩
    · rw [htype, AttrType.of_code_eq_some hk]
    · rw [hre.known]
      refine outcome_of_flags htype ?_ hre.decode
      rw [tlv_of, hre.flags]
      split
      · exact .inr rfl
      · exact .inl rfl
  · -- A long value came with the Extended Length bit, so nothing is added to the flags.
    have htlv : tlv_of (.Unknown t.flags t.type_code t.value) =
        ⟨partial_flags t.flags, t.type_code, t.value⟩ := by
      rw [tlv_of, encode_attr_value_unknown]
      dsimp only [PathAttribute.type_code]
      split
      · have hbit : t.flags &&& FLAG_EXT_LEN ≠ 0 := by
          intro hzero
          have hshort : t.extended = false := by
            rw [Tlv.extended, hzero]
            rfl
          rw [Tlv.Complete, hshort, if_neg Bool.false_ne_true] at ht
          omega
        rw [← (partial_flags_bits t.flags).1] at hbit
        rw [or_ext_len hbit]
      · rfl
    obtain ⟨hcomplete, hlen⟩ := hsize (by rw [htlv])
    refine ⟨hcomplete, rfl, hlen, ?_⟩
    have hoptional : (⟨partial_flags t.flags, t.type_code, t.value⟩ : Tlv).optional = true := by
      rw [Tlv.optional, (partial_flags_bits t.flags).2]
      exact hopt
    rw [htlv, outcome, if_neg Bool.false_ne_true]
    simp only [expected_optional_transitive, hcode, hoptional, if_true, decode_attr_value]
    rfl

/-! ## Attribute blocks -/

theorem filterMap_map_ok (attrs : List PathAttribute) :
    (attrs.map Except.ok).filterMap kept? = attrs
      ∧ (attrs.map Except.ok).filterMap failed? = [] := by
  induction attrs with
  | nil => exact ⟨rfl, rfl⟩
  | cons a attrs ih => simpa [kept?, failed?, Except.toOption] using ih

/-- The first outcome of a block without errors is that of an attribute not seen before. -/
theorem outcomes_cons_eq (h : outcomes four_byte_asn seen (t :: ts) = (a :: attrs).map .ok) :
    seen.contains t.type_code = false ∧ outcome four_byte_asn false t = .ok a
      ∧ outcomes four_byte_asn (t.type_code :: seen) ts = attrs.map .ok := by
  rw [outcomes, List.map_cons, List.cons.injEq] at h
  have hseen := (outcome_eq_ok h.1).1
  rw [hseen] at h
  exact ⟨hseen, h.1, h.2⟩

/-- A block without errors, written again: no longer, and decoded to the same attributes. -/
theorem outcomes_tlv_of (hts : ∀ t ∈ ts, t.Complete) (h : outcomes true seen ts = attrs.map .ok)
    (hne : ∀ a ∈ attrs, ¬NeedlessExtLen a) :
    encode_attributes attrs = (attrs.map tlv_of).flatMap Tlv.bytes
      ∧ (∀ t ∈ attrs.map tlv_of, t.Complete)
      ∧ (encode_attributes attrs).length ≤ (ts.flatMap Tlv.bytes).length
      ∧ outcomes true seen (attrs.map tlv_of) = (attrs.map set_partial_bit).map .ok := by
  induction ts generalizing seen attrs with
  | nil =>
    obtain rfl : attrs = [] := by simpa [outcomes] using h.symm
    exact ⟨rfl, by simp, le_rfl, rfl⟩
  | cons t ts ih =>
    cases attrs with
    | nil => simp [outcomes] at h
    | cons a attrs =>
      rw [List.forall_mem_cons] at hts hne
      obtain ⟨hseen, ha, hrest⟩ := outcomes_cons_eq h
      obtain ⟨hcomplete, htype, hlen, hout⟩ := outcome_tlv_of hts.1 ha hne.1
      obtain ⟨hbytes, hall, hlens, houts⟩ := ih hts.2 hrest hne.2
      have hhead := (encode_one_path_attr_eq hne.1).1
      rw [encode_attributes] at hbytes hlens ⊢
      refine ⟨?_, ?_, ?_, ?_⟩
      · rw [List.flatMap_cons, hhead, hbytes, List.map_cons, List.flatMap_cons]
      · rw [List.map_cons, List.forall_mem_cons]
        exact ⟨hcomplete, hall⟩
      · rw [List.flatMap_cons, List.flatMap_cons, List.length_append, List.length_append, hhead]
        omega
      · rw [List.map_cons, outcomes, htype, hseen, hout, houts]
        rfl

theorem flags_ne_zero (k : AttrType) : k.flags ≠ 0 ∧ k.flags ||| FLAG_EXT_LEN ≠ 0
    ∧ k.flags &&& FLAG_EXT_LEN = 0 := by
  cases k <;> decide

/-- What is written starts with an octet that is not zero: every attribute that was kept has its
Optional bit or its Transitive bit set. -/
theorem encode_head_ne_zero {seen : Bool} (h : outcome true seen t = .ok a) :
    ∃ b bs, encode_one_path_attr a = b :: bs ∧ b ≠ 0 := by
  have hflags : (encode_attr_value a).1 ≠ 0 ∧ (encode_attr_value a).1 ||| FLAG_EXT_LEN ≠ 0 := by
    obtain ⟨-, ⟨k, -, -, hvalue⟩ | ⟨-, hopt, rfl⟩⟩ := outcome_eq_ok h
    · rw [(reencodes_of_decode hvalue).flags]
      exact ⟨(flags_ne_zero k).1, (flags_ne_zero k).2.1⟩
    · have hbit : t.flags &&& FLAG_OPTIONAL ≠ 0 := by simpa [Tlv.optional] using hopt
      rw [encode_attr_value_unknown]
      dsimp only
      revert hbit
      generalize t.flags = flags
      revert flags
      decide +kernel
  unfold encode_one_path_attr
  dsimp only
  split
  · exact ⟨_, _, rfl, hflags.2⟩
  · exact ⟨_, _, rfl, hflags.1⟩

/-- An unknown attribute with a needless Extended Length bit is not read back: the octet of its
length field is read together with the octet after it. -/
theorem not_read_back {flags type_code : UInt8} {value : List UInt8}
    (hbad : NeedlessExtLen (.Unknown flags type_code value)) (hrest : ∀ bs, rest ≠ 0 :: bs)
    {rest' : List UInt8}
    (hread : read_attribute (encode_one_path_attr (.Unknown flags type_code value) ++ rest)
      = .ok (t, rest')) : t.value ≠ value := by
  obtain ⟨hbit, hshort⟩ := hbad
  obtain ⟨-, hcur⟩ := read_attribute_eq_ok hread
  intro hvalue
  have hbytes : encode_one_path_attr (.Unknown flags type_code value) ++ rest =
      partial_flags flags :: type_code :: UInt8.ofNat value.length :: (value ++ rest) := by
    rw [encode_one_path_attr, encode_attr_value_unknown]
    dsimp only
    rw [if_neg (by omega)]
    rfl
  rw [hbytes, Tlv.bytes, List.cons_append, List.cons_append, List.cons.injEq] at hcur
  obtain ⟨hflags, hcur⟩ := hcur
  have hext : t.extended = true := by
    rw [Tlv.extended, ← hflags, (partial_flags_bits flags).1]
    simpa using hbit
  rw [Tlv.len_bytes, if_pos hext, hvalue] at hcur
  -- The high octet of a short length is zero, so the value is empty and the next octet is zero.
  have hhigh : value.length / 256 = 0 := by omega
  simp only [be_bytes, List.cons_append, List.nil_append, List.cons.injEq] at hcur
  obtain ⟨-, hlen, htail⟩ := hcur
  have hzero : value.length = 0 := by
    have hto := congrArg UInt8.toNat hlen
    rw [UInt8.toNat_ofNat', UInt8.toNat_ofNat'] at hto
    omega
  obtain rfl := List.eq_nil_of_length_eq_zero hzero
  exact hrest _ htail

theorem no_needless_of_read_back (hts : ∀ t ∈ ts, t.Complete)
    (h : outcomes true seen ts = attrs.map .ok) {ts' : List Tlv}
    (hsplits : Reader.Splits read_attribute (encode_attributes attrs) ts')
    (h' : outcomes true seen ts' = (attrs.map set_partial_bit).map .ok) :
    ∀ a ∈ attrs, ¬NeedlessExtLen a := by
  induction ts generalizing seen attrs ts' with
  | nil =>
    obtain rfl : attrs = [] := by simpa [outcomes] using h.symm
    simp
  | cons t ts ih =>
    cases attrs with
    | nil => simp
    | cons a attrs =>
      rw [List.forall_mem_cons] at hts ⊢
      obtain ⟨hseen, ha, hrest⟩ := outcomes_cons_eq h
      cases ts' with
      | nil => simp [outcomes] at h'
      | cons t' ts' =>
        obtain ⟨-, ha', hrest'⟩ := outcomes_cons_eq h'
        rw [encode_attributes, List.flatMap_cons] at hsplits
        obtain ⟨rest', hread, htail⟩ := hsplits.uncons
        have hgood : ¬NeedlessExtLen a := by
          intro hbad
          cases a with
          | Unknown flags type_code value =>
            -- What follows starts with the flags of the next attribute, or is nothing.
            have hnext : ∀ bs, attrs.flatMap encode_one_path_attr ≠ 0 :: bs := by
              intro bs hbs
              cases attrs with
              | nil => simp at hbs
              | cons a₂ attrs =>
                cases ts with
                | nil => simp [outcomes] at hrest
                | cons t₂ ts =>
                  obtain ⟨-, ha₂, -⟩ := outcomes_cons_eq hrest
                  obtain ⟨b, bs', hb, hne⟩ := encode_head_ne_zero ha₂
                  rw [List.flatMap_cons, hb, List.cons_append, List.cons.injEq] at hbs
                  exact hne hbs.1
            refine not_read_back hbad hnext hread ?_
            obtain ⟨-, ⟨k, -, -, hvalue⟩ | ⟨-, -, heq⟩⟩ := outcome_eq_ok ha'
            · -- An attribute the decoder knows has no Extended Length bit in its flags.
              exfalso
              have hflags := (reencodes_of_decode hvalue).flags
              rw [set_partial_bit, encode_attr_value_unknown] at hflags
              have hbit := (flags_ne_zero k).2.2
              rw [← hflags, (partial_flags_bits _).1, (partial_flags_bits _).1] at hbit
              exact hbad.1 hbit
            · rw [set_partial_bit, PathAttribute.Unknown.injEq] at heq
              exact heq.2.2.symm
          | _ => exact hbad
        obtain ⟨hcomplete, htype, -, -⟩ := outcome_tlv_of hts.1 ha hgood
        rw [(encode_one_path_attr_eq hgood).1, read_attribute_bytes hcomplete] at hread
        cases hread
        rw [htype] at hrest'
        exact ⟨hgood, ih hts.2 hrest htail hrest'⟩

theorem reencode_attributes (h : decode_path_attributes cur true = .ok (attrs, [])) :
    ((∀ a ∈ attrs, ¬NeedlessExtLen a) → (encode_attributes attrs).length ≤ cur.length
        ∧ decode_path_attributes (encode_attributes attrs) true
          = .ok (attrs.map set_partial_bit, []))
      ∧ (decode_path_attributes (encode_attributes attrs) true = .ok (attrs.map set_partial_bit, [])
        → ∀ a ∈ attrs, ¬NeedlessExtLen a) := by
  obtain ⟨ts, rfl, hts, hattrs, herrors⟩ := decode_path_attributes_eq_ok h
  have houts := eq_map_ok herrors.symm
  rw [← hattrs] at houts
  constructor
  · intro hne
    obtain ⟨hbytes, hall, hlen, hout⟩ := outcomes_tlv_of hts houts hne
    refine ⟨hlen, ?_⟩
    rw [hbytes, decode_path_attributes_bytes true hall, hout, (filterMap_map_ok _).1,
      (filterMap_map_ok _).2]
  · intro h'
    obtain ⟨ts', hbytes', hts', hattrs', herrors'⟩ := decode_path_attributes_eq_ok h'
    have houts' := eq_map_ok herrors'.symm
    rw [← hattrs'] at houts'
    exact no_needless_of_read_back hts houts (splits_read_attribute.2 ⟨hbytes', hts'⟩) houts'

/-! ## Messages -/

/-- The message as it comes back: an unknown optional transitive attribute is marked partial. -/
def set_partial_bit_update (m : UpdateMessage) : UpdateMessage :=
  { m with attributes := m.attributes.map set_partial_bit }

/-- Encoding `m` gives a message no longer than `buf` that decodes cleanly to `m`, up to the Partial
bit. -/
def Lossless (max_len : ℕ) (buf : List UInt8) (m : UpdateMessage) : Prop :=
  ∃ out, (BgpMessage.Update m).encode = some out ∧ out.length ≤ buf.length
    ∧ BgpMessage.decode_with_limit out max_len = .ok (.Update (set_partial_bit_update m))

/-- The fields of an encoded UPDATE. -/
def encoded_body (m : UpdateMessage) : Body :=
  ⟨encode_nlri_list_v4 m.withdrawn, encode_attributes m.attributes,
    encode_nlri_list_v4 m.announced⟩

theorem encode_eq (m : UpdateMessage) :
    (BgpMessage.Update m).encode = some (with_header .Update (encoded_body m).bytes) := rfl

/-- **Re-encoding what was decoded.** A clean UPDATE comes back from the encoder in no more octets
and decodes to itself, the Partial bit apart, exactly when none of its unknown attributes has an
Extended Length bit it does not need. -/
theorem reencode_lossless_iff {buf : List UInt8} {max_len : ℕ} {m : UpdateMessage}
    (h : BgpMessage.decode_with_limit buf max_len = .ok (.Update m)) :
    Lossless max_len buf m ↔ ∀ a ∈ m.attributes, ¬NeedlessExtLen a := by
  obtain ⟨b, hb, rfl, hmax, hfits, u, hu, hof⟩ := update_frame (.Clean m) h
  obtain rfl : u = .Clean m := by
    cases u with
    | Clean m' =>
      rw [BgpMessage.of_update, BgpMessage.of_update, BgpMessage.Update.injEq] at hof
      rw [hof]
    | Partial _ _ _ _ => cases hof
  obtain ⟨hw, ha, hn⟩ := decode_eq_clean.1 hu
  obtain ⟨hwlen, hwback⟩ := rewrites_nlri_list_v4 hw
  obtain ⟨hnlen, hnback⟩ := rewrites_nlri_list_v4 hn
  obtain ⟨hforth, hback⟩ := reencode_attributes ha
  -- What is written fits as soon as it is no longer than what was read.
  have hdecode (hlen : (encoded_body m).bytes.length ≤ b.bytes.length) :
      BgpMessage.decode_with_limit (with_header .Update (encoded_body m).bytes) max_len =
        ((encoded_body m).decode true).map BgpMessage.of_update := by
    have hfields := Body.length_bytes (encoded_body m)
    refine decode_update_frame ⟨?_, ?_⟩ true (by omega) (by omega)
    · omega
    · omega
  have hlens : (with_header .Update (encoded_body m).bytes).length
      ≤ (with_header .Update b.bytes).length ↔
        (encoded_body m).bytes.length ≤ b.bytes.length := by
    rw [length_with_header, length_with_header]
    omega
  constructor
  · rintro ⟨out, hout, hlen, hagain⟩
    rw [encode_eq, Option.some.injEq] at hout
    subst hout
    rw [hdecode (hlens.1 hlen)] at hagain
    apply hback
    cases hbody : (encoded_body m).decode true with
    | error e =>
      rw [hbody] at hagain
      cases hagain
    | ok u =>
      rw [hbody] at hagain
      cases u with
      | Clean m' =>
        cases hagain
        exact (decode_eq_clean.1 hbody).2.1
      | Partial _ _ _ _ => cases hagain
  · intro hne
    obtain ⟨halen, haback⟩ := hforth hne
    have hlen : (encoded_body m).bytes.length ≤ b.bytes.length := by
      rw [Body.length_bytes, Body.length_bytes]
      dsimp only [encoded_body]
      omega
    refine ⟨_, encode_eq m, hlens.2 hlen, ?_⟩
    have hclean : (encoded_body m).decode true = .ok (.Clean (set_partial_bit_update m)) :=
      decode_eq_clean.2 ⟨hwback, haback, hnback⟩
    rw [hdecode hlen, hclean]
    rfl

/-- An UPDATE with one attribute of type 99: optional, transitive, its length in two octets, and
one octet of value. -/
def needless_ext_len_update : List UInt8 :=
  with_header .Update [0, 0, 0, 5, 0xD0, 99, 0, 1, 7]

/-- It decodes cleanly; written again it has one octet of length under the Extended Length bit, and
does not decode. -/
theorem needless_ext_len_lost :
    BgpMessage.decode needless_ext_len_update = .ok (.Update ⟨[], [.Unknown 0xD0 99 [7]], []⟩)
      ∧ (BgpMessage.Update ⟨[], [.Unknown 0xD0 99 [7]], []⟩).encode
        = some (with_header .Update [0, 0, 0, 4, 0xF0, 99, 1, 7])
      ∧ BgpMessage.decode (with_header .Update [0, 0, 0, 4, 0xF0, 99, 1, 7])
        = .error (.Truncated 263 0)
      ∧ ¬Lossless MAX_LEN_EXTENDED needless_ext_len_update ⟨[], [.Unknown 0xD0 99 [7]], []⟩ := by
  have hencode : (BgpMessage.Update ⟨[], [.Unknown 0xD0 99 [7]], []⟩).encode
      = some (with_header .Update [0, 0, 0, 4, 0xF0, 99, 1, 7]) := by decide +kernel
  have hagain : BgpMessage.decode (with_header .Update [0, 0, 0, 4, 0xF0, 99, 1, 7])
      = .error (.Truncated 263 0) := by decide +kernel
  refine ⟨by decide +kernel, hencode, hagain, ?_⟩
  rintro ⟨out, hout, -, hdecode⟩
  rw [hencode, Option.some.injEq] at hout
  subst hout
  rw [BgpMessage.decode] at hagain
  cases hdecode

/-- An unknown attribute whose flags fit its length comes back with its Partial bit. -/
theorem reencode_lossless_short :
    Lossless MAX_LEN (with_header .Update [0, 0, 0, 4, 0xC0, 99, 1, 7])
      ⟨[], [.Unknown 0xC0 99 [7]], []⟩ :=
  (reencode_lossless_iff (by decide +kernel)).2 (by decide +kernel)

end Pathvector.Wire
