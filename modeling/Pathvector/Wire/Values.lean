/-
# What the decoder makes of an attribute

The octets of an attribute that decide what becomes of it. `Readable` says which values the decoder
reads, by the form of the value and not by running the decoder. An attribute that it does not
read, or whose flags are wrong, is entered as an error, and the error takes the routes of the
UPDATE back (`Revokes`) or leaves out the attribute and nothing more (`Discards`).
-/
import Pathvector.Wire.Reencoding

set_option autoImplicit false

namespace Pathvector.Wire

variable {a : PathAttribute} {cur v : List UInt8} {k : AttrType} {t : Tlv} {four_byte_asn : Bool}
  {n : ℕ} {detail : String} {body : Except CodecError PathAttribute} {ts : List CompleteTlv}

/-! ## Values -/

/-- A sequence of path segments: a type from 1 to 4, a count of at least `least`, and as many AS
numbers of `width` octets. -/
inductive Segments (width least : ℕ) : List UInt8 → Prop where
  | nil : Segments width least []
  | cons {seg_type count : UInt8} {asns rest : List UInt8} (hlow : 1 ≤ seg_type)
      (hhigh : seg_type ≤ 4) (hleast : least ≤ count.toNat)
      (hasns : asns.length = width * count.toNat) (hrest : Segments width least rest) :
      Segments width least (seg_type :: count :: (asns ++ rest))

/-- The decoder reads the value of an attribute it knows. A path is read with AS numbers of four
octets whatever was negotiated, and a segment or a list of communities may be empty. -/
def Readable (four_byte_asn : Bool) (v : List UInt8) : AttrType → Prop
  | .ORIGIN => ∃ x, x ≤ 2 ∧ v = [x]
  | .AS_PATH | .AS4_PATH => Segments 4 0 v
  | .NEXT_HOP | .MED | .LOCAL_PREF | .ONLY_TO_CUSTOMER | .ORIGINATOR_ID => v.length = 4
  | .ATOMIC_AGGREGATE => v.length = 0
  | .AGGREGATOR => v.length = if four_byte_asn then 8 else 6
  | .AS4_AGGREGATOR => v.length = 8
  | .COMMUNITY | .CLUSTER_LIST => 4 ∣ v.length
  | .EXTENDED_COMMUNITIES => 8 ∣ v.length
  | .LARGE_COMMUNITY => 12 ∣ v.length
  | .MP_REACH_NLRI => ∃ a, decode_mp_reach v = .ok a
  | .MP_UNREACH_NLRI => ∃ a, decode_mp_unreach v = .ok a

theorem length_flatMap_put_u32 (xs : List UInt32) :
    (xs.flatMap put_u32).length = 4 * xs.length := by
  induction xs with
  | nil => rfl
  | cons x xs ih =>
    rw [List.flatMap_cons, List.length_append, ih, put_u32, length_be_bytes, List.length_cons]
    omega

theorem read_bytes_of_le (h : n ≤ cur.length) :
    read_bytes n cur = .ok (cur.take n, cur.drop n) := by
  rw [read_bytes, if_neg (by omega)]

theorem exists_read_u32 (cur : List UInt8) (h : 4 ≤ cur.length) :
    ∃ x, read_u32 cur = .ok (x, cur.drop 4) := by
  rw [read_u32, read_bytes_of_le h]
  exact ⟨_, rfl⟩

theorem exists_read_asns {asns : List UInt8} (h : asns.length = 4 * n) (rest : List UInt8) :
    ∃ xs, read_asns n (asns ++ rest) = .ok (xs, rest) := by
  induction n generalizing asns with
  | zero =>
    obtain rfl := List.eq_nil_of_length_eq_zero h
    exact ⟨[], rfl⟩
  | succ n ih =>
    have hlen : 4 ≤ (asns ++ rest).length := by
      rw [List.length_append]
      omega
    obtain ⟨x, hx⟩ := exists_read_u32 (asns ++ rest) hlen
    have hdrop : (asns.drop 4).length = 4 * n := by
      rw [List.length_drop]
      omega
    obtain ⟨xs, hxs⟩ := ih hdrop
    rw [List.drop_append_of_le_length (by omega)] at hx
    rw [read_asns, if_neg (by omega), hx, Reader.ok_bind]
    dsimp only
    rw [hxs]
    exact ⟨_, rfl⟩

theorem exists_segment_of {seg_type : UInt8} (hlow : 1 ≤ seg_type) (hhigh : seg_type ≤ 4)
    (asns : List Asn) : ∃ seg, segment_of seg_type asns = some seg := by
  have hfour : seg_type = 1 ∨ seg_type = 2 ∨ seg_type = 3 ∨ seg_type = 4 := by
    revert seg_type
    decide +kernel
  obtain rfl | rfl | rfl | rfl := hfour <;> exact ⟨_, rfl⟩

theorem isSome_from_u8 (x : UInt8) : (Origin.from_u8 x).isSome = true ↔ x ≤ 2 := by
  revert x
  decide +kernel

/-- The values that the decoder reads as a path are the sequences of segments of four-octet AS
numbers. -/
theorem exists_as_path_iff : (∃ segments, decode_as_path_segments v = .ok segments) ↔
    Segments 4 0 v := by
  have hshrinks := consumes_decode_as_path_segment.shrinks encode_as_path_segment_ne_nil
  constructor
  · rintro ⟨segments, h⟩
    have hsplits := (Reader.read_all_eq_ok hshrinks).1 h
    clear h
    induction hsplits with
    | nil => exact .nil
    | @cons cur rest seg segs _ hread _ ih =>
      obtain ⟨rfl, hlen⟩ := decode_as_path_segment_eq_ok hread
      refine .cons ?_ ?_ (Nat.zero_le _) ?_ ih
      · cases seg <;> simp
      · cases seg <;> simp
      · rw [length_flatMap_put_u32, UInt8.toNat_ofNat', Nat.mod_eq_of_lt (by omega)]
  · intro h
    induction h with
    | nil => exact ⟨[], rfl⟩
    | @cons seg_type count asns rest hlow hhigh _ hasns _ ih =>
      obtain ⟨segments, hrest⟩ := ih
      obtain ⟨xs, hxs⟩ := exists_read_asns hasns rest
      obtain ⟨seg, hseg⟩ := exists_segment_of hlow hhigh xs
      refine ⟨seg :: segments, (Reader.read_all_eq_ok hshrinks).2
        (.cons (by simp) ?_ ((Reader.read_all_eq_ok hshrinks).1 hrest))⟩
      rw [decode_as_path_segment, read_u8_cons, Reader.ok_bind]
      dsimp only
      rw [read_u8_cons, Reader.ok_bind]
      dsimp only
      rw [hxs, Reader.ok_bind]
      dsimp only
      rw [hseg]

theorem exists_exactly (h : cur.length = n → ∃ a, body = .ok a) :
    (∃ a, exactly k n detail cur body = .ok a) ↔ cur.length = n := by
  refine ⟨fun ⟨a, ha⟩ => (exactly_eq_ok ha).1, fun hlen => ?_⟩
  rw [exactly, if_neg (not_not.2 hlen)]
  exact h hlen

theorem exists_multiple_of {β : Type} {read : List UInt8 → Except CodecError (β × List UInt8)}
    {f : List β → PathAttribute} (hread : Reader.Shrinks read) (hn : 0 < n)
    (htakes : ∀ cur, n ≤ cur.length → ∃ x, read cur = .ok (x, cur.drop n)) :
    (∃ a, multiple_of k n detail cur (Reader.read_all read cur >>= fun xs => pure (f xs)) = .ok a) ↔
      n ∣ cur.length := by
  rw [Nat.dvd_iff_mod_eq_zero, multiple_of]
  split
  · next hne => exact iff_of_false (by rintro ⟨a, ha⟩; cases ha) hne
  · next heq =>
    rw [not_not] at heq
    obtain ⟨xs, hxs⟩ := Reader.exists_read_all_of_dvd hread hn htakes (Nat.dvd_of_mod_eq_zero heq)
    rw [hxs]
    exact iff_of_true ⟨_, rfl⟩ heq

theorem exists_read_large_community (cur : List UInt8) (h : 12 ≤ cur.length) :
    ∃ x, read_large_community cur = .ok (x, cur.drop 12) := by
  obtain ⟨ga, hga⟩ := exists_read_u32 cur (by omega)
  obtain ⟨ld1, hld1⟩ := exists_read_u32 (cur.drop 4) (by rw [List.length_drop]; omega)
  obtain ⟨ld2, hld2⟩ :=
    exists_read_u32 ((cur.drop 4).drop 4) (by simp only [List.length_drop]; omega)
  rw [read_large_community, hga, Reader.ok_bind]
  dsimp only
  rw [hld1, Reader.ok_bind]
  dsimp only
  rw [hld2, Reader.ok_bind, List.drop_drop, List.drop_drop]
  exact ⟨_, rfl⟩

/-- **What the decoder reads**, by the form of the value. -/
theorem readable_iff : (∃ a, decode_known_value four_byte_asn v k = .ok a) ↔
    Readable four_byte_asn v k := by
  have hpath {f : List AsPathSegment → PathAttribute} :
      (∃ a, (decode_as_path_segments v >>= fun segments => pure (f segments)) = .ok a) ↔
        Segments 4 0 v := by
    rw [← exists_as_path_iff]
    cases decode_as_path_segments v with
    | error e => exact iff_of_false (by rintro ⟨a, ha⟩; cases ha) (by rintro ⟨s, hs⟩; cases hs)
    | ok segments => exact iff_of_true ⟨_, rfl⟩ ⟨_, rfl⟩
  have hfour := consumes_read_u32.shrinks put_u32_ne_nil
  -- a value of fixed length, read in one or two pieces
  have hone {n : ℕ} (h : v.length = n) : read_bytes n v = _ := read_bytes_of_le h.ge
  cases k with
  | ORIGIN =>
    simp only [decode_known_value, Readable]
    constructor
    · rintro ⟨a, ha⟩
      obtain ⟨hlen, hbody⟩ := exactly_eq_ok ha
      obtain ⟨x, rfl⟩ := List.length_eq_one_iff.1 hlen
      refine ⟨x, (isSome_from_u8 x).1 ?_, rfl⟩
      rw [read_u8_cons, Reader.ok_bind] at hbody
      dsimp only at hbody
      split at hbody
      · next horigin => exact Option.isSome_of_eq_some horigin
      · cases hbody
    · rintro ⟨x, hx, rfl⟩
      obtain ⟨origin, horigin⟩ := Option.isSome_iff_exists.1 ((isSome_from_u8 x).2 hx)
      rw [exactly, if_neg (by simp), read_u8_cons, Reader.ok_bind]
      dsimp only
      rw [horigin]
      exact ⟨_, rfl⟩
  | AS_PATH => exact hpath
  | AS4_PATH => exact hpath
  | NEXT_HOP | ORIGINATOR_ID =>
    refine exists_exactly fun h => ?_
    rw [read_ipv4addr, hone h]
    exact ⟨_, rfl⟩
  | MED | LOCAL_PREF | ONLY_TO_CUSTOMER =>
    refine exists_exactly fun h => ?_
    rw [read_u32, hone h]
    exact ⟨_, rfl⟩
  | ATOMIC_AGGREGATE => exact exists_exactly fun _ => ⟨_, rfl⟩
  | AGGREGATOR =>
    cases four_byte_asn <;>
    · refine exists_exactly fun h => ?_
      simp [read_u16, read_u32, read_ipv4addr, read_bytes, h, Reader.ok_bind, pure, Except.pure]
  | AS4_AGGREGATOR =>
    refine exists_exactly fun h => ?_
    simp [read_u32, read_ipv4addr, read_bytes, h, Reader.ok_bind, pure, Except.pure]
  | COMMUNITY | CLUSTER_LIST => exact exists_multiple_of hfour (by omega) exists_read_u32
  | EXTENDED_COMMUNITIES =>
    refine exists_multiple_of (consumes_read_extended_community.shrinks fun ec => ?_) (by omega)
      fun cur h => ?_
    · exact List.ne_nil_of_length_pos (by rw [length_be_bytes]; omega)
    · rw [read_extended_community, read_bytes_of_le h]
      exact ⟨_, rfl⟩
  | LARGE_COMMUNITY =>
    refine exists_multiple_of (consumes_read_large_community.shrinks fun lc => ?_) (by omega)
      exists_read_large_community
    exact List.ne_nil_of_length_pos (by simp)
  | MP_REACH_NLRI => exact Iff.rfl
  | MP_UNREACH_NLRI => exact Iff.rfl

/-! ## Attributes -/

/-- The Optional and Transitive bits are those of the attribute's type. -/
def Flagged (t : Tlv) : Prop :=
  expected_optional_transitive t.type_code = some (t.optional, t.transitive)

/-- The attributes for which a value that is not read takes the routes back. -/
def revoking : List AttrType :=
  [.ORIGIN, .AS_PATH, .NEXT_HOP, .LOCAL_PREF, .MP_REACH_NLRI, .ONLY_TO_CUSTOMER]

/-- The first attribute of its type takes the routes back. -/
def Revokes (four_byte_asn : Bool) (t : Tlv) : Prop :=
  ∃ k : AttrType, t.type_code = k.code ∧
    (¬Flagged t ∨ k ∈ revoking ∧ ¬Readable four_byte_asn t.value k)

/-- After the block `before`, the attribute is left out and nothing more: it is there twice, or its
value is not read. -/
def Discards (four_byte_asn : Bool) (before : List CompleteTlv) (t : CompleteTlv) : Prop :=
  Occurs t.type_code before ∧ t.type_code ≠ AttrType.MP_REACH_NLRI.code
      ∧ t.type_code ≠ AttrType.MP_UNREACH_NLRI.code ∨
    ¬Occurs t.type_code before ∧ ∃ k : AttrType, t.type_code = k.code ∧ Flagged t.toTlv
      ∧ k ∉ revoking ∧ ¬Readable four_byte_asn t.value k

theorem outcome_known (four_byte_asn : Bool) (hcode : t.type_code = k.code) :
    outcome four_byte_asn false t =
      if expected_optional_transitive t.type_code = some (t.optional, t.transitive) then
        (decode_known_value four_byte_asn t.value k).mapError (value_error t.type_code)
      else .error (flags_error t.type_code) := by
  have hof : AttrType.of_code t.type_code = some k := by rw [hcode, AttrType.of_code_code]
  rw [outcome, if_neg Bool.false_ne_true, decode_attr_value, hof]
  cases hexpected : expected_optional_transitive t.type_code with
  | none =>
    rw [expected_optional_transitive, hof] at hexpected
    cases k <;> cases hexpected
  | some e =>
    obtain ⟨o, tr⟩ := e
    by_cases ho : t.optional = o
    · by_cases ht : t.transitive = tr
      · simp [ho, ht]
      · simp [ho, ht, Ne.symm ht]
    · simp [ho, Ne.symm ho]

theorem rfc7606_policy_code (k : AttrType) :
    rfc7606_policy k.code = if k ∈ revoking then .TreatAsWithdraw else .AttributeDiscard := by
  cases k <;> decide

/-- The first attribute of a known type is kept, or it is an error of one of two policies. -/
theorem outcome_cases (four_byte_asn : Bool) (hcode : t.type_code = k.code) :
    Flagged t ∧ Readable four_byte_asn t.value k ∧ (∃ a, outcome four_byte_asn false t = .ok a) ∨
      ∃ e, outcome four_byte_asn false t = .error e ∧
        (¬Flagged t ∧ e.policy = .TreatAsWithdraw ∨
          Flagged t ∧ ¬Readable four_byte_asn t.value k ∧
            e.policy = if k ∈ revoking then .TreatAsWithdraw else .AttributeDiscard) := by
  rw [outcome_known four_byte_asn hcode, ← readable_iff]
  split
  · next hflags =>
    cases decode_known_value four_byte_asn t.value k with
    | ok a => exact .inl ⟨hflags, ⟨a, rfl⟩, a, rfl⟩
    | error e =>
      refine .inr ⟨_, rfl, .inr ⟨hflags, by simp, ?_⟩⟩
      rw [value_error, hcode]
      exact rfc7606_policy_code k
  · next hflags => exact .inr ⟨_, rfl, .inl ⟨hflags, rfl⟩⟩

/-- What is not kept resets the session, or is a known attribute with one of the two errors. -/
theorem outcome_eq_error {e : AttributeError} (h : outcome four_byte_asn false t = .error e) :
    e.policy.is_session_reset = true ∨ ∃ k : AttrType, t.type_code = k.code ∧
      (¬Flagged t ∧ e.policy = .TreatAsWithdraw ∨
        Flagged t ∧ ¬Readable four_byte_asn t.value k ∧
          e.policy = if k ∈ revoking then .TreatAsWithdraw else .AttributeDiscard) := by
  cases hof : AttrType.of_code t.type_code with
  | none =>
    left
    rw [outcome, if_neg Bool.false_ne_true, expected_optional_transitive, decode_attr_value,
      hof] at h
    dsimp only at h
    split at h
    · cases h
    · cases h
      rfl
  | some k =>
    right
    have hcode := (AttrType.of_code_eq_some hof).symm
    obtain ⟨-, -, a, ha⟩ | ⟨e', he', hcases⟩ := outcome_cases four_byte_asn hcode
    · cases h.symm.trans ha
    · cases h.symm.trans he'
      exact ⟨k, hcode, hcases⟩

theorem revokes_iff : Revokes four_byte_asn t ↔
    ∃ e, outcome four_byte_asn false t = .error e ∧ e.policy = .TreatAsWithdraw := by
  constructor
  · rintro ⟨k, hcode, hbad⟩
    obtain ⟨hflags, hread, -⟩ | ⟨e, he, ⟨-, hpolicy⟩ | ⟨hflags, -, hpolicy⟩⟩ :=
      outcome_cases four_byte_asn hcode
    · exact absurd hbad (by simp [hflags, hread])
    · exact ⟨e, he, hpolicy⟩
    · rw [if_pos (hbad.resolve_left (not_not.2 hflags)).1] at hpolicy
      exact ⟨e, he, hpolicy⟩
  · rintro ⟨e, he, hpolicy⟩
    obtain hreset | ⟨k, hcode, ⟨hflags, -⟩ | ⟨-, hread, hk⟩⟩ := outcome_eq_error he
    · rw [hpolicy] at hreset
      cases hreset
    · exact ⟨k, hcode, .inl hflags⟩
    · refine ⟨k, hcode, .inr ⟨?_, hread⟩⟩
      by_contra hnot
      rw [if_neg hnot, hpolicy] at hk
      cases hk

open Classical in
theorem discards_iff {before : List CompleteTlv} {t : CompleteTlv} :
    Discards four_byte_asn before t ↔
      ∃ e, outcome four_byte_asn (decide (Occurs t.type_code before)) t.toTlv = .error e
        ∧ e.policy = .AttributeDiscard := by
  by_cases hocc : Occurs t.type_code before
  · simp only [Discards, hocc, true_and, not_true, false_and, or_false, decide_true, outcome,
      if_true, Except.error.injEq, exists_eq_left', duplicate_error]
    split
    · next hmp => exact iff_of_false (fun h => hmp.elim h.1 h.2) (by simp)
    · next hmp => exact iff_of_true (not_or.1 hmp) rfl
  · simp only [Discards, hocc, false_and, not_false_eq_true, true_and, false_or, decide_false]
    constructor
    · rintro ⟨k, hcode, hflags, hk, hread⟩
      obtain ⟨-, hread', -⟩ | ⟨e, he, ⟨hflags', -⟩ | ⟨-, -, hpolicy⟩⟩ :=
        outcome_cases four_byte_asn hcode
      · exact absurd hread' hread
      · exact absurd hflags hflags'
      · exact ⟨e, he, hpolicy.trans (if_neg hk)⟩
    · rintro ⟨e, he, hpolicy⟩
      obtain hreset | ⟨k, hcode, ⟨-, hwithdraw⟩ | ⟨hflags, hread, hk⟩⟩ := outcome_eq_error he
      · rw [hpolicy] at hreset
        cases hreset
      · cases hpolicy.symm.trans hwithdraw
      · refine ⟨k, hcode, hflags, fun hmem => ?_, hread⟩
        rw [if_pos hmem, hpolicy] at hk
        cases hk

end Pathvector.Wire
