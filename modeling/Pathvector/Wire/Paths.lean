/-
# AS paths on the wire

The segments of an AS_PATH or AS4_PATH value. A segment has one octet for the number of its AS
numbers, and the encoder writes the number without a check. So a path can be written if no segment
has more than 255 of them (`AsPath.Writable`); decoding gives such paths, and what the daemon does
to a path keeps it one.
-/
import Pathvector.Wire.Attributes

set_option autoImplicit false

namespace Pathvector

namespace Wire

variable {cur rest : List UInt8} {asns : List Asn} {n : ℕ}

/-! ## What was read is written -/

theorem read_asns_eq_ok (h : read_asns n cur = .ok (asns, rest)) :
    asns.length = n ∧ cur = asns.flatMap put_u32 ++ rest := by
  induction n generalizing cur asns with
  | zero =>
    cases h
    exact ⟨rfl, rfl⟩
  | succ n ih =>
    unfold read_asns at h
    split at h
    · cases h
    · obtain ⟨⟨asn, c1⟩, hasn, h1⟩ := Reader.bind_eq_ok.1 h
      obtain ⟨⟨asns', c2⟩, hasns, h2⟩ := Reader.bind_eq_ok.1 h1
      cases h2
      obtain ⟨hlen, hcur⟩ := ih hasns
      refine ⟨by rw [List.length_cons, hlen], ?_⟩
      rw [read_u32_eq_ok hasn, hcur, List.flatMap_cons, List.append_assoc]

/-- The octet for the kind of a segment. -/
def segment_type : AsPathSegment → UInt8
  | .Set _ => 1
  | .Sequence _ => 2
  | .ConfedSequence _ => 3
  | .ConfedSet _ => 4

theorem encode_as_path_segment_eq (seg : AsPathSegment) : encode_as_path_segment seg
    = segment_type seg :: UInt8.ofNat seg.asns.length :: seg.asns.flatMap put_u32 := by
  cases seg <;> rfl

theorem segment_of_eq_some {seg_type : UInt8} {seg : AsPathSegment} :
    segment_of seg_type asns = some seg ↔ segment_type seg = seg_type ∧ seg.asns = asns := by
  unfold segment_of
  constructor
  · intro h
    split_ifs at h with h1 h2 h3 h4
    all_goals
      cases h
      exact ⟨Eq.symm ‹_›, rfl⟩
  · rintro ⟨rfl, rfl⟩
    cases seg <;> rfl

theorem decode_as_path_segment_eq_ok {seg : AsPathSegment}
    (h : decode_as_path_segment cur = .ok (seg, rest)) :
    cur = encode_as_path_segment seg ++ rest ∧ seg.asns.length ≤ 255 := by
  obtain ⟨⟨seg_type, c1⟩, htype, h1⟩ := Reader.bind_eq_ok.1 h
  obtain ⟨⟨count, c2⟩, hcount, h2⟩ := Reader.bind_eq_ok.1 h1
  obtain ⟨⟨asns, c3⟩, hasns, h3⟩ := Reader.bind_eq_ok.1 h2
  dsimp only at h3
  split at h3
  · rename_i seg' hseg
    cases h3
    obtain ⟨hlen, rfl⟩ := read_asns_eq_ok hasns
    obtain rfl := read_u8_eq_ok hcount
    obtain rfl := read_u8_eq_ok htype
    obtain ⟨rfl, rfl⟩ := segment_of_eq_some.1 hseg
    rw [encode_as_path_segment_eq, hlen, UInt8.ofNat_toNat]
    exact ⟨rfl, Nat.le_of_lt_succ count.toNat_lt⟩
  · cases h3

theorem consumes_decode_as_path_segment :
    Reader.Consumes decode_as_path_segment encode_as_path_segment :=
  fun _ _ _ h => (decode_as_path_segment_eq_ok h).1

theorem encode_as_path_segment_ne_nil (seg : AsPathSegment) : encode_as_path_segment seg ≠ [] :=
  List.cons_ne_nil _ _

theorem decode_as_path_segments_eq_ok {segments : List AsPathSegment}
    (h : decode_as_path_segments cur = .ok segments) : encode_as_path_segments ⟨segments⟩ = cur :=
  (consumes_decode_as_path_segment.read_all encode_as_path_segment_ne_nil h).symm

/-! ## What was written is read -/

theorem read_asns_flatMap (asns : List Asn) (rest : List UInt8) :
    read_asns asns.length (asns.flatMap put_u32 ++ rest) = .ok (asns, rest) := by
  induction asns with
  | nil => rfl
  | cons asn asns ih =>
    rw [List.flatMap_cons, List.append_assoc, List.length_cons, read_asns, if_neg (by simp),
      read_u32_put_u32]
    simp only [Reader.ok_bind, ih]
    rfl

theorem decode_as_path_segment_append {seg : AsPathSegment} (h : seg.asns.length ≤ 255)
    (rest : List UInt8) :
    decode_as_path_segment (encode_as_path_segment seg ++ rest) = .ok (seg, rest) := by
  have hcount : (UInt8.ofNat seg.asns.length).toNat = seg.asns.length :=
    Nat.mod_eq_of_lt (by omega)
  rw [encode_as_path_segment_eq, List.cons_append, List.cons_append]
  simp only [decode_as_path_segment, read_u8_cons, Reader.ok_bind, hcount, read_asns_flatMap,
    segment_of_eq_some.2 ⟨rfl, rfl⟩]

end Wire

namespace AsPath

variable {path : AsPath}

/-- Each segment has room for the number of its AS numbers. -/
def Writable (path : AsPath) : Prop := ∀ seg ∈ path.segments, seg.asns.length ≤ 255
deriving Decidable

theorem decode_encode_of_writable (h : path.Writable) :
    Wire.decode_as_path_segments (encode_as_path_segments path) = .ok path.segments :=
  Reader.read_all_flatMap (Wire.consumes_decode_as_path_segment.shrinks
    Wire.encode_as_path_segment_ne_nil)
    fun seg hseg => Wire.decode_as_path_segment_append (h seg hseg)

/-! ## Changing a path -/

/-- What the daemon does to a path. -/
inductive Edit where
  | Prepend (asn : Asn)
  | PrependConfed (asn : Asn)
  | StripConfedSegments
  | DowngradeForTwoBytePeer

/-- The path after an edit. The original goes into the AS4_PATH of a downgrade. -/
def edit (path : AsPath) : Edit → AsPath
  | .Prepend asn => path.prepend asn
  | .PrependConfed asn => path.prepend_confed asn
  | .StripConfedSegments => path.strip_confed_segments
  | .DowngradeForTwoBytePeer => path.downgrade_for_two_byte_peer.1

/-- By how much an edit makes a path longer. -/
def Edit.growth : Edit → ℕ
  | .Prepend _ => 1
  | _ => 0

theorem path_length_cons (seg : AsPathSegment) (segments : List AsPathSegment) :
    path_length ⟨seg :: segments⟩ = seg.path_length + path_length ⟨segments⟩ := rfl

theorem writable_cons {seg : AsPathSegment} {segments : List AsPathSegment} :
    Writable ⟨seg :: segments⟩ ↔ seg.asns.length ≤ 255 ∧ Writable ⟨segments⟩ := List.forall_mem_cons

theorem prepend_spec (path : AsPath) (asn : Asn) (h : path.Writable) :
    (path.prepend asn).Writable ∧ (path.prepend asn).path_length = path.path_length + 1 := by
  have hnew : Writable ⟨.Sequence [asn] :: path.segments⟩ ∧
      path_length ⟨.Sequence [asn] :: path.segments⟩ = path.path_length + 1 :=
    ⟨writable_cons.2 ⟨by simp [AsPathSegment.asns], h⟩, Nat.add_comm ..⟩
  unfold prepend
  split
  · next asns rest hsegs =>
    obtain ⟨segments⟩ := path
    obtain rfl : segments = _ := hsegs
    split
    · next hroom =>
      refine ⟨writable_cons.2 ⟨hroom, (writable_cons.1 h).2⟩, ?_⟩
      rw [path_length_cons, path_length_cons]
      simp only [AsPathSegment.path_length, List.length_cons]
      omega
    · exact hnew
  · exact hnew

theorem prepend_confed_spec (path : AsPath) (asn : Asn) (h : path.Writable) :
    (path.prepend_confed asn).Writable ∧
      (path.prepend_confed asn).path_length = path.path_length := by
  have hnew : Writable ⟨.ConfedSequence [asn] :: path.segments⟩ ∧
      path_length ⟨.ConfedSequence [asn] :: path.segments⟩ = path.path_length :=
    ⟨writable_cons.2 ⟨by simp [AsPathSegment.asns], h⟩, Nat.zero_add _⟩
  unfold prepend_confed
  split
  · next asns rest hsegs =>
    obtain ⟨segments⟩ := path
    obtain rfl : segments = _ := hsegs
    split
    · next hroom => exact ⟨writable_cons.2 ⟨hroom, (writable_cons.1 h).2⟩, rfl⟩
    · exact hnew
  · exact hnew

theorem strip_confed_spec (path : AsPath) (h : path.Writable) :
    path.strip_confed_segments.Writable ∧
      path.strip_confed_segments.path_length = path.path_length := by
  refine ⟨fun seg hseg => h seg (List.mem_of_mem_filter hseg), ?_⟩
  obtain ⟨segments⟩ := path
  induction segments with
  | nil => rfl
  | cons seg segments ih =>
    have hrest := ih (writable_cons.1 h).2
    unfold strip_confed_segments at hrest ⊢
    rw [path_length_cons, ← hrest, List.filter_cons]
    -- a confederation segment counts for nothing
    cases seg
    case Sequence => rfl
    case Set => rfl
    all_goals exact (Nat.zero_add _).symm

theorem downgrade_spec (path : AsPath) (h : path.Writable) :
    path.downgrade_for_two_byte_peer.1.Writable ∧
      path.downgrade_for_two_byte_peer.1.path_length = path.path_length := by
  unfold downgrade_for_two_byte_peer
  split
  · have hseg : ∀ seg : AsPathSegment, ∀ v : List Asn, v.length = seg.asns.length →
        (seg.with_asns v).asns.length = seg.asns.length ∧
          (seg.with_asns v).path_length = seg.path_length := by
      intro seg v hv
      cases seg
      case Sequence => exact ⟨hv, hv⟩
      all_goals exact ⟨hv, rfl⟩
    constructor
    · intro seg' hseg'
      obtain ⟨seg, hmem, rfl⟩ := List.mem_map.1 hseg'
      rw [(hseg seg _ (List.length_map _)).1]
      exact h seg hmem
    · simp only [path_length, List.map_map]
      congr 1
      exact List.map_congr_left fun seg _ => (hseg seg _ (List.length_map _)).2
  · exact ⟨h, rfl⟩

theorem edit_spec (path : AsPath) (e : Edit) (h : path.Writable) :
    (path.edit e).Writable ∧ (path.edit e).path_length = path.path_length + e.growth := by
  cases e with
  | Prepend asn => exact path.prepend_spec asn h
  | PrependConfed asn => exact path.prepend_confed_spec asn h
  | StripConfedSegments => exact path.strip_confed_spec h
  | DowngradeForTwoBytePeer => exact path.downgrade_spec h

/-- **Path surgery.** However often a path is changed, it can be written and is read back, and of
all changes only `prepend` makes it longer, by one. -/
theorem path_surgery (path : AsPath) (edits : List Edit) (h : path.Writable) :
    (edits.foldl edit path).Writable ∧
      Wire.decode_as_path_segments (encode_as_path_segments (edits.foldl edit path))
        = .ok (edits.foldl edit path).segments ∧
      ∀ e, ((edits.foldl edit path).edit e).path_length
        = (edits.foldl edit path).path_length + e.growth := by
  have hall : (edits.foldl edit path).Writable := by
    induction edits generalizing path with
    | nil => exact h
    | cons e edits ih => exact ih (path.edit e) (path.edit_spec e h).1
  exact ⟨hall, decode_encode_of_writable hall, fun e => (edit_spec _ e hall).2⟩

/-- A path with a set, changed in all four ways. -/
theorem set_path_surgery :
    Writable ⟨[.Set [65001]]⟩ ∧
      Wire.decode_as_path_segments (encode_as_path_segments (edit (edit (edit (edit
        ⟨[.Set [65001]]⟩ (.Prepend 131072)) (.PrependConfed 65003)) .DowngradeForTwoBytePeer)
          .StripConfedSegments)) = .ok [.Sequence [Asn.TRANS], .Set [65001]] := by
  have hset : Writable ⟨[.Set [65001]]⟩ := by decide
  exact ⟨hset, (path_surgery _ [.Prepend 131072, .PrependConfed 65003, .DowngradeForTwoBytePeer,
    .StripConfedSegments] hset).2.1⟩

end AsPath

end Pathvector
