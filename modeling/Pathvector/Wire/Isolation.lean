/-
# One attribute does not touch another

The loop of `decode_path_attributes` over a block of complete attributes. Each attribute has one
outcome: it is kept, or it is an error entry. The outcome is a function of the attribute itself,
of the AS mode and of whether its type code was there before; so an attribute that is malformed,
changed or left out changes nothing for the attributes of other types.
-/
import Pathvector.Wire.Attributes

set_option autoImplicit false

namespace Pathvector.Wire

variable (four_byte_asn : Bool) {cur rest : List UInt8} {t : Tlv} {a : PathAttribute}
  {ts : List Tlv} {k : AttrType}

/-! ## Reading the triples -/

theorem Tlv.length_len_bytes (t : Tlv) : t.len_bytes.length = if t.extended then 2 else 1 := by
  unfold Tlv.len_bytes
  split
  · exact length_be_bytes ..
  · rfl

theorem read_len_len_bytes (h : t.Complete) (rest : List UInt8) :
    read_len t.flags (t.len_bytes ++ rest) = .ok (t.value.length, rest) := by
  unfold Tlv.Complete at h
  unfold read_len Tlv.len_bytes
  by_cases hext : t.extended = true
  · have hlt : t.value.length < 2 ^ 16 := by
      rw [if_pos hext] at h
      omega
    have hx : (UInt16.ofNat t.value.length).toNat = t.value.length := by
      rw [UInt16.toNat_ofNat', Nat.mod_eq_of_lt hlt]
    have hread := read_u16_be_bytes (UInt16.ofNat t.value.length) rest
    rw [hx] at hread
    have hflag : (t.flags &&& FLAG_EXT_LEN != 0) = true := hext
    rw [if_pos hext, if_pos hflag, hread, Reader.ok_bind]
    simp only [hx]
    rfl
  · have hlt : t.value.length < 2 ^ 8 := by
      rw [if_neg hext] at h
      omega
    have hx : (UInt8.ofNat t.value.length).toNat = t.value.length := by
      rw [UInt8.toNat_ofNat', Nat.mod_eq_of_lt hlt]
    have hflag : ¬(t.flags &&& FLAG_EXT_LEN != 0) = true := hext
    rw [if_neg hext, if_neg hflag, List.singleton_append, read_u8_cons, Reader.ok_bind]
    simp only [hx]
    rfl

theorem read_attribute_bytes (h : t.Complete) (rest : List UInt8) :
    read_attribute (t.bytes ++ rest) = .ok (t, rest) := by
  have hbytes : t.bytes ++ rest = t.flags :: t.type_code :: (t.len_bytes ++ (t.value ++ rest)) := by
    simp only [Tlv.bytes, List.cons_append, List.append_assoc]
  unfold read_attribute
  rw [hbytes, read_u8_cons, Reader.ok_bind]
  dsimp only
  rw [read_u8_cons, Reader.ok_bind]
  rw [read_len_len_bytes h, Reader.ok_bind]
  rw [read_bytes_append rfl, Reader.ok_bind]
  rfl

theorem read_len_eq_ok {flags : UInt8} {len : ℕ} (h : read_len flags cur = .ok (len, rest))
    (type_code : UInt8) {val : List UInt8} (hval : val.length = len) :
    (⟨flags, type_code, val⟩ : Tlv).Complete
      ∧ cur = (⟨flags, type_code, val⟩ : Tlv).len_bytes ++ rest := by
  unfold read_len at h
  split at h
  · rename_i hflag
    have hext : (⟨flags, type_code, val⟩ : Tlv).extended = true := hflag
    obtain ⟨⟨x, rest'⟩, hx, heq⟩ := Reader.bind_eq_ok.1 h
    cases heq
    have hlt := x.toNat_lt
    refine ⟨?_, ?_⟩
    · unfold Tlv.Complete
      rw [if_pos hext, hval]
      omega
    · rw [Tlv.len_bytes, if_pos hext, hval]
      exact read_u16_eq_ok hx
  · rename_i hflag
    have hext : ¬(⟨flags, type_code, val⟩ : Tlv).extended = true := hflag
    obtain ⟨⟨x, rest'⟩, hx, heq⟩ := Reader.bind_eq_ok.1 h
    cases heq
    have hlt := x.toNat_lt
    refine ⟨?_, ?_⟩
    · unfold Tlv.Complete
      rw [if_neg hext, hval]
      omega
    · rw [Tlv.len_bytes, if_neg hext, hval, UInt8.ofNat_toNat]
      exact read_u8_eq_ok hx

theorem read_attribute_eq_ok (h : read_attribute cur = .ok (t, rest)) :
    t.Complete ∧ cur = t.bytes ++ rest := by
  obtain ⟨⟨flags, c1⟩, hflags, h1⟩ := Reader.bind_eq_ok.1 h
  obtain ⟨⟨type_code, c2⟩, htype, h2⟩ := Reader.bind_eq_ok.1 h1
  obtain ⟨⟨len, c3⟩, hlen, h3⟩ := Reader.bind_eq_ok.1 h2
  obtain ⟨⟨val, c4⟩, hval, h4⟩ := Reader.bind_eq_ok.1 h3
  cases h4
  obtain ⟨rfl, hvlen⟩ := read_bytes_eq_ok hval
  obtain ⟨hcomplete, rfl⟩ := read_len_eq_ok hlen type_code hvlen
  obtain rfl := read_u8_eq_ok htype
  obtain rfl := read_u8_eq_ok hflags
  refine ⟨hcomplete, ?_⟩
  simp only [Tlv.bytes, List.cons_append, List.append_assoc]

theorem shrinks_read_attribute : Reader.Shrinks read_attribute := by
  intro cur t rest h
  obtain ⟨-, rfl⟩ := read_attribute_eq_ok h
  simp only [Tlv.bytes, List.cons_append, List.length_cons, List.length_append]
  omega

theorem splits_read_attribute :
    Reader.Splits read_attribute cur ts ↔ cur = ts.flatMap Tlv.bytes ∧ ∀ t ∈ ts, t.Complete := by
  constructor
  · intro h
    induction h with
    | nil => exact ⟨rfl, by simp⟩
    | @cons cur rest t ts _ hread _ ih =>
      obtain ⟨ht, rfl⟩ := read_attribute_eq_ok hread
      obtain ⟨rfl, hts⟩ := ih
      exact ⟨rfl, by simpa using ⟨ht, hts⟩⟩
  · rintro ⟨rfl, hts⟩
    induction ts with
    | nil => exact .nil
    | cons t ts ih =>
      rw [List.forall_mem_cons] at hts
      exact .cons (by simp [Tlv.bytes]) (read_attribute_bytes hts.1 _) (ih hts.2)

/-! ## The outcomes -/

/-- What is kept of an outcome. -/
def kept? (o : Except AttributeError PathAttribute) : Option PathAttribute := o.toOption

/-- The error entry of an outcome. -/
def failed? : Except AttributeError PathAttribute → Option AttributeError
  | .ok _ => none
  | .error e => some e

/-- The outcomes of the attributes of a block, when `seen` was there before it. -/
def outcomes (four_byte_asn : Bool) :
    List UInt8 → List Tlv → List (Except AttributeError PathAttribute)
  | _, [] => []
  | seen, t :: ts =>
    outcome four_byte_asn (seen.contains t.type_code) t
      :: outcomes four_byte_asn (t.type_code :: seen) ts

theorem type_code_of_decode {four_byte_asn : Bool} {v : List UInt8}
    (h : decode_known_value four_byte_asn v k = .ok a) : a.type_code = k.code := by
  cases k <;>
    simp only [decode_known_value, exactly, multiple_of, decode_aggregator, decode_mp_reach,
      decode_mp_unreach] at h <;>
    repeat' split at h
  all_goals
    simp only [Reader.bind_eq_ok, pure, Except.pure, Except.ok.injEq, reduceCtorEq] at h
  all_goals
    grind [PathAttribute.type_code, AttrType.code]

/-- What the decoder kept: the value of an attribute it knows, with the flags it expects, or an
optional attribute it does not know as it stands. -/
theorem outcome_eq_ok {four_byte_asn seen : Bool} (h : outcome four_byte_asn seen t = .ok a) :
    seen = false ∧
      ((∃ k, AttrType.of_code t.type_code = some k
          ∧ expected_optional_transitive t.type_code = some (t.optional, t.transitive)
          ∧ decode_known_value four_byte_asn t.value k = .ok a)
        ∨ (AttrType.of_code t.type_code = none ∧ t.optional = true
          ∧ a = .Unknown t.flags t.type_code t.value)) := by
  have mapError_ok {x : Except CodecError PathAttribute} {f : CodecError → AttributeError}
      (hx : x.mapError f = .ok a) : x = .ok a := by
    cases x with
    | ok b => exact congrArg Except.ok (Except.ok.inj hx)
    | error e => cases hx
  unfold outcome at h
  split at h
  · cases h
  · rename_i hseen
    refine ⟨Bool.eq_false_of_not_eq_true hseen, ?_⟩
    cases hexpected : expected_optional_transitive t.type_code with
    | some e =>
      left
      rw [hexpected] at h
      dsimp only at h
      split at h
      · cases h
      · rename_i hbits
        have hdecoded := mapError_ok h
        cases hcode : AttrType.of_code t.type_code with
        | some k =>
          rw [decode_attr_value, hcode] at hdecoded
          rw [not_or, not_not, not_not] at hbits
          exact ⟨k, rfl, by rw [hbits.1, hbits.2], hdecoded⟩
        | none =>
          rw [expected_optional_transitive, hcode] at hexpected
          cases hexpected
    | none =>
      right
      rw [hexpected] at h
      dsimp only at h
      -- every code with a name has its flags in the table
      have hcode : AttrType.of_code t.type_code = none := by
        cases hcode : AttrType.of_code t.type_code with
        | none => rfl
        | some k =>
          rw [expected_optional_transitive, hcode] at hexpected
          cases k <;> cases hexpected
      split at h
      · have hdecoded := mapError_ok h
        rw [decode_attr_value, hcode] at hdecoded
        exact ⟨hcode, ‹_›, (Except.ok.inj hdecoded).symm⟩
      · cases h

/-- An attribute with the flags the decoder expects is kept if its value decodes. -/
theorem outcome_of_expected {four_byte_asn : Bool} (hcode : t.type_code = k.code)
    (hexpected : expected_optional_transitive t.type_code = some (t.optional, t.transitive))
    (hvalue : decode_known_value four_byte_asn t.value k = .ok a) :
    outcome four_byte_asn false t = .ok a := by
  have hdecoded : decode_attr_value t.flags t.type_code t.value four_byte_asn = .ok a := by
    rw [decode_attr_value, hcode, AttrType.of_code_code]
    exact hvalue
  rw [outcome, if_neg Bool.false_ne_true]
  rw [hexpected, hdecoded]
  simp [Except.mapError]

theorem eq_map_ok {os : List (Except AttributeError PathAttribute)}
    (h : os.filterMap failed? = []) : os = (os.filterMap kept?).map .ok := by
  induction os with
  | nil => rfl
  | cons o os ih =>
    cases o with
    | ok a =>
      have hos := ih (by simpa [failed?] using h)
      exact congrArg (Except.ok a :: ·) hos
    | error e => simp [failed?] at h

theorem take_attribute_eq (st : AttrState) (t : Tlv) :
    take_attribute four_byte_asn st t =
      ⟨st.attrs ++ (kept? (outcome four_byte_asn (st.seen.contains t.type_code) t)).toList,
        st.errors ++ (failed? (outcome four_byte_asn (st.seen.contains t.type_code) t)).toList,
        t.type_code :: st.seen⟩ := by
  unfold take_attribute
  split
  · rename_i a h
    rw [h, failed?, Option.toList_none, List.append_nil]
    rfl
  · rename_i e h
    rw [h, failed?]
    simp [kept?, Except.toOption]

theorem foldl_take_attribute (ts : List Tlv) (st : AttrState) :
    ts.foldl (take_attribute four_byte_asn) st =
      ⟨st.attrs ++ (outcomes four_byte_asn st.seen ts).filterMap kept?,
        st.errors ++ (outcomes four_byte_asn st.seen ts).filterMap failed?,
        (ts.map Tlv.type_code).reverse ++ st.seen⟩ := by
  induction ts generalizing st with
  | nil => simp [outcomes]
  | cons t ts ih =>
    rw [List.foldl_cons, ih, take_attribute_eq, outcomes]
    simp only [List.filterMap_cons, List.map_cons, List.reverse_cons, List.append_assoc,
      List.singleton_append]
    cases outcome four_byte_asn (st.seen.contains t.type_code) t with
    | ok a => simp [kept?, failed?, Except.toOption]
    | error e => simp [kept?, failed?, Except.toOption]

/-- `decode_path_attributes` on a block of complete attributes. -/
theorem decode_path_attributes_bytes (hts : ∀ t ∈ ts, t.Complete) :
    decode_path_attributes (ts.flatMap Tlv.bytes) four_byte_asn =
      .ok ((outcomes four_byte_asn [] ts).filterMap kept?,
        (outcomes four_byte_asn [] ts).filterMap failed?) := by
  have hdrain := Reader.drain_of_splits (f := take_attribute four_byte_asn) (fun _ _ => rfl)
    shrinks_read_attribute (splits_read_attribute.2 ⟨rfl, hts⟩) le_rfl AttrState.new
  rw [decode_path_attributes, hdrain, foldl_take_attribute]
  rfl

theorem decode_path_attributes_eq_ok {four_byte_asn : Bool} {attrs : List PathAttribute}
    {errors : List AttributeError}
    (h : decode_path_attributes cur four_byte_asn = .ok (attrs, errors)) :
    ∃ ts : List Tlv, cur = ts.flatMap Tlv.bytes ∧ (∀ t ∈ ts, t.Complete)
      ∧ attrs = (outcomes four_byte_asn [] ts).filterMap kept?
      ∧ errors = (outcomes four_byte_asn [] ts).filterMap failed? := by
  unfold decode_path_attributes at h
  cases hdrain : Reader.drain (fun st cur => (read_attribute cur).map fun r =>
      (take_attribute four_byte_asn st r.1, r.2)) cur.length AttrState.new cur with
  | error e =>
    rw [hdrain] at h
    cases h
  | ok st =>
    obtain ⟨ts, hsplits, rfl⟩ := Reader.splits_of_drain (f := take_attribute four_byte_asn)
      (fun _ _ => rfl) shrinks_read_attribute le_rfl hdrain
    obtain ⟨rfl, hts⟩ := splits_read_attribute.1 hsplits
    have hok := decode_path_attributes_bytes four_byte_asn hts
    rw [decode_path_attributes, h] at hok
    cases hok
    exact ⟨ts, rfl, hts, rfl, rfl⟩

@[simp]
theorem length_outcomes (seen : List UInt8) (ts : List Tlv) :
    (outcomes four_byte_asn seen ts).length = ts.length := by
  induction ts generalizing seen with
  | nil => rfl
  | cons t ts ih => rw [outcomes, List.length_cons, ih, List.length_cons]

theorem outcomes_append (seen : List UInt8) (ts us : List Tlv) :
    outcomes four_byte_asn seen (ts ++ us) =
      outcomes four_byte_asn seen ts
        ++ outcomes four_byte_asn ((ts.map Tlv.type_code).reverse ++ seen) us := by
  induction ts generalizing seen with
  | nil => rfl
  | cons t ts ih =>
    rw [List.cons_append, outcomes, ih, outcomes, List.cons_append, List.map_cons,
      List.reverse_cons, List.append_assoc, List.singleton_append]

/-! ## Isolation -/

/-- An attribute whose length field can say how long it is. -/
structure CompleteTlv extends Tlv where
  complete : toTlv.Complete

/-- The octets of a block. -/
def block_bytes (ts : List CompleteTlv) : List UInt8 := (ts.map CompleteTlv.toTlv).flatMap Tlv.bytes

/-- The type code occurs in the block. -/
def Occurs (type_code : UInt8) (ts : List CompleteTlv) : Prop := ∃ t ∈ ts, t.type_code = type_code

/-- After the block `before`, the attribute `t` adds the outcome `o` to what decoding returns. -/
def Yields (before : List CompleteTlv) (t : CompleteTlv) (o : Except AttributeError PathAttribute) :
    Prop :=
  ∃ attrs errors,
    decode_path_attributes (block_bytes before) four_byte_asn = .ok (attrs, errors) ∧
      decode_path_attributes (block_bytes (before ++ [t])) four_byte_asn =
        .ok (attrs ++ (kept? o).toList, errors ++ (failed? o).toList)

/-- The outcomes of a whole block. -/
def block_outcomes (ts : List CompleteTlv) : List (Except AttributeError PathAttribute) :=
  outcomes four_byte_asn [] (ts.map CompleteTlv.toTlv)

theorem decode_block (ts : List CompleteTlv) :
    decode_path_attributes (block_bytes ts) four_byte_asn =
      .ok ((block_outcomes four_byte_asn ts).filterMap kept?,
        (block_outcomes four_byte_asn ts).filterMap failed?) := by
  refine decode_path_attributes_bytes four_byte_asn fun t ht => ?_
  obtain ⟨t', -, rfl⟩ := List.mem_map.1 ht
  exact t'.complete

theorem outcome_ext {o o' : Except AttributeError PathAttribute} (hk : kept? o = kept? o')
    (hf : failed? o = failed? o') : o = o' := by
  cases o with
  | ok a =>
    cases o' with
    | ok a' => simpa [kept?, Except.toOption] using hk
    | error e' => simp [failed?] at hf
  | error e =>
    cases o' with
    | ok a' => simp [failed?] at hf
    | error e' => simpa [failed?] using hf

open Classical in
theorem contains_seen (before : List CompleteTlv) (type_code : UInt8) :
    ((before.map CompleteTlv.toTlv).map Tlv.type_code).reverse.contains type_code
      = decide (Occurs type_code before) := by
  rw [List.contains_reverse, Bool.eq_iff_iff, List.contains_iff_mem, decide_eq_true_iff]
  simp [Occurs]

open Classical in
theorem block_outcomes_concat (before : List CompleteTlv) (t : CompleteTlv) :
    block_outcomes four_byte_asn (before ++ [t]) = block_outcomes four_byte_asn before
      ++ [outcome four_byte_asn (decide (Occurs t.type_code before)) t.toTlv] := by
  rw [block_outcomes, List.map_append, outcomes_append, List.append_nil, List.map_singleton,
    outcomes, outcomes, contains_seen]
  rfl

open Classical in
/-- The outcomes of a block are those of its attributes, each after what comes before it. -/
theorem mem_block_outcomes {ts : List CompleteTlv} {o : Except AttributeError PathAttribute} :
    o ∈ block_outcomes four_byte_asn ts ↔ ∃ before t after, ts = before ++ t :: after ∧
      o = outcome four_byte_asn (decide (Occurs t.type_code before)) t.toTlv := by
  constructor
  · intro h
    induction ts using List.reverseRecOn with
    | nil => cases h
    | append_singleton ts t ih =>
      rw [block_outcomes_concat, List.mem_append, List.mem_singleton] at h
      rcases h with h | rfl
      · obtain ⟨before, t', after, rfl, rfl⟩ := ih h
        exact ⟨before, t', after ++ [t], by simp, rfl⟩
      · exact ⟨ts, t, [], rfl, rfl⟩
  · rintro ⟨before, t, after, rfl, rfl⟩
    rw [block_outcomes, List.map_append, outcomes_append, List.append_nil, List.map_cons, outcomes,
      contains_seen]
    exact List.mem_append_right _ List.mem_cons_self

open Classical in
/-- The one outcome of an attribute: it looks at the attribute and at whether its type code was
there before. -/
theorem yields_iff (before : List CompleteTlv) (t : CompleteTlv)
    (o : Except AttributeError PathAttribute) :
    Yields four_byte_asn before t o ↔
      o = outcome four_byte_asn (decide (Occurs t.type_code before)) t.toTlv := by
  unfold Yields
  rw [decode_block, decode_block, block_outcomes_concat]
  generalize outcome four_byte_asn (decide (Occurs t.type_code before)) t.toTlv = o'
  simp only [List.filterMap_append, List.filterMap_cons, List.filterMap_nil]
  constructor
  · rintro ⟨attrs, errors, h, h'⟩
    cases h
    simp only [Except.ok.injEq, Prod.mk.injEq, List.append_cancel_left_eq] at h'
    refine outcome_ext ?_ ?_
    · cases o' <;> cases o <;> simp_all [kept?, Except.toOption]
    · cases o' <;> cases o <;> simp_all [failed?]
  · rintro rfl
    refine ⟨_, _, rfl, ?_⟩
    cases o with
    | ok a => simp [kept?, failed?, Except.toOption]
    | error e => simp [kept?, failed?, Except.toOption]

/-- **Attributes are isolated.** Decoding a block of complete attributes yields one outcome for
each, kept attributes and error entries in the order of the wire; a type code that was there
before yields the duplicate error; and what comes before an attribute matters only through whether
its type code occurs there. -/
theorem attributes_isolated (four_byte_asn : Bool) :
    (∀ ts : List CompleteTlv, ∃ os : List (Except AttributeError PathAttribute),
      os.length = ts.length ∧
      decode_path_attributes (block_bytes ts) four_byte_asn =
        .ok (os.filterMap kept?, os.filterMap failed?) ∧
      ∀ before t after, ts = before ++ t :: after →
        ∃ o, os[before.length]? = some o ∧ Yields four_byte_asn before t o) ∧
    (∀ before t, ∃! o, Yields four_byte_asn before t o) ∧
    (∀ before t, Occurs t.type_code before →
      Yields four_byte_asn before t (.error (duplicate_error t.type_code))) ∧
    ∀ before before' t o, (Occurs t.type_code before ↔ Occurs t.type_code before') →
      (Yields four_byte_asn before t o ↔ Yields four_byte_asn before' t o) := by
  classical
  refine ⟨fun ts => ?_, fun before t => ?_, fun before t hocc => ?_,
    fun before before' t o hocc => ?_⟩
  · refine ⟨block_outcomes four_byte_asn ts, ?_, decode_block four_byte_asn ts, ?_⟩
    · rw [block_outcomes, length_outcomes, List.length_map]
    · rintro before t after rfl
      refine ⟨_, ?_, (yields_iff four_byte_asn before t _).2 rfl⟩
      rw [block_outcomes, List.map_append, outcomes_append, List.append_nil, List.map_cons,
        outcomes, contains_seen,
        List.getElem?_append_right (by rw [length_outcomes, List.length_map])]
      simp
  · refine ⟨_, (yields_iff four_byte_asn before t _).2 rfl, fun o ho => ?_⟩
    exact (yields_iff four_byte_asn before t o).1 ho
  · rw [yields_iff, decide_eq_true hocc, outcome, if_pos rfl]
  · rw [yields_iff, yields_iff, decide_eq_decide.2 hocc]

end Pathvector.Wire
