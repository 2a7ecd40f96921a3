/-
# End-of-RIB

When the daemon takes an UPDATE for an End-of-RIB marker. On the wire the IPv4 marker is the empty
UPDATE and the IPv6 marker an UPDATE with one empty MP_UNREACH_NLRI. The daemon looks at the
message the session task hands on, and of a malformed UPDATE that is what was left when the
malformed attributes were taken out.
-/
import Pathvector.Wire.Delivery
import Pathvector.Wire.Values

set_option autoImplicit false

namespace Pathvector

namespace DaemonState

variable (d : DaemonState) (clk : Clock) (peer_ip ip : IpAddr) (msg : UpdateMessage)

/-! ## The markers in the daemon's state -/

theorem not_mem_eor_on_terminated (reason : TerminationReason) :
    ip ∉ (d.on_terminated clk ip reason).rib.eor_received
      ∧ ip ∉ (d.on_terminated clk ip reason).rib.eor_received_v6 := by
  have h := d.standing_on_terminated clk ip reason
  have hv4 : (d.on_terminated clk ip reason).rib.eor_received = _ := congrArg Standing.eor h
  have hv6 : (d.on_terminated clk ip reason).rib.eor_received_v6 = _ :=
    congrArg Standing.eor_v6 h
  rw [hv4, hv6]
  exact ⟨fun h => (AList.mem_erase.1 h).1 rfl, fun h => (AList.mem_erase.1 h).1 rfl⟩

theorem not_mem_eor_handle_terminated (reason : TerminationReason) :
    ip ∉ (d.handle_terminated clk ip reason).rib.eor_received
      ∧ ip ∉ (d.handle_terminated clk ip reason).rib.eor_received_v6 := by
  have hnot := not_mem_eor_on_terminated
    { d with pending_removal := d.pending_removal.erase ip } clk ip reason
  unfold handle_terminated
  dsimp only
  split
  · unfold remove_peer
    split
    · generalize DaemonState.on_terminated _ clk ip reason = t at hnot ⊢
      change ip ∉ (t.forget_peer ip).recompute_selection_deferral.standing.eor ∧
        ip ∉ (t.forget_peer ip).recompute_selection_deferral.standing.eor_v6
      rw [standing_recompute_selection_deferral]
      exact hnot
    · exact hnot
  · exact hnot

theorem eor_on_route_update :
    (ip ∈ (d.on_route_update clk ip msg).1.rib.eor_received ↔
        msg.is_eor_v4 = true ∨ ip ∈ d.rib.eor_received)
      ∧ (ip ∈ (d.on_route_update clk ip msg).1.rib.eor_received_v6 ↔
        (msg.is_eor_v4 = false ∧ msg.is_eor_v6 = true) ∨ ip ∈ d.rib.eor_received_v6) := by
  unfold on_route_update
  by_cases hv4 : msg.is_eor_v4 = true
  · have h := d.standing_on_eor_v4 ip
    have h4 : (d.on_eor_v4 ip).rib.eor_received = _ := congrArg Standing.eor h
    have h6 : (d.on_eor_v4 ip).rib.eor_received_v6 = _ := congrArg Standing.eor_v6 h
    rw [if_pos hv4, h4, h6]
    simp [HashSet.mem_add, hv4, standing]
  · rw [if_neg hv4]
    by_cases hv6 : msg.is_eor_v6 = true
    · have h := d.standing_on_eor_v6 ip
      have h4 : (d.on_eor_v6 ip).rib.eor_received = _ := congrArg Standing.eor h
      have h6 : (d.on_eor_v6 ip).rib.eor_received_v6 = _ := congrArg Standing.eor_v6 h
      rw [if_pos hv6, h4, h6]
      simp [HashSet.mem_add, hv4, hv6, standing]
    · cases hin : d.rr_inbound ip msg with
      | none => simp [hv4, hv6]
      | some msg' =>
        have h := d.standing_on_update_message clk ip msg'
        have h4 : (d.on_update_message clk ip msg').1.rib.eor_received = _ :=
          congrArg Standing.eor h
        have h6 : (d.on_update_message clk ip msg').1.rib.eor_received_v6 = _ :=
          congrArg Standing.eor_v6 h
        simp [hv4, hv6, h4, h6, standing]

/-! ## Stale routes and deferral -/

/-- The peer's route for the prefix is marked stale. -/
def StaleV4 (p : Nlri Ipv4Addr) : Prop :=
  ∃ stale, d.gr.stale_nlri.lookup peer_ip = some stale ∧ p ∈ stale

/-- The peer's route for the IPv6 prefix is marked stale. -/
def StaleV6 (p : Nlri Ipv6Addr) : Prop :=
  ∃ stale, d.gr.stale_nlri_v6.lookup peer_ip = some stale ∧ p ∈ stale

/-- Nothing that End-of-RIB does has been done: no family is released, and a stale route is stale
until it is announced again. -/
structure KeptWaiting (d d' : DaemonState) (peer_ip : IpAddr) (msg : UpdateMessage) : Prop where
  deferral : d'.selection_deferral = d.selection_deferral
  stale_v4 : ∀ p, d.StaleV4 peer_ip p → d'.StaleV4 peer_ip p ∨ p ∈ msg.announced
  stale_v6 : ∀ p, d.StaleV6 peer_ip p → d'.StaleV6 peer_ip p ∨ p ∈ msg.reached_v6

theorem KeptWaiting.refl : KeptWaiting d d ip msg :=
  ⟨rfl, fun _ h => .inl h, fun _ h => .inl h⟩

theorem mem_foldl_erase {K : Type} [DecidableEq K] {l : List K} {st : HashSet K} {p : K}
    (h : p ∈ st) (hp : p ∉ l) : p ∈ l.foldl (fun st n => st.erase n) st := by
  induction l generalizing st with
  | nil => exact h
  | cons n l ih =>
    rw [List.mem_cons, not_or] at hp
    exact ih (AList.mem_erase.2 ⟨hp.1, h⟩) hp.2

theorem keptWaiting_on_update_message :
    KeptWaiting d (d.on_update_message clk ip msg).1 ip msg := by
  cases hu : d.handled clk ip msg with
  | none =>
    simp only [on_update_message, hu]
    exact .refl d ip msg
  | some u =>
    have hgr : (d.on_update_message clk ip msg).1.gr = (d.imported ip msg u).gr
        ∧ (d.on_update_message clk ip msg).1.selection_deferral = d.selection_deferral := by
      unfold on_update_message
      rw [hu]
      dsimp only
      split
      · unfold idle_hold
        split <;> exact ⟨rfl, rfl⟩
      · obtain ⟨_, _, _, _, _, _, _, _, hpub⟩ :=
          (d.imported ip msg u).publish_update_frame clk msg u
        rw [hpub]
        exact ⟨rfl, rfl⟩
    refine ⟨hgr.2, ?_, ?_⟩
    · rintro p ⟨stale, hstale, hp⟩
      by_cases hann : p ∈ msg.announced
      · exact .inr hann
      · refine .inl ⟨msg.announced.foldl (fun st n => st.erase n) stale, ?_,
          mem_foldl_erase hp hann⟩
        rw [hgr.1]
        show (d.gr.stale_nlri.modify ip _).lookup ip = _
        rw [HashMap.lookup_modify, if_pos rfl, hstale]
        rfl
    · rintro p ⟨stale, hstale, hp⟩
      by_cases hann : p ∈ msg.reached_v6
      · exact .inr hann
      · refine .inl ⟨msg.reached_v6.foldl (fun st n => st.erase n) stale, ?_,
          mem_foldl_erase hp hann⟩
        rw [hgr.1]
        show (d.gr.stale_nlri_v6.modify ip _).lookup ip = _
        rw [HashMap.lookup_modify, if_pos rfl, hstale]
        rfl

theorem keptWaiting_on_route_update {msg : UpdateMessage} (hv4 : msg.is_eor_v4 = false)
    (hv6 : msg.is_eor_v6 = false) : KeptWaiting d (d.on_route_update clk ip msg).1 ip msg := by
  unfold on_route_update
  rw [hv4, hv6, if_neg Bool.false_ne_true, if_neg Bool.false_ne_true]
  cases hin : d.rr_inbound ip msg with
  | none => exact .refl d ip msg
  | some msg' =>
    have hsame := samePrefixes_rr_inbound hin
    obtain ⟨hd, h4, h6⟩ := keptWaiting_on_update_message d clk ip msg'
    rw [hsame.announced] at h4
    rw [hsame.reached_v6] at h6
    exact ⟨hd, h4, h6⟩

end DaemonState

namespace Wire

variable {buf : List UInt8} {m : UpdateMessage} {four_byte_asn extended : Bool} {t : Tlv}
  {ts : List CompleteTlv} {withdrawn announced : List (Nlri Ipv4Addr)}

/-! ## What an UPDATE becomes -/

/-- An UPDATE that frames correctly, with what is in its three fields. -/
def Framed (codec : BgpCodec) (buf : List UInt8) (ts : List CompleteTlv)
    (withdrawn announced : List (Nlri Ipv4Addr)) : Prop :=
  ∃ b : Body, b.Fits ∧ buf = with_header .Update b.bytes
    ∧ HEADER_LEN + b.bytes.length ≤ codec.max_msg_len
    ∧ decode_nlri_list_v4 b.wd = .ok withdrawn ∧ b.attrs = block_bytes ts
    ∧ decode_nlri_list_v4 b.ann = .ok announced

/-- The attributes of a block that the decoder keeps. -/
def kept (four_byte_asn : Bool) (ts : List CompleteTlv) : List PathAttribute :=
  (block_outcomes four_byte_asn ts).filterMap kept?

/-- The errors it enters. -/
def failed (four_byte_asn : Bool) (ts : List CompleteTlv) : List AttributeError :=
  (block_outcomes four_byte_asn ts).filterMap failed?

theorem mem_kept {a : PathAttribute} :
    a ∈ kept four_byte_asn ts ↔ .ok a ∈ block_outcomes four_byte_asn ts := by
  unfold kept
  rw [List.mem_filterMap]
  constructor
  · rintro ⟨o | o, ho, h⟩ <;> cases h
    exact ho
  · exact fun h => ⟨_, h, rfl⟩

theorem mem_failed {e : AttributeError} :
    e ∈ failed four_byte_asn ts ↔ .error e ∈ block_outcomes four_byte_asn ts := by
  unfold failed
  rw [List.mem_filterMap]
  constructor
  · rintro ⟨o | o, ho, h⟩ <;> cases h
    exact ho
  · exact fun h => ⟨_, h, rfl⟩

theorem Framed.decode_message
    (h : Framed (.negotiated extended four_byte_asn) buf ts withdrawn announced) :
    (BgpCodec.negotiated extended four_byte_asn).decode_message buf =
      .ok (BgpMessage.of_update (UpdateMessage.classify
        ⟨withdrawn, kept four_byte_asn ts, announced⟩ (failed four_byte_asn ts))) := by
  obtain ⟨b, hfits, rfl, hmax, hwd, hattrs, hann⟩ := h
  have hlimit : (BgpCodec.negotiated extended four_byte_asn).max_msg_len ≤ 65535 := by
    cases extended <;> simp [BgpCodec.negotiated, MAX_LEN, MAX_LEN_EXTENDED]
  have hfour : (BgpCodec.negotiated extended four_byte_asn).four_byte_asn_negotiated
      = four_byte_asn := rfl
  rw [BgpCodec.decode_message, decode_update_frame hfits _ hmax (by omega), Body.decode, hwd,
    hattrs, hfour, decode_block, hann]
  rfl

/-- A message that decodes to an UPDATE, sound or not, frames correctly. -/
theorem framed_of_decode (out : UpdateDecodeOutcome)
    (h : (BgpCodec.negotiated extended four_byte_asn).decode_message buf
      = .ok (BgpMessage.of_update out)) :
    ∃ ts withdrawn announced,
      Framed (.negotiated extended four_byte_asn) buf ts withdrawn announced := by
  obtain ⟨b, hfits, rfl, hmax, -, u, hu, -⟩ := update_frame out h
  obtain ⟨withdrawn, hwd, h1⟩ := Reader.bind_eq_ok.1 hu
  obtain ⟨⟨attributes, errors⟩, hattrs, h2⟩ := Reader.bind_eq_ok.1 h1
  obtain ⟨announced, hann, -⟩ := Reader.bind_eq_ok.1 h2
  obtain ⟨ts, hts, hcomplete, -⟩ := decode_path_attributes_eq_ok hattrs
  refine ⟨ts.attach.map fun t => ⟨t.1, hcomplete t.1 t.2⟩, withdrawn, announced, b, hfits, rfl,
    hmax, hwd, ?_, hann⟩
  rw [hts, block_bytes, List.map_map]
  exact congrArg (List.flatMap Tlv.bytes) (List.attach_map_subtype_val ts).symm

/-- What the daemon is sent of a framed UPDATE, if the session stays up: the routes are taken back
if an error asks for that, and otherwise what was kept goes through. -/
theorem Framed.update?_eq
    (h : Framed (.negotiated extended four_byte_asn) buf ts withdrawn announced) :
    ((BgpCodec.negotiated extended four_byte_asn).received buf).update? =
      if (failed four_byte_asn ts).any (·.policy.is_session_reset) then none
      else if (failed four_byte_asn ts).any (·.policy == .TreatAsWithdraw) then
        if is_nlri_less_with_attributes ⟨withdrawn, kept four_byte_asn ts, announced⟩
            ((failed four_byte_asn ts).map AttributeError.toAttributeDecodeError) then none
        else some (make_treat_as_withdraw ⟨withdrawn, kept four_byte_asn ts, announced⟩)
      else some ⟨withdrawn, kept four_byte_asn ts, announced⟩ := by
  rw [BgpCodec.received, h.decode_message, UpdateMessage.classify]
  generalize failed four_byte_asn ts = errors
  cases errors with
  | nil => rfl
  | cons e errors =>
    simp only [List.isEmpty_cons, Bool.false_eq_true, if_false, BgpMessage.of_update,
      Received.update?, forwarded]
    generalize (e :: errors).any _ = reset
    generalize (e :: errors).any _ = withdraw
    cases withdraw <;> simp

/-- An error has the type code of its attribute. -/
theorem type_code_of_error {seen : Bool} {e : AttributeError}
    (h : outcome four_byte_asn seen t = .error e) : e.type_code = t.type_code := by
  unfold outcome at h
  split at h
  · cases h
    rfl
  · have hvalue : ∀ x : Except CodecError PathAttribute,
        x.mapError (value_error t.type_code) = .error e → e.type_code = t.type_code := by
      rintro (e' | a) h
      · cases h
        rfl
      · cases h
    dsimp only at h
    split at h
    all_goals
      split at h
      all_goals
        first
        | exact hvalue _ h
        | cases h; rfl

theorem type_code_of_kept {seen : Bool} {a : PathAttribute}
    (h : outcome four_byte_asn seen t = .ok a) : a.type_code = t.type_code := by
  obtain ⟨-, ⟨k, hk, -, hvalue⟩ | ⟨-, -, rfl⟩⟩ := outcome_eq_ok h
  · rw [type_code_of_decode hvalue, AttrType.of_code_eq_some hk]
  · rfl

/-- At most one attribute of a type is kept. -/
theorem nodup_kept (four_byte_asn : Bool) (ts : List CompleteTlv) :
    ((kept four_byte_asn ts).map PathAttribute.type_code).Nodup := by
  induction ts using List.reverseRecOn with
  | nil => exact List.nodup_nil
  | append_singleton ts t ih =>
    classical
    rw [kept, block_outcomes_concat, List.filterMap_append, List.map_append]
    cases ho : outcome four_byte_asn (decide (Occurs t.type_code ts)) t.toTlv with
    | error e =>
      have hnone : ([.error e] : List (Except AttributeError PathAttribute)).filterMap kept? = [] :=
        rfl
      rwa [hnone, List.map_nil, List.append_nil]
    | ok a =>
      have hfirst := of_decide_eq_false (outcome_eq_ok ho).1
      refine List.nodup_append.2 ⟨ih, List.nodup_singleton _, ?_⟩
      rintro _ hb _ ha rfl
      obtain ⟨b, hb, hcode⟩ := List.mem_map.1 hb
      obtain ⟨before, t', after, rfl, ho'⟩ := (mem_block_outcomes _).1 (mem_kept.1 hb)
      refine hfirst ⟨t', by simp, ?_⟩
      rw [← type_code_of_kept ho'.symm, hcode, List.mem_singleton.1 ha, type_code_of_kept ho]

/-! ## The markers on the wire -/

/-- The IPv4 marker: no withdrawn routes, no attributes, no prefixes. -/
def WireEorV4 (buf : List UInt8) : Prop := buf = with_header .Update (Body.mk [] [] []).bytes

/-- A well-formed MP_UNREACH_NLRI for IPv6 unicast without prefixes. -/
def EmptyUnreach (t : Tlv) : Prop :=
  t.type_code = AttrType.MP_UNREACH_NLRI.code ∧ t.optional = true ∧ t.transitive = false
    ∧ t.value = [0, 2, 1]

/-- The IPv6 marker: that attribute and nothing else. -/
def WireEorV6 (buf : List UInt8) : Prop :=
  ∃ t : CompleteTlv, EmptyUnreach t.toTlv ∧ buf = with_header .Update (Body.mk [] t.bytes []).bytes

theorem max_msg_len_negotiated (extended four_byte_asn : Bool) :
    MAX_LEN ≤ (BgpCodec.negotiated extended four_byte_asn).max_msg_len := by
  cases extended <;> simp [BgpCodec.negotiated, MAX_LEN, MAX_LEN_EXTENDED]

theorem eq_of_empty_unreach {v : List UInt8} {mp : MpUnreachNlri}
    (h : decode_mp_unreach v = .ok (.MpUnreachNlri mp)) (hfamily : mp.afi_safi = .IPV6_UNICAST)
    (hprefixes : mp.prefixes = []) : v = [0, 2, 1] := by
  unfold decode_mp_unreach at h
  split at h
  · cases h
  · obtain ⟨⟨afi, c1⟩, hafi, h1⟩ := Reader.bind_eq_ok.1 h
    obtain ⟨⟨safi, c2⟩, hsafi, h2⟩ := Reader.bind_eq_ok.1 h1
    obtain ⟨prefixes, hdecode, h3⟩ := Reader.bind_eq_ok.1 h2
    cases h3
    cases hfamily
    subst hprefixes
    obtain rfl := read_u8_eq_ok hsafi
    obtain rfl := read_u16_eq_ok hafi
    -- In the IPv6 family, no prefixes means no octets.
    have hnil : decode_nlri_list_v6 c2 = .ok [] := by
      have hmap : (decode_nlri_list_v6 c2).map (fun ns => ns.map Prefix.V6) = .ok [] := hdecode
      cases hns : decode_nlri_list_v6 c2 with
      | error e =>
        rw [hns] at hmap
        cases hmap
      | ok ns =>
        rw [hns] at hmap
        rw [List.map_eq_nil_iff.1 (Except.ok.inj hmap)]
    have hsplits := (Reader.read_all_eq_ok shrinks_decode_nlri).1 hnil
    cases hsplits
    rfl

theorem outcome_eq_empty_unreach {seen : Bool} :
    outcome four_byte_asn seen t = .ok (.MpUnreachNlri ⟨.IPV6_UNICAST, []⟩) ↔
      seen = false ∧ EmptyUnreach t := by
  constructor
  · intro h
    obtain ⟨hseen, ⟨k, hk, hexpected, hvalue⟩ | ⟨-, -, hunknown⟩⟩ := outcome_eq_ok h
    · have hcode : t.type_code = AttrType.MP_UNREACH_NLRI.code := (type_code_of_kept h).symm
      rw [hcode, AttrType.of_code_code] at hk
      cases hk
      rw [hcode] at hexpected
      have hbits := Option.some.inj hexpected
      rw [Prod.mk.injEq] at hbits
      exact ⟨hseen, hcode, hbits.1.symm, hbits.2.symm, eq_of_empty_unreach hvalue rfl rfl⟩
    · cases hunknown
  · rintro ⟨rfl, hcode, hopt, htrans, hvalue⟩
    refine outcome_of_expected hcode ?_ ?_
    · rw [hcode, hopt, htrans]
      rfl
    · rw [hvalue]
      rfl

theorem framed_wire_eor_v4 (extended four_byte_asn : Bool) (h : WireEorV4 buf) :
    Framed (.negotiated extended four_byte_asn) buf [] [] [] := by
  have hmax := max_msg_len_negotiated extended four_byte_asn
  exact ⟨⟨[], [], []⟩, ⟨by decide, by decide⟩, h, le_trans (by decide) hmax, rfl, rfl, rfl⟩

theorem framed_wire_eor_v6 (extended four_byte_asn : Bool) (h : WireEorV6 buf) :
    ∃ t : CompleteTlv, EmptyUnreach t.toTlv ∧
      Framed (.negotiated extended four_byte_asn) buf [t] [] [] := by
  have hmax := max_msg_len_negotiated extended four_byte_asn
  obtain ⟨t, ht, hbuf⟩ := h
  have hlen : t.bytes.length ≤ 7 := by
    rw [Tlv.bytes, List.length_append, List.length_cons, List.length_cons, Tlv.length_len_bytes,
      ht.2.2.2]
    split <;> simp
  refine ⟨t, ht, ⟨[], t.bytes, []⟩, ⟨by simp, by dsimp only; omega⟩, hbuf, ?_, rfl,
    (List.flatMap_singleton ..).symm, rfl⟩
  rw [Body.length_bytes]
  simp only [List.length_nil, HEADER_LEN, MAX_LEN] at hmax ⊢
  omega

theorem decode_wire_eor_v4 (extended four_byte_asn : Bool) (h : WireEorV4 buf) :
    (BgpCodec.negotiated extended four_byte_asn).decode_message buf
      = .ok (.Update ⟨[], [], []⟩) :=
  (framed_wire_eor_v4 extended four_byte_asn h).decode_message

theorem decode_wire_eor_v6 (extended four_byte_asn : Bool) (h : WireEorV6 buf) :
    (BgpCodec.negotiated extended four_byte_asn).decode_message buf
      = .ok (.Update ⟨[], [.MpUnreachNlri ⟨.IPV6_UNICAST, []⟩], []⟩) := by
  obtain ⟨t, ht, hframed⟩ := framed_wire_eor_v6 extended four_byte_asn h
  have hone : block_outcomes four_byte_asn [t] = [.ok (.MpUnreachNlri ⟨.IPV6_UNICAST, []⟩)] :=
    congrArg (fun o => [o]) (outcome_eq_empty_unreach.2 ⟨rfl, ht⟩)
  rw [hframed.decode_message, kept, failed, hone]
  rfl

/-- A sound UPDATE frames correctly, and every attribute is kept. -/
theorem framed_of_clean
    (h : (BgpCodec.negotiated extended four_byte_asn).decode_message buf = .ok (.Update m)) :
    ∃ ts, Framed (.negotiated extended four_byte_asn) buf ts m.withdrawn m.announced ∧
      block_outcomes four_byte_asn ts = m.attributes.map .ok := by
  obtain ⟨ts, withdrawn, announced, hframed⟩ := framed_of_decode (.Clean m) h
  have hdecode := hframed.decode_message.symm.trans h
  rw [UpdateMessage.classify] at hdecode
  split at hdecode
  · next hnil =>
    cases hdecode
    exact ⟨ts, hframed, eq_map_ok (List.isEmpty_iff.1 hnil)⟩
  · cases hdecode

theorem eq_nil_of_decode_nlri {cur : List UInt8} (h : decode_nlri_list_v4 cur = .ok []) :
    cur = [] := by
  have hsplits := (Reader.read_all_eq_ok shrinks_decode_nlri).1 h
  cases hsplits
  rfl

/-- An UPDATE without prefixes is its attributes. -/
theorem Framed.eq_of_nil {codec : BgpCodec} (h : Framed codec buf ts [] []) :
    buf = with_header .Update (Body.mk [] (block_bytes ts) []).bytes := by
  obtain ⟨⟨wd, attrs, ann⟩, -, rfl, -, hwd, rfl, hann⟩ := h
  obtain rfl : wd = [] := eq_nil_of_decode_nlri hwd
  obtain rfl : ann = [] := eq_nil_of_decode_nlri hann
  rfl

section

variable (h : (BgpCodec.negotiated extended four_byte_asn).decode_message buf = .ok (.Update m))
include h

theorem is_eor_v4_iff : m.is_eor_v4 = true ↔ WireEorV4 buf := by
  constructor
  · intro heor
    simp only [UpdateMessage.is_eor_v4, Bool.and_eq_true, List.isEmpty_iff] at heor
    obtain ⟨ts, hframed, hall⟩ := framed_of_clean h
    rw [heor.1.1, heor.2] at hframed
    rw [heor.1.2] at hall
    cases ts with
    | nil => exact hframed.eq_of_nil
    | cons t ts => cases hall
  · intro hwire
    rw [decode_wire_eor_v4 extended four_byte_asn hwire] at h
    cases h
    rfl

theorem is_eor_v6_iff : m.is_eor_v6 = true ↔ WireEorV6 buf := by
  constructor
  · intro heor
    obtain ⟨ts, hframed, hall⟩ := framed_of_clean h
    obtain ⟨hwd, hann, hattrs⟩ := names_of_eor (.inr heor)
    obtain ⟨a, hone⟩ : ∃ a, m.attributes = [a] := by
      simp only [UpdateMessage.is_eor_v6, Bool.and_eq_true] at heor
      split at heor
      · exact ⟨_, ‹_›⟩
      · cases heor.2
    rw [hwd, hann] at hframed
    rw [hone, hattrs a (by simp [hone])] at hall
    -- One outcome, so one attribute; it was kept as an MP_UNREACH_NLRI.
    rcases ts with _ | ⟨t, _ | ⟨t', ts⟩⟩
    · cases hall
    · have hout : outcome four_byte_asn false t.toTlv = .ok (.MpUnreachNlri ⟨.IPV6_UNICAST, []⟩) :=
        (List.cons.inj hall).1
      refine ⟨t, (outcome_eq_empty_unreach.1 hout).2, hframed.eq_of_nil.trans ?_⟩
      rw [block_bytes, List.map_singleton, List.flatMap_singleton]
    · have hlen := congrArg List.length hall
      cases hlen
  · intro hwire
    rw [decode_wire_eor_v6 extended four_byte_asn hwire] at h
    cases h
    rfl

end

/-! ## What is taken for a marker -/

/-- A block that is taken for a marker although it is none, in an UPDATE without prefixes: every
attribute is left out, or all but an empty MP_UNREACH_NLRI for IPv6 are, or there is one
MP_UNREACH_NLRI, of whatever value, with wrong flags. -/
def FalseMarker (four_byte_asn : Bool) (ts : List CompleteTlv) : Prop :=
  (∃ t, ts = [t] ∧ t.type_code = AttrType.MP_UNREACH_NLRI.code ∧ ¬Flagged t.toTlv) ∨
    (∀ before t after, ts = before ++ t :: after → Discards four_byte_asn before t ∨
        ¬Occurs t.type_code before ∧ EmptyUnreach t.toTlv) ∧
      ∃ before t after, ts = before ++ t :: after ∧ Discards four_byte_asn before t

/-- The empty MP_UNREACH_NLRI of the IPv6 marker, as the decoder returns it. -/
def marker_attribute : PathAttribute := .MpUnreachNlri ⟨.IPV6_UNICAST, []⟩

open Classical in
/-- In terms of the outcomes: every attribute is discarded, or is that of the marker. -/
theorem discarded_iff : ((∀ before t after, ts = before ++ t :: after →
        Discards four_byte_asn before t ∨ ¬Occurs t.type_code before ∧ EmptyUnreach t.toTlv) ∧
      ∃ before t after, ts = before ++ t :: after ∧ Discards four_byte_asn before t) ↔
    (∀ e ∈ failed four_byte_asn ts, e.policy = .AttributeDiscard) ∧
      (∀ a ∈ kept four_byte_asn ts, a = marker_attribute) ∧ failed four_byte_asn ts ≠ [] := by
  have hmarker (before : List CompleteTlv) (t : CompleteTlv) :
      ¬Occurs t.type_code before ∧ EmptyUnreach t.toTlv ↔
        outcome four_byte_asn (decide (Occurs t.type_code before)) t.toTlv
          = .ok marker_attribute := by
    rw [marker_attribute, outcome_eq_empty_unreach, decide_eq_false_iff_not]
  simp only [discards_iff, hmarker]
  constructor
  · rintro ⟨hall, before, t, after, hts, e, he, -⟩
    have hmem : .error e ∈ block_outcomes four_byte_asn ts :=
      (mem_block_outcomes _).2 ⟨before, t, after, hts, he.symm⟩
    refine ⟨fun e he => ?_, fun a ha => ?_, List.ne_nil_of_mem (mem_failed.2 hmem)⟩
    · obtain ⟨before, t, after, hts, ho⟩ := (mem_block_outcomes _).1 (mem_failed.1 he)
      obtain ⟨e', he', hpolicy⟩ | hok := hall before t after hts
      · cases ho.trans he'
        exact hpolicy
      · cases ho.trans hok
    · obtain ⟨before, t, after, hts, ho⟩ := (mem_block_outcomes _).1 (mem_kept.1 ha)
      obtain ⟨e', he', -⟩ | hok := hall before t after hts
      · cases ho.trans he'
      · exact Except.ok.inj (ho.trans hok)
  · rintro ⟨hfailed, hkept, hne⟩
    constructor
    · intro before t after hts
      have hmem := (mem_block_outcomes four_byte_asn).2 ⟨before, t, after, hts, rfl⟩
      cases ho : outcome four_byte_asn (decide (Occurs t.type_code before)) t.toTlv with
      | error e =>
        rw [ho] at hmem
        exact .inl ⟨e, rfl, hfailed e (mem_failed.2 hmem)⟩
      | ok a =>
        rw [ho] at hmem
        rw [hkept a (mem_kept.2 hmem)]
        exact .inr rfl
    · obtain ⟨e, he⟩ := List.exists_mem_of_ne_nil _ hne
      obtain ⟨before, t, after, hts, ho⟩ := (mem_block_outcomes _).1 (mem_failed.1 he)
      exact ⟨before, t, after, hts, e, ho.symm, hfailed e he⟩

theorem eor_of_kept {l : List PathAttribute} (h : ∀ a ∈ l, a = marker_attribute)
    (hnodup : (l.map PathAttribute.type_code).Nodup) :
    (UpdateMessage.mk [] l []).is_eor_v4 = true ∨ (UpdateMessage.mk [] l []).is_eor_v6 = true := by
  rcases l with _ | ⟨a, _ | ⟨b, l⟩⟩
  · exact .inl rfl
  · rw [h a List.mem_cons_self]
    exact .inr rfl
  · rw [h a List.mem_cons_self, h b (by simp)] at hnodup
    simp at hnodup

/-- Once its routes are taken back a message is a marker only if there was nothing in it but an
MP_UNREACH_NLRI attribute, kept or not. -/
theorem only_unreach_of_eor {errors : List AttributeDecodeError}
    (hless : is_nlri_less_with_attributes m errors = false)
    (h : (make_treat_as_withdraw m).is_eor_v4 = true ∨
      (make_treat_as_withdraw m).is_eor_v6 = true) :
    m.withdrawn = [] ∧ m.announced = []
      ∧ (∀ a ∈ m.attributes, a.type_code = AttrType.MP_UNREACH_NLRI.code)
      ∧ ∀ e ∈ errors, e.type_code = AttrType.MP_UNREACH_NLRI.code := by
  obtain ⟨hwithdrawn, -, hattrs⟩ := names_of_eor h
  obtain ⟨hwd, hann⟩ := List.append_eq_nil_iff.1 hwithdrawn
  have hsilent : m.attributes.any PathAttribute.announces = false := by
    rw [List.any_eq_false]
    intro a ha
    cases a with
    | MpReachNlri mp =>
      have hmarker := hattrs _ (List.mem_filterMap.2 ⟨_, ha, rfl⟩)
      simp only [PathAttribute.MpUnreachNlri.injEq, MpUnreachNlri.mk.injEq] at hmarker
      simp [PathAttribute.announces, hmarker.2]
    | _ => simp [PathAttribute.announces]
  simp only [is_nlri_less_with_attributes, hann, hsilent, List.isEmpty_nil, Bool.not_true,
    Bool.or_self, Bool.false_eq_true, if_false, Bool.or_eq_false_iff, List.any_eq_false] at hless
  refine ⟨hwd, hann, fun a ha => ?_, fun e he => ?_⟩
  · have hmp := hless.1 a ha
    cases a <;> first | rfl | exact absurd rfl hmp
  · simpa [ATTR_MP_UNREACH_NLRI, AttrType.code] using hless.2 e he

open Classical in
/-- A block of MP_UNREACH_NLRI attributes only, whose routes are taken back without a reset: there
is one of them, with wrong flags. Two would be a reset. -/
theorem one_unflagged
    (hkept : ∀ a ∈ kept four_byte_asn ts, a.type_code = AttrType.MP_UNREACH_NLRI.code)
    (hfailed : ∀ e ∈ failed four_byte_asn ts, e.type_code = AttrType.MP_UNREACH_NLRI.code)
    (hreset : ∀ e ∈ failed four_byte_asn ts, e.policy.is_session_reset = false)
    {e : AttributeError} (he : e ∈ failed four_byte_asn ts)
    (hpolicy : e.policy = .TreatAsWithdraw) :
    ∃ t, ts = [t] ∧ t.type_code = AttrType.MP_UNREACH_NLRI.code ∧ ¬Flagged t.toTlv := by
  have hcode (before : List CompleteTlv) (t : CompleteTlv) (after)
      (hts : ts = before ++ t :: after) :
      t.toTlv.type_code = AttrType.MP_UNREACH_NLRI.code := by
    have hmem := (mem_block_outcomes four_byte_asn).2 ⟨before, t, after, hts, rfl⟩
    cases ho : outcome four_byte_asn (decide (Occurs t.type_code before)) t.toTlv with
    | error e =>
      rw [ho] at hmem
      rw [← type_code_of_error ho]
      exact hfailed e (mem_failed.2 hmem)
    | ok a =>
      rw [ho] at hmem
      rw [← type_code_of_kept ho]
      exact hkept a (mem_kept.2 hmem)
  rcases ts with _ | ⟨t, _ | ⟨t', rest⟩⟩
  · cases he
  · have ho : .error e = outcome four_byte_asn false t.toTlv :=
      List.mem_singleton.1 (mem_failed.1 he)
    obtain ⟨k, hk, hbad⟩ := revokes_iff.2 ⟨e, ho.symm, hpolicy⟩
    have ht := hcode [] t [] rfl
    obtain rfl : k = .MP_UNREACH_NLRI := by
      have hof := congrArg AttrType.of_code (hk.symm.trans ht)
      simpa using hof
    exact ⟨t, rfl, ht, hbad.resolve_right fun hr => absurd hr.1 (by decide)⟩
  · -- a second MP_UNREACH_NLRI would reset the session
    have ht := hcode [] t (t' :: rest) rfl
    have ht' := hcode [t] t' rest rfl
    have hdup : .error (duplicate_error t'.type_code)
        ∈ block_outcomes four_byte_asn (t :: t' :: rest) := by
      refine (mem_block_outcomes _).2 ⟨[t], t', rest, rfl, ?_⟩
      rw [decide_eq_true ⟨t, List.mem_singleton.2 rfl, ht.trans ht'.symm⟩]
      rfl
    have hno := hreset _ (mem_failed.2 hdup)
    rw [duplicate_error, if_pos (.inr ht')] at hno
    cases hno

/-- **The UPDATEs taken for a marker.** A framed UPDATE with an error in it is handed on as a
marker exactly if it has no prefixes and its block is a `FalseMarker`. -/
theorem Framed.eor_iff
    (h : Framed (.negotiated extended four_byte_asn) buf ts withdrawn announced) :
    (failed four_byte_asn ts ≠ [] ∧
      ∃ u, ((BgpCodec.negotiated extended four_byte_asn).received buf).update? = some u ∧
        (u.is_eor_v4 = true ∨ u.is_eor_v6 = true)) ↔
      withdrawn = [] ∧ announced = [] ∧ FalseMarker four_byte_asn ts := by
  rw [h.update?_eq, FalseMarker, discarded_iff]
  constructor
  · rintro ⟨hne, u, hu, heor⟩
    split_ifs at hu with hreset hwithdraw hless
    · -- the routes are taken back
      cases hu
      rw [List.any_eq_true] at hwithdraw
      rw [Bool.not_eq_true, List.any_eq_false] at hreset
      obtain ⟨e, he, hpolicy⟩ := hwithdraw
      obtain ⟨hwd, hann, hkept, hfailed⟩ :=
        only_unreach_of_eor (Bool.eq_false_of_not_eq_true hless) heor
      exact ⟨hwd, hann, .inl (one_unflagged hkept (fun e he => hfailed _ (List.mem_map_of_mem he))
        (fun e he => Bool.eq_false_of_not_eq_true (hreset e he)) he (beq_iff_eq.1 hpolicy))⟩
    · -- nothing is taken back: what was kept is a marker
      cases hu
      rw [Bool.not_eq_true, List.any_eq_false] at hreset hwithdraw
      obtain ⟨hwd, hann, hattrs⟩ := names_of_eor heor
      refine ⟨hwd, hann, .inr ⟨fun e he => ?_, hattrs, hne⟩⟩
      cases hpolicy : e.policy with
      | SessionReset error data => exact absurd (by rw [hpolicy]; rfl) (hreset e he)
      | TreatAsWithdraw => exact absurd (by rw [hpolicy]; rfl) (hwithdraw e he)
      | AttributeDiscard => rfl
  · rintro ⟨rfl, rfl, ⟨t, rfl, hcode, hflags⟩ | ⟨hfailed, hkept, hne⟩⟩
    · obtain ⟨hflags', -⟩ | ⟨e, he, ⟨-, hpolicy⟩ | ⟨hflags', -⟩⟩ :=
        outcome_cases four_byte_asn hcode
      · exact absurd hflags' hflags
      · have hone : block_outcomes four_byte_asn [t] = [.error e] := congrArg (fun o => [o]) he
        have hless : e.type_code = ATTR_MP_UNREACH_NLRI := (type_code_of_error he).trans hcode
        rw [failed, kept, hone]
        simp [hpolicy, AttributeErrorPolicy.is_session_reset, is_nlri_less_with_attributes, hless,
          make_treat_as_withdraw, UpdateMessage.is_eor_v4, failed?, kept?, Except.toOption]
      · exact absurd hflags' hflags
    · have hpolicy (p : AttributeErrorPolicy → Bool) (hp : p .AttributeDiscard = false) :
          (failed four_byte_asn ts).any (p ·.policy) = false := by
        rw [List.any_eq_false]
        intro e he
        rw [hfailed e he, hp]
        exact Bool.false_ne_true
      rw [hpolicy (·.is_session_reset) rfl, hpolicy (· == .TreatAsWithdraw) rfl]
      exact ⟨hne, _, rfl, eor_of_kept hkept (nodup_kept four_byte_asn ts)⟩

/-! ## Recognising the markers -/

/-- The daemon marks End-of-RIB for the peer exactly when the message on the wire is the marker,
and a malformed UPDATE does nothing that a marker does. -/
structure EorExact (codec : BgpCodec) (buf : List UInt8) (peer_ip : IpAddr) (d d' : DaemonState) :
    Prop where
  v4 : peer_ip ∉ d.rib.eor_received → (peer_ip ∈ d'.rib.eor_received ↔ WireEorV4 buf)
  v6 : peer_ip ∉ d.rib.eor_received_v6 → (peer_ip ∈ d'.rib.eor_received_v6 ↔ WireEorV6 buf)
  stripped : ∀ m u, codec.decode_message buf = .ok (.MalformedUpdate m) → forwarded m = some u →
    d.KeptWaiting d' peer_ip u

theorem not_mem_eor_deliver {events : List SessionEvent}
    (h : ∀ e ∈ events, ∃ reason, e = .Terminated reason) (clk : Clock) (ip : IpAddr)
    (d : DaemonState) :
    (ip ∉ d.rib.eor_received → ip ∉ (d.deliver clk ip events).rib.eor_received)
      ∧ (ip ∉ d.rib.eor_received_v6 → ip ∉ (d.deliver clk ip events).rib.eor_received_v6) := by
  induction events generalizing d with
  | nil => exact ⟨id, id⟩
  | cons e events ih =>
    rw [List.forall_mem_cons] at h
    obtain ⟨⟨reason, rfl⟩, hrest⟩ := h
    obtain ⟨hv4, hv6⟩ := d.not_mem_eor_handle_terminated clk ip reason
    obtain ⟨ih4, ih6⟩ := ih hrest (d.handle_terminated clk ip reason)
    exact ⟨fun _ => ih4 hv4, fun _ => ih6 hv6⟩

variable {s : Session} {c : Connection}

/-- For a session that listens in `Established`: the daemon recognises the markers of the wire and
nothing else, whatever state it is in, exactly when what the task hands on of a malformed UPDATE
is no marker. -/
theorem eorExact_iff_forwarded (hs : s.Listening c) (extended four_byte_asn : Bool)
    (buf : List UInt8) (now : ℕ) (clk : Clock) (peer_ip : IpAddr) :
    (∀ d : DaemonState, EorExact (.negotiated extended four_byte_asn) buf peer_ip d
        (d.deliver clk peer_ip
          (s.delivered now ((BgpCodec.negotiated extended four_byte_asn).received buf)))) ↔
      ∀ m u, (BgpCodec.negotiated extended four_byte_asn).decode_message buf
          = .ok (.MalformedUpdate m) → forwarded m = some u →
        u.is_eor_v4 = false ∧ u.is_eor_v6 = false := by
  have hwire4 (h : WireEorV4 buf) := decode_wire_eor_v4 extended four_byte_asn h
  have hwire6 (h : WireEorV6 buf) := decode_wire_eor_v6 extended four_byte_asn h
  rcases Session.delivered_cases hs now
    ((BgpCodec.negotiated extended four_byte_asn).received buf) with ⟨u, hu, hdel⟩ | ⟨hu, hends⟩
  · rw [hdel]
    have hdeliver (d : DaemonState) : d.deliver clk peer_ip [.RouteUpdate u]
        = (d.on_route_update clk peer_ip u).1 := rfl
    cases hdecode : (BgpCodec.negotiated extended four_byte_asn).decode_message buf with
    | error e => simp [BgpCodec.received, hdecode, Received.update?] at hu
    | ok msg =>
      rw [BgpCodec.received, hdecode] at hu
      cases msg with
      | Update m =>
        obtain rfl : m = u := Option.some.inj hu
        refine iff_of_true (fun d => ?_) (fun m' u' h => by cases h)
        obtain ⟨h4, h6⟩ := d.eor_on_route_update clk peer_ip m
        refine ⟨fun hnot => ?_, fun hnot => ?_, fun m' u' h => by rw [hdecode] at h; cases h⟩
        · rw [hdeliver, h4, is_eor_v4_iff hdecode, or_iff_left hnot]
        · rw [hdeliver, h6, or_iff_left hnot, ← is_eor_v6_iff hdecode]
          exact ⟨fun h => h.2, fun h => ⟨eor_v6_not_v4 h, h⟩⟩
      | MalformedUpdate m =>
        have hforward : forwarded m = some u := hu
        -- The markers of the wire decode cleanly, so this is none of them.
        have hnot4 : ¬WireEorV4 buf := by
          intro h
          rw [hwire4 h] at hdecode
          cases hdecode
        have hnot6 : ¬WireEorV6 buf := by
          intro h
          rw [hwire6 h] at hdecode
          cases hdecode
        constructor
        · intro hexact m' u' hm' hu'
          cases hm'
          obtain rfl : u = u' := Option.some.inj (hforward.symm.trans hu')
          have hd := hexact (small_daemon [] none [])
          obtain ⟨h4, h6⟩ := (small_daemon [] none []).eor_on_route_update clk peer_ip u
          have hv4 : u.is_eor_v4 = false := by
            by_contra hne
            refine hnot4 ((hd.v4 (AList.notMem_empty _)).1 ?_)
            rw [hdeliver, h4]
            exact .inl (Bool.eq_true_of_not_eq_false hne)
          refine ⟨hv4, ?_⟩
          by_contra hne
          refine hnot6 ((hd.v6 (AList.notMem_empty _)).1 ?_)
          rw [hdeliver, h6]
          exact .inl ⟨hv4, Bool.eq_true_of_not_eq_false hne⟩
        · intro hwhen d
          obtain ⟨hv4, hv6⟩ := hwhen m u rfl hforward
          obtain ⟨h4, h6⟩ := d.eor_on_route_update clk peer_ip u
          refine ⟨fun hnot => ?_, fun hnot => ?_, fun m' u' hm' hu' => ?_⟩
          · rw [hdeliver, h4, hv4]
            simp [hnot, hnot4]
          · rw [hdeliver, h6, hv6]
            simp [hnot, hnot6]
          · rw [hdecode] at hm'
            cases hm'
            obtain rfl : u = u' := Option.some.inj (hforward.symm.trans hu')
            exact d.keptWaiting_on_route_update clk peer_ip hv4 hv6
      | _ => cases hu
  · -- Nothing but the end of the session, and no marker on the wire.
    have hnone {msg : BgpMessage}
        (h : (BgpCodec.negotiated extended four_byte_asn).decode_message buf = .ok msg) :
        (Received.message msg).update? = none := by
      rw [BgpCodec.received, h] at hu
      exact hu
    have hnot4 : ¬WireEorV4 buf := fun h => by cases hnone (hwire4 h)
    have hnot6 : ¬WireEorV6 buf := fun h => by cases hnone (hwire6 h)
    have hvacuous : ∀ m u, (BgpCodec.negotiated extended four_byte_asn).decode_message buf
        = .ok (.MalformedUpdate m) → forwarded m ≠ some u := by
      intro m u h hforward
      have hm : forwarded m = none := hnone h
      rw [hm] at hforward
      cases hforward
    refine iff_of_true (fun d => ?_) (fun m u h hforward => absurd hforward (hvacuous m u h))
    obtain ⟨h4, h6⟩ := not_mem_eor_deliver hends clk peer_ip d
    exact ⟨fun hnot => iff_of_false (h4 hnot) hnot4, fun hnot => iff_of_false (h6 hnot) hnot6,
      fun m u h hforward => absurd hforward (hvacuous m u h)⟩

/-- A malformed UPDATE is handed on as a marker exactly if it has no prefixes and its block is a
`FalseMarker`. -/
theorem forwarded_eor_iff : (∃ m u, (BgpCodec.negotiated extended four_byte_asn).decode_message buf
      = .ok (.MalformedUpdate m) ∧ forwarded m = some u
        ∧ (u.is_eor_v4 = true ∨ u.is_eor_v6 = true)) ↔
    ∃ ts, Framed (.negotiated extended four_byte_asn) buf ts [] [] ∧
      FalseMarker four_byte_asn ts := by
  constructor
  · rintro ⟨m, u, hdecode, hu, heor⟩
    have hout : BgpMessage.of_update (.Partial m.update (m.errors.map fun e => ⟨e, ""⟩)
        m.treat_as_withdraw m.session_reset) = .MalformedUpdate m := by
      simp [BgpMessage.of_update, Function.comp_def]
    obtain ⟨ts, withdrawn, announced, hframed⟩ := framed_of_decode _ (hdecode.trans
      (congrArg Except.ok hout.symm))
    have hne : failed four_byte_asn ts ≠ [] := by
      intro hnil
      have hclean := hframed.decode_message
      rw [hnil, hdecode] at hclean
      cases hclean
    have hupdate : ((BgpCodec.negotiated extended four_byte_asn).received buf).update?
        = some u := by
      rw [BgpCodec.received, hdecode]
      exact hu
    obtain ⟨rfl, rfl, hfalse⟩ := hframed.eor_iff.1 ⟨hne, u, hupdate, heor⟩
    exact ⟨ts, hframed, hfalse⟩
  · rintro ⟨ts, hframed, hfalse⟩
    obtain ⟨hne, u, hu, heor⟩ := hframed.eor_iff.2 ⟨rfl, rfl, hfalse⟩
    have hdecode := hframed.decode_message
    rw [UpdateMessage.classify, if_neg (by rwa [List.isEmpty_iff])] at hdecode
    rw [BgpCodec.received, hdecode] at hu
    exact ⟨_, u, hdecode, hu, heor⟩

/-- **End-of-RIB, exactly.** For a session that listens in `Established`: the daemon recognises
the markers of the wire and nothing else, whatever state it is in, exactly when the octets are not
an UPDATE without prefixes whose block is a `FalseMarker`. -/
theorem end_of_rib_exact_iff (hs : s.Listening c) (extended four_byte_asn : Bool)
    (buf : List UInt8) (now : ℕ) (clk : Clock) (peer_ip : IpAddr) :
    (∀ d : DaemonState, EorExact (.negotiated extended four_byte_asn) buf peer_ip d
        (d.deliver clk peer_ip
          (s.delivered now ((BgpCodec.negotiated extended four_byte_asn).received buf)))) ↔
      ∀ ts, Framed (.negotiated extended four_byte_asn) buf ts [] [] →
        ¬FalseMarker four_byte_asn ts := by
  rw [eorExact_iff_forwarded hs]
  have hiff := not_congr (@forwarded_eor_iff buf four_byte_asn extended)
  simp only [not_exists, not_and, not_or, Bool.not_eq_true] at hiff
  exact hiff

/-- The session of 10.0.0.2, up. -/
def session_of_two : Session := (Session.spawn Session.plain_session).run Session.session_up

theorem listening_session_of_two : ∃ c, session_of_two.Listening c := by
  have htransport : session_of_two.transport.isSome = true := by decide +kernel
  obtain ⟨c, hc⟩ := Option.isSome_iff_exists.1 htransport
  exact ⟨c, by decide +kernel, by decide +kernel, hc, by decide +kernel⟩

/-- The daemon of that session, with nothing received on it yet. -/
def daemon_of_two : DaemonState :=
  (small_daemon [open_peer 2 65002] none []).run [session_up 2 .External []]

/-- An UPDATE whose only content is a COMMUNITIES attribute of three octets. -/
def short_community : List UInt8 :=
  with_header .Update (Body.mk [] [0xC0, 8, 3, 1, 2, 3] []).bytes

/-- An attribute whose value is short enough for either length field. -/
def short_tlv (flags type_code : UInt8) (value : List UInt8) (h : value.length ≤ 255) :
    CompleteTlv where
  flags := flags
  type_code := type_code
  value := value
  complete := by
    unfold Tlv.Complete
    split <;> dsimp only <;> omega

/-- The same COMMUNITIES attribute with an ORIGIN, which is kept. -/
def kept_origin : List CompleteTlv :=
  [short_tlv 0x40 1 [0] (by decide), short_tlv 0xC0 8 [1, 2, 3] (by decide)]

/-- The UPDATE with these attributes. -/
def origin_update : List UInt8 :=
  with_header .Update (Body.mk [] (block_bytes kept_origin) []).bytes

/-- A malformed UPDATE of which something is left is not taken for a marker. -/
theorem kept_origin_exact :
    (BgpCodec.negotiated false true).received origin_update = .message (.MalformedUpdate
        ⟨⟨[], [.Origin .Igp], []⟩, [⟨8, .AttributeDiscard⟩], false, false⟩) ∧
      ∃ c, session_of_two.Listening c ∧ ∀ d : DaemonState,
        EorExact (.negotiated false true) origin_update (peer_addr 2) d
          (d.deliver ⟨0, 0⟩ (peer_addr 2) (session_of_two.delivered 0
            ((BgpCodec.negotiated false true).received origin_update))) := by
  obtain ⟨c, hs⟩ := listening_session_of_two
  have hupdate : ((BgpCodec.negotiated false true).received origin_update).update?
      = some ⟨[], [.Origin .Igp], []⟩ := by decide +kernel
  refine ⟨by decide +kernel, c, hs,
    (end_of_rib_exact_iff hs false true _ 0 ⟨0, 0⟩ (peer_addr 2)).2 fun ts hframed hfalse => ?_⟩
  obtain ⟨-, u, hu, heor⟩ := hframed.eor_iff.2 ⟨rfl, rfl, hfalse⟩
  cases hupdate.symm.trans hu
  exact absurd heor (by decide)

/-- An attribute that is discarded leaves a marker behind. -/
theorem discarded_community_taken_for_marker :
    daemon_of_two.Reachable ∧ (∃ c, session_of_two.Listening c) ∧ ¬WireEorV4 short_community
      ∧ peer_addr 2 ∉ daemon_of_two.rib.eor_received
      ∧ peer_addr 2 ∈ (daemon_of_two.deliver ⟨0, 0⟩ (peer_addr 2) (session_of_two.delivered 0
          ((BgpCodec.negotiated false true).received short_community))).rib.eor_received := by
  refine ⟨reachable_small_daemon .., listening_session_of_two, ?_, by decide +kernel,
    by decide +kernel⟩
  unfold WireEorV4
  decide +kernel

end Wire

end Pathvector
