/-
# Malformed attributes

What RFC 7606 calls a malformed attribute (`Malformed`), and what becomes of the routes that come
with one. The decoder enters an error, and the error takes the routes of the UPDATE back or leaves
out the attribute. In the first case the daemon has none of the routes, unless they came in an
MP_REACH_NLRI that was dropped for its own flags. In the second case what is left of the UPDATE is
imported as if it had been sent so, and a prefix is gone only if the daemon refuses what is left.
`malformed_not_installed_iff` says for which UPDATEs a daemon has no prefix afterwards, and
`short_community_installed` is one of the others.

The decoder is also more lenient than the RFC: it takes a path segment without AS numbers, it reads
an AS_PATH of a two-octet session as if it were of four octets, and it takes an empty list of
communities. Those are malformed attributes without an error.
-/
import Pathvector.Inbound.Refused
import Pathvector.Wire.TakenBack

set_option autoImplicit false

namespace Pathvector

/-- A malformed UPDATE that is not handed on ends the session. -/
theorem Session.idle_of_malformed {s : Session} {c : Connection} (h : s.Listening c) (now : ℕ)
    {m : MalformedUpdate} (hnone : forwarded m = none) :
    (s.receive now (.message (.MalformedUpdate m))).fsm.state = .Idle := by
  have hmsg : (Received.message (.MalformedUpdate m)).update? = none := hnone
  obtain ⟨input, hphase, -, -, hfsm, hinput⟩ := s.handle_primary_message_turn c hmsg
  obtain ⟨n, rfl⟩ := hinput m rfl
  have hidle : (s.fsm.process (.ProtocolErrorNotificationToSend n)).1.state = .Idle := by
    rw [Fsm.process, h.established]
    rfl
  unfold receive
  rw [wait_for_message h, hphase]
  obtain ⟨_, _, _, hprepare, -, -⟩ := (s.handle_primary_message c
    (.message (.MalformedUpdate m))).prepare_eq (.ProtocolErrorNotificationToSend n)
  -- whether or not the NOTIFICATION can be written
  unfold handle
  dsimp only
  split
  · rw [process_fsm, hprepare, hfsm, hidle]
  · rw [process_fsm, process_fsm, hprepare, hfsm, Fsm.process, hidle]
    exact hidle

/-! ## Taking the routes back -/

theorem not_reflectionLoop_treat_as_withdraw (d : DaemonState) (ip : IpAddr)
    (m : UpdateMessage) : ¬d.ReflectionLoop ip (make_treat_as_withdraw m) := by
  rintro ⟨-, hloop⟩
  obtain ⟨a, ha, hmatch⟩ := List.any_eq_true.1 hloop
  obtain ⟨a', -, heq⟩ := List.mem_filterMap.1 ha
  cases a' <;> cases heq
  cases hmatch

/-- A marker mentions no prefix. -/
theorem UpdateMessage.not_eor_of_mentions {m : UpdateMessage} {family : AfiSafi} {q : Prefix}
    (h : m.Mentions family q) : m.is_eor_v4 = false ∧ m.is_eor_v6 = false := by
  rw [← Bool.not_eq_true, ← Bool.not_eq_true, ← not_or]
  intro heor
  obtain ⟨hw, ha, hattrs⟩ := names_of_eor heor
  rcases h with (⟨-, hq⟩ | ⟨a, hmem, hq⟩) | ⟨-, hq⟩ | ⟨a, hmem, hq⟩
  · rw [ha] at hq
    cases hq
  · rw [hattrs a hmem] at hq
    cases hq
  · rw [hw] at hq
    cases hq
  · rw [hattrs a hmem, PathAttribute.unreach] at hq
    split at hq <;> cases hq

/-- Where the routes of a message are taken back, a prefix stays only if the message neither
announces it nor has it in the withdrawn routes field. -/
theorem DaemonState.refuses_treat_as_withdraw {d : DaemonState} (clk : Clock) {ip : IpAddr}
    (hc : d.Configured ip) (m : UpdateMessage) (family : AfiSafi) (q : Prefix) :
    d.Refuses clk ip (make_treat_as_withdraw m) family q ↔ d.NoCandidate ip family q ∨
      m.Announces family q ∨ family = .IPV4_UNICAST ∧ q ∈ m.withdrawn.map .V4 := by
  have himp : d.Imports ip (make_treat_as_withdraw m) :=
    ⟨hc, Option.isSome_iff_ne_none.2 (mt (d.rr_inbound_eq_none_iff ip _).1
      (not_reflectionLoop_treat_as_withdraw d ip m))⟩
  obtain ⟨h4, h6⟩ := refuses_of_nothing clk (nothingAnnounced_treat_as_withdraw m) himp
  rw [← withdraws_treat_as_withdraw]
  unfold Refuses NoCandidate OfFamily
  simp only [h4, h6, ← UpdateMessage.withdraws_v4_iff, ← UpdateMessage.withdraws_v6_iff]
  constructor
  · rintro ⟨hr4, hr6⟩
    refine or_iff_not_imp_right.2 fun hnot => ⟨?_, ?_⟩
    · rintro p ⟨rfl, rfl⟩
      exact (hr4 p ⟨rfl, rfl⟩).resolve_right hnot
    · rintro p ⟨rfl, rfl⟩
      exact (hr6 p ⟨rfl, rfl⟩).resolve_right hnot
  · rintro (⟨hn4, hn6⟩ | hw)
    · exact ⟨fun p hp => .inl (hn4 p hp), fun p hp => .inl (hn6 p hp)⟩
    · constructor <;>
      · rintro p ⟨rfl, rfl⟩
        exact .inr hw

namespace Wire

variable {ts : List CompleteTlv} {four_byte_asn extended : Bool}
  {withdrawn announced : List (Nlri Ipv4Addr)} {k : AttrType} {t : Tlv} {buf : List UInt8}

/-! ## What is malformed -/

/-- The value is malformed, after section 7 of RFC 7606 (RFC 8092 for large communities, RFC 9234
for ONLY_TO_CUSTOMER). -/
def Malformed (four_byte_asn : Bool) (v : List UInt8) : AttrType → Prop
  | .ORIGIN => ∀ x, x ≤ 2 → v ≠ [x]
  | .AS_PATH => ¬Segments (if four_byte_asn then 4 else 2) 1 v
  | .NEXT_HOP | .MED | .LOCAL_PREF | .ONLY_TO_CUSTOMER => v.length ≠ 4
  | .COMMUNITY => v = [] ∨ ¬4 ∣ v.length
  | .EXTENDED_COMMUNITIES => v = [] ∨ ¬8 ∣ v.length
  | .LARGE_COMMUNITY => v = [] ∨ ¬12 ∣ v.length
  | _ => False

/-! ## The UPDATE -/

/-- The first attribute of its type. -/
def FirstOf (k : AttrType) (ts : List CompleteTlv) (t : CompleteTlv) : Prop :=
  ∃ before after, ts = before ++ t :: after ∧ t.type_code = k.code ∧ ¬Occurs k.code before

/-- The prefixes of a family in an MP_REACH_NLRI attribute that can be read. -/
def reach_of (family : AfiSafi) (t : Tlv) : List Prefix :=
  if t.type_code = AttrType.MP_REACH_NLRI.code then
    match decode_mp_reach t.value with
    | .ok a => a.reach family
    | .error _ => []
  else []

/-- The UPDATE announces the prefix, as far as it can be read. -/
def Announced (announced : List (Nlri Ipv4Addr)) (ts : List CompleteTlv) (family : AfiSafi)
    (q : Prefix) : Prop :=
  family = .IPV4_UNICAST ∧ q ∈ announced.map .V4 ∨ ∃ t ∈ ts, q ∈ reach_of family t.toTlv

/-- No prefix the UPDATE announces is a candidate of the peer. -/
def AnnouncedGone (d : DaemonState) (peer_ip : IpAddr) (announced : List (Nlri Ipv4Addr))
    (ts : List CompleteTlv) : Prop :=
  ∀ family q, Announced announced ts family q → d.NoCandidate peer_ip family q

/-- The first attribute of some type takes the routes back. -/
def Revoked (four_byte_asn : Bool) (ts : List CompleteTlv) : Prop :=
  ∃ k t, FirstOf k ts t ∧ Revokes four_byte_asn t.toTlv

/-- The daemon has no prefix of the UPDATE afterwards. If the routes are taken back: what came in an
MP_REACH_NLRI with wrong flags was no candidate before, or is also in one of the two fields for
IPv4 prefixes. If they are not: every prefix is refused for what was kept. -/
def Shed (d : DaemonState) (clk : Clock) (peer_ip : IpAddr) (four_byte_asn : Bool)
    (withdrawn announced : List (Nlri Ipv4Addr)) (ts : List CompleteTlv) : Prop :=
  Revoked four_byte_asn ts ∧ (∀ t ∈ ts, ¬Flagged t.toTlv → ∀ family, ∀ q ∈ reach_of family t.toTlv,
      d.NoCandidate peer_ip family q ∨
        family = .IPV4_UNICAST ∧ q ∈ (announced ++ withdrawn).map .V4) ∨
    ¬Revoked four_byte_asn ts ∧ ∀ family q, Announced announced ts family q →
      d.Refuses clk peer_ip ⟨withdrawn, kept four_byte_asn ts, announced⟩ family q

/-! ### What is kept -/

section

variable {family : AfiSafi} {q : Prefix} {a : PathAttribute}

theorem mem_reach_of : q ∈ reach_of family t ↔ t.type_code = AttrType.MP_REACH_NLRI.code ∧
    ∃ a, decode_mp_reach t.value = .ok a ∧ q ∈ a.reach family := by
  unfold reach_of
  split
  · next hcode =>
    cases decode_mp_reach t.value with
    | ok a => simp [hcode]
    | error e => simp
  · next hcode => simp [hcode]

theorem revoked_iff : Revoked four_byte_asn ts ↔
    ∃ e ∈ failed four_byte_asn ts, e.policy = .TreatAsWithdraw := by
  classical
  constructor
  · rintro ⟨k, t, ⟨before, after, hts, hcode, hfirst⟩, hrevokes⟩
    obtain ⟨e, he, hpolicy⟩ := revokes_iff.1 hrevokes
    refine ⟨e, mem_failed.2 ((mem_block_outcomes _).2 ⟨before, t, after, hts, ?_⟩), hpolicy⟩
    rw [hcode, decide_eq_false hfirst, he]
  · rintro ⟨e, he, hpolicy⟩
    obtain ⟨before, t, after, hts, ho⟩ := (mem_block_outcomes _).1 (mem_failed.1 he)
    by_cases hocc : Occurs t.type_code before
    · -- a second attribute of its type is left out, or resets the session
      rw [decide_eq_true hocc, outcome, if_pos rfl] at ho
      cases ho
      unfold duplicate_error at hpolicy
      split at hpolicy <;> cases hpolicy
    · rw [decide_eq_false hocc] at ho
      have hrevokes : Revokes four_byte_asn t.toTlv := revokes_iff.2 ⟨e, ho.symm, hpolicy⟩
      obtain ⟨k, hcode, -⟩ := id hrevokes
      exact ⟨k, t, ⟨before, after, hts, hcode, hcode ▸ hocc⟩, hrevokes⟩

section

variable (hreset : ∀ e ∈ failed four_byte_asn ts, e.policy.is_session_reset = false)
include hreset

/-- Without a reset no MP_REACH_NLRI comes after another. -/
theorem reach_first {before after : List CompleteTlv} {t : CompleteTlv}
    (hts : ts = before ++ t :: after) (hcode : t.type_code = AttrType.MP_REACH_NLRI.code) :
    ¬Occurs t.type_code before := by
  classical
  intro hocc
  have hdup : .error (duplicate_error t.type_code) ∈ block_outcomes four_byte_asn ts := by
    refine (mem_block_outcomes _).2 ⟨before, t, after, hts, ?_⟩
    rw [decide_eq_true hocc]
    rfl
  have hno := hreset _ (mem_failed.2 hdup)
  rw [duplicate_error, if_pos (.inl hcode)] at hno
  cases hno

theorem reach_unique {t t' : CompleteTlv} (ht : t ∈ ts) (ht' : t' ∈ ts)
    (hcode : t.type_code = AttrType.MP_REACH_NLRI.code)
    (hcode' : t'.type_code = AttrType.MP_REACH_NLRI.code) : t = t' := by
  obtain ⟨before, after, hts⟩ := List.append_of_mem ht
  rw [hts, List.mem_append, List.mem_cons] at ht'
  rcases ht' with ht' | rfl | ht'
  · exact absurd ⟨t', ht', hcode'.trans hcode.symm⟩ (reach_first hreset hts hcode)
  · rfl
  · obtain ⟨between, rest, rfl⟩ := List.append_of_mem ht'
    have hts' : ts = (before ++ t :: between) ++ t' :: rest := by
      rw [hts]
      simp
    exact absurd ⟨t, by simp, hcode.trans hcode'.symm⟩ (reach_first hreset hts' hcode')

/-- What is kept announces what the MP_REACH_NLRI with the right flags does. -/
theorem exists_kept_reach :
    (∃ a ∈ kept four_byte_asn ts, q ∈ a.reach family) ↔
      ∃ t ∈ ts, Flagged t.toTlv ∧ q ∈ reach_of family t.toTlv := by
  classical
  constructor
  · rintro ⟨a, ha, hq⟩
    obtain ⟨before, t, after, hts, ho⟩ := (mem_block_outcomes _).1 (mem_kept.1 ha)
    have hcode : t.toTlv.type_code = AttrType.MP_REACH_NLRI.code := by
      rw [← type_code_of_kept ho.symm]
      cases a <;> first | rfl | cases hq
    obtain ⟨-, ⟨k, hk, hflags, hvalue⟩ | ⟨hk, -⟩⟩ := outcome_eq_ok ho.symm
    · rw [hcode, AttrType.of_code_code] at hk
      cases hk
      exact ⟨t, hts ▸ by simp, hflags, mem_reach_of.2 ⟨hcode, a, hvalue, hq⟩⟩
    · rw [hcode, AttrType.of_code_code] at hk
      cases hk
  · rintro ⟨t, ht, hflags, hq⟩
    obtain ⟨hcode, a, hvalue, hq⟩ := mem_reach_of.1 hq
    obtain ⟨before, after, hts⟩ := List.append_of_mem ht
    refine ⟨a, mem_kept.2 ((mem_block_outcomes _).2 ⟨before, t, after, hts, ?_⟩), hq⟩
    rw [Flagged] at hflags
    rw [decide_eq_false (reach_first hreset hts hcode), outcome_known four_byte_asn hcode,
      if_pos hflags]
    exact congrArg (Except.mapError _) hvalue.symm

/-- An MP_REACH_NLRI with wrong flags takes the routes back, and its type is in the errors. -/
theorem failed_of_unflagged {t : CompleteTlv} (ht : t ∈ ts)
    (hcode : t.type_code = AttrType.MP_REACH_NLRI.code) (hflags : ¬Flagged t.toTlv) :
    ∃ e ∈ failed four_byte_asn ts, e.policy = .TreatAsWithdraw ∧
      e.type_code = AttrType.MP_REACH_NLRI.code := by
  classical
  obtain ⟨before, after, hts⟩ := List.append_of_mem ht
  obtain ⟨hflags', -⟩ | ⟨e, he, ⟨-, hpolicy⟩ | ⟨hflags', -⟩⟩ := outcome_cases four_byte_asn hcode
  · exact absurd hflags' hflags
  · refine ⟨e, mem_failed.2 ((mem_block_outcomes _).2 ⟨before, t, after, hts, ?_⟩), hpolicy,
      (type_code_of_error he).trans hcode⟩
    rw [decide_eq_false (reach_first hreset hts hcode), he]
  · exact absurd hflags' hflags

end

end

/-! ### What the daemon does -/

variable {s : Session} {c : Connection}

/-- A session that stays up hands on what is left of the UPDATE. -/
theorem Framed.exists_delivered (hs : s.Listening c)
    (h : Framed (.negotiated extended four_byte_asn) buf ts withdrawn announced) (now : ℕ)
    (hup : (s.receive now
      ((BgpCodec.negotiated extended four_byte_asn).received buf)).fsm.state = .Established) :
    ∃ u, ((BgpCodec.negotiated extended four_byte_asn).received buf).update? = some u ∧
      s.delivered now ((BgpCodec.negotiated extended four_byte_asn).received buf)
        = [.RouteUpdate u] := by
  refine (Session.delivered_cases hs now _).resolve_right fun hends => ?_
  have hnone := hends.1
  rw [BgpCodec.received, h.decode_message] at hup hnone
  cases hout : UpdateMessage.classify ⟨withdrawn, kept four_byte_asn ts, announced⟩
      (failed four_byte_asn ts) with
  | Clean m =>
    rw [hout] at hnone
    cases hnone
  | Partial m errors treat_as_withdraw session_reset =>
    rw [hout] at hup hnone
    have hidle := Session.idle_of_malformed hs now hnone
    cases hidle.symm.trans hup

section

variable {d : DaemonState} (clk : Clock) {ip : IpAddr}
  (hreset : ∀ e ∈ failed four_byte_asn ts, e.policy.is_session_reset = false)

include hreset

/-- In an UPDATE whose routes are taken back, the prefixes that came in an MP_REACH_NLRI with wrong
flags are the only ones that can stay. -/
theorem announcedGone_withdrawn_iff (hc : d.Configured ip)
    (hless : is_nlri_less_with_attributes ⟨withdrawn, kept four_byte_asn ts, announced⟩
      ((failed four_byte_asn ts).map AttributeError.toAttributeDecodeError) = false) :
    AnnouncedGone (d.on_route_update clk ip
        (make_treat_as_withdraw ⟨withdrawn, kept four_byte_asn ts, announced⟩)).1 ip announced ts ↔
      ∀ t ∈ ts, ¬Flagged t.toTlv → ∀ family, ∀ q ∈ reach_of family t.toTlv,
        d.NoCandidate ip family q ∨
          family = .IPV4_UNICAST ∧ q ∈ (announced ++ withdrawn).map .V4 := by
  set m : UpdateMessage := ⟨withdrawn, kept four_byte_asn ts, announced⟩
  have hannounces {family : AfiSafi} {q : Prefix} : m.Announces family q ↔
      family = .IPV4_UNICAST ∧ q ∈ announced.map .V4 ∨
        ∃ t ∈ ts, Flagged t.toTlv ∧ q ∈ reach_of family t.toTlv :=
    or_congr_right (exists_kept_reach hreset)
  -- what the message it is turned into does to one prefix
  have hgone {family : AfiSafi} {q : Prefix} (heor : (make_treat_as_withdraw m).is_eor_v4 = false
      ∧ (make_treat_as_withdraw m).is_eor_v6 = false) :=
    (d.gone_iff clk ip heor family q).trans (d.refuses_treat_as_withdraw clk hc m family q)
  have hunflagged {t : CompleteTlv} (ht : t ∈ ts) (hflags : ¬Flagged t.toTlv) {family : AfiSafi}
      {q : Prefix} (hq : q ∈ reach_of family t.toTlv) :
      (d.on_route_update clk ip (make_treat_as_withdraw m)).1.NoCandidate ip family q ↔
        d.NoCandidate ip family q ∨
          m.Announces family q ∨ family = .IPV4_UNICAST ∧ q ∈ withdrawn.map .V4 := by
    -- the attribute is among the errors, so the message is no marker
    obtain ⟨e, he, -, hreach⟩ := failed_of_unflagged hreset ht (mem_reach_of.1 hq).1 hflags
    have heor := mt (only_unreach_of_eor hless) fun h =>
      absurd (hreach.symm.trans (h.2.2.2 _ (List.mem_map_of_mem he))) (by decide)
    rw [not_or, Bool.not_eq_true, Bool.not_eq_true] at heor
    exact hgone heor
  constructor
  · intro hnone t ht hflags family q hq
    refine ((hunflagged ht hflags hq).1 (hnone family q (.inr ⟨t, ht, hq⟩))).imp_right ?_
    rw [hannounces, List.map_append, List.mem_append]
    rintro ((⟨hf, hq⟩ | ⟨t', ht', hflags', hq'⟩) | ⟨hf, hq⟩)
    · exact ⟨hf, .inl hq⟩
    · -- nothing with these flags is kept, and there is only one MP_REACH_NLRI
      obtain rfl := reach_unique hreset ht ht' (mem_reach_of.1 hq).1 (mem_reach_of.1 hq').1
      exact absurd hflags' hflags
    · exact ⟨hf, .inr hq⟩
  · intro hshed family q hq
    -- a prefix that is withdrawn is enough for the message to be no marker
    have hback (h : m.Announces family q ∨ family = .IPV4_UNICAST ∧ q ∈ withdrawn.map .V4) :
        (d.on_route_update clk ip (make_treat_as_withdraw m)).1.NoCandidate ip family q := by
      have hwithdraws := (withdraws_treat_as_withdraw m family q).2 h
      exact (hgone (UpdateMessage.not_eor_of_mentions (.inr hwithdraws))).2 (.inr h)
    rcases hq with hq | ⟨t, ht, hq⟩
    · exact hback (.inl (.inl hq))
    · by_cases hflags : Flagged t.toTlv
      · exact hback (.inl (hannounces.2 (.inr ⟨t, ht, hflags, hq⟩)))
      · rcases hshed t ht hflags family q hq with hnone | ⟨hf, hq⟩
        · exact (hunflagged ht hflags ‹_›).2 (.inl hnone)
        · rw [List.map_append, List.mem_append] at hq
          exact hback (hq.imp (fun hq => .inl ⟨hf, hq⟩) fun hq => ⟨hf, hq⟩)

/-- In an UPDATE whose routes are not taken back, what is kept is imported. -/
theorem announcedGone_kept_iff (hkept : ¬Revoked four_byte_asn ts) :
    AnnouncedGone (d.on_route_update clk ip
        ⟨withdrawn, kept four_byte_asn ts, announced⟩).1 ip announced ts ↔
      ∀ family q, Announced announced ts family q →
        d.Refuses clk ip ⟨withdrawn, kept four_byte_asn ts, announced⟩ family q := by
  refine forall₃_congr fun family q hq => ?_
  suffices hannounces : UpdateMessage.Announces ⟨withdrawn, kept four_byte_asn ts, announced⟩
      family q from
    d.gone_iff clk ip (UpdateMessage.not_eor_of_mentions (.inl hannounces)) family q
  -- every MP_REACH_NLRI has the right flags
  refine hq.imp_right fun ⟨t, ht, hq⟩ => (exists_kept_reach hreset).2 ⟨t, ht, ?_, hq⟩
  by_contra hflags
  obtain ⟨e, he, hpolicy, -⟩ := failed_of_unflagged hreset ht (mem_reach_of.1 hq).1 hflags
  exact hkept (revoked_iff.2 ⟨e, he, hpolicy⟩)

end

/-- **When malformed attributes install no route, exactly.** The UPDATE frames correctly and the
session stays up. If the first attribute of some type is malformed, then no prefix that the UPDATE
announces is a candidate of the peer in a daemon that has handled it, exactly for the UPDATEs that
are `Shed` there. -/
theorem malformed_not_installed_iff (hs : s.Listening c) {extended four_byte_asn : Bool}
    {buf : List UInt8} {ts : List CompleteTlv} {withdrawn announced : List (Nlri Ipv4Addr)}
    (hframed : Framed (.negotiated extended four_byte_asn) buf ts withdrawn announced) (now : ℕ)
    (hup : (s.receive now
      ((BgpCodec.negotiated extended four_byte_asn).received buf)).fsm.state = .Established)
    (d : DaemonState) (clk : Clock) {peer_ip : IpAddr} (hc : d.Configured peer_ip) :
    (∀ k t, FirstOf k ts t → Malformed four_byte_asn t.value k →
      AnnouncedGone (d.deliver clk peer_ip (s.delivered now
        ((BgpCodec.negotiated extended four_byte_asn).received buf))) peer_ip announced ts) ↔
      ∀ k t, FirstOf k ts t → Malformed four_byte_asn t.value k →
        Shed d clk peer_ip four_byte_asn withdrawn announced ts := by
  refine forall₄_congr fun k t _ _ => ?_
  obtain ⟨u, hu, hdelivered⟩ := hframed.exists_delivered hs now hup
  rw [hdelivered]
  rw [hframed.update?_eq] at hu
  split_ifs at hu with hreset hwithdraw hless
  · cases hu
    rw [Bool.not_eq_true, List.any_eq_false] at hreset
    obtain ⟨e, he, hpolicy⟩ := List.any_eq_true.1 hwithdraw
    have hrevoked := revoked_iff.2 ⟨e, he, beq_iff_eq.1 hpolicy⟩
    rw [Shed, and_iff_right hrevoked, or_iff_left fun h => h.1 hrevoked]
    exact announcedGone_withdrawn_iff clk (fun e he => Bool.eq_false_of_not_eq_true (hreset e he))
      hc (Bool.eq_false_of_not_eq_true hless)
  · cases hu
    rw [Bool.not_eq_true, List.any_eq_false] at hreset hwithdraw
    have hkept : ¬Revoked four_byte_asn ts := by
      rw [revoked_iff]
      rintro ⟨e, he, hpolicy⟩
      exact hwithdraw e he (beq_iff_eq.2 hpolicy)
    rw [Shed, or_iff_right fun h => hkept h.1, and_iff_right hkept]
    exact announcedGone_kept_iff clk (fun e he => Bool.eq_false_of_not_eq_true (hreset e he)) hkept

/-- The attributes of a route of AS 65002, with an ORIGIN of the given value and one more
attribute. -/
def route_attributes (origin : UInt8) (extra : CompleteTlv) : List CompleteTlv :=
  [short_tlv 0x40 1 [origin] (by simp), short_tlv 0x40 2 [2, 1, 0, 0, 0xFD, 0xEA] (by decide),
    short_tlv 0x40 3 [192, 0, 2, 1] (by decide), extra]

/-- An UPDATE that announces 10.0.0.0/8 with these attributes. -/
def route_update (origin : UInt8) (extra : CompleteTlv) : List UInt8 :=
  with_header .Update (Body.mk [] (block_bytes (route_attributes origin extra)) [8, 10]).bytes

/-- An MP_REACH_NLRI attribute that ends in the middle of its header. -/
def cut_reach : CompleteTlv := short_tlv 0x80 14 [0, 2] (by decide)

/-- A COMMUNITIES attribute of three octets. -/
def cut_community : CompleteTlv := short_tlv 0xC0 8 [0xFF, 0xFF, 1] (by decide)

theorem framed_cut_reach : Framed (.negotiated false true) (route_update 7 cut_reach)
    (route_attributes 7 cut_reach) [] [Nlri.v4 10 0 0 0 8] :=
  ⟨_, ⟨by decide +kernel, by decide +kernel⟩, rfl, by decide +kernel, by decide +kernel, rfl,
    by decide +kernel⟩

theorem framed_cut_community : Framed (.negotiated false true) (route_update 0 cut_community)
    (route_attributes 0 cut_community) [] [Nlri.v4 10 0 0 0 8] :=
  ⟨_, ⟨by decide +kernel, by decide +kernel⟩, rfl, by decide +kernel, by decide +kernel, rfl,
    by decide +kernel⟩

/-- An ORIGIN without a meaning takes the route back, also where an MP_REACH_NLRI is cut off. -/
theorem unknown_origin_not_installed :
    AnnouncedGone (daemon_of_two.deliver ⟨0, 0⟩ (peer_addr 2) (session_of_two.delivered 0
      ((BgpCodec.negotiated false true).received (route_update 7 cut_reach)))) (peer_addr 2)
      [Nlri.v4 10 0 0 0 8] (route_attributes 7 cut_reach) := by
  obtain ⟨c, hs⟩ := listening_session_of_two
  have hfirst : FirstOf .ORIGIN (route_attributes 7 cut_reach) (short_tlv 0x40 1 [7] (by simp)) :=
    ⟨[], _, rfl, rfl, by simp [Occurs]⟩
  have hseven : ¬(7 : UInt8) ≤ 2 := by decide
  have hmal : Malformed true [7] .ORIGIN := by
    rintro x hx heq
    cases heq
    exact hseven hx
  refine (malformed_not_installed_iff hs framed_cut_reach 0 (by decide +kernel) daemon_of_two
    ⟨0, 0⟩ (by decide +kernel)).2
    (fun _ _ _ _ => .inl ⟨⟨.ORIGIN, _, hfirst, .ORIGIN, rfl, .inr ⟨by decide, ?_⟩⟩, ?_⟩) .ORIGIN _
    hfirst hmal
  · rintro ⟨x, hx, heq⟩
    exact hmal x hx heq
  · intro t ht _ family q hq
    obtain ⟨hcode, a, ha, -⟩ := mem_reach_of.1 hq
    have hcut : ∀ t ∈ route_attributes 7 cut_reach, t.type_code = AttrType.MP_REACH_NLRI.code →
        (decode_mp_reach t.value).toOption = none := by decide +kernel
    have hnone := hcut t ht hcode
    rw [ha] at hnone
    cases hnone

/-- A COMMUNITIES attribute of three octets is left out, and the route is installed. -/
theorem short_community_installed :
    daemon_of_two.Reachable ∧ (∃ c, session_of_two.Listening c)
      ∧ Framed (.negotiated false true) (route_update 0 cut_community)
        (route_attributes 0 cut_community) [] [Nlri.v4 10 0 0 0 8]
      ∧ (session_of_two.receive 0 ((BgpCodec.negotiated false true).received
        (route_update 0 cut_community))).fsm.state = .Established
      ∧ (∃ t, FirstOf .COMMUNITY (route_attributes 0 cut_community) t
        ∧ Malformed true t.value .COMMUNITY)
      ∧ ¬AnnouncedGone (daemon_of_two.deliver ⟨0, 0⟩ (peer_addr 2) (session_of_two.delivered 0
        ((BgpCodec.negotiated false true).received (route_update 0 cut_community))))
        (peer_addr 2) [Nlri.v4 10 0 0 0 8] (route_attributes 0 cut_community) := by
  refine ⟨reachable_small_daemon .., listening_session_of_two, framed_cut_community,
    by decide +kernel, ⟨cut_community, ?_, .inr (by decide)⟩, fun h => ?_⟩
  · refine ⟨(route_attributes 0 cut_community).take 3, [], rfl, rfl, ?_⟩
    simp [Occurs, route_attributes, short_tlv, AttrType.code]
  · exact absurd ((h .IPV4_UNICAST (.V4 (Nlri.v4 10 0 0 0 8)) (.inl ⟨rfl, by simp⟩)).1 _ ⟨rfl, rfl⟩)
      (by decide +kernel)

end Wire

end Pathvector
