/-
# Treat-as-withdraw

What `make_treat_as_withdraw` leaves of a message. It withdraws what the message announced and what
its withdrawn routes field had, and drops every attribute but the MP_REACH_NLRI, which it turns
into MP_UNREACH_NLRI. So a prefix that only an MP_UNREACH_NLRI attribute mentioned is not withdrawn
(`mp_unreach_not_taken_back`), and the routes are taken back exactly if there is none
(`takenBack_iff`).
-/
import Pathvector.Wire.EndOfRib

set_option autoImplicit false

namespace Pathvector

theorem reach_treat_as_withdraw (m : UpdateMessage) (family : AfiSafi) :
    ∀ a ∈ (make_treat_as_withdraw m).attributes, a.reach family = [] := by
  intro a ha
  obtain ⟨a', -, heq⟩ := List.mem_filterMap.1 ha
  cases a' <;> cases heq
  rfl

theorem nothingAnnounced_treat_as_withdraw (m : UpdateMessage) :
    (make_treat_as_withdraw m).NothingAnnounced := by
  refine ⟨rfl, List.flatMap_eq_nil_iff.2 fun a ha => ?_, List.flatMap_eq_nil_iff.2 fun a ha => ?_⟩
    <;> rw [reach_treat_as_withdraw m _ a ha] <;> rfl

/-! ### Where a message mentions a prefix -/

namespace UpdateMessage

section

variable (m : UpdateMessage) (family : AfiSafi) (p : Prefix)

/-- The prefix is announced: in the NLRI field or in an MP_REACH_NLRI attribute. -/
def Announces : Prop :=
  (family = .IPV4_UNICAST ∧ p ∈ m.announced.map .V4) ∨ ∃ a ∈ m.attributes, p ∈ a.reach family

/-- The prefix is withdrawn: in the withdrawn routes field or in an MP_UNREACH_NLRI attribute. -/
def Withdraws : Prop :=
  (family = .IPV4_UNICAST ∧ p ∈ m.withdrawn.map .V4) ∨ ∃ a ∈ m.attributes, p ∈ a.unreach family

/-- The prefix is mentioned in one of the four places. -/
def Mentions : Prop :=
  m.Announces family p ∨ m.Withdraws family p

end

variable {m : UpdateMessage}

theorem v4?_eq_some {x : Prefix} {n : Nlri Ipv4Addr} : x.v4? = some n ↔ x = .V4 n := by
  cases x <;> simp [Prefix.v4?]

theorem v6?_eq_some {x : Prefix} {n : Nlri Ipv6Addr} : x.v6? = some n ↔ x = .V6 n := by
  cases x <;> simp [Prefix.v6?]

theorem withdraws_v4_iff {n : Nlri Ipv4Addr} :
    m.Withdraws .IPV4_UNICAST (.V4 n) ↔ n ∈ m.withdrawn ++ m.unreached_v4 := by
  simp [Withdraws, unreached_v4, v4?_eq_some]

theorem withdraws_v6_iff {n : Nlri Ipv6Addr} :
    m.Withdraws .IPV6_UNICAST (.V6 n) ↔ n ∈ m.unreached_v6 := by
  simp [Withdraws, unreached_v6, v6?_eq_some]

end UpdateMessage

/-- The rewritten message withdraws all but what only an MP_UNREACH_NLRI attribute mentions. -/
theorem withdraws_treat_as_withdraw (m : UpdateMessage) (family : AfiSafi) (p : Prefix) :
    (make_treat_as_withdraw m).Withdraws family p ↔
      m.Announces family p ∨ family = .IPV4_UNICAST ∧ p ∈ m.withdrawn.map .V4 := by
  have hunreach : (∃ a ∈ (make_treat_as_withdraw m).attributes, p ∈ a.unreach family) ↔
      ∃ a ∈ m.attributes, p ∈ a.reach family := by
    constructor
    · rintro ⟨a, ha, hp⟩
      obtain ⟨a', ha', heq⟩ := List.mem_filterMap.1 ha
      refine ⟨a', ha', ?_⟩
      cases a' <;> cases heq
      exact hp
    · rintro ⟨a, ha, hp⟩
      cases a with
      | MpReachNlri mp =>
        exact ⟨.MpUnreachNlri ⟨mp.afi_safi, mp.prefixes⟩, List.mem_filterMap.2 ⟨_, ha, rfl⟩, hp⟩
      | _ => cases hp
  unfold UpdateMessage.Withdraws UpdateMessage.Announces
  rw [hunreach, make_treat_as_withdraw, List.map_append, List.mem_append, and_or_left, or_assoc,
    or_comm]

/-- Nothing is left of what a message mentions, and nothing else is touched: in the message it is
turned into, and in whatever the peer has announced. -/
structure TakenBack (m : UpdateMessage) : Prop where
  announces : ∀ family p, ¬(make_treat_as_withdraw m).Announces family p
  withdraws : ∀ family p, (make_treat_as_withdraw m).Withdraws family p ↔ m.Mentions family p
  adj_rib_in : ∀ env v4 v6 n,
    (m.Mentions .IPV4_UNICAST (.V4 n) →
      (handle_update env (make_treat_as_withdraw m) v4 v6).v4.adj_rib_in.get n = none) ∧
    (¬m.Mentions .IPV4_UNICAST (.V4 n) →
      (handle_update env (make_treat_as_withdraw m) v4 v6).v4.adj_rib_in.get n
        = v4.adj_rib_in.get n)
  adj_rib_in_v6 : ∀ env v4 v6 n,
    (m.Mentions .IPV6_UNICAST (.V6 n) →
      (handle_update env (make_treat_as_withdraw m) v4 v6).v6.adj_rib_in.get n = none) ∧
    (¬m.Mentions .IPV6_UNICAST (.V6 n) →
      (handle_update env (make_treat_as_withdraw m) v4 v6).v6.adj_rib_in.get n
        = v6.adj_rib_in.get n)

/-- **Treat-as-withdraw is complete exactly** for a message whose MP_UNREACH_NLRI attributes
mention nothing that no other part of it does. -/
theorem takenBack_iff (m : UpdateMessage) :
    TakenBack m ↔ ∀ family p, (∃ a ∈ m.attributes, p ∈ a.unreach family) →
      m.Announces family p ∨ family = .IPV4_UNICAST ∧ p ∈ m.withdrawn.map .V4 := by
  constructor
  · intro h family p hp
    exact (withdraws_treat_as_withdraw m family p).1 ((h.withdraws family p).2 (.inr (.inr hp)))
  · intro h
    have hwithdraws : ∀ family p,
        (make_treat_as_withdraw m).Withdraws family p ↔ m.Mentions family p := by
      intro family p
      rw [withdraws_treat_as_withdraw]
      refine ⟨fun hp => hp.imp_right .inl, ?_⟩
      rintro (hp | hp | hp)
      · exact .inl hp
      · exact .inr hp
      · exact h family p hp
    have hnothing := nothingAnnounced_treat_as_withdraw m
    refine ⟨?_, hwithdraws, fun env v4 v6 n => ?_, fun env v4 v6 n => ?_⟩
    · rintro family p (⟨-, hp⟩ | ⟨a, ha, hp⟩)
      · cases hp
      · rw [reach_treat_as_withdraw m family a ha] at hp
        cases hp
    · rw [(handle_update_eq env _ v4 v6).1, (ImportState.take_all_tables ..).1,
        (intake_of_nothing env hnothing).1, List.foldl_map, ← hwithdraws,
        UpdateMessage.withdraws_v4_iff]
      exact ⟨fun hn => (Tables.get_withdraw_fold ..).trans (if_pos hn),
        fun hn => (Tables.get_withdraw_fold ..).trans (if_neg hn)⟩
    · rw [(handle_update_eq env _ v4 v6).2, (ImportState.take_all_tables ..).1,
        (intake_of_nothing env hnothing).2, List.foldl_map, ← hwithdraws,
        UpdateMessage.withdraws_v6_iff]
      exact ⟨fun hn => (Tables.get_withdraw_fold ..).trans (if_pos hn),
        fun hn => (Tables.get_withdraw_fold ..).trans (if_neg hn)⟩

namespace Wire

/-- An UPDATE that announces 10.0.0.0/8 with an ORIGIN without a meaning, and withdraws
2001:db8::/32 in an MP_UNREACH_NLRI attribute. -/
def two_families : List UInt8 :=
  with_header .Update (Body.mk [] (block_bytes
    [short_tlv 0x80 15 [0, 2, 1, 32, 0x20, 1, 0x0D, 0xB8] (by decide),
      short_tlv 0x40 1 [7] (by decide)]) [8, 10]).bytes

def two_families_decoded : UpdateMessage :=
  ⟨[], [.MpUnreachNlri ⟨.IPV6_UNICAST, [.V6 (Nlri.v6 0x20010db8000000000000000000000000 32)]⟩],
    [Nlri.v4 10 0 0 0 8]⟩

/-- Its routes are to be taken back, but 2001:db8::/32 is not withdrawn. -/
theorem mp_unreach_not_taken_back :
    (BgpCodec.negotiated false true).received two_families = .message (.MalformedUpdate
        ⟨two_families_decoded, [⟨1, .TreatAsWithdraw⟩], true, false⟩) ∧
      ¬TakenBack two_families_decoded := by
  refine ⟨by decide +kernel, fun h => ?_⟩
  have hleft := (withdraws_treat_as_withdraw _ .IPV6_UNICAST _).1 ((h.withdraws _ _).2
    (.inr (.inr ⟨_, List.mem_singleton.2 rfl, List.mem_singleton.2 rfl⟩)))
  unfold UpdateMessage.Announces at hleft
  revert hleft
  decide

end Wire

end Pathvector
