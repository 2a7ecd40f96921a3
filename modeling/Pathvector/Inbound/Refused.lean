/-
# Announcements a daemon does not take

What has to hold of a message and of the daemon for a prefix to be no candidate of the sender
after the message: no route of the prefix gets past the checks and the policy, and what there was
of it is taken back by the same message, or there was nothing (`gone_iff`).
Refusing a route is not enough: most ways of refusing leave the sender's old route where it was.
-/
import Pathvector.Inbound.Withdrawal

set_option autoImplicit false

namespace Pathvector

section

variable {A : Type} [IpAddress A] [DecidableEq A] {policy : Policy A} {rtr : RtrHandle A}

/-- The policy lets one of the routes of the prefix in. A route with BLACKHOLE never gets there. -/
def Accepts (policy : Policy A) (rtr : RtrHandle A) (raws : List (Route A)) (p : Nlri A) : Prop :=
  ∃ raw ∈ raws, raw.nlri = p ∧ raw.is_blackhole = false ∧ (policy.evaluate rtr raw).1 = .Accept

/-- The prefix has no candidate after a message that takes `back` and whose routes `raws` are left
to the policy, if the message is imported at all. -/
def TakesNone (imported : Prop) (policy : Policy A) (rtr : RtrHandle A) (back : List (Nlri A))
    (raws : List (Route A)) (before : Option (Route A)) (p : Nlri A) : Prop :=
  ¬(imported ∧ Accepts policy rtr raws p) ∧ (before = none ∨
    imported ∧ (p ∈ back ∨ ∃ raw ∈ raws, raw.nlri = p ∧ raw.is_blackhole = true))

/-- The routes of one message carry BLACKHOLE alike, so the last one of a prefix that has a say
tells of all of them. -/
theorem Tables.gone_hear_iff (t : Tables A) (peer : IpAddr) (back : List (Nlri A))
    {raws : List (Route A)} {tagged : Bool} (htag : ∀ raw ∈ raws, raw.is_blackhole = tagged)
    (refreshed : List (Nlri A)) (reported : Bool) (p : Nlri A) :
    (t.move (.Hear peer policy rtr (back.map .Withdraw ++ raws.map .Announce) refreshed
        reported)).loc_rib.candidate p peer = none ↔
      TakesNone True policy rtr back raws (t.loc_rib.candidate p peer) p := by
  rw [TakesNone, true_and, true_and]
  rcases t.candidate_hear_cases peer back raws refreshed reported p with
    ⟨raw, hraw, hn, ⟨hb, hc⟩ | ⟨hb, r, heval, hc⟩⟩ | ⟨hnone, hc⟩
  · refine iff_of_true hc ⟨?_, .inr (.inr ⟨raw, hraw, hn, hb⟩)⟩
    rintro ⟨raw', hraw', -, hplain, -⟩
    rw [htag raw' hraw', ← htag raw hraw, hb] at hplain
    cases hplain
  · refine iff_of_false (fun h => by cases hc.symm.trans h) fun h => ?_
    exact h.1 ⟨raw, hraw, hn, hb, by rw [heval]⟩
  · have hacc : ¬Accepts policy rtr raws p := fun ⟨raw, hraw, hn, _, haccept⟩ =>
      hnone ⟨raw, hraw, hn, .inr haccept⟩
    have hhole : ¬∃ raw ∈ raws, raw.nlri = p ∧ raw.is_blackhole = true := fun ⟨raw, hraw, hn, hb⟩ =>
      hnone ⟨raw, hraw, hn, .inl hb⟩
    rw [and_iff_right hacc, or_iff_left hhole, hc, ite_eq_left_iff, ← or_iff_not_imp_left, or_comm]

end

/-! ## The routes of one message -/

section

variable {env : ImportEnv} {a : UpdateAttrs}

theorem communities_rare : (a.rare.getD {}).communities = a.communities := by
  unfold UpdateAttrs.rare
  split
  · next h =>
    simp only [Bool.and_eq_true, List.isEmpty_iff] at h
    exact h.1.1.1.1.1.1.symm
  · rfl

theorem is_blackhole_routes_v4 {announced : List (Nlri Ipv4Addr)}
    {mp : List (Nlri Ipv4Addr × NextHop)} {raw : Route Ipv4Addr}
    (h : raw ∈ routes_v4 env a announced mp) :
    raw.is_blackhole = a.communities.contains Community.BLACKHOLE := by
  obtain ⟨e, -, rfl⟩ := List.mem_map.1 (DaemonState.mem_map_of_usable h)
  have hrare : (raw_route_v4 env a e.1 e.2).communities = (a.rare.getD {}).communities := by
    unfold raw_route_v4
    split <;> rfl
  rw [Route.is_blackhole, hrare, communities_rare]

theorem is_blackhole_usable_v6 {raw : Route Ipv6Addr} (h : raw ∈ usable_v6 env a) :
    raw.is_blackhole = a.communities.contains Community.BLACKHOLE := by
  obtain ⟨e, -, rfl⟩ := List.mem_map.1 (DaemonState.mem_map_of_usable h)
  change (a.rare.getD {}).communities.contains _ = _
  rw [communities_rare]

end

namespace DaemonState

section

variable (s : DaemonState) (clk : Clock) (peer_ip : IpAddr) (msg : UpdateMessage)

/-- The daemon has no IPv4 route of the prefix from the peer after the message. -/
def Refuses_v4 (p : Nlri Ipv4Addr) : Prop :=
  TakesNone (s.Imports peer_ip msg) (s.env_of clk peer_ip).policy s.rpki_v4
    (s.back_v4 clk peer_ip msg) (s.judged_v4 clk peer_ip msg)
    (s.rib.loc_rib.candidate p peer_ip) p

def Refuses_v6 (p : Nlri Ipv6Addr) : Prop :=
  TakesNone (s.Imports peer_ip msg) (s.env_of clk peer_ip).policy_v6 s.rpki_v6
    (s.back_v6 clk peer_ip msg) (s.judged_v6 clk peer_ip msg)
    (s.rib.loc_rib_v6.candidate p peer_ip) p

/-- What is said of the prefixes of both families, of one prefix of one family. -/
def OfFamily (P₄ : Nlri Ipv4Addr → Prop) (P₆ : Nlri Ipv6Addr → Prop) (family : AfiSafi)
    (q : Prefix) : Prop :=
  (∀ p, family = .IPV4_UNICAST ∧ q = .V4 p → P₄ p) ∧
    ∀ p, family = .IPV6_UNICAST ∧ q = .V6 p → P₆ p

/-- The prefix is no candidate of the peer. -/
def NoCandidate : AfiSafi → Prefix → Prop :=
  OfFamily (fun p => s.rib.loc_rib.candidate p peer_ip = none)
    fun p => s.rib.loc_rib_v6.candidate p peer_ip = none

/-- The prefix is none after the message. -/
def Refuses : AfiSafi → Prefix → Prop :=
  OfFamily (s.Refuses_v4 clk peer_ip msg) (s.Refuses_v6 clk peer_ip msg)

end

variable {s : DaemonState} {clk : Clock} {ip : IpAddr} {msg msg' : UpdateMessage}

/-- **What a message leaves of a prefix, exactly.** -/
theorem gone_iff (s : DaemonState) (clk : Clock) (ip : IpAddr)
    (heor : msg.is_eor_v4 = false ∧ msg.is_eor_v6 = false) (family : AfiSafi) (q : Prefix) :
    (s.on_route_update clk ip msg).1.NoCandidate ip family q ↔ s.Refuses clk ip msg family q := by
  have hrib4 (t : Tables Ipv4Addr) (h : (s.on_route_update clk ip msg).1.tables_v4 = t) :
      (s.on_route_update clk ip msg).1.rib.loc_rib = t.loc_rib := congrArg Tables.loc_rib h
  have hrib6 (t : Tables Ipv6Addr) (h : (s.on_route_update clk ip msg).1.tables_v6 = t) :
      (s.on_route_update clk ip msg).1.rib.loc_rib_v6 = t.loc_rib := congrArg Tables.loc_rib h
  unfold NoCandidate Refuses OfFamily Refuses_v4 Refuses_v6
  rcases s.tables_on_route_update clk ip heor with ⟨himp, reported, ht4, ht6⟩ | ⟨himp, ht4, ht6⟩
  · rw [hrib4 _ ht4, hrib6 _ ht6]
    have htag4 : ∀ raw ∈ s.judged_v4 clk ip msg,
        raw.is_blackhole = (s.attrs_of ip msg).communities.contains Community.BLACKHOLE := by
      unfold judged_v4
      dsimp only
      split
      · exact fun raw => is_blackhole_routes_v4
      · exact List.forall_mem_nil _
    have htag6 : ∀ raw ∈ s.judged_v6 clk ip msg,
        raw.is_blackhole = (s.attrs_of ip msg).communities.contains Community.BLACKHOLE := by
      unfold judged_v6
      dsimp only
      split
      · exact fun raw => is_blackhole_usable_v6
      · exact List.forall_mem_nil _
    have htrue : s.Imports ip msg ↔ True := iff_true_intro himp
    simp only [htrue]
    exact and_congr (forall₂_congr fun p _ => s.tables_v4.gone_hear_iff ip _ htag4 _ _ p)
      (forall₂_congr fun p _ => s.tables_v6.gone_hear_iff ip _ htag6 _ _ p)
  · -- the message is dropped, and the tables stay as they are
    rw [hrib4 _ ht4, hrib6 _ ht6]
    simp only [TakesNone, himp, false_and, not_false_eq_true, true_and, or_false]
    rfl

/-- A message without announcements takes back what it withdraws. -/
theorem refuses_of_nothing (clk : Clock) (h : msg.NothingAnnounced) (himp : s.Imports ip msg) :
    (∀ p, s.Refuses_v4 clk ip msg p ↔
        s.rib.loc_rib.candidate p ip = none ∨ p ∈ msg.withdrawn ++ msg.unreached_v4) ∧
      ∀ p, s.Refuses_v6 clk ip msg p ↔
        s.rib.loc_rib_v6.candidate p ip = none ∨ p ∈ msg.unreached_v6 := by
  obtain ⟨msg', hin⟩ := Option.isSome_iff_exists.1 himp.2
  have hsame := samePrefixes_rr_inbound hin
  obtain ⟨ha, hr4, hr6⟩ := h
  have hc4 := UpdateAttrs.collect_reached_v4 (s.env_of clk ip).peer_type msg'
  have hc6 := UpdateAttrs.collect_reached_v6 (s.env_of clk ip).peer_type msg'
  rw [hsame.reached_v4, hr4, List.map_eq_nil_iff] at hc4
  rw [hsame.reached_v6, hr6, List.map_eq_nil_iff] at hc6
  simp [Refuses_v4, Refuses_v6, TakesNone, Accepts, back_v4, back_v6, judged_v4, judged_v6,
    treated_v4, treated_v6, usable_v6, routes_v6, himp, ha, hr4, hr6, attrs_of_eq clk hin, hc4, hc6]

end DaemonState

end Pathvector
