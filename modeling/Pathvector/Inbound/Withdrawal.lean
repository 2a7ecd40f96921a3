/-
# Withdrawals

Three things a peer may rely on when it takes a route back. Whatever else a message says and
whatever becomes of it, what it withdraws leaves the peer's tables (`withdrawnGone_iff`); a
message that only withdraws is taken in without a NOTIFICATION, and the prefixes are gone
(`pure_withdrawal_iff`); and an announcement takes back what the same peer announced for the
prefix before, whether or not the new route is let in (`implicit_withdraw_iff`).

None holds for every state. A message that loops through a route reflector is dropped as a whole;
a reflector adds its attributes to an iBGP message before it checks that a message with
attributes has the mandatory ones; and most ways of refusing a route leave the old one where it
was.
-/
import Pathvector.Tables.Contents

set_option autoImplicit false

namespace Pathvector

/-! ## What a message does to a candidate -/

section

variable {A : Type} [IpAddress A] [DecidableEq A] {policy : Policy A} {rtr : RtrHandle A}

/-- One of the routes has a say about the candidate of a prefix: it carries BLACKHOLE, or the
policy lets it in. -/
def Decides (policy : Policy A) (rtr : RtrHandle A) (routes : List (Route A)) (p : Nlri A) : Prop :=
  ∃ raw ∈ routes, raw.nlri = p ∧
    (raw.is_blackhole = true ∨ (policy.evaluate rtr raw).1 = .Accept)

instance (policy : Policy A) (rtr : RtrHandle A) (routes : List (Route A)) (p : Nlri A) :
    Decidable (Decides policy rtr routes p) :=
  inferInstanceAs (Decidable (∃ raw ∈ routes, _))

variable (t : Tables A) (peer : IpAddr) (back : List (Nlri A)) (raws : List (Route A))
  (refreshed : List (Nlri A)) (reported : Bool)

/-- **The candidate after a message** that takes `back` and then announces `raws`: the last route
of the prefix that has a say decides, and without one the withdrawals do. -/
theorem Tables.candidate_hear_cases (p : Nlri A) :
    let c := (t.move (.Hear peer policy rtr (back.map .Withdraw ++ raws.map .Announce) refreshed
      reported)).loc_rib.candidate p peer
    (∃ raw ∈ raws, raw.nlri = p ∧ (raw.is_blackhole = true ∧ c = none ∨
        raw.is_blackhole = false ∧ ∃ r, policy.evaluate rtr raw = (.Accept, r) ∧ c = some r)) ∨
      ¬Decides policy rtr raws p ∧ c = if p ∈ back then none else t.loc_rib.candidate p peer := by
  intro c
  have hc : c = t.loc_rib.candidate_after peer (back.map .Drop ++
      raws.filterMap fun raw => (ImportOp.Announce raw).rib_op policy rtr) p := by
    refine (candidate_hear ..).trans ?_
    rw [LocRib.candidate_of_after, if_pos rfl, List.filterMap_append, List.filterMap_map,
      List.filterMap_map]
    congr 2
    exact congrFun (List.filterMap_eq_map (f := RibOp.Drop)) back
  rw [hc, LocRib.candidate_after, List.filter_append, List.getLast?_append]
  cases hlast : ((raws.filterMap fun raw => (ImportOp.Announce raw).rib_op policy rtr).filter
      (·.nlri = p)).getLast? with
  | some op =>
    -- a later announcement overrides the withdrawal of the same message
    obtain ⟨hmem, hn⟩ := List.mem_filter.1 (List.mem_of_getLast? hlast)
    obtain ⟨raw, hraw, hop⟩ := List.mem_filterMap.1 hmem
    refine .inl ⟨raw, hraw, (ImportOp.nlri_rib_op hop).symm.trans (of_decide_eq_true hn), ?_⟩
    obtain ⟨hb, rfl⟩ | ⟨hb, r, heval, rfl⟩ := ImportOp.rib_op_announce_iff.1 hop
    · exact .inl ⟨hb, rfl⟩
    · exact .inr ⟨hb, r, heval, rfl⟩
  | none =>
    refine .inr ⟨?_, ?_⟩
    · rintro ⟨raw, hraw, rfl, hsay⟩
      rw [List.getLast?_eq_none_iff, List.filter_eq_nil_iff] at hlast
      obtain ⟨op, hop⟩ : ∃ op, (ImportOp.Announce raw).rib_op policy rtr = some op := by
        cases hb : raw.is_blackhole with
        | true => exact ⟨_, ImportOp.rib_op_announce_iff.2 (.inl ⟨hb, rfl⟩)⟩
        | false =>
          have haccept := hsay.resolve_left (by rw [hb]; exact Bool.false_ne_true)
          exact ⟨_, ImportOp.rib_op_announce_iff.2 (.inr ⟨hb, _, Prod.ext haccept rfl, rfl⟩)⟩
      exact hlast op (List.mem_filterMap.2 ⟨raw, hraw, hop⟩)
        (decide_eq_true (ImportOp.nlri_rib_op hop))
    · have hdrop : ∀ op ∈ back.map RibOp.Drop, op.nlri = p → op.route? = none := by
        rintro op hop -
        obtain ⟨n, -, rfl⟩ := List.mem_map.1 hop
        rfl
      have hback := t.loc_rib.candidate_after_const peer hdrop
      simp only [List.mem_map, exists_exists_and_eq_and, RibOp.nlri_drop, exists_eq_right] at hback
      exact hback

variable {back raws}

/-- What is withdrawn in a message and not announced in it is in neither table of the peer
afterwards. -/
theorem Tables.gone_hear (policy : Policy A) (rtr : RtrHandle A) {n : Nlri A} (hw : n ∈ back)
    (ha : ∀ raw ∈ raws, raw.nlri ≠ n) :
    let ops := back.map .Withdraw ++ raws.map .Announce
    (∀ ari ∈ (t.move (.Hear peer policy rtr ops refreshed reported)).adj_ribs_in.lookup peer,
        ari.get n = none) ∧
      (t.move (.Hear peer policy rtr ops refreshed reported)).loc_rib.candidate n peer = none := by
  intro ops
  constructor
  · intro ari hari
    have hheld := t.held_hear peer peer n policy rtr ops refreshed reported
    rw [held, hari, Option.bind_some] at hheld
    rw [hheld]
    split
    · cases hlast : last_op ops n with
      | none =>
        have hnone := last_op_eq_none.1 hlast
        exact absurd rfl (hnone _ (List.mem_append_left _ (List.mem_map_of_mem hw)))
      | some op =>
        obtain ⟨hop, hn⟩ := last_op_mem hlast
        cases op with
        | Withdraw m => rfl
        | Announce raw => exact absurd hn (ha raw (by simpa [ops] using hop))
    · next hnot =>
      rw [held, AList.lookup_eq_none.2 fun h => hnot ⟨rfl, h⟩]
      rfl
  · rcases t.candidate_hear_cases peer back raws refreshed reported n with
      ⟨raw, hraw, hn, -⟩ | ⟨-, hc⟩
    · exact absurd hn (ha raw hraw)
    · exact hc.trans (if_pos hw)

/-- A candidate is absent, or it is one of the carried routes of its prefix as the import
policy lets it in. -/
def FromUpdate (policy : Policy A) (rtr : RtrHandle A) (carried : List (Route A)) (p : Nlri A)
    (c : Option (Route A)) : Prop :=
  ∀ r, c = some r → ∃ raw ∈ carried, raw.nlri = p ∧ policy.evaluate rtr raw = (.Accept, r)

/-- The operations of a message leave a candidate of this update exactly when one of them decides,
or the candidate already was one. -/
theorem Tables.fromUpdate_hear_iff (policy : Policy A) (rtr : RtrHandle A)
    {carried : List (Route A)} (hsub : raws ⊆ carried) (p : Nlri A) :
    FromUpdate policy rtr carried p ((t.move (.Hear peer policy rtr
        (back.map .Withdraw ++ raws.map .Announce) refreshed reported)).loc_rib.candidate p peer) ↔
      (p ∈ back ∨ Decides policy rtr raws p)
        ∨ FromUpdate policy rtr carried p (t.loc_rib.candidate p peer) := by
  rcases t.candidate_hear_cases peer back raws refreshed reported p with
    ⟨raw, hraw, hn, ⟨hb, hc⟩ | ⟨-, r, heval, hc⟩⟩ | ⟨hnone, hc⟩
  · refine iff_of_true (fun r hr => ?_) (.inl (.inr ⟨raw, hraw, hn, .inl hb⟩))
    cases hc.symm.trans hr
  · refine iff_of_true (fun r' hr => ?_) (.inl (.inr ⟨raw, hraw, hn, .inr (by rw [heval])⟩))
    cases hc.symm.trans hr
    exact ⟨raw, hsub hraw, hn, heval⟩
  · rw [or_iff_left hnone, hc]
    split
    · next hback => exact iff_of_true (fun r hr => by cases hr) (.inl hback)
    · next hback => exact (or_iff_right hback).symm

end

/-! ## The withdrawals of a message -/

namespace DaemonState

variable {msg : UpdateMessage} {peer_ip ip : IpAddr} {s : DaemonState}

/-- What the message withdraws and does not announce is in neither table of the peer. -/
def WithdrawnGone (s : DaemonState) (peer_ip : IpAddr) (msg : UpdateMessage) : Prop :=
  (∀ p ∈ msg.withdrawn ++ msg.unreached_v4, p ∉ msg.announced ++ msg.reached_v4 →
      (∀ ari ∈ s.adj_ribs_in.lookup peer_ip, ari.get p = none)
        ∧ s.rib.loc_rib.candidate p peer_ip = none) ∧
    ∀ p ∈ msg.unreached_v6, p ∉ msg.reached_v6 →
      (∀ ari ∈ s.adj_ribs_in_v6.lookup peer_ip, ari.get p = none)
        ∧ s.rib.loc_rib_v6.candidate p peer_ip = none
deriving Decidable

/-- The message has been through this route reflector before. -/
def ReflectionLoop (s : DaemonState) (peer_ip : IpAddr) (msg : UpdateMessage) : Prop :=
  s.Reflected peer_ip ∧ rr_loop s.rib.cluster_id s.rib.local_bgp_id msg.attributes = true

theorem rr_inbound_eq_none_iff (s : DaemonState) (ip : IpAddr) (msg : UpdateMessage) :
    s.rr_inbound ip msg = none ↔ s.ReflectionLoop ip msg := by
  unfold rr_inbound ReflectionLoop Reflected
  by_cases hr : s.is_rr = true ∧ s.peer_type ip = .Internal
  · have hcond : (s.is_rr && s.peer_type ip == .Internal) = true := by
      rw [hr.1, hr.2]
      rfl
    rw [if_pos hcond]
    split
    · rename_i hl
      exact iff_of_true rfl ⟨hr, hl⟩
    · rename_i hl
      exact iff_of_false (fun h => by cases h) fun h => hl h.2
  · have hcond : ¬(s.is_rr && s.peer_type ip == .Internal) = true := by
      intro h
      rw [Bool.and_eq_true, beq_iff_eq] at h
      exact hr h
    rw [if_neg hcond]
    exact iff_of_false (fun h => by cases h) fun h => hr h.1

/-- The IPv4 prefixes a message takes back. -/
def back_v4 (s : DaemonState) (clk : Clock) (peer_ip : IpAddr) (msg : UpdateMessage) :
    List (Nlri Ipv4Addr) :=
  msg.withdrawn ++ treated_v4 (s.env_of clk peer_ip) msg (s.attrs_of peer_ip msg)
    ++ msg.unreached_v4

def back_v6 (s : DaemonState) (clk : Clock) (peer_ip : IpAddr) (msg : UpdateMessage) :
    List (Nlri Ipv6Addr) :=
  treated_v6 (s.env_of clk peer_ip) msg (s.attrs_of peer_ip msg) ++ msg.unreached_v6

/-- The IPv4 routes of a message that are left to the policy. -/
def judged_v4 (s : DaemonState) (clk : Clock) (peer_ip : IpAddr) (msg : UpdateMessage) :
    List (Route Ipv4Addr) :=
  let env := s.env_of clk peer_ip
  let a := s.attrs_of peer_ip msg
  if well_formed env msg a then routes_v4 env a msg.announced a.mp_v4_announced else []

def judged_v6 (s : DaemonState) (clk : Clock) (peer_ip : IpAddr) (msg : UpdateMessage) :
    List (Route Ipv6Addr) :=
  let env := s.env_of clk peer_ip
  let a := s.attrs_of peer_ip msg
  if well_formed env msg a then usable_v6 env a else []

/-- What a reflector adds to a message changes nothing of its prefixes. -/
theorem intake_of_rr_inbound {msg' : UpdateMessage} (clk : Clock)
    (hin : s.rr_inbound ip msg = some msg') :
    intake_v4 (s.env_of clk ip) msg'
        = (s.back_v4 clk ip msg).map .Withdraw ++ (s.judged_v4 clk ip msg).map .Announce ∧
      intake_v6 (s.env_of clk ip) msg'
        = (s.back_v6 clk ip msg).map .Withdraw ++ (s.judged_v6 clk ip msg).map .Announce := by
  have hsame := samePrefixes_rr_inbound hin
  simp [intake_v4, intake_v6, back_v4, back_v6, judged_v4, judged_v6, treated_v4, treated_v6,
    well_formed, attrs_of_eq clk hin, hsame.announced, hsame.withdrawn, hsame.reached_v4,
    hsame.reached_v6, hsame.unreached_v4, hsame.unreached_v6]

/-- What is left to the policy is announced in the message. -/
theorem nlri_judged (clk : Clock) (himp : s.Imports ip msg) :
    (∀ raw ∈ s.judged_v4 clk ip msg, raw.nlri ∈ msg.announced ++ msg.reached_v4) ∧
      ∀ raw ∈ s.judged_v6 clk ip msg, raw.nlri ∈ msg.reached_v6 := by
  obtain ⟨msg', hin⟩ := Option.isSome_iff_exists.1 himp.2
  have hsame := samePrefixes_rr_inbound hin
  obtain ⟨h4, h6⟩ := intake_of_rr_inbound clk hin
  rw [← hsame.announced, ← hsame.reached_v4, ← hsame.reached_v6]
  constructor
  · intro raw hraw
    have hmem : .Announce raw ∈ intake_v4 (s.env_of clk ip) msg' := by
      rw [h4]
      exact List.mem_append_right _ (List.mem_map_of_mem hraw)
    exact (raw_of_intake_v4 hmem).1
  · intro raw hraw
    have hmem : .Announce raw ∈ intake_v6 (s.env_of clk ip) msg' := by
      rw [h6]
      exact List.mem_append_right _ (List.mem_map_of_mem hraw)
    exact (raw_of_intake_v6 hmem).1

/-- A message that is no End-of-RIB marker: it is imported, or the tables stay as they are. -/
theorem tables_on_route_update (s : DaemonState) (clk : Clock) (ip : IpAddr)
    (heor : msg.is_eor_v4 = false ∧ msg.is_eor_v6 = false) :
    (s.Imports ip msg ∧ ∃ reported,
      (s.on_route_update clk ip msg).1.tables_v4 = s.tables_v4.move (.Hear ip
        (s.env_of clk ip).policy s.rpki_v4 ((s.back_v4 clk ip msg).map .Withdraw ++
          (s.judged_v4 clk ip msg).map .Announce) msg.announced reported) ∧
      (s.on_route_update clk ip msg).1.tables_v6 = s.tables_v6.move (.Hear ip
        (s.env_of clk ip).policy_v6 s.rpki_v6 ((s.back_v6 clk ip msg).map .Withdraw ++
          (s.judged_v6 clk ip msg).map .Announce) msg.reached_v6 reported)) ∨
    ¬s.Imports ip msg ∧ (s.on_route_update clk ip msg).1.tables_v4 = s.tables_v4 ∧
      (s.on_route_update clk ip msg).1.tables_v6 = s.tables_v6 := by
  obtain ⟨ht4, ht6⟩ := s.moved_on_route_update clk ip msg
  rw [ht4, ht6]
  unfold update_moves_v4 update_moves_v6 Imports
  rw [heor.1, heor.2]
  cases hin : s.rr_inbound ip msg with
  | none => exact .inr ⟨fun h => Bool.false_ne_true h.2, rfl, rfl⟩
  | some msg' =>
    have hsame := samePrefixes_rr_inbound hin
    obtain ⟨h4, h6⟩ := intake_of_rr_inbound clk hin
    rw [← h4, ← h6, ← hsame.announced, ← hsame.reached_v6]
    by_cases hc : s.Configured ip
    · exact .inl ⟨⟨hc, rfl⟩, _, congrArg s.tables_v4.moves (if_pos hc),
        congrArg s.tables_v6.moves (if_pos hc)⟩
    · exact .inr ⟨fun h => hc h.1, congrArg s.tables_v4.moves (if_neg hc),
        congrArg s.tables_v6.moves (if_neg hc)⟩

theorem withdrawnGone_of_eor (h : msg.is_eor_v4 = true ∨ msg.is_eor_v6 = true) (s : DaemonState)
    (ip : IpAddr) : s.WithdrawnGone ip msg := by
  obtain ⟨h4, h6⟩ := affected_of_eor h
  refine ⟨fun p hp => absurd ?_ (h4 ▸ List.not_mem_nil : p ∉ msg.affected), fun p hp =>
    absurd (affected_v6_of_unreached hp) (h6 ▸ List.not_mem_nil)⟩
  exact (List.mem_append.1 hp).elim affected_of_withdrawn affected_of_unreached

theorem withdrawnGone_on_route_update (clk : Clock) (hc : s.Configured ip)
    (hloop : ¬s.ReflectionLoop ip msg) : (s.on_route_update clk ip msg).1.WithdrawnGone ip msg := by
  by_cases heor : msg.is_eor_v4 = true ∨ msg.is_eor_v6 = true
  · exact withdrawnGone_of_eor heor _ _
  rw [not_or, Bool.not_eq_true, Bool.not_eq_true] at heor
  have himp : s.Imports ip msg := by
    refine ⟨hc, Option.isSome_iff_ne_none.2 fun h => ?_⟩
    exact hloop ((s.rr_inbound_eq_none_iff ip msg).1 h)
  obtain ⟨-, reported, ht4, ht6⟩ :=
    (s.tables_on_route_update clk ip heor).resolve_right fun h => h.1 himp
  obtain ⟨h4, h6⟩ := nlri_judged clk himp
  constructor
  · intro p hp hnot
    have hback : p ∈ s.back_v4 clk ip msg := by
      rw [List.mem_append] at hp
      simp only [back_v4, List.mem_append]
      tauto
    have hgone := s.tables_v4.gone_hear ip msg.announced reported (s.env_of clk ip).policy s.rpki_v4
      hback fun raw hraw heq => hnot (heq ▸ h4 raw hraw)
    dsimp only at hgone
    rw [← ht4] at hgone
    exact hgone
  · intro p hp hnot
    have hback : p ∈ s.back_v6 clk ip msg := List.mem_append_right _ hp
    have hgone := s.tables_v6.gone_hear ip msg.reached_v6 reported (s.env_of clk ip).policy_v6
      s.rpki_v6 hback fun raw hraw heq => hnot (heq ▸ h6 raw hraw)
    dsimp only at hgone
    rw [← ht6] at hgone
    exact hgone

/-- **The withdrawals of a message, exactly.** They leave the tables of a configured peer
whatever becomes of the announcements, unless the message loops through this reflector; then
they must have been gone already. -/
theorem withdrawnGone_iff (s : DaemonState) (clk : Clock) (peer_ip : IpAddr)
    (msg : UpdateMessage) (hc : s.Configured peer_ip) :
    (s.on_route_update clk peer_ip msg).1.WithdrawnGone peer_ip msg ↔
      ¬s.ReflectionLoop peer_ip msg ∨ s.WithdrawnGone peer_ip msg := by
  by_cases hloop : s.ReflectionLoop peer_ip msg
  · rw [or_iff_right (not_not.2 hloop)]
    by_cases heor : msg.is_eor_v4 = true ∨ msg.is_eor_v6 = true
    · exact iff_of_true (withdrawnGone_of_eor heor _ _) (withdrawnGone_of_eor heor _ _)
    · -- the message is dropped, and nothing changes
      rw [not_or] at heor
      unfold on_route_update
      rw [if_neg heor.1, if_neg heor.2, (s.rr_inbound_eq_none_iff peer_ip msg).2 hloop]
  · exact iff_of_true (withdrawnGone_on_route_update clk hc hloop) (.inl hloop)

end DaemonState

/-- 10.0.0.2 has announced 10.0.0.0/8 over an iBGP session, as a client of the reflector
or as an ordinary peer. -/
def after_announcement (is_rr_client : Bool) : DaemonState :=
  (small_daemon [{ open_peer 2 65001 with is_rr_client := is_rr_client }] none []).run
    [session_up 2 .Internal [],
      update_from 2 0 (announcement [65009] [Nlri.v4 10 0 0 0 8])]

/-- 10.0.0.0/8 is withdrawn, and 172.16.0.0/12 comes with a path that has been through the
cluster. -/
def mixed_update (cluster : UInt32) : UpdateMessage :=
  ⟨[Nlri.v4 10 0 0 0 8],
    [.Origin .Igp, .AsPath (AsPath.from_sequence [65009]), .NextHop (Ipv4Addr.new 192 0 2 1),
      .LocalPref 100, .ClusterList [cluster]],
    [Nlri.v4 172 16 0 0 12]⟩

/-- Another cluster than ours: the withdrawal is heard. -/
theorem mixed_update_heard :
    ((after_announcement true).on_route_update ⟨0, 0⟩ (peer_addr 2)
      (mixed_update 7)).1.WithdrawnGone (peer_addr 2) (mixed_update 7) :=
  (DaemonState.withdrawnGone_iff (after_announcement true) ⟨0, 0⟩ (peer_addr 2) (mixed_update 7)
    (by decide +kernel)).2 (.inl fun h => absurd h.2 (by decide +kernel))

/-- Our own cluster: the withdrawal is dropped with the announcement. -/
theorem mixed_update_dropped :
    (after_announcement true).Reachable ∧ (after_announcement true).Configured (peer_addr 2) ∧
      ¬((after_announcement true).on_route_update ⟨0, 0⟩ (peer_addr 2)
        (mixed_update 0x0A000001)).1.WithdrawnGone (peer_addr 2) (mixed_update 0x0A000001) :=
  ⟨reachable_small_daemon .., by decide +kernel, by decide +kernel⟩

/-! ## Messages that only withdraw -/

/-- Withdrawn routes, prefixes in MP_UNREACH_NLRI, or both, and nothing else. -/
def UpdateMessage.PureWithdrawal (msg : UpdateMessage) : Prop :=
  msg.announced = [] ∧ (∀ a ∈ msg.attributes, ∃ mp, a = .MpUnreachNlri mp) ∧
    (msg.withdrawn ≠ [] ∨ ∃ mp, .MpUnreachNlri mp ∈ msg.attributes ∧ mp.prefixes ≠ [])

namespace UpdateMessage.PureWithdrawal

variable {msg : UpdateMessage}

theorem not_eor (h : msg.PureWithdrawal) : msg.is_eor_v4 = false ∧ msg.is_eor_v6 = false := by
  rw [← Bool.not_eq_true, ← Bool.not_eq_true, ← not_or]
  intro heor
  obtain ⟨hw, -, hattrs⟩ := names_of_eor heor
  rcases h.2.2 with hne | ⟨mp, hmem, hne⟩
  · exact hne hw
  · cases hattrs _ hmem
    exact hne rfl

theorem nothing_announced (h : msg.PureWithdrawal) : msg.NothingAnnounced := by
  refine ⟨h.1, List.flatMap_eq_nil_iff.2 ?_, List.flatMap_eq_nil_iff.2 ?_⟩ <;>
  · intro a ha
    obtain ⟨mp, rfl⟩ := h.2.1 a ha
    rfl

end UpdateMessage.PureWithdrawal

namespace DaemonState

/-- The peer's tables are within its prefix limits. -/
def WithinLimits (s : DaemonState) (peer_ip : IpAddr) : Prop :=
  (∀ lim ∈ s.peer_max_prefixes_v4.lookup peer_ip,
      ((s.adj_ribs_in.lookup peer_ip).getD (AdjRibIn.new peer_ip)).len ≤ lim) ∧
    ∀ lim ∈ s.peer_max_prefixes_v6.lookup peer_ip,
      ((s.adj_ribs_in_v6.lookup peer_ip).getD (AdjRibIn.new peer_ip)).len ≤ lim
deriving Decidable

/-- What the message withdraws is in neither table of the peer. -/
def Gone (s : DaemonState) (peer_ip : IpAddr) (msg : UpdateMessage) : Prop :=
  (∀ p ∈ msg.withdrawn ++ msg.unreached_v4,
      (∀ ari ∈ s.adj_ribs_in.lookup peer_ip, ari.get p = none)
        ∧ s.rib.loc_rib.candidate p peer_ip = none) ∧
    ∀ p ∈ msg.unreached_v6,
      (∀ ari ∈ s.adj_ribs_in_v6.lookup peer_ip, ari.get p = none)
        ∧ s.rib.loc_rib_v6.candidate p peer_ip = none

end DaemonState

/-- The NOTIFICATION for a message without announcements and without AS_PATH. -/
theorem notification_of_nothing (env : ImportEnv) (msg : UpdateMessage)
    (v4 : ImportState Ipv4Addr) (v6 : ImportState Ipv6Addr)
    (hreach : has_reachable_nlri_on_wire msg = false) (hpath : ∀ p, .AsPath p ∉ msg.attributes) :
    (handle_update env msg v4 v6).notification =
      if has_non_unreach_attr msg then
        (missing_path_attr (UpdateAttrs.collect env.peer_type msg.attributes)).map fun t =>
          ⟨.UpdateMessage .MissingWellKnownAttribute, [t]⟩
      else none := by
  obtain ⟨ha, h4, h6⟩ := nothingAnnounced_of_unreachable hreach
  rw [← UpdateAttrs.collect_reached_v4 env.peer_type, List.map_eq_nil_iff] at h4
  rw [← UpdateAttrs.collect_reached_v6 env.peer_type, List.map_eq_nil_iff] at h6
  have hp := UpdateAttrs.collect_has_as_path env.peer_type msg.attributes hpath
  simp only [handle_update, import_routes, check_update, check_confed, hp, Bool.false_and,
    Bool.false_eq_true, if_false, drop_looped, check_mandatory, PendingUpdate.any_announced,
    start_update, ha, h4, h6, hreach, List.isEmpty_nil, Bool.not_true, Bool.or_self]
  split
  · split
    · rename_i t heq
      simp [heq]
    · rename_i heq
      simp [heq]
  · simp

theorem prepend_cluster_of_not_mem (c : UInt32) {l : List PathAttribute}
    (h : ∀ list, .ClusterList list ∉ l) : prepend_cluster c l = l ++ [.ClusterList [c]] := by
  fun_induction prepend_cluster c l with
  | case1 => rfl
  | case2 list rest => exact absurd List.mem_cons_self (h list)
  | case3 x rest hx ih =>
    rw [ih fun list hmem => h list (List.mem_cons_of_mem _ hmem), List.cons_append]

namespace DaemonState

variable {s : DaemonState} {peer_ip ip : IpAddr} {msg : UpdateMessage}

theorem rr_inbound_of_pure (h : s.Reflected ip) (hw : msg.PureWithdrawal) :
    ∃ id c, s.rr_inbound ip msg = some { msg with
      attributes := msg.attributes ++ [.OriginatorId id, .ClusterList [c]] } := by
  have hloop : rr_loop s.rib.cluster_id s.rib.local_bgp_id msg.attributes = false := by
    rw [rr_loop, List.any_eq_false]
    intro a ha
    obtain ⟨mp, rfl⟩ := hw.2.1 a ha
    simp
  have horig : has_originator msg.attributes = false := by
    rw [has_originator, List.any_eq_false]
    intro a ha
    obtain ⟨mp, rfl⟩ := hw.2.1 a ha
    simp
  have hrefl : (s.is_rr && s.peer_type ip == .Internal) = true := by
    rw [Bool.and_eq_true, beq_iff_eq]
    exact h
  rw [rr_inbound, if_pos hrefl, hloop, if_neg Bool.false_ne_true, horig]
  dsimp only
  rw [if_neg Bool.false_ne_true, prepend_cluster_of_not_mem, List.append_assoc]
  · exact ⟨_, _, rfl⟩
  · intro list hmem
    rcases List.mem_append.1 hmem with hmem | hmem
    · obtain ⟨mp, hmp⟩ := hw.2.1 _ hmem
      cases hmp
    · cases List.mem_singleton.1 hmem

/-- Withdrawals call for no NOTIFICATION, unless a reflector has added its attributes: then the
mandatory ones are missing. -/
theorem notification_of_pure (env : ImportEnv) (v4 : ImportState Ipv4Addr)
    (v6 : ImportState Ipv6Addr) (hw : msg.PureWithdrawal) (added : List PathAttribute)
    (hadded : ∀ a ∈ added, (∃ id, a = .OriginatorId id) ∨ ∃ list, a = .ClusterList list) :
    (handle_update env { msg with attributes := msg.attributes ++ added } v4 v6).notification
      = if added = [] then none
        else some ⟨.UpdateMessage .MissingWellKnownAttribute, [1]⟩ := by
  have hattrs : ∀ a ∈ msg.attributes ++ added, (∃ mp, a = .MpUnreachNlri mp) ∨
      (∃ id, a = .OriginatorId id) ∨ ∃ list, a = .ClusterList list :=
    fun a ha => (List.mem_append.1 ha).imp (hw.2.1 a) (hadded a)
  have hreach : has_reachable_nlri_on_wire { msg with attributes := msg.attributes ++ added }
      = false := by
    rw [has_reachable_nlri_on_wire, hw.1, List.isEmpty_nil, Bool.not_true, Bool.false_or,
      List.any_eq_false]
    intro a hmem
    obtain ⟨mp, rfl⟩ | ⟨id, rfl⟩ | ⟨list, rfl⟩ := hattrs a hmem <;> simp
  have hpath : ∀ p, .AsPath p ∉ msg.attributes ++ added := by
    intro p hmem
    obtain ⟨mp, h⟩ | ⟨id, h⟩ | ⟨list, h⟩ := hattrs _ hmem <;> cases h
  have horigin : ∀ o, .Origin o ∉ msg.attributes ++ added := by
    intro o hmem
    obtain ⟨mp, h⟩ | ⟨id, h⟩ | ⟨list, h⟩ := hattrs _ hmem <;> cases h
  rw [notification_of_nothing env _ v4 v6 hreach hpath]
  by_cases hnil : added = []
  · have hnon : has_non_unreach_attr { msg with attributes := msg.attributes ++ added }
        = false := by
      rw [has_non_unreach_attr, List.any_eq_false, hnil, List.append_nil]
      intro a hmem
      obtain ⟨mp, rfl⟩ := hw.2.1 a hmem
      simp
    rw [hnon, if_neg Bool.false_ne_true, if_pos hnil]
  · obtain ⟨a, ha⟩ := List.exists_mem_of_ne_nil added hnil
    have hnon : has_non_unreach_attr { msg with attributes := msg.attributes ++ added } = true := by
      refine List.any_eq_true.2 ⟨a, List.mem_append_right _ ha, ?_⟩
      obtain ⟨id, rfl⟩ | ⟨list, rfl⟩ := hadded a ha <;> rfl
    rw [hnon, if_pos rfl, if_neg hnil, missing_path_attr,
      UpdateAttrs.collect_has_origin env.peer_type _ horigin]
    rfl

theorem len_withdraw_fold_le {A : Type} [IpAddress A] [DecidableEq A] (nlris : List (Nlri A))
    (ari : AdjRibIn A) : (nlris.foldl AdjRibIn.withdraw ari).len ≤ ari.len := by
  refine List.foldl_invariant AdjRibIn.withdraw (·.len ≤ ari.len) nlris ari (le_refl _) ?_
  intro a n _ ha
  refine le_trans ?_ ha
  show (a.routes.erase n).keys.length ≤ a.routes.keys.length
  rw [AList.keys_erase]
  exact List.length_erase_le

theorem not_overflows_of_nothing (h : msg.NothingAnnounced) (hlim : s.WithinLimits ip)
    (clk : Clock) : s.overflows clk ip msg = false := by
  unfold overflows
  dsimp only
  rw [(intake_of_nothing _ h).1, (intake_of_nothing _ h).2, List.foldl_map, List.foldl_map,
    Bool.or_eq_false_iff, Option.any_eq_false, Option.any_eq_false]
  constructor
  · intro lim hl
    exact decide_eq_false (not_lt.2 ((len_withdraw_fold_le _ _).trans (hlim.1 lim hl)))
  · intro lim hl
    exact decide_eq_false (not_lt.2 ((len_withdraw_fold_le _ _).trans (hlim.2 lim hl)))

/-- **Pure withdrawals, exactly.** A message that only withdraws leaves the session up and
the prefixes gone if and only if its sender is configured and its messages do not go
through the reflector's inbound processing. A peer that is not configured is not listened
to, so there the prefixes have to be gone already. -/
theorem pure_withdrawal_iff (s : DaemonState) (clk : Clock) (peer_ip : IpAddr)
    (msg : UpdateMessage) (hw : msg.PureWithdrawal) (hlim : s.WithinLimits peer_ip) :
    ((s.on_route_update clk peer_ip msg).2 = none
        ∧ (s.on_route_update clk peer_ip msg).1.Gone peer_ip msg) ↔
      (s.Configured peer_ip ∧ ¬s.Reflected peer_ip)
        ∨ (¬s.Configured peer_ip ∧ s.Gone peer_ip msg) := by
  have hgone : s.Configured peer_ip → ¬s.ReflectionLoop peer_ip msg →
      (s.on_route_update clk peer_ip msg).1.WithdrawnGone peer_ip msg :=
    withdrawnGone_on_route_update clk
  rw [on_route_update, hw.not_eor.1, hw.not_eor.2, if_neg Bool.false_ne_true,
    if_neg Bool.false_ne_true] at hgone ⊢
  by_cases hc : s.Configured peer_ip
  · simp only [hc, true_and, not_true, false_and, or_false]
    by_cases hr : s.Reflected peer_ip
    · -- the added attributes make the mandatory ones missing
      obtain ⟨id, c, hin⟩ := rr_inbound_of_pure hr hw
      rw [hin]
      refine iff_of_false ?_ (not_not.2 hr)
      rintro ⟨hnot, -⟩
      simp only [on_update_message, handled_of_configured hc] at hnot
      split at hnot
      · cases hnot
      · unfold update_of at hnot
        rw [notification_of_pure _ _ _ hw _ (by simp), if_neg (by simp)] at hnot
        cases hnot
    · have hnothing := hw.nothing_announced
      have hlim' : (s.imported peer_ip msg (s.update_of clk peer_ip msg)).exceeds_limit peer_ip
          (s.update_of clk peer_ip msg) = false :=
        (s.exceeds_limit_update_of clk peer_ip msg).trans
          (not_overflows_of_nothing hnothing hlim clk)
      have hnone : (s.update_of clk peer_ip msg).notification = none := by
        have h := fun v4 v6 => notification_of_pure (s.env_of clk peer_ip) v4 v6 hw []
          fun _ h => absurd h List.not_mem_nil
        simp only [List.append_nil] at h
        exact h _ _
      obtain ⟨h4, h6⟩ := hgone hc fun h => hr h.1
      rw [rr_inbound_of_not_reflected hr] at h4 h6 ⊢
      refine iff_of_true ⟨?_, fun p hp => h4 p hp ?_, fun p hp => h6 p hp ?_⟩ hr
      · simp only [on_update_message, handled_of_configured hc, hlim', Bool.false_eq_true, if_false]
        exact hnone
      · rw [hnothing.1, hnothing.2.1]
        exact List.not_mem_nil
      · rw [hnothing.2.2]
        exact List.not_mem_nil
  · simp only [hc, false_and, not_false_eq_true, true_and, false_or]
    have hnone : ∀ m, s.on_update_message clk peer_ip m = (s, none) := by
      intro m
      rw [on_update_message, handled_of_not_configured hc]
    cases hin : s.rr_inbound peer_ip msg with
    | none => simp
    | some m => simp [hnone m]

end DaemonState

/-- 10.0.0.0/8 is withdrawn. -/
def withdrawal : UpdateMessage := ⟨[Nlri.v4 10 0 0 0 8], [], []⟩

theorem withdrawal_pure : withdrawal.PureWithdrawal :=
  ⟨rfl, by simp [withdrawal], .inl (by simp [withdrawal])⟩

theorem pure_withdrawal_plain :
    ((after_announcement false).on_route_update ⟨0, 0⟩ (peer_addr 2) withdrawal).2 = none
      ∧ ((after_announcement false).on_route_update ⟨0, 0⟩ (peer_addr 2) withdrawal).1.Gone
        (peer_addr 2) withdrawal :=
  (DaemonState.pure_withdrawal_iff (after_announcement false) ⟨0, 0⟩ (peer_addr 2) withdrawal
    withdrawal_pure (by decide +kernel)).2
    (.inl ⟨by decide +kernel, fun h => absurd h.1 (by decide +kernel)⟩)

/-- The same withdrawal, from a client of the reflector, resets the session. -/
theorem reflector_resets_on_withdrawal :
    (after_announcement true).Reachable ∧ peer_addr 2 ∈ (after_announcement true).rib.peer_types
      ∧ withdrawal.PureWithdrawal ∧ (after_announcement true).WithinLimits (peer_addr 2)
      ∧ ((after_announcement true).on_route_update ⟨0, 0⟩ (peer_addr 2) withdrawal).2
        = some ⟨.UpdateMessage .MissingWellKnownAttribute, [1]⟩ :=
  ⟨reachable_small_daemon .., by decide +kernel, withdrawal_pure, by decide +kernel,
    by decide +kernel⟩

/-! ## Implicit withdrawals -/

namespace DaemonState

section

variable (s : DaemonState) (clk : Clock) (peer_ip : IpAddr) (msg : UpdateMessage)

/-- The IPv4 routes a message carries. -/
def carried_v4 : List (Route Ipv4Addr) :=
  let a := s.attrs_of peer_ip msg
  (msg.announced.map (·, a.next_hop) ++ a.mp_v4_announced.map fun e => (e.1, some e.2)).map
    fun e => raw_route_v4 (s.env_of clk peer_ip) a e.1 e.2

def carried_v6 : List (Route Ipv6Addr) :=
  let a := s.attrs_of peer_ip msg
  a.mp_v6_announced.map fun e => raw_route_v6 (s.env_of clk peer_ip) a e.1 e.2

/-- The message has a say about the peer's candidate for an IPv4 prefix. -/
def Displaces_v4 (p : Nlri Ipv4Addr) : Prop :=
  let env := s.env_of clk peer_ip
  let a := s.attrs_of peer_ip msg
  s.Imports peer_ip msg ∧
    (treated_as_withdraw_v4 env msg.announced a p = true ∨
      Decides env.policy env.rpki_v4 (routes_v4 env a msg.announced a.mp_v4_announced) p)

def Displaces_v6 (p : Nlri Ipv6Addr) : Prop :=
  let env := s.env_of clk peer_ip
  let a := s.attrs_of peer_ip msg
  s.Imports peer_ip msg ∧
    (treated_as_withdraw_v6 env msg.announced a = true ∨
      Decides env.policy_v6 env.rpki_v6 (usable_v6 env a) p)

end

variable {s : DaemonState} {clk : Clock} {peer_ip ip : IpAddr} {msg msg' : UpdateMessage}

/-- A prefix that the message announces and does not withdraw is taken back for an error, or its
routes decide. -/
theorem displaces_v4_iff (himp : s.Imports ip msg) {p : Nlri Ipv4Addr}
    (hp : p ∈ msg.announced ++ msg.reached_v4) (hw : p ∉ msg.withdrawn ++ msg.unreached_v4) :
    p ∈ s.back_v4 clk ip msg ∨
        Decides (s.env_of clk ip).policy s.rpki_v4 (s.judged_v4 clk ip msg) p ↔
      s.Displaces_v4 clk ip msg p := by
  rw [List.mem_append, not_or] at hw
  unfold Displaces_v4 back_v4 judged_v4 treated_as_withdraw_v4 treated_v4 well_formed
  generalize s.attrs_of ip msg = a
  change _ ∨ Decides (s.env_of clk ip).policy (s.env_of clk ip).rpki_v4 _ p ↔ _
  generalize s.env_of clk ip = env
  cases hm : mandatory_missing msg.announced a <;> cases hc : confed_error env a <;>
  cases hl : looped env a <;> simp_all [routes_v4_of_looped, Decides]

theorem displaces_v6_iff (himp : s.Imports ip msg) {p : Nlri Ipv6Addr}
    (hp : p ∈ msg.reached_v6) (hw : p ∉ msg.unreached_v6) :
    p ∈ s.back_v6 clk ip msg ∨
        Decides (s.env_of clk ip).policy_v6 s.rpki_v6 (s.judged_v6 clk ip msg) p ↔
      s.Displaces_v6 clk ip msg p := by
  unfold Displaces_v6 back_v6 judged_v6 treated_as_withdraw_v6 treated_v6 well_formed usable_v6
  generalize s.attrs_of ip msg = a
  change _ ∨ Decides (s.env_of clk ip).policy_v6 (s.env_of clk ip).rpki_v6 _ p ↔ _
  generalize s.env_of clk ip = env
  cases hm : mandatory_missing msg.announced a <;> cases hc : confed_error env a <;>
  cases hl : looped env a <;> simp_all [Decides]

theorem mem_map_of_usable {α β : Type} {none_usable : Bool} {l : List α} {skip : α → Bool}
    {f : α → β} {x : β}
    (h : x ∈ if none_usable then [] else l.filterMap fun e => if skip e then none else some (f e)) :
    x ∈ l.map f := by
  split at h
  · cases h
  · obtain ⟨e, he, hx⟩ := List.mem_filterMap.1 h
    split at hx
    · cases hx
    · exact List.mem_map.2 ⟨e, he, Option.some.inj hx⟩

theorem judged_carried (s : DaemonState) (clk : Clock) (ip : IpAddr) (msg : UpdateMessage) :
    s.judged_v4 clk ip msg ⊆ s.carried_v4 clk ip msg ∧
      s.judged_v6 clk ip msg ⊆ s.carried_v6 clk ip msg := by
  unfold judged_v4 judged_v6
  dsimp only
  split
  · exact ⟨fun _ hmem => mem_map_of_usable hmem, fun _ hmem => mem_map_of_usable hmem⟩
  · exact ⟨List.nil_subset _, List.nil_subset _⟩

/-- **Implicit withdrawal, exactly.** After an UPDATE that calls for no NOTIFICATION, the
sender's candidate for a prefix it announced and did not withdraw is a route of this
UPDATE, or absent, if and only if the message had a say about it or the candidate was that
before. -/
theorem implicit_withdraw_iff (s : DaemonState) (clk : Clock) (peer_ip : IpAddr)
    (msg : UpdateMessage) (_hn : (s.on_route_update clk peer_ip msg).2 = none) :
    (∀ p ∈ msg.announced ++ msg.reached_v4, p ∉ msg.withdrawn ++ msg.unreached_v4 →
      (FromUpdate (s.env_of clk peer_ip).policy s.rpki_v4 (s.carried_v4 clk peer_ip msg) p
          ((s.on_route_update clk peer_ip msg).1.rib.loc_rib.candidate p peer_ip) ↔
        s.Displaces_v4 clk peer_ip msg p ∨
          FromUpdate (s.env_of clk peer_ip).policy s.rpki_v4 (s.carried_v4 clk peer_ip msg) p
            (s.rib.loc_rib.candidate p peer_ip))) ∧
    (∀ p ∈ msg.reached_v6, p ∉ msg.unreached_v6 →
      (FromUpdate (s.env_of clk peer_ip).policy_v6 s.rpki_v6 (s.carried_v6 clk peer_ip msg) p
          ((s.on_route_update clk peer_ip msg).1.rib.loc_rib_v6.candidate p peer_ip) ↔
        s.Displaces_v6 clk peer_ip msg p ∨
          FromUpdate (s.env_of clk peer_ip).policy_v6 s.rpki_v6 (s.carried_v6 clk peer_ip msg) p
            (s.rib.loc_rib_v6.candidate p peer_ip))) := by
  obtain ⟨hsub4, hsub6⟩ := s.judged_carried clk peer_ip msg
  constructor
  · intro p hp hw
    have hmem := (List.mem_append.1 hp).elim affected_of_announced affected_of_reached
    rcases s.tables_on_route_update clk peer_ip (not_eor_of_affected (.inl ⟨p, hmem⟩)) with
      ⟨himp, reported, ht, -⟩ | ⟨himp, ht, -⟩
    · have hrib : (s.on_route_update clk peer_ip msg).1.rib.loc_rib = _ :=
        congrArg Tables.loc_rib ht
      -- imported: the last of its routes that has a say decides, or none has
      rw [hrib, ← displaces_v4_iff himp hp hw]
      exact s.tables_v4.fromUpdate_hear_iff peer_ip _ _ _ _ hsub4 p
    · have hrib : (s.on_route_update clk peer_ip msg).1.rib.loc_rib = _ :=
        congrArg Tables.loc_rib ht
      rw [hrib]
      exact (or_iff_right fun h => himp h.1).symm
  · intro p hp hw
    have hmem := affected_v6_of_reached hp
    rcases s.tables_on_route_update clk peer_ip (not_eor_of_affected (.inr ⟨p, hmem⟩)) with
      ⟨himp, reported, -, ht⟩ | ⟨himp, -, ht⟩
    · have hrib : (s.on_route_update clk peer_ip msg).1.rib.loc_rib_v6 = _ :=
        congrArg Tables.loc_rib ht
      rw [hrib, ← displaces_v6_iff himp hp hw]
      exact s.tables_v6.fromUpdate_hear_iff peer_ip _ _ _ _ hsub6 p
    · have hrib : (s.on_route_update clk peer_ip msg).1.rib.loc_rib_v6 = _ :=
        congrArg Tables.loc_rib ht
      rw [hrib]
      exact (or_iff_right fun h => himp h.1).symm

end DaemonState

/-- 10.0.0.2, an external peer, has announced 10.0.0.0/8 with the path 65002. -/
def after_first_path : DaemonState :=
  (small_daemon [open_peer 2 65002] none []).run
    [session_up 2 .External [],
      update_from 2 0 (announcement [65002] [Nlri.v4 10 0 0 0 8])]

theorem implicit_withdraw_replaced :
    FromUpdate (after_first_path.env_of ⟨0, 0⟩ (peer_addr 2)).policy after_first_path.rpki_v4
      (after_first_path.carried_v4 ⟨0, 0⟩ (peer_addr 2)
        (announcement [65002, 65003] [Nlri.v4 10 0 0 0 8])) (Nlri.v4 10 0 0 0 8)
      ((after_first_path.on_route_update ⟨0, 0⟩ (peer_addr 2)
        (announcement [65002, 65003] [Nlri.v4 10 0 0 0 8])).1.rib.loc_rib.candidate
          (Nlri.v4 10 0 0 0 8) (peer_addr 2)) :=
  ((DaemonState.implicit_withdraw_iff after_first_path ⟨0, 0⟩ (peer_addr 2)
    (announcement [65002, 65003] [Nlri.v4 10 0 0 0 8]) (by decide +kernel)).1
    (Nlri.v4 10 0 0 0 8) (by decide +kernel) (by decide +kernel)).2
    (.inl ⟨⟨by decide +kernel, by decide +kernel⟩, .inr (by decide +kernel)⟩)

/-- The second path has our own AS in it. It is refused, and the first one stays. -/
theorem looped_path_keeps_candidate :
    after_first_path.Reachable ∧
      (after_first_path.on_route_update ⟨0, 0⟩ (peer_addr 2)
        (announcement [65002, 65001] [Nlri.v4 10 0 0 0 8])).2 = none ∧
      ¬FromUpdate (after_first_path.env_of ⟨0, 0⟩ (peer_addr 2)).policy after_first_path.rpki_v4
        (after_first_path.carried_v4 ⟨0, 0⟩ (peer_addr 2)
          (announcement [65002, 65001] [Nlri.v4 10 0 0 0 8])) (Nlri.v4 10 0 0 0 8)
        ((after_first_path.on_route_update ⟨0, 0⟩ (peer_addr 2)
          (announcement [65002, 65001] [Nlri.v4 10 0 0 0 8])).1.rib.loc_rib.candidate
            (Nlri.v4 10 0 0 0 8) (peer_addr 2)) := by
  refine ⟨reachable_small_daemon .., by decide +kernel, ?_⟩
  -- the candidate has the old path, and every carried route the new one
  have hold : ((after_first_path.on_route_update ⟨0, 0⟩ (peer_addr 2)
      (announcement [65002, 65001] [Nlri.v4 10 0 0 0 8])).1.rib.loc_rib.candidate
        (Nlri.v4 10 0 0 0 8) (peer_addr 2)).map Route.as_path
        = some (AsPath.from_sequence [65002]) := by decide +kernel
  have hnew : ∀ raw ∈ after_first_path.carried_v4 ⟨0, 0⟩ (peer_addr 2)
      (announcement [65002, 65001] [Nlri.v4 10 0 0 0 8]),
      ((after_first_path.env_of ⟨0, 0⟩ (peer_addr 2)).policy.evaluate after_first_path.rpki_v4
        raw).2.as_path ≠ AsPath.from_sequence [65002] := by decide +kernel
  intro h
  obtain ⟨r, hr, hpath⟩ := Option.map_eq_some_iff.1 hold
  obtain ⟨raw, hmem, -, heval⟩ := h r hr
  apply hnew raw hmem
  rw [heval]
  exact hpath

end Pathvector
