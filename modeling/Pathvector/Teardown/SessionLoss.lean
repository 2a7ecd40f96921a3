/-
# The loss of a session

When a session is gone for good (`on_terminated` without helper mode, or a restart window
that ran out), the peer's routes leave the Loc-RIB and the other peers have to hear about
it. Both functions first rewrite the tables and then run the direct loops.

The first half is the same for every peer that stays (`Kept`): what it is sent is decided as
before, from a Loc-RIB whose best routes are `best_without` the lost peer. The second half
decides the prefixes that had a best route before, for IPv4 in both functions and for IPv6
in one of them only.
-/
import Pathvector.Daemon.Standing
import Pathvector.Outbound.Views

set_option autoImplicit false

namespace Pathvector

namespace DaemonState

variable (s t : DaemonState) (peer_ip ip : IpAddr) (nlris : List (Nlri Ipv4Addr))
  {q : IpAddr}

/-! ## Frames of the direct loops -/

theorem direct_others_v6_out_v4 (nlris : List (Nlri Ipv6Addr)) :
    (s.direct_others_v6 ip nlris).adj_ribs_out = s.adj_ribs_out := by
  refine List.foldl_invariant _ (fun s' => s'.adj_ribs_out = s.adj_ribs_out) _ s rfl ?_
  intro s' q _ h
  unfold direct_v6
  split
  · split
    · exact h
    · exact h
  · exact h

theorem direct_line_v4_tx (local_next_hop : Ipv4Addr) (q : IpAddr)
    (l : Option (AdjRibOut Ipv4Addr) × Option UpdateSender) :
    (s.direct_line_v4 nlris local_next_hop q l).2.isSome = l.2.isSome := by
  unfold direct_line_v4
  split
  · rename_i hpol hout htx
    rw [htx]
    rfl
  · rfl

theorem direct_others_v4_senders (q : IpAddr) :
    q ∈ (s.direct_others_v4 ip nlris).update_senders ↔ q ∈ s.update_senders := by
  have hline := congrArg Prod.snd (s.line_direct_others_v4 ip nlris q)
  rw [← AList.lookup_isSome, ← AList.lookup_isSome,
    show (s.direct_others_v4 ip nlris).update_senders.lookup q = _ from hline]
  split
  · rw [direct_line_v4_tx]
    exact Iff.rfl
  · exact Iff.rfl

/-! ## What a peer that stays keeps -/

/-- Nothing changed for a peer besides the Loc-RIB. -/
structure Kept (s t : DaemonState) (q : IpAddr) : Prop where
  established : q ∈ t.rib.peer_types ↔ q ∈ s.rib.peer_types
  ipv6_capable : q ∈ t.ipv6_capable_peers ↔ q ∈ s.ipv6_capable_peers
  spoken_v4 : t.Spoken_v4 q ↔ s.Spoken_v4 q
  spoken_v6 : t.Spoken_v6 q ↔ s.Spoken_v6 q
  export_v4 : t.export_of_v4 q = s.export_of_v4 q
  export_v6 : t.export_of_v6 q = s.export_of_v6 q
  out_v4 : t.adj_out_v4 q = s.adj_out_v4 q
  out_v6 : t.adj_out_v6 q = s.adj_out_v6 q

theorem Kept.trans {s t u : DaemonState} (h : Kept s t q) (h' : Kept t u q) :
    Kept s u q where
  established := h'.established.trans h.established
  ipv6_capable := h'.ipv6_capable.trans h.ipv6_capable
  spoken_v4 := h'.spoken_v4.trans h.spoken_v4
  spoken_v6 := h'.spoken_v6.trans h.spoken_v6
  export_v4 := h'.export_v4.trans h.export_v4
  export_v6 := h'.export_v6.trans h.export_v6
  out_v4 := h'.out_v4.trans h.out_v4
  out_v6 := h'.out_v6.trans h.out_v6

theorem Kept.inSync {s t : DaemonState} (h : Kept s t q) (h4 : t.rib.loc_rib = s.rib.loc_rib)
    (h6 : t.rib.loc_rib_v6 = s.rib.loc_rib_v6) : t.InSync q ↔ s.InSync q := by
  unfold InSync DaemonState.export_v4 DaemonState.export_v6
  rw [h.out_v4, h.out_v6, h.export_v4, h.export_v6, h.ipv6_capable, h4, h6]

/-- What a peer is sent is decided by its own entries and a few settings of the daemon. -/
theorem Kept.of_entries {s t : DaemonState}
    (htype : t.rib.peer_types.lookup q = s.rib.peer_types.lookup q)
    (haddr : t.rib.local_addrs.lookup q = s.rib.local_addrs.lookup q)
    (hself : q ∈ t.rib.next_hop_self_peers ↔ q ∈ s.rib.next_hop_self_peers)
    (hcap : q ∈ t.ipv6_capable_peers ↔ q ∈ s.ipv6_capable_peers)
    (htx : q ∈ t.update_senders ↔ q ∈ s.update_senders)
    (hpol4 : t.export_policies.lookup q = s.export_policies.lookup q)
    (hpol6 : t.export_policies_v6.lookup q = s.export_policies_v6.lookup q)
    (hout4 : t.adj_ribs_out.lookup q = s.adj_ribs_out.lookup q)
    (hout6 : t.adj_ribs_out_v6.lookup q = s.adj_ribs_out_v6.lookup q)
    (hset :
      (t.rib.local_as, t.public_as, t.rib.local_bgp_id, t.rib.local_ipv6, t.rpki_v4, t.rpki_v6)
      = (s.rib.local_as, s.public_as, s.rib.local_bgp_id, s.rib.local_ipv6, s.rpki_v4, s.rpki_v6)) :
    Kept s t q := by
  have hmem : ∀ {V : Type} {m m' : HashMap IpAddr V}, m.lookup q = m'.lookup q →
      (q ∈ m ↔ q ∈ m') := fun h => by rw [← AList.lookup_isSome, h, AList.lookup_isSome]
  simp only [Prod.mk.injEq] at hset
  obtain ⟨has, hpub, hid, hip, hr4, hr6⟩ := hset
  refine ⟨hmem htype, hcap, and_congr (hmem htype) (and_congr (hmem hpol4) htx),
    and_congr (hmem htype) (and_congr hcap (and_congr (hmem hpol6) htx)), ?_, ?_, ?_, ?_⟩
  · unfold export_of_v4 prepare_v4 session_v4 peer_type local_next_hop
    simp only [htype, haddr, hself, hpol4, hout4, has, hpub, hid, hr4]
  · unfold export_of_v6 prepare_v6 can_announce_v6 session_v6 peer_type
    simp only [htype, hself, hpol6, hout6, has, hpub, hip, hr6]
  · unfold adj_out_v4
    rw [hout4]
  · unfold adj_out_v6
    rw [hout6]

theorem kept_close_session {ip : IpAddr} (hq : q ≠ ip) : Kept s (s.close_session ip) q := by
  have herase : ∀ {V : Type} (m : HashMap IpAddr V), (m.erase ip).lookup q = m.lookup q :=
    fun m => by rw [HashMap.lookup_erase_ite, if_neg hq]
  exact .of_entries (herase _) (herase _) Iff.rfl (AList.mem_erase.trans (and_iff_right hq)) Iff.rfl
    rfl rfl rfl rfl rfl

theorem kept_reset_adj_ribs_out {ip : IpAddr} (hq : q ≠ ip) :
    Kept s (s.reset_adj_ribs_out ip) q := by
  have hmodify : ∀ {V : Type} (m : HashMap IpAddr V) f, (m.modify ip f).lookup q = m.lookup q :=
    fun m f => by rw [HashMap.lookup_modify, if_neg hq]
  exact .of_entries rfl rfl Iff.rfl Iff.rfl Iff.rfl rfl rfl (hmodify _ _) (hmodify _ _) rfl

theorem kept_lose_routes {ip : IpAddr} (hq : q ≠ ip) : Kept s (s.lose_routes ip) q := by
  have htables : Kept s (((s.clear_adj_rib_in_v4 ip).clear_adj_rib_in_v6
      ip).rib_withdraw_peer ip) q :=
    ⟨Iff.rfl, Iff.rfl, Iff.rfl, Iff.rfl, rfl, rfl, rfl, rfl⟩
  exact htables.trans (kept_reset_adj_ribs_out _ hq)

theorem best_entry_lose_routes_v4 (n : Nlri Ipv4Addr) :
    (s.lose_routes ip).rib.loc_rib.best_entry n = s.rib.loc_rib.best_without ip s.oracle_v4 n :=
  LocRib.best_entry_withdraw_peer ..

theorem best_entry_lose_routes_v6 (n : Nlri Ipv6Addr) :
    (s.lose_routes ip).rib.loc_rib_v6.best_entry n
      = s.rib.loc_rib_v6.best_without ip s.oracle_v6 n :=
  LocRib.best_entry_withdraw_peer ..

/-! ## In sync after the direct loops -/

/-- After the IPv4 loop a peer is in sync if it was for the prefixes that were not decided. -/
theorem sync_direct_others_v4 {ip : IpAddr} (hq : q ≠ ip)
    (hd : t.selection_deferral.v4_deferred = false) (nlris : List (Nlri Ipv4Addr)) :
    (∀ n, (t.direct_others_v4 ip nlris).adj_out_v4 q n
        = (t.direct_others_v4 ip nlris).export_v4 q n) ↔
      ∀ n, ¬(t.Spoken_v4 q ∧ n ∈ nlris) → t.adj_out_v4 q n = t.export_v4 q n := by
  obtain ⟨hsess, hout⟩ := t.direct_others_v4_spec ip nlris q
  have hframe := t.direct_others_v4_frame ip nlris
  have hexp : ∀ n, (t.direct_others_v4 ip nlris).export_v4 q n = t.export_v4 q n := by
    intro n
    rw [export_v4, hframe.export_of_v4 hsess]
    obtain ⟨_, _, _, _, hf⟩ := hframe
    rw [hf]
    rfl
  refine forall_congr' fun n => ?_
  rw [hexp n, hout n, ite_eq_left_iff, and_iff_left hq, and_iff_left hd]

theorem sync_direct_others_v6 {ip : IpAddr} (hq : q ≠ ip)
    (hd : t.selection_deferral.v6_deferred = false) (nlris : List (Nlri Ipv6Addr)) :
    (∀ n, (t.direct_others_v6 ip nlris).adj_out_v6 q n
        = (t.direct_others_v6 ip nlris).export_v6 q n) ↔
      ∀ n, ¬(t.Spoken_v6 q ∧ n ∈ nlris) → t.adj_out_v6 q n = t.export_v6 q n := by
  obtain ⟨hsess, hout⟩ := t.direct_others_v6_spec ip nlris q
  have hframe := t.direct_others_v6_frame ip nlris
  have hexp : ∀ n, (t.direct_others_v6 ip nlris).export_v6 q n = t.export_v6 q n := by
    intro n
    rw [export_v6, hframe.export_of_v6 hsess]
    obtain ⟨_, _, _, _, hf⟩ := hframe
    rw [hf]
    rfl
  refine forall_congr' fun n => ?_
  rw [hexp n, hout n, ite_eq_left_iff, and_iff_left hq, and_iff_left hd]

/-! ## The loss shows -/

/-- A prefix that the IPv4 direct loop decides again for a peer: it is in network form, it
had a best route, and the peer can be spoken to. -/
def Redecided_v4 (q : IpAddr) (n : Nlri Ipv4Addr) : Prop :=
  s.Spoken_v4 q ∧ n.Canonical ∧ (s.rib.loc_rib.best_entry n).isSome
deriving Decidable

def Redecided_v6 (q : IpAddr) (n : Nlri Ipv6Addr) : Prop :=
  s.Spoken_v6 q ∧ n.Canonical ∧ (s.rib.loc_rib_v6.best_entry n).isSome

/-- Taking a peer's routes away does not change what a peer is to be sent for a prefix. -/
def LossHidden_v4 (q : IpAddr) (n : Nlri Ipv4Addr) : Prop :=
  s.export_of_v4 q (s.rib.loc_rib.best_entry n)
    = s.export_of_v4 q (s.rib.loc_rib.best_without peer_ip s.oracle_v4 n)

/-- Taking a peer's routes away does not change what a peer is to be sent for an IPv6
prefix. -/
def LossHidden_v6 (q : IpAddr) (n : Nlri Ipv6Addr) : Prop :=
  s.export_of_v6 q (s.rib.loc_rib_v6.best_entry n)
    = s.export_of_v6 q (s.rib.loc_rib_v6.best_without peer_ip s.oracle_v6 n)

theorem mem_best_prefixes_v4 (n : Nlri Ipv4Addr) :
    n ∈ s.best_prefixes_v4 ↔ n.Canonical ∧ (s.rib.loc_rib.best_entry n).isSome :=
  s.rib.loc_rib.mem_best_routes n

theorem mem_best_prefixes_v6 (n : Nlri Ipv6Addr) :
    n ∈ s.best_prefixes_v6 ↔ n.Canonical ∧ (s.rib.loc_rib_v6.best_entry n).isSome :=
  s.rib.loc_rib_v6.mem_best_routes n

theorem sync_v4_lose_routes_iff {s : DaemonState} {ip : IpAddr} (hq : q ≠ ip)
    (hd : s.selection_deferral.v4_deferred = false) (hs : ∀ n, s.adj_out_v4 q n = s.export_v4 q n) :
    (∀ n, ((s.lose_routes ip).direct_others_v4 ip s.best_prefixes_v4).adj_out_v4 q n
        = ((s.lose_routes ip).direct_others_v4 ip s.best_prefixes_v4).export_v4 q n) ↔
      ∀ n, ¬s.Redecided_v4 q n → s.LossHidden_v4 ip q n := by
  have hk := s.kept_lose_routes hq
  rw [sync_direct_others_v4 (s.lose_routes ip) hq hd]
  refine forall_congr' fun n => imp_congr (not_congr ?_) ?_
  · rw [hk.spoken_v4, mem_best_prefixes_v4]
    exact Iff.rfl
  · rw [hk.out_v4, hs n, export_v4, export_v4, hk.export_v4, best_entry_lose_routes_v4]
    exact Iff.rfl

theorem inSync_emit (q : IpAddr) : (t.emit_route_events nlris).InSync q ↔ t.InSync q :=
  Iff.rfl

theorem direct_others_v4_capable :
    (t.direct_others_v4 ip nlris).ipv6_capable_peers = t.ipv6_capable_peers := by
  obtain ⟨_, _, _, _, hf⟩ := t.direct_others_v4_frame ip nlris
  rw [hf]

theorem kept_v6_direct_others_v4 (q : IpAddr) (nlris : List (Nlri Ipv4Addr)) :
    (t.direct_others_v4 ip nlris).adj_out_v6 q = t.adj_out_v6 q ∧
      (t.direct_others_v4 ip nlris).export_v6 q = t.export_v6 q ∧
      ((t.direct_others_v4 ip nlris).Spoken_v6 q ↔ t.Spoken_v6 q) := by
  have htx := t.direct_others_v4_senders ip nlris q
  obtain ⟨_, _, _, hf⟩ := t.direct_others_v4_eq ip nlris
  rw [hf] at htx ⊢
  exact ⟨rfl, rfl, and_congr Iff.rfl (and_congr Iff.rfl (and_congr Iff.rfl htx))⟩

theorem kept_v4_direct_others_v6 (q : IpAddr) (nlris : List (Nlri Ipv6Addr)) :
    (t.direct_others_v6 ip nlris).adj_out_v4 q = t.adj_out_v4 q ∧
      (t.direct_others_v6 ip nlris).export_v4 q = t.export_v4 q := by
  have hout := t.direct_others_v6_out_v4 ip nlris
  obtain ⟨_, _, _, _, hf⟩ := t.direct_others_v6_frame ip nlris
  rw [hf] at hout ⊢
  subst hout
  exact ⟨rfl, rfl⟩

/-- The loss as `terminate_now` handles it, seen by a peer that was in sync. IPv6 is not
decided again. -/
theorem inSync_terminate_now_iff {s : DaemonState} {ip : IpAddr} (hq : q ≠ ip)
    (hd : s.selection_deferral.v4_deferred = false) (hs : s.InSync q) :
    (s.terminate_now ip).InSync q ↔
      (∀ n, ¬s.Redecided_v4 q n → s.LossHidden_v4 ip q n) ∧
        (q ∈ s.ipv6_capable_peers → ∀ n, s.LossHidden_v6 ip q n) := by
  have hk := s.kept_lose_routes hq
  obtain ⟨hout6, hexp6, -⟩ :=
    (s.lose_routes ip).kept_v6_direct_others_v4 ip q s.best_prefixes_v4
  rw [terminate_now_eq, inSync_emit]
  unfold InSync
  rw [direct_others_v4_capable, hout6, hexp6, hk.ipv6_capable]
  refine and_congr (sync_v4_lose_routes_iff hq hd hs.1) ?_
  refine imp_congr_right fun hcap => forall_congr' fun n => ?_
  rw [hk.out_v6, hs.2 hcap n, export_v6, export_v6, hk.export_v6, best_entry_lose_routes_v6]
  exact Iff.rfl

theorem direct_others_v6_capable (nlris : List (Nlri Ipv6Addr)) :
    (t.direct_others_v6 ip nlris).ipv6_capable_peers = t.ipv6_capable_peers := by
  obtain ⟨_, _, _, _, hf⟩ := t.direct_others_v6_frame ip nlris
  rw [hf]

theorem direct_others_v4_deferral :
    (t.direct_others_v4 ip nlris).selection_deferral = t.selection_deferral := by
  obtain ⟨_, _, _, _, hf⟩ := t.direct_others_v4_frame ip nlris
  rw [hf]

theorem inSync_lose_both_iff {s : DaemonState} {ip : IpAddr} (hq : q ≠ ip)
    (hd4 : s.selection_deferral.v4_deferred = false)
    (hd6 : s.selection_deferral.v6_deferred = false) (hs : s.InSync q) :
    (((s.lose_routes ip).direct_others_v4 ip s.best_prefixes_v4).direct_others_v6
        ip s.best_prefixes_v6).InSync q ↔
      (∀ n, ¬s.Redecided_v4 q n → s.LossHidden_v4 ip q n) ∧
        (q ∈ s.ipv6_capable_peers → ∀ n, ¬s.Redecided_v6 q n → s.LossHidden_v6 ip q n) := by
  have hk := s.kept_lose_routes hq
  obtain ⟨hout6, hexp6, hsp6⟩ :=
    (s.lose_routes ip).kept_v6_direct_others_v4 ip q s.best_prefixes_v4
  obtain ⟨hout4, hexp4⟩ :=
    ((s.lose_routes ip).direct_others_v4 ip s.best_prefixes_v4
      ).kept_v4_direct_others_v6 ip q s.best_prefixes_v6
  have hd6' : ((s.lose_routes ip).direct_others_v4 ip s.best_prefixes_v4
      ).selection_deferral.v6_deferred = false := by
    rw [direct_others_v4_deferral]
    exact hd6
  unfold InSync
  rw [direct_others_v6_capable, direct_others_v4_capable, hout4, hexp4, hk.ipv6_capable,
    sync_direct_others_v6 _ hq hd6', hout6, hexp6, hsp6, hk.spoken_v6]
  refine and_congr (sync_v4_lose_routes_iff hq hd4 hs.1) ?_
  refine imp_congr_right fun hcap => forall_congr' fun n => ?_
  rw [mem_best_prefixes_v6, hk.out_v6, hs.2 hcap n, export_v6, export_v6, hk.export_v6,
    best_entry_lose_routes_v6]
  exact Iff.rfl

theorem inSync_on_terminated_iff {s : DaemonState} {clk : Clock} {ip : IpAddr}
    {reason : TerminationReason} (hgr : s.enter_gr ip reason = false) (hq : q ≠ ip)
    (hd : s.selection_deferral.v4_deferred = false) (hs : s.InSync q) :
    (s.on_terminated clk ip reason).InSync q ↔
      (∀ n, ¬s.Redecided_v4 q n → s.LossHidden_v4 ip q n) ∧
        (q ∈ s.ipv6_capable_peers → ∀ n, s.LossHidden_v6 ip q n) := by
  have hc := s.kept_close_session hq
  rw [on_terminated, hgr, if_neg Bool.false_ne_true,
    inSync_terminate_now_iff (s := s.close_session ip) hq hd ((hc.inSync rfl rfl).2 hs)]
  unfold Redecided_v4 LossHidden_v4 LossHidden_v6
  rw [hc.export_v4, hc.export_v6, hc.spoken_v4, hc.ipv6_capable]
  exact Iff.rfl

theorem inSync_on_gr_deadline_expired_iff {s : DaemonState} {ip : IpAddr} (hq : q ≠ ip)
    (hd4 : s.selection_deferral.v4_deferred = false)
    (hd6 : s.selection_deferral.v6_deferred = false) (hs : s.InSync q) :
    (s.on_gr_deadline_expired ip).InSync q ↔
      (∀ n, ¬s.Redecided_v4 q n → s.LossHidden_v4 ip q n) ∧
        (q ∈ s.ipv6_capable_peers → ∀ n, ¬s.Redecided_v6 q n → s.LossHidden_v6 ip q n) := by
  rw [on_gr_deadline_expired_eq, inSync_emit]
  exact inSync_lose_both_iff (s := s.forget_stale ip) hq hd4 hd6 hs

/-! ## Every peer that stays -/

theorem peer_types_terminated (clk : Clock) (ip : IpAddr) (reason : TerminationReason) :
    (s.on_terminated clk ip reason).rib.peer_types = s.rib.peer_types.erase ip :=
  congrArg Standing.up (s.standing_on_terminated clk ip reason)

theorem peer_types_on_gr_deadline_expired :
    (s.on_gr_deadline_expired ip).rib.peer_types = s.rib.peer_types :=
  congrArg Standing.up (s.standing_on_gr_deadline_expired ip)

/-- What a termination leaves out of date does not show: no prefix outside the IPv4 loop,
and no IPv6 prefix at all, is to be sent differently without the peer's routes. -/
def CoveredByTermination (q : IpAddr) : Prop :=
  (∀ n, ¬s.Redecided_v4 q n → s.LossHidden_v4 peer_ip q n) ∧
    (q ∈ s.ipv6_capable_peers → ∀ n, s.LossHidden_v6 peer_ip q n)

theorem lossHidden_v4_of_not_known {s : DaemonState} {n : Nlri Ipv4Addr}
    (h : n ∉ known none s.rib.loc_rib) (ip q : IpAddr) : s.LossHidden_v4 ip q n := by
  rw [LossHidden_v4, best_entry_of_not_known h, best_without_of_not_known h]

theorem lossHidden_v6_of_not_known {s : DaemonState} {n : Nlri Ipv6Addr}
    (h : n ∉ known none s.rib.loc_rib_v6) (ip q : IpAddr) : s.LossHidden_v6 ip q n := by
  rw [LossHidden_v6, best_entry_of_not_known h, best_without_of_not_known h]

theorem coveredByTermination_iff_known (q : IpAddr) :
    s.CoveredByTermination ip q ↔
      (∀ n ∈ known none s.rib.loc_rib, ¬s.Redecided_v4 q n →
        s.export_of_v4 q (s.rib.loc_rib.best_entry n)
          = s.export_of_v4 q (s.rib.loc_rib.best_without ip s.oracle_v4 n)) ∧
        (q ∈ s.ipv6_capable_peers → ∀ n ∈ known none s.rib.loc_rib_v6,
          s.export_of_v6 q (s.rib.loc_rib_v6.best_entry n)
            = s.export_of_v6 q (s.rib.loc_rib_v6.best_without ip s.oracle_v6 n)) := by
  refine and_congr ⟨fun h n _ => h n, fun h n hn => ?_⟩
    (imp_congr_right fun _ => ⟨fun h n _ => h n, fun h n => ?_⟩)
  · by_cases hk : n ∈ known none s.rib.loc_rib
    · exact h n hk hn
    · exact lossHidden_v4_of_not_known hk ip q
  · by_cases hk : n ∈ known none s.rib.loc_rib_v6
    · exact h n hk
    · exact lossHidden_v6_of_not_known hk ip q

instance (s : DaemonState) (peer_ip q : IpAddr) :
    Decidable (s.CoveredByTermination peer_ip q) :=
  decidable_of_iff' _ (s.coveredByTermination_iff_known peer_ip q)

/-- What the end of a restart window leaves out of date does not show. -/
def CoveredByExpiry (q : IpAddr) : Prop :=
  (∀ n, ¬s.Redecided_v4 q n → s.LossHidden_v4 peer_ip q n) ∧
    (q ∈ s.ipv6_capable_peers → ∀ n, ¬s.Redecided_v6 q n → s.LossHidden_v6 peer_ip q n)

theorem othersInSync_on_terminated_iff {s : DaemonState} {ip : IpAddr} {reason : TerminationReason}
    (clk : Clock) (hgr : s.enter_gr ip reason = false)
    (hd : s.selection_deferral.v4_deferred = false) (hs : s.OthersInSync ip) :
    (s.on_terminated clk ip reason).OthersInSync ip ↔
      ∀ q ∈ s.rib.peer_types, q ≠ ip → s.CoveredByTermination ip q := by
  have hmem : ∀ q, q ≠ ip →
      (q ∈ (s.on_terminated clk ip reason).rib.peer_types ↔ q ∈ s.rib.peer_types) := by
    intro q hq
    rw [peer_types_terminated, AList.mem_erase]
    exact and_iff_right hq
  constructor
  · intro h q hest hq
    exact (inSync_on_terminated_iff hgr hq hd (hs q hest hq)).1 (h q ((hmem q hq).2 hest) hq)
  · intro h q hest hq
    have hest' := (hmem q hq).1 hest
    exact (inSync_on_terminated_iff hgr hq hd (hs q hest' hq)).2 (h q hest' hq)

/-- **The loss of a session, exactly.** With the other peers in sync and no family
deferred, they are in sync afterwards if and only if what was not decided again did not
have to be. -/
theorem session_loss_iff (s : DaemonState) (clk : Clock) (peer_ip : IpAddr)
    (reason : TerminationReason) (hd4 : s.selection_deferral.v4_deferred = false)
    (hd6 : s.selection_deferral.v6_deferred = false) (hs : s.OthersInSync peer_ip) :
    (s.enter_gr peer_ip reason = false →
      ((s.on_terminated clk peer_ip reason).OthersInSync peer_ip ↔
        ∀ q ∈ s.rib.peer_types, q ≠ peer_ip → s.CoveredByTermination peer_ip q)) ∧
    ((s.on_gr_deadline_expired peer_ip).OthersInSync peer_ip ↔
      ∀ q ∈ s.rib.peer_types, q ≠ peer_ip → s.CoveredByExpiry peer_ip q) := by
  refine ⟨fun hgr => othersInSync_on_terminated_iff clk hgr hd4 hs, ?_⟩
  unfold OthersInSync
  rw [peer_types_on_gr_deadline_expired]
  refine forall_congr' fun q => forall_congr' fun hest => forall_congr' fun hq => ?_
  exact inSync_on_gr_deadline_expired_iff hq hd4 hd6 (hs q hest hq)

end DaemonState

/-- 10.0.0.2 and 10.0.0.3, external peers with IPv6, are up; 10.0.0.2 has sent an UPDATE. -/
def before_loss (msg : UpdateMessage) : DaemonState :=
  (small_daemon [open_peer 2 65002, open_peer 3 65003]
    (some ⟨0x20010db80000000000000000000000ff⟩) []).run
    [session_up 2 .External [.MultiProtocol .IPV6_UNICAST],
      session_up 3 .External [.MultiProtocol .IPV6_UNICAST], update_from 2 0 msg]

/-- An IPv4 route is withdrawn from the other peer. -/
theorem session_loss_v4_in_sync :
    ((before_loss (announcement [65002] [Nlri.v4 10 0 0 0 8])).on_terminated ⟨0, 0⟩
      (peer_addr 2) .OperatorStop).OthersInSync (peer_addr 2) :=
  ((DaemonState.session_loss_iff (before_loss (announcement [65002] [Nlri.v4 10 0 0 0 8]))
    ⟨0, 0⟩ (peer_addr 2) .OperatorStop (by decide +kernel) (by decide +kernel)
    (by decide +kernel)).1 (by decide +kernel)).2
    (show ∀ q ∈ (before_loss (announcement [65002] [Nlri.v4 10 0 0 0 8])).rib.peer_types.keys,
      q ≠ peer_addr 2 → _ by decide +kernel)

def ipv6_announcement : UpdateMessage :=
  announcement_v6 [65002] [Nlri.v6 0x20010db8000100000000000000000000 48]

/-- An IPv6 route stays in the other peer's Adj-RIB-Out. -/
theorem session_loss_v6_stays :
    (before_loss ipv6_announcement).Reachable ∧
      (before_loss ipv6_announcement).is_rr = false ∧
      (before_loss ipv6_announcement).selection_deferral = .disabled ∧
      (∀ q ∈ (before_loss ipv6_announcement).rib.peer_types.keys,
        (before_loss ipv6_announcement).InSync q) ∧
      (before_loss ipv6_announcement).enter_gr (peer_addr 2) .OperatorStop = false ∧
      ¬((before_loss ipv6_announcement).on_terminated ⟨0, 0⟩ (peer_addr 2)
        .OperatorStop).OthersInSync (peer_addr 2) :=
  ⟨reachable_small_daemon .., by decide +kernel, by decide +kernel, by decide +kernel,
    by decide +kernel, by decide +kernel⟩

end Pathvector
