/-
# A session that we stop

When the daemon itself ends a session, no graceful restart follows. The loss is handled at
once, and the kernel layer is told about it.
-/
import Pathvector.Tables.Following
import Pathvector.Tables.NetworkForm

set_option autoImplicit false

namespace Pathvector

namespace DaemonState

variable (s : DaemonState) (peer_ip ip : IpAddr)

/-- What the daemon has from a peer is in network form, as everything is that was received:
the decoder masks each prefix it reads. -/
structure HeardInNetworkForm (s : DaemonState) (peer_ip : IpAddr) : Prop where
  candidate_v4 : ∀ n, (s.rib.loc_rib.candidate n peer_ip).isSome → n.Canonical
  candidate_v6 : ∀ n, (s.rib.loc_rib_v6.candidate n peer_ip).isSome → n.Canonical
  stale_v4 : ∀ n ∈ ((s.gr.stale_nlri.lookup peer_ip).getD ∅).keys, n.Canonical
  stale_v6 : ∀ n ∈ ((s.gr.stale_nlri_v6.lookup peer_ip).getD ∅).keys, n.Canonical

/-- It is, in every run whose messages are in network form. -/
theorem InNetworkForm.heard {s : DaemonState} (h : s.InNetworkForm) (peer_ip : IpAddr) :
    s.HeardInNetworkForm peer_ip where
  candidate_v4 n := h.1.candidate n peer_ip
  candidate_v6 n := h.2.candidate n peer_ip
  stale_v4 := h.1.pending peer_ip
  stale_v6 := h.2.pending peer_ip

/-- The best route of a prefix with host bits, which no report names, does not change when
a peer leaves. -/
def HostBitsKept : Prop :=
  (∀ n, ¬n.Canonical → s.rib.loc_rib.best n
      = (s.rib.loc_rib.best_without peer_ip s.oracle_v4 n).map Prod.snd) ∧
    ∀ n, ¬n.Canonical → s.rib.loc_rib_v6.best n
      = (s.rib.loc_rib_v6.best_without peer_ip s.oracle_v6 n).map Prod.snd

/-- Taking a peer that is gone out of the configuration shows nowhere downstream, when no
family is deferred. -/
theorem remove_peer_downstream (v : DaemonState) (ip : IpAddr)
    (hd4 : v.selection_deferral.v4_deferred = false)
    (hd6 : v.selection_deferral.v6_deferred = false) :
    (v.remove_peer ip).1.OthersInSync ip ↔ v.OthersInSync ip := by
  unfold remove_peer
  split
  swap
  · exact Iff.rfl
  rw [recompute_of_not_deferred (v := v.forget_peer ip) hd4 hd6]
  have hsync : ∀ q, q ≠ ip → ((v.forget_peer ip).InSync q ↔ v.InSync q) :=
    fun q hq => (v.kept_forget_peer hq).inSync rfl rfl
  refine forall_congr' fun q => ?_
  constructor
  · intro h hq hne
    exact (hsync q hne).1 (h (AList.mem_erase.2 ⟨hne, hq⟩) hne)
  · intro h hq hne
    exact (hsync q hne).2 (h (AList.mem_erase.1 hq).2 hne)

/-- **The end of a session that we stop**, downstream: the other peers, in sync before. -/
theorem stop_others {t : DaemonState} {ip : IpAddr} (clk : Clock)
    (hgr : (t.unnoted ip).enter_gr ip .OperatorStop = false)
    (hd4 : t.selection_deferral.v4_deferred = false)
    (hd6 : t.selection_deferral.v6_deferred = false) (hs : t.OthersInSync ip) :
    (t.step (.Session clk ip (.Terminated .OperatorStop))).OthersInSync ip ↔
      ∀ q ∈ t.rib.peer_types, q ≠ ip → t.CoveredByTermination ip q := by
  have hviews : ((t.unnoted ip).on_terminated clk ip .OperatorStop).OthersInSync ip ↔
      ∀ q ∈ t.rib.peer_types, q ≠ ip → t.CoveredByTermination ip q :=
    othersInSync_on_terminated_iff clk hgr hd4 hs
  have hdef : ((t.unnoted ip).on_terminated clk ip .OperatorStop).selection_deferral
      = t.selection_deferral := by
    rw [on_terminated, hgr, if_neg Bool.false_ne_true, terminate_now_eq]
    obtain ⟨_, _, _, _, hd⟩ := (((t.unnoted ip).close_session ip).lose_routes
      ip).direct_others_v4_frame ip
      ((t.unnoted ip).close_session ip).best_prefixes_v4
    rw [hd]
    rfl
  have hstep : t.step (.Session clk ip (.Terminated .OperatorStop))
      = if decide (ip ∈ t.pending_removal) = true
        then (((t.unnoted ip).on_terminated clk ip .OperatorStop).remove_peer ip).1
        else (t.unnoted ip).on_terminated clk ip .OperatorStop := rfl
  rw [hstep]
  split
  · rw [remove_peer_downstream _ _ (by rw [hdef]; exact hd4) (by rw [hdef]; exact hd6)]
    exact hviews
  · exact hviews

/-- The kernel layer, with the best routes before, and the peer's own candidates. -/
theorem stop_tables {A : Type} [IpAddress A] [DecidableEq A] {t t' : Tables A} {ip : IpAddr}
    {gone : Prop} [Decidable gone] (hmoves : t' = t.moves ([.Clear ip, .Leave ip]
      ++ if gone then [.Forget ip] else []))
    (hc : ∀ n, (t.loc_rib.candidate n ip).isSome → n.Canonical) (hk : t.InKernel) :
    (t'.InKernel ↔ (t.calls.isSome → ∀ n, ¬n.Canonical → t.loc_rib.best n
        = (t.loc_rib.best_without ip t.oracle n).map Prod.snd)) ∧
      ∀ n, t'.loc_rib.candidate n ip = none := by
  subst hmoves
  obtain ⟨hrib, more, hcalls, hmore⟩ := t.batched_lost ip gone
  constructor
  · unfold Tables.InKernel at hk ⊢
    rw [hcalls, hrib]
    cases h : t.calls with
    | none => simp
    | some calls =>
      have hiff := t.loc_rib.follow_withdraw_peer_iff ip t.oracle hc (hk calls h)
      simpa [hmore] using hiff
  · intro n
    rw [hrib, LocRib.candidate_withdraw_peer, if_pos rfl]

/-- **The end of a session that we stop**, downstream: the other peers and the kernel layer,
in sync before, and the peer's own candidates. -/
theorem stop_downstream {t : DaemonState} {ip : IpAddr} (clk : Clock)
    (hd4 : t.selection_deferral.v4_deferred = false)
    (hd6 : t.selection_deferral.v6_deferred = false)
    (h4 : ∀ n, (t.rib.loc_rib.candidate n ip).isSome → n.Canonical)
    (h6 : ∀ n, (t.rib.loc_rib_v6.candidate n ip).isSome → n.Canonical)
    (hs : t.OthersInSync ip) (hf : t.FibInSync) :
    ((t.step (.Session clk ip (.Terminated .OperatorStop))).OthersInSync ip ↔
        ∀ q ∈ t.rib.peer_types, q ≠ ip → t.CoveredByTermination ip q) ∧
      ((t.step (.Session clk ip (.Terminated .OperatorStop))).FibInSync ↔
        (t.fib_manager.isSome → t.HostBitsKept ip)) ∧
      (∀ n, (t.step (.Session clk ip (.Terminated .OperatorStop))).rib.loc_rib.candidate n
        ip = none) ∧
      ∀ n, (t.step (.Session clk ip (.Terminated .OperatorStop))).rib.loc_rib_v6.candidate n
        ip = none := by
  have hgr : (t.unnoted ip).enter_gr ip .OperatorStop = false := by
    unfold enter_gr
    rw [show ((TerminationReason.OperatorStop == .Unclean)
      || (t.unnoted ip).notification_gr_eligible ip .OperatorStop) = false from rfl,
      Bool.and_false]
  have hmoves := t.tables_step (.Session clk ip (.Terminated .OperatorStop))
  simp only [moves_v4, moves_v6, session_moves_v4, session_moves_v6, handled_moves,
    terminated_moves, hgr, if_neg Bool.false_ne_true, Moved] at hmoves
  rw [fibInSync_iff_tables] at hf ⊢
  obtain ⟨hk4, hgone4⟩ := stop_tables hmoves.1 h4 hf.1
  obtain ⟨hk6, hgone6⟩ := stop_tables hmoves.2 h6 hf.2
  refine ⟨stop_others clk hgr hd4 hd6 hs, ?_, hgone4, hgone6⟩
  rw [hk4, hk6, tables_v4, tables_v6, Option.isSome_map, Option.isSome_map, ← forall_and]
  rfl

end DaemonState

end Pathvector
