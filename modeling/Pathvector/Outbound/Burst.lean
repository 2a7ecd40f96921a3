/-
# Session events, for one peer

An event of some session, read at the ledger of a peer whose own session goes on: it advances
the ledger (`advance_on_session_event`), provided no prefix with a decision waiting for the peer
is decided anew at once (`Undisturbed`). Three kinds of events decide at once: the end of a
session, an End-of-RIB marker with stale routes left, and whatever ends the deferral of IPv4.

The event that opens the peer's own session starts a new ledger (`opened`).
-/
import Pathvector.Daemon.Configured
import Pathvector.Outbound.Advance
import Pathvector.Teardown.SessionLoss

set_option autoImplicit false

namespace Pathvector

namespace DaemonState

variable {peer_ip ip : IpAddr} {prev : List (Nlri Ipv4Addr)} {e : SessionEvent}

/-! ## What is decided at once -/

section

variable (s : DaemonState) (q : IpAddr) (rib : LocRib Ipv4Addr) (n : Nlri Ipv4Addr)

/-- The prefixes with a decision waiting for a peer. -/
def waiting_prefixes : List (Nlri Ipv4Addr) :=
  ((s.pending_decisions.lookup q).getD []).filterMap PrefixDecision.nlri?

theorem waits_iff : (s.ledger q).Waits n ↔ n ∈ s.waiting_prefixes q := by
  unfold Ledger.Waits waiting_prefixes
  rw [ne_eq, List.eq_nil_iff_forall_not_mem, not_forall, List.mem_filterMap]
  simp only [not_not, mem_about]
  rfl

/-- The Loc-RIB without a peer. -/
def loss_table (peer_ip : IpAddr) : LocRib Ipv4Addr :=
  (s.rib.loc_rib.withdraw_peer peer_ip s.oracle_v4).1

/-- The Loc-RIB with the routes of a peer marked stale. -/
def stale_table (peer_ip : IpAddr) : LocRib Ipv4Addr :=
  ((stale_routes ((s.adj_ribs_in.modify peer_ip AdjRibIn.mark_all_stale).lookup peer_ip)).foldl
    (LocRib.insert_step peer_ip s.oracle_v4) (s.rib.loc_rib, [])).1

/-- The Loc-RIB without some prefixes of a peer. -/
def pruned_table (peer_ip : IpAddr) (stale : List (Nlri Ipv4Addr)) : LocRib Ipv4Addr :=
  (stale.foldl (LocRib.withdraw_step peer_ip s.oracle_v4) (s.rib.loc_rib, [])).1

/-- The Loc-RIB the end of a session decides from at once, if it decides at all. -/
def terminated_table (peer_ip : IpAddr) (reason : TerminationReason) : Option (LocRib Ipv4Addr) :=
  if enter_gr { s with pending_removal := s.pending_removal.erase peer_ip } peer_ip reason then
    if covers (s.gr.peer_families.lookup peer_ip) .IPV4_UNICAST then some (s.stale_table peer_ip)
    else none
  else some (s.loss_table peer_ip)

/-- Deciding a prefix for a peer from a Loc-RIB says nothing new. -/
def Agrees : Prop :=
  s.export_of_v4 q (rib.best_entry n) = s.adj_out_v4 q n
deriving Decidable

/-- What an event must leave alone for the sake of a decision that waits. -/
def Spares (peer_ip : IpAddr) (n : Nlri Ipv4Addr) : SessionEvent → Prop
  | .Established _ =>
    peer_ip ∈ s.max_prefix_idle ∨
      peer_ip ≠ q ∧ s.selection_deferral.v4_deferred = false
  | .Terminated reason =>
    peer_ip = q ∨ s.selection_deferral.v4_deferred = false ∧
      ∀ rib ∈ s.terminated_table peer_ip reason, n ∈ s.best_prefixes_v4 → s.Agrees q rib n
  | .RouteUpdate msg =>
    (msg.is_eor_v4 = true ∨ msg.is_eor_v6 = true → s.selection_deferral.v4_deferred = false) ∧
      (msg.is_eor_v4 = true → peer_ip = q ∨ (n ∈ s.stale_prefixes peer_ip →
        s.Agrees q (s.pruned_table peer_ip (s.stale_prefixes peer_ip)) n))

instance (s : DaemonState) (q peer_ip : IpAddr) (n : Nlri Ipv4Addr) (e : SessionEvent) :
    Decidable (s.Spares q peer_ip n e) := by
  induction e using SessionEvent.casesOn <;> dsimp only [Spares] <;> infer_instance

/-- An event decides nothing anew about a prefix with a decision waiting for a peer. -/
def Undisturbed (peer_ip : IpAddr) (e : SessionEvent) : Prop :=
  ∀ n ∈ s.waiting_prefixes q, s.Spares q peer_ip n e
deriving Decidable

end

/-! ## Advancing without new decisions waiting -/

/-- A ledger advances, and what waits is still what waited. -/
structure AdvanceAtOnce (s t : DaemonState) (q : IpAddr) : Prop extends Advance s t q where
  waiting : t.pending_decisions.lookup q = s.pending_decisions.lookup q
  deferral : t.selection_deferral = s.selection_deferral

namespace AdvanceAtOnce

variable {s t u : DaemonState} {q : IpAddr}

theorem refl (s : DaemonState) (q : IpAddr) : AdvanceAtOnce s s q := ⟨.refl s q, rfl, rfl⟩

theorem trans (h : AdvanceAtOnce s t q) (h' : AdvanceAtOnce t u q) : AdvanceAtOnce s u q :=
  ⟨h.toAdvance.trans h'.toAdvance, h'.waiting.trans h.waiting, h'.deferral.trans h.deferral⟩

theorem of_eq (hpt : t.rib.peer_types.lookup q = s.rib.peer_types.lookup q)
    (hfb : q ∈ t.four_byte_peers ↔ q ∈ s.four_byte_peers) (hl : t.ledger q = s.ledger q)
    (hw : t.pending_decisions.lookup q = s.pending_decisions.lookup q)
    (hd : t.selection_deferral = s.selection_deferral) : AdvanceAtOnce s t q :=
  ⟨.of_ledger hpt hfb hl, hw, hd⟩

theorem emit (h : AdvanceAtOnce s t q) (nlris : List (Nlri Ipv4Addr)) :
    AdvanceAtOnce s (t.emit_route_events nlris) q :=
  h.trans (of_eq rfl Iff.rfl rfl rfl rfl)

theorem waits_iff (h : AdvanceAtOnce s t q) (n : Nlri Ipv4Addr) :
    (t.ledger q).Waits n ↔ (s.ledger q).Waits n := by
  unfold Ledger.Waits ledger
  rw [h.waiting]

theorem recompute (h : AdvanceAtOnce s t q) (hv : s.StoresVerbatim q)
    (hfree : ∀ n, (s.ledger q).Waits n → s.selection_deferral.v4_deferred = false) :
    Advance s t.recompute_selection_deferral q := by
  refine h.toAdvance.trans (advance_recompute (h.storesVerbatim hv) fun hd n hw => ?_)
  rw [h.waits_iff] at hw
  rw [h.deferral, hfree n hw] at hd
  cases hd

end AdvanceAtOnce

theorem atOnce_direct_others_v4 {s : DaemonState} {q : IpAddr} (hv : s.StoresVerbatim q)
    (ip : IpAddr) {nlris : List (Nlri Ipv4Addr)} (hnlris : nlris.Nodup)
    (hfree : q ≠ ip → ∀ n ∈ nlris, (s.ledger q).Waits n →
      s.selection_deferral.v4_deferred = true ∨ s.export_v4 q n = s.adj_out_v4 q n) :
    AdvanceAtOnce s (s.direct_others_v4 ip nlris) q := by
  obtain ⟨_, _, _, _, hf⟩ := s.direct_others_v4_frame ip nlris
  exact ⟨advance_direct_others_v4 hv ip hnlris hfree, by rw [hf], by rw [hf]⟩

theorem atOnce_direct_others_v6 (s : DaemonState) (ip : IpAddr)
    (nlris : List (Nlri Ipv6Addr)) (q : IpAddr) :
    AdvanceAtOnce s (s.direct_others_v6 ip nlris) q := by
  obtain ⟨_, _, _, _, hf⟩ := s.direct_others_v6_frame ip nlris
  exact ⟨s.advance_direct_others_v6 ip nlris q, by rw [hf], by rw [hf]⟩

/-! ## Route updates -/

theorem atOnce_prune_stale_nlri {s : DaemonState} {q : IpAddr} (hv : s.StoresVerbatim q)
    (ip : IpAddr) {stale : List (Nlri Ipv4Addr)} (hstale : stale.Nodup)
    (hfree : q ≠ ip → ∀ n ∈ stale, (s.ledger q).Waits n →
      s.Agrees q (s.pruned_table ip stale) n) :
    AdvanceAtOnce s (s.prune_stale_nlri ip stale) q := by
  unfold prune_stale_nlri
  refine AdvanceAtOnce.emit ?_ _
  refine AdvanceAtOnce.trans ?_ (atOnce_direct_others_v4 ?_ ip hstale ?_)
  · exact AdvanceAtOnce.of_eq rfl Iff.rfl rfl rfl rfl
  · exact hv
  · intro hq n hn hw
    exact .inr (hfree hq n hn hw)

theorem atOnce_prune_stale_nlri_v6 (s : DaemonState) (ip : IpAddr)
    (stale : List (Nlri Ipv6Addr)) (q : IpAddr) :
    AdvanceAtOnce s (s.prune_stale_nlri_v6 ip stale) q := by
  unfold prune_stale_nlri_v6
  refine AdvanceAtOnce.trans ?_ (atOnce_direct_others_v6 _ ip stale q)
  exact AdvanceAtOnce.of_eq rfl Iff.rfl rfl rfl rfl

section

variable {s : DaemonState} {q : IpAddr} (hv : s.StoresVerbatim q) (clk : Clock)
  (msg : UpdateMessage) (u : PendingUpdate)
include hv

theorem advance_on_eor_v4 (ip : IpAddr)
    (hd : ∀ n, (s.ledger q).Waits n → s.selection_deferral.v4_deferred = false)
    (hfree : q ≠ ip → ∀ n ∈ s.stale_prefixes ip, (s.ledger q).Waits n →
      s.Agrees q (s.pruned_table ip (s.stale_prefixes ip)) n) : Advance s (s.on_eor_v4 ip) q := by
  refine AdvanceAtOnce.recompute ?_ hv hd
  split
  · exact AdvanceAtOnce.of_eq rfl Iff.rfl rfl rfl rfl
  · refine AdvanceAtOnce.trans ?_ (atOnce_prune_stale_nlri ?_ ip (AList.keys_nodup _) hfree)
    · exact AdvanceAtOnce.of_eq rfl Iff.rfl rfl rfl rfl
    · exact hv

theorem advance_on_eor_v6 (ip : IpAddr)
    (hd : ∀ n, (s.ledger q).Waits n → s.selection_deferral.v4_deferred = false) :
    Advance s (s.on_eor_v6 ip) q := by
  refine AdvanceAtOnce.recompute ?_ hv hd
  split
  · exact AdvanceAtOnce.of_eq rfl Iff.rfl rfl rfl rfl
  · refine AdvanceAtOnce.trans ?_ (atOnce_prune_stale_nlri_v6 _ ip _ q)
    exact AdvanceAtOnce.of_eq rfl Iff.rfl rfl rfl rfl

theorem advance_publish_update : Advance s (s.publish_update clk msg u) q := by
  have hprop : Advance s ((s.fib_apply (s.update_calls u)).propagate_to_all_peers clk msg.affected)
      q := by
    have hfib : Advance s (s.fib_apply (s.update_calls u)) q := .of_ledger rfl Iff.rfl rfl
    exact hfib.trans (advance_propagate (hfib.storesVerbatim hv) clk msg.affected)
  unfold publish_update
  generalize (s.fib_apply (s.update_calls u)).propagate_to_all_peers clk msg.affected = t at hprop ⊢
  have hv6 : Advance t (if msg.affected_v6.isEmpty then t
      else t.propagate_to_all_peers_v6 msg.affected_v6) q := by
    split
    · exact .refl t q
    · exact t.advance_propagate_v6 _ q
  exact (hprop.trans hv6).trans (.of_ledger rfl Iff.rfl rfl)

theorem advance_on_update_message (ip : IpAddr) (msg : UpdateMessage) :
    Advance s (s.on_update_message clk ip msg).1 q := by
  unfold on_update_message
  split
  · exact .refl s q
  · rename_i u _
    have himp : Advance s (s.imported ip msg u) q := .of_ledger rfl Iff.rfl rfl
    refine himp.trans ?_
    dsimp only
    split
    · unfold idle_hold
      split
      · exact .of_ledger rfl Iff.rfl rfl
      · exact .refl _ q
    · exact advance_publish_update (himp.storesVerbatim hv) clk msg u

theorem advance_on_route_update {msg : UpdateMessage} (h : s.Undisturbed q ip (.RouteUpdate msg)) :
    Advance s (s.on_route_update clk ip msg).1 q := by
  have hspares : ∀ n, (s.ledger q).Waits n → s.Spares q ip n (.RouteUpdate msg) :=
    fun n hw => h n ((s.waits_iff q n).1 hw)
  unfold on_route_update
  by_cases h4 : msg.is_eor_v4 = true
  · rw [if_pos h4]
    refine advance_on_eor_v4 hv ip (fun n hw => (hspares n hw).1 (.inl h4)) ?_
    intro hq n hn hw
    exact ((hspares n hw).2 h4).resolve_left (Ne.symm hq) hn
  · rw [if_neg h4]
    by_cases h6 : msg.is_eor_v6 = true
    · rw [if_pos h6]
      exact advance_on_eor_v6 hv ip fun n hw => (hspares n hw).1 (.inr h6)
    · rw [if_neg h6]
      split
      · exact .refl s q
      · exact advance_on_update_message hv clk ip _

end

/-! ## The end of another session -/

section

variable {q : IpAddr} (s : DaemonState)

theorem ledger_close_session (hq : q ≠ ip) : (s.close_session ip).ledger q = s.ledger q := by
  unfold ledger close_session mrai
  simp only [HashMap.lookup_erase_ite, if_neg hq]

theorem ledger_reset_adj_ribs_out (hq : q ≠ ip) :
    (s.reset_adj_ribs_out ip).ledger q = s.ledger q := by
  unfold ledger reset_adj_ribs_out
  simp only [HashMap.lookup_modify, if_neg hq]
  rfl

theorem atOnce_close_session (hq : q ≠ ip) : AdvanceAtOnce s (s.close_session ip) q := by
  apply AdvanceAtOnce.of_eq
  · simp only [close_session, HashMap.lookup_erase_ite, if_neg hq]
  · simp only [close_session, AList.mem_erase, ne_eq, hq, not_false_eq_true, true_and]
  · exact s.ledger_close_session hq
  · simp only [close_session, HashMap.lookup_erase_ite, if_neg hq]
  · rfl

theorem atOnce_lose_routes (hq : q ≠ ip) : AdvanceAtOnce s (s.lose_routes ip) q :=
  AdvanceAtOnce.of_eq rfl Iff.rfl (ledger_reset_adj_ribs_out _ hq) rfl rfl

theorem atOnce_terminate_now {s : DaemonState} (hq : q ≠ ip) (hv : s.StoresVerbatim q)
    (hfree : ∀ n ∈ s.best_prefixes_v4, (s.ledger q).Waits n →
      s.Agrees q (s.loss_table ip) n) : AdvanceAtOnce s (s.terminate_now ip) q := by
  have hlose := s.atOnce_lose_routes hq
  have hkept := s.kept_lose_routes hq
  refine AdvanceAtOnce.emit ?_ _
  refine hlose.trans (atOnce_direct_others_v4 (hlose.storesVerbatim hv) ip
    s.nodup_best_prefixes_v4 fun _ n hn hw => .inr ?_)
  unfold export_v4
  rw [hkept.export_v4, hkept.out_v4]
  exact hfree n hn hw

theorem nodup_stale_affected (hprev : prev.Nodup) : (s.stale_affected prev).Nodup := by
  refine List.Nodup.append (s.nodup_best_prefixes_v4.filter _) (hprev.filter _) ?_
  intro n hn hn'
  -- the first part has a best route, the second has none
  have hsome := ((s.mem_best_prefixes_v4 n).1 (List.mem_filter.1 hn).1).2
  have hnone := (List.mem_filter.1 hn').2
  rw [LocRib.best_eq_best_entry] at hnone
  cases hb : s.rib.loc_rib.best_entry n with
  | none =>
    rw [hb] at hsome
    cases hsome
  | some e =>
    rw [hb] at hnone
    cases hnone

theorem mem_of_stale_affected {s : DaemonState} {n : Nlri Ipv4Addr}
    (h : n ∈ s.stale_affected prev) : n ∈ prev := by
  rcases List.mem_append.1 h with h | h
  · exact List.contains_iff_mem.1 (List.mem_filter.1 h).2
  · exact (List.mem_filter.1 h).1

theorem atOnce_mark_stale_v4 {s : DaemonState} (hv : s.StoresVerbatim q)
    (hfree : ∀ n ∈ s.best_prefixes_v4, (s.ledger q).Waits n →
      s.Agrees q (s.stale_table ip) n) : AdvanceAtOnce s (s.mark_stale_v4 ip) q := by
  unfold mark_stale_v4
  dsimp only
  split
  · exact AdvanceAtOnce.of_eq rfl Iff.rfl rfl rfl rfl
  · refine AdvanceAtOnce.emit ?_ _
    refine AdvanceAtOnce.trans ?_ (atOnce_direct_others_v4 ?_ ip
      (nodup_stale_affected _ s.nodup_best_prefixes_v4) ?_)
    · exact AdvanceAtOnce.of_eq rfl Iff.rfl rfl rfl rfl
    · exact hv
    · intro _ n hn hw
      exact .inr (hfree n (mem_of_stale_affected hn) hw)

theorem atOnce_mark_stale_v6 (ip q : IpAddr) : AdvanceAtOnce s (s.mark_stale_v6 ip) q := by
  unfold mark_stale_v6
  dsimp only
  split
  · exact AdvanceAtOnce.of_eq rfl Iff.rfl rfl rfl rfl
  · refine AdvanceAtOnce.trans ?_ (atOnce_direct_others_v6 _ ip _ q)
    exact AdvanceAtOnce.of_eq rfl Iff.rfl rfl rfl rfl

theorem clear_unless_v4 (ip : IpAddr) (listed : Bool) :
    ∃ ari fib, (if listed then s else s.clear_adj_rib_in_v4 ip)
      = { s with adj_ribs_in := ari, fib_manager := fib } := by
  split <;> exact ⟨_, _, rfl⟩

theorem clear_unless_v6 (ip : IpAddr) (listed : Bool) :
    ∃ ari_v6 fib, (if listed then s else s.clear_adj_rib_in_v6 ip)
      = { s with adj_ribs_in_v6 := ari_v6, fib_manager := fib } := by
  split <;> exact ⟨_, _, rfl⟩

theorem atOnce_mark_stale {s : DaemonState} (hv : s.StoresVerbatim q) (do_v4 do_v6 : Bool)
    (hfree : do_v4 = true → ∀ n ∈ s.best_prefixes_v4, (s.ledger q).Waits n →
      s.Agrees q (s.stale_table ip) n) :
    AdvanceAtOnce s (s.mark_stale_and_repropagate ip do_v4 do_v6) q := by
  have hv4 : AdvanceAtOnce s (if do_v4 then s.mark_stale_v4 ip else s) q := by
    split
    · rename_i h
      exact atOnce_mark_stale_v4 hv (hfree h)
    · exact .refl s q
  unfold mark_stale_and_repropagate
  generalize (if do_v4 then s.mark_stale_v4 ip else s) = t at hv4 ⊢
  split
  · exact hv4.trans (t.atOnce_mark_stale_v6 ip q)
  · exact hv4

theorem atOnce_terminate_gr {s : DaemonState} (hv : s.StoresVerbatim q) (clk : Clock)
    (restart_time : ℕ)
    (hfree : covers (s.gr.peer_families.lookup ip) .IPV4_UNICAST = true →
      ∀ n ∈ s.best_prefixes_v4, (s.ledger q).Waits n → s.Agrees q (s.stale_table ip) n) :
    AdvanceAtOnce s (s.terminate_gr clk ip restart_time) q := by
  unfold terminate_gr
  dsimp only
  cases hc : covers (s.gr.peer_families.lookup ip) .IPV4_UNICAST with
  | true =>
    rw [if_pos rfl]
    obtain ⟨_, _, hf⟩ := s.clear_unless_v6 ip (covers (s.gr.peer_families.lookup ip) .IPV6_UNICAST)
    rw [hf]
    refine AdvanceAtOnce.trans ?_ (atOnce_mark_stale ?_ _ _ fun _ => ?_)
    · exact .of_eq rfl Iff.rfl rfl rfl rfl
    · exact hv
    · exact hfree hc
  | false =>
    obtain ⟨_, _, hf⟩ := s.clear_unless_v4 ip false
    obtain ⟨_, _, hf⟩ := clear_unless_v6 _ ip (covers (s.gr.peer_families.lookup ip) .IPV6_UNICAST)
    rw [hf]
    refine AdvanceAtOnce.trans ?_ (atOnce_mark_stale ?_ _ _ fun h => ?_)
    · exact .of_eq rfl Iff.rfl rfl rfl rfl
    · exact hv
    · cases h

theorem agrees_close_session (hq : q ≠ ip) (rib : LocRib Ipv4Addr) (n : Nlri Ipv4Addr) :
    (s.close_session ip).Agrees q rib n ↔ s.Agrees q rib n := by
  have hkept := s.kept_close_session hq
  unfold Agrees
  rw [hkept.export_v4, hkept.out_v4]

theorem atOnce_on_terminated {s : DaemonState} (hq : q ≠ ip) (hv : s.StoresVerbatim q) (clk : Clock)
    (reason : TerminationReason)
    (hgr : s.enter_gr ip reason = true →
      covers (s.gr.peer_families.lookup ip) .IPV4_UNICAST = true →
      ∀ n ∈ s.best_prefixes_v4, (s.ledger q).Waits n → s.Agrees q (s.stale_table ip) n)
    (hnow : s.enter_gr ip reason = false →
      ∀ n ∈ s.best_prefixes_v4, (s.ledger q).Waits n → s.Agrees q (s.loss_table ip) n) :
    AdvanceAtOnce s (s.on_terminated clk ip reason) q := by
  have hclose := s.atOnce_close_session hq
  have hv' := hclose.storesVerbatim hv
  unfold on_terminated
  refine hclose.trans ?_
  split
  · rename_i henter
    refine atOnce_terminate_gr hv' clk _ fun hc n hn hw => ?_
    rw [hclose.waits_iff] at hw
    rw [agrees_close_session s hq]
    exact hgr henter hc n hn hw
  · rename_i henter
    refine atOnce_terminate_now hq hv' fun n hn hw => ?_
    rw [hclose.waits_iff] at hw
    rw [agrees_close_session s hq]
    exact hnow (Bool.eq_false_of_not_eq_true henter) n hn hw

theorem atOnce_forget_peer (hq : q ≠ ip) : AdvanceAtOnce s (s.forget_peer ip) q := by
  apply AdvanceAtOnce.of_eq
  · simp only [forget_peer, HashMap.lookup_erase_ite, if_neg hq]
  · simp only [forget_peer, AList.mem_erase, ne_eq, hq, not_false_eq_true, true_and]
  · unfold ledger forget_peer mrai
    simp only [HashMap.lookup_erase_ite, if_neg hq]
  · simp only [forget_peer, HashMap.lookup_erase_ite, if_neg hq]
  · rfl

theorem advance_handle_terminated {s : DaemonState} (hq : q ≠ ip) (hv : s.StoresVerbatim q)
    (clk : Clock) {reason : TerminationReason} (h : s.Undisturbed q ip (.Terminated reason)) :
    Advance s (s.handle_terminated clk ip reason) q := by
  have hspares : ∀ n, (s.ledger q).Waits n → s.selection_deferral.v4_deferred = false ∧
      ∀ rib ∈ s.terminated_table ip reason, n ∈ s.best_prefixes_v4 → s.Agrees q rib n :=
    fun n hw => (h n ((s.waits_iff q n).1 hw)).resolve_left (Ne.symm hq)
  have hterm : AdvanceAtOnce s (on_terminated
      { s with pending_removal := s.pending_removal.erase ip } clk ip reason) q := by
    have htake : AdvanceAtOnce s { s with pending_removal := s.pending_removal.erase ip } q :=
      .of_eq rfl Iff.rfl rfl rfl rfl
    refine htake.trans (atOnce_on_terminated hq (htake.storesVerbatim hv) clk reason ?_ ?_)
    · intro henter hc n hn hw
      refine (hspares n hw).2 _ ?_ hn
      unfold terminated_table
      rw [if_pos henter, if_pos hc]
      rfl
    · intro henter n hn hw
      refine (hspares n hw).2 _ ?_ hn
      unfold terminated_table
      rw [henter]
      rfl
  unfold handle_terminated
  dsimp only
  split
  · unfold remove_peer
    split
    · exact (hterm.trans (atOnce_forget_peer _ hq)).recompute hv fun n hw => (hspares n hw).1
    · exact hterm.toAdvance
  · exact hterm.toAdvance

end

/-! ## The start of another session -/

section

variable {q : IpAddr} (s : DaemonState) (hq : q ≠ ip) (peer_bgp_id : Ipv4Addr)
  (peer_type : PeerType) (caps : List Capability)
include hq

theorem mem_flag_of_ne {s : HashSet IpAddr} (b : Bool) : q ∈ HashSet.flag s ip b ↔ q ∈ s := by
  unfold HashSet.flag
  rw [← AList.lookup_isSome, HashMap.lookup_put, if_neg hq, AList.lookup_isSome]

theorem atOnce_open_session (local_addr : Option IpAddr) :
    AdvanceAtOnce s (s.open_session ip peer_bgp_id peer_type caps local_addr) q := by
  apply AdvanceAtOnce.of_eq
  · exact AList.lookup_insert_ne hq
  · exact Iff.rfl
  · unfold ledger open_session
    simp only [HashMap.lookup_modify, if_neg hq]
    rfl
  · rfl
  · rfl

theorem atOnce_negotiate : AdvanceAtOnce s (s.negotiate ip caps) q :=
  .of_eq rfl (mem_flag_of_ne hq _) rfl rfl rfl

theorem atOnce_dump_v4 : AdvanceAtOnce s (s.dump_family_v4 ip) q := by
  have hl := s.ledger_dump_v4_of_ne hq
  obtain ⟨_, _, _, _, hf⟩ := s.dump_family_v4_frame ip
  rw [hf] at hl ⊢
  exact .of_eq rfl Iff.rfl hl rfl rfl

end

theorem atOnce_dump_v6 (s : DaemonState) (ip q : IpAddr) :
    AdvanceAtOnce s (s.dump_family_v6 ip) q := by
  obtain ⟨_, _, _, hf⟩ := (s.aside_dump_family_v6 ip).frame
  exact ⟨(s.aside_dump_family_v6 ip).advance q, by rw [hf], by rw [hf]⟩

/-- The rest of `on_established`, after the dumps. -/
theorem advance_after_dumps {s t : DaemonState} {q : IpAddr} (hv : s.StoresVerbatim q)
    (h : AdvanceAtOnce s t q) (ip : IpAddr) (caps : List Capability)
    (hd : ∀ n, (s.ledger q).Waits n → s.selection_deferral.v4_deferred = false) :
    Advance s (t.negotiate_gr ip caps).recompute_selection_deferral q :=
  (h.trans (.of_eq (t := t.negotiate_gr ip caps) rfl Iff.rfl rfl rfl rfl)).recompute hv hd

theorem advance_on_established_other {s : DaemonState} {q : IpAddr} (hq : q ≠ ip)
    (hv : s.StoresVerbatim q) (peer_bgp_id : Ipv4Addr) (peer_type : PeerType)
    (caps : List Capability) (local_addr : Option IpAddr)
    (hd : ∀ n, (s.ledger q).Waits n → s.selection_deferral.v4_deferred = false) :
    Advance s (s.on_established ip peer_bgp_id peer_type caps local_addr) q := by
  have hopen := s.atOnce_open_session hq peer_bgp_id peer_type caps local_addr
  unfold on_established
  dsimp only
  generalize s.open_session ip peer_bgp_id peer_type caps local_addr = t at hopen ⊢
  split
  · have hneg := hopen.trans (t.atOnce_negotiate hq caps)
    generalize t.negotiate ip caps = u at hneg ⊢
    refine advance_after_dumps hv (hneg.trans ?_) ip caps hd
    have hv4 : AdvanceAtOnce u
        (if u.selection_deferral.v4_deferred then u else u.dump_family_v4 ip) q := by
      split
      · exact .refl u q
      · exact u.atOnce_dump_v4 hq
    generalize (if u.selection_deferral.v4_deferred then u else u.dump_family_v4 ip) = w
      at hv4 ⊢
    split
    · exact hv4
    · exact hv4.trans (w.atOnce_dump_v6 ip q)
  · exact hopen.toAdvance

/-! ## The start of the peer's own session -/

/-- The state in which a session is open and nothing has been said yet. -/
def opened (s : DaemonState) (q : IpAddr) (info : SessionInfo) : DaemonState :=
  let t := s.open_session q info.peer_bgp_id info.peer_type info.peer_capabilities info.local_addr
  if q ∈ t.export_policies ∧ q ∈ t.adj_ribs_out ∧ q ∈ t.update_senders then
    t.negotiate q info.peer_capabilities
  else t

/-- A ledger at the start of a session. -/
structure Blank (l : Ledger) : Prop where
  made : l.made = []
  handed : l.handed = []
  waiting : ∀ p, about p l.waiting = []
  entry : ∀ p, l.entry p = none
  sent : ∀ tx, l.tx = some tx → tx.sent = []

section

variable (s : DaemonState) (q : IpAddr) (info : SessionInfo)

theorem opened_cases :
    ∃ four_byte ipv6, s.opened q info =
      { s.open_session q info.peer_bgp_id info.peer_type info.peer_capabilities
          info.local_addr with
        four_byte_peers := four_byte
        ipv6_capable_peers := ipv6 } := by
  unfold opened
  dsimp only
  split <;> exact ⟨_, _, rfl⟩

theorem blank_opened {s : DaemonState} {q : IpAddr} (hfree : ∀ n, ¬(s.ledger q).Waits n) :
    Blank ((s.opened q info).ledger q) := by
  obtain ⟨_, _, ho⟩ := s.opened_cases q info
  rw [ho]
  refine ⟨?_, ?_, fun p => ?_, fun p => ?_, ?_⟩
  · unfold Ledger.made ledger open_session
    simp only [HashMap.lookup_modify, if_true]
    cases s.adj_ribs_out.lookup q <;> rfl
  · unfold Ledger.handed ledger open_session
    simp only [HashMap.lookup_modify, if_true]
    cases s.update_senders.lookup q <;> rfl
  · exact not_not.1 (hfree p)
  · unfold Ledger.entry ledger open_session
    simp only [HashMap.lookup_modify, if_true]
    cases s.adj_ribs_out.lookup q <;> rfl
  · intro tx htx
    unfold ledger open_session at htx
    simp only [HashMap.lookup_modify, if_true] at htx
    obtain ⟨tx', -, rfl⟩ := Option.map_eq_some_iff.1 htx
    rfl

theorem storesVerbatim_opened : (s.opened q info).StoresVerbatim q := by
  obtain ⟨_, _, ho⟩ := s.opened_cases q info
  rw [ho]
  intro session hsess
  have htype : (s.opened q info).peer_type q = info.peer_type := by
    rw [ho]
    unfold DaemonState.peer_type open_session
    simp
  rw [ho] at htype
  rw [htype]
  unfold session_v4 open_session at hsess
  simp only [HashMap.lookup_modify, if_true] at hsess
  obtain ⟨out, hout, rfl⟩ := Option.map_eq_some_iff.1 hsess
  obtain ⟨_, -, rfl⟩ := Option.map_eq_some_iff.1 hout
  exact em (info.peer_type = .External)

theorem advance_opened {s : DaemonState} {q : IpAddr} (hfree : ∀ n, ¬(s.ledger q).Waits n) :
    Advance (s.opened q info) (s.on_established q info.peer_bgp_id info.peer_type
      info.peer_capabilities info.local_addr) q := by
  have hv := s.storesVerbatim_opened q info
  have hblank := blank_opened info hfree
  unfold opened on_established at *
  generalize s.open_session q info.peer_bgp_id info.peer_type info.peer_capabilities
    info.local_addr = t at hv hblank ⊢
  by_cases hconf : q ∈ t.export_policies ∧ q ∈ t.adj_ribs_out ∧ q ∈ t.update_senders
  · simp only [if_pos hconf] at hv hblank ⊢
    generalize t.negotiate q info.peer_capabilities = u at hv hblank ⊢
    have hnone : ∀ n, ¬(u.ledger q).Waits n := fun n hw => hw (hblank.waiting n)
    refine advance_after_dumps hv ?_ q info.peer_capabilities fun n hw => absurd hw (hnone n)
    have hv4 : AdvanceAtOnce u
        (if u.selection_deferral.v4_deferred then u else u.dump_family_v4 q) q := by
      split
      · exact .refl u q
      · obtain ⟨_, _, _, _, hf⟩ := u.dump_family_v4_frame q
        exact ⟨advance_dump_v4_self hv hnone, by rw [hf], by rw [hf]⟩
    generalize (if u.selection_deferral.v4_deferred then u else u.dump_family_v4 q) = w at hv4 ⊢
    split
    · exact hv4
    · exact hv4.trans (w.atOnce_dump_v6 q q)
  · simp only [if_neg hconf]
    exact .refl t q

end

/-! ## The established peers -/

theorem peer_types_on_route_update (s : DaemonState) (clk : Clock) (ip : IpAddr)
    (msg : UpdateMessage) : (s.on_route_update clk ip msg).1.rib.peer_types = s.rib.peer_types := by
  obtain ⟨_, _, h⟩ := s.standing_on_route_update clk ip msg
  exact congrArg Standing.up h

theorem peer_types_on_established (s : DaemonState) (ip : IpAddr) (peer_bgp_id : Ipv4Addr)
    (peer_type : PeerType) (caps : List Capability) (local_addr : Option IpAddr) :
    (s.on_established ip peer_bgp_id peer_type caps local_addr).rib.peer_types
      = s.rib.peer_types.insert ip peer_type := by
  obtain ⟨_, h, -⟩ := s.standing_on_established ip peer_bgp_id peer_type caps local_addr
  exact congrArg Standing.up h

/-! ## Any session event -/

/-- The event opens a session with the peer. -/
def Opens (s : DaemonState) (q peer_ip : IpAddr) : SessionEvent → Prop
  | .Established _ => peer_ip = q ∧ peer_ip ∉ s.max_prefix_idle
  | _ => False

/-- A peer that is established after an event that did not open its session was so before. -/
theorem lookup_peer_types_session_event {s : DaemonState} {q : IpAddr} (clk : Clock)
    (hopens : ¬s.Opens q ip e) (hq : q ∈ (s.on_session_event clk ip e).1.rib.peer_types) :
    (s.on_session_event clk ip e).1.rib.peer_types.lookup q = s.rib.peer_types.lookup q := by
  cases e with
  | Established info =>
    simp only [on_session_event]
    by_cases hidle : ip ∈ s.max_prefix_idle
    · rw [if_pos hidle]
    · have hne : q ≠ ip := fun heq => hopens ⟨heq.symm, hidle⟩
      rw [if_neg hidle, peer_types_on_established]
      exact AList.lookup_insert_ne hne
  | Terminated reason =>
    exact (s.up_handle_terminated clk ip reason q).trans
      (if_neg ((s.mem_up_handle_terminated ..).1 hq).1)
  | RouteUpdate msg =>
    exact congrArg (AList.lookup q) (s.peer_types_on_route_update clk ip msg)

/-- **A session event, for a peer whose session goes on.** -/
theorem advance_on_session_event {s : DaemonState} {q : IpAddr} (clk : Clock)
    (hopens : ¬s.Opens q ip e) (hv : s.StoresVerbatim q) (h : s.Undisturbed q ip e)
    (hq : q ∈ (s.on_session_event clk ip e).1.rib.peer_types) :
    Advance s (s.on_session_event clk ip e).1 q := by
  cases e with
  | Established info =>
    simp only [on_session_event]
    by_cases hidle : ip ∈ s.max_prefix_idle
    · rw [if_pos hidle]
      exact .refl s q
    · rw [if_neg hidle]
      have hne : q ≠ ip := fun heq => hopens ⟨heq.symm, hidle⟩
      apply advance_on_established_other hne hv
      intro n hw
      exact ((h n ((s.waits_iff q n).1 hw)).resolve_left hidle).2
  | Terminated reason =>
    exact advance_handle_terminated ((s.mem_up_handle_terminated ..).1 hq).1 hv clk h
  | RouteUpdate msg => exact advance_on_route_update hv clk h

end DaemonState

end Pathvector
