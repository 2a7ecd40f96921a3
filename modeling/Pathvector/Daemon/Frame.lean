/-
# What a call leaves alone

The daemon's methods write a few of the thirty-odd fields of its state. Each lemma here
names the fields one method may write: the state it leaves is the old one with some
values for those fields. Everything else is read off by `rfl`.
-/
import Pathvector.Daemon.EventLoop

set_option autoImplicit false

namespace Pathvector

namespace DaemonState

variable (s : DaemonState) (peer_ip ip : IpAddr) (clk : Clock) (nlris : List (Nlri Ipv4Addr))
  {s'' s' : DaemonState}

/-! ## Buffered propagation -/

/-- A state that differs from `s` in what buffered IPv4 propagation writes. -/
def BufferedFrame (s s' : DaemonState) : Prop :=
  ∃ out last_sent pending ds, s' =
    { s with
      adj_ribs_out := out
      mrai_last_sent := last_sent
      mrai_pending := pending
      pending_decisions := ds }

theorem BufferedFrame.refl : BufferedFrame s s := ⟨_, _, _, _, rfl⟩

theorem BufferedFrame.trans {s : DaemonState} (h : BufferedFrame s s') (h' : BufferedFrame s' s'') :
    BufferedFrame s s'' := by
  obtain ⟨_, _, _, _, rfl⟩ := h
  obtain ⟨_, _, _, _, rfl⟩ := h'
  exact ⟨_, _, _, _, rfl⟩

theorem apply_mrai_frame (now : ℕ) (ip : IpAddr) (ds : List (PrefixDecision Ipv4Addr)) :
    BufferedFrame s (s.apply_mrai now ip ds).1 := by
  unfold apply_mrai
  split
  · exact ⟨_, _, _, _, rfl⟩
  · exact .refl s

theorem buffer_v4_frame (ds : List (PrefixDecision Ipv4Addr)) :
    BufferedFrame s (s.buffer_v4 ip ds) :=
  ⟨_, _, _, _, rfl⟩

theorem propagate_step_frame (s : DaemonState) (ip : IpAddr) :
    BufferedFrame s (propagate_step clk nlris s ip) := by
  unfold propagate_step
  split
  · exact (BufferedFrame.trans ⟨_, _, _, _, rfl⟩ (apply_mrai_frame _ _ _ _)).trans
      (buffer_v4_frame _ _ _)
  · exact .refl s

theorem propagate_to_all_peers_frame : BufferedFrame s (s.propagate_to_all_peers clk nlris) :=
  List.foldl_invariant _ (BufferedFrame s) _ s (.refl s)
    fun s' ip _ h => h.trans (propagate_step_frame clk nlris s' ip)

theorem flush_mrai_pending_frame : BufferedFrame s (s.flush_mrai_pending clk) := by
  refine List.foldl_invariant _ (BufferedFrame s) _ s (.refl s) fun s' ip _ h => ?_
  refine h.trans ?_
  unfold flush_mrai_step
  split
  · exact .refl s'
  · dsimp only
    split
    · exact .refl s'
    · exact BufferedFrame.trans ⟨_, _, _, _, rfl⟩ (propagate_to_all_peers_frame _ clk _)

theorem propagate_to_all_peers_v6_frame (nlris : List (Nlri Ipv6Addr)) :
    ∃ out ds, s.propagate_to_all_peers_v6 nlris =
      { s with adj_ribs_out_v6 := out, pending_decisions_v6 := ds } := by
  refine List.foldl_invariant _ (fun s' => ∃ out ds, s' =
    { s with adj_ribs_out_v6 := out, pending_decisions_v6 := ds }) _ s ⟨_, _, rfl⟩ ?_
  rintro _ ip _ ⟨out, ds, rfl⟩
  unfold propagate_step_v6
  split
  · exact ⟨_, _, rfl⟩
  · exact ⟨_, _, rfl⟩

theorem flush_pending_frame :
    ∃ ds ds_v6 txs stalled, s.flush_pending =
      { s with
        pending_decisions := ds
        pending_decisions_v6 := ds_v6
        update_senders := txs
        stalled_peers := stalled } := by
  refine List.foldl_invariant _ (fun s' => ∃ ds ds_v6 txs stalled, s' =
    { s with
      pending_decisions := ds
      pending_decisions_v6 := ds_v6
      update_senders := txs
      stalled_peers := stalled }) _ s ⟨_, _, _, _, rfl⟩ ?_
  rintro _ ip _ ⟨ds, ds_v6, txs, stalled, rfl⟩
  unfold flush_pending_step
  dsimp only
  split <;> exact ⟨_, _, _, _, rfl⟩

/-! ## Direct propagation -/

/-- A state that differs from `s` in what the direct path and the table dumps write. -/
def DirectFrame (s s' : DaemonState) : Prop :=
  ∃ out out_v6 txs stalled, s' =
    { s with
      adj_ribs_out := out
      adj_ribs_out_v6 := out_v6
      update_senders := txs
      stalled_peers := stalled }

theorem DirectFrame.refl : DirectFrame s s := ⟨_, _, _, _, rfl⟩

theorem DirectFrame.trans {s : DaemonState} (h : DirectFrame s s') (h' : DirectFrame s' s'') :
    DirectFrame s s'' := by
  obtain ⟨_, _, _, _, rfl⟩ := h
  obtain ⟨_, _, _, _, rfl⟩ := h'
  exact ⟨_, _, _, _, rfl⟩

theorem DirectFrame.foldl {I : Type} {f : DaemonState → I → DaemonState}
    (hf : ∀ s i, DirectFrame s (f s i)) (l : List I) (s : DaemonState) :
    DirectFrame s (l.foldl f s) :=
  List.foldl_invariant f (DirectFrame s) l s (.refl s) fun s' i _ h => h.trans (hf s' i)

theorem direct_v4_frame (next_hop : DaemonState → IpAddr → Ipv4Addr) (s : DaemonState)
    (ip : IpAddr) : DirectFrame s (direct_v4 nlris next_hop s ip) := by
  unfold direct_v4
  split
  · exact ⟨_, _, _, _, rfl⟩
  · exact .refl s

theorem direct_v6_frame (nlris : List (Nlri Ipv6Addr)) (s : DaemonState) (ip : IpAddr) :
    DirectFrame s (direct_v6 nlris s ip) := by
  unfold direct_v6
  split
  · split
    · exact ⟨_, _, _, _, rfl⟩
    · exact .refl s
  · exact .refl s

/-- The IPv4 loop leaves the IPv6 Adj-RIBs-Out alone. -/
theorem direct_others_v4_eq : ∃ out txs stalled, s.direct_others_v4 ip nlris =
    { s with adj_ribs_out := out, update_senders := txs, stalled_peers := stalled } := by
  refine List.foldl_invariant _ (fun s' => ∃ out txs stalled, s' =
    { s with adj_ribs_out := out, update_senders := txs, stalled_peers := stalled }) _ s
    ⟨_, _, _, rfl⟩ ?_
  rintro _ q _ ⟨_, _, _, rfl⟩
  unfold direct_v4
  split <;> exact ⟨_, _, _, rfl⟩

theorem direct_others_v4_frame : DirectFrame s (s.direct_others_v4 ip nlris) :=
  .foldl (direct_v4_frame nlris local_next_hop) _ s

theorem direct_others_v6_frame (nlris : List (Nlri Ipv6Addr)) :
    DirectFrame s (s.direct_others_v6 ip nlris) :=
  .foldl (direct_v6_frame nlris) _ s

theorem dump_family_v4_frame : DirectFrame s (s.dump_family_v4 ip) := by
  unfold dump_family_v4
  split
  · exact ⟨_, _, _, _, rfl⟩
  · exact .refl s

theorem dump_family_v6_frame : DirectFrame s (s.dump_family_v6 ip) := by
  unfold dump_family_v6
  split
  · split
    · split
      · exact ⟨_, _, _, _, rfl⟩
      · split
        · exact ⟨_, _, _, _, rfl⟩
        · exact .refl s
    · exact .refl s
  · exact .refl s

theorem catch_up_released_families_frame (v4 v6 : Bool) :
    DirectFrame s (s.catch_up_released_families v4 v6) := by
  have hv4 : DirectFrame s (if v4 then s.rib.peer_types.keys.foldl dump_family_v4 s else s) := by
    split
    · exact .foldl dump_family_v4_frame _ s
    · exact .refl s
  unfold catch_up_released_families
  refine hv4.trans ?_
  by_cases hv6 : v6 = true
  · rw [if_pos hv6]
    exact .foldl dump_family_v6_frame _ _
  · rw [if_neg hv6]
    exact .refl _

theorem recompute_selection_deferral_frame :
    ∃ d, DirectFrame { s with selection_deferral := d } s.recompute_selection_deferral :=
  ⟨_, catch_up_released_families_frame _ _ _⟩

/-! ## Route updates -/

/-- What `on_route_update` does after the import stays away from the tables the import
wrote. -/
theorem publish_update_frame (msg : UpdateMessage) (u : PendingUpdate) :
    ∃ out out_v6 last_sent pending ds ds_v6 events fib, s.publish_update clk msg u =
      { s with
        adj_ribs_out := out
        adj_ribs_out_v6 := out_v6
        mrai_last_sent := last_sent
        mrai_pending := pending
        pending_decisions := ds
        pending_decisions_v6 := ds_v6
        route_tx := events
        fib_manager := fib } := by
  unfold publish_update
  dsimp only
  obtain ⟨_, _, _, _, hp⟩ :=
    propagate_to_all_peers_frame (s.fib_apply (s.update_calls u)) clk msg.affected
  rw [hp]
  split
  · exact ⟨_, _, _, _, _, _, _, _, rfl⟩
  · obtain ⟨_, _, hp6⟩ := propagate_to_all_peers_v6_frame _ msg.affected_v6
    rw [hp6]
    exact ⟨_, _, _, _, _, _, _, _, rfl⟩

/-! ## The loss of a session -/

/-- The first half of `terminate_now` and of `on_gr_deadline_expired`: a peer's routes leave
every table. -/
def lose_routes (s : DaemonState) (peer_ip : IpAddr) : DaemonState :=
  (((s.clear_adj_rib_in_v4 peer_ip).clear_adj_rib_in_v6 peer_ip).rib_withdraw_peer
    peer_ip).reset_adj_ribs_out peer_ip

theorem terminate_now_eq :
    s.terminate_now ip
      = ((s.lose_routes ip).direct_others_v4 ip s.best_prefixes_v4).emit_route_events
        s.best_prefixes_v4 :=
  rfl

/-- The stale sets of a peer are dropped. -/
def forget_stale (s : DaemonState) (peer_ip : IpAddr) : DaemonState :=
  { s with
    gr := { s.gr with
      stale_nlri := s.gr.stale_nlri.erase peer_ip
      stale_nlri_v6 := s.gr.stale_nlri_v6.erase peer_ip } }

theorem on_gr_deadline_expired_eq :
    s.on_gr_deadline_expired ip
      = ((((s.forget_stale ip).lose_routes ip).direct_others_v4 ip
          (s.forget_stale ip).best_prefixes_v4).direct_others_v6 ip
          (s.forget_stale ip).best_prefixes_v6).emit_route_events s.best_prefixes_v4 :=
  rfl

/-! ## End-of-RIB markers -/

/-- The prefixes of a peer that are stale and that its End-of-RIB marker withdraws. -/
def stale_prefixes (s : DaemonState) (peer_ip : IpAddr) : List (Nlri Ipv4Addr) :=
  ((s.gr.stale_nlri.lookup peer_ip).getD ∅).keys

def stale_prefixes_v6 (s : DaemonState) (peer_ip : IpAddr) : List (Nlri Ipv6Addr) :=
  ((s.gr.stale_nlri_v6.lookup peer_ip).getD ∅).keys

/-- The state with the marker noted. -/
def eor_noted_v4 (s : DaemonState) (peer_ip : IpAddr) : DaemonState :=
  { s with
    rib := { s.rib with eor_received := s.rib.eor_received.add peer_ip }
    gr := { s.gr with stale_nlri := s.gr.stale_nlri.erase peer_ip } }

def eor_noted_v6 (s : DaemonState) (peer_ip : IpAddr) : DaemonState :=
  { s with
    rib := { s.rib with eor_received_v6 := s.rib.eor_received_v6.add peer_ip }
    gr := { s.gr with stale_nlri_v6 := s.gr.stale_nlri_v6.erase peer_ip } }

end DaemonState

end Pathvector
