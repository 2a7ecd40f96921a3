/-
# The standing of the peers

Who is configured, who is up, who waits for removal, who is in a restart window: what the daemon
keeps about its peers, apart from their routes. The methods that move routes around leave all of
it alone. Each lemma here says so of one method, and with them `simp` sees through their calls;
what is left to say about an event is what it does to the standing itself.
-/
import Pathvector.Daemon.Frame

set_option autoImplicit false

namespace Pathvector

/-- What the daemon keeps about its peers, apart from their routes. -/
structure Standing where
  configured : IpAddr → Prop
  pending_removal : HashSet IpAddr
  rr_clients : HashSet IpAddr
  up : HashMap IpAddr PeerType
  deadlines : HashMap IpAddr ℕ
  families : HashMap IpAddr (List GracefulRestartFamily)
  eor : HashSet IpAddr
  eor_v6 : HashSet IpAddr

namespace DaemonState

def standing (s : DaemonState) : Standing where
  configured := fun ip => ip ∈ s.adj_ribs_in
  pending_removal := s.pending_removal
  rr_clients := s.rib.rr_clients
  up := s.rib.peer_types
  deadlines := s.gr.deadlines
  families := s.gr.peer_families
  eor := s.rib.eor_received
  eor_v6 := s.rib.eor_received_v6

theorem mem_modify {V : Type} (m : HashMap IpAddr V) (k ip : IpAddr) (f : V → V) :
    ip ∈ m.modify k f ↔ ip ∈ m := by
  rw [← AList.lookup_isSome, ← AList.lookup_isSome, HashMap.lookup_modify]
  split
  · rename_i h
    rw [h, Option.isSome_map]
  · exact Iff.rfl

variable (s : DaemonState) (clk : Clock) (peer_ip ip : IpAddr)

@[simp]
theorem standing_modify (f : AdjRibIn Ipv4Addr → AdjRibIn Ipv4Addr) :
    standing { s with adj_ribs_in := s.adj_ribs_in.modify ip f } = s.standing := by
  simp only [standing, mem_modify]

theorem standing_foldl {I : Type} {f : DaemonState → I → DaemonState}
    (hf : ∀ s i, (f s i).standing = s.standing) (l : List I) :
    (l.foldl f s).standing = s.standing :=
  List.foldl_invariant f (fun t => t.standing = s.standing) l s rfl
    fun t i _ ht => (hf t i).trans ht

/-! ## Propagation -/

theorem BufferedFrame.standing {s s' : DaemonState} (h : BufferedFrame s s') :
    s'.standing = s.standing := by
  obtain ⟨_, _, _, _, rfl⟩ := h
  rfl

theorem DirectFrame.standing {s s' : DaemonState} (h : DirectFrame s s') :
    s'.standing = s.standing := by
  obtain ⟨_, _, _, _, rfl⟩ := h
  rfl

@[simp]
theorem standing_propagate (nlris : List (Nlri Ipv4Addr)) :
    (s.propagate_to_all_peers clk nlris).standing = s.standing :=
  (s.propagate_to_all_peers_frame clk nlris).standing

@[simp]
theorem standing_propagate_v6 (nlris : List (Nlri Ipv6Addr)) :
    (s.propagate_to_all_peers_v6 nlris).standing = s.standing := by
  obtain ⟨_, _, h⟩ := s.propagate_to_all_peers_v6_frame nlris
  rw [h]
  rfl

@[simp]
theorem standing_flush_pending : s.flush_pending.standing = s.standing := by
  obtain ⟨_, _, _, _, h⟩ := s.flush_pending_frame
  rw [h]
  rfl

@[simp]
theorem standing_direct_others_v4 (nlris : List (Nlri Ipv4Addr)) :
    (s.direct_others_v4 ip nlris).standing = s.standing :=
  (s.direct_others_v4_frame ip nlris).standing

@[simp]
theorem standing_direct_others_v6 (nlris : List (Nlri Ipv6Addr)) :
    (s.direct_others_v6 ip nlris).standing = s.standing :=
  (s.direct_others_v6_frame ip nlris).standing

@[simp]
theorem standing_dump_family_v4 : (s.dump_family_v4 ip).standing = s.standing :=
  (s.dump_family_v4_frame ip).standing

@[simp]
theorem standing_dump_family_v6 : (s.dump_family_v6 ip).standing = s.standing :=
  (s.dump_family_v6_frame ip).standing

@[simp]
theorem standing_catch_up (v4 v6 : Bool) :
    (s.catch_up_released_families v4 v6).standing = s.standing :=
  (s.catch_up_released_families_frame v4 v6).standing

@[simp]
theorem standing_recompute_selection_deferral :
    s.recompute_selection_deferral.standing = s.standing := by
  obtain ⟨_, h⟩ := s.recompute_selection_deferral_frame
  exact h.standing

@[simp]
theorem standing_emit_route_events (nlris : List (Nlri Ipv4Addr)) :
    (s.emit_route_events nlris).standing = s.standing := rfl

/-! ## Graceful Restart -/

@[simp]
theorem standing_prune_stale_nlri (stale : List (Nlri Ipv4Addr)) :
    (s.prune_stale_nlri ip stale).standing = s.standing := by
  simp only [prune_stale_nlri, standing_emit_route_events, standing_direct_others_v4]
  exact s.standing_modify ip _

@[simp]
theorem standing_prune_stale_nlri_v6 (stale : List (Nlri Ipv6Addr)) :
    (s.prune_stale_nlri_v6 ip stale).standing = s.standing := by
  simp only [prune_stale_nlri_v6, standing_direct_others_v6]
  rfl

@[simp]
theorem standing_mark_stale_v4 : (s.mark_stale_v4 ip).standing = s.standing := by
  unfold mark_stale_v4
  dsimp only
  split
  · exact s.standing_modify ip _
  · rw [standing_emit_route_events, standing_direct_others_v4]
    exact s.standing_modify ip _

@[simp]
theorem standing_mark_stale_v6 : (s.mark_stale_v6 ip).standing = s.standing := by
  unfold mark_stale_v6
  dsimp only
  split
  · rfl
  · rw [standing_direct_others_v6]
    rfl

@[simp]
theorem standing_mark_stale (do_v4 do_v6 : Bool) :
    (s.mark_stale_and_repropagate ip do_v4 do_v6).standing = s.standing := by
  cases do_v4 <;> cases do_v6 <;> simp [mark_stale_and_repropagate]

@[simp]
theorem standing_lose_routes : (s.lose_routes ip).standing = s.standing :=
  s.standing_modify ip _

@[simp]
theorem standing_terminate_now : (s.terminate_now ip).standing = s.standing := by
  rw [terminate_now_eq]
  simp

@[simp]
theorem standing_on_gr_deadline_expired : (s.on_gr_deadline_expired ip).standing = s.standing := by
  rw [on_gr_deadline_expired_eq]
  simp only [standing_emit_route_events, standing_direct_others_v6, standing_direct_others_v4,
    standing_lose_routes]
  rfl

theorem standing_terminate_gr (restart_time : ℕ) :
    (s.terminate_gr clk ip restart_time).standing
      = { s.standing with
          deadlines := s.gr.deadlines.insert ip (clk.instant + restart_time * 1000) } := by
  have hclear : (s.clear_adj_rib_in_v4 ip).standing = s.standing := s.standing_modify ip _
  have hcleared := congrArg Standing.configured hclear
  unfold terminate_gr
  rw [standing_mark_stale]
  cases covers (s.gr.peer_families.lookup ip) .IPV4_UNICAST <;>
    cases covers (s.gr.peer_families.lookup ip) .IPV6_UNICAST
  all_goals
    unfold standing
    congr 1

/-! ## Sessions -/

theorem standing_on_terminated (reason : TerminationReason) :
    (s.on_terminated clk ip reason).standing
      = { (s.close_session ip).standing with
          deadlines := if s.enter_gr ip reason then s.gr.deadlines.insert ip
            (clk.instant + s.gr_restart_time ip * 1000) else s.gr.deadlines } := by
  unfold on_terminated
  split
  · exact standing_terminate_gr ..
  · exact standing_terminate_now ..

theorem configured_on_terminated (reason : TerminationReason) (ip : IpAddr) :
    ip ∈ (s.on_terminated clk peer_ip reason).adj_ribs_in ↔ ip ∈ s.adj_ribs_in :=
  iff_of_eq (congrFun (congrArg Standing.configured
    (s.standing_on_terminated clk peer_ip reason)) ip)

theorem standing_on_established (peer_bgp_id : Ipv4Addr) (peer_type : PeerType)
    (caps : List Capability) (local_addr : Option IpAddr) :
    ∃ families, (s.on_established ip peer_bgp_id peer_type caps local_addr).standing
        = { (s.open_session ip peer_bgp_id peer_type caps local_addr).standing with
            families := families } ∧
      ∀ q ≠ ip, families.lookup q = s.gr.peer_families.lookup q := by
  unfold on_established
  dsimp only
  split
  · let listed := (extract_gr_capability caps).restart_time.map
      fun _ => (extract_gr_capability caps).families
    refine ⟨s.gr.peer_families.put ip listed, ?_,
      fun q hq => (HashMap.lookup_put ..).trans (if_neg hq)⟩
    have hv4 : ∀ t : DaemonState, (if t.selection_deferral.v4_deferred = true then t
        else t.dump_family_v4 ip).standing = t.standing := by
      intro t
      split <;> simp
    have hv6 : ∀ t : DaemonState, (if t.selection_deferral.v6_deferred = true then t
        else t.dump_family_v6 ip).standing = t.standing := by
      intro t
      split <;> simp
    have hgr : ∀ t : DaemonState, (t.negotiate_gr ip caps).standing
        = { t.standing with families := t.standing.families.put ip listed } := fun _ => rfl
    rw [standing_recompute_selection_deferral, hgr, hv6, hv4]
    rfl
  · exact ⟨s.gr.peer_families, rfl, fun _ _ => rfl⟩

/-! ## Messages -/

theorem standing_on_eor_v4 :
    (s.on_eor_v4 ip).standing = { s.standing with eor := s.rib.eor_received.add ip } := by
  unfold on_eor_v4
  rw [standing_recompute_selection_deferral]
  split
  · rfl
  · rw [standing_prune_stale_nlri]
    rfl

theorem standing_on_eor_v6 :
    (s.on_eor_v6 ip).standing = { s.standing with eor_v6 := s.rib.eor_received_v6.add ip } := by
  unfold on_eor_v6
  rw [standing_recompute_selection_deferral]
  split
  · rfl
  · rw [standing_prune_stale_nlri_v6]
    rfl

variable {s clk peer_ip ip} in
theorem configured_of_handled {msg : UpdateMessage} {u : PendingUpdate}
    (h : s.handled clk ip msg = some u) : ip ∈ s.adj_ribs_in := by
  unfold handled at h
  split at h
  · rename_i hin
    exact HashMap.mem_of_lookup hin
  · cases h

@[simp]
theorem standing_on_update_message (msg : UpdateMessage) :
    (s.on_update_message clk peer_ip msg).1.standing = s.standing := by
  unfold on_update_message
  split
  · rfl
  · rename_i u hu
    have himported : (s.imported peer_ip msg u).standing = s.standing := by
      have hin : ∀ ip, ip ∈ (s.imported peer_ip msg u).adj_ribs_in ↔ ip ∈ s.adj_ribs_in := fun ip =>
        (AList.mem_insert s.adj_ribs_in).trans
          (or_iff_right_of_imp fun heq => heq ▸ configured_of_handled hu)
      simp only [standing, hin]
      rfl
    dsimp only
    rw [← himported]
    split
    · unfold idle_hold
      split <;> rfl
    · obtain ⟨_, _, _, _, _, _, _, _, h⟩ :=
        (s.imported peer_ip msg u).publish_update_frame clk msg u
      rw [h]
      rfl

theorem standing_on_route_update (msg : UpdateMessage) :
    ∃ eor eor_v6, (s.on_route_update clk ip msg).1.standing
      = { s.standing with eor := eor, eor_v6 := eor_v6 } := by
  unfold on_route_update
  split
  · exact ⟨_, _, s.standing_on_eor_v4 ip⟩
  · split
    · exact ⟨_, _, s.standing_on_eor_v6 ip⟩
    · split
      · exact ⟨_, _, rfl⟩
      · exact ⟨_, _, s.standing_on_update_message clk ip _⟩

/-! ## The other events -/

@[simp]
theorem standing_reevaluate_import :
    (s.reevaluate_import_for_peer clk ip).standing = s.standing := by
  unfold reevaluate_import_for_peer
  split
  · rw [standing_propagate_v6]
    exact standing_propagate ..
  · rfl

theorem standing_on_fib_change : (s.on_fib_change clk).standing = s.standing := by
  unfold on_fib_change
  have hv4 : ∀ (t : DaemonState) (nlris : List (Nlri Ipv4Addr)), (if nlris.isEmpty then t
      else (t.propagate_to_all_peers clk nlris).emit_route_events nlris).standing = t.standing := by
    intro t nlris
    split <;> simp
  have hv6 : ∀ (t : DaemonState) (nlris : List (Nlri Ipv6Addr)), (if nlris.isEmpty then t
      else t.propagate_to_all_peers_v6 nlris).standing = t.standing := by
    intro t nlris
    split <;> simp
  rw [hv6, hv4]
  rfl

theorem standing_set_export_default (action : DefaultAction) :
    (s.set_export_default ip action).standing = s.standing := by
  unfold set_export_default
  split
  · dsimp only
    split
    · exact (direct_v6_frame _ _ ip).standing.trans (direct_v4_frame _ _ _ ip).standing
    · rfl
  · rfl

end DaemonState

/-- The event is about routes, not about peers. -/
def Event.about_routes : Event → Bool
  | .Session _ _ (.Established _) | .Session _ _ (.Terminated _) | .GrDeadlines _ | .AddPeer _ _
  | .RemovePeer _ => false
  | _ => true

namespace DaemonState

/-- **An event about routes leaves the standing of the peers alone**, the markers apart. -/
theorem standing_step (s : DaemonState) {e : Event} (he : e.about_routes = true) :
    ∃ eor eor_v6, (s.step e).standing = { s.standing with eor := eor, eor_v6 := eor_v6 } := by
  have hkept : (s.step e).standing = s.standing →
      ∃ eor eor_v6, (s.step e).standing = { s.standing with eor := eor, eor_v6 := eor_v6 } :=
    fun h => ⟨_, _, h⟩
  cases e with
  | Session clk p event =>
    cases event with
    | Established info => cases he
    | Terminated reason => cases he
    | RouteUpdate msg => exact standing_on_route_update s clk p msg
  | GrDeadlines clk => cases he
  | AddPeer peer tx => cases he
  | RemovePeer p => cases he
  | FlushPending => exact hkept s.standing_flush_pending
  | FlushMraiPending clk => exact hkept (flush_mrai_pending_frame s clk).standing
  | FibChange clk => exact hkept (s.standing_on_fib_change clk)
  | DeferralDeadline => exact hkept (standing_catch_up _ _ _)
  | SetImportDefault clk p action =>
    refine hkept ?_
    change (s.set_import_default clk p action).standing = _
    unfold set_import_default
    split
    · simp only [standing_flush_pending, standing_reevaluate_import]
      rfl
    · rfl
  | SetExportDefault p action => exact hkept (s.standing_set_export_default p action)
  | ReevaluateImport clk =>
    exact hkept ((standing_flush_pending _).trans
      (s.standing_foldl (fun t ip => t.standing_reevaluate_import clk ip) _))
  | OriginateRoutes clk routes =>
    refine hkept ((standing_flush_pending _).trans ((standing_propagate ..).trans ?_))
    exact s.standing_foldl (f := originate_step) (fun _ _ => rfl) routes
  | OriginateRoutesV6 routes =>
    refine hkept ((standing_flush_pending _).trans ((standing_propagate_v6 ..).trans ?_))
    exact s.standing_foldl (f := originate_step_v6) (fun _ _ => rfl) routes
  | WithdrawOriginated clk nlris =>
    refine hkept ((standing_flush_pending _).trans ((standing_propagate ..).trans ?_))
    exact s.standing_foldl (f := withdraw_originated_step) (fun _ _ => rfl) nlris
  | WithdrawOriginatedV6 nlris =>
    refine hkept ((standing_flush_pending _).trans ((standing_propagate_v6 ..).trans ?_))
    exact s.standing_foldl (f := withdraw_originated_step_v6) (fun _ _ => rfl) nlris
  | TakeStalledPeers | IdleExpiry _ | SetOracles _ _ | SetFibManager | SetDeferral _ | InstallRpki
  | RpkiAnswers _ _ | ChannelDrained _ _ => exact hkept rfl

theorem standing_on_gr_deadlines (s : DaemonState) (clk : Clock) :
    (s.on_gr_deadlines clk).standing
      = { s.standing with deadlines := (s.drain_expired clk.instant).1.gr.deadlines } :=
  standing_foldl _ (fun t ip => t.standing_on_gr_deadline_expired ip) _

end DaemonState

end Pathvector
