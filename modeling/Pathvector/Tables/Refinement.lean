/-
# What an event does to the tables

The daemon's two families are two copies of `Tables`: `tables_v4` and `tables_v6` read them off
the state. `moves_v4` and `moves_v6` say which moves an event comes to, and `tables_step` that a
step of the daemon makes these moves and no others. So what every move keeps, the daemon keeps.
-/
import Pathvector.Inbound.Reception
import Pathvector.Tables.Moves

set_option autoImplicit false

namespace Pathvector

/-- The call as one about IPv4. -/
def FibCall.v4? : FibCall → Option (TableCall Ipv4Addr)
  | .apply_v4 change => some (.Apply change)
  | .apply_blackhole_v4 nlri => some (.ApplyBlackhole nlri)
  | .withdraw_blackhole_v4 nlri => some (.WithdrawBlackhole nlri)
  | _ => none

/-- The call as one about IPv6. -/
def FibCall.v6? : FibCall → Option (TableCall Ipv6Addr)
  | .apply_v6 change => some (.Apply change)
  | .apply_blackhole_v6 nlri => some (.ApplyBlackhole nlri)
  | .withdraw_blackhole_v6 nlri => some (.WithdrawBlackhole nlri)
  | _ => none

namespace DaemonState

variable (s : DaemonState) (clk : Clock) (peer_ip ip : IpAddr) (msg : UpdateMessage)
  {s' t u : DaemonState} {A I : Type} {v4 : List (Move Ipv4Addr)} {v6 : List (Move Ipv6Addr)}

/-- The IPv4 tables. -/
def tables_v4 : Tables Ipv4Addr where
  adj_ribs_in := s.adj_ribs_in
  loc_rib := s.rib.loc_rib
  stale := s.gr.stale_nlri
  oracle := s.oracle_v4
  calls := s.fib_manager.map (·.filterMap FibCall.v4?)

def tables_v6 : Tables Ipv6Addr where
  adj_ribs_in := s.adj_ribs_in_v6
  loc_rib := s.rib.loc_rib_v6
  stale := s.gr.stale_nlri_v6
  oracle := s.oracle_v6
  calls := s.fib_manager.map (·.filterMap FibCall.v6?)

/-- From the one state to the other the tables make these moves. -/
def Moved (s' : DaemonState) (v4 : List (Move Ipv4Addr)) (v6 : List (Move Ipv6Addr)) : Prop :=
  s'.tables_v4 = s.tables_v4.moves v4 ∧ s'.tables_v6 = s.tables_v6.moves v6

theorem Moved.refl : Moved s s [] [] := ⟨rfl, rfl⟩

theorem Moved.trans {s : DaemonState} {w4 : List (Move Ipv4Addr)} {w6 : List (Move Ipv6Addr)}
    (h : Moved s t v4 v6) (h' : Moved t u w4 w6) : Moved s u (v4 ++ w4) (v6 ++ w6) := by
  constructor
  · rw [h'.1, h.1, Tables.moves_append]
  · rw [h'.2, h.2, Tables.moves_append]

theorem Moved.still {s : DaemonState} (h : Moved s t v4 v6) (h' : Moved t u [] []) :
    Moved s u v4 v6 := by
  have h := h.trans h'
  rwa [List.append_nil, List.append_nil] at h

theorem Moved.foldl {f : DaemonState → I → DaemonState} (v4 : I → List (Move Ipv4Addr))
    (v6 : I → List (Move Ipv6Addr)) (P : DaemonState → Prop) (hP : ∀ s i, P s → P (f s i))
    (hf : ∀ s i, P s → Moved s (f s i) (v4 i) (v6 i)) (l : List I) (s : DaemonState) (hs : P s) :
    Moved s (l.foldl f s) (l.flatMap v4) (l.flatMap v6) := by
  induction l generalizing s with
  | nil => exact .refl s
  | cons i l ih => exact (hf s i hs).trans (ih (f s i) (hP s i hs))

/-! ## What stays away from the tables -/

theorem BufferedFrame.moved {s : DaemonState} (h : BufferedFrame s s') : Moved s s' [] [] := by
  obtain ⟨_, _, _, _, rfl⟩ := h
  exact .refl s

theorem DirectFrame.moved {s : DaemonState} (h : DirectFrame s s') : Moved s s' [] [] := by
  obtain ⟨_, _, _, _, rfl⟩ := h
  exact .refl s

theorem moved_propagate_v6 (nlris : List (Nlri Ipv6Addr)) :
    Moved s (s.propagate_to_all_peers_v6 nlris) [] [] := by
  obtain ⟨_, _, h⟩ := s.propagate_to_all_peers_v6_frame nlris
  rw [h]
  exact .refl s

theorem moved_flush_pending : Moved s s.flush_pending [] [] := by
  obtain ⟨_, _, _, _, h⟩ := s.flush_pending_frame
  rw [h]
  exact .refl s

theorem moved_recompute_selection_deferral : Moved s s.recompute_selection_deferral [] [] := by
  obtain ⟨_, _, _, _, _, h⟩ := s.recompute_selection_deferral_frame
  rw [h]
  exact .refl s

/-! ## Calls to the kernel layer -/

theorem tables_v4_fib_apply (calls : List FibCall) :
    (s.fib_apply calls).tables_v4 = s.tables_v4.tell (calls.filterMap FibCall.v4?) := by
  unfold fib_apply tables_v4 Tables.tell
  cases s.fib_manager <;> simp

theorem tables_v6_fib_apply (calls : List FibCall) :
    (s.fib_apply calls).tables_v6 = s.tables_v6.tell (calls.filterMap FibCall.v6?) := by
  unfold fib_apply tables_v6 Tables.tell
  cases s.fib_manager <;> simp

/-! ## The methods of the daemon -/

/-- A batch of changes to the IPv4 Loc-RIB that the kernel layer is told about. -/
theorem moved_batch_v4 (r : LocRib Ipv4Addr × List (BestPathChange Ipv4Addr)) :
    ((s.set_loc_rib r.1).fib_apply (r.2.map .apply_v4)).tables_v4
        = { s.tables_v4 with loc_rib := r.1 }.tell (r.2.map .Apply) ∧
      ((s.set_loc_rib r.1).fib_apply (r.2.map .apply_v4)).tables_v6 = s.tables_v6 := by
  rw [tables_v4_fib_apply, tables_v6_fib_apply]
  constructor
  · simp [FibCall.v4?, Function.comp_def]
    rfl
  · simp [FibCall.v6?, Function.comp_def, Tables.tell_nil]
    rfl

theorem moved_batch_v6 (r : LocRib Ipv6Addr × List (BestPathChange Ipv6Addr)) :
    ((s.set_loc_rib_v6 r.1).fib_apply (r.2.map .apply_v6)).tables_v4 = s.tables_v4 ∧
      ((s.set_loc_rib_v6 r.1).fib_apply (r.2.map .apply_v6)).tables_v6
        = { s.tables_v6 with loc_rib := r.1 }.tell (r.2.map .Apply) := by
  rw [tables_v4_fib_apply, tables_v6_fib_apply]
  constructor
  · simp [FibCall.v4?, Function.comp_def, Tables.tell_nil]
    rfl
  · simp [FibCall.v6?, Function.comp_def]
    rfl

theorem moved_clear_v4 : Moved s (s.clear_adj_rib_in_v4 ip) [.Clear ip] [] := by
  have h4 := tables_v4_fib_apply s (s.blackhole_calls_v4 ip)
  have h6 := tables_v6_fib_apply s (s.blackhole_calls_v4 ip)
  constructor
  · change { (s.fib_apply (s.blackhole_calls_v4 ip)).tables_v4 with
      adj_ribs_in := s.adj_ribs_in.modify ip AdjRibIn.clear } = _
    rw [h4]
    unfold blackhole_calls_v4 Tables.moves Tables.move Tables.announced tables_v4 stale_routes
    dsimp only [List.foldl_cons, List.foldl_nil]
    cases s.adj_ribs_in.lookup ip <;> simp [FibCall.v4?, Function.comp_def] <;> rfl
  · refine h6.trans ?_
    unfold blackhole_calls_v4
    cases s.adj_ribs_in.lookup ip <;>
      simp [FibCall.v6?, Function.comp_def, Tables.tell_nil, Tables.moves]

theorem moved_clear_v6 : Moved s (s.clear_adj_rib_in_v6 ip) [] [.Clear ip] := by
  have h4 := tables_v4_fib_apply s (s.blackhole_calls_v6 ip)
  have h6 := tables_v6_fib_apply s (s.blackhole_calls_v6 ip)
  constructor
  · refine h4.trans ?_
    unfold blackhole_calls_v6
    cases s.adj_ribs_in_v6.lookup ip <;>
      simp [FibCall.v4?, Function.comp_def, Tables.tell_nil, Tables.moves]
  · change { (s.fib_apply (s.blackhole_calls_v6 ip)).tables_v6 with
      adj_ribs_in := s.adj_ribs_in_v6.modify ip AdjRibIn.clear } = _
    rw [h6]
    unfold blackhole_calls_v6 Tables.moves Tables.move Tables.announced tables_v6 stale_routes
    dsimp only [List.foldl_cons, List.foldl_nil]
    cases s.adj_ribs_in_v6.lookup ip <;> simp [FibCall.v6?, Function.comp_def] <;> rfl

theorem moved_rib_withdraw_peer : Moved s (s.rib_withdraw_peer ip) [.Leave ip] [.Leave ip] := by
  unfold rib_withdraw_peer
  rw [LocRib.withdraw_peer_eq, LocRib.withdraw_peer_eq]
  constructor
  · rw [tables_v4_fib_apply]
    simp [FibCall.v4?, Function.comp_def]
    rfl
  · rw [tables_v6_fib_apply]
    simp [FibCall.v6?, Function.comp_def]
    rfl

theorem moved_lose_routes :
    Moved s (s.lose_routes ip) [.Clear ip, .Leave ip] [.Clear ip, .Leave ip] :=
  (((moved_clear_v4 s ip).trans (moved_clear_v6 _ ip)).trans
    (moved_rib_withdraw_peer _ ip)).still (.refl _)

theorem moved_terminate_now :
    Moved s (s.terminate_now ip) [.Clear ip, .Leave ip] [.Clear ip, .Leave ip] := by
  exact ((moved_lose_routes s ip).still (direct_others_v4_frame _ ip _).moved).still (.refl _)

theorem moved_on_gr_deadline_expired :
    Moved s (s.on_gr_deadline_expired ip) [.DropStale ip, .Clear ip, .Leave ip]
      [.DropStale ip, .Clear ip, .Leave ip] := by
  have hforget : Moved s (s.forget_stale ip) [.DropStale ip] [.DropStale ip] :=
    ⟨rfl, rfl⟩
  exact (((hforget.trans (moved_lose_routes _ ip)).still
    (direct_others_v4_frame _ ip _).moved).still
      (direct_others_v6_frame _ ip _).moved).still (.refl _)

/-! ### Helper mode -/

section

variable (reason : TerminationReason) (family : AfiSafi)

theorem insert_fold_eq [IpAddress A] [DecidableEq A] (rib : LocRib A) (peer : PeerId)
    (oracle : NextHopOracle) (l : List (Route A)) :
    l.foldl (LocRib.insert_step peer oracle) (rib, []) = rib.run_ops peer oracle (l.map .Put) := by
  unfold LocRib.run_ops
  rw [List.foldl_map]
  rfl

theorem moved_mark_stale_v4 : Moved s (s.mark_stale_v4 ip) [.Restale ip] [] := by
  unfold mark_stale_v4
  dsimp only
  split
  · next hnil =>
    rw [List.isEmpty_iff] at hnil
    exact ⟨(s.tables_v4.moves_restale_of_nil ip hnil).symm, rfl⟩
  · rw [insert_fold_eq]
    have hbatch := moved_batch_v4
      { s with adj_ribs_in := s.adj_ribs_in.modify ip AdjRibIn.mark_all_stale }
      (s.rib.loc_rib.run_ops ip s.oracle_v4 ((stale_routes
        ((s.adj_ribs_in.modify ip AdjRibIn.mark_all_stale).lookup ip)).map .Put))
    have hput : Moved s _ [.Restale ip] [] := hbatch
    exact (hput.still (direct_others_v4_frame _ ip _).moved).still (.refl _)

theorem moved_mark_stale_v6 : Moved s (s.mark_stale_v6 ip) [] [.Restale ip] := by
  unfold mark_stale_v6
  dsimp only
  split
  · next hnil =>
    rw [List.isEmpty_iff] at hnil
    exact ⟨rfl, (s.tables_v6.moves_restale_of_nil ip hnil).symm⟩
  · rw [insert_fold_eq]
    have hbatch := moved_batch_v6
      { s with adj_ribs_in_v6 := s.adj_ribs_in_v6.modify ip AdjRibIn.mark_all_stale }
      (s.rib.loc_rib_v6.run_ops ip s.oracle_v6 ((stale_routes
        ((s.adj_ribs_in_v6.modify ip AdjRibIn.mark_all_stale).lookup ip)).map .Put))
    have hput : Moved s _ [] [.Restale ip] := hbatch
    exact hput.still (direct_others_v6_frame _ ip _).moved

/-- The moves of a family when a session ends in helper mode. -/
def helper_moves [IpAddress A] [DecidableEq A] (covered : Bool) : List (Move A) :=
  if covered then [.Restale peer_ip] else [.Clear peer_ip]

theorem moved_terminate_gr (restart_time : ℕ) :
    Moved s (s.terminate_gr clk ip restart_time)
      (helper_moves ip (covers (s.gr.peer_families.lookup ip) .IPV4_UNICAST))
      (helper_moves ip (covers (s.gr.peer_families.lookup ip) .IPV6_UNICAST)) := by
  unfold terminate_gr mark_stale_and_repropagate helper_moves
  dsimp only
  cases covers (s.gr.peer_families.lookup ip) .IPV4_UNICAST <;>
    cases covers (s.gr.peer_families.lookup ip) .IPV6_UNICAST
  · exact ((moved_clear_v4 s ip).trans (moved_clear_v6 _ ip)).still (.refl _)
  · exact ((moved_clear_v4 s ip).still (.refl _)).trans (moved_mark_stale_v6 _ ip)
  · exact ((moved_clear_v6 s ip).still (.refl _)).trans (moved_mark_stale_v4 _ ip)
  · have hdeadline : Moved s
        { s with
          gr := { s.gr with
            deadlines := s.gr.deadlines.insert ip (clk.instant + restart_time * 1000) } }
        [] [] := .refl _
    exact (hdeadline.trans (moved_mark_stale_v4 _ ip)).trans (moved_mark_stale_v6 _ ip)

/-- The moves of a family when a session ends. -/
def terminated_moves [IpAddress A] [DecidableEq A] : List (Move A) :=
  if s.enter_gr peer_ip reason then
    helper_moves peer_ip (covers (s.gr.peer_families.lookup peer_ip) family)
  else [.Clear peer_ip, .Leave peer_ip]

theorem moved_on_terminated :
    Moved s (s.on_terminated clk ip reason) (s.terminated_moves ip reason .IPV4_UNICAST)
      (s.terminated_moves ip reason .IPV6_UNICAST) := by
  have hclose : Moved s (s.close_session ip) [] [] := .refl _
  unfold on_terminated terminated_moves
  split
  · exact hclose.trans (moved_terminate_gr _ clk ip _)
  · exact hclose.trans (moved_terminate_now _ ip)

/-- The moves of a family when the loop handles the end of a session. -/
def handled_moves [IpAddress A] [DecidableEq A] : List (Move A) :=
  (s.unnoted peer_ip).terminated_moves peer_ip reason family
    ++ if peer_ip ∈ s.pending_removal ∧ peer_ip ∈ s.adj_ribs_in then [.Forget peer_ip] else []

theorem moved_handle_terminated :
    Moved s (s.handle_terminated clk ip reason) (s.handled_moves ip reason .IPV4_UNICAST)
      (s.handled_moves ip reason .IPV6_UNICAST) := by
  have hstart : Moved s (s.unnoted ip) [] [] := .refl s
  have hend := hstart.trans (moved_on_terminated (s.unnoted ip) clk ip reason)
  unfold handled_moves
  by_cases hrem : ip ∈ s.pending_removal ∧ ip ∈ s.adj_ribs_in
  · rw [handle_terminated_of_noted hrem.1 hrem.2 clk reason, if_pos hrem, if_pos hrem]
    refine (hend.trans ?_).still (moved_recompute_selection_deferral _)
    exact ⟨rfl, rfl⟩
  · rw [handle_terminated_of_unnoted hrem clk reason, if_neg hrem, if_neg hrem, List.append_nil,
      List.append_nil]
    exact hend

end

/-! ### A session comes up -/

/-- The family of a peer was kept over its restart. -/
def kept_over_restart (family : AfiSafi) : Bool :=
  decide (peer_ip ∈ s.gr.deadlines) && covers (s.gr.peer_families.lookup peer_ip) family

/-- The IPv4 moves of a session that comes up. -/
def established_moves_v4 : List (Move Ipv4Addr) :=
  if s.kept_over_restart peer_ip .IPV4_UNICAST then [.MarkStale peer_ip] else []

def established_moves_v6 : List (Move Ipv6Addr) :=
  if s.kept_over_restart peer_ip .IPV6_UNICAST then [.MarkStale peer_ip]
  else [.NewAdjRibIn peer_ip]

section

variable (peer_bgp_id : Ipv4Addr) (peer_type : PeerType) (caps : List Capability)
  (local_addr : Option IpAddr)

theorem moved_open_session :
    Moved s (s.open_session ip peer_bgp_id peer_type caps local_addr)
      (s.established_moves_v4 ip) (s.established_moves_v6 ip) := by
  have hv4 : (s.open_session ip peer_bgp_id peer_type caps local_addr).tables_v4
      = { s.tables_v4 with
          stale := mark_stale_set s.gr.stale_nlri (s.adj_ribs_in.lookup ip) ip
            (s.kept_over_restart ip .IPV4_UNICAST) } := rfl
  have hv6 : (s.open_session ip peer_bgp_id peer_type caps local_addr).tables_v6
      = { s.tables_v6 with
          adj_ribs_in := if s.kept_over_restart ip .IPV6_UNICAST then s.adj_ribs_in_v6
            else s.adj_ribs_in_v6.insert ip (AdjRibIn.new ip)
          stale := mark_stale_set s.gr.stale_nlri_v6 (s.adj_ribs_in_v6.lookup ip) ip
            (s.kept_over_restart ip .IPV6_UNICAST) } := rfl
  constructor
  · rw [hv4, established_moves_v4]
    cases s.kept_over_restart ip .IPV4_UNICAST <;> rfl
  · rw [hv6, established_moves_v6]
    cases s.kept_over_restart ip .IPV6_UNICAST <;> rfl

theorem moved_on_established :
    Moved s (s.on_established ip peer_bgp_id peer_type caps local_addr)
      (s.established_moves_v4 ip) (s.established_moves_v6 ip) := by
  have hopen := moved_open_session s ip peer_bgp_id peer_type caps local_addr
  unfold on_established
  dsimp only
  split
  · refine hopen.still ?_
    generalize s.open_session ip peer_bgp_id peer_type caps local_addr = t
    have h4 : Moved (t.negotiate ip caps)
        (if (t.negotiate ip caps).selection_deferral.v4_deferred = true
          then t.negotiate ip caps
          else (t.negotiate ip caps).dump_family_v4 ip) [] [] := by
      split
      · exact .refl _
      · exact (dump_family_v4_frame _ ip).moved
    have h6 : ∀ u : DaemonState, Moved u (if u.selection_deferral.v6_deferred = true then u
        else u.dump_family_v6 ip) [] [] := by
      intro u
      split
      · exact .refl _
      · exact (dump_family_v6_frame _ ip).moved
    have hstart : Moved t (t.negotiate ip caps) [] [] := .refl t
    have hgr : ∀ u : DaemonState, Moved u (u.negotiate_gr ip caps) [] [] := fun u => .refl u
    exact (((hstart.still h4).still (h6 _)).still (hgr _)).still
      (moved_recompute_selection_deferral _)
  · exact hopen

end

/-! ### Messages -/

/-- The IPv4 moves of the End-of-RIB marker. -/
def eor_moves [IpAddress A] [DecidableEq A] (t : Tables A) (peer_ip : IpAddr) : List (Move A) :=
  .DropStale peer_ip ::
    if (t.pending peer_ip).keys.isEmpty then [] else [.Prune peer_ip (t.pending peer_ip).keys]

theorem moved_prune_stale_nlri (stale : List (Nlri Ipv4Addr)) :
    Moved s (s.prune_stale_nlri ip stale) [.Prune ip stale] [] := by
  have hcalls : (s.prune_blackholes_v4 ip stale).filterMap FibCall.v4?
        = (stale.filter fun n => (s.tables_v4.held ip n).any Route.is_blackhole).map
          .WithdrawBlackhole ∧
      (s.prune_blackholes_v4 ip stale).filterMap FibCall.v6? = [] := by
    unfold prune_blackholes_v4 Tables.held tables_v4
    cases s.adj_ribs_in.lookup ip <;> simp [FibCall.v4?, FibCall.v6?, Function.comp_def]
  have hpruned : Moved s (s.pruned_v4 ip stale) [.Prune ip stale] [] := by
    have hbatch := moved_batch_v4
      ({ s.fib_apply (s.prune_blackholes_v4 ip stale) with
        adj_ribs_in := s.adj_ribs_in.modify ip fun ari => stale.foldl AdjRibIn.withdraw ari })
      (s.rib.loc_rib.run_ops ip s.oracle_v4 (stale.map .Drop))
    have h4 := tables_v4_fib_apply s (s.prune_blackholes_v4 ip stale)
    have h6 := tables_v6_fib_apply s (s.prune_blackholes_v4 ip stale)
    rw [hcalls.1] at h4
    rw [hcalls.2, Tables.tell_nil] at h6
    constructor
    · refine hbatch.1.trans ?_
      change Tables.tell { (s.fib_apply (s.prune_blackholes_v4 ip stale)).tables_v4 with
        adj_ribs_in := _, loc_rib := _ } _ = _
      rw [h4]
      rfl
    · exact hbatch.2.trans h6
  rw [prune_stale_nlri_eq]
  exact (hpruned.still (direct_others_v4_frame _ ip _).moved).still (.refl _)

theorem moved_prune_stale_nlri_v6 (stale : List (Nlri Ipv6Addr)) :
    Moved s (s.prune_stale_nlri_v6 ip stale) [] [.Prune ip stale] := by
  have hcalls : (s.prune_blackholes_v6 ip stale).filterMap FibCall.v6?
        = (stale.filter fun n => (s.tables_v6.held ip n).any Route.is_blackhole).map
          .WithdrawBlackhole ∧
      (s.prune_blackholes_v6 ip stale).filterMap FibCall.v4? = [] := by
    unfold prune_blackholes_v6 Tables.held tables_v6
    cases s.adj_ribs_in_v6.lookup ip <;> simp [FibCall.v4?, FibCall.v6?, Function.comp_def]
  have hpruned : Moved s (s.pruned_v6 ip stale) [] [.Prune ip stale] := by
    have hbatch := moved_batch_v6
      ({ s.fib_apply (s.prune_blackholes_v6 ip stale) with
        adj_ribs_in_v6 :=
          s.adj_ribs_in_v6.modify ip fun ari => stale.foldl AdjRibIn.withdraw ari })
      (s.rib.loc_rib_v6.run_ops ip s.oracle_v6 (stale.map .Drop))
    have h4 := tables_v4_fib_apply s (s.prune_blackholes_v6 ip stale)
    have h6 := tables_v6_fib_apply s (s.prune_blackholes_v6 ip stale)
    rw [hcalls.1] at h6
    rw [hcalls.2, Tables.tell_nil] at h4
    constructor
    · exact hbatch.1.trans h4
    · refine hbatch.2.trans ?_
      change Tables.tell { (s.fib_apply (s.prune_blackholes_v6 ip stale)).tables_v6 with
        adj_ribs_in := _, loc_rib := _ } _ = _
      rw [h6]
      rfl
  rw [prune_stale_nlri_v6_eq]
  exact hpruned.still (direct_others_v6_frame _ ip _).moved

theorem moved_on_eor_v4 : Moved s (s.on_eor_v4 ip) (eor_moves s.tables_v4 ip) [] := by
  have hnoted : Moved s (s.eor_noted_v4 ip) [.DropStale ip] [] := ⟨rfl, rfl⟩
  have hstale : (s.tables_v4.pending ip).keys = s.stale_prefixes ip := rfl
  unfold on_eor_v4 eor_moves
  rw [hstale]
  refine Moved.still ?_ (moved_recompute_selection_deferral _)
  by_cases hnil : (s.stale_prefixes ip).isEmpty = true
  · rw [if_pos hnil]
    exact (if_pos hnil).symm ▸ hnoted
  · rw [if_neg hnil]
    exact (if_neg hnil).symm ▸ hnoted.trans (moved_prune_stale_nlri _ ip _)

theorem moved_on_eor_v6 : Moved s (s.on_eor_v6 ip) [] (eor_moves s.tables_v6 ip) := by
  have hnoted : Moved s (s.eor_noted_v6 ip) [] [.DropStale ip] := ⟨rfl, rfl⟩
  have hstale : (s.tables_v6.pending ip).keys = s.stale_prefixes_v6 ip := rfl
  unfold on_eor_v6 eor_moves
  rw [hstale]
  refine Moved.still ?_ (moved_recompute_selection_deferral _)
  by_cases hnil : (s.stale_prefixes_v6 ip).isEmpty = true
  · rw [if_pos hnil]
    exact (if_pos hnil).symm ▸ hnoted
  · rw [if_neg hnil]
    exact (if_neg hnil).symm ▸ hnoted.trans (moved_prune_stale_nlri_v6 _ ip _)

/-- The IPv4 move of a message that has passed the reflector's checks. -/
def message_moves_v4 : List (Move Ipv4Addr) :=
  let env := s.env_of clk peer_ip
  if s.Configured peer_ip then
    [.Hear peer_ip env.policy env.rpki_v4 (intake_v4 env msg) msg.announced
      (!s.overflows clk peer_ip msg)]
  else []

def message_moves_v6 : List (Move Ipv6Addr) :=
  let env := s.env_of clk peer_ip
  if s.Configured peer_ip then
    [.Hear peer_ip env.policy_v6 env.rpki_v6 (intake_v6 env msg) msg.reached_v6
      (!s.overflows clk peer_ip msg)]
  else []

theorem update_calls_families (u : PendingUpdate) (h4 : s.rib.loc_rib = u.v4.loc_rib)
    (h6 : s.rib.loc_rib_v6 = u.v6.loc_rib) :
    (s.update_calls u).filterMap FibCall.v4? = Tables.update_calls u.v4 ∧
      (s.update_calls u).filterMap FibCall.v6? = Tables.update_calls u.v6 := by
  -- the calls for a prefix that is no longer a null route, in its own family and in the other
  have hv4 : ∀ n (o : Option (Route Ipv4Addr)), (FibCall.withdraw_blackhole_v4 n ::
      (o.map fun r => FibCall.apply_v4 (.Announced n r)).toList).filterMap FibCall.v4?
        = .WithdrawBlackhole n :: (o.map fun r => .Apply (.Announced n r)).toList ∧
      (FibCall.withdraw_blackhole_v4 n ::
        (o.map fun r => FibCall.apply_v4 (.Announced n r)).toList).filterMap FibCall.v6? = [] := by
    rintro n (_ | r) <;> exact ⟨rfl, rfl⟩
  have hv6 : ∀ n (o : Option (Route Ipv6Addr)), (FibCall.withdraw_blackhole_v6 n ::
      (o.map fun r => FibCall.apply_v6 (.Announced n r)).toList).filterMap FibCall.v6?
        = .WithdrawBlackhole n :: (o.map fun r => .Apply (.Announced n r)).toList ∧
      (FibCall.withdraw_blackhole_v6 n ::
        (o.map fun r => FibCall.apply_v6 (.Announced n r)).toList).filterMap FibCall.v4? = [] := by
    rintro n (_ | r) <;> exact ⟨rfl, rfl⟩
  unfold update_calls Tables.update_calls
  rw [h4, h6]
  simp only [List.filterMap_append, List.filterMap_flatMap, hv4, hv6]
  constructor
  · simp [FibCall.v4?, Function.comp_def, List.flatMap_eq_nil_iff]
  · simp [FibCall.v6?, Function.comp_def, List.flatMap_eq_nil_iff]

/-- The end of `on_route_update`, after the tables have been written. -/
theorem moved_publish_update (u : PendingUpdate) :
    Moved (s.fib_apply (s.update_calls u)) (s.publish_update clk msg u) [] [] := by
  unfold publish_update
  have hv4 := (propagate_to_all_peers_frame (s.fib_apply (s.update_calls u)) clk msg.affected).moved
  generalize (s.fib_apply (s.update_calls u)).propagate_to_all_peers clk msg.affected = t at hv4
  split
  · exact hv4.still (.refl _)
  · exact (hv4.still (moved_propagate_v6 t _)).still (.refl _)

theorem moved_on_update_message :
    Moved s (s.on_update_message clk ip msg).1 (s.message_moves_v4 clk ip msg)
      (s.message_moves_v6 clk ip msg) := by
  unfold on_update_message message_moves_v4 message_moves_v6
  by_cases hconf : s.Configured ip
  · obtain ⟨ari, hari⟩ := HashMap.lookup_of_mem hconf.2.2
    have hover := s.exceeds_limit_update_of clk ip msg
    rw [handled_of_configured hconf, if_pos hconf, if_pos hconf]
    obtain ⟨hin4, hin6⟩ := s.tables_update_of clk ip msg
    generalize s.update_of clk ip msg = u at *
    have himp4 : (s.imported ip msg u).tables_v4 = s.tables_v4.heard ip u.v4 msg.announced := by
      have hmod : s.adj_ribs_in.insert ip u.v4.adj_rib_in
          = s.adj_ribs_in.modify ip fun _ => u.v4.adj_rib_in := by
        rw [HashMap.modify, hari]
        rfl
      unfold Tables.heard tables_v4 imported
      rw [hmod]
      rfl
    have himp6 : (s.imported ip msg u).tables_v6 = s.tables_v6.heard ip u.v6 msg.reached_v6 := rfl
    obtain ⟨hc4, hc6⟩ := update_calls_families (s.imported ip msg u) u rfl rfl
    have hlimit : (s.imported ip msg u).exceeds_limit ip u = s.overflows clk ip msg := hover
    dsimp only
    rw [hlimit]
    cases hov : s.overflows clk ip msg with
    | true =>
      -- the import stands and is not told to anyone
      have hidle : Moved (s.imported ip msg u) ((s.imported ip msg u).idle_hold clk ip) [] [] := by
        unfold idle_hold
        split
        · exact .refl _
        · exact .refl _
      refine Moved.still ⟨?_, ?_⟩ hidle
      · rw [himp4, hin4]
        exact (Tables.tell_nil _).symm
      · rw [himp6, hin6]
        exact (Tables.tell_nil _).symm
    | false =>
      refine Moved.still ⟨?_, ?_⟩ (moved_publish_update _ clk msg u)
      · rw [tables_v4_fib_apply, hc4, himp4, hin4]
        rfl
      · rw [tables_v6_fib_apply, hc6, himp6, hin6]
        rfl
  · rw [handled_of_not_configured hconf clk msg, if_neg hconf, if_neg hconf]
    exact .refl s

/-- The IPv4 moves of a received UPDATE. -/
def update_moves_v4 : List (Move Ipv4Addr) :=
  if msg.is_eor_v4 then eor_moves s.tables_v4 peer_ip
  else if msg.is_eor_v6 then []
  else
    match s.rr_inbound peer_ip msg with
    | none => []
    | some msg => s.message_moves_v4 clk peer_ip msg

def update_moves_v6 : List (Move Ipv6Addr) :=
  if msg.is_eor_v4 then []
  else if msg.is_eor_v6 then eor_moves s.tables_v6 peer_ip
  else
    match s.rr_inbound peer_ip msg with
    | none => []
    | some msg => s.message_moves_v6 clk peer_ip msg

theorem moved_on_route_update :
    Moved s (s.on_route_update clk ip msg).1 (s.update_moves_v4 clk ip msg)
      (s.update_moves_v6 clk ip msg) := by
  unfold on_route_update update_moves_v4 update_moves_v6
  split
  · exact moved_on_eor_v4 s ip
  · split
    · exact moved_on_eor_v6 s ip
    · cases s.rr_inbound ip msg with
      | none => exact .refl s
      | some msg => exact moved_on_update_message s clk ip msg

/-! ### Operator calls -/

section

variable {f : DaemonState → I → DaemonState} (action : DefaultAction)

/-- The peer is in the maps that a re-evaluation of its import policy needs. -/
def Reevaluable : Prop :=
  (peer_ip ∈ s.adj_ribs_in ∧ peer_ip ∈ s.import_policies) ∧
    peer_ip ∈ s.adj_ribs_in_v6 ∧ peer_ip ∈ s.import_policies_v6
deriving Decidable

/-- The moves of a re-evaluation. -/
def reevaluate_moves [IpAddress A] [DecidableEq A] (policies : HashMap IpAddr (Policy A))
    (rtr : RtrHandle A) (peer_ip : IpAddr) :
    List (Move A) :=
  if s.Reevaluable peer_ip then
    [.Reapply peer_ip ((policies.lookup peer_ip).getD (Policy.new .Reject)) rtr]
  else []

theorem mem_reevaluate_moves [IpAddress A] [DecidableEq A] {s : DaemonState}
    {policies : HashMap IpAddr (Policy A)} {rtr : RtrHandle A} {ip : IpAddr} {m : Move A} :
    m ∈ s.reevaluate_moves policies rtr ip ↔ s.Reevaluable ip ∧
      m = .Reapply ip ((policies.lookup ip).getD (Policy.new .Reject)) rtr := by
  unfold reevaluate_moves
  split
  · next h => simp [h]
  · next h => simp [h]

theorem reapply_import_policy_eq [IpAddress A] [DecidableEq A] (peer : PeerId) (ari : AdjRibIn A)
    (rib : LocRib A) (policy : Policy A) (rtr : RtrHandle A) (oracle : NextHopOracle) :
    reapply_import_policy peer ari rib policy rtr oracle
      = rib.run_ops peer oracle (ari.routes.values.map (policy.reapplied rtr)) := by
  unfold reapply_import_policy LocRib.run_ops
  rw [List.foldl_map]
  congr 1
  funext acc raw
  unfold reapply_step Policy.reapplied LocRib.op_step
  generalize policy.evaluate rtr raw = d
  rcases d with ⟨_ | _ | _, route⟩ <;> rfl

theorem moved_reapply_v4 {ari : AdjRibIn Ipv4Addr} (hari : s.adj_ribs_in.lookup ip = some ari)
    (policy : Policy Ipv4Addr) :
    let r := reapply_import_policy ip ari s.rib.loc_rib policy s.rpki_v4 s.oracle_v4
    Moved s ((s.set_loc_rib r.1).fib_apply (r.2.map .apply_v4))
      [.Reapply ip policy s.rpki_v4] [] := by
  intro r
  have hr : r = s.rib.loc_rib.run_ops ip s.oracle_v4
      (ari.routes.values.map (policy.reapplied s.rpki_v4)) := reapply_import_policy_eq ..
  obtain ⟨h4, h6⟩ := moved_batch_v4 s r
  refine ⟨h4.trans ?_, h6⟩
  rw [hr]
  unfold Tables.moves Tables.move Tables.announced tables_v4
  simp only [List.foldl_cons, List.foldl_nil, hari]
  rfl

theorem moved_reapply_v6 {ari : AdjRibIn Ipv6Addr}
    (hari : s.adj_ribs_in_v6.lookup ip = some ari) (policy : Policy Ipv6Addr) :
    let r := reapply_import_policy ip ari s.rib.loc_rib_v6 policy s.rpki_v6 s.oracle_v6
    Moved s ((s.set_loc_rib_v6 r.1).fib_apply (r.2.map .apply_v6))
      [] [.Reapply ip policy s.rpki_v6] := by
  intro r
  have hr : r = s.rib.loc_rib_v6.run_ops ip s.oracle_v6
      (ari.routes.values.map (policy.reapplied s.rpki_v6)) := reapply_import_policy_eq ..
  obtain ⟨h4, h6⟩ := moved_batch_v6 s r
  refine ⟨h4, h6.trans ?_⟩
  rw [hr]
  unfold Tables.moves Tables.move Tables.announced tables_v6
  simp only [List.foldl_cons, List.foldl_nil, hari]
  rfl

theorem moved_reevaluate_import :
    Moved s (s.reevaluate_import_for_peer clk ip)
      (s.reevaluate_moves s.import_policies s.rpki_v4 ip)
      (s.reevaluate_moves s.import_policies_v6 s.rpki_v6 ip) := by
  unfold reevaluate_moves
  by_cases hall : s.Reevaluable ip
  · obtain ⟨ari, hari⟩ := HashMap.lookup_of_mem hall.1.1
    obtain ⟨policy, hpolicy⟩ := HashMap.lookup_of_mem hall.1.2
    obtain ⟨ari_v6, hari6⟩ := HashMap.lookup_of_mem hall.2.1
    obtain ⟨policy_v6, hpolicy6⟩ := HashMap.lookup_of_mem hall.2.2
    have hv4 := moved_reapply_v4 s ip hari policy
    unfold reevaluate_import_for_peer
    rw [if_pos hall, if_pos hall, hari, hpolicy, hari6, hpolicy6]
    dsimp only at hv4 ⊢
    generalize hr : reapply_import_policy ip ari s.rib.loc_rib policy s.rpki_v4 s.oracle_v4
      = r at hv4 ⊢
    have hframe := propagate_to_all_peers_frame
      ((s.set_loc_rib r.1).fib_apply (r.2.map .apply_v4)) clk ari.routes.keys
    have hthen := hv4.still (hframe.moved.still (.refl _))
    generalize (((s.set_loc_rib r.1).fib_apply (r.2.map .apply_v4)).propagate_to_all_peers clk
      ari.routes.keys) = t at hframe hthen ⊢
    have hari6' : (t.emit_route_events ari.routes.keys).adj_ribs_in_v6.lookup ip = some ari_v6 := by
      obtain ⟨_, _, _, _, rfl⟩ := hframe
      exact hari6
    have hrpki : (t.emit_route_events ari.routes.keys).rpki_v6 = s.rpki_v6 := by
      obtain ⟨_, _, _, _, rfl⟩ := hframe
      rfl
    have hv6 := moved_reapply_v6 (t.emit_route_events ari.routes.keys) ip hari6' policy_v6
    rw [hrpki] at hv6 ⊢
    exact (hthen.trans hv6).still (moved_propagate_v6 _ _)
  · rw [if_neg hall, if_neg hall]
    have hstop : s.reevaluate_import_for_peer clk ip = s := by
      unfold reevaluate_import_for_peer
      split
      · next hari hpolicy hari6 hpolicy6 =>
        exact absurd ⟨⟨HashMap.mem_of_lookup hari, HashMap.mem_of_lookup hpolicy⟩,
          HashMap.mem_of_lookup hari6, HashMap.mem_of_lookup hpolicy6⟩ hall
      · rfl
    rw [hstop]
    exact .refl s

/-- What a re-evaluation reads, it leaves alone. -/
structure SameSources (s s' : DaemonState) : Prop where
  adj_ribs_in : s'.adj_ribs_in = s.adj_ribs_in
  adj_ribs_in_v6 : s'.adj_ribs_in_v6 = s.adj_ribs_in_v6
  import_policies : s'.import_policies = s.import_policies
  import_policies_v6 : s'.import_policies_v6 = s.import_policies_v6
  rpki_v4 : s'.rpki_v4 = s.rpki_v4
  rpki_v6 : s'.rpki_v6 = s.rpki_v6

theorem SameSources.trans {s : DaemonState} (h : SameSources s t) (h' : SameSources t u) :
    SameSources s u :=
  ⟨h'.adj_ribs_in.trans h.adj_ribs_in, h'.adj_ribs_in_v6.trans h.adj_ribs_in_v6,
    h'.import_policies.trans h.import_policies, h'.import_policies_v6.trans h.import_policies_v6,
    h'.rpki_v4.trans h.rpki_v4, h'.rpki_v6.trans h.rpki_v6⟩

theorem sameSources_reevaluate_import : SameSources s (s.reevaluate_import_for_peer clk ip) := by
  have hv4 : ∀ t nlris, SameSources t (t.propagate_to_all_peers clk nlris) := by
    intro t nlris
    obtain ⟨_, _, _, _, h⟩ := t.propagate_to_all_peers_frame clk nlris
    rw [h]
    exact ⟨rfl, rfl, rfl, rfl, rfl, rfl⟩
  have hv6 : ∀ t nlris, SameSources t (t.propagate_to_all_peers_v6 nlris) := by
    intro t nlris
    obtain ⟨_, _, h⟩ := t.propagate_to_all_peers_v6_frame nlris
    rw [h]
    exact ⟨rfl, rfl, rfl, rfl, rfl, rfl⟩
  unfold reevaluate_import_for_peer
  split
  · have hbatch : ∀ rib calls, SameSources s ((s.set_loc_rib rib).fib_apply calls) :=
      fun _ _ => ⟨rfl, rfl, rfl, rfl, rfl, rfl⟩
    have hbatch6 : ∀ (t : DaemonState) rib calls nlris,
        SameSources t (((t.emit_route_events nlris).set_loc_rib_v6 rib).fib_apply calls) :=
      fun _ _ _ _ => ⟨rfl, rfl, rfl, rfl, rfl, rfl⟩
    exact (((hbatch _ _).trans (hv4 _ _)).trans (hbatch6 _ _ _ _)).trans (hv6 _ _)
  · exact ⟨rfl, rfl, rfl, rfl, rfl, rfl⟩

theorem SameSources.reevaluate_moves {s : DaemonState} (h : SameSources s s') (ip : IpAddr) :
    s'.reevaluate_moves s'.import_policies s'.rpki_v4 ip
        = s.reevaluate_moves s.import_policies s.rpki_v4 ip ∧
      s'.reevaluate_moves s'.import_policies_v6 s'.rpki_v6 ip
        = s.reevaluate_moves s.import_policies_v6 s.rpki_v6 ip := by
  have hall : s'.Reevaluable ip ↔ s.Reevaluable ip := by
    unfold Reevaluable
    rw [h.adj_ribs_in, h.adj_ribs_in_v6, h.import_policies, h.import_policies_v6]
  unfold DaemonState.reevaluate_moves
  simp only [hall, h.import_policies, h.import_policies_v6, h.rpki_v4, h.rpki_v6, and_self]

theorem moved_reevaluate_all :
    Moved s (s.reevaluate_all_import_policies clk)
      (s.import_policies.keys.flatMap (s.reevaluate_moves s.import_policies s.rpki_v4))
      (s.import_policies.keys.flatMap (s.reevaluate_moves s.import_policies_v6 s.rpki_v6)) := by
  refine Moved.still (Moved.foldl _ _ (SameSources s) ?_ ?_ _ s ⟨rfl, rfl, rfl, rfl, rfl, rfl⟩)
    (moved_flush_pending _)
  · intro t ip ht
    exact ht.trans (sameSources_reevaluate_import t clk ip)
  · intro t ip ht
    have hmoves := ht.reevaluate_moves ip
    rw [← hmoves.1, ← hmoves.2]
    exact moved_reevaluate_import t clk ip

/-- The state in which `set_import_default` judges the peer's routes again. -/
def with_import_default : DaemonState :=
  { s with
    import_policies := s.import_policies.modify peer_ip (·.set_default action)
    import_policies_v6 := s.import_policies_v6.modify peer_ip (·.set_default action) }

theorem moved_set_import_default :
    let t := s.with_import_default ip action
    Moved s (s.set_import_default clk ip action)
      (if ip ∈ s.import_policies
        then t.reevaluate_moves t.import_policies t.rpki_v4 ip else [])
      (if ip ∈ s.import_policies
        then t.reevaluate_moves t.import_policies_v6 t.rpki_v6 ip else []) := by
  intro t
  have hstart : Moved s t [] [] := .refl s
  unfold set_import_default
  split
  · exact (hstart.trans (moved_reevaluate_import t clk ip)).still (moved_flush_pending _)
  · exact .refl s

theorem moved_set_export_default : Moved s (s.set_export_default ip action) [] [] := by
  unfold set_export_default
  split
  · dsimp only
    split
    · refine Moved.still ?_ (direct_v6_frame _ _ ip).moved
      refine Moved.still ?_ (direct_v4_frame _ _ _ ip).moved
      exact ⟨rfl, rfl⟩
    · exact .refl s
  · exact .refl s

theorem moved_originate_step (route : Route Ipv4Addr) :
    Moved s (s.originate_step route) [.Originate route false] [] := by
  refine ⟨?_, rfl⟩
  exact (Tables.tell_nil _).symm

theorem moved_originate_step_v6 (route : Route Ipv6Addr) :
    Moved s (s.originate_step_v6 route) [] [.Originate route true] := by
  obtain ⟨h4, h6⟩ := moved_batch_v6 s
    (s.rib.loc_rib_v6.run_ops LOCAL_ORIGIN_PEER s.oracle_v6 [.Put route])
  exact ⟨h4, h6⟩

theorem moved_withdraw_originated_step (nlri : Nlri Ipv4Addr) :
    Moved s (s.withdraw_originated_step nlri) [.Unoriginate nlri] [] := by
  obtain ⟨h4, h6⟩ := moved_batch_v4 s
    (s.rib.loc_rib.run_ops LOCAL_ORIGIN_PEER s.oracle_v4 [.Drop nlri])
  exact ⟨h4, h6⟩

theorem moved_withdraw_originated_step_v6 (nlri : Nlri Ipv6Addr) :
    Moved s (s.withdraw_originated_step_v6 nlri) [] [.Unoriginate nlri] := by
  obtain ⟨h4, h6⟩ := moved_batch_v6 s
    (s.rib.loc_rib_v6.run_ops LOCAL_ORIGIN_PEER s.oracle_v6 [.Drop nlri])
  exact ⟨h4, h6⟩

theorem Moved.each_v4 {m : I → Move Ipv4Addr} (hf : ∀ s i, Moved s (f s i) [m i] []) (l : List I)
    (s : DaemonState) :
    Moved s (l.foldl f s) (l.map m) [] := by
  have h := Moved.foldl (fun i => [m i]) (fun _ => []) (fun _ => True) (fun _ _ _ => trivial)
    (fun s i _ => hf s i) l s trivial
  rwa [← List.map_eq_flatMap, List.flatMap_eq_nil_iff.2 fun _ _ => rfl] at h

theorem Moved.each_v6 {m : I → Move Ipv6Addr} (hf : ∀ s i, Moved s (f s i) [] [m i]) (l : List I)
    (s : DaemonState) :
    Moved s (l.foldl f s) [] (l.map m) := by
  have h := Moved.foldl (fun _ => []) (fun i => [m i]) (fun _ => True) (fun _ _ _ => trivial)
    (fun s i _ => hf s i) l s trivial
  rwa [← List.map_eq_flatMap, List.flatMap_eq_nil_iff.2 fun _ _ => rfl] at h

end

theorem moved_on_fib_change : Moved s (s.on_fib_change clk) [.Reselect] [.Reselect] := by
  have hpropagate : ∀ (t : DaemonState) (nlris : List (Nlri Ipv4Addr)), Moved t
      (if nlris.isEmpty then t else (t.propagate_to_all_peers clk nlris).emit_route_events nlris)
      [] [] := by
    intro t nlris
    split
    · exact .refl t
    · exact (t.propagate_to_all_peers_frame clk nlris).moved.still (.refl _)
  have hpropagate6 : ∀ (t : DaemonState) (nlris : List (Nlri Ipv6Addr)), Moved t
      (if nlris.isEmpty then t else t.propagate_to_all_peers_v6 nlris) [] [] := by
    intro t nlris
    split
    · exact .refl t
    · exact moved_propagate_v6 t nlris
  unfold on_fib_change
  refine Moved.still (Moved.still ⟨?_, ?_⟩ (hpropagate _ _)) (hpropagate6 _ _)
  · rw [tables_v4_fib_apply]
    simp [FibCall.v4?, Function.comp_def]
    rfl
  · rw [tables_v6_fib_apply]
    simp [FibCall.v6?, Function.comp_def]
    rfl

/-- The peers whose restart window is over. -/
def expired (now : ℕ) : List IpAddr := (s.drain_expired now).2

/-- The moves of restart windows that are over. -/
def expiry_moves [IpAddress A] [DecidableEq A] (peers : List IpAddr) : List (Move A) :=
  peers.flatMap fun peer_ip => [.DropStale peer_ip, .Clear peer_ip, .Leave peer_ip]

theorem moved_on_gr_deadlines :
    Moved s (s.on_gr_deadlines clk) (expiry_moves (s.expired clk.instant))
      (expiry_moves (s.expired clk.instant)) := by
  have hdrain : Moved s (s.drain_expired clk.instant).1 [] [] := .refl s
  exact hdrain.trans (Moved.foldl _ _ (fun _ => True) (fun _ _ _ => trivial)
    (fun t ip _ => moved_on_gr_deadline_expired t ip) _ _ trivial)

theorem moved_add_peer (peer : PeerConfig) (update_sender : UpdateSender) :
    Moved s (s.add_peer peer update_sender).1
      (if peer.address ∈ s.adj_ribs_in then [] else [.NewAdjRibIn peer.address])
      (if peer.address ∈ s.adj_ribs_in then [] else [.NewAdjRibIn peer.address]) := by
  unfold add_peer
  split
  · exact .refl s
  · exact ⟨rfl, rfl⟩

/-! ## The step -/

/-- The IPv4 moves of a session event. -/
def session_moves_v4 :
    SessionEvent → List (Move Ipv4Addr)
  | .Established _ =>
    if peer_ip ∈ s.max_prefix_idle then [] else s.established_moves_v4 peer_ip
  | .Terminated reason => s.handled_moves peer_ip reason .IPV4_UNICAST
  | .RouteUpdate msg => s.update_moves_v4 clk peer_ip msg

def session_moves_v6 :
    SessionEvent → List (Move Ipv6Addr)
  | .Established _ =>
    if peer_ip ∈ s.max_prefix_idle then [] else s.established_moves_v6 peer_ip
  | .Terminated reason => s.handled_moves peer_ip reason .IPV6_UNICAST
  | .RouteUpdate msg => s.update_moves_v6 clk peer_ip msg

/-- The IPv4 moves of an event. -/
def moves_v4 : Event → List (Move Ipv4Addr)
  | .Session clk peer_ip event => s.session_moves_v4 clk peer_ip event
  | .FibChange _ => [.Reselect]
  | .GrDeadlines clk => expiry_moves (s.expired clk.instant)
  | .AddPeer peer _ =>
    if peer.address ∈ s.adj_ribs_in then [] else [.NewAdjRibIn peer.address]
  | .SetImportDefault _ peer_ip action =>
    let t := s.with_import_default peer_ip action
    if peer_ip ∈ s.import_policies
      then t.reevaluate_moves t.import_policies t.rpki_v4 peer_ip else []
  | .ReevaluateImport _ =>
    s.import_policies.keys.flatMap (s.reevaluate_moves s.import_policies s.rpki_v4)
  | .OriginateRoutes _ routes => routes.map (.Originate · false)
  | .WithdrawOriginated _ nlris => nlris.map .Unoriginate
  | .SetOracles v4 _ => [.SetOracle v4]
  | .SetFibManager => [.AttachKernel]
  | _ => []

def moves_v6 : Event → List (Move Ipv6Addr)
  | .Session clk peer_ip event => s.session_moves_v6 clk peer_ip event
  | .FibChange _ => [.Reselect]
  | .GrDeadlines clk => expiry_moves (s.expired clk.instant)
  | .AddPeer peer _ =>
    if peer.address ∈ s.adj_ribs_in then [] else [.NewAdjRibIn peer.address]
  | .SetImportDefault _ peer_ip action =>
    let t := s.with_import_default peer_ip action
    if peer_ip ∈ s.import_policies
      then t.reevaluate_moves t.import_policies_v6 t.rpki_v6 peer_ip else []
  | .ReevaluateImport _ =>
    s.import_policies.keys.flatMap (s.reevaluate_moves s.import_policies_v6 s.rpki_v6)
  | .OriginateRoutesV6 routes => routes.map (.Originate · true)
  | .WithdrawOriginatedV6 nlris => nlris.map .Unoriginate
  | .SetOracles _ v6 => [.SetOracle v6]
  | .SetFibManager => [.AttachKernel]
  | _ => []

theorem moved_on_session_event (event : SessionEvent) :
    Moved s (s.on_session_event clk ip event).1 (s.session_moves_v4 clk ip event)
      (s.session_moves_v6 clk ip event) := by
  cases event with
  | Established info =>
    unfold on_session_event session_moves_v4 session_moves_v6
    dsimp only
    split
    · exact .refl s
    · exact moved_on_established s ip _ _ _ _
  | Terminated reason => exact moved_handle_terminated s clk ip reason
  | RouteUpdate msg => exact moved_on_route_update s clk ip msg

/-- **A step of the daemon makes the moves of its event.** -/
theorem tables_step (e : Event) : Moved s (s.step e) (s.moves_v4 e) (s.moves_v6 e) := by
  cases e with
  | Session clk ip event => exact moved_on_session_event s clk ip event
  | FlushPending => exact moved_flush_pending s
  | FlushMraiPending clk => exact (flush_mrai_pending_frame s clk).moved
  | TakeStalledPeers => exact .refl s
  | FibChange clk => exact moved_on_fib_change s clk
  | GrDeadlines clk => exact moved_on_gr_deadlines s clk
  | DeferralDeadline =>
    exact Moved.still (s := s) ⟨rfl, rfl⟩ (catch_up_released_families_frame _ _ _).moved
  | IdleExpiry clk => exact .refl s
  | AddPeer peer update_sender => exact moved_add_peer s peer update_sender
  | RemovePeer ip =>
    change Moved s (s.request_removal ip) [] []
    unfold request_removal
    split <;> exact .refl s
  | SetImportDefault clk ip action => exact moved_set_import_default s clk ip action
  | SetExportDefault ip action => exact moved_set_export_default s ip action
  | ReevaluateImport clk => exact moved_reevaluate_all s clk
  | OriginateRoutes clk routes =>
    exact ((Moved.each_v4 moved_originate_step routes s).still
      (propagate_to_all_peers_frame _ clk _).moved).still (moved_flush_pending _)
  | OriginateRoutesV6 routes =>
    exact ((Moved.each_v6 moved_originate_step_v6 routes s).still (moved_propagate_v6 _ _)).still
      (moved_flush_pending _)
  | WithdrawOriginated clk nlris =>
    exact ((Moved.each_v4 moved_withdraw_originated_step nlris s).still
      (propagate_to_all_peers_frame _ clk _).moved).still (moved_flush_pending _)
  | WithdrawOriginatedV6 nlris =>
    exact ((Moved.each_v6 moved_withdraw_originated_step_v6 nlris s).still
      (moved_propagate_v6 _ _)).still (moved_flush_pending _)
  | SetOracles v4 v6 => exact ⟨rfl, rfl⟩
  | SetFibManager => exact ⟨rfl, rfl⟩
  | SetDeferral d => exact .refl s
  | InstallRpki => exact .refl s
  | RpkiAnswers v4 v6 => exact .refl s
  | ChannelDrained ip messages => exact .refl s

end DaemonState

end Pathvector
