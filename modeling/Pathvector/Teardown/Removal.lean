/-
# The removal of a peer

An operator removes a peer: the daemon notes it in `pending_removal`, stops the session, and
when the session has terminated it forgets the peer. Nothing of the peer should be left then,
neither in its own tables nor in what the other peers have been told.

`handle_terminated` takes the note away before it calls `on_terminated`, which is where the
note would keep the daemon out of helper mode. So there are two cases here. In helper mode
the peer's candidates stay, and the tables that could take them out again are gone. Outside
helper mode the removal is a loss of the session, followed by what the end of a deferral may
send.
-/
import Pathvector.Daemon.Configured
import Pathvector.Outbound.Release
import Pathvector.Restart.HelperMode
import Pathvector.Teardown.SessionLoss

set_option autoImplicit false

namespace Pathvector

namespace DaemonState

variable (s t : DaemonState) {peer_ip ip q : IpAddr} {reason : TerminationReason}
  {w : DaemonState}

/-! ## What forgetting a peer leaves of the others -/

theorem kept_forget_peer (hq : q ≠ ip) : Kept t (t.forget_peer ip) q := by
  have herase : ∀ {V : Type} (m : HashMap IpAddr V), (m.erase ip).lookup q = m.lookup q :=
    fun m => by rw [HashMap.lookup_erase_ite, if_neg hq]
  have hmem : ∀ {V : Type} (m : HashMap IpAddr V), q ∈ m.erase ip ↔ q ∈ m :=
    fun m => by rw [AList.mem_erase]; exact and_iff_right hq
  exact .of_entries (herase _) (herase _) (hmem _) (hmem _) (hmem _) (herase _) (herase _)
    (herase _) (herase _) rfl

/-! ## The removal in steps -/

/-- The tables of a peer itself. -/
structure Forgotten (u : DaemonState) (peer_ip : IpAddr) : Prop where
  adj_rib_in : peer_ip ∉ u.adj_ribs_in ∧ peer_ip ∉ u.adj_ribs_in_v6
  adj_rib_out : peer_ip ∉ u.adj_ribs_out ∧ peer_ip ∉ u.adj_ribs_out_v6
  deadline : peer_ip ∉ u.gr.deadlines
  stale : peer_ip ∉ u.gr.stale_nlri ∧ peer_ip ∉ u.gr.stale_nlri_v6
  pending : peer_ip ∉ u.pending_decisions ∧ peer_ip ∉ u.pending_decisions_v6

theorem forgotten_removal (ip : IpAddr) :
    Forgotten (t.forget_peer ip).recompute_selection_deferral ip := by
  have herase : ∀ {V : Type} (m : HashMap IpAddr V), ip ∉ m.erase ip :=
    fun m h => (AList.mem_erase.1 h).1 rfl
  have hr := (t.forget_peer ip).recomputed_recompute ip
  -- the catch-up writes Adj-RIBs-Out, but adds none
  have hout : ∀ {V W : Type} {m m' : HashMap IpAddr V} (f : V → W), ip ∉ m →
      (m'.lookup ip).map f = (m.lookup ip).map f → ip ∉ m' := by
    intro V W m m' f hm h
    rw [AList.lookup_eq_none.2 hm, Option.map_none, Option.map_eq_none_iff] at h
    exact AList.lookup_eq_none.1 h
  have hframe : ∃ d, DirectFrame { t.forget_peer ip with selection_deferral := d }
      (t.forget_peer ip).recompute_selection_deferral :=
    ⟨_, catch_up_released_families_frame ..⟩
  obtain ⟨d, o4, o6, txs, st, hu⟩ := hframe
  have h4 := hout _ (herase t.adj_ribs_out) hr.session_v4
  have h6 := hout _ (herase t.adj_ribs_out_v6) hr.session_v6
  rw [hu] at h4 h6 ⊢
  exact ⟨⟨herase _, herase _⟩, ⟨h4, h6⟩, herase _, ⟨herase _, herase _⟩, herase _, herase _⟩

/-! ## Into helper mode -/

/-- The daemon holds nothing that entering helper mode could turn into a candidate of the
peer, and no candidate of the peer. -/
structure Unheard (s : DaemonState) (peer_ip : IpAddr) : Prop where
  candidate_v4 : ∀ n, s.rib.loc_rib.candidate n peer_ip = none
  candidate_v6 : ∀ n, s.rib.loc_rib_v6.candidate n peer_ip = none
  announced_v4 : s.gr_covers peer_ip .IPV4_UNICAST = true →
    ∀ n, announced_in (s.adj_ribs_in.lookup peer_ip) n = none
  announced_v6 : s.gr_covers peer_ip .IPV6_UNICAST = true →
    ∀ n, announced_in (s.adj_ribs_in_v6.lookup peer_ip) n = none

theorem restaled_eq_none_iff {A : Type} [IpAddress A] [DecidableEq A] (covered : Bool)
    (ari : Option (AdjRibIn A)) (rib : LocRib A) (peer : PeerId) :
    (∀ n, (if covered then restaled ari rib peer n peer else rib.candidate n peer) = none) ↔
      (∀ n, rib.candidate n peer = none) ∧ (covered = true → ∀ n, announced_in ari n = none) := by
  cases covered with
  | false => simp
  | true =>
    simp only [restaled, if_true, Option.or_eq_none_iff, Option.map_eq_none_iff, forall_const]
    rw [forall_and]
    exact and_comm

theorem no_candidate_helper_iff {s : DaemonState} (hgr : s.enter_gr ip reason = true)
    (clk : Clock) :
    ((∀ n, (s.on_terminated clk ip reason).rib.loc_rib.candidate n ip = none) ∧
        ∀ n, (s.on_terminated clk ip reason).rib.loc_rib_v6.candidate n ip = none) ↔
      s.Unheard ip := by
  obtain ⟨h4, h6⟩ := s.candidate_on_terminated_gr clk ip reason hgr
  simp only [h4, h6]
  rw [restaled_eq_none_iff, restaled_eq_none_iff]
  exact ⟨fun h => ⟨h.1.1, h.2.1, h.1.2, h.2.2⟩,
    fun h => ⟨⟨h.candidate_v4, h.announced_v4⟩, h.candidate_v6, h.announced_v6⟩⟩

/-! ## Outside helper mode -/

/-- Without the peer, no configured peer blocks IPv4 any more. -/
def Released_v4 (peer_ip : IpAddr) : Prop :=
  s.selection_deferral.v4_deferred = true ∧
    ∀ q ∈ s.rib.peer_remote_as, q ≠ peer_ip → s.family_blocks false q = false

def Released_v6 (peer_ip : IpAddr) : Prop :=
  s.selection_deferral.v6_deferred = true ∧
    ∀ q ∈ s.rib.peer_remote_as, q ≠ peer_ip → s.family_blocks true q = false

/-- A prefix is decided again for a peer: by the direct loop of the termination, or by the
dump that the removal sets off when it ends the deferral. -/
def SentAgain_v4 (peer_ip q : IpAddr) (n : Nlri Ipv4Addr) : Prop :=
  (s.selection_deferral.v4_deferred = false ∧ s.Redecided_v4 q n) ∨
    (s.Released_v4 peer_ip ∧ s.Dumped_v4 q ∧ n.Canonical ∧
      ∃ e, s.rib.loc_rib.best_without peer_ip s.oracle_v4 n = some e
        ∧ s.rr_suppressed q (some e.1) = false)

def SentAgain_v6 (peer_ip q : IpAddr) (n : Nlri Ipv6Addr) : Prop :=
  s.Released_v6 peer_ip ∧ s.Dumped_v6 q ∧ n.Canonical ∧
    ∃ e, s.rib.loc_rib_v6.best_without peer_ip s.oracle_v6 n = some e
      ∧ s.rr_suppressed q (some e.1) = false

/-- The state in which the removal recomputes the deferral, outside helper mode. -/
def cut_off (peer_ip : IpAddr) : DaemonState :=
  ((s.close_session peer_ip).terminate_now peer_ip).forget_peer peer_ip

theorem direct_others_v4_export (ip q : IpAddr) (nlris : List (Nlri Ipv4Addr)) :
    (t.direct_others_v4 ip nlris).export_of_v4 q = t.export_of_v4 q ∧
      (t.direct_others_v4 ip nlris).export_of_v6 q = t.export_of_v6 q := by
  have hsess := (t.direct_others_v4_spec ip nlris q).1
  obtain ⟨_, _, _, hf⟩ := t.direct_others_v4_eq ip nlris
  unfold export_of_v4
  rw [hsess, hf]
  exact ⟨rfl, rfl⟩

/-- What the cut leaves of a peer that stays. -/
structure CutOff (s w : DaemonState) (peer_ip q : IpAddr) : Prop where
  best_v4 : ∀ n, w.rib.loc_rib.best_entry n
    = s.rib.loc_rib.best_without peer_ip s.oracle_v4 n
  best_v6 : ∀ n, w.rib.loc_rib_v6.best_entry n
    = s.rib.loc_rib_v6.best_without peer_ip s.oracle_v6 n
  export_v4 : w.export_of_v4 q = s.export_of_v4 q
  export_v6 : w.export_of_v6 q = s.export_of_v6 q
  out_v4 : ∀ n, w.adj_out_v4 q n
    = if s.selection_deferral.v4_deferred = false ∧ s.Redecided_v4 q n
      then s.export_of_v4 q (s.rib.loc_rib.best_without peer_ip s.oracle_v4 n)
      else s.adj_out_v4 q n
  out_v6 : w.adj_out_v6 q = s.adj_out_v6 q

/-- The direct loop leaves all this alone. -/
theorem cut_off_frame (ip : IpAddr) :
    (s.cut_off ip).selection_deferral = s.selection_deferral ∧
      (s.cut_off ip).rib = (((s.close_session ip).lose_routes ip).forget_peer ip).rib := by
  unfold cut_off
  rw [terminate_now_eq]
  obtain ⟨_, _, _, _, hd⟩ := ((s.close_session ip).lose_routes
    ip).direct_others_v4_frame ip (s.close_session ip).best_prefixes_v4
  rw [hd]
  exact ⟨rfl, rfl⟩

theorem cutOff_cut_off (hq : q ≠ ip) : CutOff s (s.cut_off ip) ip q := by
  have hk := (s.kept_close_session hq).trans ((s.close_session ip).kept_lose_routes hq)
  -- the state between the tables and the direct loop
  generalize ht : (s.close_session ip).lose_routes ip = t at hk
  have hbest4 : ∀ n, t.rib.loc_rib.best_entry n = s.rib.loc_rib.best_without ip s.oracle_v4 n := by
    intro n
    rw [← ht]
    exact (s.close_session ip).best_entry_lose_routes_v4 ip n
  have hbest6 : ∀ n, t.rib.loc_rib_v6.best_entry n
      = s.rib.loc_rib_v6.best_without ip s.oracle_v6 n := by
    intro n
    rw [← ht]
    exact (s.close_session ip).best_entry_lose_routes_v6 ip n
  have hdef : t.selection_deferral = s.selection_deferral := by
    rw [← ht]
    rfl
  have hcut : s.cut_off ip = ((t.direct_others_v4 ip s.best_prefixes_v4).emit_route_events
          s.best_prefixes_v4).forget_peer ip := by
    unfold cut_off
    rw [terminate_now_eq, ht]
    rfl
  have hf := ((t.direct_others_v4 ip s.best_prefixes_v4).emit_route_events
    s.best_prefixes_v4).kept_forget_peer hq
  obtain ⟨hexp4, hexp6⟩ := t.direct_others_v4_export ip q s.best_prefixes_v4
  have hrib := (s.cut_off_frame ip).2
  rw [ht] at hrib
  refine ⟨fun n => ?_, fun n => ?_, ?_, ?_, fun n => ?_, ?_⟩
  · rw [hrib]
    exact hbest4 n
  · rw [hrib]
    exact hbest6 n
  · rw [hcut, hf.export_v4]
    exact hexp4.trans hk.export_v4
  · rw [hcut, hf.export_v6]
    exact hexp6.trans hk.export_v6
  · rw [hcut, hf.out_v4]
    refine ((t.direct_others_v4_spec ip s.best_prefixes_v4 q).2 n).trans ?_
    rw [hk.out_v4, export_v4, hk.export_v4, hbest4]
    refine if_congr ?_ rfl rfl
    rw [hk.spoken_v4, hdef, mem_best_prefixes_v4]
    exact ⟨fun h => ⟨h.2.2, h.1.1, h.2.1⟩, fun h => ⟨⟨h.2.1, hq⟩, h.2.2, h.1⟩⟩
  · rw [hcut, hf.out_v6]
    exact (t.kept_v6_direct_others_v4 ip q s.best_prefixes_v4).1.trans hk.out_v6

theorem family_blocks_congr {s : DaemonState} (htypes : q ∈ w.rib.peer_types ↔ q ∈ s.rib.peer_types)
    (hcap : q ∈ w.ipv6_capable_peers ↔ q ∈ s.ipv6_capable_peers)
    (hadv : q ∈ w.rib.gr_advertised_peers ↔ q ∈ s.rib.gr_advertised_peers)
    (hrest : q ∈ w.rib.gr_peer_restarting ↔ q ∈ s.rib.gr_peer_restarting)
    (heor : q ∈ w.rib.eor_received ↔ q ∈ s.rib.eor_received)
    (heor6 : q ∈ w.rib.eor_received_v6 ↔ q ∈ s.rib.eor_received_v6) (is_v6 : Bool) :
    w.family_blocks is_v6 q = s.family_blocks is_v6 q := by
  unfold family_blocks
  simp only [htypes, hcap, hadv, hrest]
  cases is_v6 with
  | false => simp only [Bool.false_eq_true, if_false, heor]
  | true => simp only [if_true, heor6]

theorem rr_suppressed_congr {s : DaemonState} {src : IpAddr}
    (hclients : w.rib.rr_clients = s.rib.rr_clients)
    (hq : w.rib.peer_types.lookup q = s.rib.peer_types.lookup q)
    (hsrc : w.rib.peer_types.lookup src = s.rib.peer_types.lookup src) :
    w.rr_suppressed q (some src) = s.rr_suppressed q (some src) := by
  unfold rr_suppressed is_rr peer_type
  rw [hclients, hq]
  cases src with
  | V4 ip =>
    dsimp only
    rw [hsrc]
  | V6 ip => rfl

theorem cut_off_dumped (hq : q ≠ ip) :
    ((s.cut_off ip).Dumped_v4 q ↔ s.Dumped_v4 q) ∧
      ((s.cut_off ip).Dumped_v6 q ↔ s.Dumped_v6 q) ∧
      (∀ is_v6, (s.cut_off ip).family_blocks is_v6 q = s.family_blocks is_v6 q) ∧
      ∀ src, src ≠ ip →
        (s.cut_off ip).rr_suppressed q (some src) = s.rr_suppressed q (some src) := by
  have hmem : ∀ {V : Type} (m : HashMap IpAddr V), q ∈ (m.erase ip).erase ip ↔ q ∈ m := fun m => by
    simp [hq]
  have hmem1 : ∀ {V : Type} (m : HashMap IpAddr V), q ∈ m.erase ip ↔ q ∈ m :=
    fun m => by rw [AList.mem_erase]; exact and_iff_right hq
  have hlook : ∀ r, r ≠ ip → ∀ m : HashMap IpAddr PeerType,
      ((m.erase ip).erase ip).lookup r = m.lookup r := by
    intro r hr m
    rw [HashMap.lookup_erase_ite, if_neg hr, HashMap.lookup_erase_ite, if_neg hr]
  have htx := (((s.close_session ip).lose_routes ip).direct_others_v4_senders ip
    s.best_prefixes_v4 q)
  have hcut : s.cut_off ip = ((((s.close_session ip).lose_routes ip).direct_others_v4 ip
          s.best_prefixes_v4).emit_route_events s.best_prefixes_v4).forget_peer ip := rfl
  obtain ⟨_, _, txs, _, hd⟩ := ((s.close_session ip).lose_routes
    ip).direct_others_v4_frame ip s.best_prefixes_v4
  rw [hd] at htx
  rw [hcut, hd]
  have htx' : q ∈ txs.erase ip ↔ q ∈ s.update_senders := (hmem1 txs).trans htx
  refine ⟨?_, ?_, fun is_v6 => ?_, fun src hsrc => ?_⟩
  · exact and_congr (hmem _) (and_congr (hmem _) (and_congr htx' (hmem1 _)))
  · exact and_congr (hmem _) (and_congr (hmem _) (and_congr htx' (and_congr (hmem _) (hmem1 _))))
  · exact family_blocks_congr (hmem _) (hmem _) (hmem _) (hmem _) (hmem1 _) (hmem1 _) is_v6
  · refine rr_suppressed_congr rfl ?_ ?_
    · exact hlook q hq _
    · exact hlook src hsrc _

theorem cut_off_releases (ip : IpAddr) :
    ((s.cut_off ip).releases_v4 = true ↔ s.Released_v4 ip) ∧
      ((s.cut_off ip).releases_v6 = true ↔ s.Released_v6 ip) := by
  have hkeys : (s.cut_off ip).rib.peer_remote_as = s.rib.peer_remote_as.erase ip := by
    rw [(s.cut_off_frame ip).2]
    rfl
  have hblocks : ∀ is_v6, ((s.cut_off ip).rib.peer_remote_as.keys.any
          ((s.cut_off ip).family_blocks is_v6) = false ↔
        ∀ q ∈ s.rib.peer_remote_as, q ≠ ip → s.family_blocks is_v6 q = false) := by
    intro is_v6
    rw [List.any_eq_false, hkeys]
    constructor
    · intro h q hmem hq
      have hkey : q ∈ (s.rib.peer_remote_as.erase ip).keys :=
        AList.mem_keys.1 (AList.mem_erase.2 ⟨hq, hmem⟩)
      rw [← (s.cut_off_dumped hq).2.2.1]
      exact Bool.not_eq_true _ ▸ h q hkey
    · intro h q hkey
      obtain ⟨hq, hmem⟩ := AList.mem_erase.1 (AList.mem_keys.2 hkey)
      rw [(s.cut_off_dumped hq).2.2.1, h q hmem hq]
      exact Bool.false_ne_true
  unfold releases_v4 releases_v6 Released_v4 Released_v6
  rw [Bool.and_eq_true, Bool.and_eq_true, Bool.not_eq_true', Bool.not_eq_true', hblocks, hblocks,
    (s.cut_off_frame ip).1]
  exact ⟨Iff.rfl, Iff.rfl⟩

/-- A best route that is not held back, where the two states hold back the same. -/
theorem exists_unsuppressed {A : Type} [IpAddress A] [DecidableEq A] {rib : LocRib A} {n : Nlri A}
    {held held' : Option IpAddr → Bool}
    (h : ∀ e, rib.best_entry n = some e → held' (some e.1) = held (some e.1)) :
    ((rib.best_entry n).isSome ∧ held' (rib.best_peer n) = false) ↔
      ∃ e, rib.best_entry n = some e ∧ held (some e.1) = false := by
  rw [Option.isSome_iff_exists]
  constructor
  · rintro ⟨⟨e, he⟩, hs⟩
    rw [(LocRib.of_best_entry he).1, h e he] at hs
    exact ⟨e, he, hs⟩
  · rintro ⟨e, he, hs⟩
    rw [(LocRib.of_best_entry he).1, h e he]
    exact ⟨⟨e, he⟩, hs⟩

theorem cut_off_inDump_v4 (hq : q ≠ ip) (n : Nlri Ipv4Addr) :
    (s.cut_off ip).InDump_v4 q n ↔ s.Dumped_v4 q ∧ n.Canonical ∧
      ∃ e, s.rib.loc_rib.best_without ip s.oracle_v4 n = some e
        ∧ s.rr_suppressed q (some e.1) = false := by
  obtain ⟨hd, -, -, hrr⟩ := s.cut_off_dumped hq
  have hbest := (s.cutOff_cut_off hq).best_v4 n
  unfold InDump_v4
  rw [hd, mem_best_prefixes_v4, and_assoc, ← hbest]
  exact and_congr_right fun _ => and_congr_right fun _ => exists_unsuppressed fun e he =>
    hrr _ (LocRib.ne_of_best_without (hbest ▸ he))

theorem cut_off_inDump_v6 (hq : q ≠ ip) (n : Nlri Ipv6Addr) :
    (s.cut_off ip).InDump_v6 q n ↔ s.Dumped_v6 q ∧ n.Canonical ∧
      ∃ e, s.rib.loc_rib_v6.best_without ip s.oracle_v6 n = some e
        ∧ s.rr_suppressed q (some e.1) = false := by
  obtain ⟨-, hd, -, hrr⟩ := s.cut_off_dumped hq
  have hbest := (s.cutOff_cut_off hq).best_v6 n
  unfold InDump_v6
  rw [hd, mem_best_prefixes_v6, and_assoc, ← hbest]
  exact and_congr_right fun _ => and_congr_right fun _ => exists_unsuppressed fun e he =>
    hrr _ (LocRib.ne_of_best_without (hbest ▸ he))

/-! ## No ghosts -/

/-- After the removal of a peer nothing of it is left: no candidate, none of its own tables,
and for no prefix whose best route was the peer's does another peer's Adj-RIB-Out hold
anything but what it is to be sent now. -/
structure NoGhosts (s u : DaemonState) (peer_ip : IpAddr) : Prop where
  candidate_v4 : ∀ n, u.rib.loc_rib.candidate n peer_ip = none
  candidate_v6 : ∀ n, u.rib.loc_rib_v6.candidate n peer_ip = none
  forgotten : u.Forgotten peer_ip
  out_v4 : ∀ q ∈ u.rib.peer_types, q ≠ peer_ip → ∀ n r,
    s.rib.loc_rib.best_entry n = some (peer_ip, r) →
      u.adj_out_v4 q n = none ∨ u.adj_out_v4 q n = u.export_v4 q n
  out_v6 : ∀ q ∈ u.rib.peer_types, q ≠ peer_ip → ∀ n r,
    s.rib.loc_rib_v6.best_entry n = some (peer_ip, r) →
      u.adj_out_v6 q n = none ∨ u.adj_out_v6 q n = u.export_v6 q n

/-- For every prefix that a peer may have got from the one to be removed: it is decided
again, or there is nothing to correct. -/
structure Covered (s : DaemonState) (peer_ip q : IpAddr) : Prop where
  v4 : ∀ n r, s.rib.loc_rib.best_entry n = some (peer_ip, r) →
    s.SentAgain_v4 peer_ip q n ∨ s.adj_out_v4 q n = none ∨
      s.adj_out_v4 q n = s.export_of_v4 q (s.rib.loc_rib.best_without peer_ip s.oracle_v4 n)
  v6 : ∀ n r, s.rib.loc_rib_v6.best_entry n = some (peer_ip, r) →
    s.SentAgain_v6 peer_ip q n ∨ s.adj_out_v6 q n = none ∨
      s.adj_out_v6 q n = s.export_of_v6 q (s.rib.loc_rib_v6.best_without peer_ip s.oracle_v6 n)

/-- What the removal of a peer, outside helper mode, leaves in an Adj-RIB-Out. -/
theorem removal_out_v4 (hq : q ≠ ip) (n : Nlri Ipv4Addr) :
    ((s.cut_off ip).recompute_selection_deferral.adj_out_v4 q n = none ∨
        (s.cut_off ip).recompute_selection_deferral.adj_out_v4 q n
          = (s.cut_off ip).recompute_selection_deferral.export_v4 q n) ↔
      s.SentAgain_v4 ip q n ∨ s.adj_out_v4 q n = none ∨
        s.adj_out_v4 q n = s.export_of_v4 q (s.rib.loc_rib.best_without ip s.oracle_v4 n) := by
  have hc := s.cutOff_cut_off hq
  have hr := (s.cut_off ip).recomputed_recompute q
  have hrel := (s.cut_off_releases ip).1
  have hdump := s.cut_off_inDump_v4 hq n
  rw [export_v4, hr.export_v4, hr.rib, hr.out_v4 n, export_v4, hc.export_v4, hc.best_v4 n,
    hc.out_v4 n]
  by_cases hsent : s.SentAgain_v4 ip q n
  · refine iff_of_true (Or.inr ?_) (Or.inl hsent)
    rcases hsent with hloop | ⟨hreleased, hin⟩
    · rw [if_pos hloop, ite_self]
    · rw [if_pos ⟨hrel.2 hreleased, hdump.2 hin⟩]
  · rw [if_neg fun h => hsent (.inr ⟨hrel.1 h.1, hdump.1 h.2⟩), if_neg fun h => hsent (.inl h)]
    exact (or_iff_right hsent).symm

theorem removal_out_v6 (hq : q ≠ ip) (n : Nlri Ipv6Addr) :
    ((s.cut_off ip).recompute_selection_deferral.adj_out_v6 q n = none ∨
        (s.cut_off ip).recompute_selection_deferral.adj_out_v6 q n
          = (s.cut_off ip).recompute_selection_deferral.export_v6 q n) ↔
      s.SentAgain_v6 ip q n ∨ s.adj_out_v6 q n = none ∨
        s.adj_out_v6 q n = s.export_of_v6 q (s.rib.loc_rib_v6.best_without ip s.oracle_v6 n) := by
  have hc := s.cutOff_cut_off hq
  have hr := (s.cut_off ip).recomputed_recompute q
  have hrel := (s.cut_off_releases ip).2
  have hdump := s.cut_off_inDump_v6 hq n
  rw [export_v6, hr.export_v6, hr.rib, hr.out_v6 n, export_v6, hc.export_v6, hc.best_v6 n,
    hc.out_v6]
  by_cases hsent : s.SentAgain_v6 ip q n
  · rw [if_pos ⟨hrel.2 hsent.1, hdump.2 hsent.2⟩]
    exact iff_of_true (Or.inr rfl) (Or.inl hsent)
  · rw [if_neg fun h => hsent ⟨hrel.1 h.1, hdump.1 h.2⟩]
    exact (or_iff_right hsent).symm

theorem noGhosts_cut_off_iff (ip : IpAddr) :
    NoGhosts s (s.cut_off ip).recompute_selection_deferral ip ↔
      ∀ q ∈ s.rib.peer_types, q ≠ ip → s.Covered ip q := by
  have hrib := ((s.cut_off ip).recomputed_recompute ip).rib.trans (s.cut_off_frame ip).2
  have hest : ∀ q, q ≠ ip → (q ∈ (s.cut_off ip).recompute_selection_deferral.rib.peer_types ↔
        q ∈ s.rib.peer_types) := by
    intro q hq
    rw [hrib]
    refine (AList.mem_erase.trans (and_congr_right fun _ => AList.mem_erase)).trans ?_
    simp [hq]
  constructor
  · intro h q hmem hq
    exact ⟨fun n r hbest =>
      (s.removal_out_v4 hq n).1 (h.out_v4 q ((hest q hq).2 hmem) hq n r hbest),
      fun n r hbest => (s.removal_out_v6 hq n).1 (h.out_v6 q ((hest q hq).2 hmem) hq n r hbest)⟩
  · intro h
    refine ⟨fun n => ?_, fun n => ?_, forgotten_removal _ ip, ?_, ?_⟩
    · rw [hrib]
      exact (LocRib.candidate_withdraw_peer ..).trans (if_pos rfl)
    · rw [hrib]
      exact (LocRib.candidate_withdraw_peer ..).trans (if_pos rfl)
    · intro q hmem hq n r hbest
      exact (s.removal_out_v4 hq n).2 ((h q ((hest q hq).1 hmem) hq).v4 n r hbest)
    · intro q hmem hq n r hbest
      exact (s.removal_out_v6 hq n).2 ((h q ((hest q hq).1 hmem) hq).v6 n r hbest)

theorem noGhosts_helper_iff {s : DaemonState} (hgr : s.enter_gr ip reason = true) (clk : Clock) :
    NoGhosts s ((s.on_terminated clk ip reason).forget_peer
        ip).recompute_selection_deferral ip ↔ s.Unheard ip := by
  have hrib := (((s.on_terminated clk ip reason).forget_peer ip).recomputed_recompute ip).rib
  have hcand := no_candidate_helper_iff hgr clk
  constructor
  · intro h
    have h4 := h.candidate_v4
    have h6 := h.candidate_v6
    rw [hrib] at h4 h6
    exact hcand.1 ⟨h4, h6⟩
  · intro h
    obtain ⟨h4, h6⟩ := hcand.2 h
    refine ⟨?_, ?_, forgotten_removal _ ip, ?_, ?_⟩
    · rw [hrib]
      exact h4
    · rw [hrib]
      exact h6
    -- without a candidate the peer was not the source of a best route
    · intro q _ _ n r hbest
      have hnone := h.candidate_v4 n
      rw [(LocRib.of_best_entry hbest).2] at hnone
      cases hnone
    · intro q _ _ n r hbest
      have hnone := h.candidate_v6 n
      rw [(LocRib.of_best_entry hbest).2] at hnone
      cases hnone

theorem noGhosts_unnoted (u : DaemonState) (ip : IpAddr) :
    NoGhosts (s.unnoted ip) u ip ↔ NoGhosts s u ip :=
  ⟨fun h => ⟨h.candidate_v4, h.candidate_v6, h.forgotten, h.out_v4, h.out_v6⟩,
    fun h => ⟨h.candidate_v4, h.candidate_v6, h.forgotten, h.out_v4, h.out_v6⟩⟩

theorem unheard_unnoted (ip : IpAddr) : (s.unnoted ip).Unheard ip ↔ s.Unheard ip :=
  ⟨fun h => ⟨h.candidate_v4, h.candidate_v6, h.announced_v4, h.announced_v6⟩,
    fun h => ⟨h.candidate_v4, h.candidate_v6, h.announced_v4, h.announced_v6⟩⟩

theorem covered_unnoted (ip q : IpAddr) : (s.unnoted ip).Covered ip q ↔ s.Covered ip q :=
  ⟨fun h => ⟨h.v4, h.v6⟩, fun h => ⟨h.v4, h.v6⟩⟩

/-- **The removal of a peer, exactly.** In helper mode it leaves nothing behind if and only if
there was nothing. Otherwise what a peer had from the removed one must be decided again, or
need no correction. -/
theorem removal_iff (s : DaemonState) (hs : s.Reachable) (clk : Clock) (peer_ip : IpAddr)
    (reason : TerminationReason) (hnoted : peer_ip ∈ s.pending_removal) :
    NoGhosts s (s.step (.Session clk peer_ip (.Terminated reason))) peer_ip ↔
      if s.enters_helper peer_ip reason then s.Unheard peer_ip
      else ∀ q ∈ s.rib.peer_types, q ≠ peer_ip → s.Covered peer_ip q := by
  have hstep : s.step (.Session clk peer_ip (.Terminated reason))
      = s.handle_terminated clk peer_ip reason := rfl
  rw [hstep, handle_terminated_of_noted hnoted (hs.removalKnown peer_ip hnoted)]
  rw [← noGhosts_unnoted]
  have hgr := s.enter_gr_unnoted peer_ip reason
  split
  · rename_i hhelper
    rw [hhelper] at hgr
    exact (noGhosts_helper_iff hgr clk).trans (s.unheard_unnoted peer_ip)
  · rename_i hhelper
    rw [Bool.not_eq_true] at hhelper
    rw [hhelper] at hgr
    rw [on_terminated, hgr, if_neg Bool.false_ne_true]
    refine (noGhosts_cut_off_iff (s.unnoted peer_ip) peer_ip).trans ?_
    exact forall_congr' fun q => forall_congr' fun _ => forall_congr' fun _ =>
      s.covered_unnoted peer_ip q

end DaemonState

/-- 10.0.0.2 can restart gracefully and has announced 10.0.0.0/8, 10.0.0.3 has heard of it,
and the operator has asked for the removal of 10.0.0.2. -/
def before_removal : DaemonState :=
  (small_daemon [open_peer 2 65002, open_peer 3 65003] none []).run
    [session_up 2 .External [.GracefulRestart 0 120 [⟨.IPV4_UNICAST, true⟩]],
      session_up 3 .External [], update_from 2 0 (announcement [65002] [Nlri.v4 10 0 0 0 8]),
      .RemovePeer (peer_addr 2)]

/-- A session that we stop leaves nothing behind. -/
theorem removal_after_stop :
    before_removal.NoGhosts
      (before_removal.step (.Session ⟨0, 0⟩ (peer_addr 2) (.Terminated .OperatorStop)))
      (peer_addr 2) := by
  refine (DaemonState.removal_iff before_removal (reachable_small_daemon ..) ⟨0, 0⟩
    (peer_addr 2) .OperatorStop (by decide +kernel)).2 ?_
  intro q hq hne
  have hq3 : q = peer_addr 3 := by
    have hkeys : before_removal.rib.peer_types.keys = [peer_addr 3, peer_addr 2] := by
      decide +kernel
    rw [AList.mem_keys, hkeys] at hq
    simpa [hne] using hq
  subst hq3
  constructor
  · intro n r hbest
    have hmem := HashMap.mem_of_lookup (LocRib.of_best_entry hbest).2
    have hkeys : before_removal.rib.loc_rib.candidates.keys
        = [(Nlri.v4 10 0 0 0 8, peer_addr 2)] := by decide +kernel
    rw [AList.mem_keys, hkeys, List.mem_singleton, Prod.mk.injEq] at hmem
    rw [hmem.1]
    exact .inl (.inl ⟨by decide +kernel, by decide +kernel⟩)
  · intro n r hbest
    have hmem := HashMap.mem_of_lookup (LocRib.of_best_entry hbest).2
    -- there is no IPv6 candidate
    cases hmem

/-- A session that breaks leaves the candidate. -/
theorem removal_after_break :
    before_removal.Reachable ∧ peer_addr 2 ∈ before_removal.pending_removal ∧
      ¬before_removal.NoGhosts
        (before_removal.step (.Session ⟨0, 0⟩ (peer_addr 2) (.Terminated .Unclean)))
        (peer_addr 2) := by
  refine ⟨reachable_small_daemon .., by decide +kernel, fun h => ?_⟩
  have hleft : (before_removal.step (.Session ⟨0, 0⟩ (peer_addr 2)
      (.Terminated .Unclean))).rib.loc_rib.candidate (Nlri.v4 10 0 0 0 8) (peer_addr 2)
      ≠ none := by decide +kernel
  exact hleft (h.candidate_v4 _)

end Pathvector
