/-
# Who is configured

Which peers the daemon knows, which of them are about to be removed and which are
route-reflector clients. Few events touch that. The run invariant is that a peer waiting for its
removal is a configured one.
-/
import Pathvector.Daemon.Standing

set_option autoImplicit false

namespace Pathvector

namespace DaemonState

variable {s : DaemonState} {peer_ip ip : IpAddr}

/-! ## The end of a session in the event loop -/

/-- The daemon after the event loop has taken the note of a removal away. -/
def unnoted (s : DaemonState) (peer_ip : IpAddr) : DaemonState :=
  { s with pending_removal := s.pending_removal.erase peer_ip }

theorem handle_terminated_of_noted (hnoted : ip ∈ s.pending_removal)
    (hknown : ip ∈ s.adj_ribs_in) (clk : Clock) (reason : TerminationReason) :
    s.handle_terminated clk ip reason
      = (((s.unnoted ip).on_terminated clk ip reason).forget_peer
          ip).recompute_selection_deferral := by
  have hknown' : ip ∈ ((s.unnoted ip).on_terminated clk ip reason).adj_ribs_in :=
    (configured_on_terminated _ clk ip reason ip).2 hknown
  show (if decide (ip ∈ s.pending_removal) = true
    then (((s.unnoted ip).on_terminated clk ip reason).remove_peer ip).1
    else (s.unnoted ip).on_terminated clk ip reason) = _
  rw [if_pos (decide_eq_true hnoted), remove_peer, if_pos hknown']

theorem handle_terminated_of_unnoted (h : ¬(ip ∈ s.pending_removal ∧ ip ∈ s.adj_ribs_in))
    (clk : Clock) (reason : TerminationReason) :
    s.handle_terminated clk ip reason = (s.unnoted ip).on_terminated clk ip reason := by
  have hknown := configured_on_terminated (s.unnoted ip) clk ip reason ip
  show (if decide (ip ∈ s.pending_removal) = true
    then (((s.unnoted ip).on_terminated clk ip reason).remove_peer ip).1
    else (s.unnoted ip).on_terminated clk ip reason) = _
  by_cases hnoted : ip ∈ s.pending_removal
  · rw [if_pos (decide_eq_true hnoted), remove_peer, if_neg fun h' => h ⟨hnoted, hknown.1 h'⟩]
  · rw [if_neg (by simpa using hnoted)]

theorem up_handle_terminated (s : DaemonState) (clk : Clock) (ip : IpAddr)
    (reason : TerminationReason) (q : IpAddr) :
    (s.handle_terminated clk ip reason).rib.peer_types.lookup q
      = if q = ip then none else s.rib.peer_types.lookup q := by
  have hup : ((s.unnoted ip).on_terminated clk ip reason).rib.peer_types
      = s.rib.peer_types.erase ip :=
    congrArg Standing.up (standing_on_terminated (s.unnoted ip) clk ip reason)
  by_cases h : ip ∈ s.pending_removal ∧ ip ∈ s.adj_ribs_in
  · have hlast := congrArg Standing.up (standing_recompute_selection_deferral
      (((s.unnoted ip).on_terminated clk ip reason).forget_peer ip))
    rw [← handle_terminated_of_noted h.1 h.2] at hlast
    refine (congrArg (AList.lookup q) hlast).trans ((HashMap.lookup_erase_ite ..).trans ?_)
    rw [hup, HashMap.lookup_erase_ite]
    split <;> rfl
  · rw [handle_terminated_of_unnoted h, hup, HashMap.lookup_erase_ite]

theorem mem_up_handle_terminated (s : DaemonState) (clk : Clock) (ip : IpAddr)
    (reason : TerminationReason) (q : IpAddr) :
    q ∈ (s.handle_terminated clk ip reason).rib.peer_types ↔ q ≠ ip ∧ q ∈ s.rib.peer_types := by
  rw [← AList.lookup_isSome, up_handle_terminated, ← AList.lookup_isSome]
  split <;> simp [*]

/-- The termination of a peer that is to be removed enters helper mode: `enter_gr` without
the note. -/
def enters_helper (s : DaemonState) (peer_ip : IpAddr) (reason : TerminationReason) : Bool :=
  decide (0 < s.gr_restart_time peer_ip)
    && (reason == .Unclean || s.notification_gr_eligible peer_ip reason)

theorem enter_gr_unnoted (s : DaemonState) (ip : IpAddr) (reason : TerminationReason) :
    (s.unnoted ip).enter_gr ip reason = s.enters_helper ip reason := by
  have hgone : ip ∉ (s.unnoted ip).pending_removal := by
    unfold unnoted
    rw [AList.mem_erase]
    exact fun h => h.1 rfl
  unfold enter_gr
  rw [decide_eq_true hgone]
  rfl

/-! ## A peer that waits for its removal is configured -/

def RemovalKnown (s : DaemonState) : Prop := ∀ ip ∈ s.pending_removal, ip ∈ s.adj_ribs_in

theorem RemovalKnown.of_standing {s' : DaemonState} (hs : s.RemovalKnown) {st : Standing}
    (h : s'.standing = st) (hin : st.configured = s.standing.configured)
    (hp : st.pending_removal = s.standing.pending_removal) : s'.RemovalKnown := by
  change ∀ ip ∈ s'.standing.pending_removal, s'.standing.configured ip
  rw [h, hin, hp]
  exact hs

theorem removalKnown_handle_terminated (hs : s.RemovalKnown) (clk : Clock) (peer_ip : IpAddr)
    (reason : TerminationReason) : (s.handle_terminated clk peer_ip reason).RemovalKnown := by
  have hmid := standing_on_terminated (s.unnoted peer_ip) clk peer_ip reason
  have hunnoted : (s.unnoted peer_ip).RemovalKnown := fun ip hip => hs ip (AList.mem_erase.1 hip).2
  by_cases h : peer_ip ∈ s.pending_removal ∧ peer_ip ∈ s.adj_ribs_in
  · rw [handle_terminated_of_noted h.1 h.2]
    refine RemovalKnown.of_standing (s := forget_peer _ peer_ip) ?_
      (standing_recompute_selection_deferral _) rfl rfl
    intro ip hip
    -- the peer goes, and it does not wait any more
    have hip' : ip ∈ (s.unnoted peer_ip).pending_removal :=
      (congrArg (ip ∈ ·.pending_removal) hmid).mp hip
    exact AList.mem_erase.2 ⟨(AList.mem_erase.1 hip').1,
      (configured_on_terminated _ clk peer_ip reason ip).2 (hunnoted ip hip')⟩
  · rw [handle_terminated_of_unnoted h]
    exact hunnoted.of_standing hmid rfl rfl

theorem removalKnown_step (hs : s.RemovalKnown) (e : Event) : (s.step e).RemovalKnown := by
  by_cases he : e.about_routes = true
  · obtain ⟨_, _, h⟩ := s.standing_step he
    exact hs.of_standing h rfl rfl
  cases e with
  | Session clk peer_ip event =>
    cases event with
    | Established info =>
      obtain ⟨_, h, -⟩ := s.standing_on_established peer_ip info.peer_bgp_id info.peer_type
        info.peer_capabilities info.local_addr
      simp only [step, on_session_event]
      split
      · exact hs
      · exact hs.of_standing h rfl rfl
    | Terminated reason => exact removalKnown_handle_terminated hs clk peer_ip reason
    | RouteUpdate msg => exact absurd rfl he
  | GrDeadlines clk => exact hs.of_standing (s.standing_on_gr_deadlines clk) rfl rfl
  | AddPeer peer tx =>
    simp only [step, add_peer]
    split
    · exact hs
    · exact fun ip hip => (AList.mem_insert s.adj_ribs_in).2 (.inr (hs ip hip))
  | RemovePeer peer_ip =>
    simp only [step, request_removal]
    split
    · rename_i hin
      intro ip hip
      rcases HashSet.mem_add.1 hip with rfl | hip
      · exact hin
      · exact hs ip hip
    · exact hs
  | _ => exact absurd rfl he

/-- **In every state the daemon gets into, a peer that waits for its removal is
configured.** -/
theorem Reachable.removalKnown (h : s.Reachable) : s.RemovalKnown := by
  obtain ⟨_, _, _, _, _, _, _, _, events, rfl⟩ := h
  refine List.foldl_invariant step RemovalKnown events _ ?_ fun s' e _ hs' =>
    removalKnown_step hs' e
  intro ip hip
  exact absurd hip (AList.notMem_empty ip)

end DaemonState

end Pathvector
