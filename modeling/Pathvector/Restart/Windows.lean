/-
# Sessions and restart windows

Which peers are up, which are in their restart window, and which families their capability
listed: three maps that sessions and the clock change and nothing else does (`sameWindows_step`).
-/
import Pathvector.Tables.Refinement

set_option autoImplicit false

namespace Pathvector

namespace DaemonState

variable (s : DaemonState) (clk : Clock) (ip : IpAddr)

/-- The same peers are up and in their restart windows, with the same families. -/
structure SameWindows (s s' : DaemonState) : Prop where
  deadlines : s'.gr.deadlines = s.gr.deadlines
  families : s'.gr.peer_families = s.gr.peer_families
  up : s'.rib.peer_types = s.rib.peer_types

theorem SameWindows.of_standing {s s' : DaemonState} {st : Standing} (h : s'.standing = st)
    (hd : st.deadlines = s.standing.deadlines) (hf : st.families = s.standing.families)
    (hu : st.up = s.standing.up) : SameWindows s s' :=
  ⟨(congrArg Standing.deadlines h).trans hd, (congrArg Standing.families h).trans hf,
    (congrArg Standing.up h).trans hu⟩

theorem sameWindows_on_gr_deadlines :
    SameWindows (s.drain_expired clk.instant).1 (s.on_gr_deadlines clk) :=
  .of_standing (s.standing_on_gr_deadlines clk) rfl rfl rfl

/-! ## Sessions -/

/-- A session comes up: the window is over, and the family list is the peer's business. -/
theorem windows_on_established (peer_bgp_id : Ipv4Addr) (peer_type : PeerType)
    (caps : List Capability) (local_addr : Option IpAddr) :
    (s.on_established ip peer_bgp_id peer_type caps local_addr).gr.deadlines
        = s.gr.deadlines.erase ip ∧
      (s.on_established ip peer_bgp_id peer_type caps local_addr).rib.peer_types
        = s.rib.peer_types.insert ip peer_type ∧
      ∀ q ≠ ip, (s.on_established ip peer_bgp_id peer_type caps
        local_addr).gr.peer_families.lookup q = s.gr.peer_families.lookup q := by
  obtain ⟨families, h, hother⟩ := s.standing_on_established ip peer_bgp_id peer_type caps local_addr
  have hf : (s.on_established ip peer_bgp_id peer_type caps local_addr).gr.peer_families
      = families := congrArg Standing.families h
  refine ⟨congrArg Standing.deadlines h, congrArg Standing.up h, fun q hq => ?_⟩
  rw [hf]
  exact hother q hq

theorem windows_on_terminated (reason : TerminationReason) :
    (s.on_terminated clk ip reason).gr.deadlines
        = (if s.enter_gr ip reason then s.gr.deadlines.insert ip
            (clk.instant + s.gr_restart_time ip * 1000) else s.gr.deadlines) ∧
      (s.on_terminated clk ip reason).rib.peer_types = s.rib.peer_types.erase ip ∧
      (s.on_terminated clk ip reason).gr.peer_families = s.gr.peer_families := by
  have h := s.standing_on_terminated clk ip reason
  exact ⟨congrArg Standing.deadlines h, congrArg Standing.up h, congrArg Standing.families h⟩

/-- The loop handles the end of a session. A peer that is removed takes its window along. -/
theorem windows_handle_terminated (reason : TerminationReason) :
    let s' := s.handle_terminated clk ip reason
    let removed := ip ∈ s.pending_removal ∧ ip ∈ s.adj_ribs_in
    let gr := (s.unnoted ip).enter_gr ip reason
    (ip ∈ s'.gr.deadlines ↔ ¬removed ∧ (gr = true ∨ ip ∈ s.gr.deadlines)) ∧
      (∀ q ≠ ip, (q ∈ s'.gr.deadlines ↔ q ∈ s.gr.deadlines)) ∧
      (¬removed → s'.gr.peer_families = s.gr.peer_families) ∧
      (∀ q ≠ ip, s'.gr.peer_families.lookup q = s.gr.peer_families.lookup q) ∧
      ∀ q, q ∈ s'.rib.peer_types ↔ q ≠ ip ∧ q ∈ s.rib.peer_types := by
  intro s' removed gr
  obtain ⟨hd, hup, hf⟩ := windows_on_terminated (s.unnoted ip) clk ip reason
  have hmem : ∀ q, q ∈ ((s.unnoted ip).on_terminated clk ip reason).gr.deadlines
      ↔ (gr = true ∧ q = ip) ∨ q ∈ s.gr.deadlines := by
    intro q
    rw [hd]
    by_cases hgr : gr = true
    · rw [if_pos hgr, AList.mem_insert]
      simp only [hgr, true_and]
      rfl
    · rw [if_neg hgr]
      exact ⟨.inr, fun h => h.elim (fun h => absurd h.1 hgr) id⟩
  by_cases hrem : ip ∈ s.pending_removal ∧ ip ∈ s.adj_ribs_in
  · -- the window may be opened first, but `forget_peer` erases it
    have hs' : s' = _ := handle_terminated_of_noted hrem.1 hrem.2 clk reason
    have hlast := SameWindows.of_standing (standing_recompute_selection_deferral
      (((s.unnoted ip).on_terminated clk ip reason).forget_peer ip)) rfl rfl rfl
    rw [← hs'] at hlast
    refine ⟨?_, ?_, fun h => absurd hrem h, ?_, s.mem_up_handle_terminated clk ip reason⟩
    · rw [hlast.deadlines]
      change ip ∈ AList.erase ip _ ↔ _
      simp [removed, hrem]
    · intro q hq
      rw [hlast.deadlines]
      change q ∈ AList.erase ip _ ↔ _
      rw [AList.mem_erase, hmem]
      simp [hq]
    · intro q hq
      rw [hlast.families]
      refine (AList.lookup_erase_ne hq).trans ?_
      rw [hf]
      rfl
  · have hs' : s' = _ := handle_terminated_of_unnoted hrem clk reason
    refine ⟨?_, ?_, fun _ => ?_, fun q _ => ?_, s.mem_up_handle_terminated clk ip reason⟩
    all_goals rw [hs']
    · rw [hmem]
      simp [removed, hrem]
    · intro q hq
      rw [hmem]
      simp [hq]
    · exact hf
    · rw [hf]
      rfl

end DaemonState

/-! ## The step -/

/-- Sessions that come and go and the clock are what changes windows. -/
def Event.keeps_windows : Event → Bool
  | .Session _ _ (.Established _) | .Session _ _ (.Terminated _) | .GrDeadlines _ => false
  | _ => true

namespace DaemonState

theorem sameWindows_step (s : DaemonState) {e : Event} (he : e.keeps_windows = true) :
    SameWindows s (s.step e) := by
  by_cases hroutes : e.about_routes = true
  · obtain ⟨_, _, h⟩ := s.standing_step hroutes
    exact .of_standing h rfl rfl rfl
  cases e with
  | Session clk p event =>
    cases event with
    | Established info | Terminated reason => cases he
    | RouteUpdate msg => exact absurd rfl hroutes
  | GrDeadlines clk => cases he
  | AddPeer peer tx =>
    simp only [step, add_peer]
    split <;> exact ⟨rfl, rfl, rfl⟩
  | RemovePeer p =>
    simp only [step, request_removal]
    split <;> exact ⟨rfl, rfl, rfl⟩
  | _ => exact absurd rfl hroutes

end DaemonState

end Pathvector
