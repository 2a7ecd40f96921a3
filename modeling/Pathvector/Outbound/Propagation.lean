/-
# Buffered propagation, peer by peer

`propagate_to_all_peers` decides a list of prefixes for every established peer and keeps the
decisions for later. An iteration writes four maps at its own peer's key, so the whole loop is
read one peer at a time, as a function on the four entries (`propagate_line`).
-/
import Pathvector.Outbound.Views

set_option autoImplicit false

namespace Pathvector

/-- The entries of the maps that buffered IPv4 propagation writes for a peer. -/
structure BufferLine where
  out : Option (AdjRibOut Ipv4Addr)
  last_sent : Option (HashMap (Nlri Ipv4Addr) ℕ)
  waiting : Option (HashSet (Nlri Ipv4Addr))
  pending : Option (List (PrefixDecision Ipv4Addr))

/-- The entries that buffered IPv6 propagation writes. There is no MRAI gate for IPv6. -/
structure BufferLineV6 where
  out : Option (AdjRibOut Ipv6Addr)
  pending : Option (List (PrefixDecision Ipv6Addr))

namespace DaemonState

variable (s : DaemonState) (clk : Clock) (nlris : List (Nlri Ipv4Addr)) {r q : IpAddr}

def buffer_line (s : DaemonState) (q : IpAddr) : BufferLine where
  out := s.adj_ribs_out.lookup q
  last_sent := s.mrai_last_sent.lookup q
  waiting := s.mrai_pending.lookup q
  pending := s.pending_decisions.lookup q

def buffer_line_v6 (s : DaemonState) (q : IpAddr) : BufferLineV6 where
  out := s.adj_ribs_out_v6.lookup q
  pending := s.pending_decisions_v6.lookup q

/-- What an iteration of `propagate_to_all_peers` makes of the entries of its peer. -/
def propagate_line (s : DaemonState) (now : ℕ) (nlris : List (Nlri Ipv4Addr)) (q : IpAddr)
    (l : BufferLine) : BufferLine :=
  match s.export_policies.lookup q, l.out with
  | some export_policy, some out =>
    let r := decide_all
      (s.checked_v4 q export_policy s.selection_deferral.v4_deferred) nlris out
    if s.peer_type q = .External then
      let g := MraiState.gate_all now ⟨l.last_sent.getD ∅, l.waiting.getD ∅⟩ r.2
      ⟨some r.1, some g.1.last_sent, some g.1.pending, some (l.pending.getD [] ++ g.2)⟩
    else ⟨some r.1, l.last_sent, l.waiting, some (l.pending.getD [] ++ r.2)⟩
  | _, _ => l

/-- What an iteration of `propagate_to_all_peers_v6` makes of the entries of its peer. -/
def propagate_line_v6 (s : DaemonState) (nlris : List (Nlri Ipv6Addr)) (q : IpAddr)
    (l : BufferLineV6) : BufferLineV6 :=
  match s.export_policies_v6.lookup q, l.out with
  | some export_policy, some out =>
    let r := decide_all
      (s.checked_v6 q export_policy s.selection_deferral.v6_deferred) nlris out
    ⟨some r.1, some (l.pending.getD [] ++ r.2)⟩
  | _, _ => l

theorem buffer_line_step_self (s : DaemonState) (q : IpAddr) :
    (propagate_step clk nlris s q).buffer_line q
      = s.propagate_line clk.instant nlris q (s.buffer_line q) := by
  unfold propagate_step propagate_line buffer_line
  rcases s.export_policies.lookup q with _ | policy
  · rfl
  · rcases hout : s.adj_ribs_out.lookup q with _ | out
    · simp only [hout]
    · dsimp only
      generalize decide_all (s.checked_v4 q policy s.selection_deferral.v4_deferred) nlris out = r
      unfold apply_mrai mrai
      have hpt : ({ s with adj_ribs_out := s.adj_ribs_out.insert q r.1 } : DaemonState).peer_type q
          = s.peer_type q := rfl
      rw [hpt]
      by_cases h : s.peer_type q = .External
      · simp only [if_pos h, buffer_v4, AList.lookup_insert]
      · simp only [if_neg h, buffer_v4, AList.lookup_insert]

theorem buffer_line_step_of_ne (s : DaemonState) (hq : q ≠ r) :
    (propagate_step clk nlris s r).buffer_line q = s.buffer_line q := by
  unfold propagate_step
  split
  · dsimp only
    unfold apply_mrai
    split
    · simp only [buffer_line, buffer_v4, AList.lookup_insert_ne hq]
    · simp only [buffer_line, buffer_v4, AList.lookup_insert_ne hq]
  · rfl

/-- **The buffered loop, read at one peer.** -/
theorem buffer_line_propagate (q : IpAddr) :
    (s.propagate_to_all_peers clk nlris).buffer_line q = if q ∈ s.rib.peer_types
      then s.propagate_line clk.instant nlris q (s.buffer_line q) else s.buffer_line q := by
  have h := List.foldl_pointwise buffer_line (propagate_step clk nlris)
    (s.propagate_line clk.instant nlris) (BufferedFrame s)
    (fun s' r hs => hs.trans (propagate_step_frame clk nlris s' r)) ?_ ?_
    s.rib.peer_types.keys s.rib.peer_types.keys_nodup s (.refl s) q
  · unfold propagate_to_all_peers
    simpa only [AList.mem_keys] using h
  · rintro s' r ⟨_, _, _, _, rfl⟩
    rw [buffer_line_step_self]
    rfl
  · intro s' r q' _ hne
    exact buffer_line_step_of_ne clk nlris s' hne

theorem buffer_line_step_v6_self (nlris : List (Nlri Ipv6Addr)) (s : DaemonState) (q : IpAddr) :
    (propagate_step_v6 nlris s q).buffer_line_v6 q
      = s.propagate_line_v6 nlris q (s.buffer_line_v6 q) := by
  unfold propagate_step_v6 propagate_line_v6 buffer_line_v6
  rcases s.export_policies_v6.lookup q with _ | policy
  · rfl
  · rcases hout : s.adj_ribs_out_v6.lookup q with _ | out
    · simp only [hout]
    · simp only [buffer_v6, AList.lookup_insert]

theorem buffer_line_step_v6_of_ne (nlris : List (Nlri Ipv6Addr)) (s : DaemonState) (hq : q ≠ r) :
    (propagate_step_v6 nlris s r).buffer_line_v6 q = s.buffer_line_v6 q := by
  unfold propagate_step_v6
  split
  · simp only [buffer_line_v6, buffer_v6, AList.lookup_insert_ne hq]
  · rfl

theorem buffer_line_propagate_v6 (nlris : List (Nlri Ipv6Addr)) (q : IpAddr) :
    (s.propagate_to_all_peers_v6 nlris).buffer_line_v6 q
      = if q ∈ s.rib.peer_types ∧ q ∈ s.ipv6_capable_peers
        then s.propagate_line_v6 nlris q (s.buffer_line_v6 q) else s.buffer_line_v6 q := by
  have h := List.foldl_pointwise buffer_line_v6 (propagate_step_v6 nlris)
    (s.propagate_line_v6 nlris)
    (fun s' => ∃ out ds, s' = { s with adj_ribs_out_v6 := out, pending_decisions_v6 := ds })
    ?_ ?_ ?_
    (s.rib.peer_types.keys.filter fun ip => decide (ip ∈ s.ipv6_capable_peers))
    (s.rib.peer_types.keys_nodup.filter _) s ⟨_, _, rfl⟩ q
  · unfold propagate_to_all_peers_v6
    simpa only [List.mem_filter, decide_eq_true_eq, AList.mem_keys] using h
  · rintro _ r ⟨_, _, rfl⟩
    unfold propagate_step_v6
    split
    · exact ⟨_, _, rfl⟩
    · exact ⟨_, _, rfl⟩
  · rintro s' r ⟨_, _, rfl⟩
    rw [buffer_line_step_v6_self]
    rfl
  · intro s' r q' _ hne
    exact buffer_line_step_v6_of_ne nlris s' hne

/-! ## The Adj-RIB-Out -/

/-- A prefix is decided for a peer by buffered propagation: the peer is established and has
an export policy, and the route-reflection check lets the prefix through. -/
def Decided_v4 (s : DaemonState) (q : IpAddr) (n : Nlri Ipv4Addr) : Prop :=
  q ∈ s.rib.peer_types ∧ q ∈ s.export_policies
    ∧ (s.selection_deferral.v4_deferred || s.rr_suppressed q (s.rib.loc_rib.best_peer n)) = false
deriving Decidable

def Decided_v6 (s : DaemonState) (q : IpAddr) (n : Nlri Ipv6Addr) : Prop :=
  q ∈ s.rib.peer_types ∧ q ∈ s.ipv6_capable_peers ∧ q ∈ s.export_policies_v6
    ∧ (s.selection_deferral.v6_deferred || s.rr_suppressed q (s.rib.loc_rib_v6.best_peer n))
      = false
deriving Decidable

theorem propagate_line_out (now : ℕ) (nlris : List (Nlri Ipv4Addr)) (q : IpAddr) (l : BufferLine) :
    (s.propagate_line now nlris q l).out
      = match s.export_policies.lookup q, l.out with
        | some export_policy, some out => some (decide_all
            (s.checked_v4 q export_policy s.selection_deferral.v4_deferred) nlris out).1
        | _, _ => l.out := by
  unfold propagate_line
  split
  · split <;> rfl
  · rfl

/-- **What buffered propagation leaves** in an Adj-RIB-Out. -/
theorem propagate_to_all_peers_spec (q : IpAddr) :
    (s.propagate_to_all_peers clk nlris).session_v4 q = s.session_v4 q ∧
      ∀ n, (s.propagate_to_all_peers clk nlris).adj_out_v4 q n
        = if n ∈ nlris ∧ s.Decided_v4 q n then s.export_v4 q n else s.adj_out_v4 q n := by
  have hline := congrArg BufferLine.out (s.buffer_line_propagate clk nlris q)
  by_cases hq : q ∈ s.rib.peer_types
  · rw [if_pos hq, propagate_line_out] at hline
    unfold session_v4 adj_out_v4 export_v4 export_of_v4 Decided_v4
    rw [show (s.propagate_to_all_peers clk nlris).adj_ribs_out.lookup q = _ from hline]
    unfold buffer_line session_v4
    simp only [← AList.lookup_isSome]
    rcases s.export_policies.lookup q with _ | policy
    · simp
    · rcases s.adj_ribs_out.lookup q with _ | out
      · simp
      · obtain ⟨hsess, hget⟩ :=
          s.decide_all_checked_v4 q s.selection_deferral.v4_deferred policy nlris out
        refine ⟨congrArg some hsess, fun n => ?_⟩
        have hpt : (s.rib.peer_types.lookup q).isSome = true := AList.lookup_isSome.2 hq
        simp only [Option.bind_some, hget, hpt, Option.isSome_some, Option.map_some, true_and]
  · rw [if_neg hq] at hline
    have hout : (s.propagate_to_all_peers clk nlris).adj_ribs_out.lookup q
        = s.adj_ribs_out.lookup q := hline
    refine ⟨congrArg (Option.map AdjRibOut.session) hout, fun n => ?_⟩
    rw [if_neg fun h => hq h.2.1]
    exact congrArg (fun o => o.bind fun out => out.get n) hout

theorem propagate_to_all_peers_v6_spec (nlris : List (Nlri Ipv6Addr)) (q : IpAddr) :
    (s.propagate_to_all_peers_v6 nlris).session_v6 q = s.session_v6 q ∧
      ∀ n, (s.propagate_to_all_peers_v6 nlris).adj_out_v6 q n
        = if n ∈ nlris ∧ s.Decided_v6 q n then s.export_v6 q n else s.adj_out_v6 q n := by
  have hline := congrArg BufferLineV6.out (s.buffer_line_propagate_v6 nlris q)
  by_cases hq : q ∈ s.rib.peer_types ∧ q ∈ s.ipv6_capable_peers
  · rw [if_pos hq] at hline
    unfold session_v6 adj_out_v6 export_v6 export_of_v6 Decided_v6
    rw [show (s.propagate_to_all_peers_v6 nlris).adj_ribs_out_v6.lookup q = _ from hline]
    unfold propagate_line_v6 buffer_line_v6 session_v6
    simp only [← AList.lookup_isSome]
    rcases s.export_policies_v6.lookup q with _ | policy
    · simp
    · rcases s.adj_ribs_out_v6.lookup q with _ | out
      · simp
      · obtain ⟨hsess, hget⟩ :=
          s.decide_all_checked_v6 q s.selection_deferral.v6_deferred policy nlris out
        refine ⟨congrArg some hsess, fun n => ?_⟩
        have hpt : (s.rib.peer_types.lookup q).isSome = true := AList.lookup_isSome.2 hq.1
        have hcap : (s.ipv6_capable_peers.lookup q).isSome = true := AList.lookup_isSome.2 hq.2
        simp only [Option.bind_some, hget, hpt, hcap, Option.isSome_some, Option.map_some, true_and]
  · rw [if_neg hq] at hline
    have hout : (s.propagate_to_all_peers_v6 nlris).adj_ribs_out_v6.lookup q
        = s.adj_ribs_out_v6.lookup q := hline
    refine ⟨congrArg (Option.map AdjRibOut.session) hout, fun n => ?_⟩
    rw [if_neg fun h => hq ⟨h.2.1, h.2.2.1⟩]
    exact congrArg (fun o => o.bind fun out => out.get n) hout

end DaemonState

end Pathvector
