/-
# Propagation

How a change of the Loc-RIB reaches the peers (`pathvectord/src/daemon/route.rs`). There
are two ways out. `propagate_to_all_peers` decides and leaves the decisions in
`pending_decisions` until `flush_pending` puts them on the channel. The termination and
graceful-restart code decides and flushes at once, in a loop that the source repeats at
each place; the body of that loop is `direct_v4` and `direct_v6` here.

Both write the Adj-RIB-Out when they decide.
-/
import Pathvector.Daemon.State

set_option autoImplicit false

namespace Pathvector

/-- One decision after the other, on one Adj-RIB-Out. -/
def decide_all {A : Type} [IpAddress A] [DecidableEq A]
    (f : Nlri A → AdjRibOut A → AdjRibOut A × PrefixDecision A) :
    List (Nlri A) → AdjRibOut A → AdjRibOut A × List (PrefixDecision A)
  | [], out => (out, [])
  | n :: ns, out =>
    let r := f n out
    let rs := decide_all f ns r.1
    (rs.1, r.2 :: rs.2)

namespace DaemonState

/-! ## Deciding for one peer -/

section

variable (s : DaemonState) (peer_ip : IpAddr)

/-- `propagate_prefix` for a peer, with the arguments every call site computes alike. -/
def propagate_v4 (export_policy : Policy Ipv4Addr) (local_next_hop : Ipv4Addr) (deferred : Bool)
    (nlri : Nlri Ipv4Addr) (out : AdjRibOut Ipv4Addr) :
    AdjRibOut Ipv4Addr × PrefixDecision Ipv4Addr :=
  propagate_prefix s.rpki_v4 nlri s.rib.loc_rib export_policy (s.peer_type peer_ip)
    s.rib.local_as s.public_as local_next_hop (decide (peer_ip ∈ s.rib.next_hop_self_peers))
    deferred out

/-- `propagate_prefix_v6` for a peer. -/
def propagate_v6 (export_policy : Policy Ipv6Addr) (deferred : Bool) (nlri : Nlri Ipv6Addr)
    (out : AdjRibOut Ipv6Addr) : AdjRibOut Ipv6Addr × PrefixDecision Ipv6Addr :=
  propagate_prefix_v6 s.rpki_v6 nlri s.rib.loc_rib_v6 export_policy (s.peer_type peer_ip)
    s.rib.local_as s.public_as s.rib.local_ipv6
    (decide (peer_ip ∈ s.rib.next_hop_self_peers)) deferred out

/-- The route-reflection check before `propagate_prefix`: between two non-clients nothing is
passed on. Only a source with an IPv4 address is looked up. -/
def rr_suppressed (src : Option PeerId) : Bool :=
  s.is_rr && s.peer_type peer_ip == .Internal &&
    match src with
    | some (.V4 src_ip) =>
      s.rib.peer_types.lookup (.V4 src_ip) == some .Internal
        && decide (IpAddr.V4 src_ip ∉ s.rib.rr_clients)
        && decide (peer_ip ∉ s.rib.rr_clients)
    | _ => false

/-- The decision for one prefix with the check in front of it. A suppressed prefix is left
as it is in the Adj-RIB-Out. -/
def checked_v4 (export_policy : Policy Ipv4Addr) (deferred : Bool) (nlri : Nlri Ipv4Addr)
    (out : AdjRibOut Ipv4Addr) : AdjRibOut Ipv4Addr × PrefixDecision Ipv4Addr :=
  if s.rr_suppressed peer_ip (s.rib.loc_rib.best_peer nlri) then (out, .NoChange)
  else s.propagate_v4 peer_ip export_policy (s.local_next_hop peer_ip) deferred nlri out

def checked_v6 (export_policy : Policy Ipv6Addr) (deferred : Bool) (nlri : Nlri Ipv6Addr)
    (out : AdjRibOut Ipv6Addr) : AdjRibOut Ipv6Addr × PrefixDecision Ipv6Addr :=
  if s.rr_suppressed peer_ip (s.rib.loc_rib_v6.best_peer nlri) then (out, .NoChange)
  else s.propagate_v6 peer_ip export_policy deferred nlri out

end

end DaemonState

/-! ## The MRAI gate -/

/-- What the gate remembers for one peer: when each prefix was last announced, and which
prefixes wait for their window. -/
structure MraiState where
  last_sent : HashMap (Nlri Ipv4Addr) ℕ
  pending : HashSet (Nlri Ipv4Addr)

namespace MraiState

/-- The window of a prefix is over. -/
def elapsed (last_sent : HashMap (Nlri Ipv4Addr) ℕ) (now : ℕ) (nlri : Nlri Ipv4Addr) : Bool :=
  (last_sent.lookup nlri).all fun t => decide (MRAI ≤ now - t)

/-- One decision at the gate. An announcement inside the window is replaced by `NoChange`. -/
def gate (now : ℕ) (m : MraiState) :
    PrefixDecision Ipv4Addr → MraiState × PrefixDecision Ipv4Addr
  | .Announce route =>
    if elapsed m.last_sent now route.nlri then
      (⟨m.last_sent.insert route.nlri now, m.pending.erase route.nlri⟩, .Announce route)
    else (⟨m.last_sent, m.pending.add route.nlri⟩, .NoChange)
  | .Withdraw nlri => (⟨m.last_sent.erase nlri, m.pending.erase nlri⟩, .Withdraw nlri)
  | .NoChange => (m, .NoChange)

/-- The decisions of one call at the gate. -/
def gate_all (now : ℕ) : MraiState → List (PrefixDecision Ipv4Addr) →
    MraiState × List (PrefixDecision Ipv4Addr)
  | m, [] => (m, [])
  | m, d :: ds =>
    let r := gate now m d
    let rs := gate_all now r.1 ds
    (rs.1, r.2 :: rs.2)

end MraiState

namespace DaemonState

section

variable (s : DaemonState) (now : ℕ) (peer_ip : IpAddr) (ds : List (PrefixDecision Ipv4Addr))

/-- What the gate remembers for a peer. -/
def mrai : MraiState :=
  ⟨(s.mrai_last_sent.lookup peer_ip).getD ∅, (s.mrai_pending.lookup peer_ip).getD ∅⟩

/-- The gate applies to external peers only. -/
def apply_mrai : DaemonState × List (PrefixDecision Ipv4Addr) :=
  if s.peer_type peer_ip = .External then
    let r := MraiState.gate_all now (s.mrai peer_ip) ds
    ({ s with
        mrai_last_sent := s.mrai_last_sent.insert peer_ip r.1.last_sent
        mrai_pending := s.mrai_pending.insert peer_ip r.1.pending }, r.2)
  else (s, ds)

/-- Appends decisions to those that wait for `flush_pending`. -/
def buffer_v4 : DaemonState :=
  { s with
    pending_decisions := s.pending_decisions.insert peer_ip
      ((s.pending_decisions.lookup peer_ip).getD [] ++ ds) }

def buffer_v6 (ds : List (PrefixDecision Ipv6Addr)) : DaemonState :=
  { s with
    pending_decisions_v6 := s.pending_decisions_v6.insert peer_ip
      ((s.pending_decisions_v6.lookup peer_ip).getD [] ++ ds) }

end

/-! ## `propagate_to_all_peers` -/

/-- One iteration of `propagate_to_all_peers`. -/
def propagate_step (clk : Clock) (nlris : List (Nlri Ipv4Addr)) (s : DaemonState)
    (peer_ip : IpAddr) : DaemonState :=
  match s.export_policies.lookup peer_ip, s.adj_ribs_out.lookup peer_ip with
  | some export_policy, some out =>
    let r := decide_all
      (s.checked_v4 peer_ip export_policy s.selection_deferral.v4_deferred) nlris out
    let g := { s with adj_ribs_out := s.adj_ribs_out.insert peer_ip r.1 }.apply_mrai
      clk.instant peer_ip r.2
    g.1.buffer_v4 peer_ip g.2
  | _, _ => s

def propagate_to_all_peers (s : DaemonState) (clk : Clock) (nlris : List (Nlri Ipv4Addr)) :
    DaemonState :=
  s.rib.peer_types.keys.foldl (propagate_step clk nlris) s

/-- One iteration of `propagate_to_all_peers_v6`. -/
def propagate_step_v6 (nlris : List (Nlri Ipv6Addr)) (s : DaemonState) (peer_ip : IpAddr) :
    DaemonState :=
  match s.export_policies_v6.lookup peer_ip, s.adj_ribs_out_v6.lookup peer_ip with
  | some export_policy, some out =>
    let r := decide_all
      (s.checked_v6 peer_ip export_policy s.selection_deferral.v6_deferred) nlris out
    { s with adj_ribs_out_v6 := s.adj_ribs_out_v6.insert peer_ip r.1 }.buffer_v6 peer_ip r.2
  | _, _ => s

def propagate_to_all_peers_v6 (s : DaemonState) (nlris : List (Nlri Ipv6Addr)) : DaemonState :=
  (s.rib.peer_types.keys.filter fun ip => decide (ip ∈ s.ipv6_capable_peers)).foldl
    (propagate_step_v6 nlris) s

/-! ## Flushing -/

section

variable (clk : Clock) (s : DaemonState) (peer_ip : IpAddr)

/-- One iteration of `flush_mrai_pending`. The prefixes whose window is over leave the
waiting set and are decided again. -/
def flush_mrai_step : DaemonState :=
  match s.mrai_pending.lookup peer_ip with
  | none => s
  | some pending =>
    let ready := pending.keys.filter
      (MraiState.elapsed ((s.mrai_last_sent.lookup peer_ip).getD ∅) clk.instant)
    let not_ready := pending.keys.filter fun nlri =>
      !MraiState.elapsed ((s.mrai_last_sent.lookup peer_ip).getD ∅) clk.instant nlri
    if ready.isEmpty then s
    else
      { s with
        mrai_pending := s.mrai_pending.insert peer_ip (HashSet.ofList not_ready)
      }.propagate_to_all_peers clk ready

/-- The peers with a prefix waiting for its window. -/
def peers_with_pending : List IpAddr :=
  (s.mrai_pending.entries.filter fun e => !e.2.keys.isEmpty).map fun e => e.1

def flush_mrai_pending (clk : Clock) : DaemonState :=
  s.peers_with_pending.foldl (flush_mrai_step clk) s

/-- Stores what a flush left of a peer's channel; a failed flush stalls the peer. -/
def after_flush (r : Bool × UpdateSender) : DaemonState :=
  { s with
    update_senders := s.update_senders.insert peer_ip r.2
    stalled_peers := if r.1 then s.stalled_peers else s.stalled_peers ++ [peer_ip] }

/-- The IPv4 flush of `flush_pending`, skipped for an empty list. -/
def flush_v4 (ds : List (PrefixDecision Ipv4Addr)) (tx : UpdateSender) : Bool × UpdateSender :=
  if ds.isEmpty then (true, tx)
  else flush_updates ds (s.max_len peer_ip) tx (s.peer_type peer_ip)
    (decide (peer_ip ∈ s.four_byte_peers))

/-- The IPv6 flush of `flush_pending`. -/
def flush_v6 (ds : List (PrefixDecision Ipv6Addr)) (tx : UpdateSender) : Bool × UpdateSender :=
  if ds.isEmpty then (true, tx)
  else flush_updates_v6 ds (s.max_len peer_ip) tx (s.peer_type peer_ip)
    (decide (peer_ip ∈ s.four_byte_peers))

/-- One iteration of `flush_pending`. What waited is gone whatever happens; a failed IPv4
flush drops the IPv6 decisions unsent. -/
def flush_pending_step : DaemonState :=
  let ds := (s.pending_decisions.lookup peer_ip).getD []
  let ds_v6 := (s.pending_decisions_v6.lookup peer_ip).getD []
  let s :=
    { s with
      pending_decisions := s.pending_decisions.erase peer_ip
      pending_decisions_v6 := s.pending_decisions_v6.erase peer_ip }
  match s.update_senders.lookup peer_ip with
  | none => s
  | some tx =>
    let r := s.flush_v4 peer_ip ds tx
    s.after_flush peer_ip (if r.1 then s.flush_v6 peer_ip ds_v6 r.2 else r)

def flush_pending : DaemonState :=
  (s.pending_decisions.keys ++ s.pending_decisions_v6.keys).dedup.foldl flush_pending_step s

end

/-! ## The direct path -/

section

variable (nlris : List (Nlri Ipv4Addr)) (next_hop : DaemonState → IpAddr → Ipv4Addr)
  (s : DaemonState) (peer_ip : IpAddr)

/-- The established peers other than one. -/
def other_peers : List IpAddr :=
  s.rib.peer_types.keys.filter (· ≠ peer_ip)

/-- Decides and flushes at once, for one peer. There is no route-reflection check and no
MRAI gate on this path. -/
def direct_v4 : DaemonState :=
  match s.export_policies.lookup peer_ip, s.adj_ribs_out.lookup peer_ip,
    s.update_senders.lookup peer_ip with
  | some export_policy, some out, some tx =>
    let r := decide_all
      (s.propagate_v4 peer_ip export_policy (next_hop s peer_ip)
        s.selection_deferral.v4_deferred) nlris out
    { s with adj_ribs_out := s.adj_ribs_out.insert peer_ip r.1 }.after_flush peer_ip
      (flush_updates r.2 (s.max_len peer_ip) tx (s.peer_type peer_ip)
        (decide (peer_ip ∈ s.four_byte_peers)))
  | _, _, _ => s

def direct_v6 (nlris : List (Nlri Ipv6Addr)) (s : DaemonState) (peer_ip : IpAddr) : DaemonState :=
  if peer_ip ∈ s.ipv6_capable_peers then
    match s.export_policies_v6.lookup peer_ip, s.adj_ribs_out_v6.lookup peer_ip,
      s.update_senders.lookup peer_ip with
    | some export_policy, some out, some tx =>
      let r := decide_all
        (s.propagate_v6 peer_ip export_policy s.selection_deferral.v6_deferred) nlris out
      { s with adj_ribs_out_v6 := s.adj_ribs_out_v6.insert peer_ip r.1 }.after_flush peer_ip
        (flush_updates_v6 r.2 (s.max_len peer_ip) tx (s.peer_type peer_ip)
          (decide (peer_ip ∈ s.four_byte_peers)))
    | _, _, _ => s
  else s

/-- The direct loop over every established peer other than one. -/
def direct_others_v4 (nlris : List (Nlri Ipv4Addr)) : DaemonState :=
  (s.other_peers peer_ip).foldl (direct_v4 nlris local_next_hop) s

def direct_others_v6 (nlris : List (Nlri Ipv6Addr)) : DaemonState :=
  (s.other_peers peer_ip).foldl (direct_v6 nlris) s

/-- The prefixes with a best route. -/
def best_prefixes_v4 : List (Nlri Ipv4Addr) :=
  s.rib.loc_rib.best_routes.map Prod.fst

def best_prefixes_v6 : List (Nlri Ipv6Addr) :=
  s.rib.loc_rib_v6.best_routes.map Prod.fst

end

end DaemonState

end Pathvector
