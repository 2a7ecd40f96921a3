/-
# Graceful restart

The two halves of RFC 4724 in the daemon: `daemon/gr.rs`, which keeps the routes of a
restarting peer as stale ones and drops them later, and `daemon/deferral.rs`, which holds
back a family until the peers have sent their End-of-RIB and then dumps it to everyone.
-/
import Pathvector.Daemon.Propagate

set_option autoImplicit false

namespace Pathvector

/-- The routes `mark_stale_and_repropagate` reads from a peer's Adj-RIB-In. -/
def stale_routes {A : Type} [IpAddress A] [DecidableEq A] (ari : Option (AdjRibIn A)) :
    List (Route A) :=
  match ari with
  | some ari => ari.routes.values
  | none => []

namespace DaemonState

/-! ## Updating the tables -/

variable (s : DaemonState) (peer_ip : IpAddr)

def set_loc_rib (loc_rib : LocRib Ipv4Addr) : DaemonState :=
  { s with rib := { s.rib with loc_rib := loc_rib } }

def set_loc_rib_v6 (loc_rib : LocRib Ipv6Addr) : DaemonState :=
  { s with rib := { s.rib with loc_rib_v6 := loc_rib } }

/-- The calls of `withdraw_peer_blackhole_kernel_routes_v4`. -/
def blackhole_calls_v4 : List FibCall :=
  match s.adj_ribs_in.lookup peer_ip with
  | some ari => (ari.routes.values.filter Route.is_blackhole).map fun r =>
      .withdraw_blackhole_v4 r.nlri
  | none => []

/-- The calls of `withdraw_peer_blackhole_kernel_routes_v6`. -/
def blackhole_calls_v6 : List FibCall :=
  match s.adj_ribs_in_v6.lookup peer_ip with
  | some ari => (ari.routes.values.filter Route.is_blackhole).map fun r =>
      .withdraw_blackhole_v6 r.nlri
  | none => []

/-- Drops everything a peer announced, with the null routes of its BLACKHOLE prefixes. -/
def clear_adj_rib_in_v4 : DaemonState :=
  { s.fib_apply (s.blackhole_calls_v4 peer_ip) with
    adj_ribs_in := s.adj_ribs_in.modify peer_ip AdjRibIn.clear }

def clear_adj_rib_in_v6 : DaemonState :=
  { s.fib_apply (s.blackhole_calls_v6 peer_ip) with
    adj_ribs_in_v6 := s.adj_ribs_in_v6.modify peer_ip AdjRibIn.clear }

/-- Takes a peer out of both Loc-RIBs and tells the kernel layer. -/
def rib_withdraw_peer : DaemonState :=
  let v4 := s.rib.loc_rib.withdraw_peer peer_ip s.oracle_v4
  let v6 := s.rib.loc_rib_v6.withdraw_peer peer_ip s.oracle_v6
  ((s.set_loc_rib v4.1).set_loc_rib_v6 v6.1).fib_apply
    (v4.2.map .apply_v4 ++ v6.2.map .apply_v6)

/-- Empties a peer's Adj-RIBs-Out; the new ones have its configured type. -/
def reset_adj_ribs_out : DaemonState :=
  let cfg_pt := (s.peer_config_types.lookup peer_ip).getD .External
  { s with
    adj_ribs_out := s.adj_ribs_out.modify peer_ip fun _ => make_adj_rib_out peer_ip cfg_pt s.is_rr
    adj_ribs_out_v6 :=
      s.adj_ribs_out_v6.modify peer_ip fun _ => make_adj_rib_out peer_ip cfg_pt s.is_rr }

/-! ## Entering helper mode -/

/-- The prefixes `repropagate_after_stale_mark_v4` looks at again: those that had a best
route before, whether or not they still have one. -/
def stale_affected (prev_prefixes : List (Nlri Ipv4Addr)) : List (Nlri Ipv4Addr) :=
  s.best_prefixes_v4.filter (prev_prefixes.contains ·)
    ++ prev_prefixes.filter fun n => (s.rib.loc_rib.best n).isNone

/-- The IPv4 half of `mark_stale_and_repropagate`. The stale routes are inserted as they
stand in the Adj-RIB-In, which is before import policy. -/
def mark_stale_v4 : DaemonState :=
  let s :=
    { s with adj_ribs_in := s.adj_ribs_in.modify peer_ip AdjRibIn.mark_all_stale }
  let stale := stale_routes (s.adj_ribs_in.lookup peer_ip)
  if stale.isEmpty then s
  else
    let prev_prefixes := s.best_prefixes_v4
    let r := stale.foldl (LocRib.insert_step peer_ip s.oracle_v4) (s.rib.loc_rib, [])
    let s := (s.set_loc_rib r.1).fib_apply (r.2.map .apply_v4)
    (s.direct_others_v4 peer_ip (s.stale_affected prev_prefixes)).emit_route_events prev_prefixes

/-- The IPv6 half of `mark_stale_and_repropagate`. -/
def mark_stale_v6 : DaemonState :=
  let s :=
    { s with adj_ribs_in_v6 := s.adj_ribs_in_v6.modify peer_ip AdjRibIn.mark_all_stale }
  let stale := stale_routes (s.adj_ribs_in_v6.lookup peer_ip)
  if stale.isEmpty then s
  else
    let r := stale.foldl (LocRib.insert_step peer_ip s.oracle_v6) (s.rib.loc_rib_v6, [])
    let s := (s.set_loc_rib_v6 r.1).fib_apply (r.2.map .apply_v6)
    s.direct_others_v6 peer_ip s.best_prefixes_v6

def mark_stale_and_repropagate (do_v4 do_v6 : Bool) : DaemonState :=
  let s := if do_v4 then s.mark_stale_v4 peer_ip else s
  if do_v6 then s.mark_stale_v6 peer_ip else s

/-! ## Leaving helper mode -/

def prune_stale_nlri (stale : List (Nlri Ipv4Addr)) : DaemonState :=
  let blackholes := match s.adj_ribs_in.lookup peer_ip with
    | some ari => stale.filter fun n => (ari.get n).any Route.is_blackhole
    | none => []
  let s :=
    { s.fib_apply (blackholes.map .withdraw_blackhole_v4) with
      adj_ribs_in := s.adj_ribs_in.modify peer_ip fun ari => stale.foldl AdjRibIn.withdraw ari }
  let prev_prefixes := s.best_prefixes_v4
  let r := stale.foldl (LocRib.withdraw_step peer_ip s.oracle_v4) (s.rib.loc_rib, [])
  let s := (s.set_loc_rib r.1).fib_apply (r.2.map .apply_v4)
  (s.direct_others_v4 peer_ip stale).emit_route_events prev_prefixes

def prune_stale_nlri_v6 (stale : List (Nlri Ipv6Addr)) : DaemonState :=
  let blackholes := match s.adj_ribs_in_v6.lookup peer_ip with
    | some ari => stale.filter fun n => (ari.get n).any Route.is_blackhole
    | none => []
  let s :=
    { s.fib_apply (blackholes.map .withdraw_blackhole_v6) with
      adj_ribs_in_v6 :=
        s.adj_ribs_in_v6.modify peer_ip fun ari => stale.foldl AdjRibIn.withdraw ari }
  let r := stale.foldl (LocRib.withdraw_step peer_ip s.oracle_v6) (s.rib.loc_rib_v6, [])
  let s := (s.set_loc_rib_v6 r.1).fib_apply (r.2.map .apply_v6)
  s.direct_others_v6 peer_ip stale

def on_gr_deadline_expired : DaemonState :=
  let s :=
    { s with
      gr := { s.gr with
        stale_nlri := s.gr.stale_nlri.erase peer_ip
        stale_nlri_v6 := s.gr.stale_nlri_v6.erase peer_ip } }
  let s := (s.clear_adj_rib_in_v4 peer_ip).clear_adj_rib_in_v6 peer_ip
  let prev_prefixes := s.best_prefixes_v4
  let prev_prefixes_v6 := s.best_prefixes_v6
  let s := (s.rib_withdraw_peer peer_ip).reset_adj_ribs_out peer_ip
  let s := (s.direct_others_v4 peer_ip prev_prefixes).direct_others_v6 peer_ip prev_prefixes_v6
  s.emit_route_events prev_prefixes

/-- `drain_expired`: the peers whose restart window is over, which lose their deadline. -/
def drain_expired (now : ℕ) : DaemonState × List IpAddr :=
  let expired := (s.gr.deadlines.entries.filter fun e => decide (e.2 ≤ now)).map fun e => e.1
  ({ s with
      gr := { s.gr with deadlines := expired.foldl (fun m ip => m.erase ip) s.gr.deadlines } },
    expired)

/-! ## Selection deferral -/

/-- `dump_family_v4`: the whole table to one peer, then End-of-RIB. -/
def dump_family_v4 : DaemonState :=
  match s.rib.peer_types.lookup peer_ip, s.negotiated_max_len.lookup peer_ip,
    s.update_senders.lookup peer_ip, s.export_policies.lookup peer_ip,
    s.adj_ribs_out.lookup peer_ip with
  | some peer_type, some max_len, some tx, some export_policy, some out =>
    let r := decide_all (s.checked_v4 peer_ip export_policy false) s.best_prefixes_v4 out
    let f := flush_updates r.2 max_len tx peer_type (decide (peer_ip ∈ s.four_byte_peers))
    { s with adj_ribs_out := s.adj_ribs_out.insert peer_ip r.1 }.after_flush peer_ip
      (if f.1 then send_eor_ipv4 f.2 else f)
  | _, _, _, _, _ => s

/-- `dump_family_v6`. An empty table is only its End-of-RIB. -/
def dump_family_v6 : DaemonState :=
  match s.rib.peer_types.lookup peer_ip, s.negotiated_max_len.lookup peer_ip,
    s.update_senders.lookup peer_ip with
  | some peer_type, some max_len, some tx =>
    if peer_ip ∈ s.ipv6_capable_peers then
      if s.best_prefixes_v6.isEmpty then s.after_flush peer_ip (send_eor_ipv6 tx)
      else
        match s.export_policies_v6.lookup peer_ip, s.adj_ribs_out_v6.lookup peer_ip with
        | some export_policy, some out =>
          let r := decide_all (s.checked_v6 peer_ip export_policy false) s.best_prefixes_v6 out
          let f := flush_updates_v6 r.2 max_len tx peer_type
            (decide (peer_ip ∈ s.four_byte_peers))
          { s with adj_ribs_out_v6 := s.adj_ribs_out_v6.insert peer_ip r.1 }.after_flush peer_ip
            (if f.1 then send_eor_ipv6 f.2 else f)
        | _, _ => s
    else s
  | _, _, _ => s

/-- `family_blocks`: a configured peer keeps a family deferred. -/
def family_blocks (is_v6 : Bool) (peer_ip : IpAddr) : Bool :=
  if peer_ip ∉ s.rib.peer_types then true
  else if is_v6 && decide (peer_ip ∉ s.ipv6_capable_peers) then false
  else if peer_ip ∉ s.rib.gr_advertised_peers then false
  else if peer_ip ∈ s.rib.gr_peer_restarting then false
  else decide (peer_ip ∉ (if is_v6 then s.rib.eor_received_v6 else s.rib.eor_received))

def catch_up_released_families (v4_released v6_released : Bool) : DaemonState :=
  let established := s.rib.peer_types.keys
  let s := if v4_released then established.foldl dump_family_v4 s else s
  if v6_released then established.foldl dump_family_v6 s else s

/-- `recompute_selection_deferral`, with `SelectionDeferral::recompute` in it: a family is
released when no configured peer blocks it, and stays released. -/
def recompute_selection_deferral : DaemonState :=
  let configured := s.rib.peer_remote_as.keys
  let v4 := s.selection_deferral.v4_deferred && !configured.any (s.family_blocks false)
  let v6 := s.selection_deferral.v6_deferred && !configured.any (s.family_blocks true)
  { s with
    selection_deferral :=
      { s.selection_deferral with
        v4_released := s.selection_deferral.v4_released || v4
        v6_released := s.selection_deferral.v6_released || v6 }
  }.catch_up_released_families v4 v6

def force_release_selection_deferral : DaemonState :=
  { s with
    selection_deferral :=
      { s.selection_deferral with v4_released := true, v6_released := true }
  }.catch_up_released_families s.selection_deferral.v4_deferred s.selection_deferral.v6_deferred

end DaemonState

end Pathvector
