/-
# The daemon as a state machine

The operator's entry points (`daemon/policy.rs`, `daemon/origination.rs`,
`daemon/fib.rs`), the event loop (`run_event_loop` in `daemon/mod.rs`), and the daemon's
runs.

A step of the machine is one call of a `DaemonState` method, which is finer than an
iteration of the loop: an iteration drains whatever session events are queued and flushes
once at the end. `Event` has every call, and what the environment does between calls: a
session task takes messages off its channel, the kernel changes its mind about next hops.
-/
import Pathvector.Daemon.Peer
import Pathvector.Daemon.Route
import Pathvector.Session.Event

set_option autoImplicit false

namespace Pathvector

namespace DaemonState

variable (s : DaemonState) (clk : Clock) (peer_ip : IpAddr)

/-! ## Policy -/

def reevaluate_import_for_peer : DaemonState :=
  match s.adj_ribs_in.lookup peer_ip, s.import_policies.lookup peer_ip,
    s.adj_ribs_in_v6.lookup peer_ip, s.import_policies_v6.lookup peer_ip with
  | some ari, some policy, some ari_v6, some policy_v6 =>
    let nlris := ari.routes.keys
    let r := reapply_import_policy peer_ip ari s.rib.loc_rib policy s.rpki_v4 s.oracle_v4
    let s := (s.set_loc_rib r.1).fib_apply (r.2.map .apply_v4)
    let s := (s.propagate_to_all_peers clk nlris).emit_route_events nlris
    let r := reapply_import_policy peer_ip ari_v6 s.rib.loc_rib_v6 policy_v6 s.rpki_v6
      s.oracle_v6
    let s := (s.set_loc_rib_v6 r.1).fib_apply (r.2.map .apply_v6)
    s.propagate_to_all_peers_v6 ari_v6.routes.keys
  -- the source indexes these maps, and a configured peer is in all of them
  | _, _, _, _ => s

def set_import_default (action : DefaultAction) : DaemonState :=
  if peer_ip ∈ s.import_policies then
    ({ s with
        import_policies := s.import_policies.modify peer_ip (·.set_default action)
        import_policies_v6 := s.import_policies_v6.modify peer_ip (·.set_default action)
      }.reevaluate_import_for_peer clk peer_ip).flush_pending
  else s

def reevaluate_all_import_policies : DaemonState :=
  (s.import_policies.keys.foldl (fun s ip => s.reevaluate_import_for_peer clk ip) s).flush_pending

def install_rpki_import_terms : DaemonState :=
  { s with
    import_policies := HashMap.map_values
      (·.add_term ⟨.RoaState .Invalid s.rib.local_as, .Reject⟩) s.import_policies
    import_policies_v6 := HashMap.map_values
      (·.add_term ⟨.RoaState .Invalid s.rib.local_as, .Reject⟩) s.import_policies_v6 }

/-- `set_export_default`. The next hop is the BGP identifier here, not the address of the
session. -/
def set_export_default (action : DefaultAction) : DaemonState :=
  if peer_ip ∈ s.export_policies then
    let s :=
      { s with
        export_policies := s.export_policies.modify peer_ip (·.set_default action)
        export_policies_v6 := s.export_policies_v6.modify peer_ip (·.set_default action) }
    if peer_ip ∈ s.rib.peer_types then
      let s := direct_v4 s.best_prefixes_v4 (fun s _ => s.rib.local_bgp_id) s peer_ip
      direct_v6 s.best_prefixes_v6 s peer_ip
    else s
  else s

/-! ## Origination -/

/-- One iteration of `originate_routes`. The kernel layer is not told about it. -/
def originate_step (route : Route Ipv4Addr) : DaemonState :=
  { s with
    rib := { s.rib with
      originated_routes := s.rib.originated_routes.add route.nlri
      loc_rib := (s.rib.loc_rib.insert LOCAL_ORIGIN_PEER route s.oracle_v4).1 }
    route_tx := s.route_tx ++ [.Announced LOCAL_ORIGIN_PEER route.nlri route] }

def originate_routes (routes : List (Route Ipv4Addr)) : DaemonState :=
  ((routes.foldl originate_step s).propagate_to_all_peers clk (routes.map Route.nlri)
    ).flush_pending

/-- One iteration of `originate_routes_v6`. Here the kernel layer is told. -/
def originate_step_v6 (route : Route Ipv6Addr) : DaemonState :=
  let r := s.rib.loc_rib_v6.insert LOCAL_ORIGIN_PEER route s.oracle_v6
  { s.fib_apply [.apply_v6 r.2] with
    rib := { s.rib with
      originated_routes_v6 := s.rib.originated_routes_v6.add route.nlri
      loc_rib_v6 := r.1 }
    route_tx := s.route_tx ++ [.AnnouncedV6 LOCAL_ORIGIN_PEER route.nlri route] }

def originate_routes_v6 (routes : List (Route Ipv6Addr)) : DaemonState :=
  ((routes.foldl originate_step_v6 s).propagate_to_all_peers_v6 (routes.map Route.nlri)
    ).flush_pending

/-- One iteration of `withdraw_originated_routes`. -/
def withdraw_originated_step (nlri : Nlri Ipv4Addr) : DaemonState :=
  let r := s.rib.loc_rib.withdraw LOCAL_ORIGIN_PEER nlri s.oracle_v4
  { s.fib_apply [.apply_v4 r.2] with
    rib := { s.rib with
      originated_routes := s.rib.originated_routes.erase nlri
      loc_rib := r.1 }
    route_tx := s.route_tx ++ [.Withdrawn nlri] }

def withdraw_originated_routes (nlris : List (Nlri Ipv4Addr)) : DaemonState :=
  ((nlris.foldl withdraw_originated_step s).propagate_to_all_peers clk nlris).flush_pending

/-- One iteration of `withdraw_originated_routes_v6`. -/
def withdraw_originated_step_v6 (nlri : Nlri Ipv6Addr) : DaemonState :=
  let r := s.rib.loc_rib_v6.withdraw LOCAL_ORIGIN_PEER nlri s.oracle_v6
  { s.fib_apply [.apply_v6 r.2] with
    rib := { s.rib with
      originated_routes_v6 := s.rib.originated_routes_v6.erase nlri
      loc_rib_v6 := r.1 }
    route_tx := s.route_tx ++ [.WithdrawnV6 nlri] }

def withdraw_originated_routes_v6 (nlris : List (Nlri Ipv6Addr)) : DaemonState :=
  ((nlris.foldl withdraw_originated_step_v6 s).propagate_to_all_peers_v6 nlris).flush_pending

/-! ## Next-hop changes -/

/-- The prefixes whose best route changed. -/
def changed_nlris {A : Type} [IpAddress A] (changes : List (BestPathChange A)) : List (Nlri A) :=
  changes.filterMap fun
    | .Announced n _ => some n
    | .Withdrawn n => some n
    | .Unchanged => none

def on_fib_change : DaemonState :=
  let v4 := s.rib.loc_rib.recompute_all s.oracle_v4
  let v6 := s.rib.loc_rib_v6.recompute_all s.oracle_v6
  let s := ((s.set_loc_rib v4.1).set_loc_rib_v6 v6.1).fib_apply
    (v4.2.map .apply_v4 ++ v6.2.map .apply_v6)
  let nlris := changed_nlris v4.2
  let nlris_v6 := changed_nlris v6.2
  let s := if nlris.isEmpty then s
    else (s.propagate_to_all_peers clk nlris).emit_route_events nlris
  if nlris_v6.isEmpty then s else s.propagate_to_all_peers_v6 nlris_v6

/-! ## Session events -/

/-- The `Terminated` arm of the event loop. `pending_removal` is consumed before
`on_terminated` looks at it. -/
def handle_terminated (reason : TerminationReason) : DaemonState :=
  let is_removed := decide (peer_ip ∈ s.pending_removal)
  let s := { s with pending_removal := s.pending_removal.erase peer_ip }
  let s := s.on_terminated clk peer_ip reason
  if is_removed then (s.remove_peer peer_ip).1 else s

/-- The `RemovePeer` command: the peer goes when its session has. -/
def request_removal : DaemonState :=
  if peer_ip ∈ s.adj_ribs_in then { s with pending_removal := s.pending_removal.add peer_ip }
  else s

/-- The expiry of restart windows. -/
def on_gr_deadlines : DaemonState :=
  let r := s.drain_expired clk.instant
  r.2.foldl on_gr_deadline_expired r.1

/-- The expiry of idle-hold times. -/
def expire_idle : DaemonState :=
  let expired := (s.max_prefix_idle.entries.filter fun e => decide (e.2 ≤ clk.instant)).map
    fun e => e.1
  { s with max_prefix_idle := expired.foldl (fun m ip => m.erase ip) s.max_prefix_idle }

/-- One session event. A peer in its idle-hold time is not let in. -/
def on_session_event : SessionEvent → DaemonState × Option NotificationMessage
  | .Established info =>
    if peer_ip ∈ s.max_prefix_idle then (s, none)
    else
      (s.on_established peer_ip info.peer_bgp_id info.peer_type info.peer_capabilities
        info.local_addr, none)
  | .Terminated reason => (s.handle_terminated clk peer_ip reason, none)
  | .RouteUpdate msg => s.on_route_update clk peer_ip msg

/-- The coalescing loop: the queued events one after the other, then `flush_pending`. An
event that calls for a NOTIFICATION ends the iteration; the rest stays queued. -/
def coalesce : DaemonState → List (Clock × IpAddr × SessionEvent) → DaemonState
  | s, [] => s.flush_pending
  | s, (clk, peer_ip, event) :: rest =>
    match s.on_session_event clk peer_ip event with
    | (s, none) => coalesce s rest
    | (s, some _) => s.flush_pending

end DaemonState

/-! ## Runs -/

/-- What can happen to the daemon's state. -/
inductive Event where
  | Session (clk : Clock) (peer_ip : IpAddr) (event : SessionEvent)
  | FlushPending
  | FlushMraiPending (clk : Clock)
  | TakeStalledPeers
  | FibChange (clk : Clock)
  | GrDeadlines (clk : Clock)
  | DeferralDeadline
  | IdleExpiry (clk : Clock)
  | AddPeer (peer : PeerConfig) (update_sender : UpdateSender)
  | RemovePeer (peer_ip : IpAddr)
  | SetImportDefault (clk : Clock) (peer_ip : IpAddr) (action : DefaultAction)
  | SetExportDefault (peer_ip : IpAddr) (action : DefaultAction)
  | ReevaluateImport (clk : Clock)
  | OriginateRoutes (clk : Clock) (routes : List (Route Ipv4Addr))
  | OriginateRoutesV6 (routes : List (Route Ipv6Addr))
  | WithdrawOriginated (clk : Clock) (nlris : List (Nlri Ipv4Addr))
  | WithdrawOriginatedV6 (nlris : List (Nlri Ipv6Addr))
  /-- Start-up, and the answers the outside gives from then on. -/
  | SetOracles (v4 v6 : NextHopOracle)
  | SetFibManager
  | SetDeferral (d : SelectionDeferral)
  | InstallRpki
  | RpkiAnswers (v4 : RtrHandle Ipv4Addr) (v6 : RtrHandle Ipv6Addr)
  /-- A session task takes messages off its channel. -/
  | ChannelDrained (peer_ip : IpAddr) (messages : ℕ)

namespace DaemonState

/-- One step of the machine. -/
def step (s : DaemonState) : Event → DaemonState
  | .Session clk peer_ip event => (s.on_session_event clk peer_ip event).1
  | .FlushPending => s.flush_pending
  | .FlushMraiPending clk => s.flush_mrai_pending clk
  | .TakeStalledPeers => { s with stalled_peers := [] }
  | .FibChange clk => s.on_fib_change clk
  | .GrDeadlines clk => s.on_gr_deadlines clk
  | .DeferralDeadline => s.force_release_selection_deferral
  | .IdleExpiry clk => s.expire_idle clk
  | .AddPeer peer update_sender => (s.add_peer peer update_sender).1
  | .RemovePeer peer_ip => s.request_removal peer_ip
  | .SetImportDefault clk peer_ip action => s.set_import_default clk peer_ip action
  | .SetExportDefault peer_ip action => s.set_export_default peer_ip action
  | .ReevaluateImport clk => s.reevaluate_all_import_policies clk
  | .OriginateRoutes clk routes => s.originate_routes clk routes
  | .OriginateRoutesV6 routes => s.originate_routes_v6 routes
  | .WithdrawOriginated clk nlris => s.withdraw_originated_routes clk nlris
  | .WithdrawOriginatedV6 nlris => s.withdraw_originated_routes_v6 nlris
  | .SetOracles v4 v6 => { s with oracle_v4 := v4, oracle_v6 := v6 }
  | .SetFibManager => { s with fib_manager := some [] }
  | .SetDeferral d => { s with selection_deferral := d }
  | .InstallRpki => s.install_rpki_import_terms
  | .RpkiAnswers v4 v6 => { s with rpki_v4 := v4, rpki_v6 := v6 }
  | .ChannelDrained peer_ip messages =>
    { s with
      update_senders :=
        s.update_senders.modify peer_ip fun tx => { tx with room := tx.room + messages } }

/-- A run of the machine. -/
def run (s : DaemonState) (events : List Event) : DaemonState := events.foldl step s

/-- The states the daemon gets into. -/
def Reachable (s : DaemonState) : Prop :=
  ∃ local_as local_bgp_id local_ipv6 cluster_id confederation_id peers update_senders caps events,
    s = (new local_as local_bgp_id local_ipv6 cluster_id confederation_id peers update_senders
      caps).run events

theorem Reachable.run {s : DaemonState} (h : s.Reachable) (events : List Event) :
    (s.run events).Reachable := by
  obtain ⟨_, _, _, _, _, _, _, _, before, rfl⟩ := h
  exact ⟨_, _, _, _, _, _, _, _, before ++ events, List.foldl_append.symm⟩

end DaemonState

/-! ## A small daemon

AS 65001 at 10.0.0.1, with peers at 10.0.0.d that are accepted in both directions unless
their configuration says otherwise. -/

def peer_addr (d : UInt8) : IpAddr := .V4 (Ipv4Addr.new 10 0 0 d)

def open_peer (d : UInt8) (remote_as : Asn) : PeerConfig where
  address := peer_addr d
  remote_as := remote_as
  import_default := some .Accept
  export_default := some .Accept

def small_daemon (peers : List PeerConfig) (local_ipv6 : Option Ipv6Addr)
    (caps : List Capability) : DaemonState :=
  DaemonState.new 65001 (Ipv4Addr.new 10 0 0 1) local_ipv6 none none peers
    (HashMap.collect (peers.map fun p => (p.address, ⟨100, [], []⟩))) caps

/-- A configured iBGP peer, and whether it is a route-reflector client. -/
def internal_peer (d : UInt8) (is_rr_client : Bool) : PeerConfig :=
  { open_peer d 65001 with is_rr_client := is_rr_client }

/-- A reflector with a client, 10.0.0.4, and two non-clients, 10.0.0.2 and 10.0.0.3. -/
def reflector : DaemonState :=
  small_daemon [internal_peer 2 false, internal_peer 3 false, internal_peer 4 true] none []

/-- The session with 10.0.0.d comes up. -/
def session_up (d : UInt8) (peer_type : PeerType) (caps : List Capability) : Event :=
  .Session ⟨0, 0⟩ (peer_addr d) (.Established ⟨Ipv4Addr.new 10 0 0 d, peer_type, caps, none⟩)

/-- An UPDATE from 10.0.0.d arrives. -/
def update_from (d : UInt8) (now : ℕ) (msg : UpdateMessage) : Event :=
  .Session ⟨now, 0⟩ (peer_addr d) (.RouteUpdate msg)

def announcement (asns : List Asn) (nlris : List (Nlri Ipv4Addr)) : UpdateMessage :=
  ⟨[], [.Origin .Igp, .AsPath (AsPath.from_sequence asns), .NextHop (Ipv4Addr.new 192 0 2 1)],
    nlris⟩

def announcement_v6 (asns : List Asn) (nlris : List (Nlri Ipv6Addr)) : UpdateMessage :=
  ⟨[], [.Origin .Igp, .AsPath (AsPath.from_sequence asns),
    .MpReachNlri ⟨.IPV6_UNICAST, .V6 ⟨0x20010db8000000000000000000000001⟩, nlris.map .V6⟩], []⟩

theorem reachable_small_daemon (peers : List PeerConfig) (local_ipv6 : Option Ipv6Addr)
    (caps : List Capability) (events : List Event) :
    ((small_daemon peers local_ipv6 caps).run events).Reachable :=
  ⟨_, _, _, _, _, _, _, _, events, rfl⟩

end Pathvector
