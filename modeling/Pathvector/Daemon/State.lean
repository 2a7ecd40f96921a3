/-
# The daemon's state

`RibSnapshot`, `DaemonState` and `DaemonState::new` (`pathvectord/src/daemon/mod.rs`),
with `GracefulRestartState` (`daemon/gr.rs`) and `SelectionDeferral`
(`daemon/deferral.rs`).

The state keeps the source's maps as separate maps: a peer can be in one and not in
another, and the code checks for that. What only logging, metrics and the gRPC server
read (hold times, prefix counters, negotiated roles, shutdown texts) is left out. Three
fields stand for handles to the outside: `update_senders` are the channels to the
session tasks, `fib_manager` is the list of calls made to the kernel layer, if there is
one, and `route_tx` is the list of route events published so far.
-/
import Pathvector.Daemon.Outbound
import Pathvector.Session.Message

set_option autoImplicit false

namespace Pathvector

/-- The two clocks the code reads: the monotonic one, in milliseconds, and the wall
clock that stamps routes, in seconds. -/
structure Clock where
  instant : ℕ
  unix_secs : UInt32
  deriving DecidableEq, Repr

/-! ## Configuration -/

/-- `config::PeerConfig`, the fields the daemon state is built from. -/
structure PeerConfig where
  address : IpAddr
  remote_as : Asn
  import_default : Option DefaultAction := none
  import_default_v6 : Option DefaultAction := none
  export_default : Option DefaultAction := none
  is_rr_client : Bool := false
  next_hop_self : Bool := false
  confederation_member : Bool := false
  role : Option Role := none
  max_prefixes_v4 : Option ℕ := none
  max_prefixes_v6 : Option ℕ := none
  max_prefixes_restart : Option ℕ := none

/-- `resolve_import_default`: RFC 8212 default deny for eBGP. -/
def resolve_import_default (opt : Option DefaultAction) (is_ebgp : Bool) : DefaultAction :=
  opt.getD (if is_ebgp then .Reject else .Accept)

def resolve_export_default (opt : Option DefaultAction) (is_ebgp : Bool) : DefaultAction :=
  opt.getD (if is_ebgp then .Reject else .Accept)

def config_peer_type (local_as remote_as : Asn) (confed_member : Bool) : PeerType :=
  if local_as = remote_as then .Internal
  else if confed_member then .ConfedMember
  else .External

/-- `effective_role`: RFC 9234 roles are eBGP only. -/
def effective_role (peer : PeerConfig) (local_as : Asn) : Option Role :=
  if peer.remote_as = local_as then none else peer.role

section

variable {A : Type} [IpAddress A]

def install_otc_import_term (policy : Policy A) (session_role : Role) (peer_asn : Asn) : Policy A :=
  let policy := policy.add_term ⟨.OtcLeak session_role peer_asn, .Reject⟩
  match session_role with
  | .Customer | .Peer | .RsClient => policy.add_term ⟨.Any, .SetOtc peer_asn⟩
  | .Provider | .RouteServer => policy

def install_otc_export_term (policy : Policy A) (session_role : Role) (local_asn : Asn) :
    Policy A :=
  let policy := match session_role with
    | .Customer | .Peer | .RsClient => policy.add_term ⟨.OtcPropagation, .Reject⟩
    | .Provider | .RouteServer => policy
  match session_role with
  | .Provider | .Peer | .RouteServer => policy.add_term ⟨.Any, .SetOtc local_asn⟩
  | .Customer | .RsClient => policy

/-- The import policy a peer starts with. `role` is what `peer_roles` holds for its
address. -/
def initial_import_policy (peer : PeerConfig) (local_as : Asn) (role : Option Role)
    (default : Option DefaultAction) : Policy A :=
  let policy := Policy.new (resolve_import_default default (peer.remote_as ≠ local_as))
  match role with
  | some role => install_otc_import_term policy role peer.remote_as
  | none => policy

/-- The export policy a peer starts with. -/
def initial_export_policy (peer : PeerConfig) (local_as : Asn) (role : Option Role) : Policy A :=
  let policy := Policy.new
    (resolve_export_default peer.export_default (peer.remote_as ≠ local_as))
  match role with
  | some role => install_otc_export_term policy role local_as
  | none => policy

/-- One half of `make_adj_ribs_out_pair`: only iBGP sessions of a route reflector
reflect. -/
def make_adj_rib_out [DecidableEq A] (peer : PeerId) (peer_type : PeerType) (is_rr : Bool) :
    AdjRibOut A :=
  AdjRibOut.new peer peer_type (is_rr && peer_type == .Internal)

end

/-! ## The state -/

structure GracefulRestartState where
  deadlines : HashMap IpAddr ℕ
  stale_nlri : HashMap IpAddr (HashSet (Nlri Ipv4Addr))
  stale_nlri_v6 : HashMap IpAddr (HashSet (Nlri Ipv6Addr))
  peer_families : HashMap IpAddr (List GracefulRestartFamily)
  notification_capable_peers : HashSet IpAddr

/-- `GracefulRestartState::new`. -/
def GracefulRestartState.new : GracefulRestartState := ⟨∅, ∅, ∅, ∅, ∅⟩

/-- `GracefulRestartState::remove_peer`. -/
def GracefulRestartState.remove_peer (gr : GracefulRestartState) (peer_ip : IpAddr) :
    GracefulRestartState where
  deadlines := gr.deadlines.erase peer_ip
  stale_nlri := gr.stale_nlri.erase peer_ip
  stale_nlri_v6 := gr.stale_nlri_v6.erase peer_ip
  peer_families := gr.peer_families.erase peer_ip
  notification_capable_peers := gr.notification_capable_peers.erase peer_ip

structure SelectionDeferral where
  deadline : Option ℕ
  v4_released : Bool
  v6_released : Bool
  deriving DecidableEq, Repr

namespace SelectionDeferral

/-- `SelectionDeferral::new`. -/
def new (daemon_start deferral_secs : ℕ) : SelectionDeferral :=
  if deferral_secs = 0 then ⟨none, true, true⟩
  else ⟨some (daemon_start + deferral_secs * 1000), false, false⟩

/-- `SelectionDeferral::disabled`. -/
def disabled : SelectionDeferral := ⟨none, true, true⟩

def v4_deferred (d : SelectionDeferral) : Bool := !d.v4_released

def v6_deferred (d : SelectionDeferral) : Bool := !d.v6_released

end SelectionDeferral

structure RibSnapshot where
  loc_rib : LocRib Ipv4Addr
  loc_rib_v6 : LocRib Ipv6Addr
  originated_routes : HashSet (Nlri Ipv4Addr)
  originated_routes_v6 : HashSet (Nlri Ipv6Addr)
  local_as : Asn
  local_bgp_id : Ipv4Addr
  local_ipv6 : Option Ipv6Addr
  peer_remote_as : HashMap IpAddr Asn
  /-- The established peers, with the type of their session. -/
  peer_types : HashMap IpAddr PeerType
  local_addrs : HashMap IpAddr IpAddr
  next_hop_self_peers : HashSet IpAddr
  rr_clients : HashSet IpAddr
  cluster_id : UInt32
  confederation_id : Option Asn
  peer_bgp_ids : HashMap IpAddr Ipv4Addr
  eor_received : HashSet IpAddr
  eor_received_v6 : HashSet IpAddr
  gr_capable_peers : HashMap IpAddr ℕ
  gr_advertised_peers : HashSet IpAddr
  gr_peer_restarting : HashSet IpAddr
  /-- The configured roles (RFC 9234). -/
  peer_roles : HashMap IpAddr Role

/-- A call to the kernel layer (`ApplyFibChange`). -/
inductive FibCall where
  | apply_v4 (change : BestPathChange Ipv4Addr)
  | apply_v6 (change : BestPathChange Ipv6Addr)
  | apply_blackhole_v4 (nlri : Nlri Ipv4Addr)
  | apply_blackhole_v6 (nlri : Nlri Ipv6Addr)
  | withdraw_blackhole_v4 (nlri : Nlri Ipv4Addr)
  | withdraw_blackhole_v6 (nlri : Nlri Ipv6Addr)
  deriving DecidableEq

/-- A route event published to gRPC subscribers. -/
inductive RouteEvent where
  | Announced (peer : PeerId) (nlri : Nlri Ipv4Addr) (route : Route Ipv4Addr)
  | AnnouncedV6 (peer : PeerId) (nlri : Nlri Ipv6Addr) (route : Route Ipv6Addr)
  | Withdrawn (nlri : Nlri Ipv4Addr)
  | WithdrawnV6 (nlri : Nlri Ipv6Addr)
  deriving DecidableEq

structure DaemonState where
  rib : RibSnapshot
  import_policies : HashMap IpAddr (Policy Ipv4Addr)
  import_policies_v6 : HashMap IpAddr (Policy Ipv6Addr)
  export_policies : HashMap IpAddr (Policy Ipv4Addr)
  export_policies_v6 : HashMap IpAddr (Policy Ipv6Addr)
  adj_ribs_in : HashMap IpAddr (AdjRibIn Ipv4Addr)
  adj_ribs_out : HashMap IpAddr (AdjRibOut Ipv4Addr)
  adj_ribs_in_v6 : HashMap IpAddr (AdjRibIn Ipv6Addr)
  adj_ribs_out_v6 : HashMap IpAddr (AdjRibOut Ipv6Addr)
  peer_config_types : HashMap IpAddr PeerType
  update_senders : HashMap IpAddr UpdateSender
  config_capabilities : List Capability
  negotiated_max_len : HashMap IpAddr ℕ
  ipv6_capable_peers : HashSet IpAddr
  four_byte_peers : HashSet IpAddr
  mrai_last_sent : HashMap IpAddr (HashMap (Nlri Ipv4Addr) ℕ)
  mrai_pending : HashMap IpAddr (HashSet (Nlri Ipv4Addr))
  stalled_peers : List IpAddr
  pending_decisions : HashMap IpAddr (List (PrefixDecision Ipv4Addr))
  pending_decisions_v6 : HashMap IpAddr (List (PrefixDecision Ipv6Addr))
  pending_removal : HashSet IpAddr
  gr : GracefulRestartState
  selection_deferral : SelectionDeferral
  peer_max_prefixes_v4 : HashMap IpAddr ℕ
  peer_max_prefixes_v6 : HashMap IpAddr ℕ
  peer_max_prefixes_restart : HashMap IpAddr ℕ
  max_prefix_idle : HashMap IpAddr ℕ
  route_tx : List RouteEvent
  fib_manager : Option (List FibCall)
  rpki_v4 : RtrHandle Ipv4Addr
  rpki_v6 : RtrHandle Ipv6Addr
  oracle_v4 : NextHopOracle
  oracle_v6 : NextHopOracle

/-- `MRAI`, thirty seconds. -/
def MRAI : ℕ := 30000

/-- `LOCAL_ORIGIN_PEER`, the pseudo-peer of originated routes. -/
def LOCAL_ORIGIN_PEER : PeerId := .V4 Ipv4Addr.UNSPECIFIED

namespace DaemonState

/-- `DaemonState::new`. Without a cluster id the BGP identifier serves as one. -/
def new (local_as : Asn) (local_bgp_id : Ipv4Addr) (local_ipv6 : Option Ipv6Addr)
    (cluster_id : Option UInt32) (confederation_id : Option Asn) (peers : List PeerConfig)
    (update_senders : HashMap IpAddr UpdateSender) (config_capabilities : List Capability) :
    DaemonState :=
  let rr_clients := HashSet.ofList
    ((peers.filter fun p => p.is_rr_client && p.remote_as == local_as).map (·.address))
  let is_rr := !rr_clients.keys.isEmpty
  -- the roles are looked up by address, which matters when an address is listed twice
  let peer_roles : HashMap IpAddr Role := HashMap.collect
    (peers.filterMap fun p => (effective_role p local_as).map (p.address, ·))
  let role := fun p : PeerConfig => peer_roles.lookup p.address
  let peer_type := fun p : PeerConfig =>
    config_peer_type local_as p.remote_as (p.confederation_member && confederation_id.isSome)
  { rib :=
      { loc_rib := LocRib.new
        loc_rib_v6 := LocRib.new
        originated_routes := ∅
        originated_routes_v6 := ∅
        local_as := local_as
        local_bgp_id := local_bgp_id
        local_ipv6 := local_ipv6
        peer_remote_as := HashMap.collect (peers.map fun p => (p.address, p.remote_as))
        peer_types := ∅
        local_addrs := ∅
        next_hop_self_peers :=
          HashSet.ofList ((peers.filter (·.next_hop_self)).map (·.address))
        rr_clients := rr_clients
        cluster_id := cluster_id.getD (UInt32.ofNat local_bgp_id.bits.toNat)
        confederation_id := confederation_id
        peer_bgp_ids := ∅
        eor_received := ∅
        eor_received_v6 := ∅
        gr_capable_peers := ∅
        gr_advertised_peers := ∅
        gr_peer_restarting := ∅
        peer_roles := peer_roles }
    import_policies := HashMap.collect
      (peers.map fun p => (p.address, initial_import_policy p local_as (role p) p.import_default))
    import_policies_v6 := HashMap.collect (peers.map fun p =>
      (p.address,
        initial_import_policy p local_as (role p) (p.import_default_v6.or p.import_default)))
    export_policies := HashMap.collect
      (peers.map fun p => (p.address, initial_export_policy p local_as (role p)))
    export_policies_v6 := HashMap.collect
      (peers.map fun p => (p.address, initial_export_policy p local_as (role p)))
    adj_ribs_in := HashMap.collect (peers.map fun p => (p.address, AdjRibIn.new p.address))
    adj_ribs_out := HashMap.collect
      (peers.map fun p => (p.address, make_adj_rib_out p.address (peer_type p) is_rr))
    adj_ribs_in_v6 := HashMap.collect (peers.map fun p => (p.address, AdjRibIn.new p.address))
    adj_ribs_out_v6 := HashMap.collect
      (peers.map fun p => (p.address, make_adj_rib_out p.address (peer_type p) is_rr))
    peer_config_types := HashMap.collect (peers.map fun p => (p.address, peer_type p))
    update_senders := update_senders
    config_capabilities := config_capabilities
    negotiated_max_len := ∅
    ipv6_capable_peers := ∅
    four_byte_peers := ∅
    mrai_last_sent := ∅
    mrai_pending := ∅
    stalled_peers := []
    pending_decisions := ∅
    pending_decisions_v6 := ∅
    pending_removal := ∅
    gr := GracefulRestartState.new
    selection_deferral := SelectionDeferral.disabled
    peer_max_prefixes_v4 := HashMap.collect
      (peers.filterMap fun p => p.max_prefixes_v4.map (p.address, ·))
    peer_max_prefixes_v6 := HashMap.collect
      (peers.filterMap fun p => p.max_prefixes_v6.map (p.address, ·))
    peer_max_prefixes_restart := HashMap.collect
      (peers.filterMap fun p => (p.max_prefixes_restart.filter (0 < ·)).map (p.address, ·))
    max_prefix_idle := ∅
    route_tx := []
    fib_manager := none
    rpki_v4 := fun _ _ _ => .NotFound
    rpki_v6 := fun _ _ _ => .NotFound
    oracle_v4 := .AlwaysReachable
    oracle_v6 := .AlwaysReachable }

variable (s : DaemonState) (peer_ip : IpAddr)

/-- The daemon is a route reflector. -/
def is_rr : Bool := !s.rib.rr_clients.keys.isEmpty

/-- `rib.confederation_id.unwrap_or(local_as)`, the AS number external peers see. -/
def public_as : Asn := s.rib.confederation_id.getD s.rib.local_as

/-- The type of a peer's session, `External` for a peer that is not established. -/
def peer_type : PeerType :=
  (s.rib.peer_types.lookup peer_ip).getD .External

/-- The address our side of a session uses as IPv4 next hop. -/
def local_next_hop : Ipv4Addr :=
  match s.rib.local_addrs.lookup peer_ip with
  | some (.V4 a) => a
  | _ => s.rib.local_bgp_id

/-- The message size negotiated with a peer. -/
def max_len : ℕ :=
  (s.negotiated_max_len.lookup peer_ip).getD MAX_LEN

/-- Makes calls to the kernel layer, when there is one. -/
def fib_apply (calls : List FibCall) : DaemonState :=
  { s with fib_manager := s.fib_manager.map (· ++ calls) }

def emit_route_events (affected : List (Nlri Ipv4Addr)) : DaemonState :=
  { s with
    route_tx := s.route_tx ++ affected.map fun nlri =>
      match s.rib.loc_rib.best nlri with
      | some route =>
        .Announced ((s.rib.loc_rib.best_peer nlri).getD LOCAL_ORIGIN_PEER) nlri route
      | none => .Withdrawn nlri }

end DaemonState

end Pathvector
