/-
# Route updates

`on_route_update` (`pathvectord/src/daemon/route.rs`), the event of one received UPDATE:
End-of-RIB, the route-reflection checks, the import, the prefix limits, and only then the
kernel layer and the other peers.
-/
import Pathvector.Daemon.GracefulRestart
import Pathvector.Daemon.HandleUpdate

set_option autoImplicit false

namespace Pathvector

/-! ## What a message says -/

/-- The IPv4 End-of-RIB marker: the empty UPDATE. -/
def UpdateMessage.is_eor_v4 (msg : UpdateMessage) : Bool :=
  msg.withdrawn.isEmpty && msg.attributes.isEmpty && msg.announced.isEmpty

def UpdateMessage.is_eor_v6 (msg : UpdateMessage) : Bool :=
  msg.withdrawn.isEmpty && msg.announced.isEmpty &&
    match msg.attributes with
    | [.MpUnreachNlri m] => m.afi_safi == .IPV6_UNICAST && m.prefixes.isEmpty
    | _ => false

/-- The prefixes of one family in a multiprotocol attribute, reachable or not. -/
def PathAttribute.mp_prefixes (family : AfiSafi) : PathAttribute → List Prefix
  | .MpReachNlri mp => if mp.afi_safi = family then mp.prefixes else []
  | .MpUnreachNlri mp => if mp.afi_safi = family then mp.prefixes else []
  | _ => []

/-- `affected`: every IPv4 prefix the message names. -/
def UpdateMessage.affected (msg : UpdateMessage) : List (Nlri Ipv4Addr) :=
  msg.withdrawn ++ msg.announced
    ++ msg.attributes.flatMap fun a => (a.mp_prefixes .IPV4_UNICAST).filterMap Prefix.v4?

/-- `affected_v6`: every IPv6 prefix the message names. -/
def UpdateMessage.affected_v6 (msg : UpdateMessage) : List (Nlri Ipv6Addr) :=
  msg.attributes.flatMap fun a => (a.mp_prefixes .IPV6_UNICAST).filterMap Prefix.v6?

/-- The prefixes of one family in an MP_REACH_NLRI. -/
def PathAttribute.reach (family : AfiSafi) : PathAttribute → List Prefix
  | .MpReachNlri mp => if mp.afi_safi = family then mp.prefixes else []
  | _ => []

/-- The prefixes of one family in an MP_UNREACH_NLRI. -/
def PathAttribute.unreach (family : AfiSafi) : PathAttribute → List Prefix
  | .MpUnreachNlri mp => if mp.afi_safi = family then mp.prefixes else []
  | _ => []

namespace UpdateMessage

/-- The IPv4 prefixes of the message's MP_REACH_NLRI attributes. -/
def reached_v4 (msg : UpdateMessage) : List (Nlri Ipv4Addr) :=
  msg.attributes.flatMap fun a => (a.reach .IPV4_UNICAST).filterMap Prefix.v4?

def reached_v6 (msg : UpdateMessage) : List (Nlri Ipv6Addr) :=
  msg.attributes.flatMap fun a => (a.reach .IPV6_UNICAST).filterMap Prefix.v6?

/-- The IPv4 prefixes of the message's MP_UNREACH_NLRI attributes. -/
def unreached_v4 (msg : UpdateMessage) : List (Nlri Ipv4Addr) :=
  msg.attributes.flatMap fun a => (a.unreach .IPV4_UNICAST).filterMap Prefix.v4?

def unreached_v6 (msg : UpdateMessage) : List (Nlri Ipv6Addr) :=
  msg.attributes.flatMap fun a => (a.unreach .IPV6_UNICAST).filterMap Prefix.v6?

end UpdateMessage

/-! ## Route reflection, inbound -/

/-- The first CLUSTER_LIST gets our cluster id in front; without one it is appended. -/
def prepend_cluster (cluster_id : UInt32) : List PathAttribute → List PathAttribute
  | [] => [.ClusterList [cluster_id]]
  | .ClusterList list :: rest => .ClusterList (cluster_id :: list) :: rest
  | a :: rest => a :: prepend_cluster cluster_id rest

/-- The message carries an ORIGINATOR_ID. -/
def has_originator (attributes : List PathAttribute) : Bool :=
  attributes.any fun
    | .OriginatorId _ => true
    | _ => false

/-- The message has been through this reflector, or comes from it (RFC 4456 section 8). -/
def rr_loop (cluster_id : UInt32) (local_bgp_id : Ipv4Addr) (attributes : List PathAttribute) :
    Bool :=
  attributes.any fun
    | .OriginatorId id => id == local_bgp_id
    | .ClusterList list => list.contains cluster_id
    | _ => false

namespace DaemonState

/-- The inbound processing of a route reflector, for any iBGP message: `none` when it loops,
and otherwise the message with ORIGINATOR_ID and CLUSTER_LIST in it. -/
def rr_inbound (s : DaemonState) (peer_ip : IpAddr) (msg : UpdateMessage) : Option UpdateMessage :=
  if s.is_rr && s.peer_type peer_ip == .Internal then
    if rr_loop s.rib.cluster_id s.rib.local_bgp_id msg.attributes then none
    else
      let bgp_id := (s.rib.peer_bgp_ids.lookup peer_ip).getD s.rib.local_bgp_id
      let attributes := if has_originator msg.attributes then msg.attributes
        else msg.attributes ++ [.OriginatorId bgp_id]
      some { msg with attributes := prepend_cluster s.rib.cluster_id attributes }
  else some msg

/-! ## The import -/

section

variable (s : DaemonState) (clk : Clock) (peer_ip : IpAddr) (msg : UpdateMessage)

/-- The parameters `on_route_update` gives to `handle_update`. -/
def import_env (policy : Policy Ipv4Addr) (policy_v6 : Policy Ipv6Addr) : ImportEnv where
  peer := peer_ip
  policy := policy
  policy_v6 := policy_v6
  peer_type := s.peer_type peer_ip
  peer_bgp_id := s.rib.peer_bgp_ids.lookup peer_ip
  oracle_v4 := s.oracle_v4
  oracle_v6 := s.oracle_v6
  local_as := s.rib.local_as
  confederation_id := s.rib.confederation_id
  local_v4_addr := match s.rib.local_addrs.lookup peer_ip with
    | some (.V4 a) => some a
    | _ => none
  local_v6_addr := s.rib.local_ipv6
  rpki_v4 := s.rpki_v4
  rpki_v6 := s.rpki_v6
  now := clk.unix_secs

/-- What `handle_update` makes of the message, `none` when the peer is not configured. A
peer without an IPv6 Adj-RIB-In gets a scratch one. -/
def handled : Option PendingUpdate :=
  match s.import_policies.lookup peer_ip, s.import_policies_v6.lookup peer_ip,
    s.adj_ribs_in.lookup peer_ip with
  | some policy, some policy_v6, some ari =>
    some (handle_update (s.import_env clk peer_ip policy policy_v6) msg
      (.start ari s.rib.loc_rib)
      (.start ((s.adj_ribs_in_v6.lookup peer_ip).getD (AdjRibIn.new peer_ip)) s.rib.loc_rib_v6))
  | _, _, _ => none

/-- The state with the imported tables in it. The announced prefixes are not stale any
more. -/
def imported (u : PendingUpdate) : DaemonState :=
  { (s.set_loc_rib u.v4.loc_rib).set_loc_rib_v6 u.v6.loc_rib with
    adj_ribs_in := s.adj_ribs_in.insert peer_ip u.v4.adj_rib_in
    adj_ribs_in_v6 := s.adj_ribs_in_v6.modify peer_ip fun _ => u.v6.adj_rib_in
    gr := { s.gr with
      stale_nlri := s.gr.stale_nlri.modify peer_ip fun stale =>
        msg.announced.foldl (fun st n => st.erase n) stale
      stale_nlri_v6 := s.gr.stale_nlri_v6.modify peer_ip fun stale =>
        msg.reached_v6.foldl (fun st n => st.erase n) stale } }

/-- A peer is over one of its prefix limits. -/
def exceeds_limit (u : PendingUpdate) : Bool :=
  ((s.peer_max_prefixes_v4.lookup peer_ip).any fun lim => lim < u.v4.adj_rib_in.len)
    || ((s.peer_max_prefixes_v6.lookup peer_ip).any fun lim => lim < u.v6.adj_rib_in.len)

/-- The idle-hold time of a peer that went over its limit. -/
def idle_hold : DaemonState :=
  match s.peer_max_prefixes_restart.lookup peer_ip with
  | some restart_secs =>
    { s with
      max_prefix_idle := s.max_prefix_idle.insert peer_ip (clk.instant + restart_secs * 1000) }
  | none => s

/-- The calls to the kernel layer. A withdrawn BLACKHOLE prefix falls back to its best
route, if it has one. -/
def update_calls (u : PendingUpdate) : List FibCall :=
  u.v4.fib_changes.map .apply_v4
    ++ u.v6.fib_changes.map .apply_v6
    ++ u.v4.blackhole_announced.map .apply_blackhole_v4
    ++ u.v6.blackhole_announced.map .apply_blackhole_v6
    ++ (u.v4.blackhole_withdrawn.flatMap fun n =>
      .withdraw_blackhole_v4 n ::
        ((s.rib.loc_rib.best n).map fun r => .apply_v4 (.Announced n r)).toList)
    ++ u.v6.blackhole_withdrawn.flatMap fun n =>
      .withdraw_blackhole_v6 n ::
        ((s.rib.loc_rib_v6.best n).map fun r => .apply_v6 (.Announced n r)).toList

/-- The end of `on_route_update`: the kernel layer, the other peers, the subscribers. -/
def publish_update (u : PendingUpdate) : DaemonState :=
  let s := (s.fib_apply (s.update_calls u)).propagate_to_all_peers clk msg.affected
  let s := if msg.affected_v6.isEmpty then s else s.propagate_to_all_peers_v6 msg.affected_v6
  s.emit_route_events msg.affected

/-! ## `on_route_update` -/

/-- The IPv4 End-of-RIB marker: what is still stale is withdrawn. -/
def on_eor_v4 : DaemonState :=
  let stale := (s.gr.stale_nlri.lookup peer_ip).getD ∅
  let s :=
    { s with
      rib := { s.rib with eor_received := s.rib.eor_received.add peer_ip }
      gr := { s.gr with stale_nlri := s.gr.stale_nlri.erase peer_ip } }
  (if stale.keys.isEmpty then s else s.prune_stale_nlri peer_ip stale.keys
    ).recompute_selection_deferral

def on_eor_v6 : DaemonState :=
  let stale := (s.gr.stale_nlri_v6.lookup peer_ip).getD ∅
  let s :=
    { s with
      rib := { s.rib with eor_received_v6 := s.rib.eor_received_v6.add peer_ip }
      gr := { s.gr with stale_nlri_v6 := s.gr.stale_nlri_v6.erase peer_ip } }
  (if stale.keys.isEmpty then s else s.prune_stale_nlri_v6 peer_ip stale.keys
    ).recompute_selection_deferral

/-- The part of `on_route_update` after the route-reflection checks. The limits are checked
on the tables the import has already changed. -/
def on_update_message : DaemonState × Option NotificationMessage :=
  match s.handled clk peer_ip msg with
  | none => (s, none)
  | some u =>
    let s := s.imported peer_ip msg u
    if s.exceeds_limit peer_ip u then
      (s.idle_hold clk peer_ip, some ⟨.Cease .MaximumNumberOfPrefixesReached, []⟩)
    else (s.publish_update clk msg u, u.notification)

def on_route_update : DaemonState × Option NotificationMessage :=
  if msg.is_eor_v4 then (s.on_eor_v4 peer_ip, none)
  else if msg.is_eor_v6 then (s.on_eor_v6 peer_ip, none)
  else
    match s.rr_inbound peer_ip msg with
    | none => (s, none)
    | some msg => s.on_update_message clk peer_ip msg

end

end DaemonState

end Pathvector
