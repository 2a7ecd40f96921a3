/-
# The life of a session

`daemon/peer.rs`: peers are added and removed, sessions come up and go down.
-/
import Pathvector.Daemon.GracefulRestart

set_option autoImplicit false

namespace Pathvector

/-! ## Capabilities -/

/-- What `extract_gr_capability` reads out of the last Graceful Restart capability. -/
structure GrCapability where
  advertised : Bool
  restart_time : Option UInt16
  families : List GracefulRestartFamily
  n_bit : Bool
  r_bit : Bool

/-- `extract_gr_capability`: the last one counts, and a restart time of zero is none. -/
def extract_gr_capability (caps : List Capability) : GrCapability :=
  match caps.reverse.findSome? fun
    | .GracefulRestart flags time families => some (flags, time, families)
    | _ => none with
  | some (flags, time, families) =>
    ⟨true, if 0 < time then some time else none, families, flags &&& 0x04 != 0,
      flags &&& 0x08 != 0⟩
  | none => ⟨false, none, [], false, false⟩

/-- A family list names a family. -/
def covers (families : Option (List GracefulRestartFamily)) (afi_safi : AfiSafi) : Bool :=
  families.any fun fs => fs.any fun f => f.afi_safi == afi_safi

/-- Sets or clears a flag of one peer. -/
def HashSet.flag (s : HashSet IpAddr) (peer_ip : IpAddr) (b : Bool) : HashSet IpAddr :=
  s.put peer_ip (if b then some () else none)

namespace DaemonState

/-! ## Adding and removing peers -/

/-- `add_peer`; `false` when the address is already there. A later peer never becomes a
route-reflector client. -/
def add_peer (s : DaemonState) (peer : PeerConfig) (update_sender : UpdateSender) :
    DaemonState × Bool :=
  if peer.address ∈ s.adj_ribs_in then (s, false)
  else
    let local_as := s.rib.local_as
    let pt := config_peer_type local_as peer.remote_as
      (peer.confederation_member && s.rib.confederation_id.isSome)
    let role := effective_role peer local_as
    ({ s with
        adj_ribs_in := s.adj_ribs_in.insert peer.address (AdjRibIn.new peer.address)
        adj_ribs_in_v6 := s.adj_ribs_in_v6.insert peer.address (AdjRibIn.new peer.address)
        adj_ribs_out :=
          s.adj_ribs_out.insert peer.address (make_adj_rib_out peer.address pt s.is_rr)
        adj_ribs_out_v6 :=
          s.adj_ribs_out_v6.insert peer.address (make_adj_rib_out peer.address pt s.is_rr)
        peer_config_types := s.peer_config_types.insert peer.address pt
        import_policies := s.import_policies.insert peer.address
          (initial_import_policy peer local_as role peer.import_default)
        import_policies_v6 := s.import_policies_v6.insert peer.address
          (initial_import_policy peer local_as role
            (peer.import_default_v6.or peer.import_default))
        export_policies := s.export_policies.insert peer.address
          (initial_export_policy peer local_as role)
        export_policies_v6 := s.export_policies_v6.insert peer.address
          (initial_export_policy peer local_as role)
        update_senders := s.update_senders.insert peer.address update_sender
        peer_max_prefixes_v4 := match peer.max_prefixes_v4 with
          | some limit => s.peer_max_prefixes_v4.insert peer.address limit
          | none => s.peer_max_prefixes_v4
        peer_max_prefixes_v6 := match peer.max_prefixes_v6 with
          | some limit => s.peer_max_prefixes_v6.insert peer.address limit
          | none => s.peer_max_prefixes_v6
        peer_max_prefixes_restart := match peer.max_prefixes_restart.filter (0 < ·) with
          | some restart => s.peer_max_prefixes_restart.insert peer.address restart
          | none => s.peer_max_prefixes_restart
        rib := { s.rib with
          peer_remote_as := s.rib.peer_remote_as.insert peer.address peer.remote_as
          next_hop_self_peers := if peer.next_hop_self
            then s.rib.next_hop_self_peers.add peer.address else s.rib.next_hop_self_peers
          peer_roles := match role with
            | some role => s.rib.peer_roles.insert peer.address role
            | none => s.rib.peer_roles } },
      true)

/-- The maps `remove_peer` takes a peer out of. The Loc-RIB, `rr_clients` and the
End-of-RIB sets are not among them. -/
def forget_peer (s : DaemonState) (peer_ip : IpAddr) : DaemonState :=
  { s with
    adj_ribs_in := s.adj_ribs_in.erase peer_ip
    adj_ribs_in_v6 := s.adj_ribs_in_v6.erase peer_ip
    adj_ribs_out := s.adj_ribs_out.erase peer_ip
    adj_ribs_out_v6 := s.adj_ribs_out_v6.erase peer_ip
    peer_config_types := s.peer_config_types.erase peer_ip
    import_policies := s.import_policies.erase peer_ip
    import_policies_v6 := s.import_policies_v6.erase peer_ip
    export_policies := s.export_policies.erase peer_ip
    export_policies_v6 := s.export_policies_v6.erase peer_ip
    update_senders := s.update_senders.erase peer_ip
    negotiated_max_len := s.negotiated_max_len.erase peer_ip
    ipv6_capable_peers := s.ipv6_capable_peers.erase peer_ip
    four_byte_peers := s.four_byte_peers.erase peer_ip
    gr := s.gr.remove_peer peer_ip
    mrai_last_sent := s.mrai_last_sent.erase peer_ip
    mrai_pending := s.mrai_pending.erase peer_ip
    pending_decisions := s.pending_decisions.erase peer_ip
    pending_decisions_v6 := s.pending_decisions_v6.erase peer_ip
    peer_max_prefixes_v4 := s.peer_max_prefixes_v4.erase peer_ip
    peer_max_prefixes_v6 := s.peer_max_prefixes_v6.erase peer_ip
    peer_max_prefixes_restart := s.peer_max_prefixes_restart.erase peer_ip
    max_prefix_idle := s.max_prefix_idle.erase peer_ip
    rib := { s.rib with
      gr_capable_peers := s.rib.gr_capable_peers.erase peer_ip
      gr_advertised_peers := s.rib.gr_advertised_peers.erase peer_ip
      gr_peer_restarting := s.rib.gr_peer_restarting.erase peer_ip
      peer_remote_as := s.rib.peer_remote_as.erase peer_ip
      peer_types := s.rib.peer_types.erase peer_ip
      local_addrs := s.rib.local_addrs.erase peer_ip
      peer_bgp_ids := s.rib.peer_bgp_ids.erase peer_ip
      next_hop_self_peers := s.rib.next_hop_self_peers.erase peer_ip
      peer_roles := s.rib.peer_roles.erase peer_ip } }

/-- `remove_peer`; `false` when the peer is not there. -/
def remove_peer (s : DaemonState) (peer_ip : IpAddr) : DaemonState × Bool :=
  if peer_ip ∈ s.adj_ribs_in then ((s.forget_peer peer_ip).recompute_selection_deferral, true)
  else (s, false)

/-! ## A session comes up -/

section

variable (s : DaemonState) (peer_ip : IpAddr) (peer_bgp_id : Ipv4Addr) (peer_type : PeerType)
  (peer_capabilities : List Capability) (local_addr : Option IpAddr)

/-- What a peer's Adj-RIB-In still holds of a family becomes stale when the peer comes back
within its restart window. An empty set is not stored. -/
def mark_stale_set {A : Type} [IpAddress A] [DecidableEq A]
    (m : HashMap IpAddr (HashSet (Nlri A))) (ari : Option (AdjRibIn A)) (peer_ip : IpAddr)
    (gr : Bool) : HashMap IpAddr (HashSet (Nlri A)) :=
  let stale_now := match ari with
    | some ari => HashSet.ofList ari.routes.keys
    | none => ∅
  if gr && !stale_now.keys.isEmpty then m.insert peer_ip stale_now else m

/-- The first part of `on_established`: the session is on record, and its Adj-RIBs-Out are
empty. The channel's history starts anew with the session. -/
def open_session : DaemonState :=
  let was_in_gr := decide (peer_ip ∈ s.gr.deadlines)
  let families := s.gr.peer_families.lookup peer_ip
  let gr_v4 := was_in_gr && covers families .IPV4_UNICAST
  let gr_v6 := was_in_gr && covers families .IPV6_UNICAST
  let extended := peer_capabilities.contains .ExtendedMessage
    && s.config_capabilities.contains .ExtendedMessage
  { s with
    gr := { s.gr with
      deadlines := s.gr.deadlines.erase peer_ip
      stale_nlri := mark_stale_set s.gr.stale_nlri (s.adj_ribs_in.lookup peer_ip) peer_ip gr_v4
      stale_nlri_v6 :=
        mark_stale_set s.gr.stale_nlri_v6 (s.adj_ribs_in_v6.lookup peer_ip) peer_ip gr_v6 }
    rib := { s.rib with
      eor_received := s.rib.eor_received.erase peer_ip
      eor_received_v6 := s.rib.eor_received_v6.erase peer_ip
      peer_types := s.rib.peer_types.insert peer_ip peer_type
      peer_bgp_ids := s.rib.peer_bgp_ids.insert peer_ip peer_bgp_id
      local_addrs := match local_addr with
        | some addr => s.rib.local_addrs.insert peer_ip addr
        | none => s.rib.local_addrs }
    negotiated_max_len := s.negotiated_max_len.insert peer_ip
      (if extended then MAX_LEN_EXTENDED else MAX_LEN)
    adj_ribs_out :=
      s.adj_ribs_out.modify peer_ip fun _ => make_adj_rib_out peer_ip peer_type s.is_rr
    adj_ribs_in_v6 := if gr_v6 then s.adj_ribs_in_v6
      else s.adj_ribs_in_v6.insert peer_ip (AdjRibIn.new peer_ip)
    adj_ribs_out_v6 :=
      s.adj_ribs_out_v6.insert peer_ip (make_adj_rib_out peer_ip peer_type s.is_rr)
    update_senders :=
      s.update_senders.modify peer_ip fun tx => { tx with sent := [], handed := [] } }

/-- What the OPEN message negotiated about AS numbers and IPv6. -/
def negotiate : DaemonState :=
  { s with
    four_byte_peers := HashSet.flag s.four_byte_peers peer_ip <| peer_capabilities.any fun
      | .FourByteAsn _ => true
      | _ => false
    ipv6_capable_peers := HashSet.flag s.ipv6_capable_peers peer_ip
      (peer_capabilities.contains (.MultiProtocol .IPV6_UNICAST)) }

/-- What the OPEN message negotiated about graceful restart. -/
def negotiate_gr : DaemonState :=
  let cap := extract_gr_capability peer_capabilities
  { s with
    rib := { s.rib with
      gr_capable_peers := s.rib.gr_capable_peers.put peer_ip (cap.restart_time.map UInt16.toNat)
      gr_advertised_peers := HashSet.flag s.rib.gr_advertised_peers peer_ip cap.advertised
      gr_peer_restarting :=
        HashSet.flag s.rib.gr_peer_restarting peer_ip (cap.advertised && cap.r_bit) }
    gr := { s.gr with
      peer_families :=
        s.gr.peer_families.put peer_ip (cap.restart_time.map fun _ => cap.families)
      notification_capable_peers := HashSet.flag s.gr.notification_capable_peers peer_ip
        (cap.restart_time.isSome && cap.n_bit) } }

def on_established : DaemonState :=
  let s := s.open_session peer_ip peer_bgp_id peer_type peer_capabilities local_addr
  if peer_ip ∈ s.export_policies ∧ peer_ip ∈ s.adj_ribs_out ∧ peer_ip ∈ s.update_senders then
    let s := s.negotiate peer_ip peer_capabilities
    let s := if s.selection_deferral.v4_deferred then s else s.dump_family_v4 peer_ip
    let s := if s.selection_deferral.v6_deferred then s else s.dump_family_v6 peer_ip
    (s.negotiate_gr peer_ip peer_capabilities).recompute_selection_deferral
  else s

end

/-! ## A session goes down -/

section

variable (s : DaemonState) (clk : Clock) (peer_ip : IpAddr) (reason : TerminationReason)

/-- Our Graceful Restart capability has the N bit (RFC 8538). -/
def we_have_n_bit : Bool :=
  s.config_capabilities.any fun
    | .GracefulRestart flags time _ => decide (0 < time) && flags &&& 0x04 != 0
    | _ => false

/-- A NOTIFICATION that still allows graceful restart. -/
def notification_gr_eligible : TerminationReason → Bool
  | .Notification n =>
    n.error != .Cease .HardReset && s.we_have_n_bit
      && decide (peer_ip ∈ s.gr.notification_capable_peers)
  | _ => false

/-- The restart time of a peer, zero when it has none. -/
def gr_restart_time : ℕ :=
  (s.rib.gr_capable_peers.lookup peer_ip).getD 0

/-- The termination enters helper mode. -/
def enter_gr : Bool :=
  decide (peer_ip ∉ s.pending_removal) && decide (0 < s.gr_restart_time peer_ip)
    && (reason == .Unclean || s.notification_gr_eligible peer_ip reason)

/-- The maps every termination takes a peer out of. -/
def close_session : DaemonState :=
  { s with
    rib := { s.rib with
      peer_types := s.rib.peer_types.erase peer_ip
      local_addrs := s.rib.local_addrs.erase peer_ip
      peer_bgp_ids := s.rib.peer_bgp_ids.erase peer_ip
      eor_received := s.rib.eor_received.erase peer_ip
      eor_received_v6 := s.rib.eor_received_v6.erase peer_ip
      gr_advertised_peers := s.rib.gr_advertised_peers.erase peer_ip
      gr_peer_restarting := s.rib.gr_peer_restarting.erase peer_ip
      gr_capable_peers := s.rib.gr_capable_peers.erase peer_ip }
    negotiated_max_len := s.negotiated_max_len.erase peer_ip
    ipv6_capable_peers := s.ipv6_capable_peers.erase peer_ip
    four_byte_peers := s.four_byte_peers.erase peer_ip
    mrai_last_sent := s.mrai_last_sent.erase peer_ip
    mrai_pending := s.mrai_pending.erase peer_ip
    pending_decisions := s.pending_decisions.erase peer_ip
    pending_decisions_v6 := s.pending_decisions_v6.erase peer_ip }

/-- `on_terminated` into helper mode: a family the peer's capability does not list is
cleared, the others become stale. -/
def terminate_gr (restart_time : ℕ) : DaemonState :=
  let families := s.gr.peer_families.lookup peer_ip
  let gr_v4 := covers families .IPV4_UNICAST
  let gr_v6 := covers families .IPV6_UNICAST
  let s := if gr_v4 then s else s.clear_adj_rib_in_v4 peer_ip
  let s := if gr_v6 then s else s.clear_adj_rib_in_v6 peer_ip
  { s with
    gr := { s.gr with
      deadlines := s.gr.deadlines.insert peer_ip (clk.instant + restart_time * 1000) }
  }.mark_stale_and_repropagate peer_ip gr_v4 gr_v6

/-- `on_terminated` without helper mode. Only IPv4 prefixes are propagated. -/
def terminate_now : DaemonState :=
  let s := (s.clear_adj_rib_in_v4 peer_ip).clear_adj_rib_in_v6 peer_ip
  let prev_prefixes := s.best_prefixes_v4
  let s := (s.rib_withdraw_peer peer_ip).reset_adj_ribs_out peer_ip
  (s.direct_others_v4 peer_ip prev_prefixes).emit_route_events prev_prefixes

def on_terminated : DaemonState :=
  if s.enter_gr peer_ip reason then
    (s.close_session peer_ip).terminate_gr clk peer_ip (s.gr_restart_time peer_ip)
  else (s.close_session peer_ip).terminate_now peer_ip

end

end DaemonState

end Pathvector
