/-
# The outbound pipeline

`pathvectord/src/outbound.rs`: building path attributes, deciding what to send for one
prefix (`propagate_prefix`), and flushing a list of decisions as UPDATE messages
(`flush_updates`), for both families.

The per-peer channel is an `UpdateSender`. Its free capacity is `room`; a `try_send`
fails when there is none. The other two fields are history variables that no
definition reads: `sent`, the messages put on the channel since the session came up,
and `handed`, the IPv4 decision lists given to `flush_updates` for it.
-/
import Pathvector.Rib.AdjRib
import Pathvector.Rib.LocRib
import Pathvector.Session.Update

set_option autoImplicit false

namespace Pathvector

/-! ## Path attributes -/

/-- The AS_PATH to put on the wire, and the AS4_PATH when the peer speaks two-octet
AS numbers and the path does not fit. -/
def wire_as_path (path : AsPath) (peer_four_byte : Bool) : AsPath × Option AsPath :=
  if peer_four_byte then (path, none) else path.downgrade_for_two_byte_peer

/-- The attributes both families build after LOCAL_PREF and MED. -/
def rare_to_attributes (rare : RareAttrs) (peer_type : PeerType) : List PathAttribute :=
  let strip_rr_metadata := peer_type == .External || peer_type == .ConfedMember
  (if rare.communities.isEmpty then [] else [.Communities rare.communities])
    ++ (if rare.large_communities.isEmpty then [] else [.LargeCommunities rare.large_communities])
    ++ (if rare.extended_communities.isEmpty then []
        else [.ExtendedCommunities rare.extended_communities])
    ++ (if rare.atomic_aggregate then [.AtomicAggregate] else [])
    ++ (rare.aggregator.map PathAttribute.Aggregator).toList
    ++ (if strip_rr_metadata then []
        else (rare.originator_id.map PathAttribute.OriginatorId).toList
          ++ (if rare.cluster_list.isEmpty then [] else [.ClusterList rare.cluster_list]))
    ++ (rare.otc.map PathAttribute.OnlyToCustomer).toList
    ++ rare.unknown.map fun attr => .Unknown (0x80 ||| 0x40) attr.type_code attr.value

section

variable {A : Type} [IpAddress A]

/-- The common body of `route_to_attributes` and `route_v6_to_attributes`; `next_hop` is
the NEXT_HOP attribute, which only IPv4 uses. -/
def route_to_attributes_with (next_hop : List PathAttribute) (route : Route A)
    (peer_type : PeerType) (peer_four_byte : Bool) : List PathAttribute :=
  let strip_med := peer_type == .External
  let (wire_path, as4_path) := wire_as_path route.as_path peer_four_byte
  [.Origin route.origin, .AsPath wire_path]
    ++ next_hop
    ++ (route.local_pref.map PathAttribute.LocalPref).toList
    ++ (if strip_med then [] else (route.med.map PathAttribute.Med).toList)
    ++ rare_to_attributes route.rare_or_default peer_type
    ++ (as4_path.map fun p => PathAttribute.As4Path p.strip_confed_segments).toList

end

def route_to_attributes (route : Route Ipv4Addr) (peer_type : PeerType) (peer_four_byte : Bool) :
    List PathAttribute :=
  let next_hop := match route.next_hop with
    | some (.V4 nh) => [.NextHop nh]
    | _ => []
  route_to_attributes_with next_hop route peer_type peer_four_byte

/-- `route_v6_to_attributes`: the attributes, and the MP_REACH_NLRI of this one prefix. -/
def route_v6_to_attributes (route : Route Ipv6Addr) (peer_type : PeerType)
    (peer_four_byte : Bool) : List PathAttribute × MpReachNlri :=
  (route_to_attributes_with [] route peer_type peer_four_byte,
    { afi_safi := .IPV6_UNICAST
      next_hop := route.next_hop.getD (.V6 ⟨0⟩)
      prefixes := [.V6 route.nlri] })

/-! ## Deciding one prefix -/

section

variable {A : Type} [IpAddress A] [DecidableEq A]

section

variable (prepare : Route A → Route A) (rtr : RtrHandle A) (export_policy : Policy A)
  (peer_type : PeerType) (nlri : Nlri A) (best : Option (PeerId × Route A))

/-- Drops the entry of a prefix: a withdrawal if there was one. -/
def withdraw_entry (out : AdjRibOut A) (nlri : Nlri A) : AdjRibOut A × PrefixDecision A :=
  (out.withdraw nlri, if (out.get nlri).isSome then .Withdraw nlri else .NoChange)

/-- The part of `propagate_prefix` after the outbound transformation: export policy,
well-known communities, and the Adj-RIB-Out. -/
def propagate_route (route : Route A) (out : AdjRibOut A) : AdjRibOut A × PrefixDecision A :=
  match export_policy.evaluate rtr route with
  | (.Accept, route) =>
    if is_export_suppressed route.communities peer_type then withdraw_entry out nlri
    else
      match out.insert route with
      | (out, .Accepted prev) => (out, if prev = some route then .NoChange else .Announce route)
      | (out, .Filtered prev) => (out, if prev.isSome then .Withdraw nlri else .NoChange)
  | _ => withdraw_entry out nlri

/-- The common body of `propagate_prefix` and `propagate_prefix_v6`, for the winner `best`
and the family's outbound transformation `prepare`. -/
def propagate_best (out : AdjRibOut A) : AdjRibOut A × PrefixDecision A :=
  match best with
  | some (best_peer, route) =>
    -- Split horizon: the peer that gave us the route does not get it back.
    if best_peer = out.peer then withdraw_entry out nlri
    else propagate_route rtr export_policy peer_type nlri (prepare route) out
  | none => withdraw_entry out nlri

end

/-- Appends a decision to the session's history. -/
def record_decision (r : AdjRibOut A × PrefixDecision A) : AdjRibOut A × PrefixDecision A :=
  ({ r.1 with made := r.1.made ++ [r.2] }, r.2)

end

/-- `propagate_prefix`. While the family is deferred nothing is touched. -/
def propagate_prefix (rtr : RtrHandle Ipv4Addr) (nlri : Nlri Ipv4Addr)
    (loc_rib : LocRib Ipv4Addr) (export_policy : Policy Ipv4Addr) (peer_type : PeerType)
    (local_as public_as : Asn) (local_next_hop : Ipv4Addr) (next_hop_self deferred : Bool)
    (out : AdjRibOut Ipv4Addr) : AdjRibOut Ipv4Addr × PrefixDecision Ipv4Addr :=
  record_decision <|
    if deferred then (out, .NoChange)
    else
      propagate_best
        (fun r => prepare_outbound r peer_type local_as public_as local_next_hop next_hop_self)
        rtr export_policy peer_type nlri (loc_rib.best_entry nlri) out

/-- `propagate_prefix_v6`: an external peer is told nothing without a local IPv6 address
to use as next hop. -/
def propagate_prefix_v6 (rtr : RtrHandle Ipv6Addr) (nlri : Nlri Ipv6Addr)
    (loc_rib : LocRib Ipv6Addr) (export_policy : Policy Ipv6Addr) (peer_type : PeerType)
    (local_as public_as : Asn) (local_ipv6 : Option Ipv6Addr) (next_hop_self deferred : Bool)
    (out : AdjRibOut Ipv6Addr) : AdjRibOut Ipv6Addr × PrefixDecision Ipv6Addr :=
  let can_announce := peer_type ≠ .External || local_ipv6.isSome
  record_decision <|
    if deferred then (out, .NoChange)
    else
      propagate_best
        (fun r => prepare_outbound_v6 r peer_type local_as public_as local_ipv6 next_hop_self)
        rtr export_policy peer_type nlri
        (if can_announce then loc_rib.best_entry nlri else none) out

/-! ## The channel -/

/-- The sending half of a session's UPDATE channel, with its history. -/
structure UpdateSender where
  room : ℕ
  sent : List UpdateMessage
  handed : List (List (PrefixDecision Ipv4Addr))

namespace UpdateSender

/-- The messages of one flush, one `try_send` after the other: the first failure ends
the flush, and what was sent before it stays sent. -/
def send_all (tx : UpdateSender) : List UpdateMessage → Bool × UpdateSender
  | [] => (true, tx)
  | m :: ms =>
    if tx.room = 0 then (false, tx)
    else send_all { tx with room := tx.room - 1, sent := tx.sent ++ [m] } ms

end UpdateSender

/-! ## Flushing decisions -/

/-- `UPDATE_FIXED_OVERHEAD`: the header and the two length fields. -/
def UPDATE_FIXED_OVERHEAD : ℕ := 19 + 2 + 2

section

variable {A : Type} [IpAddress A]

/-- The batching loop of `flush_updates`: `batch` is the open batch and `bytes` its size;
a prefix that does not fit closes it and opens a new one of size `base`. -/
def split_batches (max_len base : ℕ) :
    List (Nlri A) → List (Nlri A) → ℕ → List (List (Nlri A))
  | [], batch, _ => if batch.isEmpty then [] else [batch]
  | n :: ns, batch, bytes =>
    if !batch.isEmpty && decide (max_len < bytes + nlri_encoded_len n) then
      batch :: split_batches max_len base ns [n] (base + nlri_encoded_len n)
    else split_batches max_len base ns (batch ++ [n]) (bytes + nlri_encoded_len n)

/-- The prefixes a decision list withdraws, in order. -/
def withdrawals (ds : List (PrefixDecision A)) : List (Nlri A) :=
  ds.filterMap fun
    | .Withdraw n => some n
    | _ => none

/-- The routes a decision list announces, in order. -/
def announcements (ds : List (PrefixDecision A)) : List (Route A) :=
  ds.filterMap fun
    | .Announce r => some r
    | _ => none

/-- `AnnounceGroup`: prefixes that share one encoded attribute block. -/
structure AnnounceGroup (A : Type) [IpAddress A] where
  attr_bytes : List UInt8
  attrs : List PathAttribute
  nlris : List (Nlri A)

/-- Adds a prefix to the group with the same bytes, or opens a group for it. -/
def push_announce (attr_bytes : List UInt8) (attrs : List PathAttribute) (nlri : Nlri A) :
    List (AnnounceGroup A) → List (AnnounceGroup A)
  | [] => [⟨attr_bytes, attrs, [nlri]⟩]
  | g :: gs =>
    if g.attr_bytes = attr_bytes then { g with nlris := g.nlris ++ [nlri] } :: gs
    else g :: push_announce attr_bytes attrs nlri gs

/-- The first loop of `flush_updates`: groups by the bytes of `key`, and remembers the
attributes of the route that opened the group. -/
def announce_groups (key attrs_of : Route A → List PathAttribute)
    (ds : List (PrefixDecision A)) : List (AnnounceGroup A) :=
  (announcements ds).foldl
    (fun gs r => push_announce (encode_attributes (key r)) (attrs_of r) r.nlri gs) []

end

section

variable (ds : List (PrefixDecision Ipv4Addr)) (max_len : ℕ) (tx : UpdateSender)
  (peer_type : PeerType) (peer_four_byte : Bool)

/-- The messages of `flush_updates`: the withdrawals first, then group after group. -/
def update_messages : List UpdateMessage :=
  let attrs_of := fun r => route_to_attributes r peer_type peer_four_byte
  let groups := announce_groups attrs_of attrs_of ds
  ((split_batches max_len UPDATE_FIXED_OVERHEAD (withdrawals ds) [] UPDATE_FIXED_OVERHEAD).map
      fun batch => ⟨batch, [], []⟩)
    ++ groups.flatMap fun g =>
      let base := UPDATE_FIXED_OVERHEAD + g.attr_bytes.length
      (split_batches max_len base g.nlris [] base).map fun batch => ⟨[], g.attrs, batch⟩

def flush_updates : Bool × UpdateSender :=
  { tx with handed := tx.handed ++ [ds] }.send_all
    (update_messages ds max_len peer_type peer_four_byte)

end

section

variable (ds : List (PrefixDecision Ipv6Addr)) (max_len : ℕ) (tx : UpdateSender)
  (peer_type : PeerType) (peer_four_byte : Bool)

/-- The message of `send_mp_unreach_v6`, and with no prefix of `send_eor_ipv6`. -/
def mp_unreach_v6 (nlris : List (Nlri Ipv6Addr)) : UpdateMessage :=
  ⟨[], [.MpUnreachNlri ⟨.IPV6_UNICAST, nlris.map .V6⟩], []⟩

/-- The message of one IPv6 group: the MP_REACH_NLRI that opened the group has been
given every prefix of the group. -/
def mp_reach_v6 (g : AnnounceGroup Ipv6Addr) : UpdateMessage :=
  let with_prefixes : PathAttribute → PathAttribute
    | .MpReachNlri mp => .MpReachNlri { mp with prefixes := g.nlris.map .V6 }
    | attr => attr
  ⟨[], g.attrs.map with_prefixes, []⟩

/-- The messages of `flush_updates_v6`. Announcements are grouped by their attributes
without MP_REACH_NLRI, and a group is not split by size. -/
def update_messages_v6 : List UpdateMessage :=
  let base := UPDATE_FIXED_OVERHEAD + (4 + 3)
  let groups := announce_groups
    (fun r => (route_v6_to_attributes r peer_type peer_four_byte).1)
    (fun r =>
      let (attrs, mp_reach) := route_v6_to_attributes r peer_type peer_four_byte
      attrs ++ [.MpReachNlri mp_reach]) ds
  ((split_batches max_len base (withdrawals ds) [] base).map mp_unreach_v6)
    ++ groups.map mp_reach_v6

def flush_updates_v6 : Bool × UpdateSender :=
  tx.send_all (update_messages_v6 ds max_len peer_type peer_four_byte)

def send_eor_ipv4 : Bool × UpdateSender := tx.send_all [⟨[], [], []⟩]

def send_eor_ipv6 : Bool × UpdateSender := tx.send_all [mp_unreach_v6 []]

end

end Pathvector
