/-
# Importing an UPDATE

`handle_update` (`pathvectord/src/daemon/route.rs`), which takes one UPDATE of one peer
into its Adj-RIB-In and the Loc-RIB of both families.

The source is one function with a dozen mutable locals. Here the locals that belong to a
family are an `ImportState`, the attributes the first loop collects are an
`UpdateAttrs`, and each block of the function between those is a function from
`PendingUpdate` to `PendingUpdate` under the name of what it checks. The two families
never read each other's tables, so only the order inside a family is kept.
-/
import Pathvector.Daemon.State

set_option autoImplicit false

namespace Pathvector

/-! ## The attributes of an UPDATE -/

/-- What the attribute loop of `handle_update` collects. A repeated attribute overwrites
the earlier one, and the multiprotocol prefixes accumulate. -/
structure UpdateAttrs where
  has_origin : Bool := false
  has_as_path : Bool := false
  origin : Origin := .Incomplete
  as_path : AsPath := AsPath.new
  next_hop : Option NextHop := none
  local_pref : Option LocalPref := none
  med : Option Med := none
  communities : List Community := []
  large_communities : List LargeCommunity := []
  extended_communities : List ExtendedCommunity := []
  atomic_aggregate : Bool := false
  aggregator : Option Aggregator := none
  originator_id : Option Ipv4Addr := none
  cluster_list : List UInt32 := []
  otc : Option Asn := none
  unknown : List UnknownAttribute := []
  mp_v4_announced : List (Nlri Ipv4Addr × NextHop) := []
  mp_v4_withdrawn : List (Nlri Ipv4Addr) := []
  mp_v6_announced : List (Nlri Ipv6Addr × NextHop) := []
  mp_v6_withdrawn : List (Nlri Ipv6Addr) := []

namespace UpdateAttrs

/-- One iteration of the attribute loop. -/
def scan (peer_type : PeerType) (a : UpdateAttrs) : PathAttribute → UpdateAttrs
  | .Origin o => { a with origin := o, has_origin := true }
  | .AsPath p => { a with as_path := p, has_as_path := true }
  | .NextHop ip => { a with next_hop := some (.V4 ip) }
  | .LocalPref lp =>
    -- LOCAL_PREF from an external peer is ignored
    if peer_type = .Internal ∨ peer_type = .ConfedMember then { a with local_pref := some lp }
    else a
  | .Med m => { a with med := some m }
  | .Communities cs => { a with communities := cs }
  | .LargeCommunities lcs => { a with large_communities := lcs }
  | .ExtendedCommunities ecs => { a with extended_communities := ecs }
  | .AtomicAggregate => { a with atomic_aggregate := true }
  | .Aggregator agg => { a with aggregator := some agg }
  | .OriginatorId id => { a with originator_id := some id }
  | .ClusterList list => { a with cluster_list := list }
  | .OnlyToCustomer asn => { a with otc := some asn }
  | .Unknown flags type_code value =>
    -- only optional transitive attributes are passed on
    if flags &&& 0x80 ≠ 0 ∧ flags &&& 0x40 ≠ 0 then
      { a with unknown := a.unknown ++ [⟨type_code, value⟩] }
    else a
  | .MpReachNlri mp =>
    if mp.afi_safi = .IPV4_UNICAST then
      { a with mp_v4_announced :=
          a.mp_v4_announced ++ (mp.prefixes.filterMap Prefix.v4?).map (·, mp.next_hop) }
    else if mp.afi_safi = .IPV6_UNICAST then
      { a with mp_v6_announced :=
          a.mp_v6_announced ++ (mp.prefixes.filterMap Prefix.v6?).map (·, mp.next_hop) }
    else a
  | .MpUnreachNlri mp =>
    if mp.afi_safi = .IPV4_UNICAST then
      { a with mp_v4_withdrawn := a.mp_v4_withdrawn ++ mp.prefixes.filterMap Prefix.v4? }
    else if mp.afi_safi = .IPV6_UNICAST then
      { a with mp_v6_withdrawn := a.mp_v6_withdrawn ++ mp.prefixes.filterMap Prefix.v6? }
    else a
  | .As4Path _ | .As4Aggregator _ _ => a

/-- The attribute loop. -/
def collect (peer_type : PeerType) (attributes : List PathAttribute) : UpdateAttrs :=
  attributes.foldl (scan peer_type) {}

/-- The rare attributes the builder calls leave: none are allocated when there is nothing
to store. -/
def rare (a : UpdateAttrs) : Option RareAttrs :=
  if a.communities.isEmpty && a.large_communities.isEmpty && a.extended_communities.isEmpty
      && !a.atomic_aggregate && a.aggregator.isNone && a.otc.isNone && a.unknown.isEmpty then
    none
  else
    some
      { communities := a.communities
        large_communities := a.large_communities
        extended_communities := a.extended_communities
        atomic_aggregate := a.atomic_aggregate
        aggregator := a.aggregator
        otc := a.otc
        unknown := a.unknown }

/-- `as_path` has AS 0 in it (RFC 7607). -/
def has_as_zero (a : UpdateAttrs) : Bool := a.as_path.contains 0

/-- `as_path` has our AS number, or our confederation's, in it. -/
def has_loop (a : UpdateAttrs) (local_as : Asn) (confederation_id : Option Asn) : Bool :=
  a.as_path.contains local_as || confederation_id.any a.as_path.contains

end UpdateAttrs

/-! ## The tables of one family -/

/-- The tables `handle_update` writes for one family, with what it reports about them. -/
structure ImportState (A : Type) [IpAddress A] [DecidableEq A] where
  adj_rib_in : AdjRibIn A
  loc_rib : LocRib A
  fib_changes : List (BestPathChange A)
  blackhole_announced : List (Nlri A)
  blackhole_withdrawn : List (Nlri A)

namespace ImportState

variable {A : Type} [IpAddress A] [DecidableEq A]

section

variable (peer : PeerId) (oracle : NextHopOracle) (policy : Policy A) (rtr : RtrHandle A)
  (st : ImportState A)

/-- The tables before the first change. -/
def start (adj_rib_in : AdjRibIn A) (loc_rib : LocRib A) : ImportState A :=
  ⟨adj_rib_in, loc_rib, [], [], []⟩

/-- Withdraws one prefix of `peer`. -/
def withdraw (nlri : Nlri A) : ImportState A :=
  let (loc_rib, change) := st.loc_rib.withdraw peer nlri oracle
  { st with
    adj_rib_in := st.adj_rib_in.withdraw nlri
    loc_rib := loc_rib
    fib_changes := st.fib_changes ++ [change]
    blackhole_withdrawn :=
      if (st.adj_rib_in.get nlri).any Route.is_blackhole then st.blackhole_withdrawn ++ [nlri]
      else st.blackhole_withdrawn }

/-- A withdrawal loop. -/
def withdraw_all (nlris : List (Nlri A)) : ImportState A :=
  nlris.foldl (withdraw peer oracle) st

/-- Takes in one route. A BLACKHOLE route is kept out of the Loc-RIB and displaces what
the peer had there; a route the import policy does not accept displaces nothing. -/
def announce (raw : Route A) : ImportState A :=
  if raw.is_blackhole then
    let (loc_rib, change) := st.loc_rib.withdraw peer raw.nlri oracle
    { st with
      adj_rib_in := st.adj_rib_in.insert raw
      loc_rib := loc_rib
      fib_changes := st.fib_changes ++ [change]
      blackhole_announced := st.blackhole_announced ++ [raw.nlri] }
  else
    match policy.evaluate rtr raw with
    | (.Accept, route) =>
      let (loc_rib, change) := st.loc_rib.insert peer route oracle
      { st with
        adj_rib_in := st.adj_rib_in.insert raw
        loc_rib := loc_rib
        fib_changes := st.fib_changes ++ [change] }
    | _ => { st with adj_rib_in := st.adj_rib_in.insert raw }

/-- An announcement loop, over the routes it builds. -/
def announce_all (raws : List (Route A)) : ImportState A :=
  raws.foldl (announce peer oracle policy rtr) st

end

end ImportState

/-! ## `handle_update` -/

def is_valid_next_hop_v4 (addr : Ipv4Addr) (own_addr : Option Ipv4Addr) : Bool :=
  !addr.is_unspecified && !addr.is_loopback && !addr.is_multicast && !addr.is_broadcast
    && own_addr != some addr

def is_valid_next_hop_v6 (addr : Ipv6Addr) : Bool := !addr.is_unspecified && !addr.is_multicast

/-- The parameters of `handle_update` besides the message and the tables. -/
structure ImportEnv where
  peer : PeerId
  policy : Policy Ipv4Addr
  policy_v6 : Policy Ipv6Addr
  peer_type : PeerType
  peer_bgp_id : Option Ipv4Addr
  oracle_v4 : NextHopOracle
  oracle_v6 : NextHopOracle
  local_as : Asn
  confederation_id : Option Asn
  local_v4_addr : Option Ipv4Addr
  local_v6_addr : Option Ipv6Addr
  rpki_v4 : RtrHandle Ipv4Addr
  rpki_v6 : RtrHandle Ipv6Addr
  now : UInt32

/-- The IPv4 loop drops a route with this next hop. A next hop of the other family is not
looked at. -/
def bad_next_hop_v4 (env : ImportEnv) : Option NextHop → Bool
  | some (.V4 addr) => !is_valid_next_hop_v4 addr env.local_v4_addr
  | _ => false

def bad_next_hop_v6 (env : ImportEnv) : NextHop → Bool
  | .V6 addr => !is_valid_next_hop_v6 addr || env.local_v6_addr == some addr
  | .V6WithLinkLocal global link_local =>
    !is_valid_next_hop_v6 global || env.local_v6_addr == some global || link_local.is_multicast
  | .V4 _ => false

/-- The route the builder makes of one announced prefix. -/
def built_route {A : Type} [IpAddress A] (env : ImportEnv) (a : UpdateAttrs) (nlri : Nlri A)
    (next_hop : Option NextHop) : Route A where
  nlri := nlri
  origin := a.origin
  as_path := a.as_path
  next_hop := next_hop
  local_pref := a.local_pref
  med := a.med
  peer_type := env.peer_type
  received_at := env.now
  peer_bgp_id := env.peer_bgp_id
  rare := a.rare
  stale := false

/-- The IPv4 route before import policy. Only this family keeps the route-reflection
attributes. -/
def raw_route_v4 (env : ImportEnv) (a : UpdateAttrs) (nlri : Nlri Ipv4Addr)
    (next_hop : Option NextHop) : Route Ipv4Addr :=
  let raw := built_route env a nlri next_hop
  if a.originator_id.isSome || !a.cluster_list.isEmpty then
    raw.rare_mut fun r =>
      { r with originator_id := a.originator_id, cluster_list := a.cluster_list }
  else raw

def raw_route_v6 (env : ImportEnv) (a : UpdateAttrs) (nlri : Nlri Ipv6Addr)
    (next_hop : NextHop) : Route Ipv6Addr :=
  built_route env a nlri (some next_hop)

/-- The state of `handle_update` between two of its blocks: the tables, the prefixes still
to be announced, and the NOTIFICATION decided on so far. -/
structure PendingUpdate where
  v4 : ImportState Ipv4Addr
  v6 : ImportState Ipv6Addr
  announced : List (Nlri Ipv4Addr)
  mp_v4_announced : List (Nlri Ipv4Addr × NextHop)
  mp_v6_announced : List (Nlri Ipv6Addr × NextHop)
  notification : Option NotificationMessage

namespace PendingUpdate

/-- Something is still to be announced. -/
def any_announced (u : PendingUpdate) : Bool :=
  !u.announced.isEmpty || !u.mp_v4_announced.isEmpty || !u.mp_v6_announced.isEmpty

/-- Treat-as-withdraw (RFC 7606): every prefix still to be announced is withdrawn. -/
def treat_as_withdraw (env : ImportEnv) (u : PendingUpdate) : PendingUpdate :=
  { u with
    v4 := u.v4.withdraw_all env.peer env.oracle_v4
      (u.announced ++ u.mp_v4_announced.map Prod.fst)
    v6 := u.v6.withdraw_all env.peer env.oracle_v6 (u.mp_v6_announced.map Prod.fst)
    announced := []
    mp_v4_announced := []
    mp_v6_announced := [] }

end PendingUpdate

section

variable (env : ImportEnv) (msg : UpdateMessage) (a : UpdateAttrs) (u : PendingUpdate)

/-- `has_reachable_nlri_on_wire`: whatever the address family. -/
def has_reachable_nlri_on_wire : Bool :=
  !msg.announced.isEmpty || msg.attributes.any fun
    | .MpReachNlri mp => !mp.prefixes.isEmpty
    | _ => false

/-- The message carries an attribute other than MP_UNREACH_NLRI. -/
def has_non_unreach_attr : Bool :=
  msg.attributes.any fun
    | .MpUnreachNlri _ => false
    | _ => true

/-- The type code of ORIGIN or AS_PATH, whichever is missing first. -/
def missing_path_attr : Option UInt8 :=
  if !a.has_origin then some 1 else if !a.has_as_path then some 2 else none

/-- The mandatory attributes (RFC 7606 sections 3(d) and 5.2): one missing makes the UPDATE
a withdrawal if it announces something, and resets the session if nothing on the wire is
reachable. -/
def check_mandatory : PendingUpdate :=
  if u.any_announced then
    let missing := (missing_path_attr a).or
      (if !u.announced.isEmpty && a.next_hop.isNone then some 3 else none)
    if missing.isSome then u.treat_as_withdraw env else u
  else if has_reachable_nlri_on_wire msg then u
  else if has_non_unreach_attr msg then
    match missing_path_attr a with
    | some attr_type =>
      { u with
        notification := some ⟨.UpdateMessage .MissingWellKnownAttribute, [attr_type]⟩ }
    | none => u
  else u

/-- AS 0 and AS-path loops: the multiprotocol announcements are dropped here, the others by
the announcement loop. -/
def drop_looped : PendingUpdate :=
  if (a.has_as_zero || a.has_loop env.local_as env.confederation_id) && u.any_announced then
    { u with mp_v4_announced := [], mp_v6_announced := [] }
  else u

/-- The AS_PATH is malformed for a confederation (RFC 5065 section 5). -/
def malformed_confed : Bool :=
  match env.peer_type with
  | .External => a.as_path.segments.any AsPathSegment.is_confed
  | .ConfedMember =>
    match a.as_path.segments.head? with
    | some (.ConfedSequence _) => false
    | _ => true
  | .Internal | .Local => false

/-- The confederation check, skipped when a NOTIFICATION is already due. -/
def check_confed : PendingUpdate :=
  if a.has_as_path && u.notification.isNone && malformed_confed env a then
    if has_reachable_nlri_on_wire msg then u.treat_as_withdraw env
    else { u with notification := some ⟨.UpdateMessage .MalformedAsPath, []⟩ }
  else u

/-- The routes the IPv4 announcement loop takes in. -/
def routes_v4 (announced : List (Nlri Ipv4Addr))
    (mp_v4_announced : List (Nlri Ipv4Addr × NextHop)) : List (Route Ipv4Addr) :=
  if a.has_loop env.local_as env.confederation_id || a.has_as_zero then []
  else
    (announced.map (·, a.next_hop) ++ mp_v4_announced.map fun e => (e.1, some e.2)).filterMap
      fun e => if bad_next_hop_v4 env e.2 then none else some (raw_route_v4 env a e.1 e.2)

def routes_v6 (mp_v6_announced : List (Nlri Ipv6Addr × NextHop)) : List (Route Ipv6Addr) :=
  mp_v6_announced.filterMap fun e =>
    if bad_next_hop_v6 env e.2 then none else some (raw_route_v6 env a e.1 e.2)

/-- The four loops at the end: withdrawals, then announcements, for each family. -/
def import_routes : PendingUpdate :=
  { u with
    v4 := (u.v4.withdraw_all env.peer env.oracle_v4 a.mp_v4_withdrawn).announce_all
      env.peer env.oracle_v4 env.policy env.rpki_v4 (routes_v4 env a u.announced u.mp_v4_announced)
    v6 := (u.v6.withdraw_all env.peer env.oracle_v6 a.mp_v6_withdrawn).announce_all
      env.peer env.oracle_v6 env.policy_v6 env.rpki_v6 (routes_v6 env a u.mp_v6_announced) }

/-- The first block: the withdrawn routes field, and the prefixes to announce. -/
def start_update (v4 : ImportState Ipv4Addr) (v6 : ImportState Ipv6Addr) : PendingUpdate where
  v4 := v4.withdraw_all env.peer env.oracle_v4 msg.withdrawn
  v6 := v6
  announced := msg.announced
  mp_v4_announced := a.mp_v4_announced
  mp_v6_announced := a.mp_v6_announced
  notification := none

/-- The checks of `handle_update`, before the last four loops. -/
def check_update : PendingUpdate :=
  check_confed env msg a (drop_looped env a (check_mandatory env msg a u))

def handle_update (v4 : ImportState Ipv4Addr) (v6 : ImportState Ipv6Addr) : PendingUpdate :=
  let a := UpdateAttrs.collect env.peer_type msg.attributes
  import_routes env a (check_update env msg a (start_update env msg a v4 v6))

end

/-! ## Soft reconfiguration -/

section

variable {A : Type} [IpAddress A] [DecidableEq A]

/-- One iteration of `reapply_import_policy`. Here a rejected route is withdrawn. -/
def reapply_step (peer : PeerId) (oracle : NextHopOracle) (policy : Policy A)
    (rtr : RtrHandle A) (acc : LocRib A × List (BestPathChange A)) (raw : Route A) :
    LocRib A × List (BestPathChange A) :=
  let (loc_rib, change) := match policy.evaluate rtr raw with
    | (.Accept, route) => acc.1.insert peer route oracle
    | _ => acc.1.withdraw peer raw.nlri oracle
  (loc_rib, acc.2 ++ [change])

/-- `reapply_import_policy` and `reapply_import_policy_v6`. -/
def reapply_import_policy (peer : PeerId) (adj_rib_in : AdjRibIn A) (loc_rib : LocRib A)
    (policy : Policy A) (rtr : RtrHandle A) (oracle : NextHopOracle) :
    LocRib A × List (BestPathChange A) :=
  adj_rib_in.routes.values.foldl (reapply_step peer oracle policy rtr) (loc_rib, [])

end

end Pathvector
