/-
# What a batch of IPv6 decisions means to its receiver

`flush_updates_v6` batches as `flush_updates` does, withdrawals first and announcements grouped by
their encoded attributes. But the next hop of an IPv6 route stands in MP_REACH_NLRI, which is not
part of the bytes the groups are keyed by: a group is sent with the next hop of the route that
opened it, and its other prefixes with it.

So two things decide whether the receiver ends up with what the decisions say: the order of the
list, as for IPv4, and whether the routes of a group have one next hop.
-/
import Pathvector.Outbound.Batching

set_option autoImplicit false

namespace Pathvector

open Table

/-- What a receiver knows about an IPv6 prefix: its next hop, and the other attributes as they are
on the wire. -/
abbrev PathBytesV6 : Type := NextHop × PathBytes

/-- The IPv6 edits of one UPDATE. -/
def UpdateMessage.edits_v6 (m : UpdateMessage) : List (Edit (Nlri Ipv6Addr) PathBytesV6) :=
  m.attributes.flatMap fun
    | .MpUnreachNlri mp => (mp.prefixes.filterMap Prefix.v6?).map Edit.del
    | .MpReachNlri mp => (mp.prefixes.filterMap Prefix.v6?).map fun n =>
        Edit.set n (mp.next_hop, encode_attributes (around m.attributes))
    | _ => []

/-- The table a receiver obtains by applying UPDATEs in order. -/
def receive_v6 (T : Table (Nlri Ipv6Addr) PathBytesV6) (ms : List UpdateMessage) :
    Table (Nlri Ipv6Addr) PathBytesV6 :=
  T.edits (ms.flatMap UpdateMessage.edits_v6)

section

variable (peer_type : PeerType) (four_byte : Bool)

/-- The bytes by which announcements are grouped. -/
def group_key (r : Route Ipv6Addr) : PathBytes :=
  encode_attributes (route_v6_to_attributes r peer_type four_byte).1

/-- The next hop an announcement of the route alone carries. -/
def sent_next_hop (r : Route Ipv6Addr) : NextHop :=
  (route_v6_to_attributes r peer_type four_byte).2.next_hop

/-- What an announcement of the route alone says. -/
def wire_v6 (r : Route Ipv6Addr) : PathBytesV6 :=
  (sent_next_hop peer_type four_byte r, group_key peer_type four_byte r)

/-- What a group says: the bytes that are its key, and the next hop of the route that opened it. -/
def group_wire (ds : List (PrefixDecision Ipv6Addr)) (bytes : PathBytes) : PathBytesV6 :=
  (((opener (fun r => (route_v6_to_attributes r peer_type four_byte).1) ds bytes).map
    (sent_next_hop peer_type four_byte)).getD (.V6 ⟨0⟩), bytes)

/-- Every route that is the last word about its prefix has the next hop of its group. -/
def SharesNextHop (ds : List (PrefixDecision Ipv6Addr)) : Prop :=
  ∀ r ∈ announcements ds, last_decision r.nlri ds = some (.Announce r) →
    (group_wire peer_type four_byte ds (group_key peer_type four_byte r)).1
      = sent_next_hop peer_type four_byte r
deriving Decidable

/-! ## The messages -/

theorem around_attributes {A : Type} [IpAddress A] (r : Route A) :
    around (route_to_attributes_with [] r peer_type four_byte)
      = route_to_attributes_with [] r peer_type four_byte := by
  rw [around, List.filter_eq_self]
  intro a ha
  cases a with
  | MpReachNlri mp => simp [route_to_attributes_with, rare_to_attributes] at ha
  | MpUnreachNlri mp => simp [route_to_attributes_with, rare_to_attributes] at ha
  | _ => rfl

theorem edits_mp_reach {attrs : List PathAttribute} (h : around attrs = attrs) (nh : NextHop)
    (ns : List (Nlri Ipv6Addr)) :
    (⟨[], attrs ++ [.MpReachNlri ⟨.IPV6_UNICAST, nh, ns.map .V6⟩], []⟩ : UpdateMessage).edits_v6
      = ns.map fun n => Edit.set n (nh, encode_attributes attrs) := by
  have haround : around (attrs ++ [.MpReachNlri ⟨.IPV6_UNICAST, nh, ns.map .V6⟩]) = attrs := by
    rw [around, List.filter_append, ← around, h]
    exact List.append_nil attrs
  have hids : (ns.map Prefix.V6).filterMap Prefix.v6? = ns := by
    rw [List.filterMap_map]
    exact List.filterMap_some
  rw [UpdateMessage.edits_v6, haround, List.flatMap_append, List.flatMap_singleton,
    List.flatMap_eq_nil_iff.2, List.nil_append]
  · show List.map _ ((ns.map Prefix.V6).filterMap Prefix.v6?) = _
    rw [hids]
  intro a ha
  have hmp := List.filter_eq_self.1 h a ha
  cases a with
  | MpReachNlri mp => cases hmp
  | MpUnreachNlri mp => cases hmp
  | _ => rfl

theorem edits_mp_unreach_v6 (ns : List (Nlri Ipv6Addr)) :
    (mp_unreach_v6 ns).edits_v6 = ns.map Edit.del := by
  rw [mp_unreach_v6, UpdateMessage.edits_v6, List.flatMap_singleton]
  show List.map _ ((ns.map Prefix.V6).filterMap Prefix.v6?) = _
  rw [List.filterMap_map]
  exact congrArg _ List.filterMap_some

variable (ds : List (PrefixDecision Ipv6Addr)) (max_len : ℕ)

/-- The groups of `flush_updates_v6`. -/
def groups_v6 : List (AnnounceGroup Ipv6Addr) :=
  announce_groups (fun r => (route_v6_to_attributes r peer_type four_byte).1)
    (fun r =>
      let (attrs, mp_reach) := route_v6_to_attributes r peer_type four_byte
      attrs ++ [.MpReachNlri mp_reach]) ds

/-- The message of a group: the attributes and the next hop of the route that opened it. -/
theorem mp_reach_v6_group {g : AnnounceGroup Ipv6Addr} (hg : g ∈ groups_v6 peer_type four_byte ds) :
    ∃ r ∈ announcements ds, group_key peer_type four_byte r = g.attr_bytes ∧
      group_wire peer_type four_byte ds g.attr_bytes
        = (sent_next_hop peer_type four_byte r, g.attr_bytes) ∧
      mp_reach_v6 g = ⟨[], route_to_attributes_with [] r peer_type four_byte
        ++ [.MpReachNlri ⟨.IPV6_UNICAST, sent_next_hop peer_type four_byte r,
              g.nlris.map .V6⟩], []⟩ := by
  obtain ⟨r, hr, hattrs⟩ := announce_groups_opener _ _ ds g hg
  have hkey := List.find?_some hr
  refine ⟨r, List.mem_of_find?_eq_some hr, of_decide_eq_true hkey, ?_, ?_⟩
  · rw [group_wire, hr]
    rfl
  · have hfree := List.filter_eq_self.1 (around_attributes peer_type four_byte r)
    rw [mp_reach_v6, hattrs, List.map_append, UpdateMessage.mk.injEq]
    refine ⟨rfl, congrArg₂ _ ((List.map_congr_left fun a ha => ?_).trans (List.map_id _)) rfl, rfl⟩
    have hmp := hfree a ha
    cases a with
    | MpReachNlri mp => cases hmp
    | _ => rfl

/-- The prefixes announced with a given attribute block, in order. -/
def sharing (bytes : PathBytes) : List (Nlri Ipv6Addr) :=
  ((announcements ds).filter fun r => group_key peer_type four_byte r = bytes).map Route.nlri

theorem groups_v6_nlris {g : AnnounceGroup Ipv6Addr} (hg : g ∈ groups_v6 peer_type four_byte ds) :
    g.nlris = sharing peer_type four_byte ds g.attr_bytes := by
  have hmem := List.mem_map_of_mem (f := fun g => (g.attr_bytes, g.nlris)) hg
  rw [groups_v6, announce_groups, map_foldl_push_announce] at hmem
  rw [mem_groupAll hmem, List.filter_map, List.map_map]
  rfl

theorem exists_group_v6 {r : Route Ipv6Addr} (hr : r ∈ announcements ds) :
    ∃ g ∈ groups_v6 peer_type four_byte ds, g.attr_bytes = group_key peer_type four_byte r := by
  have hin : Grouped (groupAll ((announcements ds).map fun r =>
      (group_key peer_type four_byte r, r.nlri))) (group_key peer_type four_byte r) r.nlri :=
    grouped_all.2 (List.mem_map.2 ⟨r, hr, rfl⟩)
  simp only [group_key] at hin
  rw [← map_foldl_push_announce _ (fun r =>
      let (attrs, mp_reach) := route_v6_to_attributes r peer_type four_byte
      attrs ++ [.MpReachNlri mp_reach])] at hin
  obtain ⟨ks, hks, -⟩ := hin
  obtain ⟨g, hg, hpair⟩ := List.mem_map.1 hks
  exact ⟨g, hg, congrArg Prod.fst hpair⟩

theorem update_messages_v6_edits :
    (update_messages_v6 ds max_len peer_type four_byte).flatMap UpdateMessage.edits_v6
      = ((withdrawals ds).map Edit.del ++ groupWrites (groupAll
          ((announcements ds).map fun r => (group_key peer_type four_byte r, r.nlri)))).map
            (Edit.map (group_wire peer_type four_byte ds)) := by
  have hgroups := map_foldl_push_announce
    (fun r => (route_v6_to_attributes r peer_type four_byte).1)
    (fun r =>
      let (attrs, mp_reach) := route_v6_to_attributes r peer_type four_byte
      attrs ++ [.MpReachNlri mp_reach]) (announcements ds)
  rw [update_messages_v6, List.flatMap_append, flatMap_batches edits_mp_unreach_v6,
    split_batches_flatten, List.nil_append, List.map_append, List.map_map]
  congr 1
  simp only [group_key]
  rw [← hgroups, groupWrites, List.flatMap_map, List.map_flatMap, List.flatMap_map]
  refine List.flatMap_congr fun g hg => ?_
  obtain ⟨r, -, hkey, hwire, hmsg⟩ := mp_reach_v6_group peer_type four_byte ds hg
  rw [hmsg, edits_mp_reach (around_attributes peer_type four_byte r), List.map_map]
  refine List.map_congr_left fun n _ => ?_
  show Edit.set n (sent_next_hop peer_type four_byte r, group_key peer_type four_byte r)
    = Edit.set n (group_wire peer_type four_byte ds g.attr_bytes)
  rw [hwire, hkey]

/-! ## The table -/

/-- At one prefix, a batch leaves what the decisions ask for exactly when the order is safe there
and the last route has the next hop of its group. -/
theorem lastEdit_batch_v6_iff (p : Nlri Ipv6Addr) :
    lastEdit p (((withdrawals ds).map Edit.del ++ groupWrites (groupAll
        ((announcements ds).map fun r => (group_key peer_type four_byte r, r.nlri)))).map
          (Edit.map (group_wire peer_type four_byte ds)))
        = lastEdit p (decision_edits (wire_v6 peer_type four_byte) ds) ↔
      OrderSafeAt (group_key peer_type four_byte) ds p ∧
        ∀ r, last_decision p ds = some (.Announce r) →
          (group_wire peer_type four_byte ds (group_key peer_type four_byte r)).1
            = sent_next_hop peer_type four_byte r := by
  rw [← lastEdit_batch_iff, lastEdit_map, lastEdit_decision_edits, lastEdit_decision_edits]
  generalize lastEdit p _ = batch
  cases last_decision p ds with
  | none => simp
  | some d =>
    cases d with
    | NoChange => cases batch <;> simp
    | Withdraw n => cases batch <;> simp
    | Announce r =>
      simp only [Option.map_some, Option.some.injEq, PrefixDecision.Announce.injEq, forall_eq']
      cases batch with
      | none => simp
      | some entry =>
        cases entry with
        | none => simp
        | some bytes =>
          simp only [Option.map_some, Option.some.injEq, wire_v6, Prod.ext_iff]
          constructor
          · rintro ⟨hnh, hbytes⟩
            exact ⟨hbytes, hbytes ▸ hnh⟩
          · rintro ⟨rfl, hnh⟩
            exact ⟨hnh, rfl⟩

theorem flush_updates_v6_since {tx : UpdateSender}
    (hok : (flush_updates_v6 ds max_len tx peer_type four_byte).1 = true) :
    (flush_updates_v6 ds max_len tx peer_type four_byte).2.since tx
      = update_messages_v6 ds max_len peer_type four_byte := by
  rw [flush_updates_v6] at hok ⊢
  rw [(send_all_spec _ _).2 hok, UpdateSender.since]
  exact List.drop_left

end

/-- **IPv6 batching, exactly.** Whatever table the receiver starts from, if no send fails, the
UPDATEs of a flush leave it with the table the decisions describe in list order exactly when the
list is `OrderSafe` and the routes that count have the next hops of their groups. -/
theorem flush_updates_v6_table_iff (ds : List (PrefixDecision Ipv6Addr)) (max_len : ℕ)
    (tx : UpdateSender) (peer_type : PeerType) (four_byte : Bool)
    (T : Table (Nlri Ipv6Addr) PathBytesV6)
    (hok : (flush_updates_v6 ds max_len tx peer_type four_byte).1 = true) :
    receive_v6 T ((flush_updates_v6 ds max_len tx peer_type four_byte).2.since tx)
        = T.edits (decision_edits (wire_v6 peer_type four_byte) ds) ↔
      OrderSafe (group_key peer_type four_byte) ds ∧ SharesNextHop peer_type four_byte ds := by
  rw [flush_updates_v6_since _ _ _ _ hok, receive_v6, update_messages_v6_edits, edits_eq_iff]
  · simp only [lastEdit_batch_v6_iff, forall_and]
    refine and_congr_right fun _ => ⟨fun h r _ hr => h r.nlri r hr, fun h p r hr => ?_⟩
    obtain ⟨hmem, hp⟩ := last_decision_mem hr
    cases hp
    exact h r (mem_announcements.2 hmem) hr
  · intro p
    rw [lastEdit_map, Option.map_eq_none_iff, lastEdit_batch_none, lastEdit_decision_edits,
      lastEdit_decision_edits, Option.map_eq_none_iff, Option.map_eq_none_iff]

/-- 2001:db8:`i`::/48 through 2001:db8:ffff::`j`. -/
def documented_via (i j : BitVec 128) : Route Ipv6Addr :=
  { Route.build (Nlri.v6 (0x20010db8000000000000000000000000 ||| i <<< 80) 48) .Igp
      (AsPath.from_sequence [65002]) 0 with
    next_hop := some (.V6 ⟨0x20010db8ffff00000000000000000000 ||| j⟩) }

/-- Two prefixes with the same attributes and the same next hop. -/
def through_one_hop : List (PrefixDecision Ipv6Addr) :=
  [.Announce (documented_via 1 1), .Announce (documented_via 2 1)]

/-- Two prefixes with the same attributes, each through a router of its own. -/
def through_two_hops : List (PrefixDecision Ipv6Addr) :=
  [.Announce (documented_via 1 1), .Announce (documented_via 2 2)]

theorem one_hop_received :
    receive_v6 (fun _ => none)
        ((flush_updates_v6 through_one_hop MAX_LEN ⟨256, [], []⟩ .Internal true).2.since
          ⟨256, [], []⟩)
      = Table.edits (fun _ => none) (decision_edits (wire_v6 .Internal true) through_one_hop) := by
  refine (flush_updates_v6_table_iff through_one_hop MAX_LEN ⟨256, [], []⟩ .Internal true
    (fun _ => none) (by decide +kernel)).2 ?_
  decide +kernel

/-- The receiver sends the traffic of the second prefix to the router of the first. -/
theorem two_hops_confused :
    (flush_updates_v6 through_two_hops MAX_LEN ⟨256, [], []⟩ .Internal true).1 = true
      ∧ receive_v6 (fun _ => none)
          ((flush_updates_v6 through_two_hops MAX_LEN ⟨256, [], []⟩ .Internal true).2.since
            ⟨256, [], []⟩) (documented_via 2 2).nlri
        = some (wire_v6 .Internal true { documented_via 2 2 with
            next_hop := (documented_via 1 1).next_hop })
      ∧ Table.edits (fun _ => none) (decision_edits (wire_v6 .Internal true) through_two_hops)
          (documented_via 2 2).nlri
        = some (wire_v6 .Internal true (documented_via 2 2))
      ∧ (documented_via 1 1).next_hop ≠ (documented_via 2 2).next_hop := by
  decide +kernel

end Pathvector
