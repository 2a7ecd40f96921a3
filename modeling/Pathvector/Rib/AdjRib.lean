/-
# The Adj-RIBs

`AdjRibIn` and `AdjRibOut` (`pathvector-rib/src/adj_rib_in.rs`, `adj_rib_out.rs`), and
the outbound transformation of a route (`pathvector-rib/src/outbound.rs`).

Both tables file a route under its own prefix; the structures carry that as a field.
`AdjRibOut` has one field the source does not: `made`, a history variable with the
decisions `propagate_prefix` has returned for this session so far, oldest first. No
definition reads it.
-/
import Pathvector.Lib.HashMap
import Pathvector.Rib.BestPath

set_option autoImplicit false

namespace Pathvector

/-! ## Adj-RIB-In -/

/-- `AdjRibIn<A>`: what one peer announced, before import policy. -/
structure AdjRibIn (A : Type) [IpAddress A] [DecidableEq A] where
  peer : PeerId
  routes : HashMap (Nlri A) (Route A)
  nlri_eq : ∀ n r, routes.lookup n = some r → r.nlri = n

namespace AdjRibIn

variable {A : Type} [IpAddress A] [DecidableEq A]

section

variable (rib : AdjRibIn A) (route : Route A) (n : Nlri A)

def new (peer : PeerId) : AdjRibIn A where
  peer := peer
  routes := ∅
  nlri_eq n r h := by simp at h

/-- `AdjRibIn::get`. -/
def get : Option (Route A) := rib.routes.lookup n

/-- `AdjRibIn::len`. -/
def len : ℕ := rib.routes.keys.length

/-- `AdjRibIn::insert`. -/
def insert : AdjRibIn A where
  peer := rib.peer
  routes := rib.routes.insert route.nlri route
  nlri_eq n r h := by
    rw [HashMap.lookup_insert_ite] at h
    split at h
    · rename_i heq
      rw [heq, Option.some.inj h]
    · exact rib.nlri_eq n r h

/-- `AdjRibIn::withdraw`. -/
def withdraw : AdjRibIn A where
  peer := rib.peer
  routes := rib.routes.erase n
  nlri_eq m r h := by
    rw [HashMap.lookup_erase_ite] at h
    split at h
    · cases h
    · exact rib.nlri_eq m r h

/-- `AdjRibIn::mark_all_stale`, as the table it leaves; the routes it returns are the
values of that table. -/
def mark_all_stale : AdjRibIn A where
  peer := rib.peer
  routes := HashMap.map_values (fun r => { r with stale := true }) rib.routes
  nlri_eq n r h := by
    rw [HashMap.lookup_map_values, Option.map_eq_some_iff] at h
    obtain ⟨r0, h0, rfl⟩ := h
    exact rib.nlri_eq n r0 h0

/-- `AdjRibIn::clear`. -/
def clear : AdjRibIn A := new rib.peer

theorem get_insert : (rib.insert route).get n = if n = route.nlri then some route else rib.get n :=
  HashMap.lookup_insert_ite ..

theorem get_withdraw (m n : Nlri A) : (rib.withdraw m).get n = if n = m then none else rib.get n :=
  HashMap.lookup_erase_ite ..

theorem get_mark_all_stale :
    rib.mark_all_stale.get n = (rib.get n).map fun r => { r with stale := true } :=
  HashMap.lookup_map_values ..

end

end AdjRibIn

/-! ## Adj-RIB-Out -/

/-- `PrefixDecision`: what the Update-Send process decided for one prefix. -/
inductive PrefixDecision (A : Type) [IpAddress A] where
  | Announce (route : Route A)
  | Withdraw (nlri : Nlri A)
  | NoChange
  deriving DecidableEq

/-- `AdjRibOut<A>`: what has been decided to be advertised to one peer. -/
structure AdjRibOut (A : Type) [IpAddress A] [DecidableEq A] where
  peer : PeerId
  peer_type : PeerType
  reflects : Bool
  routes : HashMap (Nlri A) (Route A)
  made : List (PrefixDecision A)
  nlri_eq : ∀ n r, routes.lookup n = some r → r.nlri = n

/-- `InsertOutcome<A>`: stored or filtered, with the entry that was there before. -/
inductive InsertOutcome (A : Type) [IpAddress A] where
  | Accepted (prev : Option (Route A))
  | Filtered (prev : Option (Route A))

namespace AdjRibOut

variable {A : Type} [IpAddress A] [DecidableEq A]

/-- `AdjRibOut::new` and, with `reflects`, `AdjRibOut::new_reflecting`. -/
def new (peer : PeerId) (peer_type : PeerType) (reflects : Bool) : AdjRibOut A where
  peer := peer
  peer_type := peer_type
  reflects := reflects
  routes := ∅
  made := []
  nlri_eq n r h := by simp at h

/-- `AdjRibOut::get`. -/
def get (rib : AdjRibOut A) (n : Nlri A) : Option (Route A) := rib.routes.lookup n

/-- The table with one entry set or removed. -/
def set (rib : AdjRibOut A) (n : Nlri A) (r : Option (Route A))
    (hr : ∀ r', r = some r' → r'.nlri = n) : AdjRibOut A :=
  { rib with
    routes := rib.routes.put n r
    nlri_eq := fun m r' h => by
      rw [HashMap.lookup_put] at h
      split at h
      · rename_i heq
        rw [heq]
        exact hr r' h
      · exact rib.nlri_eq m r' h }

/-- The form in which `AdjRibOut::insert` stores a route: an external peer never sees
confederation segments. -/
def stored (peer_type : PeerType) (route : Route A) : Route A :=
  if peer_type = .External then { route with as_path := route.as_path.strip_confed_segments }
  else route

omit [DecidableEq A] in
theorem stored_nlri (peer_type : PeerType) (route : Route A) :
    (stored peer_type route).nlri = route.nlri := by
  unfold stored
  split <;> rfl

/-- `AdjRibOut::withdraw`. -/
def withdraw (rib : AdjRibOut A) (n : Nlri A) : AdjRibOut A := rib.set n none (by simp)

/-- `AdjRibOut::insert`: iBGP-learned routes are not passed on over iBGP unless this
session reflects. -/
def insert (rib : AdjRibOut A) (route : Route A) : AdjRibOut A × InsertOutcome A :=
  if !rib.reflects && rib.peer_type == .Internal && route.peer_type == .Internal then
    (rib.withdraw route.nlri, .Filtered (rib.get route.nlri))
  else
    (rib.set route.nlri (some (stored rib.peer_type route))
        (by rintro _ ⟨⟩; exact stored_nlri _ _),
      .Accepted (rib.get route.nlri))

@[simp]
theorem get_set (rib : AdjRibOut A) (m : Nlri A) (r : Option (Route A)) (hr) (n : Nlri A) :
    (rib.set m r hr).get n = if n = m then r else rib.get n :=
  HashMap.lookup_put ..

end AdjRibOut

/-! ## The outbound transformation -/

/-- `is_export_suppressed`: the well-known communities (RFC 1997). -/
def is_export_suppressed (communities : List Community) (peer_type : PeerType) : Bool :=
  communities.any fun c =>
    c == Community.NO_ADVERTISE
      || (c == Community.NO_EXPORT && peer_type == .External)
      || (c == Community.NO_EXPORT_SUBCONFED
        && (peer_type == .External || peer_type == .ConfedMember))

section

variable {A : Type} [IpAddress A]

/-- The common body of `prepare_outbound` and `prepare_outbound_v6`: `next_hop` is what
the session rewrites the next hop to, if it rewrites it. -/
def prepare_outbound_with (next_hop : Option NextHop) (route : Route A) (peer_type : PeerType)
    (local_as public_as : Asn) (next_hop_self : Bool) : Route A :=
  match peer_type with
  | .External =>
    { route with
      as_path := route.as_path.strip_confed_segments.prepend public_as
      next_hop := next_hop.or route.next_hop
      local_pref := none }
  | .ConfedMember =>
    { route with
      as_path := route.as_path.prepend_confed local_as
      next_hop := if next_hop_self then next_hop.or route.next_hop else route.next_hop }
  | .Internal | .Local =>
    { route with next_hop := if next_hop_self then next_hop.or route.next_hop else route.next_hop }

@[simp]
theorem prepare_outbound_with_nlri (next_hop : Option NextHop) (route : Route A)
    (peer_type : PeerType) (local_as public_as : Asn) (next_hop_self : Bool) :
    (prepare_outbound_with next_hop route peer_type local_as public_as next_hop_self).nlri
      = route.nlri := by
  cases peer_type <;> rfl

end

def prepare_outbound (route : Route Ipv4Addr) (peer_type : PeerType) (local_as public_as : Asn)
    (local_next_hop : Ipv4Addr) (next_hop_self : Bool) : Route Ipv4Addr :=
  prepare_outbound_with (some (.V4 local_next_hop)) route peer_type local_as public_as
    next_hop_self

/-- `prepare_outbound_v6`: without a local IPv6 address the next hop stays. -/
def prepare_outbound_v6 (route : Route Ipv6Addr) (peer_type : PeerType)
    (local_as public_as : Asn) (local_ipv6 : Option Ipv6Addr) (next_hop_self : Bool) :
    Route Ipv6Addr :=
  prepare_outbound_with (local_ipv6.map .V6) route peer_type local_as public_as next_hop_self

end Pathvector
