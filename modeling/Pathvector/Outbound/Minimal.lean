/-
# `propagate_prefix` as a difference of what is sent

`propagate_prefix` brings one entry of an Adj-RIB-Out up to date and says what the peer has to be
told. It compares the entry with the new export as `Route` values, and these hold more than an
UPDATE shows: when the route was received, whether it is stale, who it came from. So an entry can
be announced again with the attributes it already had.

Everything else about the call is exact: the entry is the exported best route, no other entry
moves, a withdrawal stands for an entry that went away, and calling again changes nothing.
-/
import Pathvector.Outbound.Decision

set_option autoImplicit false

namespace Pathvector

/-- A call that brings entry `n` from what `out` has to `e` and decides by what changes on the
wire. -/
structure ExactDiff (call : AdjRibOut Ipv4Addr → AdjRibOut Ipv4Addr × PrefixDecision Ipv4Addr)
    (out : AdjRibOut Ipv4Addr) (n : Nlri Ipv4Addr) (e : Option (Route Ipv4Addr))
    (wire : Route Ipv4Addr → List PathAttribute) : Prop where
  entry : (call out).1.get n = e
  others : ∀ m, m ≠ n → (call out).1.get m = out.get m
  withdraws : (call out).2 = .Withdraw n ↔ (out.get n).isSome ∧ (call out).1.get n = none
  announces : (∃ r, (call out).2 = .Announce r) ↔
    ∃ r, (call out).1.get n = some r ∧ (out.get n).map wire ≠ some (wire r)
  again : (call (call out).1).2 = .NoChange

/-- What is sent tells the entry and its replacement apart whenever they differ. -/
def TellsApart (wire : Route Ipv4Addr → List PathAttribute) (prev next : Option (Route Ipv4Addr)) :
    Prop :=
  ∀ r ∈ prev, ∀ r' ∈ next, wire r = wire r' → r = r'
deriving Decidable

section

variable {n : Nlri Ipv4Addr} {prev next : Option (Route Ipv4Addr)}

theorem difference_eq_withdraw_iff :
    difference n prev next = .Withdraw n ↔ prev.isSome ∧ next = none := by
  cases next with
  | none =>
    rw [difference_none]
    cases prev <;> simp
  | some r =>
    rw [difference_some]
    split <;> simp

theorem difference_eq_announce_iff :
    (∃ r, difference n prev next = .Announce r) ↔ ∃ r, next = some r ∧ prev ≠ some r := by
  cases next with
  | none =>
    rw [difference_none]
    cases prev <;> simp
  | some r =>
    rw [difference_some]
    by_cases h : prev = some r
    · simp [h]
    · simp [h]

/-- Routes and their attributes change together exactly when the attributes tell them apart. -/
theorem tellsApart_iff (wire : Route Ipv4Addr → List PathAttribute) :
    TellsApart wire prev next ↔
      ((∃ r, next = some r ∧ prev ≠ some r) ↔
        ∃ r, next = some r ∧ prev.map wire ≠ some (wire r)) := by
  cases next with
  | none => simp [TellsApart]
  | some r' =>
    cases prev with
    | none => simp [TellsApart]
    | some r =>
      have hsame : r = r' → wire r = wire r' := congrArg wire
      simp only [TellsApart, Option.mem_def, Option.some.injEq, forall_eq', exists_eq_left',
        Option.map_some, ne_eq, not_iff_not]
      exact ⟨fun h => ⟨hsame, h⟩, fun h => h.2⟩

end

/-- **The call is exact up to what is not sent.** For every Loc-RIB, policy, peer and prefix, the
call is a minimal difference exactly when the old entry and the new export are the same route as
soon as they have the same attributes on the wire. -/
theorem propagate_prefix_exact_iff (rtr : RtrHandle Ipv4Addr) (loc_rib : LocRib Ipv4Addr)
    (export_policy : Policy Ipv4Addr) (peer_type : PeerType) (local_as public_as : Asn)
    (next_hop : Ipv4Addr) (next_hop_self four_byte : Bool) (n : Nlri Ipv4Addr)
    (out : AdjRibOut Ipv4Addr) (hout : Verbatim peer_type out.session) :
    let best := exported
      (fun r => prepare_outbound r peer_type local_as public_as next_hop next_hop_self) rtr
      export_policy peer_type out.session (loc_rib.best_entry n)
    let call := propagate_prefix rtr n loc_rib export_policy peer_type local_as public_as next_hop
      next_hop_self false
    ExactDiff call out n best (route_to_attributes · peer_type four_byte)
      ↔ TellsApart (route_to_attributes · peer_type four_byte) (out.get n) best := by
  intro best call
  have hcall : ∀ o : AdjRibOut Ipv4Addr, o.session = out.session →
      DecidesTo o n best (call o) := by
    intro o ho
    have h := decidesTo_propagate_prefix rtr loc_rib export_policy local_as public_as next_hop
      next_hop_self false n (ho ▸ hout)
    rw [if_neg Bool.false_ne_true, ho] at h
    exact h
  have hfirst := hcall out rfl
  have hsecond := hcall _ hfirst.sets.session
  have hentry := hfirst.sets.get n
  rw [if_pos rfl] at hentry
  rw [tellsApart_iff]
  constructor
  · intro h
    have hannounces := h.announces
    rw [hfirst.decision, hentry, difference_eq_announce_iff] at hannounces
    exact hannounces
  · intro h
    refine ⟨hentry, fun m hm => ?_, ?_, ?_, ?_⟩
    · rw [hfirst.sets.get m, if_neg hm]
    · rw [hfirst.decision, hentry]
      exact difference_eq_withdraw_iff
    · rw [hfirst.decision, hentry, difference_eq_announce_iff]
      exact h
    · rw [hsecond.decision, hentry, difference_self]

/-- 10.0.0.0/8 as 10.0.0.2 announced it at the given second. -/
def heard_at (secs : UInt32) : Route Ipv4Addr :=
  { Route.build (Nlri.v4 10 0 0 0 8) .Igp (AsPath.from_sequence [65002]) secs with
    next_hop := some (.V4 (Ipv4Addr.new 10 0 0 2)) }

/-- What an internal peer at 10.0.0.3 is told once the Loc-RIB has it. -/
def tell_heard_at (secs : UInt32) (out : AdjRibOut Ipv4Addr) :
    AdjRibOut Ipv4Addr × PrefixDecision Ipv4Addr :=
  propagate_prefix (fun _ _ _ => .NotFound) (Nlri.v4 10 0 0 0 8)
    (LocRib.new.insert (.V4 (Ipv4Addr.new 10 0 0 2)) (heard_at secs) .AlwaysReachable).1
    ⟨[], .Accept⟩ .Internal 65001 65001 (Ipv4Addr.new 10 0 0 1) false false out

/-- Nothing was told yet. -/
def told_nothing : AdjRibOut Ipv4Addr := AdjRibOut.new (.V4 (Ipv4Addr.new 10 0 0 3)) .Internal false

theorem heard_told :
    Verbatim .Internal told_nothing.session ∧
      ExactDiff (tell_heard_at 0) told_nothing (Nlri.v4 10 0 0 0 8)
        (tell_heard_at 0 told_nothing).2.value (route_to_attributes · .Internal true) := by
  have hout : Verbatim .Internal told_nothing.session := by decide
  refine ⟨hout, (propagate_prefix_exact_iff (fun _ _ _ => .NotFound)
    (LocRib.new.insert (.V4 (Ipv4Addr.new 10 0 0 2)) (heard_at 0) .AlwaysReachable).1
    ⟨[], .Accept⟩ .Internal 65001 65001 (Ipv4Addr.new 10 0 0 1) false true
    (Nlri.v4 10 0 0 0 8) told_nothing hout).2 ?_⟩
  decide +kernel

/-- The same announcement a second later is a new `Route`: the peer is told what it already has,
attribute for attribute. -/
theorem refreshed_told_again :
    Verbatim .Internal (tell_heard_at 0 told_nothing).1.session ∧
      (tell_heard_at 1 (tell_heard_at 0 told_nothing).1).2 = .Announce (heard_at 1) ∧
      ((tell_heard_at 0 told_nothing).1.get (Nlri.v4 10 0 0 0 8)).map
        (route_to_attributes · .Internal true)
        = some (route_to_attributes (heard_at 1) .Internal true) := by
  decide +kernel

end Pathvector
