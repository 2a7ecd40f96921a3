/-
# What is exported

`propagate_prefix` brings one entry of an Adj-RIB-Out up to date. This file says what the
entry is afterwards (`exported`), and what a loop of such calls leaves: every listed prefix
holds its export, and every other prefix what it held before.

`exported` is the code's own chain of conditions with the table taken out of it: split
horizon, the outbound transformation, the export policy, the well-known communities and the
iBGP rule of `AdjRibOut::insert`.
-/
import Pathvector.Daemon.Propagate
import Pathvector.Rib.Winner

set_option autoImplicit false

namespace Pathvector

section

variable {A : Type} [IpAddress A] [DecidableEq A]

/-! ## One prefix -/

/-- The fields of an Adj-RIB-Out that stay as long as its session does. -/
structure OutSession where
  peer : PeerId
  peer_type : PeerType
  reflects : Bool

def AdjRibOut.session (out : AdjRibOut A) : OutSession := ⟨out.peer, out.peer_type, out.reflects⟩

/-- What a route that passed the export policy is stored as, if it is. -/
def admitted (peer_type : PeerType) (session : OutSession) (route : Route A) : Option (Route A) :=
  if is_export_suppressed route.communities peer_type then none
  else if !session.reflects && session.peer_type == .Internal && route.peer_type == .Internal
  then none
  else some (AdjRibOut.stored session.peer_type route)

/-- What a winner is exported as to a session. -/
def exported (prepare : Route A → Route A) (rtr : RtrHandle A) (export_policy : Policy A)
    (peer_type : PeerType) (session : OutSession) (best : Option (PeerId × Route A)) :
    Option (Route A) :=
  best.bind fun e =>
    if e.1 = session.peer then none
    else
      match export_policy.evaluate rtr (prepare e.2) with
      | (.Accept, route) => admitted peer_type session route
      | _ => none

/-- A step that leaves entry `n` at `e` and the other entries and the session alone. -/
structure SetsEntry (out out' : AdjRibOut A) (n : Nlri A) (e : Option (Route A)) : Prop where
  get : ∀ m, out'.get m = if m = n then e else out.get m
  session : out'.session = out.session

theorem setsEntry_set (out : AdjRibOut A) (n : Nlri A) (e : Option (Route A))
    (he : ∀ r, e = some r → r.nlri = n) : SetsEntry out (out.set n e he) n e :=
  ⟨fun m => out.get_set n e he m, rfl⟩

theorem setsEntry_withdraw_entry (out : AdjRibOut A) (n : Nlri A) :
    SetsEntry out (withdraw_entry out n).1 n none :=
  setsEntry_set out n none (by simp)

theorem setsEntry_insert (out : AdjRibOut A) (route : Route A) (peer_type : PeerType)
    (hs : is_export_suppressed route.communities peer_type = false) :
    SetsEntry out (out.insert route).1 route.nlri (admitted peer_type out.session route) := by
  unfold admitted AdjRibOut.insert AdjRibOut.session
  rw [hs, if_neg Bool.false_ne_true]
  split
  · exact setsEntry_withdraw_entry out route.nlri
  · exact setsEntry_set out route.nlri (some (AdjRibOut.stored out.peer_type route))
      (by rintro _ ⟨⟩; exact AdjRibOut.stored_nlri _ _)

/-- The table `propagate_route` leaves is that of `insert`, whatever it decides. -/
theorem propagate_route_of_accept (rtr : RtrHandle A) (export_policy : Policy A)
    (peer_type : PeerType) (n : Nlri A) {route route' : Route A} (out : AdjRibOut A)
    (h : export_policy.evaluate rtr route = (.Accept, route'))
    (hs : is_export_suppressed route'.communities peer_type = false) :
    (propagate_route rtr export_policy peer_type n route out).1 = (out.insert route').1 := by
  unfold propagate_route
  rw [h]
  simp only [hs, Bool.false_eq_true, if_false]
  split <;> rename_i heq <;> rw [heq]

/-- **One call of `propagate_prefix`**: the entry is the export of the winner. -/
theorem setsEntry_propagate_best (prepare : Route A → Route A) (rtr : RtrHandle A)
    (export_policy : Policy A) (peer_type : PeerType) {n : Nlri A}
    {best : Option (PeerId × Route A)} (hn : ∀ e, best = some e → (prepare e.2).nlri = n)
    (out : AdjRibOut A) :
    SetsEntry out (propagate_best prepare rtr export_policy peer_type n best out).1 n
      (exported prepare rtr export_policy peer_type out.session best) := by
  rcases best with _ | ⟨q, r⟩
  · exact setsEntry_withdraw_entry out n
  · unfold propagate_best exported
    simp only [Option.bind_some]
    by_cases hq : q = out.peer
    · rw [if_pos hq, if_pos (show q = out.session.peer from hq)]
      exact setsEntry_withdraw_entry out n
    · rw [if_neg hq, if_neg (show ¬q = out.session.peer from hq)]
      have hnlri : (export_policy.evaluate rtr (prepare r)).2.nlri = n := by
        rw [Policy.nlri_evaluate]
        exact hn _ rfl
      rcases hev : export_policy.evaluate rtr (prepare r) with ⟨_ | _ | _, route⟩
      · rw [hev] at hnlri
        dsimp only at hnlri ⊢
        by_cases hs : is_export_suppressed route.communities peer_type = true
        · have hprop : (propagate_route rtr export_policy peer_type n (prepare r) out).1
              = (withdraw_entry out n).1 := by
            unfold propagate_route
            rw [hev]
            simp only [hs, if_true]
          rw [hprop, admitted, if_pos hs]
          exact setsEntry_withdraw_entry out n
        · rw [Bool.not_eq_true] at hs
          rw [propagate_route_of_accept rtr export_policy peer_type n out hev hs, ← hnlri]
          exact setsEntry_insert out route peer_type hs
      · unfold propagate_route
        rw [hev]
        exact setsEntry_withdraw_entry out n
      · unfold propagate_route
        rw [hev]
        exact setsEntry_withdraw_entry out n

/-! ## A loop of prefixes -/

/-- A loop of calls sets the listed entries to `e`, except those that it skips. `e` may look at
the session and at nothing else of the table. -/
def SetsListed (f : Nlri A → AdjRibOut A → AdjRibOut A × PrefixDecision A) (skip : Nlri A → Bool)
    (e : Nlri A → OutSession → Option (Route A)) : Prop :=
  ∀ ns out, (decide_all f ns out).1.session = out.session ∧
    ∀ m, (decide_all f ns out).1.get m
      = if m ∈ ns ∧ skip m = false then e m out.session else out.get m

section

variable {f : Nlri A → AdjRibOut A → AdjRibOut A × PrefixDecision A}
  {e : Nlri A → OutSession → Option (Route A)}

theorem setsListed {skip : Nlri A → Bool} (hskip : ∀ n out, skip n = true →
      (f n out).1.session = out.session ∧ ∀ m, (f n out).1.get m = out.get m)
    (hf : ∀ n out, skip n = false → SetsEntry out (f n out).1 n (e n out.session)) :
    SetsListed f skip e := by
  intro ns out
  induction ns generalizing out with
  | nil => exact ⟨rfl, fun m => by simp [decide_all]⟩
  | cons n ns ih =>
    obtain ⟨hsess, hget⟩ := ih (f n out).1
    cases hs : skip n with
    | true =>
      obtain ⟨hsess', hget'⟩ := hskip n out hs
      refine ⟨hsess.trans hsess', fun m => ?_⟩
      show (decide_all f ns (f n out).1).1.get m = _
      rw [hget m, hsess', hget' m]
      by_cases hm : m = n
      · subst hm
        simp [hs]
      · simp [hm]
    | false =>
      have hn := hf n out hs
      refine ⟨hsess.trans hn.session, fun m => ?_⟩
      show (decide_all f ns (f n out).1).1.get m = _
      rw [hget m, hn.session, hn.get m]
      by_cases hm : m = n
      · subst hm
        simp [hs]
      · simp [hm]

/-- The calls of a loop behind a check that holds some prefixes back. -/
theorem setsListed_checked {deferred : Bool} (held : Nlri A → Bool)
    (hskip : deferred = true → ∀ n out,
      (f n out).1.session = out.session ∧ ∀ m, (f n out).1.get m = out.get m)
    (hf : deferred = false → ∀ n out, SetsEntry out (f n out).1 n (e n out.session)) :
    SetsListed (fun n out => if held n then (out, .NoChange) else f n out)
      (fun m => deferred || held m) e := by
  refine setsListed (fun n out h => ?_) fun n out h => ?_
  · split
    · exact ⟨rfl, fun _ => rfl⟩
    · next hheld =>
      rw [Bool.or_eq_true, or_iff_left hheld] at h
      exact hskip h n out
  · rw [Bool.or_eq_false_iff] at h
    simp only [h.2, Bool.false_eq_true, if_false]
    exact hf h.1 n out

end

end

/-! ## The two families -/

section

variable (rtr : RtrHandle Ipv4Addr) (loc_rib : LocRib Ipv4Addr) (export_policy : Policy Ipv4Addr)
  (peer_type : PeerType) (local_as public_as : Asn) (local_next_hop : Ipv4Addr)
  (next_hop_self : Bool)

theorem setsEntry_propagate_prefix (n : Nlri Ipv4Addr) (out : AdjRibOut Ipv4Addr) :
    let call := propagate_prefix rtr n loc_rib export_policy peer_type local_as public_as
      local_next_hop next_hop_self false out
    SetsEntry out call.1 n
      (exported
        (fun r => prepare_outbound r peer_type local_as public_as local_next_hop next_hop_self)
        rtr export_policy peer_type out.session (loc_rib.best_entry n)) := by
  have hn : ∀ e, loc_rib.best_entry n = some e →
      (prepare_outbound e.2 peer_type local_as public_as local_next_hop next_hop_self).nlri = n :=
    fun e he => (prepare_outbound_with_nlri ..).trans (loc_rib.best_entry_nlri he)
  obtain ⟨hget, hsess⟩ := setsEntry_propagate_best
    (fun r => prepare_outbound r peer_type local_as public_as local_next_hop next_hop_self)
    rtr export_policy peer_type hn out
  exact ⟨hget, hsess⟩

end

theorem setsEntry_propagate_prefix_v6 (rtr : RtrHandle Ipv6Addr) (loc_rib : LocRib Ipv6Addr)
    (export_policy : Policy Ipv6Addr) (peer_type : PeerType) (local_as public_as : Asn)
    (local_ipv6 : Option Ipv6Addr) (next_hop_self : Bool) (n : Nlri Ipv6Addr)
    (out : AdjRibOut Ipv6Addr) :
    SetsEntry out (propagate_prefix_v6 rtr n loc_rib export_policy peer_type local_as public_as
        local_ipv6 next_hop_self false out).1 n
      (exported
        (fun r => prepare_outbound_v6 r peer_type local_as public_as local_ipv6 next_hop_self)
        rtr export_policy peer_type out.session
        (if peer_type ≠ .External || local_ipv6.isSome then loc_rib.best_entry n else none)) := by
  have hn : ∀ e, (if peer_type ≠ .External || local_ipv6.isSome
      then loc_rib.best_entry n else none) = some e →
      (prepare_outbound_v6 e.2 peer_type local_as public_as local_ipv6 next_hop_self).nlri = n := by
    intro e he
    split at he
    · exact (prepare_outbound_with_nlri ..).trans (loc_rib.best_entry_nlri he)
    · cases he
  obtain ⟨hget, hsess⟩ := setsEntry_propagate_best
    (fun r => prepare_outbound_v6 r peer_type local_as public_as local_ipv6 next_hop_self)
    rtr export_policy peer_type hn out
  exact ⟨hget, hsess⟩

end Pathvector
