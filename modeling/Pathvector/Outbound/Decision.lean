/-
# What a decision says

`propagate_prefix` changes one entry of an Adj-RIB-Out and returns a decision. This file says
that the decision is the difference between the two entries (`difference`): nothing when they are
equal, the new route when there is one, and a withdrawal otherwise. So a peer that follows the
decisions of its session in the order they were made has its Adj-RIB-Out (`told`).

There is one catch. `AdjRibOut::insert` removes confederation segments when it stores a route
for an external peer, and the decision carries the route as it was before. The two are the same
because the outbound transformation has already removed them, as long as the session and its
Adj-RIB-Out agree on the peer being external (`Verbatim`).
-/
import Pathvector.Outbound.Batching
import Pathvector.Outbound.Views

set_option autoImplicit false

namespace Pathvector

/-! ## Paths without confederation segments -/

namespace AsPath

/-- No segment of the path is about the inside of a confederation. -/
def Plain (path : AsPath) : Prop := ∀ seg ∈ path.segments, seg.is_confed = false

theorem plain_strip (path : AsPath) : path.strip_confed_segments.Plain := by
  intro seg hseg
  simpa using (List.mem_filter.1 hseg).2

theorem strip_of_plain {path : AsPath} (h : path.Plain) : path.strip_confed_segments = path := by
  unfold strip_confed_segments
  congr 1
  apply List.filter_eq_self.2
  intro seg hseg
  simp [h seg hseg]

theorem Plain.prepend {path : AsPath} (h : path.Plain) (asn : Asn) : (path.prepend asn).Plain := by
  unfold AsPath.prepend
  split
  · rename_i asns rest heq
    have hrest : ∀ seg ∈ rest, seg.is_confed = false := by
      intro seg hseg
      apply h
      rw [heq]
      exact List.mem_cons_of_mem _ hseg
    split
    · intro seg hseg
      rcases List.mem_cons.1 hseg with rfl | hseg
      · rfl
      · exact hrest seg hseg
    · intro seg hseg
      rcases List.mem_cons.1 hseg with rfl | hseg
      · rfl
      · exact h seg hseg
  · intro seg hseg
    rcases List.mem_cons.1 hseg with rfl | hseg
    · rfl
    · exact h seg hseg

end AsPath

section

variable {A : Type} [IpAddress A]

theorem Policy.plain_evaluate (rtr : RtrHandle A) (policy : Policy A) {r : Route A}
    (h : r.as_path.Plain) : (policy.evaluate rtr r).2.as_path.Plain := by
  refine keeps_evaluate (P := fun r => r.as_path.Plain) (.of_rare ?_ ?_ ?_ ?_ ?_ ?_) rtr policy h
  case refine_5 => exact fun r asn hr => hr.prepend asn
  all_goals exact fun _ _ hr => hr

theorem plain_prepare_external (next_hop : Option NextHop) (r : Route A) (local_as public_as : Asn)
    (next_hop_self : Bool) :
    (prepare_outbound_with next_hop r .External local_as public_as next_hop_self).as_path.Plain :=
  (AsPath.plain_strip _).prepend _

/-! ## The difference of two entries -/

/-- What a decision leaves of its prefix. -/
def PrefixDecision.value : PrefixDecision A → Option (Route A)
  | .Announce r => some r
  | .Withdraw _ => none
  | .NoChange => none

variable [DecidableEq A]

/-- The decision that takes a receiver from one entry of a prefix to another. -/
def difference (n : Nlri A) (prev next : Option (Route A)) : PrefixDecision A :=
  if prev = next then .NoChange
  else
    match next with
    | some r => .Announce r
    | none => .Withdraw n

section

variable (p : Nlri A) (ds es : List (PrefixDecision A))

theorem difference_self (n : Nlri A) (e : Option (Route A)) :
    difference n e e = .NoChange := if_pos rfl

theorem difference_none (n : Nlri A) (prev : Option (Route A)) :
    difference n prev none = if prev.isSome then .Withdraw n else .NoChange := by
  unfold difference
  cases prev with
  | none => simp
  | some r => simp

theorem difference_some (n : Nlri A) (prev : Option (Route A)) (r : Route A) :
    difference n prev (some r) = if prev = some r then .NoChange else .Announce r := rfl

/-- The decisions of a list about one prefix, in order. -/
def about : List (PrefixDecision A) :=
  ds.filter fun d => d.nlri? = some p

@[simp]
theorem about_nil : about p [] = [] := rfl

@[simp]
theorem about_append : about p (ds ++ es) = about p ds ++ about p es :=
  List.filter_append ..

theorem about_singleton (d : PrefixDecision A) :
    about p [d] = if d.nlri? = some p then [d] else [] := by
  unfold about
  split
  · rename_i h
    simp [h]
  · rename_i h
    simp [h]

theorem mem_about {p : Nlri A} {ds : List (PrefixDecision A)} {d : PrefixDecision A} :
    d ∈ about p ds ↔ d ∈ ds ∧ d.nlri? = some p := by
  simp [about]

theorem last_decision_eq : last_decision p ds = (about p ds).getLast? := by
  rw [last_decision, about, List.getLast?_eq_head?_reverse, ← List.filter_reverse,
    List.head?_filter]

/-- What a peer that has been given these decisions, in this order, holds for a prefix. -/
def told (p : Nlri A) : Option (Route A) :=
  (about p ds).getLast?.bind PrefixDecision.value

theorem told_append : told (ds ++ es) p = if about p es = [] then told ds p else told es p := by
  unfold told
  rw [about_append]
  split
  · rename_i h
    rw [h, List.append_nil]
  · rename_i h
    rw [List.getLast?_append_of_ne_nil _ h]

theorem told_snoc (d : PrefixDecision A) (p : Nlri A) :
    told (ds ++ [d]) p = if d.nlri? = some p then d.value else told ds p := by
  rw [told_append, about_singleton]
  split
  · rename_i h
    rw [if_neg (by simp), told, about_singleton, if_pos h]
    rfl
  · rfl

end

/-! ## One decision -/

/-- One call of `propagate_prefix`: entry `n` becomes `e`, the other entries stay, and the
decision is what has changed. -/
structure DecidesTo (out : AdjRibOut A) (n : Nlri A) (e : Option (Route A))
    (r : AdjRibOut A × PrefixDecision A) : Prop where
  sets : SetsEntry out r.1 n e
  decision : r.2 = difference n (out.get n) e
  made : ∀ m, about m r.1.made = about m out.made ++ about m [r.2]

namespace DecidesTo

variable {out : AdjRibOut A} {n : Nlri A} {e : Option (Route A)}
  {r : AdjRibOut A × PrefixDecision A}

theorem nlri (h : DecidesTo out n e r) : r.2 = .NoChange ∨ r.2.nlri? = some n := by
  rw [h.decision]
  unfold difference
  split
  · exact .inl rfl
  · right
    cases he : e with
    | none => rfl
    | some route =>
      have hget := h.sets.get n
      rw [if_pos rfl, he] at hget
      exact congrArg some (r.1.nlri_eq n route hget)

theorem nlri_eq_iff (h : DecidesTo out n e r) (m : Nlri A) :
    r.2.nlri? = some m ↔ m = n ∧ out.get n ≠ e := by
  by_cases he : out.get n = e
  · have hd : r.2 = .NoChange := by rw [h.decision, he, difference_self]
    rw [hd]
    simp [PrefixDecision.nlri?, he]
  · have hd : r.2.nlri? = some n := by
      apply h.nlri.resolve_left
      rw [h.decision, difference.eq_def, if_neg he]
      cases e <;> simp
    rw [hd]
    simp only [Option.some.injEq, ne_eq, he, not_false_eq_true, and_true]
    exact eq_comm

theorem get_eq (h : DecidesTo out n e r) (m : Nlri A) :
    r.1.get m = if r.2.nlri? = some m then r.2.value else out.get m := by
  rw [h.sets.get m]
  simp only [h.nlri_eq_iff]
  by_cases hm : m = n
  · subst hm
    by_cases he : out.get m = e
    · simp [he]
    · rw [if_pos rfl, if_pos ⟨rfl, he⟩, h.decision, difference.eq_def, if_neg he]
      cases e <;> rfl
  · simp [hm]

end DecidesTo

/-! ## `propagate_prefix` -/

/-- Routes are stored as they are: the session is external, so that paths are plain before they
come here, or the Adj-RIB-Out belongs to a session that is not. -/
def Verbatim (peer_type : PeerType) (session : OutSession) : Prop :=
  peer_type = .External ∨ session.peer_type ≠ .External
deriving Decidable

omit [DecidableEq A] in
theorem stored_eq_self {peer_type : PeerType} {route : Route A} (h : route.as_path.Plain) :
    AdjRibOut.stored peer_type route = route := by
  unfold AdjRibOut.stored
  split
  · rw [AsPath.strip_of_plain h]
  · rfl

section

variable (prepare : Route A → Route A) (rtr : RtrHandle A) (export_policy : Policy A)
  (peer_type : PeerType) (n : Nlri A) (best : Option (PeerId × Route A))

section

variable (route : Route A) (out : AdjRibOut A)

theorem withdraw_entry_decision (n : Nlri A) :
    (withdraw_entry out n).2 = difference n (out.get n) none := by
  rw [difference_none]
  rfl

theorem insert_made (route : Route A) : (out.insert route).1.made = out.made := by
  unfold AdjRibOut.insert
  split <;> rfl

/-- The decision of `propagate_route` about a route that is stored as it is. -/
theorem propagate_route_decision {n : Nlri A} {route : Route A} (hn : route.nlri = n)
    (hstored : AdjRibOut.stored out.peer_type (export_policy.evaluate rtr route).2
      = (export_policy.evaluate rtr route).2) :
    (propagate_route rtr export_policy peer_type n route out).2
      = difference n (out.get n) (match export_policy.evaluate rtr route with
        | (.Accept, route) => admitted peer_type out.session route
        | _ => none) := by
  have hnlri := Policy.nlri_evaluate rtr export_policy route
  unfold propagate_route
  rcases hev : export_policy.evaluate rtr route with ⟨_ | _ | _, route'⟩
  · rw [hev] at hnlri hstored
    dsimp only at hnlri hstored ⊢
    rw [hn] at hnlri
    unfold admitted
    by_cases hs : is_export_suppressed route'.communities peer_type = true
    · rw [if_pos hs, if_pos hs]
      exact withdraw_entry_decision out n
    · rw [if_neg hs, if_neg hs]
      unfold AdjRibOut.insert AdjRibOut.session
      by_cases hf : (!out.reflects && out.peer_type == .Internal
          && route'.peer_type == .Internal) = true
      · rw [if_pos hf, if_pos hf, difference_none, hnlri]
      · rw [if_neg hf, if_neg hf]
        simp only [hstored, hnlri]
        exact (difference_some n _ _).symm
  · exact withdraw_entry_decision out n
  · exact withdraw_entry_decision out n

theorem propagate_route_made :
    (propagate_route rtr export_policy peer_type n route out).1.made = out.made := by
  unfold propagate_route
  split
  · rename_i route' _
    split
    · rfl
    · have hmade := insert_made out route'
      split
      · rename_i heq
        rw [heq] at hmade
        exact hmade
      · rename_i heq
        rw [heq] at hmade
        exact hmade
  · rfl

theorem propagate_best_made :
    (propagate_best prepare rtr export_policy peer_type n best out).1.made = out.made := by
  unfold propagate_best
  split
  · split
    · rfl
    · exact propagate_route_made ..
  · rfl

end

/-- **The decision of `propagate_prefix` is what it changes.** -/
theorem decidesTo_propagate_best {prepare : Route A → Route A} {rtr : RtrHandle A}
    {export_policy : Policy A} {peer_type : PeerType} {n : Nlri A}
    {best : Option (PeerId × Route A)} (hn : ∀ e, best = some e → (prepare e.2).nlri = n)
    (out : AdjRibOut A)
    (hstored : ∀ r, AdjRibOut.stored out.peer_type (export_policy.evaluate rtr (prepare r)).2
      = (export_policy.evaluate rtr (prepare r)).2) :
    DecidesTo out n (exported prepare rtr export_policy peer_type out.session best)
      (record_decision (propagate_best prepare rtr export_policy peer_type n best out)) := by
  have hsets := setsEntry_propagate_best prepare rtr export_policy peer_type hn out
  refine ⟨⟨hsets.get, hsets.session⟩, ?_, fun m => ?_⟩
  · show (propagate_best prepare rtr export_policy peer_type n best out).2 = _
    rcases best with _ | ⟨src, r⟩
    · exact withdraw_entry_decision out n
    · unfold propagate_best exported
      simp only [Option.bind_some]
      by_cases hsrc : src = out.peer
      · rw [if_pos hsrc, if_pos (show src = out.session.peer from hsrc)]
        exact withdraw_entry_decision out n
      · rw [if_neg hsrc, if_neg (show ¬src = out.session.peer from hsrc)]
        exact propagate_route_decision rtr export_policy peer_type out (hn _ rfl) (hstored r)
  · show about m ((propagate_best prepare rtr export_policy peer_type n best out).1.made ++ [_]) = _
    rw [propagate_best_made, about_append]
    rfl

theorem decidesTo_nothing {out out' : AdjRibOut A} (hget : out'.get = out.get)
    (hsess : out'.session = out.session) (hmade : ∀ m, about m out'.made = about m out.made) :
    DecidesTo out n (out.get n) (out', .NoChange) := by
  refine ⟨⟨fun m => ?_, hsess⟩, (difference_self n _).symm, fun m => ?_⟩
  · rw [hget]
    split
    · rename_i h
      rw [h]
    · rfl
  · rw [hmade, about_singleton, if_neg (by simp [PrefixDecision.nlri?]), List.append_nil]

end

end

section

variable (rtr : RtrHandle Ipv4Addr) (loc_rib : LocRib Ipv4Addr) (export_policy : Policy Ipv4Addr)
  {peer_type : PeerType} (local_as public_as : Asn) (next_hop : Ipv4Addr) (next_hop_self : Bool)

theorem stored_prepare {session : OutSession} (h : Verbatim peer_type session)
    (r : Route Ipv4Addr) :
    AdjRibOut.stored session.peer_type (export_policy.evaluate rtr
        (prepare_outbound r peer_type local_as public_as next_hop next_hop_self)).2
      = (export_policy.evaluate rtr
          (prepare_outbound r peer_type local_as public_as next_hop next_hop_self)).2 := by
  rcases h with rfl | h
  · apply stored_eq_self
    apply Policy.plain_evaluate
    exact plain_prepare_external (some (.V4 next_hop)) r _ _ _
  · exact if_neg h

theorem decidesTo_propagate_prefix (deferred : Bool) (n : Nlri Ipv4Addr)
    {out : AdjRibOut Ipv4Addr} (h : Verbatim peer_type out.session) :
    DecidesTo out n
      (if deferred then out.get n
        else exported
          (fun r => prepare_outbound r peer_type local_as public_as next_hop next_hop_self) rtr
          export_policy peer_type out.session (loc_rib.best_entry n)) <|
      propagate_prefix rtr n loc_rib export_policy peer_type local_as public_as next_hop
        next_hop_self deferred out := by
  cases deferred with
  | true =>
    exact decidesTo_nothing n rfl rfl fun m => by
      show about m (out.made ++ [.NoChange]) = _
      rw [about_append, about_singleton, if_neg (by simp [PrefixDecision.nlri?]), List.append_nil]
  | false =>
    have hn : ∀ e, loc_rib.best_entry n = some e →
        (prepare_outbound e.2 peer_type local_as public_as next_hop next_hop_self).nlri = n :=
      fun e he => (prepare_outbound_with_nlri ..).trans (loc_rib.best_entry_nlri he)
    exact decidesTo_propagate_best hn out
      (stored_prepare rtr export_policy local_as public_as next_hop next_hop_self h)

end

namespace DaemonState

variable (s : DaemonState) (q : IpAddr) (export_policy : Policy Ipv4Addr)

section

variable {out : AdjRibOut Ipv4Addr} (deferred : Bool) (n : Nlri Ipv4Addr)
  (h : Verbatim (s.peer_type q) out.session)
include h

theorem decidesTo_propagate_v4 {next_hop : Ipv4Addr} :
    DecidesTo out n
      (if deferred then out.get n
        else exported (fun r => prepare_outbound r (s.peer_type q) s.rib.local_as s.public_as
          next_hop (decide (q ∈ s.rib.next_hop_self_peers))) s.rpki_v4 export_policy
          (s.peer_type q) out.session (s.rib.loc_rib.best_entry n))
      (s.propagate_v4 q export_policy next_hop deferred n out) :=
  decidesTo_propagate_prefix _ _ _ _ _ _ _ deferred n h

theorem decidesTo_checked_v4 :
    DecidesTo out n
      (if deferred || s.rr_suppressed q (s.rib.loc_rib.best_peer n) then out.get n
        else exported (s.prepare_v4 q) s.rpki_v4 export_policy (s.peer_type q) out.session
          (s.rib.loc_rib.best_entry n)) (s.checked_v4 q export_policy deferred n out) := by
  unfold checked_v4
  by_cases hs : s.rr_suppressed q (s.rib.loc_rib.best_peer n) = true
  · rw [if_pos hs, hs, Bool.or_true, if_pos rfl]
    exact decidesTo_nothing n rfl rfl fun _ => rfl
  · rw [if_neg hs, Bool.eq_false_of_not_eq_true hs, Bool.or_false]
    exact s.decidesTo_propagate_v4 q export_policy deferred n h

end

end DaemonState

end Pathvector
