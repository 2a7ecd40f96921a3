/-
# Prefixes in network form

The decoder masks each prefix it reads, so no message names one with host bits. What the daemon
has of a peer then has none either: its routes, its candidates and the prefixes it has still to
announce again after a restart. Several results ask for that of a state; here it is carried over
runs.
-/
import Pathvector.Tables.Peers

set_option autoImplicit false

namespace Pathvector

variable {A : Type} [IpAddress A] [DecidableEq A]

/-- What a move puts into the tables is in network form. -/
def Move.InNetworkForm : Move A → Prop
  | .Hear _ _ _ ops _ _ => ∀ op ∈ ops, op.nlri.Canonical
  | .Originate route _ => route.nlri.Canonical
  | _ => True

namespace Tables

variable {t : Tables A} {m : Move A}

/-- No prefix of the tables has host bits. -/
structure InNetworkForm (t : Tables A) : Prop where
  held : ∀ p n, (t.held p n).isSome → n.Canonical
  candidate : ∀ n p, (t.loc_rib.candidate n p).isSome → n.Canonical
  pending : ∀ p, ∀ n ∈ t.pending p, n.Canonical

theorem Empty.inNetworkForm (h : t.Empty) : t.InNetworkForm := by
  refine ⟨fun p n hn => ?_, fun n p hn => ?_, fun p n hn => ?_⟩
  · rw [h.held] at hn
    cases hn
  · rw [h.candidate] at hn
    cases hn
  · rw [h.pending] at hn
    cases hn

section

variable (ht : t.InNetworkForm)
include ht

theorem held_canonical_move (hm : m.InNetworkForm) (p : IpAddr) (n : Nlri A)
    (hn : ((t.move m).held p n).isSome) : n.Canonical := by
  obtain ⟨raw, hraw⟩ := Option.isSome_iff_exists.1 hn
  rw [← nlri_of_held _ p n hraw]
  refine forall_held_move (P := fun raw => raw.nlri.Canonical) (fun _ h => h) ?_ ?_ p n raw hraw
  · rintro q policy rtr ops refreshed reported rfl raw hop
    exact hm _ hop
  · intro p n raw hraw
    rw [nlri_of_held _ p n hraw]
    exact ht.held p n (Option.isSome_of_eq_some hraw)

theorem candidate_canonical_of_after {q : PeerId} {ops : List (RibOp A)}
    (hops : ∀ op ∈ ops, op.nlri.Canonical) {n : Nlri A} {p : PeerId}
    (hn : (t.loc_rib.candidate_of_after q ops n p).isSome) : n.Canonical := by
  unfold LocRib.candidate_of_after LocRib.candidate_after at hn
  split at hn
  · split at hn
    · next op hlast =>
      obtain ⟨hop, hnlri⟩ := List.mem_filter.1 (List.mem_of_getLast? hlast)
      exact of_decide_eq_true hnlri ▸ hops op hop
    · exact ht.candidate n _ hn
  · exact ht.candidate n _ hn

theorem candidate_canonical_move (hm : m.InNetworkForm) (n : Nlri A) (p : PeerId)
    (hn : ((t.move m).loc_rib.candidate n p).isSome) : n.Canonical := by
  have hold : ∀ {c : Option (Route A)} {P : Prop} [Decidable P],
      c = (if P then none else t.loc_rib.candidate n p) → c.isSome → n.Canonical := by
    intro c P _ hc hsome
    subst hc
    split at hsome
    · cases hsome
    · exact ht.candidate n p hsome
  cases m with
  | Hear q policy rtr ops refreshed reported =>
    rw [candidate_hear] at hn
    refine candidate_canonical_of_after ht (fun op hop => ?_) hn
    obtain ⟨iop, hiop, hrop⟩ := List.mem_filterMap.1 hop
    rw [ImportOp.nlri_rib_op hrop]
    exact hm iop hiop
  | Prune q nlris => exact hold (candidate_prune t q p n nlris) hn
  | Leave q => exact hold (candidate_leave t q p n) hn
  | Unoriginate nlri => exact hold (candidate_unoriginate t p n nlri) hn
  | Restale q =>
    rw [candidate_restale] at hn
    split at hn
    · rw [Option.isSome_or, Option.isSome_map, Bool.or_eq_true] at hn
      exact hn.elim (ht.held q n) (ht.candidate n p)
    · exact ht.candidate n p hn
  | Reapply q policy rtr =>
    rw [candidate_reapply] at hn
    split at hn
    · cases hheld : t.held q n with
      | some raw => exact ht.held q n (Option.isSome_of_eq_some hheld)
      | none =>
        rw [hheld] at hn
        exact ht.candidate n p hn
    · exact ht.candidate n p hn
  | Originate route reported =>
    rw [candidate_originate] at hn
    split at hn
    · next h => exact h.2 ▸ hm
    · exact ht.candidate n p hn
  | Reselect =>
    rw [candidate_reselect] at hn
    exact ht.candidate n p hn
  | _ => exact ht.candidate n p hn

theorem pending_canonical_move (p : IpAddr) (n : Nlri A) (hn : n ∈ (t.move m).pending p) :
    n.Canonical := by
  cases m with
  | Hear q policy rtr ops refreshed reported =>
    exact ht.pending p n ((mem_pending_hear ..).1 hn).1
  | MarkStale q =>
    rcases (mem_pending_markStale ..).1 hn with ⟨-, hsome⟩ | ⟨-, hold⟩
    · exact ht.held q n hsome
    · exact ht.pending p n hold
  | DropStale q =>
    rw [pending_dropStale] at hn
    split at hn
    · cases hn
    · exact ht.pending p n hn
  | Forget q =>
    rw [pending_forget] at hn
    split at hn
    · cases hn
    · exact ht.pending p n hn
  | _ => exact ht.pending p n hn

theorem inNetworkForm_move (hm : m.InNetworkForm) : (t.move m).InNetworkForm :=
  ⟨held_canonical_move ht hm, candidate_canonical_move ht hm, pending_canonical_move ht⟩

theorem inNetworkForm_moves {ms : List (Move A)} (hms : ∀ m ∈ ms, m.InNetworkForm) :
    (t.moves ms).InNetworkForm :=
  List.foldl_invariant move InNetworkForm ms t ht fun _ m hm hu => inNetworkForm_move hu (hms m hm)

end

end Tables

/-! ## Runs -/

/-- The IPv4 prefixes that an event brings. -/
def Event.prefixes_v4 : Event → List (Nlri Ipv4Addr)
  | .Session _ _ (.RouteUpdate msg) => msg.affected
  | .OriginateRoutes _ routes => routes.map Route.nlri
  | _ => []

def Event.prefixes_v6 : Event → List (Nlri Ipv6Addr)
  | .Session _ _ (.RouteUpdate msg) => msg.affected_v6
  | .OriginateRoutesV6 routes => routes.map Route.nlri
  | _ => []

/-- An event as it comes from the wire, or a well-formed call. -/
def Event.InNetworkForm (e : Event) : Prop :=
  (∀ n ∈ e.prefixes_v4, n.Canonical) ∧ ∀ n ∈ e.prefixes_v6, n.Canonical
deriving Decidable

namespace DaemonState

variable {s : DaemonState} {e : Event}

def InNetworkForm (s : DaemonState) : Prop :=
  s.tables_v4.InNetworkForm ∧ s.tables_v6.InNetworkForm

section

variable {t : Tables A} {family : AfiSafi} {anew : Bool}
  {reads : ImportEnv → UpdateMessage → List (ImportOp A)} {routes : Event → List (Route A)}
  {ms : List (Move A)}

theorem MovesOf.originated (h : MovesOf s t family anew reads routes e ms) {route : Route A}
    {reported : Bool} (hm : .Originate route reported ∈ ms) : route ∈ routes e := by
  cases h with
  | originate e reported =>
    obtain ⟨r, hr, heq⟩ := List.mem_map.1 hm
    cases heq
    exact hr
  | judge e h => exact (h _ hm).elim
  | up clk info h =>
    rcases h with rfl | ⟨-, rfl⟩ <;> cases List.mem_singleton.1 hm
  | down clk q' reason =>
    simp only [handled_moves, terminated_moves, helper_moves] at hm
    split_ifs at hm <;> simp at hm
  | _ => simp [eor_moves, expiry_moves] at hm

/-- The moves of an event put its prefixes into the tables, and no others. -/
theorem MovesOf.inNetworkForm (h : MovesOf s t family anew reads routes e ms)
    (hreads : ∀ env clk q msg msg', e = .Session clk q (.RouteUpdate msg) →
      msg.SamePrefixes msg' → ∀ op ∈ reads env msg', op.nlri.Canonical)
    (hroutes : ∀ r ∈ routes e, r.nlri.Canonical) {m : Move A} (hm : m ∈ ms) : m.InNetworkForm := by
  cases m with
  | Hear q policy rtr ops refreshed reported =>
    obtain ⟨-, -, env, msg', rfl, clk, msg, he, hsame⟩ := h.hear hm
    exact hreads env clk q msg msg' he hsame
  | Originate route reported => exact hroutes route (h.originated hm)
  | _ => trivial

end

theorem inNetworkForm_step (hs : s.InNetworkForm) (he : e.InNetworkForm) :
    (s.step e).InNetworkForm := by
  obtain ⟨h4, h6⟩ := s.tables_step e
  constructor
  · rw [h4]
    refine Tables.inNetworkForm_moves hs.1 fun m hm => (s.movesOf_v4 e).inNetworkForm ?_ ?_ hm
    · rintro env clk q msg msg' rfl hsame op hop
      have hin := intake_v4_affected hop
      rw [hsame.affected] at hin
      exact he.1 _ hin
    · intro r hr
      cases e with
      | OriginateRoutes clk routes => exact he.1 _ (List.mem_map_of_mem hr)
      | _ => cases hr
  · rw [h6]
    refine Tables.inNetworkForm_moves hs.2 fun m hm => (s.movesOf_v6 e).inNetworkForm ?_ ?_ hm
    · rintro env clk q msg msg' rfl hsame op hop
      have hin := intake_v6_affected hop
      rw [hsame.affected_v6] at hin
      exact he.2 _ hin
    · intro r hr
      cases e with
      | OriginateRoutesV6 routes => exact he.2 _ (List.mem_map_of_mem hr)
      | _ => cases hr

/-- **Network form over a run.** -/
theorem inNetworkForm_run (hs : s.InNetworkForm) {events : List Event}
    (he : ∀ e ∈ events, e.InNetworkForm) : (s.run events).InNetworkForm :=
  List.foldl_invariant step InNetworkForm events s hs fun _ e hmem hs =>
    inNetworkForm_step hs (he e hmem)

theorem inNetworkForm_new (local_as : Asn) (local_bgp_id : Ipv4Addr) (local_ipv6 : Option Ipv6Addr)
    (cluster_id : Option UInt32) (confederation_id : Option Asn) (peers : List PeerConfig)
    (update_senders : HashMap IpAddr UpdateSender) (caps : List Capability) :
    (new local_as local_bgp_id local_ipv6 cluster_id confederation_id peers update_senders
      caps).InNetworkForm :=
  (empty_tables_new ..).imp Tables.Empty.inNetworkForm Tables.Empty.inNetworkForm

end DaemonState

end Pathvector
