/-
# Which peers the tables know

A peer's Adj-RIB-In comes with the peer and goes with it, in both families; in between only its
messages fill it. `MovesOf` says which moves an event can come to, `known_step` and `paired_step`
which Adj-RIBs-In there are.
-/
import Pathvector.Tables.Contents

set_option autoImplicit false

namespace Pathvector

variable {A : Type} [IpAddress A] [DecidableEq A]

/-- The move is a message of the peer. -/
def Move.hears (p : IpAddr) : Move A → Prop
  | .Hear q .. => q = p
  | _ => False

namespace Tables

variable {t : Tables A} {p : IpAddr}
variable {ms : List (Move A)} {m : Move A} {n : Nlri A}

theorem mem_adj_ribs_in_move (hm : m ≠ .Forget p) (h : p ∈ t.adj_ribs_in) :
    p ∈ (t.move m).adj_ribs_in := by
  cases m with
  | Hear | Prune | Clear | Restale => exact (DaemonState.mem_modify ..).2 h
  | NewAdjRibIn q => exact (AList.mem_insert _).2 (.inr h)
  | Forget q => exact AList.mem_erase.2 ⟨fun hq => hm (hq ▸ rfl), h⟩
  | _ => exact h

theorem mem_adj_ribs_in_moves (hms : ∀ m ∈ ms, m ≠ .Forget p) (h : p ∈ t.adj_ribs_in) :
    p ∈ (t.moves ms).adj_ribs_in :=
  List.foldl_invariant move (fun u => p ∈ u.adj_ribs_in) ms t h fun _ m hm h =>
    mem_adj_ribs_in_move (hms m hm) h

theorem mem_adj_ribs_in_of_moves (h : p ∈ (t.moves ms).adj_ribs_in) :
    p ∈ t.adj_ribs_in ∨ .NewAdjRibIn p ∈ ms := by
  induction ms generalizing t with
  | nil => exact .inl h
  | cons m ms ih =>
    refine (ih (t := t.move m) h).elim (fun h => ?_) fun h => .inr (List.mem_cons_of_mem _ h)
    cases m with
    | Hear | Prune | Clear | Restale => exact .inl ((DaemonState.mem_modify ..).1 h)
    | NewAdjRibIn q =>
      rcases (AList.mem_insert _).1 h with rfl | h
      · exact .inr (List.mem_cons_self ..)
      · exact .inl h
    | Forget q => exact .inl (AList.mem_erase.1 h).2
    | _ => exact .inl h

/-- What holds of every route that is held, and of all that a message announces, holds of the
routes that are held after a move. -/
theorem forall_held_move {P : Route A → Prop} (hstale : ∀ raw, P raw → P raw.as_stale)
    (hhear : ∀ q policy rtr ops refreshed reported,
      m = .Hear q policy rtr ops refreshed reported → ∀ raw, .Announce raw ∈ ops → P raw)
    (ht : ∀ p n raw, t.held p n = some raw → P raw) :
    ∀ p n raw, (t.move m).held p n = some raw → P raw := by
  intro p n raw h
  by_cases hp : m.peer? = some p
  · cases m with
    | Hear q policy rtr ops refreshed reported =>
      cases hp
      rw [held_hear] at h
      split at h
      · cases hlast : last_op ops n with
        | none =>
          rw [hlast] at h
          exact ht _ _ _ h
        | some op =>
          rw [hlast] at h
          cases op with
          | Withdraw k => cases h
          | Announce raw' =>
            cases h
            exact hhear _ _ _ _ _ _ rfl raw (last_op_mem hlast).1
      · exact ht _ _ _ h
    | Prune q nlris =>
      rw [held_prune] at h
      split at h
      · cases h
      · exact ht _ _ _ h
    | Clear q =>
      cases hp
      rw [held_clear, if_pos rfl] at h
      cases h
    | Restale q =>
      -- the one move that changes a route it holds
      cases hp
      rw [held_restale, if_pos rfl] at h
      obtain ⟨raw', hraw', rfl⟩ := Option.map_eq_some_iff.1 h
      exact hstale raw' (ht _ _ _ hraw')
    | NewAdjRibIn q =>
      cases hp
      rw [held_newAdjRibIn, if_pos rfl] at h
      cases h
    | Forget q =>
      cases hp
      rw [held_forget, if_pos rfl] at h
      cases h
    | _ => exact ht _ _ _ h
  · rw [(sameEntries_move t m hp).held] at h
    exact ht _ _ _ h

theorem held_of_move (h : ((t.move m).held p n).isSome) : (t.held p n).isSome ∨ m.hears p := by
  by_cases hp : m.peer? = some p
  · cases m with
    | Hear q policy rtr ops refreshed reported =>
      cases hp
      exact .inr rfl
    | Prune q nlris =>
      cases hp
      rw [held_prune] at h
      split at h
      · cases h
      · exact .inl h
    | Clear q =>
      cases hp
      rw [held_clear, if_pos rfl] at h
      cases h
    | Restale q =>
      cases hp
      rw [held_restale, if_pos rfl, Option.isSome_map] at h
      exact .inl h
    | NewAdjRibIn q =>
      cases hp
      rw [held_newAdjRibIn, if_pos rfl] at h
      cases h
    | Forget q =>
      cases hp
      rw [held_forget, if_pos rfl] at h
      cases h
    | _ => exact .inl h
  · rw [(sameEntries_move t m hp).held] at h
    exact .inl h

theorem mem_of_held (h : (t.held p n).isSome) : p ∈ t.adj_ribs_in := by
  obtain ⟨raw, hraw⟩ := Option.isSome_iff_exists.1 h
  obtain ⟨ari, hari, -⟩ := Option.bind_eq_some_iff.1 hraw
  exact HashMap.mem_of_lookup hari

theorem held_of_moves (h : ((t.moves ms).held p n).isSome) :
    (t.held p n).isSome ∨ ∃ m ∈ ms, m.hears p := by
  induction ms generalizing t with
  | nil => exact .inl h
  | cons m ms ih =>
    rcases ih (t := t.move m) h with h | ⟨m', hm', hp⟩
    · exact (held_of_move h).imp id fun hp => ⟨m, List.mem_cons_self .., hp⟩
    · exact .inr ⟨m', List.mem_cons_of_mem _ hm', hp⟩

end Tables

namespace DaemonState

variable {s : DaemonState} {e : Event} {q : IpAddr} {reported : Bool}

/-! ## The end of a session -/

theorem handled_moves_eq (s : DaemonState) (q : IpAddr) (reason : TerminationReason)
    (family : AfiSafi) :
    s.handled_moves (A := A) q reason family
      = (if s.enters_helper q reason then helper_moves q (s.gr_covers q family)
        else [.Clear q, .Leave q]) ++ if decide (q ∈ s.pending_removal ∧ q ∈ s.adj_ribs_in)
          then [.Forget q] else [] := by
  unfold handled_moves terminated_moves
  rw [enter_gr_unnoted]
  simp only [decide_eq_true_eq]
  rfl

theorem peer_of_handled {reason : TerminationReason} {family : AfiSafi} {m : Move A}
    (hm : m ∈ s.handled_moves q reason family) : m.peer? = some q := by
  rw [handled_moves_eq] at hm
  unfold helper_moves at hm
  split_ifs at hm <;>
    simp only [List.mem_append, List.mem_cons, List.not_mem_nil, or_false] at hm <;>
    grind [Move.peer?]

theorem peer_of_eor {t : Tables A} {m : Move A} (hm : m ∈ eor_moves t q) : m.peer? = some q := by
  unfold eor_moves at hm
  split_ifs at hm <;> simp only [List.mem_cons, List.not_mem_nil, or_false] at hm <;>
    grind [Move.peer?]

/-! ## The moves of an event

The families differ in what they read out of messages and operator calls, and in that a session
that comes up gets a new IPv6 Adj-RIB-In. `MovesOf` says the rest for both. -/

/-- The move changes no Adj-RIB-In and no stale set. -/
def judges : Move A → Prop
  | .Reapply .. | .Unoriginate _ | .Reselect | .SetOracle _ | .AttachKernel => True
  | _ => False

section

variable (s : DaemonState) (t : Tables A) (family : AfiSafi) (anew : Bool)
  (reads : ImportEnv → UpdateMessage → List (ImportOp A)) (routes : Event → List (Route A))

/-- The moves an event can come to in a family, whose tables are `t`. -/
inductive MovesOf : Event → List (Move A) → Prop
  | nothing (e : Event) : MovesOf e []
  | up (clk info) {ip : IpAddr} {m} (h : m = .MarkStale ip ∨ anew = true ∧ m = .NewAdjRibIn ip) :
    MovesOf (.Session clk ip (.Established info)) [m]
  | down (clk) (ip : IpAddr) (reason) :
    MovesOf (.Session clk ip (.Terminated reason)) (s.handled_moves ip reason family)
  | marker (clk) (ip : IpAddr) (msg) :
    MovesOf (.Session clk ip (.RouteUpdate msg)) (eor_moves t ip)
  | message (clk msg) {ip : IpAddr} {msg'} (hconf : s.Configured ip)
      (hsame : UpdateMessage.SamePrefixes msg msg') (policy rtr env refreshed) (reported : Bool) :
      MovesOf (.Session clk ip (.RouteUpdate msg))
        [.Hear ip policy rtr (reads env msg') refreshed reported]
  | expiry (clk) : MovesOf (.GrDeadlines clk) (expiry_moves (s.expired clk.instant))
  | add (tx) {peer : PeerConfig} (h : peer.address ∉ s.adj_ribs_in) :
    MovesOf (.AddPeer peer tx) [.NewAdjRibIn peer.address]
  | originate (e : Event) (reported : Bool) : MovesOf e ((routes e).map (.Originate · reported))
  | judge (e : Event) {ms} (h : ∀ m ∈ ms, judges m) : MovesOf e ms

end

/-- The IPv4 routes an operator call originates. -/
def originated_v4 : Event → List (Route Ipv4Addr)
  | .OriginateRoutes _ routes => routes
  | _ => []

def originated_v6 : Event → List (Route Ipv6Addr)
  | .OriginateRoutesV6 routes => routes
  | _ => []

theorem judges_reevaluate {policies : HashMap IpAddr (Policy A)} {rtr : RtrHandle A} {m : Move A}
    (hm : m ∈ s.reevaluate_moves policies rtr q) : judges m := by
  obtain ⟨-, rfl⟩ := mem_reevaluate_moves.1 hm
  trivial

/-- Event by event; a family without moves for an event is under `judge`. -/
theorem movesOf_v4 (s : DaemonState) (e : Event) :
    MovesOf s s.tables_v4 .IPV4_UNICAST false intake_v4 originated_v4 e (s.moves_v4 e) := by
  cases e with
  | Session clk q event =>
    cases event with
    | Established info =>
      simp only [moves_v4, session_moves_v4, established_moves_v4]
      split_ifs
      · exact .nothing _
      · exact .up _ _ (.inl rfl)
      · exact .nothing _
    | Terminated reason => exact .down ..
    | RouteUpdate msg =>
      simp only [moves_v4, session_moves_v4, update_moves_v4]
      split_ifs
      · exact .marker ..
      · exact .nothing _
      · cases hrr : s.rr_inbound q msg with
        | none => exact .nothing _
        | some msg' =>
          dsimp only [message_moves_v4]
          split_ifs with hconf
          · exact .message _ _ hconf (samePrefixes_rr_inbound hrr) ..
          · exact .nothing _
  | GrDeadlines clk => exact .expiry clk
  | AddPeer peer tx =>
    simp only [moves_v4]
    split_ifs with hin
    · exact .nothing _
    · exact .add _ hin
  | OriginateRoutes clk routes => exact .originate (.OriginateRoutes clk routes) false
  | SetImportDefault clk ip action =>
    simp only [moves_v4]
    split_ifs
    · exact .judge _ fun m hm => judges_reevaluate hm
    · exact .nothing _
  | ReevaluateImport clk =>
    refine .judge _ fun m hm => ?_
    obtain ⟨ip, -, hm⟩ := List.mem_flatMap.1 hm
    exact judges_reevaluate hm
  | _ => exact .judge _ (by simp [moves_v4, judges])

theorem movesOf_v6 (s : DaemonState) (e : Event) :
    MovesOf s s.tables_v6 .IPV6_UNICAST true intake_v6 originated_v6 e (s.moves_v6 e) := by
  cases e with
  | Session clk q event =>
    cases event with
    | Established info =>
      simp only [moves_v6, session_moves_v6, established_moves_v6]
      split_ifs
      · exact .nothing _
      · exact .up _ _ (.inl rfl)
      · exact .up _ _ (.inr ⟨rfl, rfl⟩)
    | Terminated reason => exact .down ..
    | RouteUpdate msg =>
      simp only [moves_v6, session_moves_v6, update_moves_v6]
      split_ifs
      · exact .nothing _
      · exact .marker ..
      · cases hrr : s.rr_inbound q msg with
        | none => exact .nothing _
        | some msg' =>
          dsimp only [message_moves_v6]
          split_ifs with hconf
          · exact .message _ _ hconf (samePrefixes_rr_inbound hrr) ..
          · exact .nothing _
  | GrDeadlines clk => exact .expiry clk
  | AddPeer peer tx =>
    simp only [moves_v6]
    split_ifs with hin
    · exact .nothing _
    · exact .add _ hin
  | OriginateRoutesV6 routes => exact .originate (.OriginateRoutesV6 routes) true
  | SetImportDefault clk ip action =>
    simp only [moves_v6]
    split_ifs
    · exact .judge _ fun m hm => judges_reevaluate hm
    · exact .nothing _
  | ReevaluateImport clk =>
    refine .judge _ fun m hm => ?_
    obtain ⟨ip, -, hm⟩ := List.mem_flatMap.1 hm
    exact judges_reevaluate hm
  | _ => exact .judge _ (by simp [moves_v6, judges])

section

variable {t : Tables A} {family : AfiSafi} {anew : Bool}
  {reads : ImportEnv → UpdateMessage → List (ImportOp A)} {routes : Event → List (Route A)}
  {ms : List (Move A)} {p : IpAddr}

theorem MovesOf.hear (h : MovesOf s t family anew reads routes e ms) {policy : Policy A}
    {rtr : RtrHandle A} {ops : List (ImportOp A)} {refreshed : List (Nlri A)}
    (hm : .Hear q policy rtr ops refreshed reported ∈ ms) :
    s.Configured q ∧ ms = [.Hear q policy rtr ops refreshed reported] ∧
      ∃ env msg', ops = reads env msg' ∧
        ∃ clk msg, e = .Session clk q (.RouteUpdate msg) ∧ msg.SamePrefixes msg' := by
  cases h with
  | message clk msg hconf hsame =>
    cases List.mem_singleton.1 hm
    exact ⟨hconf, rfl, _, _, rfl, _, _, rfl, hsame⟩
  | judge e h => exact (h _ hm).elim
  | up clk info h =>
    rcases h with rfl | ⟨-, rfl⟩ <;> cases List.mem_singleton.1 hm
  | down clk q' reason =>
    simp only [handled_moves, terminated_moves, helper_moves] at hm
    split_ifs at hm <;> simp at hm
  | _ => simp [eor_moves, expiry_moves] at hm

theorem MovesOf.forget (h : MovesOf s t family anew reads routes e ms) (hm : .Forget p ∈ ms) :
    ∃ clk reason, e = .Session clk p (.Terminated reason) ∧
      p ∈ s.pending_removal ∧ p ∈ s.adj_ribs_in := by
  cases h with
  | judge e h => exact (h _ hm).elim
  | up clk info h =>
    rcases h with rfl | ⟨-, rfl⟩ <;> cases List.mem_singleton.1 hm
  | down clk q' reason =>
    obtain rfl : p = q' := Option.some.inj (peer_of_handled hm)
    refine ⟨clk, reason, rfl, ?_⟩
    by_contra hrem
    rw [handled_moves, if_neg hrem, terminated_moves, helper_moves] at hm
    split_ifs at hm <;> simp at hm
  | _ => simp [eor_moves, expiry_moves] at hm

end

/-! ## Peers that are there -/

/-- The IPv4 Adj-RIBs-In are those of the configured peers: a peer that announces IPv6 routes
has one, and loses both at once. -/
theorem known_moves {t : Tables Ipv4Addr} {u : Tables Ipv6Addr} {ms : List (Move Ipv4Addr)}
    {ns : List (Move Ipv6Addr)} {p : IpAddr} {n : Nlri Ipv6Addr}
    (h : (u.held p n).isSome → p ∈ t.adj_ribs_in)
    (hhear : ∀ m ∈ ns, m.hears p → p ∈ t.adj_ribs_in) (hforget : ∀ m ∈ ms, m ≠ .Forget p) :
    ((u.moves ns).held p n).isSome → p ∈ (t.moves ms).adj_ribs_in := by
  intro hsome
  refine Tables.mem_adj_ribs_in_moves hforget ?_
  rcases Tables.held_of_moves hsome with hold | ⟨m, hm, hp⟩
  · exact h hold
  · exact hhear m hm hp

theorem known_of_hears {p : IpAddr} {m : Move Ipv6Addr} (hm : m ∈ s.moves_v6 e) (hp : m.hears p) :
    p ∈ s.adj_ribs_in := by
  cases m with
  | Hear q policy rtr ops refreshed reported =>
    obtain rfl : q = p := hp
    exact ((s.movesOf_v6 e).hear hm).1.2.2
  | _ => exact hp.elim

/-- A peer gets an IPv4 Adj-RIB-In when it is added, and its IPv6 one with it. -/
theorem new_mem_v4 {p : IpAddr} (h : .NewAdjRibIn p ∈ s.moves_v4 e) :
    s.moves_v6 e = [.NewAdjRibIn p] := by
  have hof := s.movesOf_v4 e
  generalize s.moves_v4 e = ms at h hof
  cases hof with
  | add tx hin =>
    cases List.mem_singleton.1 h
    exact if_neg hin
  | judge e hjudges => exact (hjudges _ h).elim
  | up clk info hm =>
    rcases hm with rfl | ⟨hanew, -⟩
    · cases List.mem_singleton.1 h
    · cases hanew
  | down clk q reason =>
    simp only [handled_moves, terminated_moves, helper_moves] at h
    split_ifs at h <;> simp at h
  | _ => simp [eor_moves, expiry_moves] at h

theorem paired_step (hs : ∀ p ∈ s.adj_ribs_in, p ∈ s.adj_ribs_in_v6) (e : Event) (p : IpAddr)
    (hp : p ∈ (s.step e).adj_ribs_in) : p ∈ (s.step e).adj_ribs_in_v6 := by
  obtain ⟨h4, h6⟩ := s.tables_step e
  have hin4 : (s.step e).adj_ribs_in = (s.tables_v4.moves (s.moves_v4 e)).adj_ribs_in :=
    congrArg Tables.adj_ribs_in h4
  have hin6 : (s.step e).adj_ribs_in_v6 = (s.tables_v6.moves (s.moves_v6 e)).adj_ribs_in :=
    congrArg Tables.adj_ribs_in h6
  rw [hin4] at hp
  rw [hin6]
  by_cases hforget : .Forget p ∈ s.moves_v4 e
  · obtain ⟨clk, reason, rfl, hrem⟩ := (s.movesOf_v4 e).forget hforget
    have hmoves : s.moves_v4 (.Session clk p (.Terminated reason))
        = (s.unnoted p).terminated_moves p reason .IPV4_UNICAST ++ [.Forget p] := by
      change s.handled_moves p reason .IPV4_UNICAST = _
      rw [handled_moves, if_pos hrem]
    rw [hmoves, Tables.moves_append] at hp
    exact absurd rfl (AList.mem_erase.1 hp).1
  · rcases Tables.mem_adj_ribs_in_of_moves hp with hp | hp
    · refine Tables.mem_adj_ribs_in_moves (fun m hm heq => hforget ?_) (hs p hp)
      obtain ⟨clk, reason, rfl, hrem⟩ := (s.movesOf_v6 e).forget (heq ▸ hm)
      change _ ∈ s.handled_moves p reason .IPV4_UNICAST
      rw [handled_moves, if_pos hrem]
      exact List.mem_append_right _ (List.mem_singleton_self _)
    · rw [new_mem_v4 hp]
      exact (AList.mem_insert _).2 (.inl rfl)

theorem known_step (hs : ∀ p n, (s.tables_v6.held p n).isSome → p ∈ s.adj_ribs_in) (e : Event)
    (p : IpAddr) (n : Nlri Ipv6Addr) :
    ((s.step e).tables_v6.held p n).isSome → p ∈ (s.step e).adj_ribs_in := by
  obtain ⟨h4, h6⟩ := s.tables_step e
  have hin : (s.step e).adj_ribs_in = (s.tables_v4.moves (s.moves_v4 e)).adj_ribs_in :=
    congrArg Tables.adj_ribs_in h4
  rw [h6, hin]
  by_cases hforget : .Forget p ∈ s.moves_v4 e
  · obtain ⟨clk, reason, rfl, hrem⟩ := (s.movesOf_v4 e).forget hforget
    intro hsome
    have hmoves : s.moves_v6 (.Session clk p (.Terminated reason))
        = (s.unnoted p).terminated_moves p reason .IPV6_UNICAST ++ [.Forget p] := by
      change s.handled_moves p reason .IPV6_UNICAST = _
      rw [handled_moves, if_pos hrem]
    rw [hmoves, Tables.moves_append] at hsome
    change ((Tables.move _ (.Forget p)).held p n).isSome at hsome
    rw [Tables.held_forget, if_pos rfl] at hsome
    cases hsome
  · exact known_moves (hs p n) (fun m hm hp => known_of_hears hm hp)
      fun m hm heq => hforget (heq ▸ hm)

theorem paired_new (local_as : Asn) (local_bgp_id : Ipv4Addr) (local_ipv6 : Option Ipv6Addr)
    (cluster_id : Option UInt32) (confederation_id : Option Asn) (peers : List PeerConfig)
    (update_senders : HashMap IpAddr UpdateSender) (caps : List Capability) :
    let s := new local_as local_bgp_id local_ipv6 cluster_id confederation_id peers update_senders
      caps
    ∀ p ∈ s.adj_ribs_in, p ∈ s.adj_ribs_in_v6 := by
  intro s p hp
  have hkeys := HashMap.mem_collect.1 hp
  refine HashMap.mem_collect.2 ?_
  rw [List.map_map] at hkeys ⊢
  exact hkeys

end DaemonState

end Pathvector
