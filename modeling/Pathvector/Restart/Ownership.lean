/-
# Whose the candidates are

Every candidate of the Loc-RIB should have an owner: the daemon itself, a peer that is established,
or a peer whose restart window is open. The end of a session takes the candidates away or opens a
window, and the end of a window takes them away. What nothing looks at is a message: it is
taken in from every configured peer, established or not. So a peer that is held back after a
prefix limit, whose Established event is refused, still gets its routes into the Loc-RIB.

`adds` says which moves add candidates, `KeepsOwners` that only owners do.
-/
import Pathvector.Lib.Run
import Pathvector.Restart.Windows
import Pathvector.Tables.Peers

set_option autoImplicit false

namespace Pathvector

variable {A : Type} [IpAddress A] [DecidableEq A]

namespace Tables

variable {n : Nlri A} {t : Tables A} {p : IpAddr}

/-- The move puts a candidate into the Loc-RIB. -/
def adds (t : Tables A) : Move A → Bool
  | .Hear _ policy rtr ops _ _ =>
    (ops.filterMap (ImportOp.rib_op policy rtr)).any (·.route?.isSome)
  | .Restale peer => !(t.announced peer).isEmpty
  | .Reapply peer policy rtr =>
    (t.announced peer).any fun raw => (policy.reapplied rtr raw).route?.isSome
  | .Originate _ _ => true
  | _ => false

theorem candidate_of_batch {rib : LocRib A} {peer q : PeerId} {ops : List (RibOp A)}
    (h : (rib.candidate_of_after peer ops n q).isSome) :
    (rib.candidate n q).isSome ∨ q = peer ∧ ops.any (·.route?.isSome) = true := by
  unfold LocRib.candidate_of_after at h
  split at h
  · next hq =>
    unfold LocRib.candidate_after at h
    split at h
    · next op hlast =>
      refine .inr ⟨hq, List.any_eq_true.2 ⟨op, ?_, h⟩⟩
      exact (List.mem_filter.1 (List.mem_of_getLast? hlast)).1
    · subst hq
      exact .inl h
  · exact .inl h

/-- A candidate was there before, or the move is the peer's own and one that adds. -/
theorem candidate_of_move {m : Move A} (h : ((t.move m).loc_rib.candidate n p).isSome) :
    (t.loc_rib.candidate n p).isSome ∨ m.peer? = some p ∧ t.adds m = true := by
  by_cases hp : m.peer? = some p
  · cases m with
    | Hear q policy rtr ops refreshed reported =>
      rw [candidate_hear] at h
      exact (candidate_of_batch h).imp id fun h => ⟨hp, h.2⟩
    | Prune q nlris =>
      rw [candidate_prune] at h
      split at h
      · cases h
      · exact .inl h
    | Leave q =>
      cases hp
      rw [candidate_leave, if_pos rfl] at h
      cases h
    | Restale q =>
      cases hp
      rw [candidate_restale, if_pos rfl] at h
      cases hheld : t.held p n with
      | none =>
        rw [hheld] at h
        exact .inl h
      | some raw =>
        have hmem : raw ∈ t.announced p := by
          rw [mem_announced_iff, t.nlri_of_held p n hheld]
          exact hheld
        refine .inr ⟨rfl, ?_⟩
        change (!(t.announced p).isEmpty) = true
        rw [List.isEmpty_eq_false_iff.2 (List.ne_nil_of_mem hmem)]
        rfl
    | Reapply q policy rtr =>
      cases hp
      rw [candidate_reapply, if_pos rfl] at h
      cases hheld : t.held p n with
      | none =>
        rw [hheld] at h
        exact .inl h
      | some raw =>
        rw [hheld] at h
        refine .inr ⟨rfl, List.any_eq_true.2 ⟨raw, ?_, h⟩⟩
        rw [mem_announced_iff, t.nlri_of_held p n hheld]
        exact hheld
    | Originate route reported => exact .inr ⟨hp, rfl⟩
    | Unoriginate nlri =>
      rw [candidate_unoriginate] at h
      split at h
      · cases h
      · exact .inl h
    | Reselect | SetOracle | AttachKernel => cases hp
    | _ => exact .inl h
  · rw [(sameEntries_move t m hp).candidate] at h
    exact .inl h

theorem candidate_of_moves {P : IpAddr → Prop} {ms : List (Move A)}
    (hms : Machine.Guarded move (fun t m => t.adds m = true → ∀ p ∈ m.peer?, P p) t ms)
    (h : ((t.moves ms).loc_rib.candidate n p).isSome) : (t.loc_rib.candidate n p).isSome ∨ P p := by
  induction ms generalizing t with
  | nil => exact .inl h
  | cons m ms ih =>
    rcases ih hms.2 h with h | h
    · exact (candidate_of_move h).imp id fun h => hms.1 h.2 p h.1
    · exact .inr h

theorem candidate_of_expiry {peers : List IpAddr}
    (h : ((t.moves (DaemonState.expiry_moves peers)).loc_rib.candidate n p).isSome) :
    p ∉ peers ∧ (t.loc_rib.candidate n p).isSome := by
  induction peers generalizing t with
  | nil => exact ⟨List.not_mem_nil, h⟩
  | cons q peers ih =>
    have hcons : t.moves (DaemonState.expiry_moves (q :: peers))
        = (((t.move (.DropStale q)).move (.Clear q)).move (.Leave q)).moves
          (DaemonState.expiry_moves peers) := moves_append ..
    obtain ⟨hnot, hsome⟩ := ih h
    rw [candidate_leave] at hsome
    split at hsome
    · cases hsome
    · next hq => exact ⟨by simp [hq, hnot], hsome⟩

end Tables

namespace DaemonState

variable {s : DaemonState} {reason : TerminationReason} {q : IpAddr} {t : Tables A} {e : Event}

/-! ## Owners -/

/-- The peer may have candidates. -/
def Owner (s : DaemonState) (p : IpAddr) : Prop :=
  p = LOCAL_ORIGIN_PEER ∨ p ∈ s.rib.peer_types ∨ p ∈ s.gr.deadlines
deriving Decidable

/-- **Loc-RIB ownership.** Every candidate of either family has an owner. -/
def CandidatesOwned (s : DaemonState) : Prop :=
  (∀ n p, (s.rib.loc_rib.candidate n p).isSome → s.Owner p) ∧
    ∀ n p, (s.rib.loc_rib_v6.candidate n p).isSome → s.Owner p

/-- The moves add candidates for owners only. -/
def AddsForOwners (s : DaemonState) (t : Tables A) (ms : List (Move A)) : Prop :=
  Machine.Guarded Tables.move (fun t m => t.adds m = true → ∀ p ∈ m.peer?, s.Owner p) t ms
deriving Decidable

/-- What an event must meet. -/
def KeepsOwners (s : DaemonState) : Event → Prop
  -- a peer that is taken out while its window would open leaves nothing behind
  | .Session _ p (.Terminated reason) => s.enters_helper p reason = true →
      p ∈ s.pending_removal → p = LOCAL_ORIGIN_PEER ∨
        (s.rib.loc_rib.prefixes_of p = [] ∧
            (s.gr_covers p .IPV4_UNICAST = true → s.tables_v4.announced p = [])) ∧
          s.rib.loc_rib_v6.prefixes_of p = [] ∧
            (s.gr_covers p .IPV6_UNICAST = true → s.tables_v6.announced p = [])
  | .Session _ _ (.Established _) | .GrDeadlines _ => True
  | e => s.AddsForOwners s.tables_v4 (s.moves_v4 e) ∧ s.AddsForOwners s.tables_v6 (s.moves_v6 e)

/-! ## Steps -/

theorem SameWindows.owner {s' : DaemonState} (h : SameWindows s s') (p : IpAddr) :
    s'.Owner p ↔ s.Owner p := by
  unfold Owner
  rw [h.up, h.deadlines]

/-- The candidates are looked at as the moves leave them. -/
theorem Moved.owned {s' : DaemonState} {ms : List (Move Ipv4Addr)} {ms' : List (Move Ipv6Addr)}
    (h : Moved s s' ms ms')
    (h4 : ∀ n p, ((s.tables_v4.moves ms).loc_rib.candidate n p).isSome → s'.Owner p)
    (h6 : ∀ n p, ((s.tables_v6.moves ms').loc_rib.candidate n p).isSome → s'.Owner p) :
    s'.CandidatesOwned := by
  rw [← h.1] at h4
  rw [← h.2] at h6
  exact ⟨h4, h6⟩

theorem owned_of_sameWindows (hs : s.CandidatesOwned) (hw : SameWindows s (s.step e))
    (h4 : s.AddsForOwners s.tables_v4 (s.moves_v4 e))
    (h6 : s.AddsForOwners s.tables_v6 (s.moves_v6 e)) : (s.step e).CandidatesOwned := by
  refine (s.tables_step e).owned (fun n p h => (hw.owner p).2 ?_) (fun n p h => (hw.owner p).2 ?_)
  · exact (Tables.candidate_of_moves h4 h).elim (hs.1 n p) id
  · exact (Tables.candidate_of_moves h6 h).elim (hs.2 n p) id

theorem owned_established (hs : s.CandidatesOwned) (clk : Clock) (q : IpAddr) (info : SessionInfo) :
    (s.step (.Session clk q (.Established info))).CandidatesOwned := by
  have howner : ∀ p, s.Owner p → (s.step (.Session clk q (.Established info))).Owner p := by
    intro p hp
    change Owner (if q ∈ s.max_prefix_idle then (s, none) else _).1 p
    split
    · exact hp
    · obtain ⟨hd, hup, -⟩ := s.windows_on_established q info.peer_bgp_id info.peer_type
        info.peer_capabilities info.local_addr
      unfold Owner
      rw [hd, hup, AList.mem_insert, AList.mem_erase]
      by_cases hq : p = q
      · exact .inr (.inl (.inl hq))
      · exact hp.imp id (Or.imp .inr fun h => ⟨hq, h⟩)
  -- no move of the event touches a candidate
  refine (s.tables_step _).owned (fun n p h => howner p (hs.1 n p ?_))
    (fun n p h => howner p (hs.2 n p ?_))
  · simp only [moves_v4, session_moves_v4, established_moves_v4] at h
    split_ifs at h <;> exact h
  · simp only [moves_v6, session_moves_v6, established_moves_v6] at h
    split_ifs at h <;> exact h

theorem candidate_of_handled {family : AfiSafi} {n : Nlri A} {p : IpAddr}
    (h : ((t.moves (s.handled_moves q reason family)).loc_rib.candidate n p).isSome) :
    if p = q then s.enters_helper q reason = true ∧ ((t.loc_rib.candidate n q).isSome ∨
        s.gr_covers q family = true ∧ (t.held q n).isSome)
      else (t.loc_rib.candidate n p).isSome := by
  rw [handled_moves_eq, Tables.moves_append] at h
  -- taking the peer out leaves the candidates
  have hforget : ∀ (u : Tables A) (b : Bool),
      (u.moves (if b then [.Forget q] else [])).loc_rib = u.loc_rib := by
    intro u b
    cases b <;> rfl
  rw [hforget] at h
  by_cases hgr : s.enters_helper q reason = true
  · rw [if_pos hgr] at h
    unfold helper_moves at h
    by_cases hcov : s.gr_covers q family = true
    · rw [if_pos hcov] at h
      change ((t.move (.Restale q)).loc_rib.candidate n p).isSome at h
      rw [Tables.candidate_restale] at h
      split
      · next hp =>
        rw [if_pos hp, Option.isSome_or, Option.isSome_map, Bool.or_eq_true] at h
        refine ⟨hgr, h.symm.imp (fun h => hp ▸ h) fun h => ⟨hcov, h⟩⟩
      · next hp => rwa [if_neg hp] at h
    · rw [if_neg hcov] at h
      split
      · next hp => exact ⟨hgr, .inl (hp ▸ h)⟩
      · exact h
  · rw [if_neg hgr] at h
    change (((t.move (.Clear q)).move (.Leave q)).loc_rib.candidate n p).isSome at h
    rw [Tables.candidate_leave] at h
    split
    · next hp =>
      rw [if_pos hp] at h
      cases h
    · next hp => rwa [if_neg hp] at h

/-- Nobody owns what is not there: a peer that is taken out has no candidate left. -/
theorem gone_of_empty {covered : Bool}
    (h : t.loc_rib.prefixes_of q = [] ∧ (covered = true → t.announced q = [])) (n : Nlri A) :
    ¬((t.loc_rib.candidate n q).isSome ∨ covered = true ∧ (t.held q n).isSome) := by
  rintro (hcand | ⟨hcov, hheld⟩)
  · have hmem := (t.loc_rib.mem_prefixes_of q n).2 hcand
    rw [h.1] at hmem
    cases hmem
  · obtain ⟨raw, hraw⟩ := Option.isSome_iff_exists.1 hheld
    have hmem : raw ∈ t.announced q := by
      rw [Tables.mem_announced_iff, t.nlri_of_held q n hraw]
      exact hraw
    rw [h.2 hcov] at hmem
    cases hmem

/-- A session that ends takes its candidates along, or leaves an open window. -/
theorem owned_terminated (hs : s.CandidatesOwned) {clk : Clock}
    (hok : s.KeepsOwners (.Session clk q (.Terminated reason))) :
    (s.step (.Session clk q (.Terminated reason))).CandidatesOwned := by
  obtain ⟨hdq, hdo, -, -, hup⟩ := s.windows_handle_terminated clk q reason
  rw [enter_gr_unnoted] at hdq
  change CandidatesOwned (s.handle_terminated clk q reason)
  have hother : ∀ p, p ≠ q → s.Owner p → (s.handle_terminated clk q reason).Owner p := by
    intro p hp h
    exact h.imp id (Or.imp (fun h => (hup p).2 ⟨hp, h⟩) (hdo p hp).2)
  have hself : s.enters_helper q reason = true → q ∉ s.pending_removal →
      (s.handle_terminated clk q reason).Owner q :=
    fun hgr hrem => .inr (.inr (hdq.2 ⟨fun h => hrem h.1, .inl hgr⟩))
  refine (s.moved_handle_terminated clk q reason).owned (fun n p h => ?_) (fun n p h => ?_)
  · have hcand := candidate_of_handled h
    split at hcand
    · next hp =>
      subst hp
      by_cases hrem : p ∈ s.pending_removal
      · rcases hok hcand.1 hrem with hlocal | hempty
        · exact .inl hlocal
        · exact absurd hcand.2 (gone_of_empty hempty.1 n)
      · exact hself hcand.1 hrem
    · next hp => exact hother p hp (hs.1 n p hcand)
  · have hcand := candidate_of_handled h
    split at hcand
    · next hp =>
      subst hp
      by_cases hrem : p ∈ s.pending_removal
      · rcases hok hcand.1 hrem with hlocal | hempty
        · exact .inl hlocal
        · exact absurd hcand.2 (gone_of_empty ⟨hempty.2.1, hempty.2.2⟩ n)
      · exact hself hcand.1 hrem
    · next hp => exact hother p hp (hs.2 n p hcand)

theorem owned_gr_deadlines (hs : s.CandidatesOwned) (clk : Clock) :
    (s.step (.GrDeadlines clk)).CandidatesOwned := by
  have hw := s.sameWindows_on_gr_deadlines clk
  have howner : ∀ p, p ∉ s.expired clk.instant → s.Owner p → (s.on_gr_deadlines clk).Owner p := by
    intro p hp h
    refine (hw.owner p).2 (h.imp id (Or.imp id fun h => ?_))
    exact (HashMap.mem_erase_all (s.expired clk.instant) s.gr.deadlines).2 ⟨h, hp⟩
  refine (s.moved_on_gr_deadlines clk).owned (fun n p h => ?_) (fun n p h => ?_)
  · obtain ⟨hp, h⟩ := Tables.candidate_of_expiry h
    exact howner p hp (hs.1 n p h)
  · obtain ⟨hp, h⟩ := Tables.candidate_of_expiry h
    exact howner p hp (hs.2 n p h)

theorem owned_step (hs : s.CandidatesOwned) (hok : s.KeepsOwners e) :
    (s.step e).CandidatesOwned := by
  by_cases hkeep : e.keeps_windows = true
  · have hw := s.sameWindows_step hkeep
    cases e with
    | Session clk q event =>
      cases event with
      | Established info => cases hkeep
      | Terminated reason => cases hkeep
      | RouteUpdate msg => exact owned_of_sameWindows hs hw hok.1 hok.2
    | GrDeadlines clk => cases hkeep
    | _ => exact owned_of_sameWindows hs hw hok.1 hok.2
  · cases e with
    | Session clk q event =>
      cases event with
      | Established info => exact owned_established hs clk q info
      | Terminated reason => exact owned_terminated hs hok
      | RouteUpdate msg => exact absurd rfl hkeep
    | GrDeadlines clk => exact owned_gr_deadlines hs clk
    | _ => exact absurd rfl hkeep

instance (s : DaemonState) (e : Event) : Decidable (s.KeepsOwners e) := by
  induction e using Event.casesOn with
  | Session _ _ event =>
    induction event using SessionEvent.casesOn <;> dsimp only [KeepsOwners] <;> infer_instance
  | _ => dsimp only [KeepsOwners]; infer_instance

/-- **Owners over runs.** -/
theorem candidates_owned (local_as : Asn) (local_bgp_id : Ipv4Addr) (local_ipv6 : Option Ipv6Addr)
    (cluster_id : Option UInt32) (confederation_id : Option Asn) (peers : List PeerConfig)
    (update_senders : HashMap IpAddr UpdateSender) (caps : List Capability) (events : List Event)
    (hrun : Machine.Guarded step KeepsOwners (new local_as local_bgp_id local_ipv6 cluster_id
      confederation_id peers update_senders caps) events) :
    ((new local_as local_bgp_id local_ipv6 cluster_id confederation_id peers update_senders
      caps).run events).CandidatesOwned := by
  have hstep : ∀ s e, KeepsOwners s e → CandidatesOwned s → (s.step e).CandidatesOwned :=
    fun s e hok hs => owned_step hs hok
  refine Machine.inv_of_guarded hstep ⟨fun n p h => ?_, fun n p h => ?_⟩ hrun
  · cases h
  · cases h

end DaemonState

/-! ## A peer that is held back -/

/-- 10.0.0.2 may announce one prefix, and is held back for a minute if it announces more. -/
def limited_peer : PeerConfig :=
  { open_peer 2 65002 with max_prefixes_v4 := some 1, max_prefixes_restart := some 60 }

/-- It keeps to that, and its session breaks with a restart window open. -/
theorem restarted_owned :
    Machine.Guarded DaemonState.step DaemonState.KeepsOwners (small_daemon [limited_peer] none [])
        [session_up 2 .External [.GracefulRestart 0 120 [⟨.IPV4_UNICAST, true⟩]],
          update_from 2 0 (announcement [65002] [Nlri.v4 10 2 0 0 16]),
          .Session ⟨0, 0⟩ (peer_addr 2) (.Terminated .Unclean)] ∧
      ((small_daemon [limited_peer] none []).run
        [session_up 2 .External [.GracefulRestart 0 120 [⟨.IPV4_UNICAST, true⟩]],
          update_from 2 0 (announcement [65002] [Nlri.v4 10 2 0 0 16]),
          .Session ⟨0, 0⟩ (peer_addr 2) (.Terminated .Unclean)]).CandidatesOwned := by
  have hrun : Machine.Guarded DaemonState.step DaemonState.KeepsOwners
      (small_daemon [limited_peer] none [])
      [session_up 2 .External [.GracefulRestart 0 120 [⟨.IPV4_UNICAST, true⟩]],
        update_from 2 0 (announcement [65002] [Nlri.v4 10 2 0 0 16]),
        .Session ⟨0, 0⟩ (peer_addr 2) (.Terminated .Unclean)] := by
    decide +kernel
  exact ⟨hrun, DaemonState.candidates_owned _ _ _ _ _ _ _ _ _ hrun⟩

/-- It announces two prefixes and is held back. The session comes up again, which the event loop
refuses, and a message comes in over it. -/
def refused_session : List Event :=
  [session_up 2 .External [],
    update_from 2 0 (announcement [65002] [Nlri.v4 10 2 0 0 16, Nlri.v4 10 3 0 0 16]),
    .Session ⟨0, 0⟩ (peer_addr 2) (.Terminated .OperatorStop), session_up 2 .External [],
    update_from 2 0 (announcement [65002] [Nlri.v4 10 2 0 0 16])]

theorem refused_session_owns :
    ((small_daemon [limited_peer] none []).run refused_session).Reachable ∧
      ¬((small_daemon [limited_peer] none []).run refused_session).CandidatesOwned := by
  refine ⟨reachable_small_daemon .., fun h => ?_⟩
  have howner := h.1 (Nlri.v4 10 2 0 0 16) (peer_addr 2) (by decide +kernel)
  revert howner
  decide +kernel

end Pathvector
