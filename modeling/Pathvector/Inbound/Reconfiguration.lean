/-
# Soft reconfiguration

`set_import_default` gives a peer's import policies a new default and judges the routes of its
Adj-RIBs-In again. Afterwards the candidates of the peer should be what its policy makes of the
routes it has announced, and the kernel layer should have heard of every change.

The loop differs from the import of a message in two points. It does not look for the BLACKHOLE
community, so that a route that was kept out of the Loc-RIB becomes a candidate. And it goes
through the Adj-RIB-In only: a candidate without a route there stays, whatever the policy.
-/
import Pathvector.Inbound.Downstream

set_option autoImplicit false

namespace Pathvector

section

variable {A : Type} [IpAddress A] [DecidableEq A]

/-- What a route of an Adj-RIB-In should come to in the Loc-RIB. -/
def Policy.installed (policy : Policy A) (rtr : RtrHandle A) (raw : Route A) : Option (Route A) :=
  if raw.is_blackhole then none
  else match policy.evaluate rtr raw with
    | (.Accept, route) => some route
    | _ => none

omit [DecidableEq A] in
theorem Policy.route_reapplied (policy : Policy A) (rtr : RtrHandle A) (raw : Route A) :
    (policy.reapplied rtr raw).route? = match policy.evaluate rtr raw with
      | (.Accept, route) => some route
      | _ => none := by
  unfold Policy.reapplied
  rcases policy.evaluate rtr raw with ⟨_ | _ | _, route⟩ <;> rfl

namespace Tables

variable {t : Tables A} {p : IpAddr} {policy : Policy A} {rtr : RtrHandle A}

/-- What the loop of `reapply_import_policy` returns. -/
def reapply_changes (t : Tables A) (p : IpAddr) (policy : Policy A) (rtr : RtrHandle A) :
    List (BestPathChange A) :=
  (reapply_import_policy p ((t.adj_ribs_in.lookup p).getD (AdjRibIn.new p)) t.loc_rib policy rtr
    t.oracle).2

/-- A family after a soft reconfiguration of a peer. -/
structure Reconfigured (t t' : Tables A) (p : IpAddr) (policy : Policy A) (rtr : RtrHandle A) :
    Prop where
  candidates : ∀ n, t'.loc_rib.candidate n p = (t.held p n).bind (policy.installed rtr)
  stale : ∀ n, ∀ raw ∈ t.held p n, ∀ r ∈ t'.loc_rib.candidate n p, r.stale = raw.stale
  others : ∀ q ≠ p, ∀ n, t'.loc_rib.candidate n q = t.loc_rib.candidate n q
  forwarded : t'.calls = t.calls.map (· ++ (t.reapply_changes p policy rtr).map .Apply)
  kernel : ∀ n, follow_all t.loc_rib.best (t.reapply_changes p policy rtr) n = t'.loc_rib.best n

/-- No candidate of the peer is without a route in its Adj-RIB-In, the policy accepts no route with
the BLACKHOLE community, and the reports of the loop leave no route behind. -/
structure Reconfigurable (t : Tables A) (p : IpAddr) (policy : Policy A) (rtr : RtrHandle A) :
    Prop where
  announced : ∀ n, (t.loc_rib.candidate n p).isSome → (t.held p n).isSome
  blackholes : ∀ n, ∀ raw ∈ t.held p n, raw.is_blackhole = true →
    (policy.evaluate rtr raw).1 ≠ .Accept
  kernel : DaemonState.KernelKept t.loc_rib p t.oracle true
    ((t.announced p).map (policy.reapplied rtr))

theorem reapply_changes_eq (t : Tables A) (p : IpAddr) (policy : Policy A) (rtr : RtrHandle A) :
    t.reapply_changes p policy rtr
      = (t.loc_rib.run_ops p t.oracle ((t.announced p).map (policy.reapplied rtr))).2 := by
  unfold reapply_changes announced stale_routes
  rw [DaemonState.reapply_import_policy_eq]
  cases t.adj_ribs_in.lookup p <;> rfl

theorem kernelKept_reapply_iff (policy : Policy A) (rtr : RtrHandle A)
    (hnet : ∀ n, (t.held p n).isSome → n.Canonical) :
    (∀ n, follow_all t.loc_rib.best (t.reapply_changes p policy rtr) n
        = (t.move (.Reapply p policy rtr)).loc_rib.best n) ↔
      DaemonState.KernelKept t.loc_rib p t.oracle true
        ((t.announced p).map (policy.reapplied rtr)) := by
  rw [reapply_changes_eq]
  refine DaemonState.kernelKept_iff (fun op hop => ?_) (fun _ => rfl)
    (DaemonState.followed_reports ..)
  obtain ⟨raw, hraw, rfl⟩ := List.mem_map.1 hop
  rw [nlri_reapplied]
  exact hnet _ (Option.isSome_of_eq_some ((t.mem_announced_iff p raw).1 hraw))

/-- The condition, checked at the prefixes that occur. -/
theorem reconfigurable_of_known (hnet : ∀ n, (t.held p n).isSome → n.Canonical)
    (hannounced : ∀ e ∈ t.loc_rib.candidates.keys, e.2 = p → (t.held p e.1).isSome)
    (hblackholes : ∀ raw ∈ t.announced p, raw.is_blackhole = true →
      (policy.evaluate rtr raw).1 ≠ .Accept)
    (hkernel : ∀ n ∈ (t.reapply_changes p policy rtr).filterMap BestPathChange.nlri?
        ++ DaemonState.known none t.loc_rib
        ++ DaemonState.known none (t.move (.Reapply p policy rtr)).loc_rib,
      follow_all t.loc_rib.best (t.reapply_changes p policy rtr) n
        = (t.move (.Reapply p policy rtr)).loc_rib.best n) : t.Reconfigurable p policy rtr where
  announced n hn := hannounced (n, p) (AList.mem_keys.1 (AList.lookup_isSome.1 hn)) rfl
  blackholes n raw hraw := by
    refine hblackholes raw ((t.mem_announced_iff p raw).2 ?_)
    rw [t.nlri_of_held p n hraw]
    exact hraw
  kernel := by
    refine (kernelKept_reapply_iff policy rtr hnet).1 fun n => ?_
    by_cases hn : n ∈ (t.reapply_changes p policy rtr).filterMap BestPathChange.nlri?
        ++ DaemonState.known none t.loc_rib
        ++ DaemonState.known none (t.move (.Reapply p policy rtr)).loc_rib
    · exact hkernel n hn
    · -- no report names the prefix, and neither table has a route for it
      rw [List.mem_append, List.mem_append, not_or, not_or] at hn
      rw [follow_all_of_not_named hn.1.1, LocRib.best_eq_best_entry, LocRib.best_eq_best_entry,
        DaemonState.best_entry_of_not_known hn.1.2, DaemonState.best_entry_of_not_known hn.2]

/-- **The loop over one Adj-RIB-In, exactly.** -/
theorem reconfigured_iff (hnet : ∀ n, (t.held p n).isSome → n.Canonical) :
    Reconfigured t (t.move (.Reapply p policy rtr)) p policy rtr ↔
      t.Reconfigurable p policy rtr := by
  have hkernel := kernelKept_reapply_iff policy rtr hnet
  have hcand := fun n => (t.candidate_reapply p p n policy rtr).trans (if_pos rfl)
  have hheld : ∀ n raw, t.held p n = some raw →
      (t.move (.Reapply p policy rtr)).loc_rib.candidate n p = match policy.evaluate rtr raw with
        | (.Accept, route) => some route
        | _ => none := by
    intro n raw hraw
    rw [hcand, hraw]
    exact policy.route_reapplied rtr raw
  have hgone : ∀ n, t.held p n = none →
      (t.move (.Reapply p policy rtr)).loc_rib.candidate n p = t.loc_rib.candidate n p := by
    intro n hn
    rw [hcand, hn]
  constructor
  · intro h
    refine ⟨fun n hn => ?_, fun n raw hraw hb hacc => ?_, hkernel.1 h.kernel⟩
    · by_contra hno
      rw [← hgone n (Option.not_isSome_iff_eq_none.1 hno), h.candidates n,
        Option.not_isSome_iff_eq_none.1 hno] at hn
      cases hn
    · have hafter := h.candidates n
      rw [hheld n raw hraw, Option.mem_def.1 hraw, Option.bind_some, Policy.installed,
        if_pos hb] at hafter
      generalize policy.evaluate rtr raw = d at hafter hacc
      obtain ⟨_, route⟩ := d
      cases hacc
      cases hafter
  · intro h
    refine ⟨fun n => ?_, fun n raw hraw r hr => ?_, fun q hq n => ?_, ?_, hkernel.2 h.kernel⟩
    · cases hraw : t.held p n with
      | none =>
        rw [hgone n hraw]
        refine Option.not_isSome_iff_eq_none.1 fun hn => ?_
        have hsome := h.announced n hn
        rw [hraw] at hsome
        cases hsome
      | some raw =>
        rw [hheld n raw hraw, Option.bind_some, Policy.installed]
        split
        · next route heq =>
          -- the loop has no BLACKHOLE branch, so a tagged route must be one the policy refuses
          have hb : ¬raw.is_blackhole = true := fun hb => h.blackholes n raw hraw hb (by rw [heq])
          rw [if_neg hb]
        · exact (ite_self _).symm
    · have hkeep := Policy.stale_evaluate rtr policy raw
      rw [hheld n raw hraw] at hr
      generalize policy.evaluate rtr raw = d at hr hkeep
      split at hr
      · cases hr
        exact hkeep
      · cases hr
    · exact (t.candidate_reapply p q n policy rtr).trans (if_neg hq)
    · rw [reapply_changes_eq]
      rfl

end Tables

end

namespace DaemonState

theorem Reachable.paired {s : DaemonState} (h : s.Reachable) :
    ∀ p ∈ s.adj_ribs_in, p ∈ s.adj_ribs_in_v6 := by
  obtain ⟨_, _, _, _, _, _, _, _, events, rfl⟩ := h
  exact List.foldl_invariant step (fun s => ∀ p ∈ s.adj_ribs_in, p ∈ s.adj_ribs_in_v6) events _
    (paired_new _ _ _ _ _ _ _ _) fun s e _ hs => paired_step hs e

theorem moves_set_import_default {s : DaemonState} (hs : s.Reachable) (clk : Clock) {p : IpAddr}
    (hp : s.Configured p) (action : DefaultAction) :
    let env := (s.with_import_default p action).env_of clk p
    (s.set_import_default clk p action).tables_v4
        = s.tables_v4.move (.Reapply p env.policy s.rpki_v4) ∧
      (s.set_import_default clk p action).tables_v6
        = s.tables_v6.move (.Reapply p env.policy_v6 s.rpki_v6) := by
  have hall : (s.with_import_default p action).Reevaluable p :=
    ⟨⟨hp.2.2, (mem_modify ..).2 hp.1⟩, hs.paired p hp.2.2, (mem_modify ..).2 hp.2.1⟩
  obtain ⟨h4, h6⟩ := moved_set_import_default s clk p action
  rw [if_pos hp.1, reevaluate_moves, if_pos hall] at h4 h6
  exact ⟨h4, h6⟩

/-- **Soft reconfiguration, exactly.** For a configured peer whose routes are in network form, as
they are after a run of such messages (`inNetworkForm_run`). -/
theorem set_import_default_exact_iff (s : DaemonState) (hs : s.Reachable) (clk : Clock) (p : IpAddr)
    (hp : s.Configured p) (action : DefaultAction)
    (hnet : ∀ n, (s.tables_v4.held p n).isSome → n.Canonical)
    (hnet_v6 : ∀ n, (s.tables_v6.held p n).isSome → n.Canonical) :
    let s' := s.set_import_default clk p action
    let env := (s.with_import_default p action).env_of clk p
    (s.tables_v4.Reconfigured s'.tables_v4 p env.policy s.rpki_v4 ∧
        s.tables_v6.Reconfigured s'.tables_v6 p env.policy_v6 s.rpki_v6) ↔
      s.tables_v4.Reconfigurable p env.policy s.rpki_v4 ∧
        s.tables_v6.Reconfigurable p env.policy_v6 s.rpki_v6 := by
  intro s' env
  obtain ⟨h4, h6⟩ := moves_set_import_default hs clk hp action
  rw [h4, h6]
  exact and_congr (Tables.reconfigured_iff hnet) (Tables.reconfigured_iff hnet_v6)

end DaemonState

/-! ## Two changes of the default -/

/-- 10.0.0.2 has announced a prefix. -/
def one_announced (msg : UpdateMessage) : DaemonState :=
  (small_daemon [open_peer 2 65002] none []).run [session_up 2 .External [], update_from 2 0 msg]

/-- With a default that rejects, the route goes, and the rest is as it should be. -/
theorem rejected_from_now_on :
    let s := one_announced (announcement [65002] [Nlri.v4 10 0 0 0 8])
    let s' := s.set_import_default ⟨0, 0⟩ (peer_addr 2) .Reject
    let env := (s.with_import_default (peer_addr 2) .Reject).env_of ⟨0, 0⟩ (peer_addr 2)
    (s.tables_v4.Reconfigured s'.tables_v4 (peer_addr 2) env.policy s.rpki_v4 ∧
        s.tables_v6.Reconfigured s'.tables_v6 (peer_addr 2) env.policy_v6 s.rpki_v6) ∧
      (s.rib.loc_rib.candidate (Nlri.v4 10 0 0 0 8) (peer_addr 2)).isSome = true ∧
      s'.rib.loc_rib.candidate (Nlri.v4 10 0 0 0 8) (peer_addr 2) = none := by
  have hform : (one_announced (announcement [65002] [Nlri.v4 10 0 0 0 8])).InNetworkForm :=
    DaemonState.inNetworkForm_run (DaemonState.inNetworkForm_new ..) (by decide +kernel)
  refine ⟨(DaemonState.set_import_default_exact_iff _ (reachable_small_daemon ..) ⟨0, 0⟩
    (peer_addr 2) (by decide +kernel) .Reject (hform.1.held _) (hform.2.held _)).2 ⟨?_, ?_⟩, ?_, ?_⟩
  · exact Tables.reconfigurable_of_known (hform.1.held _) (by decide +kernel) (by decide +kernel)
      (by decide +kernel)
  · exact Tables.reconfigurable_of_known (hform.2.held _) (by decide +kernel) (by decide +kernel)
      (by decide +kernel)
  · decide +kernel
  · decide +kernel

/-- A route with the BLACKHOLE community is in the Adj-RIB-In and no candidate. Setting the default
to what it is already makes it one. -/
theorem blackhole_let_in :
    let s := one_announced ⟨[], (announcement [65002] []).attributes
      ++ [.Communities [Community.BLACKHOLE]], [Nlri.v4 10 2 0 0 16]⟩
    let s' := s.set_import_default ⟨0, 0⟩ (peer_addr 2) .Accept
    let env := (s.with_import_default (peer_addr 2) .Accept).env_of ⟨0, 0⟩ (peer_addr 2)
    s.Reachable ∧ s.Configured (peer_addr 2) ∧
      (s.tables_v4.held (peer_addr 2) (Nlri.v4 10 2 0 0 16)).any Route.is_blackhole = true ∧
      s.rib.loc_rib.candidate (Nlri.v4 10 2 0 0 16) (peer_addr 2) = none ∧
      (s'.rib.loc_rib.candidate (Nlri.v4 10 2 0 0 16) (peer_addr 2)).isSome = true ∧
      ¬s.tables_v4.Reconfigured s'.tables_v4 (peer_addr 2) env.policy s.rpki_v4 := by
  refine ⟨reachable_small_daemon .., ?_, ?_, ?_, ?_, fun h => ?_⟩
  iterate 4 decide +kernel
  have hcand := h.candidates (Nlri.v4 10 2 0 0 16)
  revert hcand
  decide +kernel

end Pathvector
