/-
# Convergence of the Loc-RIB

The daemon hears its peers in the order their tasks are scheduled, and the Loc-RIB does not keep
that order: histories in which every peer does the same end with the same candidates, and with the
same best route wherever the candidates alone decide (`Settled`).
-/
import Pathvector.Rib.HostBits
import Pathvector.Rib.Preference

set_option autoImplicit false

namespace Pathvector

variable {A : Type} [IpAddress A]

theorem Settled.select_perm {oracle : NextHopOracle} {cands cands' : List (PeerId × Route A)}
    (h : Settled oracle cands) (hpeers : (cands.map Prod.fst).Nodup) (hperm : cands'.Perm cands) :
    select_best_with_oracle cands' oracle = select_best_with_oracle cands oracle := by
  by_cases hsome : ∃ c ∈ cands, usable oracle c.2 = true
  · obtain ⟨w, hw, husable, hwins⟩ := h hsome
    have hpeers' := (hperm.map Prod.fst).nodup_iff.2 hpeers
    rw [select_best_eq, select_best_eq,
      select_of_settled hpeers .rfl .rfl hw husable hwins]
    refine select_of_settled hpeers' .rfl .rfl (hperm.mem_iff.2 hw) husable ?_
    intro c hc hcu hne hcase
    -- who can come out of a group does not depend on the order either
    exact hwins c (hperm.mem_iff.1 hc) hcu hne
      (hcase.imp_right (leads_of_perm (perm_group_of (perm_reachable hperm) _)))
  · have hnone {l : List (PeerId × Route A)} (hl : l.Perm cands) :
        select_best_with_oracle l oracle = none := by
      rw [← Option.not_isSome_iff_eq_none, select_best_isSome_iff]
      simpa only [hl.mem_iff] using hsome
    rw [hnone hperm, hnone .rfl]

/-- The peer whose routes an operation changes; a new selection changes none. -/
def LocRibOp.peer? : LocRibOp A → Option PeerId
  | .insert peer _ _ | .withdraw peer _ _ | .withdraw_peer peer _ => some peer
  | .recompute_all _ => none

namespace LocRib

variable [DecidableEq A] {t u : LocRib A} {op : LocRibOp A} {p : PeerId} {n : Nlri A}
  {oracle : NextHopOracle} {one other : List (LocRibOp A)}

theorem candidate_recompute_all : (t.recompute_all oracle).1.candidate n p = t.candidate n p := by
  refine List.foldlRecOn (motive := fun acc : LocRib A × _ =>
    acc.1.candidate n p = t.candidate n p) _ _ rfl ?_
  intro acc h m _
  rw [recompute_step_fst, candidate_recompute_best, h]

theorem candidate_perform_congr (h : ∀ n, t.candidate n p = u.candidate n p) :
    (t.perform op).1.candidate n p = (u.perform op).1.candidate n p := by
  cases op <;> simp only [perform, candidate_insert, candidate_withdraw, candidate_withdraw_peer,
    candidate_recompute_all, h]

theorem candidate_perform_of_ne (h : op.peer? ≠ some p) :
    (t.perform op).1.candidate n p = t.candidate n p := by
  cases op <;> simp_all [perform, LocRibOp.peer?, candidate_insert, candidate_withdraw,
    candidate_withdraw_peer, candidate_recompute_all, eq_comm]

/-- A peer's candidates follow from what that peer did. -/
theorem candidate_history (ops : List (LocRibOp A)) (n : Nlri A) (p : PeerId) :
    (history ops).1.candidate n p
      = (history (ops.filter (·.peer? = some p))).1.candidate n p := by
  induction ops using List.reverseRecOn generalizing n with
  | nil => rfl
  | append_singleton ops op ih =>
    rw [history_snoc, List.filter_append]
    by_cases h : op.peer? = some p
    · rw [List.filter_singleton, decide_eq_true h, cond_true, history_snoc]
      exact candidate_perform_congr ih
    · rw [List.filter_singleton, decide_eq_false h, cond_false, List.append_nil]
      exact (candidate_perform_of_ne h).trans (ih n)

theorem Networks.form (h : t.Networks) (hn : n.Canonical) : t.Form n := by
  intro m q hm hnet
  by_contra hne
  have hm' : ¬m.Canonical := fun hcan => hne (hcan.symm.trans (hnet.trans hn))
  rw [h.candidate hm'] at hm
  cases hm

theorem agrees_of_networks (hnet : ∀ op ∈ one, op.Canonical)
    (horacle : ∀ op ∈ one, op.oracle = oracle) : Agrees (fun _ => oracle) (history one).1 := by
  induction one using List.reverseRecOn with
  | nil => exact agrees_new _
  | append_singleton ops op ih =>
    simp only [List.forall_mem_append, List.forall_mem_singleton] at hnet horacle
    have hform : (history ops).1.OneForm op := by
      cases op with
      | insert peer route o => exact (networks_history hnet.1).form hnet.2
      | _ => trivial
    have h := (ih hnet.1 horacle.1).perform hform
    simpa only [history_snoc, horacle.2, ite_self] using h

theorem Agrees.nodup_peers (h : Agrees (fun _ => oracle) t) (n : Nlri A) :
    ((t.peer_map n).map Prod.fst).Nodup := by
  refine (h.nodup_peer_map n).map_on ?_
  intro x hx y hy hxy
  rw [mem_peer_map] at hx hy
  rw [hxy, hy] at hx
  exact Prod.ext hxy (Option.some.inj hx).symm

/-- **The order between the peers is forgotten.** -/
theorem converges (oracle : NextHopOracle) (hnet : ∀ op ∈ one ++ other, op.Canonical)
    (horacle : ∀ op ∈ one ++ other, op.oracle = oracle)
    (hpeers : ∀ p, one.filter (·.peer? = some p) = other.filter (·.peer? = some p)) :
    (∀ n p, (history one).1.candidate n p = (history other).1.candidate n p) ∧
      ∀ n, n.Canonical → Settled oracle ((history other).1.peer_map n) →
        (history one).1.best n = (history other).1.best n := by
  rw [List.forall_mem_append] at hnet horacle
  have hsame (n : Nlri A) (p : PeerId) :
      (history one).1.candidate n p = (history other).1.candidate n p := by
    rw [candidate_history one, candidate_history other, hpeers]
  refine ⟨hsame, ?_⟩
  intro n hn hsettled
  have ht := agrees_of_networks hnet.1 horacle.1
  have hu := agrees_of_networks hnet.2 horacle.2
  have hperm : ((history one).1.peer_map n).Perm ((history other).1.peer_map n) := by
    rw [List.perm_ext_iff_of_nodup (ht.nodup_peer_map n) (hu.nodup_peer_map n)]
    intro c
    rw [mem_peer_map, mem_peer_map, hsame]
  unfold LocRib.best
  rw [ht.winner n ((networks_history hnet.1).form hn),
    hu.winner n ((networks_history hnet.2).form hn),
    hsettled.select_perm (hu.nodup_peers n) hperm]
  simp only [hsame]

end LocRib

/-- Two routes to 10.0.0.0/8 come in either order. -/
theorem either_order_converges :
    let a := candidate_of 1 (some (Ipv4Addr.new 3 3 3 3))
    let b := candidate_of 3 (some (Ipv4Addr.new 1 1 1 1))
    let oracle := NextHopOracle.AlwaysReachable
    (LocRib.history [.insert a.1 a.2 oracle, .insert b.1 b.2 oracle]).1.best a.2.nlri
      = (LocRib.history [.insert b.1 b.2 oracle, .insert a.1 a.2 oracle]).1.best a.2.nlri := by
  intro a b oracle
  refine (LocRib.converges oracle (by decide) (by simp [LocRibOp.oracle]) ?_).2 _ (by decide) ?_
  · intro p
    by_cases ha : a.1 = p
    · exact ha ▸ rfl
    · simp [List.filter_cons, LocRibOp.peer?, ha]
  · refine fun _ => ⟨b, by decide +kernel, by decide +kernel, ?_⟩
    intro c hc _ hne _
    clear * - hc hne
    revert c
    decide +kernel

end Pathvector
