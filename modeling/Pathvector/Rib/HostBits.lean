/-
# Prefixes with host bits

The candidates and their index are keyed by the NLRI as given, the winners by its network. The
three tables speak of the same prefixes as long as each network is written in one way. `Form`
says that for a network, and `OneForm` asks of an insertion that it use the form the table has.

Under `OneForm` every winner is the best of all candidates of its network, under the oracle of
the last operation that decided about the network, and an operation on one prefix leaves every
other one alone (`represented_history`). The wire decoder clears host bits; the gRPC interface
does not, and two forms of a network hide each other's candidates from the selection.
-/
import Pathvector.Rib.Completeness

set_option autoImplicit false

namespace Pathvector

namespace LocRib

variable {A : Type} [IpAddress A] [DecidableEq A]
variable {o : Nlri A → NextHopOracle} {t u : LocRib A} {n m : Nlri A} {peer q : PeerId}
  {op : LocRibOp A} {r : Route A}

/-! ## The form of a network -/

/-- Every candidate of `n`'s network is filed under `n` itself. -/
def Form (t : LocRib A) (n : Nlri A) : Prop :=
  ∀ m q, (t.candidate m q).isSome → m.masked = n.masked → m = n

/-- An insertion names its network as the table does. -/
def OneForm (t : LocRib A) : LocRibOp A → Prop
  | .insert _ route _ => t.Form route.nlri
  | .withdraw _ _ _ => True
  | .withdraw_peer _ _ => True
  | .recompute_all _ => True

theorem peer_map_eq_nil (h : ∀ q, t.candidate n q = none) : t.peer_map n = [] := by
  rw [List.eq_nil_iff_forall_not_mem]
  intro c hc
  rw [mem_peer_map, h] at hc
  cases hc

theorem Form.peer_map_eq (hn : t.Form n) (hm : t.Form m) (hnet : n.masked = m.masked) :
    t.peer_map n = t.peer_map m := by
  by_cases heq : n = m
  · rw [heq]
  · have hnone : ∀ q, t.candidate n q = none := by
      intro q
      by_contra h
      exact heq (hm n q (Option.isSome_iff_ne_none.2 h) hnet)
    have hnone' : ∀ q, t.candidate m q = none := by
      intro q
      by_contra h
      exact heq (hn m q (Option.isSome_iff_ne_none.2 h) hnet.symm).symm
    rw [peer_map_eq_nil hnone, peer_map_eq_nil hnone']

theorem Form.of_subset (h : t.Form n)
    (hsub : ∀ m q, (u.candidate m q).isSome → m.masked = n.masked → (t.candidate m q).isSome) :
    u.Form n :=
  fun m q hmq hnet => h m q (hsub m q hmq hnet) hnet

/-! ## The invariant -/

/-- The three tables speak of the same prefixes, and the winner of each network is the best of
its candidates under the oracle `o` has for the network. -/
structure Agrees (o : Nlri A → NextHopOracle) (t : LocRib A) : Prop where
  /-- A peer is listed once. -/
  nodup : ∀ n, (t.peers n).Nodup
  /-- An entry of the index is not empty. -/
  listed : ∀ n ∈ t.peer_index, ∃ p, (t.candidate n p).isSome
  one_form : ∀ n p, (t.candidate n p).isSome → t.Form n
  winner : ∀ n, t.Form n →
    t.best_peer n = (select_best_with_oracle (t.peer_map n) (o n.masked)).map Prod.fst

theorem agrees_new (o : Nlri A → NextHopOracle) : Agrees o (new : LocRib A) where
  nodup _ := List.nodup_nil
  listed _ h := by cases h
  one_form _ _ h := by cases h
  winner _ _ := rfl

/-- **A new selection** for one network, after a change to its candidates alone. -/
theorem Agrees.reselect (h : Agrees o t) (oracle : NextHopOracle) (hnodup : ∀ m, (u.peers m).Nodup)
    (hlisted : ∀ m ∈ u.peer_index, ∃ p, (u.candidate m p).isSome)
    (hone : ∀ m p, (u.candidate m p).isSome → u.Form m) (hform : u.Form n)
    (hmap : ∀ m, m.masked ≠ n.masked → u.peer_map m = t.peer_map m)
    (hbest : ∀ m, u.best_peer m = t.best_peer m) :
    Agrees (Function.update o n.masked oracle) (u.recompute_best n oracle) where
  nodup := hnodup
  listed := hlisted
  one_form := hone
  winner m hm := by
    have hm' : u.Form m := hm
    have hself : (u.recompute_best n oracle).peer_map m = u.peer_map m := rfl
    rw [best_peer_recompute_best, hself]
    by_cases hnet : m.masked = n.masked
    · rw [if_pos hnet, hnet, Function.update_self, hm'.peer_map_eq hform hnet]
    · have hold : t.Form m := by
        apply hm'.of_subset
        intro k q hk hkm
        obtain ⟨r, hr⟩ := Option.isSome_iff_exists.1 hk
        have hmem : (q, r) ∈ u.peer_map k := by
          rw [hmap k (hkm ▸ hnet)]
          exact (t.mem_peer_map k (q, r)).2 hr
        rw [(u.mem_peer_map k (q, r)).1 hmem]
        rfl
      rw [if_neg hnet, Function.update_of_ne hnet, hbest, h.winner m hold, hmap m hnet]

theorem candidate_isSome_add (h : ((t.add_candidate peer r).candidate n q).isSome) :
    n = r.nlri ∨ (t.candidate n q).isSome := by
  rw [candidate_add_candidate] at h
  split at h
  · rename_i heq
    exact .inl heq.1
  · exact .inr h

theorem candidate_isSome_remove (h : ((t.remove_candidate peer m).candidate n q).isSome) :
    (t.candidate n q).isSome := by
  rw [candidate_remove_candidate] at h
  split at h
  · cases h
  · exact h

theorem peer_map_add_of_ne (t : LocRib A) (peer : PeerId) (r : Route A) (hn : n ≠ r.nlri) :
    (t.add_candidate peer r).peer_map n = t.peer_map n := by
  have hidx : (t.add_candidate peer r).peer_index.lookup n = t.peer_index.lookup n := by
    show AList.lookup n (t.peer_index.insert r.nlri _) = _
    rw [HashMap.lookup_insert_ite, if_neg hn]
  unfold peer_map
  rw [hidx]
  refine List.filterMap_congr fun p _ => ?_
  rw [candidate_add_candidate, if_neg fun h => hn h.1]

theorem Agrees.insert (h : Agrees o t) (peer : PeerId) (hr : t.Form r.nlri)
    (oracle : NextHopOracle) :
    Agrees (Function.update o r.nlri.masked oracle) (t.insert peer r oracle).1 := by
  rw [insert_fst]
  have hform : (t.add_candidate peer r).Form r.nlri := by
    intro m q hm hnet
    rcases candidate_isSome_add hm with heq | hm
    · exact heq
    · exact hr m q hm hnet
  refine h.reselect oracle ?_ ?_ ?_ hform ?_ fun m => rfl
  · intro m
    have hpeers : (t.insert peer r oracle).1.peers m = _ := peers_insert t r m
    rw [insert_fst] at hpeers
    show (((t.add_candidate peer r).recompute_best r.nlri oracle).peers m).Nodup
    rw [hpeers]
    split
    · split
      · exact h.nodup m
      · rename_i hnew
        rw [← List.concat_eq_append]
        exact (h.nodup m).concat hnew
    · exact h.nodup m
  · intro m hm
    have hm' : m ∈ t.peer_index.insert r.nlri _ := hm
    by_cases heq : m = r.nlri
    · exact ⟨peer, by rw [candidate_add_candidate, if_pos ⟨heq, rfl⟩]; rfl⟩
    · obtain ⟨p, hp⟩ := h.listed m (((AList.mem_insert _).1 hm').resolve_left heq)
      exact ⟨p, by rwa [candidate_add_candidate, if_neg fun hand => heq hand.1]⟩
  · intro m p hm k q hk hnet
    rcases candidate_isSome_add hm with heq | hm
    · rw [heq] at hnet ⊢
      exact hform k q hk hnet
    · rcases candidate_isSome_add hk with heq | hk
      · -- the new candidate joins a network that has the form of its prefix
        rw [heq] at hnet ⊢
        exact (hr m p hm hnet.symm).symm
      · exact h.one_form m p hm k q hk hnet
  · intro m hm
    exact t.peer_map_add_of_ne peer r fun heq => hm (heq ▸ rfl)

theorem Agrees.withdraw (h : Agrees o t) (hmem : (n, peer) ∈ t.candidates)
    (oracle : NextHopOracle) :
    Agrees (Function.update o n.masked oracle) (t.withdraw peer n oracle).1 := by
  have hfst : (t.withdraw peer n oracle).1
      = (t.remove_candidate peer n).recompute_best n oracle := by
    rw [withdraw_fst, if_pos hmem]
  have hform : t.Form n := h.one_form n peer ((t.mem_candidates_iff n peer).1 hmem)
  have hsub : ∀ {k : Nlri A}, t.Form k → (t.remove_candidate peer n).Form k :=
    fun hk => hk.of_subset fun _ _ hm _ => candidate_isSome_remove hm
  rw [hfst]
  refine h.reselect oracle ?_ ?_ ?_ (hsub hform) ?_ fun m => rfl
  · intro m
    have hpeers : (t.withdraw peer n oracle).1.peers m = _ := peers_withdraw t n m
    rw [hfst] at hpeers
    show (((t.remove_candidate peer n).recompute_best n oracle).peers m).Nodup
    rw [hpeers]
    split
    · exact (h.nodup m).filter _
    · exact h.nodup m
  · intro m hm
    by_cases heq : m = n
    · rw [heq, mem_index_remove] at hm
      obtain ⟨q, hq⟩ := List.exists_mem_of_ne_nil _ hm
      obtain ⟨hq, hne⟩ := List.mem_filter.1 hq
      have hne : q ≠ peer := of_decide_eq_true hne
      refine ⟨q, ?_⟩
      rw [heq, candidate_remove_candidate, if_neg fun hand => hne hand.2]
      exact (t.mem_peers n q).1 hq
    · have hm' : m ∈ (if t.others peer n = [] then t.peer_index.erase n
        else t.peer_index.insert n (t.others peer n)) := hm
      have hold : m ∈ t.peer_index := by
        split at hm'
        · exact (AList.mem_erase.1 hm').2
        · exact ((AList.mem_insert _).1 hm').resolve_left heq
      obtain ⟨p, hp⟩ := h.listed m hold
      exact ⟨p, by rwa [candidate_remove_candidate, if_neg fun hand => heq hand.1]⟩
  · intro m p hm
    exact hsub (h.one_form m p (candidate_isSome_remove hm))
  · intro m hm
    exact t.peer_map_remove_of_ne peer fun heq => hm (heq ▸ rfl)

theorem agrees_fold
    {step : LocRib A × List (BestPathChange A) → Nlri A → LocRib A × List (BestPathChange A)}
    {P : LocRib A → Nlri A → Prop} {oracle : NextHopOracle}
    (hstep : ∀ (acc : LocRib A × List (BestPathChange A)) (o : Nlri A → NextHopOracle)
      (n : Nlri A), Agrees o acc.1 → P acc.1 n →
        Agrees (Function.update o n.masked oracle) (step acc n).1 ∧
          ∀ m, m ≠ n → P acc.1 m → P (step acc n).1 m) {l : List (Nlri A)} (hl : l.Nodup)
    {acc : LocRib A × List (BestPathChange A)} (h : Agrees o acc.1) (hP : ∀ n ∈ l, P acc.1 n) :
    Agrees (fun n => if n ∈ l.map Nlri.masked then oracle else o n) (l.foldl step acc).1 := by
  induction l generalizing acc o with
  | nil =>
    exact h
  | cons n l ih =>
    obtain ⟨hn, hl⟩ := List.nodup_cons.1 hl
    obtain ⟨hagrees, hkeep⟩ := hstep acc o n h (hP n (List.mem_cons_self ..))
    have hrest := ih hl hagrees fun m hm =>
      hkeep m (fun heq => hn (heq ▸ hm)) (hP m (List.mem_cons_of_mem _ hm))
    have horacle : (fun m => if m ∈ (n :: l).map Nlri.masked then oracle else o m)
        = fun m => if m ∈ l.map Nlri.masked then oracle
          else Function.update o n.masked oracle m := by
      funext m
      by_cases hm : m = n.masked
      · simp [hm]
      · simp [hm, List.mem_cons]
    rw [horacle]
    exact hrest

theorem Agrees.withdraw_peer (h : Agrees o t) (peer : PeerId) (oracle : NextHopOracle) :
    Agrees (fun n => if n ∈ (t.prefixes_of peer).map Nlri.masked then oracle else o n)
      (t.withdraw_peer peer oracle).1 := by
  refine agrees_fold (P := fun u n => (n, peer) ∈ u.candidates) ?_ (t.nodup_prefixes_of peer) h ?_
  · intro acc o n hagrees hmem
    refine ⟨hagrees.withdraw hmem oracle, ?_⟩
    intro m hne hm
    rw [mem_candidates_iff] at hm ⊢
    show ((acc.1.withdraw peer n oracle).1.candidate m peer).isSome
    rwa [candidate_withdraw, if_neg fun hand => hne hand.1]
  · intro n hn
    exact (t.mem_candidates_iff n peer).2 ((t.mem_prefixes_of peer n).1 hn)

theorem Agrees.recompute_all (h : Agrees o t) (oracle : NextHopOracle) :
    Agrees (fun n => if n ∈ t.peer_index.keys.map Nlri.masked then oracle else o n)
      (t.recompute_all oracle).1 := by
  refine agrees_fold (P := fun u n => u.Form n) ?_ t.peer_index.keys_nodup h ?_
  · intro acc o n hagrees hform
    rw [recompute_step_fst]
    exact ⟨hagrees.reselect oracle hagrees.nodup hagrees.listed hagrees.one_form hform
      (fun _ _ => rfl) fun _ => rfl, fun m _ hm => hm⟩
  · intro n hn
    obtain ⟨p, hp⟩ := h.listed n hn
    exact h.one_form n p hp

/-! ## Whole histories -/

/-- The networks an operation decides about. -/
def decided (t : LocRib A) : LocRibOp A → List (Nlri A)
  | .insert _ route _ => [route.nlri.masked]
  | .withdraw peer nlri _ => if (nlri, peer) ∈ t.candidates then [nlri.masked] else []
  | .withdraw_peer peer _ => (t.prefixes_of peer).map Nlri.masked
  | .recompute_all _ => t.peer_index.keys.map Nlri.masked

/-- One operation, with the oracles the networks were last decided under. -/
def oracle_step (acc : LocRib A × (Nlri A → NextHopOracle)) (op : LocRibOp A) :
    LocRib A × (Nlri A → NextHopOracle) :=
  ((acc.1.perform op).1, fun n => if n ∈ acc.1.decided op then op.oracle else acc.2 n)

/-- The oracle of the last operation that decided about a network. -/
def last_oracle (ops : List (LocRibOp A)) : Nlri A → NextHopOracle :=
  (ops.foldl oracle_step (new, fun _ => .AlwaysReachable)).2

theorem oracle_fold_fst (ops : List (LocRibOp A)) (o : Nlri A → NextHopOracle) :
    (ops.foldl oracle_step (new, o)).1 = (history ops).1 := by
  induction ops using List.reverseRecOn with
  | nil => rfl
  | append_singleton ops op ih =>
    rw [List.foldl_append, history_snoc, List.foldl_cons, List.foldl_nil, oracle_step, ih]

theorem last_oracle_snoc (ops : List (LocRibOp A)) (op : LocRibOp A) :
    last_oracle (ops ++ [op])
      = fun n => if n ∈ (history ops).1.decided op then op.oracle else last_oracle ops n := by
  unfold last_oracle
  rw [List.foldl_append, List.foldl_cons, List.foldl_nil, oracle_step, oracle_fold_fst]

/-- **One operation keeps the tables in agreement.** -/
theorem Agrees.perform (h : Agrees o t) (hop : t.OneForm op) :
    Agrees (fun n => if n ∈ t.decided op then op.oracle else o n) (t.perform op).1 := by
  have hupdate : ∀ (m : Nlri A) (oracle : NextHopOracle),
      (fun n => if n ∈ [m] then oracle else o n) = Function.update o m oracle := by
    intro m oracle
    funext n
    rw [Function.update_apply]
    exact if_congr List.mem_singleton rfl rfl
  cases op with
  | insert peer route oracle =>
    have hins := h.insert peer hop oracle
    rw [← hupdate] at hins
    exact hins
  | withdraw peer nlri oracle =>
    by_cases hmem : (nlri, peer) ∈ t.candidates
    · have hdrop := h.withdraw hmem oracle
      rw [← hupdate] at hdrop
      have hdec : t.decided (.withdraw peer nlri oracle) = [nlri.masked] := if_pos hmem
      rw [hdec]
      exact hdrop
    · have hdec : t.decided (.withdraw peer nlri oracle) = [] := if_neg hmem
      have hsame : (t.perform (.withdraw peer nlri oracle)).1 = t :=
        (t.withdraw_fst peer nlri oracle).trans (if_neg hmem)
      rw [hdec, hsame]
      exact h
  | withdraw_peer peer oracle => exact h.withdraw_peer peer oracle
  | recompute_all oracle => exact h.recompute_all oracle

theorem agrees_history {ops : List (LocRibOp A)}
    (hops : ∀ done op, done ++ [op] <+: ops → (history done).1.OneForm op) :
    Agrees (last_oracle ops) (history ops).1 := by
  induction ops using List.reverseRecOn with
  | nil => exact agrees_new _
  | append_singleton ops op ih =>
    have hprev := ih fun done x hpre => hops done x (hpre.trans (List.prefix_append ops [op]))
    rw [last_oracle_snoc, history_snoc]
    exact hprev.perform (hops ops op List.prefix_rfl)

/-! ## What the agreement says -/

/-- All candidates of a network, however it is written. -/
def network_candidates (t : LocRib A) (n : Nlri A) : List (PeerId × Route A) :=
  (t.candidates.entries.filter fun e => e.1.1.masked = n.masked).map fun e => (e.1.2, e.2)

theorem mem_network_candidates (t : LocRib A) (n : Nlri A) (c : PeerId × Route A) :
    c ∈ t.network_candidates n ↔
      t.candidate c.2.nlri c.1 = some c.2 ∧ c.2.nlri.masked = n.masked := by
  unfold network_candidates
  rw [List.mem_map]
  constructor
  · rintro ⟨⟨⟨m, p⟩, r⟩, he, rfl⟩
    obtain ⟨he, hnet⟩ := List.mem_filter.1 he
    have hr := HashMap.mem_entries_iff.1 he
    have hnlri : r.nlri = m := t.nlri_eq m p r hr
    rw [hnlri]
    exact ⟨hr, of_decide_eq_true hnet⟩
  · rintro ⟨hc, hnet⟩
    refine ⟨⟨(c.2.nlri, c.1), c.2⟩, List.mem_filter.2 ⟨?_, decide_eq_true hnet⟩, rfl⟩
    exact HashMap.mem_entries_iff.2 hc

theorem nodup_network_candidates (t : LocRib A) (n : Nlri A) : (t.network_candidates n).Nodup := by
  refine List.Nodup.map_on ?_ (t.candidates.nodupKeys.nodup.filter _)
  rintro ⟨⟨m, p⟩, r⟩ he ⟨⟨m', p'⟩, r'⟩ he' heq
  obtain ⟨rfl, rfl⟩ := Prod.mk.inj heq
  have hr := t.nlri_eq m p r (HashMap.mem_entries_iff.1 (List.mem_filter.1 he).1)
  have hr' := t.nlri_eq m' p r (HashMap.mem_entries_iff.1 (List.mem_filter.1 he').1)
  rw [← hr, ← hr']

theorem Agrees.nodup_peer_map (h : Agrees o t) (n : Nlri A) : (t.peer_map n).Nodup := by
  refine (h.nodup n).filterMap ?_
  intro p q c hp hq
  obtain ⟨r, -, rfl⟩ := Option.map_eq_some_iff.1 hp
  obtain ⟨r', -, heq⟩ := Option.map_eq_some_iff.1 hq
  exact (congrArg Prod.fst heq).symm

theorem Agrees.peer_map_perm (h : Agrees o t) (hm : t.Form m) (hnet : m.masked = n.masked) :
    (t.peer_map m).Perm (t.network_candidates n) := by
  rw [List.perm_ext_iff_of_nodup (h.nodup_peer_map m) (t.nodup_network_candidates n)]
  intro c
  rw [mem_peer_map, mem_network_candidates]
  constructor
  · intro hc
    have hnlri := t.nlri_eq m c.1 c.2 hc
    rw [hnlri]
    exact ⟨hc, hnet⟩
  · rintro ⟨hc, hcnet⟩
    have heq := hm c.2.nlri c.1 (by rw [hc]; rfl) (hcnet.trans hnet.symm)
    rw [← heq]
    exact hc

theorem Agrees.exists_form (h : Agrees o t) (n : Nlri A) : ∃ m, t.Form m ∧ m.masked = n.masked := by
  by_cases hsome : ∃ m q, (t.candidate m q).isSome ∧ m.masked = n.masked
  · obtain ⟨m, q, hm, hnet⟩ := hsome
    exact ⟨m, h.one_form m q hm, hnet⟩
  · exact ⟨n, fun m q hm hnet => absurd ⟨m, q, hm, hnet⟩ hsome, rfl⟩

/-- The tables list the same pairs, a peer has one candidate for a prefix, and the best route
of a prefix is the one selected from all candidates of its network. -/
structure Represented (o : Nlri A → NextHopOracle) (t : LocRib A) : Prop where
  same_pairs : ∀ n p, p ∈ (t.peer_index.lookup n).getD [] ↔ (n, p) ∈ t.candidates
  listed_once : ∀ n, ((t.peer_index.lookup n).getD []).Nodup
  one_candidate : ∀ n m p, (n, p) ∈ t.candidates → (m, p) ∈ t.candidates →
    n.masked = m.masked → n = m
  best_of_network : ∀ n, ∃ cands, cands.Perm (t.network_candidates n) ∧
    t.best_peer n = (select_best_with_oracle cands (o n.masked)).map Prod.fst ∧
    -- the route itself is looked up under the NLRI as given
    (t.Form n → t.best n = (select_best_with_oracle cands (o n.masked)).map Prod.snd)

theorem Agrees.represented (h : Agrees o t) :
    Represented o t where
  same_pairs := t.mem_index
  listed_once := h.nodup
  one_candidate n m p hn hm hnet := by
    rw [mem_candidates_iff] at hn hm
    exact h.one_form m p hm n p hn hnet
  best_of_network n := by
    obtain ⟨m, hm, hnet⟩ := h.exists_form n
    have hwin : t.best_peer n
        = (select_best_with_oracle (t.peer_map m) (o n.masked)).map Prod.fst := by
      have hbest := h.winner m hm
      rw [hnet] at hbest
      exact (RouteMap.get_congr t.best_peers hnet.symm).trans hbest
    refine ⟨t.peer_map m, h.peer_map_perm hm hnet, hwin, ?_⟩
    intro hn
    rw [LocRib.best, hwin]
    cases hsel : select_best_with_oracle (t.peer_map m) (o n.masked) with
    | none => rfl
    | some c =>
      have hmem := (select_best_mem hsel).1
      rw [hm.peer_map_eq hn hnet, mem_peer_map] at hmem
      exact hmem

/-! ## Other prefixes -/

/-- The prefixes an operation is about. -/
def Names (t : LocRib A) : LocRibOp A → Nlri A → Prop
  | .insert _ route _, n => n = route.nlri
  | .withdraw _ nlri _, n => n = nlri
  | .withdraw_peer peer _, n => (t.candidate n peer).isSome
  | .recompute_all _, _ => True

/-- A prefix has the same candidates and the same best route as before. -/
def Unaffected (t u : LocRib A) (n : Nlri A) : Prop :=
  (∀ q, u.candidate n q = t.candidate n q) ∧ u.best n = t.best n

theorem best_eq_none_of_candidate (h : ∀ q, t.candidate n q = none) : t.best n = none := by
  unfold LocRib.best
  cases t.best_peer n with
  | none => rfl
  | some p => exact h p

theorem unaffected_of_none (hu : ∀ q, u.candidate n q = t.candidate n q)
    (ht : ∀ q, t.candidate n q = none) : t.Unaffected u n := by
  refine ⟨hu, ?_⟩
  rw [best_eq_none_of_candidate ht, best_eq_none_of_candidate fun q => (hu q).trans (ht q)]

theorem Form.candidate_eq_none (h : t.Form n) (hne : m ≠ n) (hnet : m.masked = n.masked)
    (q : PeerId) : t.candidate m q = none := by
  by_contra hq
  exact hne (h m q (Option.isSome_iff_ne_none.2 hq) hnet)

/-- **An operation on one prefix leaves the others alone.** -/
theorem Agrees.unaffected (h : Agrees o t) (hop : t.OneForm op) (hn : ¬t.Names op n) :
    t.Unaffected (t.perform op).1 n := by
  cases op with
  | insert peer route oracle =>
    have hcand : ∀ q, (t.insert peer route oracle).1.candidate n q = t.candidate n q := by
      intro q
      rw [candidate_insert, if_neg fun hand => hn hand.1]
    -- the same network in another form has no candidates, as the table keeps one form
    by_cases hnet : n.masked = route.nlri.masked
    · exact unaffected_of_none hcand fun q => Form.candidate_eq_none hop hn hnet q
    · exact ⟨hcand, t.best_insert_of_ne peer route oracle hnet⟩
  | withdraw peer nlri oracle =>
    have hcand : ∀ q, (t.withdraw peer nlri oracle).1.candidate n q = t.candidate n q := by
      intro q
      rw [candidate_withdraw, if_neg fun hand => hn hand.1]
    by_cases hnet : n.masked = nlri.masked
    · by_cases hmem : (nlri, peer) ∈ t.candidates
      · have hform := h.one_form nlri peer ((t.mem_candidates_iff nlri peer).1 hmem)
        exact unaffected_of_none hcand fun q => hform.candidate_eq_none hn hnet q
      · refine ⟨hcand, ?_⟩
        show (t.withdraw peer nlri oracle).1.best n = t.best n
        rw [withdraw_fst, if_neg hmem]
    · exact ⟨hcand, t.best_withdraw_of_ne peer nlri oracle hnet⟩
  | withdraw_peer peer oracle =>
    have hnone : t.candidate n peer = none := Option.not_isSome_iff_eq_none.1 hn
    have hcand : ∀ q, (t.withdraw_peer peer oracle).1.candidate n q = t.candidate n q := by
      intro q
      rw [candidate_withdraw_peer]
      split
      · rename_i hq
        rw [hq, hnone]
      · rfl
    by_cases hnet : ∃ m, (t.candidate m peer).isSome ∧ n.masked = m.masked
    · obtain ⟨m, hm, hnet⟩ := hnet
      have hne : n ≠ m := fun heq => hn (heq ▸ hm)
      exact unaffected_of_none hcand fun q =>
        (h.one_form m peer hm).candidate_eq_none hne hnet q
    · refine ⟨hcand, ?_⟩
      have hempty : (t.prefixes_of peer).filter (·.masked = n.masked) = [] := by
        rw [List.filter_eq_nil_iff]
        intro m hm hnm
        exact hnet ⟨m, (t.mem_prefixes_of peer m).1 hm, (of_decide_eq_true hnm).symm⟩
      have hwin : (t.withdraw_peer peer oracle).1.best_peer n = t.best_peer n := by
        refine (best_peer_withdraw_fold peer oracle _ (t.nodup_prefixes_of peer) (t, []) ?_ n).trans
          ?_
        · intro m hm
          exact (t.mem_candidates_iff m peer).2 ((t.mem_prefixes_of peer m).1 hm)
        · rw [hempty]
          rfl
      show (t.withdraw_peer peer oracle).1.best n = t.best n
      rw [LocRib.best, LocRib.best, hwin]
      exact Option.bind_congr fun q _ => hcand q
  | recompute_all oracle => exact absurd trivial hn

/-- **The representation invariant**, in a history whose insertions use one form for each
network. -/
theorem represented_history {ops : List (LocRibOp A)}
    (hops : ∀ done op, done ++ [op] <+: ops → (history done).1.OneForm op)
    {done : List (LocRibOp A)} (hdone : done <+: ops) :
    (history done).1.Represented (last_oracle done) ∧
      ∀ op, done ++ [op] <+: ops → ∀ n, ¬(history done).1.Names op n →
        (history done).1.Unaffected (history (done ++ [op])).1 n := by
  have hagrees : Agrees (last_oracle done) (history done).1 :=
    agrees_history fun d op hpre => hops d op (hpre.trans hdone)
  refine ⟨hagrees.represented, ?_⟩
  intro op hpre n hn
  rw [history_snoc]
  exact hagrees.unaffected (hops done op hpre) hn

end LocRib

/-- A route to 10.0.0.1/8 as a gRPC client may write it. -/
def written_with_host_bits (pref : LocalPref) : Route Ipv4Addr :=
  { Route.build (Nlri.v4 10 0 0 1 8) .Igp AsPath.new 0 with local_pref := some pref }

/-- Two peers write the network in the same way. -/
def one_way : List (LocRibOp Ipv4Addr) :=
  [.insert (.V4 (Ipv4Addr.new 10 0 0 2)) (written_with_host_bits 200) .AlwaysReachable,
    .insert (.V4 (Ipv4Addr.new 10 0 0 3)) (written_with_host_bits 100) .AlwaysReachable]

theorem one_way_represented :
    (LocRib.history one_way).1.Represented (LocRib.last_oracle one_way) := by
  refine (LocRib.represented_history ?_ (List.prefix_rfl : one_way <+: one_way)).1
  intro done op hpre
  rcases done with _ | ⟨x, _ | ⟨y, done⟩⟩
  · obtain ⟨rfl, -⟩ := List.cons_prefix_cons.1 hpre
    intro m q hm _
    cases hm
  · obtain ⟨rfl, hrest⟩ := List.cons_prefix_cons.1 hpre
    obtain ⟨rfl, -⟩ := List.cons_prefix_cons.1 hrest
    intro m q hm _
    have hcand := LocRib.candidate_insert LocRib.new (.V4 (Ipv4Addr.new 10 0 0 2))
      (written_with_host_bits 200) .AlwaysReachable m q
    have hm' : ((LocRib.new.insert (.V4 (Ipv4Addr.new 10 0 0 2)) (written_with_host_bits 200)
      .AlwaysReachable).1.candidate m q).isSome := hm
    rw [hcand] at hm'
    split at hm'
    · rename_i heq
      exact heq.1
    · cases hm'
  · obtain ⟨-, hrest⟩ := List.cons_prefix_cons.1 hpre
    obtain ⟨-, hnil⟩ := List.cons_prefix_cons.1 hrest
    exact absurd (List.prefix_nil.1 hnil) (List.append_ne_nil_of_right_ne_nil _ (by simp))

/-- 10.0.0.2 has the better route to the network, and 10.0.0.3 writes it with a host bit. -/
def two_ways : List (LocRibOp Ipv4Addr) :=
  [.insert (.V4 (Ipv4Addr.new 10 0 0 2))
      { written_with_host_bits 200 with nlri := Nlri.v4 10 0 0 0 8 } .AlwaysReachable,
    .insert (.V4 (Ipv4Addr.new 10 0 0 3)) (written_with_host_bits 100) .AlwaysReachable]

/-- The worse route wins the network, and 10.0.0.0/8 has no best route any more, though nothing
happened to its candidate: the winner has none under that NLRI. -/
theorem two_ways_hide_each_other :
    let n := Nlri.v4 10 0 0 0 8
    let first : PeerId × Route Ipv4Addr := (.V4 (Ipv4Addr.new 10 0 0 2),
      { written_with_host_bits 200 with nlri := n })
    let second : PeerId × Route Ipv4Addr :=
      (.V4 (Ipv4Addr.new 10 0 0 3), written_with_host_bits 100)
    let before := (LocRib.history (two_ways.take 1)).1
    let after := (LocRib.history two_ways).1
    -- the whole network has two candidates, of which the first is selected in either order
    (after.network_candidates n).Perm [first, second] ∧
      select_best_with_oracle [first, second] .AlwaysReachable = some first ∧
      select_best_with_oracle [second, first] .AlwaysReachable = some first ∧
      after.best_peer n = some second.1 ∧
      -- and the operation on 10.0.0.1/8 took the best route of 10.0.0.0/8 away
      before.best n = some first.2 ∧ after.best n = none := by
  decide +kernel

end Pathvector
