/-
# Who wins

The winners of the Loc-RIB before and after an operation. `LocRib` files candidates under
the NLRI as given and winners under the network, so two NLRIs of one network share a
winner, and the operation that came last decides it. The lemmas keep to that: an operation
on `n` sets the winner of `n`'s network and of no other.
-/
import Pathvector.Rib.LocRib

set_option autoImplicit false

namespace Pathvector

namespace LocRib

variable {A : Type} [IpAddress A] [DecidableEq A]
variable (rib : LocRib A) (peer : PeerId) (n : Nlri A) (oracle : NextHopOracle)
  {e : PeerId × Route A} {m : Nlri A}

theorem of_best_entry {rib : LocRib A} {n : Nlri A} (h : rib.best_entry n = some e) :
    rib.best_peer n = some e.1 ∧ rib.candidate n e.1 = some e.2 := by
  obtain ⟨p, hp, hc⟩ := Option.bind_eq_some_iff.1 h
  obtain ⟨r, hr, rfl⟩ := Option.map_eq_some_iff.1 hc
  exact ⟨hp, hr⟩

theorem best_entry_nlri {n : Nlri A} (h : rib.best_entry n = some e) : e.2.nlri = n := by
  obtain ⟨p, -, hp⟩ := Option.bind_eq_some_iff.1 h
  obtain ⟨r, hr, rfl⟩ := Option.map_eq_some_iff.1 hp
  exact rib.nlri_eq n p r hr

theorem best_eq_best_entry : rib.best n = (rib.best_entry n).map Prod.snd := by
  unfold best best_entry
  cases rib.best_peer n with
  | none => rfl
  | some p => cases h : rib.candidate n p <;> simp [h]

/-! ## One operation -/

theorem best_peer_set_best (m : Nlri A) (w : Option PeerId) :
    (rib.set_best n w).best_peer m = if m.masked = n.masked then w else rib.best_peer m := by
  cases w with
  | none => exact RouteMap.get_remove rib.best_peers n m
  | some p => exact RouteMap.get_insert rib.best_peers n m p

theorem best_peer_recompute_best (m : Nlri A) :
    (rib.recompute_best n oracle).best_peer m = if m.masked = n.masked
      then (select_best_with_oracle (rib.peer_map n) oracle).map Prod.fst
      else rib.best_peer m :=
  best_peer_set_best ..

/-- `insert` sets the winner of one network. -/
theorem best_peer_insert (route : Route A) (oracle : NextHopOracle) (m : Nlri A) :
    (rib.insert peer route oracle).1.best_peer m = if m.masked = route.nlri.masked
      then (select_best_with_oracle ((rib.add_candidate peer route).peer_map route.nlri)
        oracle).map Prod.fst
      else rib.best_peer m := by
  rw [insert_fst]
  exact best_peer_recompute_best ..

/-- `withdraw` sets the winner of one network, when there is something to withdraw. -/
theorem best_peer_withdraw (m : Nlri A) :
    (rib.withdraw peer n oracle).1.best_peer m
      = if (n, peer) ∈ rib.candidates ∧ m.masked = n.masked
        then (select_best_with_oracle ((rib.remove_candidate peer n).peer_map n) oracle).map
          Prod.fst
        else rib.best_peer m := by
  rw [withdraw_fst]
  by_cases hmem : (n, peer) ∈ rib.candidates
  · rw [if_pos hmem, best_peer_recompute_best]
    simp only [hmem, true_and]
    rfl
  · rw [if_neg hmem, if_neg (fun h => hmem h.1)]

theorem best_entry_insert_of_ne (route : Route A) (oracle : NextHopOracle)
    (hm : m.masked ≠ route.nlri.masked) :
    (rib.insert peer route oracle).1.best_entry m = rib.best_entry m := by
  unfold best_entry
  rw [best_peer_insert, if_neg hm]
  simp only [candidate_insert]
  have hne : m ≠ route.nlri := fun h => hm (congrArg _ h)
  simp only [hne, false_and, if_false]

theorem best_entry_withdraw_of_ne (hm : m.masked ≠ n.masked) :
    (rib.withdraw peer n oracle).1.best_entry m = rib.best_entry m := by
  unfold best_entry
  rw [best_peer_withdraw, if_neg (fun h => hm h.2)]
  simp only [candidate_withdraw]
  have hne : m ≠ n := fun h => hm (congrArg _ h)
  simp only [hne, false_and, if_false]

/-! ## The candidate lists -/

/-- The peers with a candidate for a prefix, in the order of the index. -/
def peers : List PeerId := (rib.peer_index.lookup n).getD []

theorem peers_remove_candidate (m : Nlri A) :
    (rib.remove_candidate peer n).peers m
      = if n = m then (rib.peers m).filter (· ≠ peer) else rib.peers m := by
  show (AList.lookup m (if _ then rib.peer_index.erase n else rib.peer_index.insert n _)).getD []
    = _
  by_cases h : n = m
  · subst h
    rw [if_pos rfl]
    split
    · rename_i hnil
      rw [HashMap.lookup_erase_ite, if_pos rfl]
      exact hnil.symm
    · rw [HashMap.lookup_insert_ite, if_pos rfl]
      rfl
  · split
    · rw [HashMap.lookup_erase_ite, if_neg (Ne.symm h)]
      rfl
    · rw [HashMap.lookup_insert_ite, if_neg (Ne.symm h)]
      rfl

omit [DecidableEq A] in
/-- A candidate list without a peer is the list of the other peers. -/
theorem filter_candidates (l : List PeerId) (c : PeerId → Option (Route A)) :
    (l.filterMap fun q => (c q).map (q, ·)).filter (·.1 ≠ peer)
      = (l.filter (· ≠ peer)).filterMap fun q => (c q).map (q, ·) := by
  rw [List.filterMap_filter, List.filter_filterMap]
  refine List.filterMap_congr fun q _ => ?_
  by_cases hq : q = peer
  · cases c q <;> simp [hq, Option.filter]
  · cases c q <;> simp [hq, Option.filter]

theorem peer_map_remove_of_ne {n : Nlri A} (hm : m ≠ n) :
    (rib.remove_candidate peer n).peer_map m = rib.peer_map m := by
  have hpeers := rib.peers_remove_candidate peer n m
  rw [if_neg (Ne.symm hm)] at hpeers
  refine (congrArg (List.filterMap _) hpeers).trans (List.filterMap_congr fun p _ => ?_)
  rw [candidate_remove_candidate, if_neg fun h => hm h.1]

theorem peer_map_remove :
    (rib.remove_candidate peer n).peer_map n = (rib.peer_map n).filter (·.1 ≠ peer) := by
  have hpeers := rib.peers_remove_candidate peer n n
  rw [if_pos rfl] at hpeers
  refine (congrArg (List.filterMap _) hpeers).trans (Eq.trans ?_ (filter_candidates ..).symm)
  refine List.filterMap_congr fun p hp => ?_
  have hne : p ≠ peer := by simpa using (List.mem_filter.1 hp).2
  rw [candidate_remove_candidate, if_neg fun h => hne h.2]

/-! ## The prefixes with a best route -/

/-- `best_routes` lists no prefix twice. -/
theorem nodup_best_routes : (rib.best_routes.map Prod.fst).Nodup := by
  have hsub : (rib.best_routes.map Prod.fst).Sublist
      ((RouteMap.iter rib.best_peers).map Prod.fst) := by
    unfold best_routes
    induction RouteMap.iter rib.best_peers with
    | nil => exact .slnil
    | cons e es ih =>
      rw [List.filterMap_cons, List.map_cons]
      cases rib.candidate e.1 e.2 with
      | none => exact .cons _ ih
      | some r => exact .cons_cons _ ih
  exact hsub.nodup (RouteMap.nodup_iter rib.best_peers)

/-- `best_routes` lists the networks that are themselves a prefix with a best route. -/
theorem mem_best_routes :
    n ∈ rib.best_routes.map Prod.fst ↔ n.Canonical ∧ (rib.best_entry n).isSome := by
  simp only [best_routes, List.mem_map, List.mem_filterMap]
  constructor
  · rintro ⟨⟨m, r⟩, ⟨⟨k, p⟩, hk, hr⟩, rfl⟩
    obtain ⟨r', hr', heq⟩ := Option.map_eq_some_iff.1 hr
    obtain ⟨rfl, rfl⟩ := Prod.mk.inj heq
    obtain ⟨hcan, hp⟩ := (RouteMap.mem_iter ..).1 hk
    refine ⟨hcan, ?_⟩
    rw [best_entry, best_peer, hp, Option.bind_some, hr']
    rfl
  · rintro ⟨hcan, hsome⟩
    obtain ⟨⟨p, r⟩, hentry⟩ := Option.isSome_iff_exists.1 hsome
    obtain ⟨p', hp, hr⟩ := Option.bind_eq_some_iff.1 hentry
    obtain ⟨r', hr', heq⟩ := Option.map_eq_some_iff.1 hr
    obtain ⟨rfl, rfl⟩ := Prod.mk.inj heq
    refine ⟨(n, r'), ⟨(n, p'), (RouteMap.mem_iter ..).2 ⟨hcan, hp⟩, ?_⟩, rfl⟩
    rw [hr']
    rfl

/-! ## A peer is gone -/

/-- The winner of a prefix once a peer is taken out, in terms of the table before. Where the
peer has no candidate in the network the winner stays; otherwise it is the best of the
other candidates. Of several NLRIs of one network the last one decides. -/
def winner_without (n : Nlri A) :
    Option PeerId :=
  match ((rib.prefixes_of peer).filter (·.masked = n.masked)).getLast? with
  | none => rib.best_peer n
  | some m =>
    (select_best_with_oracle ((rib.peer_map m).filter (·.1 ≠ peer)) oracle).map Prod.fst

/-- The best route of a prefix once a peer is taken out. -/
def best_without (n : Nlri A) :
    Option (PeerId × Route A) :=
  (rib.winner_without peer oracle n).bind fun q =>
    if q = peer then none else (rib.candidate n q).map (q, ·)

theorem ne_of_best_without {rib : LocRib A} {peer : PeerId} {oracle : NextHopOracle} {n : Nlri A}
    (h : rib.best_without peer oracle n = some e) : e.1 ≠ peer := by
  obtain ⟨p, -, hc⟩ := Option.bind_eq_some_iff.1 h
  split at hc
  · cases hc
  · rename_i hp
    obtain ⟨r, -, rfl⟩ := Option.map_eq_some_iff.1 hc
    exact hp

/-- The loop of `withdraw_peer`, over distinct prefixes the peer has a candidate for. -/
theorem best_peer_withdraw_fold (l : List (Nlri A)) (hl : l.Nodup)
    (acc : LocRib A × List (BestPathChange A)) (hmem : ∀ m ∈ l, (m, peer) ∈ acc.1.candidates)
    (n : Nlri A) :
    (l.foldl (withdraw_step peer oracle) acc).1.best_peer n
      = match (l.filter (·.masked = n.masked)).getLast? with
        | none => acc.1.best_peer n
        | some m =>
          (select_best_with_oracle ((acc.1.peer_map m).filter (·.1 ≠ peer)) oracle).map
            Prod.fst := by
  induction l generalizing acc with
  | nil => rfl
  | cons x l ih =>
    obtain ⟨hx, hl⟩ := List.nodup_cons.1 hl
    have hxmem := hmem x (List.mem_cons_self ..)
    have hfst : (withdraw_step peer oracle acc x).1
        = (acc.1.remove_candidate peer x).recompute_best x oracle := by
      show (acc.1.withdraw peer x oracle).1 = _
      rw [withdraw_fst, if_pos hxmem]
    have hne : ∀ m ∈ l, m ≠ x := fun m hm h => hx (h ▸ hm)
    have hmem' : ∀ m ∈ l, (m, peer) ∈ (withdraw_step peer oracle acc x).1.candidates := by
      intro m hm
      rw [hfst, mem_candidates_iff, candidate_recompute_best, candidate_remove_candidate,
        if_neg fun h => hne m hm h.1, ← mem_candidates_iff]
      exact hmem m (List.mem_cons_of_mem _ hm)
    rw [List.foldl_cons, ih hl _ hmem', List.filter_cons]
    -- the rest of the list decides if it has a prefix of the network, and `x` otherwise
    cases hlast : (l.filter (·.masked = n.masked)).getLast? with
    | some m =>
      have hm : m ∈ l := (List.mem_filter.1 (List.mem_of_getLast? hlast)).1
      have hmap : (withdraw_step peer oracle acc x).1.peer_map m = acc.1.peer_map m := by
        rw [hfst]
        exact peer_map_remove_of_ne acc.1 peer (hne m hm)
      have hcons : (if decide (x.masked = n.masked) = true
          then x :: l.filter (·.masked = n.masked) else l.filter (·.masked = n.masked)).getLast?
          = some m := by
        split
        · rw [List.getLast?_cons, hlast]
          rfl
        · exact hlast
      rw [hcons]
      simp only [hmap]
    | none =>
      rw [List.getLast?_eq_none_iff] at hlast
      rw [hlast, hfst, best_peer_recompute_best, peer_map_remove]
      by_cases hxn : x.masked = n.masked
      · rw [if_pos hxn.symm, if_pos (decide_eq_true hxn)]
        rfl
      · rw [if_neg (Ne.symm hxn), if_neg (by simpa using hxn)]
        rfl

theorem nodup_prefixes_of : (rib.prefixes_of peer).Nodup := by
  have hkeys : rib.peer_index.keys.Nodup := rib.peer_index.keys_nodup
  have hsub : (rib.prefixes_of peer).Sublist rib.peer_index.keys :=
    List.Sublist.map _ List.filter_sublist
  exact hkeys.sublist hsub

/-- **What `withdraw_peer` leaves of a prefix**, in terms of the table before. -/
theorem best_entry_withdraw_peer :
    (rib.withdraw_peer peer oracle).1.best_entry n = rib.best_without peer oracle n := by
  have hwin : (rib.withdraw_peer peer oracle).1.best_peer n = rib.winner_without peer oracle n := by
    refine best_peer_withdraw_fold peer oracle _ (rib.nodup_prefixes_of peer) (rib, []) ?_ n
    intro m hm
    exact (rib.mem_candidates_iff m peer).2 ((rib.mem_prefixes_of peer m).1 hm)
  unfold best_entry best_without
  rw [hwin]
  cases rib.winner_without peer oracle n with
  | none => rfl
  | some q =>
    simp only [Option.bind_some, candidate_withdraw_peer]
    split <;> rfl

end LocRib

end Pathvector
