/-
# The Loc-RIB

`LocRib` (`pathvector-rib/src/loc_rib.rs`): every candidate route, the reverse index
from prefixes to the peers that have a candidate, and the winning peer of each prefix.

The table of winners is a `RouteMap`: it is read and written by network, and what is
used of it are the laws of that class. The other two tables are hash maps keyed by the
NLRI as given. `LocRib` carries what ties the tables together as fields, so that an index
that disagrees with the candidates cannot be built.
-/
import Pathvector.Rib.BestPath
import Pathvector.Types.RouteMap

set_option autoImplicit false

namespace Pathvector

/-- `BestPathChange<A>`: what an operation did to the best path of one prefix. -/
inductive BestPathChange (A : Type) [IpAddress A] where
  | Announced (nlri : Nlri A) (route : Route A)
  | Withdrawn (nlri : Nlri A)
  | Unchanged
  deriving DecidableEq

/-- `LocRib<A>`. `best_peers` is the source's field `best`. -/
structure LocRib (A : Type) [IpAddress A] [DecidableEq A] where
  candidates : HashMap (Nlri A × PeerId) (Route A)
  peer_index : HashMap (Nlri A) (List PeerId)
  best_peers : NetworkMap A PeerId
  /-- A candidate is filed under its own prefix. -/
  nlri_eq : ∀ n p r, candidates.lookup (n, p) = some r → r.nlri = n
  /-- The index lists exactly the peers that have a candidate. -/
  mem_index : ∀ n p, p ∈ (peer_index.lookup n).getD [] ↔ (n, p) ∈ candidates

namespace LocRib

variable {A : Type} [IpAddress A] [DecidableEq A]
variable (rib : LocRib A) (peer : PeerId) (n : Nlri A) (oracle : NextHopOracle)

/-- `LocRib::new`. -/
def new : LocRib A where
  candidates := ∅
  peer_index := ∅
  best_peers := RouteMap.new
  nlri_eq n p r h := by simp at h
  mem_index n p := by simp

/-! ## Reading -/

/-- The candidate of one peer for one prefix. -/
def candidate (p : PeerId) : Option (Route A) :=
  rib.candidates.lookup (n, p)

/-- `LocRib::best_peer`. -/
def best_peer : Option PeerId := RouteMap.get rib.best_peers n

/-- `LocRib::best`: the winner's candidate for this very NLRI. -/
def best : Option (Route A) :=
  (rib.best_peer n).bind (rib.candidate n)

/-- The winner of a prefix with its route, as `propagate_prefix` reads them. -/
def best_entry : Option (PeerId × Route A) :=
  (rib.best_peer n).bind fun p => (rib.candidate n p).map (p, ·)

/-- `LocRib::best_routes`: the winners whose network address is itself a candidate. -/
def best_routes : List (Nlri A × Route A) :=
  (RouteMap.iter rib.best_peers).filterMap fun e => (rib.candidate e.1 e.2).map (e.1, ·)

/-- The map `recompute_best` hands to `select_best_with_oracle`. -/
def peer_map : List (PeerId × Route A) :=
  ((rib.peer_index.lookup n).getD []).filterMap fun p => (rib.candidate n p).map (p, ·)

/-! ## Writing -/

/-- Records the winner of a prefix's network, or that it has none. -/
def set_best (winner : Option PeerId) : LocRib A :=
  { rib with
    best_peers :=
      match winner with
      | some peer => RouteMap.insert rib.best_peers n peer
      | none => RouteMap.remove rib.best_peers n }

def recompute_best : LocRib A :=
  rib.set_best n ((select_best_with_oracle (rib.peer_map n) oracle).map Prod.fst)

/-- The first half of `insert`: files the candidate and lists its peer in the index. -/
def add_candidate (route : Route A) : LocRib A where
  candidates := rib.candidates.insert (route.nlri, peer) route
  peer_index :=
    let peers := (rib.peer_index.lookup route.nlri).getD []
    rib.peer_index.insert route.nlri (if peer ∈ peers then peers else peers ++ [peer])
  best_peers := rib.best_peers
  nlri_eq n p r h := by
    rw [HashMap.lookup_insert_ite] at h
    split at h
    · rename_i heq
      rw [Prod.mk.injEq] at heq
      rw [← Option.some.inj h, heq.1]
    · exact rib.nlri_eq n p r h
  mem_index n p := by
    rw [HashMap.lookup_insert_ite, AList.mem_insert, Prod.mk.injEq, ← rib.mem_index n p]
    by_cases hn : n = route.nlri
    · subst hn
      by_cases hp : peer ∈ (rib.peer_index.lookup route.nlri).getD []
      · simp only [if_true, if_pos hp, Option.getD_some, true_and]
        constructor
        · exact Or.inr
        · rintro (rfl | h)
          · exact hp
          · exact h
      · simp only [if_true, if_neg hp, Option.getD_some, true_and, List.mem_append,
          List.mem_singleton, or_comm]
    · simp only [hn, if_false, false_and, false_or]

/-- The first half of `withdraw`: drops the candidate and its index entry. -/
def remove_candidate : LocRib A where
  candidates := rib.candidates.erase (n, peer)
  peer_index :=
    let peers := ((rib.peer_index.lookup n).getD []).filter (· ≠ peer)
    if peers = [] then rib.peer_index.erase n else rib.peer_index.insert n peers
  best_peers := rib.best_peers
  nlri_eq m p r h := by
    rw [HashMap.lookup_erase_ite] at h
    split at h
    · cases h
    · exact rib.nlri_eq m p r h
  mem_index m p := by
    rw [AList.mem_erase, ne_eq, Prod.mk.injEq, ← rib.mem_index m p]
    have hlook : (AList.lookup m (if ((rib.peer_index.lookup n).getD []).filter (· ≠ peer) = []
          then rib.peer_index.erase n
          else rib.peer_index.insert n
            (((rib.peer_index.lookup n).getD []).filter (· ≠ peer)))).getD []
        = if m = n then ((rib.peer_index.lookup n).getD []).filter (· ≠ peer)
          else (rib.peer_index.lookup m).getD [] := by
      split
      · rename_i hnil
        rw [HashMap.lookup_erase_ite, hnil]
        split <;> rfl
      · rw [HashMap.lookup_insert_ite]
        split <;> rfl
    rw [hlook]
    by_cases hm : m = n
    · subst hm
      rw [if_pos rfl, List.mem_filter, and_comm]
      simp
    · simp only [hm, if_false, false_and, not_false_eq_true, true_and]

/-- `LocRib::insert`. -/
def insert (route : Route A) (oracle : NextHopOracle) :
    LocRib A × BestPathChange A :=
  let nlri := route.nlri
  let old_best_peer := rib.best_peer nlri
  let rib := (rib.add_candidate peer route).recompute_best nlri oracle
  match rib.best_peer nlri, rib.best nlri with
  | some new_peer, some new_route =>
    if old_best_peer = some new_peer then
      -- Same winner: it changed only if this peer is the winner.
      if peer = new_peer then (rib, .Announced nlri new_route) else (rib, .Unchanged)
    else (rib, .Announced nlri new_route)
  | _, _ => (rib, .Unchanged)

/-- `LocRib::withdraw`. -/
def withdraw (nlri : Nlri A) (oracle : NextHopOracle) :
    LocRib A × BestPathChange A :=
  let old_best_peer := rib.best_peer nlri
  if (nlri, peer) ∈ rib.candidates then
    let rib := rib.remove_candidate peer nlri
    if nlri ∈ rib.peer_index then
      let rib := rib.recompute_best nlri oracle
      match rib.best_peer nlri, rib.best nlri with
      | some new_peer, some new_route =>
        if old_best_peer = some new_peer ∧ old_best_peer ≠ some peer then (rib, .Unchanged)
        else (rib, .Announced nlri new_route)
      | _, _ => (rib, .Withdrawn nlri)
    else
      (rib.set_best nlri none, if old_best_peer.isSome then .Withdrawn nlri else .Unchanged)
  else (rib, .Unchanged)

/-- One step of the loop of `withdraw_peer`. -/
def withdraw_step (acc : LocRib A × List (BestPathChange A)) (nlri : Nlri A) :
    LocRib A × List (BestPathChange A) :=
  let (rib, change) := acc.1.withdraw peer nlri oracle
  (rib, acc.2 ++ [change])

/-- One step of a loop of `insert`. -/
def insert_step (acc : LocRib A × List (BestPathChange A)) (route : Route A) :
    LocRib A × List (BestPathChange A) :=
  let (rib, change) := acc.1.insert peer route oracle
  (rib, acc.2 ++ [change])

/-- The prefixes the index lists under one peer. -/
def prefixes_of : List (Nlri A) :=
  (rib.peer_index.entries.filter fun e => e.2.contains peer).map fun e => e.1

/-- `LocRib::withdraw_peer`. -/
def withdraw_peer :
    LocRib A × List (BestPathChange A) :=
  (rib.prefixes_of peer).foldl (withdraw_step peer oracle) (rib, [])

/-- One step of the loop of `recompute_all`. -/
def recompute_step (acc : LocRib A × List (BestPathChange A)) (nlri : Nlri A) :
    LocRib A × List (BestPathChange A) :=
  let old_peer := acc.1.best_peer nlri
  let rib := acc.1.recompute_best nlri oracle
  match old_peer, rib.best_peer nlri with
  | none, none => (rib, acc.2)
  | some _, none => (rib, acc.2 ++ [.Withdrawn nlri])
  | old, some np =>
    if old = some np then (rib, acc.2)
    else (rib, acc.2 ++ ((rib.best nlri).map (.Announced nlri)).toList)

/-- `LocRib::recompute_all`. -/
def recompute_all : LocRib A × List (BestPathChange A) :=
  rib.peer_index.keys.foldl (recompute_step oracle) (rib, [])

/-! ## What an operation leaves

Candidates are read through `candidate`; an operation rewrites the candidate of one peer
for one prefix, and `recompute_best` none. -/

section

variable (route : Route A) (m : Nlri A) (q : PeerId)

@[simp]
theorem candidate_recompute_best :
    (rib.recompute_best n oracle).candidate m q = rib.candidate m q :=
  rfl

theorem candidate_add_candidate :
    (rib.add_candidate peer route).candidate m q
      = if m = route.nlri ∧ q = peer then some route else rib.candidate m q := by
  simp only [candidate, add_candidate, HashMap.lookup_insert_ite, Prod.mk.injEq]

theorem candidate_remove_candidate :
    (rib.remove_candidate peer n).candidate m q
      = if m = n ∧ q = peer then none else rib.candidate m q := by
  simp only [candidate, remove_candidate, HashMap.lookup_erase_ite, Prod.mk.injEq]

/-- The table `insert` leaves, whatever change it reports. -/
theorem insert_fst (oracle : NextHopOracle) :
    (rib.insert peer route oracle).1
      = (rib.add_candidate peer route).recompute_best route.nlri oracle := by
  rw [insert]
  split
  · split
    · split <;> rfl
    · rfl
  · rfl

theorem candidate_insert (oracle : NextHopOracle) (m : Nlri A) (q : PeerId) :
    (rib.insert peer route oracle).1.candidate m q
      = if m = route.nlri ∧ q = peer then some route else rib.candidate m q := by
  rw [insert_fst, candidate_recompute_best, candidate_add_candidate]

theorem mem_candidates_iff (p : PeerId) : (n, p) ∈ rib.candidates ↔ (rib.candidate n p).isSome :=
  AList.lookup_isSome.symm

theorem recompute_best_of_not_mem (hn : n ∉ rib.peer_index) :
    rib.recompute_best n oracle = rib.set_best n none := by
  have hmap : rib.peer_map n = [] := by
    rw [peer_map, AList.lookup_eq_none.2 hn]
    rfl
  rw [recompute_best, hmap]
  rfl

/-- The table `withdraw` leaves, whatever change it reports. -/
theorem withdraw_fst :
    (rib.withdraw peer n oracle).1
      = if (n, peer) ∈ rib.candidates then (rib.remove_candidate peer n).recompute_best n oracle
        else rib := by
  by_cases hmem : (n, peer) ∈ rib.candidates
  · by_cases hidx : n ∈ (rib.remove_candidate peer n).peer_index
    · simp only [withdraw, hmem, hidx, if_true]
      split
      · split <;> rfl
      · rfl
    · simp only [withdraw, hmem, hidx, if_true, if_false]
      exact (recompute_best_of_not_mem _ n oracle hidx).symm
  · simp only [withdraw, hmem, if_false]

theorem candidate_withdraw :
    (rib.withdraw peer n oracle).1.candidate m q
      = if m = n ∧ q = peer then none else rib.candidate m q := by
  rw [withdraw_fst]
  by_cases hmem : (n, peer) ∈ rib.candidates
  · rw [if_pos hmem, candidate_recompute_best, candidate_remove_candidate]
  · rw [if_neg hmem]
    -- nothing to withdraw: the candidate was not there
    by_cases heq : m = n ∧ q = peer
    · rw [mem_candidates_iff, Option.not_isSome_iff_eq_none] at hmem
      rw [if_pos heq, heq.1, heq.2, hmem]
    · rw [if_neg heq]

theorem candidate_withdraw_fold (l : List (Nlri A)) (acc : LocRib A × List (BestPathChange A))
    (m : Nlri A) (q : PeerId) :
    (l.foldl (withdraw_step peer oracle) acc).1.candidate m q
      = if m ∈ l ∧ q = peer then none else acc.1.candidate m q := by
  induction l generalizing acc with
  | nil => simp
  | cons n l ih =>
    rw [List.foldl_cons, ih]
    have hstep : (withdraw_step peer oracle acc n).1.candidate m q
        = if m = n ∧ q = peer then none else acc.1.candidate m q :=
      candidate_withdraw ..
    rw [hstep]
    by_cases hq : q = peer
    · by_cases hn : m = n
      · simp [hq, hn]
      · simp [hq, hn]
    · simp [hq]

theorem mem_prefixes_of : n ∈ rib.prefixes_of peer ↔ (rib.candidate n peer).isSome := by
  rw [← mem_candidates_iff, ← rib.mem_index, prefixes_of, List.mem_map]
  constructor
  · rintro ⟨⟨k, peers⟩, hmem, rfl⟩
    rw [List.mem_filter] at hmem
    rw [HashMap.mem_entries_iff.1 hmem.1]
    exact List.contains_iff_mem.1 hmem.2
  · intro hp
    cases hl : rib.peer_index.lookup n with
    | none =>
      rw [hl] at hp
      cases hp
    | some peers =>
      rw [hl] at hp
      refine ⟨⟨n, peers⟩, List.mem_filter.2 ⟨HashMap.mem_entries_iff.2 hl, ?_⟩, rfl⟩
      exact List.contains_iff_mem.2 hp

/-- `withdraw_peer` takes out the candidates of that peer and no others. -/
theorem candidate_withdraw_peer :
    (rib.withdraw_peer peer oracle).1.candidate m q
      = if q = peer then none else rib.candidate m q := by
  simp only [withdraw_peer, candidate_withdraw_fold, mem_prefixes_of]
  by_cases hq : q = peer
  · subst hq
    cases hc : rib.candidate m q <;> simp
  · simp [hq]

end

end LocRib

end Pathvector
