/-
# Best-path selection

`select_best_with_oracle` and `prefer` (`pathvector-rib/src/best_path.rs`), and the
next-hop oracle they consult (`oracle.rs`).

The candidates arrive as a list, in the iteration order of the hash map that holds
them, and the groups by neighbouring AS are kept in the order they are first met.
-/
import Pathvector.Rib.Route

set_option autoImplicit false

namespace Pathvector

/-- `PeerId`, a newtype around the peer's address. -/
abbrev PeerId : Type := IpAddr

/-- `NextHopOracle`: what the kernel's routing table says about next hops. -/
structure NextHopOracle where
  is_reachable : NextHop → Bool
  igp_metric : NextHop → Option UInt32

/-- `AlwaysReachable`, the oracle of a daemon that does not watch the kernel. -/
def NextHopOracle.AlwaysReachable : NextHopOracle where
  is_reachable _ := true
  igp_metric _ := none

section

variable {A : Type} [IpAddress A]

section

variable (peer_a : PeerId) (a : Route A) (peer_b : PeerId) (b : Route A) (oracle : NextHopOracle)

def peer_type_rank : PeerType → ℕ
  | .Internal | .ConfedMember => 0
  | .External => 1
  | .Local => 2

/-- The MED comparison of `prefer`: only between routes from the same neighbouring AS. -/
def prefer_med : Ordering :=
  if a.as_path.neighboring_as.isSome && a.as_path.neighboring_as == b.as_path.neighboring_as then
    compare (b.med.getD 0).toNat (a.med.getD 0).toNat
  else .eq

/-- The IGP metric comparison of `prefer`: only when both metrics are known. -/
def prefer_metric (a b : Route A) : Ordering :=
  match a.next_hop.bind oracle.igp_metric, b.next_hop.bind oracle.igp_metric with
  | some ma, some mb => compare mb.toNat ma.toNat
  | _, _ => .eq

/-- The BGP Identifier comparison of `prefer`: only when both are known. -/
def prefer_bgp_id : Ordering :=
  match a.peer_bgp_id, b.peer_bgp_id with
  | some id_a, some id_b => id_b.cmp id_a
  | _, _ => .eq

/-- `prefer`: the decision process, step by step; `.gt` when `a` is preferred to `b`. -/
def prefer : Ordering :=
  -- A stale route (RFC 4724) loses to any fresh one.
  (compare (!a.stale).toNat (!b.stale).toNat).then <|
  (compare (a.local_pref.getD LocalPref.DEFAULT).toNat
    (b.local_pref.getD LocalPref.DEFAULT).toNat).then <|
  (compare b.as_path.path_length a.as_path.path_length).then <|
  (compare b.origin.as_u8.toNat a.origin.as_u8.toNat).then <|
  (prefer_med a b).then <|
  (compare (peer_type_rank a.peer_type) (peer_type_rank b.peer_type)).then <|
  (prefer_metric oracle a b).then <|
  -- Only the older of two eBGP routes is preferred for its age.
  (if a.peer_type = .External then compare b.received_at.toNat a.received_at.toNat
    else .eq).then <|
  (prefer_bgp_id a b).then <|
  peer_b.cmp peer_a

/-- `Iterator::max_by`: of several maxima the last one is kept. -/
def max_by {α : Type} (cmp : α → α → Ordering) : List α → Option α
  | [] => none
  | x :: xs => some (xs.foldl (fun best y => if cmp best y = .gt then best else y) x)

/-- The order `select_best_with_oracle` maximises. -/
def prefer_pair (x y : PeerId × Route A) : Ordering :=
  prefer x.1 x.2 y.1 y.2 oracle

/-- The first filter of `select_best_with_oracle`: a route without a next hop is local
and always reachable. -/
def usable (r : Route A) : Bool :=
  r.next_hop.all oracle.is_reachable

end

section

variable (cands : List (PeerId × Route A)) (oracle : NextHopOracle)

/-- The candidates of one neighbouring AS. -/
def group_of (neighbor : Option Asn) : List (PeerId × Route A) :=
  cands.filter fun c => c.2.as_path.neighboring_as == neighbor

/-- `select_best_with_oracle`: the winner of each neighbouring-AS group, then the winner
among those. -/
def select_best_with_oracle :
    Option (PeerId × Route A) :=
  let reachable := cands.filter fun c => usable oracle c.2
  let neighbors := (reachable.map fun c => c.2.as_path.neighboring_as).eraseDups
  let group_winners := neighbors.filterMap fun n =>
    max_by (prefer_pair oracle) (group_of reachable n)
  max_by (prefer_pair oracle) group_winners

omit [IpAddress A] in
theorem max_by_mem {α : Type} {cmp : α → α → Ordering} {l : List α} {x : α}
    (h : max_by cmp l = some x) : x ∈ l := by
  cases l with
  | nil => exact absurd h (by simp [max_by])
  | cons y ys =>
    rw [max_by, Option.some.injEq] at h
    rw [← h]
    clear h
    induction ys generalizing y with
    | nil => simp
    | cons z zs ih =>
      rw [List.foldl_cons]
      split
      · rcases List.mem_cons.1 (ih y) with heq | hmem
        · rw [heq]
          exact List.mem_cons_self ..
        · exact List.mem_cons_of_mem _ (List.mem_cons_of_mem _ hmem)
      · exact List.mem_cons_of_mem _ (ih z)

theorem select_best_mem {cands : List (PeerId × Route A)} {oracle : NextHopOracle}
    {w : PeerId × Route A} (h : select_best_with_oracle cands oracle = some w) :
    w ∈ cands ∧ usable oracle w.2 = true := by
  have hw := max_by_mem h
  rw [List.mem_filterMap] at hw
  obtain ⟨n, -, hn⟩ := hw
  have hgroup := max_by_mem hn
  rw [group_of, List.mem_filter, List.mem_filter] at hgroup
  exact hgroup.1

omit [IpAddress A] in
theorem max_by_eq_none_iff {α : Type} {cmp : α → α → Ordering} {l : List α} :
    max_by cmp l = none ↔ l = [] := by
  cases l with
  | nil => exact iff_of_true rfl rfl
  | cons x xs => exact iff_of_false (Option.some_ne_none _) (List.cons_ne_nil x xs)

theorem select_best_isSome_iff :
    (select_best_with_oracle cands oracle).isSome ↔ ∃ c ∈ cands, usable oracle c.2 = true := by
  constructor
  · intro h
    obtain ⟨w, hw⟩ := Option.isSome_iff_exists.1 h
    exact ⟨w, select_best_mem hw⟩
  · rintro ⟨c, hc, husable⟩
    rw [Option.isSome_iff_ne_none]
    intro hnone
    have hwinners := max_by_eq_none_iff.1 hnone
    have hreach : c ∈ cands.filter fun c => usable oracle c.2 :=
      List.mem_filter.2 ⟨hc, husable⟩
    -- the group of `c` has a winner
    have hgroup : c ∈ group_of (cands.filter fun c => usable oracle c.2)
        c.2.as_path.neighboring_as :=
      List.mem_filter.2 ⟨hreach, beq_self_eq_true _⟩
    have hneighbor : c.2.as_path.neighboring_as ∈ ((cands.filter fun c => usable oracle c.2).map
        fun c => c.2.as_path.neighboring_as).eraseDups :=
      List.mem_eraseDups.2 (List.mem_map_of_mem hreach)
    have hlost := List.filterMap_eq_nil_iff.1 hwinners _ hneighbor
    rw [max_by_eq_none_iff] at hlost
    rw [hlost] at hgroup
    cases hgroup

end

end

end Pathvector
