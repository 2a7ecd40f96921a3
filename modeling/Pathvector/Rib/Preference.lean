/-
# The order of preference

`prefer` takes sides between any two candidates of different peers (`prefer_swap`,
`decides_of_nodup`), so `max_by` is a knock-out. It is not always transitive: the steps that
compare IGP metrics and BGP Identifiers are skipped for a pair of which one is unknown.

The candidates and the groups by neighbouring AS come out of hash maps. `select_with_groups` is
`select_best_with_oracle` for any order of the groups, and `orderFree_iff` says for which
candidates neither order matters: one of them beats all others of its own group, and everyone
who could come out of another group.
-/
import Pathvector.Lib.Champion
import Pathvector.Rib.BestPath

set_option autoImplicit false

namespace Pathvector

/-! ## Two candidates -/

theorem Ipv4Addr.cmp_swap (a b : Ipv4Addr) : (a.cmp b).swap = b.cmp a :=
  Nat.compare_swap ..

theorem IpAddr.cmp_swap (a b : IpAddr) : (a.cmp b).swap = b.cmp a := by
  cases a with
  | V4 a => cases b with
    | V4 b => exact Nat.compare_swap ..
    | V6 b => rfl
  | V6 a => cases b with
    | V4 b => rfl
    | V6 b => exact Nat.compare_swap ..

theorem Ipv4Addr.cmp_eq_iff (a b : Ipv4Addr) : a.cmp b = .eq ↔ a = b := by
  unfold Ipv4Addr.cmp
  rw [Std.compare_eq_iff_eq, ← BitVec.toNat_eq]
  cases a
  cases b
  simp

theorem IpAddr.cmp_eq_iff (a b : IpAddr) : a.cmp b = .eq ↔ a = b := by
  cases a with
  | V4 a => cases b with
    | V4 b =>
      rw [IpAddr.V4.injEq]
      exact a.cmp_eq_iff b
    | V6 b => exact iff_of_false (by simp [cmp]) (by simp)
  | V6 a => cases b with
    | V4 b => exact iff_of_false (by simp [cmp]) (by simp)
    | V6 b =>
      rw [IpAddr.V6.injEq]
      show compare a.bits.toNat b.bits.toNat = .eq ↔ a = b
      rw [Std.compare_eq_iff_eq, ← BitVec.toNat_eq]
      cases a
      cases b
      simp

/-- A step of a comparison counts only where the steps before it leave a tie. -/
theorem then_congr {o p q : Ordering} (h : o = .eq → p = q) : o.then p = o.then q := by
  cases o with
  | lt => rfl
  | eq => exact h rfl
  | gt => rfl

section

variable {A : Type} [IpAddress A]
variable {c w x y : PeerId × Route A} {l l' : List (PeerId × Route A)} {groups : List (Option Asn)}
  {n : Option Asn}

section

variable {oracle : NextHopOracle} {cands : List (PeerId × Route A)} (p : PeerId) (a : Route A)
  (q : PeerId) (b : Route A)

theorem external_iff_rank (t : PeerType) : t = .External ↔ peer_type_rank t = 1 := by
  cases t <;> decide

theorem prefer_med_swap : (prefer_med a b).swap = prefer_med b a := by
  unfold prefer_med
  by_cases heq : a.as_path.neighboring_as = b.as_path.neighboring_as
  · rw [heq]
    split
    · exact Nat.compare_swap ..
    · rfl
  · rw [if_neg (by simp [heq]), if_neg (by simp [Ne.symm heq])]
    rfl

theorem prefer_metric_swap (oracle : NextHopOracle) (a b : Route A) :
    (prefer_metric oracle a b).swap = prefer_metric oracle b a := by
  unfold prefer_metric
  cases a.next_hop.bind oracle.igp_metric with
  | none => cases b.next_hop.bind oracle.igp_metric <;> rfl
  | some ma => cases b.next_hop.bind oracle.igp_metric with
    | none => rfl
    | some mb => exact Nat.compare_swap ..

theorem prefer_bgp_id_swap : (prefer_bgp_id a b).swap = prefer_bgp_id b a := by
  unfold prefer_bgp_id
  cases a.peer_bgp_id with
  | none => cases b.peer_bgp_id <;> rfl
  | some ida => cases b.peer_bgp_id with
    | none => rfl
    | some idb => exact Ipv4Addr.cmp_swap ..

/-- **Seen from the other side, the preference is the opposite one.** -/
theorem prefer_swap (oracle : NextHopOracle) :
    (prefer p a q b oracle).swap = prefer q b p a oracle := by
  unfold prefer
  simp only [Ordering.swap_then, Nat.compare_swap, prefer_med_swap, prefer_metric_swap,
    prefer_bgp_id_swap, IpAddr.cmp_swap]
  -- only the age step looks at one side alone, and by then the session types are of one rank
  refine then_congr fun _ => then_congr fun _ => then_congr fun _ => then_congr fun _ =>
    then_congr fun _ => then_congr fun hrank => then_congr fun _ => ?_
  rw [Std.compare_eq_iff_eq] at hrank
  congr 1
  by_cases ha : a.peer_type = .External
  · have hb : b.peer_type = .External := by
      rw [external_iff_rank] at ha ⊢
      rw [hrank, ha]
    rw [if_pos ha, if_pos hb, Nat.compare_swap]
  · have hb : b.peer_type ≠ .External := by
      intro hb
      rw [external_iff_rank] at ha hb
      exact ha (hrank ▸ hb)
    rw [if_neg ha, if_neg hb]
    rfl

theorem prefer_eq_imp {p q : PeerId} {a b : Route A} (h : prefer p a q b oracle = .eq) : p = q := by
  unfold prefer at h
  simp only [Ordering.then_eq_eq] at h
  exact ((IpAddr.cmp_eq_iff q p).1 h.2.2.2.2.2.2.2.2.2).symm

/-- One candidate is preferred to another. -/
def beats (oracle : NextHopOracle) (x y : PeerId × Route A) : Prop :=
  prefer_pair oracle x y = .gt

instance (oracle : NextHopOracle) : DecidableRel (beats (A := A) oracle) :=
  fun _ _ => inferInstanceAs (Decidable (_ = _))

theorem not_beats_of_beats (x y : PeerId × Route A) (h : beats oracle x y) : ¬beats oracle y x := by
  intro h'
  have hswap := prefer_swap x.1 x.2 y.1 y.2 oracle
  rw [show prefer x.1 x.2 y.1 y.2 oracle = .gt from h,
    show prefer y.1 y.2 x.1 x.2 oracle = .gt from h'] at hswap
  cases hswap

theorem beats_of_not_beats (hne : x.1 ≠ y.1) (h : ¬beats oracle y x) : beats oracle x y := by
  have hswap := prefer_swap y.1 y.2 x.1 x.2 oracle
  cases ho : prefer y.1 y.2 x.1 x.2 oracle with
  | lt =>
    rw [ho] at hswap
    exact hswap.symm
  | eq => exact absurd (prefer_eq_imp ho).symm hne
  | gt => exact absurd ho h

theorem eq_of_fst_eq (hpeers : (cands.map Prod.fst).Nodup) (hx : x ∈ cands) (hy : y ∈ cands)
    (h : x.1 = y.1) : x = y :=
  List.inj_on_of_nodup_map hpeers hx hy h

theorem decides_of_nodup (hpeers : (cands.map Prod.fst).Nodup) (oracle : NextHopOracle) :
    Knockout.Decides (beats oracle) cands := by
  intro x hx y hy hne
  constructor
  · exact not_beats_of_beats x y
  · exact beats_of_not_beats fun h => hne (eq_of_fst_eq hpeers hx hy h)

end

theorem max_by_eq_champion (oracle : NextHopOracle) (l : List (PeerId × Route A)) :
    max_by (prefer_pair oracle) l = Knockout.champion (beats oracle) l := by
  cases l with
  | nil => rfl
  | cons x xs => rfl

/-! ## The groups -/

section

variable (oracle : NextHopOracle) (cands : List (PeerId × Route A))

/-- The usable candidates. -/
def reachable : List (PeerId × Route A) :=
  cands.filter fun c => usable oracle c.2

/-- The neighbouring ASes of the usable candidates, in the order they are met. -/
def neighbors : List (Option Asn) :=
  ((reachable oracle cands).map fun c => c.2.as_path.neighboring_as).eraseDups

/-- `select_best_with_oracle` with the groups in a given order. -/
def select_with_groups (groups : List (Option Asn)) (oracle : NextHopOracle) :
    Option (PeerId × Route A) :=
  max_by (prefer_pair oracle) <| groups.filterMap fun n =>
    max_by (prefer_pair oracle) (group_of (reachable oracle cands) n)

end

section

variable {oracle : NextHopOracle} {cands : List (PeerId × Route A)}

theorem select_best_eq (cands : List (PeerId × Route A)) (oracle : NextHopOracle) :
    select_best_with_oracle cands oracle
      = select_with_groups cands (neighbors oracle cands) oracle :=
  rfl

theorem mem_reachable : c ∈ reachable oracle cands ↔ c ∈ cands ∧ usable oracle c.2 = true :=
  List.mem_filter

theorem mem_group_of : c ∈ group_of l n ↔ c ∈ l ∧ c.2.as_path.neighboring_as = n := by
  unfold group_of
  rw [List.mem_filter, beq_iff_eq]

theorem mem_neighbors :
    n ∈ neighbors oracle cands ↔ ∃ c ∈ reachable oracle cands, c.2.as_path.neighboring_as = n := by
  unfold neighbors
  rw [List.mem_eraseDups, List.mem_map]

theorem mem_winners :
    (c ∈ groups.filterMap fun n =>
        max_by (prefer_pair oracle) (group_of (reachable oracle cands) n)) ↔
      c.2.as_path.neighboring_as ∈ groups ∧
        Knockout.champion (beats oracle)
          (group_of (reachable oracle cands) c.2.as_path.neighboring_as) = some c := by
  simp only [List.mem_filterMap, max_by_eq_champion]
  constructor
  · rintro ⟨n, hn, hc⟩
    have hgroup := (mem_group_of.1 (Knockout.champion_mem hc)).2
    rw [hgroup]
    exact ⟨hn, hc⟩
  · rintro ⟨hn, hc⟩
    exact ⟨_, hn, hc⟩

theorem select_with_groups_mem (h : select_with_groups cands groups oracle = some w) :
    w ∈ reachable oracle cands ∧
      Knockout.champion (beats oracle)
        (group_of (reachable oracle cands) w.2.as_path.neighboring_as) = some w := by
  have hw := (mem_winners.1 (max_by_mem h)).2
  exact ⟨(mem_group_of.1 (Knockout.champion_mem hw)).1, hw⟩

end

/-! ## Every order -/

/-- The candidates `c` stands up for its group in some order. -/
def CanLead (oracle : NextHopOracle) (cands : List (PeerId × Route A)) (c : PeerId × Route A) :
    Prop :=
  Knockout.Leads (beats oracle)
    (group_of (reachable oracle cands) c.2.as_path.neighboring_as) c

/-- If a candidate is usable at all, then one of them beats all others of its neighbouring AS
and everyone who can come out of another group. -/
def Settled (oracle : NextHopOracle) (cands : List (PeerId × Route A)) : Prop :=
  (∃ c ∈ cands, usable oracle c.2 = true) →
    ∃ w ∈ cands, usable oracle w.2 = true ∧
      ∀ c ∈ cands, usable oracle c.2 = true → c ≠ w →
        (c.2.as_path.neighboring_as = w.2.as_path.neighboring_as ∨ CanLead oracle cands c) →
          beats oracle w c

variable {oracle : NextHopOracle} {cands cands' : List (PeerId × Route A)}

theorem perm_group_of (h : l'.Perm l) (n : Option Asn) : (group_of l' n).Perm (group_of l n) :=
  h.filter _

theorem perm_reachable (h : cands'.Perm cands) :
    (reachable oracle cands').Perm (reachable oracle cands) :=
  h.filter _

theorem nodup_of_peers (hpeers : (cands.map Prod.fst).Nodup) : cands.Nodup :=
  List.Nodup.of_map _ hpeers

theorem nodup_group (hpeers : (cands.map Prod.fst).Nodup) (n : Option Asn) :
    (group_of (reachable oracle cands) n).Nodup :=
  ((nodup_of_peers hpeers).filter _).filter _

theorem decides_group (hpeers : (cands.map Prod.fst).Nodup) (n : Option Asn) :
    Knockout.Decides (beats oracle) (group_of (reachable oracle cands) n) := by
  apply (decides_of_nodup hpeers oracle).subset
  intro x hx
  exact (mem_reachable.1 (mem_group_of.1 hx).1).1

theorem leads_of_perm (h : l'.Perm l) (hc : Knockout.Leads (beats oracle) l' c) :
    Knockout.Leads (beats oracle) l c := by
  intro y hy
  have hrel := hc y (h.mem_iff.2 hy)
  simp only [h.mem_iff] at hrel
  exact hrel

theorem canLead_of_champion (hpeers : (cands.map Prod.fst).Nodup) (hperm : cands'.Perm cands)
    (hc : Knockout.champion (beats oracle)
      (group_of (reachable oracle cands') c.2.as_path.neighboring_as) = some c) :
    CanLead oracle cands c := by
  have hpeers' : (cands'.map Prod.fst).Nodup := (hperm.map Prod.fst).nodup_iff.2 hpeers
  exact leads_of_perm (perm_group_of (perm_reachable hperm) _)
    (Knockout.champion_leads (decides_group hpeers' _) hc)

theorem select_of_settled (hpeers : (cands.map Prod.fst).Nodup) (hperm : cands'.Perm cands)
    (hgroups : groups.Perm (neighbors oracle cands)) (hw : w ∈ cands)
    (husable : usable oracle w.2 = true)
    (hwins : ∀ c ∈ cands, usable oracle c.2 = true → c ≠ w →
      (c.2.as_path.neighboring_as = w.2.as_path.neighboring_as ∨ CanLead oracle cands c) →
        beats oracle w c) : select_with_groups cands' groups oracle = some w := by
  have hreach : w ∈ reachable oracle cands' :=
    mem_reachable.2 ⟨hperm.mem_iff.2 hw, husable⟩
  have hback : ∀ {c : PeerId × Route A}, c ∈ reachable oracle cands' →
      c ∈ cands ∧ usable oracle c.2 = true := by
    intro c hc
    exact mem_reachable.1 ((perm_reachable hperm).mem_iff.1 hc)
  -- it wins its own group
  have hown : Knockout.champion (beats oracle)
      (group_of (reachable oracle cands') w.2.as_path.neighboring_as) = some w := by
    refine Knockout.champion_of_beats_all (mem_group_of.2 ⟨hreach, rfl⟩) ?_
    intro c hc hne
    obtain ⟨hc, hsame⟩ := mem_group_of.1 hc
    have hb := hwins c (hback hc).1 (hback hc).2 hne (.inl hsame)
    exact ⟨hb, not_beats_of_beats w c hb⟩
  -- and then the winners of the others
  unfold select_with_groups
  refine Knockout.champion_of_beats_all (mem_winners.2 ⟨?_, hown⟩) ?_
  · exact hgroups.mem_iff.2 (mem_neighbors.2 ⟨w, mem_reachable.2 ⟨hw, husable⟩, rfl⟩)
  · intro c hc hne
    have hchamp := (mem_winners.1 hc).2
    have hc' := hback (mem_group_of.1 (Knockout.champion_mem hchamp)).1
    have hb := hwins c hc'.1 hc'.2 hne (.inr (canLead_of_champion hpeers hperm hchamp))
    exact ⟨hb, not_beats_of_beats w c hb⟩

/-- A candidate that loses to another of its group does not win when that one comes last. -/
theorem select_ne_of_beaten_in_group [DecidableEq A] (hc : c ∈ cands)
    (husable : usable oracle c.2 = true) (hne : c ≠ w)
    (hsame : c.2.as_path.neighboring_as = w.2.as_path.neighboring_as) (hloses : ¬beats oracle w c)
    (groups : List (Option Asn)) :
    ∃ cands', cands'.Perm cands ∧ select_with_groups cands' groups oracle ≠ some w := by
  refine ⟨cands.erase c ++ [c], ?_, ?_⟩
  · exact List.perm_append_comm.trans (List.perm_cons_erase hc).symm
  · intro h
    have hw := (select_with_groups_mem h).2
    have hlast : group_of (reachable oracle (cands.erase c ++ [c])) w.2.as_path.neighboring_as
        = group_of (reachable oracle (cands.erase c)) w.2.as_path.neighboring_as ++ [c] := by
      unfold reachable group_of
      simp [husable, hsame]
    rw [hlast] at hw
    exact Knockout.champion_snoc_ne hne hloses hw

/-- A candidate that loses to one who can come out of another group does not win when that one
does, and its group comes last. -/
theorem select_ne_of_beaten_by_leader [DecidableEq A] (hpeers : (cands.map Prod.fst).Nodup)
    (hc : c ∈ cands) (husable : usable oracle c.2 = true) (hne : c ≠ w)
    (hlead : CanLead oracle cands c) (hloses : ¬beats oracle w c) :
    ∃ cands' groups, cands'.Perm cands ∧ groups.Perm (neighbors oracle cands) ∧
      select_with_groups cands' groups oracle ≠ some w := by
  have hreach : c ∈ reachable oracle cands := mem_reachable.2 ⟨hc, husable⟩
  -- the order of the group in which `c` wins it
  obtain ⟨order, horder, hchamp⟩ := Knockout.exists_perm_champion (nodup_group hpeers _)
    (decides_group hpeers _) not_beats_of_beats (mem_group_of.2 ⟨hreach, rfl⟩) hlead
  let inside : PeerId × Route A → Bool := fun x =>
    x.2.as_path.neighboring_as == c.2.as_path.neighboring_as && usable oracle x.2
  have hinside : group_of (reachable oracle cands) c.2.as_path.neighboring_as
      = cands.filter inside := by
    exact List.filter_filter ..
  let order' := cands.filter (fun x => !inside x) ++ order
  let groups := (neighbors oracle cands).erase c.2.as_path.neighboring_as
    ++ [c.2.as_path.neighboring_as]
  have hgroup : group_of (reachable oracle order') c.2.as_path.neighboring_as = order := by
    have hout : group_of (reachable oracle (cands.filter fun x => !inside x))
        c.2.as_path.neighboring_as = [] := by
      rw [List.eq_nil_iff_forall_not_mem]
      intro x hx
      obtain ⟨hx, hsame⟩ := mem_group_of.1 hx
      obtain ⟨hx, hus⟩ := mem_reachable.1 hx
      have hnot := (List.mem_filter.1 hx).2
      simp [inside, hsame, hus] at hnot
    have hin : group_of (reachable oracle order) c.2.as_path.neighboring_as = order := by
      unfold group_of reachable
      rw [List.filter_filter, List.filter_eq_self]
      intro x hx
      have hmem := horder.mem_iff.1 hx
      rw [hinside] at hmem
      exact (List.mem_filter.1 hmem).2
    unfold reachable group_of at hout hin ⊢
    rw [List.filter_append, List.filter_append, hout, hin, List.nil_append]
  refine ⟨order', groups, ?_, ?_, ?_⟩
  · have hpart := List.filter_append_perm inside cands
    rw [hinside] at horder
    exact List.perm_append_comm.trans ((horder.append_right _).trans hpart)
  · exact List.perm_append_comm.trans (List.perm_cons_erase (mem_neighbors.2 ⟨c, hreach, rfl⟩)).symm
  · unfold select_with_groups
    rw [max_by_eq_champion, List.filterMap_append]
    have hlast : [c.2.as_path.neighboring_as].filterMap (fun n =>
        max_by (prefer_pair oracle) (group_of (reachable oracle order') n)) = [c] := by
      rw [List.filterMap_cons, max_by_eq_champion, hgroup, hchamp]
      rfl
    rw [hlast]
    exact Knockout.champion_snoc_ne hne hloses

/-- **When the order of the hash maps does not matter.** -/
theorem orderFree_iff [DecidableEq A] (hpeers : (cands.map Prod.fst).Nodup) :
    (∀ cands' groups, cands'.Perm cands → groups.Perm (neighbors oracle cands) →
      (select_with_groups cands' groups oracle).map Prod.fst
        = (select_best_with_oracle cands oracle).map Prod.fst) ↔ Settled oracle cands := by
  constructor
  · intro hfree hsome
    obtain ⟨w, hsel⟩ := Option.isSome_iff_exists.1 ((select_best_isSome_iff cands oracle).2 hsome)
    obtain ⟨hw, husable⟩ := select_best_mem hsel
    -- the peer decides which candidate it is
    have hsame : ∀ cands' groups, cands'.Perm cands → groups.Perm (neighbors oracle cands) →
        select_with_groups cands' groups oracle = some w := by
      intro cands' groups hperm hgroups
      have hpeer := hfree cands' groups hperm hgroups
      rw [hsel] at hpeer
      obtain ⟨w', hw', heq⟩ := Option.map_eq_some_iff.1 hpeer
      have hmem := (mem_reachable.1 (select_with_groups_mem hw').1).1
      rw [hw', eq_of_fst_eq hpeers (hperm.mem_iff.1 hmem) hw heq]
    refine ⟨w, hw, husable, ?_⟩
    intro c hc hcu hne hcase
    by_contra hloses
    rcases hcase with hgroup | hlead
    · obtain ⟨cands', hperm, hnot⟩ :=
        select_ne_of_beaten_in_group hc hcu hne hgroup hloses (neighbors oracle cands)
      exact hnot (hsame cands' _ hperm List.Perm.rfl)
    · obtain ⟨cands', groups, hperm, hgroups, hnot⟩ :=
        select_ne_of_beaten_by_leader hpeers hc hcu hne hlead hloses
      exact hnot (hsame cands' groups hperm hgroups)
  · intro hsettled cands' groups hperm hgroups
    by_cases hsome : ∃ c ∈ cands, usable oracle c.2 = true
    · obtain ⟨w, hw, husable, hwins⟩ := hsettled hsome
      rw [select_of_settled hpeers hperm hgroups hw husable hwins, select_best_eq,
        select_of_settled hpeers List.Perm.rfl List.Perm.rfl hw husable hwins]
    · -- nothing is usable, and nothing is selected
      have hnone : select_best_with_oracle cands oracle = none := by
        rw [← Option.not_isSome_iff_eq_none, select_best_isSome_iff]
        exact hsome
      have hnone' : select_with_groups cands' groups oracle = none := by
        cases hsel : select_with_groups cands' groups oracle with
        | none => rfl
        | some w =>
          obtain ⟨hw, hus⟩ := mem_reachable.1 (select_with_groups_mem hsel).1
          exact absurd ⟨w, hperm.mem_iff.1 hw, hus⟩ hsome
      rw [hnone, hnone']

end

/-- A candidate of 10.0.0.`host` for 10.0.0.0/8, with a BGP Identifier or without one. -/
def candidate_of (host : UInt8) (id : Option Ipv4Addr) : PeerId × Route Ipv4Addr :=
  (.V4 (Ipv4Addr.new 10 0 0 host),
    { Route.build (Nlri.v4 10 0 0 0 8) .Igp AsPath.new 0 with peer_bgp_id := id })

/-- With both Identifiers known the lower one wins, in either order. -/
theorem two_known_settled :
    ([candidate_of 1 (some (Ipv4Addr.new 3 3 3 3)),
        candidate_of 3 (some (Ipv4Addr.new 1 1 1 1))].map Prod.fst).Nodup ∧
      ∀ cands' groups,
        cands'.Perm [candidate_of 1 (some (Ipv4Addr.new 3 3 3 3)),
          candidate_of 3 (some (Ipv4Addr.new 1 1 1 1))] →
        groups.Perm [none] →
        (select_with_groups cands' groups .AlwaysReachable).map Prod.fst
          = some (.V4 (Ipv4Addr.new 10 0 0 3)) := by
  refine ⟨by decide +kernel, (orderFree_iff (by decide +kernel)).2 ?_⟩
  intro _
  refine ⟨candidate_of 3 (some (Ipv4Addr.new 1 1 1 1)), by simp, by decide +kernel, ?_⟩
  intro c hc _ hne _
  rcases List.mem_cons.1 hc with rfl | hc
  · decide +kernel
  · exact absurd (List.mem_singleton.1 hc) hne

/-- Three candidates that differ in Identifier and address alone. The one without an Identifier
is compared by address, the other two by Identifier: each of the three loses to another, and
which one is selected depends on the order in which the hash map lists them. -/
theorem three_in_a_circle :
    let a := candidate_of 1 (some (Ipv4Addr.new 3 3 3 3))
    let b := candidate_of 2 none
    let c := candidate_of 3 (some (Ipv4Addr.new 1 1 1 1))
    ([a, b, c].map Prod.fst).Nodup ∧ [b, c, a].Perm [a, b, c] ∧
      (select_best_with_oracle [a, b, c] .AlwaysReachable).map Prod.fst = some c.1 ∧
      (select_best_with_oracle [b, c, a] .AlwaysReachable).map Prod.fst = some a.1 := by
  decide +kernel

end Pathvector
