/-
# Best-path selection as elimination

RFC 4271, section 9.1.2.2, describes the choice of a route as a series of eliminations from the
set of all candidates. `eliminate` is that series with the steps this implementation has, each
saying in its own words when one route is better than another.

`select_best_with_oracle` holds a knock-out in each neighbouring AS and then among the winners,
with a comparator that goes through all steps for two routes at a time. With the BGP Identifiers
known, and the IGP metrics known of all usable routes or of none, the comparator is a
lexicographic one by numeric keys but for MED, and the library of grouped elimination applies.
-/
import Mathlib
import Pathvector.Lib.Elimination
import Pathvector.Rib.Preference

set_option autoImplicit false

namespace Pathvector

open Elimination

section

variable {A : Type} [IpAddress A]

/-! ## The elimination -/

/-- The IGP metric to a route's next hop. -/
def metric_of (oracle : NextHopOracle) (r : Route A) : Option UInt32 :=
  r.next_hop.bind oracle.igp_metric

/-- The routes left by eliminating step by step. Each criterion says when `y` is better than
`x`. -/
def eliminate (oracle : NextHopOracle) (cands : List (PeerId × Route A)) :
    List (PeerId × Route A) :=
  -- the next hop is reachable
  let l := cands.filter fun c => usable oracle c.2
  -- not stale
  let l := survivors (fun y x => y.2.stale = false ∧ x.2.stale = true) l
  -- highest LOCAL_PREF, 100 where there is none
  let l := survivors (fun y x =>
    (x.2.local_pref.getD LocalPref.DEFAULT).toNat < (y.2.local_pref.getD LocalPref.DEFAULT).toNat) l
  -- shortest AS_PATH
  let l := survivors (fun y x => y.2.as_path.path_length < x.2.as_path.path_length) l
  -- lowest ORIGIN
  let l := survivors (fun y x => y.2.origin.as_u8.toNat < x.2.origin.as_u8.toNat) l
  -- lowest MED of the same known neighbouring AS, 0 where there is none
  let l := survivors (fun y x => y.2.as_path.neighboring_as.isSome ∧
    y.2.as_path.neighboring_as = x.2.as_path.neighboring_as ∧
    (y.2.med.getD 0).toNat < (x.2.med.getD 0).toNat) l
  -- type of the session
  let l := survivors (fun y x => peer_type_rank x.2.peer_type < peer_type_rank y.2.peer_type) l
  -- lowest IGP metric
  let l := survivors (fun y x => ∃ m ∈ metric_of oracle y.2, ∃ n ∈ metric_of oracle x.2,
    m.toNat < n.toNat) l
  -- oldest, of eBGP routes
  let l := survivors (fun y x => y.2.peer_type = .External ∧ x.2.peer_type = .External ∧
    y.2.received_at.toNat < x.2.received_at.toNat) l
  -- lowest BGP Identifier
  let l := survivors (fun y x => ∃ i ∈ y.2.peer_bgp_id, ∃ j ∈ x.2.peer_bgp_id, i.cmp j = .lt) l
  -- lowest peer address
  survivors (fun y x => y.1.cmp x.1 = .lt) l

/-! ## The steps as keys -/

/-- The place of an address in the order of addresses. -/
def IpAddr.rank : IpAddr → ℕ
  | .V4 a => a.bits.toNat
  | .V6 a => 2 ^ 32 + a.bits.toNat

theorem IpAddr.cmp_eq_compare (a b : IpAddr) : a.cmp b = compare a.rank b.rank := by
  cases a with
  | V4 a => cases b with
    | V4 b => rfl
    | V6 b =>
      refine (Nat.compare_eq_lt.2 ?_).symm
      show a.bits.toNat < 2 ^ 32 + b.bits.toNat
      omega
  | V6 a => cases b with
    | V4 b =>
      refine (Nat.compare_eq_gt.2 ?_).symm
      show b.bits.toNat < 2 ^ 32 + a.bits.toNat
      omega
    | V6 b =>
      show compare a.bits.toNat b.bits.toNat = compare (2 ^ 32 + _) (2 ^ 32 + _)
      rw [Nat.compare_eq_ite_lt, Nat.compare_eq_ite_lt]
      simp only [Nat.add_lt_add_iff_left]

abbrev Candidate (A : Type) [IpAddress A] : Type := PeerId × Route A

variable {cands : List (Candidate A)} {x y c w : Candidate A}

def fresh_key (c : Candidate A) : ℕ := (!c.2.stale).toNat

def pref_key (c : Candidate A) : ℕ := (c.2.local_pref.getD LocalPref.DEFAULT).toNat

def length_key (c : Candidate A) : ℕ := c.2.as_path.path_length

def origin_key (c : Candidate A) : ℕ := c.2.origin.as_u8.toNat

def neighbor (c : Candidate A) : Option Asn := c.2.as_path.neighboring_as

/-- Without a neighbouring AS the MED does not count. -/
def med_key (c : Candidate A) : ℕ := if (neighbor c).isSome then (c.2.med.getD 0).toNat else 0

def session_key (c : Candidate A) : ℕ := peer_type_rank c.2.peer_type

def metric_key (oracle : NextHopOracle) (c : Candidate A) : ℕ :=
  (metric_of oracle c.2).elim 0 UInt32.toNat

/-- The age counts for eBGP routes. -/
def age_key (c : Candidate A) : ℕ :=
  if c.2.peer_type = .External then c.2.received_at.toNat else 0

def id_key (c : Candidate A) : ℕ := c.2.peer_bgp_id.elim 0 fun id => id.bits.toNat

def address_key (c : Candidate A) : ℕ := c.1.rank

/-- The steps before MED. -/
def steps_before (A : Type) [IpAddress A] : Candidate A → Candidate A → Ordering :=
  compareLex (by_high fresh_key) <| compareLex (by_high pref_key) <|
    compareLex (by_low length_key) (by_low origin_key)

/-- The steps after MED. -/
def steps_after (oracle : NextHopOracle) : Candidate A → Candidate A → Ordering :=
  compareLex (by_high session_key) <| compareLex (by_low (metric_key oracle)) <|
    compareLex (by_low age_key) <| compareLex (by_low id_key) (by_low address_key)

instance : Std.TransCmp (steps_before A) := by
  unfold steps_before
  infer_instance

instance (oracle : NextHopOracle) : Std.TransCmp (steps_after (A := A) oracle) := by
  unfold steps_after
  infer_instance

/-- What is asked of the usable candidates: their BGP Identifiers are known, and their IGP
metrics or none of them. -/
structure Comparable (oracle : NextHopOracle) (l : List (Candidate A)) : Prop where
  ids : ∀ c ∈ l, c.2.peer_bgp_id.isSome
  metrics : (∀ c ∈ l, (metric_of oracle c.2).isSome) ∨ ∀ c ∈ l, metric_of oracle c.2 = none

variable {oracle : NextHopOracle} {l : List (Candidate A)}

theorem prefer_med_eq (x y : Candidate A) :
    prefer_med x.2 y.2 = within neighbor (by_low med_key) x y := by
  unfold prefer_med within by_low med_key neighbor
  by_cases heq : x.2.as_path.neighboring_as = y.2.as_path.neighboring_as
  · rw [if_pos heq, heq]
    cases y.2.as_path.neighboring_as with
    | none => rfl
    | some n => simp
  · rw [if_neg heq, if_neg (by simp [heq])]

section

variable (h : Comparable oracle l) (hx : x ∈ l) (hy : y ∈ l)
include h hx hy

theorem Comparable.prefer_metric_eq :
    prefer_metric oracle x.2 y.2 = by_low (metric_key oracle) x y := by
  unfold prefer_metric by_low metric_key
  rcases h.metrics with hall | hnone
  · obtain ⟨m, hm⟩ := Option.isSome_iff_exists.1 (hall x hx)
    obtain ⟨n, hn⟩ := Option.isSome_iff_exists.1 (hall y hy)
    rw [hm, hn]
    rw [show x.2.next_hop.bind oracle.igp_metric = some m from hm,
      show y.2.next_hop.bind oracle.igp_metric = some n from hn]
    rfl
  · rw [hnone x hx, hnone y hy]
    rw [show x.2.next_hop.bind oracle.igp_metric = none from hnone x hx]
    rfl

theorem Comparable.prefer_bgp_id_eq : prefer_bgp_id x.2 y.2 = by_low id_key x y := by
  unfold prefer_bgp_id by_low id_key
  obtain ⟨i, hi⟩ := Option.isSome_iff_exists.1 (h.ids x hx)
  obtain ⟨j, hj⟩ := Option.isSome_iff_exists.1 (h.ids y hy)
  rw [hi, hj]
  rfl

/-- **The comparator of the code is that of the three groups of steps.** -/
theorem Comparable.prefer_pair_eq :
    prefer_pair oracle x y
      = full neighbor (steps_before A) (by_low med_key) (steps_after oracle) x y := by
  unfold prefer_pair prefer full steps_before steps_after compareLex
  rw [prefer_med_eq, h.prefer_metric_eq hx hy, h.prefer_bgp_id_eq hx hy, IpAddr.cmp_eq_compare]
  simp only [Ordering.then_assoc]
  refine then_congr fun _ => then_congr fun _ => then_congr fun _ => then_congr fun _ =>
    then_congr fun _ => then_congr fun hrank => then_congr fun _ => ?_
  -- of two routes of one rank both are eBGP routes or neither is
  rw [Std.compare_eq_iff_eq] at hrank
  have hext : x.2.peer_type = .External ↔ y.2.peer_type = .External := by
    rw [external_iff_rank, external_iff_rank, hrank]
  have hage : (if x.2.peer_type = .External
      then compare y.2.received_at.toNat x.2.received_at.toNat else .eq)
      = by_low age_key x y := by
    unfold by_low age_key
    by_cases hx : x.2.peer_type = .External
    · rw [if_pos hx, if_pos hx, if_pos (hext.1 hx)]
    · rw [if_neg hx, if_neg hx, if_neg fun hy => hx (hext.2 hy)]
      rfl
  rw [hage]
  rfl

end

theorem Comparable.subset {l' : List (Candidate A)} (h : Comparable oracle l) (hsub : l' ⊆ l) :
    Comparable oracle l' where
  ids c hc := h.ids c (hsub hc)
  metrics := h.metrics.imp (fun hall c hc => hall c (hsub hc)) fun hnone c hc => hnone c (hsub hc)

/-! ## The criteria as comparators -/

theorem fresh_step (l : List (Candidate A)) :
    survivors (fun y x => y.2.stale = false ∧ x.2.stale = true) l
      = survivors (preferred (by_high fresh_key)) l := by
  refine survivors_congr fun x _ y _ => ?_
  rw [preferred_by_high]
  unfold fresh_key
  cases y.2.stale <;> cases x.2.stale <;> decide

theorem med_step (l : List (Candidate A)) :
    survivors (fun y x => y.2.as_path.neighboring_as.isSome ∧
        y.2.as_path.neighboring_as = x.2.as_path.neighboring_as ∧
        (y.2.med.getD 0).toNat < (x.2.med.getD 0).toNat) l
      = survivors (preferred (within neighbor (by_low med_key))) l := by
  refine survivors_congr fun x _ y _ => ?_
  constructor
  · rintro ⟨hsome, heq, hlt⟩
    have hy : (neighbor y).isSome := hsome
    have hx : (neighbor x).isSome := (congrArg Option.isSome heq).symm.trans hsome
    have hkey : med_key y < med_key x := by
      unfold med_key
      rw [if_pos hx, if_pos hy]
      exact hlt
    rw [preferred, within, if_pos (show neighbor y = neighbor x from heq)]
    exact preferred_by_low.2 hkey
  · intro h
    have heq := gt_of_within h
    rw [preferred, within, if_pos heq] at h
    have hkey : med_key y < med_key x := preferred_by_low.1 h
    unfold med_key at hkey
    rw [heq] at hkey
    by_cases hsome : (neighbor x).isSome
    · rw [if_pos hsome, if_pos hsome] at hkey
      exact ⟨(congrArg Option.isSome heq).trans hsome, heq, hkey⟩
    · rw [if_neg hsome, if_neg hsome] at hkey
      exact absurd hkey (lt_irrefl 0)

theorem Comparable.metric_step (h : Comparable oracle l) :
    survivors (fun y x => ∃ m ∈ metric_of oracle y.2, ∃ n ∈ metric_of oracle x.2,
        m.toNat < n.toNat) l = survivors (preferred (by_low (metric_key oracle))) l := by
  refine survivors_congr fun x hx y hy => ?_
  rw [preferred_by_low]
  unfold metric_key
  rcases h.metrics with hall | hnone
  · obtain ⟨m, hm⟩ := Option.isSome_iff_exists.1 (hall y hy)
    obtain ⟨n, hn⟩ := Option.isSome_iff_exists.1 (hall x hx)
    rw [hm, hn]
    simp
  · rw [hnone x hx, hnone y hy]
    simp

theorem age_step (hties : ∀ x ∈ l, ∀ y ∈ l, session_key x = session_key y) :
    survivors (fun y x => y.2.peer_type = .External ∧ x.2.peer_type = .External ∧
        y.2.received_at.toNat < x.2.received_at.toNat) l
      = survivors (preferred (by_low age_key)) l := by
  refine survivors_congr fun x hx y hy => ?_
  have hext : y.2.peer_type = .External ↔ x.2.peer_type = .External := by
    rw [external_iff_rank, external_iff_rank]
    exact iff_of_eq (congrArg (· = 1) (hties y hy x hx))
  rw [preferred_by_low]
  unfold age_key
  by_cases hxe : x.2.peer_type = .External
  · rw [if_pos hxe, if_pos (hext.2 hxe)]
    simp only [hxe, hext.2 hxe, true_and]
  · rw [if_neg hxe, if_neg fun hye => hxe (hext.1 hye)]
    simp only [hxe, false_and, and_false, lt_irrefl]

theorem Comparable.id_step (h : Comparable oracle l) :
    survivors (fun y x => ∃ i ∈ y.2.peer_bgp_id, ∃ j ∈ x.2.peer_bgp_id, i.cmp j = .lt) l
      = survivors (preferred (by_low id_key)) l := by
  refine survivors_congr fun x hx y hy => ?_
  obtain ⟨i, hi⟩ := Option.isSome_iff_exists.1 (h.ids y hy)
  obtain ⟨j, hj⟩ := Option.isSome_iff_exists.1 (h.ids x hx)
  rw [preferred_by_low]
  unfold id_key
  rw [hi, hj]
  simp [Ipv4Addr.cmp, Nat.compare_eq_lt]

theorem address_step (l : List (Candidate A)) :
    survivors (fun y x => y.1.cmp x.1 = .lt) l = survivors (preferred (by_low address_key)) l := by
  refine survivors_congr fun x _ y _ => ?_
  rw [preferred_by_low, IpAddr.cmp_eq_compare, Nat.compare_eq_lt]
  rfl

/-- **The elimination in three groups of steps.** -/
theorem eliminate_eq (h : Comparable oracle (reachable oracle cands)) :
    eliminate oracle cands
      = survivors (preferred (steps_after oracle))
        (survivors (preferred (within neighbor (by_low med_key)))
          (survivors (preferred (steps_before A)) (reachable oracle cands))) := by
  unfold steps_before steps_after
  simp only [survivors_then]
  unfold eliminate
  dsimp only
  rw [show (cands.filter fun c => usable oracle c.2) = reachable oracle cands from rfl]
  -- the steps up to the session type say the same word for word
  rw [fresh_step, med_step, address_step]
  have hpref : ∀ l : List (Candidate A), survivors (fun y x =>
      (x.2.local_pref.getD LocalPref.DEFAULT).toNat
        < (y.2.local_pref.getD LocalPref.DEFAULT).toNat) l
      = survivors (preferred (by_high pref_key)) l :=
    fun l => survivors_congr fun _ _ _ _ => preferred_by_high.symm
  have hlength : ∀ l : List (Candidate A), survivors (fun y x =>
      y.2.as_path.path_length < x.2.as_path.path_length) l
      = survivors (preferred (by_low length_key)) l :=
    fun l => survivors_congr fun _ _ _ _ => preferred_by_low.symm
  have horigin : ∀ l : List (Candidate A), survivors (fun y x =>
      y.2.origin.as_u8.toNat < x.2.origin.as_u8.toNat) l
      = survivors (preferred (by_low origin_key)) l :=
    fun l => survivors_congr fun _ _ _ _ => preferred_by_low.symm
  have hsession : ∀ l : List (Candidate A), survivors (fun y x =>
      peer_type_rank x.2.peer_type < peer_type_rank y.2.peer_type) l
      = survivors (preferred (by_high session_key)) l :=
    fun l => survivors_congr fun _ _ _ _ => preferred_by_high.symm
  rw [hpref, hlength, horigin, hsession]
  -- the rest look at routes that are left
  generalize hl : survivors (preferred (within (neighbor (A := A)) (by_low med_key))) _ = l
  have hsub : l ⊆ reachable oracle cands := by
    rw [← hl]
    intro x hx
    have hx := survivors_subset _ (survivors_subset _ (survivors_subset _
      (survivors_subset _ (survivors_subset _ hx))))
    exact hx
  have hcomp := h.subset hsub
  have hleft : survivors (preferred (by_high session_key)) l ⊆ l := survivors_subset l
  rw [Comparable.metric_step (hcomp.subset hleft), age_step, Comparable.id_step]
  · apply hcomp.subset
    intro x hx
    exact survivors_subset _ (survivors_subset _ (survivors_subset _ hx))
  · intro x hx y hy
    have htie := eq_of_mem_survivors (survivors_subset _ hx) (survivors_subset _ hy)
    exact Std.compare_eq_iff_eq.1 htie

/-! ## The selection -/

theorem beats_iff_full (h : Comparable oracle (reachable oracle cands))
    (hx : x ∈ reachable oracle cands) (hy : y ∈ reachable oracle cands) :
    beats oracle x y ↔
      full neighbor (steps_before A) (by_low med_key) (steps_after oracle) x y = .gt := by
  unfold beats
  rw [h.prefer_pair_eq hx hy]

theorem champion_of_group_beats (hpeers : (cands.map Prod.fst).Nodup)
    (h : Comparable oracle (reachable oracle cands)) {n : Option Asn}
    (hc : Knockout.champion (beats oracle) (group_of (reachable oracle cands) n) = some c)
    (hx : x ∈ reachable oracle cands) (hn : neighbor x = n) (hne : x ≠ c) : beats oracle c x := by
  refine Knockout.champion_beats_of_trans (decides_group hpeers n) ?_ hc
    (mem_group_of.2 ⟨hx, hn⟩) hne
  intro a ha b hb z hz _ hab hbz
  obtain ⟨ha, han⟩ := mem_group_of.1 ha
  obtain ⟨hb, hbn⟩ := mem_group_of.1 hb
  obtain ⟨hz, hzn⟩ := mem_group_of.1 hz
  rw [beats_iff_full h ha hb] at hab
  rw [beats_iff_full h hb hz] at hbz
  rw [beats_iff_full h ha hz]
  have hgroup_ab : neighbor a = neighbor b := han.trans hbn.symm
  have hgroup_bz : neighbor b = neighbor z := hbn.trans hzn.symm
  exact full_trans hgroup_ab hgroup_bz hab hbz

theorem full_of_ne (hne : neighbor x ≠ neighbor y) :
    full neighbor (steps_before A) (by_low med_key) (steps_after oracle) x y
      = compareLex (steps_before A) (steps_after oracle) x y := by
  unfold full within compareLex
  rw [if_neg hne]
  rfl

theorem champion_of_winners_beats (hpeers : (cands.map Prod.fst).Nodup)
    (h : Comparable oracle (reachable oracle cands)) {winners : List (Candidate A)}
    (hsub : winners ⊆ reachable oracle cands)
    (hgroups : ∀ x ∈ winners, ∀ y ∈ winners, x ≠ y → neighbor x ≠ neighbor y)
    (hw : Knockout.champion (beats oracle) winners = some w) (hc : c ∈ winners) (hne : c ≠ w) :
    beats oracle w c := by
  have hdec : Knockout.Decides (beats oracle) winners := by
    apply (decides_of_nodup hpeers oracle).subset
    intro x hx
    exact (mem_reachable.1 (hsub hx)).1
  refine Knockout.champion_beats_of_trans hdec ?_ hw hc hne
  intro a ha b hb z hz haz hab hbz
  have hab' : a ≠ b := by
    rintro rfl
    exact not_beats_of_beats a a hab hab
  have hbz' : b ≠ z := by
    rintro rfl
    exact not_beats_of_beats b b hbz hbz
  rw [beats_iff_full h (hsub ha) (hsub hb), full_of_ne (hgroups a ha b hb hab')] at hab
  rw [beats_iff_full h (hsub hb) (hsub hz), full_of_ne (hgroups b hb z hz hbz')] at hbz
  rw [beats_iff_full h (hsub ha) (hsub hz), full_of_ne (hgroups a ha z hz haz)]
  exact Std.TransCmp.gt_trans hab hbz

theorem wins_of_selected (hpeers : (cands.map Prod.fst).Nodup)
    (h : Comparable oracle (reachable oracle cands)) {groups : List (Option Asn)}
    (hgroups : groups.Perm (neighbors oracle cands))
    (hw : select_with_groups cands groups oracle = some w) :
    Wins neighbor (steps_before A) (by_low med_key) (steps_after oracle)
      (reachable oracle cands) w := by
  obtain ⟨hwr, hown⟩ := select_with_groups_mem hw
  refine ⟨hwr, ?_, ?_⟩
  · intro x hx hg hne
    rw [← beats_iff_full h hwr hx]
    exact champion_of_group_beats hpeers h hown hx hg hne
  · intro x hx hg
    -- the winner of the group of `x`
    have hgroup : x ∈ group_of (reachable oracle cands) (neighbor x) := mem_group_of.2 ⟨hx, rfl⟩
    obtain ⟨c, hc⟩ : ∃ c, Knockout.champion (beats oracle)
        (group_of (reachable oracle cands) (neighbor x)) = some c := by
      rw [← Option.isSome_iff_exists, Option.isSome_iff_ne_none, ne_eq, Knockout.champion_eq_none]
      exact List.ne_nil_of_mem hgroup
    obtain ⟨hcr, hcn⟩ := mem_group_of.1 (Knockout.champion_mem hc)
    have hcw : c ≠ w := by
      rintro rfl
      exact hg hcn.symm
    refine ⟨c, hcr, hcn, ?_, ?_⟩
    · by_cases hcx : c = x
      · exact .inl hcx
      · rw [← beats_iff_full h hcr hx]
        exact .inr (champion_of_group_beats hpeers h hc hx rfl (Ne.symm hcx))
    · rw [← beats_iff_full h hwr hcr]
      unfold select_with_groups at hw
      refine champion_of_winners_beats hpeers h ?_ ?_ hw (mem_winners.2 ⟨?_, ?_⟩) hcw
      · intro y hy
        exact (mem_group_of.1 (Knockout.champion_mem (mem_winners.1 hy).2)).1
      · intro y hy z hz hyz heq
        have hy' := (mem_winners.1 hy).2
        have hz' := (mem_winners.1 hz).2
        rw [show y.2.as_path.neighboring_as = z.2.as_path.neighboring_as from heq, hz'] at hy'
        exact hyz (Option.some.inj hy').symm
      · exact hgroups.mem_iff.2 (mem_neighbors.2 ⟨c, hcr, rfl⟩)
      · rw [show c.2.as_path.neighboring_as = neighbor x from hcn]
        exact hc

/-- **The selection is the elimination**, for every order of the groups. -/
theorem select_eliminates {cands : List (Candidate A)} (hpeers : (cands.map Prod.fst).Nodup)
    (hids : ∀ c ∈ cands, c.2.peer_bgp_id.isSome)
    (hmetrics : (∀ c ∈ reachable oracle cands, (metric_of oracle c.2).isSome) ∨
      ∀ c ∈ reachable oracle cands, metric_of oracle c.2 = none) :
    (select_best_with_oracle cands oracle).toList = eliminate oracle cands ∧
      ∀ groups, groups.Perm (neighbors oracle cands) →
        (select_with_groups cands groups oracle).toList = eliminate oracle cands := by
  have hcomp : Comparable oracle (reachable oracle cands) :=
    ⟨fun c hc => hids c (mem_reachable.1 hc).1, hmetrics⟩
  have hall : ∀ groups, groups.Perm (neighbors oracle cands) →
      (select_with_groups cands groups oracle).toList = eliminate oracle cands := by
    intro groups hgroups
    rw [eliminate_eq hcomp]
    cases hsel : select_with_groups cands groups oracle with
    | some w =>
      have hnodup : (reachable oracle cands).Nodup := (nodup_of_peers hpeers).filter _
      exact (survivors_of_grouped hnodup (wins_of_selected hpeers hcomp hgroups hsel)).symm
    | none =>
      -- nothing is usable
      have hempty : reachable oracle cands = [] := by
        rw [List.eq_nil_iff_forall_not_mem]
        intro c hc
        have hwinners := max_by_eq_none_iff.1 hsel
        have hneighbor := hgroups.mem_iff.2 (mem_neighbors.2 ⟨c, hc, rfl⟩)
        have hgroup := max_by_eq_none_iff.1 (List.filterMap_eq_nil_iff.1 hwinners _ hneighbor)
        exact List.ne_nil_of_mem (mem_group_of.2 ⟨hc, rfl⟩) hgroup
      rw [hempty]
      rfl
  exact ⟨hall _ List.Perm.rfl, hall⟩

end

/-- Two routes through AS 65001 with different MEDs, and one through AS 65002 between them. -/
def three_neighbors : List (Candidate Ipv4Addr) :=
  let via (host : UInt8) (asn : Asn) (med : Med) (id : UInt8) : Candidate Ipv4Addr :=
    (.V4 (Ipv4Addr.new 10 0 0 host),
      { Route.build (Nlri.v4 10 0 0 0 8) .Igp (AsPath.from_sequence [asn]) 0 with
        med := some med, peer_bgp_id := some (Ipv4Addr.new id id id id) })
  [via 1 65001 20 1, via 2 65002 30 2, via 3 65001 10 3]

/-- The lowest Identifier loses on MED in its own AS, and what is left of the AS to the other. -/
theorem three_neighbors_eliminated :
    (select_best_with_oracle three_neighbors .AlwaysReachable).toList
        = eliminate .AlwaysReachable three_neighbors ∧
      (eliminate .AlwaysReachable three_neighbors).map Prod.fst = [.V4 (Ipv4Addr.new 10 0 0 2)] :=
  ⟨(select_eliminates (by decide +kernel) (by decide +kernel)
    (.inr (by decide +kernel))).1, by decide +kernel⟩

end Pathvector
