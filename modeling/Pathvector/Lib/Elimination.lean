/-
# Elimination, step by step

A choice made by criteria of falling weight can be described in two ways: by a comparator that
goes through the criteria for two elements at a time, and by crossing out, criterion by
criterion, everyone another survivor is better than. For criteria that order all elements the
two agree (`survivors_then`).

One criterion may apply within groups only. Comparing two elements at a time is then not
transitive, and a knock-out has to be held in each group first and among the group winners
afterwards. `survivors_of_grouped` shows that its winner is still the one left by elimination.

Comparators say `.gt` when the first element is preferred.
-/
import Pathvector.Lib.Champion
import Mathlib.Order.Compare

set_option autoImplicit false

namespace Elimination

variable {α : Type*}
variable {better : α → α → Prop} {key : α → ℕ} {x y : α}

/-- Those no other survivor is better than. -/
def survivors (better : α → α → Prop) [DecidableRel better] (l : List α) : List α :=
  l.filter fun x => ∀ y ∈ l, ¬better y x

theorem mem_survivors [DecidableRel better] {l : List α} :
    x ∈ survivors better l ↔ x ∈ l ∧ ∀ y ∈ l, ¬better y x := by
  unfold survivors
  rw [List.mem_filter, decide_eq_true_iff]

theorem survivors_subset [DecidableRel better] (l : List α) : survivors better l ⊆ l :=
  fun _ hx => (mem_survivors.1 hx).1

theorem survivors_congr {r s : α → α → Prop} [DecidableRel r] [DecidableRel s] {l : List α}
    (h : ∀ x ∈ l, ∀ y ∈ l, (r y x ↔ s y x)) : survivors r l = survivors s l := by
  refine List.filter_congr fun x hx => ?_
  rw [decide_eq_decide]
  refine forall_congr' fun y => forall_congr' fun hy => ?_
  exact not_congr (h x hx y hy)

/-- The criterion of a comparator. -/
def preferred (cmp : α → α → Ordering) (x y : α) : Prop := cmp x y = .gt

instance (cmp : α → α → Ordering) : DecidableRel (preferred cmp) :=
  fun _ _ => inferInstanceAs (Decidable (_ = _))

/-- The element with the higher key is preferred. -/
def by_high (key : α → ℕ) (x y : α) : Ordering := compare (key x) (key y)

/-- The element with the lower key is preferred. -/
def by_low (key : α → ℕ) (x y : α) : Ordering := compare (key y) (key x)

instance (key : α → ℕ) : Std.TransCmp (by_high key) :=
  inferInstanceAs (Std.TransCmp (compareOn key))

instance (key : α → ℕ) : Std.TransCmp (by_low key) :=
  inferInstanceAs (Std.TransCmp fun x y => compareOn key y x)

theorem preferred_by_high : preferred (by_high key) y x ↔ key x < key y :=
  Nat.compare_eq_gt

theorem preferred_by_low : preferred (by_low key) y x ↔ key y < key x :=
  Nat.compare_eq_gt

theorem tie_self (cmp : α → α → Ordering) [Std.ReflCmp cmp] (x : α) : cmp x x = .eq :=
  Std.ReflCmp.compare_self

section Comparators

variable {pre post : α → α → Ordering} [Std.TransCmp pre]

theorem eq_of_mem_survivors {l : List α} (hx : x ∈ survivors (preferred pre) l)
    (hy : y ∈ survivors (preferred pre) l) : pre x y = .eq := by
  rw [mem_survivors] at hx hy
  have hxy : pre x y ≠ .gt := hy.2 x hx.1
  have hyx : pre y x ≠ .gt := hx.2 y hy.1
  rw [ne_eq, Std.OrientedCmp.gt_iff_lt] at hyx
  cases h : pre x y with
  | lt => exact absurd h hyx
  | eq => rfl
  | gt => exact absurd h hxy

theorem mem_survivors_of_eq {l : List α} (hx : x ∈ survivors (preferred pre) l) (hy : y ∈ l)
    (h : pre x y = .eq) : y ∈ survivors (preferred pre) l := by
  rw [mem_survivors] at hx ⊢
  refine ⟨hy, fun z hz hzy => hx.2 z hz ?_⟩
  exact Std.TransCmp.gt_of_gt_of_eq hzy (Std.OrientedCmp.eq_symm h)

/-- **Two criteria**: comparing by both at once is eliminating by one and then by the other. -/
theorem survivors_then (l : List α) :
    survivors (preferred (compareLex pre post)) l
      = survivors (preferred post) (survivors (preferred pre) l) := by
  have hfilter : survivors (preferred post) (survivors (preferred pre) l)
      = l.filter fun x => decide ((∀ y ∈ l, ¬preferred pre y x) ∧
        ∀ y ∈ survivors (preferred pre) l, ¬preferred post y x) := by
    conv_lhs => unfold survivors
    rw [List.filter_filter]
    refine List.filter_congr fun x _ => ?_
    rw [Bool.decide_and, Bool.and_comm]
    rfl
  rw [hfilter]
  refine List.filter_congr fun x hx => ?_
  rw [decide_eq_decide]
  constructor
  · intro h
    have hpre : ∀ y ∈ l, ¬preferred pre y x :=
      fun y hy hgt => h y hy (Ordering.then_eq_gt.2 (.inl hgt))
    refine ⟨hpre, fun y hy hgt => ?_⟩
    have htie := eq_of_mem_survivors hy (mem_survivors.2 ⟨hx, hpre⟩)
    exact h y (mem_survivors.1 hy).1 (Ordering.then_eq_gt.2 (.inr ⟨htie, hgt⟩))
  · rintro ⟨hpre, hpost⟩ y hy hgt
    rcases Ordering.then_eq_gt.1 hgt with h | ⟨h, hgt⟩
    · exact hpre y hy h
    · have hmem := mem_survivors.2 ⟨hx, hpre⟩
      exact hpost y (mem_survivors_of_eq hmem hy (Std.OrientedCmp.eq_symm h)) hgt

end Comparators

/-! ## A criterion within groups -/

section Grouped

variable {γ : Type*} [DecidableEq γ] (group : α → γ)
variable (pre med post : α → α → Ordering)
variable {x y : α}

/-- The criterion `med`, within groups. -/
def within (x y : α) : Ordering := if group x = group y then med x y else .eq

/-- All three criteria. -/
def full (x y : α) : Ordering := (pre x y).then ((within group med x y).then (post x y))

variable {group pre med post} [Std.TransCmp pre] [Std.TransCmp med] [Std.TransCmp post]

omit [Std.TransCmp med] in
theorem gt_of_within (h : within group med x y = .gt) : group x = group y := by
  unfold within at h
  by_contra hg
  rw [if_neg hg] at h
  cases h

theorem full_trans {z : α} (hxy : group x = group y) (hyz : group y = group z)
    (h : full group pre med post x y = .gt) (h' : full group pre med post y z = .gt) :
    full group pre med post x z = .gt := by
  have hlex : ∀ {a b : α}, group a = group b →
      full group pre med post a b = compareLex pre (compareLex med post) a b := by
    intro a b hab
    unfold full within compareLex
    rw [if_pos hab]
  rw [hlex hxy] at h
  rw [hlex hyz] at h'
  rw [hlex (hxy.trans hyz)]
  exact Std.TransCmp.gt_trans h h'

omit [Std.TransCmp pre] [Std.TransCmp med] [Std.TransCmp post] in
theorem isGE_of_full (h : full group pre med post x y = .gt) : (pre x y).isGE := by
  rcases Ordering.then_eq_gt.1 h with h | h
  · rw [h]
    rfl
  · rw [h.1]
    rfl

variable (group pre med post) in
/-- What the winner of a grouped knock-out has to show: it is preferred to everyone of its own
group, and to someone of every other group who is preferred to the rest of it. -/
structure Wins (l : List α) (w : α) : Prop where
  mem : w ∈ l
  own : ∀ x ∈ l, group x = group w → x ≠ w → full group pre med post w x = .gt
  other : ∀ x ∈ l, group x ≠ group w → ∃ c ∈ l, group c = group x ∧
    (c = x ∨ full group pre med post c x = .gt) ∧ full group pre med post w c = .gt

variable {l : List α} {w : α}

omit [Std.TransCmp med] [Std.TransCmp post] in
theorem Wins.lead (h : Wins group pre med post l w) (hx : x ∈ l) : (pre w x).isGE := by
  by_cases hxw : x = w
  · rw [hxw, tie_self pre w]
    rfl
  by_cases hg : group x = group w
  · exact isGE_of_full (h.own x hx hg hxw)
  · obtain ⟨c, -, -, hcx, hwc⟩ := h.other x hx hg
    rcases hcx with rfl | hcx
    · exact isGE_of_full hwc
    · exact Std.TransCmp.isGE_trans (isGE_of_full hwc) (isGE_of_full hcx)

omit [Std.TransCmp med] [Std.TransCmp post] in
theorem Wins.mem_pre (h : Wins group pre med post l w) : w ∈ survivors (preferred pre) l := by
  rw [mem_survivors]
  refine ⟨h.mem, fun x hx hgt => ?_⟩
  exact Std.OrientedCmp.not_gt_of_isGE (h.lead hx) hgt

omit [Std.TransCmp post] in
/-- Among those who tie with it, the winner is not behind by the second criterion. -/
theorem Wins.mem_med (h : Wins group pre med post l w) :
    w ∈ survivors (preferred (within group med)) (survivors (preferred pre) l) := by
  rw [mem_survivors]
  refine ⟨h.mem_pre, fun x hx hgt => ?_⟩
  have hg := gt_of_within hgt
  have hmed : med x w = .gt := by
    rw [preferred, within, if_pos hg] at hgt
    exact hgt
  have hxw : x ≠ w := by
    rintro rfl
    rw [tie_self med x] at hmed
    cases hmed
  have hfull := h.own x (mem_survivors.1 hx).1 hg hxw
  rw [full, eq_of_mem_survivors h.mem_pre hx, Ordering.eq_then, within, if_pos hg.symm,
    Std.OrientedCmp.lt_of_gt hmed] at hfull
  cases hfull

omit [Std.TransCmp post] in
theorem Wins.ahead_own (h : Wins group pre med post l w)
    (hx : x ∈ survivors (preferred (within group med)) (survivors (preferred pre) l)) (hxw : x ≠ w)
    (hg : group x = group w) : post w x = .gt := by
  obtain ⟨hxpre, hxmed⟩ := mem_survivors.1 hx
  have hfull := h.own x (mem_survivors.1 hxpre).1 hg hxw
  have htie : within group med w x = .eq := by
    have h1 : ¬preferred (within group med) w x := hxmed w h.mem_pre
    have h2 : ¬preferred (within group med) x w := (mem_survivors.1 h.mem_med).2 x hxpre
    rw [preferred, within, if_pos hg.symm] at h1
    rw [preferred, within, if_pos hg, Std.OrientedCmp.gt_iff_lt] at h2
    rw [within, if_pos hg.symm]
    cases hm : med w x with
    | lt => exact absurd hm h2
    | eq => rfl
    | gt => exact absurd hm h1
  rw [full, eq_of_mem_survivors h.mem_pre hxpre, htie] at hfull
  exact hfull

omit [Std.TransCmp med] in
/-- In another group it is ahead of `c` by the third, and `c` of the rest. -/
theorem Wins.ahead_other (h : Wins group pre med post l w)
    (hx : x ∈ survivors (preferred (within group med)) (survivors (preferred pre) l))
    (hg : group x ≠ group w) : post w x = .gt := by
  obtain ⟨hxpre, hxmed⟩ := mem_survivors.1 hx
  obtain ⟨c, hcl, hcg, hcx, hwc⟩ := h.other x (mem_survivors.1 hxpre).1 hg
  have hgwc : group w ≠ group c := fun heq => hg (hcg.symm.trans heq.symm)
  -- `c` ties with both by the first criterion
  have hprewc : pre w c = .eq := by
    have hge : (pre c x).isGE := by
      rcases hcx with rfl | hcx
      · rw [tie_self pre c]
        rfl
      · exact isGE_of_full hcx
    have hxw : (pre x w).isGE := by
      rw [eq_of_mem_survivors hxpre h.mem_pre]
      rfl
    exact Std.OrientedCmp.isGE_antisymm (h.lead hcl) (Std.TransCmp.isGE_trans hge hxw)
  have hpostwc : post w c = .gt := by
    rw [full, hprewc, Ordering.eq_then, within, if_neg hgwc] at hwc
    exact hwc
  rcases hcx with rfl | hcx
  · exact hpostwc
  · have hcpre := mem_survivors_of_eq h.mem_pre hcl hprewc
    rw [full, eq_of_mem_survivors hcpre hxpre, Ordering.eq_then] at hcx
    rcases Ordering.then_eq_gt.1 hcx with hmed | ⟨-, hpost⟩
    · exact absurd hmed (hxmed c hcpre)
    · exact Std.TransCmp.gt_trans hpostwc hpost

/-- **The winner of a grouped knock-out is the one left by elimination.** -/
theorem survivors_of_grouped (hnodup : l.Nodup) (h : Wins group pre med post l w) :
    survivors (preferred post)
      (survivors (preferred (within group med)) (survivors (preferred pre) l)) = [w] := by
  have hahead : ∀ x ∈ survivors (preferred (within group med)) (survivors (preferred pre) l),
      x ≠ w → post w x = .gt := by
    intro x hx hxw
    by_cases hg : group x = group w
    · exact h.ahead_own hx hxw hg
    · exact h.ahead_other hx hg
  have hsub : (survivors (preferred post)
      (survivors (preferred (within group med)) (survivors (preferred pre) l))).Nodup :=
    ((hnodup.filter _).filter _).filter _
  refine List.perm_singleton.1 ((List.perm_ext_iff_of_nodup hsub (by simp)).2 fun x => ?_)
  rw [List.mem_singleton]
  constructor
  · intro hx
    obtain ⟨hxmed, hnot⟩ := mem_survivors.1 hx
    by_contra hxw
    exact hnot w h.mem_med (hahead x hxmed hxw)
  · rintro rfl
    rw [mem_survivors]
    refine ⟨h.mem_med, fun y hy hgt => ?_⟩
    by_cases hyx : y = x
    · rw [preferred, hyx, tie_self post x] at hgt
      cases hgt
    · exact Std.OrientedCmp.not_gt_of_gt (hahead y hy hyx) hgt

end Grouped

end Elimination
