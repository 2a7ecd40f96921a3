/-
# Tables, edits, and batches of edits

A *table* maps keys to values; an *edit* sets or deletes one key. A list of edits is
applied left to right, and all that is left of it at a key is the last edit of that
key (`edits_apply`).

A *batch* reorders a list of writes: the writes of each value are put together, and
the values come in the order they are first written (`groupAll`). That is what a
sender does who packs all keys with the same value into one message. The last section
says exactly which value such a batch leaves at a key (`lastEdit_groupAll`): the one,
of all values ever written there, whose first appearance anywhere in the list is the
latest.
-/
import Mathlib.Data.List.Induction
import Mathlib.Data.List.Basic
import Mathlib.Tactic.Common

set_option autoImplicit false

/-- A finite or infinite table. -/
abbrev Table (K V : Type) : Type := K → Option V

/-- An edit of one key. -/
inductive Edit (K V : Type) where
  | set (k : K) (v : V)
  | del (k : K)

namespace Edit

variable {K V : Type}

def key : Edit K V → K
  | .set k _ => k
  | .del k => k

/-- What the edit leaves at its key. -/
def value : Edit K V → Option V
  | .set _ v => some v
  | .del _ => none

/-- The edit with its value changed. -/
def map {W : Type} (f : V → W) : Edit K V → Edit K W
  | .set k v => .set k (f v)
  | .del k => .del k

@[simp]
theorem key_map {W : Type} (f : V → W) (e : Edit K V) : (e.map f).key = e.key := by cases e <;> rfl

@[simp]
theorem value_map {W : Type} (f : V → W) (e : Edit K V) : (e.map f).value = e.value.map f := by
  cases e <;> rfl

end Edit

namespace Table

variable {K V : Type} [DecidableEq K]

def edit (T : Table K V) (e : Edit K V) : Table K V :=
  fun k => if k = e.key then e.value else T k

def edits (T : Table K V) (es : List (Edit K V)) : Table K V := es.foldl edit T

theorem edits_append (T : Table K V) (es fs : List (Edit K V)) :
    T.edits (es ++ fs) = (T.edits es).edits fs :=
  List.foldl_append

/-! ## The last edit of a key -/

/-- What the last edit of `k` leaves there; `none` when no edit touches `k`. -/
def lastEdit (k : K) : List (Edit K V) → Option (Option V)
  | [] => none
  | e :: es => (lastEdit k es).or (if k = e.key then some e.value else none)

theorem lastEdit_append (k : K) (es fs : List (Edit K V)) :
    lastEdit k (es ++ fs) = (lastEdit k fs).or (lastEdit k es) := by
  induction es with
  | nil => simp only [List.nil_append, lastEdit, Option.or_none]
  | cons e es ih => rw [List.cons_append, lastEdit, ih, lastEdit, Option.or_assoc]

/-- **Last write wins.** -/
theorem edits_apply (T : Table K V) (es : List (Edit K V)) (k : K) :
    T.edits es k = (lastEdit k es).getD (T k) := by
  induction es generalizing T with
  | nil => rfl
  | cons e es ih =>
    rw [edits, List.foldl_cons, ← edits, ih (T.edit e), lastEdit, edit]
    cases lastEdit k es with
    | some v => rfl
    | none =>
      split <;> rfl

theorem lastEdit_eq_none_iff (k : K) (es : List (Edit K V)) :
    lastEdit k es = none ↔ ∀ e ∈ es, e.key ≠ k := by
  induction es with
  | nil => simp [lastEdit]
  | cons e es ih =>
    rw [lastEdit, Option.or_eq_none_iff, ih, List.forall_mem_cons, and_comm]
    refine and_congr_left fun _ => ?_
    split
    · rename_i h
      simp [h]
    · rename_i h
      simp [Ne.symm h]

theorem lastEdit_map {W : Type} (f : V → W) (k : K) (es : List (Edit K V)) :
    lastEdit k (es.map (Edit.map f)) = (lastEdit k es).map (Option.map f) := by
  induction es with
  | nil => rfl
  | cons e es ih =>
    rw [List.map_cons, lastEdit, lastEdit, ih, Edit.key_map, Edit.value_map]
    by_cases h : k = e.key <;> cases lastEdit k es <;> simp [h]

/-- Two lists of edits that touch the same keys do the same to one table exactly when
they do the same to every table: the starting table does not show through. -/
theorem edits_eq_iff (T : Table K V) (es fs : List (Edit K V))
    (h : ∀ k, lastEdit k es = none ↔ lastEdit k fs = none) :
    T.edits es = T.edits fs ↔ ∀ k, lastEdit k es = lastEdit k fs := by
  constructor
  · intro heq k
    have hk := congrFun heq k
    rw [edits_apply, edits_apply] at hk
    have hnone := h k
    cases he : lastEdit k es with
    | none => rw [hnone.1 he]
    | some v =>
      cases hf : lastEdit k fs with
      | none =>
        rw [hnone.2 hf] at he
        cases he
      | some w =>
        rw [he, hf] at hk
        exact congrArg some hk
  · intro heq
    funext k
    rw [edits_apply, edits_apply, heq k]

theorem lastEdit_map_del (k : K) (ks : List K) :
    lastEdit k (ks.map (Edit.del (V := V))) = if k ∈ ks then some none else none := by
  induction ks with
  | nil => rfl
  | cons j ks ih =>
    rw [List.map_cons, lastEdit, ih]
    by_cases hj : k = j
    · subst hj
      by_cases hk : k ∈ ks <;> simp [hk, Edit.key, Edit.value]
    · by_cases hk : k ∈ ks <;> simp [hk, hj, Edit.key]

theorem lastEdit_map_set (k : K) (v : V) (ks : List K) :
    lastEdit k (ks.map fun j => Edit.set j v) = if k ∈ ks then some (some v) else none := by
  induction ks with
  | nil => rfl
  | cons j ks ih =>
    rw [List.map_cons, lastEdit, ih]
    by_cases hj : k = j
    · subst hj
      by_cases hk : k ∈ ks <;> simp [hk, Edit.key, Edit.value]
    · by_cases hk : k ∈ ks <;> simp [hk, hj, Edit.key]

end Table

/-! ## Grouping writes by value -/

namespace Table

variable {K V : Type}

section Push

variable [DecidableEq V]

/-- Adds key `k` to the group of value `v`; a value not seen before starts a new group
at the end. -/
def groupPush (v : V) (k : K) : List (V × List K) → List (V × List K)
  | [] => [(v, [k])]
  | (w, ks) :: gs => if w = v then (w, ks ++ [k]) :: gs else (w, ks) :: groupPush v k gs

/-- The groups of a list of writes. -/
def groupAll (ws : List (V × K)) : List (V × List K) :=
  ws.foldl (fun gs w => groupPush w.1 w.2 gs) []

/-- Key `k` stands in the group of value `v`. -/
def Grouped (gs : List (V × List K)) (v : V) (k : K) : Prop := ∃ ks, (v, ks) ∈ gs ∧ k ∈ ks

omit [DecidableEq V] in
theorem grouped_cons {w v : V} {ks : List K} {gs : List (V × List K)} {k : K} :
    Grouped ((w, ks) :: gs) v k ↔ (v = w ∧ k ∈ ks) ∨ Grouped gs v k := by
  simp only [Grouped, List.mem_cons, Prod.mk.injEq]
  constructor
  · rintro ⟨ls, ⟨rfl, rfl⟩ | hmem, hk⟩
    · exact Or.inl ⟨rfl, hk⟩
    · exact Or.inr ⟨ls, hmem, hk⟩
  · rintro (⟨rfl, hk⟩ | ⟨ls, hmem, hk⟩)
    · exact ⟨ks, Or.inl ⟨rfl, rfl⟩, hk⟩
    · exact ⟨ls, Or.inr hmem, hk⟩

theorem grouped_push {v w : V} {k j : K} {gs : List (V × List K)} :
    Grouped (groupPush w j gs) v k ↔ (v = w ∧ k = j) ∨ Grouped gs v k := by
  induction gs with
  | nil => simp [groupPush, Grouped]
  | cons g gs ih =>
    rw [groupPush]
    split
    · rename_i h
      subst h
      rw [grouped_cons, grouped_cons, List.mem_append, List.mem_singleton]
      tauto
    · rw [grouped_cons, grouped_cons, ih]
      tauto

theorem grouped_all {ws : List (V × K)} {v : V} {k : K} :
    Grouped (groupAll ws) v k ↔ (v, k) ∈ ws := by
  induction ws using List.reverseRecOn with
  | nil => simp [groupAll, Grouped]
  | append_singleton ws w ih =>
    rw [groupAll, List.foldl_append, ← groupAll, List.foldl_cons, List.foldl_nil, grouped_push, ih,
      List.mem_append, List.mem_singleton, or_comm, Prod.ext_iff]

theorem map_fst_groupPush (v : V) (k : K) (gs : List (V × List K)) :
    (groupPush v k gs).map Prod.fst
      = if v ∈ gs.map Prod.fst then gs.map Prod.fst else gs.map Prod.fst ++ [v] := by
  induction gs with
  | nil => simp [groupPush]
  | cons g gs ih =>
    obtain ⟨u, ks⟩ := g
    rw [groupPush]
    by_cases h : u = v
    · subst h
      simp
    · rw [if_neg h, List.map_cons, ih, List.map_cons]
      by_cases hmem : v ∈ gs.map Prod.fst
      · rw [if_pos hmem, if_pos (List.mem_cons_of_mem _ hmem)]
      · rw [if_neg hmem, if_neg]
        · rfl
        · rw [List.mem_cons, not_or]
          exact ⟨fun h' => h h'.symm, hmem⟩

theorem groupAll_sorted (ws : List (V × K)) :
    ((groupAll ws).map Prod.fst).Pairwise
        (fun v w => (ws.map Prod.fst).idxOf v < (ws.map Prod.fst).idxOf w)
      ∧ ∀ v, v ∈ (groupAll ws).map Prod.fst ↔ v ∈ ws.map Prod.fst := by
  induction ws using List.reverseRecOn with
  | nil => simp [groupAll]
  | append_singleton ws w ih =>
    obtain ⟨hsorted, hmem⟩ := ih
    -- Appending a write does not move the first appearance of the values already seen.
    have hidx : ∀ v ∈ ws.map Prod.fst,
        ((ws ++ [w]).map Prod.fst).idxOf v = (ws.map Prod.fst).idxOf v := by
      intro v hv
      rw [List.map_append]
      exact List.idxOf_append_of_mem hv
    have hold : ((groupAll ws).map Prod.fst).Pairwise
        (fun v u => ((ws ++ [w]).map Prod.fst).idxOf v < ((ws ++ [w]).map Prod.fst).idxOf u) := by
      refine List.Pairwise.imp_of_mem ?_ hsorted
      intro v u hv hu hlt
      rw [hidx v ((hmem v).1 hv), hidx u ((hmem u).1 hu)]
      exact hlt
    rw [groupAll, List.foldl_append, ← groupAll, List.foldl_cons, List.foldl_nil, map_fst_groupPush]
    by_cases hw : w.1 ∈ (groupAll ws).map Prod.fst
    · rw [if_pos hw]
      refine ⟨hold, fun v => ?_⟩
      rw [hmem v, List.map_append, List.mem_append]
      constructor
      · exact Or.inl
      · rintro (h | h)
        · exact h
        · rw [List.map_cons, List.map_nil, List.mem_singleton] at h
          rw [h]
          exact (hmem _).1 hw
    · rw [if_neg hw]
      have hw' : w.1 ∉ ws.map Prod.fst := fun h => hw ((hmem _).2 h)
      refine ⟨?_, fun v => ?_⟩
      · rw [List.pairwise_append]
        refine ⟨hold, List.pairwise_singleton .., ?_⟩
        intro v hv u hu
        rw [List.mem_singleton] at hu
        subst hu
        have hv' := (hmem v).1 hv
        rw [hidx v hv', List.map_append, List.idxOf_append_of_notMem hw']
        have hlt := List.idxOf_lt_length_of_mem hv'
        omega
      · rw [List.mem_append, hmem v, List.map_append, List.mem_append]
        rfl

theorem lookup_groupPush (v w : V) (k : K) (gs : List (V × List K)) :
    ((groupPush w k gs).lookup v).getD []
      = (gs.lookup v).getD [] ++ if v = w then [k] else [] := by
  have hcons : ∀ (u : V) (ks : List K) (gs : List (V × List K)),
      ((u, ks) :: gs).lookup v = if v = u then some ks else gs.lookup v := by
    intro u ks gs
    by_cases h : v = u <;> simp [List.lookup_cons, h, beq_eq_false_iff_ne.2]
  induction gs with
  | nil =>
    rw [groupPush, hcons]
    split <;> rfl
  | cons g gs ih =>
    obtain ⟨u, ks⟩ := g
    rw [groupPush, hcons]
    by_cases hu : u = w
    · subst hu
      rw [if_pos rfl, hcons]
      split <;> simp
    · rw [if_neg hu, hcons]
      by_cases hv : v = u
      · subst hv
        simp [hu]
      · rw [if_neg hv, if_neg hv, ih]

/-- The group of a value holds the keys written with it, in order. -/
theorem mem_groupAll {ws : List (V × K)} {v : V} {ks : List K} (h : (v, ks) ∈ groupAll ws) :
    ks = (ws.filter fun w => w.1 = v).map Prod.snd := by
  have hlookup : ((groupAll ws).lookup v).getD [] = (ws.filter fun w => w.1 = v).map Prod.snd := by
    clear h
    induction ws using List.reverseRecOn with
    | nil => rfl
    | append_singleton ws w ih =>
      rw [groupAll, List.foldl_append, ← groupAll, List.foldl_cons, List.foldl_nil,
        lookup_groupPush, ih, List.filter_append, List.map_append]
      by_cases hw : w.1 = v <;> simp [hw, Ne.symm]
  -- No two groups have one value, so the group is the one that is looked up.
  obtain ⟨before, after, hsplit⟩ := List.append_of_mem h
  have hsorted := (groupAll_sorted ws).1
  rw [hsplit, List.map_append, List.map_cons, List.pairwise_append] at hsorted
  have hfirst : ∀ g ∈ before, v ≠ g.1 := by
    rintro g hg rfl
    exact Nat.lt_irrefl _ (hsorted.2.2 g.1 (List.mem_map_of_mem hg) g.1 List.mem_cons_self)
  rw [← hlookup, List.lookup_eq_some_iff.2 ⟨before, after, hsplit, ?_⟩]
  · rfl
  · intro g hg
    exact bne_iff_ne.2 (hfirst g hg)

end Push

/-- The writes of a list of groups, group by group. -/
def groupWrites (gs : List (V × List K)) : List (Edit K V) :=
  gs.flatMap fun g => g.2.map fun k => Edit.set k g.1

/-- Grouping reorders writes, and neither loses nor repeats one. -/
theorem groupWrites_groupAll_perm [DecidableEq V] (ws : List (V × K)) :
    (groupWrites (groupAll ws)).Perm (ws.map fun w => Edit.set w.2 w.1) := by
  have hpush : ∀ (v : V) (k : K) (gs : List (V × List K)),
      (groupWrites (groupPush v k gs)).Perm (groupWrites gs ++ [Edit.set k v]) := by
    intro v k gs
    induction gs with
    | nil => exact .refl _
    | cons g gs ih =>
      rw [groupPush]
      split
      · next h =>
        subst h
        rw [groupWrites, List.flatMap_cons, List.map_append, groupWrites, List.flatMap_cons,
          List.append_assoc, List.append_assoc]
        exact List.perm_append_comm.append_left _
      · rw [groupWrites, List.flatMap_cons, groupWrites, List.flatMap_cons, List.append_assoc]
        exact ih.append_left _
  induction ws using List.reverseRecOn with
  | nil => exact .refl _
  | append_singleton ws w ih =>
    rw [groupAll, List.foldl_append, ← groupAll, List.map_append]
    exact (hpush w.1 w.2 _).trans (ih.append_right _)

variable [DecidableEq K]

theorem lastEdit_groupWrites_none {gs : List (V × List K)} {k : K} :
    lastEdit k (groupWrites gs) = none ↔ ∀ v, ¬ Grouped gs v k := by
  rw [lastEdit_eq_none_iff]
  constructor
  · rintro h v ⟨ks, hmem, hk⟩
    exact h (.set k v) (List.mem_flatMap.2 ⟨_, hmem, List.mem_map.2 ⟨k, hk, rfl⟩⟩) rfl
  · intro h e he hkey
    obtain ⟨⟨v, ks⟩, hmem, hin⟩ := List.mem_flatMap.1 he
    obtain ⟨j, hj, rfl⟩ := List.mem_map.1 hin
    exact h v ⟨ks, hmem, hkey ▸ hj⟩

theorem lastEdit_groupWrites_ne_del (gs : List (V × List K)) (k : K) :
    lastEdit k (groupWrites gs) ≠ some none := by
  induction gs with
  | nil => simp [groupWrites, lastEdit]
  | cons g gs ih =>
    obtain ⟨v, ks⟩ := g
    rw [show groupWrites ((v, ks) :: gs) = ks.map (fun j => Edit.set j v) ++ groupWrites gs from
      rfl, lastEdit_append, lastEdit_map_set]
    intro h
    rcases Option.or_eq_some_iff.1 h with h | ⟨-, h⟩
    · exact ih h
    · split at h <;> cases h

/-- If the groups stand in increasing `rank`, the value left at `k` is the one of the
highest rank among the groups that hold `k`. -/
theorem lastEdit_groupWrites (rank : V → ℕ) {gs : List (V × List K)}
    (hsorted : (gs.map Prod.fst).Pairwise fun v w => rank v < rank w) (k : K) (v : V) :
    lastEdit k (groupWrites gs) = some (some v) ↔
      Grouped gs v k ∧ ∀ w, Grouped gs w k → rank w ≤ rank v := by
  induction gs with
  | nil => simp [groupWrites, lastEdit, Grouped]
  | cons g gs ih =>
    obtain ⟨u, ks⟩ := g
    rw [List.map_cons, List.pairwise_cons] at hsorted
    obtain ⟨hu, hsorted⟩ := hsorted
    have hrank : ∀ w j, Grouped gs w j → rank u < rank w := by
      rintro w j ⟨ls, hmem, -⟩
      exact hu w (List.mem_map.2 ⟨_, hmem, rfl⟩)
    rw [show groupWrites ((u, ks) :: gs) = ks.map (fun j => Edit.set j u) ++ groupWrites gs from
      rfl, lastEdit_append, lastEdit_map_set]
    cases hlast : lastEdit k (groupWrites gs) with
    | none =>
      have hnone := lastEdit_groupWrites_none.1 hlast
      rw [Option.none_or]
      constructor
      · intro h
        split at h
        · rename_i hk
          rw [Option.some.injEq, Option.some.injEq] at h
          subst h
          refine ⟨grouped_cons.2 (Or.inl ⟨rfl, hk⟩), fun w hw => ?_⟩
          rcases grouped_cons.1 hw with ⟨rfl, -⟩ | hw
          · exact Nat.le_refl _
          · exact absurd hw (hnone w)
        · cases h
      · rintro ⟨hv, -⟩
        rcases grouped_cons.1 hv with ⟨rfl, hk⟩ | hv
        · rw [if_pos hk]
        · exact absurd hv (hnone v)
    | some val =>
      rw [Option.some_or, ← hlast, ih hsorted]
      -- Some later group holds `k`, and every later group outranks the first one.
      have hex : ∃ w, Grouped gs w k := by
        by_contra hno
        rw [lastEdit_groupWrites_none.2 fun w hw => hno ⟨w, hw⟩] at hlast
        cases hlast
      constructor
      · rintro ⟨hv, hmax⟩
        refine ⟨grouped_cons.2 (Or.inr hv), fun w hw => ?_⟩
        rcases grouped_cons.1 hw with ⟨rfl, -⟩ | hw
        · exact Nat.le_of_lt (hrank v k hv)
        · exact hmax w hw
      · rintro ⟨hv, hmax⟩
        obtain ⟨w, hw⟩ := hex
        have hle := hmax w (grouped_cons.2 (Or.inr hw))
        have hlt := hrank w k hw
        rcases grouped_cons.1 hv with ⟨rfl, -⟩ | hv
        · omega
        · exact ⟨hv, fun w' hw' => hmax w' (grouped_cons.2 (Or.inr hw'))⟩

/-- **What a batch leaves at a key**: of all values written there, the one whose first
appearance in the whole list is the latest. -/
theorem lastEdit_groupAll [DecidableEq V] (ws : List (V × K)) (k : K) (v : V) :
    lastEdit k (groupWrites (groupAll ws)) = some (some v) ↔
      (v, k) ∈ ws ∧ ∀ w, (w, k) ∈ ws → (ws.map Prod.fst).idxOf w ≤ (ws.map Prod.fst).idxOf v := by
  rw [lastEdit_groupWrites _ (groupAll_sorted ws).1, grouped_all]
  simp only [grouped_all]

theorem lastEdit_groupAll_none [DecidableEq V] (ws : List (V × K)) (k : K) :
    lastEdit k (groupWrites (groupAll ws)) = none ↔ ∀ v, (v, k) ∉ ws := by
  rw [lastEdit_groupWrites_none]
  simp only [grouped_all]

end Table
