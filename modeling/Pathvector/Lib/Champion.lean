/-
# A knock-out over a list

A list is walked from the left with one element in hand. The element in hand stays if it beats
the next one and is given up for it otherwise; what is in hand at the end is the champion.

Of two different elements one beats the other, and that is all that is assumed: `beats` need not
be transitive, and then the champion depends on the order of the list. Whoever beats all others
is the champion in every order (`champion_of_beats_all`). Without such an element the possible
champions are those that lead everyone through a chain of wins: a champion does
(`champion_leads`), and whoever does is the champion in some order (`exists_perm_champion`),
because such a chain can be made to pass through every element.
-/
import Mathlib.Logic.Relation
import Mathlib.Data.List.Chain
import Mathlib.Data.List.Perm.Basic

set_option autoImplicit false

namespace Knockout

variable {α : Type*} (beats : α → α → Prop)
variable {l path : List α} {x : α}

/-- The element in hand at the end. -/
def champion [DecidableRel beats] : List α → Option α
  | [] => none
  | x :: xs => some (xs.foldl (fun best y => if beats best y then best else y) x)

/-- Of two different elements exactly one beats the other. -/
def Decides (l : List α) : Prop :=
  ∀ x ∈ l, ∀ y ∈ l, x ≠ y → (beats x y ↔ ¬beats y x)

/-- A chain of wins inside the list leads from `x` to every element. -/
def Leads (l : List α) (x : α) : Prop :=
  ∀ y ∈ l, Relation.ReflTransGen (fun a b => b ∈ l ∧ beats a b) x y

variable {beats}

theorem Decides.subset {l' : List α} (h : Decides beats l) (hsub : l' ⊆ l) : Decides beats l' :=
  fun x hx y hy => h x (hsub hx) y (hsub hy)

section Champion

variable [DecidableRel beats]
variable {l : List α} {c w : α}

theorem champion_snoc (l : List α) (y : α) :
    champion beats (l ++ [y]) = match champion beats l with
      | none => some y
      | some b => some (if beats b y then b else y) := by
  cases l with
  | nil => rfl
  | cons x xs =>
    show some ((xs ++ [y]).foldl _ x) = _
    rw [List.foldl_append]
    rfl

theorem champion_eq_none : champion beats l = none ↔ l = [] := by
  cases l with
  | nil => exact iff_of_true rfl rfl
  | cons x xs => exact iff_of_false (Option.some_ne_none _) (List.cons_ne_nil x xs)

theorem champion_mem (h : champion beats l = some c) : c ∈ l := by
  induction l using List.reverseRecOn generalizing c with
  | nil => cases h
  | append_singleton l y ih =>
    rw [champion_snoc] at h
    cases hl : champion beats l with
    | none =>
      rw [hl] at h
      rw [← Option.some.inj h]
      simp
    | some b =>
      rw [hl] at h
      rw [← Option.some.inj h]
      split
      · exact List.mem_append_left _ (ih hl)
      · simp

/-- **Whoever beats everyone is the champion**, in every order. -/
theorem champion_of_beats_all (hw : w ∈ l) (hwins : ∀ y ∈ l, y ≠ w → beats w y ∧ ¬beats y w) :
    champion beats l = some w := by
  induction l using List.reverseRecOn with
  | nil => cases hw
  | append_singleton l y ih =>
    have hl : ∀ z ∈ l, z ≠ w → beats w z ∧ ¬beats z w :=
      fun z hz => hwins z (List.mem_append_left _ hz)
    rw [champion_snoc]
    by_cases hmem : w ∈ l
    · rw [ih hmem hl]
      dsimp only
      by_cases hy : y = w
      · rw [hy, ite_self]
      · rw [if_pos (hwins y (by simp) hy).1]
    · -- `w` comes last, and whoever is in hand loses to it
      have hy : y = w := by
        rcases List.mem_append.1 hw with h | h
        · exact absurd h hmem
        · exact (List.mem_singleton.1 h).symm
      rw [hy]
      cases hb : champion beats l with
      | none => rfl
      | some b =>
        have hbl := champion_mem hb
        have hbw : b ≠ w := fun h => hmem (h ▸ hbl)
        dsimp only
        rw [if_neg (hl b hbl hbw).2]

/-- An element that someone beats is not the champion when that one comes last. -/
theorem champion_snoc_ne {x : α} (hne : x ≠ w) (hloses : ¬beats w x) :
    champion beats (l ++ [x]) ≠ some w := by
  rw [champion_snoc]
  cases champion beats l with
  | none => exact fun h => hne (Option.some.inj h)
  | some b =>
    intro h
    have hb := Option.some.inj h
    split at hb
    · rename_i hbeats
      rw [hb] at hbeats
      exact hloses hbeats
    · exact hne hb

/-- **The champion leads everyone.** -/
theorem champion_leads (hl : Decides beats l) (hc : champion beats l = some c) :
    Leads beats l c := by
  induction l using List.reverseRecOn generalizing c with
  | nil => cases hc
  | append_singleton l y ih =>
    have hl' : Decides beats l := hl.subset (List.subset_append_left l [y])
    have hlift : ∀ {a b : α}, Relation.ReflTransGen (fun a b => b ∈ l ∧ beats a b) a b →
        Relation.ReflTransGen (fun a b => b ∈ l ++ [y] ∧ beats a b) a b := by
      intro a b h
      refine Relation.ReflTransGen.mono ?_ a b h
      intro a b hab
      exact ⟨List.mem_append_left _ hab.1, hab.2⟩
    rw [champion_snoc] at hc
    cases hb : champion beats l with
    | none =>
      -- `y` is alone
      rw [hb] at hc
      rw [champion_eq_none] at hb
      intro z hz
      rw [hb, List.nil_append, List.mem_singleton] at hz
      rw [hz, Option.some.inj hc]
    | some b =>
      rw [hb] at hc
      have hbl := champion_mem hb
      have hbc := Option.some.inj hc
      intro z hz
      split at hbc
      · -- the one in hand stays, and beats the newcomer
        rename_i hbeats
        rw [← hbc]
        rcases List.mem_append.1 hz with hzl | hzy
        · exact hlift (ih hl' hb z hzl)
        · rw [List.mem_singleton.1 hzy]
          exact .single ⟨by simp, hbeats⟩
      · -- the newcomer beats the one in hand, who leads the rest
        rename_i hbeats
        rw [← hbc]
        rcases List.mem_append.1 hz with hzl | hzy
        · by_cases hby : y = b
          · have hchain := hlift (ih hl' hb z hzl)
            rwa [← hby] at hchain
          · have hyb : beats y b :=
              (hl y (by simp) b (List.mem_append_left _ hbl) hby).2 hbeats
            exact .head ⟨List.mem_append_left _ hbl, hyb⟩ (hlift (ih hl' hb z hzl))
        · rw [List.mem_singleton.1 hzy]

theorem champion_beats_of_trans (hl : Decides beats l)
    (htrans : ∀ x ∈ l, ∀ y ∈ l, ∀ z ∈ l, x ≠ z → beats x y → beats y z → beats x z)
    (hc : champion beats l = some c) {y : α} (hy : y ∈ l) (hne : y ≠ c) : beats c y := by
  have hchain : ∀ {z : α}, Relation.ReflTransGen (fun a b => b ∈ l ∧ beats a b) c z →
      z = c ∨ (z ∈ l ∧ beats c z) := by
    intro z h
    induction h with
    | refl => exact .inl rfl
    | @tail b z _ hbz ih =>
      rcases ih with rfl | ⟨hb, hcb⟩
      · exact .inr hbz
      · by_cases hz : z = c
        · exact .inl hz
        · exact .inr ⟨hbz.1, htrans c (champion_mem hc) b hb z hbz.1 (Ne.symm hz) hcb hbz.2⟩
  exact ((hchain (champion_leads hl hc y hy)).resolve_left hne).2

end Champion

/-! ## A chain of wins through everyone -/

/-- A chain of wins takes in one more element if one of its own beats it: it is put behind the
last of those. -/
theorem exists_chain_insert (hpath : path.IsChain beats) {y : α}
    (hy : ∀ v ∈ path, ¬beats v y → beats y v) (hbeaten : ∃ v ∈ path, beats v y) :
    ∃ path' : List α, path'.Perm (y :: path) ∧ path'.head? = path.head? ∧ path'.IsChain beats := by
  induction path with
  | nil =>
    obtain ⟨v, hv, -⟩ := hbeaten
    cases hv
  | cons v rest ih =>
    by_cases hrest : ∃ u ∈ rest, beats u y
    · obtain ⟨rest', hperm, hhead, hchain⟩ :=
        ih hpath.tail (fun u hu => hy u (List.mem_cons_of_mem _ hu)) hrest
      refine ⟨v :: rest', ?_, rfl, ?_⟩
      · exact (hperm.cons v).trans (List.Perm.swap y v rest)
      · refine List.isChain_cons.2 ⟨?_, hchain⟩
        intro u hu
        rw [hhead] at hu
        exact (List.isChain_cons.1 hpath).1 u hu
    · -- nobody further on beats `y`, so `v` does, and `y` beats whoever comes next
      have hvy : beats v y := by
        obtain ⟨u, hu, hbeats⟩ := hbeaten
        rcases List.mem_cons.1 hu with rfl | hu
        · exact hbeats
        · exact absurd ⟨u, hu, hbeats⟩ hrest
      refine ⟨v :: y :: rest, List.Perm.swap y v rest, rfl, ?_⟩
      refine List.isChain_cons.2 ⟨?_, List.isChain_cons.2 ⟨?_, hpath.tail⟩⟩
      · intro u hu
        rw [List.head?_cons, Option.mem_some_iff] at hu
        rw [← hu]
        exact hvy
      · intro u hu
        have hmem : u ∈ rest := List.mem_of_mem_head? hu
        exact hy u (List.mem_cons_of_mem _ hmem) fun h => hrest ⟨u, hmem, h⟩

theorem exists_beaten_outside (hleads : Leads beats l x) {S : List α} (hx : x ∈ S) {z : α}
    (hz : z ∈ l) (hzS : z ∉ S) : ∃ v ∈ S, ∃ y ∈ l, y ∉ S ∧ beats v y := by
  have hchain := hleads z hz
  clear hz
  induction hchain with
  | refl => exact absurd hx hzS
  | @tail b c _ hbc ih =>
    by_cases hb : b ∈ S
    · exact ⟨b, hb, c, hbc.1, hzS, hbc.2⟩
    · exact ih hb

theorem exists_chain_perm [DecidableEq α] (hnodup : l.Nodup) (hl : Decides beats l) (hx : x ∈ l)
    (hleads : Leads beats l x) :
    ∃ path : List α, path.Perm l ∧ path.head? = some x ∧ path.IsChain beats := by
  -- a chain from `x` that leaves `k` elements out can be completed, by induction on `k`
  have hgrow : ∀ (k : ℕ) (path : List α), path.Nodup → path ⊆ l → path.head? = some x →
      path.IsChain beats → l.length = path.length + k →
      ∃ path : List α, path.Perm l ∧ path.head? = some x ∧ path.IsChain beats := by
    intro k
    induction k with
    | zero =>
      intro path hpnodup hsub hhead hchain hlen
      exact ⟨path, (List.subperm_of_subset hpnodup hsub).perm_of_length_le (by omega), hhead,
        hchain⟩
    | succ k ih =>
      intro path hpnodup hsub hhead hchain hlen
      have hxp : x ∈ path := List.mem_of_mem_head? (by rw [hhead]; rfl)
      obtain ⟨z, hz, hzp⟩ : ∃ z ∈ l, z ∉ path := by
        by_contra hall
        push Not at hall
        have hle := (List.subperm_of_subset hnodup hall).length_le
        omega
      obtain ⟨v, hv, y, hy, hyp, hbeats⟩ := exists_beaten_outside hleads hxp hz hzp
      have hdec : ∀ u ∈ path, ¬beats u y → beats y u := by
        intro u hu hnot
        have hne : y ≠ u := fun h => hyp (h ▸ hu)
        exact (hl y hy u (hsub hu) hne).2 hnot
      obtain ⟨path', hperm, hhead', hchain'⟩ := exists_chain_insert hchain hdec ⟨v, hv, hbeats⟩
      refine ih path' ?_ ?_ (hhead'.trans hhead) hchain' ?_
      · exact hperm.nodup_iff.2 (List.nodup_cons.2 ⟨hyp, hpnodup⟩)
      · intro u hu
        rcases List.mem_cons.1 (hperm.subset hu) with rfl | hu
        · exact hy
        · exact hsub hu
      · rw [hperm.length_eq, List.length_cons]
        omega
  have hlen : 0 < l.length := List.length_pos_of_mem hx
  refine hgrow (l.length - 1) [x] (by simp) ?_ rfl (List.isChain_singleton x) ?_
  · intro u hu
    rw [List.mem_singleton.1 hu]
    exact hx
  · rw [List.length_singleton]
    omega

theorem champion_reverse_chain [DecidableRel beats] (hnot : ∀ a b, beats a b → ¬beats b a)
    (hpath : path.IsChain beats) : champion beats path.reverse = path.head? := by
  induction path with
  | nil => rfl
  | cons v rest ih =>
    rw [List.reverse_cons, champion_snoc, ih hpath.tail]
    cases hhead : rest.head? with
    | none => rfl
    | some u =>
      have hvu := (List.isChain_cons.1 hpath).1 u hhead
      dsimp only
      rw [if_neg (hnot v u hvu)]
      rfl

/-- **Whoever leads everyone is the champion in some order.** -/
theorem exists_perm_champion [DecidableEq α] [DecidableRel beats] (hnodup : l.Nodup)
    (hl : Decides beats l) (hnot : ∀ a b, beats a b → ¬beats b a) (hx : x ∈ l)
    (hleads : Leads beats l x) : ∃ l' : List α, l'.Perm l ∧ champion beats l' = some x := by
  obtain ⟨path, hperm, hhead, hchain⟩ := exists_chain_perm hnodup hl hx hleads
  refine ⟨path.reverse, (List.reverse_perm path).trans hperm, ?_⟩
  rw [champion_reverse_chain hnot hchain, hhead]

end Knockout
