/-
# Finite maps and finite loops

The hash maps of a program are modelled by Mathlib's `AList`: an association list
without duplicate keys. Nothing below depends on the order of the entries, which
stands for the unspecified iteration order of a hash map; what is read out of a map
is read with `lookup`, and every statement is about `lookup`.

The second half is about loops `for i in keys { body }` whose body rewrites what the
state says about `i` and nothing else. `foldl_pointwise` turns such a loop into a
statement about one index at a time, which is how the loops over peers and over
prefixes are read later.
-/
import Mathlib.Data.List.AList
import Mathlib.Data.List.Induction

set_option autoImplicit false

/-- A hash map from `K` to `V`. -/
abbrev HashMap (K V : Type) : Type := AList fun _ : K => V

/-- A hash set: a hash map that stores nothing besides its keys. -/
abbrev HashSet (K : Type) : Type := HashMap K Unit

namespace HashMap

variable {K V W : Type} [DecidableEq K]
variable {m : HashMap K V} {k : K} {P : Type} {v : V} {l : List (K × V)}

/-! ## Reading a map after an update -/

theorem lookup_insert_ite (m : HashMap K V) (k k' : K) (v : V) :
    (m.insert k v).lookup k' = if k' = k then some v else m.lookup k' := by
  by_cases h : k' = k
  · subst h
    rw [if_pos rfl]
    exact AList.lookup_insert m
  · rw [if_neg h, AList.lookup_insert_ne h]

theorem lookup_erase_ite (m : HashMap K V) (k k' : K) :
    (m.erase k).lookup k' = if k' = k then none else m.lookup k' := by
  by_cases h : k' = k
  · subst h
    rw [if_pos rfl, AList.lookup_erase]
  · rw [if_neg h, AList.lookup_erase_ne h]

theorem mem_erase_all (l : List K) (m : HashMap K V) :
    k ∈ l.foldl (fun m k => m.erase k) m ↔ k ∈ m ∧ k ∉ l := by
  induction l generalizing m with
  | nil => simp
  | cons k' l ih =>
    rw [List.foldl_cons, ih, AList.mem_erase, List.mem_cons]
    tauto

/-- `iter.collect::<HashMap<_, _>>()`: of two entries with one key the later one stays. -/
def collect (l : List (K × V)) : HashMap K V := l.foldl (fun m e => m.insert e.1 e.2) ∅

/-- Sets the entry of `k`, or removes it when there is nothing to store. -/
def put (m : HashMap K V) (k : K) : Option V → HashMap K V
  | some v => m.insert k v
  | none => m.erase k

@[simp]
theorem lookup_put (m : HashMap K V) (k k' : K) (v : Option V) :
    (m.put k v).lookup k' = if k' = k then v else m.lookup k' := by
  cases v with
  | none => exact lookup_erase_ite m k k'
  | some v => exact lookup_insert_ite m k k' v

/-- `if let Some(v) = m.get_mut(k) { *v = f(v) }`. -/
def modify (m : HashMap K V) (k : K) (f : V → V) : HashMap K V :=
  m.put k ((m.lookup k).map f)

@[simp]
theorem lookup_modify (m : HashMap K V) (k k' : K) (f : V → V) :
    (m.modify k f).lookup k' = if k' = k then (m.lookup k).map f else m.lookup k' :=
  lookup_put m k k' _

theorem mem_of_lookup (h : m.lookup k = some v) : k ∈ m :=
  AList.lookup_isSome.1 (by rw [h]; rfl)

theorem lookup_of_mem (h : k ∈ m) : ∃ v, m.lookup k = some v :=
  Option.isSome_iff_exists.1 (AList.lookup_isSome.2 h)

/-! ## Rewriting every value -/

/-- `m.values_mut()`: every value is rewritten in place, the keys stay. -/
def map_values (f : V → W) (m : HashMap K V) : HashMap K W where
  entries := m.entries.map fun e => ⟨e.1, f e.2⟩
  nodupKeys := by
    have h := m.nodupKeys
    rw [List.NodupKeys, List.keys, List.map_map] at *
    exact h

section

variable (key : P → K) (f : P → Option V) (ps : List P)

@[simp]
theorem lookup_map_values (f : V → W) (m : HashMap K V) (k : K) :
    (map_values f m).lookup k = (m.lookup k).map f := by
  obtain ⟨entries, hnd⟩ := m
  simp only [AList.lookup, map_values]
  clear hnd
  induction entries with
  | nil => rfl
  | cons e es ih =>
    obtain ⟨k', v⟩ := e
    by_cases h : k' = k
    · subst h
      simp only [List.map_cons, List.dlookup_cons_eq, Option.map_some]
    · rw [List.map_cons, List.dlookup_cons_ne _ _ (Ne.symm h),
        List.dlookup_cons_ne _ _ (Ne.symm h), ih]

theorem lookup_collect_filterMap (k : K) :
    (collect (ps.filterMap fun p => (f p).map (key p, ·))).lookup k
      = (ps.reverse.filter fun p => decide (key p = k)).findSome? f := by
  induction ps using List.reverseRecOn with
  | nil => rfl
  | append_singleton ps p ih =>
    rw [List.filterMap_append, collect, List.foldl_append, ← collect, List.reverse_append,
      List.reverse_singleton, List.singleton_append, List.filter_cons]
    by_cases hk : key p = k
    · subst hk
      cases hf : f p with
      | none => simp [hf, ih]
      | some v => simp [hf, AList.lookup_insert]
    · cases hf : f p with
      | none => simp [hf, hk, ih]
      | some v => simp [hf, hk, ih, AList.lookup_insert_ne (Ne.symm hk)]

theorem mem_of_lookup_collect (h : (collect l).lookup k = some v) : (k, v) ∈ l := by
  induction l using List.reverseRecOn with
  | nil => cases h
  | append_singleton l e ih =>
    rw [collect, List.foldl_append, ← collect, List.foldl_cons, List.foldl_nil,
      lookup_insert_ite] at h
    split at h
    · next hk =>
      cases h
      subst hk
      exact List.mem_append_right _ (List.mem_singleton.2 rfl)
    · exact List.mem_append_left _ (ih h)

theorem mem_collect : k ∈ collect l ↔ k ∈ l.map Prod.fst := by
  induction l using List.reverseRecOn with
  | nil => exact iff_of_false (AList.notMem_empty k) List.not_mem_nil
  | append_singleton l e ih =>
    rw [collect, List.foldl_append, ← collect, List.foldl_cons, List.foldl_nil, AList.mem_insert,
      ih]
    simp [or_comm]

/-- One listed item more, under a key of its own. The value function may look at the whole
list, as long as it gives the other items the same values. -/
theorem lookup_collect_with (g : P → Option V) (ps₁ ps₂ : List P) (p : P)
    (hkey : ∀ q ∈ ps₁ ++ ps₂, key q ≠ key p) (hfg : ∀ q ∈ ps₁ ++ ps₂, f q = g q) (k : K) :
    (collect ((ps₁ ++ p :: ps₂).filterMap fun q => (f q).map (key q, ·))).lookup k
      = if k = key p then f p
        else (collect ((ps₁ ++ ps₂).filterMap fun q => (g q).map (key q, ·))).lookup k := by
  have hcongr : ((ps₁ ++ ps₂).filterMap fun q => (g q).map (key q, ·))
      = (ps₁ ++ ps₂).filterMap fun q => (f q).map (key q, ·) :=
    List.filterMap_congr fun q hq => by rw [hfg q hq]
  rw [hcongr, lookup_collect_filterMap, lookup_collect_filterMap]
  by_cases hk : k = key p
  · subst hk
    have hnone : ∀ ps : List P, (∀ q ∈ ps, key q ≠ key p) →
        (ps.reverse.filter fun q => decide (key q = key p)) = [] := by
      intro ps hps
      rw [List.filter_eq_nil_iff]
      intro q hq
      rw [decide_eq_true_eq]
      exact hps q (List.mem_reverse.1 hq)
    have h₁ := hnone ps₁ fun q hq => hkey q (List.mem_append_left _ hq)
    have h₂ := hnone ps₂ fun q hq => hkey q (List.mem_append_right _ hq)
    simp [List.filter_append, h₁, h₂]
  · simp [hk, List.filter_append, Ne.symm hk]

theorem lookup_collect_map_with (f g : P → V) (ps₁ ps₂ : List P) (p : P)
    (hkey : ∀ q ∈ ps₁ ++ ps₂, key q ≠ key p) (hfg : ∀ q ∈ ps₁ ++ ps₂, f q = g q) (k : K) :
    (collect ((ps₁ ++ p :: ps₂).map fun q => (key q, f q))).lookup k
      = if k = key p then some (f p)
        else (collect ((ps₁ ++ ps₂).map fun q => (key q, g q))).lookup k := by
  have h := lookup_collect_with key (some ∘ f) (some ∘ g) ps₁ ps₂ p hkey
    (fun q hq => congrArg some (hfg q hq)) k
  simpa [List.filterMap_eq_map] using h

theorem lookup_collect_none (k : K) (hkey : ∀ q ∈ ps, key q ≠ k) :
    (collect (ps.filterMap fun q => (f q).map (key q, ·))).lookup k = none := by
  rw [lookup_collect_filterMap, List.findSome?_eq_none_iff]
  intro q hq
  obtain ⟨hmem, hk⟩ := List.mem_filter.1 hq
  exact absurd (of_decide_eq_true hk) (hkey q (List.mem_reverse.1 hmem))

end

/-- The values of a map, in iteration order. -/
def values (m : HashMap K V) : List V := m.entries.map fun e => e.2

theorem mem_entries_iff : (⟨k, v⟩ : Sigma fun _ : K => V) ∈ m.entries ↔ m.lookup k = some v :=
  AList.mem_lookup_iff.symm

theorem mem_values_iff : v ∈ values m ↔ ∃ k, m.lookup k = some v := by
  constructor
  · intro h
    obtain ⟨⟨k, w⟩, hmem, rfl⟩ := List.mem_map.1 h
    exact ⟨k, mem_entries_iff.1 hmem⟩
  · rintro ⟨k, hk⟩
    exact List.mem_map.2 ⟨⟨k, v⟩, mem_entries_iff.2 hk, rfl⟩

end HashMap

namespace HashSet

variable {K : Type} [DecidableEq K]

/-- `set.insert(k)`. -/
def add (s : HashSet K) (k : K) : HashSet K := AList.insert k () s

theorem mem_add {s : HashSet K} {k k' : K} : k' ∈ s.add k ↔ k' = k ∨ k' ∈ s :=
  AList.mem_insert s

/-- `iter.collect::<HashSet<_>>()`. -/
def ofList (l : List K) : HashSet K := l.foldl add ∅

theorem mem_foldl_add {l : List K} {s : HashSet K} {k : K} : k ∈ l.foldl add s ↔ k ∈ l ∨ k ∈ s := by
  induction l generalizing s with
  | nil => simp
  | cons k' l ih =>
    rw [List.foldl_cons, ih, mem_add, List.mem_cons]
    tauto

theorem mem_ofList {l : List K} {k : K} : k ∈ ofList l ↔ k ∈ l := by
  unfold ofList
  rw [mem_foldl_add]
  simp

end HashSet

/-! ## Loops whose body touches one index at a time -/

section Loops

variable {S I V : Type}

theorem List.foldl_invariant (step : S → I → S) (P : S → Prop) (l : List I) (s : S)
    (hs : P s) (hstep : ∀ s, ∀ i ∈ l, P s → P (step s i)) : P (l.foldl step s) := by
  induction l generalizing s with
  | nil => exact hs
  | cons i l ih =>
    refine ih (step s i) (hstep s i (List.mem_cons_self ..) hs) ?_
    intro s' j hj
    exact hstep s' j (List.mem_cons_of_mem _ hj)

/-- **A loop over distinct indices, read at one index.** The body rewrites the entry of
its own index with `upd` and no other entry; `P` is what the body relies on and keeps. -/
theorem List.foldl_pointwise [DecidableEq I] (get : S → I → V) (step : S → I → S)
    (upd : I → V → V) (P : S → Prop) (hP : ∀ s i, P s → P (step s i))
    (hself : ∀ s i, P s → get (step s i) i = upd i (get s i))
    (hother : ∀ s i j, P s → j ≠ i → get (step s i) j = get s j)
    (l : List I) (hl : l.Nodup) (s : S) (hs : P s) (i : I) :
    get (l.foldl step s) i = if i ∈ l then upd i (get s i) else get s i := by
  induction l generalizing s with
  | nil => simp
  | cons k l ih =>
    obtain ⟨hk, hl⟩ := List.nodup_cons.1 hl
    rw [List.foldl_cons, ih hl (step s k) (hP s k hs)]
    by_cases hik : i = k
    · subst hik
      rw [if_neg hk, if_pos (List.mem_cons_self ..), hself s i hs]
    · rw [hother s k i hs hik]
      simp only [List.mem_cons, hik, false_or]

end Loops
