/-
# The prefix map

The Loc-RIB files its winners, and the ROA table its payloads, in a `RouteMap<A, V>` of the crate
`routemap`, which is not part of the repository. It enters as a class: the operations that are
called, and the laws assumed of them. A map is read and written by network, so prefixes that differ
in host bits only are one key.

`NetworkMap` is a map with these laws, in which examples can be evaluated.
-/
import Pathvector.Lib.HashMap
import Pathvector.Types.Addr

set_option autoImplicit false

namespace Pathvector

/-- `RouteMap<A, V>`: `M A V` is the type of maps from the networks of a family to `V`. -/
class RouteMap (M : (A : Type) → [IpAddress A] → [DecidableEq A] → Type → Type) where
  new {A V : Type} [IpAddress A] [DecidableEq A] : M A V
  get {A V : Type} [IpAddress A] [DecidableEq A] : M A V → Nlri A → Option V
  insert {A V : Type} [IpAddress A] [DecidableEq A] : M A V → Nlri A → V → M A V
  remove {A V : Type} [IpAddress A] [DecidableEq A] : M A V → Nlri A → M A V
  iter {A V : Type} [IpAddress A] [DecidableEq A] : M A V → List (Nlri A × V)
  longest_match_entry {A V : Type} [IpAddress A] [DecidableEq A] : M A V → A → Option (Nlri A × V)
  /-- The key is the network. -/
  get_masked {A V : Type} [IpAddress A] [DecidableEq A] (m : M A V) (p : Nlri A) :
    get m p.masked = get m p
  get_new {A V : Type} [IpAddress A] [DecidableEq A] (p : Nlri A) : get (new : M A V) p = none
  get_insert {A V : Type} [IpAddress A] [DecidableEq A] (m : M A V) (p q : Nlri A) (v : V) :
    get (insert m p v) q = if q.masked = p.masked then some v else get m q
  get_remove {A V : Type} [IpAddress A] [DecidableEq A] (m : M A V) (p q : Nlri A) :
    get (remove m p) q = if q.masked = p.masked then none else get m q
  /-- The entries, each once and under its network. -/
  mem_iter {A V : Type} [IpAddress A] [DecidableEq A] (m : M A V) (p : Nlri A) (v : V) :
    (p, v) ∈ iter m ↔ p.Canonical ∧ get m p = some v
  nodup_iter {A V : Type} [IpAddress A] [DecidableEq A] (m : M A V) :
    ((iter m).map Prod.fst).Nodup
  /-- There is a match exactly when some prefix of the address is in the map. -/
  longest_match_entry_eq_none {A V : Type} [IpAddress A] [DecidableEq A] (m : M A V) (ip : A) :
    longest_match_entry m ip = none ↔ ∀ len p, Nlri.new ip len = some p → get m p = none
  /-- The match is an entry that contains the address, and no longer prefix is in the map. -/
  longest_match_entry_eq_some {A V : Type} [IpAddress A] [DecidableEq A] (m : M A V) (ip : A)
    (p : Nlri A) (v : V) : longest_match_entry m ip = some (p, v) →
      get m p = some v ∧ (Nlri.new ip p.mask).map Nlri.masked = some p.masked ∧
        ∀ len q, p.mask < len → Nlri.new ip len = some q → get m q = none

/-- The lengths from `n` down to 0. -/
def lengths (n : ℕ) : List ℕ := (List.range (n + 1)).reverse

theorem mem_lengths {n len : ℕ} : len ∈ lengths n ↔ len ≤ n := by
  rw [lengths, List.mem_reverse, List.mem_range]
  omega

theorem Nlri.new_eq_some {A : Type} [IpAddress A] {ip : A} {len : ℕ} {p : Nlri A}
    (h : Nlri.new ip len = some p) : len ≤ IpAddress.width A ∧ p.mask = len := by
  unfold Nlri.new at h
  split at h
  · next hle =>
    cases h
    exact ⟨hle, rfl⟩
  · cases h

/-- A hash map whose keys are networks. -/
structure NetworkMap (A : Type) [IpAddress A] [DecidableEq A] (V : Type) where
  entries : HashMap (Nlri A) V
  canonical : ∀ p v, entries.lookup p = some v → p.Canonical

namespace NetworkMap

variable {A V : Type} [IpAddress A] [DecidableEq A]

section

variable (m : NetworkMap A V) (ip : A) (p : Nlri A) (v : V)

def get : Option V := m.entries.lookup p.masked

def insert : NetworkMap A V where
  entries := m.entries.insert p.masked v
  canonical q w h := by
    rw [HashMap.lookup_insert_ite] at h
    split at h
    · next heq =>
      rw [heq]
      exact p.masked_canonical
    · exact m.canonical q w h

def remove : NetworkMap A V where
  entries := m.entries.erase p.masked
  canonical q w h := by
    rw [HashMap.lookup_erase_ite] at h
    split at h
    · cases h
    · exact m.canonical q w h

def iter : List (Nlri A × V) := m.entries.entries.map fun e => (e.1, e.2)

/-- The prefixes of the address, from the longest on. -/
def longest_match_entry : Option (Nlri A × V) :=
  (lengths (IpAddress.width A)).findSome? fun len =>
    (Nlri.new ip len).bind fun p => (m.get p).map fun v => (p, v)

theorem mem_iter :
    (p, v) ∈ m.iter ↔ p.Canonical ∧ m.get p = some v := by
  have hlookup : (p, v) ∈ m.iter ↔ m.entries.lookup p = some v := by
    rw [← HashMap.mem_entries_iff, iter, List.mem_map]
    constructor
    · rintro ⟨⟨q, w⟩, hmem, heq⟩
      cases heq
      exact hmem
    · exact fun hmem => ⟨⟨p, v⟩, hmem, rfl⟩
  rw [hlookup]
  constructor
  · intro h
    have hcan := m.canonical p v h
    exact ⟨hcan, (congrArg m.entries.lookup hcan).trans h⟩
  · rintro ⟨hcan, h⟩
    exact (congrArg m.entries.lookup hcan).symm.trans h

theorem longest_match_entry_eq_none :
    m.longest_match_entry ip = none ↔ ∀ len p, Nlri.new ip len = some p → m.get p = none := by
  rw [longest_match_entry, List.findSome?_eq_none_iff]
  constructor
  · intro h len p hp
    have hnone := h len (mem_lengths.2 (Nlri.new_eq_some hp).1)
    rwa [hp, Option.bind_some, Option.map_eq_none_iff] at hnone
  · intro h len _
    cases hp : Nlri.new ip len with
    | none => rfl
    | some p => rw [Option.bind_some, h len p hp, Option.map_none]

theorem longest_match_entry_eq_some (h : m.longest_match_entry ip = some (p, v)) :
    m.get p = some v ∧ (Nlri.new ip p.mask).map Nlri.masked = some p.masked ∧
      ∀ len q, p.mask < len → Nlri.new ip len = some q → m.get q = none := by
  rw [longest_match_entry, List.findSome?_eq_some_iff] at h
  obtain ⟨longer, len, shorter, hsplit, hfound, hnone⟩ := h
  obtain ⟨p', hp, hget⟩ := Option.bind_eq_some_iff.1 hfound
  obtain ⟨w, hw, heq⟩ := Option.map_eq_some_iff.1 hget
  cases heq
  obtain ⟨-, hmask⟩ := Nlri.new_eq_some hp
  refine ⟨hw, by rw [hmask, hp]; rfl, fun len' q hlt hq => ?_⟩
  -- A longer length stands before `len` in the list, where nothing was found.
  have hmem : len' ∈ longer := by
    have hall := mem_lengths.2 (Nlri.new_eq_some hq).1
    have hsorted : (lengths (IpAddress.width A)).Pairwise (· > ·) :=
      List.pairwise_reverse.2 List.pairwise_lt_range
    rw [hsplit, List.mem_append, List.mem_cons] at hall
    rw [hsplit, List.pairwise_append, List.pairwise_cons] at hsorted
    rcases hall with hmem | rfl | hmem
    · exact hmem
    · omega
    · have := hsorted.2.1.1 len' hmem
      omega
  have hnot := hnone len' hmem
  rwa [hq, Option.bind_some, Option.map_eq_none_iff] at hnot

end

end NetworkMap

instance routeMap_networkMap : RouteMap NetworkMap where
  new := ⟨∅, fun p v h => by simp at h⟩
  get := NetworkMap.get
  insert := NetworkMap.insert
  remove := NetworkMap.remove
  iter := NetworkMap.iter
  longest_match_entry := NetworkMap.longest_match_entry
  get_masked m p := congrArg m.entries.lookup p.masked_masked
  get_new p := by simp [NetworkMap.get]
  get_insert m p q v := HashMap.lookup_insert_ite m.entries p.masked q.masked v
  get_remove m p q := HashMap.lookup_erase_ite m.entries p.masked q.masked
  mem_iter := NetworkMap.mem_iter
  nodup_iter m := by
    have hkeys : m.iter.map Prod.fst = m.entries.keys := by
      rw [NetworkMap.iter, List.map_map]
      rfl
    rw [hkeys]
    exact m.entries.keys_nodup
  longest_match_entry_eq_none := NetworkMap.longest_match_entry_eq_none
  longest_match_entry_eq_some := NetworkMap.longest_match_entry_eq_some

/-- Prefixes of one network have one entry. -/
theorem RouteMap.get_congr {M : (A : Type) → [IpAddress A] → [DecidableEq A] → Type → Type}
    [RouteMap M] {A V : Type} [IpAddress A] [DecidableEq A] (m : M A V) {p q : Nlri A}
    (h : p.masked = q.masked) : get m p = get m q := by
  rw [← get_masked m p, h, get_masked]

end Pathvector
