/-
# Journals

A journal is a list of changes, each of which adds an item or takes it away. It can be read in two
ways: as a program that rewrites a set (`replay`), and as a record from which one tells what is
there now (`Live`: added, and not taken away since). The two agree. A journal that consists of the
difference between two sets leads from the one to the other, whatever its order.
-/
import Mathlib.Data.List.Induction
import Mathlib.Data.Set.Insert
import Mathlib.Tactic.Tauto

set_option autoImplicit false

/-- An item is added, or taken away. -/
structure Change (α : Type) where
  add : Bool
  item : α
  deriving DecidableEq

namespace Journal

variable {α : Type}
variable (S : Set α) {cs : List (Change α)} {a : α} {c : Change α}

/-- The set after one change. -/
def apply (S : Set α) (c : Change α) : Set α :=
  if c.add then insert c.item S else S \ {c.item}

/-- The set after a journal. -/
def replay (S : Set α) (cs : List (Change α)) : Set α := cs.foldl apply S

/-- Added, and not taken away since. -/
def Live (cs : List (Change α)) (a : α) : Prop :=
  ∃ before after, cs = before ++ ⟨true, a⟩ :: after ∧ ⟨false, a⟩ ∉ after

/-- The changes are the difference of two sets, in any order and with repetitions. -/
def Difference (cs : List (Change α)) (S T : Set α) : Prop :=
  ∀ a, (⟨true, a⟩ ∈ cs ↔ a ∈ T ∧ a ∉ S) ∧ (⟨false, a⟩ ∈ cs ↔ a ∈ S ∧ a ∉ T)

theorem mem_apply {S : Set α} : a ∈ apply S c ↔ c = ⟨true, a⟩ ∨ a ∈ S ∧ c ≠ ⟨false, a⟩ := by
  obtain ⟨add, item⟩ := c
  cases add with
  | true => simp [apply, eq_comm (a := a)]
  | false => simp [apply, eq_comm (a := a)]

@[simp]
theorem replay_nil : replay S [] = S := rfl

@[simp]
theorem replay_cons (c : Change α) (cs : List (Change α)) :
    replay S (c :: cs) = replay (apply S c) cs := rfl

theorem replay_append (cs ds : List (Change α)) :
    replay S (cs ++ ds) = replay (replay S cs) ds := by
  rw [replay, List.foldl_append]
  rfl

theorem live_snoc : Live (cs ++ [c]) a ↔ c = ⟨true, a⟩ ∨ Live cs a ∧ c ≠ ⟨false, a⟩ := by
  constructor
  · rintro ⟨before, after, heq, hafter⟩
    -- Where the addition stands: at the end, or before it.
    rcases List.eq_nil_or_concat after with rfl | ⟨after, last, rfl⟩
    · left
      rw [← List.concat_eq_append, ← List.concat_eq_append, List.concat_inj] at heq
      exact heq.2
    · right
      rw [List.concat_eq_append] at heq hafter
      rw [← List.cons_append, ← List.append_assoc, ← List.concat_eq_append,
        ← List.concat_eq_append, List.concat_inj] at heq
      obtain ⟨rfl, rfl⟩ := heq
      rw [List.mem_append, List.mem_singleton, not_or] at hafter
      exact ⟨⟨before, after, rfl, hafter.1⟩, fun heq => hafter.2 heq.symm⟩
  · rintro (rfl | ⟨⟨before, after, rfl, hafter⟩, hc⟩)
    · exact ⟨cs, [], rfl, List.not_mem_nil⟩
    · refine ⟨before, after ++ [c], by rw [List.append_assoc, List.cons_append], ?_⟩
      rw [List.mem_append, List.mem_singleton, not_or]
      exact ⟨hafter, fun heq => hc heq.symm⟩

/-- **The two readings agree.** -/
theorem mem_replay_empty : a ∈ replay ∅ cs ↔ Live cs a := by
  induction cs using List.reverseRecOn with
  | nil =>
    refine iff_of_false (Set.notMem_empty a) ?_
    rintro ⟨before, after, heq, -⟩
    exact absurd heq (List.append_ne_nil_of_right_ne_nil _ (List.cons_ne_nil _ _)).symm
  | append_singleton cs c ih =>
    rw [replay_append, replay_cons, replay_nil, mem_apply, ih, live_snoc]

theorem mem_replay (h : ¬(⟨true, a⟩ ∈ cs ∧ ⟨false, a⟩ ∈ cs)) :
    a ∈ replay S cs ↔ ⟨true, a⟩ ∈ cs ∨ a ∈ S ∧ ⟨false, a⟩ ∉ cs := by
  induction cs generalizing S with
  | nil => simp
  | cons c cs ih =>
    have hcs : ¬(⟨true, a⟩ ∈ cs ∧ ⟨false, a⟩ ∈ cs) := fun hboth =>
      h ⟨List.mem_cons_of_mem _ hboth.1, List.mem_cons_of_mem _ hboth.2⟩
    rw [replay_cons, ih (apply S c) hcs, mem_apply, List.mem_cons, List.mem_cons, eq_comm (b := c),
      eq_comm (b := c)]
    have hfirst : c = ⟨true, a⟩ → ⟨false, a⟩ ∉ cs := fun hc hmem =>
      h ⟨hc ▸ List.mem_cons_self, List.mem_cons_of_mem _ hmem⟩
    tauto

/-- **A difference leads from the one set to the other.** -/
theorem replay_difference {S T : Set α} (h : Difference cs S T) : replay S cs = T := by
  ext a
  obtain ⟨hadd, hremove⟩ := h a
  rw [mem_replay S (by rw [hadd, hremove]; tauto), hadd, hremove]
  tauto

end Journal
