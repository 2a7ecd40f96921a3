/-
# Coalescing writes

A table is written through a buffer that keeps the last operation for each key. A drain carries out
what is in the buffer, in any order. Nothing is lost by that if an operation, where it takes the
place of another in the buffer, does by itself what the two do one after the other. It need not do
so on every entry, only on the one that the table has: `promised_call_iff`.
-/
import Mathlib.Logic.Function.Basic
import Pathvector.Lib.HashMap

set_option autoImplicit false

namespace Coalesce

variable {κ ω ε : Type} [DecidableEq κ]

/-- A table, and the operations that wait to be carried out on it. -/
structure Buffered (κ ω ε : Type) where
  pending : HashMap κ ω
  table : κ → ε

variable (act : ω → ε → ε)

/-- An operation is carried out. -/
def issue (table : κ → ε) (k : κ) (o : ω) : κ → ε := Function.update table k (act o (table k))

namespace Buffered

section

variable (b : Buffered κ ω ε) (k : κ) (o : ω)

/-- An operation is put into the buffer. -/
def call : Buffered κ ω ε :=
  { b with pending := b.pending.insert k o }

/-- The buffer is emptied. -/
def drain : Buffered κ ω ε where
  pending := ∅
  table := b.pending.entries.foldl (fun t e => issue act t e.1 e.2) b.table

/-- The entry that the next drain leaves. -/
def promised : ε :=
  match b.pending.lookup k with
  | some o => act o (b.table k)
  | none => b.table k

/-- The operation does by itself what it does after the one that waits. -/
def Covers : Prop :=
  act o (b.promised act k) = act o (b.table k)

end

variable {act}

section

variable (b : Buffered κ ω ε) (k : κ) (o : ω)

theorem foldl_issue {entries : List (Sigma fun _ : κ => ω)} (hnd : entries.NodupKeys)
    (t : κ → ε) (k : κ) :
    entries.foldl (fun t e => issue act t e.1 e.2) t k
      = match entries.dlookup k with
        | some o => act o (t k)
        | none => t k := by
  induction entries generalizing t with
  | nil => rfl
  | cons e entries ih =>
    obtain ⟨j, o⟩ := e
    obtain ⟨hj, hnd⟩ := List.nodupKeys_cons.1 hnd
    rw [List.foldl_cons, ih hnd]
    by_cases h : k = j
    · subst h
      rw [List.dlookup_eq_none.2 hj, List.dlookup_cons_eq]
      exact Function.update_self ..
    · rw [List.dlookup_cons_ne _ _ h]
      have hother : issue act t j o k = t k := Function.update_of_ne h _ _
      simp only [hother]

theorem table_drain : (b.drain act).table = b.promised act :=
  funext fun k => foldl_issue b.pending.nodupKeys b.table k

theorem promised_of_empty {b : Buffered κ ω ε} (h : b.pending = ∅) : b.promised act = b.table := by
  funext k
  unfold promised
  rw [h]
  rfl

theorem promised_drain : (b.drain act).promised act = b.promised act := by
  rw [promised_of_empty rfl, table_drain]

theorem promised_call :
    (b.call k o).promised act = Function.update (b.promised act) k (act o (b.table k)) := by
  funext j
  unfold promised call
  rw [HashMap.lookup_insert_ite]
  by_cases h : j = k
  · subst h
    rw [if_pos rfl, Function.update_self]
  · rw [if_neg h, Function.update_of_ne h]

/-- **When a call is transparent.** What is promised after it is what carrying it out makes of what
was promised before, just if it covers the operation whose place it takes. -/
theorem promised_call_iff :
    (b.call k o).promised act = issue act (b.promised act) k o ↔ b.Covers act k o := by
  rw [promised_call, issue, (Function.update_injective _ k).eq_iff]
  exact eq_comm

end

end Buffered

end Coalesce
