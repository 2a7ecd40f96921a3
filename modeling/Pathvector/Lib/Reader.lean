/-
# Readers

A reader takes a value off the front of a buffer, or fails. Decoders of list-shaped fields call a
reader until the buffer is used up: `drain` is that loop with a state, `read_all` the one that
collects the values. A reader that always takes something makes the loop end, and the result is
then described by the ways the buffer splits (`Splits`).

`Rewrites read write` is what a codec needs of a reader and a writer: what was read can be written
again in no more room than it took, and is read back from there whatever follows.
-/
import Mathlib.Tactic.Common
import Mathlib.Tactic.Linarith

set_option autoImplicit false

namespace Reader

variable {τ ε α β σ : Type}

theorem bind_eq_ok {x : Except ε α} {f : α → Except ε β} {r : β} :
    (x >>= f) = .ok r ↔ ∃ a, x = .ok a ∧ f a = .ok r := by
  cases x with
  | error e => simp [bind, Except.bind]
  | ok a => simp [bind, Except.bind]

@[simp]
theorem ok_bind (a : α) (f : α → Except ε β) : (Except.ok a >>= f) = f a := rfl

/-- `while remaining > 0`: the loop ends with the buffer or at the first failure. With as many
rounds as the buffer is long, it is never the rounds that run out. -/
def drain (step : σ → List τ → Except ε (σ × List τ)) : ℕ → σ → List τ → Except ε σ
  | _, s, [] => .ok s
  | 0, s, _ :: _ => .ok s
  | n + 1, s, c :: cs =>
    match step s (c :: cs) with
    | .ok (s, rest) => drain step n s rest
    | .error e => .error e

/-- The loop that collects what the reader returns. -/
def read_all (read : List τ → Except ε (α × List τ)) (cur : List τ) : Except ε (List α) :=
  drain (fun out cur => (read cur).map fun r => (out ++ [r.1], r.2)) cur.length [] cur

/-- A successful read leaves less than there was. -/
def Shrinks (read : List τ → Except ε (α × List τ)) : Prop :=
  ∀ cur x rest, read cur = .ok (x, rest) → rest.length < cur.length

/-- The buffer is used up by reading the given values one after the other. -/
inductive Splits (read : List τ → Except ε (α × List τ)) : List τ → List α → Prop where
  | nil : Splits read [] []
  | cons {cur rest : List τ} {x : α} {xs : List α} (hcur : cur ≠ []) (h : read cur = .ok (x, rest))
      (hrest : Splits read rest xs) : Splits read cur (x :: xs)

section

variable {read : List τ → Except ε (α × List τ)}
variable {step : σ → List τ → Except ε (σ × List τ)} {cur : List τ} {xs : List α} {f : σ → α → σ}
  {n : ℕ}

theorem drain_of_splits (hstep : ∀ s cur, step s cur = (read cur).map fun r => (f s r.1, r.2))
    (hread : Shrinks read) (h : Splits read cur xs) (hn : cur.length ≤ n) (s : σ) :
    drain step n s cur = .ok (xs.foldl f s) := by
  induction h generalizing n s with
  | nil =>
    cases n with
    | zero => rfl
    | succ n => rfl
  | @cons cur rest x xs hcur hx _ ih =>
    obtain ⟨c, cs, rfl⟩ := List.exists_cons_of_ne_nil hcur
    have hlt := hread _ _ _ hx
    cases n with
    | zero => simp at hn
    | succ n =>
      have hround : step s (c :: cs) = .ok (f s x, rest) := by
        rw [hstep, hx]
        rfl
      simp only [drain, hround]
      exact ih (by omega) (f s x)

theorem splits_of_drain (hstep : ∀ s cur, step s cur = (read cur).map fun r => (f s r.1, r.2))
    (hread : Shrinks read) {s t : σ} (hn : cur.length ≤ n) (h : drain step n s cur = .ok t) :
    ∃ xs, Splits read cur xs ∧ t = xs.foldl f s := by
  induction n generalizing s cur with
  | zero =>
    obtain rfl : cur = [] := List.eq_nil_of_length_eq_zero (by omega)
    cases h
    exact ⟨[], .nil, rfl⟩
  | succ n ih =>
    cases cur with
    | nil =>
      cases h
      exact ⟨[], .nil, rfl⟩
    | cons c cs =>
      simp only [drain, hstep] at h
      cases hx : read (c :: cs) with
      | error e =>
        rw [hx] at h
        cases h
      | ok r =>
        obtain ⟨x, rest⟩ := r
        rw [hx] at h
        have hlt := hread _ _ _ hx
        have hrest : rest.length ≤ n := by
          omega
        obtain ⟨xs, hxs, rfl⟩ := ih hrest h
        exact ⟨x :: xs, .cons (by simp) hx hxs, rfl⟩

theorem foldl_push (xs out : List α) : xs.foldl (fun out x => out ++ [x]) out = out ++ xs := by
  induction xs generalizing out with
  | nil => rw [List.foldl_nil, List.append_nil]
  | cons x xs ih => rw [List.foldl_cons, ih, List.append_assoc, List.singleton_append]

theorem read_all_eq_ok (hread : Shrinks read) :
    read_all read cur = .ok xs ↔ Splits read cur xs := by
  constructor
  · intro h
    obtain ⟨ys, hys, rfl⟩ := splits_of_drain (f := fun out x => out ++ [x]) (fun _ _ => rfl) hread
      le_rfl h
    rwa [foldl_push, List.nil_append]
  · intro h
    have hd := drain_of_splits (f := fun out x => out ++ [x]) (fun _ _ => rfl) hread h le_rfl []
    rwa [foldl_push, List.nil_append] at hd

/-- A reader that takes `n` elements off any buffer that has them reads the buffers whose length
is a multiple of `n`. -/
theorem exists_read_all_of_dvd (hread : Shrinks read) (hn : 0 < n)
    (htakes : ∀ cur, n ≤ cur.length → ∃ x, read cur = .ok (x, cur.drop n))
    (hdvd : n ∣ cur.length) : ∃ xs, read_all read cur = .ok xs := by
  obtain ⟨m, hm⟩ := hdvd
  induction m generalizing cur with
  | zero =>
    obtain rfl := List.eq_nil_of_length_eq_zero hm
    exact ⟨[], rfl⟩
  | succ m ih =>
    rw [Nat.mul_succ] at hm
    obtain ⟨x, hx⟩ := htakes cur (by omega)
    have hne : cur ≠ [] := List.ne_nil_of_length_pos (by omega)
    obtain ⟨xs, hxs⟩ := ih (by rw [List.length_drop]; omega : (cur.drop n).length = n * m)
    exact ⟨x :: xs, (read_all_eq_ok hread).2 (.cons hne hx ((read_all_eq_ok hread).1 hxs))⟩

theorem Splits.uncons {x : α} (h : Splits read cur (x :: xs)) :
    ∃ rest, read cur = .ok (x, rest) ∧ Splits read rest xs := by
  cases h with
  | cons _ hx hrest => exact ⟨_, hx, hrest⟩

end

/-! ## Reading and writing -/

section

variable {read : List τ → Except ε (α × List τ)} {write : α → List τ}
variable {cur : List τ} {xs : List α}

/-- What was read can be written in no more room, and is read back from there. -/
def Rewrites (read : List τ → Except ε (α × List τ)) (write : α → List τ) : Prop :=
  ∀ cur x rest, read cur = .ok (x, rest) →
    (write x).length + rest.length ≤ cur.length ∧
      ∀ rest', read (write x ++ rest') = .ok (x, rest')

theorem Rewrites.splits (h : Rewrites read write) (hread : Shrinks read) (hs : Splits read cur xs) :
    (xs.flatMap write).length ≤ cur.length ∧ Splits read (xs.flatMap write) xs := by
  induction hs with
  | nil => exact ⟨le_rfl, .nil⟩
  | @cons cur rest x xs hcur hx _ ih =>
    obtain ⟨hlen, hback⟩ := h cur x rest hx
    obtain ⟨hlen', hsplits⟩ := ih
    rw [List.flatMap_cons]
    have hx' := hback (xs.flatMap write)
    constructor
    · rw [List.length_append]
      omega
    · refine .cons ?_ hx' hsplits
      intro hnil
      have hlt := hread _ _ _ hx'
      rw [hnil] at hlt
      simp at hlt

/-- Values that are read back from where they are written are read one after the other. -/
theorem read_all_flatMap (hread : Shrinks read)
    (h : ∀ x ∈ xs, ∀ rest, read (write x ++ rest) = .ok (x, rest)) :
    read_all read (xs.flatMap write) = .ok xs := by
  refine (read_all_eq_ok hread).2 ?_
  induction xs with
  | nil => exact .nil
  | cons x xs ih =>
    obtain ⟨hx, hxs⟩ := List.forall_mem_cons.1 h
    rw [List.flatMap_cons]
    refine .cons (fun hnil => ?_) (hx _) (ih hxs)
    have hlt := hread _ _ _ (hx (xs.flatMap write))
    rw [hnil] at hlt
    cases hlt

/-- What was read stands at the front of the buffer as it would be written. -/
def Consumes (read : List τ → Except ε (α × List τ)) (write : α → List τ) : Prop :=
  ∀ cur x rest, read cur = .ok (x, rest) → cur = write x ++ rest

theorem Consumes.shrinks (h : Consumes read write) (hne : ∀ x, write x ≠ []) : Shrinks read := by
  intro cur x rest hread
  have hpos := List.length_pos_iff.2 (hne x)
  rw [h cur x rest hread, List.length_append]
  omega

theorem Consumes.eq_write (h : Consumes read write) {x : α} {rest : List τ}
    (hlen : cur.length = (write x).length) (hread : read cur = .ok (x, rest)) : cur = write x := by
  have hcur := h cur x rest hread
  rw [hcur, List.length_append, Nat.add_eq_left] at hlen
  rw [hcur, List.eq_nil_of_length_eq_zero hlen, List.append_nil]

theorem Consumes.read_all (h : Consumes read write) (hne : ∀ x, write x ≠ [])
    (hs : read_all read cur = .ok xs) : cur = xs.flatMap write := by
  rw [read_all_eq_ok (h.shrinks hne)] at hs
  induction hs with
  | nil => rfl
  | @cons cur rest x xs _ hx _ ih => rw [h cur x rest hx, ih, List.flatMap_cons]

theorem Rewrites.read_all (h : Rewrites read write) (hread : Shrinks read)
    (hs : read_all read cur = .ok xs) :
    (xs.flatMap write).length ≤ cur.length ∧ Reader.read_all read (xs.flatMap write) = .ok xs := by
  rw [read_all_eq_ok hread] at hs
  obtain ⟨hlen, hsplits⟩ := h.splits hread hs
  exact ⟨hlen, (read_all_eq_ok hread).2 hsplits⟩

end

end Reader
