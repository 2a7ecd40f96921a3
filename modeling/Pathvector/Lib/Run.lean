/-
# Runs under a condition

A machine is a function that takes a state and an event to the next state. A run is a list of
events. Many properties of a machine hold only along the runs whose every step meets a condition
on the state before it, and then by an invariant that such steps keep: `inv_of_guarded`.
-/
import Mathlib.Data.List.Basic
import Mathlib.Order.Basic

set_option autoImplicit false

namespace Machine

variable {σ ε : Type*}

/-- Every event of the run meets `ok` in the state it is taken in. -/
def Guarded (step : σ → ε → σ) (ok : σ → ε → Prop) : σ → List ε → Prop
  | _, [] => True
  | s, e :: es => ok s e ∧ Guarded step ok (step s e) es

instance decidableGuarded (step : σ → ε → σ) (ok : σ → ε → Prop) [∀ s e, Decidable (ok s e)] :
    ∀ (s : σ) (es : List ε), Decidable (Guarded step ok s es)
  | _, [] => .isTrue trivial
  | s, e :: es =>
    match (inferInstance : Decidable (ok s e)), decidableGuarded step ok (step s e) es with
    | .isTrue h, .isTrue h' => .isTrue ⟨h, h'⟩
    | .isFalse h, _ => .isFalse fun hg => h hg.1
    | _, .isFalse h => .isFalse fun hg => h hg.2

variable {step : σ → ε → σ} {ok : σ → ε → Prop}

section

variable {inv : σ → Prop} {s : σ} {es : List ε}

/-- What every step that meets the condition keeps, holds after every run that meets it. -/
theorem inv_of_guarded (hstep : ∀ s e, ok s e → inv s → inv (step s e)) (hs : inv s)
    (hrun : Guarded step ok s es) : inv (es.foldl step s) := by
  induction es generalizing s with
  | nil => exact hs
  | cons e es ih =>
    obtain ⟨he, hes⟩ := hrun
    apply ih
    · exact hstep s e he hs
    · exact hes

theorem guarded_append {es' : List ε} :
    Guarded step ok s (es ++ es') ↔
      Guarded step ok s es ∧ Guarded step ok (es.foldl step s) es' := by
  induction es generalizing s with
  | nil => simp [Guarded]
  | cons e es ih => simp [Guarded, ih, and_assoc]

/-- A property that a step keeps or breaks just as it meets the condition, holds after a run
just if all its steps met it. -/
theorem iff_guarded (hstep : ∀ s e, inv (step s e) ↔ inv s ∧ ok s e) :
    inv (es.foldl step s) ↔ inv s ∧ Guarded step ok s es := by
  induction es generalizing s with
  | nil => simp [Guarded]
  | cons e es ih => simp [Guarded, ih, hstep, and_assoc]

/-- A property that a step keeps just as it meets the condition, holds throughout a run just if
all its steps met it. -/
theorem forall_prefix_iff_guarded (hstep : ∀ s e, inv s → (inv (step s e) ↔ ok s e)) (hs : inv s) :
    (∀ done, done <+: es → inv (done.foldl step s)) ↔ Guarded step ok s es := by
  induction es generalizing s with
  | nil => simpa [Guarded] using hs
  | cons e es ih =>
    constructor
    · intro h
      have he : inv (step s e) := h [e] (List.prefix_append [e] es)
      refine ⟨(hstep s e hs).1 he, (ih he).1 fun done hd => ?_⟩
      exact h (e :: done) (List.cons_prefix_cons.2 ⟨rfl, hd⟩)
    · rintro ⟨he, hes⟩ (_ | ⟨d, done⟩) hd
      · exact hs
      · obtain ⟨rfl, hrest⟩ := List.cons_prefix_cons.1 hd
        exact (ih ((hstep s d hs).2 he)).2 hes done hrest

end

/-! ## Several parties -/

/-- What all parties have, all have after one of them has moved, if that one does. -/
theorem forall_modify {α : Type*} {inv : α → Prop} {l : List α} {i : ℕ} {f : α → α}
    (hl : ∀ a ∈ l, inv a) (hf : ∀ a, l[i]? = some a → inv (f a)) : ∀ a ∈ l.modify i f, inv a := by
  intro a ha
  obtain ⟨j, hj⟩ := List.mem_iff_getElem?.1 ha
  rw [List.getElem?_modify] at hj
  obtain ⟨b, hb, hab⟩ := Option.map_eq_some_iff.1 hj
  split at hab
  next hij =>
    rw [← hab]
    exact hf b (hij ▸ hb)
  · rw [← hab]
    exact hl b (List.mem_of_getElem? hb)

end Machine
