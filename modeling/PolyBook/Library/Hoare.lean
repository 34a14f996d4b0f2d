import Mathlib.Tactic.Common

/-!
# Rules of programs that may fail

A program changes a state and ends with a value or with a failure.  `Triple` says what
holds of the state in both cases, and composes along a program.  A failure undoes
nothing: the state after it is the one it was met in.
-/

namespace Hoare

variable {σ ε α β : Type}

/-- From a state with `P` the program ends with `Q`, or it fails with `E`. -/
def Triple (P : σ → Prop) (m : EStateM ε σ α) (Q : α → σ → Prop) (E : ε → σ → Prop) : Prop :=
  ∀ s, P s →
    match m s with
    | .ok a s' => Q a s'
    | .error e s' => E e s'

namespace Triple

variable {P P' : σ → Prop} {m : EStateM ε σ α} {Q Q' : α → σ → Prop} {E E' : ε → σ → Prop}

/-- What holds where the program has ended. -/
theorem of_ok {s s' : σ} {a : α} (h : Triple P m Q E) (hs : P s) (hm : m s = .ok a s') :
    Q a s' := by
  have hend := h s hs
  rwa [hm] at hend

/-- What holds where it has failed. -/
theorem of_error {s s' : σ} {e : ε} (h : Triple P m Q E) (hs : P s) (hm : m s = .error e s') :
    E e s' := by
  have hend := h s hs
  rwa [hm] at hend

theorem pure (a : α) : Triple (Q a) (Pure.pure a) Q E := fun _ hs => hs

theorem throw (e : ε) : Triple (E e) (MonadExcept.throw e) Q E := fun _ hs => hs

/-- A program that is not reached. -/
theorem unreached : Triple (fun _ => False) m Q E := fun _ hs => hs.elim

/-- **Composition.**  The second program begins where the first one ends. -/
theorem bind {f : α → EStateM ε σ β} {R : β → σ → Prop} (h : Triple P m Q E)
    (hf : ∀ a, Triple (Q a) (f a) R E) : Triple P (m >>= f) R E := by
  intro s hs
  change match EStateM.bind m f s with
    | .ok b s' => R b s'
    | .error e s' => E e s'
  rw [EStateM.bind]
  cases hm : m s with
  | ok a s' => exact hf a s' (h.of_ok hs hm)
  | error e s' => exact h.of_error hs hm

/-- **Consequence.** -/
theorem consequence (h : Triple P m Q E) (hP : ∀ s, P' s → P s) (hQ : ∀ a s, Q a s → Q' a s)
    (hE : ∀ e s, E e s → E' e s) : Triple P' m Q' E' := by
  intro s hs
  cases hm : m s with
  | ok a s' => exact hQ a s' (h.of_ok (hP s hs) hm)
  | error e s' => exact hE e s' (h.of_error (hP s hs) hm)

theorem weaken (h : Triple P m Q E) (hP : ∀ s, P' s → P s) : Triple P' m Q E :=
  h.consequence hP (fun _ _ hQ => hQ) fun _ _ hE => hE

/-- A fact of the state before the program. -/
theorem assume {φ : Prop} (hP : ∀ s, P s → φ) (h : φ → Triple P m Q E) : Triple P m Q E :=
  fun s hs => h (hP s hs) s hs

/-- **The loop rule.**  What each turn keeps holds after the last one. -/
theorem foldlM {f : β → α → EStateM ε σ β} {inv : β → σ → Prop} {xs : List α}
    (h : ∀ b, ∀ x ∈ xs, Triple (inv b) (f b x) inv E) (b : β) :
    Triple (inv b) (xs.foldlM f b) inv E := by
  induction xs generalizing b with
  | nil => exact pure b
  | cons x xs ih =>
      rw [List.foldlM_cons]
      refine (h b x List.mem_cons_self).bind fun b' => ?_
      exact ih (fun b y hy => h b y (List.mem_cons_of_mem _ hy)) b'

end Triple

end Hoare
