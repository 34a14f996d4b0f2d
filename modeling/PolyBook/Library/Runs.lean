import Mathlib.Tactic.Common

/-!
# Runs of a transition system

A system with a step function runs through a list of events.  `Meets ok` says
that every step of a run starts from a state that satisfies a condition;
`Meets.induction` is the invariant rule for such runs.
-/

namespace Runs

variable {σ ε : Type*} (step : σ → ε → σ) (ok : σ → ε → Prop)

/-- The state after a list of events. -/
def run (s : σ) (events : List ε) : σ := events.foldl step s

/-- Every step of the run meets the condition. -/
def Meets : σ → List ε → Prop
  | _, [] => True
  | s, e :: events => ok s e ∧ Meets (step s e) events

instance decidableMeets [∀ s e, Decidable (ok s e)] :
    (s : σ) → (events : List ε) → Decidable (Meets step ok s events)
  | _, [] => isTrue trivial
  | s, e :: events =>
      have : Decidable (Meets step ok (step s e) events) := decidableMeets (step s e) events
      inferInstanceAs (Decidable (ok s e ∧ Meets step ok (step s e) events))

variable {step ok}

theorem run_append (s : σ) (xs ys : List ε) :
    run step s (xs ++ ys) = run step (run step s xs) ys := by
  simp [run, List.foldl_append]

/-- **Invariant rule** for runs without a condition. -/
theorem run_induction {inv : σ → Prop} (hstep : ∀ s e, inv s → inv (step s e)) {s : σ} (hs : inv s)
    (events : List ε) : inv (run step s events) := by
  induction events generalizing s with
  | nil => exact hs
  | cons e events ih => exact ih (hstep s e hs)

theorem meets_append {s : σ} {xs ys : List ε} :
    Meets step ok s (xs ++ ys) ↔ Meets step ok s xs ∧ Meets step ok (run step s xs) ys := by
  induction xs generalizing s with
  | nil => simp [Meets, run]
  | cons x xs ih =>
      simp only [List.cons_append, Meets, ih, and_assoc]
      rfl

/-- Two conditions met step by step. -/
theorem Meets.and {ok' : σ → ε → Prop} {s : σ} {events : List ε} (h : Meets step ok s events)
    (h' : Meets step ok' s events) : Meets step (fun s e => ok s e ∧ ok' s e) s events := by
  induction events generalizing s with
  | nil => trivial
  | cons e events ih => exact ⟨⟨h.1, h'.1⟩, ih h.2 h'.2⟩

/-- **Invariant rule.** -/
theorem Meets.induction {inv : σ → Prop}
    (hstep : ∀ s e, inv s → ok s e → inv (step s e)) {s : σ} (hs : inv s)
    {events : List ε} (h : Meets step ok s events) : inv (run step s events) := by
  induction events generalizing s with
  | nil => exact hs
  | cons e events ih => exact ih (hstep s e hs h.1) h.2

/-- What a step that fails the condition spoils stays spoilt: a run that ends unspoilt
has met the condition. -/
theorem meets_of_not_spoilt {inv spoilt : σ → Prop} (hstep : ∀ s e, inv s → inv (step s e))
    (hstays : ∀ s e, inv s → spoilt s → spoilt (step s e))
    (hfails : ∀ s e, inv s → ¬ ok s e → spoilt (step s e)) {s : σ} (hs : inv s)
    (events : List ε) (h : ¬ spoilt (run step s events)) : Meets step ok s events := by
  induction events generalizing s with
  | nil => trivial
  | cons e events ih =>
      refine ⟨?_, ih (hstep s e hs) h⟩
      by_contra hok
      have hboth : ∀ t e, inv t ∧ spoilt t → inv (step t e) ∧ spoilt (step t e) :=
        fun t e ht => ⟨hstep t e ht.1, hstays t e ht.1 ht.2⟩
      exact h (run_induction hboth ⟨hstep s e hs, hfails s e hs hok⟩ events).2

/-- Two conditions that agree wherever the run keeps an invariant. -/
theorem meets_congr {ok' : σ → ε → Prop} {inv : σ → Prop}
    (hok : ∀ s e, inv s → (ok s e ↔ ok' s e))
    (hstep : ∀ s e, inv s → ok s e → inv (step s e)) {s : σ} (hs : inv s) (events : List ε) :
    Meets step ok s events ↔ Meets step ok' s events := by
  induction events generalizing s with
  | nil => rfl
  | cons e events ih =>
      constructor
      · intro ⟨hfirst, hrest⟩
        exact ⟨(hok s e hs).mp hfirst, (ih (hstep s e hs hfirst)).mp hrest⟩
      · intro ⟨hfirst, hrest⟩
        have hthis := (hok s e hs).mpr hfirst
        exact ⟨hthis, (ih (hstep s e hs hthis)).mpr hrest⟩

/-- Where a step keeps an invariant exactly when it meets a condition, a run that keeps
the invariant all along is one whose steps meet the condition. -/
theorem meets_iff_forall_prefix {inv : σ → Prop}
    (hstep : ∀ s e, inv s → (inv (step s e) ↔ ok s e)) {s : σ} (hs : inv s) (events : List ε) :
    (∀ done, done <+: events → inv (run step s done)) ↔ Meets step ok s events := by
  induction events generalizing s with
  | nil =>
      constructor
      · exact fun _ => trivial
      · intro _ done hdone
        rw [List.prefix_nil.mp hdone]
        exact hs
  | cons e events ih =>
      constructor
      · intro h
        have hfirst : inv (step s e) := h [e] ⟨events, rfl⟩
        refine ⟨(hstep s e hs).mp hfirst, (ih hfirst).mp ?_⟩
        intro done hdone
        exact h (e :: done) (List.cons_prefix_cons.mpr ⟨rfl, hdone⟩)
      · intro ⟨hok, hmeets⟩ done hdone
        cases done with
        | nil => exact hs
        | cons first done =>
            obtain ⟨rfl, hrest⟩ := List.cons_prefix_cons.mp hdone
            exact (ih ((hstep s first hs).mpr hok)).mpr hmeets done hrest

end Runs
