import Mathlib.Data.List.Basic

/-!
# Folds that may stop

A `foldlM` in `Except` either goes through its list or stops at an element.
`foldlM_rule` is its invariant rule and `foldlM_stopped` says where it stopped.
-/

namespace Folds

variable {σ α ε : Type*} {f : σ → α → Except ε σ}

/-- A composition that succeeds is made of two steps that do. -/
theorem bind_eq_ok {ε β γ : Type} {x : Except ε β} {next : β → Except ε γ} {c : γ} :
    (x >>= next) = .ok c ↔ ∃ b, x = .ok b ∧ next b = .ok c := by
  cases x with
  | error e => simp [bind, Except.bind]
  | ok b => simp [bind, Except.bind]

theorem foldlM_cons_ok {s s' : σ} {x : α} {xs : List α} (h : f s x = .ok s') :
    (x :: xs).foldlM f s = xs.foldlM f s' := by
  rw [List.foldlM_cons, h]
  rfl

theorem foldlM_cons_error {s : σ} {x : α} {xs : List α} {e : ε} (h : f s x = .error e) :
    (x :: xs).foldlM f s = .error e := by
  rw [List.foldlM_cons, h]
  rfl

theorem foldlM_concat_ok_iff {xs : List α} {x : α} {s s' : σ} :
    (xs ++ [x]).foldlM f s = .ok s' ↔ ∃ t, xs.foldlM f s = .ok t ∧ f t x = .ok s' := by
  induction xs generalizing s with
  | nil =>
      cases hx : f s x with
      | error e => simp [foldlM_cons_error hx, hx, pure, Except.pure]
      | ok t => simp [foldlM_cons_ok hx, hx, pure, Except.pure]
  | cons y xs ih =>
      cases hy : f s y with
      | error e => simp [foldlM_cons_error hy]
      | ok t => rw [List.cons_append, foldlM_cons_ok hy, foldlM_cons_ok hy, ih]

/-- **Invariant rule**, from a state that has some elements behind it. -/
theorem foldlM_rule_from (inv : List α → σ → Prop)
    (hstep : ∀ done s x s', inv done s → f s x = .ok s' → inv (done ++ [x]) s') {xs done : List α}
    {s s' : σ} (hs : inv done s) (h : xs.foldlM f s = .ok s') : inv (done ++ xs) s' := by
  induction xs generalizing done s with
  | nil =>
      cases h
      rwa [List.append_nil]
  | cons x xs ih =>
      cases hx : f s x with
      | error e =>
          rw [foldlM_cons_error hx] at h
          cases h
      | ok next =>
          rw [foldlM_cons_ok hx] at h
          rw [← List.singleton_append, ← List.append_assoc]
          exact ih (hstep done s x next hs hx) h

/-- **Invariant rule.** -/
theorem foldlM_rule (inv : List α → σ → Prop)
    (hstep : ∀ done s x s', inv done s → f s x = .ok s' → inv (done ++ [x]) s') {xs : List α}
    {s s' : σ} (hs : inv [] s) (h : xs.foldlM f s = .ok s') : inv xs s' :=
  foldlM_rule_from inv hstep hs h

/-- Where a fold stopped. -/
theorem foldlM_stopped {xs : List α} {s : σ} {e : ε} (h : xs.foldlM f s = .error e) :
    ∃ done x rest s', xs = done ++ x :: rest ∧ done.foldlM f s = .ok s' ∧ f s' x = .error e := by
  induction xs generalizing s with
  | nil => cases h
  | cons x xs ih =>
      cases hx : f s x with
      | error e' =>
          rw [foldlM_cons_error hx] at h
          cases h
          exact ⟨[], x, xs, s, rfl, rfl, hx⟩
      | ok next =>
          rw [foldlM_cons_ok hx] at h
          obtain ⟨done, y, rest, s', rfl, hdone, hy⟩ := ih h
          exact ⟨x :: done, y, rest, s', rfl, by rwa [foldlM_cons_ok hx], hy⟩

end Folds
