import Mathlib.Tactic.Common

/-!
# Loops with a decreasing potential

A loop body either leaves with a result or goes round with a new state.  When a
potential goes down at every turn the loop has a result, computed by structural
recursion on the potential; `iterate_of_inl` and `iterate_of_inr` are the loop's
equations, `leaves_iterate` says that its body does leave with that result,
`iterate_rule` is its invariant rule and `iterate_agrees` compares two loops.
-/

namespace Loop

variable {σ ρ : Type*} (body : σ → ρ ⊕ σ) (potential : σ → Nat)

/-- The potential goes down whenever the body goes round. -/
def Decreases : Prop := ∀ s s', body s = .inr s' → potential s' < potential s

variable {body potential}

/-- The loop with a bound on its turns. -/
def bounded (h : Decreases body potential) : (fuel : Nat) → (s : σ) → potential s < fuel → ρ
  | 0, _, hs => absurd hs (Nat.not_lt_zero _)
  | fuel + 1, s, hs =>
      match hbody : body s with
      | .inl result => result
      | .inr s' => bounded h fuel s' (by have := h s s' hbody; omega)

/-- The result of the loop. -/
def iterate (h : Decreases body potential) (s : σ) : ρ :=
  bounded h (potential s + 1) s (Nat.lt_succ_self _)

theorem bounded_congr (h : Decreases body potential) (fuel fuel' : Nat) (s : σ)
    (hs : potential s < fuel) (hs' : potential s < fuel') :
    bounded h fuel s hs = bounded h fuel' s hs' := by
  induction fuel generalizing fuel' s with
  | zero => exact absurd hs (Nat.not_lt_zero _)
  | succ fuel ih =>
      cases fuel' with
      | zero => exact absurd hs' (Nat.not_lt_zero _)
      | succ fuel' =>
          unfold bounded
          split
          · rfl
          · exact ih fuel' _ _ _

theorem iterate_of_inl (h : Decreases body potential) {s : σ} {result : ρ}
    (hbody : body s = .inl result) : iterate h s = result := by
  unfold iterate bounded
  split
  · rename_i r hr
    rw [hbody] at hr
    exact (Sum.inl.inj hr).symm
  · rename_i s' hs'
    rw [hbody] at hs'
    cases hs'

theorem iterate_of_inr (h : Decreases body potential) {s s' : σ} (hbody : body s = .inr s') :
    iterate h s = iterate h s' := by
  conv_lhs => unfold iterate bounded
  split
  · rename_i r hr
    rw [hbody] at hr
    cases hr
  · rename_i t ht
    rw [hbody] at ht
    cases ht
    exact bounded_congr h _ _ _ _ _

/-- **Invariant rule.**  What the body keeps while it goes round, and turns into
the postcondition when it leaves, holds of the loop's result. -/
theorem iterate_rule (h : Decreases body potential) (inv : σ → Prop) (post : ρ → Prop)
    (hround : ∀ s s', inv s → body s = .inr s' → inv s')
    (hleave : ∀ s result, inv s → body s = .inl result → post result)
    {s : σ} (hs : inv s) : post (iterate h s) := by
  induction hn : potential s using Nat.strongRecOn generalizing s with
  | _ n ih =>
      cases hbody : body s with
      | inl result =>
          rw [iterate_of_inl h hbody]
          exact hleave s result hs hbody
      | inr s' =>
          rw [iterate_of_inr h hbody]
          exact ih (potential s') (hn ▸ h s s' hbody) (hround s s' hs hbody) rfl

/-- The body leaves with the result after finitely many turns. -/
inductive Leaves (body : σ → ρ ⊕ σ) : σ → ρ → Prop
  | now {s : σ} {result : ρ} (hbody : body s = .inl result) : Leaves body s result
  | later {s s' : σ} {result : ρ} (hbody : body s = .inr s') (hrest : Leaves body s' result) :
      Leaves body s result

/-- **The loop ends.** -/
theorem leaves_iterate (h : Decreases body potential) (s : σ) : Leaves body s (iterate h s) := by
  induction hn : potential s using Nat.strongRecOn generalizing s with
  | _ n ih =>
      cases hbody : body s with
      | inl result =>
          rw [iterate_of_inl h hbody]
          exact .now hbody
      | inr s' =>
          rw [iterate_of_inr h hbody]
          exact .later hbody (ih (potential s') (hn ▸ h s s' hbody) s' rfl)

/-- **Two loops.**  Where every turn of the second is the turn of the first or leaves
with a result of a certain kind, so is its result. -/
theorem iterate_agrees {body' : σ → ρ ⊕ σ} {potential' : σ → Nat} (h : Decreases body potential)
    (h' : Decreases body' potential') (kind : ρ → Prop)
    (hturn : ∀ s, body' s = body s ∨ ∃ result, body' s = .inl result ∧ kind result) (s : σ) :
    iterate h' s = iterate h s ∨ kind (iterate h' s) := by
  induction hn : potential s using Nat.strongRecOn generalizing s with
  | _ n ih =>
      rcases hturn s with hsame | ⟨result, hleave, hkind⟩
      · cases hbody : body s with
        | inl result =>
            rw [iterate_of_inl h hbody, iterate_of_inl h' (hsame.trans hbody)]
            exact Or.inl rfl
        | inr s' =>
            rw [iterate_of_inr h hbody, iterate_of_inr h' (hsame.trans hbody)]
            exact ih (potential s') (hn ▸ h s s' hbody) s' rfl
      · rw [iterate_of_inl h' hleave]
        exact Or.inr hkind

end Loop
