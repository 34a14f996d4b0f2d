import Mathlib.Logic.Function.Basic
import Mathlib.Tactic.Common

/-!
# Codes that are read from the front

A code gives every letter a word.  When the first word of a text can be told from what
follows it, a text has one reading.
-/

namespace PrefixCode

variable {α β : Type*} {code : α → List β}

/-- The first letter of a text is told from its words. -/
structure Splits (code : α → List β) : Prop where
  nonempty : ∀ a, code a ≠ []
  split : ∀ a b xs ys, code a ++ xs = code b ++ ys → a = b ∧ xs = ys

/-- **A text has one reading.** -/
theorem Splits.flatMap_injective (h : Splits code) :
    Function.Injective fun letters : List α => letters.flatMap code := by
  intro xs ys heq
  dsimp only at heq
  induction xs generalizing ys with
  | nil =>
      cases ys with
      | nil => rfl
      | cons b ys =>
          rw [List.flatMap_nil, List.flatMap_cons, eq_comm, List.append_eq_nil_iff] at heq
          exact absurd heq.1 (h.nonempty b)
  | cons a xs ih =>
      cases ys with
      | nil =>
          rw [List.flatMap_nil, List.flatMap_cons, List.append_eq_nil_iff] at heq
          exact absurd heq.1 (h.nonempty a)
      | cons b ys =>
          rw [List.flatMap_cons, List.flatMap_cons] at heq
          obtain ⟨rfl, hrest⟩ := h.split a b _ _ heq
          rw [ih hrest]

end PrefixCode
