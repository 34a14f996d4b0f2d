import Mathlib.Algebra.Group.Nat.Defs
import Mathlib.Data.List.Basic
import Mathlib.Order.Basic

/-!
# Decimal texts of a fixed width

Numbers that are written with the same number of digits compare as texts, and so do
texts that begin with such a number.
-/

namespace FixedWidth

/-- The last `width` decimal digits of a number. -/
def digits : (width n : Nat) → List Char
  | 0, _ => []
  | width + 1, n => digits width (n / 10) ++ [Nat.digitChar (n % 10)]

@[simp] theorem length_digits (width n : Nat) : (digits width n).length = width := by
  induction width generalizing n with
  | zero => rfl
  | succ width ih => rw [digits, List.length_append, ih, List.length_singleton]

theorem digits_zero (width : Nat) : digits width 0 = List.replicate width '0' := by
  induction width with
  | zero => rfl
  | succ width ih =>
      rw [digits, Nat.zero_div, ih, List.replicate_succ']
      rfl

/-- A number that fits, padded with zeros. -/
theorem digits_eq {width n : Nat} (hwidth : 0 < width) (h : n < 10 ^ width) :
    digits width n =
      List.replicate (width - (Nat.toDigits 10 n).length) '0' ++ Nat.toDigits 10 n := by
  induction width generalizing n with
  | zero => omega
  | succ width ih =>
      by_cases hn : n < 10
      · rw [Nat.toDigits_of_lt_base hn, digits, Nat.div_eq_of_lt hn, Nat.mod_eq_of_lt hn,
          digits_zero]
        rfl
      · have hle : 10 ≤ n := Nat.le_of_not_lt hn
        have hpos : 0 < width := by
          by_contra hzero
          obtain rfl := Nat.eq_zero_of_not_pos hzero
          omega
        have hquot : n / 10 < 10 ^ width := by
          rw [Nat.pow_succ] at h
          omega
        rw [Nat.toDigits_of_base_le (by decide) hle, digits, ih hpos hquot, List.length_append,
          List.length_singleton, Nat.add_sub_add_right, List.append_assoc]

theorem digitChar_lt {m n : Nat} (h : m < n) (hn : n < 10) : Nat.digitChar m < Nat.digitChar n := by
  have hall : ∀ j < 10, ∀ i < j, Nat.digitChar i < Nat.digitChar j := by decide
  exact hall n hn m h

/-- A digit is one byte. -/
theorem utf8Size_of_mem {width n : Nat} {c : Char} (h : c ∈ digits width n) :
    c.utf8Size = 1 := by
  induction width generalizing n with
  | zero => cases h
  | succ width ih =>
      rcases List.mem_append.mp h with h | h
      · exact ih h
      · have hall : ∀ d < 10, (Nat.digitChar d).utf8Size = 1 := by decide
        rw [List.mem_singleton.mp h]
        exact hall _ (Nat.mod_lt _ (by decide))

/-- Texts of one length compare before what follows them. -/
theorem append_lt_append {xs ys : List Char} (h : xs < ys) (hlength : xs.length = ys.length)
    (s t : List Char) : xs ++ s < ys ++ t := by
  induction xs generalizing ys with
  | nil =>
      obtain rfl := List.length_eq_zero_iff.mp hlength.symm
      exact absurd h (List.lt_irrefl _)
  | cons x xs ih =>
      cases ys with
      | nil => cases hlength
      | cons y ys =>
          rw [List.cons_append, List.cons_append, List.cons_lt_cons_iff]
          rcases List.cons_lt_cons_iff.mp h with hlt | ⟨heq, hlt⟩
          · exact Or.inl hlt
          · exact Or.inr ⟨heq, ih hlt (Nat.succ.inj hlength)⟩

/-- **Numbers compare as their texts.** -/
theorem digits_lt {width m n : Nat} (h : m < n) (hn : n < 10 ^ width) :
    digits width m < digits width n := by
  induction width generalizing m n with
  | zero => omega
  | succ width ih =>
      rw [digits, digits]
      by_cases hquot : m / 10 = n / 10
      · rw [hquot]
        refine List.append_left_lt (List.cons_lt_cons_iff.mpr (Or.inl ?_))
        exact digitChar_lt (by omega) (by omega)
      · refine append_lt_append (ih (by omega) ?_) (by simp) _ _
        rw [Nat.pow_succ] at hn
        omega

end FixedWidth
