import Mathlib.Algebra.Field.Basic
import Mathlib.Tactic.FieldSimp
import Mathlib.Tactic.Ring

/-!
# Place values

The value of a string of digits before and after the point, in any base and over any
field.  Scaling by a power of the base that covers the fraction leaves a natural
number, and that number is what two integer runs over the digits compute.
-/

namespace PlaceValue

/-- The number a run of digits denotes, read from the left. -/
def number (b : ℕ) (digits : List ℕ) : ℕ := digits.foldl (fun n d => b * n + d) 0

variable {K : Type*} [Field K]

/-- The digits before the point: each counts for a power of the base. -/
def whole (b : K) : List ℕ → K
  | [] => 0
  | d :: digits => d * b ^ digits.length + whole b digits

/-- The digits after the point: each step to the right divides by the base. -/
def fraction (b : K) : List ℕ → K
  | [] => 0
  | d :: digits => (d + fraction b digits) / b

theorem foldl_eq_whole (b n : ℕ) (digits : List ℕ) :
    ((digits.foldl (fun n d => b * n + d) n : ℕ) : K) =
      n * (b : K) ^ digits.length + whole (b : K) digits := by
  induction digits generalizing n with
  | nil => simp [whole]
  | cons d digits ih =>
      rw [List.foldl_cons, ih, whole, List.length_cons]
      push_cast
      ring

theorem cast_number (b : ℕ) (digits : List ℕ) :
    (number b digits : K) = whole (b : K) digits := by
  rw [number, foldl_eq_whole]
  simp

theorem fraction_mul_pow {b : K} (hb : b ≠ 0) (digits : List ℕ) :
    fraction b digits * b ^ digits.length = whole b digits := by
  induction digits with
  | nil => simp [fraction, whole]
  | cons d digits ih =>
      rw [fraction, whole, List.length_cons, ← ih]
      field_simp
      ring

/-- **A scaled value is a natural number**, when the scale covers the fraction. -/
theorem scaled_value {b places : ℕ} (hb : (b : K) ≠ 0) (digits : List ℕ) {fracDigits : List ℕ}
    (hplaces : fracDigits.length ≤ places) :
    (whole (b : K) digits + fraction (b : K) fracDigits) * (b : K) ^ places =
      (number b digits * b ^ places + number b fracDigits * b ^ (places - fracDigits.length) :
        ℕ) := by
  have hsplit : (b : K) ^ places =
      (b : K) ^ fracDigits.length * (b : K) ^ (places - fracDigits.length) := by
    rw [← pow_add, Nat.add_sub_cancel' hplaces]
  push_cast
  rw [cast_number, cast_number, ← fraction_mul_pow hb fracDigits, add_mul, mul_assoc (fraction _ _),
    ← hsplit]

end PlaceValue
