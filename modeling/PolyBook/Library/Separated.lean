import Mathlib.Data.List.Basic
import Mathlib.Data.List.TakeWhile

/-!
# Texts cut at a separator

What stands after the last separator, and that a text is cut in one way only where one
of its two sides has no separator.
-/

namespace Separated

variable {α : Type*}

/-- Two texts that are cut behind parts without a separator. -/
theorem append_inj_left {sep : α} {xs xs' ys ys' : List α} (hxs : sep ∉ xs) (hxs' : sep ∉ xs')
    (h : xs ++ sep :: ys = xs' ++ sep :: ys') : xs = xs' ∧ ys = ys' := by
  induction xs generalizing xs' with
  | nil =>
      cases xs' with
      | nil => exact ⟨rfl, (List.cons.inj h).2⟩
      | cons x' xs' =>
          obtain ⟨rfl, -⟩ := List.cons.inj h
          exact absurd List.mem_cons_self hxs'
  | cons x xs ih =>
      cases xs' with
      | nil =>
          obtain ⟨rfl, -⟩ := List.cons.inj h
          exact absurd List.mem_cons_self hxs
      | cons x' xs' =>
          obtain ⟨rfl, htail⟩ := List.cons.inj h
          obtain ⟨rfl, rfl⟩ := ih (List.not_mem_of_not_mem_cons hxs)
            (List.not_mem_of_not_mem_cons hxs') htail
          exact ⟨rfl, rfl⟩

/-- Two texts that are cut before parts without a separator. -/
theorem append_inj_right {sep : α} {xs xs' ys ys' : List α} (hys : sep ∉ ys) (hys' : sep ∉ ys')
    (h : xs ++ sep :: ys = xs' ++ sep :: ys') : xs = xs' ∧ ys = ys' := by
  have hreverse : ys.reverse ++ sep :: xs.reverse = ys'.reverse ++ sep :: xs'.reverse := by
    simpa using congrArg List.reverse h
  obtain ⟨htail, hhead⟩ := append_inj_left (mt List.mem_reverse.mp hys)
    (mt List.mem_reverse.mp hys') hreverse
  exact ⟨List.reverse_inj.mp hhead, List.reverse_inj.mp htail⟩

variable [DecidableEq α]

/-- What stands after the last separator. -/
def last (sep : α) (xs : List α) : List α :=
  (xs.reverse.takeWhile fun x => decide (x ≠ sep)).reverse

@[simp] theorem last_append {sep : α} {ys : List α} (h : sep ∉ ys) (xs : List α) :
    last sep (xs ++ sep :: ys) = ys := by
  have hall : ∀ y ∈ ys.reverse, decide (y ≠ sep) = true := by
    intro y hy
    exact decide_eq_true fun heq => h (heq ▸ List.mem_reverse.mp hy)
  rw [last, List.reverse_append, List.reverse_cons, List.append_assoc,
    List.takeWhile_append_of_pos hall]
  simp

/-- A separator in front changes nothing. -/
theorem last_cons_self (sep : α) (xs : List α) : last sep (sep :: xs) = last sep xs := by
  unfold last
  rw [List.reverse_cons, List.takeWhile_append]
  split
  · rename_i hlength
    rw [(List.takeWhile_prefix _).eq_of_length hlength]
    simp
  · rfl

end Separated
