import Mathlib.Data.List.Basic
import Mathlib.Order.Basic

/-!
# Groups in the order of their keys

Elements are put, one by one, into the group of their key; the groups stand in the
order of the keys.  Whatever the order of the elements, each key has one group, and
it holds the elements of that key in the order they came in.
-/

namespace Grouping

open Std

variable {κ α : Type*} [Ord κ]

/-- Put an element into the group of its key, behind the ones that are there. -/
def push (key : κ) (x : α) : List (κ × List α) → List (κ × List α)
  | [] => [(key, [x])]
  | (k, xs) :: groups =>
      match compare key k with
      | .lt => (key, [x]) :: (k, xs) :: groups
      | .eq => (k, xs ++ [x]) :: groups
      | .gt => (k, xs) :: push key x groups

/-- The keys increase. -/
def Sorted (groups : List (κ × List α)) : Prop :=
  groups.Pairwise fun g g' => compare g.1 g'.1 = .lt

variable [TransOrd κ] [LawfulEqOrd κ]

omit [LawfulEqOrd κ] in
theorem ne_of_compare_lt {k k' : κ} (h : compare k k' = .lt) : k ≠ k' := by
  rintro rfl
  rw [ReflOrd.compare_self] at h
  cases h

/-- **What a push does to the groups.** -/
theorem mem_push {key : κ} {x : α} {groups : List (κ × List α)} (hsorted : Sorted groups)
    (k : κ) (ys : List α) : (k, ys) ∈ push key x groups ↔
      (k ≠ key ∧ (k, ys) ∈ groups) ∨
        (k = key ∧ ((∃ zs, (key, zs) ∈ groups ∧ ys = zs ++ [x]) ∨
          (∀ zs, (key, zs) ∉ groups) ∧ ys = [x])) := by
  induction groups with
  | nil =>
      simp only [push, List.mem_singleton, Prod.mk.injEq, List.not_mem_nil, and_false, false_and,
        exists_false, not_false_eq_true, implies_true, true_and, false_or]
  | cons group groups ih =>
      obtain ⟨k', xs⟩ := group
      obtain ⟨hhead, htail⟩ := List.pairwise_cons.mp hsorted
      have hlater : ∀ zs, (k', zs) ∉ groups := fun zs hmem =>
        ne_of_compare_lt (hhead _ hmem) rfl
      unfold push
      cases hcompare : compare key k' with
      | lt =>
          have hnew : ∀ zs, (key, zs) ∉ (k', xs) :: groups := by
            intro zs hmem
            rcases List.mem_cons.mp hmem with heq | hmem
            · exact ne_of_compare_lt hcompare (Prod.mk.inj heq).1
            · exact ne_of_compare_lt (TransCmp.lt_trans hcompare (hhead _ hmem)) rfl
          dsimp only
          grind
      | eq =>
          obtain rfl : key = k' := LawfulEqOrd.eq_of_compare hcompare
          dsimp only
          grind
      | gt =>
          have hne : key ≠ k' := by
            rintro rfl
            rw [ReflOrd.compare_self] at hcompare
            cases hcompare
          have hrest := ih htail
          dsimp only
          grind

theorem Sorted.push {key : κ} {x : α} {groups : List (κ × List α)} (h : Sorted groups) :
    Sorted (push key x groups) := by
  induction groups with
  | nil => exact List.pairwise_singleton _ _
  | cons group groups ih =>
      obtain ⟨k', xs⟩ := group
      obtain ⟨hhead, htail⟩ := List.pairwise_cons.mp h
      unfold Grouping.push
      cases hcompare : compare key k' with
      | lt =>
          refine List.pairwise_cons.mpr ⟨fun g hg => ?_, h⟩
          rcases List.mem_cons.mp hg with rfl | hg
          · exact hcompare
          · exact TransCmp.lt_trans hcompare (hhead g hg)
      | eq => exact List.pairwise_cons.mpr ⟨hhead, htail⟩
      | gt =>
          refine List.pairwise_cons.mpr ⟨fun g hg => ?_, ih htail⟩
          rcases (mem_push htail g.1 g.2).mp hg with ⟨-, hmem⟩ | ⟨hkey, -⟩
          · exact hhead g hmem
          · rw [hkey]
            exact OrientedCmp.lt_of_gt hcompare

/-- The groups of some elements. -/
structure IsGrouping [DecidableEq κ] (keyOf : α → κ) (xs : List α) (groups : List (κ × List α)) :
    Prop where
  sorted : Sorted groups
  elements : ∀ k ys, (k, ys) ∈ groups →
    ys = xs.filter (fun x => decide (keyOf x = k)) ∧ ys ≠ []
  complete : ∀ x ∈ xs, ∃ ys, (keyOf x, ys) ∈ groups

variable [DecidableEq κ] {keyOf : α → κ}

omit [TransOrd κ] [LawfulEqOrd κ] in
theorem IsGrouping.nil : IsGrouping keyOf ([] : List α) ([] : List (κ × List α)) where
  sorted := List.Pairwise.nil
  elements := by
    intro k ys hmem
    cases hmem
  complete := by
    intro x hx
    cases hx

theorem IsGrouping.push {xs : List α} {groups : List (κ × List α)}
    (h : IsGrouping keyOf xs groups) (x : α) :
    IsGrouping keyOf (xs ++ [x]) (push (keyOf x) x groups) where
  sorted := h.sorted.push
  elements := by
    intro k ys hmem
    rw [List.filter_append]
    rcases (mem_push h.sorted k ys).mp hmem with ⟨hne, hold⟩ | ⟨rfl, hown⟩
    · obtain ⟨hys, hnonempty⟩ := h.elements k ys hold
      rw [List.filter_cons_of_neg (by simpa using Ne.symm hne), List.filter_nil, List.append_nil]
      exact ⟨hys, hnonempty⟩
    · rw [List.filter_cons_of_pos (by simp), List.filter_nil]
      rcases hown with ⟨zs, hold, rfl⟩ | ⟨hnew, rfl⟩
      · rw [← (h.elements _ _ hold).1]
        exact ⟨rfl, by simp⟩
      · have hnone : xs.filter (fun y => decide (keyOf y = keyOf x)) = [] := by
          rw [List.filter_eq_nil_iff]
          intro y hy heq
          obtain ⟨zs, hzs⟩ := h.complete y hy
          rw [of_decide_eq_true heq] at hzs
          exact hnew zs hzs
        rw [hnone]
        exact ⟨rfl, List.cons_ne_nil _ _⟩
  complete := by
    intro y hy
    simp only [mem_push h.sorted]
    by_cases hkey : keyOf y = keyOf x
    · by_cases hnew : ∀ zs, (keyOf x, zs) ∉ groups
      · exact ⟨[x], Or.inr ⟨hkey, Or.inr ⟨hnew, rfl⟩⟩⟩
      · obtain ⟨zs, hzs⟩ := not_forall_not.mp hnew
        exact ⟨zs ++ [x], Or.inr ⟨hkey, Or.inl ⟨zs, hzs, rfl⟩⟩⟩
    · rcases List.mem_append.mp hy with hy | hy
      · obtain ⟨ys, hys⟩ := h.complete y hy
        exact ⟨ys, Or.inl ⟨hkey, hys⟩⟩
      · exact absurd (congrArg keyOf (List.mem_singleton.mp hy)) hkey

/-- **The groups of any elements.** -/
theorem isGrouping_foldl (keyOf : α → κ) (xs : List α) :
    IsGrouping keyOf xs (xs.foldl (fun groups x => Grouping.push (keyOf x) x groups) []) := by
  suffices h : ∀ ys zs groups, IsGrouping keyOf ys groups → IsGrouping keyOf (ys ++ zs)
      (zs.foldl (fun groups x => Grouping.push (keyOf x) x groups) groups) by
    exact h [] xs [] .nil
  intro ys zs
  induction zs generalizing ys with
  | nil =>
      intro groups hgroups
      rw [List.append_nil]
      exact hgroups
  | cons z zs ih =>
      intro groups hgroups
      have hrest := ih (ys ++ [z]) _ (hgroups.push z)
      rwa [List.append_assoc] at hrest

/-! ## Several receivers -/

omit [TransOrd κ] [LawfulEqOrd κ] [DecidableEq κ]

/-- Elements are handed to receivers, each of which keeps groups of its own. -/
def dispatch (place : α → Option (ℕ × κ)) (receivers : List (List (κ × List α))) (xs : List α) :
    List (List (κ × List α)) :=
  xs.foldl (fun receivers x =>
    match place x with
    | none => receivers
    | some (i, key) => receivers.modify i (Grouping.push key x)) receivers

/-- **What a receiver has**: the groups of the elements that were handed to it. -/
theorem getElem?_dispatch {place : α → Option (ℕ × κ)} {keyOf : α → κ}
    (hkey : ∀ x i key, place x = some (i, key) → keyOf x = key)
    (receivers : List (List (κ × List α))) (xs : List α) (i : ℕ) :
    (dispatch place receivers xs)[i]? = receivers[i]?.map fun groups =>
      (xs.filter fun x => (place x).any fun p => p.1 == i).foldl
        (fun groups x => Grouping.push (keyOf x) x groups) groups := by
  induction xs generalizing receivers with
  | nil => cases h : receivers[i]? <;> simp [dispatch, h]
  | cons x xs ih =>
      have hstep : dispatch place receivers (x :: xs) = dispatch place (match place x with
          | none => receivers
          | some (i, key) => receivers.modify i (Grouping.push key x)) xs := rfl
      rw [hstep, ih]
      cases hplace : place x with
      | none => simp [hplace]
      | some p =>
          obtain ⟨j, key⟩ := p
          dsimp only
          by_cases hj : j = i
          · subst hj
            rw [List.getElem?_modify_eq, List.filter_cons_of_pos (by simp [hplace])]
            cases receivers[j]? with
            | none => rfl
            | some groups => simp [hkey x j key hplace]
          · rw [List.getElem?_modify_ne _ _ hj, List.filter_cons_of_neg (by simp [hplace, hj])]

theorem length_dispatch (place : α → Option (ℕ × κ)) (receivers : List (List (κ × List α)))
    (xs : List α) : (dispatch place receivers xs).length = receivers.length := by
  induction xs generalizing receivers with
  | nil => rfl
  | cons x xs ih =>
      have hstep : dispatch place receivers (x :: xs) = dispatch place (match place x with
          | none => receivers
          | some (i, key) => receivers.modify i (Grouping.push key x)) xs := rfl
      rw [hstep, ih]
      cases place x with
      | none => rfl
      | some p => exact List.length_modify _ _ _

end Grouping
