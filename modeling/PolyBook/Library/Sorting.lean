import Mathlib.Data.List.Sort

/-!
# Selections of sorted lists

Dropping elements before or after a stable sort is the same.  A list sorted by a
key is what lies up to a bound, followed by what lies past it.  Two sorted orders of
the same elements differ within ties only.
-/

namespace Sorting

variable {α : Type*}

section Filter

variable (r : α → α → Prop) [DecidableRel r] (p : α → Bool)

/-- An element inserted before all it may stand before is inserted so among
those selected. -/
theorem filter_orderedInsert [IsTrans α r] (a : α) {xs : List α} (hxs : xs.Pairwise r) :
    (xs.orderedInsert r a).filter p =
      if p a then (xs.filter p).orderedInsert r a else xs.filter p := by
  induction xs with
  | nil => cases ha : p a <;> simp [ha]
  | cons x xs ih =>
      rw [List.pairwise_cons] at hxs
      by_cases hax : r a x
      · rw [List.orderedInsert_cons_of_le r xs hax]
        cases ha : p a with
        | false => simp [ha]
        | true =>
            have hfront : ∀ y ∈ (x :: xs).filter p, r a y := by
              intro y hy
              rcases List.mem_cons.mp (List.mem_filter.mp hy).1 with rfl | hy
              · exact hax
              · exact IsTrans.trans a x y hax (hxs.1 y hy)
            have hinsert : ((x :: xs).filter p).orderedInsert r a = a :: (x :: xs).filter p := by
              cases hsel : (x :: xs).filter p with
              | nil => rfl
              | cons y ys =>
                  rw [hsel] at hfront
                  exact List.orderedInsert_cons_of_le r ys (hfront y List.mem_cons_self)
            rw [if_pos rfl, hinsert, List.filter_cons_of_pos ha]
      · rw [List.orderedInsert_of_not_le r xs hax]
        cases hx : p x with
        | false => simp [hx, ih hxs.2]
        | true =>
            rw [List.filter_cons_of_pos hx, List.filter_cons_of_pos hx, ih hxs.2]
            split
            · rw [List.orderedInsert_of_not_le r _ hax]
            · rfl

/-- **Selecting commutes with sorting.** -/
theorem filter_insertionSort [IsTrans α r] [Std.Total r] (xs : List α) :
    (xs.insertionSort r).filter p = (xs.filter p).insertionSort r := by
  induction xs with
  | nil => rfl
  | cons x xs ih =>
      rw [List.insertionSort_cons, filter_orderedInsert r p x (List.pairwise_insertionSort r xs),
        ih]
      cases hx : p x <;> simp [hx]

end Filter

/-- A property that is kept along a list splits it. -/
theorem filter_not_append_filter {p : α → Bool} {xs : List α}
    (hxs : xs.Pairwise fun a b => p a = true → p b = true) :
    (xs.filter fun a => !p a) ++ xs.filter p = xs := by
  induction xs with
  | nil => rfl
  | cons x xs ih =>
      rw [List.pairwise_cons] at hxs
      cases hx : p x with
      | false => simp [hx, ih hxs.2]
      | true =>
          have hall : ∀ y ∈ xs, p y = true := fun y hy => hxs.1 y hy hx
          have hnone : (xs.filter fun a => !p a) = [] :=
            List.filter_eq_nil_iff.mpr fun y hy => by simp [hall y hy]
          simp [hx, hnone, List.filter_eq_self.mpr hall]

section Key

variable {key : α → Nat} {xs : List α} (bound : Nat)

/-- Up to the bound, then past it. -/
theorem filter_le_append_filter_lt (hxs : xs.Pairwise fun a b => key a ≤ key b) :
    xs.filter (fun a => key a ≤ bound) ++ xs.filter (fun a => bound < key a) = xs := by
  have hnot : (fun a => decide (key a ≤ bound)) = fun a => !decide (bound < key a) :=
    funext fun a => by
      rw [← decide_not, decide_eq_decide]
      exact Nat.not_lt.symm
  rw [hnot]
  refine filter_not_append_filter (hxs.imp fun h hlt => ?_)
  rw [decide_eq_true_eq] at hlt ⊢
  omega

/-- What is up to the bound comes first. -/
theorem filter_le_eq_take (hxs : xs.Pairwise fun a b => key a ≤ key b) :
    xs.filter (fun a => key a ≤ bound) = xs.take (xs.countP fun a => key a ≤ bound) := by
  rw [List.countP_eq_length_filter]
  exact List.prefix_iff_eq_take.mp ⟨_, filter_le_append_filter_lt bound hxs⟩

/-- What is past the bound comes last. -/
theorem filter_lt_eq_drop (hxs : xs.Pairwise fun a b => key a ≤ key b) :
    xs.filter (fun a => bound < key a) = xs.drop (xs.countP fun a => key a ≤ bound) := by
  have hdrop := congrArg (List.drop (xs.filter fun a => key a ≤ bound).length)
    (filter_le_append_filter_lt bound hxs)
  rwa [List.drop_left, ← List.countP_eq_length_filter] at hdrop

/-- The last of what is past the bound is the last of all. -/
theorem mem_getLast?_of_filter_lt (hxs : xs.Pairwise fun a b => key a ≤ key b) {x : α}
    (hx : x ∈ (xs.filter fun a => bound < key a).getLast?) : x ∈ xs.getLast? := by
  rw [filter_lt_eq_drop bound hxs, List.getLast?_drop] at hx
  split at hx
  · cases hx
  · exact hx

/-- What starts at the first element past the bound. -/
theorem drop_findIdx?_lt (hxs : xs.Pairwise fun a b => key a ≤ key b) :
    xs.drop ((xs.findIdx? fun a => decide (bound < key a)).getD xs.length) =
      xs.filter fun a => bound < key a := by
  induction xs with
  | nil => rfl
  | cons x xs ih =>
      rw [List.pairwise_cons] at hxs
      by_cases hx : bound < key x
      · have hall : xs.filter (fun a => bound < key a) = xs := by
          refine List.filter_eq_self.mpr ?_
          intro y hy
          have := hxs.1 y hy
          simp only [decide_eq_true_eq]
          omega
        simp [List.findIdx?_cons, hx, hall]
      · rw [List.findIdx?_cons]
        simp only [hx, decide_false, Bool.false_eq_true, if_false, List.filter_cons]
        rw [← ih hxs.2]
        cases xs.findIdx? fun a => decide (bound < key a) <;> rfl

end Key

section Ties

variable {r : α → α → Prop}

/-- Two elements that may stand either way. -/
def Tied (r : α → α → Prop) (a b : α) : Prop := r a b ∧ r b a

theorem Tied.symm {a b : α} (h : Tied r a b) : Tied r b a := ⟨h.2, h.1⟩

theorem Tied.trans [IsTrans α r] {a b c : α} (h : Tied r a b) (h' : Tied r b c) : Tied r a c :=
  ⟨IsTrans.trans a b c h.1 h'.1, IsTrans.trans c b a h'.2 h.2⟩

/-- An element put behind others it is tied with shifts them by one tied place. -/
theorem forall₂_tied_insert [IsTrans α r] {a x : α} {xs front back : List α} (hx : Tied r x a)
    (hfront : ∀ y ∈ front, Tied r y a) (h : List.Forall₂ (Tied r) xs (front ++ back)) :
    List.Forall₂ (Tied r) (x :: xs) (front ++ a :: back) := by
  induction front generalizing x xs with
  | nil => exact .cons hx h
  | cons y front ih =>
      obtain ⟨z, rest, hzy, hrest, rfl⟩ := List.forall₂_cons_right_iff.mp h
      have hy : Tied r y a := hfront y List.mem_cons_self
      refine .cons (hx.trans hy.symm) (ih (hzy.trans hy) ?_ hrest)
      intro w hw
      exact hfront w (List.mem_cons_of_mem y hw)

/-- **Sorted up to ties.**  Two sorted orders of the same elements are tied place by
place. -/
theorem forall₂_tied_of_perm [IsTrans α r] [Std.Total r] {xs ys : List α} (hperm : xs.Perm ys)
    (hxs : xs.Pairwise r) (hys : ys.Pairwise r) : List.Forall₂ (Tied r) xs ys := by
  induction xs generalizing ys with
  | nil =>
      rw [List.nil_perm.mp hperm]
      exact .nil
  | cons x xs ih =>
      obtain ⟨front, back, rfl⟩ := List.append_of_mem (hperm.mem_iff.mp List.mem_cons_self)
      have hrest : xs.Perm (front ++ back) :=
        (List.perm_cons x).mp (hperm.trans List.perm_middle)
      rw [List.pairwise_cons] at hxs
      have hrefl : Tied r x x := by
        rcases Std.Total.total (r := r) x x with h | h
        · exact ⟨h, h⟩
        · exact ⟨h, h⟩
      apply forall₂_tied_insert hrefl
      · intro y hy
        have hyx : r y x := (List.pairwise_append.mp hys).2.2 y hy x List.mem_cons_self
        exact ⟨hyx, hxs.1 y (hrest.mem_iff.mpr (List.mem_append_left back hy))⟩
      · exact ih hrest hxs.2 (hys.sublist (List.Sublist.append_left (List.sublist_cons_self x back)
          front))

theorem forall₂_of_perm [IsTrans α r] [Std.Total r] {R : α → α → Prop} {xs ys : List α}
    (hperm : xs.Perm ys) (hxs : xs.Pairwise r) (hys : ys.Pairwise r)
    (hR : ∀ a ∈ ys, ∀ b ∈ ys, Tied r a b → R a b) : List.Forall₂ R xs ys := by
  obtain ⟨hlength, htied⟩ := List.forall₂_iff_zip.mp (forall₂_tied_of_perm hperm hxs hys)
  apply List.forall₂_iff_zip.mpr
  refine ⟨hlength, ?_⟩
  intro a b hab
  obtain ⟨ha, hb⟩ := List.of_mem_zip hab
  exact hR a (hperm.mem_iff.mp ha) b hb (htied hab)

end Ties

section Sublists

variable {α : Type*} {kept all : List α}

/-- What a longer list has between two neighbours of a selection is not selected. -/
theorem exists_between_of_sublist (h : kept.Sublist all) (hnodup : all.Nodup) {xs ys : List α}
    {p d : α} (hnext : kept = xs ++ p :: d :: ys) :
    ∃ front between back, all = front ++ p :: (between ++ d :: back) ∧
      ∀ b ∈ between, b ∉ kept := by
  rw [hnext] at h
  obtain ⟨start, rest, rfl, hxs, hrest⟩ := List.append_sublist_iff.mp h
  obtain ⟨left, right, rfl, hp, hright⟩ := List.cons_sublist_iff.mp hrest
  obtain ⟨middle, last, rfl, hd, hys⟩ := List.cons_sublist_iff.mp hright
  obtain ⟨l, l', rfl⟩ := List.append_of_mem hp
  obtain ⟨m, m', rfl⟩ := List.append_of_mem hd
  refine ⟨start ++ l, l' ++ m, m' ++ last, by simp, ?_⟩
  intro b hb hmem
  rw [hnext, List.mem_append, List.mem_cons, List.mem_cons] at hmem
  simp only [List.nodup_append, List.nodup_cons, List.mem_append, List.mem_cons, ne_eq] at hnodup hb
  obtain ⟨-, ⟨⟨-, ⟨hpl, -⟩, -⟩, ⟨⟨-, -, hmd⟩, -, hml⟩, hleft⟩, hstart⟩ := hnodup
  rcases hmem with hx | rfl | rfl | hy
  · exact hstart b (hxs.subset hx) b (by grind) rfl
  · rcases hb with hb | hb
    · exact hpl hb
    · exact hleft b (.inr (.inl rfl)) b (.inl (.inl hb)) rfl
  · rcases hb with hb | hb
    · exact hleft b (.inr (.inr hb)) b (.inl (.inr (.inl rfl))) rfl
    · exact hmd b hb b (.inl rfl) rfl
  · have hylast := hys.subset hy
    rcases hb with hb | hb
    · exact hleft b (.inr (.inr hb)) b (.inr hylast) rfl
    · exact hml b (.inl hb) b hylast rfl

end Sublists

end Sorting
