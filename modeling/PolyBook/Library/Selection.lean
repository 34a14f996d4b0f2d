import Mathlib.Data.List.Destutter
import Mathlib.Data.List.Nodup
import Mathlib.Data.List.Perm.Basic
import Mathlib.Data.List.Sort

/-!
# Opening some of the containers

Items lie in containers with distinct names.  A reader that opens only some of the
containers, each of them once, finds what one finds who opens them all, provided there
is nothing to find in the others.

A listing that is sorted and then rid of equal neighbours names each container once.

Several readers may each find the items in an order of their own.  If they look for items
of different classes, there is one order in which each of them finds what it has found.
-/

namespace Selection

variable {κ α β : Type*}

/-- The selection takes a container at most once, and every one there is something in. -/
structure Covers (names selected : List κ) (found : κ → List β) : Prop where
  nodup : selected.Nodup
  subset : selected ⊆ names
  complete : ∀ name ∈ names, found name ≠ [] → name ∈ selected

/-- **A covering selection finds everything.**  In whatever order the selected containers
are opened, all containers opened in some order give the same. -/
theorem Covers.exists_arrangement {names selected : List κ} {found : κ → List β}
    (h : Covers names selected found) (hnames : names.Nodup) {opened : List κ}
    (hopened : opened.Perm selected) :
    ∃ arranged : List κ, arranged.Perm names ∧ arranged.flatMap found = opened.flatMap found := by
  classical
  have hselected : selected.Perm (names.filter (· ∈ selected)) := by
    rw [List.perm_ext_iff_of_nodup h.nodup (hnames.filter _)]
    intro name
    rw [List.mem_filter, decide_eq_true_iff]
    exact ⟨fun hname => ⟨h.subset hname, hname⟩, fun hboth => hboth.2⟩
  have hothers : (names.filter fun name => !decide (name ∈ selected)).flatMap found = [] := by
    rw [List.flatMap_eq_nil_iff]
    intro name hname
    obtain ⟨hin, hout⟩ := List.mem_filter.mp hname
    by_contra hfound
    simp [h.complete name hin hfound] at hout
  refine ⟨opened ++ names.filter fun name => !decide (name ∈ selected), ?_, ?_⟩
  · exact ((hopened.trans hselected).append_right _).trans (List.filter_append_perm _ names)
  · rw [List.flatMap_append, hothers, List.append_nil]

section Sorted

variable [LinearOrder κ]

/-- Dropping equal neighbours drops no name. -/
theorem mem_destutter' {x y : κ} {names : List κ} :
    x ∈ names.destutter' (· ≠ ·) y ↔ x = y ∨ x ∈ names := by
  induction names generalizing y with
  | nil => simp
  | cons z names ih =>
      rw [List.destutter'_cons]
      split
      · rw [List.mem_cons, ih, List.mem_cons]
      · rename_i hsame
        rw [not_ne_iff] at hsame
        subst hsame
        rw [ih, List.mem_cons]
        tauto

theorem mem_destutter {x : κ} {names : List κ} :
    x ∈ names.destutter (· ≠ ·) ↔ x ∈ names := by
  cases names with
  | nil => rfl
  | cons y names => rw [List.destutter_cons', mem_destutter', List.mem_cons]

/-- **A sorted listing without equal neighbours has no name twice.** -/
theorem nodup_destutter_sort (names : List κ) :
    ((names.insertionSort (· ≤ ·)).destutter (· ≠ ·)).Nodup := by
  have hsorted : ((names.insertionSort (· ≤ ·)).destutter (· ≠ ·)).Pairwise (· ≤ ·) :=
    (List.pairwise_insertionSort (· ≤ ·) names).sublist (List.destutter_sublist _ _)
  have hapart := List.isChain_destutter (· ≠ ·) (names.insertionSort (· ≤ ·))
  generalize (names.insertionSort (· ≤ ·)).destutter (· ≠ ·) = listed at hsorted hapart
  induction listed with
  | nil => exact List.nodup_nil
  | cons x listed ih =>
      obtain ⟨hle, hrest⟩ := List.pairwise_cons.mp hsorted
      refine List.nodup_cons.mpr ⟨?_, ih hrest hapart.tail⟩
      intro hmem
      cases listed with
      | nil => cases hmem
      | cons y listed =>
          -- `x` would stand on both sides of its neighbour.
          have hxy := hle y List.mem_cons_self
          have hne : x ≠ y := (List.isChain_cons_cons.mp hapart).1
          rcases List.mem_cons.mp hmem with rfl | hlater
          · exact hne rfl
          · exact hne (le_antisymm hxy ((List.pairwise_cons.mp hrest).1 x hlater))

theorem mem_destutter_sort {x : κ} {names : List κ} :
    x ∈ (names.insertionSort (· ≤ ·)).destutter (· ≠ ·) ↔ x ∈ names := by
  rw [mem_destutter, List.mem_insertionSort]

end Sorted

section Classes

variable [DecidableEq κ] {label : α → κ} {classes : List κ} {items : List α}

/-- The items class by class, each class in the order of its reader. -/
def byClass (label : α → κ) (classes : List κ) (arranged : κ → List α) : List α :=
  classes.flatMap fun c => (arranged c).filter (label · = c)

/-- Items in their classes are all the items. -/
theorem perm_byClass_self (hnodup : classes.Nodup) (hlabel : ∀ x ∈ items, label x ∈ classes) :
    (byClass label classes fun _ => items).Perm items := by
  induction classes generalizing items with
  | nil =>
      have hnone : items = [] :=
        List.eq_nil_iff_forall_not_mem.mpr fun x hx => List.not_mem_nil (hlabel x hx)
      rw [hnone]
      exact List.Perm.refl _
  | cons c classes ih =>
      obtain ⟨hc, hnodup⟩ := List.nodup_cons.mp hnodup
      -- The other classes are those of the other items.
      have hothers : byClass label classes (fun _ => items) =
          byClass label classes fun _ => items.filter fun x => !decide (label x = c) := by
        unfold byClass
        apply List.flatMap_congr
        intro d hd
        rw [List.filter_filter]
        apply List.filter_congr
        intro x _
        have hne : label x = d → label x ≠ c := by
          rintro rfl rfl
          exact hc hd
        grind
      have hcovered : ∀ x ∈ items.filter fun x => !decide (label x = c), label x ∈ classes := by
        intro x hx
        obtain ⟨hx, hne⟩ := List.mem_filter.mp hx
        exact (List.mem_cons.mp (hlabel x hx)).resolve_left (by simpa using hne)
      have hcons : byClass label (c :: classes) (fun _ => items) =
          items.filter (label · = c) ++ byClass label classes fun _ => items := rfl
      rw [hcons, hothers]
      exact ((ih hnodup hcovered).append_left _).trans
        (List.filter_append_perm (fun x => decide (label x = c)) items)

/-- **One order for all readers.** -/
theorem perm_byClass (hnodup : classes.Nodup) (hlabel : ∀ x ∈ items, label x ∈ classes)
    {arranged : κ → List α} (h : ∀ c ∈ classes, (arranged c).Perm items) :
    (byClass label classes arranged).Perm items := by
  refine List.Perm.trans ?_ (perm_byClass_self hnodup hlabel)
  apply List.Perm.flatMap_left classes
  intro c hc
  exact (h c hc).filter _

/-- What a reader finds who looks for items of one class. -/
theorem filterMap_byClass (hnodup : classes.Nodup) {c : κ} (hc : c ∈ classes)
    {take : α → Option β} (htake : ∀ x y, take x = some y → label x = c)
    (arranged : κ → List α) :
    (byClass label classes arranged).filterMap take = (arranged c).filterMap take := by
  have hown : ∀ xs : List α, (xs.filter (label · = c)).filterMap take = xs.filterMap take := by
    intro xs
    rw [List.filterMap_filter]
    apply List.filterMap_congr
    intro x _
    cases hx : take x with
    | none => simp
    | some y => simp [htake x y hx]
  have hother : ∀ d, d ≠ c → ∀ xs : List α, (xs.filter (label · = d)).filterMap take = [] := by
    intro d hd xs
    rw [List.filterMap_eq_nil_iff]
    intro x hx
    have hlabel : label x = d := by simpa using (List.mem_filter.mp hx).2
    by_contra hne
    obtain ⟨y, hy⟩ := Option.ne_none_iff_exists'.mp hne
    exact hd (hlabel.symm.trans (htake x y hy))
  obtain ⟨before, after, rfl⟩ := List.append_of_mem hc
  have hbefore : ∀ d ∈ before, d ≠ c := by
    rintro d hd rfl
    exact (List.nodup_append.mp hnodup).2.2 d hd d List.mem_cons_self rfl
  have hafter : ∀ d ∈ after, d ≠ c := by
    rintro d hd rfl
    exact (List.nodup_cons.mp (List.nodup_append.mp hnodup).2.1).1 hd
  have hnothing : ∀ part : List κ, (∀ d ∈ part, d ≠ c) →
      (byClass label part arranged).filterMap take = [] := by
    intro part hpart
    rw [byClass, List.filterMap_flatMap, List.flatMap_eq_nil_iff]
    exact fun d hd => hother d (hpart d hd) _
  have hcut : byClass label (before ++ c :: after) arranged =
      byClass label before arranged ++
        ((arranged c).filter (label · = c) ++ byClass label after arranged) := by
    rw [byClass, List.flatMap_append]
    rfl
  rw [hcut, List.filterMap_append, List.filterMap_append, hnothing before hbefore,
    hnothing after hafter, hown, List.nil_append, List.append_nil]

end Classes

end Selection
