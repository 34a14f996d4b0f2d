import Mathlib.Data.List.Basic
import Mathlib.Order.Lattice

/-!
# Batches

A stream whose elements come in the order of their keys is cut into batches, one
for each key.  `Cut.eq_filter` says that a batch is everything the stream has, or
will have, of its key.
-/

namespace Batches

variable {α κ : Type*} [LinearOrder κ] {key : α → κ}

/-- A stream cut into batches of one key each, with keys that increase. -/
structure Cut (key : α → κ) (stream : List α) (batches : List (List α)) : Prop where
  flatten : batches.flatten = stream
  nonempty : ∀ b ∈ batches, b ≠ []
  uniform : ∀ b ∈ batches, ∀ x ∈ b, ∀ y ∈ b, key x = key y
  increasing : batches.Pairwise fun b b' => ∀ x ∈ b, ∀ y ∈ b', key x < key y

namespace Cut

variable {stream : List α} {batches : List (List α)}

theorem nil : Cut key [] [] where
  flatten := rfl
  nonempty _ hb := nomatch hb
  uniform _ hb := nomatch hb
  increasing := .nil

theorem mem_stream (h : Cut key stream batches) {b : List α} (hb : b ∈ batches) {x : α}
    (hx : x ∈ b) : x ∈ stream := by
  rw [← h.flatten]
  exact List.mem_flatten.mpr ⟨b, hb, hx⟩

/-- The next element has a new key. -/
theorem start (h : Cut key stream batches) {y : α} (hnew : ∀ x ∈ stream, key x < key y) :
    Cut key (stream ++ [y]) (batches ++ [[y]]) := by
  refine ⟨by rw [List.flatten_append, h.flatten, List.flatten_singleton], fun b hb => ?_,
    fun b hb => ?_, ?_⟩
  · obtain hb | hb := List.mem_append.mp hb
    · exact h.nonempty b hb
    · rw [List.mem_singleton.mp hb]
      exact List.cons_ne_nil _ _
  · obtain hb | hb := List.mem_append.mp hb
    · exact h.uniform b hb
    · rw [List.mem_singleton.mp hb]
      intro x hx z hz
      rw [List.mem_singleton.mp hx, List.mem_singleton.mp hz]
  · refine List.pairwise_append.mpr ⟨h.increasing, List.pairwise_singleton _ _, ?_⟩
    intro b hb b' hb' x hx z hz
    rw [List.mem_singleton.mp hb'] at hz
    rw [List.mem_singleton.mp hz]
    exact hnew x (h.mem_stream hb hx)

/-- The next element has the key of the last batch. -/
theorem extend {last : List α} (h : Cut key stream (batches ++ [last])) {y : α}
    (hsame : ∀ x ∈ last, key x = key y) :
    Cut key (stream ++ [y]) (batches ++ [last ++ [y]]) := by
  have hlast : last ∈ batches ++ [last] := List.mem_append_right _ List.mem_cons_self
  obtain ⟨hbatches, -, hbelow⟩ := List.pairwise_append.mp h.increasing
  refine ⟨?_, fun b hb => ?_, fun b hb => ?_, ?_⟩
  · rw [← h.flatten]
    simp
  · obtain hb | hb := List.mem_append.mp hb
    · exact h.nonempty b (List.mem_append_left _ hb)
    · rw [List.mem_singleton.mp hb]
      exact List.append_ne_nil_of_right_ne_nil _ (List.cons_ne_nil _ _)
  · obtain hb | hb := List.mem_append.mp hb
    · exact h.uniform b (List.mem_append_left _ hb)
    · rw [List.mem_singleton.mp hb]
      have hkey : ∀ x ∈ last ++ [y], key x = key y := by
        intro x hx
        obtain hx | hx := List.mem_append.mp hx
        · exact hsame x hx
        · rw [List.mem_singleton.mp hx]
      intro x hx z hz
      rw [hkey x hx, hkey z hz]
  · refine List.pairwise_append.mpr ⟨hbatches, List.pairwise_singleton _ _, ?_⟩
    intro b hb b' hb' x hx z hz
    rw [List.mem_singleton.mp hb'] at hz
    obtain hz | hz := List.mem_append.mp hz
    · exact hbelow b hb last List.mem_cons_self x hx z hz
    · obtain ⟨w, hw⟩ := List.exists_mem_of_ne_nil last (h.nonempty last hlast)
      rw [List.mem_singleton.mp hz, ← hsame w hw]
      exact hbelow b hb last List.mem_cons_self x hx w hw

/-- The last batch has the greatest key. -/
theorem le_last {last : List α} (h : Cut key stream (batches ++ [last])) {x y : α}
    (hx : x ∈ stream) (hy : y ∈ last) : key x ≤ key y := by
  obtain ⟨-, -, hbelow⟩ := List.pairwise_append.mp h.increasing
  rw [← h.flatten] at hx
  obtain ⟨b, hb, hxb⟩ := List.mem_flatten.mp hx
  obtain hb' | hb' := List.mem_append.mp hb
  · exact le_of_lt (hbelow b hb' last List.mem_cons_self x hxb y hy)
  · rw [List.mem_singleton.mp hb'] at hb hxb
    exact le_of_eq (h.uniform last hb x hxb y hy)

/-- **A batch is whole.**  Nothing of its key is elsewhere in the stream, or comes
after it when later keys are greater. -/
theorem eq_filter [DecidableEq κ] (h : Cut key stream batches) {rest : List α}
    (hrest : ∀ x ∈ stream, ∀ y ∈ rest, key x < key y) {b : List α} (hb : b ∈ batches) {x : α}
    (hx : x ∈ b) : b = (stream ++ rest).filter fun y => key y = key x := by
  obtain ⟨earlier, later, rfl⟩ := List.append_of_mem hb
  obtain ⟨-, htail, hbelow⟩ := List.pairwise_append.mp h.increasing
  have hafter := (List.pairwise_cons.mp htail).1
  have hnone : ∀ l : List α, (∀ y ∈ l, key y ≠ key x) →
      l.filter (fun y => key y = key x) = [] := by
    intro l hl
    exact List.filter_eq_nil_iff.mpr fun y hy => by simpa using hl y hy
  have hself : b.filter (fun y => key y = key x) = b :=
    List.filter_eq_self.mpr fun y hy => by simpa using h.uniform b hb y hy x hx
  have hearlier := hnone earlier.flatten fun y hy => by
    obtain ⟨b', hb', hy⟩ := List.mem_flatten.mp hy
    exact ne_of_lt (hbelow b' hb' b List.mem_cons_self y hy x hx)
  have hlater := hnone later.flatten fun y hy => by
    obtain ⟨b', hb', hy⟩ := List.mem_flatten.mp hy
    exact ne_of_gt (hafter b' hb' x hx y hy)
  have hbeyond := hnone rest fun y hy => ne_of_gt (hrest x (h.mem_stream hb hx) y hy)
  rw [← h.flatten, List.flatten_append, List.flatten_cons, List.filter_append, List.filter_append,
    List.filter_append, hearlier, hself, hlater, hbeyond, List.append_nil, List.append_nil,
    List.nil_append]

end Cut

end Batches
