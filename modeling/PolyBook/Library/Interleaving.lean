import Mathlib.Data.List.Basic

/-!
# Interleavings of several producers

A merged log is a list of tagged messages; each producer's own stream is its
projection, so every tagged list is an interleaving of its projections that
keeps each producer's order.

`crossed` lists the neighbouring messages of one producer that some other
producer's message came between.  `crossing_simulation` compares a machine that
reads the merged log with the same machine reading one producer's stream: it
asks for one relation while nothing foreign has arrived since the producer's
last message and a second one once something has.
-/

namespace Interleaving

variable {ι α σ : Type*} [DecidableEq ι] (i : ι)

/-- What one producer sent, in order. -/
def own (sent : List (ι × α)) : List α :=
  (sent.filter fun s => s.1 = i).map Prod.snd

@[simp] theorem own_nil : own i ([] : List (ι × α)) = [] := rfl

@[simp] theorem own_cons_self (x : α) (sent : List (ι × α)) :
    own i ((i, x) :: sent) = x :: own i sent := by
  simp [own]

theorem own_cons_of_ne {j : ι} (h : j ≠ i) (x : α) (sent : List (ι × α)) :
    own i ((j, x) :: sent) = own i sent := by
  simp [own, h]

theorem own_append (sent sent' : List (ι × α)) :
    own i (sent ++ sent') = own i sent ++ own i sent' := by
  simp [own]

/-- The whole log, tags dropped. -/
def merged (sent : List (ι × α)) : List α := sent.map Prod.snd

/-- What the other producers sent, in order. -/
def foreign (sent : List (ι × α)) : List α := (sent.filter fun s => s.1 ≠ i).map Prod.snd

theorem mem_merged_iff {sent : List (ι × α)} {x : α} :
    x ∈ merged sent ↔ x ∈ own i sent ∨ x ∈ foreign i sent := by
  simp only [merged, own, foreign, List.mem_map, List.mem_filter, decide_eq_true_eq]
  constructor
  · rintro ⟨s, hs, rfl⟩
    by_cases h : s.1 = i
    · exact Or.inl ⟨s, ⟨hs, h⟩, rfl⟩
    · exact Or.inr ⟨s, ⟨hs, h⟩, rfl⟩
  · rintro (⟨s, ⟨hs, _⟩, rfl⟩ | ⟨s, ⟨hs, _⟩, rfl⟩) <;> exact ⟨s, hs, rfl⟩

/-- A selection that takes nothing foreign sees one producer's stream. -/
theorem filterMap_merged {β : Type*} (f : α → Option β) {sent : List (ι × α)}
    (h : ∀ x ∈ foreign i sent, f x = none) :
    (merged sent).filterMap f = (own i sent).filterMap f := by
  induction sent with
  | nil => rfl
  | cons s sent ih =>
      obtain ⟨j, x⟩ := s
      by_cases hj : j = i
      · subst hj
        have hrest := ih fun y hy => h y (by simpa [foreign] using hy)
        rw [own_cons_self, merged, List.map_cons, List.filterMap_cons, List.filterMap_cons]
        rw [merged] at hrest
        rw [hrest]
      · have hx : f x = none := h x (by simp [foreign, hj])
        have hrest := ih fun y hy => h y (by
          simp only [foreign, List.mem_map, List.mem_filter] at hy ⊢
          obtain ⟨s, ⟨hs, hne⟩, rfl⟩ := hy
          exact ⟨s, ⟨List.mem_cons_of_mem _ hs, hne⟩, rfl⟩)
        rw [own_cons_of_ne i hj, merged, List.map_cons, List.filterMap_cons_none hx]
        exact hrest

/-- The crossed pairs of a log that continues after the producer's message
`last`, with `foreign` telling whether another producer has sent since. -/
def crossedFrom : Option α → Bool → List (ι × α) → List (α × α)
  | _, _, [] => []
  | last, foreign, (j, x) :: sent =>
      if j = i then
        (if foreign then last.toList.map fun y => (y, x) else []) ++
          crossedFrom (some x) false sent
      else crossedFrom last true sent

/-- Neighbouring messages of producer `i` with a foreign message between them. -/
def crossed (sent : List (ι × α)) : List (α × α) := crossedFrom i none false sent

theorem crossedFrom_own_subset (last : Option α) (foreign : Bool) (x : α)
    (sent : List (ι × α)) :
    crossedFrom i (some x) false sent ⊆ crossedFrom i last foreign ((i, x) :: sent) := by
  intro p hp
  rw [crossedFrom, if_pos rfl]
  exact List.mem_append_right _ hp

/-- **Crossing simulation.**  The relation `near last` holds while producer
`i`'s message `last` is the latest one, `far last` once another producer has
sent since; `apart` is what crossed neighbours must satisfy. -/
theorem crossing_simulation
    (step : σ → α → σ) (apart : α → α → Prop) (allowed : ι → α → Prop)
    (near far : Option α → σ → σ → Prop)
    (hnear : ∀ last s t x, allowed i x → near last s t → near (some x) (step s x) (step t x))
    (hfar : ∀ last s t x, allowed i x → far last s t → (∀ y, last = some y → apart y x) →
      near (some x) (step s x) (step t x))
    (hcross : ∀ last s t j x, j ≠ i → allowed j x → near last s t ∨ far last s t →
      far last s (step t x))
    (sent : List (ι × α)) (hallowed : ∀ s ∈ sent, allowed s.1 s.2)
    (hapart : ∀ p ∈ crossed i sent, apart p.1 p.2)
    {s t : σ} (hstart : near none s t) :
    ∃ last, near last ((own i sent).foldl step s) ((merged sent).foldl step t) ∨
      far last ((own i sent).foldl step s) ((merged sent).foldl step t) := by
  suffices h : ∀ (last : Option α) (crossing : Bool) (s t : σ),
      (∀ p ∈ crossedFrom i last crossing sent, apart p.1 p.2) →
      (if crossing then far last s t else near last s t) →
      ∃ last, near last ((own i sent).foldl step s) ((merged sent).foldl step t) ∨
        far last ((own i sent).foldl step s) ((merged sent).foldl step t) by
    exact h none false s t hapart hstart
  clear hapart hstart s t
  induction sent with
  | nil =>
      intro last crossing s t _ hrel
      cases crossing with
      | true => exact ⟨last, Or.inr hrel⟩
      | false => exact ⟨last, Or.inl hrel⟩
  | cons head sent ih =>
      intro last crossing s t hapart hrel
      obtain ⟨j, x⟩ := head
      have hx : allowed j x := hallowed (j, x) List.mem_cons_self
      have hsent : ∀ s ∈ sent, allowed s.1 s.2 :=
        fun s hs => hallowed s (List.mem_cons_of_mem _ hs)
      by_cases hj : j = i
      · subst hj
        rw [own_cons_self]
        refine ih hsent (some x) false (step s x) (step t x) ?_ ?_
        · intro p hp
          exact hapart p (crossedFrom_own_subset j last crossing x sent hp)
        · cases crossing with
          | false => exact hnear last s t x hx hrel
          | true =>
              refine hfar last s t x hx hrel ?_
              rintro y rfl
              refine hapart (y, x) ?_
              simp [crossedFrom]
      · rw [own_cons_of_ne i hj]
        refine ih hsent last true s (step t x) ?_ ?_
        · intro p hp
          refine hapart p ?_
          simpa [crossedFrom, hj] using hp
        · refine hcross last s t j x hj hx ?_
          cases crossing with
          | true => exact Or.inr hrel
          | false => exact Or.inl hrel

end Interleaving
