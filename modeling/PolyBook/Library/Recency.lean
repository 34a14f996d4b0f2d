import Mathlib.Data.List.Induction
import Mathlib.Order.Basic
import Mathlib.Order.Lattice
import Mathlib.Order.MinMax

/-!
# The last sighting of each key, and forgetting old ones

Sightings `(key, time)` arrive in any order of their times.  A table of last
sightings answers which keys were seen at or after a cutoff.  When the cutoff only
rises, a table that has forgotten the entries below a cutoff gives the same answers
ever after: a forgotten key that returns is entered at its new time, and the old
entry would have changed nothing from the cutoff on.
-/

namespace Recency

variable {K T : Type*} [DecidableEq K] [LinearOrder T]

/-- The table after `k` is seen at `t`. -/
def raise (seen : K → Option T) (k : K) (t : T) : K → Option T :=
  fun k' => if k' = k then some ((seen k).elim t fun u => max u t) else seen k'

/-- The table of all sightings of a history. -/
def lastSeen (history : List (K × T)) : K → Option T :=
  history.foldl (fun seen sighting => raise seen sighting.1 sighting.2) fun _ => none

/-- Nothing, or a time before the cutoff. -/
def Below (cutoff : T) (entry : Option T) : Prop := ∀ t ∈ entry, t < cutoff

/-- Two tables that differ only in entries below the cutoff. -/
def SameFrom (cutoff : T) (seen full : K → Option T) : Prop :=
  ∀ k, seen k = full k ∨ Below cutoff (seen k) ∧ Below cutoff (full k)

omit [DecidableEq K] in
@[simp] theorem SameFrom.refl (cutoff : T) (seen : K → Option T) : SameFrom cutoff seen seen :=
  fun _ => Or.inl rfl

theorem Below.mono {cutoff cutoff' : T} {entry : Option T} (h : Below cutoff entry)
    (hle : cutoff ≤ cutoff') : Below cutoff' entry :=
  fun t ht => lt_of_lt_of_le (h t ht) hle

omit [DecidableEq K] in
theorem SameFrom.mono {cutoff cutoff' : T} {seen full : K → Option T}
    (h : SameFrom cutoff seen full) (hle : cutoff ≤ cutoff') : SameFrom cutoff' seen full := by
  intro k
  rcases h k with heq | ⟨hseen, hfull⟩
  · exact Or.inl heq
  · exact Or.inr ⟨hseen.mono hle, hfull.mono hle⟩

/-- An entry below the cutoff is overtaken by a time at the cutoff, and stays below it
when raised to a time below it. -/
theorem Below.raised {cutoff t : T} {entry : Option T} (h : Below cutoff entry) :
    (cutoff ≤ t → entry.elim t (fun u => max u t) = t) ∧
      (t < cutoff → entry.elim t (fun u => max u t) < cutoff) := by
  cases entry with
  | none => exact ⟨fun _ => rfl, fun ht => ht⟩
  | some u =>
      have hu : u < cutoff := h u rfl
      exact ⟨fun ht => max_eq_right (hu.le.trans ht), fun ht => max_lt hu ht⟩

/-- **A sighting, at any time, keeps the tables alike.** -/
theorem SameFrom.raise {cutoff : T} {seen full : K → Option T} (h : SameFrom cutoff seen full)
    (k : K) (t : T) : SameFrom cutoff (raise seen k t) (raise full k t) := by
  intro k'
  by_cases hk : k' = k
  · rw [Recency.raise, Recency.raise, if_pos hk, if_pos hk]
    rcases h k with heq | ⟨hseen, hfull⟩
    · rw [heq]
      exact Or.inl rfl
    · by_cases ht : cutoff ≤ t
      · rw [hseen.raised.1 ht, hfull.raised.1 ht]
        exact Or.inl rfl
      · right
        constructor
        · rintro u ⟨rfl⟩
          exact hseen.raised.2 (lt_of_not_ge ht)
        · rintro u ⟨rfl⟩
          exact hfull.raised.2 (lt_of_not_ge ht)
  · rw [Recency.raise, Recency.raise, if_neg hk, if_neg hk]
    exact h k'

omit [DecidableEq K] in
/-- **Forgetting the entries below the cutoff keeps the tables alike.** -/
theorem SameFrom.forget {cutoff : T} {seen full : K → Option T} (h : SameFrom cutoff seen full)
    {keep : T → Bool} (hkeep : ∀ t, keep t = true ↔ cutoff ≤ t) :
    SameFrom cutoff (fun k => (seen k).filter keep) full := by
  intro k
  dsimp only
  cases hk : seen k with
  | none => simpa [hk] using h k
  | some t =>
      by_cases ht : keep t = true
      · rw [Option.filter_some_pos ht, ← hk]
        exact h k
      · rw [Option.filter_some_neg (Bool.eq_false_of_not_eq_true ht)]
        have hnone : Below cutoff none := by rintro u ⟨⟩
        have hbelow : Below cutoff (some t) := by
          rintro u ⟨rfl⟩
          exact lt_of_not_ge fun hle => ht ((hkeep t).mpr hle)
        rcases h k with heq | ⟨_, hfull⟩
        · rw [← heq, hk]
          exact Or.inr ⟨hnone, hbelow⟩
        · exact Or.inr ⟨hnone, hfull⟩

omit [DecidableEq K] in
/-- The keys seen from the cutoff on are the same in both tables. -/
theorem SameFrom.seen_iff {cutoff : T} {seen full : K → Option T}
    (h : SameFrom cutoff seen full) (k : K) :
    (∃ t ∈ seen k, cutoff ≤ t) ↔ ∃ t ∈ full k, cutoff ≤ t := by
  rcases h k with heq | ⟨hseen, hfull⟩
  · rw [heq]
  · constructor
    · rintro ⟨t, ht, hle⟩
      exact absurd hle (not_le_of_gt (hseen t ht))
    · rintro ⟨t, ht, hle⟩
      exact absurd hle (not_le_of_gt (hfull t ht))

theorem lastSeen_concat (history : List (K × T)) (k : K) (t : T) :
    lastSeen (history ++ [(k, t)]) = raise (lastSeen history) k t := by
  simp [lastSeen]

/-- The last sighting of a key reaches the cutoff when some sighting does. -/
theorem lastSeen_iff (history : List (K × T)) (cutoff : T) (k : K) :
    (∃ t ∈ lastSeen history k, cutoff ≤ t) ↔ ∃ t, (k, t) ∈ history ∧ cutoff ≤ t := by
  induction history using List.reverseRecOn with
  | nil => simp [lastSeen]
  | append_singleton history sighting ih =>
      obtain ⟨k', t'⟩ := sighting
      rw [lastSeen_concat, raise]
      by_cases hk : k = k'
      · subst hk
        rw [if_pos rfl]
        cases hseen : lastSeen history k with
        | none =>
            have hnone : ¬∃ t, (k, t) ∈ history ∧ cutoff ≤ t := by
              rw [← ih, hseen]
              simp
            grind
        | some u =>
            have hsome : cutoff ≤ u ↔ ∃ t, (k, t) ∈ history ∧ cutoff ≤ t := by
              rw [← ih, hseen]
              simp
            have hmax : cutoff ≤ max u t' ↔ cutoff ≤ u ∨ cutoff ≤ t' := le_max_iff
            grind
      · rw [if_neg hk, ih]
        simp [hk]

end Recency
