import Mathlib.Logic.Function.Basic
import Mathlib.Tactic.Common

/-!
# Words of overwrites

A write stores a value at one key of a map, or replaces the map.  A word of
writes does to each key a fixed thing, leave it or store one value, so going
through a word twice is going through it once (`writes_writes`).

A map that already holds what some later writes say is not behind the log of
writes but ahead of it: `Ahead` says so of a map at a position of the log, and
the log catches up with it (`Ahead.write`, `Ahead.eq_of_length`).
-/

namespace Overwrite

variable {κ β : Type*}

/-- A write to a map. -/
inductive Write (κ β : Type*) where
  | set (key : κ) (value : β)
  | all (map : κ → β)

section

variable [DecidableEq κ]

/-- Carry out one write. -/
def Write.run (f : κ → β) : Write κ β → κ → β
  | set key value => Function.update f key value
  | all map => map

/-- Carry out a word of writes. -/
def writes (f : κ → β) (ws : List (Write κ β)) : κ → β := ws.foldl Write.run f

@[simp] theorem writes_nil (f : κ → β) : writes f [] = f := rfl

@[simp] theorem writes_cons (f : κ → β) (w : Write κ β) (ws : List (Write κ β)) :
    writes f (w :: ws) = writes (w.run f) ws := rfl

theorem writes_append (f : κ → β) (ws ws' : List (Write κ β)) :
    writes f (ws ++ ws') = writes (writes f ws) ws' := by
  simp [writes, List.foldl_append]

/-- A word leaves a key alone, or stores the same value whatever was there. -/
theorem writes_at (ws : List (Write κ β)) (k : κ) :
    (∀ f, writes f ws k = f k) ∨ ∃ v, ∀ f, writes f ws k = v := by
  induction ws with
  | nil => exact Or.inl fun f => rfl
  | cons w ws ih =>
      obtain hkeeps | ⟨v, hstores⟩ := ih
      · cases w with
        | set key value =>
            by_cases hk : k = key
            · refine Or.inr ⟨value, fun f => ?_⟩
              rw [writes_cons, hkeeps, Write.run, hk, Function.update_self]
            · refine Or.inl fun f => ?_
              rw [writes_cons, hkeeps, Write.run, Function.update_of_ne hk]
        | all map => exact Or.inr ⟨map k, fun f => hkeeps map⟩
      · exact Or.inr ⟨v, fun f => hstores (w.run f)⟩

/-- **Twice is once.** -/
theorem writes_writes (f : κ → β) (ws : List (Write κ β)) :
    writes (writes f ws) ws = writes f ws := by
  funext k
  obtain hkeeps | ⟨v, hstores⟩ := writes_at ws k
  · rw [hkeeps]
  · rw [hstores, hstores]

/-- A word that does not store at a key leaves it alone. -/
theorem writes_of_not_set {ws : List (Write κ β)} {k : κ}
    (h : ∀ w ∈ ws, ∃ key value, w = .set key value ∧ key ≠ k) (f : κ → β) :
    writes f ws k = f k := by
  induction ws generalizing f with
  | nil => rfl
  | cons w ws ih =>
      obtain ⟨key, value, rfl, hne⟩ := h w List.mem_cons_self
      rw [writes_cons, ih (fun w' hw' => h w' (List.mem_cons_of_mem _ hw')), Write.run,
        Function.update_of_ne hne.symm]

/-- **When a word of stores makes two maps equal**: where they differ it stores
something. -/
theorem writes_eq_writes_iff {ws : List (Write κ β)}
    (hset : ∀ w ∈ ws, ∃ key value, w = .set key value) {f g : κ → β} :
    writes f ws = writes g ws ↔ ∀ k, f k = g k ∨ ∃ value, .set k value ∈ ws := by
  induction ws generalizing f g with
  | nil => simp [funext_iff]
  | cons w ws ih =>
      obtain ⟨key, value, rfl⟩ := hset w List.mem_cons_self
      rw [writes_cons, writes_cons, ih fun w' hw' => hset w' (List.mem_cons_of_mem _ hw')]
      refine forall_congr' fun k => ?_
      by_cases hk : k = key
      · subst hk
        refine iff_of_true (Or.inl ?_) (Or.inr ⟨value, List.mem_cons_self⟩)
        rw [Write.run, Write.run, Function.update_self, Function.update_self]
      · rw [Write.run, Write.run, Function.update_of_ne hk, Function.update_of_ne hk]
        simp [hk]

/-- The map holds all of the log up to some position not before `n`: the writes
from `n` to there change nothing any more. -/
def Ahead (base : κ → β) (log : List (Write κ β)) (n : Nat) (f : κ → β) : Prop :=
  ∃ m, n ≤ m ∧ m ≤ log.length ∧ writes f ((log.take m).drop n) = writes base (log.take m)

variable {base f : κ → β} {log : List (Write κ β)} {n : Nat}

/-- The map after a part of the log is ahead at every earlier position. -/
theorem Ahead.of_take {m : Nat} (hn : n ≤ m) (hm : m ≤ log.length) :
    Ahead base log n (writes base (log.take m)) := by
  have hsplit : writes base (log.take m) =
      writes (writes base ((log.take m).take n)) ((log.take m).drop n) := by
    rw [← writes_append, List.take_append_drop]
  refine ⟨m, hn, hm, ?_⟩
  rw [hsplit, writes_writes]

/-- The next write of the log. -/
theorem Ahead.write (h : Ahead base log n f) {w : Write κ β} (hw : log[n]? = some w) :
    Ahead base log (n + 1) (w.run f) := by
  obtain ⟨m, hn, hm, heq⟩ := h
  obtain ⟨hlt, hget⟩ := List.getElem?_eq_some_iff.mp hw
  obtain hlt' | rfl := Nat.lt_or_eq_of_le hn
  · have hlen : n < (log.take m).length := by
      rw [List.length_take]
      omega
    refine ⟨m, hlt', hm, ?_⟩
    rw [← heq, List.drop_eq_getElem_cons hlen, writes_cons, List.getElem_take, hget]
  · have hlen : ∀ i, (log.take i).length ≤ i := fun i => List.length_take_le i log
    refine ⟨n + 1, Nat.le_refl _, hlt, ?_⟩
    rw [List.drop_eq_nil_of_le (hlen _), writes_nil] at heq ⊢
    rw [heq, List.take_add_one, hw, Option.toList_some, writes_append]
    rfl

/-- A write of the whole map forgets what was there. -/
theorem Ahead.all {map : κ → β} (hw : log[n]? = some (.all map)) :
    Ahead base log (n + 1) map := by
  obtain ⟨hlt, -⟩ := List.getElem?_eq_some_iff.mp hw
  have hmap : writes base (log.take (n + 1)) = map := by
    rw [List.take_add_one, hw, Option.toList_some, writes_append]
    rfl
  rw [← hmap]
  exact Ahead.of_take (Nat.le_refl _) hlt

/-- The rest of the log makes up for what the map does not hold. -/
theorem Ahead.writes_drop (h : Ahead base log n f) : writes f (log.drop n) = writes base log := by
  obtain ⟨m, hn, hm, heq⟩ := h
  have hdrop : log.drop n = (log.take m).drop n ++ log.drop m := by
    conv_lhs => rw [← List.take_append_drop m log]
    rw [List.drop_append_of_le_length]
    rw [List.length_take]
    omega
  rw [hdrop, writes_append, heq, ← writes_append, List.take_append_drop]

/-- **The log has caught up.** -/
theorem Ahead.eq_of_length (h : Ahead base log log.length f) : f = writes base log := by
  have hdrop := h.writes_drop
  rwa [List.drop_length, writes_nil] at hdrop

end

end Overwrite
