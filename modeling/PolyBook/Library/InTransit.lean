import Mathlib.Data.List.Basic
import Mathlib.Data.Set.Insert

/-!
# Stamped messages in transit

Every message is stamped by one clock when it departs and arrives some time later, in
one or several parts.  Here a transport is what an observer sees of it: the clock, the
stamps of what is still on its way, and the stamps of what has arrived, in order.

`Step` is a transport in which nothing overtakes: what arrives was stamped no later than
anything still on its way.  `InOrder` is its invariant, and the stamps of what has arrived
are then nondecreasing (`InOrder.nondecreasing`).
-/

namespace InTransit

/-- A transport as it is observed. -/
structure Transport (τ : Type*) where
  now : τ
  /-- The stamps of the messages on their way. -/
  pending : Set τ
  /-- The stamps of what has arrived, in order. -/
  arrived : List τ

variable {τ : Type*} [Preorder τ]

/-- A step without overtaking.  A message may arrive in several parts, so its stamp can
still be pending afterwards; messages may be lost on their way and after it. -/
inductive Step : Transport τ → Transport τ → Prop
  | wait {now now' : τ} {pending : Set τ} {arrived : List τ} (hclock : now ≤ now') :
      Step ⟨now, pending, arrived⟩ ⟨now', pending, arrived⟩
  | depart {now : τ} {pending pending' : Set τ} {arrived : List τ}
      (hpending : pending' ⊆ insert now pending) :
      Step ⟨now, pending, arrived⟩ ⟨now, pending', arrived⟩
  | arrive {now x : τ} {pending pending' : Set τ} {arrived : List τ} (hx : x ∈ pending)
      (hfirst : ∀ y ∈ pending, x ≤ y) (hpending : pending' ⊆ pending) :
      Step ⟨now, pending, arrived⟩ ⟨now, pending', arrived ++ [x]⟩
  | lose {now : τ} {pending pending' : Set τ} {arrived arrived' : List τ}
      (hpending : pending' ⊆ pending) (harrived : arrived'.Sublist arrived) :
      Step ⟨now, pending, arrived⟩ ⟨now, pending', arrived'⟩

/-- What holds while nothing overtakes. -/
structure InOrder (t : Transport τ) : Prop where
  /-- The stamps of what has arrived do not go backwards. -/
  nondecreasing : t.arrived.Pairwise (· ≤ ·)
  /-- Nothing on its way is older than what has arrived. -/
  behind : ∀ x ∈ t.arrived, ∀ y ∈ t.pending, x ≤ y
  /-- Everything was stamped in the past. -/
  pending_le : ∀ y ∈ t.pending, y ≤ t.now
  arrived_le : ∀ x ∈ t.arrived, x ≤ t.now

namespace InOrder

variable {now now' x : τ} {pending pending' : Set τ} {arrived arrived' : List τ}

theorem empty (now : τ) : InOrder ⟨now, (∅ : Set τ), []⟩ := by
  refine ⟨List.Pairwise.nil, ?_, ?_, ?_⟩
  · intro x hx
    cases hx
  · intro y hy
    cases hy
  · intro x hx
    cases hx

theorem wait (h : InOrder ⟨now, pending, arrived⟩) (hclock : now ≤ now') :
    InOrder ⟨now', pending, arrived⟩ := by
  refine ⟨h.nondecreasing, h.behind, ?_, ?_⟩
  · intro y hy
    exact (h.pending_le y hy).trans hclock
  · intro x hx
    exact (h.arrived_le x hx).trans hclock

/-- The clock has not gone back, so a message departs after everything that has arrived. -/
theorem depart (h : InOrder ⟨now, pending, arrived⟩) (hpending : pending' ⊆ insert now pending) :
    InOrder ⟨now, pending', arrived⟩ := by
  refine ⟨h.nondecreasing, ?_, ?_, h.arrived_le⟩
  · intro x hx y hy
    rcases hpending hy with rfl | hy
    · exact h.arrived_le x hx
    · exact h.behind x hx y hy
  · intro y hy
    rcases hpending hy with rfl | hy
    · exact le_rfl
    · exact h.pending_le y hy

theorem arrive (h : InOrder ⟨now, pending, arrived⟩) (hx : x ∈ pending)
    (hfirst : ∀ y ∈ pending, x ≤ y) (hpending : pending' ⊆ pending) :
    InOrder ⟨now, pending', arrived ++ [x]⟩ := by
  refine ⟨?_, ?_, ?_, ?_⟩
  · apply List.pairwise_append.mpr
    refine ⟨h.nondecreasing, List.pairwise_singleton _ _, ?_⟩
    intro w hw y hy
    rw [List.mem_singleton.mp hy]
    exact h.behind w hw x hx
  · intro w hw y hy
    rcases List.mem_append.mp hw with hw | hw
    · exact h.behind w hw y (hpending hy)
    · rw [List.mem_singleton.mp hw]
      exact hfirst y (hpending hy)
  · intro y hy
    exact h.pending_le y (hpending hy)
  · intro w hw
    rcases List.mem_append.mp hw with hw | hw
    · exact h.arrived_le w hw
    · rw [List.mem_singleton.mp hw]
      exact h.pending_le x hx

theorem lose (h : InOrder ⟨now, pending, arrived⟩) (hpending : pending' ⊆ pending)
    (harrived : arrived'.Sublist arrived) : InOrder ⟨now, pending', arrived'⟩ := by
  refine ⟨h.nondecreasing.sublist harrived, ?_, ?_, ?_⟩
  · intro x hx y hy
    exact h.behind x (harrived.subset hx) y (hpending hy)
  · intro y hy
    exact h.pending_le y (hpending hy)
  · intro x hx
    exact h.arrived_le x (harrived.subset hx)

/-- **Without overtaking everything stays in order.** -/
theorem step {t t' : Transport τ} (hstep : Step t t') (h : InOrder t) : InOrder t' := by
  cases hstep with
  | wait hclock => exact h.wait hclock
  | depart hpending => exact h.depart hpending
  | arrive hx hfirst hpending => exact h.arrive hx hfirst hpending
  | lose hpending harrived => exact h.lose hpending harrived

end InOrder

end InTransit
