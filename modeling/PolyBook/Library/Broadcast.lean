import Mathlib.Data.List.Basic

/-!
# One receiver of a bounded broadcast

A broadcast channel keeps the last `capacity` values for its receivers.  A receiver
that has not read the oldest of these when one more is sent loses it; the next time it
receives it is told how many it has lost, and reads on from the oldest that is kept.
-/

namespace Broadcast

variable {α : Type*}

/-- What a receiver has still to read, and how many values it has lost unread. -/
structure Receiver (α : Type*) where
  unread : List α
  missed : Nat

/-- What a receiver gets. -/
inductive Received (α : Type*) where
  | value (x : α)
  | lagged (skipped : Nat)
  | empty

namespace Receiver

/-- A receiver sees what is sent from now on. -/
def new : Receiver α := ⟨[], 0⟩

/-- A value is queued, or the oldest unread one makes room for it. -/
def send (capacity : Nat) (r : Receiver α) (x : α) : Receiver α :=
  if r.unread.length < capacity then { r with unread := r.unread ++ [x] }
  else ⟨r.unread.tail ++ [x], r.missed + 1⟩

/-- The receiver is told first that it has missed values, then gets the oldest unread one.
-/
def recv (r : Receiver α) : Received α × Receiver α :=
  if r.missed = 0 then
    match r.unread with
    | [] => (.empty, r)
    | x :: rest => (.value x, { r with unread := rest })
  else (.lagged r.missed, { r with missed := 0 })

variable {capacity : Nat} {r : Receiver α}

theorem recv_of_missed (h : r.missed ≠ 0) :
    r.recv = (.lagged r.missed, { r with missed := 0 }) := if_neg h

theorem recv_of_nil (h : r.missed = 0) (hunread : r.unread = []) : r.recv = (.empty, r) := by
  rw [recv, if_pos h, hunread]

theorem recv_of_cons (h : r.missed = 0) {x : α} {rest : List α} (hunread : r.unread = x :: rest) :
    r.recv = (.value x, { r with unread := rest }) := by
  rw [recv, if_pos h, hunread]

/-- A receiver loses from the front only. -/
theorem unread_send_suffix (capacity : Nat) (r : Receiver α) (x : α) :
    (r.send capacity x).unread <:+ r.unread ++ [x] := by
  unfold send
  split
  · exact List.suffix_rfl
  · cases hunread : r.unread with
    | nil => exact List.suffix_rfl
    | cons y rest => exact List.suffix_cons y (rest ++ [x])

/-- What is sent last is kept. -/
theorem getLast?_send (capacity : Nat) (r : Receiver α) (x : α) :
    (r.send capacity x).unread.getLast? = some x := by
  unfold send
  split <;> exact List.getLast?_concat

/-- What is lost is counted. -/
theorem mem_send_or_missed {y : α} (hy : y ∈ r.unread) (x : α) :
    y ∈ (r.send capacity x).unread ∨ (r.send capacity x).missed ≠ 0 := by
  unfold send
  split
  · exact Or.inl (List.mem_append_left _ hy)
  · exact Or.inr (Nat.succ_ne_zero _)

theorem missed_send (h : r.missed ≠ 0) (x : α) : (r.send capacity x).missed ≠ 0 := by
  unfold send
  split
  · exact h
  · exact Nat.succ_ne_zero _

/-- A receiver never has more than the channel keeps, and just that much after a loss. -/
structure Bounded (capacity : Nat) (r : Receiver α) : Prop where
  length_le : r.unread.length ≤ capacity
  full : r.missed ≠ 0 → r.unread.length = capacity

theorem Bounded.new : Bounded capacity (new : Receiver α) :=
  ⟨Nat.zero_le _, fun h => absurd rfl h⟩

theorem Bounded.length_send (h : r.Bounded capacity) (hpos : 0 < capacity) (x : α) :
    (r.send capacity x).unread.length = min (r.unread.length + 1) capacity := by
  have hle := h.length_le
  unfold send
  split
  · rw [List.length_append, List.length_singleton]
    omega
  · rw [List.length_append, List.length_tail, List.length_singleton]
    omega

theorem Bounded.send (h : r.Bounded capacity) (hpos : 0 < capacity) (x : α) :
    (r.send capacity x).Bounded capacity := by
  have hlength := h.length_send hpos x
  refine ⟨by omega, fun hmissed => ?_⟩
  rw [hlength]
  by_cases hroom : r.unread.length < capacity
  · rw [Receiver.send, if_pos hroom] at hmissed
    have := h.full hmissed
    omega
  · have := h.length_le
    omega

theorem Bounded.of_cons (h : r.Bounded capacity) (hmissed : r.missed = 0) {x : α} {rest : List α}
    (hunread : r.unread = x :: rest) : Bounded capacity { r with unread := rest } := by
  have hle := h.length_le
  rw [hunread, List.length_cons] at hle
  exact ⟨Nat.le_of_succ_le hle, fun hne => absurd hmissed hne⟩

end Receiver

end Broadcast
