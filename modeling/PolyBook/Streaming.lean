import PolyBook.BookUpdates
import PolyBook.Library.Broadcast
import PolyBook.Library.InTransit

/-!
# Streaming a book

A WebSocket session of one asset merges two sources of the same book.  It subscribes to
the asset's broadcast, sends the published snapshot, and then sends every update it
receives; when it has fallen behind the broadcast it sends the published snapshot again
and receives on.  The projector publishes a step before it broadcasts the step's update.

Every message here carries the projector step whose state it shows.  The client does not
see that number; it is what the order of the messages is about.
-/

namespace PolyBook

namespace Streaming

/-- `BROADCAST_CAPACITY`. -/
def broadcastCapacity : Nat := 256

/-- `INIT_SNAPSHOT_RETRIES`. -/
def initSnapshotRetries : Nat := 5

/-- What `ws_orderbook` hands to a session. -/
structure Session where
  assetId : AssetId
  slug : Option String
  depth : Nat
  staleAfterSecs : Nat

/-- An update and the projector step whose state it shows. -/
structure Stamped where
  step : Nat
  update : BookUpdateMessage

/-- A full-book message as the client gets it. -/
structure SentMessage where
  slug : Option String
  stamped : Stamped

/-- Where the session is. -/
inductive Phase where
  | idle
  | connecting (attempt : Nat)
  | streaming
  | lagged
  | closed
  deriving DecidableEq

/-- The projector and one session. -/
structure State where
  projector : Projector
  /-- The records applied so far. -/
  step : Nat
  /-- The step that last marked the asset: what is published of it is of that step. -/
  shown : Nat
  /-- Updates of the asset that the projector has still to send. -/
  toSend : List Stamped
  phase : Phase
  receiver : Broadcast.Receiver Stamped
  /-- The updates broadcast since the session subscribed. -/
  delivered : List Stamped
  sent : List SentMessage

/-- What happens to a streaming session. -/
inductive Event where
  | record (record : PersistedRecord) (others : Bool)
  | send
  | subscribe
  | snapshot (nowUs : Nat)
  | recv
  | close

/-- The message that shows a snapshot. -/
def updateOfSnapshot (snapshot : LiveOrderBookSnapshot) : BookUpdateMessage where
  assetId := snapshot.assetId
  sequence := snapshot.sequence
  lastUpdateUs := snapshot.lastUpdateUs
  bidDepth := snapshot.bidDepth
  askDepth := snapshot.askDepth
  bids := snapshot.bids
  asks := snapshot.asks

/-- Before anyone subscribes. -/
def start (projector : Projector) : State where
  projector := projector
  step := 0
  shown := 0
  toSend := []
  phase := .idle
  receiver := .new
  delivered := []
  sent := []

namespace State

variable (w : Session) (s : State)

/-- The session holds a receiver of the asset's channel. -/
def subscribed : Bool := decide (s.phase ≠ .idle) && decide (s.phase ≠ .closed)

/-- The projector applies a record and publishes it; `others` tells whether some other
session is subscribed when `has_subscribers` is asked. -/
def applyAndBroadcast (record : PersistedRecord) (others : Bool) : State :=
  if s.toSend.isEmpty then
    { s with
      projector := s.projector.applyAndBroadcast record
      step := s.step + 1
      shown := if w.assetId ∈ (s.projector.state.applyRecord record).2.broadcastAssets then
          s.step + 1
        else s.shown
      toSend := if s.subscribed || others then
          (s.projector.told record w.assetId).map fun update => ⟨s.step + 1, update⟩
        else [] }
  else s

/-- The projector sends the next of its updates on the asset's channel. -/
def sendNext : State :=
  match s.toSend with
  | [] => s
  | x :: rest =>
      if s.subscribed then
        { s with
          toSend := rest
          receiver := s.receiver.send broadcastCapacity x
          delivered := s.delivered ++ [x] }
      else { s with toSend := rest }

/-- The session sends a snapshot of what is published. -/
def sendSnapshot (snapshot : LiveOrderBookSnapshot) : State :=
  { s with
    phase := .streaming
    sent := s.sent ++ [⟨w.slug, ⟨s.shown, updateOfSnapshot snapshot⟩⟩] }

/-- One attempt at the initial snapshot. -/
def sendInit (attempt nowUs : Nat) : State :=
  match s.projector.snapshot w.assetId w.depth w.staleAfterSecs nowUs with
  | .ok snapshot => s.sendSnapshot w snapshot
  | .error .assetNotActive => { s with phase := .closed }
  | .error .snapshotNotReady =>
      { s with
        phase := if attempt + 1 < initSnapshotRetries then .connecting (attempt + 1)
          else .streaming }

/-- The snapshot after a lag. -/
def sendResync (nowUs : Nat) : State :=
  match s.projector.snapshot w.assetId w.depth w.staleAfterSecs nowUs with
  | .ok snapshot => s.sendSnapshot w snapshot
  | .error _ => { s with phase := .streaming }

/-- One `rx.recv()` of the session loop. -/
def recvUpdate : State :=
  match s.receiver.recv with
  | (.value x, receiver) =>
      { s with receiver := receiver, sent := s.sent ++ [⟨w.slug, x⟩] }
  | (.lagged _, receiver) => { s with receiver := receiver, phase := .lagged }
  | (.empty, _) => s

end State

/-- One step of the projector or of the session. -/
def step (w : Session) (s : State) : Event → State
  | .record record others => s.applyAndBroadcast w record others
  | .send => s.sendNext
  | .subscribe =>
      match s.phase with
      | .idle => { s with phase := .connecting 0, receiver := .new }
      | _ => s
  | .snapshot nowUs =>
      match s.phase with
      | .connecting attempt => s.sendInit w attempt nowUs
      | .lagged => s.sendResync w nowUs
      | _ => s
  | .recv =>
      match s.phase with
      | .streaming => s.recvUpdate w
      | _ => s
  | .close => { s with phase := .closed }

/-! What a step leaves as it was. -/

section Frame

variable (w : Session) (s : State) (record : PersistedRecord) (others : Bool)

@[simp] theorem phase_applyAndBroadcast :
    (s.applyAndBroadcast w record others).phase = s.phase := by
  unfold State.applyAndBroadcast
  split <;> rfl

@[simp] theorem receiver_applyAndBroadcast :
    (s.applyAndBroadcast w record others).receiver = s.receiver := by
  unfold State.applyAndBroadcast
  split <;> rfl

@[simp] theorem sent_applyAndBroadcast :
    (s.applyAndBroadcast w record others).sent = s.sent := by
  unfold State.applyAndBroadcast
  split <;> rfl

@[simp] theorem phase_sendNext : s.sendNext.phase = s.phase := by
  unfold State.sendNext
  split
  · rfl
  · split <;> rfl

@[simp] theorem sent_sendNext : s.sendNext.sent = s.sent := by
  unfold State.sendNext
  split
  · rfl
  · split <;> rfl

@[simp] theorem receiver_snapshot (nowUs : Nat) :
    (step w s (.snapshot nowUs)).receiver = s.receiver := by
  unfold step State.sendInit State.sendResync
  dsimp only
  split
  · split <;> rfl
  · split <;> rfl
  · rfl

end Frame

/-- The messages show the steps of the projector in their order. -/
def State.Ordered (s : State) : Prop :=
  s.sent.Pairwise fun m n => m.stamped.step ≤ n.stamped.step

/-- The session has received all there is. -/
def State.Drained (s : State) : Prop :=
  s.phase = .streaming ∧ s.receiver.unread = [] ∧ s.toSend = []

/-- Where the session is about to read what is published. -/
def State.reads (s : State) : Bool :=
  match s.phase with
  | .connecting _ => true
  | .lagged => true
  | _ => false

/-- A published snapshot is read when no update of an earlier step is unread. -/
def Fresh (s : State) : Event → Prop
  | .snapshot _ => s.reads = true → ∀ x ∈ s.receiver.unread, s.shown ≤ x.step
  | _ => True

/-! ## The queue -/

/-- What is on its way to the session is of ever later steps. -/
structure Queued (w : Session) (s : State) : Prop where
  configured : s.projector.broadcast = some w.depth
  bounded : s.receiver.Bounded broadcastCapacity
  shown_le : s.shown ≤ s.step
  current : ∀ x ∈ s.toSend, x.step = s.shown
  past : ∀ x ∈ s.receiver.unread, x.step ≤ s.shown
  sorted : (s.receiver.unread ++ s.toSend).Pairwise fun x y => x.step < y.step
  unsubscribed : s.phase = .idle → s.receiver.unread = [] ∧ s.receiver.missed = 0
  waiting : s.phase = .idle ∨ (∃ n, s.phase = .connecting n) → s.sent = []
  full : s.phase = .lagged → s.receiver.unread.length = broadcastCapacity

theorem broadcastCapacity_pos : 0 < broadcastCapacity := by decide

section Queue

variable {w : Session} {s : State}

theorem Queued.record (h : Queued w s) (record : PersistedRecord) (others : Bool) :
    Queued w (s.applyAndBroadcast w record others) := by
  unfold State.applyAndBroadcast
  split
  swap
  · exact h
  rename_i hempty
  have hnil : s.toSend = [] := List.isEmpty_iff.mp hempty
  have hconfigured := (s.projector.broadcast_applyAndBroadcast record).trans h.configured
  have hsorted := h.sorted
  rw [hnil, List.append_nil] at hsorted
  have hshown := h.shown_le
  rcases Projector.told_cases h.configured record w.assetId with
    ⟨hnone, -⟩ | ⟨m, hone, hmarked, -, -⟩
  · rw [hnone, List.map_nil, ite_self]
    have hstep : s.shown ≤
        if w.assetId ∈ (s.projector.state.applyRecord record).2.broadcastAssets then s.step + 1
        else s.shown := by split <;> omega
    exact
      { h with
        configured := hconfigured
        shown_le := by
          dsimp only
          split <;> omega
        current := fun x hx => (nomatch hx)
        past := fun x hx => (h.past x hx).trans hstep
        sorted := by simpa using hsorted }
  · rw [hone, if_pos hmarked]
    refine
      { h with
        configured := hconfigured
        shown_le := le_rfl
        current := fun x hx => ?_
        past := fun x hx => ?_
        sorted := ?_ }
    · dsimp only at hx
      split at hx
      · rw [List.map_singleton, List.mem_singleton] at hx
        rw [hx]
      · cases hx
    · have := h.past x hx
      dsimp only
      omega
    · dsimp only
      split
      · refine List.pairwise_append.mpr ⟨hsorted, List.pairwise_singleton _ _, ?_⟩
        intro x hx y hy
        rw [List.map_singleton, List.mem_singleton] at hy
        have := h.past x hx
        rw [hy]
        dsimp only
        omega
      · rwa [List.append_nil]

theorem Queued.send (h : Queued w s) : Queued w s.sendNext := by
  unfold State.sendNext
  split
  · exact h
  · rename_i x rest hsend
    have hsorted := h.sorted
    have hcurrent := h.current
    rw [hsend] at hsorted hcurrent
    have hrest : ∀ y ∈ rest, y.step = s.shown := fun y hy =>
      hcurrent y (List.mem_cons_of_mem _ hy)
    split
    · have hsuffix := Broadcast.Receiver.unread_send_suffix broadcastCapacity s.receiver x
      have hall : s.receiver.unread ++ x :: rest = (s.receiver.unread ++ [x]) ++ rest := by simp
      refine
        { h with
          bounded := h.bounded.send broadcastCapacity_pos x
          current := hrest
          past := fun y hy => ?_
          sorted := ?_
          unsubscribed := fun hidle => ?_
          full := fun hphase => ?_ }
      · rcases List.mem_append.mp (hsuffix.subset hy) with hy | hy
        · exact h.past y hy
        · rw [List.mem_singleton.mp hy]
          exact (hcurrent x List.mem_cons_self).le
      · rw [hall] at hsorted
        exact hsorted.sublist (hsuffix.sublist.append (List.Sublist.refl rest))
      · rename_i hsubscribed
        simp [State.subscribed, show s.phase = .idle from hidle] at hsubscribed
      · have hfull := h.full hphase
        have hlength := h.bounded.length_send broadcastCapacity_pos x
        dsimp only
        omega
    · exact
        { h with
          current := hrest
          sorted := hsorted.sublist ((List.Sublist.refl _).append (List.sublist_cons_self x rest)) }

theorem Queued.subscribe (h : Queued w s) : Queued w (step w s .subscribe) := by
  unfold step
  dsimp only
  split
  · rename_i hidle
    exact
      { h with
        bounded := .new
        past := fun x hx => (nomatch hx)
        sorted := h.sorted.sublist (List.sublist_append_right _ _)
        unsubscribed := fun hphase => (nomatch hphase)
        waiting := fun _ => h.waiting (Or.inl hidle)
        full := fun hphase => (nomatch hphase) }
  · exact h

/-- The session goes on to stream, or ends. -/
theorem Queued.proceed (h : Queued w s) {phase : Phase}
    (hphase : phase = .streaming ∨ phase = .closed) (sent : List SentMessage) :
    Queued w { s with phase := phase, sent := sent } := by
  refine { h with unsubscribed := fun hidle => ?_, waiting := fun hwaiting => ?_,
                  full := fun hlagged => ?_ }
  · rcases hphase with rfl | rfl <;> cases hidle
  · rcases hphase with rfl | rfl <;> simp at hwaiting
  · rcases hphase with rfl | rfl <;> cases hlagged

theorem Queued.snapshot (h : Queued w s) (nowUs : Nat) :
    Queued w (step w s (.snapshot nowUs)) := by
  unfold step
  dsimp only
  split
  · rename_i attempt hphase
    unfold State.sendInit
    split
    · exact h.proceed (Or.inl rfl) _
    · exact h.proceed (Or.inr rfl) _
    · split
      · exact
          { h with
            unsubscribed := fun hidle => (nomatch hidle)
            waiting := fun _ => h.waiting (Or.inr ⟨attempt, hphase⟩)
            full := fun hlagged => (nomatch hlagged) }
      · exact h.proceed (Or.inl rfl) _
  · unfold State.sendResync
    split <;> exact h.proceed (Or.inl rfl) _
  · exact h

theorem Queued.recv (h : Queued w s) : Queued w (step w s .recv) := by
  unfold step
  dsimp only
  split
  swap
  · exact h
  rename_i hphase
  unfold State.recvUpdate
  by_cases hmissed : s.receiver.missed = 0
  · cases hunread : s.receiver.unread with
    | nil =>
        rw [Broadcast.Receiver.recv_of_nil hmissed hunread]
        exact h
    | cons x rest =>
        rw [Broadcast.Receiver.recv_of_cons hmissed hunread]
        have hsorted := h.sorted
        have hpast := h.past
        rw [hunread] at hsorted hpast
        exact
          { h with
            bounded := h.bounded.of_cons hmissed hunread
            past := fun y hy => hpast y (List.mem_cons_of_mem _ hy)
            sorted := (List.pairwise_cons.mp hsorted).2
            unsubscribed := fun hidle => by
              rw [hphase] at hidle
              cases hidle
            waiting := fun hwaiting => by
              rw [hphase] at hwaiting
              simp at hwaiting
            full := fun hlagged => by
              rw [hphase] at hlagged
              cases hlagged }
  · rw [Broadcast.Receiver.recv_of_missed hmissed]
    exact
      { h with
        bounded := ⟨h.bounded.length_le, fun hne => absurd rfl hne⟩
        unsubscribed := fun hidle => (nomatch hidle)
        waiting := fun hwaiting => by simp at hwaiting
        full := fun _ => h.bounded.full hmissed }

/-- **Every step keeps the queue.** -/
theorem Queued.step (h : Queued w s) (e : Event) : Queued w (Streaming.step w s e) := by
  cases e with
  | record record others => exact h.record record others
  | send => exact h.send
  | subscribe => exact h.subscribe
  | snapshot nowUs => exact h.snapshot nowUs
  | recv => exact h.recv
  | close => exact h.proceed (Or.inr rfl) s.sent

end Queue

theorem queued_start {w : Session} {p : Projector} (h : p.broadcast = some w.depth) :
    Queued w (start p) where
  configured := h
  bounded := .new
  shown_le := le_rfl
  current := List.forall_mem_nil _
  past := List.forall_mem_nil _
  sorted := .nil
  unsubscribed := fun _ => ⟨rfl, rfl⟩
  waiting := fun _ => rfl
  full := fun hlagged => (nomatch hlagged)

end Streaming

end PolyBook
