import PolyBook.ReplayLoop
import PolyBook.SnapshotGroups

/-!
# Reconstruction across a reset

A continuity reset is dated by receive time.  The seed of a reconstruction is
taken from this side of it, checkpoint or snapshot, but the loop that follows
takes every event past the seed in the active clock, also one received before
the reset.  In receive time there is none; in exchange time a stale event, dated
after the seed, is applied.

`reachedEvents` is the trace of a reconstruction, what it seeds from and what
the loop comes to.  `reconstructBook_since_reset_iff` says for which windows no
event from before the reset is in it.
-/

namespace PolyBook

section Trace

variable (targetTimestampUs : Nat) (mode : ReplayMode)

/-- The events the loop comes to, a refused one included. -/
def replayReached : Nat → List BookEvent → L2Book → List BookEvent
  | 0, _, _ => []
  | _ + 1, [], _ => []
  | fuel + 1, event :: rest, book =>
      let currentTime := eventOrderingTs mode event
      if targetTimestampUs < currentTime then []
      else
        match event.kind with
        | .snapshot =>
            let run := snapshotRun mode currentTime (event :: rest)
            match book.applySnapshotEvents run currentTime with
            | .error _ => run
            | .ok book => run ++ replayReached fuel ((event :: rest).drop run.length) book
        | .delta =>
            match book.tryApplyDelta event.side event.price event.size
                (event.provenance.sequence.getD 0) currentTime with
            | .error _ => [event]
            | .ok book => event :: replayReached fuel rest book

/-- The snapshot events the book is seeded from. -/
def seedEvents (boundary : Option Nat) (events : List BookEvent) : List BookEvent :=
  match latestSnapshotIdx targetTimestampUs mode boundary events with
  | none => []
  | some snapshotIdx =>
      snapshotGroupAt mode boundary
        ((events[snapshotIdx]?.map (eventOrderingTs mode)).getD 0) events

/-- The book events a reconstruction is made from. -/
def reachedEvents (assetId : AssetId) (checkpoint : Option BookCheckpoint)
    (window : MarketDataWindow) : List BookEvent :=
  let events := sortBookEvents mode window.bookEvents
  let boundary := latestResetBoundaryUs window.ingestEvents targetTimestampUs
  let checkpoint := survivingCheckpoint boundary checkpoint
  match replaySeed assetId targetTimestampUs mode boundary checkpoint events with
  | .error _ => []
  | .ok (book, startIdx) =>
      (match checkpoint with
        | some _ => []
        | none => seedEvents targetTimestampUs mode boundary events) ++
      replayReached targetTimestampUs mode events.length (events.drop startIdx) book

end Trace

/-- The window without the book events received before its latest reset. -/
def MarketDataWindow.sinceReset (window : MarketDataWindow) (target : Nat) : MarketDataWindow :=
  { window with
    bookEvents := window.bookEvents.filter fun event =>
      afterReset (latestResetBoundaryUs window.ingestEvents target)
        event.provenance.recvTimestampUs }

section Reset

variable (assetId : AssetId) (target : Nat) (mode : ReplayMode)
  (checkpoint : Option BookCheckpoint) (window : MarketDataWindow)

/-- When the reconstruction succeeds, it shows the levels it shows without the
events received before the reset, and comes to none of these. -/
def KeepsReset : Prop :=
  ∀ r, reconstructBook assetId target mode checkpoint window = .ok r →
    (∃ r', reconstructBook assetId target mode checkpoint (window.sinceReset target) = .ok r' ∧
      r'.book.levels = r.book.levels) ∧
    ∀ e ∈ reachedEvents target mode assetId checkpoint window,
      afterReset (latestResetBoundaryUs window.ingestEvents target)
        e.provenance.recvTimestampUs = true

/-- The time of the seed in the active clock: that of the checkpoint, unless a
reset came after it, else that of the latest admitted snapshot. -/
def seedTimeUs : Option Nat :=
  let boundary := latestResetBoundaryUs window.ingestEvents target
  match survivingCheckpoint boundary checkpoint with
  | some checkpoint => some (checkpointOrderingTs checkpoint mode)
  | none =>
      ((window.bookEvents.filter fun event => event.kind = .snapshot &&
        eventOrderingTs mode event ≤ target &&
        afterReset boundary event.provenance.recvTimestampUs).map (eventOrderingTs mode)).max?

/-- No event received before the reset is dated after the seed and up to the
target. -/
def NoStaleEvent : Prop :=
  ∀ e ∈ window.bookEvents, afterReset (latestResetBoundaryUs window.ingestEvents target)
      e.provenance.recvTimestampUs = false →
    ∀ seedTime, seedTimeUs target mode checkpoint window = some seedTime →
      seedTime < eventOrderingTs mode e → target < eventOrderingTs mode e

end Reset

section Seed

variable {target : Nat} {mode : ReplayMode} {boundary : Option Nat} {events : List BookEvent}

/-- What admits a snapshot as a seed. -/
def seedsAt (target : Nat) (mode : ReplayMode) (boundary : Option Nat) (event : BookEvent) :
    Bool :=
  event.kind = .snapshot && eventOrderingTs mode event ≤ target &&
    afterReset boundary event.provenance.recvTimestampUs

theorem seedsAt_iff {e : BookEvent} : seedsAt target mode boundary e = true ↔
    e.kind = .snapshot ∧ eventOrderingTs mode e ≤ target ∧
      afterReset boundary e.provenance.recvTimestampUs = true := by
  simp [seedsAt, and_assoc]

/-- The sorted events around the snapshot a book is seeded from. -/
structure SeedSplit (target : Nat) (mode : ReplayMode) (boundary : Option Nat)
    (events before : List BookEvent) (s : BookEvent) (after : List BookEvent) : Prop where
  split : events = before ++ s :: after
  seeds : seedsAt target mode boundary s = true
  last : ∀ e ∈ after, seedsAt target mode boundary e = false

theorem latestSnapshotIdx_eq_some_iff {n : Nat} :
    latestSnapshotIdx target mode boundary events = some n ↔
      ∃ before s after, SeedSplit target mode boundary events before s after ∧
        n = before.length := by
  rw [latestSnapshotIdx]
  refine rposition_eq_some_iff.trans ?_
  constructor
  · rintro ⟨before, s, after, hsplit, hn, hs, hafter⟩
    exact ⟨before, s, after, ⟨hsplit, hs, hafter⟩, hn⟩
  · rintro ⟨before, s, after, h, hn⟩
    exact ⟨before, s, after, h.split, hn, h.seeds, h.last⟩

namespace SeedSplit

variable {before after : List BookEvent} {s : BookEvent}
  (h : SeedSplit target mode boundary events before s after)

include h

/-- The engine finds the split. -/
theorem latestSnapshotIdx_eq : latestSnapshotIdx target mode boundary events = some before.length :=
  latestSnapshotIdx_eq_some_iff.mpr ⟨before, s, after, h, rfl⟩

theorem getElem?_eq : events[before.length]? = some s := by simp [h.split]

theorem drop_eq : events.drop (before.length + 1) = after := by simp [h.split]

/-- Up to the target only level changes follow the snapshot found. -/
theorem delta_of_mem_after {e : BookEvent} (he : e ∈ after)
    (hdue : eventOrderingTs mode e ≤ target)
    (hsince : afterReset boundary e.provenance.recvTimestampUs = true) : e.kind = .delta := by
  cases hk : e.kind with
  | delta => rfl
  | snapshot =>
      have hseeds := seedsAt_iff.mpr ⟨hk, hdue, hsince⟩
      rw [h.last e he] at hseeds
      cases hseeds

/-- Seeding takes the group of the snapshot found. -/
theorem seedFromSnapshot_eq (assetId : AssetId) (book : L2Book) :
    seedFromSnapshot assetId target mode boundary events book =
      match book.applySnapshotEvents
        (snapshotGroupAt mode boundary (eventOrderingTs mode s) events)
        (eventOrderingTs mode s) with
      | .error err => .error (.bookError err)
      | .ok book => .ok (book, before.length + 1) := by
  cases hgroup : book.applySnapshotEvents
      (snapshotGroupAt mode boundary (eventOrderingTs mode s) events) (eventOrderingTs mode s) with
  | error err =>
      simp only [seedFromSnapshot, h.latestSnapshotIdx_eq, h.getElem?_eq, Option.map_some,
        Option.getD_some, hgroup]
  | ok seeded =>
      simp only [seedFromSnapshot, h.latestSnapshotIdx_eq, h.getElem?_eq, Option.map_some,
        Option.getD_some, hgroup]

/-- Events before the reset are not what the engine seeds from. -/
theorem filter : SeedSplit target mode boundary
    (events.filter fun e => afterReset boundary e.provenance.recvTimestampUs)
    (before.filter fun e => afterReset boundary e.provenance.recvTimestampUs) s
    (after.filter fun e => afterReset boundary e.provenance.recvTimestampUs) where
  split := by
    rw [h.split, List.filter_append, List.filter_cons, if_pos (seedsAt_iff.mp h.seeds).2.2]
  seeds := h.seeds
  last e he := h.last e (List.mem_filter.mp he).1

end SeedSplit

theorem snapshotGroupAt_filter (time : Nat) (events : List BookEvent) :
    snapshotGroupAt mode boundary time
        (events.filter fun e => afterReset boundary e.provenance.recvTimestampUs) =
      snapshotGroupAt mode boundary time events := by
  simp only [snapshotGroupAt, List.filter_filter]
  refine List.filter_congr fun e _ => ?_
  cases afterReset boundary e.provenance.recvTimestampUs <;> simp

/-- The reset admits what is received later than something it admits. -/
theorem afterReset_mono {s t : Nat} (hle : s ≤ t) (h : afterReset boundary s = true) :
    afterReset boundary t = true := by
  cases boundary with
  | none => rfl
  | some resetTs =>
      simp only [afterReset, Option.all_some, decide_eq_true_eq] at h ⊢
      omega

end Seed

section Start

variable {assetId : AssetId} {target : Nat} {mode : ReplayMode}
  {checkpoint : Option BookCheckpoint} {window : MarketDataWindow}

/-- What the loop starts from: it has left the events up to the seed's time, and
of those of the seed's own time it takes none received before the reset. -/
structure StartsAt (mode : ReplayMode) (boundary : Option Nat) (events : List BookEvent)
    (startIdx seedTime : Nat) : Prop where
  since : ∀ e ∈ events.drop startIdx, afterReset boundary e.provenance.recvTimestampUs = false →
    seedTime < eventOrderingTs mode e
  all : ∀ e ∈ events, seedTime < eventOrderingTs mode e → e ∈ events.drop startIdx

/-- After a checkpoint the loop takes the events past its time. -/
theorem drop_checkpoint (c : BookCheckpoint) (events : List BookEvent) :
    (sortBookEvents mode events).drop (((sortBookEvents mode events).findIdx? fun event =>
        decide (checkpointOrderingTs c mode < eventOrderingTs mode event)).getD
          (sortBookEvents mode events).length) =
      (sortBookEvents mode events).filter fun event =>
        checkpointOrderingTs c mode < eventOrderingTs mode event :=
  Sorting.drop_findIdx?_lt _ (sortBookEvents_sorted mode events)

theorem startsAt_checkpoint (boundary : Option Nat) (c : BookCheckpoint)
    (events : List BookEvent) :
    StartsAt mode boundary (sortBookEvents mode events)
      (((sortBookEvents mode events).findIdx? fun event =>
        decide (checkpointOrderingTs c mode < eventOrderingTs mode event)).getD
          (sortBookEvents mode events).length) (checkpointOrderingTs c mode) where
  since e he _ := by
    rw [drop_checkpoint] at he
    simpa using (List.mem_filter.mp he).2
  all e he hlt := by
    rw [drop_checkpoint]
    exact List.mem_filter.mpr ⟨he, by simpa using hlt⟩

theorem SeedSplit.startsAt {boundary : Option Nat} {events before after : List BookEvent}
    {s : BookEvent}
    (h : SeedSplit target mode boundary (sortBookEvents mode events) before s after) :
    StartsAt mode boundary (sortBookEvents mode events) (before.length + 1)
      (eventOrderingTs mode s) := by
  have hpairs := sortBookEvents_pairwise mode events
  rw [h.split, List.pairwise_append, List.pairwise_cons] at hpairs
  obtain ⟨_, ⟨hafter, _⟩, hbefore⟩ := hpairs
  constructor
  · intro e he hreset
    rw [h.drop_eq] at he
    rcases hafter e he with hlt | ⟨_, hrecv⟩
    · exact hlt
    · rw [afterReset_mono hrecv (seedsAt_iff.mp h.seeds).2.2] at hreset
      cases hreset
  · intro e he hlt
    rw [h.drop_eq]
    rw [h.split] at he
    rcases List.mem_append.mp he with he | he
    · have := hbefore e he s List.mem_cons_self
      omega
    · rcases List.mem_cons.mp he with rfl | he
      · omega
      · exact he

namespace SeedSplit

variable {boundary : Option Nat} {events before after : List BookEvent} {s : BookEvent}
  (h : SeedSplit target mode boundary (sortBookEvents mode events) before s after)

include h

theorem mem_last : s ∈ events := by
  rw [← mem_sortBookEvents mode, h.split]
  exact List.mem_append_right _ List.mem_cons_self

theorem mem_of_mem_after {e : BookEvent} (he : e ∈ after) : e ∈ events := by
  rw [← mem_sortBookEvents mode, h.split]
  exact List.mem_append_right _ (List.mem_cons_of_mem _ he)

/-- What could seed the book stands before the snapshot it is seeded from. -/
theorem le_last {e : BookEvent} (he : e ∈ events) (hseeds : seedsAt target mode boundary e = true) :
    bookEventLe mode e s := by
  have hsorted := List.pairwise_insertionSort (bookEventLe mode) events
  change (sortBookEvents mode events).Pairwise _ at hsorted
  rw [h.split, List.pairwise_append] at hsorted
  have hmem := (mem_sortBookEvents mode).mpr he
  rw [h.split] at hmem
  rcases List.mem_append.mp hmem with hbefore | hrest
  · exact hsorted.2.2 e hbefore s List.mem_cons_self
  · rcases List.mem_cons.mp hrest with rfl | hafter
    · rcases Std.Total.total (r := bookEventLe mode) e e with hle | hle
      · exact hle
      · exact hle
    · rw [h.last e hafter] at hseeds
      cases hseeds

end SeedSplit

/-- The time of the seed is that of the snapshot found. -/
theorem seedTimeUs_of_split
    (hnone : survivingCheckpoint (latestResetBoundaryUs window.ingestEvents target) checkpoint =
      none) {before after : List BookEvent} {s : BookEvent}
    (h : SeedSplit target mode (latestResetBoundaryUs window.ingestEvents target)
      (sortBookEvents mode window.bookEvents) before s after) :
    seedTimeUs target mode checkpoint window = some (eventOrderingTs mode s) := by
  have hpairs := sortBookEvents_sorted mode window.bookEvents
  rw [h.split, List.pairwise_append] at hpairs
  have hmem : ∀ e, e ∈ window.bookEvents ↔ e ∈ before ++ s :: after := by
    intro e
    rw [← h.split, mem_sortBookEvents]
  simp only [seedTimeUs, hnone, List.max?_eq_some_iff, List.mem_map, List.mem_filter]
  refine ⟨⟨s, ⟨(hmem s).mpr (List.mem_append_right _ List.mem_cons_self), h.seeds⟩, rfl⟩, ?_⟩
  rintro t ⟨e, ⟨he, hseeds⟩, rfl⟩
  rcases List.mem_append.mp ((hmem e).mp he) with he | he
  · exact hpairs.2.2 e he s List.mem_cons_self
  · rcases List.mem_cons.mp he with rfl | he
    · exact le_rfl
    · have := h.last e he
      rw [seedsAt] at this
      rw [this] at hseeds
      cases hseeds

/-- **The seed is on this side of the reset.**  It is the same without the
events received before the reset, and so is what the loop starts from but for
those. -/
theorem replaySeed_since_reset {book : L2Book} {startIdx : Nat}
    (h : replaySeed assetId target mode (latestResetBoundaryUs window.ingestEvents target)
      (survivingCheckpoint (latestResetBoundaryUs window.ingestEvents target) checkpoint)
      (sortBookEvents mode window.bookEvents) = .ok (book, startIdx)) :
    (∃ startIdx', replaySeed assetId target mode
        (latestResetBoundaryUs window.ingestEvents target)
        (survivingCheckpoint (latestResetBoundaryUs window.ingestEvents target) checkpoint)
        (sortBookEvents mode (window.sinceReset target).bookEvents) = .ok (book, startIdx') ∧
      (sortBookEvents mode (window.sinceReset target).bookEvents).drop startIdx' =
        ((sortBookEvents mode window.bookEvents).drop startIdx).filter fun e =>
          afterReset (latestResetBoundaryUs window.ingestEvents target)
            e.provenance.recvTimestampUs) ∧
    ∃ seedTime, seedTimeUs target mode checkpoint window = some seedTime ∧
      StartsAt mode (latestResetBoundaryUs window.ingestEvents target)
        (sortBookEvents mode window.bookEvents) startIdx seedTime := by
  have hsorted : sortBookEvents mode (window.sinceReset target).bookEvents =
      (sortBookEvents mode window.bookEvents).filter fun e =>
        afterReset (latestResetBoundaryUs window.ingestEvents target)
          e.provenance.recvTimestampUs := sortBookEvents_filter mode _ _
  cases hcheckpoint : survivingCheckpoint (latestResetBoundaryUs window.ingestEvents target)
      checkpoint with
  | some c =>
      rw [hcheckpoint] at h
      simp only [replaySeed, seedFromCheckpoint] at h ⊢
      cases happly : (L2Book.new assetId).applyReplayCheckpoint c mode with
      | error err =>
          rw [happly] at h
          cases h
      | ok seeded =>
          rw [happly] at h
          cases h
          refine ⟨⟨_, rfl, ?_⟩, checkpointOrderingTs c mode, ?_, startsAt_checkpoint _ c _⟩
          · rw [drop_checkpoint, drop_checkpoint, hsorted, List.filter_filter, List.filter_filter]
            exact List.filter_congr fun e _ => Bool.and_comm _ _
          · simp only [seedTimeUs, hcheckpoint]
  | none =>
      rw [hcheckpoint] at h
      simp only [replaySeed] at h ⊢
      cases hidx : latestSnapshotIdx target mode
          (latestResetBoundaryUs window.ingestEvents target)
          (sortBookEvents mode window.bookEvents) with
      | none =>
          rw [seedFromSnapshot, hidx] at h
          cases h
      | some n =>
          obtain ⟨before, s, after, hsplit, rfl⟩ := latestSnapshotIdx_eq_some_iff.mp hidx
          rw [hsplit.seedFromSnapshot_eq] at h
          cases happly : (L2Book.new assetId).applySnapshotEvents
              (snapshotGroupAt mode (latestResetBoundaryUs window.ingestEvents target)
                (eventOrderingTs mode s) (sortBookEvents mode window.bookEvents))
              (eventOrderingTs mode s) with
          | error err =>
              rw [happly] at h
              cases h
          | ok seeded =>
              rw [happly] at h
              cases h
              refine ⟨⟨(before.filter fun e => afterReset
                  (latestResetBoundaryUs window.ingestEvents target)
                  e.provenance.recvTimestampUs).length + 1, ?_, ?_⟩, eventOrderingTs mode s,
                seedTimeUs_of_split hcheckpoint hsplit, hsplit.startsAt⟩
              · rw [hsorted, hsplit.filter.seedFromSnapshot_eq, snapshotGroupAt_filter, happly]
              · rw [hsorted, hsplit.filter.drop_eq, hsplit.drop_eq]

end Start

section Reached

variable {assetId : AssetId} {target : Nat} {mode : ReplayMode}

/-- What is left after a run, and the run itself, are among the events. -/
theorem run_append_rest (mode : ReplayMode) (time : Nat) (events : List BookEvent) :
    snapshotRun mode time events ++ events.drop (snapshotRun mode time events).length = events := by
  exact (List.prefix_append_drop (snapshotRun_isPrefix mode time events)).symm

/-- The loop comes to events up to the target only. -/
theorem mem_replayReached {fuel : Nat} {events : List BookEvent} {book : L2Book} {e : BookEvent}
    (h : e ∈ replayReached target mode fuel events book) :
    e ∈ events ∧ eventOrderingTs mode e ≤ target := by
  induction fuel generalizing events book with
  | zero => cases h
  | succ fuel ih =>
      cases events with
      | nil => cases h
      | cons x rest =>
          simp only [replayReached] at h
          split at h
          · cases h
          · rename_i htime
            have hrun : ∀ y ∈ snapshotRun mode (eventOrderingTs mode x) (x :: rest),
                y ∈ x :: rest ∧ eventOrderingTs mode y ≤ target := fun y hy =>
              ⟨(snapshotRun_isPrefix mode _ _).subset hy,
                (mem_snapshotRun mode hy).2 ▸ Nat.not_lt.mp htime⟩
            cases hk : x.kind with
            | snapshot =>
                simp only [hk] at h
                split at h
                · exact hrun e h
                · rcases List.mem_append.mp h with h | h
                  · exact hrun e h
                  · exact ⟨List.mem_of_mem_drop (ih h).1, (ih h).2⟩
            | delta =>
                simp only [hk] at h
                split at h
                · obtain rfl := List.mem_singleton.mp h
                  exact ⟨List.mem_cons_self, Nat.not_lt.mp htime⟩
                · rcases List.mem_cons.mp h with rfl | h
                  · exact ⟨List.mem_cons_self, Nat.not_lt.mp htime⟩
                  · exact ⟨List.mem_cons_of_mem _ (ih h).1, (ih h).2⟩

variable {c : Capacity}

/-- While the totals fit, the loop comes to every event up to the target, and
refuses none. -/
theorem replayReached_all (assetId : AssetId) (target : Nat) {fuel : Nat}
    {events : List BookEvent} (hfuel : events.length ≤ fuel)
    (hsorted : events.Pairwise fun d e => eventOrderingTs mode d ≤ eventOrderingTs mode e)
    (hadmits : c.AdmitsEvents events) {book : L2Book} (hbook : book.Within c)
    (marks : List IngestEvent) :
    (∃ r, replayLoop assetId target mode fuel events book marks = .ok r) ∧
      ∀ e ∈ events, eventOrderingTs mode e ≤ target →
        e ∈ replayReached target mode fuel events book := by
  induction fuel generalizing events book marks with
  | zero =>
      obtain rfl : events = [] := by simpa using hfuel
      exact ⟨⟨_, rfl⟩, fun e he => nomatch he⟩
  | succ fuel ih =>
      cases events with
      | nil => exact ⟨⟨_, rfl⟩, fun e he => nomatch he⟩
      | cons x rest =>
          have hle := (List.pairwise_cons.mp hsorted).1
          simp only [replayLoop, replayReached]
          by_cases htime : target < eventOrderingTs mode x
          · simp only [htime, if_true]
            refine ⟨⟨_, rfl⟩, fun e he hdue => ?_⟩
            rcases List.mem_cons.mp he with rfl | he
            · omega
            · have := hle e he
              omega
          · simp only [htime, if_false]
            cases hk : x.kind with
            | snapshot =>
                have happend := run_append_rest mode (eventOrderingTs mode x) (x :: rest)
                have hshort := length_drop_snapshotRun mode hk rest
                have hadmits_run : c.AdmitsEvents
                    (snapshotRun mode (eventOrderingTs mode x) (x :: rest)) :=
                  fun e he => hadmits e ((snapshotRun_isPrefix mode _ _).subset he)
                obtain ⟨next, hnext, hwithin, _⟩ := applySnapshotEvents_within hadmits_run book
                  (eventOrderingTs mode x)
                simp only [hnext]
                obtain ⟨hok, hall⟩ := ih (hshort.trans (by simpa using hfuel))
                  (hsorted.sublist (List.drop_sublist _ _))
                  (fun e he => hadmits e (List.mem_of_mem_drop he)) hwithin marks
                refine ⟨hok, fun e he hdue => ?_⟩
                rw [← happend] at he
                rcases List.mem_append.mp he with he | he
                · exact List.mem_append_left _ he
                · exact List.mem_append_right _ (hall e he hdue)
            | delta =>
                obtain ⟨next, hnext, hwithin, _⟩ := hbook.tryApplyDelta_within
                  (hadmits x List.mem_cons_self) (x.provenance.sequence.getD 0)
                  (eventOrderingTs mode x)
                simp only [hnext]
                have hrest := ih (by simpa using hfuel) (List.pairwise_cons.mp hsorted).2
                  (fun e he => hadmits e (List.mem_cons_of_mem _ he)) hwithin
                refine ⟨(hrest _).1, fun e he hdue => ?_⟩
                rcases List.mem_cons.mp he with rfl | he
                · exact List.mem_cons_self
                · exact List.mem_cons_of_mem _ ((hrest marks).2 e he hdue)

end Reached

/-- The sizes of the window and of the checkpoint are within the capacity. -/
def Capacity.AdmitsWindow (c : Capacity) (checkpoint : Option BookCheckpoint)
    (window : MarketDataWindow) : Prop :=
  c.AdmitsEvents window.bookEvents ∧ ∀ cp ∈ checkpoint,
    c.Admits .bid (cp.bids.map fun l => (l.price, l.size)) ∧
      c.Admits .ask (cp.asks.map fun l => (l.price, l.size))

section Main

variable {assetId : AssetId} {target : Nat} {mode : ReplayMode}
  {checkpoint : Option BookCheckpoint} {window : MarketDataWindow}

/-- A success is a seed and a loop. -/
theorem reconstructBook_eq_ok {r : Reconstruction}
    (h : reconstructBook assetId target mode checkpoint window = .ok r) :
    ∃ seed marks, replaySeed assetId target mode
        (latestResetBoundaryUs window.ingestEvents target)
        (survivingCheckpoint (latestResetBoundaryUs window.ingestEvents target) checkpoint)
        (sortBookEvents mode window.bookEvents) = .ok seed ∧
      replayLoop assetId target mode (sortBookEvents mode window.bookEvents).length
        ((sortBookEvents mode window.bookEvents).drop seed.2) seed.1 [] =
          .ok (r.book, marks) := by
  have hbook := reconstructBook_book assetId target mode checkpoint window
  rw [h] at hbook
  cases hseed : replaySeed assetId target mode (latestResetBoundaryUs window.ingestEvents target)
      (survivingCheckpoint (latestResetBoundaryUs window.ingestEvents target) checkpoint)
      (sortBookEvents mode window.bookEvents) with
  | error err =>
      rw [hseed] at hbook
      cases hbook
  | ok seed =>
      rw [hseed] at hbook
      simp only [Except.bind] at hbook
      cases hloop : replayLoop assetId target mode (sortBookEvents mode window.bookEvents).length
          ((sortBookEvents mode window.bookEvents).drop seed.2) seed.1 [] with
      | error err =>
          rw [hloop] at hbook
          cases hbook
      | ok result =>
          rw [hloop] at hbook
          have hbooks : r.book = result.1 := Except.ok.inj hbook
          exact ⟨seed, result.2, rfl, by rw [hloop, hbooks]⟩

/-- A seed and a loop are a success. -/
theorem reconstructBook_of_loop (checkpoint : Option BookCheckpoint) (window : MarketDataWindow)
    {seed : L2Book × Nat} {result : L2Book × List IngestEvent}
    (hseed : replaySeed assetId target mode (latestResetBoundaryUs window.ingestEvents target)
      (survivingCheckpoint (latestResetBoundaryUs window.ingestEvents target) checkpoint)
      (sortBookEvents mode window.bookEvents) = .ok seed)
    (hloop : replayLoop assetId target mode (sortBookEvents mode window.bookEvents).length
      ((sortBookEvents mode window.bookEvents).drop seed.2) seed.1 [] = .ok result) :
    ∃ r, reconstructBook assetId target mode checkpoint window = .ok r ∧ r.book = result.1 := by
  have hbook := reconstructBook_book assetId target mode checkpoint window
  rw [hseed] at hbook
  simp only [Except.bind] at hbook
  rw [hloop] at hbook
  cases hr : reconstructBook assetId target mode checkpoint window with
  | error err =>
      rw [hr] at hbook
      cases hbook
  | ok r =>
      rw [hr] at hbook
      exact ⟨r, rfl, Except.ok.inj hbook⟩

/-- Without a stale event past the seed, the loop takes what it takes without
the events from before the reset. -/
theorem keepsReset_of_noStaleEvent (h : NoStaleEvent target mode checkpoint window) :
    KeepsReset assetId target mode checkpoint window := by
  intro r hr
  obtain ⟨⟨book, startIdx⟩, marks, hseed, hloop⟩ := reconstructBook_eq_ok hr
  obtain ⟨⟨startIdx', hseed', hdrop⟩, seedTime, htime, hstart⟩ := replaySeed_since_reset hseed
  have hfresh : ∀ e ∈ (sortBookEvents mode window.bookEvents).drop startIdx,
      eventOrderingTs mode e ≤ target →
      afterReset (latestResetBoundaryUs window.ingestEvents target)
        e.provenance.recvTimestampUs = true := by
    intro e he hdue
    by_contra hstale
    have hstale : afterReset (latestResetBoundaryUs window.ingestEvents target)
      e.provenance.recvTimestampUs = false := by simpa using hstale
    have := h e ((mem_sortBookEvents mode).mp (List.mem_of_mem_drop he)) hstale seedTime htime
      (hstart.since e he hstale)
    omega
  constructor
  · have hsame : ((sortBookEvents mode (window.sinceReset target).bookEvents).drop startIdx').filter
        (fun e => eventOrderingTs mode e ≤ target) =
        ((sortBookEvents mode window.bookEvents).drop startIdx).filter
          fun e => eventOrderingTs mode e ≤ target := by
      rw [hdrop, List.filter_filter]
      refine List.filter_congr fun e he => ?_
      by_cases hdue : eventOrderingTs mode e ≤ target
      · simp [hdue, hfresh e he hdue]
      · simp [hdue]
    have hsorted := sortBookEvents_sorted mode window.bookEvents
    have hsorted' := sortBookEvents_sorted mode (window.sinceReset target).bookEvents
    have hlength : ((sortBookEvents mode (window.sinceReset target).bookEvents).drop
        startIdx').length ≤ (sortBookEvents mode window.bookEvents).length := by
      rw [hdrop]
      exact (List.length_filter_le _ _).trans (List.drop_sublist ..).length_le
    have hleft := replayLoop_filter assetId target mode
      (hsorted.sublist (List.drop_sublist startIdx _)) (List.drop_sublist startIdx _).length_le
      (List.drop_sublist startIdx _).length_le book []
    have hright := replayLoop_filter assetId target mode
      (hsorted'.sublist (List.drop_sublist startIdx' _)) (List.drop_sublist startIdx' _).length_le
      hlength book []
    rw [hsame, ← hleft, hloop] at hright
    obtain ⟨r', hr', hbook⟩ :=
      reconstructBook_of_loop checkpoint (window.sinceReset target) hseed' hright
    exact ⟨r', hr', by rw [hbook]⟩
  · intro e he
    simp only [reachedEvents, hseed] at he
    rcases List.mem_append.mp he with he | he
    · cases hcheckpoint : survivingCheckpoint
          (latestResetBoundaryUs window.ingestEvents target) checkpoint with
      | some cp =>
          rw [hcheckpoint] at he
          cases he
      | none =>
          rw [hcheckpoint] at he
          simp only [seedEvents] at he
          split at he
          · cases he
          · have := (List.mem_filter.mp he).2
            simp only [Bool.and_eq_true] at this
            exact this.2
    · obtain ⟨hmem, hdue⟩ := mem_replayReached he
      exact hfresh e hmem hdue

/-- While the totals fit, a seed there is can be taken. -/
theorem replaySeed_within (assetId : AssetId) {c : Capacity}
    (hadmits : c.AdmitsWindow checkpoint window) {seedTime : Nat}
    (h : seedTimeUs target mode checkpoint window = some seedTime) :
    ∃ seed, replaySeed assetId target mode (latestResetBoundaryUs window.ingestEvents target)
        (survivingCheckpoint (latestResetBoundaryUs window.ingestEvents target) checkpoint)
        (sortBookEvents mode window.bookEvents) = .ok seed ∧ seed.1.Within c := by
  cases hcheckpoint : survivingCheckpoint (latestResetBoundaryUs window.ingestEvents target)
      checkpoint with
  | some cp =>
      obtain ⟨hbids, hasks⟩ := hadmits.2 cp (Option.eq_some_of_filter_eq_some hcheckpoint)
      obtain ⟨next, hnext, hwithin, _⟩ := L2Book.tryApplySnapshot_within hbids hasks
        (L2Book.new assetId) 0 (checkpointOrderingTs cp mode)
      simp only [replaySeed, seedFromCheckpoint, L2Book.applyReplayCheckpoint, hnext]
      exact ⟨_, rfl, hwithin⟩
  | none =>
      cases hidx : latestSnapshotIdx target mode
          (latestResetBoundaryUs window.ingestEvents target)
          (sortBookEvents mode window.bookEvents) with
      | none =>
          simp only [seedTimeUs, hcheckpoint, List.max?_eq_some_iff, List.mem_map,
            List.mem_filter] at h
          obtain ⟨⟨s, ⟨hs, hseeds⟩, rfl⟩, _⟩ := h
          have := rposition_eq_none_iff.mp hidx s ((mem_sortBookEvents mode).mpr hs)
          rw [this] at hseeds
          cases hseeds
      | some n =>
          obtain ⟨before, s, after, hsplit, rfl⟩ := latestSnapshotIdx_eq_some_iff.mp hidx
          have hadmits_group : c.AdmitsEvents (snapshotGroupAt mode
              (latestResetBoundaryUs window.ingestEvents target) (eventOrderingTs mode s)
              (sortBookEvents mode window.bookEvents)) :=
            fun e he => hadmits.1 e ((mem_sortBookEvents mode).mp (List.mem_filter.mp he).1)
          obtain ⟨next, hnext, hwithin, _⟩ := applySnapshotEvents_within hadmits_group
            (L2Book.new assetId) (eventOrderingTs mode s)
          simp only [replaySeed, hsplit.seedFromSnapshot_eq, hnext]
          exact ⟨_, rfl, hwithin⟩

/-- While the totals fit, a stale event past the seed is reached. -/
theorem noStaleEvent_of_keepsReset {c : Capacity} (hadmits : c.AdmitsWindow checkpoint window)
    (h : KeepsReset assetId target mode checkpoint window) :
    NoStaleEvent target mode checkpoint window := by
  intro e he hstale seedTime htime hlt
  by_contra hdue
  obtain ⟨⟨book, startIdx⟩, hseed, hwithin⟩ :=
    replaySeed_within assetId hadmits htime
  obtain ⟨_, seedTime', htime', hstart⟩ := replaySeed_since_reset hseed
  obtain rfl : seedTime = seedTime' := Option.some.inj (htime.symm.trans htime')
  have hadmits_rest : c.AdmitsEvents ((sortBookEvents mode window.bookEvents).drop startIdx) :=
    fun d hd => hadmits.1 d ((mem_sortBookEvents mode).mp (List.mem_of_mem_drop hd))
  obtain ⟨⟨result, hloop⟩, hall⟩ := replayReached_all assetId target
    (List.drop_sublist startIdx _).length_le
    ((sortBookEvents_sorted mode window.bookEvents).sublist (List.drop_sublist startIdx _))
    hadmits_rest hwithin []
  obtain ⟨r, hr, _⟩ := reconstructBook_of_loop checkpoint window hseed hloop
  have hreached : e ∈ reachedEvents target mode assetId checkpoint window := by
    simp only [reachedEvents, hseed]
    exact List.mem_append_right _ (hall e
      (hstart.all e ((mem_sortBookEvents mode).mpr he) hlt) (Nat.not_lt.mp hdue))
  rw [(h r hr).2 e hreached] at hstale
  cases hstale

end Main

/-- In receive time no event past the seed is from before the reset. -/
theorem noStaleEvent_recvTime (target : Nat) (checkpoint : Option BookCheckpoint)
    (window : MarketDataWindow) : NoStaleEvent target .recvTime checkpoint window := by
  intro e _ hstale seedTime htime hlt
  simp only [eventOrderingTs] at hlt
  have hseed : afterReset (latestResetBoundaryUs window.ingestEvents target) seedTime = true := by
    simp only [seedTimeUs] at htime
    split at htime
    · rename_i cp hcheckpoint
      cases htime
      have := Option.filter_eq_some_iff.mp hcheckpoint
      exact this.2
    · obtain ⟨s, hs, rfl⟩ := List.mem_map.mp (List.max?_mem htime)
      have := (List.mem_filter.mp hs).2
      simp only [Bool.and_eq_true] at this
      exact this.2
  rw [afterReset_mono hlt.le hseed] at hstale
  cases hstale

/-- **Nothing is stitched across a reset** when no event received before it is
dated, in the active clock, after the seed and up to the target.  While the
totals fit nothing weaker is enough. -/
theorem reconstructBook_since_reset_iff (assetId : AssetId) (target : Nat) (mode : ReplayMode)
    (checkpoint : Option BookCheckpoint) (window : MarketDataWindow) :
    (NoStaleEvent target mode checkpoint window →
      KeepsReset assetId target mode checkpoint window) ∧
    ∀ c : Capacity, c.AdmitsWindow checkpoint window →
      (KeepsReset assetId target mode checkpoint window ↔
        NoStaleEvent target mode checkpoint window) :=
  ⟨keepsReset_of_noStaleEvent, fun _ hadmits =>
    ⟨noStaleEvent_of_keepsReset hadmits, keepsReset_of_noStaleEvent⟩⟩

namespace StaleDelta

open Sample

/-- The same record with its exchange time. -/
def dated (exchangeTimestampUs : Nat) (event : BookEvent) : BookEvent :=
  { event with provenance := { event.provenance with exchangeTimestampUs := exchangeTimestampUs } }

/-- The reset between the two sessions. -/
def reset : IngestEvent where
  assetId := none
  kind := .sourceReset
  provenance := provenance 2000 "reset"
  expectedSequence := none
  observedSequence := none
  details := none

/-- A level change received before the reset and a snapshot received after it,
with their exchange times. -/
def window (deltaUs snapshotUs : Nat) : MarketDataWindow where
  bookEvents := [dated deltaUs (level .delta "yes" .bid 40 7 1900 "change"),
    dated snapshotUs (level .snapshot "yes" .bid 50 10 2100 "book")]
  tradeEvents := []
  ingestEvents := [reset]

/-- The capacity of the sample. -/
def capacity : Capacity := .uniform 1000000000 Capacity.thousand_fits

/-- The bids rebuilt in exchange time at 3000. -/
def bids (window : MarketDataWindow) : Except ReplayError (List (Nat × Nat)) :=
  (reconstructBook "yes" 3000 .exchangeTime none window).map fun r =>
    r.book.bids.toList.map fun l => (l.1.raw, l.2.raw)

end StaleDelta

open StaleDelta in
/-- The venue dates the level change before the snapshot. -/
theorem reconstructBook_since_reset_iff_ordered :
    KeepsReset "yes" 3000 .exchangeTime none (window 1870 1880) :=
  ((reconstructBook_since_reset_iff "yes" 3000 .exchangeTime none (window 1870 1880)).2 capacity
    ⟨by unfold Capacity.AdmitsEvents; decide, by simp⟩).mpr (by
      intro e he hstale seedTime htime hlt
      have htime : some 1880 = some seedTime := htime
      cases htime
      revert e
      decide)

open StaleDelta in
/-- The venue dates the level change after the snapshot, and it is applied. -/
theorem stale_delta_applied :
    bids (window 1890 1880) = .ok [(5000, 10000000), (4000, 7000000)] ∧
      bids ((window 1890 1880).sinceReset 3000) = .ok [(5000, 10000000)] := by
  decide +kernel

end PolyBook
