import PolyBook.CheckpointReplay
import PolyBook.ReplayEngine
import PolyBook.ReplayReset

/-!
# Reconstruction from a checkpoint

A checkpoint is a shortcut: the book it lists stands for the changes the venue
had made by its exchange time.  The engine chooses it by that time and, in
receive time, cuts the events by the time it was received.  The two cuts are not
the same, so a reconstruction with the checkpoint is not always the one without.

`CutsAgree` says when it is, from the times alone: the changes the checkpoint
holds have been received by the target, and those it does not hold lie past its
time in the active clock; or a snapshot past that time decides.
-/

namespace PolyBook

open Overwrite Ingest

namespace VenueChange

variable {a : AssetId} (m : VenueChange a)

/-- When the change was received. -/
def recvTs : Nat := m.first.provenance.recvTimestampUs

/-- When the venue dates it. -/
def exchangeTs : Nat := normalizedExchangeTs m.first

/-- Its time in the active clock. -/
def orderingTs (mode : ReplayMode) : Nat := eventOrderingTs mode m.first

/-- A book message of the given time. -/
def snapshotAt (mode : ReplayMode) (time : Nat) : Bool :=
  m.kind = .snapshot && m.orderingTs mode = time

/-- Every record of a change was received with it. -/
theorem recv_of_mem {e : BookEvent} (he : e ∈ m.events) :
    e.provenance.recvTimestampUs = m.recvTs := by
  rcases List.mem_cons.mp he with rfl | he
  · rfl
  · have := m.oneGroup e he
    simp only [BookEvent.groupKey, SnapshotGroupKey.mk.injEq] at this
    exact this.2.1

/-- Every record of a change is ordered by the change's time. -/
theorem ordering_of_mem (mode : ReplayMode) {e : BookEvent} (he : e ∈ m.events) :
    eventOrderingTs mode e = m.orderingTs mode := by
  rcases List.mem_cons.mp he with rfl | he
  · rfl
  · have := m.oneGroup e he
    simp only [BookEvent.groupKey, SnapshotGroupKey.mk.injEq] at this
    cases mode <;>
      simp [eventOrderingTs, orderingTs, normalizedExchangeTs, this.2.1, this.2.2.1]

/-- Every record of a change is of its kind. -/
theorem kind_of_mem {e : BookEvent} (he : e ∈ m.events) : e.kind = m.kind := m.kinds e he

/-- A level change is one record. -/
theorem events_delta (hk : m.kind = .delta) : m.events = [m.first] := by
  rw [events, m.single hk]

end VenueChange

/-- The book events of one asset in the order they arrived, in which neither
clock runs back. -/
structure VenueFeed (a : AssetId) where
  changes : List (VenueChange a)
  late : ∀ m ∈ changes, m.exchangeTs ≤ m.recvTs
  received : changes.Pairwise fun m n => m.recvTs ≤ n.recvTs
  dated : changes.Pairwise fun m n => m.exchangeTs ≤ n.exchangeTs
  ordinals : (changes.flatMap (·.events)).Pairwise fun d e => ordinalKey d < ordinalKey e

section Flat

variable {a : AssetId}

/-- Selecting events by what their change has is selecting changes. -/
theorem filter_flatMap_events {p : BookEvent → Bool} {q : VenueChange a → Bool}
    {changes : List (VenueChange a)} (h : ∀ m ∈ changes, ∀ e ∈ m.events, p e = q m) :
    (changes.flatMap (·.events)).filter p = (changes.filter q).flatMap (·.events) := by
  induction changes with
  | nil => rfl
  | cons m rest ih =>
      rw [List.flatMap_cons, List.filter_append, ih fun n hn => h n (List.mem_cons_of_mem _ hn)]
      have hm := h m List.mem_cons_self
      cases hq : q m with
      | true =>
          rw [List.filter_cons_of_pos hq, List.flatMap_cons,
            List.filter_eq_self.mpr fun e he => (hm e he).trans hq]
      | false =>
          rw [List.filter_cons_of_neg (by simp [hq]),
            List.filter_eq_nil_iff.mpr fun e he => by simp [hm e he, hq]]
          rfl

/-- The writes of level changes. -/
theorem map_write_of_deltas {changes : List (VenueChange a)}
    (h : ∀ m ∈ changes, m.kind = .delta) :
    (changes.flatMap (·.events)).map BookEvent.write = changes.map VenueChange.write := by
  induction changes with
  | nil => rfl
  | cons m rest ih =>
      have hm := h m List.mem_cons_self
      rw [List.flatMap_cons, List.map_append, ih fun n hn => h n (List.mem_cons_of_mem _ hn),
        m.events_delta hm, List.map_cons, List.map_cons, VenueChange.write, hm]
      rfl

/-- The records of changes of one kind are of that kind. -/
theorem kind_of_mem_flatMap {changes : List (VenueChange a)} {kind : BookEventKind}
    (h : ∀ m ∈ changes, m.kind = kind) {e : BookEvent}
    (he : e ∈ changes.flatMap (·.events)) : e.kind = kind := by
  obtain ⟨m, hm, hem⟩ := List.mem_flatMap.mp he
  exact (m.kind_of_mem hem).trans (h m hm)

/-- The last event is of the last change. -/
theorem mem_getLast?_flatMap {changes : List (VenueChange a)} {e : BookEvent}
    (he : e ∈ (changes.flatMap (·.events)).getLast?) :
    ∃ m ∈ changes.getLast?, e ∈ m.events := by
  cases hcase : changes.getLast? with
  | none =>
      rw [List.getLast?_eq_none_iff] at hcase
      subst hcase
      cases he
  | some m =>
      obtain ⟨front, rfl⟩ := List.getLast?_eq_some_iff.mp hcase
      have hlast : m.events.getLast? = some _ :=
        List.getLast?_eq_some_getLast (List.cons_ne_nil m.first m.rest)
      rw [List.flatMap_append, List.flatMap_singleton, List.getLast?_append, hlast,
        Option.some_or, Option.mem_some_iff] at he
      exact ⟨m, rfl, he ▸ List.getLast_mem _⟩

end Flat

namespace VenueFeed

variable {a : AssetId} (feed : VenueFeed a)

/-- The records of the feed, change by change. -/
def events : List BookEvent := feed.changes.flatMap (·.events)

/-- The changes received from `start` up to the target. -/
def seen (start target : Nat) : List (VenueChange a) :=
  feed.changes.filter fun m => start ≤ m.recvTs && m.recvTs ≤ target

/-- How many changes the venue had made by a time. -/
def version (exchange : Nat) : Nat := feed.changes.countP fun m => m.exchangeTs ≤ exchange

/-- Kinds and times of the changes, without what they change. -/
def timing : List (BookEventKind × Nat × Nat) :=
  feed.changes.map fun m => (m.kind, m.recvTs, m.exchangeTs)

/-- The sizes of the feed are within the capacity. -/
def Within (c : Capacity) : Prop := ∀ m ∈ feed.changes, c.AdmitsEvents m.events

/-- The feed is in the order of either time. -/
theorem ordering_pairwise (mode : ReplayMode) :
    feed.changes.Pairwise fun m n => m.orderingTs mode ≤ n.orderingTs mode := by
  cases mode
  · exact feed.received
  · exact feed.dated

/-- A change is received at or after its time in either clock. -/
theorem ordering_le_recv (mode : ReplayMode) {m : VenueChange a} (hm : m ∈ feed.changes) :
    m.orderingTs mode ≤ m.recvTs := by
  cases mode
  · exact le_rfl
  · exact feed.late m hm

/-- The feed is in the order of the replay comparator. -/
theorem pairwise_lt (mode : ReplayMode) :
    feed.events.Pairwise fun d e => compareBookEvents mode d e = .lt := by
  have hclocks : feed.events.Pairwise fun d e =>
      eventOrderingTs mode d ≤ eventOrderingTs mode e ∧
        d.provenance.recvTimestampUs ≤ e.provenance.recvTimestampUs := by
    refine List.pairwise_flatMap.mpr ⟨?_, ?_⟩
    · intro m _
      refine List.Pairwise.imp_of_mem ?_ (List.pairwise_of_forall fun _ _ => trivial)
      intro d e hd he _
      rw [m.ordering_of_mem mode hd, m.ordering_of_mem mode he, m.recv_of_mem hd,
        m.recv_of_mem he]
      exact ⟨le_rfl, le_rfl⟩
    · refine ((feed.ordering_pairwise mode).and feed.received).imp ?_
      intro m n hmn d hd e he
      rw [m.ordering_of_mem mode hd, n.ordering_of_mem mode he, m.recv_of_mem hd,
        n.recv_of_mem he]
      exact hmn
  exact (hclocks.and feed.ordinals).imp fun h => compareBookEvents_lt mode h.1.1 h.1.2 h.2

end VenueFeed

/-- Stored records that hold the feed, in any order, with no checkpoint of the
asset and no reset. -/
structure Stored {a : AssetId} (feed : VenueFeed a) (records : List PersistedRecord) : Prop where
  books : (records.filterMap (bookOf a)).Perm feed.events
  checkpoints : ∀ c, PersistedRecord.checkpoint c ∈ records → c.assetId ≠ a
  resets : ∀ e, PersistedRecord.ingest e ∈ records → e.assetId.all (fun row => row = a) = true →
    e.kind.isContinuityReset = false

section Window

variable {a : AssetId} {feed : VenueFeed a} {records : List PersistedRecord}

/-- The engine sorts the window into the order of arrival. -/
theorem Stored.sort_window (h : Stored feed records) (mode : ReplayMode) (start target : Nat) :
    sortBookEvents mode (marketDataWindow a start target records).bookEvents =
      (feed.seen start target).flatMap (·.events) := by
  have hfilter : feed.events.filter (fun e => start ≤ e.provenance.recvTimestampUs &&
      e.provenance.recvTimestampUs ≤ target) = (feed.seen start target).flatMap (·.events) :=
    filter_flatMap_events fun m _ e he => by rw [m.recv_of_mem he]
  refine sortBookEvents_eq_of_perm mode ?_ ?_
  · rw [← hfilter]
    exact (feed.pairwise_lt mode).sublist List.filter_sublist
  · rw [← hfilter]
    rw [marketDataWindow_bookEvents]
    exact (List.perm_insertionSort _ _).trans (h.books.filter _)

/-- As many book rows are read as the changes seen have events. -/
theorem Stored.length_bookRows (h : Stored feed records) (start target : Nat) :
    (records.filterMap (extractBookEvent a start target)).length =
      ((feed.seen start target).flatMap (·.events)).length := by
  rw [← h.sort_window .recvTime start target, sortBookEvents, marketDataWindow,
    List.length_insertionSort, List.length_insertionSort]

/-- Each change seen is at least one row of a read. -/
theorem Stored.length_seen_le (h : Stored feed records) {start target : Nat}
    (hfits : WindowFits a start target records) :
    (feed.seen start target).length ≤ maxParquetDatasetRows := by
  refine Nat.le_trans ?_ (h.length_bookRows start target ▸ hfits.books)
  generalize feed.seen start target = changes
  induction changes with
  | nil => exact le_rfl
  | cons m rest ih =>
      rw [List.flatMap_cons, List.length_append, List.length_cons, VenueChange.events,
        List.length_cons]
      omega

/-- No reset stands in the window. -/
theorem Stored.boundary_eq_none (h : Stored feed records) (start target : Nat) :
    latestResetBoundaryUs (marketDataWindow a start target records).ingestEvents target = none :=
  marketDataWindow_boundary_eq_none h.resets start target

end Window

section Rebuilt

variable {a : AssetId} {feed : VenueFeed a} {records : List PersistedRecord} {c : Capacity}
  {mode : ReplayMode} {start target : Nat}

/-- The book a group of book messages makes. -/
def groupContent (group : List (VenueChange a)) : BookContent :=
  listedContent (eventLevels .bid (group.flatMap (·.events)))
    (eventLevels .ask (group.flatMap (·.events)))

namespace VenueFeed

/-- What a window shows was received in it. -/
theorem mem_seen {m : VenueChange a} : m ∈ feed.seen start target ↔
    m ∈ feed.changes ∧ start ≤ m.recvTs ∧ m.recvTs ≤ target := by
  simp [seen]

/-- What a window shows keeps the feed's order. -/
theorem seen_sublist (feed : VenueFeed a) (start target : Nat) :
    (feed.seen start target).Sublist feed.changes := List.filter_sublist

/-- Events of seen changes are within the capacity. -/
theorem Within.flatMap (h : feed.Within c) {changes : List (VenueChange a)}
    (hsub : ∀ m ∈ changes, m ∈ feed.changes) : c.AdmitsEvents (changes.flatMap (·.events)) := by
  intro e he
  obtain ⟨m, hm, hem⟩ := List.mem_flatMap.mp he
  exact h m (hsub m hm) e hem

/-- Events of seen changes are up to the target in either clock. -/
theorem ordering_le_target {changes : List (VenueChange a)}
    (hsub : ∀ m ∈ changes, m ∈ feed.seen start target) {e : BookEvent}
    (he : e ∈ changes.flatMap (·.events)) : eventOrderingTs mode e ≤ target := by
  obtain ⟨m, hm, hem⟩ := List.mem_flatMap.mp he
  obtain ⟨hmem, _, hle⟩ := mem_seen.mp (hsub m hm)
  rw [m.ordering_of_mem mode hem]
  exact (feed.ordering_le_recv mode hmem).trans hle

end VenueFeed

/-- The last seen snapshot, among the changes seen. -/
structure LastSnapshot (feed : VenueFeed a) (start target : Nat) (before : List (VenueChange a))
    (s : VenueChange a) (after : List (VenueChange a)) : Prop where
  split : feed.seen start target = before ++ s :: after
  kind : s.kind = .snapshot
  deltas : ∀ m ∈ after, m.kind = .delta

/-- A seed, and a loop over the changes that are left. -/
theorem Stored.rebuilt_of_seed (h : Stored feed records) {checkpoint : Option BookCheckpoint}
    (book : L2Book) {startIdx : Nat} {rest : List (VenueChange a)} {content : BookContent}
    (hseed : replaySeed a target mode none checkpoint
      (sortBookEvents mode (marketDataWindow a start target records).bookEvents) =
        .ok (book, startIdx))
    (hdrop : (sortBookEvents mode (marketDataWindow a start target records).bookEvents).drop
      startIdx = rest.flatMap (·.events))
    (hloop : ∀ fuel, (rest.flatMap (·.events)).length ≤ fuel → ∃ result,
      replayLoop a target mode fuel (rest.flatMap (·.events)) book [] = .ok result ∧
        result.1.content = content) :
    ∃ r, reconstructBook a target mode checkpoint (marketDataWindow a start target records) =
      .ok r ∧ r.book.content = content := by
  have hlength : (rest.flatMap (·.events)).length ≤
      (sortBookEvents mode (marketDataWindow a start target records).bookEvents).length := by
    rw [← hdrop]
    exact (List.drop_sublist _ _).length_le
  obtain ⟨result, hresult, hcontent⟩ := hloop _ hlength
  have hsurviving : survivingCheckpoint none checkpoint = checkpoint := by
    cases checkpoint <;> rfl
  rw [← hdrop] at hresult
  have hboundary := h.boundary_eq_none start target
  obtain ⟨r, hr, hbook⟩ := reconstructBook_of_loop checkpoint
    (marketDataWindow a start target records) (by rwa [hboundary, hsurviving]) hresult
  exact ⟨r, hr, by rw [hbook, hcontent]⟩

section Deltas

variable {rest : List (VenueChange a)} {book : L2Book}

/-- The loop over level changes. -/
theorem VenueFeed.Within.loop_deltas (hwithin : feed.Within c)
    (hseen : ∀ m ∈ rest, m ∈ feed.seen start target) (hdeltas : ∀ m ∈ rest, m.kind = .delta)
    (hbook : book.Within c) (fuel : Nat) (hfuel : (rest.flatMap (·.events)).length ≤ fuel) :
    ∃ result, replayLoop a target mode fuel (rest.flatMap (·.events)) book [] = .ok result ∧
      result.1.content = writes book.content (rest.map VenueChange.write) := by
  obtain ⟨result, hloop, _, hresult⟩ := replayLoop_deltas_within a target mode hfuel
    (fun e he => kind_of_mem_flatMap hdeltas he)
    (fun e he => VenueFeed.ordering_le_target hseen he)
    (hwithin.flatMap fun m hm => (feed.seen_sublist _ _).subset (hseen m hm)) hbook []
  exact ⟨result, hloop, by rw [hresult, map_write_of_deltas hdeltas]⟩

end Deltas

namespace LastSnapshot

variable {before after : List (VenueChange a)} {s : VenueChange a}
  (hlast : LastSnapshot feed start target before s after)

include hlast

/-- The parts of a window are of the window. -/
theorem mem_seen {m : VenueChange a} (hm : m ∈ before ++ s :: after) :
    m ∈ feed.seen start target := by rwa [hlast.split]

/-- The parts of a window are of the feed. -/
theorem mem_changes {m : VenueChange a} (hm : m ∈ before ++ s :: after) : m ∈ feed.changes :=
  (feed.seen_sublist _ _).subset (hlast.mem_seen hm)

/-- The last record of the last snapshot is what the engine finds. -/
theorem seedSplit (h : Stored feed records) (mode : ReplayMode) :
    SeedSplit target mode none
      (sortBookEvents mode (marketDataWindow a start target records).bookEvents)
      (before.flatMap (·.events) ++ s.events.dropLast)
      (s.events.getLast (List.cons_ne_nil _ _)) (after.flatMap (·.events)) := by
  have hne : s.events ≠ [] := List.cons_ne_nil _ _
  have hmem := List.getLast_mem hne
  refine ⟨?_, seedsAt_iff.mpr ⟨(s.kind_of_mem hmem).trans hlast.kind, ?_, rfl⟩, ?_⟩
  · rw [h.sort_window, hlast.split, List.flatMap_append, List.flatMap_cons, List.append_assoc,
      ← List.singleton_append, ← List.append_assoc s.events.dropLast,
      List.dropLast_append_getLast hne]
  · rw [s.ordering_of_mem mode hmem]
    obtain ⟨hs, _, hle⟩ := VenueFeed.mem_seen.mp
      (hlast.mem_seen (List.mem_append_right _ List.mem_cons_self))
    exact (feed.ordering_le_recv mode hs).trans hle
  · intro e he
    simp [seedsAt, kind_of_mem_flatMap hlast.deltas he]

/-- The book messages that share the time of the last one make up the seed. -/
theorem group_eq (h : Stored feed records) (mode : ReplayMode) :
    snapshotGroupAt mode none (s.orderingTs mode)
        (sortBookEvents mode (marketDataWindow a start target records).bookEvents) =
      (before.filter (·.snapshotAt mode (s.orderingTs mode)) ++ [s]).flatMap (·.events) := by
  have hevents : snapshotGroupAt mode none (s.orderingTs mode)
      ((feed.seen start target).flatMap (·.events)) =
      ((feed.seen start target).filter
        (·.snapshotAt mode (s.orderingTs mode))).flatMap (·.events) :=
    filter_flatMap_events fun m _ e he => by
      simp [VenueChange.snapshotAt, m.kind_of_mem he, m.ordering_of_mem mode he, afterReset]
  have hafter : after.filter (·.snapshotAt mode (s.orderingTs mode)) = [] :=
    List.filter_eq_nil_iff.mpr fun m hm => by simp [VenueChange.snapshotAt, hlast.deltas m hm]
  have hs : s.snapshotAt mode (s.orderingTs mode) = true := by
    simp [VenueChange.snapshotAt, hlast.kind]
  rw [h.sort_window, hevents, hlast.split, List.filter_append, List.filter_cons, if_pos hs, hafter]

/-- **Without a checkpoint** the reconstruction starts from every book message
of the last one's time. -/
theorem rebuilt (h : Stored feed records) (hwithin : feed.Within c) (mode : ReplayMode) :
    ∃ r, reconstructBook a target mode none (marketDataWindow a start target records) = .ok r ∧
      r.book.content = writes
        (groupContent (before.filter (·.snapshotAt mode (s.orderingTs mode)) ++ [s]))
        (after.map VenueChange.write) := by
  have hgroup_admits : c.AdmitsEvents
      ((before.filter (·.snapshotAt mode (s.orderingTs mode)) ++ [s]).flatMap (·.events)) := by
    refine hwithin.flatMap fun m hm => hlast.mem_changes ?_
    rcases List.mem_append.mp hm with hm | hm
    · exact List.mem_append_left _ (List.mem_filter.mp hm).1
    · exact List.mem_append_right _ (List.mem_singleton.mp hm ▸ List.mem_cons_self)
  obtain ⟨book, hbook, hbook_within, hcontent⟩ := applySnapshotEvents_within hgroup_admits
    (L2Book.new a) (s.orderingTs mode)
  have hsplit := hlast.seedSplit h mode
  have htime : eventOrderingTs mode (s.events.getLast (List.cons_ne_nil _ _)) =
      s.orderingTs mode := s.ordering_of_mem mode (List.getLast_mem _)
  refine h.rebuilt_of_seed book ?_ hsplit.drop_eq ?_
  · rw [replaySeed, hsplit.seedFromSnapshot_eq, htime, hlast.group_eq h, hbook]
  · rw [groupContent, ← hcontent]
    exact hwithin.loop_deltas
      (fun m hm => hlast.mem_seen (List.mem_append_right _ (List.mem_cons_of_mem _ hm)))
      hlast.deltas hbook_within

end LastSnapshot

/-- The window without its checkpoint's share: what lies past a time in the
active clock. -/
theorem Stored.drop_checkpoint (h : Stored feed records) (checkpoint : BookCheckpoint)
    (mode : ReplayMode) (start target : Nat) :
    (sortBookEvents mode (marketDataWindow a start target records).bookEvents).drop
        (((sortBookEvents mode (marketDataWindow a start target records).bookEvents).findIdx?
          fun event =>
            decide (checkpointOrderingTs checkpoint mode < eventOrderingTs mode event)).getD
            (sortBookEvents mode (marketDataWindow a start target records).bookEvents).length) =
      ((feed.seen start target).filter
        fun m => checkpointOrderingTs checkpoint mode < m.orderingTs mode).flatMap (·.events) := by
  rw [PolyBook.drop_checkpoint, h.sort_window]
  exact filter_flatMap_events fun m _ e he => by rw [m.ordering_of_mem mode he]

section Checkpoint

variable {checkpoint : BookCheckpoint} {version : Nat} {rest : List (VenueChange a)}

/-- The seed of a reconstruction with a checkpoint that lists the venue's book. -/
theorem listed_seed (hlisted : Listed c feed.changes checkpoint version) (target : Nat)
    (mode : ReplayMode) (events : List BookEvent) :
    ∃ book, replaySeed a target mode none (some checkpoint) events =
        .ok (book, (events.findIdx? fun event =>
          decide (checkpointOrderingTs checkpoint mode < eventOrderingTs mode event)).getD
            events.length) ∧
      book.Within c ∧ book.content = contentAfter feed.changes version := by
  obtain ⟨book, hbook, hwithin, hcontent⟩ := L2Book.tryApplySnapshot_within hlisted.bids
    hlisted.asks (L2Book.new a) 0 (checkpointOrderingTs checkpoint mode)
  refine ⟨book, ?_, hwithin, hcontent.trans hlisted.content⟩
  simp only [replaySeed, seedFromCheckpoint, L2Book.applyReplayCheckpoint, hbook]

/-- **With a checkpoint** that no book message follows, the reconstruction
carries out the level changes past its time. -/
theorem Stored.rebuilt_checkpoint (h : Stored feed records) (hwithin : feed.Within c)
    (hlisted : Listed c feed.changes checkpoint version)
    (hrest : (feed.seen start target).filter
      (fun m => checkpointOrderingTs checkpoint mode < m.orderingTs mode) = rest)
    (hdeltas : ∀ m ∈ rest, m.kind = .delta) :
    ∃ r, reconstructBook a target mode (some checkpoint)
        (marketDataWindow a start target records) = .ok r ∧
      r.book.content = writes (contentAfter feed.changes version)
        (rest.map VenueChange.write) := by
  obtain ⟨book, hseed, hbook, hcontent⟩ := listed_seed hlisted target mode
    (sortBookEvents mode (marketDataWindow a start target records).bookEvents)
  have hdrop := h.drop_checkpoint checkpoint mode start target
  rw [hrest] at hdrop
  rw [← hcontent]
  have hseen : ∀ m ∈ rest, m ∈ feed.seen start target := by
    intro m hm
    rw [← hrest] at hm
    exact (List.mem_filter.mp hm).1
  exact h.rebuilt_of_seed book hseed hdrop (hwithin.loop_deltas hseen hdeltas hbook)

/-- **With a checkpoint** and book messages past its time, the last run of these
decides, as it does without. -/
theorem Stored.rebuilt_run (h : Stored feed records) (hwithin : feed.Within c)
    (hlisted : Listed c feed.changes checkpoint version)
    {before run after : List (VenueChange a)} (time : Nat)
    (hrest : (feed.seen start target).filter
      (fun m => checkpointOrderingTs checkpoint mode < m.orderingTs mode) =
        before ++ (run ++ after)) (hne : run ≠ [])
    (hrun : ∀ m ∈ run, m.snapshotAt mode time = true)
    (hbefore : ∀ m ∈ before.getLast?, m.snapshotAt mode time = false)
    (hdeltas : ∀ m ∈ after, m.kind = .delta) :
    ∃ r, reconstructBook a target mode (some checkpoint)
        (marketDataWindow a start target records) = .ok r ∧
      r.book.content = writes (groupContent run) (after.map VenueChange.write) := by
  obtain ⟨book, hseed, hbook, _⟩ := listed_seed hlisted target mode
    (sortBookEvents mode (marketDataWindow a start target records).bookEvents)
  have hdrop := h.drop_checkpoint checkpoint mode start target
  rw [hrest] at hdrop
  have hseen : ∀ m ∈ before ++ (run ++ after), m ∈ feed.seen start target := by
    intro m hm
    rw [← hrest] at hm
    exact (List.mem_filter.mp hm).1
  refine h.rebuilt_of_seed book hseed hdrop fun fuel hfuel => ?_
  have hadmits := hwithin.flatMap fun m hm => (feed.seen_sublist _ _).subset (hseen m hm)
  have hdue : ∀ e ∈ (before ++ (run ++ after)).flatMap (·.events),
      eventOrderingTs mode e ≤ target := fun e he => VenueFeed.ordering_le_target hseen he
  have hrun_events : ∀ e ∈ run.flatMap (·.events),
      e.kind = .snapshot ∧ eventOrderingTs mode e = time := by
    intro e he
    obtain ⟨m, hm, hem⟩ := List.mem_flatMap.mp he
    have := hrun m hm
    rw [m.kind_of_mem hem, m.ordering_of_mem mode hem]
    simpa [VenueChange.snapshotAt] using this
  have hrun_ne : run.flatMap (·.events) ≠ [] := by
    obtain ⟨m, rest, rfl⟩ := List.exists_cons_of_ne_nil hne
    exact List.cons_ne_nil _ _
  have hbefore_events : ∀ e ∈ (before.flatMap (·.events)).getLast?,
      ¬ (e.kind = .snapshot ∧ eventOrderingTs mode e = time) := by
    intro e he
    obtain ⟨m, hm, hem⟩ := mem_getLast?_flatMap he
    have := hbefore m hm
    rw [m.kind_of_mem hem, m.ordering_of_mem mode hem]
    simpa [VenueChange.snapshotAt] using this
  rw [List.flatMap_append, List.flatMap_append] at hfuel hadmits hdue ⊢
  obtain ⟨result, hloop, _, hresult⟩ := replayLoop_run_within a target mode hfuel hrun_ne
    hrun_events hbefore_events (fun e he => kind_of_mem_flatMap hdeltas he) hdue hadmits hbook []
  exact ⟨result, hloop, by rw [hresult, map_write_of_deltas hdeltas]; rfl⟩

end Checkpoint

end Rebuilt

/-- When the venue dates a checkpoint and when it is received. -/
structure CheckpointTimes where
  exchange : Nat
  recv : Nat
  le : exchange ≤ recv

/-- Its time in the active clock. -/
def CheckpointTimes.orderingTs (times : CheckpointTimes) : ReplayMode → Nat
  | .recvTime => times.recv
  | .exchangeTime => times.exchange

/-- A checkpoint is dated when its levels were those of the venue, or earlier. -/
theorem CheckpointTimes.exchange_le (times : CheckpointTimes) (mode : ReplayMode) :
    times.exchange ≤ times.orderingTs mode := by
  cases mode
  · exact times.le
  · exact le_rfl

/-- The checkpoint lists the venue's book at its exchange time, and carries its
times as `checkpoint_from_rest` sets them. -/
structure Captured {a : AssetId} (c : Capacity) (feed : VenueFeed a) (times : CheckpointTimes)
    (checkpoint : BookCheckpoint) : Prop where
  dated : checkpoint.checkpointTimestampUs = times.exchange
  exchange : checkpoint.provenance.exchangeTimestampUs = times.exchange
  recv : checkpoint.provenance.recvTimestampUs = times.recv
  listed : Listed c feed.changes checkpoint (feed.version times.exchange)

/-- The same levels with the checkpoint and without. -/
def SameLevels (lookbackUs : Nat) (a : AssetId) (target : Nat) (mode : ReplayMode)
    (checkpoint : BookCheckpoint) (records : List PersistedRecord) : Prop :=
  (reconstructAt lookbackUs a target mode (.checkpoint checkpoint :: records)).map
      (·.book.levels) =
    (reconstructAt lookbackUs a target mode records).map (·.book.levels)

/-- The two cuts agree on what the checkpoint stands for.  A book message past
the checkpoint decides if no level change stands between it and another of its
time; else the last one seen is alone at its time, what the checkpoint holds has
been received by the target, and what it does not hold is past its time in the
active clock. -/
def CutsAgree {a : AssetId} (feed : VenueFeed a) (times : CheckpointTimes)
    (lookbackUs target : Nat) (mode : ReplayMode) : Prop :=
  target - lookbackUs ≤ times.exchange → times.exchange ≤ target →
  ∀ before s after, LastSnapshot feed (target - lookbackUs) target before s after →
    if times.orderingTs mode < s.orderingTs mode then
      before.Pairwise fun m n => m.snapshotAt mode (s.orderingTs mode) = true → n.kind = .snapshot
    else
      (∀ m ∈ before, m.snapshotAt mode (s.orderingTs mode) = false) ∧
      (∀ m ∈ feed.changes, m.exchangeTs ≤ times.exchange → m.recvTs ≤ target) ∧
      ∀ m ∈ feed.changes, times.exchange < m.exchangeTs → m.recvTs ≤ target →
        times.orderingTs mode < m.orderingTs mode

section Engine

variable {a : AssetId} {feed : VenueFeed a} {times : CheckpointTimes}
  {records : List PersistedRecord} {c : Capacity} {checkpoint : BookCheckpoint}
  {lookbackUs target : Nat} {mode : ReplayMode}

/-- The stored checkpoint is ordered by its own times. -/
theorem Captured.orderingTs (h : Captured c feed times checkpoint) (mode : ReplayMode) :
    checkpointOrderingTs checkpoint.asStored mode = times.orderingTs mode := by
  cases mode with
  | recvTime => exact h.recv
  | exchangeTime =>
      simp only [checkpointOrderingTs, BookCheckpoint.asStored, h.exchange, h.dated, ite_self]
      rfl

/-- The stored checkpoint lists what the venue's book held. -/
theorem Captured.asStored (h : Captured c feed times checkpoint) :
    Listed c feed.changes checkpoint.asStored (feed.version times.exchange) :=
  ⟨h.listed.assetId, h.listed.le_length, h.listed.bids, h.listed.asks, h.listed.content⟩

/-- The checkpoint is chosen when the venue dates it inside the lookback. -/
theorem Stored.seedCheckpoint_cons (h : Stored feed records)
    (hcaptured : Captured c feed times checkpoint) (lookbackUs target : Nat) :
    seedCheckpoint lookbackUs a target (.checkpoint checkpoint :: records) =
      if target - lookbackUs ≤ times.exchange ∧ times.exchange ≤ target then
        some checkpoint.asStored
      else none := by
  simp only [seedCheckpoint, latestCheckpoint, checkpointsInWindow, List.filterMap_cons,
    filterMap_extractCheckpoint_eq_nil h.checkpoints,
    extractCheckpoint, hcaptured.dated, hcaptured.listed.assetId, and_true]
  by_cases hin : target - lookbackUs ≤ times.exchange ∧ times.exchange ≤ target
  · rw [if_pos hin, if_neg (by omega)]
    have hdated : checkpoint.asStored.checkpointTimestampUs = times.exchange := hcaptured.dated
    simp only [sortByKey, List.insertionSort_cons, List.insertionSort_nil,
      List.orderedInsert_nil, List.getLast?_singleton, checkpointWithinFloor, Option.filter_some,
      hdated, decide_eq_true hin.1, if_true]
  · rw [if_neg hin]
    split <;> rfl

/-- One checkpoint of the asset can be read. -/
theorem Stored.checkpointsFit_cons (h : Stored feed records) (startUs endUs : Nat) :
    CheckpointsFit a startUs endUs (.checkpoint checkpoint :: records) := by
  rw [CheckpointsFit, List.filterMap_cons, filterMap_extractCheckpoint_eq_nil h.checkpoints]
  cases extractCheckpoint a startUs endUs (.checkpoint checkpoint) with
  | none => exact Nat.zero_le _
  | some stored => exact Nat.succ_le_of_lt (by decide)

/-- Without a checkpoint, replay reads the lookback window. -/
theorem Stored.reconstructAt_without (h : Stored feed records)
    (hfits : WindowFits a (target - lookbackUs) target records) :
    reconstructAt lookbackUs a target mode records =
      reconstructBook a target mode none
        (marketDataWindow a (target - lookbackUs) target records) := by
  rw [reconstructAt_of_no_checkpoint h.checkpoints, readMarketData_of_fits hfits]
  rfl

/-- With the checkpoint the window that is read starts at its date. -/
theorem Stored.reconstructAt_cons (h : Stored feed records)
    (hcaptured : Captured c feed times checkpoint)
    (hin : target - lookbackUs ≤ times.exchange ∧ times.exchange ≤ target) :
    reconstructAt lookbackUs a target mode (.checkpoint checkpoint :: records) =
      (readMarketData a times.exchange target records).bind
        (reconstructBook a target mode (some checkpoint.asStored)) := by
  have hseed := h.seedCheckpoint_cons hcaptured lookbackUs target
  rw [if_pos hin] at hseed
  rw [reconstructAt_of_checkpointsFit (h.checkpointsFit_cons _ _), seedStart, hseed,
    ← hcaptured.dated]
  rfl

/-- With a checkpoint, replay reads from the checkpoint on. -/
theorem Stored.reconstructAt_with (h : Stored feed records)
    (hcaptured : Captured c feed times checkpoint)
    (hin : target - lookbackUs ≤ times.exchange ∧ times.exchange ≤ target)
    (hfits : WindowFits a times.exchange target records) :
    reconstructAt lookbackUs a target mode (.checkpoint checkpoint :: records) =
      reconstructBook a target mode (some checkpoint.asStored)
        (marketDataWindow a times.exchange target records) := by
  rw [h.reconstructAt_cons hcaptured hin, readMarketData_of_fits hfits]
  rfl

/-- A checkpoint outside the lookback plays no part. -/
theorem Stored.sameLevels_of_outside (h : Stored feed records)
    (hcaptured : Captured c feed times checkpoint)
    (hout : ¬ (target - lookbackUs ≤ times.exchange ∧ times.exchange ≤ target)) :
    SameLevels lookbackUs a target mode checkpoint records := by
  have hseed := h.seedCheckpoint_cons hcaptured lookbackUs target
  rw [if_neg hout] at hseed
  rw [SameLevels, reconstructAt_of_no_checkpoint h.checkpoints,
    reconstructAt_of_checkpointsFit (h.checkpointsFit_cons _ _), seedStart, hseed]
  rfl

/-- **A window that is too large** is refused without the checkpoint; with it only if what
has been received from its date on is too large as well. -/
theorem Stored.sameLevels_iff_of_refused (h : Stored feed records)
    (hcaptured : Captured c feed times checkpoint)
    (hrefused : ¬WindowFits a (target - lookbackUs) target records) :
    SameLevels lookbackUs a target mode checkpoint records ↔
      (target - lookbackUs ≤ times.exchange ∧ times.exchange ≤ target →
        ¬WindowFits a times.exchange target records) := by
  by_cases hin : target - lookbackUs ≤ times.exchange ∧ times.exchange ≤ target
  swap
  · exact iff_of_true (h.sameLevels_of_outside hcaptured hin) fun h => absurd h hin
  rw [forall_prop_of_true hin, SameLevels, h.reconstructAt_cons hcaptured hin,
    reconstructAt_of_no_checkpoint h.checkpoints, readMarketData_of_not_fits hrefused]
  by_cases hfits : WindowFits a times.exchange target records
  · refine iff_of_false ?_ (not_not_intro hfits)
    rw [readMarketData_of_fits hfits]
    intro heq
    cases hrebuilt : reconstructBook a target mode (some checkpoint.asStored)
        (marketDataWindow a times.exchange target records) with
    | ok r =>
        simp only [Except.bind, hrebuilt] at heq
        cases heq
    | error err =>
        simp only [Except.bind, hrebuilt] at heq
        exact reconstructBook_ne_other _ _ _
          (hrebuilt.trans (congrArg Except.error (Except.error.inj heq)))
  · refine iff_of_true ?_ hfits
    rw [readMarketData_of_not_fits hfits]
    rfl

/-- What the loop after the checkpoint takes, from the larger window. -/
theorem VenueFeed.seen_filter (hfloor : target - lookbackUs ≤ times.exchange) :
    (feed.seen times.exchange target).filter
        (fun m => times.orderingTs mode < m.orderingTs mode) =
      (feed.seen (target - lookbackUs) target).filter
        fun m => times.orderingTs mode < m.orderingTs mode := by
  simp only [VenueFeed.seen, List.filter_filter]
  refine List.filter_congr fun m hm => ?_
  have hle := feed.ordering_le_recv mode hm
  have := times.exchange_le mode
  by_cases hlt : times.orderingTs mode < m.orderingTs mode
  · have h1 : times.exchange ≤ m.recvTs := by omega
    have h2 : target - lookbackUs ≤ m.recvTs := by omega
    simp [hlt, h1, h2]
  · simp [hlt]

/-- Two reconstructions that succeed show the same levels when they hold the same. -/
theorem map_levels_eq_iff {x y : Except ReplayError Reconstruction} {r r' : Reconstruction}
    (hx : x = .ok r) (hy : y = .ok r') :
    x.map (·.book.levels) = y.map (·.book.levels) ↔ r.book.content = r'.book.content := by
  subst hx hy
  constructor
  · intro h
    exact L2Book.content_eq_of_levels_eq (Except.ok.inj h)
  · intro h
    exact congrArg Except.ok (L2Book.levels_eq_of_content_eq h)

/-- The changes received by the target. -/
def VenueFeed.receivedBy (feed : VenueFeed a) (target : Nat) : List (VenueChange a) :=
  feed.changes.filter fun m => m.recvTs ≤ target

/-- What was received by the target. -/
theorem VenueFeed.mem_receivedBy {m : VenueChange a} :
    m ∈ feed.receivedBy target ↔ m ∈ feed.changes ∧ m.recvTs ≤ target := by
  simp [VenueFeed.receivedBy]

/-- The changes seen end those received by the target. -/
theorem VenueFeed.seen_isSuffix (feed : VenueFeed a) (start target : Nat) :
    ∃ earlier, feed.receivedBy target = earlier ++ feed.seen start target := by
  refine ⟨(feed.receivedBy target).filter fun m => !decide (start ≤ m.recvTs), ?_⟩
  have hseen : feed.seen start target =
      (feed.receivedBy target).filter fun m => start ≤ m.recvTs := by
    simp only [VenueFeed.seen, VenueFeed.receivedBy, List.filter_filter]
  rw [hseen]
  refine (Sorting.filter_not_append_filter ?_).symm
  refine (feed.received.sublist List.filter_sublist).imp fun h hstart => ?_
  rw [decide_eq_true_eq] at hstart ⊢
  omega

/-- The venue's book is what the changes up to its time write. -/
theorem VenueFeed.contentAfter_version (feed : VenueFeed a) (exchange : Nat) :
    contentAfter feed.changes (feed.version exchange) = writes (fun _ => none)
      ((feed.changes.filter fun m => m.exchangeTs ≤ exchange).map VenueChange.write) := by
  have htake := Sorting.filter_le_eq_take exchange feed.dated
  rw [contentAfter, ← List.map_take, VenueFeed.version, htake]

/-- Nothing before a book message plays a part. -/
theorem writes_of_snapshot {s : VenueChange a} (hk : s.kind = .snapshot)
    (before after : List (VenueChange a)) :
    writes (fun _ => none) ((before ++ s :: after).map VenueChange.write) =
      writes (groupContent [s]) (after.map VenueChange.write) := by
  have hwrite : s.write = .all (groupContent [s]) := by
    rw [VenueChange.write, hk]
    simp only [groupContent, List.flatMap_singleton]
  rw [List.map_append, List.map_cons, writes_append, writes_cons, hwrite]
  rfl

/-- What a checkpoint holds is a prefix of what has been received, what lies past
its time a suffix.  When these overlap, the two write what all of it writes. -/
theorem VenueFeed.writes_overlap (feed : VenueFeed a)
    (hheld : ∀ m ∈ feed.changes, m.exchangeTs ≤ times.exchange → m.recvTs ≤ target)
    (hrest : ∀ m ∈ feed.changes, times.exchange < m.exchangeTs → m.recvTs ≤ target →
      times.orderingTs mode < m.orderingTs mode) :
    writes (contentAfter feed.changes (feed.version times.exchange))
        (((feed.receivedBy target).filter
          fun m => times.orderingTs mode < m.orderingTs mode).map VenueChange.write) =
      writes (fun _ => none) ((feed.receivedBy target).map VenueChange.write) := by
  have hordered := (feed.ordering_pairwise mode).sublist
    (List.filter_sublist (p := fun m => decide (m.recvTs ≤ target)))
  have hdated := feed.dated.sublist
    (List.filter_sublist (p := fun m => decide (m.recvTs ≤ target)))
  have hheld_eq : (feed.changes.filter fun m => m.exchangeTs ≤ times.exchange) =
      (feed.receivedBy target).filter fun m => m.exchangeTs ≤ times.exchange := by
    rw [VenueFeed.receivedBy, List.filter_filter]
    refine List.filter_congr fun m hm => ?_
    by_cases hle : m.exchangeTs ≤ times.exchange
    · simp [hle, hheld m hm hle]
    · simp [hle]
  have htake := Sorting.filter_le_eq_take times.exchange hdated
  have hdrop := Sorting.filter_lt_eq_drop (times.orderingTs mode) hordered
  rw [feed.contentAfter_version, hheld_eq, VenueFeed.receivedBy, htake, hdrop, List.map_take,
    List.map_drop]
  refine Ahead.writes_drop (Ahead.of_take ?_ ?_)
  · refine List.countP_mono_left fun m hm hle => ?_
    obtain ⟨hmem, hrecv⟩ := VenueFeed.mem_receivedBy.mp hm
    rw [decide_eq_true_eq] at hle ⊢
    by_contra hlt
    have := hrest m hmem (by omega) hrecv
    omega
  · rw [List.length_map]
    exact List.countP_le_length

/-- What the loop after a checkpoint takes has been received. -/
theorem VenueFeed.seen_filter_eq (feed : VenueFeed a) :
    (feed.seen times.exchange target).filter
        (fun m => times.orderingTs mode < m.orderingTs mode) =
      (feed.receivedBy target).filter fun m => times.orderingTs mode < m.orderingTs mode := by
  simp only [VenueFeed.seen, VenueFeed.receivedBy, List.filter_filter]
  refine List.filter_congr fun m hm => ?_
  have hle := feed.ordering_le_recv mode hm
  have := times.exchange_le mode
  by_cases hlt : times.orderingTs mode < m.orderingTs mode
  · have hstart : times.exchange ≤ m.recvTs := by omega
    simp [hlt, hstart]
  · simp [hlt]

namespace LastSnapshot

variable {before after : List (VenueChange a)} {s : VenueChange a} {start : Nat}
  (hlast : LastSnapshot feed start target before s after)

include hlast

/-- What comes before the last snapshot is not ordered after it, what comes after not
before. -/
theorem ordering_le (mode : ReplayMode) :
    (∀ m ∈ before, m.orderingTs mode ≤ s.orderingTs mode) ∧
      ∀ m ∈ after, s.orderingTs mode ≤ m.orderingTs mode := by
  have hpairs := (feed.ordering_pairwise mode).sublist
    (feed.seen_sublist start target)
  rw [hlast.split, List.pairwise_append, List.pairwise_cons] at hpairs
  exact ⟨fun m hm => hpairs.2.2 m hm s List.mem_cons_self, hpairs.2.1.1⟩

/-- What is past a time that is not before the last snapshot follows it. -/
theorem filter_eq {bound : Nat} (hbound : ¬ bound < s.orderingTs mode) :
    (feed.seen start target).filter (fun m => bound < m.orderingTs mode) =
      after.filter fun m => bound < m.orderingTs mode := by
  have hbefore : before.filter (fun m => bound < m.orderingTs mode) = [] := by
    refine List.filter_eq_nil_iff.mpr fun m hm => ?_
    have := (hlast.ordering_le mode).1 m hm
    simp only [decide_eq_true_eq]
    omega
  rw [hlast.split, List.filter_append, hbefore, List.filter_cons_of_neg (by simpa using hbound)]
  rfl

/-- The changes received by the target leave what the last snapshot and the
changes after it write. -/
theorem writes_receivedBy :
    writes (fun _ => none) ((feed.receivedBy target).map VenueChange.write) =
      writes (groupContent [s]) (after.map VenueChange.write) := by
  obtain ⟨earlier, hearlier⟩ := feed.seen_isSuffix start target
  rw [hearlier, hlast.split, ← List.append_assoc]
  exact writes_of_snapshot hlast.kind _ _

end LastSnapshot

/-- **No book message past the checkpoint.**  The level changes past its time
make up for all it does not hold. -/
theorem Stored.sameLevels_of_deltas (h : Stored feed records) (hwithin : feed.Within c)
    (hcaptured : Captured c feed times checkpoint)
    (hin : target - lookbackUs ≤ times.exchange ∧ times.exchange ≤ target)
    (hfits : WindowFits a (target - lookbackUs) target records)
    {before after : List (VenueChange a)} {s : VenueChange a}
    (hlast : LastSnapshot feed (target - lookbackUs) target before s after)
    (hpast : ¬ times.orderingTs mode < s.orderingTs mode)
    (halone : ∀ m ∈ before, m.snapshotAt mode (s.orderingTs mode) = false)
    (hheld : ∀ m ∈ feed.changes, m.exchangeTs ≤ times.exchange → m.recvTs ≤ target)
    (hrest : ∀ m ∈ feed.changes, times.exchange < m.exchangeTs → m.recvTs ≤ target →
      times.orderingTs mode < m.orderingTs mode) :
    SameLevels lookbackUs a target mode checkpoint records := by
  obtain ⟨r', hr', hcontent'⟩ := hlast.rebuilt h hwithin mode
  have htail : (feed.seen times.exchange target).filter
      (fun m => checkpointOrderingTs checkpoint.asStored mode < m.orderingTs mode) =
      (feed.receivedBy target).filter fun m => times.orderingTs mode < m.orderingTs mode := by
    rw [hcaptured.orderingTs]
    exact feed.seen_filter_eq
  have hdeltas : ∀ m ∈ (feed.receivedBy target).filter
      (fun m => times.orderingTs mode < m.orderingTs mode), m.kind = .delta := by
    intro m hm
    rw [← htail, hcaptured.orderingTs, VenueFeed.seen_filter hin.1, hlast.filter_eq hpast] at hm
    exact hlast.deltas m (List.mem_filter.mp hm).1
  obtain ⟨r, hr, hcontent⟩ := h.rebuilt_checkpoint hwithin hcaptured.asStored htail hdeltas
  rw [SameLevels, h.reconstructAt_with hcaptured hin (hfits.mono hin.1),
    h.reconstructAt_without hfits,
    map_levels_eq_iff hr hr', hcontent, hcontent']
  have hnone : before.filter (·.snapshotAt mode (s.orderingTs mode)) = [] :=
    List.filter_eq_nil_iff.mpr fun m hm => by simp [halone m hm]
  rw [hnone, List.nil_append, ← hlast.writes_receivedBy]
  exact feed.writes_overlap hheld hrest

/-- The book messages of the last one's time stand together. -/
theorem exists_run {before : List (VenueChange a)} {time : Nat}
    (hle : ∀ m ∈ before, m.orderingTs mode ≤ time)
    (hsorted : before.Pairwise fun m n => m.orderingTs mode ≤ n.orderingTs mode)
    (htogether : before.Pairwise fun m n => m.snapshotAt mode time = true → n.kind = .snapshot) :
    ∃ front run, before = front ++ run ∧ (∀ m ∈ front, m.snapshotAt mode time = false) ∧
      ∀ m ∈ run, m.snapshotAt mode time = true := by
  by_cases hother : ∃ m ∈ before, ¬ m.snapshotAt mode time = true
  · obtain ⟨front, k, run, rfl, hk, hrun⟩ := exists_last hother
    refine ⟨front ++ [k], run, by simp, ?_, fun m hm => by simpa using hrun m hm⟩
    intro m hm
    rcases List.mem_append.mp hm with hm | hm
    · by_contra hat
      have hat : m.snapshotAt mode time = true := by simpa using hat
      have hkind := (List.pairwise_append.mp htogether).2.2 m hm k List.mem_cons_self hat
      have hmk := (List.pairwise_append.mp hsorted).2.2 m hm k List.mem_cons_self
      have hktime := hle k (List.mem_append_right _ List.mem_cons_self)
      simp only [VenueChange.snapshotAt, Bool.and_eq_true, decide_eq_true_eq] at hat hk
      exact hk ⟨hkind, by omega⟩
    · obtain rfl := List.mem_singleton.mp hm
      simpa using hk
  · push Not at hother
    exact ⟨[], before, rfl, List.forall_mem_nil _, hother⟩

/-- What the loop after the checkpoint takes, where the changes from some point on are
past it. -/
theorem LastSnapshot.filter_seen_eq (hfloor : target - lookbackUs ≤ times.exchange)
    {front run after : List (VenueChange a)} {s : VenueChange a}
    (hlast : LastSnapshot feed (target - lookbackUs) target (front ++ run) s after)
    (hrun : ∀ m ∈ run, times.orderingTs mode < m.orderingTs mode)
    (hpast : times.orderingTs mode < s.orderingTs mode) :
    (feed.seen times.exchange target).filter
        (fun m => times.orderingTs mode < m.orderingTs mode) =
      front.filter (fun m => times.orderingTs mode < m.orderingTs mode) ++ (run ++ s :: after) := by
  have hself : (run ++ s :: after).filter
      (fun m => times.orderingTs mode < m.orderingTs mode) = run ++ s :: after := by
    apply List.filter_eq_self.mpr
    intro m hm
    rw [decide_eq_true_eq]
    rcases List.mem_append.mp hm with hm | hm
    · exact hrun m hm
    · rcases List.mem_cons.mp hm with rfl | hm
      · exact hpast
      · have := (hlast.ordering_le mode).2 m hm
        omega
  rw [VenueFeed.seen_filter hfloor, hlast.split, List.append_assoc, List.filter_append, hself]

/-- **A book message past the checkpoint** decides both. -/
theorem Stored.sameLevels_of_run (h : Stored feed records) (hwithin : feed.Within c)
    (hcaptured : Captured c feed times checkpoint)
    (hin : target - lookbackUs ≤ times.exchange ∧ times.exchange ≤ target)
    (hfits : WindowFits a (target - lookbackUs) target records)
    {before after : List (VenueChange a)} {s : VenueChange a}
    (hlast : LastSnapshot feed (target - lookbackUs) target before s after)
    (hpast : times.orderingTs mode < s.orderingTs mode)
    (htogether : before.Pairwise fun m n =>
      m.snapshotAt mode (s.orderingTs mode) = true → n.kind = .snapshot) :
    SameLevels lookbackUs a target mode checkpoint records := by
  obtain ⟨r', hr', hcontent'⟩ := hlast.rebuilt h hwithin mode
  have hsorted := (feed.ordering_pairwise mode).sublist
    (feed.seen_sublist (target - lookbackUs) target)
  rw [hlast.split] at hsorted
  obtain ⟨front, run, rfl, hfront, hrun⟩ := exists_run (hlast.ordering_le mode).1
    (List.pairwise_append.mp hsorted).1 htogether
  have hs : s.snapshotAt mode (s.orderingTs mode) = true := by
    simp [VenueChange.snapshotAt, hlast.kind]
  have hrun_past : ∀ m ∈ run, times.orderingTs mode < m.orderingTs mode := by
    intro m hm
    have := hrun m hm
    simp only [VenueChange.snapshotAt, Bool.and_eq_true, decide_eq_true_eq] at this
    omega
  have htail : (feed.seen times.exchange target).filter
      (fun m => checkpointOrderingTs checkpoint.asStored mode < m.orderingTs mode) =
      front.filter (fun m => times.orderingTs mode < m.orderingTs mode) ++
        ((run ++ [s]) ++ after) := by
    rw [hcaptured.orderingTs, hlast.filter_seen_eq hin.1 hrun_past hpast]
    simp
  obtain ⟨r, hr, hcontent⟩ := h.rebuilt_run hwithin hcaptured.asStored (s.orderingTs mode) htail
    (by simp) (fun m hm => by
      rcases List.mem_append.mp hm with hm | hm
      · exact hrun m hm
      · exact List.mem_singleton.mp hm ▸ hs)
    (fun m hm => hfront m (List.mem_filter.mp (List.mem_of_getLast? hm)).1) hlast.deltas
  have hgroup : (front ++ run).filter (·.snapshotAt mode (s.orderingTs mode)) = run := by
    rw [List.filter_append, List.filter_eq_nil_iff.mpr fun m hm => by simp [hfront m hm],
      List.filter_eq_self.mpr hrun, List.nil_append]
  rw [SameLevels, h.reconstructAt_with hcaptured hin (hfits.mono hin.1),
    h.reconstructAt_without hfits,
    map_levels_eq_iff hr hr', hcontent, hcontent', hgroup]

end Engine

end PolyBook
