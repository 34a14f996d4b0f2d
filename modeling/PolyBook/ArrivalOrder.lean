import PolyBook.MergedGroups

/-!
# Replay in receive time and the order of arrival

The ordinal that the drain gives a record tells the order of arrival, but the
comparator reads it behind the receive timestamp.  A host clock that steps back between
two messages therefore replays them in the wrong order, or leaves a level change out
because it seems to lie before the snapshot.

An `ArrivalLog` is what was drained up to the target, message by message, with the last
snapshot message marked.  `follows_iff_inOrder` says which assignments of receive
timestamps are harmless whatever the messages say.
-/

namespace PolyBook

open Overwrite

/-- The book records of one message, as they were drained: they share a receive
timestamp. -/
structure LoggedMessage where
  kind : BookEventKind
  recvTimestampUs : Nat
  records : List BookEvent
  nonempty : records ≠ []
  kinds : ∀ e ∈ records, e.kind = kind
  received : ∀ e ∈ records, e.provenance.recvTimestampUs = recvTimestampUs

/-- The records of some messages, in order. -/
def recordsOf (messages : List LoggedMessage) : List BookEvent := messages.flatMap (·.records)

/-- The records are those of the messages. -/
theorem mem_recordsOf {messages : List LoggedMessage} {e : BookEvent} :
    e ∈ recordsOf messages ↔ ∃ m ∈ messages, e ∈ m.records := List.mem_flatMap

/-- The messages drained for an asset, in the order of their ingest ordinals: those
before the last snapshot message, that message, and level changes. -/
structure ArrivalLog (target : Nat) where
  before : List LoggedMessage
  last : LoggedMessage
  after : List LoggedMessage
  snapshot : last.kind = .snapshot
  deltas : ∀ m ∈ after, m.kind = .delta
  stamped : ∀ e ∈ recordsOf (before ++ last :: after), e.provenance.ingestOrdinal.isSome = true
  logged : (recordsOf (before ++ last :: after)).Pairwise fun d e => ordinalKey d < ordinalKey e
  due : ∀ m ∈ before ++ last :: after, m.recvTimestampUs ≤ target

namespace ArrivalLog

variable {target : Nat} (log : ArrivalLog target)

/-- The records in the order of their arrival. -/
def events : List BookEvent := recordsOf (log.before ++ log.last :: log.after)

/-- The records folded in the order of arrival, from the last snapshot message. -/
def folded (assetId : AssetId) : Except BookError L2Book := do
  let book ← (L2Book.new assetId).applySnapshotEvents log.last.records log.last.recvTimestampUs
  applyDeltas .recvTime book (recordsOf log.after)

/-- However the records are stored, replay in receive time shows the levels of the
fold. -/
def Follows (assetId : AssetId) (ingestEvents : List IngestEvent) : Prop :=
  ∀ window : MarketDataWindow, window.bookEvents.Perm log.events →
    window.ingestEvents = ingestEvents → ∀ book, log.folded assetId = .ok book →
      ∃ r, reconstructBook assetId target .recvTime none window = .ok r ∧
        r.book.levels = book.levels

/-- The clock does not step back where it matters: not behind the last snapshot message
for what arrived before it, not from that message on, and not to before a reset. -/
structure InOrder (ingestEvents : List IngestEvent) : Prop where
  early : ∀ m ∈ log.before, m.recvTimestampUs ≤ log.last.recvTimestampUs
  apart : ∀ m ∈ log.before, m.kind = .snapshot → m.recvTimestampUs ≠ log.last.recvTimestampUs
  late : (log.last :: log.after).Pairwise fun m n => m.recvTimestampUs ≤ n.recvTimestampUs
  sinceReset : afterReset (latestResetBoundaryUs ingestEvents target) log.last.recvTimestampUs =
    true

/-- The records, by what comes before the last snapshot message and after it. -/
theorem events_eq : log.events =
    recordsOf log.before ++ (log.last.records ++ recordsOf log.after) := by
  simp [events, recordsOf]

/-- Every record is due at the target. -/
theorem due_of_mem {e : BookEvent} (he : e ∈ log.events) :
    eventOrderingTs .recvTime e ≤ target := by
  obtain ⟨m, hm, he⟩ := mem_recordsOf.mp he
  rw [eventOrderingTs, m.received e he]
  exact log.due m hm

/-- The last snapshot message holds snapshot records. -/
theorem snapshot_of_mem_last {e : BookEvent} (he : e ∈ log.last.records) : e.kind = .snapshot :=
  (log.last.kinds e he).trans log.snapshot

/-- Behind the last snapshot message there are level changes only. -/
theorem delta_of_mem_after {e : BookEvent} (he : e ∈ recordsOf log.after) : e.kind = .delta := by
  obtain ⟨m, hm, he⟩ := mem_recordsOf.mp he
  exact (m.kinds e he).trans (log.deltas m hm)

/-- Two records drained one after the other, the clock not stepping back between them. -/
theorem compare_lt {d e : BookEvent}
    (hrecv : d.provenance.recvTimestampUs ≤ e.provenance.recvTimestampUs)
    (hordinal : ordinalKey d < ordinalKey e) : compareBookEvents .recvTime d e = .lt :=
  compareBookEvents_lt .recvTime hrecv hrecv hordinal

/-- Records with ordinals of their own are never tied. -/
theorem sort_pairwise_lt {mode : ReplayMode} {events : List BookEvent}
    (h : events.Pairwise fun d e => ordinalKey d ≠ ordinalKey e) :
    (sortBookEvents mode events).Pairwise fun d e => compareBookEvents mode d e = .lt := by
  have hordinals : (sortBookEvents mode events).Pairwise fun d e => ordinalKey d ≠ ordinalKey e :=
    ((List.perm_insertionSort _ _).pairwise_iff fun h => Ne.symm h).mpr h
  refine ((List.pairwise_insertionSort (bookEventLe mode) events).and hordinals).imp ?_
  rintro d e ⟨hle, hne⟩
  unfold bookEventLe at hle
  cases hcompare : compareBookEvents mode d e with
  | lt => rfl
  | eq =>
      simp only [compareBookEvents, compareLex, compareOn, Ordering.then_eq_eq,
        Std.LawfulEqOrd.compare_eq_iff_eq] at hcompare
      exact absurd hcompare.2.2.1 hne
  | gt =>
      rw [hcompare] at hle
      cases hle

variable {log} {assetId : AssetId} {ingestEvents : List IngestEvent}

/-- Messages in the order of the clock. -/
theorem records_pairwise_lt (h : log.InOrder ingestEvents) :
    (log.last.records ++ recordsOf log.after).Pairwise fun d e =>
      compareBookEvents .recvTime d e = .lt := by
  have hsame : log.last.records ++ recordsOf log.after = recordsOf (log.last :: log.after) := by
    simp [recordsOf]
  have hlogged := log.logged
  change log.events.Pairwise _ at hlogged
  rw [log.events_eq, List.pairwise_append] at hlogged
  have hrecv : (recordsOf (log.last :: log.after)).Pairwise fun d e =>
      d.provenance.recvTimestampUs ≤ e.provenance.recvTimestampUs := by
    apply List.pairwise_flatMap.mpr
    constructor
    · intro m _
      apply List.pairwise_of_forall_mem_list
      intro d hd e he
      rw [m.received d hd, m.received e he]
    · apply h.late.imp
      intro m n hle d hd e he
      rw [m.received d hd, n.received e he]
      exact hle
  rw [hsame] at hlogged ⊢
  refine (hrecv.and hlogged.2.1).imp ?_
  rintro d e ⟨hrecv, hordinal⟩
  exact compare_lt hrecv hordinal

/-- In order, the sorted events end with the last snapshot message and what followed. -/
theorem sort_eq (h : log.InOrder ingestEvents) {stored : List BookEvent}
    (hstored : stored.Perm log.events) : sortBookEvents .recvTime stored =
      sortBookEvents .recvTime (recordsOf log.before) ++
        (log.last.records ++ recordsOf log.after) := by
  have hlogged := log.logged
  change log.events.Pairwise _ at hlogged
  rw [log.events_eq, List.pairwise_append] at hlogged
  apply sortBookEvents_eq_of_perm
  · apply List.pairwise_append.mpr
    refine ⟨sort_pairwise_lt (hlogged.1.imp fun h => Nat.ne_of_lt h), records_pairwise_lt h, ?_⟩
    intro d hd e he
    have hd' : d ∈ recordsOf log.before := (mem_sortBookEvents _).mp hd
    obtain ⟨m, hm, hdm⟩ := mem_recordsOf.mp hd'
    have hlast : log.last.recvTimestampUs ≤ e.provenance.recvTimestampUs := by
      rcases List.mem_append.mp he with he | he
      · rw [log.last.received e he]
      · obtain ⟨n, hn, hen⟩ := mem_recordsOf.mp he
        rw [n.received e hen]
        exact (List.pairwise_cons.mp h.late).1 n hn
    have hearly := h.early m hm
    rw [← m.received d hdm] at hearly
    exact compare_lt (hearly.trans hlast) (hlogged.2.2 d hd' e he)
  · refine hstored.trans ?_
    rw [log.events_eq]
    exact (List.perm_insertionSort _ _).symm.append_right _

/-- In order, the snapshot records with the time of the last message are its own. -/
theorem snapshotGroupAt_eq (h : log.InOrder ingestEvents) {stored : List BookEvent}
    (hstored : stored.Perm log.events) :
    snapshotGroupAt .recvTime (latestResetBoundaryUs ingestEvents target) log.last.recvTimestampUs
      (sortBookEvents .recvTime stored) = log.last.records := by
  have hsince := h.sinceReset
  generalize latestResetBoundaryUs ingestEvents target = boundary at hsince ⊢
  have hbefore : snapshotGroupAt .recvTime boundary log.last.recvTimestampUs
      (sortBookEvents .recvTime (recordsOf log.before)) = [] := by
    apply List.filter_eq_nil_iff.mpr
    intro e he
    obtain ⟨m, hm, hem⟩ := mem_recordsOf.mp ((mem_sortBookEvents _).mp he)
    by_cases hk : e.kind = .snapshot
    · have hapart := h.apart m hm ((m.kinds e hem).symm.trans hk)
      simp [eventOrderingTs, m.received e hem, hapart]
    · simp [hk]
  have hown : snapshotGroupAt .recvTime boundary log.last.recvTimestampUs log.last.records =
      log.last.records := by
    apply List.filter_eq_self.mpr
    intro e he
    simp [log.snapshot_of_mem_last he, eventOrderingTs, log.last.received e he, hsince]
  have hafter : snapshotGroupAt .recvTime boundary log.last.recvTimestampUs
      (recordsOf log.after) = [] := by
    apply List.filter_eq_nil_iff.mpr
    intro e he
    simp [log.delta_of_mem_after he]
  unfold snapshotGroupAt at hbefore hown hafter ⊢
  rw [sort_eq h hstored, List.filter_append, List.filter_append, hbefore, hown, hafter]
  simp

/-- In order, the last record of the last snapshot message is what replay finds. -/
theorem exists_seedSplit (h : log.InOrder ingestEvents) {stored : List BookEvent}
    (hstored : stored.Perm log.events) :
    ∃ before s, eventOrderingTs .recvTime s = log.last.recvTimestampUs ∧
      SeedSplit target .recvTime (latestResetBoundaryUs ingestEvents target)
        (sortBookEvents .recvTime stored) before s (recordsOf log.after) := by
  obtain ⟨init, s, hlast⟩ := (List.eq_nil_or_concat' log.last.records).resolve_left
    log.last.nonempty
  have hmem : s ∈ log.last.records := by
    rw [hlast]
    exact List.mem_append_right _ (List.mem_singleton_self s)
  have hdue : eventOrderingTs .recvTime s ≤ target := by
    apply log.due_of_mem
    rw [log.events_eq]
    exact List.mem_append_right _ (List.mem_append_left _ hmem)
  refine ⟨sortBookEvents .recvTime (recordsOf log.before) ++ init, s, log.last.received s hmem,
    ?_, seedsAt_iff.mpr ⟨log.snapshot_of_mem_last hmem, hdue, ?_⟩, ?_⟩
  · rw [sort_eq h hstored, hlast]
    simp
  · rw [log.last.received s hmem]
    exact h.sinceReset
  · intro e he
    have hdelta := log.delta_of_mem_after he
    simp [seedsAt, hdelta]

/-- **In order, replay follows the order of arrival.** -/
theorem follows_of_inOrder (h : log.InOrder ingestEvents) : log.Follows assetId ingestEvents := by
  rintro window hstored rfl book hbook
  obtain ⟨before, s, htime, hsplit⟩ := exists_seedSplit h hstored
  cases hseeded : (L2Book.new assetId).applySnapshotEvents log.last.records
      log.last.recvTimestampUs with
  | error err =>
      rw [folded, hseeded] at hbook
      cases hbook
  | ok seeded =>
      rw [folded, hseeded] at hbook
      have hdue : (recordsOf log.after).filter (fun e => eventOrderingTs .recvTime e ≤ target) =
          recordsOf log.after := by
        apply List.filter_eq_self.mpr
        intro e he
        have hmem : e ∈ log.events := by
          rw [log.events_eq]
          exact List.mem_append_right _ (List.mem_append_right _ he)
        exact decide_eq_true (log.due_of_mem hmem)
      rw [← snapshotGroupAt_eq h hstored, ← htime] at hseeded
      rw [← hdue] at hbook
      have hnone : survivingCheckpoint (latestResetBoundaryUs window.ingestEvents target) none =
          none := Option.filter_none _
      obtain ⟨r, hr, hrbook⟩ := hsplit.reconstructBook_of_fold hnone
        (fun e he => log.delta_of_mem_after (List.mem_filter.mp he).1) hseeded hbook
      exact ⟨r, hr, by rw [hrbook]⟩

end ArrivalLog

/-! ## Clocks that step back -/

/-- A record with another level in it. -/
def BookEvent.painted (paint : BookEvent → Side × FixedPrice × FixedSize) (event : BookEvent) :
    BookEvent :=
  { event with
    side := (paint event).1
    price := (paint event).2.1
    size := (paint event).2.2 }

/-- The level a record has. -/
def BookEvent.level (event : BookEvent) : Side × FixedPrice × FixedSize :=
  (event.side, event.price, event.size)

/-- The levels that are there are among those a log can be painted with. -/
theorem BookEvent.painted_level : BookEvent.painted BookEvent.level = id := rfl

/-- Levels of a few whole units stay within the capacity. -/
theorem admits_of_painted {paint : BookEvent → Side × FixedPrice × FixedSize}
    (hsizes : ∀ e, ∃ units, (paint e).2.2 = Sample.size units) {events : List BookEvent}
    (hfrom : ∀ x ∈ events, ∃ e : BookEvent, e.painted paint = x) :
    (Capacity.uniform 1000000000 Capacity.thousand_fits).AdmitsEvents events := by
  intro x hx
  obtain ⟨e, rfl⟩ := hfrom x hx
  obtain ⟨units, hunits⟩ := hsizes e
  simp only [BookEvent.painted, hunits, Sample.size, Capacity.uniform]
  omega

/-- The same message with other levels in it. -/
def LoggedMessage.painted (paint : BookEvent → Side × FixedPrice × FixedSize) (m : LoggedMessage) :
    LoggedMessage where
  kind := m.kind
  recvTimestampUs := m.recvTimestampUs
  records := m.records.map (BookEvent.painted paint)
  nonempty := by simpa using m.nonempty
  kinds := by
    rintro e he
    obtain ⟨d, hd, rfl⟩ := List.mem_map.mp he
    exact m.kinds d hd
  received := by
    rintro e he
    obtain ⟨d, hd, rfl⟩ := List.mem_map.mp he
    exact m.received d hd

/-- Painting a message paints its records. -/
theorem recordsOf_painted (paint : BookEvent → Side × FixedPrice × FixedSize)
    (messages : List LoggedMessage) :
    recordsOf (messages.map (LoggedMessage.painted paint)) =
      (recordsOf messages).map (BookEvent.painted paint) := by
  simp only [recordsOf, List.flatMap_map, List.map_flatMap]
  rfl

namespace ArrivalLog

variable {target : Nat}

/-- Painting a log's messages paints its records. -/
theorem recordsOf_painted_all (paint : BookEvent → Side × FixedPrice × FixedSize)
    (log : ArrivalLog target) :
    recordsOf (log.before.map (LoggedMessage.painted paint) ++ log.last.painted paint ::
      log.after.map (LoggedMessage.painted paint)) =
      (recordsOf (log.before ++ log.last :: log.after)).map (BookEvent.painted paint) := by
  rw [← recordsOf_painted, List.map_append, List.map_cons]

/-- The same log with other levels: what arrived when stays. -/
def painted (log : ArrivalLog target) (paint : BookEvent → Side × FixedPrice × FixedSize) :
    ArrivalLog target where
  before := log.before.map (LoggedMessage.painted paint)
  last := log.last.painted paint
  after := log.after.map (LoggedMessage.painted paint)
  snapshot := log.snapshot
  deltas := by
    rintro m hm
    obtain ⟨n, hn, rfl⟩ := List.mem_map.mp hm
    exact log.deltas n hn
  stamped := by
    rw [recordsOf_painted_all]
    rintro e he
    obtain ⟨d, hd, rfl⟩ := List.mem_map.mp he
    exact log.stamped d hd
  logged := by
    rw [recordsOf_painted_all, List.pairwise_map]
    exact log.logged
  due := by
    rintro m hm
    rw [← List.map_cons, ← List.map_append] at hm
    obtain ⟨n, hn, rfl⟩ := List.mem_map.mp hm
    exact log.due n hn

end ArrivalLog

section Contents

/-- Where no event writes a level, it stays. -/
theorem writes_of_no_write {events : List BookEvent} {key : Side × FixedPrice}
    (h : ∀ e ∈ events, (e.side, e.price) ≠ key) (f : BookContent) :
    writes f (events.map BookEvent.write) key = f key := by
  apply writes_of_not_set
  intro w hw
  obtain ⟨e, he, rfl⟩ := List.mem_map.mp hw
  exact ⟨_, _, rfl, h e he⟩

/-- What level changes leave at a price: what was there, or the size written last. -/
theorem writes_cases (f : BookContent) (events : List BookEvent) (key : Side × FixedPrice) :
    (writes f (events.map BookEvent.write) key = f key ∧ ∀ e ∈ events, (e.side, e.price) ≠ key) ∨
      ∃ xs e ys, events = xs ++ e :: ys ∧ (e.side, e.price) = key ∧
        (∀ y ∈ ys, (y.side, y.price) ≠ key) ∧
        writes f (events.map BookEvent.write) key = e.size.stored := by
  by_cases hwritten : ∃ e ∈ events, (e.side, e.price) = key
  · obtain ⟨xs, e, ys, rfl, hkey, hys⟩ := exists_last hwritten
    refine Or.inr ⟨xs, e, ys, rfl, hkey, hys, ?_⟩
    rw [List.map_append, List.map_cons, writes_append, writes_cons, writes_of_no_write hys,
      BookEvent.write, Write.run, hkey, Function.update_self]
  · push Not at hwritten
    exact Or.inl ⟨writes_of_no_write hwritten f, hwritten⟩

/-- In order, a level change that no other one of its price follows decides the price. -/
theorem writes_eq_of_last {events : List BookEvent} {R : BookEvent → BookEvent → Prop}
    (hsorted : events.Pairwise R) {e : BookEvent} (he : e ∈ events)
    (hlast : ∀ x ∈ events, (x.side, x.price) = (e.side, e.price) → x = e ∨ ¬ R e x)
    (f : BookContent) :
    writes f (events.map BookEvent.write) (e.side, e.price) = e.size.stored := by
  rcases writes_cases f events (e.side, e.price) with ⟨-, hnone⟩ | ⟨xs, y, ys, rfl, hkey, hys, hy⟩
  · exact absurd rfl (hnone e he)
  · rcases hlast y (List.mem_append_right _ List.mem_cons_self) hkey with rfl | hnot
    · exact hy
    · rcases List.mem_append.mp he with hxs | hrest
      · exact absurd ((List.pairwise_append.mp hsorted).2.2 e hxs y List.mem_cons_self) hnot
      · rcases List.mem_cons.mp hrest with rfl | hmem
        · exact hy
        · exact absurd rfl (hys e hmem)

/-- A group within the capacity holds the prices it lists with a size. -/
theorem listedContent_isSome_iff {c : Capacity} {events : List BookEvent}
    (h : c.AdmitsEvents events) (side : Side) (price : FixedPrice) :
    (listedContent (eventLevels .bid events) (eventLevels .ask events) (side, price)).isSome =
        true ↔
      ∃ e ∈ events, e.side = side ∧ e.price = price ∧ e.size.isZero = false := by
  have hside : ∀ (cmp : FixedPrice → FixedPrice → Ordering) [Std.TransCmp cmp]
      [Std.LawfulEqCmp cmp], ∃ next : SideLevels cmp × Nat,
        snapshotSide (eventLevels side events) = some next ∧
        (next.1[price]?.isSome = true ↔
          ∃ e ∈ events, e.side = side ∧ e.price = price ∧ e.size.isZero = false) := by
    intro cmp _ _
    have hempty : SideWithin (c.cap side) ((∅ : SideLevels cmp), 0) := .empty _
    obtain ⟨next, hnext, hwithin, hlist⟩ :=
      hempty.foldlM_snapshotLevel (c.fits side) (h.admits side)
    refine ⟨next, hnext, ?_⟩
    constructor
    · intro hsome
      obtain ⟨size, hsize⟩ := Option.isSome_iff_exists.mp hsome
      rcases hlist price with ⟨hnone, -⟩ | ⟨listed, hmem, hlisted⟩
      · rw [hnone] at hsize
        simp at hsize
      · obtain ⟨e, he, hes, hlevel⟩ := mem_eventLevels hmem
        obtain ⟨rfl, rfl⟩ := Prod.mk.inj hlevel
        exact ⟨e, he, hes, rfl, (hwithin.stored _ _ hlisted).1⟩
    · rintro ⟨e, he, rfl, rfl, hpos⟩
      rcases hlist e.price with ⟨-, hzero⟩ | ⟨listed, -, hlisted⟩
      · have hmem : (e.price, e.size) ∈ eventLevels e.side events :=
          List.mem_map.mpr ⟨e, List.mem_filter.mpr ⟨he, by simp⟩, rfl⟩
        rw [hzero e.size hmem] at hpos
        cases hpos
      · rw [hlisted]
        rfl
  cases side with
  | bid =>
      obtain ⟨next, hnext, hiff⟩ := hside (fun a b => compare b a)
      simp only [listedContent, hnext, Option.bind_some]
      exact hiff
  | ask =>
      obtain ⟨next, hnext, hiff⟩ := hside compare
      simp only [listedContent, hnext, Option.bind_some]
      exact hiff

end Contents

namespace ArrivalLog

variable {target : Nat} {log : ArrivalLog target} {assetId : AssetId}
  {ingestEvents : List IngestEvent} {c : Capacity}

/-- A record before the last snapshot message is one of the log. -/
theorem mem_events_of_before {e : BookEvent} (he : e ∈ recordsOf log.before) : e ∈ log.events := by
  rw [log.events_eq]
  exact List.mem_append_left _ he

/-- A record of the last snapshot message is one of the log. -/
theorem mem_events_of_last {e : BookEvent} (he : e ∈ log.last.records) : e ∈ log.events := by
  rw [log.events_eq]
  exact List.mem_append_right _ (List.mem_append_left _ he)

/-- A record behind the last snapshot message is one of the log. -/
theorem mem_events_of_after {e : BookEvent} (he : e ∈ recordsOf log.after) : e ∈ log.events := by
  rw [log.events_eq]
  exact List.mem_append_right _ (List.mem_append_right _ he)

/-- What replay is seeded from and applies, with the levels of the fold. -/
structure Seeded (log : ArrivalLog target) (ingestEvents : List IngestEvent) (s : BookEvent)
    (after group : List BookEvent) : Prop where
  split : ∃ before, SeedSplit target .recvTime (latestResetBoundaryUs ingestEvents target)
    (sortBookEvents .recvTime log.events) before s after
  mem_group : ∀ e, e ∈ group ↔ e ∈ log.events ∧ e.kind = .snapshot ∧
    e.provenance.recvTimestampUs = s.provenance.recvTimestampUs ∧
    afterReset (latestResetBoundaryUs ingestEvents target) e.provenance.recvTimestampUs = true
  deltas : ∀ e ∈ after, e.kind = .delta
  content : writes (listedContent (eventLevels .bid group) (eventLevels .ask group))
      (after.map BookEvent.write) =
    writes (listedContent (eventLevels .bid log.last.records) (eventLevels .ask log.last.records))
      ((recordsOf log.after).map BookEvent.write)

/-- Where replay follows the order of arrival it has a seed. -/
theorem Follows.seeded (h : log.Follows assetId ingestEvents)
    (hadmits : c.AdmitsEvents log.events) :
    ∃ s after group, log.Seeded ingestEvents s after group := by
  have hlast : c.AdmitsEvents log.last.records := fun e he => hadmits e (mem_events_of_last he)
  have hafter : c.AdmitsEvents (recordsOf log.after) := fun e he =>
    hadmits e (mem_events_of_after he)
  obtain ⟨seeded, hseeded, hwithin, hcontent⟩ := applySnapshotEvents_within hlast
    (L2Book.new assetId) log.last.recvTimestampUs
  obtain ⟨book, hbook, hwrites⟩ : ∃ book,
      applyDeltas .recvTime seeded (recordsOf log.after) = .ok book ∧
        book.content = writes seeded.content ((recordsOf log.after).map BookEvent.write) :=
    applyDeltas_within hafter hwithin
  have hfolded : log.folded assetId = .ok book := by
    rw [folded, hseeded]
    exact hbook
  obtain ⟨r, hr, hlevels⟩ := h ⟨log.events, [], ingestEvents⟩ (.refl _) rfl book hfolded
  have hbooks := L2Book.content_eq_of_levels_eq hlevels
  rw [hwrites, hcontent] at hbooks
  have hnone : survivingCheckpoint (latestResetBoundaryUs ingestEvents target) none = none :=
    Option.filter_none _
  obtain ⟨before, s, after, hsplit⟩ := SeedSplit.exists_of_ok hnone hr
  have hdue : ∀ e ∈ after, eventOrderingTs .recvTime e ≤ target :=
    fun e he => log.due_of_mem (hsplit.mem_of_mem_after he)
  have hall : after.filter (fun e => eventOrderingTs .recvTime e ≤ target) = after :=
    List.filter_eq_self.mpr fun e he => decide_eq_true (hdue e he)
  have hsorted := sortBookEvents_sorted .recvTime log.events
  rw [hsplit.split, List.pairwise_append, List.pairwise_cons] at hsorted
  have hdeltas : ∀ e ∈ after, e.kind = .delta := by
    intro e he
    have hsince := afterReset_mono (hsorted.2.1.1 e he) (seedsAt_iff.mp hsplit.seeds).2.2
    exact hsplit.delta_of_mem_after he (hdue e he) hsince
  have hfiltered : ∀ e ∈ after.filter (fun e => eventOrderingTs .recvTime e ≤ target),
      e.kind = .delta := by rwa [hall]
  obtain ⟨r', hr', hreplay⟩ := @SeedSplit.reconstructBook_content target .recvTime none
    ⟨log.events, [], ingestEvents⟩ before after s c hsplit assetId hadmits hnone hfiltered
  rw [hall] at hreplay
  rw [hr, Except.ok.injEq] at hr'
  rw [← hr'] at hreplay
  refine ⟨s, after, snapshotGroupAt .recvTime (latestResetBoundaryUs ingestEvents target)
    (eventOrderingTs .recvTime s) (sortBookEvents .recvTime log.events), ⟨before, hsplit⟩, ?_,
    hdeltas, hreplay.symm.trans hbooks⟩
  intro e
  simp only [snapshotGroupAt, List.mem_filter, mem_sortBookEvents, Bool.and_eq_true,
    decide_eq_true_eq, and_assoc]
  exact Iff.rfl

namespace Seeded

variable {s : BookEvent} {after group : List BookEvent} (h : log.Seeded ingestEvents s after group)
include h

/-- The seed is the last record that could seed the book. -/
theorem le_seed {e : BookEvent} (he : e ∈ log.events) (hk : e.kind = .snapshot)
    (hsince : afterReset (latestResetBoundaryUs ingestEvents target)
      e.provenance.recvTimestampUs = true) :
    e.provenance.recvTimestampUs ≤ s.provenance.recvTimestampUs := by
  obtain ⟨before, hsplit⟩ := h.split
  have hle := hsplit.le_last he (seedsAt_iff.mpr ⟨hk, log.due_of_mem he, hsince⟩)
  have htimes := times_of_bookEventLe .recvTime hle
  simp only [eventOrderingTs] at htimes
  omega

/-- Replay starts from a snapshot of the log. -/
theorem seed_mem : s ∈ log.events ∧ s.kind = .snapshot := by
  obtain ⟨before, hsplit⟩ := h.split
  exact ⟨hsplit.mem_last, (seedsAt_iff.mp hsplit.seeds).1⟩

/-- What replay applies is in the log. -/
theorem after_mem {e : BookEvent} (he : e ∈ after) : e ∈ log.events := by
  obtain ⟨before, hsplit⟩ := h.split
  exact hsplit.mem_of_mem_after he

/-- What is applied is in the order of the clock, from the seed on. -/
theorem after_sorted :
    (∀ e ∈ after, s.provenance.recvTimestampUs ≤ e.provenance.recvTimestampUs) ∧
      after.Pairwise fun d e => d.provenance.recvTimestampUs ≤ e.provenance.recvTimestampUs := by
  obtain ⟨before, hsplit⟩ := h.split
  have hsorted := sortBookEvents_sorted .recvTime log.events
  rw [hsplit.split, List.pairwise_append, List.pairwise_cons] at hsorted
  exact hsorted.2.1

/-- What is later than the seed is applied. -/
theorem mem_after {e : BookEvent} (he : e ∈ log.events)
    (hlt : s.provenance.recvTimestampUs < e.provenance.recvTimestampUs) : e ∈ after := by
  obtain ⟨before, hsplit⟩ := h.split
  have hsorted := sortBookEvents_sorted .recvTime log.events
  rw [hsplit.split, List.pairwise_append] at hsorted
  have hmem : e ∈ sortBookEvents .recvTime log.events := (mem_sortBookEvents .recvTime).mpr he
  rw [hsplit.split] at hmem
  rcases List.mem_append.mp hmem with hbefore | hrest
  · exact absurd hlt (Nat.not_lt.mpr (hsorted.2.2 _ hbefore s List.mem_cons_self))
  · rcases List.mem_cons.mp hrest with rfl | hafter
    · exact absurd hlt (Nat.lt_irrefl _)
    · exact hafter

end Seeded

/-- The painted log has the painted records. -/
theorem events_painted (paint : BookEvent → Side × FixedPrice × FixedSize)
    (log : ArrivalLog target) :
    (log.painted paint).events = log.events.map (BookEvent.painted paint) :=
  recordsOf_painted_all paint log

/-- A record's painted form is in the painted log. -/
theorem mem_painted {paint : BookEvent → Side × FixedPrice × FixedSize} {e : BookEvent}
    (he : e ∈ log.events) : e.painted paint ∈ (log.painted paint).events := by
  rw [events_painted]
  exact List.mem_map_of_mem he

/-- Every record of the painted log was painted. -/
theorem exists_of_mem_painted {paint : BookEvent → Side × FixedPrice × FixedSize} {x : BookEvent}
    (hx : x ∈ (log.painted paint).events) : ∃ e ∈ log.events, e.painted paint = x := by
  rw [events_painted] at hx
  exact List.mem_map.mp hx

/-- What comes behind the last snapshot message is painted like the rest. -/
theorem after_painted (paint : BookEvent → Side × FixedPrice × FixedSize)
    (log : ArrivalLog target) : recordsOf (log.painted paint).after =
      (recordsOf log.after).map (BookEvent.painted paint) :=
  recordsOf_painted paint log.after

/-- A painted log stays within the capacity if its sizes are whole units. -/
theorem admits_painted {paint : BookEvent → Side × FixedPrice × FixedSize}
    (hsizes : ∀ e, ∃ units, (paint e).2.2 = Sample.size units) (log : ArrivalLog target) :
    (Capacity.uniform 1000000000 Capacity.thousand_fits).AdmitsEvents
      (log.painted paint).events := by
  refine admits_of_painted hsizes fun x hx => ?_
  obtain ⟨e, -, he⟩ := exists_of_mem_painted hx
  exact ⟨e, he⟩

/-- A record has one place in the log. -/
theorem not_mem_of_mem_before {e : BookEvent} (he : e ∈ recordsOf log.before) :
    e ∉ log.last.records ∧ e ∉ recordsOf log.after := by
  have hlogged := log.logged
  change log.events.Pairwise _ at hlogged
  rw [log.events_eq, List.pairwise_append] at hlogged
  constructor
  · intro hlast
    exact Nat.lt_irrefl _ (hlogged.2.2 e he e (List.mem_append_left _ hlast))
  · intro hafter
    exact Nat.lt_irrefl _ (hlogged.2.2 e he e (List.mem_append_right _ hafter))

/-- The last message lists one price, the other snapshots another. -/
def tellLast (log : ArrivalLog target) (e : BookEvent) : Side × FixedPrice × FixedSize :=
  (.bid,
    if e ∈ log.last.records then Sample.price 1
    else if e.kind = .snapshot then Sample.price 2
    else Sample.price 4,
    if e.kind = .snapshot then Sample.size 1 else Sample.size 0)

/-- Two level changes write one price, and the snapshots list another. -/
def tellTwo (d d' e : BookEvent) : Side × FixedPrice × FixedSize :=
  (.bid,
    if e.kind = .snapshot then Sample.price 1
    else if e = d ∨ e = d' then Sample.price 3
    else Sample.price 4,
    if e.kind = .snapshot then Sample.size 1
    else if e = d' then Sample.size 2
    else if e = d then Sample.size 1
    else Sample.size 0)

/-- The four prices of the paintings are told apart. -/
theorem price_ne : Sample.price 1 ≠ Sample.price 2 ∧ Sample.price 1 ≠ Sample.price 3 ∧
    Sample.price 1 ≠ Sample.price 4 ∧ Sample.price 2 ≠ Sample.price 4 ∧
    Sample.price 3 ≠ Sample.price 4 := by decide

/-- The three kinds of records that the painting tells apart. -/
theorem tellLast_cases (log : ArrivalLog target) (e : BookEvent) :
    (e ∈ log.last.records ∧ log.tellLast e = (.bid, Sample.price 1, Sample.size 1)) ∨
      (e ∉ log.last.records ∧ e.kind = .snapshot ∧
        log.tellLast e = (.bid, Sample.price 2, Sample.size 1)) ∨
      (e ∉ log.last.records ∧ e.kind = .delta ∧
        log.tellLast e = (.bid, Sample.price 4, Sample.size 0)) := by
  unfold tellLast
  by_cases hmem : e ∈ log.last.records
  · simp [hmem, log.snapshot_of_mem_last hmem]
  · cases hk : e.kind <;> simp [hmem]

/-- The painting's sizes are whole units. -/
theorem tellLast_size (log : ArrivalLog target) (e : BookEvent) :
    ∃ units, (log.tellLast e).2.2 = Sample.size units := by
  rcases log.tellLast_cases e with ⟨-, htold⟩ | ⟨-, -, htold⟩ | ⟨-, -, htold⟩
  · exact ⟨1, by rw [htold]⟩
  · exact ⟨1, by rw [htold]⟩
  · exact ⟨0, by rw [htold]⟩

/-- The last message's records have its price. -/
theorem tellLast_own {e : BookEvent} (he : e ∈ log.last.records) :
    log.tellLast e = (.bid, Sample.price 1, Sample.size 1) := by
  rcases log.tellLast_cases e with ⟨-, htold⟩ | ⟨hnot, -⟩ | ⟨hnot, -⟩
  · exact htold
  · exact absurd he hnot
  · exact absurd he hnot

/-- The other snapshots have a price of their own. -/
theorem tellLast_snapshot {e : BookEvent} (hnot : e ∉ log.last.records) (hk : e.kind = .snapshot) :
    log.tellLast e = (.bid, Sample.price 2, Sample.size 1) := by
  rcases log.tellLast_cases e with ⟨hin, -⟩ | ⟨-, -, htold⟩ | ⟨-, hdelta, -⟩
  · exact absurd hin hnot
  · exact htold
  · rw [hk] at hdelta
    cases hdelta

/-- A level change touches neither of the two prices told apart. -/
theorem tellLast_delta {e : BookEvent} (hk : e.kind = .delta) :
    ((e.painted log.tellLast).side, (e.painted log.tellLast).price) = (.bid, Sample.price 4) := by
  rcases log.tellLast_cases e with ⟨hmem, -⟩ | ⟨-, hk', -⟩ | ⟨-, -, htold⟩
  · rw [log.snapshot_of_mem_last hmem] at hk
    cases hk
  · rw [hk'] at hk
    cases hk
  · simp only [BookEvent.painted, htold]

section Last

variable {s : BookEvent} {after group : List BookEvent}
  (h : (log.painted log.tellLast).Seeded ingestEvents s after group)
include h

/-- The group that replay starts from lists what the last message lists. -/
theorem Seeded.told_iff {price : FixedPrice} (hprice : price ≠ Sample.price 4) :
    (∃ x ∈ group, x.side = .bid ∧ x.price = price ∧ x.size.isZero = false) ↔
      ∃ x ∈ (log.painted log.tellLast).last.records,
        x.side = .bid ∧ x.price = price ∧ x.size.isZero = false := by
  have hadmits := admits_painted log.tellLast_size log
  have hquiet : ∀ e : BookEvent, e.kind = .delta →
      ((e.painted log.tellLast).side, (e.painted log.tellLast).price) ≠ (Side.bid, price) := by
    intro e hk heq
    rw [tellLast_delta hk, Prod.mk.injEq] at heq
    exact hprice heq.2.symm
  have hafter : ∀ x ∈ after, (x.side, x.price) ≠ (Side.bid, price) := by
    intro x hx
    obtain ⟨e, -, rfl⟩ := exists_of_mem_painted (h.after_mem hx)
    exact hquiet e (h.deltas (e.painted log.tellLast) hx)
  have hafter' : ∀ x ∈ recordsOf (log.painted log.tellLast).after,
      (x.side, x.price) ≠ (Side.bid, price) := by
    intro x hx
    rw [after_painted] at hx
    obtain ⟨e, he, rfl⟩ := List.mem_map.mp hx
    exact hquiet e (log.delta_of_mem_after he)
  have hkey := congrFun h.content (.bid, price)
  rw [writes_of_no_write hafter, writes_of_no_write hafter'] at hkey
  have hgroupAdmits : (Capacity.uniform 1000000000 Capacity.thousand_fits).AdmitsEvents group :=
    fun x hx => hadmits x ((h.mem_group x).mp hx).1
  have hlastAdmits : (Capacity.uniform 1000000000 Capacity.thousand_fits).AdmitsEvents
      (log.painted log.tellLast).last.records := fun x hx => hadmits x (mem_events_of_last hx)
  rw [← listedContent_isSome_iff hgroupAdmits, ← listedContent_isSome_iff hlastAdmits, hkey]

/-- The seed has the time of the last message, for its price is there. -/
theorem Seeded.seed_eq_last : s.provenance.recvTimestampUs = log.last.recvTimestampUs ∧
    afterReset (latestResetBoundaryUs ingestEvents target) log.last.recvTimestampUs = true := by
  obtain ⟨first, hfirst⟩ := List.exists_mem_of_ne_nil _ log.last.nonempty
  obtain ⟨x, hx, -, hprice, -⟩ := (h.told_iff price_ne.2.2.1).mpr
    ⟨first.painted log.tellLast, List.mem_map_of_mem hfirst, by
      simp only [BookEvent.painted, tellLast_own hfirst]
      exact ⟨trivial, trivial, by decide⟩⟩
  obtain ⟨hmem, -, htime, hsince⟩ := (h.mem_group x).mp hx
  obtain ⟨e, -, rfl⟩ := exists_of_mem_painted hmem
  rcases log.tellLast_cases e with ⟨he, -⟩ | ⟨-, -, hother⟩ | ⟨-, -, hother⟩
  · have hrecv : (e.painted log.tellLast).provenance.recvTimestampUs =
        log.last.recvTimestampUs := log.last.received e he
    rw [hrecv] at htime hsince
    exact ⟨htime.symm, hsince⟩
  · simp only [BookEvent.painted, hother] at hprice
    exact absurd hprice.symm price_ne.1
  · simp only [BookEvent.painted, hother] at hprice
    exact absurd hprice.symm price_ne.2.2.1

end Last

/-- A snapshot message that arrived earlier has an earlier time, and the last one is not
before a reset. -/
theorem last_found (h : (log.painted log.tellLast).Follows assetId ingestEvents) :
    afterReset (latestResetBoundaryUs ingestEvents target) log.last.recvTimestampUs = true ∧
      ∀ m ∈ log.before, m.kind = .snapshot → m.recvTimestampUs < log.last.recvTimestampUs := by
  obtain ⟨s, after, group, hseeded⟩ := h.seeded (admits_painted log.tellLast_size log)
  obtain ⟨hseed, hlastSince⟩ := hseeded.seed_eq_last
  refine ⟨hlastSince, ?_⟩
  intro m hm hk
  by_contra hlate
  rw [Nat.not_lt] at hlate
  obtain ⟨e, he⟩ := List.exists_mem_of_ne_nil _ m.nonempty
  have hbefore : e ∈ recordsOf log.before := mem_recordsOf.mpr ⟨m, hm, he⟩
  have hek : e.kind = .snapshot := (m.kinds e he).trans hk
  have hmem : e.painted log.tellLast ∈ (log.painted log.tellLast).events :=
    mem_painted (mem_events_of_before hbefore)
  have hsince := afterReset_mono hlate hlastSince
  rw [← m.received e he] at hlate hsince
  have htime : e.provenance.recvTimestampUs = s.provenance.recvTimestampUs := by
    have hle : (e.painted log.tellLast).provenance.recvTimestampUs ≤
        s.provenance.recvTimestampUs := hseeded.le_seed hmem hek hsince
    change e.provenance.recvTimestampUs ≤ _ at hle
    rw [hseed] at hle ⊢
    exact Nat.le_antisymm hle hlate
  -- A second snapshot with that time shows its price too.
  have hother := tellLast_snapshot (not_mem_of_mem_before hbefore).1 hek
  obtain ⟨x, hx, -, hprice, -⟩ := (hseeded.told_iff price_ne.2.2.2.1).mp
    ⟨e.painted log.tellLast, (hseeded.mem_group _).mpr ⟨hmem, hek, htime, hsince⟩, by
      simp only [BookEvent.painted, hother]
      exact ⟨trivial, trivial, by decide⟩⟩
  obtain ⟨d, hd, rfl⟩ := List.mem_map.mp hx
  simp only [BookEvent.painted, tellLast_own hd] at hprice
  exact price_ne.1 hprice

/-- A snapshot has the price that tells nothing. -/
theorem tellTwo_snapshot {d d' e : BookEvent} (hk : e.kind = .snapshot) :
    tellTwo d d' e = (.bid, Sample.price 1, Sample.size 1) := by
  simp [tellTwo, hk]

/-- A level change that is neither of the two removes a level of its own. -/
theorem tellTwo_of_ne {d d' e : BookEvent} (hk : e.kind = .delta) (hne : e ≠ d) (hne' : e ≠ d') :
    tellTwo d d' e = (.bid, Sample.price 4, Sample.size 0) := by
  simp [tellTwo, hk, hne, hne']

/-- The second level change writes two units. -/
theorem tellTwo_second {d d' : BookEvent} (hk : d'.kind = .delta) :
    tellTwo d d' d' = (.bid, Sample.price 3, Sample.size 2) := by
  simp [tellTwo, hk]

/-- The first level change writes one unit. -/
theorem tellTwo_first {d d' : BookEvent} (hk : d.kind = .delta) (hne : d ≠ d') :
    tellTwo d d' d = (.bid, Sample.price 3, Sample.size 1) := by
  simp [tellTwo, hk, hne]

/-- Only the two level changes write the price that tells them apart. -/
theorem eq_of_told {d d' e : BookEvent} (h : (tellTwo d d' e).2.1 = Sample.price 3) :
    e = d ∨ e = d' := by
  by_contra hne
  rw [not_or] at hne
  cases hk : e.kind with
  | snapshot =>
      rw [tellTwo_snapshot hk] at h
      exact price_ne.2.1 h
  | delta =>
      rw [tellTwo_of_ne hk hne.1 hne.2] at h
      exact price_ne.2.2.2.2 h.symm

/-- One of the two level changes that no other follows decides the price. -/
theorem writes_told {d d' : BookEvent} {events : List BookEvent} {S : BookEvent → Prop}
    {R : BookEvent → BookEvent → Prop}
    (hfrom : ∀ x ∈ events, ∃ e, S e ∧ e.painted (tellTwo d d') = x) (hsorted : events.Pairwise R)
    {e : BookEvent} (hmem : e.painted (tellTwo d d') ∈ events)
    (htold : (tellTwo d d' e).2.1 = Sample.price 3)
    (hlast : ∀ e', S e' → e' = d ∨ e' = d' →
      e' = e ∨ ¬ R (e.painted (tellTwo d d')) (e'.painted (tellTwo d d'))) (f : BookContent) :
    writes f (events.map BookEvent.write) (.bid, Sample.price 3) =
      (tellTwo d d' e).2.2.stored := by
  rw [← htold]
  refine writes_eq_of_last (e := e.painted (tellTwo d d')) hsorted hmem ?_ f
  intro x hx hkey
  obtain ⟨e', hS, rfl⟩ := hfrom x hx
  have hprice : (tellTwo d d' e').2.1 = (tellTwo d d' e).2.1 := congrArg Prod.snd hkey
  rw [htold] at hprice
  rcases hlast e' hS (eq_of_told hprice) with rfl | hnot
  · exact Or.inl rfl
  · exact Or.inr hnot

/-- Without the two level changes nothing writes the price. -/
theorem writes_untold {d d' : BookEvent} {events : List BookEvent} {S : BookEvent → Prop}
    (hfrom : ∀ x ∈ events, ∃ e, S e ∧ e.painted (tellTwo d d') = x)
    (hnot : ∀ e, S e → ¬ (e = d ∨ e = d')) (f : BookContent) :
    writes f (events.map BookEvent.write) (.bid, Sample.price 3) = f (.bid, Sample.price 3) := by
  refine writes_of_no_write ?_ f
  intro x hx hkey
  obtain ⟨e, hS, rfl⟩ := hfrom x hx
  have hprice : (tellTwo d d' e).2.1 = Sample.price 3 := congrArg Prod.snd hkey
  exact hnot e hS (eq_of_told hprice)

/-- The painting's sizes are whole units. -/
theorem tellTwo_size (d d' e : BookEvent) :
    ∃ units, (tellTwo d d' e).2.2 = Sample.size units := by
  dsimp only [tellTwo]
  split_ifs
  · exact ⟨1, rfl⟩
  · exact ⟨2, rfl⟩
  · exact ⟨1, rfl⟩
  · exact ⟨0, rfl⟩

/-- Snapshots do not list the price that tells the two level changes apart. -/
theorem untold_snapshots (d d' : BookEvent) {events : List BookEvent}
    (hadmits : (Capacity.uniform 1000000000 Capacity.thousand_fits).AdmitsEvents events)
    (hfrom : ∀ x ∈ events, ∃ e : BookEvent, e.kind = .snapshot ∧ e.painted (tellTwo d d') = x) :
    listedContent (eventLevels .bid events) (eventLevels .ask events) (.bid, Sample.price 3) =
      none := by
  rw [← Option.not_isSome_iff_eq_none, listedContent_isSome_iff hadmits]
  rintro ⟨x, hx, -, hprice, -⟩
  obtain ⟨e, hk, rfl⟩ := hfrom x hx
  simp only [BookEvent.painted, tellTwo_snapshot hk] at hprice
  exact price_ne.2.1 hprice

/-- Where no earlier snapshot message is as late, the seed has the time of the last one. -/
theorem Seeded.seed_eq {paint : BookEvent → Side × FixedPrice × FixedSize} {s : BookEvent}
    {after group : List BookEvent} (h : (log.painted paint).Seeded ingestEvents s after group)
    (hsince :
      afterReset (latestResetBoundaryUs ingestEvents target) log.last.recvTimestampUs = true)
    (hearly : ∀ m ∈ log.before, m.kind = .snapshot →
      m.recvTimestampUs < log.last.recvTimestampUs) :
    s.provenance.recvTimestampUs = log.last.recvTimestampUs := by
  obtain ⟨first, hfirst⟩ := List.exists_mem_of_ne_nil _ log.last.nonempty
  have hrecv := log.last.received first hfirst
  have hle : log.last.recvTimestampUs ≤ s.provenance.recvTimestampUs := by
    rw [← hrecv] at hsince ⊢
    have hfirst' : first.painted paint ∈ (log.painted paint).events :=
      mem_painted (mem_events_of_last hfirst)
    have hkind : first.kind = .snapshot := log.snapshot_of_mem_last hfirst
    exact h.le_seed (e := first.painted paint) hfirst' hkind hsince
  obtain ⟨hs, hk⟩ := h.seed_mem
  obtain ⟨e, he, rfl⟩ := exists_of_mem_painted hs
  have hek : e.kind = .snapshot := hk
  rw [log.events_eq] at he
  rcases List.mem_append.mp he with he | he
  · obtain ⟨m, hm, hem⟩ := mem_recordsOf.mp he
    have hlt := hearly m hm ((m.kinds e hem).symm.trans hek)
    rw [← m.received e hem] at hlt
    exact absurd hlt (Nat.not_lt.mpr hle)
  · rcases List.mem_append.mp he with he | he
    · exact log.last.received e he
    · rw [log.delta_of_mem_after he] at hek
      cases hek

/-- What replay applies behind the last snapshot message: in the order of the clock,
and everything that is later than that message. -/
theorem two_told {d d' : BookEvent} (h : (log.painted (tellTwo d d')).Follows assetId ingestEvents)
    (hsince :
      afterReset (latestResetBoundaryUs ingestEvents target) log.last.recvTimestampUs = true)
    (hearly : ∀ m ∈ log.before, m.kind = .snapshot →
      m.recvTimestampUs < log.last.recvTimestampUs) :
    ∃ (applied : List BookEvent) (f g : BookContent),
      f (.bid, Sample.price 3) = none ∧ g (.bid, Sample.price 3) = none ∧
      applied.Pairwise (fun x y => x.provenance.recvTimestampUs ≤ y.provenance.recvTimestampUs) ∧
      (∀ x ∈ applied, ∃ e : BookEvent, log.last.recvTimestampUs ≤ e.provenance.recvTimestampUs ∧
        e.painted (tellTwo d d') = x) ∧
      (∀ e ∈ log.events, e.kind = .delta →
        log.last.recvTimestampUs < e.provenance.recvTimestampUs →
        e.painted (tellTwo d d') ∈ applied) ∧
      writes f (applied.map BookEvent.write) (.bid, Sample.price 3) =
        writes g ((recordsOf (log.painted (tellTwo d d')).after).map BookEvent.write)
          (.bid, Sample.price 3) := by
  have hadmits := admits_painted (tellTwo_size d d') log
  obtain ⟨s, after, group, hseeded⟩ := h.seeded hadmits
  have hseed := hseeded.seed_eq hsince hearly
  have hgroup : (Capacity.uniform 1000000000 Capacity.thousand_fits).AdmitsEvents group :=
    fun x hx => hadmits x ((hseeded.mem_group x).mp hx).1
  have hlast : (Capacity.uniform 1000000000 Capacity.thousand_fits).AdmitsEvents
      (log.painted (tellTwo d d')).last.records :=
    fun x hx => hadmits x (mem_events_of_last hx)
  refine ⟨after, _, _, untold_snapshots d d' hgroup ?_, untold_snapshots d d' hlast ?_,
    hseeded.after_sorted.2, ?_, ?_, congrFun hseeded.content _⟩
  · intro x hx
    obtain ⟨hmem, hk, -⟩ := (hseeded.mem_group x).mp hx
    obtain ⟨e, -, rfl⟩ := exists_of_mem_painted hmem
    exact ⟨e, hk, rfl⟩
  · intro x hx
    obtain ⟨e, he, rfl⟩ := List.mem_map.mp hx
    exact ⟨e, log.snapshot_of_mem_last he, rfl⟩
  · intro x hx
    obtain ⟨e, he, rfl⟩ := exists_of_mem_painted (hseeded.after_mem hx)
    refine ⟨e, ?_, rfl⟩
    rw [← hseed]
    exact hseeded.after_sorted.1 (e.painted (tellTwo d d')) hx
  · intro e he hk hlt
    rw [← hseed] at hlt
    exact hseeded.mem_after (mem_painted he) hlt

/-- Level changes behind the last snapshot message, as they are painted. -/
theorem after_told (d d' : BookEvent) : ∀ x ∈ recordsOf (log.painted (tellTwo d d')).after,
    ∃ e, e ∈ recordsOf log.after ∧ e.painted (tellTwo d d') = x := by
  intro x hx
  rw [after_painted] at hx
  exact List.mem_map.mp hx

/-- Painting keeps the order of the ordinals. -/
theorem after_ordinals (paint : BookEvent → Side × FixedPrice × FixedSize) :
    (recordsOf (log.painted paint).after).Pairwise fun d e => ordinalKey d < ordinalKey e := by
  have hlogged := (log.painted paint).logged
  change (log.painted paint).events.Pairwise _ at hlogged
  rw [ArrivalLog.events_eq, List.pairwise_append, List.pairwise_append] at hlogged
  exact hlogged.2.1.2.1

section Clock

variable (h : ∀ paint, (log.painted paint).Follows assetId ingestEvents)
  (hsince : afterReset (latestResetBoundaryUs ingestEvents target) log.last.recvTimestampUs = true)
  (hbefore : ∀ m ∈ log.before, m.kind = .snapshot → m.recvTimestampUs < log.last.recvTimestampUs)
include h hsince hbefore

/-- Otherwise there is a level change that replay leaves out. -/
theorem last_le_of_follows {n : LoggedMessage} (hn : n ∈ log.after) :
    log.last.recvTimestampUs ≤ n.recvTimestampUs := by
  by_contra hearly
  obtain ⟨d, hd⟩ := List.exists_mem_of_ne_nil _ n.nonempty
  have hmem : d ∈ recordsOf log.after := mem_recordsOf.mpr ⟨n, hn, hd⟩
  have htold := tellTwo_second (d := d) (log.delta_of_mem_after hmem)
  obtain ⟨applied, f, g, hf, -, -, hfrom, -, hcontent⟩ :=
    two_told (h (tellTwo d d)) hsince hbefore
  have hpainted : d.painted (tellTwo d d) ∈ recordsOf (log.painted (tellTwo d d)).after := by
    rw [after_painted]
    exact List.mem_map_of_mem hmem
  rw [writes_untold hfrom, hf, writes_told (after_told d d) (after_ordinals _) hpainted, htold]
    at hcontent
  · cases hcontent
  · rw [htold]
  · rintro e - (rfl | rfl)
    · exact Or.inl rfl
    · exact Or.inl rfl
  · rintro e hle (rfl | rfl)
    · rw [n.received e hd] at hle
      exact hearly hle
    · rw [n.received e hd] at hle
      exact hearly hle

/-- Otherwise there are two level changes that replay takes in the other order. -/
theorem after_pairwise_of_follows :
    log.after.Pairwise fun m n => m.recvTimestampUs ≤ n.recvTimestampUs := by
  have hordinals := log.logged
  change log.events.Pairwise _ at hordinals
  rw [log.events_eq, List.pairwise_append, List.pairwise_append] at hordinals
  refine (List.pairwise_flatMap.mp hordinals.2.1.2.1).2.imp_of_mem ?_
  intro m n hm hn hlogged
  by_contra hback
  rw [Nat.not_le] at hback
  obtain ⟨d, hd⟩ := List.exists_mem_of_ne_nil _ m.nonempty
  obtain ⟨d', hd'⟩ := List.exists_mem_of_ne_nil _ n.nonempty
  have hmem : d ∈ recordsOf log.after := mem_recordsOf.mpr ⟨m, hm, hd⟩
  have hmem' : d' ∈ recordsOf log.after := mem_recordsOf.mpr ⟨n, hn, hd'⟩
  have hlt := hlogged d hd d' hd'
  have hne : d ≠ d' := by
    rintro rfl
    exact Nat.lt_irrefl _ hlt
  have hfirst := tellTwo_first (log.delta_of_mem_after hmem) hne
  have hsecond := tellTwo_second (d := d) (log.delta_of_mem_after hmem')
  obtain ⟨applied, f, g, -, -, hsorted, hfrom, happlied, hcontent⟩ :=
    two_told (h (tellTwo d d')) hsince hbefore
  have hpainted : d'.painted (tellTwo d d') ∈ recordsOf (log.painted (tellTwo d d')).after := by
    rw [after_painted]
    exact List.mem_map_of_mem hmem'
  have hbehind : log.last.recvTimestampUs < d.provenance.recvTimestampUs := by
    rw [m.received d hd]
    exact Nat.lt_of_le_of_lt (last_le_of_follows h hsince hbefore hn) hback
  rw [writes_told hfrom hsorted
      (happlied d (mem_events_of_after hmem) (log.delta_of_mem_after hmem) hbehind),
    hfirst, writes_told (after_told d d') (after_ordinals _) hpainted, hsecond] at hcontent
  · exact absurd hcontent (by decide)
  · rw [hsecond]
  · rintro e - (rfl | rfl)
    · exact Or.inr (Nat.not_lt.mpr (Nat.le_of_lt hlt))
    · exact Or.inl rfl
  · rw [hfirst]
  · rintro e - (rfl | rfl)
    · exact Or.inl rfl
    · refine Or.inr (Nat.not_le.mpr ?_)
      simp only [BookEvent.painted, m.received d hd, n.received e hd']
      exact hback

/-- Otherwise there is a level change from before the snapshot that replay puts on top. -/
theorem le_last_of_follows {m : LoggedMessage} (hm : m ∈ log.before) :
    m.recvTimestampUs ≤ log.last.recvTimestampUs := by
  by_contra hlate
  rw [Nat.not_le] at hlate
  have hk : m.kind = .delta := by
    cases hk : m.kind with
    | delta => rfl
    | snapshot => exact absurd (hbefore m hm hk) (Nat.lt_asymm hlate)
  obtain ⟨d, hd⟩ := List.exists_mem_of_ne_nil _ m.nonempty
  have hmem : d ∈ recordsOf log.before := mem_recordsOf.mpr ⟨m, hm, hd⟩
  have hdelta := (m.kinds d hd).trans hk
  have htold := tellTwo_second (d := d) hdelta
  obtain ⟨applied, f, g, -, hg, hsorted, hfrom, happlied, hcontent⟩ :=
    two_told (h (tellTwo d d)) hsince hbefore
  rw [← m.received d hd] at hlate
  rw [writes_told hfrom hsorted (happlied d (mem_events_of_before hmem) hdelta hlate), htold,
    writes_untold (after_told d d), hg] at hcontent
  · cases hcontent
  · rintro e he (rfl | rfl)
    · exact (not_mem_of_mem_before hmem).2 he
    · exact (not_mem_of_mem_before hmem).2 he
  · rw [htold]
  · rintro e - (rfl | rfl)
    · exact Or.inl rfl
    · exact Or.inl rfl

end Clock

/-- **What replay in receive time needs of the clock.** -/
theorem inOrder_of_follows (h : ∀ paint, (log.painted paint).Follows assetId ingestEvents) :
    log.InOrder ingestEvents := by
  obtain ⟨hsince, hbefore⟩ := last_found (h log.tellLast)
  refine ⟨fun m hm => le_last_of_follows h hsince hbefore hm,
    fun m hm hk => Nat.ne_of_lt (hbefore m hm hk), List.pairwise_cons.mpr ⟨?_, ?_⟩, hsince⟩
  · exact fun n hn => last_le_of_follows h hsince hbefore hn
  · exact after_pairwise_of_follows h hsince hbefore

/-- The clock of a painted log is the log's. -/
theorem inOrder_painted {paint : BookEvent → Side × FixedPrice × FixedSize}
    (h : log.InOrder ingestEvents) : (log.painted paint).InOrder ingestEvents where
  early := by
    intro m hm
    obtain ⟨n, hn, rfl⟩ := List.mem_map.mp hm
    exact h.early n hn
  apart := by
    intro m hm hk
    obtain ⟨n, hn, rfl⟩ := List.mem_map.mp hm
    exact h.apart n hn hk
  late := by
    change ((log.last :: log.after).map (LoggedMessage.painted paint)).Pairwise _
    rw [List.pairwise_map]
    exact h.late
  sinceReset := h.sinceReset

/-- **Arrival order.**  Whatever levels the messages carry, replay in receive time follows
the order of arrival if and only if the clock does not step back where it matters. -/
theorem follows_iff_inOrder (log : ArrivalLog target) (assetId : AssetId)
    (ingestEvents : List IngestEvent) :
    (∀ paint, (log.painted paint).Follows assetId ingestEvents) ↔ log.InOrder ingestEvents :=
  ⟨inOrder_of_follows, fun h _ => follows_of_inOrder (inOrder_painted h)⟩

/-- The levels that were drained are among those. -/
theorem painted_level (log : ArrivalLog target) : log.painted BookEvent.level = log := by
  have hmessage : LoggedMessage.painted BookEvent.level = id := by
    funext m
    simp only [LoggedMessage.painted, BookEvent.painted_level, List.map_id_fun, id]
  cases log
  simp only [painted, hmessage, List.map_id_fun, id]

end ArrivalLog

/-- A message with one record. -/
def LoggedMessage.single (event : BookEvent) : LoggedMessage where
  kind := event.kind
  recvTimestampUs := event.provenance.recvTimestampUs
  records := [event]
  nonempty := List.cons_ne_nil event []
  kinds _ he := congrArg BookEvent.kind (List.mem_singleton.mp he)
  received _ he := congrArg (·.provenance.recvTimestampUs) (List.mem_singleton.mp he)

/-! A clock set back by a microsecond after a snapshot. -/
namespace SteppedBack

/-- The snapshot of the sample, received at 2000. -/
def snapshot : BookEvent := Sample.stamped 0 (Sample.level .snapshot "tok1" .bid 40 1 2000 "first")

/-- The level change of the sample, drained later and received earlier. -/
def delta : BookEvent := Sample.stamped 1 (Sample.level .delta "tok1" .bid 50 1 1999 "second")

/-- The messages of the sample in the order of their arrival. -/
def messages : List LoggedMessage := [.single snapshot, .single delta]

/-- The message after the snapshot is a level change. -/
theorem deltas : ∀ m ∈ [LoggedMessage.single delta], m.kind = .delta := by
  intro m hm
  rw [List.mem_singleton.mp hm]
  rfl

/-- The sample's records carry ordinals. -/
theorem stamped : ∀ e ∈ recordsOf messages, e.provenance.ingestOrdinal.isSome = true := by
  decide

/-- The sample's ordinals ascend. -/
theorem logged : (recordsOf messages).Pairwise fun d e => ordinalKey d < ordinalKey e := by decide

/-- The sample's messages are due at 2000. -/
theorem due : ∀ m ∈ messages, m.recvTimestampUs ≤ 2000 := by
  intro m hm
  rcases List.mem_cons.mp hm with rfl | hm
  · exact Nat.le_refl 2000
  · rw [List.mem_singleton.mp hm]
    exact Nat.le_succ 1999

/-- The log of the sample. -/
def log : ArrivalLog 2000 where
  before := []
  last := .single snapshot
  after := [.single delta]
  snapshot := rfl
  deltas := deltas
  stamped := stamped
  logged := logged
  due := due

end SteppedBack

/-- Replay drops a level change stamped a microsecond before the snapshot it followed. -/
theorem stepped_back_dropped :
    ¬ ∀ (target : Nat) (log : ArrivalLog target) (assetId : AssetId)
      (ingestEvents : List IngestEvent), log.Follows assetId ingestEvents := by
  intro hall
  have hboth : (SteppedBack.log.folded "tok1").toOption.map (fun book => book.bids.toList.length) =
      some 2 := by decide +kernel
  have hone : (reconstructBook "tok1" 2000 .recvTime none
      ⟨SteppedBack.log.events, [], []⟩).toOption.map (fun r => r.book.bids.toList.length) =
      some 1 := by decide +kernel
  cases hfolded : SteppedBack.log.folded "tok1" with
  | error err =>
      rw [hfolded] at hboth
      cases hboth
  | ok book =>
      obtain ⟨r, hr, hlevels⟩ := hall 2000 SteppedBack.log "tok1" []
        ⟨SteppedBack.log.events, [], []⟩ (.refl _) rfl book hfolded
      have hbids : r.book.bids = book.bids := congrArg Prod.fst hlevels
      rw [hfolded] at hboth
      rw [hr] at hone
      simp only [Except.toOption, Option.map_some, hbids, Option.some.injEq] at hboth hone
      omega

end PolyBook
