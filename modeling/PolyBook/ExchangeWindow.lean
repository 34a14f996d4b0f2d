import PolyBook.ArrivalOrder
import PolyBook.ReplayEngine

/-!
# Replay in exchange time and late records

In exchange time the target is an instant of the venue's clock, but the reader bounds
the window it reads by the receive clock.  An event dated before the target and received
after it is in the store and is not read.

A `PlainStore` is what is stored for an asset, without checkpoints and resets.
`seesDated_iff_receivedInTime` says which latencies are harmless whatever the levels are,
in windows that hold no more rows than the reader takes.
-/

namespace PolyBook

open Overwrite

/-- Stored records without a checkpoint of the asset and without a reset that concerns
it. -/
structure PlainStore (assetId : AssetId) where
  records : List PersistedRecord
  noCheckpoint : ∀ c, .checkpoint c ∈ records → c.assetId ≠ assetId
  noReset : ∀ e, .ingest e ∈ records → e.assetId.all (fun row => row = assetId) = true →
    e.kind.isContinuityReset = false

namespace PlainStore

variable {assetId : AssetId} (store : PlainStore assetId) (lookbackUs target : Nat)

/-- The asset's book events, as the reader sorts them. -/
def bookEvents : List BookEvent :=
  (store.records.filterMap (bookOf assetId)).insertionSort
    fun a b => readKeyLe a.provenance b.provenance

/-- The exchange time lies in the lookback window. -/
def dated (event : BookEvent) : Bool :=
  target - lookbackUs ≤ normalizedExchangeTs event && normalizedExchangeTs event ≤ target

/-- The receive time lies in the lookback window. -/
def received (event : BookEvent) : Bool :=
  target - lookbackUs ≤ event.provenance.recvTimestampUs &&
    event.provenance.recvTimestampUs ≤ target

/-- The events of the window's time. -/
def datedEvents : List BookEvent := store.bookEvents.filter (dated lookbackUs target)

/-- Events in exchange order, folded from the latest snapshot. -/
def FoldsTo (assetId : AssetId) (events : List BookEvent) (book : L2Book) : Prop :=
  ∃ before s after seeded, sortBookEvents .exchangeTime events = before ++ s :: after ∧
    s.kind = .snapshot ∧ (∀ e ∈ after, e.kind = .delta) ∧
    (L2Book.new assetId).applySnapshotEvents ((sortBookEvents .exchangeTime events).filter fun e =>
      e.kind = .snapshot && normalizedExchangeTs e = normalizedExchangeTs s)
      (normalizedExchangeTs s) = .ok seeded ∧
    applyDeltas .exchangeTime seeded after = .ok book

/-- The reconstruction reflects every event of its time. -/
def SeesDated : Prop :=
  ∀ book, FoldsTo assetId (store.datedEvents lookbackUs target) book →
    ∃ r, reconstructAt lookbackUs assetId target .exchangeTime store.records = .ok r ∧
      r.book.levels = book.levels

/-- Later by the venue's clock, or received later at the same instant of it. -/
def LaterThan (s e : BookEvent) : Prop :=
  normalizedExchangeTs s < normalizedExchangeTs e ∨
    normalizedExchangeTs s = normalizedExchangeTs e ∧
      s.provenance.recvTimestampUs < e.provenance.recvTimestampUs

/-- From the latest snapshot on, every event of the window's time was received in the
window. -/
def ReceivedInTime : Prop :=
  ∀ s ∈ store.datedEvents lookbackUs target, s.kind = .snapshot →
    (∀ t ∈ store.datedEvents lookbackUs target, t.kind = .snapshot → ¬ LaterThan s t) →
    ∀ e ∈ store.datedEvents lookbackUs target,
      e.kind = .snapshot ∧ normalizedExchangeTs e = normalizedExchangeTs s ∨ LaterThan s e →
      received lookbackUs target e = true

/-- Where the window's time has a snapshot, no dataset has more rows received in the window
than a read takes. -/
def Readable : Prop :=
  (∃ s ∈ store.datedEvents lookbackUs target, s.kind = .snapshot) →
    WindowFits assetId (target - lookbackUs) target store.records

variable {store lookbackUs target}

instance : Std.Total fun a b : BookEvent => readKeyLe a.provenance b.provenance := ⟨by
  intro a b
  rcases Nat.lt_trichotomy a.provenance.recvTimestampUs b.provenance.recvTimestampUs with
    hlt | heq | hgt
  · exact Or.inl (Or.inl hlt)
  · rcases Nat.le_total (a.provenance.sequence.getD 0) (b.provenance.sequence.getD 0) with
      hle | hge
    · exact Or.inl (Or.inr ⟨heq, hle⟩)
    · exact Or.inr (Or.inr ⟨heq.symm, hge⟩)
  · exact Or.inr (Or.inl hgt)⟩

instance : IsTrans BookEvent fun a b => readKeyLe a.provenance b.provenance := ⟨by
  rintro a b c (hab | ⟨hab, hle⟩) (hbc | ⟨hbc, hle'⟩)
  · exact Or.inl (hab.trans hbc)
  · exact Or.inl (hab.trans_eq hbc)
  · exact Or.inl (hab.trans_lt hbc)
  · exact Or.inr ⟨hab.trans hbc, Nat.le_trans hle hle'⟩⟩

/-- The engine sees what was received in the window, in exchange order. -/
theorem sort_window : sortBookEvents .exchangeTime
      (marketDataWindow assetId (target - lookbackUs) target store.records).bookEvents =
    (sortBookEvents .exchangeTime store.bookEvents).filter (received lookbackUs target) := by
  rw [marketDataWindow_bookEvents, ← sortBookEvents_filter, bookEvents,
    Sorting.filter_insertionSort]
  rfl

/-- No reset stands in the window. -/
theorem boundary_eq_none : latestResetBoundaryUs (marketDataWindow assetId (target - lookbackUs)
    target store.records).ingestEvents target = none :=
  marketDataWindow_boundary_eq_none store.noReset (target - lookbackUs) target

/-- The latest snapshot in exchange order, with the level changes behind it. -/
structure LatestSnapshot (events before : List BookEvent) (s : BookEvent)
    (after : List BookEvent) : Prop where
  split : sortBookEvents .exchangeTime events = before ++ s :: after
  kind : s.kind = .snapshot
  deltas : ∀ e ∈ after, e.kind = .delta

/-- The snapshots that share the exchange time of `s`. -/
def snapshotsAt (events : List BookEvent) (s : BookEvent) : List BookEvent :=
  (sortBookEvents .exchangeTime events).filter fun e =>
    e.kind = .snapshot && normalizedExchangeTs e = normalizedExchangeTs s

/-- The snapshots of a time are events. -/
theorem mem_of_mem_snapshotsAt {events : List BookEvent} {s e : BookEvent}
    (he : e ∈ snapshotsAt events s) : e ∈ events :=
  (mem_sortBookEvents .exchangeTime).mp (List.mem_filter.mp he).1

/-- A snapshot of the time is among them. -/
theorem mem_snapshotsAt {events : List BookEvent} {s e : BookEvent} (he : e ∈ events)
    (hk : e.kind = .snapshot) (hets : normalizedExchangeTs e = normalizedExchangeTs s) :
    e ∈ snapshotsAt events s := by
  refine List.mem_filter.mpr ⟨(mem_sortBookEvents .exchangeTime).mpr he, ?_⟩
  rw [hk, hets, decide_eq_true rfl, decide_eq_true rfl]
  rfl

namespace LatestSnapshot

variable {events before after : List BookEvent} {s e : BookEvent}

/-- Events with a snapshot have a latest one. -/
theorem exists_of_mem (he : e ∈ events) (hk : e.kind = .snapshot) :
    ∃ before s after, LatestSnapshot events before s after := by
  obtain ⟨before, s, after, hsplit, hs, hlast⟩ :
      ∃ before s after, sortBookEvents .exchangeTime events = before ++ s :: after ∧
        s.kind = .snapshot ∧ ∀ y ∈ after, ¬ y.kind = .snapshot :=
    exists_last ⟨e, (mem_sortBookEvents .exchangeTime).mpr he, hk⟩
  refine ⟨before, s, after, hsplit, hs, ?_⟩
  intro y hy
  cases hyk : y.kind with
  | delta => rfl
  | snapshot => exact absurd hyk (hlast y hy)

variable (h : LatestSnapshot events before s after)

include h

/-- The parts are of the events. -/
theorem mem (he : e ∈ before ++ s :: after) : e ∈ events := by
  rw [← h.split] at he
  exact (mem_sortBookEvents .exchangeTime).mp he

/-- The latest snapshot is one of the events. -/
theorem mem_snapshot : s ∈ events :=
  h.mem (List.mem_append_right _ List.mem_cons_self)

/-- What comes behind the latest snapshot is of the events. -/
theorem mem_of_mem_after (he : e ∈ after) : e ∈ events :=
  h.mem (List.mem_append_right _ (List.mem_cons_of_mem _ he))

/-- What sorts no later than the snapshot is no later than it. -/
theorem not_laterThan_of_mem_before (he : e ∈ before) : ¬ LaterThan s e := by
  have hsorted := sortBookEvents_pairwise .exchangeTime events
  rw [h.split, List.pairwise_append] at hsorted
  have hle := hsorted.2.2 e he s List.mem_cons_self
  simp only [eventOrderingTs] at hle
  unfold LaterThan
  omega

/-- The latest snapshot of sorted events is no earlier than any other. -/
theorem not_laterThan (he : e ∈ events) (hk : e.kind = .snapshot) : ¬ LaterThan s e := by
  rw [← mem_sortBookEvents .exchangeTime, h.split] at he
  rcases List.mem_append.mp he with hbefore | hrest
  · exact h.not_laterThan_of_mem_before hbefore
  · rcases List.mem_cons.mp hrest with rfl | hafter
    · unfold LaterThan
      omega
    · rw [h.deltas e hafter] at hk
      cases hk

/-- What is later than the snapshot is among the level changes behind it. -/
theorem mem_after (he : e ∈ events) (hlater : LaterThan s e) : e ∈ after := by
  rw [← mem_sortBookEvents .exchangeTime, h.split] at he
  rcases List.mem_append.mp he with hbefore | hrest
  · exact absurd hlater (h.not_laterThan_of_mem_before hbefore)
  · rcases List.mem_cons.mp hrest with rfl | hafter
    · unfold LaterThan at hlater
      omega
    · exact hafter

/-- A level change behind the snapshot is later, or has its two times. -/
theorem after_cases (he : e ∈ after) :
    LaterThan s e ∨ e.provenance.recvTimestampUs = s.provenance.recvTimestampUs := by
  have hsorted := sortBookEvents_pairwise .exchangeTime events
  rw [h.split, List.pairwise_append, List.pairwise_cons] at hsorted
  have hle := hsorted.2.1.1 e he
  simp only [eventOrderingTs] at hle
  unfold LaterThan
  omega

end LatestSnapshot

section Received

variable {before after rest : List BookEvent} {s e : BookEvent}

/-- The latest snapshot is found among all stored events too. -/
theorem exists_stored_split
    (hlast : LatestSnapshot (store.datedEvents lookbackUs target) before s after) :
    ∃ earlier rest, sortBookEvents .exchangeTime store.bookEvents = earlier ++ s :: rest ∧
      rest.filter (dated lookbackUs target) = after ∧
      ∀ e ∈ rest, normalizedExchangeTs s ≤ normalizedExchangeTs e := by
  have hstored := hlast.split
  rw [datedEvents, sortBookEvents_filter, List.filter_eq_append_iff] at hstored
  obtain ⟨earlier, later, hsorted, -, hlater⟩ := hstored
  obtain ⟨skipped, rest, rfl, -, -, hafter⟩ := List.filter_eq_cons_iff.mp hlater
  have horder := sortBookEvents_sorted .exchangeTime store.bookEvents
  rw [hsorted, List.pairwise_append, List.pairwise_append, List.pairwise_cons] at horder
  rw [← List.append_assoc] at hsorted
  exact ⟨earlier ++ skipped, rest, hsorted, hafter, horder.2.1.2.1.1⟩

/-- From a snapshot in the window on, an event's time is in the window until the target. -/
theorem dated_iff_due (hs : dated lookbackUs target s = true)
    (hle : normalizedExchangeTs s ≤ normalizedExchangeTs e) :
    dated lookbackUs target e = true ↔ eventOrderingTs .exchangeTime e ≤ target := by
  simp only [dated, Bool.and_eq_true, decide_eq_true_eq, eventOrderingTs] at hs ⊢
  omega

variable (h : store.ReceivedInTime lookbackUs target)
  (hlast : LatestSnapshot (store.datedEvents lookbackUs target) before s after)

include h hlast

/-- An event that is needed was received in the window. -/
theorem received_of_needed (he : e ∈ store.datedEvents lookbackUs target)
    (hneeded : e.kind = .snapshot ∧ normalizedExchangeTs e = normalizedExchangeTs s ∨
      LaterThan s e) : received lookbackUs target e = true :=
  h s hlast.mem_snapshot hlast.kind (fun _ ht hk => hlast.not_laterThan ht hk) e he hneeded

/-- The latest snapshot was received in the window. -/
theorem received_latest : received lookbackUs target s = true :=
  received_of_needed h hlast hlast.mem_snapshot (Or.inl ⟨hlast.kind, rfl⟩)

/-- What comes behind it was received in the window. -/
theorem received_after (he : e ∈ after) : received lookbackUs target e = true := by
  rcases hlast.after_cases he with hlater | hrecv
  · exact received_of_needed h hlast (hlast.mem_of_mem_after he) (Or.inr hlater)
  · rw [received, hrecv]
    exact received_latest h hlast

/-- The snapshot's group among the events received is the group among those dated. -/
theorem snapshotGroupAt_received :
    snapshotGroupAt .exchangeTime none (normalizedExchangeTs s)
      ((sortBookEvents .exchangeTime store.bookEvents).filter (received lookbackUs target)) =
        snapshotsAt (store.datedEvents lookbackUs target) s := by
  have hsdated : dated lookbackUs target s = true := (List.mem_filter.mp hlast.mem_snapshot).2
  rw [snapshotGroupAt, snapshotsAt, datedEvents, sortBookEvents_filter, List.filter_filter,
    List.filter_filter]
  apply List.filter_congr
  intro e he
  have hstored : e ∈ store.bookEvents := (mem_sortBookEvents .exchangeTime).mp he
  by_cases hsame : e.kind = .snapshot ∧ normalizedExchangeTs e = normalizedExchangeTs s
  · have hedated : dated lookbackUs target e = true := by
      simp only [dated, hsame.2]
      exact hsdated
    have hein := received_of_needed h hlast (List.mem_filter.mpr ⟨hstored, hedated⟩)
      (Or.inl hsame)
    rw [hedated, hein, Bool.and_true, Bool.and_true]
    exact Bool.and_true _
  · have hnot : (e.kind = .snapshot && normalizedExchangeTs e = normalizedExchangeTs s) =
        false := by
      rw [← Bool.not_eq_true, Bool.and_eq_true, decide_eq_true_eq, decide_eq_true_eq]
      exact hsame
    rw [eventOrderingTs, hnot, Bool.false_and, Bool.false_and, Bool.false_and]

/-- Behind the snapshot, what was received and is due is what is dated. -/
theorem due_received (hafter : rest.filter (dated lookbackUs target) = after)
    (hrest : ∀ e ∈ rest, normalizedExchangeTs s ≤ normalizedExchangeTs e) :
    (rest.filter (received lookbackUs target)).filter
      (fun e => eventOrderingTs .exchangeTime e ≤ target) = after := by
  have hsdated : dated lookbackUs target s = true := (List.mem_filter.mp hlast.mem_snapshot).2
  rw [← hafter, List.filter_filter]
  apply List.filter_congr
  intro e he
  have hdue := dated_iff_due hsdated (hrest e he)
  rw [Bool.eq_iff_iff, Bool.and_eq_true, decide_eq_true_eq, hdue, ← hdue]
  refine ⟨fun hboth => hboth.1, fun hdated => ⟨hdated, received_after h hlast ?_⟩⟩
  rw [← hafter]
  exact List.mem_filter.mpr ⟨he, hdated⟩

/-- The engine seeds from the same snapshot. -/
theorem seedSplit_received {earlier : List BookEvent}
    (hsorted : sortBookEvents .exchangeTime store.bookEvents = earlier ++ s :: rest)
    (hafter : rest.filter (dated lookbackUs target) = after)
    (hrest : ∀ e ∈ rest, normalizedExchangeTs s ≤ normalizedExchangeTs e) :
    SeedSplit target .exchangeTime (latestResetBoundaryUs
      (marketDataWindow assetId (target - lookbackUs) target store.records).ingestEvents target)
      (sortBookEvents .exchangeTime
        (marketDataWindow assetId (target - lookbackUs) target store.records).bookEvents)
      (earlier.filter (received lookbackUs target)) s
      (rest.filter (received lookbackUs target)) := by
  have hsdated : dated lookbackUs target s = true := (List.mem_filter.mp hlast.mem_snapshot).2
  have hsdue := (dated_iff_due hsdated (Nat.le_refl _)).mp hsdated
  rw [boundary_eq_none, sort_window, hsorted, List.filter_append, List.filter_cons,
    if_pos (received_latest h hlast)]
  refine ⟨rfl, seedsAt_iff.mpr ⟨hlast.kind, hsdue, rfl⟩, ?_⟩
  intro e he
  obtain ⟨hin, -⟩ := List.mem_filter.mp he
  by_contra hseeds
  rw [Bool.not_eq_false, seedsAt_iff] at hseeds
  have hedated := (dated_iff_due hsdated (hrest e hin)).mpr hseeds.2.1
  have hdelta := hlast.deltas e (hafter ▸ List.mem_filter.mpr ⟨hin, hedated⟩)
  rw [hdelta] at hseeds
  cases hseeds.1

end Received

/-- A window that fits is read and replayed. -/
theorem reconstructAt_of_fits
    (h : WindowFits assetId (target - lookbackUs) target store.records) (mode : ReplayMode) :
    reconstructAt lookbackUs assetId target mode store.records =
      reconstructBook assetId target mode none
        (marketDataWindow assetId (target - lookbackUs) target store.records) := by
  rw [reconstructAt_of_no_checkpoint store.noCheckpoint, readMarketData_of_fits h]
  rfl

/-- A window that does not fit is refused. -/
theorem windowFits_of_ok {mode : ReplayMode} {r : Reconstruction}
    (h : reconstructAt lookbackUs assetId target mode store.records = .ok r) :
    WindowFits assetId (target - lookbackUs) target store.records := by
  by_contra hfits
  rw [reconstructAt_of_no_checkpoint store.noCheckpoint, readMarketData_of_not_fits hfits] at h
  cases h

/-- **What was received in time is all that is needed**, where it can be read. -/
theorem seesDated_of_receivedInTime (h : store.ReceivedInTime lookbackUs target)
    (hreadable : store.Readable lookbackUs target) : store.SeesDated lookbackUs target := by
  rintro book ⟨before, s, after, seeded, hsplit, hk, hdeltas, hseeded, hbook⟩
  have hlast : LatestSnapshot (store.datedEvents lookbackUs target) before s after :=
    ⟨hsplit, hk, hdeltas⟩
  obtain ⟨earlier, rest, hsorted, hafter, hrest⟩ := exists_stored_split hlast
  have hseedSplit := seedSplit_received h hlast hsorted hafter hrest
  rw [← due_received h hlast hafter hrest] at hdeltas hbook
  have hnone : survivingCheckpoint (latestResetBoundaryUs
      (marketDataWindow assetId (target - lookbackUs) target store.records).ingestEvents target)
      none = none := Option.filter_none _
  have happlied : (L2Book.new assetId).applySnapshotEvents
      (snapshotGroupAt .exchangeTime (latestResetBoundaryUs
        (marketDataWindow assetId (target - lookbackUs) target store.records).ingestEvents target)
        (eventOrderingTs .exchangeTime s) (sortBookEvents .exchangeTime
          (marketDataWindow assetId (target - lookbackUs) target store.records).bookEvents))
      (eventOrderingTs .exchangeTime s) = .ok seeded := by
    rw [boundary_eq_none, sort_window, eventOrderingTs, snapshotGroupAt_received h hlast]
    exact hseeded
  obtain ⟨r, hr, hrbook⟩ := hseedSplit.reconstructBook_of_fold hnone hdeltas happlied hbook
  refine ⟨r, ?_, by rw [hrbook]⟩
  rw [reconstructAt_of_fits (hreadable ⟨s, hlast.mem_snapshot, hk⟩)]
  exact hr

end PlainStore

/-! ## Records received too late -/

/-- A book record with other levels, any other record as it is. -/
def PersistedRecord.painted (paint : BookEvent → Side × FixedPrice × FixedSize) :
    PersistedRecord → PersistedRecord
  | .book event => .book (event.painted paint)
  | record => record

/-- Painting a record paints the book event it may be. -/
theorem PersistedRecord.bookOf_painted (paint : BookEvent → Side × FixedPrice × FixedSize)
    (assetId : AssetId) (record : PersistedRecord) :
    bookOf assetId (record.painted paint) =
      (bookOf assetId record).map (BookEvent.painted paint) := by
  cases record with
  | book event =>
      by_cases hasset : event.assetId = assetId
      · simp [PersistedRecord.painted, bookOf, BookEvent.painted, hasset]
      · simp [PersistedRecord.painted, bookOf, BookEvent.painted, hasset]
  | _ => rfl

namespace PlainStore

variable {assetId : AssetId} {store : PlainStore assetId} {lookbackUs target : Nat}

/-- The same store with other levels. -/
def painted (store : PlainStore assetId) (paint : BookEvent → Side × FixedPrice × FixedSize) :
    PlainStore assetId where
  records := store.records.map (PersistedRecord.painted paint)
  noCheckpoint := by
    intro c hc
    obtain ⟨x, hx, heq⟩ := List.mem_map.mp hc
    cases x with
    | book event => cases heq
    | checkpoint c' =>
        cases heq
        exact store.noCheckpoint c hx
    | _ => cases heq
  noReset := by
    intro e he
    obtain ⟨x, hx, heq⟩ := List.mem_map.mp he
    cases x with
    | book event => cases heq
    | ingest e' =>
        cases heq
        exact store.noReset e hx
    | _ => cases heq

/-- The stored levels are among those. -/
theorem painted_level (store : PlainStore assetId) : store.painted BookEvent.level = store := by
  have hrecord : PersistedRecord.painted BookEvent.level = id := by
    funext x
    cases x with
    | book event => rw [PersistedRecord.painted, BookEvent.painted_level, id, id]
    | _ => rfl
  cases store
  simp only [painted, hrecord, List.map_id_fun, id]

/-- Painting changes no time and no asset, so as many rows are read. -/
theorem windowFits_painted (paint : BookEvent → Side × FixedPrice × FixedSize)
    (startUs endUs : Nat) : WindowFits assetId startUs endUs (store.painted paint).records ↔
      WindowFits assetId startUs endUs store.records := by
  have hbooks : (store.painted paint).records.filterMap (extractBookEvent assetId startUs endUs) =
      (store.records.filterMap (extractBookEvent assetId startUs endUs)).map
        (BookEvent.painted paint) := by
    rw [painted, List.filterMap_map, List.map_filterMap]
    refine List.filterMap_congr fun x _ => ?_
    cases x with
    | book event =>
        exact (apply_ite (Option.map (BookEvent.painted paint)) _ (some event) none).symm
    | _ => rfl
  have hother : ∀ {T : Type} (take : PersistedRecord → Option T),
      (∀ event, take (.book event) = none) →
      (store.painted paint).records.filterMap take = store.records.filterMap take := by
    intro T take htake
    rw [painted, List.filterMap_map]
    refine List.filterMap_congr fun x _ => ?_
    cases x <;> simp [PersistedRecord.painted, htake]
  constructor
  · rintro ⟨hbook, htrade, hingest⟩
    rw [hbooks, List.length_map] at hbook
    rw [hother _ fun _ => rfl] at htrade hingest
    exact ⟨hbook, htrade, hingest⟩
  · rintro ⟨hbook, htrade, hingest⟩
    refine ⟨?_, ?_, ?_⟩
    · rwa [hbooks, List.length_map]
    · rwa [hother _ fun _ => rfl]
    · rwa [hother _ fun _ => rfl]

/-- The book events of the painted store are the painted ones. -/
theorem mem_bookEvents_painted {paint : BookEvent → Side × FixedPrice × FixedSize}
    {x : BookEvent} : x ∈ (store.painted paint).bookEvents ↔
      ∃ e ∈ store.bookEvents, e.painted paint = x := by
  simp only [bookEvents, painted, List.mem_insertionSort, List.filterMap_map,
    List.mem_filterMap, Function.comp_apply, PersistedRecord.bookOf_painted, Option.map_eq_some_iff]
  constructor
  · rintro ⟨record, hrecord, e, he, rfl⟩
    exact ⟨e, ⟨record, hrecord, he⟩, rfl⟩
  · rintro ⟨e, ⟨record, hrecord, he⟩, rfl⟩
    exact ⟨record, hrecord, e, he, rfl⟩

/-- The dated events of the painted store are the painted ones. -/
theorem mem_datedEvents_painted {paint : BookEvent → Side × FixedPrice × FixedSize}
    {x : BookEvent} : x ∈ (store.painted paint).datedEvents lookbackUs target ↔
      ∃ e ∈ store.datedEvents lookbackUs target, e.painted paint = x := by
  simp only [datedEvents, List.mem_filter, mem_bookEvents_painted]
  constructor
  · rintro ⟨⟨e, he, rfl⟩, hdated⟩
    exact ⟨e, ⟨he, hdated⟩, rfl⟩
  · rintro ⟨e, ⟨he, hdated⟩, rfl⟩
    exact ⟨⟨e, he, rfl⟩, hdated⟩

/-- One event is told from all others by its price. -/
def tellOne (e x : BookEvent) : Side × FixedPrice × FixedSize :=
  (.bid, if x = e then Sample.price 3 else Sample.price 1, Sample.size 1)

/-- The event has the price that tells it. -/
theorem tellOne_self (e : BookEvent) :
    tellOne e e = (.bid, Sample.price 3, Sample.size 1) := by simp [tellOne]

/-- No other event has its price. -/
theorem eq_of_tellOne {e x : BookEvent}
    (h : (x.painted (tellOne e)).price = Sample.price 3) : x = e := by
  by_contra hne
  simp only [BookEvent.painted, tellOne, if_neg hne] at h
  exact ArrivalLog.price_ne.2.1 h

/-- Told levels stay within the capacity. -/
theorem admits_tellOne (e : BookEvent) {events : List BookEvent}
    (h : ∀ x ∈ events, x ∈ (store.painted (tellOne e)).bookEvents) :
    (Capacity.uniform 1000000000 Capacity.thousand_fits).AdmitsEvents events := by
  have hsizes : ∀ d, ∃ units, (tellOne e d).2.2 = Sample.size units := fun _ => ⟨1, rfl⟩
  refine admits_of_painted hsizes fun x hx => ?_
  obtain ⟨d, -, hd⟩ := mem_bookEvents_painted.mp (h x hx)
  exact ⟨d, hd⟩

/-- What the group lists or a level change behind it writes, the fold shows. -/
theorem isSome_of_told {e : BookEvent} {group after : List BookEvent}
    (hgroup : ∀ x ∈ group, x ∈ (store.painted (tellOne e)).bookEvents)
    (hafter : ∀ x ∈ after, x ∈ (store.painted (tellOne e)).bookEvents)
    (htold : e.painted (tellOne e) ∈ group ∨ e.painted (tellOne e) ∈ after) :
    (writes (listedContent (eventLevels .bid group) (eventLevels .ask group))
      (after.map BookEvent.write) (.bid, Sample.price 3)).isSome = true := by
  have hsize : (Sample.size 1).isZero = false := by decide
  rcases writes_cases (listedContent (eventLevels .bid group) (eventLevels .ask group)) after
      (.bid, Sample.price 3) with ⟨hsame, hunwritten⟩ | ⟨xs, y, ys, rfl, -, -, hlast⟩
  · rw [hsame, listedContent_isSome_iff (admits_tellOne e hgroup)]
    rcases htold with hin | hin
    · refine ⟨e.painted (tellOne e), hin, rfl, ?_, ?_⟩
      · simp only [BookEvent.painted, tellOne_self]
      · simp only [BookEvent.painted, tellOne_self, hsize]
    · refine absurd ?_ (hunwritten _ hin)
      simp only [BookEvent.painted, tellOne_self]
  -- Every event writes a size, so the last write of the price leaves one.
  · rw [hlast]
    obtain ⟨x, -, rfl⟩ := mem_bookEvents_painted.mp
      (hafter y (List.mem_append_right _ List.mem_cons_self))
    simp only [BookEvent.painted, tellOne]
    decide

/-- The latest snapshot stays the latest, whatever the levels are. -/
theorem LatestSnapshot.times_eq {paint : BookEvent → Side × FixedPrice × FixedSize}
    {before after : List BookEvent} {s t : BookEvent}
    (h : LatestSnapshot ((store.painted paint).datedEvents lookbackUs target) before
      (t.painted paint) after)
    (ht : t ∈ store.datedEvents lookbackUs target)
    (hs : s ∈ store.datedEvents lookbackUs target) (hk : s.kind = .snapshot)
    (hlatest : ∀ t ∈ store.datedEvents lookbackUs target, t.kind = .snapshot →
      ¬ LaterThan s t) :
    normalizedExchangeTs t = normalizedExchangeTs s ∧
      t.provenance.recvTimestampUs = s.provenance.recvTimestampUs := by
  have hpainted : s.painted paint ∈ (store.painted paint).datedEvents lookbackUs target :=
    mem_datedEvents_painted.mpr ⟨s, hs, rfl⟩
  have hnotLater : ¬ LaterThan (t.painted paint) (s.painted paint) :=
    h.not_laterThan hpainted hk
  change ¬ LaterThan t s at hnotLater
  have hnotEarlier := hlatest t ht h.kind
  unfold LaterThan at hnotLater hnotEarlier
  omega

/-- What the fold needs from the latest snapshot on, it shows. -/
theorem fold_shows {s e : BookEvent} (hs : s ∈ store.datedEvents lookbackUs target)
    (hk : s.kind = .snapshot)
    (hlatest : ∀ t ∈ store.datedEvents lookbackUs target, t.kind = .snapshot → ¬ LaterThan s t)
    (he : e ∈ store.datedEvents lookbackUs target)
    (hneeded : e.kind = .snapshot ∧ normalizedExchangeTs e = normalizedExchangeTs s ∨
      LaterThan s e) :
    ∃ book, FoldsTo assetId ((store.painted (tellOne e)).datedEvents lookbackUs target) book ∧
      (book.content (.bid, Sample.price 3)).isSome = true := by
  obtain ⟨before, s', after, hlast⟩ := LatestSnapshot.exists_of_mem
    (mem_datedEvents_painted.mpr ⟨s, hs, rfl⟩ : s.painted (tellOne e) ∈
      (store.painted (tellOne e)).datedEvents lookbackUs target) hk
  obtain ⟨t, ht, rfl⟩ := mem_datedEvents_painted.mp hlast.mem_snapshot
  obtain ⟨hets, hrecv⟩ := hlast.times_eq ht hs hk hlatest
  have hepainted : e.painted (tellOne e) ∈
      (store.painted (tellOne e)).datedEvents lookbackUs target :=
    mem_datedEvents_painted.mpr ⟨e, he, rfl⟩
  have hgroup : ∀ x ∈ snapshotsAt ((store.painted (tellOne e)).datedEvents lookbackUs target)
      (t.painted (tellOne e)), x ∈ (store.painted (tellOne e)).bookEvents :=
    fun x hx => (List.mem_filter.mp (mem_of_mem_snapshotsAt hx)).1
  have hafter : ∀ x ∈ after, x ∈ (store.painted (tellOne e)).bookEvents :=
    fun x hx => (List.mem_filter.mp (hlast.mem_of_mem_after hx)).1
  have htold : e.painted (tellOne e) ∈ snapshotsAt
      ((store.painted (tellOne e)).datedEvents lookbackUs target) (t.painted (tellOne e)) ∨
        e.painted (tellOne e) ∈ after := by
    rcases hneeded with ⟨hek, hsame⟩ | hlater
    · exact Or.inl (mem_snapshotsAt hepainted hek (hsame.trans hets.symm))
    · have hlater' : LaterThan t e := by
        unfold LaterThan at hlater ⊢
        rw [hets, hrecv]
        exact hlater
      exact Or.inr (hlast.mem_after hepainted hlater')
  obtain ⟨seeded, hseeded, hwithin, hcontent⟩ := applySnapshotEvents_within
    (admits_tellOne e hgroup) (L2Book.new assetId)
    (normalizedExchangeTs (t.painted (tellOne e)))
  obtain ⟨book, hbook, hwrites⟩ : ∃ book, applyDeltas .exchangeTime seeded after = .ok book ∧
      book.content = writes seeded.content (after.map BookEvent.write) :=
    applyDeltas_within (admits_tellOne e hafter) hwithin
  refine ⟨book, ⟨before, t.painted (tellOne e), after, seeded, hlast.split, hlast.kind,
    hlast.deltas, hseeded, hbook⟩, ?_⟩
  rw [hwrites, hcontent]
  exact isSome_of_told hgroup hafter htold

/-- What the engine shows, it has received. -/
theorem received_of_shown {e : BookEvent} {r : Reconstruction}
    (h : reconstructAt lookbackUs assetId target .exchangeTime
      (store.painted (tellOne e)).records = .ok r)
    (hshown : (r.book.content (.bid, Sample.price 3)).isSome = true) :
    received lookbackUs target e = true := by
  rw [reconstructAt_of_fits (windowFits_of_ok h)] at h
  have hnone : survivingCheckpoint (latestResetBoundaryUs (marketDataWindow assetId
      (target - lookbackUs) target (store.painted (tellOne e)).records).ingestEvents target)
      none = none := Option.filter_none _
  obtain ⟨before, s, after, hsplit⟩ := SeedSplit.exists_of_ok hnone h
  have hmem : ∀ x ∈ sortBookEvents .exchangeTime (marketDataWindow assetId (target - lookbackUs)
      target (store.painted (tellOne e)).records).bookEvents,
      x ∈ (store.painted (tellOne e)).bookEvents ∧ received lookbackUs target x = true := by
    intro x hx
    rw [sort_window, List.mem_filter, mem_sortBookEvents] at hx
    exact hx
  -- What is shown at the price is there through the event itself.
  have hone : ∀ x ∈ sortBookEvents .exchangeTime (marketDataWindow assetId (target - lookbackUs)
      target (store.painted (tellOne e)).records).bookEvents, x.price = Sample.price 3 →
      received lookbackUs target e = true := by
    intro x hx hprice
    obtain ⟨hin, hreceived⟩ := hmem x hx
    obtain ⟨d, -, rfl⟩ := mem_bookEvents_painted.mp hin
    rw [eq_of_tellOne hprice] at hreceived
    exact hreceived
  have hwindow : ∀ x ∈ (marketDataWindow assetId (target - lookbackUs) target
      (store.painted (tellOne e)).records).bookEvents, x ∈ (store.painted (tellOne e)).bookEvents :=
    fun x hx => (hmem x ((mem_sortBookEvents .exchangeTime).mpr hx)).1
  have hdeltas : ∀ x ∈ after.filter (fun x => eventOrderingTs .exchangeTime x ≤ target),
      x.kind = .delta := by
    intro x hx
    obtain ⟨hin, hdue⟩ := List.mem_filter.mp hx
    have hsince : afterReset (latestResetBoundaryUs (marketDataWindow assetId
        (target - lookbackUs) target (store.painted (tellOne e)).records).ingestEvents target)
        x.provenance.recvTimestampUs = true := by
      rw [boundary_eq_none]
      rfl
    exact hsplit.delta_of_mem_after hin (of_decide_eq_true hdue) hsince
  obtain ⟨r', hr', hcontent⟩ := hsplit.reconstructBook_content assetId
    (admits_tellOne e hwindow) hnone hdeltas
  rw [h, Except.ok.injEq] at hr'
  rw [hr', hcontent] at hshown
  rcases writes_cases (listedContent _ _)
    (after.filter fun x => eventOrderingTs .exchangeTime x ≤ target) (.bid, Sample.price 3) with
    ⟨hsame, -⟩ | ⟨xs, y, ys, hys, hkey, -⟩
  · have hgroup : (Capacity.uniform 1000000000 Capacity.thousand_fits).AdmitsEvents
        (snapshotGroupAt .exchangeTime (latestResetBoundaryUs (marketDataWindow assetId
          (target - lookbackUs) target (store.painted (tellOne e)).records).ingestEvents target)
          (eventOrderingTs .exchangeTime s) (sortBookEvents .exchangeTime (marketDataWindow assetId
            (target - lookbackUs) target (store.painted (tellOne e)).records).bookEvents)) :=
      admits_tellOne e fun x hx => (hmem x (List.mem_filter.mp hx).1).1
    rw [hsame, listedContent_isSome_iff hgroup] at hshown
    obtain ⟨x, hx, -, hprice, -⟩ := hshown
    exact hone x (List.mem_filter.mp hx).1 hprice
  · have hin : y ∈ after.filter fun x => eventOrderingTs .exchangeTime x ≤ target := by
      rw [hys]
      exact List.mem_append_right _ List.mem_cons_self
    refine hone y ?_ (congrArg Prod.snd hkey)
    rw [hsplit.split]
    exact List.mem_append_right _ (List.mem_cons_of_mem _ (List.mem_filter.mp hin).1)

/-- A snapshot dated in the window stands for a fold, so the window is read. -/
theorem readable_of_seesDated (h : ∀ paint, (store.painted paint).SeesDated lookbackUs target) :
    store.Readable lookbackUs target := by
  rintro ⟨e, he, hk⟩
  obtain ⟨before, s, after, hlast⟩ := LatestSnapshot.exists_of_mem he hk
  obtain ⟨book, hfolds, -⟩ := fold_shows hlast.mem_snapshot hlast.kind
    (fun _ ht hkt => hlast.not_laterThan ht hkt) hlast.mem_snapshot (Or.inl ⟨hlast.kind, rfl⟩)
  obtain ⟨r, hr, -⟩ := h (tellOne s) book hfolds
  exact (windowFits_painted _ _ _).mp (windowFits_of_ok hr)

/-- **What exchange time needs of the receive clock.** -/
theorem receivedInTime_of_seesDated
    (h : ∀ paint, (store.painted paint).SeesDated lookbackUs target) :
    store.ReceivedInTime lookbackUs target := by
  intro s hs hk hlatest e he hneeded
  obtain ⟨book, hfolds, hshown⟩ := fold_shows hs hk hlatest he hneeded
  obtain ⟨r, hr, hlevels⟩ := h (tellOne e) book hfolds
  rw [← L2Book.content_eq_of_levels_eq hlevels] at hshown
  exact received_of_shown hr hshown

/-- What was received when does not depend on the levels. -/
theorem receivedInTime_painted {paint : BookEvent → Side × FixedPrice × FixedSize}
    (h : store.ReceivedInTime lookbackUs target) :
    (store.painted paint).ReceivedInTime lookbackUs target := by
  intro s hs hk hlatest e he hneeded
  obtain ⟨s', hs', rfl⟩ := mem_datedEvents_painted.mp hs
  obtain ⟨e', he', rfl⟩ := mem_datedEvents_painted.mp he
  refine h s' hs' hk ?_ e' he' hneeded
  intro t ht htk
  exact hlatest (t.painted paint) (mem_datedEvents_painted.mpr ⟨t, ht, rfl⟩) htk

/-- How much is read does not depend on the levels. -/
theorem readable_painted {paint : BookEvent → Side × FixedPrice × FixedSize}
    (h : store.Readable lookbackUs target) : (store.painted paint).Readable lookbackUs target := by
  rintro ⟨s, hs, hk⟩
  obtain ⟨s', hs', rfl⟩ := mem_datedEvents_painted.mp hs
  exact (windowFits_painted paint _ _).mpr (h ⟨s', hs', hk⟩)

end PlainStore

/-- **Exchange time.**  Whatever levels are stored, the reconstruction reflects every event
of its time if and only if those from the latest snapshot on were received in the window, and
what was received in it is not too much to be read. -/
theorem seesDated_iff_receivedInTime {assetId : AssetId} (store : PlainStore assetId)
    (lookbackUs target : Nat) :
    (∀ paint, (store.painted paint).SeesDated lookbackUs target) ↔
      store.ReceivedInTime lookbackUs target ∧ store.Readable lookbackUs target :=
  ⟨fun h => ⟨PlainStore.receivedInTime_of_seesDated h, PlainStore.readable_of_seesDated h⟩,
    fun ⟨hreceived, hreadable⟩ _ => PlainStore.seesDated_of_receivedInTime
      (PlainStore.receivedInTime_painted hreceived) (PlainStore.readable_painted hreadable)⟩

/-! A level change dated in the window, received after it. -/
namespace LateDelta

/-- The snapshot of the sample. -/
def snapshot : BookEvent := Sample.level .snapshot "tok1" .bid 40 1 1000 "first"

/-- The level change of the sample, dated 1500 and received at 2500. -/
def delta : BookEvent :=
  { Sample.level .delta "tok1" .bid 50 1 2500 "second" with
    provenance := { Sample.provenance 2500 "second" with exchangeTimestampUs := 1500 } }

/-- The stored records of the sample. -/
def records : List PersistedRecord := [.book snapshot, .book delta]

/-- The sample has no checkpoint. -/
theorem noCheckpoint : ∀ c, .checkpoint c ∈ records → c.assetId ≠ "tok1" := by
  intro c hc
  simp [records] at hc

/-- The sample has no reset. -/
theorem noReset : ∀ e, .ingest e ∈ records →
    e.assetId.all (fun row => row = "tok1") = true → e.kind.isContinuityReset = false := by
  intro e he
  simp [records] at he

/-- The store of the sample. -/
def store : PlainStore "tok1" := ⟨records, noCheckpoint, noReset⟩

/-- The sample's events in exchange time. -/
theorem sorted : sortBookEvents .exchangeTime (store.datedEvents defaultLookbackUs 2000) =
    [snapshot, delta] := by decide +kernel

/-- The fold shows both levels. -/
theorem foldsTo : ∃ book, PlainStore.FoldsTo "tok1"
    (store.datedEvents defaultLookbackUs 2000) book ∧ book.bids.toList.length = 2 := by
  have htwo : (((L2Book.new "tok1").applySnapshotEvents [snapshot] 1000).bind fun seeded =>
      applyDeltas .exchangeTime seeded [delta]).toOption.map (fun book => book.bids.toList.length) =
        some 2 := by decide +kernel
  have hgroup : [snapshot, delta].filter (fun e => e.kind = .snapshot &&
      normalizedExchangeTs e = normalizedExchangeTs snapshot) = [snapshot] := by decide
  have hdelta : ∀ e ∈ [delta], e.kind = .delta := by decide
  cases hseeded : (L2Book.new "tok1").applySnapshotEvents [snapshot] 1000 with
  | error err =>
      rw [hseeded] at htwo
      cases htwo
  | ok seeded =>
      rw [hseeded] at htwo
      cases hbook : applyDeltas .exchangeTime seeded [delta] with
      | error err =>
          simp only [Except.bind, hbook] at htwo
          cases htwo
      | ok book =>
          simp only [Except.bind, hbook, Except.toOption, Option.map_some,
            Option.some.injEq] at htwo
          refine ⟨book, ⟨[], snapshot, [delta], seeded, sorted, rfl, hdelta, ?_, hbook⟩, htwo⟩
          rw [sorted, hgroup]
          exact hseeded

end LateDelta

/-- The sample's reconstruction leaves the level change out. -/
theorem late_delta_missed :
    ¬ ∀ (assetId : AssetId) (store : PlainStore assetId) (lookbackUs target : Nat),
      store.SeesDated lookbackUs target := by
  intro hall
  obtain ⟨book, hfolds, htwo⟩ := LateDelta.foldsTo
  obtain ⟨r, hr, hlevels⟩ := hall "tok1" LateDelta.store defaultLookbackUs 2000 book hfolds
  have hone : (reconstructAt defaultLookbackUs "tok1" 2000 .exchangeTime
      LateDelta.store.records).toOption.map (fun r => r.book.bids.toList.length) = some 1 := by
    decide +kernel
  have hbids : r.book.bids = book.bids := congrArg Prod.fst hlevels
  rw [hr] at hone
  simp only [Except.toOption, Option.map_some, hbids, Option.some.injEq] at hone
  omega

end PolyBook
