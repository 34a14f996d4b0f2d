import PolyBook.Book
import Mathlib.Data.List.Sort

/-!
# Historical reconstruction

The batch counterpart of the live model: read a window of stored events, sort
the book events into a total order, seed the book from a checkpoint or from the
latest snapshot group, and fold the rest up to the target time.

`readMarketData` is what the Parquet reader returns for one asset: its book
events, its trades, and the ingest events of the asset together with the feed-wide
ones.  It refuses a dataset with too many rows in the window (`WindowFits`).
-/

namespace PolyBook

/-- `MAX_PARQUET_DATASET_ROWS`. -/
def maxParquetDatasetRows : Nat := 500000

/-- The text of the refusal of a read that is too large. -/
def tooManyRowsText : String :=
  "Parquet read exceeds " ++ toString maxParquetDatasetRows ++
    " rows per dataset; narrow the requested time window"

/-- The errors a replay meets here: of the book, of the seed, and of a read. -/
inductive ReplayError where
  | bookError (err : BookError)
  | noSnapshotFound (assetId : String) (timestampUs : Nat)
  | other (message : String)
  deriving DecidableEq, Repr

/-- A read was too large. -/
def ReplayError.tooManyRows : ReplayError := .other tooManyRowsText

/-- `ReplayError`'s `Display` text. -/
def ReplayError.display : ReplayError → String
  | .bookError err => "book reconstruction error: " ++ err.display
  | .noSnapshotFound assetId timestampUs =>
      "replay " ++ assetId ++ ": no snapshot found before " ++ toString timestampUs ++
        "us — lookback window may be too narrow"
  | .other message => message

/-- What `reconstruct_book` returns. -/
structure Reconstruction where
  book : L2Book
  continuityEvents : List IngestEvent
  usedCheckpoint : Bool

section Ordering

variable (mode : ReplayMode)

/-- A missing exchange timestamp falls back to the receive time. -/
def normalizedExchangeTs (event : BookEvent) : Nat :=
  if event.provenance.exchangeTimestampUs = 0 then event.provenance.recvTimestampUs
  else event.provenance.exchangeTimestampUs

/-- An event's time in the active clock domain. -/
def eventOrderingTs (event : BookEvent) : Nat :=
  match mode with
  | .recvTime => event.provenance.recvTimestampUs
  | .exchangeTime => normalizedExchangeTs event

/-- Primary and secondary ordering timestamps. -/
def orderingKeys (event : BookEvent) : Nat × Nat :=
  match mode with
  | .recvTime => (event.provenance.recvTimestampUs, 0)
  | .exchangeTime => (normalizedExchangeTs event, event.provenance.recvTimestampUs)

/-- The rank of a side in the replay order. -/
def sideRank : Side → Nat
  | .bid => 0
  | .ask => 1

/-- The comparator of `sort_book_events`: clock times, then the ingest ordinal,
then content. -/
def compareBookEvents : BookEvent → BookEvent → Ordering :=
  compareLex (compareOn fun e => (orderingKeys mode e).1) <|
  compareLex (compareOn fun e => (orderingKeys mode e).2) <|
  compareLex (compareOn fun e => e.provenance.ingestOrdinal.getD u64Max) <|
  compareLex (compareOn fun e => e.provenance.sequence.getD 0) <|
  compareLex (compareOn fun e => sideRank e.side) <|
  compareLex (compareOn fun e => e.price.raw) <|
  compareLex (compareOn fun e => e.size.raw) <|
  compareOn fun e => e.provenance.sourceEventId

/-- `a` may stand before `b`. -/
def bookEventLe (a b : BookEvent) : Prop := (compareBookEvents mode a b).isLE = true

instance : DecidableRel (bookEventLe mode) := fun a b =>
  inferInstanceAs (Decidable ((compareBookEvents mode a b).isLE = true))

instance : Std.TransCmp (compareBookEvents mode) := by
  unfold compareBookEvents
  infer_instance

instance : Std.Total (bookEventLe mode) := ⟨fun a b => by
  unfold bookEventLe
  have hswap : compareBookEvents mode b a = (compareBookEvents mode a b).swap :=
    Std.OrientedCmp.eq_swap
  rw [hswap]
  cases compareBookEvents mode a b <;> simp⟩

instance : IsTrans BookEvent (bookEventLe mode) :=
  ⟨fun _ _ _ hab hbc => Std.TransCmp.isLE_trans hab hbc⟩

/-- A stable sort by the comparator. -/
def sortBookEvents (events : List BookEvent) : List BookEvent :=
  events.insertionSort (bookEventLe mode)

end Ordering

/-- A stable sort by a natural-number key. -/
def sortByKey {α : Type} (key : α → Nat) (events : List α) : List α :=
  events.insertionSort fun a b => key a ≤ key b

/-- The latest continuity reset no later than the target. -/
def latestResetBoundaryUs (events : List IngestEvent) (targetTimestampUs : Nat) : Option Nat :=
  ((events.filter fun event =>
    event.kind.isContinuityReset && event.provenance.recvTimestampUs ≤ targetTimestampUs).map
    fun event => event.provenance.recvTimestampUs).max?

/-- At or after the reset boundary, when there is one. -/
def afterReset (resetBoundaryUs : Option Nat) (recvTimestampUs : Nat) : Bool :=
  resetBoundaryUs.all fun resetTs => resetTs ≤ recvTimestampUs

/-- `Iterator::rposition`: the index of the last element that passes. -/
def rposition {α : Type} (p : α → Bool) : List α → Option Nat
  | [] => none
  | x :: xs =>
      match rposition p xs with
      | some n => some (n + 1)
      | none => if p x then some 0 else none

/-- A checkpoint's time in the active clock domain. -/
def checkpointOrderingTs (checkpoint : BookCheckpoint) (mode : ReplayMode) : Nat :=
  match mode with
  | .recvTime => checkpoint.provenance.recvTimestampUs
  | .exchangeTime =>
      if checkpoint.provenance.exchangeTimestampUs ≠ 0 then
        checkpoint.provenance.exchangeTimestampUs
      else checkpoint.checkpointTimestampUs

/-- `apply_checkpoint` of the replay engine. -/
def L2Book.applyReplayCheckpoint (book : L2Book) (checkpoint : BookCheckpoint)
    (mode : ReplayMode) : Except BookError L2Book :=
  book.tryApplySnapshot
    (checkpoint.bids.map fun l => (l.price, l.size))
    (checkpoint.asks.map fun l => (l.price, l.size))
    0 (checkpointOrderingTs checkpoint mode)

/-- The levels a list of events carries for one side. -/
def eventLevels (side : Side) (events : List BookEvent) : List (FixedPrice × FixedSize) :=
  (events.filter fun event => event.side = side).map fun event => (event.price, event.size)

/-- Apply snapshot events as one snapshot. -/
def L2Book.applySnapshotEvents (book : L2Book) (snapshotEvents : List BookEvent)
    (timestampUs : Nat) : Except BookError L2Book :=
  book.tryApplySnapshot (eventLevels .bid snapshotEvents) (eventLevels .ask snapshotEvents)
    ((snapshotEvents.getLast?.bind fun event => event.provenance.sequence).getD 0) timestampUs

/-- The continuity marker for a sequence gap at a delta. -/
def sequenceGapEvent (assetId : AssetId) (event : BookEvent) (book : L2Book)
    (error : BookError) : IngestEvent where
  assetId := some assetId
  kind := .sequenceGap
  provenance := { event.provenance with ingestOrdinal := none }
  expectedSequence := some (Sequence.next book.sequence)
  observedSequence := some (event.provenance.sequence.getD 0)
  details := some error.display

/-- The continuity marker for a delta the book refused. -/
def deltaRejectedEvent (assetId : AssetId) (event : BookEvent) (error : BookError) :
    IngestEvent where
  assetId := some assetId
  kind := .sourceReset
  provenance := { event.provenance with ingestOrdinal := none }
  expectedSequence := none
  observedSequence := none
  details := some ("book delta rejected during replay: " ++ error.display)

/-- The continuity marker for a crossed reconstructed book. -/
def crossedBookEvent (assetId : AssetId) (book : L2Book) : IngestEvent where
  assetId := some assetId
  kind := .sourceReset
  provenance := {
    recvTimestampUs := book.lastUpdateUs
    exchangeTimestampUs := 0
    source := .replayValidator
    sourceEventId := none
    sourceSessionId := none
    sequence := none
    ingestOrdinal := none }
  expectedSequence := none
  observedSequence := none
  details := some "crossed/locked book in reconstructed state"

section Reconstruct

variable (assetId : AssetId) (targetTimestampUs : Nat) (mode : ReplayMode)

/-- The snapshot events the loop takes at once: those at the front with the
current time. -/
def snapshotRun (currentTime : Nat) (events : List BookEvent) : List BookEvent :=
  events.takeWhile fun candidate =>
    candidate.kind = .snapshot && eventOrderingTs mode candidate = currentTime

/-- The `while` loop of `reconstruct_book` on the events not yet consumed.  Each
turn consumes at least one, so as many turns as events are enough. -/
def replayLoop : Nat → List BookEvent → L2Book → List IngestEvent →
    Except ReplayError (L2Book × List IngestEvent)
  | 0, _, book, continuityEvents => .ok (book, continuityEvents)
  | _ + 1, [], book, continuityEvents => .ok (book, continuityEvents)
  | fuel + 1, event :: rest, book, continuityEvents =>
      let currentTime := eventOrderingTs mode event
      if targetTimestampUs < currentTime then .ok (book, continuityEvents)
      else
        match event.kind with
        | .snapshot =>
            let run := snapshotRun mode currentTime (event :: rest)
            match book.applySnapshotEvents run currentTime with
            | .error err => .error (.bookError err)
            | .ok book => replayLoop fuel ((event :: rest).drop run.length) book continuityEvents
        | .delta =>
            let continuityEvents :=
              match book.checkSequence (event.provenance.sequence.getD 0) with
              | .error error => continuityEvents ++ [sequenceGapEvent assetId event book error]
              | .ok _ => continuityEvents
            match book.tryApplyDelta event.side event.price event.size
                (event.provenance.sequence.getD 0) currentTime with
            | .error error =>
                .ok (book, continuityEvents ++ [deltaRejectedEvent assetId event error])
            | .ok book => replayLoop fuel rest book continuityEvents

/-- The latest snapshot event the target and the reset boundary admit. -/
def latestSnapshotIdx (resetBoundaryUs : Option Nat) (bookEvents : List BookEvent) :
    Option Nat :=
  rposition (fun event => event.kind = .snapshot &&
    eventOrderingTs mode event ≤ targetTimestampUs &&
    afterReset resetBoundaryUs event.provenance.recvTimestampUs) bookEvents

/-- The snapshot group at one ordering time, on this side of the reset boundary. -/
def snapshotGroupAt (resetBoundaryUs : Option Nat) (snapshotTime : Nat)
    (bookEvents : List BookEvent) : List BookEvent :=
  bookEvents.filter fun event => event.kind = .snapshot &&
    eventOrderingTs mode event = snapshotTime &&
    afterReset resetBoundaryUs event.provenance.recvTimestampUs

/-- Seed the book from the latest snapshot group; the result is the book and the
index the loop starts from. -/
def seedFromSnapshot (resetBoundaryUs : Option Nat) (bookEvents : List BookEvent)
    (book : L2Book) : Except ReplayError (L2Book × Nat) :=
  match latestSnapshotIdx targetTimestampUs mode resetBoundaryUs bookEvents with
  | none => .error (.noSnapshotFound assetId targetTimestampUs)
  | some snapshotIdx =>
      let snapshotTime := (bookEvents[snapshotIdx]?.map (eventOrderingTs mode)).getD 0
      match book.applySnapshotEvents
          (snapshotGroupAt mode resetBoundaryUs snapshotTime bookEvents) snapshotTime with
      | .error err => .error (.bookError err)
      | .ok book => .ok (book, snapshotIdx + 1)

/-- Seed the book from a checkpoint; the loop starts after its boundary. -/
def seedFromCheckpoint (checkpoint : BookCheckpoint) (bookEvents : List BookEvent)
    (book : L2Book) : Except ReplayError (L2Book × Nat) :=
  match book.applyReplayCheckpoint checkpoint mode with
  | .error err => .error (.bookError err)
  | .ok book =>
      .ok (book, (bookEvents.findIdx? fun event =>
        decide (checkpointOrderingTs checkpoint mode < eventOrderingTs mode event)).getD
          bookEvents.length)

/-- Rebuild an asset's book at the target time from a window of stored events. -/
def reconstructBook (checkpoint : Option BookCheckpoint) (window : MarketDataWindow) :
    Except ReplayError Reconstruction :=
  let bookEvents := sortBookEvents mode window.bookEvents
  let ingestEvents := sortByKey (fun event => event.provenance.recvTimestampUs)
    window.ingestEvents
  let resetBoundaryUs := latestResetBoundaryUs ingestEvents targetTimestampUs
  let checkpoint := checkpoint.filter fun checkpoint =>
    afterReset resetBoundaryUs checkpoint.provenance.recvTimestampUs
  let seed := match checkpoint with
    | some checkpoint => seedFromCheckpoint mode checkpoint bookEvents (L2Book.new assetId)
    | none => seedFromSnapshot assetId targetTimestampUs mode resetBoundaryUs bookEvents
        (L2Book.new assetId)
  match seed with
  | .error err => .error err
  | .ok (book, startIdx) =>
      match replayLoop assetId targetTimestampUs mode bookEvents.length
          (bookEvents.drop startIdx) book ingestEvents with
      | .error err => .error err
      | .ok (book, continuityEvents) =>
          .ok {
            book := book
            continuityEvents := match book.checkIntegrity with
              | .ok _ => continuityEvents
              | .error _ => continuityEvents ++ [crossedBookEvent assetId book]
            usedCheckpoint := checkpoint.isSome }

end Reconstruct

section Errors

variable {assetId : AssetId} {targetTimestampUs : Nat} {mode : ReplayMode}

/-- The loop fails on a book it cannot apply, never with the text of a read. -/
theorem replayLoop_ne_other (fuel : Nat) (events : List BookEvent) (book : L2Book)
    (continuityEvents : List IngestEvent) (message : String) :
    replayLoop assetId targetTimestampUs mode fuel events book continuityEvents ≠
      .error (.other message) := by
  fun_induction replayLoop assetId targetTimestampUs mode fuel events book continuityEvents <;>
    simp_all

theorem seedFromSnapshot_ne_other (resetBoundaryUs : Option Nat) (bookEvents : List BookEvent)
    (book : L2Book) (message : String) :
    seedFromSnapshot assetId targetTimestampUs mode resetBoundaryUs bookEvents book ≠
      .error (.other message) := by
  fun_cases seedFromSnapshot assetId targetTimestampUs mode resetBoundaryUs bookEvents book <;>
    simp_all

theorem seedFromCheckpoint_ne_other (checkpoint : BookCheckpoint) (bookEvents : List BookEvent)
    (book : L2Book) (message : String) :
    seedFromCheckpoint mode checkpoint bookEvents book ≠ .error (.other message) := by
  fun_cases seedFromCheckpoint mode checkpoint bookEvents book <;> simp_all

/-- A reconstruction of a window that has been read fails for the book or the seed only. -/
theorem reconstructBook_ne_other (checkpoint : Option BookCheckpoint) (window : MarketDataWindow)
    (message : String) :
    reconstructBook assetId targetTimestampUs mode checkpoint window ≠
      .error (.other message) := by
  unfold reconstructBook
  intro h
  dsimp only at h
  split at h
  · rename_i hseed
    cases h
    split at hseed
    · exact seedFromCheckpoint_ne_other _ _ _ _ hseed
    · exact seedFromSnapshot_ne_other _ _ _ _ hseed
  · split at h
    · rename_i hloop
      cases h
      exact replayLoop_ne_other _ _ _ _ _ hloop
    · cases h

end Errors

section Reader

variable (assetId : AssetId) (startUs endUs : Nat)

/-- `extract_book_events` on one stored record. -/
def extractBookEvent : PersistedRecord → Option BookEvent
  | .book event =>
      if startUs ≤ event.provenance.recvTimestampUs ∧
          event.provenance.recvTimestampUs ≤ endUs ∧ event.assetId = assetId then
        some event
      else none
  | _ => none

/-- `extract_trade_events` on one stored record; trades are stored without their
ordinal. -/
def extractTradeEvent : PersistedRecord → Option TradeEvent
  | .trade event =>
      if startUs ≤ event.provenance.recvTimestampUs ∧
          event.provenance.recvTimestampUs ≤ endUs ∧ event.assetId = assetId then
        some { event with provenance := { event.provenance with ingestOrdinal := none } }
      else none
  | _ => none

/-- `extract_ingest_events` on one stored record: the asset's own events and the
feed-wide ones. -/
def extractIngestEvent : PersistedRecord → Option IngestEvent
  | .ingest event =>
      if startUs ≤ event.provenance.recvTimestampUs ∧
          event.provenance.recvTimestampUs ≤ endUs ∧
          event.assetId.all (fun rowAssetId => rowAssetId = assetId) then
        some { event with provenance := { event.provenance with ingestOrdinal := none } }
      else none
  | _ => none

theorem extractBookEvent_asStored (record : PersistedRecord) :
    extractBookEvent assetId startUs endUs record.asStored =
      extractBookEvent assetId startUs endUs record := by
  cases record <;> rfl

theorem extractTradeEvent_asStored (record : PersistedRecord) :
    extractTradeEvent assetId startUs endUs record.asStored =
      extractTradeEvent assetId startUs endUs record := by
  cases record <;> rfl

theorem extractIngestEvent_asStored (record : PersistedRecord) :
    extractIngestEvent assetId startUs endUs record.asStored =
      extractIngestEvent assetId startUs endUs record := by
  cases record <;> rfl

/-- Receive time, then sequence. -/
def readKeyLe (a b : EventProvenance) : Prop :=
  a.recvTimestampUs < b.recvTimestampUs ∨
    a.recvTimestampUs = b.recvTimestampUs ∧ a.sequence.getD 0 ≤ b.sequence.getD 0

instance : DecidableRel readKeyLe := fun a b => by
  unfold readKeyLe
  infer_instance

/-- A read of a dataset: what `take` finds in the stored records, unless that is more
rows than a read takes. -/
def readRows {T : Type} (take : PersistedRecord → Option T) (records : List PersistedRecord) :
    Except ReplayError (List T) :=
  if maxParquetDatasetRows < (records.filterMap take).length then .error .tooManyRows
  else .ok (records.filterMap take)

/-- What a window hands out of the extracted rows. -/
def sortedWindow (bookEvents : List BookEvent) (tradeEvents : List TradeEvent)
    (ingestEvents : List IngestEvent) : MarketDataWindow where
  bookEvents := bookEvents.insertionSort fun a b => readKeyLe a.provenance b.provenance
  tradeEvents := tradeEvents.insertionSort fun a b => readKeyLe a.provenance b.provenance
  ingestEvents := ingestEvents.insertionSort fun a b => readKeyLe a.provenance b.provenance

/-- `read_market_data` over the stored records. -/
def readMarketData (records : List PersistedRecord) : Except ReplayError MarketDataWindow := do
  let bookEvents ← readRows (extractBookEvent assetId startUs endUs) records
  let tradeEvents ← readRows (extractTradeEvent assetId startUs endUs) records
  let ingestEvents ← readRows (extractIngestEvent assetId startUs endUs) records
  pure (sortedWindow bookEvents tradeEvents ingestEvents)

/-- The window of one asset that a read of the stored records returns where it is not
refused (`readMarketData_of_fits`). -/
def marketDataWindow (records : List PersistedRecord) : MarketDataWindow where
  bookEvents := (records.filterMap (extractBookEvent assetId startUs endUs)).insertionSort
    fun a b => readKeyLe a.provenance b.provenance
  tradeEvents := (records.filterMap (extractTradeEvent assetId startUs endUs)).insertionSort
    fun a b => readKeyLe a.provenance b.provenance
  ingestEvents := (records.filterMap (extractIngestEvent assetId startUs endUs)).insertionSort
    fun a b => readKeyLe a.provenance b.provenance

/-- No dataset has more rows in the window than a read takes. -/
@[mk_iff]
structure WindowFits (records : List PersistedRecord) : Prop where
  books : (records.filterMap (extractBookEvent assetId startUs endUs)).length ≤
    maxParquetDatasetRows
  trades : (records.filterMap (extractTradeEvent assetId startUs endUs)).length ≤
    maxParquetDatasetRows
  ingests : (records.filterMap (extractIngestEvent assetId startUs endUs)).length ≤
    maxParquetDatasetRows

end Reader

section Reading

variable {assetId : AssetId} {startUs endUs : Nat} {records : List PersistedRecord}

theorem readRows_of_le {T : Type} {take : PersistedRecord → Option T}
    (h : (records.filterMap take).length ≤ maxParquetDatasetRows) :
    readRows take records = .ok (records.filterMap take) :=
  if_neg (Nat.not_lt.mpr h)

theorem readRows_of_lt {T : Type} {take : PersistedRecord → Option T}
    (h : maxParquetDatasetRows < (records.filterMap take).length) :
    readRows take records = .error .tooManyRows :=
  if_pos h

/-- A later start finds no more rows. -/
theorem WindowFits.mono (h : WindowFits assetId startUs endUs records) {laterUs : Nat}
    (hle : startUs ≤ laterUs) : WindowFits assetId laterUs endUs records := by
  have hcount : ∀ {T : Type} {take take' : PersistedRecord → Option T},
      (∀ x, (take' x).isSome → (take x).isSome) →
      (records.filterMap take').length ≤ (records.filterMap take).length := by
    intro T take take' htake
    rw [List.length_filterMap_eq_countP, List.length_filterMap_eq_countP]
    exact List.countP_mono_left fun x _ => htake x
  refine ⟨(hcount fun x hx => ?_).trans h.books, (hcount fun x hx => ?_).trans h.trades,
    (hcount fun x hx => ?_).trans h.ingests⟩
  · unfold extractBookEvent at hx ⊢
    grind
  · unfold extractTradeEvent at hx ⊢
    grind
  · unfold extractIngestEvent at hx ⊢
    grind

/-- A window whose datasets fit is read. -/
theorem readMarketData_of_fits (h : WindowFits assetId startUs endUs records) :
    readMarketData assetId startUs endUs records =
      .ok (marketDataWindow assetId startUs endUs records) := by
  rw [readMarketData, readRows_of_le h.books, readRows_of_le h.trades, readRows_of_le h.ingests]
  rfl

/-- One dataset that is too large refuses the window. -/
theorem readMarketData_of_not_fits (h : ¬WindowFits assetId startUs endUs records) :
    readMarketData assetId startUs endUs records = .error .tooManyRows := by
  rw [readMarketData]
  rcases Nat.lt_or_ge maxParquetDatasetRows
      (records.filterMap (extractBookEvent assetId startUs endUs)).length with hbooks | hbooks
  · rw [readRows_of_lt hbooks]
    rfl
  rcases Nat.lt_or_ge maxParquetDatasetRows
      (records.filterMap (extractTradeEvent assetId startUs endUs)).length with htrades | htrades
  · rw [readRows_of_le hbooks, readRows_of_lt htrades]
    rfl
  rcases Nat.lt_or_ge maxParquetDatasetRows
      (records.filterMap (extractIngestEvent assetId startUs endUs)).length with hingests | hingests
  · rw [readRows_of_le hbooks, readRows_of_le htrades, readRows_of_lt hingests]
    rfl
  · exact absurd ⟨hbooks, htrades, hingests⟩ h

end Reading

/-- The book event of the asset in a stored record. -/
def bookOf (a : AssetId) : PersistedRecord → Option BookEvent
  | .book e => if e.assetId = a then some e else none
  | _ => none

theorem extractBookEvent_eq (a : AssetId) (start target : Nat) (x : PersistedRecord) :
    extractBookEvent a start target x = (bookOf a x).filter fun e =>
      start ≤ e.provenance.recvTimestampUs && e.provenance.recvTimestampUs ≤ target := by
  cases x with
  | book e =>
      by_cases hasset : e.assetId = a <;>
        simp [extractBookEvent, bookOf, hasset, Option.filter]
  | _ => rfl

/-- The book events read are those received in the window. -/
theorem marketDataWindow_bookEvents (a : AssetId) (start target : Nat)
    (records : List PersistedRecord) : (marketDataWindow a start target records).bookEvents =
      ((records.filterMap (bookOf a)).filter fun e => start ≤ e.provenance.recvTimestampUs &&
        e.provenance.recvTimestampUs ≤ target).insertionSort
          fun a b => readKeyLe a.provenance b.provenance := by
  rw [List.filter_filterMap, marketDataWindow]
  simp only [extractBookEvent_eq]

end PolyBook
