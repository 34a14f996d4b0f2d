import PolyBook.Replay

/-!
# The replay engine

`reconstruct_at` picks the latest checkpoint of the lookback window, reads the
stored events from there to the target and rebuilds the book.

The window of events is bounded by receive time, the window of checkpoints by
`checkpoint_timestamp_us`, which is an exchange-clock value.  Only the first
bound keeps a record received after the target out: a checkpoint the venue
dated before the target and the recorder received after it is still taken
(`reconstructAt_causal_iff`).  A read that is refused ends the reconstruction
(`reconstructAt_of_not_fits`).
-/

namespace PolyBook

section Checkpoints

variable (assetId : AssetId) (startUs endUs : Nat)

/-- `extract_checkpoints` on one stored record. -/
def extractCheckpoint : PersistedRecord → Option BookCheckpoint
  | .checkpoint checkpoint =>
      if startUs ≤ checkpoint.checkpointTimestampUs ∧
          checkpoint.checkpointTimestampUs ≤ endUs ∧ checkpoint.assetId = assetId then
        some checkpoint.asStored
      else none
  | _ => none

/-- The reader takes no more of a record than its row has. -/
theorem extractCheckpoint_asStored (record : PersistedRecord) :
    extractCheckpoint assetId startUs endUs record.asStored =
      extractCheckpoint assetId startUs endUs record := by
  cases record <;> rfl

/-- `read_checkpoints` over the stored records. -/
def readCheckpoints (records : List PersistedRecord) : Except ReplayError (List BookCheckpoint) :=
  do
  let checkpoints ← readRows (extractCheckpoint assetId startUs endUs) records
  pure (sortByKey (fun checkpoint => checkpoint.checkpointTimestampUs) checkpoints)

/-- The last checkpoint of a window, in the order of their dates. -/
def latestCheckpointInWindow (records : List PersistedRecord) :
    Except ReplayError (Option BookCheckpoint) :=
  if endUs < startUs then .ok none
  else do
    let checkpoints ← readCheckpoints assetId startUs endUs records
    pure (sortByKey (fun checkpoint => checkpoint.checkpointTimestampUs) checkpoints).getLast?

/-- No more checkpoints of the asset are dated in the window than a read takes. -/
def CheckpointsFit (records : List PersistedRecord) : Prop :=
  (records.filterMap (extractCheckpoint assetId startUs endUs)).length ≤ maxParquetDatasetRows

/-- The checkpoints of one asset that a read of the stored records returns where it is not
refused (`readCheckpoints_of_fit`). -/
def checkpointsInWindow (records : List PersistedRecord) : List BookCheckpoint :=
  sortByKey (fun checkpoint => checkpoint.checkpointTimestampUs)
    (records.filterMap (extractCheckpoint assetId startUs endUs))

/-- The last of them, where the window is not empty. -/
def latestCheckpoint (records : List PersistedRecord) : Option BookCheckpoint :=
  if endUs < startUs then none
  else
    (sortByKey (fun checkpoint => checkpoint.checkpointTimestampUs)
      (checkpointsInWindow assetId startUs endUs records)).getLast?

variable {assetId startUs endUs} {records : List PersistedRecord}

theorem readCheckpoints_of_fit (h : CheckpointsFit assetId startUs endUs records) :
    readCheckpoints assetId startUs endUs records =
      .ok (checkpointsInWindow assetId startUs endUs records) := by
  rw [readCheckpoints, readRows_of_le h]
  rfl

theorem readCheckpoints_of_not_fit (h : ¬CheckpointsFit assetId startUs endUs records) :
    readCheckpoints assetId startUs endUs records = .error .tooManyRows := by
  rw [readCheckpoints, readRows_of_lt (Nat.lt_of_not_le h)]
  rfl

/-- The search finds the last checkpoint where its read is not refused; an empty window is
not read. -/
theorem latestCheckpointInWindow_of_fit
    (h : startUs ≤ endUs → CheckpointsFit assetId startUs endUs records) :
    latestCheckpointInWindow assetId startUs endUs records =
      .ok (latestCheckpoint assetId startUs endUs records) := by
  rw [latestCheckpointInWindow, latestCheckpoint]
  split
  · rfl
  · rw [readCheckpoints_of_fit (h (by omega))]
    rfl

theorem latestCheckpointInWindow_of_not_fit (hwindow : startUs ≤ endUs)
    (h : ¬CheckpointsFit assetId startUs endUs records) :
    latestCheckpointInWindow assetId startUs endUs records = .error .tooManyRows := by
  rw [latestCheckpointInWindow, if_neg (by omega), readCheckpoints_of_not_fit h]
  rfl

end Checkpoints

/-- A checkpoint that is not older than the floor. -/
def checkpointWithinFloor (checkpoint : Option BookCheckpoint) (floorTimestampUs : Nat) :
    Option BookCheckpoint :=
  checkpoint.filter fun checkpoint => floorTimestampUs ≤ checkpoint.checkpointTimestampUs

/-- `DEFAULT_LOOKBACK_US`. -/
def defaultLookbackUs : Nat := 3600000000

section Engine

variable (lookbackUs : Nat) (assetId : AssetId) (targetTimestampUs : Nat) (mode : ReplayMode)

/-- `ReplayEngine::reconstruct_at` over the stored records. -/
def reconstructAt (records : List PersistedRecord) : Except ReplayError Reconstruction := do
  let floorUs := targetTimestampUs - lookbackUs
  let checkpoint ← latestCheckpointInWindow assetId floorUs targetTimestampUs records
  let checkpoint := checkpointWithinFloor checkpoint floorUs
  let startUs := (checkpoint.map (·.checkpointTimestampUs)).getD floorUs
  let window ← readMarketData assetId startUs targetTimestampUs records
  reconstructBook assetId targetTimestampUs mode checkpoint window

/-- The checkpoint `reconstruct_at` starts from. -/
def seedCheckpoint (records : List PersistedRecord) : Option BookCheckpoint :=
  let floorUs := targetTimestampUs - lookbackUs
  checkpointWithinFloor (latestCheckpoint assetId floorUs targetTimestampUs records) floorUs

/-- Where its window of events starts. -/
def seedStart (records : List PersistedRecord) : Nat :=
  ((seedCheckpoint lookbackUs assetId targetTimestampUs records).map
    (·.checkpointTimestampUs)).getD (targetTimestampUs - lookbackUs)

/-- No read of a reconstruction is too large. -/
structure ReadsFit (records : List PersistedRecord) : Prop where
  checkpoints : CheckpointsFit assetId (targetTimestampUs - lookbackUs) targetTimestampUs records
  window : WindowFits assetId (seedStart lookbackUs assetId targetTimestampUs records)
    targetTimestampUs records

/-- The levels of both sides, and whether a checkpoint was used. -/
def Reconstruction.view (r : Reconstruction) : (BidLevels × AskLevels) × Bool :=
  (r.book.levels, r.usedCheckpoint)

end Engine

section Reads

variable {lookbackUs : Nat} {assetId : AssetId} {targetTimestampUs : Nat} {mode : ReplayMode}
  {records : List PersistedRecord}

/-- Once its checkpoints have been read, a reconstruction reads one window. -/
theorem reconstructAt_of_checkpointsFit (h : CheckpointsFit assetId
      (targetTimestampUs - lookbackUs) targetTimestampUs records) :
    reconstructAt lookbackUs assetId targetTimestampUs mode records =
      (readMarketData assetId (seedStart lookbackUs assetId targetTimestampUs records)
        targetTimestampUs records).bind
          (reconstructBook assetId targetTimestampUs mode
            (seedCheckpoint lookbackUs assetId targetTimestampUs records)) := by
  rw [reconstructAt, latestCheckpointInWindow_of_fit fun _ => h]
  rfl

/-- **A reconstruction** is one from the window of the records, where its reads fit. -/
theorem reconstructAt_of_fits (h : ReadsFit lookbackUs assetId targetTimestampUs records) :
    reconstructAt lookbackUs assetId targetTimestampUs mode records =
      reconstructBook assetId targetTimestampUs mode
        (seedCheckpoint lookbackUs assetId targetTimestampUs records)
        (marketDataWindow assetId (seedStart lookbackUs assetId targetTimestampUs records)
          targetTimestampUs records) := by
  rw [reconstructAt_of_checkpointsFit h.checkpoints, readMarketData_of_fits h.window]
  rfl

/-- Else it is refused. -/
theorem reconstructAt_of_not_fits (h : ¬ReadsFit lookbackUs assetId targetTimestampUs records) :
    reconstructAt lookbackUs assetId targetTimestampUs mode records = .error .tooManyRows := by
  by_cases hcheckpoints : CheckpointsFit assetId (targetTimestampUs - lookbackUs)
      targetTimestampUs records
  · rw [reconstructAt_of_checkpointsFit hcheckpoints,
      readMarketData_of_not_fits (mt (ReadsFit.mk hcheckpoints) h)]
    rfl
  · rw [reconstructAt, latestCheckpointInWindow_of_not_fit (by omega) hcheckpoints]
    rfl

/-- Two stores that read alike are reconstructed alike. -/
theorem reconstructAt_congr {records' : List PersistedRecord}
    (hcheckpoints : latestCheckpointInWindow assetId (targetTimestampUs - lookbackUs)
        targetTimestampUs records =
      latestCheckpointInWindow assetId (targetTimestampUs - lookbackUs) targetTimestampUs records')
    (hwindow : ∀ startUs, readMarketData assetId startUs targetTimestampUs records =
      readMarketData assetId startUs targetTimestampUs records') :
    reconstructAt lookbackUs assetId targetTimestampUs mode records =
      reconstructAt lookbackUs assetId targetTimestampUs mode records' := by
  simp only [reconstructAt, hcheckpoints, hwindow]

/-- A row has all that a read takes of its record. -/
theorem filterMap_asStored {T : Type} {take : PersistedRecord → Option T}
    (htake : ∀ record : PersistedRecord, take record.asStored = take record) :
    (records.map PersistedRecord.asStored).filterMap take = records.filterMap take := by
  rw [List.filterMap_map]
  exact congrArg (List.filterMap · records) (funext htake)

theorem readMarketData_asStored (startUs endUs : Nat) :
    readMarketData assetId startUs endUs (records.map PersistedRecord.asStored) =
      readMarketData assetId startUs endUs records := by
  simp only [readMarketData, readRows, filterMap_asStored (extractBookEvent_asStored _ _ _),
    filterMap_asStored (extractTradeEvent_asStored _ _ _),
    filterMap_asStored (extractIngestEvent_asStored _ _ _)]

theorem latestCheckpointInWindow_asStored (startUs endUs : Nat) :
    latestCheckpointInWindow assetId startUs endUs (records.map PersistedRecord.asStored) =
      latestCheckpointInWindow assetId startUs endUs records := by
  simp only [latestCheckpointInWindow, readCheckpoints, readRows,
    filterMap_asStored (extractCheckpoint_asStored _ _ _)]

/-- **A reconstruction sees no more of the records than is stored.** -/
theorem reconstructAt_asStored :
    reconstructAt lookbackUs assetId targetTimestampUs mode
        (records.map PersistedRecord.asStored) =
      reconstructAt lookbackUs assetId targetTimestampUs mode records :=
  reconstructAt_congr (latestCheckpointInWindow_asStored _ _)
    fun startUs => readMarketData_asStored startUs targetTimestampUs

/-- Nor are its reads any smaller. -/
theorem readsFit_asStored :
    ReadsFit lookbackUs assetId targetTimestampUs (records.map PersistedRecord.asStored) ↔
      ReadsFit lookbackUs assetId targetTimestampUs records := by
  have hstart : seedStart lookbackUs assetId targetTimestampUs
      (records.map PersistedRecord.asStored) =
        seedStart lookbackUs assetId targetTimestampUs records := by
    simp only [seedStart, seedCheckpoint, latestCheckpoint, checkpointsInWindow,
      filterMap_asStored (extractCheckpoint_asStored _ _ _)]
  have hcheckpoints : CheckpointsFit assetId (targetTimestampUs - lookbackUs) targetTimestampUs
      (records.map PersistedRecord.asStored) ↔
        CheckpointsFit assetId (targetTimestampUs - lookbackUs) targetTimestampUs records := by
    rw [CheckpointsFit, CheckpointsFit, filterMap_asStored (extractCheckpoint_asStored _ _ _)]
  have hwindow : ∀ startUs, WindowFits assetId startUs targetTimestampUs
      (records.map PersistedRecord.asStored) ↔
        WindowFits assetId startUs targetTimestampUs records := by
    intro startUs
    rw [windowFits_iff, windowFits_iff, filterMap_asStored (extractBookEvent_asStored _ _ _),
      filterMap_asStored (extractTradeEvent_asStored _ _ _),
      filterMap_asStored (extractIngestEvent_asStored _ _ _)]
  constructor
  · intro h
    exact ⟨hcheckpoints.mp h.checkpoints, (hwindow _).mp (hstart ▸ h.window)⟩
  · intro h
    exact ⟨hcheckpoints.mpr h.checkpoints, hstart.symm ▸ (hwindow _).mpr h.window⟩

end Reads

section NoCheckpoint

variable {assetId : AssetId} {records : List PersistedRecord}
  (h : ∀ c, PersistedRecord.checkpoint c ∈ records → c.assetId ≠ assetId)
include h

theorem filterMap_extractCheckpoint_eq_nil (startUs endUs : Nat) :
    records.filterMap (extractCheckpoint assetId startUs endUs) = [] := by
  apply List.filterMap_eq_nil_iff.mpr
  intro x hx
  cases x with
  | checkpoint c =>
      simp only [extractCheckpoint, ite_eq_right_iff, reduceCtorEq, imp_false]
      exact fun hin => h c hx hin.2.2
  | _ => rfl

theorem checkpointsFit_of_no_checkpoint (startUs endUs : Nat) :
    CheckpointsFit assetId startUs endUs records := by
  rw [CheckpointsFit, filterMap_extractCheckpoint_eq_nil h]
  exact Nat.zero_le _

theorem seedCheckpoint_of_no_checkpoint (lookbackUs targetTimestampUs : Nat) :
    seedCheckpoint lookbackUs assetId targetTimestampUs records = none := by
  simp only [seedCheckpoint, latestCheckpoint, checkpointsInWindow,
    filterMap_extractCheckpoint_eq_nil h]
  split <;> rfl

/-- Without a checkpoint of the asset the whole lookback window is read and replayed. -/
theorem reconstructAt_of_no_checkpoint (lookbackUs targetTimestampUs : Nat) (mode : ReplayMode) :
    reconstructAt lookbackUs assetId targetTimestampUs mode records =
      (readMarketData assetId (targetTimestampUs - lookbackUs) targetTimestampUs records).bind
        (reconstructBook assetId targetTimestampUs mode none) := by
  rw [reconstructAt_of_checkpointsFit (checkpointsFit_of_no_checkpoint h _ _), seedStart,
    seedCheckpoint_of_no_checkpoint h]
  rfl

end NoCheckpoint

/-- The records received by the target. -/
def receivedBy (target : Nat) (records : List PersistedRecord) : List PersistedRecord :=
  records.filter fun x => x.recvTimestampUs.any (· ≤ target)

/-- Every record received after the target is one of `late`. -/
def LateIn (late : Set PersistedRecord) (target : Nat) (records : List PersistedRecord) : Prop :=
  ∀ x ∈ records, x.recvTimestampUs.any (· ≤ target) = false → x ∈ late

section Causality

variable {assetId : AssetId} {startUs target : Nat} {records records' : List PersistedRecord}

/-- A reading of the stored records that takes nothing received after the target
reads the same from two stores that agree up to there. -/
theorem filterMap_eq_of_receivedBy_eq {α : Type} {f : PersistedRecord → Option α}
    (hf : ∀ x ∈ records, x.recvTimestampUs.any (· ≤ target) = false → f x = none)
    (hf' : ∀ x ∈ records', x.recvTimestampUs.any (· ≤ target) = false → f x = none)
    (h : receivedBy target records = receivedBy target records') :
    records.filterMap f = records'.filterMap f := by
  have hreceived : ∀ xs : List PersistedRecord,
      (∀ x ∈ xs, x.recvTimestampUs.any (· ≤ target) = false → f x = none) →
      (receivedBy target xs).filterMap f = xs.filterMap f := by
    intro xs hxs
    rw [receivedBy, List.filterMap_filter]
    refine List.filterMap_congr ?_
    intro x hx
    cases hlate : x.recvTimestampUs.any (· ≤ target) with
    | true => rfl
    | false => simp [hxs x hx hlate]
  rw [← hreceived records hf, ← hreceived records' hf', h]

/-- The window of events is causal. -/
theorem readMarketData_eq_of_receivedBy_eq (h : receivedBy target records =
    receivedBy target records') :
    readMarketData assetId startUs target records =
      readMarketData assetId startUs target records' := by
  have hbook : ∀ xs : List PersistedRecord, ∀ x ∈ xs,
      x.recvTimestampUs.any (· ≤ target) = false →
      extractBookEvent assetId startUs target x = none := by
    rintro xs (e | e | e | e | e) hx hlate <;>
      simp_all [extractBookEvent, PersistedRecord.recvTimestampUs]
  have htrade : ∀ xs : List PersistedRecord, ∀ x ∈ xs,
      x.recvTimestampUs.any (· ≤ target) = false →
      extractTradeEvent assetId startUs target x = none := by
    rintro xs (e | e | e | e | e) hx hlate <;>
      simp_all [extractTradeEvent, PersistedRecord.recvTimestampUs]
  have hingest : ∀ xs : List PersistedRecord, ∀ x ∈ xs,
      x.recvTimestampUs.any (· ≤ target) = false →
      extractIngestEvent assetId startUs target x = none := by
    rintro xs (e | e | e | e | e) hx hlate <;>
      simp_all [extractIngestEvent, PersistedRecord.recvTimestampUs]
  simp only [readMarketData, readRows,
    filterMap_eq_of_receivedBy_eq (hbook records) (hbook records') h,
    filterMap_eq_of_receivedBy_eq (htrade records) (htrade records') h,
    filterMap_eq_of_receivedBy_eq (hingest records) (hingest records') h]

/-- No checkpoint of the asset received after the target is dated inside the
lookback window. -/
def NoLateCheckpoint (late : Set PersistedRecord) (lookbackUs : Nat) (assetId : AssetId)
    (target : Nat) : Prop :=
  ∀ c, PersistedRecord.checkpoint c ∈ late → target < c.provenance.recvTimestampUs →
    c.assetId = assetId → target - lookbackUs ≤ c.checkpointTimestampUs →
    target < c.checkpointTimestampUs

variable {late : Set PersistedRecord} {lookbackUs : Nat}

/-- Without such checkpoints the read of the checkpoints is causal too. -/
theorem latestCheckpointInWindow_eq_of_receivedBy_eq
    (hnone : NoLateCheckpoint late lookbackUs assetId target)
    (hlate : LateIn late target records) (hlate' : LateIn late target records')
    (h : receivedBy target records = receivedBy target records') :
    latestCheckpointInWindow assetId (target - lookbackUs) target records =
      latestCheckpointInWindow assetId (target - lookbackUs) target records' := by
  have hextract : ∀ xs : List PersistedRecord, LateIn late target xs → ∀ x ∈ xs,
      x.recvTimestampUs.any (· ≤ target) = false →
      extractCheckpoint assetId (target - lookbackUs) target x = none := by
    intro xs hxs x hx hafter
    have hin := hxs x hx hafter
    cases x with
    | checkpoint c =>
        simp only [PersistedRecord.recvTimestampUs, Option.any_some, decide_eq_false_iff_not,
          Nat.not_le] at hafter
        simp only [extractCheckpoint, ite_eq_right_iff, reduceCtorEq, imp_false]
        rintro ⟨hfloor, htarget, hasset⟩
        have := hnone c hin hafter hasset hfloor
        omega
    | _ => rfl
  simp only [latestCheckpointInWindow, readCheckpoints, readRows,
    filterMap_eq_of_receivedBy_eq (hextract records hlate) (hextract records' hlate') h]

/-- **Causal but for late checkpoints.** -/
theorem reconstructAt_eq_of_receivedBy_eq
    (hnone : NoLateCheckpoint late lookbackUs assetId target)
    (hlate : LateIn late target records) (hlate' : LateIn late target records')
    (h : receivedBy target records = receivedBy target records') (mode : ReplayMode) :
    reconstructAt lookbackUs assetId target mode records =
      reconstructAt lookbackUs assetId target mode records' :=
  reconstructAt_congr (latestCheckpointInWindow_eq_of_receivedBy_eq hnone hlate hlate' h)
    fun _ => readMarketData_eq_of_receivedBy_eq h

/-- Without a reset in the window a checkpoint, once chosen, is used. -/
theorem reconstructBook_usedCheckpoint {mode : ReplayMode} {checkpoint : BookCheckpoint}
    {window : MarketDataWindow} (hresets : window.ingestEvents = []) {r : Reconstruction}
    (h : reconstructBook assetId target mode (some checkpoint) window = .ok r) :
    r.usedCheckpoint = true := by
  simp only [reconstructBook, hresets, sortByKey, List.insertionSort_nil] at h
  have hboundary : latestResetBoundaryUs [] target = none := rfl
  simp only [hboundary, afterReset, Option.all_none, Option.filter_some, if_true] at h
  split at h
  · cases h
  · split at h <;> cases h
    rfl

/-- One stored snapshot level, received at the given time. -/
def storedSnapshot (assetId : AssetId) (recvTimestampUs : Nat) : BookEvent where
  assetId := assetId
  kind := .snapshot
  side := .bid
  price := Sample.price 50
  size := Sample.size 10
  provenance := {
    recvTimestampUs := recvTimestampUs
    exchangeTimestampUs := 0
    source := .webSocket
    sourceEventId := none
    sourceSessionId := none
    sequence := none
    ingestOrdinal := none }

/-- A store of few records is never too large to read. -/
theorem readsFit_of_length_le (h : records.length ≤ maxParquetDatasetRows) (lookbackUs : Nat)
    (assetId : AssetId) (target : Nat) : ReadsFit lookbackUs assetId target records :=
  ⟨(List.length_filterMap_le _ _).trans h, (List.length_filterMap_le _ _).trans h,
    (List.length_filterMap_le _ _).trans h, (List.length_filterMap_le _ _).trans h⟩

/-- A store with nothing but a snapshot level is rebuilt without a checkpoint. -/
theorem reconstructAt_storedSnapshot (lookbackUs : Nat) (assetId : AssetId) (target : Nat) :
    ∃ r, reconstructAt lookbackUs assetId target .recvTime
      [.book (storedSnapshot assetId target)] = .ok r ∧ r.usedCheckpoint = false := by
  have hcheckpoint : seedCheckpoint lookbackUs assetId target
      [.book (storedSnapshot assetId target)] = none :=
    seedCheckpoint_of_no_checkpoint (by simp) lookbackUs target
  have hwindow : marketDataWindow assetId (target - lookbackUs) target
      [.book (storedSnapshot assetId target)] = ⟨[storedSnapshot assetId target], [], []⟩ := by
    simp [marketDataWindow, List.filterMap_cons, extractBookEvent, extractTradeEvent,
      extractIngestEvent, storedSnapshot]
  have hidx : latestSnapshotIdx target .recvTime none [storedSnapshot assetId target] =
      some 0 := by
    simp [latestSnapshotIdx, rposition, storedSnapshot, eventOrderingTs, afterReset]
  rw [reconstructAt_of_fits (readsFit_of_length_le (by simp [maxParquetDatasetRows]) _ _ _),
    seedStart]
  simp only [hcheckpoint, Option.map_none, Option.getD_none, hwindow, reconstructBook,
    sortBookEvents, sortByKey, List.insertionSort_cons, List.insertionSort_nil,
    List.orderedInsert_nil]
  have hboundary : latestResetBoundaryUs [] target = none := rfl
  have hgroup : snapshotGroupAt .recvTime none target [storedSnapshot assetId target] =
      [storedSnapshot assetId target] := by
    simp [snapshotGroupAt, storedSnapshot, eventOrderingTs, afterReset]
  have htime : eventOrderingTs .recvTime (storedSnapshot assetId target) = target := rfl
  have hbids : eventLevels .bid [storedSnapshot assetId target] =
      [(⟨5000, by decide⟩, ⟨10000000, by decide⟩)] := rfl
  have hasks : eventLevels .ask [storedSnapshot assetId target] = [] := rfl
  have hside : (snapshotSide [(⟨5000, by decide⟩, ⟨10000000, by decide⟩)] :
      Option (BidLevels × Nat)).isSome = true := by decide
  obtain ⟨nextBids, hnext⟩ := Option.isSome_iff_exists.mp hside
  have hbook : ∃ book, (L2Book.new assetId).applySnapshotEvents [storedSnapshot assetId target]
      target = .ok book := by
    simp only [L2Book.applySnapshotEvents, hbids, hasks]
    exact ⟨_, L2Book.tryApplySnapshot_eq_ok_iff.mpr ⟨nextBids, (∅, 0), hnext, rfl, rfl⟩⟩
  obtain ⟨book, hbook⟩ := hbook
  simp only [hboundary, Option.filter_none, seedFromSnapshot, hidx, List.getElem?_cons_zero,
    Option.map_some, Option.getD_some, htime, hgroup, hbook]
  exact ⟨_, rfl, rfl⟩

/-- The checkpoint of a store with one such checkpoint is chosen. -/
theorem seedCheckpoint_storedSnapshot {lookbackUs : Nat} {c : BookCheckpoint}
    (hasset : c.assetId = assetId) (hfloor : target - lookbackUs ≤ c.checkpointTimestampUs)
    (htarget : c.checkpointTimestampUs ≤ target) :
    ∃ c', seedCheckpoint lookbackUs assetId target
      [.book (storedSnapshot assetId target), .checkpoint c] = some c' := by
  refine ⟨c.asStored, ?_⟩
  have hread : checkpointsInWindow assetId (target - lookbackUs) target
      [.book (storedSnapshot assetId target), .checkpoint c] = [c.asStored] := by
    simp only [checkpointsInWindow, List.filterMap_cons, extractCheckpoint, List.filterMap_nil]
    rw [if_pos ⟨hfloor, htarget, hasset⟩]
    rfl
  simp only [seedCheckpoint, latestCheckpoint, hread, checkpointWithinFloor]
  rw [if_neg (by omega)]
  simp only [sortByKey, List.insertionSort_cons, List.insertionSort_nil, List.orderedInsert_nil,
    List.getLast?_singleton, BookCheckpoint.asStored, Option.filter_some, decide_eq_true hfloor,
    if_true]

/-- The same levels and the same flag from any two stores that agree on the
records received by the target, when the records received later are of the kinds
`late`. -/
def CausalWithin (late : Set PersistedRecord) (lookbackUs : Nat) (assetId : AssetId)
    (target : Nat) : Prop :=
  ∀ records records', receivedBy target records = receivedBy target records' →
    LateIn late target records → LateIn late target records' →
    (reconstructAt lookbackUs assetId target .recvTime records).map (·.view) =
      (reconstructAt lookbackUs assetId target .recvTime records').map (·.view)

/-- A late checkpoint dated inside the lookback window is seen. -/
theorem noLateCheckpoint_of_causal (h : CausalWithin late lookbackUs assetId target) :
    NoLateCheckpoint late lookbackUs assetId target := by
  intro c hc hafter hasset hfloor
  by_contra htarget
  have hreceived : receivedBy target [.book (storedSnapshot assetId target)] =
      receivedBy target [.book (storedSnapshot assetId target), .checkpoint c] := by
    simp [receivedBy, PersistedRecord.recvTimestampUs, storedSnapshot, hafter]
  have hsame := h _ _ hreceived
    (by simp [LateIn, PersistedRecord.recvTimestampUs, storedSnapshot])
    (by simp [LateIn, PersistedRecord.recvTimestampUs, storedSnapshot, hc])
  obtain ⟨r, hr, hflag⟩ := reconstructAt_storedSnapshot lookbackUs assetId target
  obtain ⟨c', hseed⟩ := seedCheckpoint_storedSnapshot hasset hfloor (Nat.not_lt.mp htarget)
  rw [hr] at hsame
  cases hr' : reconstructAt lookbackUs assetId target .recvTime
      [.book (storedSnapshot assetId target), .checkpoint c] with
  | error err =>
      rw [hr'] at hsame
      cases hsame
  | ok r' =>
      rw [hr'] at hsame
      have hflags : r.usedCheckpoint = r'.usedCheckpoint :=
        congrArg Prod.snd (Except.ok.inj hsame)
      rw [reconstructAt_of_fits (readsFit_of_length_le (by simp [maxParquetDatasetRows]) _ _ _),
        hseed] at hr'
      have hused := reconstructBook_usedCheckpoint
        (by simp [marketDataWindow, List.filterMap_cons, extractIngestEvent]) hr'
      rw [hflag, hused] at hflags
      cases hflags

/-- **What was known at the target.**  In receive time the engine never shows a
record received after the target, unless it is a checkpoint of the asset that
the venue dated inside the lookback window, and each such checkpoint can be
seen. -/
theorem reconstructAt_causal_iff (late : Set PersistedRecord) (lookbackUs : Nat)
    (assetId : AssetId) (target : Nat) :
    CausalWithin late lookbackUs assetId target ↔
      NoLateCheckpoint late lookbackUs assetId target := by
  constructor
  · exact noLateCheckpoint_of_causal
  · intro hnone records records' h hlate hlate'
    rw [reconstructAt_eq_of_receivedBy_eq hnone hlate hlate' h]

/-- A checkpoint the venue dates 1500 and the recorder receives at 2500. -/
def lateCheckpoint : BookCheckpoint where
  assetId := "yes"
  checkpointTimestampUs := 1500
  provenance := {
    recvTimestampUs := 2500
    exchangeTimestampUs := 1500
    source := .restSnapshot
    sourceEventId := none
    sourceSessionId := none
    sequence := none
    ingestOrdinal := none }
  bids := [⟨Sample.price 40, Sample.size 7⟩]
  asks := []
  walOffset := none

/-- Asked for the book at 2000, the engine returns what it received at 2500. -/
theorem late_checkpoint_shown :
    receivedBy 2000 [.book (storedSnapshot "yes" 1000)] =
      receivedBy 2000 [.book (storedSnapshot "yes" 1000), .checkpoint lateCheckpoint] ∧
    (reconstructAt defaultLookbackUs "yes" 2000 .recvTime
      [.book (storedSnapshot "yes" 1000)]).map (fun r => (r.view.1.1.toList, r.view.2)) =
        .ok ([(⟨5000, by decide⟩, ⟨10000000, by decide⟩)], false) ∧
    (reconstructAt defaultLookbackUs "yes" 2000 .recvTime
      [.book (storedSnapshot "yes" 1000), .checkpoint lateCheckpoint]).map
        (fun r => (r.view.1.1.toList, r.view.2)) =
        .ok ([(⟨4000, by decide⟩, ⟨7000000, by decide⟩)], true) :=
  ⟨by decide, by decide +kernel, by decide +kernel⟩

end Causality

end PolyBook
