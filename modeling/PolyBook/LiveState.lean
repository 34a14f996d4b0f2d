import PolyBook.Book

/-!
# The live read model

`LiveState` is the mutable state the projector task owns: one book per asset,
plus at most one pending snapshot per asset.  A venue snapshot arrives as a run
of records, one per level, with no end marker.  Records that carry the same
group key are buffered; the group is applied to the book when some other record
arrives (`materializePendingBeforeRecord`).
-/

namespace PolyBook

/-- How the feed chooses its assets. -/
inductive FeedMode where
  | fixedTokens
  | autoRotate
  deriving DecidableEq, Repr

/-- What is known of the connection. -/
inductive SessionStatus where
  | starting
  | connected
  | reconnecting
  deriving DecidableEq, Repr

/-- A warning that readers are shown. -/
structure ContinuityWarning where
  kind : String
  recvTimestampUs : Nat
  exchangeTimestampUs : Nat
  details : Option String
  deriving DecidableEq, Repr

/-- What two snapshot records must share to belong to one group. -/
structure SnapshotGroupKey where
  assetId : AssetId
  recvTimestampUs : Nat
  exchangeTimestampUs : Nat
  sourceEventId : Option String
  deriving DecidableEq, Repr

/-- The group key of a snapshot record. -/
def BookEvent.groupKey (event : BookEvent) : SnapshotGroupKey where
  assetId := event.assetId
  recvTimestampUs := event.provenance.recvTimestampUs
  exchangeTimestampUs := event.provenance.exchangeTimestampUs
  sourceEventId := event.provenance.sourceEventId

/-- A snapshot group still being buffered. -/
structure PendingSnapshot where
  key : SnapshotGroupKey
  bids : List (FixedPrice × FixedSize)
  asks : List (FixedPrice × FixedSize)
  sequence : Sequence
  lastRecvTimestampUs : Nat
  deriving DecidableEq

/-- The empty group a first snapshot record opens. -/
def PendingSnapshot.start (event : BookEvent) : PendingSnapshot where
  key := event.groupKey
  bids := []
  asks := []
  sequence := 0
  lastRecvTimestampUs := event.provenance.recvTimestampUs

/-- Buffer one snapshot record. -/
def PendingSnapshot.push (pending : PendingSnapshot) (event : BookEvent) :
    PendingSnapshot where
  key := pending.key
  bids := match event.side with
    | .bid => pending.bids ++ [(event.price, event.size)]
    | .ask => pending.bids
  asks := match event.side with
    | .bid => pending.asks
    | .ask => pending.asks ++ [(event.price, event.size)]
  sequence := event.provenance.sequence.getD 0
  lastRecvTimestampUs := event.provenance.recvTimestampUs

/-- What is known of an asset. -/
structure AssetState where
  book : L2Book
  initializedFromSnapshot : Bool
  lastRecvTimestampUs : Option Nat
  lastExchangeTimestampUs : Option Nat
  latestWarning : Option ContinuityWarning
  deriving DecidableEq

namespace AssetState

/-- An asset of which nothing is known. -/
def new (assetId : AssetId) : AssetState where
  book := L2Book.new assetId
  initializedFromSnapshot := false
  lastRecvTimestampUs := none
  lastExchangeTimestampUs := none
  latestWarning := none

/-- Surface a crossed or locked book as a warning. -/
def checkBookIntegrity (state : AssetState) : AssetState :=
  match state.book.checkIntegrity with
  | .ok _ => state
  | .error err =>
      { state with latestWarning := some {
          kind := "crossed_book"
          recvTimestampUs := state.lastRecvTimestampUs.getD 0
          exchangeTimestampUs := state.lastExchangeTimestampUs.getD 0
          details := some err.display } }

/-- Apply a buffered group; `false` when the book refuses it. -/
def materialize (state : AssetState) (pending : PendingSnapshot) : AssetState × Bool :=
  match state.book.tryApplySnapshot pending.bids pending.asks pending.sequence
      pending.lastRecvTimestampUs with
  | .error err =>
      ({ state with latestWarning := some {
          kind := "book_apply_error"
          recvTimestampUs := pending.lastRecvTimestampUs
          exchangeTimestampUs := pending.key.exchangeTimestampUs
          details := some err.display } }, false)
  | .ok book =>
      (checkBookIntegrity { state with
          book := book
          initializedFromSnapshot := true
          lastRecvTimestampUs := some pending.lastRecvTimestampUs
          lastExchangeTimestampUs := some pending.key.exchangeTimestampUs }, true)

/-- `record_delta_event` on the asset's state. -/
def recordDeltaEvent (state : AssetState) (event : BookEvent) : AssetState :=
  match state.book.tryApplyDelta event.side event.price event.size
      (event.provenance.sequence.getD 0) event.provenance.recvTimestampUs with
  | .error err =>
      { state with latestWarning := some {
          kind := "book_apply_error"
          recvTimestampUs := event.provenance.recvTimestampUs
          exchangeTimestampUs := event.provenance.exchangeTimestampUs
          details := some err.display } }
  | .ok book =>
      checkBookIntegrity { state with
          book := book
          lastRecvTimestampUs := some event.provenance.recvTimestampUs
          lastExchangeTimestampUs := some event.provenance.exchangeTimestampUs }

/-- `apply_checkpoint` on the asset's state. -/
def applyCheckpoint (state : AssetState) (checkpoint : BookCheckpoint) : AssetState :=
  match state.book.tryApplySnapshot
      (checkpoint.bids.map fun l => (l.price, l.size))
      (checkpoint.asks.map fun l => (l.price, l.size))
      0 checkpoint.checkpointTimestampUs with
  | .error err =>
      { state with latestWarning := some {
          kind := "book_apply_error"
          recvTimestampUs := checkpoint.provenance.recvTimestampUs
          exchangeTimestampUs := checkpoint.provenance.exchangeTimestampUs
          details := some err.display } }
  | .ok book =>
      checkBookIntegrity { state with
          book := book
          initializedFromSnapshot := true
          lastRecvTimestampUs := some checkpoint.provenance.recvTimestampUs
          lastExchangeTimestampUs := some checkpoint.provenance.exchangeTimestampUs }

/-- The feed timestamps a buffered snapshot record leaves on its asset. -/
def touch (state : AssetState) (event : BookEvent) : AssetState :=
  { state with
    lastRecvTimestampUs := some event.provenance.recvTimestampUs
    lastExchangeTimestampUs := some event.provenance.exchangeTimestampUs }

end AssetState

/-- The live read model. -/
structure LiveState where
  mode : FeedMode
  sessionStatus : SessionStatus
  currentSessionId : Option String
  activeAssets : List AssetId
  assets : Std.ExtTreeMap AssetId AssetState
  pendingSnapshots : Std.ExtTreeMap AssetId PendingSnapshot
  lastRotationUs : Option Nat
  latestGlobalWarning : Option ContinuityWarning
  hydrated : Bool

/-- What applying a record calls for. -/
structure ApplyOutcome where
  changedAssets : List AssetId
  broadcastAssets : List AssetId
  shouldPublish : Bool
  deriving DecidableEq, Repr

/-- `push_unique_asset`. -/
def pushUniqueAsset (assets : List AssetId) (assetId : AssetId) : List AssetId :=
  if assetId ∈ assets then assets else assets ++ [assetId]

namespace ApplyOutcome

/-- Nothing to publish. -/
def default : ApplyOutcome := ⟨[], [], false⟩

/-- An asset's view is to be refreshed. -/
def markAssetChanged (outcome : ApplyOutcome) (assetId : AssetId) : ApplyOutcome :=
  { outcome with
    changedAssets := pushUniqueAsset outcome.changedAssets assetId
    shouldPublish := true }

/-- An update of an asset is to be broadcast. -/
def markAssetBroadcast (outcome : ApplyOutcome) (assetId : AssetId) : ApplyOutcome :=
  { outcome with
    broadcastAssets := pushUniqueAsset outcome.broadcastAssets assetId
    shouldPublish := true }

end ApplyOutcome

namespace LiveState

/-- A model of which nothing is known. -/
def new (mode : FeedMode) : LiveState where
  mode := mode
  sessionStatus := .starting
  currentSessionId := none
  activeAssets := []
  assets := ∅
  pendingSnapshots := ∅
  lastRotationUs := none
  latestGlobalWarning := none
  hydrated := false

/-- The state `ensure_asset` hands out: a fresh one when the asset is new. -/
def ensureAsset (s : LiveState) (assetId : AssetId) : AssetState :=
  s.assets[assetId]?.getD (AssetState.new assetId)

/-- An asset gets a new state. -/
def setAsset (s : LiveState) (assetId : AssetId) (state : AssetState) : LiveState :=
  { s with assets := s.assets.insert assetId state }

/-- Apply one asset's buffered group, if it has one. -/
def materializePendingForAsset (s : LiveState) (assetId : AssetId) : LiveState × Bool :=
  match s.pendingSnapshots[assetId]? with
  | none => (s, false)
  | some pending =>
      let s := { s with pendingSnapshots := s.pendingSnapshots.erase assetId }
      let next := (s.ensureAsset assetId).materialize pending
      (s.setAsset assetId next.1, next.2)

/-- Apply the buffered groups of the listed assets, collecting those whose book
took the group. -/
def materializeKeys (s : LiveState) (keys : List AssetId) : LiveState × List AssetId :=
  keys.foldl (fun acc assetId =>
    let next := acc.1.materializePendingForAsset assetId
    (next.1, if next.2 then acc.2 ++ [assetId] else acc.2)) (s, [])

/-- Every buffered group becomes a book. -/
def materializeAllPending (s : LiveState) : LiveState × List AssetId :=
  s.materializeKeys s.pendingSnapshots.keys

/-- Apply the buffered groups a record ends: a snapshot record ends every group
of another key, any other record ends them all. -/
def materializePendingBeforeRecord (s : LiveState) (record : PersistedRecord) :
    LiveState × List AssetId :=
  match record with
  | .book event =>
      match event.kind with
      | .snapshot =>
          s.materializeKeys ((s.pendingSnapshots.toList.filter
            fun entry => entry.2.key != event.groupKey).map Prod.fst)
      | .delta => s.materializeAllPending
  | _ => s.materializeAllPending

/-- Apply the asset's group when the record does not belong to it. -/
def endOtherGroup (s : LiveState) (event : BookEvent) : LiveState :=
  match s.pendingSnapshots[event.assetId]? with
  | some pending =>
      if pending.key = event.groupKey then s
      else (s.materializePendingForAsset event.assetId).1
  | none => s

/-- Buffer a snapshot record.  The source re-enters itself after applying a
group of another key; the slot is then empty, so one pass is enough. -/
def recordSnapshotEvent (s : LiveState) (event : BookEvent) : LiveState :=
  let s := s.endOtherGroup event
  let pending := s.pendingSnapshots[event.assetId]?.getD (PendingSnapshot.start event)
  let s := { s with
    pendingSnapshots := s.pendingSnapshots.insert event.assetId (pending.push event) }
  s.setAsset event.assetId ((s.ensureAsset event.assetId).touch event)

/-- `record_delta_event`. -/
def recordDeltaEvent (s : LiveState) (event : BookEvent) : LiveState :=
  s.setAsset event.assetId ((s.ensureAsset event.assetId).recordDeltaEvent event)

/-- The warning a lifecycle event leaves. -/
def ingestWarning (event : IngestEvent) : ContinuityWarning where
  kind := event.kind.display
  recvTimestampUs := event.provenance.recvTimestampUs
  exchangeTimestampUs := event.provenance.exchangeTimestampUs
  details := event.details

/-- `record_ingest_event`. -/
def recordIngestEvent (s : LiveState) (event : IngestEvent) : LiveState :=
  let s := match event.kind with
    | .reconnectStart => { s with sessionStatus := .reconnecting }
    | .reconnectSuccess =>
        { s with
          sessionStatus := .connected
          currentSessionId := event.provenance.sourceSessionId }
    | _ => s
  match event.assetId with
  | some assetId =>
      s.setAsset assetId
        { s.ensureAsset assetId with latestWarning := some (ingestWarning event) }
  | none => { s with latestGlobalWarning := some (ingestWarning event) }

/-- `apply_checkpoint`. -/
def applyCheckpoint (s : LiveState) (checkpoint : BookCheckpoint) : LiveState :=
  s.setAsset checkpoint.assetId
    ((s.ensureAsset checkpoint.assetId).applyCheckpoint checkpoint)

/-- No book materialized for the asset yet. -/
def uninitialized (s : LiveState) (assetId : AssetId) : Bool :=
  s.assets[assetId]?.all fun state => !state.initializedFromSnapshot

/-- Apply a record; the outcome names the assets to republish. -/
def applyRecord (s : LiveState) (record : PersistedRecord) : LiveState × ApplyOutcome :=
  let materialized := s.materializePendingBeforeRecord record
  let s := materialized.1
  let outcome := materialized.2.foldl
    (fun outcome assetId => (outcome.markAssetChanged assetId).markAssetBroadcast assetId)
    ApplyOutcome.default
  match record with
  | .book event =>
      match event.kind with
      | .snapshot => (s.recordSnapshotEvent event, outcome.markAssetChanged event.assetId)
      | .delta =>
          (s.recordDeltaEvent event,
            (outcome.markAssetChanged event.assetId).markAssetBroadcast event.assetId)
  | .ingest event =>
      let outcome := { outcome with shouldPublish := true }
      (s.recordIngestEvent event,
        match event.assetId with
        | some assetId => outcome.markAssetChanged assetId
        | none => outcome)
  | .checkpoint checkpoint =>
      if s.uninitialized checkpoint.assetId then
        (s.applyCheckpoint checkpoint,
          (outcome.markAssetChanged checkpoint.assetId).markAssetBroadcast checkpoint.assetId)
      else (s, outcome)
  | .trade _ => (s, outcome)
  | .validation _ => (s, outcome)

/-- Apply records in order. -/
def applyRecords (s : LiveState) (records : List PersistedRecord) : LiveState :=
  records.foldl (fun s record => (s.applyRecord record).1) s

/-- The state once every pending snapshot is materialized. -/
def settled (s : LiveState) : LiveState := s.materializeAllPending.1

/-- The book held for an asset, empty when the asset is unknown. -/
def book (s : LiveState) (assetId : AssetId) : L2Book := (s.ensureAsset assetId).book

/-- Whether a snapshot or checkpoint has been materialized for the asset. -/
def initialized (s : LiveState) (assetId : AssetId) : Bool :=
  (s.ensureAsset assetId).initializedFromSnapshot

end LiveState

end PolyBook
