import PolyBook.SnapshotGroups
import PolyBook.Library.Runs

/-!
# The projector

The projector task owns the live state.  It takes one command after another,
refreshes the views of the assets a command changed and publishes the result on a
watch; `snapshot` and `feedStatusRaw` read what was published last and nothing else.

The floating-point mid price and spread of a view are not part of the model.
-/

namespace PolyBook

/-- Read-only projection of one asset's book state. -/
structure AssetReadView where
  sequence : Nat
  lastUpdateUs : Nat
  bestBid : Option (FixedPrice × FixedSize)
  bestAsk : Option (FixedPrice × FixedSize)
  bidDepth : Nat
  askDepth : Nat
  bids : List (FixedPrice × FixedSize)
  asks : List (FixedPrice × FixedSize)
  initializedFromSnapshot : Bool
  hasPendingSnapshot : Bool
  lastRecvTimestampUs : Option Nat
  lastExchangeTimestampUs : Option Nat
  latestWarning : Option ContinuityWarning
  deriving DecidableEq

/-- What the projector publishes. -/
structure PublishedState where
  mode : FeedMode
  sessionStatus : SessionStatus
  currentSessionId : Option String
  activeAssets : List AssetId
  lastRotationUs : Option Nat
  latestGlobalWarning : Option ContinuityWarning
  assets : Std.ExtTreeMap AssetId AssetReadView
  hydrated : Bool

/-- A broadcast update of one asset. -/
structure BookUpdateMessage where
  assetId : AssetId
  sequence : Nat
  lastUpdateUs : Nat
  bidDepth : Nat
  askDepth : Nat
  bids : List (FixedPrice × FixedSize)
  asks : List (FixedPrice × FixedSize)
  deriving DecidableEq

/-- Make the listed assets the tracked ones: a state is moved over where there is one. -/
def retainAssets (states : Std.ExtTreeMap AssetId AssetState) (assets : List AssetId) :
    Std.ExtTreeMap AssetId AssetState :=
  (assets.foldl (fun moved assetId =>
    (moved.1.erase assetId,
      moved.2.insert assetId (moved.1[assetId]?.getD (AssetState.new assetId))))
    (states, (∅ : Std.ExtTreeMap AssetId AssetState))).2

namespace LiveState

/-- `set_active_assets`. -/
def setActiveAssets (s : LiveState) (assets : List AssetId) : LiveState :=
  { s with
    activeAssets := assets
    assets := retainAssets s.assets assets
    pendingSnapshots := s.pendingSnapshots.filter fun assetId _ => decide (assetId ∈ assets) }

/-- `build_asset_view`. -/
def buildAssetView (s : LiveState) (assetId : AssetId) : Option AssetReadView :=
  s.assets[assetId]?.map fun state => {
    sequence := state.book.sequence
    lastUpdateUs := state.book.lastUpdateUs
    bestBid := state.book.bestBid
    bestAsk := state.book.bestAsk
    bidDepth := state.book.bids.size
    askDepth := state.book.asks.size
    bids := state.book.bids.toList
    asks := state.book.asks.toList
    initializedFromSnapshot := state.initializedFromSnapshot
    hasPendingSnapshot := s.pendingSnapshots.contains assetId
    lastRecvTimestampUs := state.lastRecvTimestampUs
    lastExchangeTimestampUs := state.lastExchangeTimestampUs
    latestWarning := state.latestWarning }

/-- The views of all tracked assets. -/
def buildAssetViews (s : LiveState) : Std.ExtTreeMap AssetId AssetReadView :=
  s.assets.filterMap fun assetId _ => s.buildAssetView assetId

/-- `build_published_state`. -/
def buildPublishedState (s : LiveState) : PublishedState where
  mode := s.mode
  sessionStatus := s.sessionStatus
  currentSessionId := s.currentSessionId
  activeAssets := s.activeAssets
  lastRotationUs := s.lastRotationUs
  latestGlobalWarning := s.latestGlobalWarning
  assets := s.buildAssetViews
  hydrated := s.hydrated

/-- The update broadcast for an asset: only an active one with a book has one. -/
def buildBookUpdate (s : LiveState) (assetId : AssetId) (depth : Nat) :
    Option BookUpdateMessage :=
  if assetId ∈ s.activeAssets then
    match s.assets[assetId]? with
    | none => none
    | some state =>
        if state.initializedFromSnapshot then
          some {
            assetId := assetId
            sequence := state.book.sequence
            lastUpdateUs := state.book.lastUpdateUs
            bidDepth := state.book.bids.size
            askDepth := state.book.asks.size
            bids := state.book.bids.toList.take depth
            asks := state.book.asks.toList.take depth }
        else none
  else none

end LiveState

/-- What the projector is sent. -/
inductive ProjectorCommand where
  | record (record : PersistedRecord)
  | recordAck (record : PersistedRecord)
  | setActiveAssets (assets : List AssetId)
  | setLastRotationUs (timestampUs : Nat)
  | configureBroadcast (depth : Nat)
  | hydrateCheckpoint (checkpoint : BookCheckpoint)
  | setHydrated (hydrated : Bool)

/-- The projector's own state, what it has put on the watch, and the updates it has
given to the broadcast. -/
structure Projector where
  state : LiveState
  published : PublishedState
  watch : PublishedState
  broadcast : Option Nat
  updates : List BookUpdateMessage

namespace Projector

/-- A projector that has published an empty model. -/
def new (mode : FeedMode) : Projector where
  state := LiveState.new mode
  published := (LiveState.new mode).buildPublishedState
  watch := (LiveState.new mode).buildPublishedState
  broadcast := none
  updates := []

/-- `sync_metadata`. -/
def syncMetadata (p : Projector) : Projector :=
  { p with published := { p.published with
      sessionStatus := p.state.sessionStatus
      currentSessionId := p.state.currentSessionId
      lastRotationUs := p.state.lastRotationUs
      latestGlobalWarning := p.state.latestGlobalWarning
      hydrated := p.state.hydrated } }

/-- Refresh one asset's view: it goes with its asset. -/
def refreshAssetView (s : LiveState) (views : Std.ExtTreeMap AssetId AssetReadView)
    (assetId : AssetId) : Std.ExtTreeMap AssetId AssetReadView :=
  match s.buildAssetView assetId with
  | some view => views.insert assetId view
  | none => views.erase assetId

/-- The views of some assets are built anew. -/
def refreshAssetViews (p : Projector) (assetIds : List AssetId) : Projector :=
  { p with published := { p.published with
      assets := assetIds.foldl (refreshAssetView p.state) p.published.assets } }

/-- All views are built anew. -/
def rebuildAllAssetViews (p : Projector) : Projector :=
  { p with published := { p.published with assets := p.state.buildAssetViews } }

/-- What was built is shown to readers. -/
def publish (p : Projector) : Projector := { p with watch := p.published }

/-- Give the broadcast an update for every asset that changed. -/
def sendUpdates (p : Projector) (assetIds : List AssetId) : Projector :=
  match p.broadcast with
  | none => p
  | some depth =>
      { p with updates := p.updates ++ assetIds.filterMap (p.state.buildBookUpdate · depth) }

/-- A record is applied, published and broadcast. -/
def applyAndBroadcast (p : Projector) (record : PersistedRecord) : Projector :=
  let applied := p.state.applyRecord record
  let p := { p with state := applied.1 }
  if applied.2.shouldPublish then
    ((p.syncMetadata.refreshAssetViews applied.2.changedAssets).publish).sendUpdates
      applied.2.broadcastAssets
  else p

/-- One command. -/
def handleCommand (p : Projector) : ProjectorCommand → Projector
  | .record record => p.applyAndBroadcast record
  | .recordAck record => p.applyAndBroadcast record
  | .setActiveAssets assets =>
      let state := p.state.setActiveAssets assets
      let p := { p with
        state := state
        published := { p.published with activeAssets := state.activeAssets } }
      p.rebuildAllAssetViews.publish
  | .setLastRotationUs timestampUs =>
      { p with
        state := { p.state with lastRotationUs := some timestampUs }
        published := { p.published with lastRotationUs := some timestampUs } }.publish
  | .configureBroadcast depth => { p with broadcast := some depth }
  | .hydrateCheckpoint checkpoint =>
      ({ p with state := p.state.applyCheckpoint checkpoint }.refreshAssetViews
        [checkpoint.assetId]).publish
  | .setHydrated hydrated =>
      { p with
        state := { p.state with hydrated := hydrated }
        published := { p.published with hydrated := hydrated } }.publish

/-- The projector after some commands. -/
def run (p : Projector) (commands : List ProjectorCommand) : Projector :=
  Runs.run handleCommand p commands

end Projector

/-- Why a read of an asset is refused. -/
inductive SnapshotLookupError where
  | assetNotActive
  | snapshotNotReady
  deriving DecidableEq, Repr

/-- What a snapshot read answers. -/
structure LiveOrderBookSnapshot where
  assetId : AssetId
  sequence : Nat
  lastUpdateUs : Nat
  bestBid : Option (FixedPrice × FixedSize)
  bestAsk : Option (FixedPrice × FixedSize)
  bidDepth : Nat
  askDepth : Nat
  bids : List (FixedPrice × FixedSize)
  asks : List (FixedPrice × FixedSize)
  stale : Bool
  latestWarning : Option ContinuityWarning
  deriving DecidableEq

/-- An asset that nothing was heard of for too long. -/
def isStale (lastRecvUs : Option Nat) (staleAfterSecs nowUs : Nat) : Bool :=
  lastRecvUs.all fun lastRecvUs =>
    decide (min (staleAfterSecs * 1000000) u64Max < nowUs - lastRecvUs)

/-- The read of an asset's book from the published state. -/
def snapshotFromPublished (state : PublishedState) (assetId : AssetId)
    (depth staleAfterSecs nowUs : Nat) : Except SnapshotLookupError LiveOrderBookSnapshot :=
  if assetId ∉ state.activeAssets then .error .assetNotActive
  else
    match state.assets[assetId]? with
    | none => .error .snapshotNotReady
    | some asset =>
        if asset.hasPendingSnapshot && !asset.initializedFromSnapshot then
          .error .snapshotNotReady
        else if !asset.initializedFromSnapshot then .error .snapshotNotReady
        else
          .ok {
            assetId := assetId
            sequence := asset.sequence
            lastUpdateUs := asset.lastUpdateUs
            bestBid := asset.bestBid
            bestAsk := asset.bestAsk
            bidDepth := asset.bidDepth
            askDepth := asset.askDepth
            bids := asset.bids.take depth
            asks := asset.asks.take depth
            stale := isStale asset.lastRecvTimestampUs staleAfterSecs nowUs
            latestWarning := asset.latestWarning }

/-- What a feed status read answers. -/
structure FeedStatusResponse where
  mode : FeedMode
  sessionStatus : SessionStatus
  currentSessionId : Option String
  activeAssetCount : Nat
  activeAssets : List AssetId
  lastRotationUs : Option Nat
  latestGlobalWarning : Option ContinuityWarning
  deriving DecidableEq

/-- A read of the published state never waits for the projector. -/
def Projector.snapshot (p : Projector) (assetId : AssetId) (depth staleAfterSecs nowUs : Nat) :
    Except SnapshotLookupError LiveOrderBookSnapshot :=
  snapshotFromPublished p.watch assetId depth staleAfterSecs nowUs

/-- What readers are told of the feed. -/
def Projector.feedStatusRaw (p : Projector) : FeedStatusResponse where
  mode := p.watch.mode
  sessionStatus := p.watch.sessionStatus
  currentSessionId := p.watch.currentSessionId
  activeAssetCount := p.watch.activeAssets.length
  activeAssets := p.watch.activeAssets
  lastRotationUs := p.watch.lastRotationUs
  latestGlobalWarning := p.watch.latestGlobalWarning

end PolyBook
