import PolyBook.Book

/-!
# The dispatcher

One dispatcher turns the messages of one websocket session into records: a
`book` message becomes a run of snapshot records, a `price_change` message one
delta record per entry, a connection event becomes lifecycle records.  Per asset
it keeps a sequence counter, the last accepted snapshot's timestamp and hash, and
a shadow book that cross-checks the venue's stated best prices.

Every operation returns the next dispatcher and the records it sends.  JSON
decoding is not part of the model: a raw message carries its decoded form, or
`none` for text that is no known message.
-/

namespace PolyBook

/-- A price and a size as the venue writes them. -/
structure OrderEntry where
  price : String
  size : String
  deriving DecidableEq, Repr

/-- A `book` message as the venue sends it. -/
structure BookMessage where
  assetId : String
  timestamp : Option String
  bids : List OrderEntry
  asks : List OrderEntry
  hash : Option String
  deriving DecidableEq, Repr

/-- One level change of a `price_change` message. -/
structure PriceChangeEntry where
  assetId : String
  price : String
  size : String
  side : String
  hash : Option String
  bestBid : Option String
  bestAsk : Option String
  deriving DecidableEq, Repr

/-- A `price_change` message as the venue sends it. -/
structure PriceChangeMessage where
  priceChanges : List PriceChangeEntry
  timestamp : Option String
  deriving DecidableEq, Repr

/-- A `last_trade_price` message as the venue sends it. -/
structure LastTradePriceMessage where
  assetId : String
  price : String
  size : Option String
  side : Option String
  timestamp : Option String
  transactionHash : Option String
  deriving DecidableEq, Repr

/-- The messages of the venue. -/
inductive WsMessage where
  | book (message : BookMessage)
  | priceChange (message : PriceChangeMessage)
  | lastTradePrice (message : LastTradePriceMessage)
  | tickSizeChange (assetId : String)
  deriving DecidableEq, Repr

/-- A raw frame with its receive time, already decoded. -/
structure WsRawMessage where
  message : Option WsMessage
  recvTimestampUs : Nat
  deriving DecidableEq, Repr

/-- What the connection tells of itself. -/
inductive WsLifecycleKind where
  | reconnectStart
  | reconnectSuccess
  deriving DecidableEq, Repr

/-- An event of the connection. -/
structure WsLifecycleEvent where
  kind : WsLifecycleKind
  recvTimestampUs : Nat
  sessionId : String
  details : Option String
  deriving DecidableEq, Repr

/-- What the dispatcher receives. -/
inductive FeedMessage where
  | raw (message : WsRawMessage)
  | lifecycle (event : WsLifecycleEvent)
  deriving DecidableEq, Repr

/-- The level cap of a `book` message, a side. -/
def maxBookLevelsPerSide : Nat := 10000

/-- The cap on the level changes of a message. -/
def maxPriceChangesPerMessage : Nat := 20000

/-- The side that the venue's word names. -/
def parseSide (raw : String) : Option Side :=
  if raw ∈ ["BUY", "buy", "Bid", "bid"] then some .bid
  else if raw ∈ ["SELL", "sell", "Ask", "ask"] then some .ask
  else none

/-- The venue's time in microseconds, 0 where there is none. -/
def parseTimestampUs (ts : Option String) : Nat := (parseToMicros ts).getD 0

/-- `FeedError`'s `Display` text for a conversion error. -/
def typesErrorDisplay (err : TypesError) : String :=
  "feed type conversion error: " ++ err.display

/-- Convert one price level. -/
def OrderEntry.convert (entry : OrderEntry) : Except TypesError (FixedPrice × FixedSize) :=
  match FixedPrice.tryFrom entry.price, FixedSize.tryFrom entry.size with
  | .ok price, .ok size => .ok (price, size)
  | .error err, _ => .error err
  | .ok _, .error err => .error err

/-- Whether our top-of-book price disagrees with the venue-stated one.  The venue
states an empty bid side as price 0 and an empty ask side as price 1. -/
def topPriceMismatch (side : Side) (ours : Option FixedPrice) (venue : Option String) : Bool :=
  match venue with
  | none => false
  | some text =>
      match FixedPrice.tryFrom text with
      | .error _ => false
      | .ok venuePrice =>
          let emptyMarker := match side with
            | .bid => venuePrice.isZero
            | .ask => venuePrice.raw == FixedPrice.scale
          if emptyMarker then ours.isSome else ours ≠ some venuePrice

/-- A price as the debug format shows it. -/
def debugPrice : Option FixedPrice → String
  | none => "None"
  | some price => "Some(FixedPrice(" ++ toString price.raw ++ "))"

/-- The debug form of a text borrowed from JSON, which holds nothing to escape. -/
def debugText : Option String → String
  | none => "None"
  | some text => "Some(\"" ++ text ++ "\")"

/-- Compare a book's best prices with the venue-stated ones. -/
def detectBookMismatch (book : L2Book) (venueBestBid venueBestAsk : Option String) :
    Option String :=
  let ourBid := book.bestBid.map Prod.fst
  let ourAsk := book.bestAsk.map Prod.fst
  if !topPriceMismatch .bid ourBid venueBestBid && !topPriceMismatch .ask ourAsk venueBestAsk then
    none
  else
    some ("reconstructed top-of-book diverged from venue: best_bid ours=" ++ debugPrice ourBid ++
      " venue=" ++ debugText venueBestBid ++ ", best_ask ours=" ++ debugPrice ourAsk ++
      " venue=" ++ debugText venueBestAsk)

/-- The dispatcher: what it remembers of each asset, and the session. -/
structure Dispatcher where
  assetSequences : Std.ExtTreeMap AssetId Nat
  lastSnapshotTs : Std.ExtTreeMap AssetId Nat
  lastSnapshotHash : Std.ExtTreeMap AssetId String
  validationBooks : Std.ExtTreeMap AssetId L2Book
  currentSessionId : Option String

namespace Dispatcher

/-- A dispatcher that remembers nothing. -/
def new : Dispatcher where
  assetSequences := ∅
  lastSnapshotTs := ∅
  lastSnapshotHash := ∅
  validationBooks := ∅
  currentSessionId := none

/-- Where a record comes from. -/
def makeProvenance (d : Dispatcher) (recvTimestampUs exchangeTimestampUs : Nat)
    (sourceEventId : Option String) (sequence : Option Sequence) : EventProvenance where
  recvTimestampUs := recvTimestampUs
  exchangeTimestampUs := exchangeTimestampUs
  source := .webSocket
  sourceEventId := sourceEventId
  sourceSessionId := d.currentSessionId
  sequence := sequence
  ingestOrdinal := none

/-- Take the next sequence number of an asset. -/
def nextSequenceFor (d : Dispatcher) (assetId : AssetId) : Dispatcher × Sequence :=
  match d.assetSequences[assetId]? with
  | some current =>
      ({ d with assetSequences := d.assetSequences.insert assetId ((current + 1) % 2 ^ 64) },
        current)
  | none => ({ d with assetSequences := d.assetSequences.insert assetId 1 }, 0)

/-- Forget everything a new connection invalidates. -/
def resetContinuityState (d : Dispatcher) : Dispatcher :=
  { d with
    assetSequences := ∅
    lastSnapshotTs := ∅
    lastSnapshotHash := ∅
    validationBooks := ∅ }

/-- A feed-wide lifecycle record: it carries no asset id. -/
def lifecycleRecord (event : WsLifecycleEvent) (kind : IngestEventKind)
    (details : Option String) : PersistedRecord :=
  .ingest {
    assetId := none
    kind := kind
    provenance := {
      recvTimestampUs := event.recvTimestampUs
      exchangeTimestampUs := 0
      source := .webSocket
      sourceEventId := none
      sourceSessionId := some event.sessionId
      sequence := none
      ingestOrdinal := none }
    expectedSequence := none
    observedSequence := none
    details := details }

/-- A connection event; a completed connection also marks a source reset. -/
def dispatchLifecycle (d : Dispatcher) (event : WsLifecycleEvent) :
    Dispatcher × List PersistedRecord :=
  match event.kind with
  | .reconnectStart => (d, [lifecycleRecord event .reconnectStart event.details])
  | .reconnectSuccess =>
      ({ d with currentSessionId := some event.sessionId }.resetContinuityState,
        [lifecycleRecord event .reconnectSuccess event.details,
          lifecycleRecord event .sourceReset
            (some "connection re-established; downstream readers should treat continuity as reset")])

/-- What becomes of a `book` message. -/
inductive BookVerdict where
  | oversized
  | stale (lastTs : Nat)
  | duplicate
  | unparseable (err : TypesError)
  | rejected (err : BookError)
  | accepted (bids asks : List (FixedPrice × FixedSize)) (book : L2Book)

/-- The checks on a `book` message, in the source's order. -/
def judgeBook (d : Dispatcher) (message : BookMessage) : BookVerdict :=
  let exchangeTs := parseTimestampUs message.timestamp
  if message.bids.length > maxBookLevelsPerSide || message.asks.length > maxBookLevelsPerSide then
    .oversized
  else
    match (d.lastSnapshotTs[message.assetId]?).filter
        (fun lastTs => exchangeTs > 0 && exchangeTs < lastTs) with
    | some lastTs => .stale lastTs
    | none =>
        if message.hash.isSome && d.lastSnapshotHash[message.assetId]? = message.hash then
          .duplicate
        else
          match message.bids.mapM OrderEntry.convert with
          | .error err => .unparseable err
          | .ok bids =>
              match message.asks.mapM OrderEntry.convert with
              | .error err => .unparseable err
              | .ok asks =>
                  match (d.validationBooks[message.assetId]?.getD
                      (L2Book.new message.assetId)).tryApplySnapshot bids asks 0 exchangeTs with
                  | .error err => .rejected err
                  | .ok book => .accepted bids asks book

/-- An ingest record about one asset. -/
def assetRecord (d : Dispatcher) (assetId : AssetId) (kind : IngestEventKind)
    (recvTimestampUs exchangeTs : Nat) (sourceEventId : Option String)
    (sequence : Option Sequence) (details : String) : PersistedRecord :=
  .ingest {
    assetId := some assetId
    kind := kind
    provenance := d.makeProvenance recvTimestampUs exchangeTs sourceEventId sequence
    expectedSequence := none
    observedSequence := none
    details := some details }

/-- A book record as the dispatcher stamps it. -/
def bookEvent (d : Dispatcher) (kind : BookEventKind) (assetId : AssetId) (side : Side)
    (price : FixedPrice) (size : FixedSize) (recvTimestampUs exchangeTs : Nat)
    (sourceEventId : Option String) (sequence : Sequence) : BookEvent where
  assetId := assetId
  kind := kind
  side := side
  price := price
  size := size
  provenance := d.makeProvenance recvTimestampUs exchangeTs sourceEventId (some sequence)

/-- Send one snapshot record per level, numbering them. -/
def emitLevels (d : Dispatcher) (assetId : AssetId) (recvTimestampUs exchangeTs : Nat)
    (sourceEventId : Option String) :
    List (Side × FixedPrice × FixedSize) → Dispatcher × List PersistedRecord
  | [] => (d, [])
  | (side, price, size) :: levels =>
      let numbered := d.nextSequenceFor assetId
      let event := numbered.1.bookEvent .snapshot assetId side price size recvTimestampUs
        exchangeTs sourceEventId numbered.2
      let rest := numbered.1.emitLevels assetId recvTimestampUs exchangeTs sourceEventId levels
      (rest.1, .book event :: rest.2)

/-- Commit an accepted snapshot: shadow book, staleness tracker, hash, counter. -/
def commitSnapshot (d : Dispatcher) (message : BookMessage) (book : L2Book) : Dispatcher :=
  let exchangeTs := parseTimestampUs message.timestamp
  { d with
    validationBooks := d.validationBooks.insert message.assetId book
    lastSnapshotTs :=
      if exchangeTs > 0 then d.lastSnapshotTs.insert message.assetId exchangeTs
      else d.lastSnapshotTs
    lastSnapshotHash := match message.hash with
      | some hash => d.lastSnapshotHash.insert message.assetId hash
      | none => d.lastSnapshotHash
    assetSequences := d.assetSequences.insert message.assetId 0 }

/-- The levels of a snapshot in the order they are sent: bids, then asks. -/
def snapshotLevels (bids asks : List (FixedPrice × FixedSize)) :
    List (Side × FixedPrice × FixedSize) :=
  bids.map (fun level => (.bid, level)) ++ asks.map (fun level => (.ask, level))

/-- The `book` branch of `dispatch_raw`. -/
def dispatchBook (d : Dispatcher) (recvTimestampUs : Nat) (message : BookMessage) :
    Dispatcher × List PersistedRecord :=
  let exchangeTs := parseTimestampUs message.timestamp
  let notice := fun kind details => d.assetRecord message.assetId kind recvTimestampUs
    exchangeTs message.hash none details
  match d.judgeBook message with
  | .oversized =>
      (d, [notice .sourceReset ("book snapshot dropped: bids=" ++
        toString message.bids.length ++ " asks=" ++ toString message.asks.length ++
        " exceeds per-side limit " ++ toString maxBookLevelsPerSide)])
  | .stale lastTs =>
      (d, [notice .staleSnapshotSkip ("snapshot exchange timestamp " ++ toString exchangeTs ++
        " < latest accepted " ++ toString lastTs)])
  | .duplicate => (d, [])
  | .unparseable err =>
      (d, [notice .sourceReset ("book snapshot dropped (unparseable level): " ++
        typesErrorDisplay err)])
  | .rejected err =>
      ({ d with validationBooks := d.validationBooks.erase message.assetId },
        [notice .sourceReset ("book snapshot dropped: " ++ err.display)])
  | .accepted bids asks book =>
      (d.commitSnapshot message book).emitLevels message.assetId recvTimestampUs exchangeTs
        message.hash (snapshotLevels bids asks)

/-- The entry is the last one of its asset in the message. -/
def isLastForAsset (later : List PriceChangeEntry) (entry : PriceChangeEntry) : Bool :=
  later.all fun other => other.assetId ≠ entry.assetId

/-- One usable `price_change` entry: send the delta, then apply it to the shadow
book and report what went wrong there. -/
def dispatchChange (d : Dispatcher) (recvTimestampUs exchangeTs : Nat)
    (entry : PriceChangeEntry) (isLast : Bool) (side : Side) (price : FixedPrice)
    (size : FixedSize) : Dispatcher × List PersistedRecord :=
  let numbered := d.nextSequenceFor entry.assetId
  let d := numbered.1
  let sequence := numbered.2
  let event := d.bookEvent .delta entry.assetId side price size recvTimestampUs exchangeTs
    entry.hash sequence
  let notice := fun kind details => d.assetRecord entry.assetId kind recvTimestampUs
    exchangeTs entry.hash (some sequence) details
  match d.validationBooks[entry.assetId]? with
  | none => (d, [.book event])
  | some book =>
      match book.tryApplyDelta side price size sequence exchangeTs with
      | .error err =>
          ({ d with validationBooks := d.validationBooks.erase entry.assetId },
            [.book event, notice .sourceReset
              ("book delta dropped from shadow validation: " ++ err.display)])
      | .ok book =>
          let mismatch :=
            if isLast then detectBookMismatch book entry.bestBid entry.bestAsk else none
          ({ d with validationBooks := d.validationBooks.insert entry.assetId book },
            .book event :: mismatch.toList.map (notice .bookMismatch))

/-- The entries of a `price_change` message, in order. -/
def dispatchChanges (d : Dispatcher) (recvTimestampUs exchangeTs : Nat) :
    List PriceChangeEntry → Dispatcher × List PersistedRecord
  | [] => (d, [])
  | entry :: later =>
      match parseSide entry.side, FixedPrice.tryFrom entry.price, FixedSize.tryFrom entry.size with
      | some side, .ok price, .ok size =>
          let first := d.dispatchChange recvTimestampUs exchangeTs entry
            (isLastForAsset later entry) side price size
          let rest := first.1.dispatchChanges recvTimestampUs exchangeTs later
          (rest.1, first.2 ++ rest.2)
      | _, _, _ => d.dispatchChanges recvTimestampUs exchangeTs later

/-- The `price_change` branch of `dispatch_raw`. -/
def dispatchPriceChange (d : Dispatcher) (recvTimestampUs : Nat) (message : PriceChangeMessage) :
    Dispatcher × List PersistedRecord :=
  if message.priceChanges.length > maxPriceChangesPerMessage then (d, [])
  else
    d.dispatchChanges recvTimestampUs (parseTimestampUs message.timestamp) message.priceChanges

/-- The `last_trade_price` branch of `dispatch_raw`; a message that does not
convert is dropped. -/
def dispatchTrade (d : Dispatcher) (recvTimestampUs : Nat) (message : LastTradePriceMessage) :
    Dispatcher × List PersistedRecord :=
  match message.size.mapM FixedSize.tryFrom with
  | .error _ => (d, [])
  | .ok size =>
      match FixedPrice.tryFrom message.price with
      | .error _ => (d, [])
      | .ok price =>
          let side := message.side.bind parseSide
          (d, [.trade {
            assetId := message.assetId
            price := price
            size := size
            side := side
            tradeId := message.transactionHash
            fidelity := if size.isSome && side.isSome then .full else .partly
            provenance := d.makeProvenance recvTimestampUs (parseTimestampUs message.timestamp)
              message.transactionHash none }])

/-- What becomes of a message of the venue. -/
def dispatchRaw (d : Dispatcher) (raw : WsRawMessage) : Dispatcher × List PersistedRecord :=
  match raw.message with
  | none => (d, [])
  | some (.book message) => d.dispatchBook raw.recvTimestampUs message
  | some (.priceChange message) => d.dispatchPriceChange raw.recvTimestampUs message
  | some (.lastTradePrice message) => d.dispatchTrade raw.recvTimestampUs message
  | some (.tickSizeChange _) => (d, [])

/-- What becomes of any message. -/
def dispatch (d : Dispatcher) : FeedMessage → Dispatcher × List PersistedRecord
  | .raw raw => d.dispatchRaw raw
  | .lifecycle event => d.dispatchLifecycle event

/-- A run of the dispatcher, with everything it has sent. -/
def run (d : Dispatcher) : List FeedMessage → Dispatcher × List PersistedRecord
  | [] => (d, [])
  | message :: messages =>
      let first := d.dispatch message
      let rest := first.1.run messages
      (rest.1, first.2 ++ rest.2)

end Dispatcher

end PolyBook
