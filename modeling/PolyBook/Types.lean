import Mathlib.Algebra.Ring.Nat
import Mathlib.Data.List.Basic

/-!
# Domain types

The records that cross the event channel, the log and the Parquet store.
Prices and sizes carry their range as a field, as the private fields of
`FixedPrice` and `FixedSize` do, so a value outside it cannot be built.
Timestamps, offsets and sequence numbers are natural numbers; where the source
wraps or checks a `u64`, the model says so with `u64Max`.
-/

namespace PolyBook

/-- `u64::MAX`. -/
def u64Max : Nat := 2 ^ 64 - 1

/-- A `u64` is at most the largest. -/
theorem toNat_le_u64Max (n : UInt64) : n.toNat ≤ u64Max := Nat.le_sub_one_of_lt n.toNat_lt

/-- Polymarket token id. -/
abbrev AssetId := String

/-- Per-asset sequence number. -/
abbrev Sequence := Nat

/-- `Sequence::next`: wrapping successor. -/
def Sequence.next (s : Sequence) : Sequence := (s + 1) % 2 ^ 64

/-- Fixed-point price: value times 10,000, at most 1.0. -/
structure FixedPrice where
  raw : Nat
  le_scale : raw ≤ 10000
  deriving DecidableEq

/-- A price is what it holds. -/
theorem FixedPrice.eq_of_raw {p q : FixedPrice} (h : p.raw = q.raw) : p = q := by
  cases p
  cases q
  cases h
  rfl

/-- `FixedPrice::SCALE`. -/
def FixedPrice.scale : Nat := 10000

/-- `FixedPrice::new`, with the text of its error. -/
def FixedPrice.new (raw : Nat) : Except String FixedPrice :=
  if h : raw ≤ 10000 then .ok ⟨raw, h⟩
  else .error ("invalid price: raw=" ++ toString raw ++ " exceeds max 10000")

/-- `FixedPrice::is_zero`. -/
def FixedPrice.isZero (p : FixedPrice) : Bool := p.raw == 0

instance : Ord FixedPrice := ⟨compareOn (·.raw)⟩

instance : Std.TransOrd FixedPrice :=
  inferInstanceAs (Std.TransCmp (compareOn FixedPrice.raw))

instance : Std.LawfulEqOrd FixedPrice where
  eq_of_compare := by
    rintro ⟨a, ha⟩ ⟨b, hb⟩ h
    have hraw : a = b := Std.LawfulEqOrd.eq_of_compare h
    subst hraw
    rfl

/-- Fixed-point size: value times 1,000,000, a `u64`. -/
structure FixedSize where
  raw : Nat
  le_max : raw ≤ u64Max
  deriving DecidableEq

/-- A size is what it holds. -/
theorem FixedSize.eq_of_raw {s t : FixedSize} (h : s.raw = t.raw) : s = t := by
  cases s
  cases t
  cases h
  rfl

/-- `FixedSize::is_zero`. -/
def FixedSize.isZero (s : FixedSize) : Bool := s.raw == 0

/-- The side of the book. -/
inductive Side where
  | bid
  | ask
  deriving DecidableEq, Repr

/-- `Side`'s `Display` text. -/
def Side.display : Side → String
  | .bid => "Bid"
  | .ask => "Ask"

/-- Source system of a persisted record. -/
inductive DataSource where
  | webSocket
  | restSnapshot
  | replayValidator
  | system
  deriving DecidableEq, Repr

/-- Provenance shared by persisted records. -/
structure EventProvenance where
  recvTimestampUs : Nat
  exchangeTimestampUs : Nat
  source : DataSource
  sourceEventId : Option String
  sourceSessionId : Option String
  sequence : Option Sequence
  ingestOrdinal : Option Nat
  deriving DecidableEq, Repr

/-- The kind of a book event. -/
inductive BookEventKind where
  | snapshot
  | delta
  deriving DecidableEq, Repr

/-- One price level of a venue snapshot, or one level change. -/
structure BookEvent where
  assetId : AssetId
  kind : BookEventKind
  side : Side
  price : FixedPrice
  size : FixedSize
  provenance : EventProvenance
  deriving DecidableEq

/-- How much of a trade the venue tells. -/
inductive TradeFidelity where
  | partly
  | full
  deriving DecidableEq, Repr

/-- A trade as it is persisted. -/
structure TradeEvent where
  assetId : AssetId
  price : FixedPrice
  size : Option FixedSize
  side : Option Side
  tradeId : Option String
  fidelity : TradeFidelity
  provenance : EventProvenance
  deriving DecidableEq

/-- The kind of an ingest event. -/
inductive IngestEventKind where
  | reconnectStart
  | reconnectSuccess
  | sequenceGap
  | staleSnapshotSkip
  | sourceReset
  | bookMismatch
  deriving DecidableEq, Repr

/-- `IngestEventKind`'s `Display` text. -/
def IngestEventKind.display : IngestEventKind → String
  | .reconnectStart => "reconnect_start"
  | .reconnectSuccess => "reconnect_success"
  | .sequenceGap => "sequence_gap"
  | .staleSnapshotSkip => "stale_snapshot_skip"
  | .sourceReset => "source_reset"
  | .bookMismatch => "book_mismatch"

/-- A hard continuity reset between feed sessions. -/
def IngestEventKind.isContinuityReset (k : IngestEventKind) : Bool :=
  k = .sourceReset

/-- Lifecycle event that explains a continuity boundary; `assetId` is `none`
for a feed-wide event. -/
structure IngestEvent where
  assetId : Option AssetId
  kind : IngestEventKind
  provenance : EventProvenance
  expectedSequence : Option Nat
  observedSequence : Option Nat
  details : Option String
  deriving DecidableEq, Repr

/-- A level of a checkpoint. -/
structure PriceLevel where
  price : FixedPrice
  size : FixedSize
  deriving DecidableEq

/-- Full book state captured over REST. -/
structure BookCheckpoint where
  assetId : AssetId
  checkpointTimestampUs : Nat
  provenance : EventProvenance
  bids : List PriceLevel
  asks : List PriceLevel
  walOffset : Option Nat
  deriving DecidableEq

/-- The time that replay orders by. -/
inductive ReplayMode where
  | recvTime
  | exchangeTime
  deriving DecidableEq, Repr

/-- The outcome of a validation as it is persisted. -/
structure ReplayValidation where
  assetId : AssetId
  mode : ReplayMode
  replayTimestampUs : Nat
  referenceTimestampUs : Nat
  matched : Bool
  mismatchSummary : Option String
  persistedAtUs : Nat
  deriving DecidableEq, Repr

/-- A record routed through the log and the storage sinks. -/
inductive PersistedRecord where
  | book (event : BookEvent)
  | trade (event : TradeEvent)
  | ingest (event : IngestEvent)
  | checkpoint (event : BookCheckpoint)
  | validation (event : ReplayValidation)
  deriving DecidableEq

/-- The asset a record is partitioned under; feed-wide ingest events go to
`"global"`. -/
def PersistedRecord.assetPartition : PersistedRecord → AssetId
  | .book e => e.assetId
  | .trade e => e.assetId
  | .ingest e => e.assetId.getD "global"
  | .checkpoint e => e.assetId
  | .validation e => e.assetId

/-- The receive timestamp of a record that carries provenance. -/
def PersistedRecord.recvTimestampUs : PersistedRecord → Option Nat
  | .book e => some e.provenance.recvTimestampUs
  | .trade e => some e.provenance.recvTimestampUs
  | .ingest e => some e.provenance.recvTimestampUs
  | .checkpoint e => some e.provenance.recvTimestampUs
  | .validation _ => none

/-- `provenance_mut` at its one use: stamp the ingest ordinal on a record that
carries provenance. -/
def PersistedRecord.withOrdinal (ordinal : Nat) : PersistedRecord → PersistedRecord
  | .book e => .book { e with provenance := { e.provenance with ingestOrdinal := some ordinal } }
  | .trade e => .trade { e with provenance := { e.provenance with ingestOrdinal := some ordinal } }
  | .ingest e =>
      .ingest { e with provenance := { e.provenance with ingestOrdinal := some ordinal } }
  | .checkpoint e =>
      .checkpoint { e with provenance := { e.provenance with ingestOrdinal := some ordinal } }
  | .validation e => .validation e

/-! What the Parquet schemas have columns for. -/

/-- Trades are stored without their ordinal. -/
def TradeEvent.asStored (event : TradeEvent) : TradeEvent :=
  { event with provenance := { event.provenance with ingestOrdinal := none } }

/-- So are lifecycle events. -/
def IngestEvent.asStored (event : IngestEvent) : IngestEvent :=
  { event with provenance := { event.provenance with ingestOrdinal := none } }

/-- Checkpoints are stored without their sequence and ordinal. -/
def BookCheckpoint.asStored (checkpoint : BookCheckpoint) : BookCheckpoint :=
  { checkpoint with
    provenance := { checkpoint.provenance with sequence := none, ingestOrdinal := none } }

/-- A record as its row has it. -/
def PersistedRecord.asStored : PersistedRecord → PersistedRecord
  | .book e => .book e
  | .trade e => .trade e.asStored
  | .ingest e => .ingest e.asStored
  | .checkpoint c => .checkpoint c.asStored
  | .validation v => .validation v

@[simp] theorem PersistedRecord.asStored_asStored (record : PersistedRecord) :
    record.asStored.asStored = record.asStored := by
  cases record <;> rfl

@[simp] theorem PersistedRecord.assetPartition_asStored (record : PersistedRecord) :
    record.asStored.assetPartition = record.assetPartition := by
  cases record <;> rfl

/-! The values that the types of the source can hold: the model has natural numbers for
`u64` fields and strings and lists of any length. -/

/-- A number that fits a `u64`. -/
def FitsU64 (n : Nat) : Prop := n < 2 ^ 64

/-- A string whose length fits a `u64`. -/
def FitsStr (s : String) : Prop := s.utf8ByteSize < 2 ^ 64

instance (n : Nat) : Decidable (FitsU64 n) := by
  unfold FitsU64
  infer_instance

instance (s : String) : Decidable (FitsStr s) := by
  unfold FitsStr
  infer_instance

/-- The fields fit their types. -/
def EventProvenance.Representable (p : EventProvenance) : Prop :=
  FitsU64 p.recvTimestampUs ∧ FitsU64 p.exchangeTimestampUs ∧
    (∀ s ∈ p.sourceEventId, FitsStr s) ∧ (∀ s ∈ p.sourceSessionId, FitsStr s) ∧
    (∀ n ∈ p.sequence, FitsU64 n) ∧ ∀ n ∈ p.ingestOrdinal, FitsU64 n

/-- The fields of a record fit their types. -/
def PersistedRecord.Representable : PersistedRecord → Prop
  | .book e => FitsStr e.assetId ∧ e.provenance.Representable
  | .trade e => FitsStr e.assetId ∧ (∀ s ∈ e.tradeId, FitsStr s) ∧ e.provenance.Representable
  | .ingest e =>
      (∀ s ∈ e.assetId, FitsStr s) ∧ e.provenance.Representable ∧
        (∀ n ∈ e.expectedSequence, FitsU64 n) ∧ (∀ n ∈ e.observedSequence, FitsU64 n) ∧
        ∀ s ∈ e.details, FitsStr s
  | .checkpoint c =>
      FitsStr c.assetId ∧ FitsU64 c.checkpointTimestampUs ∧ c.provenance.Representable ∧
        FitsU64 c.bids.length ∧ FitsU64 c.asks.length ∧ ∀ n ∈ c.walOffset, FitsU64 n
  | .validation v =>
      FitsStr v.assetId ∧ FitsU64 v.replayTimestampUs ∧ FitsU64 v.referenceTimestampUs ∧
        (∀ s ∈ v.mismatchSummary, FitsStr s) ∧ FitsU64 v.persistedAtUs

instance (p : EventProvenance) : Decidable p.Representable := by
  unfold EventProvenance.Representable
  infer_instance

instance (r : PersistedRecord) : Decidable r.Representable := by
  cases r <;> unfold PersistedRecord.Representable <;> infer_instance

/-- What the reader has read for a window. -/
structure MarketDataWindow where
  bookEvents : List BookEvent
  tradeEvents : List TradeEvent
  ingestEvents : List IngestEvent

end PolyBook
