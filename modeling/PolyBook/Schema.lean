import PolyBook.FixedPoint
import PolyBook.Library.RecordBatch

/-!
# The Parquet schemas

Each dataset is written as a record batch, one column for each stored field, in the order
of the records.  Enumerations are stored as small numbers or by their text, the levels of
a checkpoint as JSON.  The trade, ingest and checkpoint schemas have no column for the
ingest ordinal, and the checkpoint schema none for the sequence.

`serde_json` on an array of objects of strings is a parameter, `SerdeJson`; what is
derived for a level over it is written out.
-/

namespace PolyBook

open Columnar

namespace Schema

/-- The errors of the store. -/
inductive StoreError where
  | arrow
  | json (message : String)
  | other (message : String)
  deriving DecidableEq

/-- `serde_json` on arrays of objects whose members are strings; errors by their text. -/
class SerdeJson where
  toString : List (List (String × String)) → Except String String
  fromStr : String → Except String (List (List (String × String)))

/-- What is written is read back. -/
class LawfulSerdeJson [SerdeJson] : Prop where
  fromStr_toString : ∀ objects, ∃ text, SerdeJson.toString objects = .ok text ∧
    SerdeJson.fromStr text = .ok objects

end Schema

/-- `DataSource`'s `Display` text. -/
def DataSource.display : DataSource → String
  | .webSocket => "websocket"
  | .restSnapshot => "rest_snapshot"
  | .replayValidator => "replay_validator"
  | .system => "system"

/-- `TradeFidelity`'s `Display` text. -/
def TradeFidelity.display : TradeFidelity → String
  | .partly => "partial"
  | .full => "full"

/-- `ReplayMode`'s `Display` text. -/
def ReplayMode.display : ReplayMode → String
  | .recvTime => "recv_time"
  | .exchangeTime => "exchange_time"

/-- The derived `Serialize` of a level: its price and size in decimals. -/
def PriceLevel.toJson (l : PriceLevel) : List (String × String) :=
  [("price", l.price.display), ("size", l.size.display)]

/-- One member of the object that the derived `Deserialize` of a level visits; a member
of another name is passed over. -/
def PriceLevel.visitMember (found : Option FixedPrice × Option FixedSize)
    (member : String × String) : Except String (Option FixedPrice × Option FixedSize) :=
  if member.1 = "price" then
    if found.1.isSome then .error "duplicate field `price`"
    else match FixedPrice.tryFrom member.2 with
      | .ok price => .ok (some price, found.2)
      | .error err => .error err.display
  else if member.1 = "size" then
    if found.2.isSome then .error "duplicate field `size`"
    else match FixedSize.tryFrom member.2 with
      | .ok size => .ok (found.1, some size)
      | .error err => .error err.display
  else .ok found

/-- A level read from its JSON object. -/
def PriceLevel.fromJson (members : List (String × String)) : Except String PriceLevel :=
  match members.foldlM visitMember (none, none) with
  | .error err => .error err
  | .ok (some price, some size) => .ok ⟨price, size⟩
  | .ok (none, _) => .error "missing field `price`"
  | .ok (some _, none) => .error "missing field `size`"

/-- A level is read as it was rendered. -/
theorem PriceLevel.fromJson_toJson (l : PriceLevel) : PriceLevel.fromJson l.toJson = .ok l := by
  have hmembers : l.toJson.foldlM visitMember (none, none) =
      .ok (some l.price, some l.size) := by
    simp [toJson, visitMember, FixedPrice.tryFrom_display, FixedSize.tryFrom_display, bind,
      Except.bind, pure, Except.pure]
  rw [fromJson, hmembers]

namespace Schema

section Json

variable [SerdeJson]

/-- `serde_json::to_string` on levels. -/
def levelsToString (levels : List PriceLevel) : Except StoreError String :=
  (SerdeJson.toString (levels.map PriceLevel.toJson)).mapError .json

/-- `serde_json::from_str` on levels. -/
def levelsFromStr (text : String) : Except String (List PriceLevel) := do
  let objects ← SerdeJson.fromStr text
  objects.mapM PriceLevel.fromJson

/-- Levels are read back as they were written. -/
theorem levelsFromStr_toString [LawfulSerdeJson] (levels : List PriceLevel) :
    ∃ text, levelsToString levels = .ok text ∧ levelsFromStr text = .ok levels := by
  obtain ⟨text, hwritten, hread⟩ :=
    LawfulSerdeJson.fromStr_toString (levels.map PriceLevel.toJson)
  refine ⟨text, by rw [levelsToString, hwritten]; rfl, ?_⟩
  rw [levelsFromStr, hread]
  show (levels.map PriceLevel.toJson).mapM PriceLevel.fromJson = .ok levels
  clear hwritten hread
  induction levels with
  | nil => rfl
  | cons l levels ih =>
      rw [List.map_cons, List.mapM_cons, PriceLevel.fromJson_toJson, ih]
      rfl

end Json

/-- The columns of the book event dataset. -/
def bookEventSchema : List SchemaField :=
  [⟨"recv_timestamp_us", .uInt64, false⟩,
    ⟨"exchange_timestamp_us", .uInt64, false⟩,
    ⟨"asset_id", .utf8, false⟩,
    ⟨"event_kind", .uInt8, false⟩,
    ⟨"side", .uInt8, false⟩,
    ⟨"price", .uInt32, false⟩,
    ⟨"size", .uInt64, false⟩,
    ⟨"sequence", .uInt64, true⟩,
    ⟨"source", .utf8, false⟩,
    ⟨"source_event_id", .utf8, true⟩,
    ⟨"source_session_id", .utf8, true⟩,
    ⟨"ingest_ordinal", .uInt64, true⟩]

/-- The columns of the trade dataset. -/
def tradeEventSchema : List SchemaField :=
  [⟨"recv_timestamp_us", .uInt64, false⟩,
    ⟨"exchange_timestamp_us", .uInt64, false⟩,
    ⟨"asset_id", .utf8, false⟩,
    ⟨"price", .uInt32, false⟩,
    ⟨"size", .uInt64, true⟩,
    ⟨"side", .uInt8, true⟩,
    ⟨"trade_id", .utf8, true⟩,
    ⟨"fidelity", .utf8, false⟩,
    ⟨"sequence", .uInt64, true⟩,
    ⟨"source", .utf8, false⟩,
    ⟨"source_event_id", .utf8, true⟩,
    ⟨"source_session_id", .utf8, true⟩]

/-- The columns of the ingest event dataset. -/
def ingestEventSchema : List SchemaField :=
  [⟨"recv_timestamp_us", .uInt64, false⟩,
    ⟨"exchange_timestamp_us", .uInt64, false⟩,
    ⟨"asset_id", .utf8, true⟩,
    ⟨"event_kind", .utf8, false⟩,
    ⟨"sequence", .uInt64, true⟩,
    ⟨"expected_sequence", .uInt64, true⟩,
    ⟨"observed_sequence", .uInt64, true⟩,
    ⟨"details", .utf8, true⟩,
    ⟨"source", .utf8, false⟩,
    ⟨"source_event_id", .utf8, true⟩,
    ⟨"source_session_id", .utf8, true⟩]

/-- The columns of the checkpoint dataset. -/
def checkpointSchema : List SchemaField :=
  [⟨"checkpoint_timestamp_us", .uInt64, false⟩,
    ⟨"recv_timestamp_us", .uInt64, false⟩,
    ⟨"exchange_timestamp_us", .uInt64, false⟩,
    ⟨"asset_id", .utf8, false⟩,
    ⟨"source", .utf8, false⟩,
    ⟨"source_event_id", .utf8, true⟩,
    ⟨"source_session_id", .utf8, true⟩,
    ⟨"bids_json", .utf8, false⟩,
    ⟨"asks_json", .utf8, false⟩,
    ⟨"wal_offset", .uInt64, true⟩]

/-- The columns of the validation dataset. -/
def replayValidationSchema : List SchemaField :=
  [⟨"asset_id", .utf8, false⟩,
    ⟨"mode", .utf8, false⟩,
    ⟨"replay_timestamp_us", .uInt64, false⟩,
    ⟨"reference_timestamp_us", .uInt64, false⟩,
    ⟨"matched", .boolean, false⟩,
    ⟨"mismatch_summary", .utf8, true⟩,
    ⟨"persisted_at_us", .uInt64, false⟩]

/-- The number that stands for a kind of book event. -/
def bookKindToU8 : BookEventKind → UInt8
  | .snapshot => 1
  | .delta => 2

/-- The number that stands for a side. -/
def sideToU8 (side : Option Side) : Option UInt8 :=
  side.map fun
    | .bid => 1
    | .ask => 2

/-- Put columns under a schema. -/
def tryBatch (fields : List SchemaField) (columns : List Column) : Except StoreError RecordBatch :=
  match RecordBatch.tryNew fields columns with
  | some batch => .ok batch
  | none => .error .arrow

/-- A column of values that are never null. -/
def present {α ρ : Type} (f : ρ → α) (rows : List ρ) : List (Option α) :=
  rows.map fun r => some (f r)

/-- The batch of some book events, column by column. -/
def bookEventRefsToRecordBatch (events : List BookEvent) : Except StoreError RecordBatch :=
  tryBatch bookEventSchema
    [.uInt64 (present (fun e => UInt64.ofNat e.provenance.recvTimestampUs) events),
      .uInt64 (present (fun e => UInt64.ofNat e.provenance.exchangeTimestampUs) events),
      .utf8 (present (fun e => e.assetId) events),
      .uInt8 (present (fun e => bookKindToU8 e.kind) events),
      .uInt8 (events.map fun e => sideToU8 (some e.side)),
      .uInt32 (present (fun e => UInt32.ofNat e.price.raw) events),
      .uInt64 (present (fun e => UInt64.ofNat e.size.raw) events),
      .uInt64 (events.map fun e => e.provenance.sequence.map UInt64.ofNat),
      .utf8 (present (fun e => e.provenance.source.display) events),
      .utf8 (events.map fun e => e.provenance.sourceEventId),
      .utf8 (events.map fun e => e.provenance.sourceSessionId),
      .uInt64 (events.map fun e => e.provenance.ingestOrdinal.map UInt64.ofNat)]

/-- The batch of some trades, column by column. -/
def tradeEventRefsToRecordBatch (events : List TradeEvent) : Except StoreError RecordBatch :=
  tryBatch tradeEventSchema
    [.uInt64 (present (fun e => UInt64.ofNat e.provenance.recvTimestampUs) events),
      .uInt64 (present (fun e => UInt64.ofNat e.provenance.exchangeTimestampUs) events),
      .utf8 (present (fun e => e.assetId) events),
      .uInt32 (present (fun e => UInt32.ofNat e.price.raw) events),
      .uInt64 (events.map fun e => e.size.map fun size => UInt64.ofNat size.raw),
      .uInt8 (events.map fun e => sideToU8 e.side),
      .utf8 (events.map fun e => e.tradeId),
      .utf8 (present (fun e => e.fidelity.display) events),
      .uInt64 (events.map fun e => e.provenance.sequence.map UInt64.ofNat),
      .utf8 (present (fun e => e.provenance.source.display) events),
      .utf8 (events.map fun e => e.provenance.sourceEventId),
      .utf8 (events.map fun e => e.provenance.sourceSessionId)]

/-- The batch of some ingest events, column by column. -/
def ingestEventRefsToRecordBatch (events : List IngestEvent) : Except StoreError RecordBatch :=
  tryBatch ingestEventSchema
    [.uInt64 (present (fun e => UInt64.ofNat e.provenance.recvTimestampUs) events),
      .uInt64 (present (fun e => UInt64.ofNat e.provenance.exchangeTimestampUs) events),
      .utf8 (events.map fun e => e.assetId),
      .utf8 (present (fun e => e.kind.display) events),
      .uInt64 (events.map fun e => e.provenance.sequence.map UInt64.ofNat),
      .uInt64 (events.map fun e => e.expectedSequence.map UInt64.ofNat),
      .uInt64 (events.map fun e => e.observedSequence.map UInt64.ofNat),
      .utf8 (events.map fun e => e.details),
      .utf8 (present (fun e => e.provenance.source.display) events),
      .utf8 (events.map fun e => e.provenance.sourceEventId),
      .utf8 (events.map fun e => e.provenance.sourceSessionId)]

/-- The batch of some checkpoints, their levels as JSON. -/
def checkpointRefsToRecordBatch [SerdeJson] (checkpoints : List BookCheckpoint) :
    Except StoreError RecordBatch := do
  let bidsJson ← checkpoints.mapM fun c => levelsToString c.bids
  let asksJson ← checkpoints.mapM fun c => levelsToString c.asks
  tryBatch checkpointSchema
    [.uInt64 (present (fun c => UInt64.ofNat c.checkpointTimestampUs) checkpoints),
      .uInt64 (present (fun c => UInt64.ofNat c.provenance.recvTimestampUs) checkpoints),
      .uInt64 (present (fun c => UInt64.ofNat c.provenance.exchangeTimestampUs) checkpoints),
      .utf8 (present (fun c => c.assetId) checkpoints),
      .utf8 (present (fun c => c.provenance.source.display) checkpoints),
      .utf8 (checkpoints.map fun c => c.provenance.sourceEventId),
      .utf8 (checkpoints.map fun c => c.provenance.sourceSessionId),
      .utf8 (bidsJson.map some),
      .utf8 (asksJson.map some),
      .uInt64 (checkpoints.map fun c => c.walOffset.map UInt64.ofNat)]

/-- The batch of some validations, column by column. -/
def replayValidationRefsToRecordBatch (validations : List ReplayValidation) :
    Except StoreError RecordBatch :=
  tryBatch replayValidationSchema
    [.utf8 (present (fun v => v.assetId) validations),
      .utf8 (present (fun v => v.mode.display) validations),
      .uInt64 (present (fun v => UInt64.ofNat v.replayTimestampUs) validations),
      .uInt64 (present (fun v => UInt64.ofNat v.referenceTimestampUs) validations),
      .boolean (present (fun v => v.matched) validations),
      .utf8 (validations.map fun v => v.mismatchSummary),
      .uInt64 (present (fun v => UInt64.ofNat v.persistedAtUs) validations)]

/-- The records as those of one dataset. -/
def ofOneDataset {α : Type} (select : PersistedRecord → Option α)
    (records : List PersistedRecord) : Except StoreError (List α) :=
  records.mapM fun record =>
    match select record with
    | some x => .ok x
    | none => .error (.other "mixed dataset batch")

/-- The batch of the dataset of the first record. -/
def recordsToRecordBatch [SerdeJson] (records : List PersistedRecord) :
    Except StoreError RecordBatch :=
  match records with
  | [] => .error (.other "cannot build record batch from empty record list")
  | first :: _ =>
      match first with
      | .book _ => do
          let values ← ofOneDataset (fun
            | .book event => some event
            | _ => none) records
          bookEventRefsToRecordBatch values
      | .trade _ => do
          let values ← ofOneDataset (fun
            | .trade event => some event
            | _ => none) records
          tradeEventRefsToRecordBatch values
      | .ingest _ => do
          let values ← ofOneDataset (fun
            | .ingest event => some event
            | _ => none) records
          ingestEventRefsToRecordBatch values
      | .checkpoint _ => do
          let values ← ofOneDataset (fun
            | .checkpoint checkpoint => some checkpoint
            | _ => none) records
          checkpointRefsToRecordBatch values
      | .validation _ => do
          let values ← ofOneDataset (fun
            | .validation validation => some validation
            | _ => none) records
          replayValidationRefsToRecordBatch values

/-- Records of one dataset all pass the test of their batch. -/
theorem ofOneDataset_map {α : Type} {select : PersistedRecord → Option α}
    {wrap : α → PersistedRecord} (h : ∀ x, select (wrap x) = some x) (xs : List α) :
    ofOneDataset select (xs.map wrap) = .ok xs := by
  induction xs with
  | nil => rfl
  | cons x xs ih =>
      rw [ofOneDataset] at ih ⊢
      rw [List.map_cons, List.mapM_cons, h, ih]
      rfl

/-- Records of one dataset go to the builder of that dataset. -/
theorem ofOneDataset_bind {α : Type} {select : PersistedRecord → Option α}
    {wrap : α → PersistedRecord} (h : ∀ x, select (wrap x) = some x) (xs : List α)
    (build : List α → Except StoreError RecordBatch) :
    (ofOneDataset select (xs.map wrap)).bind build = build xs := by
  rw [ofOneDataset_map h]
  rfl

/-- A batch of one dataset is the one its own builder makes. -/
theorem recordsToRecordBatch_book [SerdeJson] {events : List BookEvent} (h : events ≠ []) :
    recordsToRecordBatch (events.map .book) = bookEventRefsToRecordBatch events := by
  obtain ⟨e, rest, rfl⟩ := List.exists_cons_of_ne_nil h
  exact ofOneDataset_bind (by intro x; rfl) (e :: rest) _

/-- Trades go to the builder of trades. -/
theorem recordsToRecordBatch_trade [SerdeJson] {events : List TradeEvent} (h : events ≠ []) :
    recordsToRecordBatch (events.map .trade) = tradeEventRefsToRecordBatch events := by
  obtain ⟨e, rest, rfl⟩ := List.exists_cons_of_ne_nil h
  exact ofOneDataset_bind (by intro x; rfl) (e :: rest) _

/-- Ingest events go to the builder of ingest events. -/
theorem recordsToRecordBatch_ingest [SerdeJson] {events : List IngestEvent} (h : events ≠ []) :
    recordsToRecordBatch (events.map .ingest) = ingestEventRefsToRecordBatch events := by
  obtain ⟨e, rest, rfl⟩ := List.exists_cons_of_ne_nil h
  exact ofOneDataset_bind (by intro x; rfl) (e :: rest) _

/-- Checkpoints go to the builder of checkpoints. -/
theorem recordsToRecordBatch_checkpoint [SerdeJson] {checkpoints : List BookCheckpoint}
    (h : checkpoints ≠ []) :
    recordsToRecordBatch (checkpoints.map .checkpoint) =
      checkpointRefsToRecordBatch checkpoints := by
  obtain ⟨c, rest, rfl⟩ := List.exists_cons_of_ne_nil h
  exact ofOneDataset_bind (by intro x; rfl) (c :: rest) _

/-- Validations go to the builder of validations. -/
theorem recordsToRecordBatch_validation [SerdeJson] {validations : List ReplayValidation}
    (h : validations ≠ []) :
    recordsToRecordBatch (validations.map .validation) =
      replayValidationRefsToRecordBatch validations := by
  obtain ⟨v, rest, rfl⟩ := List.exists_cons_of_ne_nil h
  exact ofOneDataset_bind (by intro x; rfl) (v :: rest) _

end Schema

end PolyBook
