import PolyBook.Schema
import PolyBook.ReplayEngine
import PolyBook.SnapshotGroups
import PolyBook.WriteBatch
import PolyBook.Library.FlatJson

/-!
# Reading stored rows

The Parquet reader takes the columns of a batch by name and goes through the rows: a row
outside the window or of another asset is passed over, any other one is put together
again from its cells.  A cell that cannot be parsed ends the read.

`schema_round_trip` says what comes back of the batches that the writer builds, and
`writtenGroup_readBack` that this is what a reconstruction takes of a written group.
-/

namespace PolyBook

open Columnar

namespace StoredRows

/-- `ReplayError` at its uses here; `wrongType` is the panic of a column that has another
type than it is read with. -/
inductive ReplayError where
  | invalidEventType (raw : String)
  | invalidSide (raw : String)
  | typesError (message : String)
  | json (message : String)
  | other (message : String)
  | wrongType
  deriving DecidableEq

/-- The source that a row names. -/
def parseSource : String → Except ReplayError DataSource
  | "websocket" => .ok .webSocket
  | "rest_snapshot" => .ok .restSnapshot
  | "replay_validator" => .ok .replayValidator
  | "system" => .ok .system
  | other => .error (.other ("invalid source: " ++ other))

/-- The kind of book event that a row holds a number for. -/
def parseBookKind (value : UInt8) : Except ReplayError BookEventKind :=
  if value = 1 then .ok .snapshot
  else if value = 2 then .ok .delta
  else .error (.invalidEventType (toString value))

/-- The side that a row holds a number for. -/
def parseSideValue (value : UInt8) : Except ReplayError Side :=
  if value = 1 then .ok .bid
  else if value = 2 then .ok .ask
  else .error (.invalidSide (toString value))

/-- The fidelity that a row names. -/
def parseTradeFidelity : String → Except ReplayError TradeFidelity
  | "partial" => .ok .partly
  | "full" => .ok .full
  | other => .error (.other ("invalid trade fidelity: " ++ other))

/-- The kind of ingest event that a row names. -/
def parseIngestKind : String → Except ReplayError IngestEventKind
  | "reconnect_start" => .ok .reconnectStart
  | "reconnect_success" => .ok .reconnectSuccess
  | "sequence_gap" => .ok .sequenceGap
  | "stale_snapshot_skip" => .ok .staleSnapshotSkip
  | "source_reset" => .ok .sourceReset
  | "book_mismatch" => .ok .bookMismatch
  | other => .error (.other ("invalid ingest event kind: " ++ other))

/-- The replay mode that a row names. -/
def parseReplayMode : String → Except ReplayError ReplayMode
  | "recv_time" => .ok .recvTime
  | "exchange_time" => .ok .exchangeTime
  | other => .error (.other ("invalid replay mode: " ++ other))

/-- Every source reads back from its text; so do the other enumerations. -/
theorem parseSource_display (source : DataSource) : parseSource source.display = .ok source := by
  cases source <;> rfl

/-- The number written for a kind is read as that kind. -/
theorem parseBookKind_toU8 (kind : BookEventKind) :
    parseBookKind (Schema.bookKindToU8 kind) = .ok kind := by
  cases kind <;> rfl

/-- The name written for a fidelity is read as that fidelity. -/
theorem parseTradeFidelity_display (fidelity : TradeFidelity) :
    parseTradeFidelity fidelity.display = .ok fidelity := by
  cases fidelity <;> rfl

/-- The name written for a kind of ingest event is read as that kind. -/
theorem parseIngestKind_display (kind : IngestEventKind) :
    parseIngestKind kind.display = .ok kind := by
  cases kind <;> rfl

/-- The name written for a mode is read as that mode. -/
theorem parseReplayMode_display (mode : ReplayMode) : parseReplayMode mode.display = .ok mode := by
  cases mode <;> rfl

/-- A column that must be there, as one of the type it is read with. -/
def column {α : Type} (as : Column → Option (List (Option α))) (batch : RecordBatch)
    (name : String) : Except ReplayError (List (Option α)) :=
  match batch.columnByName name with
  | none => .error (.other ("missing " ++ name ++ " column"))
  | some c =>
      match as c with
      | some values => .ok values
      | none => .error .wrongType

/-- A column that older files do not have. -/
def optionalColumn {α : Type} (as : Column → Option (List (Option α))) (batch : RecordBatch)
    (name : String) : Except ReplayError (Option (List (Option α))) :=
  match batch.columnByName name with
  | none => .ok none
  | some c =>
      match as c with
      | some values => .ok (some values)
      | none => .error .wrongType

/-- The side of a row, where it has one. -/
def optionalSide (sides : List (Option UInt8)) (i : Nat) : Except ReplayError (Option Side) :=
  if isNull sides i then .ok none else (parseSideValue (value sides i)).map some

/-- A number of a row, where it has one. -/
def optionalU64 (values : List (Option UInt64)) (i : Nat) : Option Nat :=
  (nullable values i).map UInt64.toNat

/-- `FixedSize::new`, which takes any `u64`. -/
def fixedSize (raw : UInt64) : FixedSize := ⟨raw.toNat, toNat_le_u64Max raw⟩

/-- A price of a row. -/
def fixedPrice (raw : UInt32) : Except ReplayError FixedPrice :=
  (FixedPrice.new raw.toNat).mapError .typesError

/-- Outside the window. -/
def outside (startUs endUs timestampUs : Nat) : Prop :=
  timestampUs < startUs ∨ endUs < timestampUs

instance (startUs endUs timestampUs : Nat) : Decidable (outside startUs endUs timestampUs) := by
  unfold outside
  infer_instance

section Extract

variable (batch : RecordBatch) (assetId : AssetId) (startUs endUs : Nat)

/-- `extract_book_events`: the asset's rows of the window, or the first error. -/
def extractBookEvents : Except ReplayError (List BookEvent) := do
  let recvTs ← column Column.asUInt64 batch "recv_timestamp_us"
  let exchangeTs ← column Column.asUInt64 batch "exchange_timestamp_us"
  let assetIds ← column Column.asUtf8 batch "asset_id"
  let kinds ← column Column.asUInt8 batch "event_kind"
  let sides ← column Column.asUInt8 batch "side"
  let prices ← column Column.asUInt32 batch "price"
  let sizes ← column Column.asUInt64 batch "size"
  let sequences ← column Column.asUInt64 batch "sequence"
  let sources ← column Column.asUtf8 batch "source"
  let sourceEventIds ← column Column.asUtf8 batch "source_event_id"
  let sourceSessionIds ← column Column.asUtf8 batch "source_session_id"
  let ingestOrdinals ← optionalColumn Column.asUInt64 batch "ingest_ordinal"
  collectRows batch.numRows fun i => do
    if outside startUs endUs (value recvTs i).toNat then return none
    if value assetIds i ≠ assetId then return none
    let kind ← parseBookKind (value kinds i)
    let side ← parseSideValue (value sides i)
    let price ← fixedPrice (value prices i)
    let source ← parseSource (value sources i)
    return some {
      assetId := value assetIds i
      kind := kind
      side := side
      price := price
      size := fixedSize (value sizes i)
      provenance := {
        recvTimestampUs := (value recvTs i).toNat
        exchangeTimestampUs := (value exchangeTs i).toNat
        source := source
        sourceEventId := nullable sourceEventIds i
        sourceSessionId := nullable sourceSessionIds i
        sequence := optionalU64 sequences i
        ingestOrdinal := ingestOrdinals.bind fun ordinals => optionalU64 ordinals i } }

/-- `extract_trade_events`: the asset's rows of the window, or the first error. -/
def extractTradeEvents : Except ReplayError (List TradeEvent) := do
  let recvTs ← column Column.asUInt64 batch "recv_timestamp_us"
  let exchangeTs ← column Column.asUInt64 batch "exchange_timestamp_us"
  let assetIds ← column Column.asUtf8 batch "asset_id"
  let prices ← column Column.asUInt32 batch "price"
  let sizes ← column Column.asUInt64 batch "size"
  let sides ← column Column.asUInt8 batch "side"
  let tradeIds ← column Column.asUtf8 batch "trade_id"
  let fidelities ← column Column.asUtf8 batch "fidelity"
  let sequences ← column Column.asUInt64 batch "sequence"
  let sources ← column Column.asUtf8 batch "source"
  let sourceEventIds ← column Column.asUtf8 batch "source_event_id"
  let sourceSessionIds ← column Column.asUtf8 batch "source_session_id"
  collectRows batch.numRows fun i => do
    if outside startUs endUs (value recvTs i).toNat then return none
    if value assetIds i ≠ assetId then return none
    let side ← optionalSide sides i
    let price ← fixedPrice (value prices i)
    let fidelity ← parseTradeFidelity (value fidelities i)
    let source ← parseSource (value sources i)
    return some {
      assetId := value assetIds i
      price := price
      size := (nullable sizes i).map fixedSize
      side := side
      tradeId := nullable tradeIds i
      fidelity := fidelity
      provenance := {
        recvTimestampUs := (value recvTs i).toNat
        exchangeTimestampUs := (value exchangeTs i).toNat
        source := source
        sourceEventId := nullable sourceEventIds i
        sourceSessionId := nullable sourceSessionIds i
        sequence := optionalU64 sequences i
        ingestOrdinal := none } }

/-- `extract_ingest_events`: the rows of the window that concern the asset, or the first
error. -/
def extractIngestEvents : Except ReplayError (List IngestEvent) := do
  let recvTs ← column Column.asUInt64 batch "recv_timestamp_us"
  let exchangeTs ← column Column.asUInt64 batch "exchange_timestamp_us"
  let assetIds ← column Column.asUtf8 batch "asset_id"
  let kinds ← column Column.asUtf8 batch "event_kind"
  let sequences ← column Column.asUInt64 batch "sequence"
  let expected ← column Column.asUInt64 batch "expected_sequence"
  let observed ← column Column.asUInt64 batch "observed_sequence"
  let details ← column Column.asUtf8 batch "details"
  let sources ← column Column.asUtf8 batch "source"
  let sourceEventIds ← column Column.asUtf8 batch "source_event_id"
  let sourceSessionIds ← column Column.asUtf8 batch "source_session_id"
  collectRows batch.numRows fun i => do
    if outside startUs endUs (value recvTs i).toNat then return none
    let rowAsset := nullable assetIds i
    if rowAsset.any (· ≠ assetId) then return none
    let kind ← parseIngestKind (value kinds i)
    let source ← parseSource (value sources i)
    return some {
      assetId := rowAsset
      kind := kind
      provenance := {
        recvTimestampUs := (value recvTs i).toNat
        exchangeTimestampUs := (value exchangeTs i).toNat
        source := source
        sourceEventId := nullable sourceEventIds i
        sourceSessionId := nullable sourceSessionIds i
        sequence := optionalU64 sequences i
        ingestOrdinal := none }
      expectedSequence := optionalU64 expected i
      observedSequence := optionalU64 observed i
      details := nullable details i }

/-- `extract_checkpoints`: the asset's rows of the window, or the first error. -/
def extractCheckpoints [Schema.SerdeJson] : Except ReplayError (List BookCheckpoint) := do
  let checkpointTs ← column Column.asUInt64 batch "checkpoint_timestamp_us"
  let recvTs ← column Column.asUInt64 batch "recv_timestamp_us"
  let exchangeTs ← column Column.asUInt64 batch "exchange_timestamp_us"
  let assetIds ← column Column.asUtf8 batch "asset_id"
  let sources ← column Column.asUtf8 batch "source"
  let sourceEventIds ← column Column.asUtf8 batch "source_event_id"
  let sourceSessionIds ← column Column.asUtf8 batch "source_session_id"
  let bids ← column Column.asUtf8 batch "bids_json"
  let asks ← column Column.asUtf8 batch "asks_json"
  collectRows batch.numRows fun i => do
    if outside startUs endUs (value checkpointTs i).toNat then return none
    if value assetIds i ≠ assetId then return none
    let source ← parseSource (value sources i)
    let bids ← (Schema.levelsFromStr (value bids i)).mapError .json
    let asks ← (Schema.levelsFromStr (value asks i)).mapError .json
    return some {
      assetId := value assetIds i
      checkpointTimestampUs := (value checkpointTs i).toNat
      provenance := {
        recvTimestampUs := (value recvTs i).toNat
        exchangeTimestampUs := (value exchangeTs i).toNat
        source := source
        sourceEventId := nullable sourceEventIds i
        sourceSessionId := nullable sourceSessionIds i
        sequence := none
        ingestOrdinal := none }
      bids := bids
      asks := asks
      -- A column that is missing or of another type counts as null.
      walOffset := ((batch.columnByName "wal_offset").bind Column.asUInt64).bind
        fun offsets => optionalU64 offsets i }

/-- `extract_validations`: the asset's rows of the window, or the first error. -/
def extractValidations : Except ReplayError (List ReplayValidation) := do
  let assetIds ← column Column.asUtf8 batch "asset_id"
  let modes ← column Column.asUtf8 batch "mode"
  let replayTs ← column Column.asUInt64 batch "replay_timestamp_us"
  let referenceTs ← column Column.asUInt64 batch "reference_timestamp_us"
  let matched ← column Column.asBoolean batch "matched"
  let mismatches ← column Column.asUtf8 batch "mismatch_summary"
  let persistedAt ← column Column.asUInt64 batch "persisted_at_us"
  collectRows batch.numRows fun i => do
    if outside startUs endUs (value persistedAt i).toNat then return none
    if value assetIds i ≠ assetId then return none
    let mode ← parseReplayMode (value modes i)
    return some {
      assetId := value assetIds i
      mode := mode
      replayTimestampUs := (value replayTs i).toNat
      referenceTimestampUs := (value referenceTs i).toNat
      matched := value matched i
      mismatchSummary := nullable mismatches i
      persistedAtUs := (value persistedAt i).toNat }

end Extract

section Cells

variable {ρ : Type} {rows : List ρ} {i : Nat} {row : ρ}

/-- A column without gaps holds what was put into it. -/
theorem value_present {α : Type} [Inhabited α] (h : rows[i]? = some row) (f : ρ → α) :
    value (Schema.present f rows) i = f row := value_map h f

/-- A column of `u64` values holds what was put into it. -/
theorem u64_present (h : rows[i]? = some row) (f : ρ → Nat) (hf : FitsU64 (f row)) :
    (value (Schema.present (fun r => UInt64.ofNat (f r)) rows) i).toNat = f row := by
  rw [value_present h]
  exact UInt64.toNat_ofNat_of_lt' hf

/-- An optional `u64` is read as it was put. -/
theorem optionalU64_map (h : rows[i]? = some row) (f : ρ → Option Nat)
    (hf : ∀ n ∈ f row, FitsU64 n) :
    optionalU64 (rows.map fun r => (f r).map UInt64.ofNat) i = f row := by
  rw [optionalU64, nullable_map h]
  cases hrow : f row with
  | none => rfl
  | some n => exact congrArg some (UInt64.toNat_ofNat_of_lt' (hf n hrow))

/-- The cells of a row's provenance. -/
theorem provenance_cells (h : rows[i]? = some row) (prov : ρ → EventProvenance)
    (hprov : (prov row).Representable) :
    (value (Schema.present (fun r => UInt64.ofNat (prov r).recvTimestampUs) rows) i).toNat =
        (prov row).recvTimestampUs ∧
      (value (Schema.present (fun r => UInt64.ofNat (prov r).exchangeTimestampUs) rows) i).toNat =
        (prov row).exchangeTimestampUs ∧
      optionalU64 (rows.map fun r => (prov r).sequence.map UInt64.ofNat) i =
        (prov row).sequence ∧
      optionalU64 (rows.map fun r => (prov r).ingestOrdinal.map UInt64.ofNat) i =
        (prov row).ingestOrdinal := by
  obtain ⟨hrecv, hexchange, _, _, hsequence, hordinal⟩ := hprov
  refine ⟨?_, ?_, ?_, ?_⟩
  · exact u64_present h (fun r => (prov r).recvTimestampUs) hrecv
  · exact u64_present h (fun r => (prov r).exchangeTimestampUs) hexchange
  · exact optionalU64_map h (fun r => (prov r).sequence) hsequence
  · exact optionalU64_map h (fun r => (prov r).ingestOrdinal) hordinal

/-- A side is read as it was put. -/
theorem side_cell (h : rows[i]? = some row) (f : ρ → Side) :
    parseSideValue (value (rows.map fun r => Schema.sideToU8 (some (f r))) i) = .ok (f row) := by
  cases hrow : f row <;> simp [value, h, Schema.sideToU8, hrow, parseSideValue]

/-- An optional side is read as it was put. -/
theorem optionalSide_cell (h : rows[i]? = some row) (f : ρ → Option Side) :
    optionalSide (rows.map fun r => Schema.sideToU8 (f r)) i = .ok (f row) := by
  cases hrow : f row with
  | none => simp [optionalSide, isNull, h, Schema.sideToU8, hrow]
  | some side =>
      cases side <;>
        simp [optionalSide, isNull, value, h, Schema.sideToU8, hrow, parseSideValue, Except.map]

/-- A size is read as it was put. -/
theorem fixedSize_ofNat (size : FixedSize) : fixedSize (UInt64.ofNat size.raw) = size := by
  have hlt : size.raw < 2 ^ 64 := size.le_max.trans_lt (by decide)
  have hraw : (UInt64.ofNat size.raw).toNat = size.raw := UInt64.toNat_ofNat_of_lt' hlt
  cases size
  simp only [fixedSize, hraw]

/-- A price is read as it was put, within its range. -/
theorem fixedPrice_ofNat (price : FixedPrice) :
    fixedPrice (UInt32.ofNat price.raw) = .ok price := by
  have hraw : (UInt32.ofNat price.raw).toNat = price.raw :=
    UInt32.toNat_ofNat_of_lt' (price.le_scale.trans_lt (by decide))
  rw [fixedPrice, hraw, FixedPrice.new, dif_pos price.le_scale]
  rfl

end Cells

/-- Columns of one length that the schema allows make a batch. -/
theorem tryBatch_eq {fields : List SchemaField} {first : Column} {rest : List Column}
    (hlength : fields.length = rest.length + 1)
    (hallowed : ∀ c ∈ fields.zip (first :: rest), c.1.Allows first.length c.2) :
    Schema.tryBatch fields (first :: rest) =
      .ok ⟨first.length, fields.zip (first :: rest), hallowed⟩ := by
  rw [Schema.tryBatch, RecordBatch.tryNew_eq hlength hallowed]

section RoundTrip

variable (assetId : AssetId) (startUs endUs : Nat)

/-- The timestamps of a window. -/
def inWindow (timestampUs : Nat) : Bool := startUs ≤ timestampUs && timestampUs ≤ endUs

/-- The reader's test of the window is that of the definitions. -/
theorem not_outside_iff {timestampUs : Nat} :
    ¬ outside startUs endUs timestampUs ↔ inWindow startUs endUs timestampUs = true := by
  simp [outside, inWindow]

/-- The two tests a row has to pass. -/
theorem guarded_eq {α : Type} (timestampUs : Nat) (own : Prop) [Decidable own]
    (row : Except ReplayError (Option α)) :
    (if outside startUs endUs timestampUs then pure none else if own then row else pure none) =
      if (inWindow startUs endUs timestampUs && decide own) = true then row else .ok none := by
  by_cases hwindow : inWindow startUs endUs timestampUs = true
  · rw [if_neg ((not_outside_iff startUs endUs).mpr hwindow), hwindow, Bool.true_and]
    by_cases hown : own
    · rw [if_pos hown, if_pos (decide_eq_true hown)]
    · rw [if_neg hown, if_neg (by simpa using hown)]
      rfl
  · have hout : outside startUs endUs timestampUs := by
      by_contra hin
      exact hwindow ((not_outside_iff startUs endUs).mp hin)
    rw [if_pos hout, if_neg (by simp [hwindow])]
    rfl

/-- The two tests a row has to pass, as one. -/
theorem guarded_not_eq {α : Type} (timestampUs : Nat) (foreign : Prop) [Decidable foreign]
    (row : Except ReplayError (Option α)) :
    (if outside startUs endUs timestampUs then pure none
      else if foreign then pure none else row) =
      if (inWindow startUs endUs timestampUs && decide ¬foreign) = true then row
      else .ok none := by
  rw [← guarded_eq, ite_not]

/-- A batch of book events is read back, up to what the schema leaves out. -/
theorem extractBookEvents_batch (events : List BookEvent)
    (h : ∀ e ∈ events, (PersistedRecord.book e).Representable) :
    ∃ batch, Schema.bookEventRefsToRecordBatch events = .ok batch ∧
      extractBookEvents batch assetId startUs endUs =
        .ok (events.filter fun e =>
          inWindow startUs endUs e.provenance.recvTimestampUs && decide (e.assetId = assetId)) := by
  refine ⟨_, tryBatch_eq rfl ?_, ?_⟩
  · simp [Schema.bookEventSchema, SchemaField.Allows, Column.dataType, Column.length,
      Column.hasNull, Schema.present, Schema.sideToU8]
  simp only [extractBookEvents, column, optionalColumn, Schema.bookEventSchema,
    RecordBatch.columnByName_zip_cons, String.reduceEq, if_true, if_false, Option.bind_some, bind,
    Except.bind, Column.asUInt64,
    Column.asUtf8, Column.asUInt8, Column.asUInt32, Column.length, ne_eq, ite_not, guarded_eq]
  have hlength : (Schema.present (fun e : BookEvent =>
      UInt64.ofNat e.provenance.recvTimestampUs) events).length = events.length :=
    List.length_map _
  rw [hlength, collectRows_eq (fun e : BookEvent =>
    inWindow startUs endUs e.provenance.recvTimestampUs && decide (e.assetId = assetId)) id,
    List.map_id]
  · intro i e hi hskip
    obtain ⟨_, hprovenance⟩ := h e (List.mem_of_getElem? hi)
    obtain ⟨hrecv, _⟩ := provenance_cells hi (fun e : BookEvent => e.provenance) hprovenance
    rw [hrecv, value_present hi, if_neg (by simpa using hskip)]
  · intro i e hi hkeep
    obtain ⟨_, hprovenance⟩ := h e (List.mem_of_getElem? hi)
    obtain ⟨hrecv, hexchange, hsequence, hordinal⟩ :=
      provenance_cells hi (fun e : BookEvent => e.provenance) hprovenance
    rw [hrecv, value_present hi, if_pos hkeep]
    simp only [hexchange, hsequence, hordinal, side_cell hi, nullable_map hi]
    simp only [value_present hi, parseBookKind_toU8, parseSource_display, fixedPrice_ofNat,
      fixedSize_ofNat]
    rfl

/-- A batch of trades is read back, up to what the schema leaves out. -/
theorem extractTradeEvents_batch (events : List TradeEvent)
    (h : ∀ e ∈ events, (PersistedRecord.trade e).Representable) :
    ∃ batch, Schema.tradeEventRefsToRecordBatch events = .ok batch ∧
      extractTradeEvents batch assetId startUs endUs =
        .ok ((events.filter fun e =>
          inWindow startUs endUs e.provenance.recvTimestampUs &&
            decide (e.assetId = assetId)).map TradeEvent.asStored) := by
  refine ⟨_, tryBatch_eq rfl ?_, ?_⟩
  · simp [Schema.tradeEventSchema, SchemaField.Allows, Column.dataType, Column.length,
      Column.hasNull, Schema.present]
  simp only [extractTradeEvents, column, Schema.tradeEventSchema,
    RecordBatch.columnByName_zip_cons, String.reduceEq, if_true, if_false, bind, Except.bind,
    Column.asUInt64,
    Column.asUtf8, Column.asUInt8, Column.asUInt32, Column.length, ne_eq, ite_not, guarded_eq]
  have hlength : (Schema.present (fun e : TradeEvent =>
      UInt64.ofNat e.provenance.recvTimestampUs) events).length = events.length :=
    List.length_map _
  rw [hlength, collectRows_eq (fun e : TradeEvent =>
    inWindow startUs endUs e.provenance.recvTimestampUs && decide (e.assetId = assetId))
    TradeEvent.asStored]
  · intro i e hi hskip
    obtain ⟨_, _, hprovenance⟩ := h e (List.mem_of_getElem? hi)
    obtain ⟨hrecv, _⟩ := provenance_cells hi (fun e : TradeEvent => e.provenance) hprovenance
    rw [hrecv, value_present hi, if_neg (by simpa using hskip)]
  · intro i e hi hkeep
    obtain ⟨_, _, hprovenance⟩ := h e (List.mem_of_getElem? hi)
    obtain ⟨hrecv, hexchange, hsequence, _⟩ :=
      provenance_cells hi (fun e : TradeEvent => e.provenance) hprovenance
    rw [hrecv, value_present hi, if_pos hkeep]
    have hsize : (e.size.map fun size => UInt64.ofNat size.raw).map fixedSize = e.size := by
      cases e.size with
      | none => rfl
      | some size => exact congrArg some (fixedSize_ofNat size)
    simp only [hexchange, hsequence, optionalSide_cell hi, nullable_map hi, hsize]
    simp only [value_present hi, parseTradeFidelity_display, parseSource_display,
      fixedPrice_ofNat]
    rfl

/-- An event of the asset or of the whole feed. -/
theorem own_or_feed_wide (rowAsset : Option AssetId) :
    decide (¬(rowAsset.any fun rowAssetId => rowAssetId ≠ assetId) = true) =
      decide (rowAsset = none ∨ rowAsset = some assetId) := by
  cases rowAsset <;> simp

/-- A batch of ingest events is read back, up to what the schema leaves out. -/
theorem extractIngestEvents_batch (events : List IngestEvent)
    (h : ∀ e ∈ events, (PersistedRecord.ingest e).Representable) :
    ∃ batch, Schema.ingestEventRefsToRecordBatch events = .ok batch ∧
      extractIngestEvents batch assetId startUs endUs =
        .ok ((events.filter fun e =>
          inWindow startUs endUs e.provenance.recvTimestampUs &&
            decide (e.assetId = none ∨ e.assetId = some assetId)).map
          IngestEvent.asStored) := by
  refine ⟨_, tryBatch_eq rfl ?_, ?_⟩
  · simp [Schema.ingestEventSchema, SchemaField.Allows, Column.dataType, Column.length,
      Column.hasNull, Schema.present]
  simp only [extractIngestEvents, column, Schema.ingestEventSchema,
    RecordBatch.columnByName_zip_cons, String.reduceEq, if_true, if_false, bind, Except.bind,
    Column.asUInt64,
    Column.asUtf8, Column.length, guarded_not_eq]
  have hlength : (Schema.present (fun e : IngestEvent =>
      UInt64.ofNat e.provenance.recvTimestampUs) events).length = events.length :=
    List.length_map _
  rw [hlength, collectRows_eq (fun e : IngestEvent =>
    inWindow startUs endUs e.provenance.recvTimestampUs &&
      decide (e.assetId = none ∨ e.assetId = some assetId)) IngestEvent.asStored]
  · intro i e hi hskip
    obtain ⟨_, hprovenance, _⟩ := h e (List.mem_of_getElem? hi)
    obtain ⟨hrecv, _⟩ := provenance_cells hi (fun e : IngestEvent => e.provenance) hprovenance
    rw [hrecv, nullable_map hi, own_or_feed_wide, if_neg (by rw [hskip]; exact Bool.false_ne_true)]
  · intro i e hi hkeep
    obtain ⟨_, hprovenance, hexpected, hobserved, _⟩ := h e (List.mem_of_getElem? hi)
    obtain ⟨hrecv, hexchange, hsequence, _⟩ :=
      provenance_cells hi (fun e : IngestEvent => e.provenance) hprovenance
    rw [hrecv, nullable_map hi, own_or_feed_wide, if_pos hkeep]
    simp only [hexchange, hsequence, nullable_map hi,
      optionalU64_map hi (fun e : IngestEvent => e.expectedSequence) hexpected,
      optionalU64_map hi (fun e : IngestEvent => e.observedSequence) hobserved]
    simp only [value_present hi, parseIngestKind_display, parseSource_display]
    rfl

/-- A batch of checkpoints is read back, up to what the schema leaves out. -/
theorem extractCheckpoints_batch [Schema.SerdeJson] [Schema.LawfulSerdeJson]
    (checkpoints : List BookCheckpoint)
    (h : ∀ c ∈ checkpoints, (PersistedRecord.checkpoint c).Representable) :
    ∃ batch, Schema.checkpointRefsToRecordBatch checkpoints = .ok batch ∧
      extractCheckpoints batch assetId startUs endUs =
        .ok ((checkpoints.filter fun c =>
          inWindow startUs endUs c.checkpointTimestampUs && decide (c.assetId = assetId)).map
          BookCheckpoint.asStored) := by
  choose text hwritten hread using Schema.levelsFromStr_toString
  have hmap : ∀ f : BookCheckpoint → List PriceLevel,
      (checkpoints.mapM fun c => Schema.levelsToString (f c)) =
        .ok (checkpoints.map fun c => text (f c)) := by
    intro f
    simp only [hwritten]
    exact List.mapM_pure
  rw [Schema.checkpointRefsToRecordBatch, hmap, hmap]
  refine ⟨_, tryBatch_eq rfl ?_, ?_⟩
  · simp [Schema.checkpointSchema, SchemaField.Allows, Column.dataType, Column.length,
      Column.hasNull, Schema.present]
  simp only [extractCheckpoints, column, Schema.checkpointSchema,
    RecordBatch.columnByName_zip_cons, String.reduceEq, if_true, if_false, Option.bind_some, bind,
    Except.bind, Column.asUInt64, Column.asUtf8, Column.length, ne_eq, ite_not, guarded_eq,
    List.map_map]
  have hlength : (Schema.present (fun c : BookCheckpoint =>
      UInt64.ofNat c.checkpointTimestampUs) checkpoints).length = checkpoints.length :=
    List.length_map _
  rw [hlength, collectRows_eq (fun c : BookCheckpoint =>
    inWindow startUs endUs c.checkpointTimestampUs && decide (c.assetId = assetId))
    BookCheckpoint.asStored]
  · intro i c hi hskip
    obtain ⟨_, htimestamp, _⟩ := h c (List.mem_of_getElem? hi)
    rw [u64_present hi (fun c : BookCheckpoint => c.checkpointTimestampUs) htimestamp,
      value_present hi, if_neg (by simpa using hskip)]
  · intro i c hi hkeep
    obtain ⟨_, htimestamp, hprovenance, _, _, hoffset⟩ := h c (List.mem_of_getElem? hi)
    obtain ⟨hrecv, hexchange, _, _⟩ :=
      provenance_cells hi (fun c : BookCheckpoint => c.provenance) hprovenance
    have htime := u64_present hi (fun c : BookCheckpoint => c.checkpointTimestampUs) htimestamp
    rw [htime, value_present hi, if_pos hkeep]
    simp only [hrecv, hexchange, nullable_map hi,
      optionalU64_map hi (fun c : BookCheckpoint => c.walOffset) hoffset]
    simp only [value_present hi, value_map hi, Function.comp_def, hread, parseSource_display]
    rfl

/-- A batch of validations is read back, up to what the schema leaves out. -/
theorem extractValidations_batch (validations : List ReplayValidation)
    (h : ∀ v ∈ validations, (PersistedRecord.validation v).Representable) :
    ∃ batch, Schema.replayValidationRefsToRecordBatch validations = .ok batch ∧
      extractValidations batch assetId startUs endUs =
        .ok (validations.filter fun v =>
          inWindow startUs endUs v.persistedAtUs && decide (v.assetId = assetId)) := by
  refine ⟨_, tryBatch_eq rfl ?_, ?_⟩
  · simp [Schema.replayValidationSchema, SchemaField.Allows, Column.dataType, Column.length,
      Column.hasNull, Schema.present]
  simp only [extractValidations, column, Schema.replayValidationSchema,
    RecordBatch.columnByName_zip_cons, String.reduceEq, if_true, if_false, bind, Except.bind,
    Column.asUInt64,
    Column.asUtf8, Column.asBoolean, ne_eq, ite_not, guarded_eq, Column.length]
  have hlength : (Schema.present (fun v : ReplayValidation => v.assetId) validations).length =
      validations.length := List.length_map _
  rw [hlength, collectRows_eq (fun v : ReplayValidation =>
    inWindow startUs endUs v.persistedAtUs && decide (v.assetId = assetId)) id, List.map_id]
  · intro i v hi hskip
    obtain ⟨_, _, _, _, hpersisted⟩ := h v (List.mem_of_getElem? hi)
    rw [u64_present hi (fun v : ReplayValidation => v.persistedAtUs) hpersisted,
      value_present hi, if_neg (by simpa using hskip)]
  · intro i v hi hkeep
    obtain ⟨_, hreplay, hreference, _, hpersisted⟩ := h v (List.mem_of_getElem? hi)
    have htime := u64_present hi (fun v : ReplayValidation => v.persistedAtUs) hpersisted
    rw [htime, value_present hi, if_pos hkeep]
    simp only [nullable_map hi,
      u64_present hi (fun v : ReplayValidation => v.replayTimestampUs) hreplay,
      u64_present hi (fun v : ReplayValidation => v.referenceTimestampUs) hreference]
    simp only [value_present hi, parseReplayMode_display]
    rfl

/-- **What is written is read.**  Of the batch that the writer builds from the records of a
dataset, the reader gives back, in order, the records of the asset inside the window. -/
theorem schema_round_trip [Schema.SerdeJson] [Schema.LawfulSerdeJson] :
    (∀ events : List BookEvent, (∀ e ∈ events, (PersistedRecord.book e).Representable) →
      ∃ batch, Schema.bookEventRefsToRecordBatch events = .ok batch ∧
        extractBookEvents batch assetId startUs endUs =
          .ok (events.filter fun e =>
            inWindow startUs endUs e.provenance.recvTimestampUs &&
              decide (e.assetId = assetId))) ∧
    (∀ events : List TradeEvent, (∀ e ∈ events, (PersistedRecord.trade e).Representable) →
      ∃ batch, Schema.tradeEventRefsToRecordBatch events = .ok batch ∧
        extractTradeEvents batch assetId startUs endUs =
          .ok ((events.filter fun e =>
            inWindow startUs endUs e.provenance.recvTimestampUs &&
              decide (e.assetId = assetId)).map TradeEvent.asStored)) ∧
    (∀ events : List IngestEvent, (∀ e ∈ events, (PersistedRecord.ingest e).Representable) →
      ∃ batch, Schema.ingestEventRefsToRecordBatch events = .ok batch ∧
        extractIngestEvents batch assetId startUs endUs =
          .ok ((events.filter fun e =>
            inWindow startUs endUs e.provenance.recvTimestampUs &&
              decide (e.assetId = none ∨ e.assetId = some assetId)).map IngestEvent.asStored)) ∧
    (∀ checkpoints : List BookCheckpoint,
      (∀ c ∈ checkpoints, (PersistedRecord.checkpoint c).Representable) →
      ∃ batch, Schema.checkpointRefsToRecordBatch checkpoints = .ok batch ∧
        extractCheckpoints batch assetId startUs endUs =
          .ok ((checkpoints.filter fun c =>
            inWindow startUs endUs c.checkpointTimestampUs &&
              decide (c.assetId = assetId)).map BookCheckpoint.asStored)) ∧
    ∀ validations : List ReplayValidation,
      (∀ v ∈ validations, (PersistedRecord.validation v).Representable) →
      ∃ batch, Schema.replayValidationRefsToRecordBatch validations = .ok batch ∧
        extractValidations batch assetId startUs endUs =
          .ok (validations.filter fun v =>
            inWindow startUs endUs v.persistedAtUs && decide (v.assetId = assetId)) :=
  ⟨extractBookEvents_batch assetId startUs endUs, extractTradeEvents_batch assetId startUs endUs,
    extractIngestEvents_batch assetId startUs endUs,
    extractCheckpoints_batch assetId startUs endUs,
    extractValidations_batch assetId startUs endUs⟩

/-! The reader gives what reconstruction takes a read of the stored records to be. -/

/-- Filtering rows and mapping them is one pass over what they are wrapped in. -/
theorem filter_map_eq_filterMap {ρ α β : Type} {wrap : ρ → β} {extract : β → Option α}
    {p : ρ → Bool} {f : ρ → α}
    (h : ∀ r, extract (wrap r) = if p r = true then some (f r) else none) (rows : List ρ) :
    (rows.filter p).map f = (rows.map wrap).filterMap extract := by
  induction rows with
  | nil => rfl
  | cons r rows ih =>
      rw [List.map_cons, List.filterMap_cons, h, List.filter_cons]
      by_cases hp : p r = true
      · rw [if_pos hp, if_pos hp, List.map_cons, ih]
      · rw [if_neg hp, if_neg hp, ih]

/-- Reading a batch of book events gives what the records say, in their stored form. -/
theorem extractBookEvents_refines (events : List BookEvent)
    (h : ∀ e ∈ events, (PersistedRecord.book e).Representable) :
    ∃ batch, Schema.bookEventRefsToRecordBatch events = .ok batch ∧
      extractBookEvents batch assetId startUs endUs =
        .ok ((events.map PersistedRecord.book).filterMap
          (extractBookEvent assetId startUs endUs)) := by
  obtain ⟨batch, hbatch, hread⟩ := extractBookEvents_batch assetId startUs endUs events h
  refine ⟨batch, hbatch, ?_⟩
  rw [hread, ← List.map_id (events.filter _), filter_map_eq_filterMap]
  intro e
  simp [extractBookEvent, inWindow, and_assoc]

/-- Reading a batch of trades gives what the records say, in their stored form. -/
theorem extractTradeEvents_refines (events : List TradeEvent)
    (h : ∀ e ∈ events, (PersistedRecord.trade e).Representable) :
    ∃ batch, Schema.tradeEventRefsToRecordBatch events = .ok batch ∧
      extractTradeEvents batch assetId startUs endUs =
        .ok ((events.map PersistedRecord.trade).filterMap
          (extractTradeEvent assetId startUs endUs)) := by
  obtain ⟨batch, hbatch, hread⟩ := extractTradeEvents_batch assetId startUs endUs events h
  refine ⟨batch, hbatch, ?_⟩
  rw [hread, filter_map_eq_filterMap]
  intro e
  simp [extractTradeEvent, inWindow, and_assoc, TradeEvent.asStored]

/-- Reading a batch of ingest events gives what the records say, in their stored form. -/
theorem extractIngestEvents_refines (events : List IngestEvent)
    (h : ∀ e ∈ events, (PersistedRecord.ingest e).Representable) :
    ∃ batch, Schema.ingestEventRefsToRecordBatch events = .ok batch ∧
      extractIngestEvents batch assetId startUs endUs =
        .ok ((events.map PersistedRecord.ingest).filterMap
          (extractIngestEvent assetId startUs endUs)) := by
  obtain ⟨batch, hbatch, hread⟩ := extractIngestEvents_batch assetId startUs endUs events h
  refine ⟨batch, hbatch, ?_⟩
  rw [hread, filter_map_eq_filterMap]
  intro e
  cases hasset : e.assetId <;>
    simp [extractIngestEvent, inWindow, and_assoc, IngestEvent.asStored, hasset]

/-- Reading a batch of checkpoints gives what the records say, in their stored form. -/
theorem extractCheckpoints_refines [Schema.SerdeJson] [Schema.LawfulSerdeJson]
    (checkpoints : List BookCheckpoint)
    (h : ∀ c ∈ checkpoints, (PersistedRecord.checkpoint c).Representable) :
    ∃ batch, Schema.checkpointRefsToRecordBatch checkpoints = .ok batch ∧
      extractCheckpoints batch assetId startUs endUs =
        .ok ((checkpoints.map PersistedRecord.checkpoint).filterMap
          (extractCheckpoint assetId startUs endUs)) := by
  obtain ⟨batch, hbatch, hread⟩ := extractCheckpoints_batch assetId startUs endUs checkpoints h
  refine ⟨batch, hbatch, ?_⟩
  rw [hread, filter_map_eq_filterMap]
  intro c
  simp [extractCheckpoint, inWindow, and_assoc]

/-! ## The batches of the written groups -/

/-- Each reading of a reconstruction gives of a batch what it takes of these records, if they
are of its dataset. -/
structure ReadBack [Schema.SerdeJson] (records : List PersistedRecord) (batch : RecordBatch) :
    Prop where
  book : (∀ record ∈ records, record.datasetName = "book_events") →
    extractBookEvents batch assetId startUs endUs =
      .ok (records.filterMap (extractBookEvent assetId startUs endUs))
  trade : (∀ record ∈ records, record.datasetName = "trade_events") →
    extractTradeEvents batch assetId startUs endUs =
      .ok (records.filterMap (extractTradeEvent assetId startUs endUs))
  ingest : (∀ record ∈ records, record.datasetName = "ingest_events") →
    extractIngestEvents batch assetId startUs endUs =
      .ok (records.filterMap (extractIngestEvent assetId startUs endUs))
  checkpoint : (∀ record ∈ records, record.datasetName = "book_checkpoints") →
    extractCheckpoints batch assetId startUs endUs =
      .ok (records.filterMap (extractCheckpoint assetId startUs endUs))

/-- The records of one dataset are those of one constructor. -/
theorem exists_map_of_dataset {α : Type} (wrap : α → PersistedRecord) {name : String}
    (hwrap : ∀ record, record.datasetName = name → ∃ a, wrap a = record)
    {records : List PersistedRecord} (h : ∀ record ∈ records, record.datasetName = name) :
    ∃ values : List α, values.map wrap = records := by
  have hrange : ∀ record ∈ records, record ∈ Set.range wrap := fun record hrecord =>
    hwrap record (h record hrecord)
  exact Set.mem_range.mp ((Set.range_list_map wrap).symm ▸ hrange)

variable [Schema.SerdeJson] [Schema.LawfulSerdeJson] {records : List PersistedRecord}

/-- **A batch is read as its records**, whatever dataset they are of. -/
theorem recordsToRecordBatch_readBack (hnonempty : records ≠ [])
    (hone : ∀ record ∈ records, ∀ other ∈ records, record.datasetName = other.datasetName)
    (hrepresentable : ∀ record ∈ records, record.Representable) :
    ∃ batch, Schema.recordsToRecordBatch records = .ok batch ∧
      ReadBack assetId startUs endUs records batch := by
  obtain ⟨first, rest, hrecords⟩ := List.exists_cons_of_ne_nil hnonempty
  have hfirst : first ∈ records := hrecords ▸ List.mem_cons_self
  have hsame : ∀ record ∈ records, record.datasetName = first.datasetName := fun record h =>
    hone record h first hfirst
  -- The readings of the other datasets are not asked for anything.
  have hother : ∀ {name : String} {P : Prop}, first.datasetName ≠ name →
      (∀ record ∈ records, record.datasetName = name) → P :=
    fun hne h => absurd (h first hfirst) hne
  cases first with
  | book event =>
      obtain ⟨values, rfl⟩ := exists_map_of_dataset .book (by
        intro record h
        cases record with
        | book value => exact ⟨value, rfl⟩
        | _ => simp [PersistedRecord.datasetName] at h) hsame
      obtain ⟨batch, hbatch, hread⟩ := extractBookEvents_refines assetId startUs endUs
        values fun value hvalue => hrepresentable _ (List.mem_map_of_mem hvalue)
      refine ⟨batch, ?_, fun _ => hread, hother ?_, hother ?_, hother ?_⟩
      · rw [Schema.recordsToRecordBatch_book (by simpa using hnonempty), hbatch]
      all_goals simp [PersistedRecord.datasetName]
  | trade event =>
      obtain ⟨values, rfl⟩ := exists_map_of_dataset .trade (by
        intro record h
        cases record with
        | trade value => exact ⟨value, rfl⟩
        | _ => simp [PersistedRecord.datasetName] at h) hsame
      obtain ⟨batch, hbatch, hread⟩ := extractTradeEvents_refines assetId startUs endUs
        values fun value hvalue => hrepresentable _ (List.mem_map_of_mem hvalue)
      refine ⟨batch, ?_, hother ?_, fun _ => hread, hother ?_, hother ?_⟩
      · rw [Schema.recordsToRecordBatch_trade (by simpa using hnonempty), hbatch]
      all_goals simp [PersistedRecord.datasetName]
  | ingest event =>
      obtain ⟨values, rfl⟩ := exists_map_of_dataset .ingest (by
        intro record h
        cases record with
        | ingest value => exact ⟨value, rfl⟩
        | _ => simp [PersistedRecord.datasetName] at h) hsame
      obtain ⟨batch, hbatch, hread⟩ := extractIngestEvents_refines assetId startUs endUs
        values fun value hvalue => hrepresentable _ (List.mem_map_of_mem hvalue)
      refine ⟨batch, ?_, hother ?_, hother ?_, fun _ => hread, hother ?_⟩
      · rw [Schema.recordsToRecordBatch_ingest (by simpa using hnonempty), hbatch]
      all_goals simp [PersistedRecord.datasetName]
  | checkpoint checkpoint =>
      obtain ⟨values, rfl⟩ := exists_map_of_dataset .checkpoint (by
        intro record h
        cases record with
        | checkpoint value => exact ⟨value, rfl⟩
        | _ => simp [PersistedRecord.datasetName] at h) hsame
      obtain ⟨batch, hbatch, hread⟩ := extractCheckpoints_refines assetId startUs endUs
        values fun value hvalue => hrepresentable _ (List.mem_map_of_mem hvalue)
      refine ⟨batch, ?_, hother ?_, hother ?_, hother ?_, fun _ => hread⟩
      · rw [Schema.recordsToRecordBatch_checkpoint (by simpa using hnonempty), hbatch]
      all_goals simp [PersistedRecord.datasetName]
  | validation validation =>
      obtain ⟨values, rfl⟩ := exists_map_of_dataset .validation (by
        intro record h
        cases record with
        | validation value => exact ⟨value, rfl⟩
        | _ => simp [PersistedRecord.datasetName] at h) hsame
      obtain ⟨batch, hbatch, hread⟩ := extractValidations_batch assetId startUs endUs
        values fun value hvalue => hrepresentable _ (List.mem_map_of_mem hvalue)
      refine ⟨batch, ?_, hother ?_, hother ?_, hother ?_, hother ?_⟩
      · rw [Schema.recordsToRecordBatch_validation (by simpa using hnonempty), hbatch]
      all_goals simp [PersistedRecord.datasetName]

/-- **A written group is read as its records**: what is taken of its batch is what a
reconstruction takes of them. -/
theorem writtenGroup_readBack {buffer : List PersistedRecord} {key : GroupKey}
    (hnonempty : ParquetRecordWriter.groupRecords buffer key ≠ [])
    (hrepresentable : ∀ record ∈ buffer, record.Representable) :
    ∃ batch, Schema.recordsToRecordBatch (ParquetRecordWriter.groupRecords buffer key) =
        .ok batch ∧
      ReadBack assetId startUs endUs (ParquetRecordWriter.groupRecords buffer key) batch := by
  refine recordsToRecordBatch_readBack assetId startUs endUs hnonempty ?_ fun record hrecord =>
    hrepresentable record (List.mem_filter.mp hrecord).1
  intro record hrecord other hother
  have hkey := (ParquetRecordWriter.key_of_mem hrecord).trans
    (ParquetRecordWriter.key_of_mem hother).symm
  exact congrArg GroupKey.dataset hkey

end RoundTrip

/-- Prices and sizes have nothing to escape, so this is what `serde_json` writes of them. -/
instance flatJson : Schema.SerdeJson where
  toString objects := .ok (FlatJson.render objects)
  fromStr text :=
    match FlatJson.parse text with
    | some objects => .ok objects
    | none => .error "expected value"

instance : Schema.LawfulSerdeJson where
  fromStr_toString objects :=
    ⟨FlatJson.render objects, rfl, by simp only [Schema.SerdeJson.fromStr, FlatJson.parse_render]⟩

/-- The levels of the sample checkpoint. -/
def levels : List PriceLevel :=
  [⟨Sample.price 50, Sample.size 100⟩]

-- The text that the levels of a checkpoint are stored as.
example : Schema.levelsToString levels =
    .ok "[\x7b\"price\":\"0.5000\",\"size\":\"100.000000\"\x7d]" := by
  decide +kernel

/-! One record of each dataset. -/
namespace Stored

/-- The book event of the sample. -/
def book : BookEvent := Sample.level .delta "tok1" .bid 50 100 5 "evt-1"

/-- The trade of the sample, without a size. -/
def trade : TradeEvent where
  assetId := "tok1"
  price := Sample.price 50
  size := none
  side := some .ask
  tradeId := none
  fidelity := .partly
  provenance := Sample.provenance 5 "evt-2"

/-- The ingest event of the sample, of no asset. -/
def ingest : IngestEvent where
  assetId := none
  kind := .sourceReset
  provenance := Sample.provenance 5 "evt-3"
  expectedSequence := none
  observedSequence := none
  details := some "reset"

/-- The checkpoint of the sample, with a log offset. -/
def checkpoint : BookCheckpoint where
  assetId := "tok1"
  checkpointTimestampUs := 5
  provenance := Sample.provenance 4 "evt-4"
  bids := levels
  asks := []
  walOffset := some 1024

/-- The validation of the sample. -/
def validation : ReplayValidation where
  assetId := "tok1"
  mode := .recvTime
  replayTimestampUs := 5
  referenceTimestampUs := 5
  matched := true
  mismatchSummary := none
  persistedAtUs := 6

end Stored

/-- One record of each kind is read back. -/
theorem schema_round_trip_stored :
    (∃ batch, Schema.bookEventRefsToRecordBatch [Stored.book] = .ok batch ∧
      extractBookEvents batch "tok1" 0 9 = .ok ([Stored.book].filter fun e =>
        inWindow 0 9 e.provenance.recvTimestampUs && decide (e.assetId = "tok1"))) ∧
    (∃ batch, Schema.tradeEventRefsToRecordBatch [Stored.trade] = .ok batch ∧
      extractTradeEvents batch "tok1" 0 9 = .ok (([Stored.trade].filter fun e =>
        inWindow 0 9 e.provenance.recvTimestampUs &&
          decide (e.assetId = "tok1")).map TradeEvent.asStored)) ∧
    (∃ batch, Schema.ingestEventRefsToRecordBatch [Stored.ingest] = .ok batch ∧
      extractIngestEvents batch "tok1" 0 9 = .ok (([Stored.ingest].filter fun e =>
        inWindow 0 9 e.provenance.recvTimestampUs &&
          decide (e.assetId = none ∨ e.assetId = some "tok1")).map IngestEvent.asStored)) ∧
    (∃ batch, Schema.checkpointRefsToRecordBatch [Stored.checkpoint] = .ok batch ∧
      extractCheckpoints batch "tok1" 0 9 = .ok (([Stored.checkpoint].filter fun c =>
        inWindow 0 9 c.checkpointTimestampUs &&
          decide (c.assetId = "tok1")).map BookCheckpoint.asStored)) ∧
    ∃ batch, Schema.replayValidationRefsToRecordBatch [Stored.validation] = .ok batch ∧
      extractValidations batch "tok1" 0 9 = .ok ([Stored.validation].filter fun v =>
        inWindow 0 9 v.persistedAtUs && decide (v.assetId = "tok1")) :=
  ⟨(schema_round_trip "tok1" 0 9).1 [Stored.book] (by decide +kernel),
    (schema_round_trip "tok1" 0 9).2.1 [Stored.trade] (by decide +kernel),
    (schema_round_trip "tok1" 0 9).2.2.1 [Stored.ingest] (by decide +kernel),
    (schema_round_trip "tok1" 0 9).2.2.2.1 [Stored.checkpoint] (by decide +kernel),
    (schema_round_trip "tok1" 0 9).2.2.2.2 [Stored.validation] (by decide +kernel)⟩

end StoredRows

end PolyBook
