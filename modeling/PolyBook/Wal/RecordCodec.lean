import PolyBook.Wal.Codec
import PolyBook.Library.ByteCodec

/-!
# The derived codec of the persisted records

`Serialize` and `Deserialize` are derived for the records field by field, in the order
of declaration; a constant is written as its place in its enumeration, and only
`FixedPrice` and `FixedSize` have code of their own.  The primitives are those of the
`bincode` crate: `BincodeFormat` has them as parameters and `LawfulBincodeFormat` says
what is documented of them.

A reader notes every raw price it comes to, so `decodedPrices` is defined for byte
strings that do not decode as well.  `codec_round_trip` is the contract of the codec.
-/

namespace PolyBook

open ByteCodec

/-- The primitives of `bincode`; errors by their text. -/
class BincodeFormat where
  u32 : Prim String UInt32
  u64 : Prim String UInt64
  bool : Prim String Bool
  str : Prim String String
  optionTag : Prim String Bool
  /-- The error of an enum index outside the declaration. -/
  unknownVariant : Nat → Nat → String

/-- Every primitive is read back as it was written. -/
class LawfulBincodeFormat [BincodeFormat] : Prop where
  u32 : BincodeFormat.u32.LawfulOn fun _ => True
  u64 : BincodeFormat.u64.LawfulOn fun _ => True
  bool : BincodeFormat.bool.LawfulOn fun _ => True
  str : BincodeFormat.str.LawfulOn fun s => s.utf8ByteSize < 2 ^ 64
  optionTag : BincodeFormat.optionTag.LawfulOn fun _ => True

/-- A reader of records, which notes the raw prices it comes to. -/
abbrev RecordReader (α : Type) := Get Nat String α

/-- The sides in the order of their variants, which bincode numbers. -/
def Side.variants : List Side := [.bid, .ask]

/-- The data sources in the order of their variants. -/
def DataSource.variants : List DataSource :=
  [.webSocket, .restSnapshot, .replayValidator, .system]

/-- The kinds of book events in the order of their variants. -/
def BookEventKind.variants : List BookEventKind := [.snapshot, .delta]

/-- The trade fidelities in the order of their variants. -/
def TradeFidelity.variants : List TradeFidelity := [.partly, .full]

/-- The kinds of ingest events in the order of their variants. -/
def IngestEventKind.variants : List IngestEventKind :=
  [.reconnectStart, .reconnectSuccess, .sequenceGap, .staleSnapshotSkip, .sourceReset,
    .bookMismatch]

/-- The replay modes in the order of their variants. -/
def ReplayMode.variants : List ReplayMode := [.recvTime, .exchangeTime]

section Derived

variable [BincodeFormat]

/-- A `u64` field. -/
def putU64 (n : Nat) : List UInt8 := BincodeFormat.u64.put (UInt64.ofNat n)

/-- A `u64` field read back. -/
def getU64 : RecordReader Nat := do
  let n ← BincodeFormat.u64.read
  pure n.toNat

/-- An enumeration without payload: the number of its variant. -/
def putEnum {α : Type} [BEq α] (variants : List α) (a : α) : List UInt8 :=
  putVariant BincodeFormat.u32 variants a

/-- An enumeration read back; a number behind the last variant is an error. -/
def getEnum {α : Type} (variants : List α) : RecordReader α :=
  getVariant BincodeFormat.u32 BincodeFormat.unknownVariant variants

/-- An optional field: a tag, and the value if there is one. -/
def putOpt {α : Type} (put : α → List UInt8) : Option α → List UInt8 :=
  putOption BincodeFormat.optionTag put

/-- An optional field read back. -/
def getOpt {α : Type} (get : RecordReader α) : RecordReader (Option α) :=
  getOption BincodeFormat.optionTag get

/-- A price is the `u32` it holds. -/
def FixedPrice.serialize (price : FixedPrice) : List UInt8 :=
  BincodeFormat.u32.put (UInt32.ofNat price.raw)

/-- A price read back, which has to lie in its range. -/
def FixedPrice.deserialize : RecordReader FixedPrice := do
  let raw ← BincodeFormat.u32.read
  note raw.toNat
  match FixedPrice.new raw.toNat with
  | .ok price => pure price
  | .error e => throw e

/-- A size is the `u64` it holds. -/
def FixedSize.serialize (size : FixedSize) : List UInt8 := putU64 size.raw

/-- A size read back. -/
def FixedSize.deserialize : RecordReader FixedSize := do
  let raw ← BincodeFormat.u64.read
  pure ⟨raw.toNat, toNat_le_u64Max raw⟩

/-- The fields of the provenance, in the order of the struct. -/
def EventProvenance.serialize (p : EventProvenance) : List UInt8 :=
  [putU64 p.recvTimestampUs,
    putU64 p.exchangeTimestampUs,
    putEnum DataSource.variants p.source,
    putOpt BincodeFormat.str.put p.sourceEventId,
    putOpt BincodeFormat.str.put p.sourceSessionId,
    putOpt putU64 p.sequence,
    putOpt putU64 p.ingestOrdinal].flatten

-- `serde(default)` has no part here: the format always has all fields of a struct.
/-- A provenance read back. -/
def EventProvenance.deserialize : RecordReader EventProvenance := do
  let recvTimestampUs ← getU64
  let exchangeTimestampUs ← getU64
  let source ← getEnum DataSource.variants
  let sourceEventId ← getOpt BincodeFormat.str.read
  let sourceSessionId ← getOpt BincodeFormat.str.read
  let sequence ← getOpt getU64
  let ingestOrdinal ← getOpt getU64
  pure ⟨recvTimestampUs, exchangeTimestampUs, source, sourceEventId, sourceSessionId, sequence,
    ingestOrdinal⟩

/-- The fields of a book event, in the order of the struct. -/
def BookEvent.serialize (e : BookEvent) : List UInt8 :=
  [BincodeFormat.str.put e.assetId,
    putEnum BookEventKind.variants e.kind,
    putEnum Side.variants e.side,
    e.price.serialize,
    e.size.serialize,
    e.provenance.serialize].flatten

/-- A book event read back. -/
def BookEvent.deserialize : RecordReader BookEvent := do
  let assetId ← BincodeFormat.str.read
  let kind ← getEnum BookEventKind.variants
  let side ← getEnum Side.variants
  let price ← FixedPrice.deserialize
  let size ← FixedSize.deserialize
  let provenance ← EventProvenance.deserialize
  pure ⟨assetId, kind, side, price, size, provenance⟩

/-- The fields of a trade, in the order of the struct. -/
def TradeEvent.serialize (e : TradeEvent) : List UInt8 :=
  [BincodeFormat.str.put e.assetId,
    e.price.serialize,
    putOpt FixedSize.serialize e.size,
    putOpt (putEnum Side.variants) e.side,
    putOpt BincodeFormat.str.put e.tradeId,
    putEnum TradeFidelity.variants e.fidelity,
    e.provenance.serialize].flatten

/-- A trade read back. -/
def TradeEvent.deserialize : RecordReader TradeEvent := do
  let assetId ← BincodeFormat.str.read
  let price ← FixedPrice.deserialize
  let size ← getOpt FixedSize.deserialize
  let side ← getOpt (getEnum Side.variants)
  let tradeId ← getOpt BincodeFormat.str.read
  let fidelity ← getEnum TradeFidelity.variants
  let provenance ← EventProvenance.deserialize
  pure ⟨assetId, price, size, side, tradeId, fidelity, provenance⟩

/-- The fields of an ingest event, in the order of the struct. -/
def IngestEvent.serialize (e : IngestEvent) : List UInt8 :=
  [putOpt BincodeFormat.str.put e.assetId,
    putEnum IngestEventKind.variants e.kind,
    e.provenance.serialize,
    putOpt putU64 e.expectedSequence,
    putOpt putU64 e.observedSequence,
    putOpt BincodeFormat.str.put e.details].flatten

/-- An ingest event read back. -/
def IngestEvent.deserialize : RecordReader IngestEvent := do
  let assetId ← getOpt BincodeFormat.str.read
  let kind ← getEnum IngestEventKind.variants
  let provenance ← EventProvenance.deserialize
  let expectedSequence ← getOpt getU64
  let observedSequence ← getOpt getU64
  let details ← getOpt BincodeFormat.str.read
  pure ⟨assetId, kind, provenance, expectedSequence, observedSequence, details⟩

/-- The fields of a price level. -/
def PriceLevel.serialize (l : PriceLevel) : List UInt8 :=
  [l.price.serialize, l.size.serialize].flatten

/-- A price level read back. -/
def PriceLevel.deserialize : RecordReader PriceLevel := do
  let price ← FixedPrice.deserialize
  let size ← FixedSize.deserialize
  pure ⟨price, size⟩

/-- The fields of a checkpoint, its levels after their number. -/
def BookCheckpoint.serialize (c : BookCheckpoint) : List UInt8 :=
  [BincodeFormat.str.put c.assetId,
    putU64 c.checkpointTimestampUs,
    c.provenance.serialize,
    putList BincodeFormat.u64 PriceLevel.serialize c.bids,
    putList BincodeFormat.u64 PriceLevel.serialize c.asks,
    putOpt putU64 c.walOffset].flatten

/-- A checkpoint read back. -/
def BookCheckpoint.deserialize : RecordReader BookCheckpoint := do
  let assetId ← BincodeFormat.str.read
  let checkpointTimestampUs ← getU64
  let provenance ← EventProvenance.deserialize
  let bids ← getList BincodeFormat.u64 PriceLevel.deserialize
  let asks ← getList BincodeFormat.u64 PriceLevel.deserialize
  let walOffset ← getOpt getU64
  pure ⟨assetId, checkpointTimestampUs, provenance, bids, asks, walOffset⟩

/-- The fields of a validation, in the order of the struct. -/
def ReplayValidation.serialize (v : ReplayValidation) : List UInt8 :=
  [BincodeFormat.str.put v.assetId,
    putEnum ReplayMode.variants v.mode,
    putU64 v.replayTimestampUs,
    putU64 v.referenceTimestampUs,
    BincodeFormat.bool.put v.matched,
    putOpt BincodeFormat.str.put v.mismatchSummary,
    putU64 v.persistedAtUs].flatten

/-- A validation read back. -/
def ReplayValidation.deserialize : RecordReader ReplayValidation := do
  let assetId ← BincodeFormat.str.read
  let mode ← getEnum ReplayMode.variants
  let replayTimestampUs ← getU64
  let referenceTimestampUs ← getU64
  let matched ← BincodeFormat.bool.read
  let mismatchSummary ← getOpt BincodeFormat.str.read
  let persistedAtUs ← getU64
  pure ⟨assetId, mode, replayTimestampUs, referenceTimestampUs, matched, mismatchSummary,
    persistedAtUs⟩

/-- The number of the variant and the record's own fields. -/
def PersistedRecord.serialize : PersistedRecord → List UInt8
  | .book e => BincodeFormat.u32.put 0 ++ e.serialize
  | .trade e => BincodeFormat.u32.put 1 ++ e.serialize
  | .ingest e => BincodeFormat.u32.put 2 ++ e.serialize
  | .checkpoint c => BincodeFormat.u32.put 3 ++ c.serialize
  | .validation v => BincodeFormat.u32.put 4 ++ v.serialize

/-- A record read back: its variant decides which fields follow. -/
def PersistedRecord.deserialize : RecordReader PersistedRecord := do
  let index ← BincodeFormat.u32.read
  match index.toNat with
  | 0 => return .book (← BookEvent.deserialize)
  | 1 => return .trade (← TradeEvent.deserialize)
  | 2 => return .ingest (← IngestEvent.deserialize)
  | 3 => return .checkpoint (← BookCheckpoint.deserialize)
  | 4 => return .validation (← ReplayValidation.deserialize)
  | i => throw (BincodeFormat.unknownVariant i 5)

/-- `bincode::serialize_into` and `bincode::deserialize`, which lets bytes trail. -/
instance : Wal.Bincode where
  serialize record := .ok record.serialize
  deserialize data :=
    match PersistedRecord.deserialize ⟨data, []⟩ with
    | .ok record _ => .ok record
    | .error e _ => .error e

/-- The raw prices `decode` comes to in a byte string, up to where it fails. -/
def decodedPrices (data : Wal.Bytes) : List Nat :=
  match data with
  | [] => []
  | version :: body =>
      if version = Wal.Codec.currentVersion then
        match PersistedRecord.deserialize ⟨body, []⟩ with
        | .ok _ s => s.noted
        | .error _ s => s.noted
      else []

end Derived

/-- The prices a record holds, in the order of its fields. -/
def PersistedRecord.prices : PersistedRecord → List Nat
  | .book e => [e.price.raw]
  | .trade e => [e.price.raw]
  | .ingest _ => []
  | .checkpoint c => (c.bids ++ c.asks).map (·.price.raw)
  | .validation _ => []

section RoundTrip

variable [BincodeFormat] [LawfulBincodeFormat]

/-- A `u64` field is read back as it was written. -/
theorem reads_u64 {n : Nat} (h : FitsU64 n) : Reads getU64 (putU64 n) n [] := by
  have hread : Reads getU64 (putU64 n) (UInt64.ofNat n).toNat [] :=
    (Reads.read LawfulBincodeFormat.u64 trivial).map UInt64.toNat
  rwa [UInt64.toNat_ofNat_of_lt' h] at hread

/-- A text is read back as it was written. -/
theorem reads_str {s : String} (h : FitsStr s) :
    Reads (BincodeFormat.str.read : RecordReader String) (BincodeFormat.str.put s) s [] :=
  Reads.read LawfulBincodeFormat.str h

/-- A variant that is listed is read back. -/
theorem reads_enum {α : Type} [BEq α] [LawfulBEq α] {variants : List α} {a : α}
    (h : a ∈ variants) (hfits : variants.length < 2 ^ 32) :
    Reads (getEnum variants) (putEnum variants a) a [] :=
  Reads.variant LawfulBincodeFormat.u32 _ h hfits

/-- An optional value without prices. -/
theorem reads_opt {α : Type} {put : α → List UInt8} {get : RecordReader α} {a : Option α}
    (h : ∀ x ∈ a, Reads get (put x) x []) : Reads (getOpt get) (putOpt put a) a [] := by
  have hread := Reads.option LawfulBincodeFormat.optionTag h
  rwa [List.flatMap_eq_nil_iff.mpr fun _ _ => rfl] at hread

/-- A price is read back, and noted. -/
theorem FixedPrice.reads (price : FixedPrice) :
    Reads FixedPrice.deserialize price.serialize price [price.raw] := by
  have hraw : (UInt32.ofNat price.raw).toNat = price.raw :=
    UInt32.toNat_ofNat_of_lt' (price.le_scale.trans_lt (by decide))
  rw [← List.append_nil price.serialize]
  apply (Reads.read LawfulBincodeFormat.u32 trivial).bind
  rw [hraw, FixedPrice.new, dif_pos price.le_scale]
  exact (Reads.note price.raw).map fun _ => price

/-- A size is read back. -/
theorem FixedSize.reads (size : FixedSize) :
    Reads FixedSize.deserialize size.serialize size [] := by
  have hlt : size.raw < 2 ^ 64 := size.le_max.trans_lt (by decide)
  rw [← List.append_nil size.serialize]
  apply (Reads.read LawfulBincodeFormat.u64 trivial).bind
  have hraw : (UInt64.ofNat size.raw).toNat = size.raw := UInt64.toNat_ofNat_of_lt' hlt
  simp only [hraw]
  exact Reads.pure size

/-- A provenance is read back. -/
theorem EventProvenance.reads {p : EventProvenance} (h : p.Representable) :
    Reads EventProvenance.deserialize p.serialize p [] := by
  obtain ⟨hrecv, hexchange, hevent, hsession, hsequence, hordinal⟩ := h
  apply (reads_u64 hrecv).bind
  apply (reads_u64 hexchange).bind
  apply (reads_enum (a := p.source) (by cases p.source <;> decide) (by decide)).bind
  apply (reads_opt fun s hs => reads_str (hevent s hs)).bind
  apply (reads_opt fun s hs => reads_str (hsession s hs)).bind
  apply (reads_opt fun n hn => reads_u64 (hsequence n hn)).bind
  apply (reads_opt fun n hn => reads_u64 (hordinal n hn)).bind
  exact Reads.pure p

/-- A book event is read back. -/
theorem BookEvent.reads {e : BookEvent} (h : (PersistedRecord.book e).Representable) :
    Reads BookEvent.deserialize e.serialize e [e.price.raw] := by
  obtain ⟨hasset, hprovenance⟩ := h
  apply (reads_str hasset).bind
  apply (reads_enum (a := e.kind) (by cases e.kind <;> decide) (by decide)).bind
  apply (reads_enum (a := e.side) (by cases e.side <;> decide) (by decide)).bind
  apply e.price.reads.bind
  apply e.size.reads.bind
  apply (EventProvenance.reads hprovenance).bind
  exact Reads.pure e

/-- A trade is read back. -/
theorem TradeEvent.reads {e : TradeEvent} (h : (PersistedRecord.trade e).Representable) :
    Reads TradeEvent.deserialize e.serialize e [e.price.raw] := by
  obtain ⟨hasset, htrade, hprovenance⟩ := h
  apply (reads_str hasset).bind
  apply e.price.reads.bind
  apply (reads_opt fun size _ => size.reads).bind
  apply (reads_opt (a := e.side) fun side _ =>
    reads_enum (by cases side <;> decide) (by decide)).bind
  apply (reads_opt fun s hs => reads_str (htrade s hs)).bind
  apply (reads_enum (a := e.fidelity) (by cases e.fidelity <;> decide) (by decide)).bind
  apply (EventProvenance.reads hprovenance).bind
  exact Reads.pure e

/-- An ingest event is read back. -/
theorem IngestEvent.reads {e : IngestEvent} (h : (PersistedRecord.ingest e).Representable) :
    Reads IngestEvent.deserialize e.serialize e [] := by
  obtain ⟨hasset, hprovenance, hexpected, hobserved, hdetails⟩ := h
  apply (reads_opt fun s hs => reads_str (hasset s hs)).bind
  apply (reads_enum (a := e.kind) (by cases e.kind <;> decide) (by decide)).bind
  apply (EventProvenance.reads hprovenance).bind
  apply (reads_opt fun n hn => reads_u64 (hexpected n hn)).bind
  apply (reads_opt fun n hn => reads_u64 (hobserved n hn)).bind
  apply (reads_opt fun s hs => reads_str (hdetails s hs)).bind
  exact Reads.pure e

/-- A price level is read back. -/
theorem PriceLevel.reads (l : PriceLevel) :
    Reads PriceLevel.deserialize l.serialize l [l.price.raw] := by
  apply l.price.reads.bind
  apply l.size.reads.bind
  exact Reads.pure l

/-- A list of levels is read back level by level. -/
theorem reads_levels {levels : List PriceLevel} (h : FitsU64 levels.length) :
    Reads (getList BincodeFormat.u64 PriceLevel.deserialize)
      (putList BincodeFormat.u64 PriceLevel.serialize levels) levels
      (levels.map (·.price.raw)) := by
  rw [← List.flatMap_singleton' (levels.map (·.price.raw)), List.flatMap_map]
  exact Reads.list LawfulBincodeFormat.u64 h fun l _ => l.reads

/-- A checkpoint is read back. -/
theorem BookCheckpoint.reads {c : BookCheckpoint}
    (h : (PersistedRecord.checkpoint c).Representable) :
    Reads BookCheckpoint.deserialize c.serialize c ((c.bids ++ c.asks).map (·.price.raw)) := by
  obtain ⟨hasset, htimestamp, hprovenance, hbids, hasks, hoffset⟩ := h
  rw [List.map_append]
  apply (reads_str hasset).bind
  apply (reads_u64 htimestamp).bind
  apply (EventProvenance.reads hprovenance).bind
  apply (reads_levels hbids).bind
  rw [← List.append_nil (c.asks.map _)]
  apply (reads_levels hasks).bind
  apply (reads_opt fun n hn => reads_u64 (hoffset n hn)).bind
  exact Reads.pure c

/-- A validation is read back. -/
theorem ReplayValidation.reads {v : ReplayValidation}
    (h : (PersistedRecord.validation v).Representable) :
    Reads ReplayValidation.deserialize v.serialize v [] := by
  obtain ⟨hasset, hreplay, hreference, hsummary, hpersisted⟩ := h
  apply (reads_str hasset).bind
  apply (reads_enum (a := v.mode) (by cases v.mode <;> decide) (by decide)).bind
  apply (reads_u64 hreplay).bind
  apply (reads_u64 hreference).bind
  apply (Reads.read LawfulBincodeFormat.bool trivial).bind
  apply (reads_opt fun s hs => reads_str (hsummary s hs)).bind
  apply (reads_u64 hpersisted).bind
  exact Reads.pure v

/-- **Every record is read back**, with exactly its bytes and its prices. -/
theorem PersistedRecord.reads {r : PersistedRecord} (h : r.Representable) :
    Reads PersistedRecord.deserialize r.serialize r r.prices := by
  have hindex (i : UInt32) := Reads.read (ν := Nat) LawfulBincodeFormat.u32 (a := i) trivial
  cases r with
  | book e => exact (hindex 0).bind ((BookEvent.reads h).map PersistedRecord.book)
  | trade e => exact (hindex 1).bind ((TradeEvent.reads h).map PersistedRecord.trade)
  | ingest e => exact (hindex 2).bind ((IngestEvent.reads h).map PersistedRecord.ingest)
  | checkpoint c => exact (hindex 3).bind ((BookCheckpoint.reads h).map PersistedRecord.checkpoint)
  | validation v =>
      exact (hindex 4).bind ((ReplayValidation.reads h).map PersistedRecord.validation)

end RoundTrip

/-- No raw price is above 1.0. -/
def InRange (prices : List Nat) : Prop := ∀ raw ∈ prices, raw ≤ 10000

section Rejects

variable [BincodeFormat]

/-- A price that is decoded is in range: `FixedPrice::new` has checked it. -/
theorem FixedPrice.keeps : Keeps InRange FixedPrice.deserialize := by
  refine (Keeps.read BincodeFormat.u32).bind ?_
  intro raw s price s' hrun hinv
  change EStateM.bind (note raw.toNat) _ s = .ok price s' at hrun
  rw [EStateM.bind] at hrun
  change (match FixedPrice.new raw.toNat with
    | .ok price => pure price
    | .error e => throw e : RecordReader FixedPrice)
      ⟨s.bytes, s.noted ++ [raw.toNat]⟩ = .ok price s' at hrun
  by_cases h : raw.toNat ≤ 10000
  · rw [FixedPrice.new, dif_pos h] at hrun
    cases hrun
    intro n hn
    rcases List.mem_append.mp hn with hn | hn
    · exact hinv n hn
    · rw [List.mem_singleton.mp hn]
      exact h
  · rw [FixedPrice.new, dif_neg h] at hrun
    cases hrun

variable {inv : List Nat → Prop}

/-- Reading a `u64` notes no price. -/
theorem keeps_u64 : Keeps inv getU64 :=
  (Keeps.read BincodeFormat.u64).bind fun n => Keeps.pure n.toNat

/-- Reading a size notes no price. -/
theorem FixedSize.keeps : Keeps inv FixedSize.deserialize :=
  (Keeps.read BincodeFormat.u64).bind fun _ => Keeps.pure _

/-- Reading a text notes no price. -/
theorem keeps_str : Keeps inv (BincodeFormat.str.read : RecordReader String) := Keeps.read _

/-- Reading a variant notes no price. -/
theorem keeps_enum {α : Type} (variants : List α) : Keeps inv (getEnum variants) :=
  Keeps.variant BincodeFormat.u32 _ variants

/-- Reading an optional field keeps what its value keeps. -/
theorem keeps_opt {α : Type} {get : RecordReader α} (h : Keeps inv get) :
    Keeps inv (getOpt get) := h.option BincodeFormat.optionTag

/-- Reading a provenance notes no price. -/
theorem EventProvenance.keeps : Keeps inv EventProvenance.deserialize := by
  refine keeps_u64.bind fun _ => ?_
  refine keeps_u64.bind fun _ => ?_
  refine (keeps_enum _).bind fun _ => ?_
  refine (keeps_opt keeps_str).bind fun _ => ?_
  refine (keeps_opt keeps_str).bind fun _ => ?_
  refine (keeps_opt keeps_u64).bind fun _ => ?_
  refine (keeps_opt keeps_u64).bind fun _ => ?_
  exact Keeps.pure _

/-- Reading a book event notes prices in their range only. -/
theorem BookEvent.keeps : Keeps InRange BookEvent.deserialize := by
  refine keeps_str.bind fun _ => ?_
  refine (keeps_enum _).bind fun _ => ?_
  refine (keeps_enum _).bind fun _ => ?_
  refine FixedPrice.keeps.bind fun _ => ?_
  refine FixedSize.keeps.bind fun _ => ?_
  refine EventProvenance.keeps.bind fun _ => ?_
  exact Keeps.pure _

/-- Reading a trade notes prices in their range only. -/
theorem TradeEvent.keeps : Keeps InRange TradeEvent.deserialize := by
  refine keeps_str.bind fun _ => ?_
  refine FixedPrice.keeps.bind fun _ => ?_
  refine (keeps_opt FixedSize.keeps).bind fun _ => ?_
  refine (keeps_opt (keeps_enum _)).bind fun _ => ?_
  refine (keeps_opt keeps_str).bind fun _ => ?_
  refine (keeps_enum _).bind fun _ => ?_
  refine EventProvenance.keeps.bind fun _ => ?_
  exact Keeps.pure _

/-- Reading an ingest event notes no price. -/
theorem IngestEvent.keeps : Keeps inv IngestEvent.deserialize := by
  refine (keeps_opt keeps_str).bind fun _ => ?_
  refine (keeps_enum _).bind fun _ => ?_
  refine EventProvenance.keeps.bind fun _ => ?_
  refine (keeps_opt keeps_u64).bind fun _ => ?_
  refine (keeps_opt keeps_u64).bind fun _ => ?_
  refine (keeps_opt keeps_str).bind fun _ => ?_
  exact Keeps.pure _

/-- Reading a price level notes prices in their range only. -/
theorem PriceLevel.keeps : Keeps InRange PriceLevel.deserialize :=
  FixedPrice.keeps.bind fun _ => FixedSize.keeps.bind fun _ => Keeps.pure _

/-- Reading a checkpoint notes prices in their range only. -/
theorem BookCheckpoint.keeps : Keeps InRange BookCheckpoint.deserialize := by
  refine keeps_str.bind fun _ => ?_
  refine keeps_u64.bind fun _ => ?_
  refine EventProvenance.keeps.bind fun _ => ?_
  refine (PriceLevel.keeps.list BincodeFormat.u64).bind fun _ => ?_
  refine (PriceLevel.keeps.list BincodeFormat.u64).bind fun _ => ?_
  refine (keeps_opt keeps_u64).bind fun _ => ?_
  exact Keeps.pure _

/-- Reading a validation notes no price. -/
theorem ReplayValidation.keeps : Keeps inv ReplayValidation.deserialize := by
  refine keeps_str.bind fun _ => ?_
  refine (keeps_enum _).bind fun _ => ?_
  refine keeps_u64.bind fun _ => ?_
  refine keeps_u64.bind fun _ => ?_
  refine (Keeps.read BincodeFormat.bool).bind fun _ => ?_
  refine (keeps_opt keeps_str).bind fun _ => ?_
  refine keeps_u64.bind fun _ => ?_
  exact Keeps.pure _

/-- **A record that decodes has come to no price out of range.** -/
theorem PersistedRecord.keeps : Keeps InRange PersistedRecord.deserialize := by
  refine (Keeps.read BincodeFormat.u32).bind ?_
  intro index
  split
  · exact BookEvent.keeps.bind fun _ => Keeps.pure _
  · exact TradeEvent.keeps.bind fun _ => Keeps.pure _
  · exact IngestEvent.keeps.bind fun _ => Keeps.pure _
  · exact BookCheckpoint.keeps.bind fun _ => Keeps.pure _
  · exact ReplayValidation.keeps.bind fun _ => Keeps.pure _
  · exact Keeps.throw _

/-- A payload with a price out of range is refused. -/
theorem decode_error_of_out_of_range {data : Wal.Bytes} {raw : Nat}
    (hraw : raw ∈ decodedPrices data) (hrange : 10000 < raw) :
    ∃ e, Wal.Codec.decode data = .error e := by
  cases data with
  | nil => cases hraw
  | cons version body =>
      simp only [decodedPrices] at hraw
      split at hraw
      · rename_i hversion
        simp only [Wal.Codec.decode, if_pos hversion, Wal.Bincode.deserialize]
        split at hraw
        · rename_i record s hrun
          have hall := PersistedRecord.keeps _ record s hrun (by simp [InRange])
          exact absurd (hall raw hraw) (by omega)
        · exact ⟨_, rfl⟩
      · cases hraw

end Rejects

/-- A payload is the version byte and the record. -/
theorem encode_eq [BincodeFormat] (r : PersistedRecord) :
    Wal.Codec.encode r = .ok (Wal.Codec.currentVersion :: r.serialize) := rfl

section Contract

variable [BincodeFormat] [LawfulBincodeFormat]

/-- A representable record is read back, and its prices are the ones noted. -/
theorem deserialize_serialize {r : PersistedRecord} (h : r.Representable) :
    PersistedRecord.deserialize ⟨r.serialize, []⟩ = .ok r ⟨[], r.prices⟩ := by
  have hread := PersistedRecord.reads h [] []
  rwa [List.append_nil, List.nil_append] at hread

/-- A record is read back from its payload. -/
theorem decode_payload {r : PersistedRecord} (h : r.Representable) :
    Wal.Codec.decode (Wal.Codec.currentVersion :: r.serialize) = .ok r := by
  simp only [Wal.Codec.decode, if_true, Wal.Bincode.deserialize, deserialize_serialize h]

/-- **The contract of the codec.**  Every record is read back as it was written, so no
two are written alike; nothing is read from an empty payload, from one of another
version, or where a price is above 1.0. -/
theorem codec_round_trip :
    (∀ r : PersistedRecord, r.Representable →
      ∃ payload, Wal.Codec.encode r = .ok payload ∧ Wal.Codec.decode payload = .ok r) ∧
    (∀ r r' : PersistedRecord, r.Representable → r'.Representable →
      Wal.Codec.encode r = Wal.Codec.encode r' → r = r') ∧
    ∀ data : Wal.Bytes, (data = [] ∨ data.head? ≠ some Wal.Codec.currentVersion ∨
        ∃ raw ∈ decodedPrices data, 10000 < raw) →
      ∃ e, Wal.Codec.decode data = .error e := by
  refine ⟨fun r hr => ⟨_, encode_eq r, decode_payload hr⟩, ?_, ?_⟩
  · intro r r' hr hr' heq
    have hpayload := Except.ok.inj heq
    have hsame := decode_payload hr
    rw [hpayload, decode_payload hr'] at hsame
    exact (Except.ok.inj hsame).symm
  · rintro data (hempty | hversion | ⟨raw, hraw, hrange⟩)
    · rw [hempty]
      exact ⟨_, rfl⟩
    · cases data with
      | nil => exact ⟨_, rfl⟩
      | cons version body =>
          have hother : version ≠ Wal.Codec.currentVersion := by simpa using hversion
          simp only [Wal.Codec.decode, if_neg hother]
          split
          · exact ⟨_, rfl⟩
          · exact ⟨_, rfl⟩
    · exact decode_error_of_out_of_range hraw hrange

end Contract

end PolyBook
