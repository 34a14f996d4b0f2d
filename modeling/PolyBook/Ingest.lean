import PolyBook.LiveAsset
import PolyBook.Replay
import PolyBook.Capacity
import PolyBook.Wal.Codec
import PolyBook.Wal.Writer

/-!
# The ingest of one asset

The venue changes its book, the dispatcher sends the records of each change on
the event channel, and the checkpoint producer captures the venue's book over
REST and sends the checkpoint on the same channel later.  `wal_drain` appends the
records in channel order and stamps a checkpoint with the global offset of the
log when it comes to it.

A run is any interleaving of these steps.  Every record carries, for the
statements only, how many changes the venue's book had seen when it was made.
-/

namespace PolyBook

open Wal

/-- One change of the venue's book of an asset, as it is dispatched: a `Delta`
record, or a book message as a run of `Snapshot` records. -/
structure VenueChange (a : AssetId) where
  kind : BookEventKind
  first : BookEvent
  rest : List BookEvent
  assetId : ∀ e ∈ first :: rest, e.assetId = a
  kinds : ∀ e ∈ first :: rest, e.kind = kind
  oneGroup : ∀ e ∈ rest, e.groupKey = first.groupKey
  single : kind = .delta → rest = []

namespace VenueChange

variable {a : AssetId} (m : VenueChange a)

/-- The records of the change, in the order they are sent. -/
def events : List BookEvent := m.first :: m.rest

/-- What the change does to the venue's book. -/
def apply (book : L2Book) : Except BookError L2Book :=
  match m.kind with
  | .snapshot => book.applySnapshotEvents m.events m.first.provenance.recvTimestampUs
  | .delta => book.tryApplyDelta m.first.side m.first.price m.first.size
      (m.first.provenance.sequence.getD 0) m.first.provenance.recvTimestampUs

end VenueChange

/-- `checkpoint_from_rest`, from the venue's book. -/
def checkpointFromRest (a : AssetId) (book : L2Book) (nowUs exchangeTs : Nat)
    (hash : Option String) : BookCheckpoint where
  assetId := a
  checkpointTimestampUs := exchangeTs
  provenance :=
    { recvTimestampUs := nowUs
      exchangeTimestampUs := exchangeTs
      source := .restSnapshot
      sourceEventId := hash
      sourceSessionId := none
      sequence := none
      ingestOrdinal := none }
  bids := book.bids.toList.map fun l => ⟨l.1, l.2⟩
  asks := book.asks.toList.map fun l => ⟨l.1, l.2⟩
  walOffset := none

namespace Ingest

/-- A record on its way, and the number of changes of the venue's book it knows. -/
structure Sent where
  record : PersistedRecord
  version : Nat
  deriving DecidableEq

/-- A record in the log, and the global offset after it. -/
structure LogEntry where
  record : PersistedRecord
  version : Nat
  offset : Nat
  deriving DecidableEq

/-- The book record, if it is one. -/
def bookRecord : PersistedRecord → Option BookEvent
  | .book e => some e
  | _ => none

/-- The parties and the channel between them. -/
structure State (a : AssetId) where
  venue : L2Book
  changes : List (VenueChange a)
  /-- Records the dispatcher has still to send. -/
  unsent : List Sent
  /-- What the checkpoint producer has captured and not sent yet. -/
  captured : Option Sent
  channel : List Sent
  ingestOrdinal : Nat
  writer : WalWriter
  dir : Dir
  /-- `wal_drain` has stopped after a failed append. -/
  stopped : Bool
  log : List LogEntry

/-- What happens at the venue, the checkpoint producer and the log. -/
inductive Event (a : AssetId) where
  | change (m : VenueChange a)
  | send
  | capture (nowUs exchangeTs : Nat) (hash : Option String)
  | sendCheckpoint
  | drain
  | flush

/-- The stamps of `wal_drain`: the ordinal, and the global offset on a checkpoint. -/
def stamp (ordinal globalOffset : Nat) (record : PersistedRecord) : PersistedRecord :=
  match record.withOrdinal ordinal with
  | .checkpoint checkpoint => .checkpoint { checkpoint with walOffset := some globalOffset }
  | record => record

/-- The ordinal after a record; a validation has no provenance to stamp. -/
def nextOrdinal (ordinal : Nat) : PersistedRecord → Nat
  | .validation _ => ordinal
  | _ => ordinal + 1

variable [Crc32c] [Bincode] {a : AssetId}

/-- A venue without levels and an empty log. -/
def State.init (a : AssetId) (config : WalConfig) : State a :=
  let (writer, dir) := WalWriter.openDir config ∅
  ⟨L2Book.new a, [], [], none, [], 0, writer, dir, false, []⟩

/-- `wal_drain` takes a record off the channel. -/
def State.drain (s : State a) (x : Sent) (channel : List Sent) : State a :=
  let record := stamp s.ingestOrdinal s.writer.globalOffset x.record
  let s := { s with channel := channel, ingestOrdinal := nextOrdinal s.ingestOrdinal x.record }
  match Codec.encode record with
  -- the record is dropped
  | .error _ => s
  | .ok payload =>
      match s.writer.append payload s.dir with
      | (writer, dir, .ok _) =>
          { s with
            writer := writer, dir := dir
            log := s.log ++ [⟨record, x.version, writer.globalOffset⟩] }
      | (writer, dir, .error _) => { s with writer := writer, dir := dir, stopped := true }

/-- One event of venue, producer and log. -/
def step (s : State a) : Event a → State a
  | .change m =>
      match m.apply s.venue with
      | .error _ => s
      | .ok venue =>
          { s with
            venue := venue
            changes := s.changes ++ [m]
            unsent := s.unsent ++ m.events.map fun e => ⟨.book e, s.changes.length + 1⟩ }
  | .send =>
      match s.unsent with
      | [] => s
      | x :: unsent => { s with unsent := unsent, channel := s.channel ++ [x] }
  | .capture nowUs exchangeTs hash =>
      match s.captured with
      -- the producer sends one checkpoint before it captures the next
      | some _ => s
      | none =>
          let checkpoint := checkpointFromRest a s.venue nowUs exchangeTs hash
          { s with captured := some ⟨.checkpoint checkpoint, s.changes.length⟩ }
  | .sendCheckpoint =>
      match s.captured with
      | none => s
      | some x => { s with captured := none, channel := s.channel ++ [x] }
  | .drain =>
      match s.channel with
      | [] => s
      | x :: channel => if s.stopped then s else s.drain x channel
  | .flush =>
      let (writer, dir) := s.writer.flush s.dir
      { s with writer := writer, dir := dir }

/-! ## What hydration should get from the log -/

/-- Everything sent is in the log. -/
def State.drained (s : State a) : Bool := s.unsent.isEmpty && s.channel.isEmpty

/-- The records of a log. -/
def records (log : List LogEntry) : List PersistedRecord := log.map (·.record)

/-- The live state after replaying the whole log. -/
def replayed (mode : FeedMode) (s : State a) : LiveState := LiveState.replay mode (records s.log)

/-- The live state after hydrating: the checkpoint, then the records whose global
offset exceeds its cut, then the groups they leave open. -/
def hydrated (mode : FeedMode) (s : State a) (checkpoint : BookCheckpoint) (cut : Nat) :
    LiveState :=
  (((LiveState.new mode).applyCheckpoint checkpoint).applyRecords
    (records (s.log.filter (cut < ·.offset)))).settled

/-- A snapshot record. -/
def isSnapshot (record : PersistedRecord) : Bool :=
  (bookRecord record).any (·.kind == .snapshot)

/-- Hydrating from a checkpoint of the log is transparent. -/
structure Transparent (mode : FeedMode) (s : State a) (version cut : Nat)
    (checkpoint : BookCheckpoint) : Prop where
  /-- The hydrated book is the one that the whole log gives. -/
  book : s.drained = true →
    ((hydrated mode s checkpoint cut).book a).levels = ((replayed mode s).book a).levels
  /-- No change newer than the captured state is skipped. -/
  unskipped : ∀ x ∈ s.log, (bookRecord x.record).isSome → version < x.version → cut < x.offset
  /-- No book message is replayed in part. -/
  whole : ∀ x ∈ s.log, ∀ y ∈ s.log, isSnapshot x.record = true → isSnapshot y.record = true →
    x.version = y.version → cut < x.offset → cut < y.offset

/-! ## When it does -/

/-- The record is encoded, and its frame fits a segment. -/
def State.frameFits (s : State a) (x : Sent) : Bool :=
  match Codec.encode (stamp s.ingestOrdinal s.writer.globalOffset x.record) with
  | .error _ => false
  | .ok payload =>
      payload.length ≤ maxRecordSize && headerSize + payload.length ≤ s.writer.config.segmentSize

/-- No change newer than the one the checkpoint captured has reached the log, and
no book message is in the log in part. -/
def State.CutIsClean (s : State a) (checkpoint : Sent) : Prop :=
  (∀ y ∈ s.log, (bookRecord y.record).isSome → y.version ≤ checkpoint.version) ∧
    ∀ y ∈ s.log, ∀ z ∈ s.channel ++ s.unsent, (bookRecord y.record).isSome →
      (bookRecord z.record).isSome → y.version ≠ z.version

/-- The sizes of a change are within the capacity, and a book message does not
share the group key of a book message just before it. -/
def State.Admits (c : Capacity) (s : State a) (m : VenueChange a) : Prop :=
  (∀ e ∈ m.events, e.size.raw ≤ c.cap e.side e.price.raw) ∧
    ∀ last ∈ s.changes.getLast?, last.kind = .snapshot → m.kind = .snapshot →
      last.first.groupKey ≠ m.first.groupKey

/-- The conditions of a clean run on one event. -/
def Clean (c : Capacity) (s : State a) : Event a → Prop
  | .change m => s.Admits c m
  | .drain => ∀ x ∈ s.channel.head?, s.frameFits x = true ∧
      ∀ checkpoint, x.record = .checkpoint checkpoint → s.CutIsClean x
  | _ => True

instance (s : State a) (x : Sent) : Decidable (s.CutIsClean x) :=
  inferInstanceAs (Decidable (_ ∧ _))

instance (c : Capacity) (s : State a) (m : VenueChange a) : Decidable (s.Admits c m) :=
  inferInstanceAs (Decidable (_ ∧ _))

instance (record : PersistedRecord) (p : Prop) [Decidable p] :
    Decidable (∀ checkpoint, record = .checkpoint checkpoint → p) :=
  match record with
  | .checkpoint checkpoint =>
      decidable_of_iff p ⟨fun h _ _ => h, fun h => h checkpoint rfl⟩
  | .book _ => isTrue fun _ h => (nomatch h)
  | .trade _ => isTrue fun _ h => (nomatch h)
  | .ingest _ => isTrue fun _ h => (nomatch h)
  | .validation _ => isTrue fun _ h => (nomatch h)

instance (c : Capacity) (s : State a) : (event : Event a) → Decidable (Clean c s event)
  | .change m => inferInstanceAs (Decidable (s.Admits c m))
  | .drain => inferInstanceAs (Decidable (∀ x ∈ s.channel.head?, _ ∧ _))
  | .send => isTrue trivial
  | .capture _ _ _ => isTrue trivial
  | .sendCheckpoint => isTrue trivial
  | .flush => isTrue trivial

end Ingest

end PolyBook
