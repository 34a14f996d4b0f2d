import PolyBook.Wal.Frame
import PolyBook.Types

/-!
# The record codec

A payload is a version byte and a serialized record.  Only the current version
can be decoded; the serialization of the record itself is `bincode`'s.
-/

namespace PolyBook.Wal

/-- The `bincode` crate on records; errors by their text. -/
class Bincode where
  serialize : PersistedRecord → Except String Bytes
  deserialize : Bytes → Except String PersistedRecord

namespace Codec

/-- `CURRENT_VERSION`. -/
def currentVersion : UInt8 := 3

variable [Bincode]

/-- `encode`. -/
def encode (record : PersistedRecord) : Except WalError Bytes :=
  match Bincode.serialize record with
  | .ok body => .ok (currentVersion :: body)
  | .error e => .error (.codec e)

theorem encode_ne_nil {record : PersistedRecord} {payload : Bytes}
    (h : encode record = .ok payload) : payload ≠ [] := by
  unfold encode at h
  split at h
  · cases h
    exact List.cons_ne_nil _ _
  · cases h

/-- `decode`. -/
def decode (data : Bytes) : Except WalError PersistedRecord :=
  match data with
  | [] => .error (.codec "empty record")
  | version :: body =>
      if version = currentVersion then
        match Bincode.deserialize body with
        | .ok record => .ok record
        | .error e => .error (.codec e)
      else if version = 1 ∨ version = 2 then
        .error (.codec ("record written by an older binary (codec v" ++ toString version ++
          "); drain the WAL before upgrading"))
      else .error (.codec ("unsupported record version: " ++ toString version))

end Codec

/-! `bincode` on the records of a book, for runs on fixed inputs. -/
namespace Sample

/-- A little-endian integer of `k` bytes. -/
def leBytes : (k : Nat) → Nat → Bytes
  | 0, _ => []
  | k + 1, n => UInt8.ofNat n :: leBytes k (n / 256)

/-- A text: its length and its bytes. -/
def string (s : String) : Bytes := leBytes 8 s.utf8ByteSize ++ s.toUTF8.data.toList

/-- An optional value: a tag and the value. -/
def option {α : Type} (f : α → Bytes) : Option α → Bytes
  | none => [0]
  | some x => 1 :: f x

/-- The bytes of a provenance. -/
def provenanceBytes (p : EventProvenance) : Bytes :=
  leBytes 8 p.recvTimestampUs ++ leBytes 8 p.exchangeTimestampUs ++
    leBytes 4 (match p.source with
      | .webSocket => 0
      | .restSnapshot => 1
      | .replayValidator => 2
      | .system => 3) ++
    option string p.sourceEventId ++ option string p.sourceSessionId ++
    option (leBytes 8) p.sequence ++ option (leBytes 8) p.ingestOrdinal

/-- The bytes of a level. -/
def levelBytes (l : PriceLevel) : Bytes := leBytes 4 l.price.raw ++ leBytes 8 l.size.raw

/-- The sample's bincode: it writes book events and checkpoints, and reads nothing. -/
@[reducible] def bincode : Bincode where
  serialize
    | .book e => .ok (leBytes 4 0 ++ string e.assetId ++
        leBytes 4 (match e.kind with
          | .snapshot => 0
          | .delta => 1) ++
        leBytes 4 (match e.side with
          | .bid => 0
          | .ask => 1) ++ levelBytes ⟨e.price, e.size⟩ ++ provenanceBytes e.provenance)
    | .checkpoint e => .ok (leBytes 4 3 ++ string e.assetId ++
        leBytes 8 e.checkpointTimestampUs ++ provenanceBytes e.provenance ++
        leBytes 8 e.bids.length ++ e.bids.flatMap levelBytes ++
        leBytes 8 e.asks.length ++ e.asks.flatMap levelBytes ++ option (leBytes 8) e.walOffset)
    | _ => .error "no book record"
  deserialize _ := .error "not read here"

end Sample

end PolyBook.Wal
