import PolyBook.Wal.RecordCodec
import PolyBook.SnapshotGroups

/-!
# The primitives of `bincode`

The crate's default configuration: integers of their full width, little-endian; a byte
for a truth value and for the tag of an option; a string as its `u64` length and its
UTF-8.
-/

namespace PolyBook

open ByteCodec

namespace LittleEndian

/-- The error of a read past the end. -/
def eof : String := "io error: unexpected end of file"

/-- A `u32` in little-endian order. -/
def u32 : Prim String UInt32 where
  put n := leBytes 4 n.toNat
  get data := (takeBytes eof 4 data).map fun p => (UInt32.ofNat (ofLeBytes p.1), p.2)

/-- A `u64` in little-endian order. -/
def u64 : Prim String UInt64 where
  put n := leBytes 8 n.toNat
  get data := (takeBytes eof 8 data).map fun p => (UInt64.ofNat (ofLeBytes p.1), p.2)

/-- A byte that is 0 or 1. -/
def flag (invalid : UInt8 → String) : Prim String Bool where
  put b := [if b then 1 else 0]
  get
    | [] => .error eof
    | b :: rest => if b = 0 then .ok (false, rest) else if b = 1 then .ok (true, rest)
        else .error (invalid b)

/-- A text: its length and its UTF-8 bytes. -/
def str : Prim String String where
  put s := u64.put (UInt64.ofNat s.utf8ByteSize) ++ s.toUTF8.data.toList
  get data := do
    let (len, data) ← u64.get data
    let (bytes, rest) ← takeBytes eof len.toNat data
    match String.fromUTF8? ⟨bytes.toArray⟩ with
    | some s => .ok (s, rest)
    | none => .error "string is not valid utf8"

theorem lawful_u32 : u32.LawfulOn fun _ => True := by
  intro n _ rest
  have hlt : n.toNat < 256 ^ 4 := n.toNat_lt
  simp only [u32]
  rw [takeBytes_append _ (length_leBytes 4 _)]
  simp only [Except.map, ofLeBytes_leBytes hlt, UInt32.ofNat_toNat]

theorem lawful_u64 : u64.LawfulOn fun _ => True := by
  intro n _ rest
  have hlt : n.toNat < 256 ^ 8 := n.toNat_lt
  simp only [u64]
  rw [takeBytes_append _ (length_leBytes 8 _)]
  simp only [Except.map, ofLeBytes_leBytes hlt, UInt64.ofNat_toNat]

theorem lawful_flag (invalid : UInt8 → String) : (flag invalid).LawfulOn fun _ => True := by
  intro b _ rest
  cases b <;> rfl

theorem lawful_str : str.LawfulOn fun s => s.utf8ByteSize < 2 ^ 64 := by
  intro s hs rest
  have hlen : (UInt64.ofNat s.utf8ByteSize).toNat = s.utf8ByteSize :=
    UInt64.toNat_ofNat_of_lt' hs
  have hbytes : s.toUTF8.data.toList.length = s.utf8ByteSize := by
    rw [Array.length_toList]
    rfl
  have htext : String.fromUTF8? ⟨s.toUTF8.data.toList.toArray⟩ = some s := by
    show String.fromUTF8? s.toByteArray = some s
    rw [String.fromUTF8?, dif_pos s.isValidUTF8]
    rfl
  simp only [str, List.append_assoc, lawful_u64 _ trivial, bind, Except.bind, hlen,
    takeBytes_append eof hbytes, htext]

end LittleEndian

/-- The wire format that bincode's default configuration writes. -/
@[reducible] def littleEndian : BincodeFormat where
  u32 := LittleEndian.u32
  u64 := LittleEndian.u64
  bool := LittleEndian.flag fun b =>
    "invalid u8 while decoding bool, expected 0 or 1, found " ++ toString b
  str := LittleEndian.str
  optionTag := LittleEndian.flag fun b => "tag for enum is not valid, found " ++ toString b
  unknownVariant i n :=
    "invalid value: integer " ++ toString i ++ ", expected variant index 0 <= i < " ++ toString n

attribute [local instance] littleEndian

instance : LawfulBincodeFormat where
  u32 := LittleEndian.lawful_u32
  u64 := LittleEndian.lawful_u64
  bool := LittleEndian.lawful_flag _
  str := LittleEndian.lawful_str
  optionTag := LittleEndian.lawful_flag _

/-- The record of the golden bytes. -/
def goldenRecord : PersistedRecord := .book {
  assetId := "tok1"
  kind := .delta
  side := .bid
  price := Sample.price 50
  size := Sample.size 100
  provenance := {
    recvTimestampUs := 1700000000000000
    exchangeTimestampUs := 1699999999000000
    source := .webSocket
    sourceEventId := some "evt-1"
    sourceSessionId := none
    sequence := some 42
    ingestOrdinal := some 7 } }

-- The frozen layout of version 3.
example : Wal.Codec.encode goldenRecord = .ok [
    0x03, 0x00, 0x00, 0x00, 0x00, 0x04, 0x00, 0x00, 0x00, 0x00, 0x00, 0x00, 0x00, 0x74, 0x6f,
    0x6b, 0x31, 0x01, 0x00, 0x00, 0x00, 0x00, 0x00, 0x00, 0x00, 0x88, 0x13, 0x00, 0x00, 0x00,
    0xe1, 0xf5, 0x05, 0x00, 0x00, 0x00, 0x00, 0x00, 0x40, 0x1e, 0x18, 0x24, 0x0a, 0x06, 0x00,
    0xc0, 0xfd, 0x0e, 0x18, 0x24, 0x0a, 0x06, 0x00, 0x00, 0x00, 0x00, 0x00, 0x01, 0x05, 0x00,
    0x00, 0x00, 0x00, 0x00, 0x00, 0x00, 0x65, 0x76, 0x74, 0x2d, 0x31, 0x00, 0x01, 0x2a, 0x00,
    0x00, 0x00, 0x00, 0x00, 0x00, 0x00, 0x01, 0x07, 0x00, 0x00, 0x00, 0x00, 0x00, 0x00, 0x00] := by
  decide +kernel

/-- A feed-wide reset, which has no price. -/
def resetRecord : PersistedRecord := .ingest {
  assetId := none
  kind := .sourceReset
  provenance := Sample.provenance 1700000000000000 "evt-2"
  expectedSequence := none
  observedSequence := none
  details := none }

/-- A book record cut off after a price of 1.0001. -/
def overpriced : Wal.Bytes :=
  [3, 0, 0, 0, 0, 0, 0, 0, 0, 0, 0, 0, 0, 1, 0, 0, 0, 0, 0, 0, 0, 0x11, 0x27, 0, 0]

theorem codec_round_trip_golden :
    (∃ payload, Wal.Codec.encode goldenRecord = .ok payload ∧
      Wal.Codec.decode payload = .ok goldenRecord) ∧
    Wal.Codec.encode goldenRecord ≠ Wal.Codec.encode resetRecord ∧
    (∃ e, Wal.Codec.decode [2, 0, 0, 0, 0] = .error e) ∧
    ∃ e, Wal.Codec.decode overpriced = .error e :=
  ⟨codec_round_trip.1 goldenRecord (by decide +kernel),
    fun heq => absurd (codec_round_trip.2.1 goldenRecord resetRecord (by decide +kernel)
      (by decide +kernel) heq) (by decide),
    codec_round_trip.2.2 _ (Or.inr (Or.inl (by decide))),
    codec_round_trip.2.2 overpriced (Or.inr (Or.inr ⟨10001, by decide +kernel, by decide⟩))⟩

end PolyBook
