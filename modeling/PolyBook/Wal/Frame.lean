import Mathlib.Algebra.Group.Nat.Defs
import PolyBook.Library.Framing
import PolyBook.Library.Loop

/-!
# Record frames

A frame is a four-byte little-endian length, a four-byte CRC-32C over the length
and the payload, and the payload.  `readRecordAt` reads one frame; a cut or
zeroed tail ends the data.

A stream of frames reads back record by record: `Reads` says where a reader
stands in one, `readRecordAt_next` and `readRecordAt_end` what it sees there.
-/

namespace PolyBook.Wal

/-- Bytes of a file. -/
abbrev Bytes := List UInt8

/-- The `crc32c` crate: the checksum of a byte string, and of one continued. -/
class Crc32c where
  crc32c : Bytes → UInt32
  crc32cAppend : UInt32 → Bytes → UInt32

/-- One bit of the reflected CRC-32C. -/
def crc32cBit (crc : UInt32) : UInt32 :=
  if crc &&& 1 = 1 then (crc >>> 1) ^^^ 0x82F63B78 else crc >>> 1

/-- The checksum's bits, one by one. -/
def crc32cBits : (n : Nat) → UInt32 → UInt32
  | 0, crc => crc
  | n + 1, crc => crc32cBits n (crc32cBit crc)

/-- The checksum, byte by byte. -/
def crc32cBytes : Bytes → UInt32 → UInt32
  | [], crc => crc
  | byte :: data, crc => crc32cBytes data (crc32cBits 8 (crc ^^^ byte.toUInt32))

/-- CRC-32C bit by bit, to run the model on concrete bytes. -/
instance castagnoli : Crc32c where
  crc32cAppend crc data := ~~~crc32cBytes data (~~~crc)
  crc32c data := ~~~crc32cBytes data (~~~0)

example : castagnoli.crc32c [49, 50, 51, 52, 53, 54, 55, 56, 57] = 0xE3069283 := by decide +kernel

/-- `WalError`.  File operations of the model do not fail, so there is no `Io`. -/
inductive WalError where
  | crcMismatch (segmentId offset : Nat) (expected actual : UInt32)
  | recordTooLarge (size max : Nat)
  | truncatedRecord (segmentId offset : Nat)
  | codec (message : String)
  | segmentGap (consumer : String) (committedSegment earliestAvailable : Nat)
  deriving DecidableEq

/-- `FRAME_HEADER_LEN`: four bytes length, four bytes checksum. -/
def headerSize : Nat := 8

/-- `MAX_RECORD_SIZE`: 256 MiB. -/
def maxRecordSize : Nat := 256 * 1024 * 1024

/-- `u32::to_le_bytes`. -/
def u32ToLeBytes (n : UInt32) : Bytes :=
  [UInt8.ofNat n.toNat, UInt8.ofNat (n.toNat / 2 ^ 8), UInt8.ofNat (n.toNat / 2 ^ 16),
    UInt8.ofNat (n.toNat / 2 ^ 24)]

/-- `u32::from_le_bytes`. -/
def u32FromLeBytes : Bytes → UInt32
  | [b0, b1, b2, b3] =>
      UInt32.ofNat (b0.toNat + 2 ^ 8 * b1.toNat + 2 ^ 16 * b2.toNat + 2 ^ 24 * b3.toNat)
  | _ => 0

@[simp] theorem u32ToLeBytes_length (n : UInt32) : (u32ToLeBytes n).length = 4 := rfl

@[simp] theorem u32FromLeBytes_toLeBytes (n : UInt32) :
    u32FromLeBytes (u32ToLeBytes n) = n := by
  have hn := n.toNat_lt
  apply UInt32.toNat_inj.mp
  simp only [u32ToLeBytes, u32FromLeBytes, UInt8.toNat_ofNat', UInt32.toNat_ofNat']
  omega

/-- A payload the writer can frame and a reader can find. -/
structure Recordable (payload : Bytes) : Prop where
  ne_nil : payload ≠ []
  le_max : payload.length ≤ maxRecordSize

instance (payload : Bytes) : Decidable (Recordable payload) :=
  decidable_of_iff (payload ≠ [] ∧ payload.length ≤ maxRecordSize)
    ⟨fun h => ⟨h.1, h.2⟩, fun h => ⟨h.ne_nil, h.le_max⟩⟩

theorem Recordable.length_toNat {payload : Bytes} (h : Recordable payload) :
    (UInt32.ofNat payload.length).toNat = payload.length := by
  have := h.le_max
  rw [UInt32.toNat_ofNat', Nat.mod_eq_of_lt]
  unfold maxRecordSize at this
  omega

/-- The length field of the frame at an offset. -/
def recordLen (data : Bytes) (offset : Nat) : Nat :=
  (u32FromLeBytes ((data.drop offset).take 4)).toNat

section

variable [Crc32c]

/-- `frame_crc`: the checksum covers the length prefix and the payload. -/
def frameCrc (len : UInt32) (payload : Bytes) : UInt32 :=
  Crc32c.crc32cAppend (Crc32c.crc32c (u32ToLeBytes len)) payload

/-- The frame `Segment::append` writes. -/
def frame (payload : Bytes) : Bytes :=
  let len := UInt32.ofNat payload.length
  u32ToLeBytes len ++ u32ToLeBytes (frameCrc len payload) ++ payload

/-- `read_record_at`. -/
def readRecordAt (data : Bytes) (offset segmentId : Nat) :
    Except WalError (Option (Bytes × Nat)) :=
  if data.length ≤ offset then .ok none
  -- a truncated header is the end of the segment
  else if data.length < offset + headerSize then .ok none
  else
    let len := recordLen data offset
    let storedCrc := u32FromLeBytes ((data.drop (offset + 4)).take 4)
    -- a zero length marks the end of the written data
    if len = 0 then .ok none
    else
      let payloadStart := offset + headerSize
      let payloadEnd := payloadStart + len
      if data.length < payloadEnd then .error (.truncatedRecord segmentId offset)
      else
        let payload := (data.drop payloadStart).take len
        let computedCrc := frameCrc (UInt32.ofNat len) payload
        if storedCrc ≠ computedCrc then
          .error (.crcMismatch segmentId offset storedCrc computedCrc)
        else .ok (some (payload, payloadEnd))

@[simp] theorem frame_length (payload : Bytes) :
    (frame payload).length = headerSize + payload.length := by
  simp [frame, headerSize]
  omega

theorem frame_ne_nil (payload : Bytes) : frame payload ≠ [] := by
  simp [frame, u32ToLeBytes]

/-- A whole frame reads back. -/
theorem readRecordAt_frame {payload : Bytes} (h : Recordable payload) {data : Bytes}
    (rest : Bytes) {offset segmentId : Nat} (hdata : data.drop offset = frame payload ++ rest) :
    readRecordAt data offset segmentId =
      .ok (some (payload, offset + (frame payload).length)) := by
  have hlen : data.length = offset + (frame payload).length + rest.length := by
    have := congrArg List.length hdata
    have hpos : 0 < headerSize := by decide
    simp only [List.length_drop, List.length_append, frame_length] at this ⊢
    omega
  have hne : payload.length ≠ 0 := by simpa using h.ne_nil
  have hcrc : data.drop (offset + 4) =
      u32ToLeBytes (frameCrc (UInt32.ofNat payload.length) payload) ++ (payload ++ rest) := by
    rw [← List.drop_drop, hdata]
    simp [frame, u32ToLeBytes]
  have hpayload : data.drop (offset + headerSize) = payload ++ rest := by
    rw [← List.drop_drop, hdata]
    simp [frame, u32ToLeBytes, headerSize]
  have hlength : recordLen data offset = payload.length := by
    rw [recordLen, hdata, frame, List.append_assoc, List.append_assoc,
      List.take_left' (u32ToLeBytes_length _), u32FromLeBytes_toLeBytes, h.length_toNat]
  rw [frame_length] at hlen
  unfold readRecordAt
  rw [if_neg (by omega), if_neg (by omega)]
  simp only [hlength, hcrc, hpayload,
    List.take_left' (u32ToLeBytes_length _), u32FromLeBytes_toLeBytes, List.take_left]
  rw [if_neg hne, if_neg (by omega), if_neg (not_not_intro rfl), frame_length, Nat.add_assoc]

/-- What `readRecordAt` can answer. -/
theorem readRecordAt_cases (data : Bytes) (offset segmentId : Nat) :
    readRecordAt data offset segmentId = .ok none ∨
      readRecordAt data offset segmentId = .error (.truncatedRecord segmentId offset) ∨
      offset + headerSize + recordLen data offset ≤ data.length ∧
        ((∃ payload, readRecordAt data offset segmentId =
            .ok (some (payload, offset + headerSize + recordLen data offset))) ∨
          ∃ expected actual, readRecordAt data offset segmentId =
            .error (.crcMismatch segmentId offset expected actual)) := by
  unfold readRecordAt
  split
  · exact Or.inl rfl
  · split
    · exact Or.inl rfl
    · dsimp only
      split
      · exact Or.inl rfl
      · split
        · exact Or.inr (Or.inl rfl)
        · rename_i hfits
          refine Or.inr (Or.inr ⟨by omega, ?_⟩)
          split
          · exact Or.inr ⟨_, _, rfl⟩
          · exact Or.inl ⟨_, rfl⟩

/-- A record is returned only with an offset further on. -/
theorem readRecordAt_next_offset {data payload : Bytes} {offset segmentId next : Nat}
    (h : readRecordAt data offset segmentId = .ok (some (payload, next))) :
    offset < next ∧ next ≤ data.length := by
  obtain hread | hread | ⟨hfits, ⟨p, hread⟩ | ⟨e, a, hread⟩⟩ :=
    readRecordAt_cases data offset segmentId
  · simp [hread] at h
  · simp [hread] at h
  · have hpos : 0 < headerSize := by decide
    simp only [hread, Except.ok.injEq, Option.some.injEq, Prod.mk.injEq] at h
    omega
  · simp [hread] at h

/-- `scan_valid_end`: the offset after the last contiguous whole frame. -/
def scanStep (data : Bytes) (segmentId offset : Nat) : Nat ⊕ Nat :=
  match readRecordAt data offset segmentId with
  | .ok (some (_, next)) => .inr next
  | _ => .inl offset

theorem scanStep_decreases (data : Bytes) (segmentId : Nat) :
    Loop.Decreases (scanStep data segmentId) (fun offset => data.length - offset) := by
  intro offset next h
  unfold scanStep at h
  split at h
  · rename_i hread
    cases h
    obtain ⟨hlt, hle⟩ := readRecordAt_next_offset hread
    change data.length - next < data.length - offset
    omega
  · cases h

/-- `scan_valid_end`: where the last whole frame ends. -/
def scanValidEnd (data : Bytes) (segmentId : Nat) : Nat :=
  Loop.iterate (scanStep_decreases data segmentId) 0

/-- The scan passes over whole frames. -/
theorem iterate_scanStep_of_frames {data tail : Bytes} {recs : List Bytes} {offset : Nat}
    (segmentId : Nat) (hok : ∀ r ∈ recs, Recordable r)
    (hdata : data.drop offset = Framing.frames frame recs ++ tail) :
    Loop.iterate (scanStep_decreases data segmentId) offset =
      Loop.iterate (scanStep_decreases data segmentId)
        (offset + (Framing.frames frame recs).length) := by
  induction recs generalizing offset with
  | nil => rfl
  | cons r recs ih =>
      rw [Framing.frames_cons, List.append_assoc] at hdata
      have hread : readRecordAt data offset segmentId =
          .ok (some (r, offset + (frame r).length)) :=
        readRecordAt_frame (hok r List.mem_cons_self) _ hdata
      have hstep : scanStep data segmentId offset = .inr (offset + (frame r).length) := by
        simp only [scanStep, hread]
      have hdrop : data.drop (offset + (frame r).length) = Framing.frames frame recs ++ tail := by
        rw [← List.drop_drop, hdata, List.drop_left]
      rw [Loop.iterate_of_inr _ hstep, ih (fun x hx => hok x (List.mem_cons_of_mem r hx)) hdrop,
        Framing.frames_cons, List.length_append, Nat.add_assoc]

/-- `readRecordAt` finds nothing to return and nothing to skip. -/
def Stops (data : Bytes) (offset segmentId : Nat) : Prop :=
  readRecordAt data offset segmentId = .ok none ∨
    readRecordAt data offset segmentId = .error (.truncatedRecord segmentId offset)

/-- A torn frame is not read. -/
theorem stops_of_torn {data : Bytes} {offset segmentId : Nat}
    (h : Framing.Torn frame Recordable (data.drop offset)) : Stops data offset segmentId := by
  obtain h | ⟨payload, rest, hok, hrest, hframe⟩ := h
  · left
    rw [List.drop_eq_nil_iff] at h
    rw [readRecordAt, if_pos h]
  · have hshort : data.length < offset + (frame payload).length := by
      have := congrArg List.length hframe
      have hpos := List.length_pos_of_ne_nil hrest
      rw [List.length_append, List.length_drop] at this
      omega
    unfold Stops readRecordAt
    split
    · exact Or.inl rfl
    · split
      · exact Or.inl rfl
      · rename_i hstart hheader
        have hlength : recordLen data offset = payload.length := by
          have htake := congrArg (List.take 4) hframe
          have hfour : 4 ≤ (data.drop offset).length := by
            unfold headerSize at hheader
            rw [List.length_drop]
            omega
          rw [List.take_append_of_le_length hfour] at htake
          rw [recordLen, ← htake, frame, List.append_assoc,
            List.take_left' (u32ToLeBytes_length _), u32FromLeBytes_toLeBytes, hok.length_toNat]
        have hne : payload.length ≠ 0 := by simpa using hok.ne_nil
        simp only [hlength]
        rw [if_neg hne, if_pos (by rw [frame_length] at hshort; omega)]
        exact Or.inr rfl

/-- Where a reader stands in a file: before `offset` the frames of `done`, from
there on whole frames of `rest`, and a torn frame at the end. -/
structure Reads (data : Bytes) (offset : Nat) (done rest : List Bytes) : Prop where
  offset_eq : offset = (Framing.frames frame done).length
  data_eq : ∃ torn, Framing.Torn frame Recordable torn ∧
    data = Framing.frames frame (done ++ rest) ++ torn
  recordable : ∀ r ∈ rest, Recordable r

namespace Reads

variable {data : Bytes} {offset : Nat} {done rest : List Bytes} {r : Bytes}

theorem next (h : Reads data offset done (r :: rest)) (segmentId : Nat) :
    readRecordAt data offset segmentId = .ok (some (r, offset + (frame r).length)) := by
  obtain ⟨torn, -, hdata⟩ := h.data_eq
  refine readRecordAt_frame (h.recordable r List.mem_cons_self)
    (Framing.frames frame rest ++ torn) ?_
  rw [hdata, Framing.frames_append, Framing.frames_cons, h.offset_eq, List.append_assoc,
    List.drop_left, List.append_assoc]

/-- The reader takes a record. -/
theorem take (h : Reads data offset done (r :: rest)) :
    Reads data (offset + (frame r).length) (done ++ [r]) rest := by
  obtain ⟨torn, htorn, hdata⟩ := h.data_eq
  refine ⟨?_, ⟨torn, htorn, ?_⟩, fun x hx => h.recordable x (List.mem_cons_of_mem r hx)⟩
  · rw [h.offset_eq, Framing.frames_append, List.length_append, Framing.frames_cons,
      Framing.frames_nil, List.append_nil]
  · rw [hdata, List.append_assoc, List.singleton_append]

theorem stops (h : Reads data offset done []) (segmentId : Nat) :
    Stops data offset segmentId := by
  obtain ⟨torn, htorn, hdata⟩ := h.data_eq
  apply stops_of_torn
  rwa [hdata, h.offset_eq, List.append_nil, List.drop_left]

/-- What is left to read is determined by the file. -/
theorem eq_nil_of_stops (h : Reads data offset done rest) {segmentId : Nat}
    (hstop : Stops data offset segmentId) : rest = [] := by
  cases rest with
  | nil => rfl
  | cons r rest =>
      have hnext := h.next segmentId
      obtain hread | hread := hstop
      · simp [hread] at hnext
      · simp [hread] at hnext

/-- A file that holds a prefix of a stream, read past the records of `done`. -/
theorem of_prefix {recs : List Bytes} (hok : ∀ r ∈ recs, Recordable r)
    (hdata : data <+: Framing.frames frame recs)
    (hfit : Framing.fitting frame data.length recs = done ++ rest) :
    Reads data (Framing.frames frame done).length done rest := by
  obtain ⟨torn, htorn, heq⟩ := Framing.eq_frames_append_torn hok hdata
  have hsub := Framing.fitting_isPrefix (f := frame) data.length recs
  rw [hfit] at heq hsub
  exact ⟨rfl, ⟨torn, htorn, heq⟩, fun r hr => hok r (hsub.subset (List.mem_append_right done hr))⟩

/-- `of_prefix` at the end of the whole frames. -/
theorem of_prefix_end {recs : List Bytes} (hok : ∀ r ∈ recs, Recordable r)
    (hdata : data <+: Framing.frames frame recs)
    (hfit : Framing.fitting frame data.length recs = done) :
    Reads data (Framing.frames frame done).length done [] :=
  of_prefix hok hdata (by rw [hfit, List.append_nil])

/-- The frames already read lie within the file. -/
theorem length_done_le (h : Reads data offset done rest) :
    (Framing.frames frame done).length ≤ data.length := by
  obtain ⟨torn, -, hdata⟩ := h.data_eq
  rw [hdata, Framing.frames_append, List.length_append, List.length_append]
  omega

/-- The scan goes to the end of the last whole frame. -/
theorem iterate_scanStep (h : Reads data offset done rest) (segmentId : Nat) :
    Loop.iterate (scanStep_decreases data segmentId) offset =
      (Framing.frames frame (done ++ rest)).length := by
  induction rest generalizing offset done with
  | nil =>
      have hstep : scanStep data segmentId offset = .inl offset := by
        unfold scanStep
        obtain hstop | hstop := h.stops segmentId
        · rw [hstop]
        · rw [hstop]
      rw [Loop.iterate_of_inl _ hstep, h.offset_eq, List.append_nil]
  | cons r rest ih =>
      have hstep : scanStep data segmentId offset = .inr (offset + (frame r).length) := by
        simp only [scanStep, h.next segmentId]
      rw [Loop.iterate_of_inr _ hstep, ih h.take, List.append_assoc, List.singleton_append]

end Reads

/-- **Recovery keeps exactly the whole frames.** -/
theorem scanValidEnd_eq {data torn : Bytes} {recs : List Bytes} (segmentId : Nat)
    (hok : ∀ r ∈ recs, Recordable r) (htorn : Framing.Torn frame Recordable torn)
    (hdata : data = Framing.frames frame recs ++ torn) :
    scanValidEnd data segmentId = (Framing.frames frame recs).length :=
  have hreads : Reads data 0 [] recs := ⟨rfl, ⟨torn, htorn, hdata⟩, hok⟩
  hreads.iterate_scanStep segmentId

end

end PolyBook.Wal
