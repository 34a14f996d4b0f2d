import PolyBook.FixedPoint
import PolyBook.Library.TreeMap
import PolyBook.Wal.Frame

/-!
# The writing side of the log

A log directory maps segment ids to file contents.  `Segment` is an open segment
file: what its `BufWriter` still holds is not in the file yet, and may reach it
in any increments.  `WalWriter` appends, rotates, recovers a torn tail and
prunes.
-/

namespace PolyBook.Wal

/-- The segment files of a log directory, by id. -/
abbrev Dir := Std.ExtTreeMap Nat Bytes

/-- `WalConfig`, without the timer settings. -/
structure WalConfig where
  segmentSize : Nat
  maxSegments : Nat
  maxConsumerLagBytes : Nat

/-- The bytes of a segment file. -/
def Dir.contents (dir : Dir) (id : Nat) : Bytes := dir[id]?.getD []

/-- An open segment file and the bytes its `BufWriter` holds. -/
structure Segment where
  id : Nat
  writeOffset : Nat
  buffer : Bytes
  deriving DecidableEq

/-- Append-only writer that manages segment rotation. -/
structure WalWriter where
  config : WalConfig
  active : Segment
  nextSegmentId : Nat

namespace Segment

/-- `Segment::create`: an empty file. -/
def create (id : Nat) (dir : Dir) : Segment × Dir :=
  (⟨id, 0, []⟩, dir.insert id [])

/-- Hand the first `k` buffered bytes to the file. -/
def spill (s : Segment) (k : Nat) (dir : Dir) : Segment × Dir :=
  ({ s with buffer := s.buffer.drop k }, dir.insert s.id (dir.contents s.id ++ s.buffer.take k))

/-- `Segment::flush`. -/
def flush (s : Segment) (dir : Dir) : Segment × Dir := s.spill s.buffer.length dir

/-- `Segment::remaining`. -/
def remaining (s : Segment) (segmentSize : Nat) : Nat := segmentSize - s.writeOffset

variable [Crc32c]

/-- `Segment::open_append`: truncate the file to its last whole frame and resume
there. -/
def openAppend (id : Nat) (dir : Dir) : Segment × Dir :=
  let existing := dir.contents id
  let validEnd := scanValidEnd existing id
  (⟨id, validEnd, []⟩,
    if validEnd < existing.length then dir.insert id (existing.take validEnd) else dir)

/-- `Segment::append`. -/
def append (s : Segment) (payload : Bytes) : Except WalError (Segment × Nat) :=
  if maxRecordSize < payload.length then
    .error (.recordTooLarge payload.length maxRecordSize)
  else
    .ok ({ s with
      buffer := s.buffer ++ frame payload
      writeOffset := s.writeOffset + (headerSize + payload.length) }, s.writeOffset)

end Segment

/-- `char::is_whitespace`. -/
def isWhitespace (c : Char) : Bool :=
  let n := c.toNat
  (9 ≤ n && n ≤ 13) || n == 0x20 || n == 0x85 || n == 0xA0 || n == 0x1680 ||
    (0x2000 ≤ n && n ≤ 0x200A) || n == 0x2028 || n == 0x2029 || n == 0x202F ||
    n == 0x205F || n == 0x3000

/-- `str::trim`. -/
def trim (text : List Char) : List Char :=
  ((text.dropWhile isWhitespace).reverse.dropWhile isWhitespace).reverse

/-- The segment id of a consumer position file "segment:offset", for pruning. -/
def parsePositionSegment (content : String) : Option Nat := do
  let (segStr, _) ← splitOnce ':' (trim content.toList)
  parseU64 segStr

namespace WalWriter

/-- `WalWriter::rotate`. -/
def rotate (w : WalWriter) (dir : Dir) : WalWriter × Dir :=
  let (_, dir) := w.active.flush dir
  let (active, dir) := Segment.create w.nextSegmentId dir
  ({ w with active := active, nextSegmentId := w.nextSegmentId + 1 }, dir)

/-- The payload does not fit the active segment any more. -/
def rotates (w : WalWriter) (payload : Bytes) : Bool :=
  w.active.remaining w.config.segmentSize < headerSize + payload.length

/-- Rotate if the payload does not fit. -/
def makeRoom (w : WalWriter) (payload : Bytes) (dir : Dir) : WalWriter × Dir :=
  if w.rotates payload then w.rotate dir else (w, dir)

theorem makeRoom_config (w : WalWriter) (payload : Bytes) (dir : Dir) :
    (w.makeRoom payload dir).1.config = w.config := by
  unfold makeRoom
  split <;> rfl

/-- The buffered bytes go to the active file. -/
def flush (w : WalWriter) (dir : Dir) : WalWriter × Dir :=
  let (active, dir) := w.active.flush dir
  ({ w with active := active }, dir)

/-- The `BufWriter` hands a part of its buffer to the file. -/
def spill (w : WalWriter) (k : Nat) (dir : Dir) : WalWriter × Dir :=
  let (active, dir) := w.active.spill k dir
  ({ w with active := active }, dir)

/-- `WalWriter::global_offset`. -/
def globalOffset (w : WalWriter) : Nat :=
  w.active.id * w.config.segmentSize + w.active.writeOffset

/-- The loop of `min_consumer_segment`; a missing or unreadable file keeps all
segments. -/
def minConsumerLoop (w : WalWriter) : (files : List (Option String)) → (minSeg : Nat) → Nat
  | [], minSeg => if minSeg = u64Max then w.active.id else minSeg
  | none :: _, _ => 0
  | some content :: files, minSeg =>
      match parsePositionSegment content with
      | some segId => w.minConsumerLoop files (min minSeg segId)
      | none => 0

/-- `min_consumer_segment`, from the contents of the position files; `none` is a
file that does not exist. -/
def minConsumerSegment (w : WalWriter) (files : List (Option String)) : Nat :=
  if files.isEmpty then w.active.id else w.minConsumerLoop files u64Max

/-- Delete the segments before the active one that pass a test. -/
def deleteWhere (w : WalWriter) (test : Nat → Bool) (dir : Dir) : Dir :=
  dir.keys.foldl (fun d id =>
    if w.active.id ≤ id then d else if test id then d.erase id else d) dir

/-- `WalWriter::prune`. -/
def prune (w : WalWriter) (files : List (Option String)) (dir : Dir) : Dir :=
  let minConsumed := w.minConsumerSegment files
  w.deleteWhere (fun id => id < minConsumed) dir

/-- The loop that finds the retention window, over the ids in descending order. -/
def retentionLoop (w : WalWriter) (dir : Dir) :
    (ids : List Nat) → (retainedBytes retainedCount cutoff : Nat) → Nat
  | [], _, _, cutoff => cutoff
  | id :: ids, retainedBytes, retainedCount, cutoff =>
      if w.active.id ≤ id then w.retentionLoop dir ids retainedBytes retainedCount cutoff
      else if w.config.maxSegments ≤ retainedCount then cutoff
      else
        let retainedBytes := retainedBytes + (dir.contents id).length
        if retainedBytes ≤ w.config.maxConsumerLagBytes then
          w.retentionLoop dir ids retainedBytes (retainedCount + 1) id
        else cutoff

/-- The segment below which retention removes. -/
def retentionCutoff (w : WalWriter) (dir : Dir) : Nat :=
  w.retentionLoop dir dir.keys.reverse 0 1 w.active.id

/-- `WalWriter::prune_with_backpressure`. -/
def pruneWithBackpressure (w : WalWriter) (files : List (Option String)) (dir : Dir) : Dir :=
  let minConsumed := w.minConsumerSegment files
  let cutoff := w.retentionCutoff dir
  w.deleteWhere (fun id => !(cutoff ≤ id) && id < minConsumed) dir

variable [Crc32c]

/-- `WalWriter::open`. -/
def openDir (config : WalConfig) (dir : Dir) : WalWriter × Dir :=
  match dir.keys.getLast? with
  | some lastId =>
      let (active, dir) := Segment.openAppend lastId dir
      (⟨config, active, lastId + 1⟩, dir)
  | none =>
      let (active, dir) := Segment.create 0 dir
      (⟨config, active, 1⟩, dir)

theorem openDir_config (config : WalConfig) (dir : Dir) :
    (openDir config dir).1.config = config := by
  unfold openDir
  split <;> rfl

/-- `WalWriter::append`: rotate if needed, then append to the active segment. -/
def append (w : WalWriter) (payload : Bytes) (dir : Dir) :
    WalWriter × Dir × Except WalError Nat :=
  let (w, dir) := w.makeRoom payload dir
  match w.active.append payload with
  | .ok (active, offset) => ({ w with active := active }, dir, .ok offset)
  | .error e => (w, dir, .error e)

end WalWriter

/-! ## What pruning deletes -/

theorem Dir.getElem?_foldl_erase (p : Nat → Bool) (ids : List Nat) (dir : Dir) (k : Nat) :
    (ids.foldl (fun d id => if p id then d.erase id else d) dir)[k]? =
      if k ∈ ids ∧ p k = true then none else dir[k]? := by
  induction ids generalizing dir with
  | nil => simp
  | cons id ids ih =>
      rw [List.foldl_cons, ih]
      by_cases hp : p id = true
      · rw [if_pos hp, TreeMapLookup.getElem?_erase]
        by_cases hk : k = id
        · subst hk
          simp [hp]
        · simp [hk]
      · rw [if_neg hp]
        by_cases hk : k = id
        · subst hk
          simp [hp]
        · simp [hk]

namespace WalWriter

variable (w : WalWriter) (dir : Dir)

theorem getElem?_deleteWhere (test : Nat → Bool) (k : Nat) :
    (w.deleteWhere test dir)[k]? =
      if k < w.active.id ∧ test k = true then none else dir[k]? := by
  have hfold : w.deleteWhere test dir =
      dir.keys.foldl (fun d id =>
        if (!decide (w.active.id ≤ id) && test id) = true then d.erase id else d) dir := by
    unfold deleteWhere
    congr 1
    funext d id
    by_cases hid : w.active.id ≤ id <;> simp [hid]
  rw [hfold, Dir.getElem?_foldl_erase]
  by_cases hmem : k ∈ dir.keys
  · simp [hmem]
  · have hnone : dir[k]? = none := by
      rw [TreeMapLookup.mem_keys_iff] at hmem
      simpa using hmem
    simp [hnone]

/-- **Pruning deletes a prefix of the sealed segments.** -/
theorem getElem?_prune (files : List (Option String)) (k : Nat) :
    (w.prune files dir)[k]? =
      if k < min w.active.id (w.minConsumerSegment files) then none else dir[k]? := by
  rw [prune, getElem?_deleteWhere]
  simp only [decide_eq_true_eq, Nat.lt_min]

theorem getElem?_pruneWithBackpressure (files : List (Option String)) (k : Nat) :
    (w.pruneWithBackpressure files dir)[k]? =
      if k < min w.active.id (min (w.retentionCutoff dir) (w.minConsumerSegment files)) then none
      else dir[k]? := by
  rw [pruneWithBackpressure, getElem?_deleteWhere]
  simp only [Bool.and_eq_true, Bool.not_eq_true', decide_eq_false_iff_not, decide_eq_true_eq,
    Nat.not_le, Nat.lt_min]

end WalWriter

end PolyBook.Wal
