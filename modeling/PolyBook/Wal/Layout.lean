import PolyBook.Wal.Reader

/-!
# What the writer leaves on disk

`Layout` relates a log directory and its writer to the records appended so far,
segment by segment: every segment file, together with what the writer still
buffers for it, is the stream of the frames of its records.  Every operation of
the writer keeps the relation.
-/

namespace PolyBook.Wal

/-- The records of the segments before `id`, in order. -/
def earlier (records : Nat → List Bytes) (id : Nat) : List Bytes :=
  (List.range id).flatMap records

/-- The records before a segment, one segment on. -/
theorem earlier_succ (records : Nat → List Bytes) (id : Nat) :
    earlier records (id + 1) = earlier records id ++ records id := by
  simp [earlier, List.range_succ]

/-- Earlier segments hold a front of the records. -/
theorem earlier_isPrefix (records : Nat → List Bytes) {id id' : Nat} (h : id ≤ id') :
    earlier records id <+: earlier records id' := by
  induction h with
  | refl => exact List.prefix_rfl
  | step h ih =>
      rw [earlier_succ]
      exact ih.trans (List.prefix_append _ _)

/-- The first records of a segment, after those of the segments before it. -/
theorem earlier_append_isPrefix {records : Nat → List Bytes} {id last : Nat} {done : List Bytes}
    (hdone : done <+: records id) (hle : id ≤ last) :
    earlier records id ++ done <+: earlier records (last + 1) := by
  refine List.IsPrefix.trans ?_ (earlier_isPrefix records (Nat.succ_le_succ hle))
  rw [earlier_succ]
  exact (List.prefix_append_right_inj _).mpr hdone

/-- The record is appended to a segment. -/
def recordIn (records : Nat → List Bytes) (id : Nat) (payload : Bytes) : Nat → List Bytes :=
  fun other => if other = id then records other ++ [payload] else records other

@[simp] theorem recordIn_same (records : Nat → List Bytes) (id : Nat) (payload : Bytes) :
    recordIn records id payload id = records id ++ [payload] := if_pos rfl

/-- Recording in one segment leaves the others. -/
theorem recordIn_ne (records : Nat → List Bytes) {id other : Nat} (h : other ≠ id)
    (payload : Bytes) : recordIn records id payload other = records other := if_neg h

/-- Recording adds at the end. -/
theorem isPrefix_recordIn (records : Nat → List Bytes) (id : Nat) (payload : Bytes) (other : Nat) :
    records other <+: recordIn records id payload other := by
  unfold recordIn
  split
  · exact List.prefix_append _ _
  · exact List.prefix_rfl

/-- Recording leaves the records of the segments before. -/
theorem earlier_recordIn_of_le (records : Nat → List Bytes) {id id' : Nat} (h : id' ≤ id)
    (payload : Bytes) : earlier (recordIn records id payload) id' = earlier records id' := by
  induction id' with
  | zero => rfl
  | succ id' ih =>
      rw [earlier_succ, earlier_succ, ih (by omega), recordIn_ne records (by omega)]

/-- Recording in the last segment adds to the log. -/
theorem earlier_recordIn (records : Nat → List Bytes) (id : Nat) (payload : Bytes) :
    earlier (recordIn records id payload) (id + 1) = earlier records (id + 1) ++ [payload] := by
  rw [earlier_succ, earlier_succ, earlier_recordIn_of_le records (Nat.le_refl id),
    recordIn_same, List.append_assoc]

/-- The contents of a file that is there. -/
theorem Dir.contents_of_some {dir : Dir} {id : Nat} {file : Bytes} (h : dir[id]? = some file) :
    dir.contents id = file := by
  simp [contents, h]

namespace WalWriter

/-- What the writer still buffers for a segment. -/
def pending (w : WalWriter) (id : Nat) : Bytes :=
  if id = w.active.id then w.active.buffer else []

/-- Bytes are pending for the active segment. -/
theorem pending_active (w : WalWriter) : w.pending w.active.id = w.active.buffer := if_pos rfl

/-- No bytes are pending for another segment. -/
theorem pending_ne (w : WalWriter) {id : Nat} (h : id ≠ w.active.id) : w.pending id = [] :=
  if_neg h

/-- The writer with one more frame in its buffer. -/
def buffered [Crc32c] (w : WalWriter) (payload : Bytes) : WalWriter :=
  { w with active := { w.active with
      buffer := w.active.buffer ++ frame payload
      writeOffset := w.active.writeOffset + (headerSize + payload.length) } }

/-- A payload of an allowed size is buffered where there is room. -/
theorem append_of_le [Crc32c] (w : WalWriter) {payload : Bytes} (dir : Dir)
    (h : payload.length ≤ maxRecordSize) :
    w.append payload dir =
      ((w.makeRoom payload dir).1.buffered payload, (w.makeRoom payload dir).2,
        .ok (w.makeRoom payload dir).1.active.writeOffset) := by
  simp [append, Segment.append, buffered, Nat.not_lt.mpr h]

/-- A payload that is too large is refused, when room has been made. -/
theorem append_of_large [Crc32c] (w : WalWriter) {payload : Bytes} (dir : Dir)
    (h : maxRecordSize < payload.length) :
    w.append payload dir = ((w.makeRoom payload dir).1, (w.makeRoom payload dir).2,
      .error (.recordTooLarge payload.length maxRecordSize)) := by
  simp [append, Segment.append, h]

/-- What `append` does once there is room. -/
theorem append_cases [Crc32c] (w : WalWriter) (payload : Bytes) (dir : Dir) :
    (payload.length ≤ maxRecordSize ∧ w.append payload dir =
        ((w.makeRoom payload dir).1.buffered payload, (w.makeRoom payload dir).2,
          .ok (w.makeRoom payload dir).1.active.writeOffset)) ∨
      w.append payload dir = ((w.makeRoom payload dir).1, (w.makeRoom payload dir).2,
        .error (.recordTooLarge payload.length maxRecordSize)) := by
  rcases Nat.lt_or_ge maxRecordSize payload.length with hlarge | hle
  · exact Or.inr (w.append_of_large dir hlarge)
  · exact Or.inl ⟨hle, w.append_of_le dir hle⟩

/-- The lookups after the writer hands a part of its buffer to the file. -/
theorem getElem?_spill (w : WalWriter) (k : Nat) (dir : Dir) (id : Nat) :
    (w.spill k dir).2[id]? = if id = w.active.id then
      some (dir.contents id ++ w.active.buffer.take k) else dir[id]? := by
  change (dir.insert w.active.id _)[id]? = _
  rw [TreeMapLookup.getElem?_insert]
  split
  · rename_i hid
    rw [hid]
  · rfl

/-- A partial write adds to the active file. -/
theorem contents_spill (w : WalWriter) (k : Nat) (dir : Dir) (id : Nat) :
    (w.spill k dir).2.contents id =
      if id = w.active.id then dir.contents id ++ w.active.buffer.take k else dir.contents id := by
  rw [Dir.contents, getElem?_spill]
  split
  · rfl
  · rfl

/-- Rotation flushes and begins an empty file. -/
theorem getElem?_rotate (w : WalWriter) (dir : Dir) (id : Nat) :
    (w.rotate dir).2[id]? =
      if id = w.nextSegmentId then some [] else (w.flush dir).2[id]? :=
  TreeMapLookup.getElem?_insert _ _ _ _

/-- A rotation closes the segment with everything that was buffered for it. -/
theorem contents_rotate {w : WalWriter} {dir : Dir} (hnext : w.nextSegmentId = w.active.id + 1)
    {id : Nat} (hid : id ≤ w.active.id) :
    (w.rotate dir).2.contents id = dir.contents id ++ w.pending id := by
  have hother : (w.rotate dir).2[id]? = (w.flush dir).2[id]? := by
    rw [getElem?_rotate, if_neg (by omega)]
  have hflush : (w.flush dir).2.contents id = dir.contents id ++ w.pending id := by
    change (w.spill w.active.buffer.length dir).2.contents id = _
    rw [contents_spill, List.take_length]
    unfold pending
    split
    · rfl
    · rw [List.append_nil]
  rw [← hflush, Dir.contents, hother]
  rfl

end WalWriter

variable [Crc32c]

/-- The directory and its writer hold the given records, segment by segment.
Segments may be missing, but not the active one. -/
structure Layout (dir : Dir) (w : WalWriter) (records : Nat → List Bytes) : Prop where
  next : w.nextSegmentId = w.active.id + 1
  bound : ∀ (id : Nat) (file : Bytes), dir[id]? = some file → id ≤ w.active.id
  active : ∃ file, dir[w.active.id]? = some file
  stored : ∀ (id : Nat) (file : Bytes), dir[id]? = some file →
    file ++ w.pending id = Framing.frames frame (records id)
  recordable : ∀ id, ∀ r ∈ records id, Recordable r
  unwritten : ∀ id, w.active.id < id → records id = []
  offset : w.active.writeOffset = (Framing.frames frame (records w.active.id)).length

/-- The segments up to the active one are in both directories or in neither, and
those in the second continue those in the first. -/
def Grows (dir : Dir) (w : WalWriter) (dir' : Dir) : Prop :=
  ∀ id, id ≤ w.active.id → ∃ more : Bytes, dir'[id]? = dir[id]?.map (· ++ more)

namespace Layout

variable {dir : Dir} {w : WalWriter} {records : Nat → List Bytes}

/-- A segment before the active one holds all its frames. -/
theorem sealed (h : Layout dir w records) {id : Nat} (hid : id < w.active.id) {file : Bytes}
    (hfile : dir[id]? = some file) : file = Framing.frames frame (records id) := by
  have := h.stored id file hfile
  rwa [w.pending_ne (by omega), List.append_nil] at this

/-- A file holds a front of its frames. -/
theorem stored_prefix (h : Layout dir w records) {id : Nat} {file : Bytes}
    (hfile : dir[id]? = some file) : file <+: Framing.frames frame (records id) :=
  ⟨_, h.stored id file hfile⟩

/-- An empty directory that is opened is laid out. -/
theorem openDir (config : WalConfig) :
    Layout (WalWriter.openDir config ∅).2 (WalWriter.openDir config ∅).1 fun _ => [] := by
  have hopen : WalWriter.openDir config ∅ = (⟨config, ⟨0, 0, []⟩, 1⟩, (∅ : Dir).insert 0 []) := rfl
  rw [hopen]
  have hfile : ∀ id file, ((∅ : Dir).insert 0 [])[id]? = some file → id = 0 ∧ file = [] := by
    intro id file h
    rw [TreeMapLookup.getElem?_insert] at h
    split at h
    · rename_i hid
      cases h
      exact ⟨hid, rfl⟩
    · simp at h
  refine ⟨rfl, fun id file h => ?_, ⟨[], by simp⟩, fun id file h => ?_, ?_, fun _ _ => rfl, rfl⟩
  · exact Nat.le_of_eq (hfile id file h).1
  · rw [(hfile id file h).2]
    simp [WalWriter.pending]
  · intro id r hr
    cases hr

/-- A partial write keeps the layout. -/
theorem spill (h : Layout dir w records) (k : Nat) :
    Layout (w.spill k dir).2 (w.spill k dir).1 records := by
  have hactive : (w.spill k dir).1.active.id = w.active.id := rfl
  obtain ⟨file₀, hfile₀⟩ := h.active
  refine ⟨h.next, fun id file hfile => ?_, ?_, fun id file hfile => ?_, h.recordable,
    h.unwritten, h.offset⟩
  · rw [WalWriter.getElem?_spill] at hfile
    split at hfile
    · rename_i hid
      exact Nat.le_of_eq hid
    · exact h.bound id file hfile
  · rw [WalWriter.getElem?_spill, hactive, if_pos rfl]
    exact ⟨_, rfl⟩
  · rw [WalWriter.getElem?_spill] at hfile
    split at hfile
    · rename_i hid
      cases hfile
      have hstored := h.stored _ _ hfile₀
      rw [w.pending_active] at hstored
      rw [hid, Dir.contents_of_some hfile₀, ← hstored, ← hactive, WalWriter.pending_active,
        List.append_assoc]
      exact congrArg (file₀ ++ ·) (List.take_append_drop k _)
    · rename_i hid
      rw [WalWriter.pending_ne _ (by rwa [hactive]), ← w.pending_ne hid]
      exact h.stored id file hfile

/-- A partial write lets the active file grow. -/
theorem spill_grows (h : Layout dir w records) (k : Nat) : Grows dir w (w.spill k dir).2 := by
  intro id _
  obtain ⟨file, hfile⟩ := h.active
  rw [WalWriter.getElem?_spill]
  split
  · rename_i hid
    exact ⟨w.active.buffer.take k, by rw [hid, hfile, Dir.contents_of_some hfile]; rfl⟩
  · refine ⟨[], ?_⟩
    cases dir[id]? with
    | none => rfl
    | some data => simp

/-- A flush keeps the layout. -/
theorem flush (h : Layout dir w records) : Layout (w.flush dir).2 (w.flush dir).1 records :=
  h.spill w.active.buffer.length

/-- Rotation keeps the layout. -/
theorem rotate (h : Layout dir w records) : Layout (w.rotate dir).2 (w.rotate dir).1 records := by
  have hactive : (w.rotate dir).1.active.id = w.active.id + 1 := h.next
  have hfile : ∀ id, (w.rotate dir).2[id]? =
      if id = w.active.id + 1 then some [] else (w.flush dir).2[id]? := by
    intro id
    rw [WalWriter.getElem?_rotate, h.next]
  have hflush := h.flush
  have hnew : records (w.active.id + 1) = [] := h.unwritten _ (Nat.lt_succ_self _)
  refine ⟨?_, fun id file hid => ?_, ?_, fun id file hid => ?_, h.recordable,
    fun id hid => h.unwritten id (by omega), ?_⟩
  · rw [hactive]
    exact congrArg (· + 1) h.next
  · rw [hfile] at hid
    rw [hactive]
    split at hid
    · rename_i heq
      exact Nat.le_of_eq heq
    · exact Nat.le_succ_of_le (hflush.bound id file hid)
  · exact ⟨[], by rw [hactive, hfile, if_pos rfl]⟩
  · rw [hfile] at hid
    split at hid
    · rename_i heq
      cases hid
      rw [heq, hnew, ← hactive, WalWriter.pending_active]
      rfl
    · rename_i hne
      have hstored := hflush.stored id file hid
      have hpending : (w.flush dir).1.pending id = [] := by
        unfold WalWriter.pending
        split
        · exact List.drop_length
        · rfl
      rw [WalWriter.pending_ne _ (by rwa [hactive]), ← hpending]
      exact hstored
  · rw [hactive, hnew]
    rfl

/-- Rotation lets the files grow. -/
theorem rotate_grows (h : Layout dir w records) : Grows dir w (w.rotate dir).2 := by
  intro id hid
  rw [WalWriter.getElem?_rotate, if_neg (by rw [h.next]; omega)]
  exact h.spill_grows w.active.buffer.length id hid

/-- Making room keeps the layout. -/
theorem makeRoom (h : Layout dir w records) (payload : Bytes) :
    Layout (w.makeRoom payload dir).2 (w.makeRoom payload dir).1 records := by
  unfold WalWriter.makeRoom
  split
  · exact h.rotate
  · exact h

/-- Making room lets the files grow. -/
theorem makeRoom_grows (h : Layout dir w records) (payload : Bytes) :
    Grows dir w (w.makeRoom payload dir).2 := by
  unfold WalWriter.makeRoom
  split
  · exact h.rotate_grows
  · intro id _
    refine ⟨[], ?_⟩
    cases dir[id]? with
    | none => rfl
    | some data => simp

/-- Making room stays in the segment or goes on to the next. -/
theorem makeRoom_active (h : Layout dir w records) (payload : Bytes) :
    (w.makeRoom payload dir).1.active.id = w.active.id ∨
      (w.makeRoom payload dir).1.active.id = w.active.id + 1 := by
  unfold WalWriter.makeRoom
  split
  · exact Or.inr h.next
  · exact Or.inl rfl

/-- Pruning before the active segment keeps the layout of what is left. -/
theorem prune (h : Layout dir w records) {dir' : Dir} {cut : Nat} (hcut : cut ≤ w.active.id)
    (hpruned : ∀ id, dir'[id]? = if id < cut then none else dir[id]?) :
    Layout dir' w records := by
  have hleft : ∀ (id : Nat) (file : Bytes), dir'[id]? = some file → dir[id]? = some file := by
    intro id file hfile
    rw [hpruned] at hfile
    split at hfile
    · cases hfile
    · exact hfile
  refine ⟨h.next, fun id file hfile => h.bound id file (hleft id file hfile), ?_,
    fun id file hfile => h.stored id file (hleft id file hfile), h.recordable, h.unwritten,
    h.offset⟩
  rw [hpruned, if_neg (by omega)]
  exact h.active

/-- The record goes to the active segment's buffer. -/
theorem record (h : Layout dir w records) {payload : Bytes} (hok : Recordable payload) :
    Layout dir (w.buffered payload) (recordIn records w.active.id payload) := by
  refine ⟨h.next, h.bound, h.active, fun id file hfile => ?_, fun id r hr => ?_,
    fun id hid => ?_, ?_⟩
  · have hstored := h.stored id file hfile
    by_cases hid : id = w.active.id
    · subst hid
      rw [w.pending_active] at hstored
      rw [recordIn_same, Framing.frames_append, ← hstored, List.append_assoc]
      simp [WalWriter.pending, WalWriter.buffered]
    · have hother : (w.buffered payload).pending id = [] := WalWriter.pending_ne _ hid
      rw [w.pending_ne hid] at hstored
      rwa [recordIn_ne records hid, hother]
  · unfold recordIn at hr
    split at hr
    · obtain hr | hr := List.mem_append.mp hr
      · exact h.recordable id r hr
      · rwa [List.mem_singleton.mp hr]
    · exact h.recordable id r hr
  · have hother : id ≠ w.active.id := Nat.ne_of_gt hid
    rw [recordIn_ne records hother]
    exact h.unwritten id hid
  · simp [WalWriter.buffered, h.offset]

end Layout

end PolyBook.Wal
