import PolyBook.Wal.Tail

/-!
# A log and the loss of power

The writer's bytes go through its buffer and the page cache to the disk.  A crash
of the operating system keeps what a sync has covered and any part of what else
is in the active segment's file; a rotation syncs the segment it closes.  The next
writer truncates the file to its whole frames and goes on.

`Disk.Inv` says what the directory holds in every state of such a run.
-/

namespace PolyBook.Wal

/-- The directory and its writer. -/
structure Disk where
  dir : Dir
  writer : Option WalWriter
  /-- How much of the active segment's file a sync has covered. -/
  durable : Nat
  /-- What has been appended to each segment and has not been lost. -/
  records : Nat → List Bytes

/-- What a writer does, and a crash that keeps a part of the unsynced bytes. -/
inductive DiskEvent where
  | openWriter
  | append (payload : Payload)
  | spill (k : Nat)
  | flush
  | sync
  | crash (kept : Nat)

namespace Disk

/-- An empty directory without a writer. -/
def init : Disk := ⟨∅, none, 0, fun _ => []⟩

/-- The id of the last segment. -/
def lastId (d : Disk) : Nat := d.dir.keys.getLast?.getD 0

/-- The records of the log, in order. -/
def log (d : Disk) : List Bytes := earlier d.records (d.lastId + 1)

/-- The file of the active segment after a crash. -/
def cutFile (d : Disk) (w : WalWriter) (kept : Nat) : Bytes :=
  (d.dir.contents w.active.id).take (max d.durable kept)

/-- With no record written, the log is empty. -/
theorem log_of_unwritten {d : Disk} (h : ∀ id, d.records id = []) : d.log = [] := by
  rw [log, earlier]
  exact List.flatMap_eq_nil_iff.mpr fun id _ => h id

/-- Every segment up to the active one is there. -/
def Complete (dir : Dir) (last : Nat) : Prop := ∀ id ≤ last, ∃ file, dir[id]? = some file

/-- Writing a file takes no segment away. -/
theorem complete_insert {dir : Dir} {last : Nat} (h : Complete dir last) (file : Bytes) :
    Complete (dir.insert last file) last := by
  intro id hid
  rw [TreeMapLookup.getElem?_insert]
  split
  · exact ⟨_, rfl⟩
  · exact h id hid

/-- A partial write takes no segment away. -/
theorem complete_spill {dir : Dir} {w : WalWriter} (h : Complete dir w.active.id) (k : Nat) :
    Complete (w.spill k dir).2 w.active.id := by
  intro id hid
  rw [WalWriter.getElem?_spill]
  split
  · exact ⟨_, rfl⟩
  · exact h id hid

/-- Rotation goes on to the next segment. -/
theorem complete_rotate {dir : Dir} {w : WalWriter} (hnext : w.nextSegmentId = w.active.id + 1)
    (h : Complete dir w.active.id) : Complete (w.rotate dir).2 (w.rotate dir).1.active.id := by
  intro id hid
  have hid : id ≤ w.nextSegmentId := hid
  rw [WalWriter.getElem?_rotate]
  split
  · exact ⟨_, rfl⟩
  · exact complete_spill h w.active.buffer.length id (by omega)

/-- Making room for a frame leaves no segment out. -/
theorem complete_makeRoom {dir : Dir} {w : WalWriter} (hnext : w.nextSegmentId = w.active.id + 1)
    (h : Complete dir w.active.id) (payload : Bytes) :
    Complete (w.makeRoom payload dir).2 (w.makeRoom payload dir).1.active.id := by
  unfold WalWriter.makeRoom
  split
  · exact complete_rotate hnext h
  · exact h

variable [Crc32c]

/-- An append, and whether the record was taken. -/
def append (d : Disk) (w : WalWriter) (payload : Bytes) : Disk × Bool :=
  match w.append payload d.dir with
  | (w', dir, .ok _) =>
      ({ d with
        writer := some w', dir := dir
        durable := if w'.active.id = w.active.id then d.durable else 0
        records := recordIn d.records w'.active.id payload }, true)
  | (w', dir, .error _) =>
      ({ d with
        writer := some w', dir := dir
        durable := if w'.active.id = w.active.id then d.durable else 0 }, false)

/-- One event of the disk and its writer. -/
def step (config : WalConfig) (d : Disk) : DiskEvent → Disk
  | .openWriter =>
      match d.writer with
      | some _ => d
      | none =>
          -- what a crash has left is on the disk
          let (w, dir) := WalWriter.openDir config d.dir
          { d with writer := some w, dir := dir, durable := w.active.writeOffset }
  | .append payload =>
      match d.writer with
      | none => d
      | some w => (d.append w payload.bytes).1
  | .spill k =>
      match d.writer with
      | none => d
      | some w =>
          let (w, dir) := w.spill k d.dir
          { d with writer := some w, dir := dir }
  | .flush =>
      match d.writer with
      | none => d
      | some w =>
          let (w, dir) := w.flush d.dir
          { d with writer := some w, dir := dir }
  | .sync =>
      match d.writer with
      | none => d
      | some w =>
          let (w, dir) := w.flush d.dir
          { d with writer := some w, dir := dir, durable := (dir.contents w.active.id).length }
  | .crash kept =>
      match d.writer with
      | none => d
      | some w =>
          let file := d.cutFile w kept
          { dir := d.dir.insert w.active.id file
            writer := none
            durable := file.length
            records := fun id =>
              if id = w.active.id then Framing.fitting frame file.length (d.records id)
              else d.records id }

/-- What a crash leaves: whole segments, and a torn frame at the end of the last. -/
structure Crashed (dir : Dir) (last : Nat) (records : Nat → List Bytes) : Prop where
  bound : ∀ (id : Nat) (file : Bytes), dir[id]? = some file → id ≤ last
  sealed : ∀ (id : Nat) (file : Bytes), id < last → dir[id]? = some file →
    file = Framing.frames frame (records id)
  torn : ∃ torn, Framing.Torn frame Recordable torn ∧
    dir[last]? = some (Framing.frames frame (records last) ++ torn)
  recordable : ∀ id, ∀ r ∈ records id, Recordable r
  unwritten : ∀ id, last < id → records id = []

/-- What the directory holds at any time. -/
inductive Inv (d : Disk) : Prop
  | unopened (hwriter : d.writer = none) (hdir : d.dir = ∅) (hrecords : ∀ id, d.records id = [])
  | opened {w : WalWriter} (hwriter : d.writer = some w) (hlayout : Layout d.dir w d.records)
      (hdurable : d.durable ≤ (d.dir.contents w.active.id).length)
  | crashed {last : Nat} (hwriter : d.writer = none) (hcrashed : Crashed d.dir last d.records)

section Steps

variable {d : Disk} (config : WalConfig) {w : WalWriter}

/-- Without a writer only opening does anything. -/
theorem step_of_closed (h : d.writer = none) {e : DiskEvent} (he : e ≠ .openWriter) :
    d.step config e = d := by
  cases e with
  | openWriter => exact absurd rfl he
  | append payload => simp only [step, h]
  | spill k => simp only [step, h]
  | flush => simp only [step, h]
  | sync => simp only [step, h]
  | crash kept => simp only [step, h]

/-- A writer that is open is not opened again. -/
theorem step_openWriter_of_some (h : d.writer = some w) : d.step config .openWriter = d := by
  simp only [step, h]

/-- Opening recovers the directory and writes behind it. -/
theorem step_openWriter (h : d.writer = none) :
    d.step config .openWriter = { d with
      writer := some (WalWriter.openDir config d.dir).1
      dir := (WalWriter.openDir config d.dir).2
      durable := (WalWriter.openDir config d.dir).1.active.writeOffset } := by
  simp only [step, h]

/-- A partial write takes the front of the buffer. -/
theorem step_spill (h : d.writer = some w) (k : Nat) :
    d.step config (.spill k) =
      { d with writer := some (w.spill k d.dir).1, dir := (w.spill k d.dir).2 } := by
  simp only [step, h]

/-- A flush is a spill of the whole buffer. -/
theorem step_flush (h : d.writer = some w) :
    d.step config .flush = d.step config (.spill w.active.buffer.length) := by
  simp only [step, h, WalWriter.flush, Segment.flush, WalWriter.spill]

/-- A sync writes the whole buffer and makes the file durable. -/
theorem step_sync (h : d.writer = some w) :
    d.step config .sync = { d.step config (.spill w.active.buffer.length) with
      durable := ((d.step config (.spill w.active.buffer.length)).dir.contents
        w.active.id).length } := by
  simp only [step, h, WalWriter.flush, Segment.flush, WalWriter.spill]
  rfl

/-- A power loss cuts the active file and drops the writer. -/
theorem step_crash (h : d.writer = some w) (kept : Nat) :
    d.step config (.crash kept) = {
      dir := d.dir.insert w.active.id (d.cutFile w kept)
      writer := none
      durable := (d.cutFile w kept).length
      records := fun id => if id = w.active.id then
        Framing.fitting frame (d.cutFile w kept).length (d.records id) else d.records id } := by
  simp only [step, h]

/-- Room is made for a record. -/
def roomMade (d : Disk) (w : WalWriter) (payload : Bytes) : Disk :=
  { d with
    writer := some (w.makeRoom payload d.dir).1, dir := (w.makeRoom payload d.dir).2
    durable := if (w.makeRoom payload d.dir).1.active.id = w.active.id then d.durable else 0 }

/-- A record goes into the buffer. -/
def buffered (d : Disk) (w : WalWriter) (payload : Bytes) : Disk :=
  { d with
    writer := some (w.buffered payload)
    records := recordIn d.records w.active.id payload }

/-- An append makes room, and then the record is buffered or too large. -/
theorem append_cases (d : Disk) (w : WalWriter) (payload : Bytes) :
    (payload.length ≤ maxRecordSize ∧ d.append w payload =
        ((d.roomMade w payload).buffered (w.makeRoom payload d.dir).1 payload, true)) ∨
      d.append w payload = (d.roomMade w payload, false) := by
  obtain ⟨hmax, happend⟩ | happend := w.append_cases payload d.dir
  · refine Or.inl ⟨hmax, ?_⟩
    simp only [append, happend]
    rfl
  · refine Or.inr ?_
    simp only [append, happend]
    rfl

/-- An append that the writer may refuse. -/
theorem step_append (h : d.writer = some w) (payload : Payload) :
    d.step config (.append payload) = (d.append w payload.bytes).1 := by
  simp only [step, h]

end Steps

/-! ## What a crash leaves and recovery makes of it -/

namespace Crashed

variable {dir : Dir} {last : Nat} {records : Nat → List Bytes}

/-- The last segment of a crashed directory is there. -/
theorem mem_keys (h : Crashed dir last records) : last ∈ dir.keys := by
  obtain ⟨torn, -, hfile⟩ := h.torn
  exact Dir.mem_keys_of_getElem? hfile

/-- The last segment of a crashed directory is the last. -/
theorem getLast?_keys (h : Crashed dir last records) : dir.keys.getLast? = some last := by
  refine Dir.getLast?_keys_of_bound h.mem_keys fun id hid => ?_
  obtain ⟨file, hfile⟩ := Dir.getElem?_of_mem_keys hid
  exact h.bound id file hfile

/-- Recovery truncates the last segment to its whole frames and resumes there. -/
theorem openDir_eq (h : Crashed dir last records) (config : WalConfig) :
    (WalWriter.openDir config dir).1 =
        ⟨config, ⟨last, (Framing.frames frame (records last)).length, []⟩, last + 1⟩ ∧
      ∀ id, (WalWriter.openDir config dir).2[id]? =
        if id = last then some (Framing.frames frame (records last)) else dir[id]? := by
  obtain ⟨torn, htorn, hfile⟩ := h.torn
  have hend := scanValidEnd_eq last (h.recordable last) htorn rfl
  rw [← Dir.contents_of_some hfile] at hend
  simp only [WalWriter.openDir, h.getLast?_keys, Segment.openAppend, hend, true_and]
  intro id
  split
  · rw [TreeMapLookup.getElem?_insert, Dir.contents_of_some hfile, List.take_left]
  · rename_i hlen
    split
    · rename_i hid
      rw [Dir.contents_of_some hfile, List.length_append] at hlen
      have hnil : torn = [] := List.eq_nil_of_length_eq_zero (by omega)
      rw [hid, hfile, hnil, List.append_nil]
    · rfl

/-- **Recovery.**  The log is laid out again, with the records that were whole. -/
theorem openDir (h : Crashed dir last records) (config : WalConfig) :
    Layout (WalWriter.openDir config dir).2 (WalWriter.openDir config dir).1 records := by
  obtain ⟨hwriter, hlookup⟩ := h.openDir_eq config
  rw [hwriter]
  refine ⟨rfl, fun id file hfile => ?_, ⟨_, by rw [hlookup, if_pos rfl]⟩,
    fun id file hfile => ?_, h.recordable, h.unwritten, rfl⟩
  · rw [hlookup] at hfile
    split at hfile
    · exact Nat.le_of_eq ‹_›
    · exact h.bound id file hfile
  · rw [hlookup] at hfile
    split at hfile
    · rename_i hid
      cases hfile
      rw [hid, WalWriter.pending, if_pos rfl, List.append_nil]
    · rename_i hid
      have hle := h.bound id file hfile
      rw [WalWriter.pending, if_neg hid, List.append_nil,
        h.sealed id file (Nat.lt_of_le_of_ne hle hid) hfile]

/-- Opening after a crash leaves no segment out. -/
theorem complete_openDir (h : Crashed dir last records) (hcomplete : Complete dir last)
    (config : WalConfig) :
    Complete (WalWriter.openDir config dir).2 (WalWriter.openDir config dir).1.active.id := by
  obtain ⟨hwriter, hlookup⟩ := h.openDir_eq config
  rw [hwriter]
  intro id hid
  rw [hlookup]
  split
  · exact ⟨_, rfl⟩
  · exact hcomplete id hid

end Crashed

/-- The active segment is the last one. -/
theorem getLast?_keys_of_layout {dir : Dir} {w : WalWriter} {records : Nat → List Bytes}
    (h : Layout dir w records) : dir.keys.getLast? = some w.active.id := by
  obtain ⟨file, hfile⟩ := h.active
  refine Dir.getLast?_keys_of_bound (Dir.mem_keys_of_getElem? hfile) fun id hid => ?_
  obtain ⟨other, hother⟩ := Dir.getElem?_of_mem_keys hid
  exact h.bound id other hother

/-- A flushed log is laid out as after a crash that has lost nothing. -/
theorem crashed_flush {dir : Dir} {w : WalWriter} {records : Nat → List Bytes}
    (h : Layout dir w records) : Crashed (w.flush dir).2 w.active.id records := by
  have hflush := h.flush
  have hbuffer : (w.flush dir).1.active.buffer = [] := List.drop_length
  obtain ⟨file, hfile⟩ : ∃ file, (w.flush dir).2[w.active.id]? = some file := hflush.active
  have hstored := hflush.stored _ _ hfile
  have hpending : (w.flush dir).1.pending w.active.id = [] :=
    (WalWriter.pending_active _).trans hbuffer
  rw [hpending, List.append_nil] at hstored
  refine ⟨hflush.bound, fun id other hid hother => hflush.sealed hid hother,
    ⟨[], Framing.torn_nil, ?_⟩, h.recordable, h.unwritten⟩
  rw [List.append_nil, hfile, hstored]

/-! ## The log -/

section Log

variable {d : Disk} {w : WalWriter}

/-- With a writer, the log is what was recorded up to the active segment. -/
theorem log_of_layout (h : Layout d.dir w d.records) :
    d.log = earlier d.records (w.active.id + 1) := by
  rw [log, lastId, getLast?_keys_of_layout h, Option.getD_some]

/-- After a crash, the log is what was recorded up to the last segment. -/
theorem log_of_crashed {last : Nat} (h : Crashed d.dir last d.records) :
    d.log = earlier d.records (last + 1) := by
  rw [log, lastId, h.getLast?_keys, Option.getD_some]

/-- A partial write records nothing. -/
theorem log_spill (h : Layout d.dir w d.records) (k : Nat) :
    log { d with writer := some (w.spill k d.dir).1, dir := (w.spill k d.dir).2 } = d.log := by
  rw [log_of_layout h]
  exact log_of_layout (w := (w.spill k d.dir).1) (h.spill k)

/-- Making room records nothing. -/
theorem log_roomMade (h : Layout d.dir w d.records) (payload : Bytes) :
    (d.roomMade w payload).log = d.log := by
  rw [log_of_layout h]
  refine (log_of_layout (h.makeRoom payload)).trans ?_
  change earlier d.records _ = _
  obtain hactive | hactive := h.makeRoom_active payload
  · rw [hactive]
  · rw [hactive, earlier_succ _ (w.active.id + 1), h.unwritten _ (Nat.lt_succ_self _),
      List.append_nil]

/-- Buffering a frame records its payload. -/
theorem log_buffered (h : Layout d.dir w d.records) {payload : Bytes} (hok : Recordable payload) :
    (d.buffered w payload).log = d.log ++ [payload] := by
  rw [log_of_layout h]
  refine (log_of_layout (h.record hok)).trans ?_
  exact earlier_recordIn d.records w.active.id payload

end Log

namespace Inv

variable {d : Disk}

/-- The empty directory satisfies the invariant. -/
theorem init : Inv .init := .unopened rfl rfl fun _ => rfl

/-- The log of an open writer. -/
theorem layout {w : WalWriter} (hwriter : d.writer = some w) (h : Inv d) :
    Layout d.dir w d.records ∧ d.durable ≤ (d.dir.contents w.active.id).length := by
  cases h with
  | unopened hnone _ _ => cases hnone.symm.trans hwriter
  | crashed hnone _ => cases hnone.symm.trans hwriter
  | opened hsome hlayout hdurable =>
      obtain rfl := Option.some.inj (hsome.symm.trans hwriter)
      exact ⟨hlayout, hdurable⟩

/-- Opening a writer keeps the invariant. -/
theorem openWriter (config : WalConfig) (h : Inv d) : Inv (d.step config .openWriter) := by
  cases h with
  | unopened hwriter hdir hrecords =>
      have hempty : d.records = fun _ => [] := funext hrecords
      have hlayout := Layout.openDir config
      rw [step_openWriter config hwriter, hdir, hempty]
      exact .opened rfl hlayout (Nat.zero_le _)
  | opened hwriter hlayout hdurable =>
      rw [step_openWriter_of_some config hwriter]
      exact .opened hwriter hlayout hdurable
  | crashed hwriter hcrashed =>
      obtain ⟨hactive, hlookup⟩ := hcrashed.openDir_eq config
      rw [step_openWriter config hwriter]
      refine .opened rfl (hcrashed.openDir config) (Nat.le_of_eq ?_)
      simp only [Dir.contents, hactive, hlookup, if_true, Option.getD_some]

/-- A partial write keeps the invariant. -/
theorem spill (config : WalConfig) (k : Nat) (h : Inv d) : Inv (d.step config (.spill k)) := by
  cases h with
  | unopened hwriter hdir hrecords =>
      rw [step_of_closed config hwriter (by simp)]
      exact .unopened hwriter hdir hrecords
  | crashed hwriter hcrashed =>
      rw [step_of_closed config hwriter (by simp)]
      exact .crashed hwriter hcrashed
  | @opened w hwriter hlayout hdurable =>
      rw [step_spill config hwriter]
      refine .opened rfl (hlayout.spill k) ?_
      change d.durable ≤ ((w.spill k d.dir).2.contents w.active.id).length
      rw [WalWriter.contents_spill, if_pos rfl, List.length_append]
      omega

/-- A sync keeps the invariant. -/
theorem sync (config : WalConfig) (h : Inv d) : Inv (d.step config .sync) := by
  cases hcase : d.writer with
  | none => rwa [step_of_closed config hcase (by simp)]
  | some w =>
      have hspill := h.spill config w.active.buffer.length
      rw [step_sync config hcase]
      rw [step_spill config hcase] at hspill ⊢
      exact .opened rfl (hspill.layout rfl).1 (Nat.le_refl _)

/-- Making room keeps the invariant. -/
theorem roomMade {w : WalWriter} (hlayout : Layout d.dir w d.records)
    (hdurable : d.durable ≤ (d.dir.contents w.active.id).length) (payload : Bytes) :
    Inv (d.roomMade w payload) := by
  unfold Disk.roomMade WalWriter.makeRoom
  split
  · have hactive : (w.rotate d.dir).1.active.id = w.active.id + 1 := hlayout.next
    refine .opened rfl hlayout.rotate ?_
    rw [if_neg (by omega)]
    exact Nat.zero_le _
  · refine .opened rfl hlayout ?_
    rwa [if_pos rfl]

/-- Buffering a frame keeps the invariant. -/
theorem buffered {w : WalWriter} (hwriter : d.writer = some w) {payload : Bytes}
    (hok : Recordable payload) (h : Inv d) : Inv (d.buffered w payload) := by
  obtain ⟨hlayout, hdurable⟩ := h.layout hwriter
  exact .opened rfl (hlayout.record hok) hdurable

/-- An append keeps the invariant. -/
theorem append {w : WalWriter} (hwriter : d.writer = some w) {payload : Bytes}
    (hne : payload ≠ []) (h : Inv d) : Inv (d.append w payload).1 := by
  obtain ⟨hlayout, hdurable⟩ := h.layout hwriter
  have hroom := roomMade hlayout hdurable payload
  obtain ⟨hmax, happend⟩ | happend := append_cases d w payload
  · rw [happend]
    exact hroom.buffered rfl ⟨hne, hmax⟩
  · rw [happend]
    exact hroom

/-- The active segment after a crash: whole frames and a torn one. -/
theorem crashed_of_layout {w : WalWriter} (hlayout : Layout d.dir w d.records) (kept : Nat) :
    Crashed (d.dir.insert w.active.id (d.cutFile w kept)) w.active.id fun id =>
      if id = w.active.id then Framing.fitting frame (d.cutFile w kept).length (d.records id)
      else d.records id := by
  obtain ⟨file, hfile⟩ := hlayout.active
  have hsub : d.cutFile w kept <+: Framing.frames frame (d.records w.active.id) := by
    refine List.IsPrefix.trans ?_ (hlayout.stored_prefix hfile)
    rw [cutFile, Dir.contents_of_some hfile]
    exact List.take_prefix _ _
  obtain ⟨torn, htorn, hcut⟩ :=
    Framing.eq_frames_append_torn (hlayout.recordable w.active.id) hsub
  refine ⟨fun id other hother => ?_, fun id other hid hother => ?_, ⟨torn, htorn, ?_⟩,
    fun id r hr => ?_, fun id hid => ?_⟩
  · rw [TreeMapLookup.getElem?_insert] at hother
    split at hother
    · exact Nat.le_of_eq ‹_›
    · exact hlayout.bound id other hother
  · rw [TreeMapLookup.getElem?_insert, if_neg (Nat.ne_of_lt hid)] at hother
    rw [if_neg (Nat.ne_of_lt hid)]
    exact hlayout.sealed hid hother
  · rw [TreeMapLookup.getElem?_insert, if_pos rfl, if_pos rfl, ← hcut]
  · split at hr
    · exact hlayout.recordable id r ((Framing.fitting_isPrefix _ _).subset hr)
    · exact hlayout.recordable id r hr
  · rw [if_neg (Nat.ne_of_gt hid)]
    exact hlayout.unwritten id hid

/-- A power loss keeps the invariant. -/
theorem crash (config : WalConfig) (kept : Nat) (h : Inv d) :
    Inv (d.step config (.crash kept)) := by
  cases h with
  | unopened hwriter hdir hrecords =>
      rw [step_of_closed config hwriter (by simp)]
      exact .unopened hwriter hdir hrecords
  | crashed hwriter hcrashed =>
      rw [step_of_closed config hwriter (by simp)]
      exact .crashed hwriter hcrashed
  | opened hwriter hlayout hdurable =>
      rw [step_crash config hwriter]
      exact .crashed rfl (crashed_of_layout hlayout kept)

/-- Pruning leaves the active segment alone. -/
theorem prune {w : WalWriter} (hwriter : d.writer = some w) (files : List (Option String))
    (h : Inv d) : Inv { d with dir := w.pruneWithBackpressure files d.dir } := by
  obtain ⟨hlayout, hdurable⟩ := h.layout hwriter
  have hpruned := w.getElem?_pruneWithBackpressure d.dir files
  refine .opened hwriter (hlayout.prune (Nat.min_le_left _ _) hpruned) ?_
  change d.durable ≤ (Dir.contents _ _).length
  rw [Dir.contents, hpruned, if_neg (by omega)]
  exact hdurable

/-- **Every step keeps the log laid out.** -/
theorem step (config : WalConfig) (e : DiskEvent) (h : Inv d) : Inv (d.step config e) := by
  cases e with
  | openWriter => exact h.openWriter config
  | append payload =>
      cases hcase : d.writer with
      | none => rwa [step_of_closed config hcase (by simp)]
      | some w =>
          rw [step_append config hcase]
          exact h.append hcase payload.ne_nil
  | spill k => exact h.spill config k
  | flush =>
      cases hcase : d.writer with
      | none => rwa [step_of_closed config hcase (by simp)]
      | some w =>
          rw [step_flush config hcase]
          exact h.spill config _
  | sync => exact h.sync config
  | crash kept => exact h.crash config kept

end Inv

end Disk

end PolyBook.Wal
