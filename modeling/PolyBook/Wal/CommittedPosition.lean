import PolyBook.Wal.PowerLoss
import PolyBook.Wal.TailDelivery

/-!
# A committed position and the loss of power

A reader commits its position to a file that is synced at once; the bytes it has
read may not be.  After a crash the position can lie past the end of the recovered
segment, and later inside a frame that was appended since.

`committed_position_usable`: as long as no crash cuts the active segment below the
committed offset, the position is a frame boundary of the recovered log, and the
reader that starts there returns everything that has been appended since, once and
in order, if it keeps up with the rotations.
-/

namespace PolyBook.Wal

/-- What `commit_position` writes. -/
def WalPosition.content (position : WalPosition) : String :=
  toString position.segmentId ++ ":" ++ toString position.offset

/-- Text without white space is trimmed already. -/
theorem trim_eq_self {text : List Char} (h : ∀ c ∈ text, isWhitespace c = false) :
    trim text = text := by
  have hkeep : ∀ l : List Char, (∀ c ∈ l, isWhitespace c = false) →
      l.dropWhile isWhitespace = l := by
    intro l hl
    cases l with
    | nil => rfl
    | cons c l => exact List.dropWhile_cons_of_neg (by simp [hl c List.mem_cons_self])
  rw [trim, hkeep text h, hkeep text.reverse fun c hc => h c (List.mem_reverse.mp hc),
    List.reverse_reverse]

/-- A digit is no white space. -/
theorem isWhitespace_of_isDigit {c : Char} (h : c.isDigit = true) : isWhitespace c = false := by
  simp only [Char.isDigit, Bool.and_eq_true, decide_eq_true_eq] at h
  have hlow : 48 ≤ c.toNat := UInt32.le_iff_toNat_le.mp h.1
  have hhigh : c.toNat ≤ 57 := UInt32.le_iff_toNat_le.mp h.2
  simp only [isWhitespace, Bool.or_eq_false_iff, Bool.and_eq_false_iff, decide_eq_false_iff_not,
    beq_eq_false_iff_ne]
  omega

/-- The text of a position file, without white space around it. -/
theorem WalPosition.trim_content (position : WalPosition) :
    trim position.content.toList =
        Nat.toDigits 10 position.segmentId ++ ':' :: Nat.toDigits 10 position.offset ∧
      ':' ∉ Nat.toDigits 10 position.segmentId := by
  have hdigit : ∀ n, ∀ c ∈ Nat.toDigits 10 n, c.isDigit = true := fun n c hc =>
    Nat.isDigit_of_mem_toDigits (by decide) (by decide) hc
  have htext : position.content.toList =
      Nat.toDigits 10 position.segmentId ++ ':' :: Nat.toDigits 10 position.offset := by
    simp [WalPosition.content]
  refine ⟨?_, fun hmem => ?_⟩
  · rw [trim_eq_self, htext]
    intro c hc
    rw [htext] at hc
    obtain hc | hc := List.mem_append.mp hc
    · exact isWhitespace_of_isDigit (hdigit _ c hc)
    · obtain rfl | hc := List.mem_cons.mp hc
      · decide
      · exact isWhitespace_of_isDigit (hdigit _ c hc)
  · have := hdigit _ _ hmem
    cases this

/-- **The position file reads back.** -/
theorem loadPosition_content {position : WalPosition} (hsegment : position.segmentId ≤ u64Max)
    (hoffset : position.offset ≤ u64Max) :
    loadPosition (some position.content) = some position := by
  obtain ⟨htrim, hcolon⟩ := position.trim_content
  simp only [loadPosition, Option.bind_eq_bind, Option.bind_some, htrim,
    splitOnce_append hcolon, parseU64_toDigits hsegment, parseU64_toDigits hoffset]
  rfl

/-- Reopening at what was committed. -/
theorem WalReader.openDir_content (consumerName : String) {position : WalPosition}
    (hsegment : position.segmentId ≤ u64Max) (hoffset : position.offset ≤ u64Max) (dir : Dir) :
    WalReader.openDir consumerName (some position.content) dir =
      WalReader.openAt consumerName position dir := by
  rw [openDir, loadPosition_content hsegment hoffset, Option.getD_some]

namespace Committed

/-- The disk, and a reader with its position file. -/
structure State where
  disk : Disk
  reader : Option WalReader
  /-- What the position file says. -/
  position : Option WalPosition
  /-- How many records the log had when its writer was last opened. -/
  recovered : Nat
  /-- How many records of the log lie before the position the reader started at. -/
  skipped : Nat
  /-- What the reader has returned since. -/
  returned : List Bytes

/-- Nothing is written and nothing committed. -/
def State.init : State := ⟨.init, none, none, 0, 0, []⟩

/-- The steps of the writer and of the reader, which is opened after the writer
has repaired the log. -/
inductive Event where
  | disk (e : DiskEvent)
  | openReader
  | poll
  | commit

section

variable [Crc32c]

/-- How many records lie before a position. -/
def recordsBefore (records : Nat → List Bytes) (position : WalPosition) : Nat :=
  (earlier records position.segmentId).length +
    (Framing.fitting frame position.offset (records position.segmentId)).length

/-- The state after a poll answered. -/
def State.answered (s : State) : Except WalError (Option Bytes) × WalReader → State
  | (.ok (some payload), r) => { s with reader := some r, returned := s.returned ++ [payload] }
  | (.ok none, r) => { s with reader := some r }
  | (.error _, r) => { s with reader := some r }

/-- One event of the disk or of the reader. -/
def step (config : WalConfig) (s : State) : Event → State
  | .disk e =>
      let disk := s.disk.step config e
      match s.disk.writer, e with
      | none, .openWriter => { s with disk := disk, recovered := disk.log.length }
      | some _, .crash _ => { s with disk := disk, reader := none, skipped := 0, returned := [] }
      | _, _ => { s with disk := disk }
  | .openReader =>
      match s.disk.writer, s.reader with
      | some _, none =>
          { s with
            reader := some (WalReader.openAt "tail"
              (s.position.getD ⟨s.disk.dir.keys.head?.getD 0, 0⟩) s.disk.dir)
            skipped := (s.position.map (recordsBefore s.disk.records)).getD 0 }
      | _, _ => s
  | .poll =>
      match s.reader with
      | none => s
      | some r => s.answered (r.next s.disk.dir)
  | .commit =>
      match s.reader with
      | none => s
      | some r => { s with position := some r.currentPosition }

/-- What `next` would answer now. -/
def State.answer (s : State) : Option (Except WalError (Option Bytes)) :=
  s.reader.map fun r => (r.next s.disk.dir).1

/-- Everything the writer took has reached the file. -/
def State.flushed (s : State) : Bool := s.disk.writer.all fun w => w.active.buffer.isEmpty

/-- A crash keeps the active segment up to the committed offset. -/
def PositionKept (s : State) : Event → Prop
  | .disk (.crash kept) => ∀ w ∈ s.disk.writer, ∀ p ∈ s.position,
      p.segmentId = w.active.id → p.offset ≤ max s.disk.durable kept
  | _ => True

/-- A cached copy of the segment that an `append` closes is whole. -/
def KeepsUp (s : State) : Event → Prop
  | .disk (.append payload) => ∀ w ∈ s.disk.writer, w.rotates payload.bytes = true →
      ∀ r ∈ s.reader, r.currentSegmentId = w.active.id →
        ∀ data ∈ r.currentData, data = s.disk.dir.contents w.active.id ++ w.active.buffer
  | _ => True

instance (s : State) : (e : Event) → Decidable (PositionKept s e)
  | .disk (.crash kept) =>
      inferInstanceAs (Decidable (∀ w ∈ s.disk.writer, ∀ p ∈ s.position,
        p.segmentId = w.active.id → p.offset ≤ max s.disk.durable kept))
  | .disk .openWriter | .disk (.append _) | .disk (.spill _) | .disk .flush | .disk .sync
  | .openReader | .poll | .commit => isTrue trivial

instance (s : State) : (e : Event) → Decidable (KeepsUp s e)
  | .disk (.append payload) =>
      inferInstanceAs (Decidable (∀ w ∈ s.disk.writer, w.rotates payload.bytes = true →
        ∀ r ∈ s.reader, r.currentSegmentId = w.active.id →
          ∀ data ∈ r.currentData, data = s.disk.dir.contents w.active.id ++ w.active.buffer))
  | .disk .openWriter | .disk (.crash _) | .disk (.spill _) | .disk .flush | .disk .sync
  | .openReader | .poll | .commit => isTrue trivial

/-- The position is in the log, after a number of whole frames of its segment that
are all in the file. -/
def AtBoundary (d : Disk) (p : WalPosition) : Prop :=
  p.segmentId ≤ d.lastId ∧ p.offset ≤ (d.dir.contents p.segmentId).length ∧
    ∃ done, done <+: d.records p.segmentId ∧ p.offset = (Framing.frames frame done).length

/-! ## Positions -/

namespace AtBoundary

variable {d : Disk} {p : WalPosition}

/-- The records before a position, if it lies at the end of a frame. -/
theorem recordsBefore_eq {records : Nat → List Bytes} {done : List Bytes}
    (hdone : done <+: records p.segmentId)
    (hoffset : p.offset = (Framing.frames frame done).length) :
    recordsBefore records p = (earlier records p.segmentId ++ done).length := by
  obtain ⟨rest, hrest⟩ := hdone
  have hfit : Framing.fitting frame (Framing.frames frame done).length (done ++ rest) = done := by
    rw [Framing.fitting_append_of_le frame_ne_nil (Nat.le_refl _), Framing.fitting_frames]
  rw [recordsBefore, hoffset, ← hrest, hfit, List.length_append]

/-- Files that grow and records that are added leave a boundary. -/
theorem grow {d' : Disk} (h : AtBoundary d p) (hlast : d.lastId ≤ d'.lastId)
    (hrecords : d.records p.segmentId <+: d'.records p.segmentId)
    (hfile : (d.dir.contents p.segmentId).length ≤ (d'.dir.contents p.segmentId).length) :
    AtBoundary d' p := by
  obtain ⟨hle, hinside, done, hdone, hoffset⟩ := h
  exact ⟨by omega, by omega, done, hdone.trans hrecords, hoffset⟩

/-- A partial write leaves a position at a boundary. -/
theorem spill {w : WalWriter} (hlayout : Layout d.dir w d.records) (k : Nat)
    (h : AtBoundary d p) :
    AtBoundary { d with writer := some (w.spill k d.dir).1, dir := (w.spill k d.dir).2 } p := by
  refine h.grow ?_ List.prefix_rfl ?_
  · rw [Disk.lastId, Disk.lastId, Disk.getLast?_keys_of_layout hlayout,
      Disk.getLast?_keys_of_layout (hlayout.spill k)]
    exact Nat.le_refl _
  · change _ ≤ ((w.spill k d.dir).2.contents p.segmentId).length
    rw [WalWriter.contents_spill]
    split
    · rw [List.length_append]
      omega
    · exact Nat.le_refl _

/-- Making room leaves a position at a boundary. -/
theorem roomMade {w : WalWriter} (hlayout : Layout d.dir w d.records) (payload : Bytes)
    (h : AtBoundary d p) : AtBoundary (d.roomMade w payload) p := by
  have hlast : d.lastId = w.active.id := by
    rw [Disk.lastId, Disk.getLast?_keys_of_layout hlayout]
    rfl
  have hle : p.segmentId ≤ w.active.id := hlast ▸ h.1
  refine h.grow ?_ List.prefix_rfl ?_
  · have hroom := Disk.getLast?_keys_of_layout (hlayout.makeRoom payload)
    have := hlayout.makeRoom_active payload
    have hlast' : (d.roomMade w payload).lastId = (w.makeRoom payload d.dir).1.active.id := by
      rw [Disk.lastId, Disk.roomMade, hroom]
      rfl
    omega
  · obtain ⟨more, hmore⟩ := hlayout.makeRoom_grows payload p.segmentId hle
    change _ ≤ ((w.makeRoom payload d.dir).2.contents p.segmentId).length
    rw [Dir.contents, Dir.contents, hmore]
    cases d.dir[p.segmentId]? with
    | none => exact Nat.le_refl _
    | some file =>
        simp only [Option.map_some, Option.getD_some, List.length_append]
        omega

/-- Buffering a frame leaves a position at a boundary. -/
theorem buffered (w : WalWriter) (payload : Bytes) (h : AtBoundary d p) :
    AtBoundary (d.buffered w payload) p :=
  h.grow (Nat.le_refl _) (isPrefix_recordIn _ _ _ _) (Nat.le_refl _)

/-- A power loss leaves a position at a boundary, if its bytes are kept. -/
theorem crash {w : WalWriter} (hlayout : Layout d.dir w d.records) (config : WalConfig)
    (hwriter : d.writer = some w) (kept : Nat) (h : AtBoundary d p)
    (hkept : p.segmentId = w.active.id → p.offset ≤ max d.durable kept) :
    AtBoundary (d.step config (.crash kept)) p := by
  have hcrashed := Disk.Inv.crashed_of_layout hlayout kept
  have hlast : d.lastId = w.active.id := by
    rw [Disk.lastId, Disk.getLast?_keys_of_layout hlayout]
    rfl
  obtain ⟨hle, hinside, done, hdone, hoffset⟩ := h
  rw [Disk.step_crash config hwriter]
  refine ⟨?_, ?_, done, ?_, hoffset⟩
  · rw [Disk.lastId, hcrashed.getLast?_keys]
    exact hlast ▸ hle
  all_goals
    by_cases hid : p.segmentId = w.active.id
  · rw [Dir.contents, TreeMapLookup.getElem?_insert, if_pos hid, Option.getD_some, Disk.cutFile,
      List.length_take]
    rw [hid] at hinside
    exact Nat.le_min.mpr ⟨hkept hid, hinside⟩
  · rwa [Dir.contents, TreeMapLookup.getElem?_insert, if_neg hid]
  · dsimp only
    rw [if_pos hid]
    refine Framing.prefix_fitting hdone ?_
    rw [← hoffset, Disk.cutFile, List.length_take]
    rw [hid] at hinside
    exact Nat.le_min.mpr ⟨hkept hid, hinside⟩
  · dsimp only
    rwa [if_neg hid]

/-- Opening a writer leaves a position at a boundary. -/
theorem openWriter {last : Nat} (hcrashed : Disk.Crashed d.dir last d.records)
    (config : WalConfig) (hwriter : d.writer = none) (h : AtBoundary d p) :
    AtBoundary (d.step config .openWriter) p := by
  have hlayout := hcrashed.openDir config
  obtain ⟨hactive, hlookup⟩ := hcrashed.openDir_eq config
  obtain ⟨hle, hinside, done, hdone, hoffset⟩ := h
  rw [Disk.lastId, hcrashed.getLast?_keys, Option.getD_some] at hle
  rw [Disk.step_openWriter config hwriter]
  refine ⟨?_, ?_, done, hdone, hoffset⟩
  · rw [Disk.lastId, Disk.getLast?_keys_of_layout hlayout, hactive]
    exact hle
  · rw [Dir.contents, hlookup]
    split
    · rename_i hid
      obtain ⟨rest, hrest⟩ := hdone
      rw [Option.getD_some, hoffset, ← hid, ← hrest, Framing.frames_append, List.length_append]
      omega
    · exact hinside

/-- A boundary of the log lies after no more records than the log has. -/
theorem recordsBefore_le {w : WalWriter} (hlayout : Layout d.dir w d.records)
    (h : AtBoundary d p) : recordsBefore d.records p ≤ d.log.length := by
  obtain ⟨hle, -, done, hdone, hoffset⟩ := h
  rw [Disk.lastId, Disk.getLast?_keys_of_layout hlayout, Option.getD_some] at hle
  rw [recordsBefore_eq hdone hoffset, Disk.log_of_layout hlayout]
  exact (earlier_append_isPrefix hdone hle).length_le

/-- Records that are appended come after a boundary. -/
theorem recordsBefore_buffered {w : WalWriter} (hlayout : Layout d.dir w d.records)
    (payload : Bytes) (h : AtBoundary d p) :
    recordsBefore (d.buffered w payload).records p = recordsBefore d.records p := by
  obtain ⟨hle, -, done, hdone, hoffset⟩ := h
  rw [Disk.lastId, Disk.getLast?_keys_of_layout hlayout, Option.getD_some] at hle
  have hdone' : done <+: recordIn d.records w.active.id payload p.segmentId :=
    hdone.trans (isPrefix_recordIn _ _ _ _)
  rw [recordsBefore_eq hdone hoffset]
  refine (recordsBefore_eq hdone' hoffset).trans ?_
  rw [earlier_recordIn_of_le d.records hle]

end AtBoundary

/-! ## The reader -/

/-- What holds in every state. -/
inductive Inv (s : State) : Prop
  | closed (hwriter : s.disk.writer = none) (hdisk : s.disk.Inv)
      (hcomplete : ∀ last ∈ s.disk.dir.keys.getLast?, Disk.Complete s.disk.dir last)
      (hposition : ∀ p ∈ s.position, AtBoundary s.disk p) (hreader : s.reader = none)
      (hreturned : s.returned = []) (hskipped : s.skipped = 0)
  | opened {w : WalWriter} (hwriter : s.disk.writer = some w)
      (hlayout : Layout s.disk.dir w s.disk.records)
      (hcomplete : Disk.Complete s.disk.dir w.active.id)
      (hdurable : s.disk.durable ≤ (s.disk.dir.contents w.active.id).length)
      (hposition : ∀ p ∈ s.position, AtBoundary s.disk p)
      (hrecovered : s.recovered ≤ s.disk.log.length)
      (hskipped : s.skipped ≤ s.recovered)
      (hunread : s.reader = none → s.returned = [] ∧
        ∀ p ∈ s.position, recordsBefore s.disk.records p ≤ s.recovered)
      (hreader : ∀ r ∈ s.reader, Tail.Follows s.disk.dir w s.disk.records
        (s.disk.log.take s.skipped ++ s.returned) r)

namespace Inv

variable {s : State}

/-- The empty directory satisfies the invariant. -/
theorem init : Inv .init :=
  .closed rfl .init (fun _ hlast => nomatch hlast) (fun _ hp => nomatch hp) rfl rfl rfl

/-- The invariant with the disk changed by the writer. -/
theorem of_disk {disk : Disk} {w' : WalWriter} (hwriter' : disk.writer = some w')
    (hdisk : disk.Inv) (hcomplete : Disk.Complete disk.dir w'.active.id)
    (hposition : ∀ p ∈ s.position, AtBoundary disk p)
    (hrecovered : s.recovered ≤ disk.log.length) (hskipped : s.skipped ≤ s.recovered)
    (hunread : s.reader = none → s.returned = [] ∧
      ∀ p ∈ s.position, recordsBefore disk.records p ≤ s.recovered)
    (hreader : ∀ r ∈ s.reader, Tail.Follows disk.dir w' disk.records
      (disk.log.take s.skipped ++ s.returned) r) : Inv { s with disk := disk } := by
  cases hdisk with
  | unopened hwriter _ _ =>
      rw [hwriter'] at hwriter
      cases hwriter
  | crashed hwriter _ =>
      rw [hwriter'] at hwriter
      cases hwriter
  | opened hwriter hlayout hdurable =>
      rw [hwriter'] at hwriter
      cases hwriter
      exact .opened hwriter' hlayout hcomplete hdurable hposition hrecovered hskipped hunread
        hreader

/-- Opening a writer keeps the invariant. -/
theorem openWriter (config : WalConfig) (h : Inv s) :
    Inv (step config s (.disk .openWriter)) := by
  cases h with
  | @opened w hwriter hlayout hcomplete hdurable hposition hrecovered hskipped hunread hreader =>
      have hstep : step config s (.disk .openWriter) = { s with disk := s.disk } := by
        simp only [step, hwriter, Disk.step_openWriter_of_some config hwriter]
      rw [hstep]
      exact .opened hwriter hlayout hcomplete hdurable hposition hrecovered hskipped hunread
        hreader
  | closed hwriter hdisk hcomplete hposition hreader hreturned hskipped =>
      have hstep : step config s (.disk .openWriter) = { s with
          disk := s.disk.step config .openWriter
          recovered := (s.disk.step config .openWriter).log.length } := by
        simp only [step, hwriter]
      have hposition' : ∀ p ∈ s.position, AtBoundary (s.disk.step config .openWriter) p := by
        intro p hp
        cases hdisk with
        | unopened _ hdir hrecords =>
            -- only the beginning of an empty log is a boundary
            obtain ⟨hle, hinside, -⟩ := hposition p hp
            rw [Disk.step_openWriter config hwriter, hdir]
            simp only [Disk.lastId, Dir.contents, hdir] at hle hinside
            have hzero : p.offset = 0 := by simpa using hinside
            refine ⟨?_, by omega, [], List.nil_prefix, hzero⟩
            have hid : p.segmentId = 0 := Nat.le_zero.mp hle
            omega
        | opened hwriter' _ _ =>
            rw [hwriter] at hwriter'
            cases hwriter'
        | crashed _ hcrashed => exact (hposition p hp).openWriter hcrashed config hwriter
      have hdisk' := hdisk.openWriter config
      have hcomplete' : Disk.Complete (s.disk.step config .openWriter).dir
          (WalWriter.openDir config s.disk.dir).1.active.id := by
        rw [Disk.step_openWriter config hwriter]
        cases hdisk with
        | unopened _ hdir _ =>
            rw [hdir]
            intro id hid
            obtain rfl : id = 0 := Nat.le_zero.mp hid
            exact (Layout.openDir config).active
        | opened hwriter' _ _ =>
            rw [hwriter] at hwriter'
            cases hwriter'
        | crashed _ hcrashed =>
            exact hcrashed.complete_openDir (hcomplete _ hcrashed.getLast?_keys) config
      rw [hstep]
      refine of_disk (s := { s with recovered := (s.disk.step config .openWriter).log.length })
        (by rw [Disk.step_openWriter config hwriter]) hdisk' hcomplete' hposition' (Nat.le_refl _)
        (by rw [hskipped]; exact Nat.zero_le _) (fun _ => ⟨hreturned, fun p hp => ?_⟩)
        (fun r hr => ?_)
      · cases hdisk' with
        | unopened hnone _ _ => simp [Disk.step_openWriter config hwriter] at hnone
        | crashed hnone _ => simp [Disk.step_openWriter config hwriter] at hnone
        | opened _ hlayout _ => exact (hposition' p hp).recordsBefore_le hlayout
      · cases hreader.symm.trans hr

/-- A partial write keeps the invariant. -/
theorem spill (config : WalConfig) (k : Nat) (h : Inv s) :
    Inv (step config s (.disk (.spill k))) := by
  cases h with
  | closed hwriter hdisk hcomplete hposition hreader hreturned hskipped =>
      have hstep : step config s (.disk (.spill k)) = { s with disk := s.disk } := by
        simp only [step, hwriter, Disk.step_of_closed config hwriter, ne_eq, reduceCtorEq,
          not_false_eq_true]
      rw [hstep]
      exact .closed hwriter hdisk hcomplete hposition hreader hreturned hskipped
  | @opened w hwriter hlayout hcomplete hdurable hposition hrecovered hskipped hunread hreader =>
      have hstep : step config s (.disk (.spill k)) =
          { s with disk := s.disk.step config (.spill k) } := by
        simp only [step, hwriter]
      have hdisk : s.disk.Inv := .opened hwriter hlayout hdurable
      have hlog := Disk.log_spill hlayout k
      rw [hstep]
      have hdisk' := hdisk.spill config k
      rw [Disk.step_spill config hwriter] at hdisk' ⊢
      refine of_disk rfl hdisk' (Disk.complete_spill hcomplete k)
        (fun p hp => (hposition p hp).spill hlayout k) ?_ hskipped hunread (fun r hr => ?_)
      · rwa [hlog]
      · rw [hlog]
        exact (hreader r hr).spill k

/-- A step that leaves a closed log alone. -/
theorem step_of_closed (config : WalConfig) (hwriter : s.disk.writer = none) {e : DiskEvent}
    (he : e ≠ .openWriter) : Committed.step config s (.disk e) = s := by
  have hdisk := Disk.step_of_closed config hwriter he
  cases e with
  | openWriter => exact absurd rfl he
  | append payload => simp only [Committed.step, hwriter, hdisk]
  | spill k => simp only [Committed.step, hwriter, hdisk]
  | flush => simp only [Committed.step, hwriter, hdisk]
  | sync => simp only [Committed.step, hwriter, hdisk]
  | crash kept => simp only [Committed.step, hwriter, hdisk]

/-- A flush keeps the invariant. -/
theorem flush (config : WalConfig) (h : Inv s) : Inv (Committed.step config s (.disk .flush)) := by
  cases hwriter : s.disk.writer with
  | none => rwa [step_of_closed config hwriter (by simp)]
  | some w =>
      have hspill := h.spill config w.active.buffer.length
      simpa only [Committed.step, hwriter, Disk.step_flush config hwriter] using hspill

/-- A sync keeps the invariant. -/
theorem sync (config : WalConfig) (h : Inv s) : Inv (Committed.step config s (.disk .sync)) := by
  cases hwriter : s.disk.writer with
  | none => rwa [step_of_closed config hwriter (by simp)]
  | some w =>
      have hspill := h.spill config w.active.buffer.length
      simp only [Committed.step, hwriter, Disk.step_sync config hwriter,
        Disk.step_spill config hwriter] at hspill ⊢
      cases hspill with
      | closed hnone _ _ _ _ _ _ => cases hnone
      | opened hwriter' hlayout hcomplete _ hposition hrecovered hskipped hunread hreader =>
          cases hwriter'
          exact .opened rfl hlayout hcomplete (Nat.le_refl _) hposition hrecovered hskipped
            hunread hreader

/-- Making room keeps the invariant if the reader keeps up. -/
theorem roomMade {w : WalWriter} (hlayout : Layout s.disk.dir w s.disk.records)
    (hcomplete : Disk.Complete s.disk.dir w.active.id)
    (hdurable : s.disk.durable ≤ (s.disk.dir.contents w.active.id).length)
    (hposition : ∀ p ∈ s.position, AtBoundary s.disk p)
    (hrecovered : s.recovered ≤ s.disk.log.length) (hskipped : s.skipped ≤ s.recovered)
    (hunread : s.reader = none → s.returned = [] ∧
      ∀ p ∈ s.position, recordsBefore s.disk.records p ≤ s.recovered)
    (hreader : ∀ r ∈ s.reader, Tail.Follows s.disk.dir w s.disk.records
      (s.disk.log.take s.skipped ++ s.returned) r) {payload : Bytes}
    (hkeeps : w.rotates payload = true → ∀ r ∈ s.reader, r.currentSegmentId = w.active.id →
      ∀ data ∈ r.currentData, data = s.disk.dir.contents w.active.id ++ w.active.buffer) :
    Inv { s with disk := s.disk.roomMade w payload } := by
  have hlog := Disk.log_roomMade hlayout payload
  refine of_disk rfl (Disk.Inv.roomMade hlayout hdurable payload)
    (Disk.complete_makeRoom hlayout.next hcomplete payload)
    (fun p hp => (hposition p hp).roomMade hlayout payload) ?_ hskipped hunread fun r hr => ?_
  · rwa [hlog]
  · rw [hlog]
    change Tail.Follows (w.makeRoom payload s.disk.dir).2 (w.makeRoom payload s.disk.dir).1
      s.disk.records _ r
    unfold WalWriter.makeRoom
    split
    · rename_i hrotates
      exact (hreader r hr).rotate hlayout (hkeeps hrotates r hr)
    · exact hreader r hr

/-- Buffering a frame keeps the invariant. -/
theorem buffered {w : WalWriter} (hwriter : s.disk.writer = some w) {payload : Bytes}
    (hok : Recordable payload) (h : Inv s) :
    Inv { s with disk := s.disk.buffered w payload } := by
  cases h with
  | closed hnone _ _ _ _ _ _ =>
      rw [hwriter] at hnone
      cases hnone
  | opened hwriter' hlayout hcomplete hdurable hposition hrecovered hskipped hunread hreader =>
      rw [hwriter] at hwriter'
      cases hwriter'
      have hlog := Disk.log_buffered hlayout hok
      have hdisk : s.disk.Inv := .opened hwriter hlayout hdurable
      refine of_disk rfl (hdisk.buffered hwriter hok) hcomplete
        (fun p hp => (hposition p hp).buffered w payload) ?_ hskipped
        (fun hnone => ⟨(hunread hnone).1, fun p hp => ?_⟩) fun r hr => ?_
      · rw [hlog, List.length_append]
        omega
      · rw [(hposition p hp).recordsBefore_buffered hlayout]
        exact (hunread hnone).2 p hp
      · rw [hlog, List.take_append_of_le_length (Nat.le_trans hskipped hrecovered)]
        exact (hreader r hr).record hlayout payload

/-- An append keeps the invariant, if the reader keeps up. -/
theorem append (config : WalConfig) (payload : Payload) (h : Inv s)
    (hkeeps : KeepsUp s (.disk (.append payload))) :
    Inv (Committed.step config s (.disk (.append payload))) := by
  cases h with
  | closed hwriter hdisk hcomplete hposition hreader hreturned hskipped =>
      rw [step_of_closed config hwriter (by simp)]
      exact .closed hwriter hdisk hcomplete hposition hreader hreturned hskipped
  | @opened w hwriter hlayout hcomplete hdurable hposition hrecovered hskipped hunread hreader =>
      have hstep : Committed.step config s (.disk (.append payload)) =
          { s with disk := (s.disk.append w payload.bytes).1 } := by
        simp only [Committed.step, hwriter, Disk.step_append config hwriter]
      have hroom := roomMade hlayout hcomplete hdurable hposition hrecovered hskipped hunread
        hreader (hkeeps _ hwriter)
      rw [hstep]
      obtain ⟨hmax, happend⟩ | happend := Disk.append_cases s.disk w payload.bytes
      · rw [happend]
        exact hroom.buffered rfl ⟨payload.ne_nil, hmax⟩
      · rw [happend]
        exact hroom

/-- A power loss keeps the invariant, if the position is kept. -/
theorem crash (config : WalConfig) (kept : Nat) (h : Inv s)
    (hkept : PositionKept s (.disk (.crash kept))) :
    Inv (Committed.step config s (.disk (.crash kept))) := by
  cases h with
  | closed hwriter hdisk hcomplete hposition hreader hreturned hskipped =>
      rw [step_of_closed config hwriter (by simp)]
      exact .closed hwriter hdisk hcomplete hposition hreader hreturned hskipped
  | @opened w hwriter hlayout hcomplete hdurable hposition hrecovered hskipped hunread hreader =>
      have hdisk : s.disk.Inv := .opened hwriter hlayout hdurable
      simp only [Committed.step, hwriter]
      refine .closed (by rw [Disk.step_crash config hwriter]) (hdisk.crash config kept) ?_
        (fun p hp => (hposition p hp).crash hlayout config hwriter kept
          (hkept w hwriter p hp)) rfl rfl rfl
      rw [Disk.step_crash config hwriter]
      intro last hlast
      have hcrashed := Disk.Inv.crashed_of_layout hlayout kept
      obtain rfl := Option.some.inj (hcrashed.getLast?_keys.symm.trans hlast)
      exact Disk.complete_insert hcomplete _

/-- A reader that starts at a boundary of the log. -/
theorem follows_openAt {d : Disk} {w : WalWriter} {p : WalPosition}
    (hlayout : Layout d.dir w d.records) (hcomplete : Disk.Complete d.dir w.active.id)
    (h : AtBoundary d p) :
    Tail.Follows d.dir w d.records (d.log.take (recordsBefore d.records p))
      (WalReader.openAt "tail" p d.dir) := by
  obtain ⟨hle, hinside, done, hdone, hoffset⟩ := h
  rw [Disk.lastId, Disk.getLast?_keys_of_layout hlayout, Option.getD_some] at hle
  obtain ⟨file, hfile⟩ := hcomplete _ hle
  have hcontents := Dir.contents_of_some hfile
  rw [hcontents, hoffset] at hinside
  obtain ⟨rest, hrest⟩ := Framing.prefix_fitting hdone hinside
  have hlog := earlier_append_isPrefix hdone hle
  rw [WalReader.openAt_of_some "tail" p hfile, AtBoundary.recordsBefore_eq hdone hoffset,
    Disk.log_of_layout hlayout]
  refine .reading done rest rfl hle ?_ (fun _ => hcontents.symm) hrest.symm hoffset ?_
  · rw [hcontents]
  · exact List.prefix_iff_eq_take.mp hlog |>.symm

/-- Opening the reader keeps the invariant. -/
theorem openReader (config : WalConfig) (h : Inv s) :
    Inv (Committed.step config s .openReader) := by
  cases h with
  | closed hwriter hdisk hcomplete hposition hreader hreturned hskipped =>
      have hstep : Committed.step config s .openReader = s := by
        simp only [Committed.step, hwriter]
      rw [hstep]
      exact .closed hwriter hdisk hcomplete hposition hreader hreturned hskipped
  | @opened w hwriter hlayout hcomplete hdurable hposition hrecovered hskipped hunread hreader =>
      cases hcase : s.reader with
      | some r =>
          have hstep : Committed.step config s .openReader = s := by
            simp only [Committed.step, hwriter, hcase]
          rw [hstep]
          exact .opened hwriter hlayout hcomplete hdurable hposition hrecovered hskipped hunread
            hreader
      | none =>
          obtain ⟨hreturned, hbefore⟩ := hunread hcase
          simp only [Committed.step, hwriter, hcase]
          cases hpos : s.position with
          | some p =>
              refine .opened hwriter hlayout hcomplete hdurable
                (fun q hq => hposition q (hpos ▸ hq)) hrecovered ?_
                (fun hnone => nomatch hnone) fun r hr => ?_
              · exact hbefore p hpos
              · obtain rfl := Option.some.inj hr
                change Tail.Follows _ _ _ (_ ++ s.returned) _
                rw [hreturned, List.append_nil]
                exact follows_openAt hlayout hcomplete (hposition p hpos)
          | none =>
              refine .opened hwriter hlayout hcomplete hdurable
                (fun q hq => hposition q (hpos ▸ hq)) hrecovered
                (Nat.zero_le _) (fun hnone => nomatch hnone) fun r hr => ?_
              obtain rfl := Option.some.inj hr
              obtain ⟨file, hfile⟩ := hcomplete 0 (Nat.zero_le _)
              have hfirst := WalReader.openDir_of_zero "tail" hfile
              have hopen : WalReader.openAt "tail" ⟨s.disk.dir.keys.head?.getD 0, 0⟩ s.disk.dir =
                  ⟨"tail", 0, 0, some file, s.disk.dir.keys⟩ := hfirst
              change Tail.Follows _ _ _ (_ ++ s.returned) _
              rw [hreturned]
              refine .start (Nat.zero_le _) hfile ?_ ?_ ?_ rfl
              · exact congrArg WalReader.currentData hopen
              · exact congrArg WalReader.currentSegmentId hopen
              · exact congrArg WalReader.currentOffset hopen

/-- Where a reader stands is a boundary of the log. -/
theorem atBoundary_of_follows {d : Disk} {w : WalWriter} {returned : List Bytes} {r : WalReader}
    (hlayout : Layout d.dir w d.records) (h : Tail.Follows d.dir w d.records returned r) :
    AtBoundary d r.currentPosition := by
  have hlast : d.lastId = w.active.id := by
    rw [Disk.lastId, Disk.getLast?_keys_of_layout hlayout]
    rfl
  cases h with
  | waiting hdata hid hoffset hreturned =>
      refine ⟨?_, ?_, [], List.nil_prefix, hoffset⟩
      · change r.currentSegmentId ≤ _
        omega
      · change r.currentOffset ≤ _
        omega
  | @reading data done rest hdata hid hcached hwhole hfit hoffset hreturned =>
      have hdone : done <+: Framing.fitting frame data.length (d.records r.currentSegmentId) :=
        hfit ▸ List.prefix_append done rest
      refine ⟨hlast ▸ hid, ?_, done, hdone.trans (Framing.fitting_isPrefix _ _), hoffset⟩
      change r.currentOffset ≤ (d.dir.contents r.currentSegmentId).length
      rw [hoffset]
      refine Nat.le_trans (Framing.frames_prefix hdone).length_le ?_
      exact Nat.le_trans (Framing.length_frames_fitting_le _ _) hcached.length_le

/-- A commit keeps the invariant. -/
theorem commit (config : WalConfig) (h : Inv s) : Inv (Committed.step config s .commit) := by
  cases hcase : s.reader with
  | none =>
      have hstep : Committed.step config s .commit = s := by
        simp only [Committed.step, hcase]
      rwa [hstep]
  | some r =>
      have hstep : Committed.step config s .commit =
          { s with position := some r.currentPosition } := by
        simp only [Committed.step, hcase]
      rw [hstep]
      cases h with
      | closed _ _ _ _ hreader _ _ => cases hreader.symm.trans hcase
      | opened hwriter hlayout hcomplete hdurable hposition hrecovered hskipped hunread hreader =>
          refine .opened hwriter hlayout hcomplete hdurable (fun p hp => ?_) hrecovered hskipped
            (fun hnone => ?_) hreader
          · obtain rfl := Option.some.inj hp
            exact atBoundary_of_follows hlayout (hreader r hcase)
          · cases hnone.symm.trans hcase

/-- What `next` answers in a state of a run. -/
theorem next (h : Inv s) {r : WalReader} (hr : s.reader = some r) :
    Inv (s.answered (r.next s.disk.dir)) ∧
      ((∃ payload, (r.next s.disk.dir).1 = .ok (some payload)) ∨
        (r.next s.disk.dir).1 = .ok none ∧
          (s.flushed = true → s.returned = s.disk.log.drop s.skipped)) := by
  cases h with
  | closed _ _ _ _ hreader _ _ => cases hreader.symm.trans hr
  | @opened w hwriter hlayout hcomplete hdurable hposition hrecovered hskipped hunread hreader =>
      have hnext := (hreader r hr).next hlayout hcomplete
      generalize r.next s.disk.dir = answer at hnext ⊢
      obtain ⟨result, r'⟩ := answer
      cases result with
      | error e => exact hnext.elim
      | ok answer =>
          cases answer with
          | some payload =>
              refine ⟨.opened hwriter hlayout hcomplete hdurable hposition hrecovered hskipped
                (fun hnone => nomatch hnone) fun r'' hr'' => ?_, Or.inl ⟨payload, rfl⟩⟩
              obtain rfl := Option.some.inj hr''
              change Tail.Follows _ _ _ (_ ++ (s.returned ++ [payload])) _
              rw [← List.append_assoc]
              exact hnext
          | none =>
              obtain ⟨hfollows, hcaught⟩ := hnext
              refine ⟨.opened hwriter hlayout hcomplete hdurable hposition hrecovered hskipped
                (fun hnone => nomatch hnone) fun r'' hr'' => ?_, Or.inr ⟨rfl, fun hflushed => ?_⟩⟩
              · obtain rfl := Option.some.inj hr''
                exact hfollows
              · have hall := hcaught (by simpa [State.flushed, hwriter] using hflushed)
                rw [← Disk.log_of_layout hlayout] at hall
                conv_rhs at hall => rw [← List.take_append_drop s.skipped s.disk.log]
                exact List.append_cancel_left hall

/-- Polling keeps the invariant. -/
theorem poll (config : WalConfig) (h : Inv s) : Inv (Committed.step config s .poll) := by
  cases hcase : s.reader with
  | none =>
      have hstep : Committed.step config s .poll = s := by
        simp only [Committed.step, hcase]
      rwa [hstep]
  | some r =>
      have hstep : Committed.step config s .poll = s.answered (r.next s.disk.dir) := by
        simp only [Committed.step, hcase]
      rw [hstep]
      exact (h.next hcase).1

/-- Every event that meets the two conditions keeps the invariant. -/
theorem step (config : WalConfig) (e : Event) (h : Inv s) (hkept : PositionKept s e)
    (hkeeps : KeepsUp s e) : Inv (Committed.step config s e) := by
  cases e with
  | disk e =>
      cases e with
      | openWriter => exact h.openWriter config
      | append payload => exact h.append config payload hkeeps
      | spill k => exact h.spill config k
      | flush => exact h.flush config
      | sync => exact h.sync config
      | crash kept => exact h.crash config kept hkept
  | openReader => exact h.openReader config
  | poll => exact h.poll config
  | commit => exact h.commit config

/-- The invariant holds in every run whose steps meet the two conditions. -/
theorem run (config : WalConfig) {events : List Event}
    (hkept : Runs.Meets (Committed.step config) PositionKept .init events)
    (hkeeps : Runs.Meets (Committed.step config) KeepsUp .init events) :
    Inv (Runs.run (Committed.step config) .init events) :=
  Runs.Meets.induction (fun _ e h hok => h.step config e hok.1 hok.2) init (hkept.and hkeeps)

/-- What was returned is what the log has next. -/
theorem returned_isPrefix (h : Inv s) (hreader : s.reader.isSome = true) :
    s.skipped ≤ s.recovered ∧ s.returned <+: s.disk.log.drop s.skipped := by
  obtain ⟨r, hr⟩ := Option.isSome_iff_exists.mp hreader
  cases h with
  | closed _ _ _ _ hnone _ _ => cases hnone.symm.trans hr
  | opened hwriter hlayout _ _ _ hrecovered hskipped _ hfollows =>
      refine ⟨hskipped, ?_⟩
      have hsub := (hfollows r hr).returned_isPrefix
      rw [← Disk.log_of_layout hlayout] at hsub
      refine (List.prefix_append_right_inj (s.disk.log.take s.skipped)).mp ?_
      rwa [List.take_append_drop]

end Inv

/-- What a poll does. -/
theorem step_poll (config : WalConfig) {s : State} {r : WalReader} (h : s.reader = some r) :
    step config s .poll = s.answered (r.next s.disk.dir) := by
  simp only [step, h]

/-- Polls take the rest, one record each, and then find nothing. -/
theorem drain (config : WalConfig) (n : Nat) {s : State} (h : Inv s)
    (hflushed : s.flushed = true) {r : WalReader} (hr : s.reader = some r)
    (hn : (s.disk.log.drop s.skipped).length = s.returned.length + n) :
    (Runs.run (step config) s (List.replicate n .poll)).returned = s.disk.log.drop s.skipped ∧
      (Runs.run (step config) s (List.replicate n .poll)).answer = some (.ok none) := by
  induction n generalizing s r with
  | zero =>
      obtain ⟨-, hsub⟩ := h.returned_isPrefix (by rw [hr]; rfl)
      have hall : s.returned = s.disk.log.drop s.skipped := hsub.eq_of_length (by omega)
      refine ⟨hall, ?_⟩
      obtain ⟨hinv, ⟨payload, hpayload⟩ | ⟨hnone, -⟩⟩ := h.next hr
      · -- one more record would not be a prefix of what is left
        generalize r.next s.disk.dir = answer at hpayload hinv
        obtain ⟨result, r'⟩ := answer
        cases hpayload
        have hmore := (hinv.returned_isPrefix rfl).2.length_le
        simp only [State.answered, List.length_append, List.length_singleton] at hmore
        omega
      · change s.reader.map _ = _
        rw [hr]
        exact congrArg some hnone
  | succ n ih =>
      obtain ⟨hinv, hanswer⟩ := h.next hr
      rw [List.replicate_succ]
      change (Runs.run (step config) (step config s .poll) (List.replicate n .poll)).returned =
          _ ∧ (Runs.run (step config) (step config s .poll) (List.replicate n .poll)).answer = _
      rw [step_poll config hr]
      obtain ⟨payload, hpayload⟩ | ⟨-, hcaught⟩ := hanswer
      · generalize r.next s.disk.dir = answer at hpayload hinv
        obtain ⟨result, r'⟩ := answer
        cases hpayload
        refine ih hinv hflushed rfl ?_
        simp only [State.answered, List.length_append, List.length_singleton]
        omega
      · have := congrArg List.length (hcaught hflushed)
        omega

/-- **A committed position stays usable** in a run in which no crash cuts the active
segment below it.  It is a frame boundary of the recovered log.  The reader that
starts there has not skipped a record appended after the recovery; if it keeps up
with the rotations, what it has returned is a prefix of the log from there on; and
once everything is flushed, as many polls as there are records left take them all. -/
theorem committed_position_usable (config : WalConfig) (events : List Event)
    (hkept : Runs.Meets (step config) PositionKept .init events)
    (hkeeps : Runs.Meets (step config) KeepsUp .init events) :
    let s := Runs.run (step config) .init events
    (∀ p ∈ s.position, AtBoundary s.disk p) ∧
      (s.reader.isSome = true →
        s.skipped ≤ s.recovered ∧ s.returned <+: s.disk.log.drop s.skipped) ∧
      (s.flushed = true → s.answer = some (.ok none) →
        s.returned = s.disk.log.drop s.skipped) ∧
      (s.flushed = true → s.reader.isSome = true →
        let left := (s.disk.log.drop s.skipped).length - s.returned.length
        let s' := Runs.run (step config) s (List.replicate left .poll)
        s'.returned = s.disk.log.drop s.skipped ∧ s'.answer = some (.ok none)) := by
  intro s
  have hinv : Inv s := Inv.run config hkept hkeeps
  refine ⟨?_, hinv.returned_isPrefix, fun hflushed hanswer => ?_, fun hflushed hreader => ?_⟩
  · cases hinv with
    | closed _ _ _ hposition _ _ _ => exact hposition
    | opened _ _ _ _ hposition _ _ _ _ => exact hposition
  · cases hr : s.reader with
    | none => simp [State.answer, hr] at hanswer
    | some r =>
        obtain ⟨-, ⟨payload, hpayload⟩ | ⟨-, hcaught⟩⟩ := hinv.next hr
        · simp [State.answer, hr, hpayload] at hanswer
        · exact hcaught hflushed
  · obtain ⟨r, hr⟩ := Option.isSome_iff_exists.mp hreader
    have := (hinv.returned_isPrefix hreader).2.length_le
    exact drain config _ hinv hflushed hr (by omega)

end

namespace Sample

/-- Room for everything in one segment. -/
def roomy : WalConfig := ⟨1000, 16, 1000⟩

/-- A record of two bytes is appended. -/
def append (b : UInt8) : Event := .disk (.append (.cons b [b]))

/-- Two records are read and the position is committed; the crash keeps `kept`
bytes of the segment.  After the recovery three shorter ones follow. -/
def crashRun (kept : Nat) : List Event :=
  [.disk .openWriter, append 1, .disk .sync, append 2, .disk .flush, .openReader, .poll, .poll,
    .commit, .disk (.crash kept), .disk .openWriter, .openReader,
    .disk (.append (.cons 3 [])), .disk (.append (.cons 4 [])),
    .disk (.append (.cons 5 [])), .disk .flush, .poll, .poll, .poll, .poll]

end Sample

open Committed.Sample in
/-- The crash keeps the bytes the reader has read. -/
theorem committed_position_usable_kept :
    (Runs.run (step roomy) .init (crashRun 20)).returned <+:
      ((Runs.run (step roomy) .init (crashRun 20)).disk.log.drop
        (Runs.run (step roomy) .init (crashRun 20)).skipped) :=
  ((committed_position_usable roomy (crashRun 20) (by decide +kernel) (by decide +kernel)).2.1
    (by decide +kernel)).2

open Committed.Sample in
/-- The crash cuts the second record off.  The position is inside a frame that has
been appended since, and the reader finds nothing. -/
theorem committed_position_inside_frame :
    (Runs.run (step roomy) .init (crashRun 0)).position = some ⟨0, 20⟩ ∧
      (Runs.run (step roomy) .init (crashRun 0)).disk.log = [[1, 1], [3], [4], [5]] ∧
      (∀ n ≤ 4, (Framing.frames frame
        (((Runs.run (step roomy) .init (crashRun 0)).disk.log).take n)).length ≠ 20) ∧
      (Runs.run (step roomy) .init (crashRun 0)).recovered = 1 ∧
      (Runs.run (step roomy) .init (crashRun 0)).flushed = true ∧
      (Runs.run (step roomy) .init (crashRun 0)).answer = some (.ok none) ∧
      (Runs.run (step roomy) .init (crashRun 0)).returned = [] := by
  decide +kernel

end Committed

end PolyBook.Wal
