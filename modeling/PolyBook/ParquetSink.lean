import PolyBook.Hydration
import PolyBook.Ingest
import PolyBook.SnapshotGroups
import PolyBook.Wal.PowerLoss

/-!
# The Parquet sink beside the log

`wal_drain` appends a record to the log, into the writer's buffer, and fans it out
to the Parquet sink, which writes what it has buffered to the object store when its
own timer says so.  Nothing makes that write wait for the sync of the log.

`parquet_within_log`: as long as no crash cuts the log below a record that Parquet
has, Parquet holds records of the log only, and no checkpoint in it makes a
hydration skip what was appended after the recovery.
-/

namespace PolyBook.ParquetSink

open Wal Ingest

/-- A record that was appended, and the position after its frame. -/
structure Logged where
  record : PersistedRecord
  position : WalPosition
  deriving DecidableEq

/-- The log, `wal_drain` and the sink. -/
structure State where
  disk : Disk
  /-- `wal_drain` has left its loop. -/
  stopped : Bool
  ingestOrdinal : Nat
  /-- Fanned out, and not yet received by the sink. -/
  channel : List Logged
  /-- The sink's buffer. -/
  buffer : List Logged
  /-- What the object store holds. -/
  parquet : List Logged
  /-- What it held when the writer was last opened. -/
  inherited : List Logged
  /-- What has been appended since. -/
  appended : List Logged

/-- Nothing is recorded and nothing written. -/
def State.init : State := ⟨.init, true, 0, [], [], [], [], []⟩

/-- What happens to the log, the sink and the machine. -/
inductive Event where
  | openWriter
  | drain (record : PersistedRecord)
  | spill (k : Nat)
  | flush
  | sync
  | prune (files : List (Option String))
  /-- The loop of `wal_drain` ends: the channel is closed, or a flush, a sync or
  the fan-out has failed. -/
  | stop
  | receive
  /-- A `write_batch` of the buffer fails after it has written some groups. -/
  | writeSome (written : PersistedRecord → Bool)
  | writeBatch
  | crash (kept : Nat)

/-- The position after what the writer holds. -/
def endPosition (w : WalWriter) : WalPosition := ⟨w.active.id, w.active.writeOffset⟩

/-- The cut of a checkpoint. -/
def checkpointCut : PersistedRecord → Option Nat
  | .checkpoint checkpoint => checkpoint.walOffset
  | _ => none

/-- Only a checkpoint is stamped with the global offset. -/
theorem checkpointCut_stamp {ordinal globalOffset : Nat} {record : PersistedRecord} {cut : Nat}
    (hcut : cut ∈ checkpointCut (stamp ordinal globalOffset record)) :
    cut = globalOffset ∧ ∃ checkpoint, record = .checkpoint checkpoint := by
  cases record with
  | checkpoint checkpoint => exact ⟨(Option.some.inj hcut).symm, checkpoint, rfl⟩
  | book e => cases hcut
  | trade e => cases hcut
  | ingest e => cases hcut
  | validation e => cases hcut

section

variable [Crc32c]

/-- The cut is taken before room is made for the checkpoint's frame. -/
theorem cut_of_makeRoom {config : WalConfig} {dir : Dir} {w : WalWriter}
    {records : Nat → List Bytes} (hlayout : Layout dir w records) (hconfig : w.config = config)
    (hwithin : w.active.writeOffset ≤ config.segmentSize) (payload : Bytes) :
    let w' := (w.makeRoom payload dir).1
    w.globalOffset ≤ w'.active.id * config.segmentSize +
        (Framing.frames frame (records w'.active.id)).length ∧
      (Framing.frames frame (records w'.active.id)).length ≤ config.segmentSize := by
  dsimp only
  rw [WalWriter.globalOffset, hconfig]
  obtain hactive | hactive := hlayout.makeRoom_active payload
  · rw [hactive, ← hlayout.offset]
    exact ⟨Nat.le_refl _, hwithin⟩
  · rw [hactive, hlayout.unwritten _ (Nat.lt_succ_self _), Framing.frames_nil, Nat.succ_mul]
    simp only [List.length_nil]
    omega

variable [Bincode]

/-- `wal_drain` takes a record off the event channel: stamp, append, fan out. -/
def State.drain (s : State) (w : WalWriter) (record : PersistedRecord) : State :=
  let stamped := stamp s.ingestOrdinal w.globalOffset record
  let s := { s with ingestOrdinal := nextOrdinal s.ingestOrdinal record }
  match Codec.encode stamped with
  -- dropped from the log and from the sinks
  | .error _ => s
  | .ok payload =>
      match s.disk.append w payload with
      | (disk, true) =>
          let x : Logged := ⟨stamped, (disk.writer.map endPosition).getD ⟨0, 0⟩⟩
          { s with
            disk := disk, channel := s.channel ++ [x], appended := s.appended ++ [x] }
      | (disk, false) => { s with disk := disk, stopped := true }

/-- One event of the log and the sink. -/
def step (config : WalConfig) (s : State) : Event → State
  | .openWriter =>
      match s.disk.writer with
      | some _ => s
      | none =>
          { s with
            disk := s.disk.step config .openWriter
            stopped := false, ingestOrdinal := 0, inherited := s.parquet, appended := [] }
  | .drain record =>
      match s.disk.writer with
      | none => s
      | some w => if s.stopped then s else s.drain w record
  | .spill k => { s with disk := s.disk.step config (.spill k) }
  | .flush => { s with disk := s.disk.step config .flush }
  | .sync => { s with disk := s.disk.step config .sync }
  | .prune files =>
      match s.disk.writer with
      | none => s
      | some w =>
          { s with disk := { s.disk with dir := w.pruneWithBackpressure files s.disk.dir } }
  | .stop => { s with stopped := true }
  | .receive =>
      match s.channel with
      | [] => s
      | x :: channel => { s with channel := channel, buffer := s.buffer ++ [x] }
  | .writeSome written =>
      { s with parquet := s.parquet ++ s.buffer.filter fun x => written x.record }
  | .writeBatch => { s with parquet := s.parquet ++ s.buffer, buffer := [] }
  | .crash kept =>
      match s.disk.writer with
      | none => s
      | some _ =>
          { s with
            disk := s.disk.step config (.crash kept)
            stopped := true, channel := [], buffer := [] }

/-- A crash keeps the active segment up to every record that Parquet has. -/
def ParquetKept (s : State) : Event → Prop
  | .crash kept => ∀ w ∈ s.disk.writer, ∀ x ∈ s.parquet, x.position.segmentId = w.active.id →
      x.position.offset ≤ (s.disk.cutFile w kept).length
  | _ => True

/-- A checkpoint is stamped while the active segment is within its size. -/
def CutWithin (s : State) : Event → Prop
  | .drain (.checkpoint _) =>
      ∀ w ∈ s.disk.writer, w.active.writeOffset ≤ w.config.segmentSize
  | _ => True

instance (s : State) : (e : Event) → Decidable (ParquetKept s e)
  | .crash kept =>
      inferInstanceAs (Decidable (∀ w ∈ s.disk.writer, ∀ x ∈ s.parquet,
        x.position.segmentId = w.active.id →
          x.position.offset ≤ (s.disk.cutFile w kept).length))
  | .openWriter | .drain _ | .spill _ | .flush | .sync | .prune _ | .stop | .receive
  | .writeSome _ | .writeBatch => isTrue trivial

instance (s : State) : (e : Event) → Decidable (CutWithin s e)
  | .drain (.checkpoint _) =>
      inferInstanceAs (Decidable (∀ w ∈ s.disk.writer,
        w.active.writeOffset ≤ w.config.segmentSize))
  | .drain (.book _) | .drain (.trade _) | .drain (.ingest _) | .drain (.validation _)
  | .openWriter | .crash _ | .spill _ | .flush | .sync | .prune _ | .stop | .receive
  | .writeSome _ | .writeBatch => isTrue trivial

/-! ## Records of the log -/

/-- The record is in the log at its position, and a checkpoint's cut is not past
its own frame. -/
def InLog (config : WalConfig) (records : Nat → List Bytes) (x : Logged) : Prop :=
  ∃ before payload, Codec.encode x.record = .ok payload ∧
    before ++ [payload] <+: records x.position.segmentId ∧
    x.position.offset = (Framing.frames frame (before ++ [payload])).length ∧
    ∀ cut ∈ checkpointCut x.record,
      cut ≤ x.position.segmentId * config.segmentSize +
          (Framing.frames frame before).length ∧
        (Framing.frames frame before).length ≤ config.segmentSize

namespace InLog

variable {config : WalConfig} {records records' : Nat → List Bytes} {x y : Logged}

/-- A record in the log stays there as the log grows. -/
theorem mono (h : InLog config records x)
    (hgrows : records x.position.segmentId <+: records' x.position.segmentId) :
    InLog config records' x := by
  obtain ⟨before, payload, hencode, hsub, hoffset, hcut⟩ := h
  exact ⟨before, payload, hencode, hsub.trans hgrows, hoffset, hcut⟩

/-- What a crash leaves of the segment still holds the record. -/
theorem fitting (h : InLog config records x) {bytes : Nat} (hkept : x.position.offset ≤ bytes)
    (hrecords : records' x.position.segmentId =
      Framing.fitting frame bytes (records x.position.segmentId)) : InLog config records' x := by
  obtain ⟨before, payload, hencode, hsub, hoffset, hcut⟩ := h
  refine ⟨before, payload, hencode, ?_, hoffset, hcut⟩
  rw [hrecords]
  exact Framing.prefix_fitting hsub (hoffset ▸ hkept)

/-- A record in the log ends behind its header. -/
theorem offset_pos (h : InLog config records x) : 0 < x.position.offset := by
  obtain ⟨before, payload, -, -, hoffset, -⟩ := h
  have hframe := List.length_pos_iff.mpr (frame_ne_nil payload)
  rw [hoffset, Framing.frames_append, List.length_append, Framing.frames_cons,
    List.length_append]
  omega

/-- The record lies within the log of the writer. -/
theorem within {dir : Dir} {w : WalWriter} (hlayout : Layout dir w records)
    (h : InLog config records x) : x.position.segmentId ≤ w.active.id ∧
      x.position.offset ≤ (Framing.frames frame (records x.position.segmentId)).length := by
  obtain ⟨before, payload, -, hsub, hoffset, -⟩ := h
  refine ⟨?_, ?_⟩
  · by_contra hlater
    rw [hlayout.unwritten _ (by omega)] at hsub
    simpa using hsub.length_le
  · rw [hoffset]
    exact (Framing.frames_prefix hsub).length_le

/-- A record in the log is one of the log's payloads. -/
theorem mem_log {d : Disk} (hdisk : d.Inv) (h : InLog config d.records x) :
    ∃ payload, Codec.encode x.record = .ok payload ∧ payload ∈ d.log := by
  obtain ⟨before, payload, hencode, hsub, -, -⟩ := h
  have hmem : payload ∈ d.records x.position.segmentId :=
    hsub.subset (List.mem_append_right _ List.mem_cons_self)
  have hlog : ∀ last, (∀ id, last < id → d.records id = []) →
      payload ∈ earlier d.records (last + 1) := by
    intro last hunwritten
    refine List.mem_flatMap.mpr ⟨x.position.segmentId, List.mem_range.mpr ?_, hmem⟩
    by_contra hlater
    rw [hunwritten _ (by omega)] at hmem
    cases hmem
  refine ⟨payload, hencode, ?_⟩
  cases hdisk with
  | unopened _ _ hrecords =>
      rw [hrecords] at hmem
      cases hmem
  | opened _ hlayout _ =>
      rw [Disk.log_of_layout hlayout]
      exact hlog _ hlayout.unwritten
  | crashed _ hcrashed =>
      rw [Disk.log_of_crashed hcrashed]
      exact hlog _ hcrashed.unwritten

/-- A cut is not past the end of the log. -/
theorem cut_le {dir : Dir} {w : WalWriter} (hlayout : Layout dir w records)
    (hconfig : w.config = config) (h : InLog config records x) {cut : Nat}
    (hcut : cut ∈ checkpointCut x.record) : cut ≤ w.globalOffset := by
  obtain ⟨hle, -⟩ := h.within hlayout
  obtain ⟨before, payload, -, hsub, -, hbound⟩ := h
  obtain ⟨hglobal, hsize⟩ := hbound cut hcut
  rw [WalWriter.globalOffset, hconfig]
  obtain hlt | heq := Nat.lt_or_eq_of_le hle
  · have := Nat.mul_le_mul_right config.segmentSize (Nat.succ_le_of_lt hlt)
    rw [Nat.succ_mul] at this
    omega
  · have hlen := (Framing.frames_prefix (f := frame)
      ((List.prefix_append before [payload]).trans hsub)).length_le
    rw [hlayout.offset, ← heq]
    omega

/-- The records after a checkpoint are not behind its cut. -/
theorem not_behind (h : InLog config records x) (hy : 0 < y.position.offset)
    (hbefore : x.position.before y.position = true) {cut : Nat}
    (hcut : cut ∈ checkpointCut x.record) :
    behind (some cut) (y.position.globalOffset config) = false := by
  obtain ⟨before, payload, -, -, hoffset, hbound⟩ := h
  obtain ⟨hglobal, hsize⟩ := hbound cut hcut
  rw [Framing.frames_append, List.length_append] at hoffset
  have hlater : cut < y.position.globalOffset config := by
    rw [WalPosition.globalOffset]
    simp only [WalPosition.before, Bool.or_eq_true, decide_eq_true_eq, Bool.and_eq_true,
      beq_iff_eq] at hbefore
    obtain hlt | ⟨heq, hlt⟩ := hbefore
    · have := Nat.mul_le_mul_right config.segmentSize (Nat.succ_le_of_lt hlt)
      rw [Nat.succ_mul] at this
      omega
    · rw [← heq]
      omega
  simp [behind, hlater]

end InLog

/-- A record that is appended to the active segment. -/
theorem inLog_recordIn (config : WalConfig) (records : Nat → List Bytes) (id : Nat)
    {record : PersistedRecord} {payload : Bytes} (hencode : Codec.encode record = .ok payload)
    (hcut : ∀ cut ∈ checkpointCut record,
      cut ≤ id * config.segmentSize + (Framing.frames frame (records id)).length ∧
        (Framing.frames frame (records id)).length ≤ config.segmentSize) :
    InLog config (recordIn records id payload)
      ⟨record, ⟨id, (Framing.frames frame (records id ++ [payload])).length⟩⟩ := by
  refine ⟨records id, payload, hencode, ?_, rfl, hcut⟩
  change _ <+: recordIn records id payload id
  rw [recordIn_same]

/-! ## Every state of a run -/

/-- What holds in every state. -/
structure Inv (config : WalConfig) (s : State) : Prop where
  disk : s.disk.Inv
  configured : ∀ w ∈ s.disk.writer, w.config = config
  channel : ∀ x ∈ s.channel, InLog config s.disk.records x
  buffer : ∀ x ∈ s.buffer, InLog config s.disk.records x
  parquet : ∀ x ∈ s.parquet, InLog config s.disk.records x
  inherited : ∀ x ∈ s.inherited, x ∈ s.parquet
  appended : ∀ y ∈ s.appended, 0 < y.position.offset ∧
    ∀ x ∈ s.inherited, x.position.before y.position = true

namespace Inv

variable {config : WalConfig} {s : State}

/-- The empty log satisfies the invariant. -/
theorem init : Inv config .init where
  disk := .init
  configured _ hw := nomatch hw
  channel _ hx := nomatch hx
  buffer _ hx := nomatch hx
  parquet _ hx := nomatch hx
  inherited _ hx := nomatch hx
  appended _ hy := nomatch hy

/-- The invariant with the disk changed and no record lost. -/
theorem of_disk {disk : Disk} (h : Inv config s) (hdisk : disk.Inv)
    (hconfig : ∀ w ∈ disk.writer, w.config = config)
    (hrecords : ∀ id, s.disk.records id <+: disk.records id) :
    Inv config { s with disk := disk } :=
  ⟨hdisk, hconfig, fun x hx => (h.channel x hx).mono (hrecords _),
    fun x hx => (h.buffer x hx).mono (hrecords _),
    fun x hx => (h.parquet x hx).mono (hrecords _), h.inherited, h.appended⟩

/-- Opening a writer keeps the invariant. -/
theorem openWriter (h : Inv config s) : Inv config (step config s .openWriter) := by
  cases hwriter : s.disk.writer with
  | some w =>
      have hstep : step config s .openWriter = s := by
        simp only [step, hwriter]
      rwa [hstep]
  | none =>
      have hdisk := h.disk.openWriter config
      have hrecords : (s.disk.step config .openWriter).records = s.disk.records := by
        rw [Disk.step_openWriter config hwriter]
      have hconfig : ∀ w ∈ (s.disk.step config .openWriter).writer, w.config = config := by
        rw [Disk.step_openWriter config hwriter]
        intro w hw
        obtain rfl := Option.some.inj hw
        exact WalWriter.openDir_config config s.disk.dir
      have hkeeps := h.of_disk hdisk hconfig fun id => by rw [hrecords]
      simp only [step, hwriter]
      exact ⟨hdisk, hconfig, hkeeps.channel, hkeeps.buffer, hkeeps.parquet, fun _ hx => hx,
        fun _ hy => nomatch hy⟩

/-- A partial write keeps the invariant. -/
theorem spill (k : Nat) (h : Inv config s) : Inv config (step config s (.spill k)) := by
  cases hwriter : s.disk.writer with
  | none =>
      have hstep : step config s (.spill k) = s := by
        simp only [step, Disk.step_of_closed config hwriter (e := .spill k) (by simp)]
      rwa [hstep]
  | some w =>
      have hdisk := h.disk.spill config k
      simp only [step]
      rw [Disk.step_spill config hwriter] at hdisk ⊢
      refine h.of_disk hdisk (fun w' hw' => ?_) fun id => List.prefix_rfl
      obtain rfl := Option.some.inj hw'
      exact h.configured w hwriter

/-- A flush keeps the invariant. -/
theorem flush (h : Inv config s) : Inv config (step config s .flush) := by
  cases hwriter : s.disk.writer with
  | none =>
      have hstep : step config s .flush = s := by
        simp only [step, Disk.step_of_closed config hwriter (e := .flush) (by simp)]
      rwa [hstep]
  | some w =>
      have hspill := h.spill w.active.buffer.length
      simpa only [step, Disk.step_flush config hwriter] using hspill

/-- A sync keeps the invariant. -/
theorem sync (h : Inv config s) : Inv config (step config s .sync) := by
  cases hwriter : s.disk.writer with
  | none =>
      have hstep : step config s .sync = s := by
        simp only [step, Disk.step_of_closed config hwriter (e := .sync) (by simp)]
      rwa [hstep]
  | some w =>
      have hspill := h.spill w.active.buffer.length
      have hdisk := h.disk.sync config
      simp only [step, Disk.step_sync config hwriter] at hdisk hspill ⊢
      exact ⟨hdisk, hspill.configured, hspill.channel, hspill.buffer, hspill.parquet,
        hspill.inherited, hspill.appended⟩

/-- Pruning keeps the invariant. -/
theorem prune (files : List (Option String)) (h : Inv config s) :
    Inv config (step config s (.prune files)) := by
  cases hwriter : s.disk.writer with
  | none =>
      have hstep : step config s (.prune files) = s := by
        simp only [step, hwriter]
      rwa [hstep]
  | some w =>
      simp only [step, hwriter]
      have hdisk := h.disk.prune hwriter files
      rw [hwriter] at hdisk
      exact h.of_disk hdisk (by rw [← hwriter]; exact h.configured) fun id => List.prefix_rfl

/-- The counter of ordinals is no part of the invariant. -/
theorem ordinal (ordinal : Nat) (h : Inv config s) :
    Inv config { s with ingestOrdinal := ordinal } :=
  ⟨h.disk, h.configured, h.channel, h.buffer, h.parquet, h.inherited, h.appended⟩

/-- Stopping the drain keeps the invariant. -/
theorem stop (h : Inv config s) : Inv config { s with stopped := true } :=
  ⟨h.disk, h.configured, h.channel, h.buffer, h.parquet, h.inherited, h.appended⟩

/-- A record that was appended is fanned out. -/
theorem fanOut {x : Logged} (h : Inv config s) (hx : InLog config s.disk.records x)
    (hlater : ∀ y ∈ s.inherited, y.position.before x.position = true) :
    Inv config { s with channel := s.channel ++ [x], appended := s.appended ++ [x] } := by
  refine ⟨h.disk, h.configured, fun y hy => ?_, h.buffer, h.parquet, h.inherited, fun y hy => ?_⟩
  · obtain hy | hy := List.mem_append.mp hy
    · exact h.channel y hy
    · rwa [List.mem_singleton.mp hy]
  · obtain hy | hy := List.mem_append.mp hy
    · exact h.appended y hy
    · rw [List.mem_singleton.mp hy]
      exact ⟨hx.offset_pos, hlater⟩

/-- What Parquet has lies before the next frame. -/
theorem before_next {w : WalWriter} (hlayout : Layout s.disk.dir w s.disk.records)
    (h : Inv config s) (payload payload' : Bytes) {y : Logged} (hy : y ∈ s.parquet) :
    let id := (w.makeRoom payload s.disk.dir).1.active.id
    y.position.before
      ⟨id, (Framing.frames frame (s.disk.records id ++ [payload'])).length⟩ = true := by
  intro id
  obtain ⟨hle, hoffset⟩ := (h.parquet y hy).within hlayout
  have hactive : id = w.active.id ∨ id = w.active.id + 1 := hlayout.makeRoom_active payload
  have hframe := List.length_pos_iff.mpr (frame_ne_nil payload')
  simp only [WalPosition.before, Bool.or_eq_true, decide_eq_true_eq, Bool.and_eq_true, beq_iff_eq,
    Framing.frames_append, List.length_append, Framing.frames_cons]
  by_cases hid : y.position.segmentId = id
  · rw [hid] at hoffset
    exact Or.inr ⟨hid, by omega⟩
  · exact Or.inl (by omega)

/-- Draining a record keeps the invariant, if a checkpoint is cut within its segment. -/
theorem drain {w : WalWriter} (hwriter : s.disk.writer = some w) (record : PersistedRecord)
    (h : Inv config s) (hwithin : CutWithin s (.drain record)) :
    Inv config (s.drain w record) := by
  obtain ⟨hlayout, hdurable⟩ := h.disk.layout hwriter
  have hconfig := h.configured w hwriter
  unfold State.drain
  dsimp only
  split
  · exact h.ordinal _
  · rename_i payload hencode
    have hroom : Inv config { s with disk := s.disk.roomMade w payload } := by
      refine h.of_disk (Disk.Inv.roomMade hlayout hdurable payload) (fun w' hw' => ?_)
        fun id => List.prefix_rfl
      obtain rfl := Option.some.inj hw'
      rw [WalWriter.makeRoom_config, hconfig]
    obtain ⟨hmax, happend⟩ | happend := Disk.append_cases s.disk w payload
    · have hok : Recordable payload := ⟨Codec.encode_ne_nil hencode, hmax⟩
      let w' := (w.makeRoom payload s.disk.dir).1
      have hend : endPosition (w'.buffered payload) = ⟨w'.active.id,
          (Framing.frames frame (s.disk.records w'.active.id ++ [payload])).length⟩ := by
        have hoffset := ((hlayout.makeRoom payload).record hok).offset
        have hactive : (w'.buffered payload).active.id = w'.active.id := rfl
        rw [hactive, recordIn_same] at hoffset
        rw [endPosition, hoffset, hactive]
      have hnext : Inv config { s with disk := (s.disk.roomMade w payload).buffered w' payload } :=
        hroom.of_disk (hroom.disk.buffered rfl hok) (fun w'' hw'' => by
          obtain rfl := Option.some.inj hw''
          exact hroom.configured w' rfl) fun id => isPrefix_recordIn _ _ _ _
      have hin := inLog_recordIn config s.disk.records w'.active.id hencode
        fun cut hcut => by
          obtain ⟨rfl, checkpoint, rfl⟩ := checkpointCut_stamp hcut
          exact cut_of_makeRoom hlayout hconfig (hconfig ▸ hwithin w hwriter) payload
      rw [happend]
      dsimp only [Disk.buffered, Option.map_some, Option.getD_some]
      rw [hend]
      exact (hnext.ordinal _).fanOut hin fun y hy =>
        before_next hlayout h payload payload (h.inherited y hy)
    · rw [happend]
      exact (hroom.ordinal _).stop

/-- What the sink holds and writes. -/
theorem of_sink {channel buffer parquet : List Logged} (h : Inv config s)
    (hchannel : ∀ x ∈ channel, x ∈ s.channel)
    (hbuffer : ∀ x ∈ buffer, x ∈ s.buffer ∨ x ∈ s.channel)
    (hparquet : ∀ x ∈ parquet, x ∈ s.parquet ∨ x ∈ s.buffer)
    (hgrows : ∀ x ∈ s.parquet, x ∈ parquet) :
    Inv config { s with channel := channel, buffer := buffer, parquet := parquet } :=
  ⟨h.disk, h.configured, fun x hx => h.channel x (hchannel x hx),
    fun x hx => (hbuffer x hx).elim (h.buffer x) (h.channel x),
    fun x hx => (hparquet x hx).elim (h.parquet x) (h.buffer x),
    fun x hx => hgrows x (h.inherited x hx), h.appended⟩

/-- The sink receiving a record keeps the invariant. -/
theorem receive (h : Inv config s) : Inv config (step config s .receive) := by
  cases hchannel : s.channel with
  | nil =>
      have hstep : step config s .receive = s := by
        simp only [step, hchannel]
      rwa [hstep]
  | cons x channel =>
      simp only [step, hchannel]
      refine h.of_sink (fun y hy => ?_) (fun y hy => ?_) (fun y hy => Or.inl hy) fun y hy => hy
      · rw [hchannel]
        exact List.mem_cons_of_mem x hy
      · obtain hy | hy := List.mem_append.mp hy
        · exact Or.inl hy
        · rw [List.mem_singleton.mp hy, hchannel]
          exact Or.inr List.mem_cons_self

/-- Writing any part of the batch keeps the invariant. -/
theorem writeSome (written : PersistedRecord → Bool) (h : Inv config s) :
    Inv config (step config s (.writeSome written)) :=
  h.of_sink (fun _ hx => hx) (fun _ hx => Or.inl hx)
    (fun _ hx => (List.mem_append.mp hx).imp_right fun hx => (List.mem_filter.mp hx).1)
    fun _ hx => List.mem_append_left _ hx

/-- Writing the batch keeps the invariant. -/
theorem writeBatch (h : Inv config s) : Inv config (step config s .writeBatch) :=
  h.of_sink (fun _ hx => hx) (fun _ hx => nomatch hx) (fun _ hx => List.mem_append.mp hx)
    fun _ hx => List.mem_append_left _ hx

/-- A power loss keeps the invariant, if what Parquet holds is kept. -/
theorem crash {kept : Nat} (h : Inv config s) (hkept : ParquetKept s (.crash kept)) :
    Inv config (step config s (.crash kept)) := by
  cases hwriter : s.disk.writer with
  | none =>
      have hstep : step config s (.crash kept) = s := by
        simp only [step, hwriter]
      rwa [hstep]
  | some w =>
      have hdisk := h.disk.crash config kept
      simp only [step, hwriter]
      rw [Disk.step_crash config hwriter] at hdisk ⊢
      refine ⟨hdisk, (fun _ hw => nomatch hw), (fun _ hx => nomatch hx),
        (fun _ hx => nomatch hx), fun x hx => ?_, h.inherited, h.appended⟩
      by_cases hid : x.position.segmentId = w.active.id
      · exact (h.parquet x hx).fitting (hkept w hwriter x hx hid) (if_pos hid)
      · refine (h.parquet x hx).mono ?_
        dsimp only
        rw [if_neg hid]

/-- **Every step keeps what the sink has in the log.** -/
theorem step (e : Event) (h : Inv config s) (hkept : ParquetKept s e) (hwithin : CutWithin s e) :
    Inv config (ParquetSink.step config s e) := by
  cases e with
  | openWriter => exact h.openWriter
  | drain record =>
      cases hwriter : s.disk.writer with
      | none =>
          have hstep : ParquetSink.step config s (.drain record) = s := by
            simp only [ParquetSink.step, hwriter]
          rwa [hstep]
      | some w =>
          simp only [ParquetSink.step, hwriter]
          split
          · exact h
          · exact h.drain hwriter record hwithin
  | spill k => exact h.spill k
  | flush => exact h.flush
  | sync => exact h.sync
  | prune files => exact h.prune files
  | stop => exact h.stop
  | receive => exact h.receive
  | writeSome written => exact h.writeSome written
  | writeBatch => exact h.writeBatch
  | crash kept => exact h.crash hkept

/-- The invariant holds in every run whose steps meet the two conditions. -/
theorem run {events : List Event}
    (hkept : Runs.Meets (ParquetSink.step config) ParquetKept .init events)
    (hwithin : Runs.Meets (ParquetSink.step config) CutWithin .init events) :
    Inv config (Runs.run (ParquetSink.step config) .init events) :=
  Runs.Meets.induction (fun _ e h hok => h.step e hok.1 hok.2) init (hkept.and hwithin)

end Inv

/-- Parquet does not run ahead of the log. -/
structure WithinLog (config : WalConfig) (s : State) : Prop where
  /-- What it holds is in the log. -/
  recorded : ∀ x ∈ s.parquet,
    ∃ payload, Codec.encode x.record = .ok payload ∧ payload ∈ s.disk.log
  /-- No cut is past the end of the log. -/
  reached : ∀ w ∈ s.disk.writer, ∀ x ∈ s.parquet, ∀ cut ∈ checkpointCut x.record,
    cut ≤ w.globalOffset
  /-- A hydration from a checkpoint that was there when the writer was opened skips
  nothing that has been appended since. -/
  unskipped : ∀ x ∈ s.inherited, ∀ y ∈ s.appended, ∀ cut ∈ checkpointCut x.record,
    behind (some cut) (y.position.globalOffset config) = false

/-- **Parquet stays within the log** in a run in which no crash cuts the log below a
record that Parquet has and no checkpoint is stamped past the size of a segment. -/
theorem parquet_within_log (config : WalConfig) (events : List Event)
    (hkept : Runs.Meets (step config) ParquetKept .init events)
    (hwithin : Runs.Meets (step config) CutWithin .init events) :
    WithinLog config (Runs.run (step config) .init events) := by
  have hinv := Inv.run hkept hwithin
  refine ⟨fun x hx => (hinv.parquet x hx).mem_log hinv.disk, fun w hw x hx cut hcut => ?_,
    fun x hx y hy cut hcut => ?_⟩
  · exact (hinv.parquet x hx).cut_le (hinv.disk.layout hw).1 (hinv.configured w hw) hcut
  · obtain ⟨hpos, hafter⟩ := hinv.appended y hy
    exact (hinv.parquet x (hinv.inherited x hx)).not_behind hpos (hafter x hx) hcut

end

namespace Unsynced

open PolyBook.Sample Wal.Sample

/-- The configuration of the sample run. -/
def config : WalConfig := ⟨4096, 64, 1048576⟩

/-- A level change of the sample. -/
def bid (price : Fin 101) (recvTimestampUs : Nat) (eventId : String) : PersistedRecord :=
  .book (level .delta "7" .bid price 10 recvTimestampUs eventId)

/-- The checkpoint of the sample. -/
def checkpoint : PersistedRecord :=
  .checkpoint (checkpointFromRest "7" (L2Book.new "7") 1700000000100000 1700000000000000 none)

/-- The sink writes what it has received, and then the power fails. -/
def archived : List Event :=
  [.openWriter, .drain (bid 40 1700000000000000 "0x61"), .drain checkpoint, .flush, .receive,
    .receive, .writeBatch, .crash 0, .openWriter]

/-- The log is synced before the sink writes. -/
def synced : List Event :=
  [.openWriter, .drain (bid 40 1700000000000000 "0x61"), .drain checkpoint, .sync, .receive,
    .receive, .writeBatch, .crash 0, .openWriter]

/-- The state after a run. -/
def final (events : List Event) : State :=
  Runs.run (@step castagnoli bincode config) .init events

end Unsynced

open Unsynced in
/-- Both records survive, and the record after the recovery is replayed. -/
theorem parquet_within_log_synced :
    (final synced).parquet.length = 2 ∧
      @WithinLog Wal.Sample.bincode config (final synced) :=
  ⟨by decide +kernel,
    @parquet_within_log castagnoli Wal.Sample.bincode config synced (by decide +kernel)
      (by decide +kernel)⟩

open Unsynced in
/-- Parquet has two records that the log has lost, and a cut past its end; the
record appended next is behind that cut. -/
theorem parquet_ahead_of_log :
    (final archived).parquet.length = 2 ∧ (final archived).disk.log = [] ∧
      (final archived).parquet.filterMap (fun x => checkpointCut x.record) = [109] ∧
      (final archived).disk.writer.map WalWriter.globalOffset = some 0 ∧
      (final (archived ++ [.drain (bid 41 1700000000200000 "0x62")])).appended.map
        (fun y => behind (some 109) (y.position.globalOffset config)) = [true] ∧
      ¬ @WithinLog Wal.Sample.bincode config (final archived) := by
  have hlog : (final archived).disk.log = [] := by decide +kernel
  refine ⟨by decide +kernel, hlog, by decide +kernel, by decide +kernel, by decide +kernel,
    fun hwithin => ?_⟩
  have hsome : ∃ x, x ∈ (final archived).parquet :=
    List.exists_mem_of_length_pos (by decide +kernel)
  obtain ⟨x, hx⟩ := hsome
  obtain ⟨payload, -, hmem⟩ := @WithinLog.recorded Wal.Sample.bincode _ _ hwithin x hx
  rw [hlog] at hmem
  cases hmem

end PolyBook.ParquetSink
