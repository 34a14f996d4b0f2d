import Mathlib.Logic.Function.Basic
import PolyBook.OffsetOrder
import PolyBook.Wal.Retained

/-!
# Writers that stand by

Any number of processes share one log directory.  The lock on `.wal.lock` lets one of them
write; a standby asks for it again and again, and a process that ends, however it ends, gives
it up.  Every process has a writer and a buffer of its own, and only the directory is common.

`Follows` says that such a run is one of a single writer that is opened anew after each
handover; `handover_keeps_the_log` says what that means for the log.
-/

namespace PolyBook

namespace Wal

variable [Crc32c]

/-! ## The records in the files -/

section Stored

variable {dir : Dir} {w : WalWriter} {records : Nat → List Bytes}

/-- The records whose frames have reached the files. -/
def storedIn (dir : Dir) (w : WalWriter) (records : Nat → List Bytes) : List Bytes :=
  earlier records w.active.id ++
    Framing.fitting frame (dir.contents w.active.id).length (records w.active.id)

/-- A partial write adds to what is stored. -/
theorem storedIn_spill (dir : Dir) (w : WalWriter) (records : Nat → List Bytes) (k : Nat) :
    storedIn dir w records <+: storedIn (w.spill k dir).2 (w.spill k dir).1 records := by
  have hactive : (w.spill k dir).1.active.id = w.active.id := rfl
  rw [storedIn, storedIn, hactive, WalWriter.contents_spill, if_pos rfl]
  refine (List.prefix_append_right_inj _).mpr (Framing.fitting_mono ?_ _)
  rw [List.length_append]
  exact Nat.le_add_right _ _

/-- Once the buffer is empty, all records are in the files. -/
theorem storedIn_of_flushed (h : Layout dir w records) (hbuffer : w.active.buffer = []) :
    storedIn dir w records = earlier records (w.active.id + 1) := by
  obtain ⟨file, hfile⟩ := h.active
  have hstored := h.stored _ _ hfile
  rw [w.pending_active, hbuffer, List.append_nil] at hstored
  rw [storedIn, Dir.contents_of_some hfile, hstored, Framing.fitting_frames, earlier_succ]

/-- Making room for a frame adds to what is stored. -/
theorem storedIn_makeRoom (h : Layout dir w records) (payload : Bytes) :
    storedIn dir w records <+:
      storedIn (w.makeRoom payload dir).2 (w.makeRoom payload dir).1 records := by
  unfold WalWriter.makeRoom
  split
  · have hactive : (w.rotate dir).1.active.id = w.active.id + 1 := h.next
    rw [storedIn, storedIn, hactive, earlier_succ, List.append_assoc]
    refine (List.prefix_append_right_inj _).mpr ?_
    exact (Framing.fitting_isPrefix _ _).trans (List.prefix_append _ _)
  · exact List.prefix_rfl

/-- Buffering a frame stores nothing. -/
theorem storedIn_buffered (h : Layout dir w records) (payload : Bytes) :
    storedIn dir w records =
      storedIn dir (w.buffered payload) (recordIn records w.active.id payload) := by
  obtain ⟨file, hfile⟩ := h.active
  have hlength : (dir.contents w.active.id).length ≤
      (Framing.frames frame (records w.active.id)).length := by
    rw [Dir.contents_of_some hfile]
    exact (h.stored_prefix hfile).length_le
  have hactive : (w.buffered payload).active.id = w.active.id := rfl
  rw [storedIn, storedIn, hactive, earlier_recordIn_of_le records (Nat.le_refl _), recordIn_same,
    Framing.fitting_append_of_le frame_ne_nil hlength]

end Stored

namespace Disk

variable {d : Disk}

/-- The records that are found again if the writer ends now. -/
def stored (d : Disk) : List Bytes :=
  match d.writer with
  | none => d.log
  | some w => storedIn d.dir w d.records

/-- With a writer, what is stored is what its directory holds. -/
theorem stored_of_some {w : WalWriter} (h : d.writer = some w) :
    d.stored = storedIn d.dir w d.records := by rw [stored, h]

/-- Without a writer, what is stored is the log. -/
theorem stored_of_none (h : d.writer = none) : d.stored = d.log := by rw [stored, h]

/-- What is stored is part of the log. -/
theorem Inv.stored_sublist (h : Inv d) : d.stored.Sublist d.log := by
  cases hwriter : d.writer with
  | none => rw [stored_of_none hwriter]
  | some w =>
      rw [stored_of_some hwriter, log_of_layout (h.layout hwriter).1]
      exact (earlier_append_isPrefix (Framing.fitting_isPrefix _ _) (Nat.le_refl _)).sublist

/-- A partial write adds to what is stored. -/
theorem Inv.stored_spill (config : WalConfig) (k : Nat) :
    d.stored <+: (d.step config (.spill k)).stored := by
  cases hwriter : d.writer with
  | none => rw [step_of_closed config hwriter (by simp)]
  | some w =>
      rw [step_spill config hwriter, stored_of_some hwriter]
      exact storedIn_spill d.dir w d.records k

/-- A flush stores the log. -/
theorem Inv.stored_flush (h : Inv d) (config : WalConfig) :
    (d.step config .flush).stored = d.log := by
  cases hwriter : d.writer with
  | none => rw [step_of_closed config hwriter (by simp), stored_of_none hwriter]
  | some w =>
      obtain ⟨hlayout, -⟩ := h.layout hwriter
      rw [step_flush config hwriter, ← h.log_spill config w.active.buffer.length,
        step_spill config hwriter]
      have hflush := hlayout.spill w.active.buffer.length
      rw [stored_of_some rfl, log_of_layout hflush]
      exact storedIn_of_flushed hflush List.drop_length

/-- An append adds to what is stored. -/
theorem Inv.stored_append (h : Inv d) {w : WalWriter} (hwriter : d.writer = some w)
    (payload : Bytes) : d.stored <+: (d.append w payload).1.stored := by
  obtain ⟨hlayout, -⟩ := h.layout hwriter
  have hroom : d.stored <+: (d.roomMade w payload).stored := by
    rw [stored_of_some hwriter]
    exact storedIn_makeRoom hlayout payload
  obtain ⟨-, happend⟩ | happend := append_cases d w payload
  · have hmade : Layout (d.roomMade w payload).dir (w.makeRoom payload d.dir).1
        (d.roomMade w payload).records := hlayout.makeRoom payload
    rw [stored_of_some (d := d.roomMade w payload) rfl, storedIn_buffered hmade payload] at hroom
    rw [happend]
    exact hroom
  · rwa [happend]

/-- A new writer has nothing in its buffer. -/
theorem openDir_buffer (config : WalConfig) (dir : Dir) :
    (WalWriter.openDir config dir).1.active.buffer = [] := by
  unfold WalWriter.openDir
  split <;> rfl

/-- Opening a writer leaves the log stored. -/
theorem Inv.stored_openWriter (h : Inv d) (config : WalConfig) (hwriter : d.writer = none) :
    (d.step config .openWriter).stored = d.log := by
  have hopened := h.openWriter config
  rw [← h.log_openWriter config]
  rw [step_openWriter config hwriter] at hopened ⊢
  obtain ⟨hlayout, -⟩ := hopened.layout rfl
  rw [stored_of_some rfl, log_of_layout hlayout]
  exact storedIn_of_flushed hlayout (openDir_buffer config d.dir)

/-- The segments are all there, up to the last. -/
def Whole (d : Disk) : Prop := ∀ last ∈ d.dir.keys.getLast?, Complete d.dir last

/-- With a writer, the segments that count are those up to the active one. -/
theorem Inv.whole_of_some (h : Inv d) {w : WalWriter} (hwriter : d.writer = some w) :
    d.Whole ↔ Complete d.dir w.active.id := by
  rw [Whole, getLast?_keys_of_layout (h.layout hwriter).1]
  simp

/-- Opening a writer leaves no segment out. -/
theorem Inv.whole_openWriter (h : Inv d) (config : WalConfig) (hwriter : d.writer = none)
    (hwhole : d.Whole) : (d.step config .openWriter).Whole := by
  have hopened := h.openWriter config
  rw [step_openWriter config hwriter] at hopened ⊢
  refine (hopened.whole_of_some rfl).mpr ?_
  cases h with
  | unopened _ hdir _ =>
      rw [hdir]
      intro id hid
      obtain rfl : id = 0 := Nat.le_zero.mp hid
      exact (Layout.openDir config).active
  | opened hwriter' _ _ =>
      rw [hwriter] at hwriter'
      cases hwriter'
  | crashed _ hcrashed =>
      exact hcrashed.complete_openDir (hwhole _ hcrashed.getLast?_keys) config

/-- An append leaves no segment out. -/
theorem Inv.whole_append (h : Inv d) {w : WalWriter} (hwriter : d.writer = some w)
    {payload : Bytes} (hne : payload ≠ []) (hwhole : d.Whole) : (d.append w payload).1.Whole := by
  obtain ⟨hlayout, -⟩ := h.layout hwriter
  have hroom := complete_makeRoom hlayout.next ((h.whole_of_some hwriter).mp hwhole) payload
  have happended := h.append hwriter hne
  obtain ⟨-, happend⟩ | happend := append_cases d w payload
  · rw [happend] at happended ⊢
    exact (happended.whole_of_some rfl).mpr hroom
  · rw [happend] at happended ⊢
    exact (happended.whole_of_some rfl).mpr hroom

/-- A partial write takes no segment away. -/
theorem Inv.whole_spill (h : Inv d) (config : WalConfig) {w : WalWriter}
    (hwriter : d.writer = some w) (k : Nat) (hwhole : d.Whole) :
    (d.step config (.spill k)).Whole := by
  have hspilled := h.spill config k
  rw [step_spill config hwriter] at hspilled ⊢
  exact (hspilled.whole_of_some rfl).mpr (complete_spill ((h.whole_of_some hwriter).mp hwhole) k)

/-- The writer's process ends: what it has written stays, and what it has buffered is lost. -/
def killed (config : WalConfig) (d : Disk) (w : WalWriter) : Disk :=
  d.step config (.crash (d.dir.contents w.active.id).length)

omit [Crc32c] in
/-- Power that keeps all bytes cuts nothing off. -/
theorem cutFile_length (d : Disk) (w : WalWriter) :
    d.cutFile w (d.dir.contents w.active.id).length = d.dir.contents w.active.id :=
  List.take_of_length_le (Nat.le_max_right _ _)

/-- A killed process leaves the directory as it is. -/
theorem Inv.killed_dir (h : Inv d) (config : WalConfig) {w : WalWriter}
    (hwriter : d.writer = some w) : (killed config d w).dir = d.dir := by
  obtain ⟨file, hfile⟩ := (h.layout hwriter).1.active
  rw [killed, step_crash config hwriter, cutFile_length]
  apply Std.ExtTreeMap.ext_getElem?
  intro id
  rw [TreeMapLookup.getElem?_insert]
  split
  · rename_i hid
    rw [hid, hfile, Dir.contents_of_some hfile]
  · rfl

/-- After a kill the log is what was stored. -/
theorem Inv.killed_log (h : Inv d) (config : WalConfig) {w : WalWriter}
    (hwriter : d.writer = some w) : (killed config d w).log = d.stored := by
  obtain ⟨hlayout, -⟩ := h.layout hwriter
  have hcrashed := Inv.crashed_of_layout hlayout (d.dir.contents w.active.id).length
  have hsealed : earlier (fun id => if id = w.active.id then
      Framing.fitting frame (d.cutFile w (d.dir.contents w.active.id).length).length (d.records id)
        else d.records id) w.active.id = earlier d.records w.active.id := by
    apply List.flatMap_congr
    intro id hid
    exact if_neg (Nat.ne_of_lt (List.mem_range.mp hid))
  rw [killed, step_crash config hwriter]
  refine (log_of_crashed hcrashed).trans ?_
  rw [earlier_succ, hsealed, stored_of_some hwriter, storedIn]
  refine congrArg (earlier d.records w.active.id ++ ·) ((if_pos rfl).trans ?_)
  rw [cutFile_length]

end Disk

end Wal

/-! ## The processes -/

namespace Failover

open Wal

/-- Where a process stands with `open_wal_writer_with_standby`. -/
inductive Process where
  | out
  /-- asleep until it asks for the lock again -/
  | waiting
  | writing (writer : WalWriter)

/-- The writer of a process that writes. -/
def Process.writer : Process → Option WalWriter
  | .writing w => some w
  | _ => none

/-- The directory, the holder of its lock, and the processes; what the appends have taken,
what of it a flush has covered, and what the present writer has not flushed. -/
structure State where
  dir : Dir
  lock : Option Nat
  processes : Nat → Process
  taken : List Bytes
  flushed : List Bytes
  unflushed : List Bytes

/-- The steps of the processes.  One that is killed loses its buffer; one that exits drops its
buffered writer, which flushes. -/
inductive Event where
  | start (p : Nat) (standby : Bool)
  | poll (p : Nat)
  | cancel (p : Nat)
  | append (p : Nat) (payload : Payload)
  | spill (p : Nat) (k : Nat)
  | flush (p : Nat)
  | exit (p : Nat)
  | kill (p : Nat)

variable [Crc32c]

namespace State

/-- No process runs, and the directory is empty. -/
def init : State := ⟨∅, none, fun _ => .out, [], [], []⟩

/-- The writer of the process that holds the lock. -/
def writer (s : State) : Option WalWriter := s.lock.bind fun p => (s.processes p).writer

/-- A process changes what it does. -/
def become (s : State) (p : Nat) (process : Process) : State :=
  { s with processes := Function.update s.processes p process }

/-- One turn of `open_wal_writer_with_standby`. -/
def tryOpen (config : WalConfig) (s : State) (p : Nat) (standby : Bool) : State :=
  match s.lock with
  | some _ => s.become p (if standby then .waiting else .out)
  | none =>
      let (w, dir) := WalWriter.openDir config s.dir
      { s.become p (.writing w) with dir := dir, lock := some p }

/-- The writing process appends a record. -/
def append (s : State) (p : Nat) (w : WalWriter) (payload : Bytes) : State :=
  match w.append payload s.dir with
  | (w, dir, .ok _) =>
      { s.become p (.writing w) with
        dir := dir
        taken := s.taken ++ [payload]
        unflushed := s.unflushed ++ [payload] }
  | (w, dir, .error _) => { s.become p (.writing w) with dir := dir }

/-- The operating system takes some of the buffered bytes. -/
def spill (s : State) (p : Nat) (w : WalWriter) (k : Nat) : State :=
  let (w, dir) := w.spill k s.dir
  { s.become p (.writing w) with dir := dir }

/-- The writing process flushes. -/
def flush (s : State) (p : Nat) (w : WalWriter) : State :=
  let (w, dir) := w.flush s.dir
  { s.become p (.writing w) with
    dir := dir
    flushed := s.flushed ++ s.unflushed
    unflushed := [] }

/-- The process is gone, and its lock with it. -/
def release (s : State) (p : Nat) : State :=
  { s.become p .out with
    lock := if s.lock = some p then none else s.lock
    unflushed := [] }

end State

/-- One event of the processes that share the directory. -/
def step (config : WalConfig) (s : State) : Event → State
  | .start p standby =>
      match s.processes p with
      | .out => s.tryOpen config p standby
      | _ => s
  | .poll p =>
      match s.processes p with
      | .waiting => s.tryOpen config p true
      | _ => s
  | .cancel p =>
      match s.processes p with
      | .waiting => s.become p .out
      | _ => s
  | .append p payload =>
      match s.processes p with
      | .writing w => s.append p w payload.bytes
      | _ => s
  | .spill p k =>
      match s.processes p with
      | .writing w => s.spill p w k
      | _ => s
  | .flush p =>
      match s.processes p with
      | .writing w => s.flush p w
      | _ => s
  | .exit p =>
      match s.processes p with
      | .writing w => (s.flush p w).release p
      | _ => s
  | .kill p =>
      match s.processes p with
      | .writing _ => s.release p
      | .waiting => s.become p .out
      | .out => s

/-- What the next writer that opens the directory finds. -/
def recoverable (config : WalConfig) (dir : Dir) : List Bytes :=
  (WalWriter.openDir config dir).2.payloads

/-! ## One writer at a time -/

/-- The processes work on the directory as one writer does, and the log has all that was
flushed and nothing that was not taken. -/
structure Follows (s : State) (d : Disk) : Prop where
  inv : d.Inv
  dir : d.dir = s.dir
  writer : d.writer = s.writer
  /-- Only the holder of the lock has a writer. -/
  alone : ∀ p, (s.processes p).writer.isSome = true ↔ s.lock = some p
  whole : d.Whole
  taken : d.log.Sublist s.taken
  flushed : (s.flushed ++ s.unflushed).Sublist d.log
  stored : s.flushed.Sublist d.stored
  idle : s.lock = none → s.unflushed = []

namespace Follows

variable {s : State} {d : Disk} {config : WalConfig} {p : Nat} {w : WalWriter}

/-- The empty directory is one writer's empty disk. -/
theorem init : Follows .init .init where
  inv := .init
  dir := rfl
  writer := rfl
  alone p := by simp [State.init, Process.writer]
  whole last hlast := nomatch hlast
  taken := List.Sublist.refl _
  flushed := List.Sublist.refl _
  stored := List.Sublist.refl _
  idle _ := rfl

/-- The holder of the lock writes, and the other processes do not. -/
theorem of_writing (h : Follows s d) (hp : s.processes p = .writing w) :
    s.lock = some p ∧ d.writer = some w := by
  have hlock : s.lock = some p := (h.alone p).mp (by rw [hp]; rfl)
  refine ⟨hlock, h.writer.trans ?_⟩
  rw [State.writer, hlock, Option.bind_some, hp]
  rfl

/-- Without a lock holder there is no writer. -/
theorem closed (h : Follows s d) (hlock : s.lock = none) : d.writer = none := by
  rw [h.writer, State.writer, hlock, Option.bind_none]

/-- A process that has no writer does something else. -/
theorem become (h : Follows s d) {process : Process} (hp : (s.processes p).writer = none)
    (hprocess : process.writer = none) : Follows (s.become p process) d where
  inv := h.inv
  dir := h.dir
  writer := by
    rw [h.writer]
    unfold State.writer State.become
    cases hlock : s.lock with
    | none => rfl
    | some q =>
        have hne : q ≠ p := by
          rintro rfl
          have := (h.alone q).mpr hlock
          rw [hp] at this
          cases this
        simp only [Option.bind_some, Function.update_of_ne hne]
  alone q := by
    unfold State.become
    by_cases hq : q = p
    · subst hq
      have hfree := h.alone q
      rw [hp] at hfree
      simpa [hprocess] using hfree
    · simp only [Function.update_of_ne hq]
      exact h.alone q
  whole := h.whole
  taken := h.taken
  flushed := h.flushed
  stored := h.stored
  idle := h.idle

/-- A standby, or a process that gives up. -/
theorem locked (h : Follows s d) (hp : (s.processes p).writer = none) (standby : Bool) {q : Nat}
    (hlock : s.lock = some q) : Follows (s.tryOpen config p standby) d := by
  unfold State.tryOpen
  rw [hlock]
  cases standby with
  | false => exact h.become hp rfl
  | true => exact h.become hp rfl

/-- A process takes over. -/
theorem takesOver (h : Follows s d) (hlock : s.lock = none) (standby : Bool) :
    Follows (s.tryOpen config p standby) (d.step config .openWriter) := by
  have hclosed := h.closed hlock
  have hopen := Disk.step_openWriter config hclosed
  have htry : s.tryOpen config p standby = { s.become p
      (.writing (WalWriter.openDir config s.dir).1) with
        dir := (WalWriter.openDir config s.dir).2, lock := some p } := by
    unfold State.tryOpen
    rw [hlock]
  have hlog := h.inv.log_openWriter config
  rw [htry]
  refine ⟨h.inv.openWriter config, ?_, ?_, fun q => ?_,
    h.inv.whole_openWriter config hclosed h.whole, hlog ▸ h.taken, hlog ▸ h.flushed, ?_,
    fun hnone => nomatch hnone⟩
  · rw [hopen, h.dir]
  · rw [hopen, h.dir]
    simp [State.writer, State.become, Process.writer]
  · by_cases hq : q = p
    · subst hq
      simp [State.become, Process.writer]
    · have hother : (s.processes q).writer.isSome = true ↔ False := by
        rw [h.alone q, hlock]
        simp
      have hne : ¬ some p = some q := fun heq => hq (Option.some.inj heq).symm
      simp only [State.become, Function.update_of_ne hq, hother, hne]
  · rw [h.inv.stored_openWriter config hclosed]
    exact (List.sublist_append_left _ _).trans h.flushed

/-- The holder of the lock has done something with its writer. -/
theorem writes (h : Follows s d) (hp : s.processes p = .writing w) {d' : Disk} {w' : WalWriter}
    {taken flushed unflushed : List Bytes} (hinv : d'.Inv) (hwriter : d'.writer = some w')
    (hwhole : d'.Whole) (htaken : d'.log.Sublist taken)
    (hflushed : (flushed ++ unflushed).Sublist d'.log) (hstored : flushed.Sublist d'.stored) :
    Follows { s.become p (.writing w') with
      dir := d'.dir, taken := taken, flushed := flushed, unflushed := unflushed } d' := by
  obtain ⟨hlock, -⟩ := h.of_writing hp
  refine ⟨hinv, rfl, ?_, fun q => ?_, hwhole, htaken, hflushed, hstored, fun hnone => ?_⟩
  · rw [hwriter, State.writer]
    simp [State.become, Process.writer, hlock]
  · by_cases hq : q = p
    · subst hq
      simp [State.become, Process.writer, hlock]
    · simp only [State.become, Function.update_of_ne hq]
      exact h.alone q
  · exact absurd (hlock.symm.trans hnone) (Option.some_ne_none p)

variable (config)

/-- An append of the lock holder is an append of the single writer. -/
theorem append (h : Follows s d) (hp : s.processes p = .writing w) (payload : Payload) :
    Follows (s.append p w payload.bytes) (d.step config (.append payload)) := by
  obtain ⟨-, hwriter⟩ := h.of_writing hp
  obtain ⟨hlayout, -⟩ := h.inv.layout hwriter
  have hinv := h.inv.append hwriter payload.ne_nil
  have hwhole := h.inv.whole_append hwriter payload.ne_nil h.whole
  have hstored := h.stored.trans (h.inv.stored_append hwriter payload.bytes).sublist
  have hroom := Disk.log_roomMade hlayout payload.bytes
  rw [Disk.step_append config hwriter]
  unfold State.append
  rw [← h.dir]
  obtain ⟨hmax, happend⟩ | happend := w.append_cases payload.bytes d.dir
  · have hdisk : d.append w payload.bytes = ((d.roomMade w payload.bytes).buffered
        (w.makeRoom payload.bytes d.dir).1 payload.bytes, true) := by
      simp only [Disk.append, happend]
      rfl
    have hlog : ((d.roomMade w payload.bytes).buffered
        (w.makeRoom payload.bytes d.dir).1 payload.bytes).log = d.log ++ [payload.bytes] := by
      rw [← hroom]
      exact Disk.log_buffered (hlayout.makeRoom payload.bytes) ⟨payload.ne_nil, hmax⟩
    rw [hdisk] at hinv hwhole hstored ⊢
    rw [happend]
    refine h.writes hp hinv rfl hwhole ?_ ?_ hstored
    · rw [hlog]
      exact h.taken.append (List.Sublist.refl _)
    · rw [hlog, ← List.append_assoc]
      exact h.flushed.append (List.Sublist.refl _)
  · have hdisk : d.append w payload.bytes = (d.roomMade w payload.bytes, false) := by
      simp only [Disk.append, happend]
      rfl
    rw [hdisk] at hinv hwhole hstored ⊢
    rw [happend]
    exact h.writes hp hinv rfl hwhole (hroom ▸ h.taken) (hroom ▸ h.flushed) hstored

/-- A partial write of the lock holder is one of the single writer. -/
theorem spill (h : Follows s d) (hp : s.processes p = .writing w) (k : Nat) :
    Follows (s.spill p w k) (d.step config (.spill k)) := by
  obtain ⟨-, hwriter⟩ := h.of_writing hp
  have hinv := h.inv.spill config k
  have hwhole := h.inv.whole_spill config hwriter k h.whole
  have hstored := h.stored.trans (Disk.Inv.stored_spill (d := d) config k).sublist
  have hlog := h.inv.log_spill config k
  rw [Disk.step_spill config hwriter] at hinv hwhole hstored hlog ⊢
  unfold State.spill
  rw [← h.dir]
  exact h.writes hp hinv rfl hwhole (hlog ▸ h.taken) (hlog ▸ h.flushed) hstored

/-- A flush of the lock holder is one of the single writer. -/
theorem flush (h : Follows s d) (hp : s.processes p = .writing w) :
    Follows (s.flush p w) (d.step config .flush) := by
  obtain ⟨-, hwriter⟩ := h.of_writing hp
  have hlog : (d.step config .flush).log = d.log := by
    rw [Disk.step_flush config hwriter]
    exact h.inv.log_spill config _
  have hstored := h.inv.stored_flush config
  rw [Disk.step_flush config hwriter] at hlog hstored ⊢
  have hinv := h.inv.spill config w.active.buffer.length
  have hwhole := h.inv.whole_spill config hwriter w.active.buffer.length h.whole
  rw [Disk.step_spill config hwriter] at hinv hwhole hstored hlog ⊢
  unfold State.flush WalWriter.flush Segment.flush
  rw [← h.dir]
  refine h.writes hp hinv rfl hwhole (hlog ▸ h.taken) ?_ ?_
  · rw [List.append_nil, hlog]
    exact h.flushed
  · rw [hstored]
    exact h.flushed

/-- The holder of the lock ends without a flush. -/
theorem release (h : Follows s d) (hp : s.processes p = .writing w) :
    Follows (s.release p) (d.killed config w) := by
  obtain ⟨hlock, hwriter⟩ := h.of_writing hp
  have hlog := h.inv.killed_log config hwriter
  have hclosed : (d.killed config w).writer = none := by
    rw [Disk.killed, Disk.step_crash config hwriter]
  have hfree : (s.release p).lock = none := if_pos hlock
  refine ⟨h.inv.crash config _, h.inv.killed_dir config hwriter |>.trans h.dir, ?_, fun q => ?_, ?_,
    ?_, ?_, ?_, fun _ => rfl⟩
  · rw [hclosed, State.writer, hfree, Option.bind_none]
  · rw [hfree]
    by_cases hq : q = p
    · subst hq
      simp [State.release, State.become, Process.writer]
    · have hother : ¬ (s.processes q).writer.isSome = true := by
        rw [h.alone q, hlock]
        exact fun heq => hq (Option.some.inj heq).symm
      simpa [State.release, State.become, Function.update_of_ne hq] using hother
  · unfold Disk.Whole
    rw [h.inv.killed_dir config hwriter]
    exact h.whole
  · rw [hlog]
    exact h.inv.stored_sublist.trans h.taken
  · rw [hlog]
    change (s.flushed ++ []).Sublist _
    rw [List.append_nil]
    exact h.stored
  · rw [Disk.stored_of_none hclosed, hlog]
    exact h.stored

/-- **Every step** of a process is some steps of the one writer, or none. -/
theorem step (h : Follows s d) (e : Event) :
    ∃ es, Follows (Failover.step config s e) (Runs.run (Disk.step config) d es) := by
  have hopen : ∀ p standby, (s.processes p).writer = none →
      ∃ es, Follows (s.tryOpen config p standby) (Runs.run (Disk.step config) d es) := by
    intro p standby hp
    cases hlock : s.lock with
    | none => exact ⟨[.openWriter], h.takesOver hlock standby⟩
    | some q => exact ⟨[], h.locked hp standby hlock⟩
  cases e with
  | start p standby =>
      dsimp only [Failover.step]
      split
      · rename_i hp
        exact hopen p standby (by rw [hp]; rfl)
      · exact ⟨[], h⟩
  | poll p =>
      dsimp only [Failover.step]
      split
      · rename_i hp
        exact hopen p true (by rw [hp]; rfl)
      · exact ⟨[], h⟩
  | cancel p =>
      dsimp only [Failover.step]
      split
      · rename_i hp
        exact ⟨[], h.become (by rw [hp]; rfl) rfl⟩
      · exact ⟨[], h⟩
  | append p payload =>
      dsimp only [Failover.step]
      split
      · rename_i hp
        exact ⟨[.append payload], h.append config hp payload⟩
      · exact ⟨[], h⟩
  | spill p k =>
      dsimp only [Failover.step]
      split
      · rename_i hp
        exact ⟨[.spill k], h.spill config hp k⟩
      · exact ⟨[], h⟩
  | flush p =>
      dsimp only [Failover.step]
      split
      · rename_i hp
        exact ⟨[.flush], h.flush config hp⟩
      · exact ⟨[], h⟩
  | exit p =>
      dsimp only [Failover.step]
      split
      · rename_i w hp
        have hflush := h.flush config hp
        have hwriting : (s.flush p w).processes p = .writing (w.flush s.dir).1 :=
          Function.update_self _ _ _
        exact ⟨[.flush, .crash _], hflush.release config hwriting⟩
      · exact ⟨[], h⟩
  | kill p =>
      dsimp only [Failover.step]
      split
      · rename_i w hp
        exact ⟨[.crash _], h.release config hp⟩
      · rename_i hp
        exact ⟨[], h.become (by rw [hp]; rfl) rfl⟩
      · exact ⟨[], h⟩

end Follows

/-- **Every run of many processes is a run of one writer** that is killed and reopened. -/
theorem follows_run (config : WalConfig) (events : List Event) :
    ∃ es, Follows (Runs.run (step config) .init events) (Runs.run (Disk.step config) .init es) := by
  have hstep : ∀ s e, (∃ es, Follows s (Runs.run (Disk.step config) .init es)) →
      ∃ es, Follows (step config s e) (Runs.run (Disk.step config) .init es) := by
    rintro s e ⟨es, h⟩
    obtain ⟨more, hmore⟩ := h.step config e
    exact ⟨es ++ more, by rwa [Runs.run_append]⟩
  exact Runs.run_induction hstep ⟨[], .init⟩ events

/-! ## The log -/

/-- The next writer finds the log as it is. -/
theorem recoverable_of_closed {d : Disk} (h : d.Inv) (config : WalConfig) (hwhole : d.Whole)
    (hwriter : d.writer = none) : recoverable config d.dir = d.log := by
  have hinv := h.openWriter config
  have hopened := h.whole_openWriter config hwriter hwhole
  have hlog := h.log_openWriter config
  rw [Disk.step_openWriter config hwriter] at hinv hopened hlog
  obtain ⟨hlayout, -⟩ := hinv.layout rfl
  have hscan := OffsetOrder.scan_of_flushed hlayout ((hinv.whole_of_some rfl).mp hopened)
    (Disk.openDir_buffer config d.dir)
  rw [recoverable, Dir.payloads, hscan, List.filterMap_map, ← hlog, Disk.log_of_layout hlayout,
    appended, earlier, List.filterMap_flatMap]
  apply List.flatMap_congr
  intro id _
  have hpayload : (fun s : Scanned => s.payload) ∘ (fun x : WalPosition × Bytes =>
      (⟨x.1, some x.2⟩ : Scanned)) = fun x => some x.2 := rfl
  rw [hpayload, List.filterMap_eq_map', map_snd_endings]

/-- What recovery would find is what the single writer has stored. -/
theorem Follows.recoverable_eq {s : State} {d : Disk} (h : Follows s d) (config : WalConfig) :
    recoverable config s.dir = d.stored := by
  rw [← h.dir]
  cases hwriter : d.writer with
  | none =>
      rw [Disk.stored_of_none hwriter]
      exact recoverable_of_closed h.inv config h.whole hwriter
  | some w =>
      -- what is found is what is found after the end of the writer
      have hdir := h.inv.killed_dir config hwriter
      have hwhole : (d.killed config w).Whole := by
        unfold Disk.Whole
        rw [hdir]
        exact h.whole
      have hclosed : (d.killed config w).writer = none := by
        rw [Disk.killed, Disk.step_crash config hwriter]
      rw [← h.inv.killed_log config hwriter, ← hdir]
      exact recoverable_of_closed (h.inv.crash config _) config hwhole hclosed

/-- What replicas that stand by for each other make of the common directory. -/
structure HandedOver (config : WalConfig) (s : State) : Prop where
  single : ∃ es, (Runs.run (Disk.step config) .init es).dir = s.dir ∧
    (Runs.run (Disk.step config) .init es).writer = s.writer
  alone : ∀ p, (s.processes p).writer.isSome = true ↔ s.lock = some p
  flushed : s.flushed.Sublist (recoverable config s.dir)
  taken : (recoverable config s.dir).Sublist s.taken

/-- **A handover keeps the log.**  Whichever processes start, stand by, write, exit or are
killed, in any order: only the holder of the lock has a writer, the directory is that of a
single writer, and at any time the next process to open it finds, in order, every record that
was flushed and no record that was not taken. -/
theorem handover_keeps_the_log (config : WalConfig) (events : List Event) :
    HandedOver config (Runs.run (step config) .init events) := by
  obtain ⟨es, h⟩ := follows_run config events
  refine ⟨⟨es, h.dir, h.writer⟩, h.alone, ?_, ?_⟩
  · rw [h.recoverable_eq config]
    exact h.stored
  · rw [h.recoverable_eq config]
    exact h.inv.stored_sublist.trans h.taken

end Failover

end PolyBook
