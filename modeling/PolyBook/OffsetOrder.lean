import Mathlib.Data.List.Sort
import PolyBook.Library.Runs
import PolyBook.Recovery
import PolyBook.Wal.PowerLoss

/-!
# The order of the global offsets

`global_offset` adds the segment id times the segment size to the offset in the
segment.  A segment may end past its size by one frame, as the frame that does not
fit goes into a segment of its own whole.  Where such a segment reaches past the
first frame of the next one, the offset goes back: `faithful_iff` shows that this is
the only way.
-/

namespace PolyBook

namespace OffsetOrder

open Wal

/-- A payload the log takes. -/
abbrev Accepted : Type := { payload : Bytes // Recordable payload }

/-- What a writer does, and its replacement by another on the same directory. -/
inductive Event where
  | append (payload : Accepted)
  | spill (k : Nat)
  | flush
  | reopen

/-- The record that the event appends. -/
def Event.record : Event → Option Bytes
  | .append payload => some payload.1
  | _ => none

theorem toList_eq (dir : Dir) : dir.toList = dir.keys.map fun id => (id, dir.contents id) := by
  rw [← Std.ExtTreeMap.map_fst_toList_eq_keys, List.map_map]
  refine (List.map_id _).symm.trans (List.map_congr_left fun e he => ?_)
  have hfile := Std.ExtTreeMap.mem_toList_iff_getElem?_eq_some.mp he
  simp [Dir.contents_of_some hfile]

section

variable [Crc32c]

/-- A writer and its directory. -/
def start (config : WalConfig) : WalWriter × Dir := WalWriter.openDir config ∅

/-- One event of the writer. -/
def step (config : WalConfig) (s : WalWriter × Dir) : Event → WalWriter × Dir
  | .append payload => ((s.1.append payload.1 s.2).1, (s.1.append payload.1 s.2).2.1)
  | .spill k => s.1.spill k s.2
  | .flush => s.1.flush s.2
  -- what the old writer buffers is written when it goes
  | .reopen => WalWriter.openDir config (s.1.flush s.2).2

/-- The append moves the global offset on. -/
def Increases (config : WalConfig) (s : WalWriter × Dir) : Event → Prop
  | .append payload =>
      s.1.globalOffset < (step config s (.append payload)).1.globalOffset
  | _ => True

/-- A segment that the append closes ends before the place, one segment size on, at
which the new frame ends. -/
def RoomLeft (s : WalWriter × Dir) : Event → Prop
  | .append payload => s.1.rotates payload.1 = true →
      s.1.active.writeOffset < s.1.config.segmentSize + (headerSize + payload.1.length)
  | _ => True

instance (s : WalWriter × Dir) : (e : Event) → Decidable (RoomLeft s e)
  | .append payload =>
      inferInstanceAs (Decidable (s.1.rotates payload.1 = true →
        s.1.active.writeOffset < s.1.config.segmentSize + (headerSize + payload.1.length)))
  | .spill _ | .flush | .reopen => isTrue trivial

/-- What hydration reads once everything is flushed: the records, each with the
global offset computed after reading it. -/
def hydrated (config : WalConfig) (s : WalWriter × Dir) : List (Nat × Option Bytes) :=
  (WalDirectory.mk (s.1.flush s.2).2 none).frames.map fun f =>
    (f.position.globalOffset config, f.payload)

/-- **The global offset is a faithful linear order**: every append moves it on, and
the records are read in append order with increasing offsets. -/
def Faithful (config : WalConfig) (events : List Event) : Prop :=
  Runs.Meets (step config) (Increases config) (start config) events ∧
    (hydrated config (Runs.run (step config) (start config) events)).map Prod.snd =
      (events.filterMap Event.record).map some ∧
    (hydrated config (Runs.run (step config) (start config) events)).Pairwise fun x y =>
      x.1 < y.1

/-! ## What is on disk -/

variable {dir : Dir} {w : WalWriter} {records : Nat → List Bytes}

/-- A log without gaps whose writer buffers nothing is read as it was appended. -/
theorem scan_of_flushed (h : Layout dir w records) (hcomplete : Disk.Complete dir w.active.id)
    (hbuffer : w.active.buffer = []) :
    dir.scan = (appended w records).map fun x => ⟨x.1, some x.2⟩ := by
  have hkeys : dir.keys = List.range (w.active.id + 1) := by
    have hsorted : dir.keys.Pairwise (· < ·) :=
      Std.ExtTreeMap.ordered_keys.imp Nat.compare_eq_lt.mp
    apply hsorted.eq_of_mem_iff List.pairwise_lt_range
    intro id
    rw [List.mem_range]
    constructor
    · intro hid
      obtain ⟨file, hfile⟩ := Dir.getElem?_of_mem_keys hid
      exact Nat.lt_succ_of_le (h.bound id file hfile)
    · intro hid
      obtain ⟨file, hfile⟩ := hcomplete id (Nat.le_of_lt_succ hid)
      exact Dir.mem_keys_of_getElem? hfile
  rw [Dir.scan, Dir.framesOf, toList_eq, hkeys, List.flatMap_map, appended, List.map_flatMap]
  apply List.flatMap_congr
  intro id hid
  obtain ⟨file, hfile⟩ := hcomplete id (Nat.le_of_lt_succ (List.mem_range.mp hid))
  have hstored : file = Framing.frames frame (records id) := by
    have hstored := h.stored id file hfile
    unfold WalWriter.pending at hstored
    split at hstored
    · rwa [hbuffer, List.append_nil] at hstored
    · rwa [List.append_nil] at hstored
  have hreads := h.reads hfile
  rw [hstored, Framing.fitting_frames] at hreads
  rw [Dir.contents_of_some hfile, hstored]
  exact hreads.framesFrom_eq id

/-! ## Runs -/

/-- The log is laid out without gaps and holds some records. -/
structure Holds (config : WalConfig) (s : WalWriter × Dir) (records : Nat → List Bytes) :
    Prop where
  layout : Layout s.2 s.1 records
  complete : Disk.Complete s.2 s.1.active.id
  config_eq : s.1.config = config

/-- The records in the log have increasing global offsets, up to the writer's. -/
structure Ascending (config : WalConfig) (s : WalWriter × Dir) (records : Nat → List Bytes) :
    Prop where
  pairwise : (appended s.1 records).Pairwise fun x y =>
    x.1.globalOffset config < y.1.globalOffset config
  le : ∀ x ∈ appended s.1 records, x.1.globalOffset config ≤ s.1.globalOffset

/-- The writer has only moved bytes or gone on to an empty segment. -/
theorem appended_makeRoom (h : Layout dir w records) (payload : Bytes) :
    appended (w.makeRoom payload dir).1 records = appended w records := by
  rcases h.makeRoom_active payload with hactive | hactive
  · rw [appended, appended, hactive]
  · rw [appended, hactive, List.range_succ, List.flatMap_append,
      List.flatMap_singleton, h.unwritten _ (Nat.lt_succ_self _)]
    exact List.append_nil _

/-- The record that is buffered comes last, with the writer's new position. -/
theorem appended_buffered (h : Layout dir w records) (payload : Bytes) :
    appended (w.buffered payload) (recordIn records w.active.id payload) =
      appended w records ++ [(⟨w.active.id,
        w.active.writeOffset + (frame payload).length⟩, payload)] := by
  have hearlier : (List.range w.active.id).flatMap (fun id =>
        endings id 0 (recordIn records w.active.id payload id)) =
      (List.range w.active.id).flatMap fun id => endings id 0 (records id) := by
    apply List.flatMap_congr
    intro id hid
    rw [recordIn_ne records (Nat.ne_of_lt (List.mem_range.mp hid))]
  have hactive : (w.buffered payload).active.id = w.active.id := rfl
  rw [appended, appended, hactive, List.range_succ, List.flatMap_append, List.flatMap_append,
    List.flatMap_singleton, List.flatMap_singleton, hearlier, recordIn_same, endings_append,
    List.append_assoc, Nat.zero_add, ← h.offset, endings, endings]

/-- What an append of an accepted payload does. -/
theorem append_eq (w : WalWriter) (payload : Accepted) (dir : Dir) :
    (w.append payload.1 dir).1 = (w.makeRoom payload.1 dir).1.buffered payload.1 ∧
      (w.append payload.1 dir).2.1 = (w.makeRoom payload.1 dir).2 := by
  rw [w.append_of_le dir payload.2.le_max]
  exact ⟨rfl, rfl⟩

/-- The global offset after an append, and whether it is past the one before. -/
theorem globalOffset_append (h : Layout dir w records) (payload : Accepted) :
    (w.append payload.1 dir).1.globalOffset =
        (w.makeRoom payload.1 dir).1.globalOffset + (headerSize + payload.1.length) ∧
      (w.globalOffset < (w.append payload.1 dir).1.globalOffset ↔
        (w.rotates payload.1 = true →
          w.active.writeOffset < w.config.segmentSize + (headerSize + payload.1.length))) := by
  have hpos : 0 < headerSize := by decide
  obtain ⟨hwriter, -⟩ := append_eq w payload dir
  rw [hwriter]
  have hsum : ((w.makeRoom payload.1 dir).1.buffered payload.1).globalOffset =
      (w.makeRoom payload.1 dir).1.globalOffset + (headerSize + payload.1.length) :=
    (Nat.add_assoc _ _ _).symm
  refine ⟨hsum, ?_⟩
  rw [hsum]
  unfold WalWriter.makeRoom
  by_cases hrotates : w.rotates payload.1 = true
  · have hnext : (w.rotate dir).1.globalOffset =
        (w.active.id + 1) * w.config.segmentSize + 0 := by
      rw [← h.next]
      rfl
    rw [if_pos hrotates, hnext, WalWriter.globalOffset, Nat.add_mul]
    simp only [hrotates, true_imp_iff]
    omega
  · rw [if_neg hrotates]
    have hgrown : w.globalOffset < w.globalOffset + (headerSize + payload.1.length) := by omega
    exact ⟨fun _ hrot => absurd hrot hrotates, fun _ => hgrown⟩

theorem step_append (config : WalConfig) (s : WalWriter × Dir) (payload : Accepted) :
    step config s (.append payload) =
      ((s.1.makeRoom payload.1 s.2).1.buffered payload.1, (s.1.makeRoom payload.1 s.2).2) :=
  Prod.ext (append_eq s.1 payload s.2).1 (append_eq s.1 payload s.2).2

theorem increases_iff {config : WalConfig} {s : WalWriter × Dir} (h : Layout s.2 s.1 records)
    (e : Event) : Increases config s e ↔ RoomLeft s e := by
  cases e with
  | append payload => exact (globalOffset_append h payload).2
  | spill k => exact Iff.rfl
  | flush => exact Iff.rfl
  | reopen => exact Iff.rfl

namespace Holds

variable {config : WalConfig} {s : WalWriter × Dir}

theorem start (config : WalConfig) : Holds config (OffsetOrder.start config) fun _ => [] := by
  refine ⟨Layout.openDir config, fun id hid => ?_, WalWriter.openDir_config config ∅⟩
  obtain ⟨file, hfile⟩ := (Layout.openDir config).active
  have hzero : id = (OffsetOrder.start config).1.active.id := Nat.le_antisymm hid (Nat.zero_le id)
  rw [hzero]
  exact ⟨file, hfile⟩

theorem spill (h : Holds config s records) (k : Nat) : Holds config (s.1.spill k s.2) records :=
  ⟨h.layout.spill k, Disk.complete_spill h.complete k, h.config_eq⟩

theorem append (h : Holds config s records) (payload : Accepted) :
    Holds config (step config s (.append payload))
      (recordIn records (s.1.makeRoom payload.1 s.2).1.active.id payload.1) := by
  rw [step_append]
  exact ⟨(h.layout.makeRoom payload.1).record payload.2,
    Disk.complete_makeRoom h.layout.next h.complete payload.1,
    (s.1.makeRoom_config payload.1 s.2).trans h.config_eq⟩

theorem reopen (h : Holds config s records) :
    Holds config (step config s .reopen) records :=
  have hcrashed := Disk.crashed_flush h.layout
  ⟨hcrashed.openDir config,
    hcrashed.complete_openDir (Disk.complete_spill h.complete _) config,
    WalWriter.openDir_config config _⟩

/-- What hydration reads is what has been appended. -/
theorem hydrated_eq (h : Holds config s records) :
    hydrated config s =
      (appended s.1 records).map fun x => (x.1.globalOffset config, some x.2) := by
  have hscan := scan_of_flushed h.layout.flush
    (Disk.complete_spill h.complete s.1.active.buffer.length) List.drop_length
  unfold hydrated
  rw [(frames_of_layout h.layout.flush).1, hscan, List.map_map]
  rfl

end Holds

/-- What a step adds to the records, at the end of the log. -/
theorem holds_step {config : WalConfig} {s : WalWriter × Dir} (h : Holds config s records)
    (e : Event) :
    ∃ records', Holds config (step config s e) records' ∧
      ∃ added, appended (step config s e).1 records' = appended s.1 records ++ added ∧
        added.map Prod.snd = e.record.toList ∧
        (∀ x ∈ added, x.1.globalOffset config = (step config s e).1.globalOffset) ∧
        (added = [] → (step config s e).1.globalOffset = s.1.globalOffset) := by
  cases e with
  | append payload =>
      refine ⟨_, h.append payload, ?_⟩
      have hroom := h.layout.makeRoom payload.1
      have hconfig := (s.1.makeRoom_config payload.1 s.2).trans h.config_eq
      refine ⟨[(⟨(s.1.makeRoom payload.1 s.2).1.active.id,
        (s.1.makeRoom payload.1 s.2).1.active.writeOffset + (frame payload.1).length⟩,
          payload.1)], ?_, rfl, ?_, fun hnil => absurd hnil (List.cons_ne_nil _ _)⟩
      · rw [step_append, appended_buffered hroom, appended_makeRoom h.layout]
      · intro x hx
        obtain rfl := List.mem_singleton.mp hx
        rw [step_append, frame_length, WalPosition.globalOffset, WalWriter.globalOffset, ← hconfig]
        rfl
  | spill k => exact ⟨records, h.spill k, [], (List.append_nil _).symm, rfl, by simp, fun _ => rfl⟩
  | flush =>
      exact ⟨records, h.spill _, [], (List.append_nil _).symm, rfl, by simp, fun _ => rfl⟩
  | reopen =>
      obtain ⟨hwriter, -⟩ := (Disk.crashed_flush h.layout).openDir_eq config
      refine ⟨records, h.reopen, [], ?_, rfl, by simp, fun _ => ?_⟩
      · unfold step appended
        rw [hwriter, List.append_nil]
      · unfold step WalWriter.globalOffset
        rw [hwriter, ← h.config_eq, h.layout.offset]

/-- The order is kept by steps that move the offset on. -/
theorem ascending_step {config : WalConfig} {s : WalWriter × Dir} {e : Event}
    {records' : Nat → List Bytes} {added : List (WalPosition × Bytes)}
    (h : Ascending config s records)
    (hadded : appended (step config s e).1 records' = appended s.1 records ++ added)
    (hrecord : added.map Prod.snd = e.record.toList)
    (hoffset : ∀ x ∈ added, x.1.globalOffset config = (step config s e).1.globalOffset)
    (hsame : added = [] → (step config s e).1.globalOffset = s.1.globalOffset)
    (hincreases : Increases config s e) : Ascending config (step config s e) records' := by
  have hlt : added ≠ [] → s.1.globalOffset < (step config s e).1.globalOffset := by
    intro hne
    cases e with
    | append payload => exact hincreases
    | spill k => exact absurd (List.map_eq_nil_iff.mp hrecord) hne
    | flush => exact absurd (List.map_eq_nil_iff.mp hrecord) hne
    | reopen => exact absurd (List.map_eq_nil_iff.mp hrecord) hne
  have hshort : added.length ≤ 1 := by
    have hlength := congrArg List.length hrecord
    rw [List.length_map] at hlength
    have hle := Option.length_toList_le (o := e.record)
    omega
  refine ⟨?_, fun x hx => ?_⟩
  · rw [hadded, List.pairwise_append]
    refine ⟨h.pairwise, ?_, fun x hx y hy => ?_⟩
    · rcases added with - | ⟨x, rest⟩
      · exact List.Pairwise.nil
      · obtain rfl : rest = [] := by simpa using hshort
        exact List.pairwise_singleton _ _
    · rw [hoffset y hy]
      exact Nat.lt_of_le_of_lt (h.le x hx) (hlt (List.ne_nil_of_mem hy))
  · rw [hadded] at hx
    rcases List.mem_append.mp hx with hx | hx
    · have hle := h.le x hx
      by_cases hnil : added = []
      · rw [hsame hnil]
        exact hle
      · exact Nat.le_trans hle (Nat.le_of_lt (hlt hnil))
    · exact Nat.le_of_eq (hoffset x hx)

/-- The records of a run, and their order as long as every append moves on. -/
theorem holds_run {config : WalConfig} {s : WalWriter × Dir} (h : Holds config s records)
    (hascending : Ascending config s records) (events : List Event) :
    ∃ records', Holds config (Runs.run (step config) s events) records' ∧
      (appended (Runs.run (step config) s events).1 records').map Prod.snd =
        (appended s.1 records).map Prod.snd ++ events.filterMap Event.record ∧
      (Runs.Meets (step config) (Increases config) s events →
        Ascending config (Runs.run (step config) s events) records') := by
  suffices hrun : ∀ (s : WalWriter × Dir) (records : Nat → List Bytes), Holds config s records →
      ∃ records', Holds config (Runs.run (step config) s events) records' ∧
        (appended (Runs.run (step config) s events).1 records').map Prod.snd =
          (appended s.1 records).map Prod.snd ++ events.filterMap Event.record ∧
        (Ascending config s records → Runs.Meets (step config) (Increases config) s events →
          Ascending config (Runs.run (step config) s events) records') by
    obtain ⟨records', hholds, hrecords, hkept⟩ := hrun s records h
    exact ⟨records', hholds, hrecords, hkept hascending⟩
  intro s records h
  induction events generalizing s records with
  | nil => exact ⟨records, h, (List.append_nil _).symm, fun hascending _ => hascending⟩
  | cons e events ih =>
      obtain ⟨next, hnext, added, hadded, hrecord, hoffset, hsame⟩ := holds_step h e
      obtain ⟨records', hholds, hrecords, hkept⟩ := ih (step config s e) next hnext
      refine ⟨records', hholds, ?_, fun hascending hmeets => ?_⟩
      · have hone : (e :: events).filterMap Event.record =
            e.record.toList ++ events.filterMap Event.record := by
          cases hcase : e.record with
          | none => rw [List.filterMap_cons_none hcase, Option.toList_none, List.nil_append]
          | some r => rw [List.filterMap_cons_some hcase, Option.toList_some, List.singleton_append]
        rw [hone, ← List.append_assoc, ← hrecord, ← List.map_append, ← hadded]
        exact hrecords
      · exact hkept (ascending_step hascending hadded hrecord hoffset hsame hmeets.1) hmeets.2

/-- Which appends move the offset on, over a run. -/
theorem meets_increases_iff (config : WalConfig) (events : List Event) :
    Runs.Meets (step config) (Increases config) (start config) events ↔
      Runs.Meets (step config) RoomLeft (start config) events := by
  have hagree : ∀ s e, (∃ records, Holds config s records) →
      (Increases config s e ↔ RoomLeft s e) := by
    rintro s e ⟨records, hholds⟩
    exact increases_iff hholds.layout e
  have hkept : ∀ s e, (∃ records, Holds config s records) → Increases config s e →
      ∃ records, Holds config (step config s e) records := by
    rintro s e ⟨records, hholds⟩ -
    obtain ⟨records', hholds', -⟩ := holds_step hholds e
    exact ⟨records', hholds'⟩
  exact Runs.meets_congr hagree hkept ⟨_, Holds.start config⟩ events

/-- **When the global offset is a faithful order**: no segment that an append closes
reaches as far as that append's frame will, one segment size on. -/
theorem faithful_iff (config : WalConfig) (events : List Event) :
    Faithful config events ↔ Runs.Meets (step config) RoomLeft (start config) events := by
  have hstart : appended (start config).1 (fun _ => []) = [] :=
    List.flatMap_eq_nil_iff.mpr fun _ _ => rfl
  have hempty : Ascending config (start config) fun _ => [] := by
    refine ⟨?_, fun x hx => ?_⟩
    · rw [hstart]
      exact List.Pairwise.nil
    · rw [hstart] at hx
      cases hx
  obtain ⟨records, hholds, hrecords, hascending⟩ :=
    holds_run (Holds.start config) hempty events
  rw [hstart, List.map_nil, List.nil_append] at hrecords
  constructor
  · intro hfaithful
    exact (meets_increases_iff config events).mp hfaithful.1
  · intro hroom
    have hincreases := (meets_increases_iff config events).mpr hroom
    refine ⟨hincreases, ?_, ?_⟩
    · rw [hholds.hydrated_eq, List.map_map, ← hrecords, List.map_map]
      rfl
    · rw [hholds.hydrated_eq, List.pairwise_map]
      exact (hascending hincreases).pairwise

end

namespace Sample

/-- Segments of twenty bytes. -/
def config : WalConfig := ⟨20, 16, 1000⟩

/-- A record of forty bytes and then one of two. -/
def events : List Event :=
  [.append ⟨List.replicate 40 1, by decide⟩, .append ⟨[2, 2], by decide⟩]

end Sample

/-- The frame of 48 bytes reaches past the short frame in the next segment. -/
theorem long_frame_reverses_offsets : ¬ Faithful Sample.config Sample.events := by
  intro hfaithful
  have hlater : Increases Sample.config
      (step Sample.config (start Sample.config) (.append ⟨List.replicate 40 1, by decide⟩))
      (.append ⟨[2, 2], by decide⟩) := hfaithful.1.2.1
  revert hlater
  unfold Increases
  decide +kernel

end OffsetOrder

end PolyBook
