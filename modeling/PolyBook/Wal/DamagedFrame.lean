import PolyBook.Wal.StrictScan
import PolyBook.Library.Runs
import PolyBook.Wal.Layout

/-!
# A damaged frame and a restart

A frame of the active segment is damaged in place.  A strict scan reports it; the
writer that opens the directory takes it for the torn tail of a crash and cuts
the segment there, the whole frames after it included.  From then on the strict
scan has nothing to report.

`damageDetected_iff`: the damage is noticed after a restart only if the scan never
comes that far, since a segment before the active one is missing or not whole.
-/

namespace PolyBook.Wal

/-- What a writer does after it has opened the directory. -/
inductive WriterOp where
  | append (payload : Bytes)
  | spill (k : Nat)
  | flush

/-! ## The writer leaves the earlier segments alone -/

/-- The segments before `bound` are those of `dir₀`, and the writer is at or
after `bound`. -/
structure Resumed (dir₀ : Dir) (bound : Nat) (s : WalWriter × Dir) : Prop where
  next : s.1.active.id < s.1.nextSegmentId
  le_active : bound ≤ s.1.active.id
  earlier : ∀ id < bound, s.2[id]? = dir₀[id]?
  present : bound ∈ s.2.keys

namespace Resumed

variable {dir₀ : Dir} {bound : Nat} {w : WalWriter} {dir : Dir}

theorem spill (h : Resumed dir₀ bound (w, dir)) (k : Nat) :
    Resumed dir₀ bound (w.spill k dir) := by
  have hbound : bound ≤ w.active.id := h.le_active
  refine ⟨h.next, hbound, fun id hid => ?_, ?_⟩
  · rw [WalWriter.getElem?_spill, if_neg (by omega)]
    exact h.earlier id hid
  · rw [TreeMapLookup.mem_keys_iff, WalWriter.getElem?_spill]
    split
    · rfl
    · exact (TreeMapLookup.mem_keys_iff _ _).mp h.present

theorem rotate (h : Resumed dir₀ bound (w, dir)) : Resumed dir₀ bound (w.rotate dir) := by
  have hflush : Resumed dir₀ bound (w.flush dir) := h.spill w.active.buffer.length
  have hnext : w.active.id < w.nextSegmentId := h.next
  have hbound : bound ≤ w.active.id := h.le_active
  refine ⟨Nat.lt_succ_self _, Nat.le_trans hbound (Nat.le_of_lt hnext), fun id hid => ?_, ?_⟩
  · rw [WalWriter.getElem?_rotate, if_neg (by omega)]
    exact hflush.earlier id hid
  · rw [TreeMapLookup.mem_keys_iff, WalWriter.getElem?_rotate, if_neg (by omega)]
    exact (TreeMapLookup.mem_keys_iff _ _).mp hflush.present

end Resumed

section

variable [Crc32c]

/-- One operation of the writer on its directory. -/
def WriterOp.run (s : WalWriter × Dir) : WriterOp → WalWriter × Dir
  | .append payload =>
      let (w, dir, _) := s.1.append payload s.2
      (w, dir)
  | .spill k => s.1.spill k s.2
  | .flush => s.1.flush s.2

namespace Resumed

variable {dir₀ : Dir} {bound : Nat} {w : WalWriter} {dir : Dir}

theorem append (h : Resumed dir₀ bound (w, dir)) (payload : Bytes) :
    Resumed dir₀ bound ((w.append payload dir).1, (w.append payload dir).2.1) := by
  have hroom : Resumed dir₀ bound (w.makeRoom payload dir) := by
    unfold WalWriter.makeRoom
    split
    · exact h.rotate
    · exact h
  obtain ⟨_, happend⟩ | happend := w.append_cases payload dir
  · rw [happend]
    exact ⟨hroom.next, hroom.le_active, hroom.earlier, hroom.present⟩
  · rw [happend]
    exact hroom

theorem run {s : WalWriter × Dir} (h : Resumed dir₀ bound s) (ops : List WriterOp) :
    Resumed dir₀ bound (Runs.run WriterOp.run s ops) := by
  induction ops generalizing s with
  | nil => exact h
  | cons op ops ih =>
      refine ih ?_
      cases op with
      | append payload => exact h.append payload
      | spill k => exact h.spill k
      | flush => exact h.spill s.1.active.buffer.length

/-- What is clean now was clean before. -/
theorem cleanBelow {s : WalWriter × Dir} (h : Resumed dir₀ bound s)
    (hlast : ∀ id ∈ dir₀.keys, id ≤ bound) (hpresent : bound ∈ dir₀.keys) :
    s.2.CleanBelow bound ↔ dir₀.CleanBelow bound := by
  have hkeys : ∀ id ≤ bound, id ∈ s.2.keys ↔ id ∈ dir₀.keys := by
    intro id hid
    obtain hlt | rfl := Nat.lt_or_eq_of_le hid
    · rw [TreeMapLookup.mem_keys_iff, TreeMapLookup.mem_keys_iff, h.earlier id hlt]
    · exact ⟨fun _ => hpresent, fun _ => h.present⟩
  constructor
  · intro hclean id file hfile hid
    obtain ⟨hwhole, hgap⟩ := hclean id file (by rwa [h.earlier id hid]) hid
    refine ⟨hwhole, fun nextId hmem hnext => ?_⟩
    have hle := hlast nextId hmem
    refine hgap nextId ((hkeys nextId hle).mpr hmem) ⟨hnext.later, fun other hother => ?_⟩
    by_cases hlt : other ≤ bound
    · exact hnext.nearest other ((hkeys other hlt).mp hother)
    · omega
  · intro hclean id file hfile hid
    obtain ⟨hwhole, hgap⟩ := hclean id file (by rwa [← h.earlier id hid]) hid
    refine ⟨hwhole, fun nextId hmem hnext => ?_⟩
    have hle : nextId ≤ bound := by
      obtain hle | hle := hnext.nearest bound h.present
      · omega
      · exact hle
    refine hgap nextId ((hkeys nextId hle).mp hmem) ⟨hnext.later, fun other hother => ?_⟩
    exact hnext.nearest other ((hkeys other (hlast other hother)).mpr hother)

end Resumed

/-! ## The damaged log -/

/-- A log whose active segment holds whole frames, and the bytes that take the
place of one of them: the same length field, and a checksum that does not match. -/
structure DamagedLog where
  dir : Dir
  activeId : Nat
  before : List Bytes
  record : Bytes
  after : List Bytes
  damaged : Bytes
  last : dir.keys.getLast? = some activeId
  active : dir[activeId]? = some (Framing.frames frame (before ++ record :: after))
  recordable : ∀ r ∈ before ++ record :: after, Recordable r
  length_eq : damaged.length = (frame record).length
  lengthField : damaged.take 4 = (frame record).take 4
  mismatch : u32FromLeBytes ((damaged.drop 4).take 4) ≠
    frameCrc (UInt32.ofNat record.length) (damaged.drop headerSize)

namespace DamagedLog

variable (log : DamagedLog)

/-- The active segment's file after the damage. -/
def damagedFile : Bytes :=
  Framing.frames frame log.before ++ (log.damaged ++ Framing.frames frame log.after)

/-- The directory with the damaged active file. -/
def damagedDir : Dir := log.dir.insert log.activeId log.damagedFile

/-- The damaged log, opened by a writer that then goes on. -/
def restarted (config : WalConfig) (ops : List WriterOp) : WalWriter × Dir :=
  Runs.run WriterOp.run (WalWriter.openDir config log.damagedDir) ops

/-- Whatever the writer does, a strict scan reports an error or returns every
record that was in the log. -/
def DamageDetected (config : WalConfig) (consumerName : String) : Prop :=
  ∀ ops, match WalReader.scanStrict consumerName (log.restarted config ops).2 with
    | .ok returned => ∀ s ∈ log.dir.scan, s.payload.isSome = true → s ∈ returned
    | .error _ => True

end DamagedLog

/-! ## What the writer makes of the damage -/

namespace DamagedLog

variable (log : DamagedLog)

theorem recordable_record : Recordable log.record :=
  log.recordable _ (List.mem_append_right _ List.mem_cons_self)

/-- The damaged frame is not read. -/
theorem readRecordAt_damaged :
    ∃ e, readRecordAt log.damagedFile (Framing.frames frame log.before).length log.activeId =
      .error e := by
  have hok := log.recordable_record
  have hlength := log.length_eq
  rw [frame_length] at hlength
  have hdrop : log.damagedFile.drop (Framing.frames frame log.before).length =
      log.damaged ++ Framing.frames frame log.after := List.drop_left
  have hdrop_add : ∀ n ≤ log.damaged.length,
      log.damagedFile.drop ((Framing.frames frame log.before).length + n) =
        log.damaged.drop n ++ Framing.frames frame log.after := by
    intro n hn
    rw [← List.drop_drop, hdrop, List.drop_append_of_le_length hn]
  have hfile : log.damagedFile.length = (Framing.frames frame log.before).length +
      (headerSize + log.record.length + (Framing.frames frame log.after).length) := by
    rw [damagedFile, List.length_append, List.length_append, hlength]
  have hheader : headerSize = 8 := rfl
  have hlen : recordLen log.damagedFile (Framing.frames frame log.before).length =
      log.record.length := by
    rw [recordLen, hdrop, List.take_append_of_le_length (by omega), log.lengthField, frame,
      List.append_assoc, List.take_left' (u32ToLeBytes_length _), u32FromLeBytes_toLeBytes,
      hok.length_toNat]
  have hne : log.record.length ≠ 0 := by simpa using hok.ne_nil
  have hcrc : (log.damagedFile.drop ((Framing.frames frame log.before).length + 4)).take 4 =
      (log.damaged.drop 4).take 4 := by
    rw [hdrop_add 4 (by omega), List.take_append_of_le_length (by rw [List.length_drop]; omega)]
  have hpayload : (log.damagedFile.drop
      ((Framing.frames frame log.before).length + headerSize)).take log.record.length =
        log.damaged.drop headerSize := by
    rw [hdrop_add headerSize (by omega), List.take_left' (by rw [List.length_drop]; omega)]
  unfold readRecordAt
  rw [if_neg (by omega), if_neg (by omega)]
  simp only [hlen, hcrc, hpayload]
  rw [if_neg hne, if_neg (by omega), if_pos log.mismatch]
  exact ⟨_, rfl⟩

/-- **Recovery cuts the segment before the damaged frame.** -/
theorem scanValidEnd_damaged :
    scanValidEnd log.damagedFile log.activeId = (Framing.frames frame log.before).length := by
  have hbefore : ∀ r ∈ log.before, Recordable r := fun r hr =>
    log.recordable r (List.mem_append_left _ hr)
  obtain ⟨e, hread⟩ := log.readRecordAt_damaged
  have hstop : scanStep log.damagedFile log.activeId (Framing.frames frame log.before).length =
      .inl (Framing.frames frame log.before).length := by
    simp only [scanStep, hread]
  have hdrop : log.damagedFile.drop 0 =
      Framing.frames frame log.before ++ (log.damaged ++ Framing.frames frame log.after) := rfl
  rw [scanValidEnd, iterate_scanStep_of_frames log.activeId hbefore hdrop, Nat.zero_add,
    Loop.iterate_of_inl _ hstop]

theorem le_activeId : ∀ id ∈ log.dir.keys, id ≤ log.activeId :=
  fun _ hid => Dir.le_getLast_of_mem log.last hid

theorem mem_keys : log.activeId ∈ log.dir.keys := Dir.mem_keys_of_getElem? log.active

/-- The damage leaves the active segment the last one. -/
theorem getLast?_damagedDir : log.damagedDir.keys.getLast? = some log.activeId := by
  refine Dir.getLast?_keys_of_bound ?_ fun id hid => ?_
  · rw [TreeMapLookup.mem_keys_iff, damagedDir, TreeMapLookup.getElem?_insert, if_pos rfl]
    rfl
  · rw [TreeMapLookup.mem_keys_iff, damagedDir, TreeMapLookup.getElem?_insert] at hid
    split at hid
    · omega
    · exact log.le_activeId id ((TreeMapLookup.mem_keys_iff _ _).mpr hid)

/-- The segment files after the restart. -/
theorem getElem?_restarted (config : WalConfig) (id : Nat) :
    (log.restarted config []).2[id]? =
      if id = log.activeId then some (Framing.frames frame log.before) else log.dir[id]? := by
  have hcontents : log.damagedDir.contents log.activeId = log.damagedFile :=
    Dir.contents_of_some (by rw [damagedDir, TreeMapLookup.getElem?_insert, if_pos rfl])
  have hshort : (Framing.frames frame log.before).length < log.damagedFile.length := by
    have hlength := log.length_eq
    have hpos := List.length_pos_of_ne_nil (frame_ne_nil log.record)
    rw [damagedFile, List.length_append, List.length_append]
    omega
  have hopen : (log.restarted config []).2 = log.damagedDir.insert log.activeId
      (log.damagedFile.take (Framing.frames frame log.before).length) := by
    simp only [restarted, Runs.run, List.foldl_nil, WalWriter.openDir, log.getLast?_damagedDir,
      Segment.openAppend, hcontents, log.scanValidEnd_damaged, if_pos hshort]
  rw [hopen, damagedFile, List.take_left, TreeMapLookup.getElem?_insert]
  split
  · rfl
  · rename_i hid
    rw [damagedDir, TreeMapLookup.getElem?_insert, if_neg hid]

/-- The writer resumes in the segment it has cut. -/
theorem resumed (config : WalConfig) (ops : List WriterOp) :
    Resumed log.dir log.activeId (log.restarted config ops) := by
  refine Resumed.run (s := log.restarted config []) ?_ ops
  have hactive : (log.restarted config []).1.active.id = log.activeId ∧
      (log.restarted config []).1.nextSegmentId = log.activeId + 1 := by
    simp only [restarted, Runs.run, List.foldl_nil, WalWriter.openDir, log.getLast?_damagedDir,
      Segment.openAppend, and_self]
  refine ⟨by omega, by omega, fun id hid => ?_, ?_⟩
  · rw [getElem?_restarted, if_neg (Nat.ne_of_lt hid)]
  · rw [TreeMapLookup.mem_keys_iff, getElem?_restarted, if_pos rfl]
    rfl

theorem recordable_before : ∀ r ∈ log.before, Recordable r :=
  fun r hr => log.recordable r (List.mem_append_left _ hr)

/-- The log is clean up to the frame it is cut at. -/
theorem clean_restarted (config : WalConfig) (h : log.dir.CleanBelow log.activeId) :
    (log.restarted config []).2.Clean := by
  have hbelow := ((log.resumed config []).cleanBelow log.le_activeId log.mem_keys).mpr h
  have hbound : ∀ id ∈ (log.restarted config []).2.keys, id ≤ log.activeId := by
    intro id hid
    rw [TreeMapLookup.mem_keys_iff, getElem?_restarted] at hid
    split at hid
    · omega
    · exact log.le_activeId id ((TreeMapLookup.mem_keys_iff _ _).mpr hid)
  intro id file hfile
  obtain hlt | rfl := Nat.lt_or_eq_of_le (hbound id (Dir.mem_keys_of_getElem? hfile))
  · exact hbelow id file hfile hlt
  · rw [getElem?_restarted, if_pos rfl] at hfile
    cases hfile
    refine ⟨scanValidEnd_eq _ log.recordable_before Framing.torn_nil (List.append_nil _).symm,
      fun nextId hmem hnext => ?_⟩
    have := hbound nextId hmem
    have := hnext.later
    omega

/-- The damaged record, where the log had it. -/
def lost : Scanned :=
  ⟨⟨log.activeId, (Framing.frames frame log.before).length + (frame log.record).length⟩,
    some log.record⟩

theorem lost_mem_scan : log.lost ∈ log.dir.scan :=
  Dir.mem_scan_of_frames log.active log.recordable

theorem lost_not_mem_scan (config : WalConfig) : log.lost ∉ (log.restarted config []).2.scan := by
  intro hmem
  obtain ⟨⟨id, file⟩, hfile, hmem⟩ := List.mem_flatMap.mp hmem
  have hid : log.activeId = id := mem_framesFrom hmem
  rw [Std.ExtTreeMap.mem_toList_iff_getElem?_eq_some, getElem?_restarted, if_pos hid.symm] at hfile
  cases hfile
  have hreads : Reads (Framing.frames frame log.before) 0 [] log.before :=
    ⟨rfl, ⟨[], Framing.torn_nil, by rw [List.append_nil, List.nil_append]⟩, log.recordable_before⟩
  rw [hreads.framesFrom_eq] at hmem
  obtain ⟨x, hx, heq⟩ := List.mem_map.mp hmem
  have hle := le_of_mem_endings hx
  have hpos := List.length_pos_of_ne_nil (frame_ne_nil log.record)
  have hoffset : x.1.offset =
      (Framing.frames frame log.before).length + (frame log.record).length :=
    congrArg (·.position.offset) heq
  omega

theorem not_detected_of_scan {config : WalConfig} {consumerName : String}
    {returned : List Scanned}
    (hscan : WalReader.scanStrict consumerName (log.restarted config []).2 = .ok returned)
    (hlost : log.lost ∉ returned) : ¬ log.DamageDetected config consumerName := by
  intro hdetected
  have hreturned := hdetected []
  rw [hscan] at hreturned
  exact hlost (hreturned log.lost log.lost_mem_scan rfl)

/-- **Damage goes unnoticed after a restart** unless a segment before the active
one is missing or does not end with a whole frame. -/
theorem damageDetected_iff (config : WalConfig) (consumerName : String) :
    log.DamageDetected config consumerName ↔ ¬ log.dir.CleanBelow log.activeId := by
  have hspec : ∀ ops, match WalReader.scanStrict consumerName (log.restarted config ops).2 with
      | .ok returned => (log.restarted config ops).2.Clean ∧
          returned = (log.restarted config ops).2.scan
      | .error _ => ¬ (log.restarted config ops).2.Clean := by
    intro ops
    obtain ⟨file, hfile⟩ := Dir.getElem?_of_mem_keys (log.resumed config ops).present
    exact WalReader.scanStrict_spec consumerName hfile
  constructor
  · intro hdetected hclean
    have hscan := hspec []
    split at hscan
    · rename_i returned hok
      obtain ⟨-, rfl⟩ := hscan
      exact log.not_detected_of_scan hok (log.lost_not_mem_scan config) hdetected
    · exact hscan (log.clean_restarted config hclean)
  · intro hunclean ops
    have hscan := hspec ops
    split at hscan
    · obtain ⟨hclean, -⟩ := hscan
      exact absurd (((log.resumed config ops).cleanBelow log.le_activeId log.mem_keys).mp
        (hclean.below _)) hunclean
    · trivial

end DamagedLog

end

namespace DamagedSample

/-- The configuration of the sample. -/
def config : WalConfig := ⟨1000, 16, 1000⟩

/-- Two records, and another byte in the first. -/
def log : DamagedLog where
  dir := (∅ : Dir).insert 0 (Framing.frames frame [[1], [2]])
  activeId := 0
  before := []
  record := [1]
  after := [[2]]
  damaged := (frame [1]).take 8 ++ [3]
  last := by decide +kernel
  active := by decide +kernel
  recordable := by decide +kernel
  length_eq := by decide +kernel
  lengthField := by decide +kernel
  mismatch := by decide +kernel

end DamagedSample

open DamagedSample in
/-- The scan reports the damage, and after the restart returns only what has been
appended since. -/
theorem restart_hides_damage :
    (WalReader.scanStrict "reconcile" log.damagedDir).toOption = none ∧
      WalReader.scanStrict "reconcile" (log.restarted config []).2 = .ok [] ∧
      WalReader.scanStrict "reconcile" (log.restarted config [.append [4], .flush]).2 =
        .ok [⟨⟨0, 9⟩, some [4]⟩] ∧
      ¬ log.DamageDetected config "reconcile" := by
  have hscan : WalReader.scanStrict "reconcile" (log.restarted config []).2 = .ok [] := by
    decide +kernel
  exact ⟨by decide +kernel, hscan, by decide +kernel,
    log.not_detected_of_scan hscan List.not_mem_nil⟩

end PolyBook.Wal
