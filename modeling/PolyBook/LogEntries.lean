import PolyBook.HydratedLog
import PolyBook.OffsetOrder
import PolyBook.Wal.CommittedPosition

/-!
# The entries of a log

The records of a log in their order, each with the position after it.  A boundary splits
them (`entries_split`), what comes after it has the larger global offsets
(`past_of_boundary`), a hydration reads what lies before the end of the log on disk
(`scan_of_layout`), and a writer only adds to them (`entries_step`).
-/

namespace PolyBook

open Wal

namespace ServeRuntime

open Committed (AtBoundary recordsBefore)

/-- The records of the log, with the positions after them. -/
def entries [Crc32c] (d : Disk) : List (WalPosition × Bytes) :=
  (List.range (d.lastId + 1)).flatMap fun id => endings id 0 (d.records id)

section

variable [Crc32c] {d : Disk} {w : WalWriter}

theorem entries_of_layout (h : Layout d.dir w d.records) : entries d = appended w d.records := by
  rw [entries, appended, Disk.lastId, Disk.getLast?_keys_of_layout h, Option.getD_some]

theorem map_snd_entries (d : Disk) : (entries d).map Prod.snd = d.log := by
  rw [entries, List.map_flatMap, Disk.log, earlier]
  apply List.flatMap_congr
  intro id _
  exact map_snd_endings id 0 _

/-- The entries before a boundary of the log, and those after it. -/
theorem entries_split {p : WalPosition} (hle : p.segmentId ≤ d.lastId) {done rest : List Bytes}
    (hrecords : d.records p.segmentId = done ++ rest)
    (hoffset : p.offset = (Framing.frames frame done).length) :
    ∃ later, (∀ x ∈ later, p.segmentId < x.1.segmentId ∧ 0 < x.1.offset) ∧
      entries d = ((List.range p.segmentId).flatMap (fun id => endings id 0 (d.records id)) ++
        endings p.segmentId 0 done) ++ (endings p.segmentId p.offset rest ++ later) := by
  obtain ⟨more, hmore⟩ := Nat.exists_eq_add_of_le hle
  refine ⟨((List.range more).map (p.segmentId + 1 + ·)).flatMap fun id =>
    endings id 0 (d.records id), fun x hx => ?_, ?_⟩
  · obtain ⟨id, hid, hx⟩ := List.mem_flatMap.mp hx
    obtain ⟨i, -, rfl⟩ := List.mem_map.mp hid
    obtain ⟨hid, hpos⟩ := mem_endings hx
    exact ⟨by omega, hpos⟩
  · have hrange : List.range (d.lastId + 1) = List.range p.segmentId ++ p.segmentId ::
        (List.range more).map (p.segmentId + 1 + ·) := by
      have hlast : d.lastId + 1 = p.segmentId + 1 + more := by omega
      rw [hlast, List.range_add, List.range_succ, List.append_assoc]
      rfl
    have hall : endings p.segmentId 0 (d.records p.segmentId) =
        endings p.segmentId 0 done ++ endings p.segmentId p.offset rest := by
      rw [hrecords, endings_append, Nat.zero_add, ← hoffset]
    rw [entries, hrange, List.flatMap_append, List.flatMap_cons, hall]
    simp only [List.append_assoc]

/-- How many entries lie before a boundary. -/
theorem length_before {p : WalPosition} {done rest : List Bytes}
    (hrecords : d.records p.segmentId = done ++ rest)
    (hoffset : p.offset = (Framing.frames frame done).length) :
    ((List.range p.segmentId).flatMap (fun id => endings id 0 (d.records id)) ++
      endings p.segmentId 0 done).length = recordsBefore d.records p := by
  have hdone : done <+: d.records p.segmentId := hrecords ▸ List.prefix_append done rest
  have hpayloads : ((List.range p.segmentId).flatMap (fun id => endings id 0 (d.records id)) ++
      endings p.segmentId 0 done).map Prod.snd = earlier d.records p.segmentId ++ done := by
    rw [List.map_append, List.map_flatMap, map_snd_endings, earlier]
    simp only [map_snd_endings]
  rw [AtBoundary.recordsBefore_eq hdone hoffset, ← hpayloads, List.length_map]

/-- The entries after a boundary have larger global offsets, if no segment is longer than
its size. -/
theorem past_of_boundary {config : WalConfig} {p : WalPosition} (h : AtBoundary d p)
    (hfits : (Framing.frames frame (d.records p.segmentId)).length ≤ config.segmentSize)
    {x : WalPosition × Bytes} (hx : x ∈ (entries d).drop (recordsBefore d.records p)) :
    p.globalOffset config < x.1.globalOffset config := by
  obtain ⟨hle, -, done, ⟨rest, hrest⟩, hoffset⟩ := h
  obtain ⟨later, hlater, hentries⟩ := entries_split hle hrest.symm hoffset
  rw [hentries, ← length_before hrest.symm hoffset, List.drop_left] at hx
  have hwithin : p.offset ≤ config.segmentSize := by
    rw [hoffset]
    exact (Framing.frames_prefix ⟨rest, hrest⟩).length_le.trans hfits
  unfold WalPosition.globalOffset
  rcases List.mem_append.mp hx with hx | hx
  · obtain ⟨hid, hlt⟩ := mem_endings hx
    rw [hid]
    omega
  · obtain ⟨hid, hpos⟩ := hlater x hx
    have hmul : (p.segmentId + 1) * config.segmentSize ≤ x.1.segmentId * config.segmentSize :=
      Nat.mul_le_mul_right _ hid
    rw [Nat.add_mul] at hmul
    omega

/-- The log on disk ends at a boundary, and a hydration reads what lies before it. -/
theorem scan_of_layout (h : Layout d.dir w d.records)
    (hcomplete : Disk.Complete d.dir w.active.id) :
    AtBoundary d d.dir.scanEnd ∧
      intact d.dir.scan = (entries d).take (recordsBefore d.records d.dir.scanEnd) := by
  obtain ⟨active, hactive⟩ := h.active
  have hlast : d.lastId = w.active.id := by
    rw [Disk.lastId, Disk.getLast?_keys_of_layout h]
    rfl
  have hend := h.scanEnd_eq hactive
  obtain ⟨rest, hrest⟩ := Framing.fitting_isPrefix (f := frame) active.length
    (d.records w.active.id)
  have hsegment : d.dir.scanEnd.segmentId = w.active.id := by rw [hend]
  have hoffset : d.dir.scanEnd.offset = (Framing.frames frame
      (Framing.fitting frame active.length (d.records w.active.id))).length := by rw [hend]
  have hrecords : d.records d.dir.scanEnd.segmentId =
      Framing.fitting frame active.length (d.records w.active.id) ++ rest := by
    rw [hsegment, hrest]
  refine ⟨⟨hsegment ▸ hlast.ge, ?_, _, ⟨rest, hrecords.symm⟩, hoffset⟩, ?_⟩
  · rw [hsegment, Dir.contents_of_some hactive, hoffset]
    exact Framing.length_frames_fitting_le _ _
  obtain ⟨later, -, hentries⟩ := entries_split (hsegment ▸ hlast.ge) hrecords hoffset
  rw [hentries, ← length_before hrecords hoffset, List.take_left, hsegment]
  have hkeys : d.dir.keys = List.range (w.active.id + 1) := by
    have hsorted : d.dir.keys.Pairwise (· < ·) :=
      Std.ExtTreeMap.ordered_keys.imp Nat.compare_eq_lt.mp
    apply hsorted.eq_of_mem_iff List.pairwise_lt_range
    intro id
    rw [List.mem_range, Nat.lt_succ_iff]
    constructor
    · intro hid
      obtain ⟨file, hfile⟩ := Dir.getElem?_of_mem_keys hid
      exact h.bound id file hfile
    · intro hid
      obtain ⟨file, hfile⟩ := hcomplete id hid
      exact Dir.mem_keys_of_getElem? hfile
  have hfound : ∀ {id : Nat} {file : Bytes}, d.dir[id]? = some file →
      intact (framesFrom (d.dir.contents id) id 0) =
        endings id 0 (Framing.fitting frame file.length (d.records id)) := by
    intro id file hfile
    rw [Dir.contents_of_some hfile, (h.reads hfile).framesFrom_eq, intact, List.filterMap_map]
    exact List.filterMap_some
  have hearlier : ∀ id ∈ List.range w.active.id,
      intact (framesFrom (d.dir.contents id) id 0) = endings id 0 (d.records id) := by
    intro id hid
    have hlt := List.mem_range.mp hid
    obtain ⟨file, hfile⟩ := hcomplete id hlt.le
    rw [hfound hfile, h.sealed hlt hfile, Framing.fitting_frames]
  rw [Dir.scan, Dir.framesOf, OffsetOrder.toList_eq, hkeys, List.flatMap_map, intact,
    List.filterMap_flatMap, List.range_succ, List.flatMap_append, List.flatMap_singleton]
  exact congrArg₂ _ (List.flatMap_congr hearlier) (hfound hactive)

/-- What the writer does adds to the entries, and leaves those before a boundary. -/
theorem entries_step (config : WalConfig) (hwriter : d.writer = some w)
    (h : Layout d.dir w d.records) {e : DiskEvent} (he : ∀ kept, e ≠ .crash kept) :
    entries d <+: entries (d.step config e) ∧ ∀ p, AtBoundary d p →
      recordsBefore (d.step config e).records p = recordsBefore d.records p := by
  have hspill : ∀ k, entries (d.step config (.spill k)) = entries d ∧
      (d.step config (.spill k)).records = d.records := by
    intro k
    rw [Disk.step_spill config hwriter, entries_of_layout h]
    exact ⟨entries_of_layout (w := (w.spill k d.dir).1) (h.spill k), rfl⟩
  have hsame : ∀ d' : Disk, entries d' = entries d → d'.records = d.records →
      entries d <+: entries d' ∧ ∀ p, AtBoundary d p →
        recordsBefore d'.records p = recordsBefore d.records p := by
    intro d' hentries hrecords
    exact ⟨hentries ▸ List.prefix_rfl, fun p _ => by rw [hrecords]⟩
  cases e with
  | openWriter =>
      rw [Disk.step_openWriter_of_some config hwriter]
      exact hsame d rfl rfl
  | append payload =>
      rw [Disk.step_append config hwriter]
      have hroom := h.makeRoom payload.bytes
      have hentries : entries (d.roomMade w payload.bytes) = entries d := by
        rw [entries_of_layout h, ← OffsetOrder.appended_makeRoom h payload.bytes]
        exact entries_of_layout hroom
      obtain ⟨hmax, happend⟩ | happend := Disk.append_cases d w payload.bytes
      · rw [happend]
        refine ⟨?_, fun p hp => ?_⟩
        · rw [← hentries, entries_of_layout (d := d.roomMade w payload.bytes) hroom]
          have hbuffered := entries_of_layout
            (d := (d.roomMade w payload.bytes).buffered _ payload.bytes)
            (hroom.record ⟨payload.ne_nil, hmax⟩)
          rw [hbuffered]
          change _ <+: appended _ (recordIn d.records _ payload.bytes)
          rw [OffsetOrder.appended_buffered hroom]
          exact List.prefix_append _ _
        · exact (hp.roomMade h payload.bytes).recordsBefore_buffered hroom payload.bytes
      · rw [happend]
        exact hsame _ hentries rfl
  | spill k => exact hsame _ (hspill k).1 (hspill k).2
  | flush =>
      rw [Disk.step_flush config hwriter]
      exact hsame _ (hspill _).1 (hspill _).2
  | sync =>
      rw [Disk.step_sync config hwriter]
      exact hsame _ (hspill _).1 (hspill _).2
  | crash kept => exact absurd rfl (he kept)

end

/-! ## What the log holds -/

section

variable [Bincode] [Crc32c] (config : WalConfig)

/-- The records decode, and no segment is longer than its size. -/
structure Encoded (d : Disk) : Prop where
  decodes : ∀ id, ∀ r ∈ d.records id, (Codec.decode r).isOk = true
  fits : ∀ id, (Framing.frames frame (d.records id)).length ≤ config.segmentSize
  config_eq : ∀ w ∈ d.writer, w.config = config

namespace Encoded

variable {config} {d d' : Disk}

theorem of_same (h : Encoded config d) (hrecords : d'.records = d.records)
    (hwriter : ∀ w ∈ d'.writer, w.config = config) : Encoded config d' where
  decodes := hrecords ▸ h.decodes
  fits := hrecords ▸ h.fits
  config_eq := hwriter

/-- An append that is accepted fits into the segment there is room in. -/
theorem append {w : WalWriter} (h : Encoded config d) (hwriter : d.writer = some w)
    (hlayout : Layout d.dir w d.records) {payload : Payload}
    (hdecode : (Codec.decode payload.bytes).isOk = true)
    (hfits : headerSize + payload.bytes.length ≤ config.segmentSize) :
    Encoded config (d.append w payload.bytes).1 := by
  have hconfig := h.config_eq w hwriter
  have hroom := (w.makeRoom_config payload.bytes d.dir).trans hconfig
  obtain ⟨-, happend⟩ | happend := Disk.append_cases d w payload.bytes
  · rw [happend]
    refine ⟨fun id r hr => ?_, fun id => ?_, fun w' hw' => ?_⟩
    · change r ∈ recordIn d.records _ payload.bytes id at hr
      unfold recordIn at hr
      split at hr
      · rcases List.mem_append.mp hr with hold | hnew
        · exact h.decodes id r hold
        · rwa [List.mem_singleton.mp hnew]
      · exact h.decodes id r hr
    · change (Framing.frames frame (recordIn d.records _ payload.bytes id)).length ≤ _
      by_cases hid : id = (w.makeRoom payload.bytes d.dir).1.active.id
      · subst hid
        have hoffset := (hlayout.makeRoom payload.bytes).offset
        rw [recordIn_same, Framing.frames_append, List.length_append, ← hoffset]
        have hone : (Framing.frames frame [payload.bytes]).length =
            headerSize + payload.bytes.length := by
          rw [Framing.frames_cons, Framing.frames_nil, List.append_nil, frame_length]
        rw [hone]
        unfold WalWriter.makeRoom
        by_cases hrotates : w.rotates payload.bytes = true
        · rw [if_pos hrotates]
          exact (Nat.zero_add _).symm ▸ hfits
        · rw [if_neg hrotates]
          have hpos : 0 < headerSize := by decide
          simp only [WalWriter.rotates, Segment.remaining, hconfig, decide_eq_true_eq] at hrotates
          dsimp only
          omega
      · rw [recordIn_ne d.records hid]
        exact h.fits id
    · obtain rfl := Option.some.inj hw'
      exact hroom
  · rw [happend]
    refine h.of_same rfl fun w' hw' => ?_
    obtain rfl := Option.some.inj hw'
    exact hroom

theorem step (h : Encoded config d)
    (hlayout : ∀ w, d.writer = some w → Layout d.dir w d.records) {e : DiskEvent}
    (happend : ∀ payload, e = .append payload → (Codec.decode payload.bytes).isOk = true ∧
      headerSize + payload.bytes.length ≤ config.segmentSize) :
    Encoded config (d.step config e) := by
  cases hwriter : d.writer with
  | none =>
      by_cases he : e = .openWriter
      · rw [he, Disk.step_openWriter config hwriter]
        refine h.of_same rfl fun w hw => ?_
        obtain rfl := Option.some.inj hw
        exact WalWriter.openDir_config config d.dir
      · rwa [Disk.step_of_closed config hwriter he]
  | some w =>
      have hconfig := h.config_eq w hwriter
      have hspill : ∀ k, Encoded config (d.step config (.spill k)) := by
        intro k
        rw [Disk.step_spill config hwriter]
        refine h.of_same rfl fun w' hw' => ?_
        obtain rfl := Option.some.inj hw'
        exact hconfig
      cases e with
      | openWriter => rwa [Disk.step_openWriter_of_some config hwriter]
      | append payload =>
          obtain ⟨hdecode, hfits⟩ := happend payload rfl
          rw [Disk.step_append config hwriter]
          exact h.append hwriter (hlayout w hwriter) hdecode hfits
      | spill k => exact hspill k
      | flush =>
          rw [Disk.step_flush config hwriter]
          exact hspill _
      | sync =>
          rw [Disk.step_sync config hwriter]
          exact (hspill _).of_same rfl (hspill _).config_eq
      | crash kept =>
          rw [Disk.step_crash config hwriter]
          have hkept : ∀ id, (if id = w.active.id then
              Framing.fitting frame (d.cutFile w kept).length (d.records id)
                else d.records id) <+: d.records id := by
            intro id
            split
            · exact Framing.fitting_isPrefix _ _
            · exact List.prefix_rfl
          refine ⟨fun id r hr => h.decodes id r ((hkept id).subset hr), fun id => ?_,
            fun w' hw' => nomatch hw'⟩
          exact (Framing.frames_prefix (hkept id)).length_le.trans (h.fits id)

theorem entries (h : Encoded config d) : Decodes (entries d) := by
  intro x hx
  obtain ⟨id, -, hx⟩ := List.mem_flatMap.mp hx
  refine h.decodes id x.2 ?_
  rw [← map_snd_endings id 0 (d.records id)]
  exact List.mem_map_of_mem hx

end Encoded

end

end ServeRuntime

end PolyBook
