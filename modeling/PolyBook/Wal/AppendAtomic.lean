import PolyBook.Wal.PrunedGap
import PolyBook.Wal.PowerLoss
import PolyBook.Wal.ReaderSafety

/-!
# Appending is all or nothing

`append` makes room before it looks at the size of the payload, and it frames an
empty payload with the length that marks the end of a segment.  So a payload that is
refused may still have closed the active segment, and an empty one that is taken is
never read, nor is what follows it in the segment.

`allOrNothing_iff` shows that nothing else goes wrong: in a run without the two, an
append leaves everything as it was or its record reaches every reader that is at or
before it, and it and all later records are found after a restart.
-/

namespace PolyBook.Wal

namespace AppendAtomic

/-- The disk, and the records that have been taken and that no crash has lost, with
the positions where their frames begin. -/
structure State where
  disk : Disk
  accepted : List (WalPosition × Bytes)

/-- Nothing is written. -/
def State.init : State := ⟨.init, []⟩

/-- The steps of a writer with any payload, of pruning, and a crash. -/
inductive Event where
  | openWriter
  | append (payload : Bytes)
  | spill (k : Nat)
  | flush
  | sync
  | prune (backpressure : Bool) (files : List (Option String))
  | crash (kept : Nat)

/-- No segment is missing between two others. -/
def Unbroken (dir : Dir) : Prop :=
  ∀ first ∈ dir.keys, ∀ last ∈ dir.keys, ∀ id, first ≤ id → id ≤ last → id ∈ dir.keys

section

variable [Crc32c]

/-- The records that an append adds to those taken. -/
def taken (w : WalWriter) (dir : Dir) (payload : Bytes) : List (WalPosition × Bytes) :=
  match w.append payload dir with
  | (w', _, .ok offset) => [(⟨w'.active.id, offset⟩, payload)]
  | (_, _, .error _) => []

/-- The record is whole in what a crash leaves. -/
def survives (d : Disk) (w : WalWriter) (kept : Nat) (x : WalPosition × Bytes) : Bool :=
  x.1.segmentId != w.active.id || x.1.offset + (frame x.2).length ≤ (d.cutFile w kept).length

/-- One event of the log. -/
def step (config : WalConfig) (s : State) : Event → State
  | .openWriter => { s with disk := s.disk.step config .openWriter }
  | .append payload =>
      match s.disk.writer with
      | none => s
      | some w =>
          { disk := (s.disk.append w payload).1
            accepted := s.accepted ++ taken w s.disk.dir payload }
  | .spill k => { s with disk := s.disk.step config (.spill k) }
  | .flush => { s with disk := s.disk.step config .flush }
  | .sync => { s with disk := s.disk.step config .sync }
  | .prune backpressure files =>
      match s.disk.writer with
      | none => s
      | some w =>
          { s with
            disk := { s.disk with
              dir := PrunedGap.prunedDir w backpressure files s.disk.dir } }
  | .crash kept =>
      match s.disk.writer with
      | none => s
      | some w =>
          { disk := s.disk.step config (.crash kept)
            accepted := s.accepted.filter (survives s.disk w kept) }

/-- The reader stands between two records of the log, at or before a position, and
what it has cached has been in the file. -/
structure AtOrBefore (records : Nat → List Bytes) (r : WalReader) (x : WalPosition) : Prop where
  boundary : ∃ done, done <+: records r.currentSegmentId ∧
    r.currentOffset = (Framing.frames frame done).length
  place : r.place ≤ toLex (x.segmentId, x.offset)
  cached : ∀ data, r.currentData = some data →
    data <+: Framing.frames frame (records r.currentSegmentId)

/-- The record of the log that begins at the position. -/
def RecordAt (records : Nat → List Bytes) (x : WalPosition) (payload : Bytes) : Prop :=
  ∃ before after, records x.segmentId = before ++ payload :: after ∧
    x.offset = (Framing.frames frame before).length

/-- The position after a record. -/
def endOf (x : WalPosition) (payload : Bytes) : WalPosition :=
  ⟨x.segmentId, x.offset + (frame payload).length⟩

/-- Some call of `next` returns the record at the position. -/
def Delivers (dir : Dir) (r : WalReader) (x : WalPosition) (payload : Bytes) : Prop :=
  ∃ n, ((r.afterCalls dir (List.replicate n .next)).next dir).1 = .ok (some payload) ∧
    ((r.afterCalls dir (List.replicate n .next)).next dir).2.currentPosition = endOf x payload

/-- The next writer that opens the directory leaves the record to be read. -/
def Kept (config : WalConfig) (dir : Dir) (x : WalPosition) (payload : Bytes) : Prop :=
  ⟨endOf x payload, some payload⟩ ∈ (WalWriter.openDir config dir).2.scan

/-- An append that is refused changes neither the position nor the files.  After one
that is taken and a flush every reader gets the record, and the records taken so far
are kept, but for those that pruning has deleted. -/
def AllOrNothing (config : WalConfig) (s : State) : Event → Prop
  | .append payload => ∀ w, s.disk.writer = some w →
      match w.append payload s.disk.dir with
      | (w', dir, .error _) =>
          w'.active.id = w.active.id ∧ w'.active.writeOffset = w.active.writeOffset ∧
            dir.keys = s.disk.dir.keys
      | (w', dir, .ok offset) =>
          (∀ r, AtOrBefore (step config s (.append payload)).disk.records r
            ⟨w'.active.id, offset⟩ →
              Delivers (w'.flush dir).2 r ⟨w'.active.id, offset⟩ payload) ∧
          ∀ x ∈ (step config s (.append payload)).accepted,
            x.1.segmentId ∈ (w'.flush dir).2.keys → Kept config (w'.flush dir).2 x.1 x.2
  | _ => True

/-- The payload is not empty, and one that is too large does not come when the active
segment has no room for it. -/
def Fits (s : State) : Event → Prop
  | .append payload => ∀ w, s.disk.writer = some w →
      payload ≠ [] ∧ (maxRecordSize < payload.length → w.rotates payload = false)
  | _ => True

end

/-! ## Unbroken directories -/

/-- Whether segments are missing depends on the names only. -/
theorem unbroken_of_mem_iff {dir dir' : Dir} (h : Unbroken dir)
    (hmem : ∀ id, id ∈ dir'.keys ↔ id ∈ dir.keys) : Unbroken dir' := by
  intro first hfirst last hlast id hle hle'
  rw [hmem] at hfirst hlast ⊢
  exact h first hfirst last hlast id hle hle'

/-- Writing a file of a directory breaks nothing. -/
theorem unbroken_insert {dir : Dir} {id : Nat} (h : Unbroken dir) (hid : id ∈ dir.keys)
    (file : Bytes) : Unbroken (dir.insert id file) := by
  refine unbroken_of_mem_iff h fun other => ?_
  rw [TreeMapLookup.mem_keys_iff, TreeMapLookup.getElem?_insert, TreeMapLookup.mem_keys_iff]
  split
  · rename_i heq
    rw [heq]
    exact ⟨fun _ => (TreeMapLookup.mem_keys_iff _ _).mp hid, fun _ => rfl⟩
  · exact Iff.rfl

/-- A partial write breaks nothing. -/
theorem unbroken_spill {dir : Dir} {w : WalWriter} (h : Unbroken dir)
    (hactive : w.active.id ∈ dir.keys) (k : Nat) : Unbroken (w.spill k dir).2 :=
  unbroken_insert h hactive _

/-- A segment after the last one. -/
theorem unbroken_rotate {dir : Dir} {w : WalWriter} (h : Unbroken dir)
    (hactive : w.active.id ∈ dir.keys) (hnext : w.nextSegmentId = w.active.id + 1)
    (hbound : ∀ id ∈ dir.keys, id ≤ w.active.id) : Unbroken (w.rotate dir).2 := by
  have hflush := unbroken_spill h hactive w.active.buffer.length
  have hmem : ∀ id, id ∈ (w.rotate dir).2.keys ↔ id = w.active.id + 1 ∨ id ∈ dir.keys := by
    intro id
    rw [TreeMapLookup.mem_keys_iff, WalWriter.getElem?_rotate, hnext, TreeMapLookup.mem_keys_iff]
    split
    · rename_i heq
      simp [heq]
    · rename_i hne
      change (w.spill w.active.buffer.length dir).2[id]?.isSome ↔ _
      rw [WalWriter.getElem?_spill]
      split
      · rename_i heq
        have hsome := (TreeMapLookup.mem_keys_iff _ _).mp hactive
        rw [heq]
        simp [hsome]
      · simp [hne]
  intro first hfirst last hlast id hle hle'
  rw [hmem] at hfirst hlast ⊢
  by_cases hid : id = w.active.id + 1
  · exact Or.inl hid
  · right
    have hfirst' : first ∈ dir.keys := by
      rcases hfirst with rfl | hfirst
      · rcases hlast with rfl | hlast
        · omega
        · have := hbound last hlast
          omega
      · exact hfirst
    have hle'' : id ≤ w.active.id := by
      rcases hlast with rfl | hlast
      · omega
      · exact Nat.le_trans hle' (hbound last hlast)
    exact h first hfirst' w.active.id hactive id hle hle''

/-- Taking away the first segments breaks nothing. -/
theorem unbroken_cut {dir kept : Dir} {cut : Nat} (h : Unbroken dir)
    (hkept : ∀ id : Nat, kept[id]? = if id < cut then none else dir[id]?) : Unbroken kept := by
  have hmem : ∀ id, id ∈ kept.keys ↔ cut ≤ id ∧ id ∈ dir.keys := by
    intro id
    rw [TreeMapLookup.mem_keys_iff, hkept, TreeMapLookup.mem_keys_iff]
    by_cases hid : id < cut
    · simp [hid]
    · simp [hid, Nat.le_of_not_lt hid]
  intro first hfirst last hlast id hle hle'
  rw [hmem] at hfirst hlast ⊢
  exact ⟨Nat.le_trans hfirst.1 hle, h first hfirst.2 last hlast.2 id hle hle'⟩

/-! ## Delivery -/

section

variable [Crc32c]

/-- A log that is all on disk, with the record of the active segment that a reader
has still to reach. -/
structure Target (dir : Dir) (w : WalWriter) (records : Nat → List Bytes) (x : WalPosition)
    (payload : Bytes) : Prop where
  layout : Layout dir w records
  unbroken : Unbroken dir
  flushed : w.active.buffer = []
  segment : x.segmentId = w.active.id
  record : RecordAt records x payload

namespace Target

variable {dir : Dir} {w : WalWriter} {records : Nat → List Bytes} {x : WalPosition}
  {payload : Bytes} {r : WalReader}

/-- The active segment of a target is there. -/
theorem mem_keys (h : Target dir w records x payload) : w.active.id ∈ dir.keys := by
  obtain ⟨file, hfile⟩ := h.layout.active
  exact Dir.mem_keys_of_getElem? hfile

/-- No segment lies behind the active one. -/
theorem le_active (h : Target dir w records x payload) {id : Nat} (hid : id ∈ dir.keys) :
    id ≤ w.active.id := by
  obtain ⟨file, hfile⟩ := Dir.getElem?_of_mem_keys hid
  exact h.layout.bound id file hfile

/-- Every segment file is the stream of its records. -/
theorem file_eq (h : Target dir w records x payload) {id : Nat} {file : Bytes}
    (hfile : dir[id]? = some file) : file = Framing.frames frame (records id) := by
  have hstored := h.layout.stored id file hfile
  unfold WalWriter.pending at hstored
  split at hstored
  · rwa [h.flushed, List.append_nil] at hstored
  · rwa [List.append_nil] at hstored

/-- The record ends within its segment. -/
theorem end_le (h : Target dir w records x payload) :
    x.offset + (frame payload).length ≤ (Framing.frames frame (records w.active.id)).length := by
  obtain ⟨before, after, hrecords, hoffset⟩ := h.record
  rw [h.segment] at hrecords
  rw [hrecords, Framing.frames_append, Framing.frames_cons, List.length_append,
    List.length_append, hoffset]
  omega

/-- A reader at the beginning of a segment up to the record's. -/
theorem start (h : Target dir w records x payload) {file : Bytes}
    (hfile : dir[r.currentSegmentId]? = some file) (hdata : r.currentData = some file)
    (hoffset : r.currentOffset = 0) : AtOrBefore records r x := by
  refine ⟨⟨[], List.nil_prefix, hoffset⟩, ?_, fun data hcached => ?_⟩
  · have hle := h.le_active (Dir.mem_keys_of_getElem? hfile)
    rw [WalReader.place, hoffset]
    rcases Nat.lt_or_eq_of_le hle with hlt | heq
    · exact Prod.Lex.toLex_le_toLex.mpr (Or.inl (h.segment ▸ hlt))
    · exact Prod.Lex.toLex_le_toLex.mpr (Or.inr ⟨heq.trans h.segment.symm, Nat.zero_le _⟩)
  · obtain rfl := Option.some.inj (hdata.symm.trans hcached)
    rw [h.file_eq hfile]

/-- The reader is in a segment up to the record's. -/
theorem le_of_atOrBefore (h : Target dir w records x payload) (hr : AtOrBefore records r x) :
    r.currentSegmentId < w.active.id ∨
      r.currentSegmentId = w.active.id ∧ r.currentOffset ≤ x.offset := by
  rcases Prod.Lex.toLex_le_toLex.mp hr.place with hlt | ⟨heq, hle⟩
  · exact Or.inl (h.segment ▸ hlt)
  · exact Or.inr ⟨(show r.currentSegmentId = _ from heq).trans h.segment, hle⟩

/-- What a turn does on the way to the record. -/
def Turns (records : Nat → List Bytes) (x : WalPosition) (payload : Bytes) :
    (Except WalError (Option Bytes) × WalReader) ⊕ WalReader → Prop
  | .inl (.ok (some returned), r) =>
      returned = payload ∧ r.currentPosition = endOf x payload ∨ AtOrBefore records r x
  | .inl (.ok none, _) => False
  | .inl (.error _, _) => False
  | .inr r => AtOrBefore records r x

/-- A turn at the end of the whole frames in the cache. -/
theorem turns_of_stops (h : Target dir w records x payload) (hr : AtOrBefore records r x)
    {data : Bytes} (hdata : r.currentData = some data)
    (hstop : Stops data r.currentOffset r.currentSegmentId)
    (hshort : r.currentSegmentId = w.active.id →
      data.length < (Framing.frames frame (records w.active.id)).length) :
    Turns records x payload (r.nextStep dir) := by
  have hle := h.le_of_atOrBefore hr
  have hcached := hr.cached data hdata
  rw [WalReader.nextStep_of_stops hdata hstop]
  have hadvance := WalReader.advanceSegment_cases dir r hdata
  generalize r.advanceSegment dir = outcome at hadvance
  cases hadvance with
  | moved hnext hfile => exact h.start hfile rfl rfl
  | pruned hlast hgone =>
      have hactive := hlast _ h.mem_keys
      have hsame : r.currentSegmentId = w.active.id := by omega
      obtain ⟨file, hfile⟩ := h.layout.active
      rw [hsame, hfile] at hgone
      cases hgone
  | shrunk hlast hfile hlen =>
      rw [h.file_eq hfile] at hlen
      have := hcached.length_le
      omega
  | unchanged hlast hfile hlen =>
      have hactive := hlast _ h.mem_keys
      have hsame : r.currentSegmentId = w.active.id := by omega
      rw [h.file_eq hfile, hsame] at hlen
      have := hshort hsame
      omega
  | @grown file hlast hfile hlen =>
      refine ⟨hr.boundary, hr.place, fun data' hdata' => ?_⟩
      obtain rfl := Option.some.inj hdata'
      rw [h.file_eq hfile]
      obtain ⟨more, hmore⟩ := hcached
      rw [← hmore, List.drop_left]

/-- A turn that takes a record. -/
theorem turns_of_record (h : Target dir w records x payload) (hr : AtOrBefore records r x)
    {done : List Bytes} {next : Bytes} (hdone : done <+: records r.currentSegmentId)
    (hmore : done ++ [next] <+: records r.currentSegmentId)
    (hoffset : r.currentOffset = (Framing.frames frame done).length) :
    Turns records x payload (.inl (.ok (some next),
      { r with currentOffset := r.currentOffset + (frame next).length })) := by
  have hend : (Framing.frames frame (done ++ [next])).length =
      r.currentOffset + (frame next).length := by
    rw [Framing.frames_append, List.length_append, hoffset, Framing.frames_cons,
      Framing.frames_nil, List.append_nil]
  have hboundary : ∃ done, done <+: records r.currentSegmentId ∧
      r.currentOffset + (frame next).length = (Framing.frames frame done).length :=
    ⟨_, hmore, hend.symm⟩
  rcases h.le_of_atOrBefore hr with hearlier | ⟨hsame, hle⟩
  · refine Or.inr ⟨hboundary, ?_, hr.cached⟩
    exact Prod.Lex.toLex_le_toLex.mpr (Or.inl (h.segment ▸ hearlier))
  obtain ⟨before, after, hrecords, hx⟩ := h.record
  rw [h.segment] at hrecords
  have hbefore : before ++ [payload] <+: records r.currentSegmentId :=
    ⟨after, by rw [hsame, hrecords, List.append_assoc, List.singleton_append]⟩
  have hbefore' : before <+: records r.currentSegmentId :=
    (List.prefix_append before [payload]).trans hbefore
  rcases Nat.lt_or_eq_of_le hle with hlt | heq
  · -- the next record is still before the one to reach
    refine Or.inr ⟨hboundary, ?_, hr.cached⟩
    rw [hoffset, hx] at hlt
    have hsub := Framing.prefix_of_frames_le frame_ne_nil hdone hbefore' (Nat.le_of_lt hlt)
    have hshorter : done.length < before.length := by
      refine Nat.lt_of_le_of_ne hsub.length_le fun hlength => ?_
      rw [hsub.eq_of_length hlength] at hlt
      exact Nat.lt_irrefl _ hlt
    have hnext : done ++ [next] <+: before :=
      List.prefix_of_prefix_length_le hmore hbefore' (by rw [List.length_append]; exact hshorter)
    have hlength := (Framing.frames_prefix (f := frame) hnext).length_le
    rw [hend, ← hx] at hlength
    exact Prod.Lex.toLex_le_toLex.mpr (Or.inr ⟨hsame.trans h.segment.symm, hlength⟩)
  · have hlengths : (Framing.frames frame done).length = (Framing.frames frame before).length := by
      rw [← hoffset, ← hx, heq]
    have hsub := Framing.prefix_of_frames_le frame_ne_nil hdone hbefore' (Nat.le_of_eq hlengths)
    have hsub' :=
      Framing.prefix_of_frames_le frame_ne_nil hbefore' hdone (Nat.le_of_eq hlengths.symm)
    obtain rfl := hsub.eq_of_length_le hsub'.length_le
    have hsame' : done ++ [next] = done ++ [payload] :=
      (List.prefix_of_prefix_length_le hmore hbefore (by simp)).eq_of_length (by simp)
    obtain rfl : next = payload := by simpa using hsame'
    refine Or.inl ⟨rfl, ?_⟩
    rw [WalReader.currentPosition, endOf, ← heq, h.segment, ← hsame]

/-- **One turn.**  The reader takes the next record, up to the one it is to reach, or
gets closer. -/
theorem turns (h : Target dir w records x payload) (hr : AtOrBefore records r x) :
    Turns records x payload (r.nextStep dir) := by
  have hle := h.le_of_atOrBefore hr
  cases hdata : r.currentData with
  | none =>
      rw [WalReader.nextStep_of_unloaded hdata]
      have hreload := WalReader.reloadWhenUnloaded_cases dir r
      generalize r.reloadWhenUnloaded dir = outcome at hreload
      cases hreload with
      | appeared hfile =>
          refine ⟨hr.boundary, hr.place, fun data hcached => ?_⟩
          obtain rfl := Option.some.inj hcached
          rw [h.file_eq hfile]
      | jumped hgone hearliest hlater hfile => exact h.start hfile rfl rfl
      | waiting hgone hfirst =>
          -- a missing segment before the active one is before the first
          exfalso
          obtain ⟨file, hfile⟩ := h.layout.active
          obtain ⟨first, data, hhead, hdata⟩ := Dir.head?_keys_of_getElem? hfile
          have hmem : r.currentSegmentId ∈ dir.keys :=
            h.unbroken first (Dir.mem_keys_of_getElem? hdata) w.active.id h.mem_keys _
              (hfirst first hhead) (by omega)
          obtain ⟨file', hfile'⟩ := Dir.getElem?_of_mem_keys hmem
          rw [hgone] at hfile'
          cases hfile'
  | some data =>
      have hcached := hr.cached data hdata
      obtain ⟨done, hdone, hoffset⟩ := hr.boundary
      by_cases hinside : (Framing.frames frame done).length ≤ data.length
      · obtain ⟨rest, hrest⟩ := Framing.prefix_fitting hdone hinside
        have hreads := Reads.of_prefix (h.layout.recordable _) hcached hrest.symm
        rw [← hoffset] at hreads
        cases rest with
        | nil =>
            refine h.turns_of_stops hr hdata (hreads.stops _) fun hsame => ?_
            by_contra hlong
            rw [List.append_nil, hsame, Framing.fitting_eq_self (Nat.le_of_not_lt hlong)] at hrest
            have hend := h.end_le
            rw [← hrest, ← hoffset] at hend
            have hpos := List.length_pos_of_ne_nil (frame_ne_nil payload)
            omega
        | cons next rest =>
            rw [WalReader.nextStep_of_record hdata (hreads.next _)]
            have hmore : done ++ [next] <+: records r.currentSegmentId := by
              refine List.IsPrefix.trans ⟨rest, ?_⟩
                (Framing.fitting_isPrefix (f := frame) data.length (records r.currentSegmentId))
              rw [← hrest, List.append_assoc, List.singleton_append]
            exact h.turns_of_record hr hdone hmore hoffset
      · refine h.turns_of_stops hr hdata (Or.inl ?_) fun hsame => ?_
        · rw [readRecordAt, if_pos (by omega)]
        · have hlength := (Framing.frames_prefix (f := frame) hdone).length_le
          rw [hsame] at hlength
          omega

/-- Every call on the way to the record returns one. -/
theorem turns_next (h : Target dir w records x payload) (hr : AtOrBefore records r x) :
    Turns records x payload (.inl (r.next dir)) := by
  refine Loop.iterate_rule (WalReader.nextStep_decreases dir) (AtOrBefore records · x)
    (fun answer => Turns records x payload (.inl answer)) ?_ ?_ hr
  · intro r₁ r₂ hr₁ hstep
    have hturn := h.turns hr₁
    rwa [hstep] at hturn
  · intro r₁ answer hr₁ hstep
    have hturn := h.turns hr₁
    rwa [hstep] at hturn

/-- **The record is reached.** -/
theorem delivers (h : Target dir w records x payload) (hr : AtOrBefore records r x) :
    Delivers dir r x payload := by
  induction hn : r.potential dir using Nat.strongRecOn generalizing r with
  | _ n ih =>
      have hturn := h.turns_next hr
      cases hcall : r.next dir with
      | mk result r' =>
          rw [hcall] at hturn
          rcases result with e | _ | returned
          · exact hturn.elim
          · exact hturn.elim
          · rcases hturn with ⟨rfl, hposition⟩ | hr'
            · refine ⟨0, ?_⟩
              change (r.next dir).1 = _ ∧ (r.next dir).2.currentPosition = _
              rw [hcall]
              exact ⟨rfl, hposition⟩
            · have hlt := WalReader.next_potential_lt hcall
              obtain ⟨k, hk⟩ := ih (r'.potential dir) (hn ▸ hlt) hr' rfl
              refine ⟨k + 1, ?_⟩
              rw [WalReader.afterCalls_next hcall]
              exact hk

end Target

end

/-! ## Recovery -/

section

variable [Crc32c] {dir : Dir} {w : WalWriter} {records : Nat → List Bytes}

/-- What is flushed is kept. -/
theorem kept_of_recordAt (h : Layout dir w records) (config : WalConfig) {x : WalPosition}
    {payload : Bytes} (hx : RecordAt records x payload)
    (hkey : x.segmentId ∈ (w.flush dir).2.keys) : Kept config (w.flush dir).2 x payload := by
  have hcrashed := Disk.crashed_flush h
  obtain ⟨-, hlookup⟩ := hcrashed.openDir_eq config
  obtain ⟨file, hfile⟩ := Dir.getElem?_of_mem_keys hkey
  obtain ⟨before, after, hrecords, hoffset⟩ := hx
  have hopened : (WalWriter.openDir config (w.flush dir).2).2[x.segmentId]? =
      some (Framing.frames frame (before ++ payload :: after)) := by
    rw [hlookup, ← hrecords]
    split
    · rename_i hsame
      rw [hsame]
    · rename_i hother
      have hle := hcrashed.bound _ _ hfile
      rw [hfile, hcrashed.sealed _ _ (Nat.lt_of_le_of_ne hle hother) hfile]
  have hok := hcrashed.recordable x.segmentId
  rw [hrecords] at hok
  have hscan := Dir.mem_scan_of_frames hopened hok
  rwa [← hoffset] at hscan

/-! ## The records taken -/

/-- A record stays where it is when another is recorded. -/
theorem recordAt_recordIn {x : WalPosition} {payload : Bytes} (h : RecordAt records x payload)
    (id : Nat) (next : Bytes) : RecordAt (recordIn records id next) x payload := by
  obtain ⟨before, after, hrecords, hoffset⟩ := h
  obtain ⟨more, hmore⟩ := isPrefix_recordIn records id next x.segmentId
  refine ⟨before, after ++ more, ?_, hoffset⟩
  rw [← hmore, hrecords, List.append_assoc, List.cons_append]

/-- The record that is written last. -/
theorem recordAt_last (h : Layout dir w records) (payload : Bytes) :
    RecordAt (recordIn records w.active.id payload) ⟨w.active.id, w.active.writeOffset⟩ payload :=
  ⟨records w.active.id, [], recordIn_same _ _ _, h.offset⟩

/-- The log is laid out, and every record taken is in it. -/
structure Inv (s : State) : Prop where
  disk : Disk.Inv s.disk
  unbroken : Unbroken s.disk.dir
  accepted : ∀ x ∈ s.accepted, RecordAt s.disk.records x.1 x.2

/-- An append of a payload that fits the frame format. -/
theorem step_append_of_recordable {config : WalConfig} {s : State} {w : WalWriter}
    (hwriter : s.disk.writer = some w) {payload : Bytes} (hmax : payload.length ≤ maxRecordSize) :
    step config s (.append payload) =
      { disk := (s.disk.roomMade w payload).buffered (w.makeRoom payload s.disk.dir).1 payload
        accepted := s.accepted ++ [(⟨(w.makeRoom payload s.disk.dir).1.active.id,
          (w.makeRoom payload s.disk.dir).1.active.writeOffset⟩, payload)] } := by
  simp only [step, hwriter, taken, Disk.append, w.append_of_le s.disk.dir hmax]
  rfl

/-- One that is too large, when there is no room for it either way. -/
theorem step_append_of_large {config : WalConfig} {s : State} {w : WalWriter}
    (hwriter : s.disk.writer = some w) {payload : Bytes} (hmax : maxRecordSize < payload.length) :
    step config s (.append payload) = { s with disk := s.disk.roomMade w payload } := by
  simp only [step, hwriter, taken, Disk.append, w.append_of_large s.disk.dir hmax,
    List.append_nil]
  rfl

/-- Making room breaks nothing. -/
theorem unbroken_makeRoom (h : Layout dir w records) (hunbroken : Unbroken dir)
    (payload : Bytes) : Unbroken (w.makeRoom payload dir).2 := by
  obtain ⟨file, hfile⟩ := h.active
  unfold WalWriter.makeRoom
  split
  · refine unbroken_rotate hunbroken (Dir.mem_keys_of_getElem? hfile) h.next fun id hid => ?_
    obtain ⟨other, hother⟩ := Dir.getElem?_of_mem_keys hid
    exact h.bound id other hother
  · exact hunbroken

/-- Recovery neither adds a segment nor deletes one. -/
theorem unbroken_openDir {last : Nat} (h : Disk.Crashed dir last records)
    (hunbroken : Unbroken dir) (config : WalConfig) :
    Unbroken (WalWriter.openDir config dir).2 := by
  obtain ⟨-, hlookup⟩ := h.openDir_eq config
  refine unbroken_of_mem_iff hunbroken fun id => ?_
  rw [TreeMapLookup.mem_keys_iff, hlookup]
  split
  · rename_i hid
    rw [hid]
    exact ⟨fun _ => h.mem_keys, fun _ => rfl⟩
  · exact (TreeMapLookup.mem_keys_iff _ _).symm

/-- A crash leaves the records that it does not cut. -/
theorem recordAt_fitting {s : State} (kept : Nat) {x : WalPosition × Bytes}
    (hx : RecordAt s.disk.records x.1 x.2) (hsurvives : survives s.disk w kept x = true) :
    RecordAt (fun id => if id = w.active.id then
      Framing.fitting frame (s.disk.cutFile w kept).length (s.disk.records id)
        else s.disk.records id) x.1 x.2 := by
  obtain ⟨before, after, hrecords, hoffset⟩ := hx
  by_cases hactive : x.1.segmentId = w.active.id
  · have hfits : x.1.offset + (frame x.2).length ≤ (s.disk.cutFile w kept).length := by
      simpa [survives, hactive] using hsurvives
    have hwhole : before ++ [x.2] <+: Framing.fitting frame (s.disk.cutFile w kept).length
        (s.disk.records x.1.segmentId) := by
      refine Framing.prefix_fitting ⟨after, ?_⟩ ?_
      · rw [hrecords, List.append_assoc, List.singleton_append]
      · rwa [Framing.frames_append, Framing.frames_cons, Framing.frames_nil, List.append_nil,
          List.length_append, ← hoffset]
    obtain ⟨more, hmore⟩ := hwhole
    refine ⟨before, more, ?_, hoffset⟩
    dsimp only
    rw [if_pos hactive, ← hmore, List.append_assoc, List.singleton_append]
  · refine ⟨before, after, ?_, hoffset⟩
    dsimp only
    rw [if_neg hactive, hrecords]

namespace Inv

variable {config : WalConfig} {s : State}

/-- The empty log satisfies the invariant. -/
theorem init : Inv .init := by
  refine ⟨.init, fun first hfirst => ?_, fun x hx => by cases hx⟩
  rw [TreeMapLookup.mem_keys_iff] at hfirst
  simp [State.init, Disk.init] at hfirst

/-- Opening a writer keeps the invariant. -/
theorem openWriter (h : Inv s) : Inv (step config s .openWriter) := by
  have hdisk := h.disk.openWriter config
  cases hcase : s.disk.writer with
  | some w =>
      have hstep : step config s .openWriter = s := by
        rw [step, Disk.step_openWriter_of_some config hcase]
      rwa [hstep]
  | none =>
      rw [step]
      refine ⟨hdisk, ?_, ?_⟩
      · rw [Disk.step_openWriter config hcase]
        cases h.disk with
        | unopened hwriter hdir hrecords =>
            have hlayout := Layout.openDir config
            intro first hfirst last hlast id hle hle'
            rw [hdir] at hfirst hlast ⊢
            obtain ⟨file, hfile⟩ := Dir.getElem?_of_mem_keys hlast
            have hzero : last ≤ 0 := hlayout.bound last file hfile
            obtain rfl : id = last := by omega
            exact hlast
        | opened hwriter hlayout hdurable => cases hcase.symm.trans hwriter
        | crashed hwriter hcrashed => exact unbroken_openDir hcrashed h.unbroken config
      · rw [Disk.step_openWriter config hcase]
        exact h.accepted

/-- A partial write keeps the invariant. -/
theorem spill (h : Inv s) (k : Nat) : Inv (step config s (.spill k)) := by
  have hdisk := h.disk.spill config k
  cases hcase : s.disk.writer with
  | none =>
      have hstep : step config s (.spill k) = s := by
        rw [step, Disk.step_of_closed config hcase (by simp)]
      rwa [hstep]
  | some w =>
      obtain ⟨file, hfile⟩ := (h.disk.layout hcase).1.active
      rw [step]
      refine ⟨hdisk, ?_, ?_⟩
      · rw [Disk.step_spill config hcase]
        exact unbroken_spill h.unbroken (Dir.mem_keys_of_getElem? hfile) k
      · rw [Disk.step_spill config hcase]
        exact h.accepted

/-- A flush keeps the invariant. -/
theorem flush (h : Inv s) : Inv (step config s .flush) := by
  cases hcase : s.disk.writer with
  | none =>
      have hstep : step config s .flush = s := by
        rw [step, Disk.step_of_closed config hcase (by simp)]
      rwa [hstep]
  | some w =>
      have hstep : step config s .flush = step config s (.spill w.active.buffer.length) := by
        simp only [step, Disk.step_flush config hcase]
      rw [hstep]
      exact h.spill _

/-- A sync keeps the invariant. -/
theorem sync (h : Inv s) : Inv (step config s .sync) := by
  have hdisk := h.disk.sync config
  cases hcase : s.disk.writer with
  | none =>
      have hstep : step config s .sync = s := by
        rw [step, Disk.step_of_closed config hcase (by simp)]
      rwa [hstep]
  | some w =>
      have hspill : Inv (step config s (.spill w.active.buffer.length)) := h.spill _
      unfold step at hspill ⊢
      refine ⟨hdisk, ?_, ?_⟩
      · rw [Disk.step_sync config hcase]
        exact hspill.unbroken
      · rw [Disk.step_sync config hcase]
        exact hspill.accepted

/-- Pruning leaves a log whose first segments are missing. -/
theorem prune (h : Inv s) (backpressure : Bool) (files : List (Option String)) :
    Inv (step config s (.prune backpressure files)) := by
  cases hcase : s.disk.writer with
  | none =>
      have hstep : step config s (.prune backpressure files) = s := by
        simp only [step, hcase]
      rwa [hstep]
  | some w =>
      obtain ⟨hlayout, hdurable⟩ := h.disk.layout hcase
      obtain ⟨cut, hcut, hpruned⟩ :=
        PrunedGap.prunedDir_eq w backpressure files s.disk.dir
      have hstep : step config s (.prune backpressure files) = { s with
          disk := { s.disk with
            dir := PrunedGap.prunedDir w backpressure files s.disk.dir } } := by
        simp only [step, hcase]
      rw [hstep]
      refine ⟨.opened hcase (hlayout.prune hcut hpruned) ?_, unbroken_cut h.unbroken hpruned,
        h.accepted⟩
      change s.disk.durable ≤ (Dir.contents _ _).length
      rw [Dir.contents, hpruned, if_neg (by omega)]
      exact hdurable

/-- A power loss keeps the invariant. -/
theorem crash (h : Inv s) (kept : Nat) : Inv (step config s (.crash kept)) := by
  have hdisk := h.disk.crash config kept
  cases hcase : s.disk.writer with
  | none =>
      have hstep : step config s (.crash kept) = s := by
        simp only [step, hcase]
      rwa [hstep]
  | some w =>
      obtain ⟨file, hfile⟩ := (h.disk.layout hcase).1.active
      have hstep : step config s (.crash kept) =
          { disk := s.disk.step config (.crash kept)
            accepted := s.accepted.filter (survives s.disk w kept) } := by
        simp only [step, hcase]
      rw [hstep]
      refine ⟨hdisk, ?_, fun x hx => ?_⟩
      · rw [Disk.step_crash config hcase]
        exact unbroken_insert h.unbroken (Dir.mem_keys_of_getElem? hfile) _
      · obtain ⟨hx, hsurvives⟩ := List.mem_filter.mp hx
        rw [Disk.step_crash config hcase]
        exact recordAt_fitting kept (h.accepted x hx) hsurvives

/-- Either append that keeps to the format. -/
theorem append (h : Inv s) {payload : Bytes} (hfits : Fits s (.append payload)) :
    Inv (step config s (.append payload)) := by
  cases hcase : s.disk.writer with
  | none =>
      have hstep : step config s (.append payload) = s := by
        simp only [step, hcase]
      rwa [hstep]
  | some w =>
      obtain ⟨hlayout, hdurable⟩ := h.disk.layout hcase
      have hroom := Disk.Inv.roomMade hlayout hdurable payload
      have hunbroken := unbroken_makeRoom hlayout h.unbroken payload
      rcases Nat.lt_or_ge maxRecordSize payload.length with hlarge | hmax
      · rw [step_append_of_large hcase hlarge]
        exact ⟨hroom, hunbroken, h.accepted⟩
      · rw [step_append_of_recordable hcase hmax]
        refine ⟨hroom.buffered rfl ⟨(hfits w hcase).1, hmax⟩, hunbroken, fun x hx => ?_⟩
        rcases List.mem_append.mp hx with hx | hx
        · exact recordAt_recordIn (h.accepted x hx) _ _
        · obtain rfl := List.mem_singleton.mp hx
          exact recordAt_last (hlayout.makeRoom payload) payload

/-- **Every step keeps the records taken**, if its append keeps to the format. -/
theorem step (h : Inv s) (e : Event) (hfits : Fits s e) :
    Inv (AppendAtomic.step config s e) := by
  cases e with
  | openWriter => exact h.openWriter
  | append payload => exact h.append hfits
  | spill k => exact h.spill k
  | flush => exact h.flush
  | sync => exact h.sync
  | prune backpressure files => exact h.prune backpressure files
  | crash kept => exact h.crash kept

end Inv

/-! ## All or nothing -/

/-- A payload the format can hold is taken and delivered, and refused otherwise. -/
theorem allOrNothing_of_fits {config : WalConfig} {s : State} (h : Inv s) {e : Event}
    (hfits : Fits s e) : AllOrNothing config s e := by
  cases e with
  | append payload =>
      intro w hwriter
      obtain ⟨hlayout, hdurable⟩ := h.disk.layout hwriter
      obtain ⟨hne, hrotates⟩ := hfits w hwriter
      rcases Nat.lt_or_ge maxRecordSize payload.length with hlarge | hmax
      · have hroom : w.makeRoom payload s.disk.dir = (w, s.disk.dir) := by
          rw [WalWriter.makeRoom, hrotates hlarge]
          rfl
        rw [w.append_of_large s.disk.dir hlarge, hroom]
        exact ⟨rfl, rfl, rfl⟩
      · have hnext : Inv (step config s (.append payload)) := h.append hfits
        rw [w.append_of_le s.disk.dir hmax]
        rw [step_append_of_recordable hwriter hmax] at hnext ⊢
        have hrecord := (hlayout.makeRoom payload).record ⟨hne, hmax⟩
        refine ⟨fun r hr => ?_, fun x hx hkey => ?_⟩
        · obtain ⟨file, hfile⟩ := hrecord.active
          have htarget : Target
              (((w.makeRoom payload s.disk.dir).1.buffered payload).flush
                (w.makeRoom payload s.disk.dir).2).2
              (((w.makeRoom payload s.disk.dir).1.buffered payload).flush
                (w.makeRoom payload s.disk.dir).2).1
              (recordIn s.disk.records (w.makeRoom payload s.disk.dir).1.active.id payload)
              ⟨(w.makeRoom payload s.disk.dir).1.active.id,
                (w.makeRoom payload s.disk.dir).1.active.writeOffset⟩ payload :=
            ⟨hrecord.flush, unbroken_spill hnext.unbroken (Dir.mem_keys_of_getElem? hfile) _,
              List.drop_length, rfl, recordAt_last (hlayout.makeRoom payload) payload⟩
          exact htarget.delivers hr
        · exact kept_of_recordAt hrecord config (hnext.accepted x hx) hkey
  | openWriter => trivial
  | spill k => trivial
  | flush => trivial
  | sync => trivial
  | prune backpressure files => trivial
  | crash kept => trivial

/-- A reader that is opened where a record of the active segment begins. -/
theorem atOrBefore_openAt (h : Layout dir w records) (payload : Bytes) (consumerName : String) :
    AtOrBefore (recordIn records w.active.id payload)
      (WalReader.openAt consumerName ⟨w.active.id, w.active.writeOffset⟩
        ((w.buffered payload).flush dir).2) ⟨w.active.id, w.active.writeOffset⟩ := by
  obtain ⟨file, hfile⟩ := h.active
  have hstored := h.stored _ _ hfile
  rw [WalWriter.pending_active] at hstored
  have hflushed : ((w.buffered payload).flush dir).2[w.active.id]? =
      some (Framing.frames frame (recordIn records w.active.id payload w.active.id)) := by
    have hlookup := (w.buffered payload).getElem?_spill
      (w.buffered payload).active.buffer.length dir w.active.id
    have hactive : (w.buffered payload).active.id = w.active.id := rfl
    have hbuffer : (w.buffered payload).active.buffer = w.active.buffer ++ frame payload := rfl
    rw [if_pos hactive.symm, List.take_length, Dir.contents_of_some hfile, hbuffer,
      ← List.append_assoc, hstored] at hlookup
    rw [recordIn_same, Framing.frames_append, Framing.frames_cons, Framing.frames_nil,
      List.append_nil]
    exact hlookup
  rw [WalReader.openAt_of_some consumerName _ hflushed]
  refine ⟨⟨records w.active.id, isPrefix_recordIn _ _ _ _, h.offset⟩, le_refl _,
    fun data hdata => ?_⟩
  obtain rfl := Option.some.inj hdata
  exact List.prefix_rfl

/-- No reader gets an empty payload. -/
theorem not_delivers_nil {r : WalReader} (h : r.Fresh dir) (x : WalPosition) :
    ¬ Delivers dir r x [] := by
  rintro ⟨n, hreturned, -⟩
  have hsound := WalReader.sound_answer
    (WalReader.fresh_afterCalls h (List.replicate n .next)) .next
  obtain ⟨file, start, -, hframe⟩ := hsound.record [] hreturned
  exact hframe.nonempty rfl

/-- An empty payload is lost, and one that is too large may have moved the writer. -/
theorem fits_of_allOrNothing {config : WalConfig} {s : State} (h : Inv s) {e : Event}
    (hall : AllOrNothing config s e) : Fits s e := by
  cases e with
  | append payload =>
      intro w hwriter
      obtain ⟨hlayout, hdurable⟩ := h.disk.layout hwriter
      have happend := hall w hwriter
      refine ⟨fun hnil => ?_, fun hlarge => ?_⟩
      · rw [hnil] at happend
        rw [w.append_of_le s.disk.dir (Nat.zero_le _),
          step_append_of_recordable hwriter (Nat.zero_le _)] at happend
        have hreader := atOrBefore_openAt (hlayout.makeRoom []) [] ""
        exact not_delivers_nil (WalReader.fresh_openAt "" _ _) _ (happend.1 _ hreader)
      · rw [w.append_of_large s.disk.dir hlarge] at happend
        by_contra hrotates
        have hrotates : w.rotates payload = true := by simpa using hrotates
        have hroom : (w.makeRoom payload s.disk.dir).1.active.id = w.active.id + 1 := by
          rw [WalWriter.makeRoom, if_pos hrotates]
          exact hlayout.next
        have hsame := happend.1
        omega
  | openWriter => trivial
  | spill k => trivial
  | flush => trivial
  | sync => trivial
  | prune backpressure files => trivial
  | crash kept => trivial

/-- **When an append is all or nothing**: no payload is empty, and one that is too
large comes while the active segment has room for it. -/
theorem allOrNothing_iff (config : WalConfig) (events : List Event) :
    Runs.Meets (step config) (AllOrNothing config) .init events ↔
      Runs.Meets (step config) Fits .init events := by
  refine Runs.meets_congr (fun s e (h : Inv s) => ?_) (fun s e h hall => ?_) .init events
  · exact ⟨fits_of_allOrNothing h, allOrNothing_of_fits h⟩
  · exact h.step e (fits_of_allOrNothing h hall)

end

namespace Sample

/-- The configuration of the sample. -/
def config : WalConfig := ⟨64, 16, 1000⟩

/-- An empty payload is the first to be appended. -/
def events : List Event := [.openWriter, .append []]

end Sample

/-- The empty payload is taken, and no reader gets it. -/
theorem empty_payload_is_lost :
    ¬ Runs.Meets (step Sample.config) (AllOrNothing Sample.config) .init Sample.events := by
  rintro ⟨-, happend, -⟩
  have hopened : Inv (step Sample.config .init .openWriter) := Inv.init.openWriter
  have hfits := fits_of_allOrNothing hopened happend
  exact (hfits _ rfl).1 rfl

end AppendAtomic

end PolyBook.Wal
