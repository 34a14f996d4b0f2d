import PolyBook.Wal.Tail

/-!
# Pruning under a live reader

Pruning deletes sealed segments whatever a live reader has read of them.
`needs_resync` compares the reader's segment with the oldest one, but `next`
moves the reader over the gap and refreshes the list in the same call, so a poll
never raises it: a deleted record that the reader had neither returned nor cached
is passed over in silence.

`no_silent_gap` shows that this is the only way: in a run in which every poll
meets `Covered`, no record is returned past an unreported gap.
-/

namespace PolyBook.Wal

namespace PrunedGap

/-- The directory, its writer and its reader, by the positions of the records:
those appended, those the reader returned, and those that pruning deleted before
the reader returned them and that nothing has reported since.  `crossed` says
that a record past such a gap was returned. -/
structure State where
  dir : Dir
  writer : Option WalWriter
  reader : Option WalReader
  written : List WalPosition
  returned : List WalPosition
  unreported : List WalPosition
  crossed : Bool

/-- An empty directory, no writer and no reader. -/
def State.init : State := ⟨∅, none, none, [], [], [], false⟩

/-- The steps of the writer, of pruning with any list of position files, and of the
reader.  `reopen` is a tailing session that starts again at the reader's
position. -/
inductive Event where
  | openWriter
  | append (payload : Payload)
  | spill (k : Nat)
  | flush
  | prune (backpressure : Bool) (files : List (Option String))
  | openReader
  | reopen
  | poll

/-- The reader reports every gap. -/
def State.reported (s : State) : State := { s with unreported := [] }

/-- A reader that needs a resync says so before it is polled again. -/
def State.settle (s : State) : State :=
  if s.reader.any WalReader.needsResync then s.reported else s

/-- The directory after a prune. -/
def prunedDir (w : WalWriter) (backpressure : Bool) (files : List (Option String)) (dir : Dir) :
    Dir :=
  if backpressure then w.pruneWithBackpressure files dir else w.prune files dir

/-- Pruning takes a front of the segments, below the active one. -/
theorem prunedDir_eq (w : WalWriter) (backpressure : Bool) (files : List (Option String))
    (dir : Dir) : ∃ cut, cut ≤ w.active.id ∧
      ∀ id, (prunedDir w backpressure files dir)[id]? = if id < cut then none else dir[id]? := by
  cases backpressure with
  | true => exact ⟨_, Nat.min_le_left _ _, w.getElem?_pruneWithBackpressure dir files⟩
  | false => exact ⟨_, Nat.min_le_left _ _, w.getElem?_prune dir files⟩

/-- The appended records that a change of the directory deletes. -/
def deleted (s : State) (dir' : Dir) : List WalPosition :=
  s.written.filter fun x => s.dir.contains x.segmentId && !dir'.contains x.segmentId

section

variable [Crc32c]

/-- What the reader's answer does to the state. -/
def State.answered (s : State) : Except WalError (Option Bytes) × WalReader → State
  | (.ok (some payload), r) =>
      let position : WalPosition :=
        ⟨r.currentSegmentId, r.currentOffset - (headerSize + payload.length)⟩
      { s with
        reader := some r
        returned := s.returned ++ [position]
        unreported := s.unreported.filter (· ≠ position)
        crossed := s.crossed || s.unreported.any (·.before position) }
  | (.ok none, r) => { s with reader := some r }
  | (.error _, r) => { s with reader := some r }.reported

/-- A step, before the reader reports. -/
def act (config : WalConfig) (s : State) : Event → State
  | .openWriter =>
      match s.writer with
      | some _ => s
      | none =>
          let (w, dir) := WalWriter.openDir config s.dir
          { s with writer := some w, dir := dir }
  | .append payload =>
      match s.writer with
      | none => s
      | some w =>
          match w.append payload.bytes s.dir with
          | (w, dir, .ok offset) =>
              { s with
                writer := some w, dir := dir, written := s.written ++ [⟨w.active.id, offset⟩] }
          | (w, dir, .error _) => { s with writer := some w, dir := dir }
  | .spill k =>
      match s.writer with
      | none => s
      | some w =>
          let (w, dir) := w.spill k s.dir
          { s with writer := some w, dir := dir }
  | .flush =>
      match s.writer with
      | none => s
      | some w =>
          let (w, dir) := w.flush s.dir
          { s with writer := some w, dir := dir }
  | .prune backpressure files =>
      match s.writer with
      | none => s
      | some w =>
          let dir := prunedDir w backpressure files s.dir
          let gap := (deleted s dir).filter (· ∉ s.returned)
          { s with
            dir := dir
            unreported := if s.reader.isSome then s.unreported ++ gap else s.unreported }
  | .openReader =>
      match s.reader with
      | some _ => s
      | none => { s with reader := some (WalReader.openDir "tail" none s.dir) }
  | .reopen =>
      match s.reader with
      | some r => { s with reader := some (WalReader.openAt "tail" r.currentPosition s.dir) }
      | none => s
  | .poll =>
      match s.reader with
      | none => s
      | some r => s.answered (r.next s.dir)

/-- One event, and what it settles. -/
def step (config : WalConfig) (s : State) (e : Event) : State := (act config s e).settle

/-- The whole frame of the record is still ahead in the reader's cache. -/
def Cached (r : WalReader) (x : WalPosition) : Prop :=
  x.segmentId = r.currentSegmentId ∧ r.currentOffset ≤ x.offset ∧
    (r.currentData.any fun data =>
      readRecordAt data x.offset x.segmentId matches .ok (some _)) = true

instance (r : WalReader) (x : WalPosition) : Decidable (Cached r x) :=
  inferInstanceAs (Decidable (_ ∧ _ ∧ _))

/-- The reader is polled only while the records of every gap that is still unreported are
whole in its cache. -/
def Covered (s : State) : Event → Prop
  | .poll => ∀ r ∈ s.reader, ∀ x ∈ s.unreported, Cached r x
  | _ => True

instance (s : State) : (e : Event) → Decidable (Covered s e)
  | .poll => inferInstanceAs (Decidable (∀ r ∈ s.reader, ∀ x ∈ s.unreported, Cached r x))
  | .openWriter | .append _ | .spill _ | .flush | .prune _ _ | .openReader | .reopen =>
      isTrue trivial

/-! ## Positions -/

/-- The positions of records that are framed one after another. -/
def positions (id : Nat) : (start : Nat) → List Bytes → List WalPosition
  | _, [] => []
  | start, r :: rs => ⟨id, start⟩ :: positions id (start + (frame r).length) rs

/-- The positions of more records come behind the first ones. -/
theorem positions_append (id start : Nat) (rs rs' : List Bytes) :
    positions id start (rs ++ rs') =
      positions id start rs ++ positions id (start + (Framing.frames frame rs).length) rs' := by
  induction rs generalizing start with
  | nil => simp [positions]
  | cons r rs ih =>
      rw [List.cons_append, positions, positions, ih, List.cons_append, Framing.frames_cons,
        List.length_append, Nat.add_assoc]

/-- A record's position lies in its segment, inside the frames. -/
theorem mem_positions {id start : Nat} {rs : List Bytes} {x : WalPosition}
    (h : x ∈ positions id start rs) :
    x.segmentId = id ∧ start ≤ x.offset ∧
      x.offset < start + (Framing.frames frame rs).length := by
  induction rs generalizing start with
  | nil => cases h
  | cons r rs ih =>
      have hpos := List.length_pos_of_ne_nil (frame_ne_nil r)
      rw [Framing.frames_cons, List.length_append]
      obtain rfl | h := List.mem_cons.mp h
      · exact ⟨rfl, Nat.le_refl _, show start < _ by omega⟩
      · obtain ⟨hid, hstart, hend⟩ := ih h
        exact ⟨hid, by omega, by omega⟩

/-- A record of the segment whose whole frame is ahead in the cache is one of
those the reader has still to take from it. -/
theorem mem_positions_rest {data : Bytes} {recs done rest : List Bytes} {x : WalPosition}
    (hok : ∀ r ∈ recs, Recordable r) (hstream : data <+: Framing.frames frame recs)
    (hfit : Framing.fitting frame data.length recs = done ++ rest)
    (hmem : x ∈ positions x.segmentId 0 recs)
    (hahead : (Framing.frames frame done).length ≤ x.offset) {payload : Bytes} {next : Nat}
    (hread : readRecordAt data x.offset x.segmentId = .ok (some (payload, next))) :
    x ∈ positions x.segmentId (Framing.frames frame done).length rest := by
  have hpre := Framing.fitting_isPrefix (f := frame) data.length recs
  rw [hfit] at hpre
  obtain ⟨beyond, hrecs⟩ := hpre
  rw [← hrecs, positions_append, positions_append, Nat.zero_add, Nat.zero_add] at hmem
  obtain hmem | hmem := List.mem_append.mp hmem
  · obtain hmem | hmem := List.mem_append.mp hmem
    · have := (mem_positions hmem).2.2
      omega
    · exact hmem
  · -- the frame does not end within the cache
    exfalso
    cases beyond with
    | nil => cases hmem
    | cons r beyond =>
        have hreads := Reads.of_prefix_end hok hstream hfit
        rw [positions] at hmem
        obtain hx | hmem := List.mem_cons.mp hmem
        · rw [congrArg WalPosition.offset hx] at hread
          obtain hstop | hstop := hreads.stops x.segmentId
          · rw [hstop] at hread
            cases hread
          · rw [hstop] at hread
            cases hread
        · have hlt := readRecordAt_next_offset hread
          have hstart := (mem_positions hmem).2.1
          obtain ⟨k, hk⟩ := Nat.exists_eq_add_of_le hreads.length_done_le
          rw [hk, ← hrecs, Framing.fitting_frames_append] at hfit
          have hnone : Framing.fitting frame k (r :: beyond) = [] := by simpa using hfit
          unfold Framing.fitting at hnone
          split at hnone
          · cases hnone
          · omega

/-! ## Where the reader stands -/

/-- The unreported gaps are ahead of the reader in its cache. -/
inductive Follows (dir : Dir) (w : WalWriter) (records : Nat → List Bytes)
    (unreported : List WalPosition) (r : WalReader) : Prop
  | waiting (hdata : r.currentData = none) (hid : r.currentSegmentId ≤ w.active.id)
      (hoffset : r.currentOffset = 0 ∨ dir[r.currentSegmentId]? = none)
      (hunreported : unreported = [])
  | reading {data : Bytes} (done rest : List Bytes) (hdata : r.currentData = some data)
      (hid : r.currentSegmentId ≤ w.active.id)
      (hstream : data <+: Framing.frames frame (records r.currentSegmentId))
      (hcached : ∀ file, dir[r.currentSegmentId]? = some file → data <+: file)
      (hfit : Framing.fitting frame data.length (records r.currentSegmentId) = done ++ rest)
      (hoffset : r.currentOffset = (Framing.frames frame done).length)
      (hunreported : ∀ x ∈ unreported, x ∈ positions r.currentSegmentId r.currentOffset rest)

/-- What a poll does for such a reader. -/
def Answered (dir : Dir) (w : WalWriter) (records : Nat → List Bytes)
    (unreported : List WalPosition) : Except WalError (Option Bytes) × WalReader → Prop
  | (.ok (some payload), r) =>
      let position : WalPosition :=
        ⟨r.currentSegmentId, r.currentOffset - (headerSize + payload.length)⟩
      unreported.any (·.before position) = false ∧
        Follows dir w records (unreported.filter (· ≠ position)) r
  | (.ok none, r) => Follows dir w records unreported r
  | (.error _, _) => False

namespace Follows

variable {dir : Dir} {w : WalWriter} {records : Nat → List Bytes}
  {unreported : List WalPosition} {r : WalReader}

/-- A reader follows with fewer records to report as well. -/
theorem mono (h : Follows dir w records unreported r) (unreported' : List WalPosition)
    (hsub : ∀ x ∈ unreported', x ∈ unreported) : Follows dir w records unreported' r := by
  cases h with
  | waiting hdata hid hoffset hunreported =>
      refine .waiting hdata hid hoffset (List.eq_nil_iff_forall_not_mem.mpr fun x hx => ?_)
      have := hsub x hx
      rw [hunreported] at this
      cases this
  | reading done rest hdata hid hstream hcached hfit hoffset hunreported =>
      exact .reading done rest hdata hid hstream hcached hfit hoffset
        fun x hx => hunreported x (hsub x hx)

/-- A reader whose cache is the file of a segment on disk. -/
theorem of_file (hlayout : Layout dir w records) {file : Bytes} {done : List Bytes}
    (hfile : dir[r.currentSegmentId]? = some file) (hdata : r.currentData = some file)
    (hdone : done <+: Framing.fitting frame file.length (records r.currentSegmentId))
    (hoffset : r.currentOffset = (Framing.frames frame done).length) :
    Follows dir w records [] r := by
  obtain ⟨rest, hrest⟩ := hdone
  refine .reading done rest hdata (hlayout.bound _ _ hfile) (hlayout.stored_prefix hfile)
    (fun file' hfile' => ?_) hrest.symm hoffset (fun x hx => (nomatch hx))
  rw [hfile] at hfile'
  cases hfile'
  exact List.prefix_rfl

/-- A reader at the beginning of a segment on disk. -/
theorem start (hlayout : Layout dir w records) {file : Bytes}
    (hfile : dir[r.currentSegmentId]? = some file) (hdata : r.currentData = some file)
    (hoffset : r.currentOffset = 0) : Follows dir w records [] r :=
  of_file hlayout hfile hdata List.nil_prefix hoffset

/-- What a reader does when its cache has nothing more. -/
theorem advance (hlayout : Layout dir w records) {data : Bytes} {done : List Bytes}
    (hdata : r.currentData = some data)
    (hid : r.currentSegmentId ≤ w.active.id)
    (hstream : data <+: Framing.frames frame (records r.currentSegmentId))
    (hcached : ∀ file, dir[r.currentSegmentId]? = some file → data <+: file)
    (hfit : Framing.fitting frame data.length (records r.currentSegmentId) = done)
    (hoffset : r.currentOffset = (Framing.frames frame done).length) :
    match WalReader.continueOrEnd (r.advanceSegment dir) with
    | .inl answer => Answered dir w records [] answer
    | .inr r' => Follows dir w records [] r' := by
  have hsame : Follows dir w records [] { r with availableSegments := dir.keys } :=
    .reading done [] hdata hid hstream hcached (by rw [hfit, List.append_nil]) hoffset
      (fun x hx => (nomatch hx))
  have hadvance := WalReader.advanceSegment_cases dir r hdata
  generalize r.advanceSegment dir = outcome at hadvance
  cases hadvance with
  | moved hnext hfile => exact start hlayout hfile rfl rfl
  | pruned hlast hgone => exact hsame
  | shrunk hlast hfile hlen =>
      have := (hcached _ hfile).length_le
      omega
  | unchanged hlast hfile hlen => exact hsame
  | @grown file hlast hfile hlen =>
      have htop : data ++ file.drop data.length = file := by
        obtain ⟨more, hmore⟩ := hcached file hfile
        rw [← hmore, List.drop_left]
      refine of_file hlayout hfile (by simp only [htop]) ?_ hoffset
      rw [← hfit]
      exact Framing.fitting_mono (Nat.le_of_lt hlen) _

/-- One turn of `next`. -/
theorem nextStep (hlayout : Layout dir w records) (h : Follows dir w records unreported r) :
    match r.nextStep dir with
    | .inl answer => Answered dir w records unreported answer
    | .inr r' => Follows dir w records unreported r' := by
  cases h with
  | waiting hdata hid hoffset hunreported =>
      rw [WalReader.nextStep_of_unloaded hdata, hunreported]
      have hreload := WalReader.reloadWhenUnloaded_cases dir r
      generalize r.reloadWhenUnloaded dir = outcome at hreload
      cases hreload with
      | appeared hfile =>
          refine start hlayout hfile rfl (hoffset.resolve_right ?_)
          simp [hfile]
      | jumped hgone hearliest hlater hfile => exact start hlayout hfile rfl rfl
      | waiting hgone hfirst => exact .waiting hdata hid (Or.inr hgone) rfl
  | @reading data done rest hdata hid hstream hcached hfit hoffset hunreported =>
      have hreads := Reads.of_prefix (hlayout.recordable _) hstream hfit
      rw [← hoffset] at hreads
      cases rest with
      | nil =>
          have hnil : unreported = [] :=
            List.eq_nil_iff_forall_not_mem.mpr fun x hx => (nomatch hunreported x hx)
          rw [WalReader.nextStep_of_stops hdata (hreads.stops _), hnil]
          rw [List.append_nil] at hfit
          exact advance hlayout hdata hid hstream hcached hfit hoffset
      | cons payload rest =>
          rw [WalReader.nextStep_of_record hdata (hreads.next _)]
          have hposition : r.currentOffset + (frame payload).length -
              (headerSize + payload.length) = r.currentOffset := by
            rw [frame_length]
            omega
          unfold Answered
          simp only [hposition]
          refine ⟨?_, .reading (done ++ [payload]) rest hdata hid hstream
            hcached ?_ hreads.take.offset_eq fun x hx => ?_⟩
          · -- the returned record is the first of those in the cache
            rw [List.any_eq_false]
            intro x hx
            obtain ⟨hseg, hle, -⟩ := mem_positions (hunreported x hx)
            simp only [WalPosition.before, hseg, Nat.lt_irrefl, decide_false, Bool.false_or,
              BEq.rfl, Bool.true_and, decide_eq_true_eq]
            omega
          · rw [hfit, List.append_assoc, List.singleton_append]
          · obtain ⟨hx, hne⟩ := List.mem_filter.mp hx
            obtain rfl | hx := List.mem_cons.mp (hunreported x hx)
            · simp at hne
            · exact hx

/-- What the reader answers when it follows the log. -/
theorem next (hlayout : Layout dir w records) (h : Follows dir w records unreported r) :
    Answered dir w records unreported (r.next dir) := by
  refine Loop.iterate_rule _ (Follows dir w records unreported) _ ?_ ?_ h
  · intro r r' hr hstep
    have := nextStep hlayout hr
    rwa [hstep] at this
  · intro r answer hr hstep
    have := nextStep hlayout hr
    rwa [hstep] at this

/-- A directory that grows is followed on. -/
theorem grow {dir' : Dir} {w' : WalWriter} (h : Follows dir w records unreported r)
    (hgrows : Grows dir w dir') (hactive : w.active.id ≤ w'.active.id) :
    Follows dir' w' records unreported r := by
  cases h with
  | waiting hdata hid hoffset hunreported =>
      refine .waiting hdata (by omega) (hoffset.imp_right fun hnone => ?_) hunreported
      obtain ⟨more, hmore⟩ := hgrows _ hid
      rw [hmore, hnone]
      rfl
  | reading done rest hdata hid hstream hcached hfit hoffset hunreported =>
      refine .reading done rest hdata (by omega) hstream (fun file hfile => ?_) hfit hoffset
        hunreported
      obtain ⟨more, hmore⟩ := hgrows _ hid
      rw [hfile] at hmore
      obtain ⟨file', hfile', rfl⟩ := Option.map_eq_some_iff.mp hmore.symm
      exact (hcached file' hfile').trans (List.prefix_append _ _)

/-- The reader is not ahead of the writer. -/
theorem segment_le (h : Follows dir w records unreported r) :
    r.currentSegmentId ≤ w.active.id := by
  cases h with
  | waiting hdata hid hoffset hunreported => exact hid
  | reading done rest hdata hid hstream hcached hfit hoffset hunreported => exact hid

/-- A session that starts again at the reader's position, in a segment that is
still there. -/
theorem reloaded (hlayout : Layout dir w records) (h : Follows dir w records unreported r)
    {file : Bytes} (hfile : dir[r.currentSegmentId]? = some file) :
    Follows dir w records unreported
      ⟨"tail", r.currentSegmentId, r.currentOffset, some file, dir.keys⟩ := by
  cases h with
  | waiting hdata hid hoffset hunreported =>
      rw [hunreported]
      refine start hlayout hfile rfl (hoffset.resolve_right ?_)
      simp [hfile]
  | @reading data done rest hdata hid hstream hcached hfit hoffset hunreported =>
      obtain ⟨more, hmore⟩ := Framing.fitting_mono (f := frame)
        (hcached file hfile).length_le (records r.currentSegmentId)
      rw [hfit, List.append_assoc] at hmore
      refine .reading done (rest ++ more) rfl hid
        (hlayout.stored_prefix hfile) (fun file' hfile' => ?_) hmore.symm hoffset
        fun x hx => ?_
      · rw [hfile] at hfile'
        cases hfile'
        exact List.prefix_rfl
      · change x ∈ positions r.currentSegmentId r.currentOffset (rest ++ more)
        rw [positions_append]
        exact List.mem_append_left _ (hunreported x hx)

/-- A record that is buffered is followed on. -/
theorem record (h : Follows dir w records unreported r) (payload : Bytes) :
    Follows dir (w.buffered payload) (recordIn records w.active.id payload) unreported r := by
  cases h with
  | waiting hdata hid hoffset hunreported => exact .waiting hdata hid hoffset hunreported
  | @reading data done rest hdata hid hstream hcached hfit hoffset hunreported =>
      refine .reading done rest hdata hid ?_ hcached ?_ hoffset hunreported
      · by_cases heq : r.currentSegmentId = w.active.id
        · rw [heq, recordIn_same]
          rw [heq] at hstream
          exact hstream.trans (Framing.frames_prefix (List.prefix_append _ _))
        · rwa [recordIn_ne records heq]
      · by_cases heq : r.currentSegmentId = w.active.id
        · rw [← hfit, ← heq, recordIn_same]
          exact Framing.fitting_append_of_le frame_ne_nil hstream.length_le _
        · rwa [recordIn_ne records heq]

/-- Pruning is seen by the reader only when it polls. -/
theorem prune (h : Follows dir w records unreported r) {dir' : Dir} {cut : Nat}
    (hpruned : ∀ id, dir'[id]? = if id < cut then none else dir[id]?) :
    Follows dir' w records unreported r := by
  cases h with
  | waiting hdata hid hoffset hunreported =>
      refine .waiting hdata hid (hoffset.imp_right fun hnone => ?_) hunreported
      rw [hpruned, hnone, ite_self]
  | reading done rest hdata hid hstream hcached hfit hoffset hunreported =>
      refine .reading done rest hdata hid hstream (fun file hfile => ?_) hfit hoffset hunreported
      rw [hpruned] at hfile
      split at hfile
      · cases hfile
      · exact hcached file hfile

/-- A gap whose records are all cached is ahead of the reader. -/
theorem covered (hlayout : Layout dir w records) (h : Follows dir w records [] r)
    (hgap : ∀ x ∈ unreported, Cached r x ∧ x ∈ positions x.segmentId 0 (records x.segmentId)) :
    Follows dir w records unreported r := by
  cases h with
  | waiting hdata hid hoffset _ =>
      refine .waiting hdata hid hoffset (List.eq_nil_iff_forall_not_mem.mpr fun x hx => ?_)
      obtain ⟨⟨-, -, hread⟩, -⟩ := hgap x hx
      simp [hdata] at hread
  | @reading data done rest hdata hid hstream hcached hfit hoffset _ =>
      refine .reading done rest hdata hid hstream hcached hfit hoffset fun x hx => ?_
      obtain ⟨⟨hseg, hahead, hread⟩, hmem⟩ := hgap x hx
      rw [hdata, Option.any_some] at hread
      cases hresult : readRecordAt data x.offset x.segmentId with
      | error e => simp [hresult] at hread
      | ok answer =>
          cases answer with
          | none => simp [hresult] at hread
          | some result =>
              rw [hoffset, ← hseg]
              rw [hoffset] at hahead
              rw [← hseg] at hstream hfit
              exact mem_positions_rest (hlayout.recordable _) hstream hfit hmem hahead hresult

end Follows

/-! ## Runs -/

/-- What holds in every state. -/
inductive Inv (s : State) : Prop
  | unopened (hwriter : s.writer = none) (hdir : s.dir = ∅) (hwritten : s.written = [])
      (hunreported : s.unreported = []) (hcrossed : s.crossed = false)
      (hreader : ∀ r ∈ s.reader, r.currentData = none ∧ r.currentSegmentId = 0 ∧
        r.currentOffset = 0)
  | opened {w : WalWriter} {records : Nat → List Bytes} (hwriter : s.writer = some w)
      (hlayout : Layout s.dir w records)
      (hwritten : ∀ x ∈ s.written, x ∈ positions x.segmentId 0 (records x.segmentId))
      (hunreported : ∀ x ∈ s.unreported, x ∈ s.written)
      (hreader : ∀ r ∈ s.reader, Follows s.dir w records [] r)
      (hcrossed : s.crossed = false)

namespace Inv

variable {s : State}

/-- The empty directory satisfies the invariant. -/
theorem init : Inv .init :=
  .unopened rfl rfl rfl rfl rfl (fun _ hr => (nomatch hr))

/-- Reporting a gap keeps the invariant. -/
theorem reported (h : Inv s) : Inv s.reported := by
  cases h with
  | unopened hwriter hdir hwritten hunreported hcrossed hreader =>
      exact .unopened hwriter hdir hwritten rfl hcrossed hreader
  | opened hwriter hlayout hwritten hunreported hreader hcrossed =>
      exact .opened hwriter hlayout hwritten (fun x hx => (nomatch hx)) hreader hcrossed

/-- Settling keeps the invariant. -/
theorem settle (h : Inv s) : Inv s.settle := by
  unfold State.settle
  split
  · exact h.reported
  · exact h

/-- A step of the writer that makes room or hands bytes to the file. -/
theorem of_grows {w w' : WalWriter} {records : Nat → List Bytes} {dir' : Dir}
    (hlayout' : Layout dir' w' records) (hgrows : Grows s.dir w dir')
    (hactive : w'.active.id = w.active.id ∨ w'.active.id = w.active.id + 1)
    (hwritten : ∀ x ∈ s.written, x ∈ positions x.segmentId 0 (records x.segmentId))
    (hunreported : ∀ x ∈ s.unreported, x ∈ s.written)
    (hreader : ∀ r ∈ s.reader, Follows s.dir w records [] r)
    (hcrossed : s.crossed = false) :
    Inv { s with writer := some w', dir := dir' } :=
  .opened rfl hlayout' hwritten hunreported
    (fun r hr => (hreader r hr).grow hgrows (by omega)) hcrossed

/-- Opening a writer keeps the invariant. -/
theorem openWriter (config : WalConfig) (h : Inv s) : Inv (act config s .openWriter) := by
  cases h with
  | unopened hwriter hdir hwritten hunreported hcrossed hreader =>
      have hlayout := Layout.openDir config
      have hact : act config s .openWriter = { s with
          writer := some (WalWriter.openDir config ∅).1
          dir := (WalWriter.openDir config ∅).2 } := by
        simp only [act, hwriter, hdir]
      rw [hact]
      refine .opened rfl hlayout (fun x hx => ?_) (fun x hx => ?_) (fun r hr => ?_) hcrossed
      · have : x ∈ s.written := hx
        rw [hwritten] at this
        cases this
      · have : x ∈ s.unreported := hx
        rw [hunreported] at this
        cases this
      · obtain ⟨hdata, hid, hoffset⟩ := hreader r hr
        exact .waiting hdata (by rw [hid]; exact Nat.zero_le _) (Or.inl hoffset) rfl
  | opened hwriter hlayout hwritten hunreported hreader hcrossed =>
      have hact : act config s .openWriter = s := by
        simp only [act, hwriter]
      rw [hact]
      exact .opened hwriter hlayout hwritten hunreported hreader hcrossed

/-- A partial write keeps the invariant. -/
theorem spill (config : WalConfig) (k : Nat) (h : Inv s) : Inv (act config s (.spill k)) := by
  cases h with
  | unopened hwriter hdir hwritten hunreported hcrossed hreader =>
      have hact : act config s (.spill k) = s := by
        simp only [act, hwriter]
      rw [hact]
      exact .unopened hwriter hdir hwritten hunreported hcrossed hreader
  | @opened w records hwriter hlayout hwritten hunreported hreader hcrossed =>
      have hact : act config s (.spill k) =
          { s with writer := some (w.spill k s.dir).1, dir := (w.spill k s.dir).2 } := by
        simp only [act, hwriter]
      rw [hact]
      exact of_grows (hlayout.spill k) (hlayout.spill_grows k) (Or.inl rfl) hwritten hunreported
        hreader hcrossed

/-- A flush keeps the invariant. -/
theorem flush (config : WalConfig) (h : Inv s) : Inv (act config s .flush) := by
  cases hcase : s.writer with
  | none =>
      have hact : act config s .flush = s := by
        simp only [act, hcase]
      rwa [hact]
  | some w =>
      have hact : act config s .flush = act config s (.spill w.active.buffer.length) := by
        simp only [act, hcase, WalWriter.flush, Segment.flush, WalWriter.spill]
      rw [hact]
      exact h.spill config _

/-- The record goes into the buffer, at the end of the active segment. -/
theorem record {w : WalWriter} (hwriter : s.writer = some w) {payload : Bytes}
    (hok : Recordable payload) (h : Inv s) :
    Inv { s with
      writer := some (w.buffered payload)
      written := s.written ++ [⟨w.active.id, w.active.writeOffset⟩] } := by
  cases h with
  | unopened hnone hdir hwritten hunreported hcrossed hreader =>
      rw [hwriter] at hnone
      cases hnone
  | @opened w' records hwriter' hlayout hwritten hunreported hreader hcrossed =>
      rw [hwriter] at hwriter'
      cases hwriter'
      refine .opened rfl (hlayout.record hok) (fun x hx => ?_)
        (fun x hx => List.mem_append_left _ (hunreported x hx))
        (fun r hr => (hreader r hr).record payload) hcrossed
      obtain hx | hx := List.mem_append.mp hx
      · have hold := hwritten x hx
        by_cases hid : x.segmentId = w.active.id
        · rw [hid] at hold ⊢
          rw [recordIn_same, positions_append]
          exact List.mem_append_left _ hold
        · rwa [recordIn_ne records hid]
      · rw [List.mem_singleton.mp hx]
        change _ ∈ positions w.active.id 0 (recordIn records w.active.id payload w.active.id)
        rw [recordIn_same, positions_append, Nat.zero_add, ← hlayout.offset]
        exact List.mem_append_right _ List.mem_cons_self

/-- An append keeps the invariant. -/
theorem append (config : WalConfig) (payload : Payload) (h : Inv s) :
    Inv (act config s (.append payload)) := by
  cases h with
  | unopened hwriter hdir hwritten hunreported hcrossed hreader =>
      have hact : act config s (.append payload) = s := by
        simp only [act, hwriter]
      rw [hact]
      exact .unopened hwriter hdir hwritten hunreported hcrossed hreader
  | @opened w records hwriter hlayout hwritten hunreported hreader hcrossed =>
      have hroom := of_grows (hlayout.makeRoom payload.bytes)
        (hlayout.makeRoom_grows payload.bytes) (hlayout.makeRoom_active payload.bytes) hwritten
        hunreported hreader hcrossed
      obtain ⟨hmax, happend⟩ | happend := w.append_cases payload.bytes s.dir
      · simp only [act, hwriter, happend]
        exact record rfl ⟨payload.ne_nil, hmax⟩ hroom
      · simp only [act, hwriter, happend]
        exact hroom

/-- Pruning keeps the invariant, whatever it takes. -/
theorem prune (config : WalConfig) (backpressure : Bool) (files : List (Option String))
    (h : Inv s) : Inv (act config s (.prune backpressure files)) := by
  cases h with
  | unopened hwriter hdir hwritten hunreported hcrossed hreader =>
      have hact : act config s (.prune backpressure files) = s := by
        simp only [act, hwriter]
      rw [hact]
      exact .unopened hwriter hdir hwritten hunreported hcrossed hreader
  | @opened w records hwriter hlayout hwritten hunreported hreader hcrossed =>
      obtain ⟨cut, hcut, hpruned⟩ := prunedDir_eq w backpressure files s.dir
      simp only [act, hwriter]
      refine .opened rfl (hlayout.prune hcut hpruned) hwritten (fun x hx => ?_)
        (fun r hr => (hreader r hr).prune hpruned) hcrossed
      dsimp only at hx ⊢
      split at hx
      · obtain hx | hx := List.mem_append.mp hx
        · exact hunreported x hx
        · exact List.mem_of_mem_filter (List.mem_of_mem_filter hx)
      · exact hunreported x hx

/-- Opening the reader keeps the invariant. -/
theorem openReader (config : WalConfig) (h : Inv s) : Inv (act config s .openReader) := by
  cases hcase : s.reader with
  | some r =>
      have hact : act config s .openReader = s := by
        simp only [act, hcase]
      rwa [hact]
  | none =>
      have hact : act config s .openReader =
          { s with reader := some (WalReader.openDir "tail" none s.dir) } := by
        simp only [act, hcase]
      rw [hact]
      cases h with
      | unopened hwriter hdir hwritten hunreported hcrossed hreader =>
          refine .unopened hwriter hdir hwritten hunreported hcrossed fun r hr => ?_
          rw [hdir] at hr
          obtain rfl := Option.some.inj hr
          exact ⟨rfl, rfl, rfl⟩
      | @opened w records hwriter hlayout hwritten hunreported hreader hcrossed =>
          refine .opened hwriter hlayout hwritten hunreported (fun r hr => ?_)
            hcrossed
          obtain rfl := Option.some.inj hr
          obtain ⟨file, hactive⟩ := hlayout.active
          obtain ⟨first, data, hfirst, hdata⟩ := Dir.head?_keys_of_getElem? hactive
          change Follows s.dir w records [] _
          rw [WalReader.openDir_of_head "tail" hfirst hdata]
          exact .start hlayout hdata rfl rfl

/-- Opening the reader anew keeps the invariant. -/
theorem reopen (config : WalConfig) (h : Inv s) : Inv (act config s .reopen) := by
  cases hcase : s.reader with
  | none =>
      have hact : act config s .reopen = s := by
        simp only [act, hcase]
      rwa [hact]
  | some r =>
      have hact : act config s .reopen =
          { s with reader := some (WalReader.openAt "tail" r.currentPosition s.dir) } := by
        simp only [act, hcase]
      rw [hact]
      cases h with
      | unopened hwriter hdir hwritten hunreported hcrossed hreader =>
          refine .unopened hwriter hdir hwritten hunreported hcrossed fun r' hr' => ?_
          obtain ⟨hdata, hid, hoffset⟩ := hreader r hcase
          rw [hdir] at hr'
          obtain rfl := Option.some.inj hr'
          exact ⟨rfl, hid, hoffset⟩
      | @opened w records hwriter hlayout hwritten hunreported hreader hcrossed =>
          refine .opened hwriter hlayout hwritten hunreported (fun r' hr' => ?_)
            hcrossed
          obtain rfl := Option.some.inj hr'
          have hfollows := hreader r hcase
          cases hfile : s.dir[r.currentSegmentId]? with
          | some file =>
              rw [WalReader.openAt_of_some "tail" r.currentPosition hfile]
              exact hfollows.reloaded hlayout hfile
          | none =>
              rw [WalReader.openAt_of_none "tail" r.currentPosition hfile]
              exact .waiting rfl hfollows.segment_le (Or.inr hfile) rfl

/-- The step that could go wrong. -/
theorem poll (config : WalConfig) (h : Inv s) (hcovered : Covered s .poll) :
    Inv (act config s .poll) := by
  cases hcase : s.reader with
  | none =>
      have hact : act config s .poll = s := by
        simp only [act, hcase]
      rwa [hact]
  | some r =>
      have hact : act config s .poll = s.answered (r.next s.dir) := by
        simp only [act, hcase]
      rw [hact]
      cases h with
      | unopened hwriter hdir hwritten hunreported hcrossed hreader =>
          obtain ⟨hdata, hid, hoffset⟩ := hreader r hcase
          have hnext : r.next s.dir = (.ok none, { r with availableSegments := s.dir.keys }) := by
            refine Loop.iterate_of_inl _ ?_
            rw [WalReader.nextStep_of_unloaded hdata, hdir]
            rfl
          rw [hnext]
          refine .unopened hwriter hdir hwritten hunreported hcrossed fun r' hr' => ?_
          obtain rfl := Option.some.inj hr'
          exact ⟨hdata, hid, hoffset⟩
      | @opened w records hwriter hlayout hwritten hunreported hreader hcrossed =>
          have hfollows : Follows s.dir w records s.unreported r :=
            (hreader r hcase).covered hlayout fun x hx =>
              ⟨hcovered r hcase x hx, hwritten x (hunreported x hx)⟩
          have hnext := hfollows.next hlayout
          generalize r.next s.dir = answer at hnext
          obtain ⟨result, r'⟩ := answer
          cases result with
          | error e => exact hnext.elim
          | ok answer =>
              cases answer with
              | some payload =>
                  obtain ⟨hahead, hfollows⟩ := hnext
                  refine .opened hwriter hlayout hwritten
                    (fun x hx => hunreported x (List.mem_of_mem_filter hx)) (fun r'' hr'' => ?_) ?_
                  · obtain rfl := Option.some.inj hr''
                    exact hfollows.mono [] fun x hx => (nomatch hx)
                  · simp only [State.answered, hcrossed, hahead, Bool.or_false]
              | none =>
                  refine .opened hwriter hlayout hwritten hunreported
                    (fun r'' hr'' => ?_) hcrossed
                  obtain rfl := Option.some.inj hr''
                  exact hnext.mono [] fun x hx => (nomatch hx)

/-- Every covered event keeps the invariant. -/
theorem step (config : WalConfig) (e : Event) (h : Inv s) (hcovered : Covered s e) :
    Inv (step config s e) := by
  cases e with
  | openWriter => exact (h.openWriter config).settle
  | append payload => exact (h.append config payload).settle
  | spill k => exact (h.spill config k).settle
  | flush => exact (h.flush config).settle
  | prune backpressure files => exact (h.prune config backpressure files).settle
  | openReader => exact (h.openReader config).settle
  | reopen => exact (h.reopen config).settle
  | poll => exact (h.poll config hcovered).settle

/-- A reader that satisfies the invariant has crossed no gap in silence. -/
theorem crossed_eq (h : Inv s) : s.crossed = false := by
  cases h with
  | unopened hwriter hdir hwritten hunreported hcrossed hreader => exact hcrossed
  | opened hwriter hlayout hwritten hunreported hreader hcrossed => exact hcrossed

end Inv

/-- **A gap the reader was ahead of stays behind it.**  If the reader is polled only while
what was deleted before it was returned, and has not been reported since, is whole in its
cache, then no record is ever returned past a gap that was not reported. -/
theorem no_silent_gap (config : WalConfig) (events : List Event)
    (hcovered : Runs.Meets (step config) Covered .init events) :
    (Runs.run (step config) .init events).crossed = false :=
  have hinv : Inv (Runs.run (step config) .init events) :=
    Runs.Meets.induction (fun _ e h => h.step config e) Inv.init hcovered
  hinv.crossed_eq

end

namespace Sample

/-- Room for two one-byte records in a segment. -/
def twoRecords : WalConfig := ⟨20, 16, 1000⟩

/-- A record of one byte is appended. -/
def append (b : UInt8) : Event := .append (.cons b [])

/-- The reader has read the first segment when it is pruned. -/
def readRun : List Event :=
  [.openWriter, .openReader, append 1, append 2, .flush, .poll, .poll, append 3, .flush, .poll,
    .prune false [], append 4, .flush, .poll]

/-- Two records are pruned unread, and the session that starts again reports it. -/
def reopenedRun : List Event :=
  [.openWriter, append 1, append 2, .flush, .openReader, .poll, append 3, append 4, append 5,
    .flush, .prune false [], .reopen, .poll, .poll]

/-- The second segment is pruned while the reader is still in the first. -/
def unreadRun : List Event :=
  [.openWriter, append 1, append 2, .flush, .openReader, .poll, append 3, append 4, append 5,
    .flush, .prune false [], .poll, .poll]

end Sample

/-- A prune behind the reader, and one whose gap is reported. -/
theorem no_silent_gap_readRun :
    (Runs.run (step Sample.twoRecords) .init Sample.readRun).crossed = false ∧
      (Runs.run (step Sample.twoRecords) .init Sample.reopenedRun).crossed = false :=
  ⟨no_silent_gap Sample.twoRecords Sample.readRun (by decide +kernel),
    no_silent_gap Sample.twoRecords Sample.reopenedRun (by decide +kernel)⟩

/-- Two records are deleted unread, and the reader goes on to the fifth without a
word. -/
theorem pruned_segment_crossed_silently :
    (Runs.run (step Sample.twoRecords) .init Sample.unreadRun).crossed = true := by
  decide +kernel

end PrunedGap

end PolyBook.Wal
