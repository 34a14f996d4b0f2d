import PolyBook.Wal.Reader

/-!
# Scanning a quiescent directory

Following the length fields of a segment file from its start gives the frames
`next` comes to in it, whatever the bytes are.  `ahead` collects those a reader
still has before it in a directory nobody writes to; `next_ahead` shows that a
call returns the first of them whose checksum is right, passing over the others,
and reports the end when there is none.
-/

namespace PolyBook.Wal

/-- A frame in a segment file: the position after it, and its payload unless the
checksum is wrong. -/
structure Scanned where
  position : WalPosition
  payload : Option Bytes
  deriving DecidableEq

namespace Dir

/-- The segments after a given one. -/
def after (dir : Dir) (id : Nat) : List (Nat × Bytes) := dir.toList.filter (id < ·.1)

theorem after_of_next {dir : Dir} {id nextId : Nat} {file : Bytes}
    (hnext : NextSegment dir id nextId) (hfile : dir[nextId]? = some file) :
    dir.after id = (nextId, file) :: dir.after nextId := by
  obtain ⟨earlier, later, hsplit, hearlier, hlater⟩ := TreeMapLookup.toList_split hfile
  have hbefore : ∀ e ∈ earlier, e.1 ≤ id := by
    intro e he
    have hget : dir[e.1]? = some e.2 := by
      rw [← Std.ExtTreeMap.mem_toList_iff_getElem?_eq_some, hsplit]
      exact List.mem_append_left _ he
    have hmem := mem_keys_of_getElem? hget
    have hlt := Nat.compare_eq_lt.mp (hearlier e he)
    obtain hle | hle := hnext.nearest e.1 hmem
    · exact hle
    · omega
  have hafter : ∀ e ∈ later, nextId < e.1 := fun e he => Nat.compare_eq_lt.mp (hlater e he)
  have hskip : ∀ bound, id ≤ bound → earlier.filter (bound < ·.1) = [] := by
    intro bound hbound
    refine List.filter_eq_nil_iff.mpr fun e he => ?_
    have := hbefore e he
    simp only [decide_eq_true_eq]
    omega
  have hkeep : ∀ bound, bound ≤ nextId → later.filter (bound < ·.1) = later := by
    intro bound hbound
    refine List.filter_eq_self.mpr fun e he => ?_
    have := hafter e he
    simp only [decide_eq_true_eq]
    omega
  have hlt := hnext.later
  unfold after
  rw [hsplit, List.filter_append, List.filter_append, hskip id (Nat.le_refl _),
    hskip nextId (Nat.le_of_lt hlt), List.filter_cons_of_pos (by simpa using hlt),
    List.filter_cons_of_neg (by simp), hkeep id (Nat.le_of_lt hlt), hkeep nextId (Nat.le_refl _)]
  rfl

theorem after_of_last {dir : Dir} {id : Nat} (h : ∀ other ∈ dir.keys, other ≤ id) :
    dir.after id = [] := by
  refine List.filter_eq_nil_iff.mpr fun e he => ?_
  have := h e.1 (mem_keys_of_getElem? (Std.ExtTreeMap.mem_toList_iff_getElem?_eq_some.mp he))
  simp only [decide_eq_true_eq]
  omega

end Dir

theorem WalReader.continueOrEnd_ne_record (outcome : Bool × WalReader) (payload : Bytes)
    (r' : WalReader) :
    WalReader.continueOrEnd outcome ≠ .inl (.ok (some payload), r') := by
  obtain ⟨went, r⟩ := outcome
  cases went <;> simp [WalReader.continueOrEnd]

section

variable [Crc32c]

theorem end_le_of_corrupt {data : Bytes} {offset id seg off : Nat} {expected actual : UInt32}
    (h : readRecordAt data offset id = .error (.crcMismatch seg off expected actual)) :
    offset + (headerSize + recordLen data offset) ≤ data.length := by
  obtain hread | hread | ⟨hfits, -⟩ := readRecordAt_cases data offset id
  · simp [hread] at h
  · simp [hread] at h
  · omega

/-- The frames of a file from an offset on, up to the end or a cut one. -/
def framesFrom (data : Bytes) (id offset : Nat) : List Scanned :=
  match _hread : readRecordAt data offset id with
  | .ok (some (payload, next)) => ⟨⟨id, next⟩, some payload⟩ :: framesFrom data id next
  | .error (.crcMismatch ..) =>
      let next := offset + (headerSize + recordLen data offset)
      ⟨⟨id, next⟩, none⟩ :: framesFrom data id next
  | _ => []
termination_by data.length - offset
decreasing_by
  · have := readRecordAt_next_offset _hread
    omega
  · have := end_le_of_corrupt _hread
    have hpos : 0 < headerSize := by decide
    omega

theorem framesFrom_of_record {data payload : Bytes} {id offset next : Nat}
    (h : readRecordAt data offset id = .ok (some (payload, next))) :
    framesFrom data id offset = ⟨⟨id, next⟩, some payload⟩ :: framesFrom data id next := by
  rw [framesFrom]
  split <;> simp_all

theorem framesFrom_of_corrupt {data : Bytes} {id offset seg off : Nat}
    {expected actual : UInt32}
    (h : readRecordAt data offset id = .error (.crcMismatch seg off expected actual)) :
    framesFrom data id offset =
      ⟨⟨id, offset + (headerSize + recordLen data offset)⟩, none⟩ ::
        framesFrom data id (offset + (headerSize + recordLen data offset)) := by
  rw [framesFrom]
  split
  · simp_all
  · rfl
  · rename_i hother
    exact absurd h (hother _ _ _ _)

theorem framesFrom_of_stops {data : Bytes} {id offset : Nat} (h : Stops data offset id) :
    framesFrom data id offset = [] := by
  rw [framesFrom]
  obtain hstop | hstop := h
  · split <;> simp_all
  · split <;> simp_all

/-- The frames from an offset on end after it. -/
theorem position_of_mem_framesFrom {data : Bytes} {id offset : Nat} {s : Scanned}
    (h : s ∈ framesFrom data id offset) :
    s.position.segmentId = id ∧ offset < s.position.offset := by
  induction hn : data.length - offset using Nat.strongRecOn generalizing offset with
  | _ n ih =>
      obtain hread | hread | ⟨hfits, ⟨payload, hread⟩ | ⟨expected, actual, hread⟩⟩ :=
        readRecordAt_cases data offset id
      · rw [framesFrom_of_stops (Or.inl hread)] at h
        cases h
      · rw [framesFrom_of_stops (Or.inr hread)] at h
        cases h
      all_goals
        have hpos : 0 < headerSize := by decide
      · rw [framesFrom_of_record hread] at h
        obtain rfl | h := List.mem_cons.mp h
        · refine ⟨rfl, ?_⟩
          dsimp only
          omega
        · obtain ⟨hid, hlt⟩ := ih _ (by omega) h rfl
          exact ⟨hid, by omega⟩
      · rw [framesFrom_of_corrupt hread] at h
        obtain rfl | h := List.mem_cons.mp h
        · refine ⟨rfl, ?_⟩
          dsimp only
          omega
        · obtain ⟨hid, hlt⟩ := ih _ (by omega) h rfl
          exact ⟨hid, by omega⟩

theorem mem_framesFrom {data : Bytes} {id offset : Nat} {s : Scanned}
    (h : s ∈ framesFrom data id offset) : s.position.segmentId = id :=
  (position_of_mem_framesFrom h).1

/-- The records that are framed one after another, with the positions after them. -/
def endings (id : Nat) : (start : Nat) → List Bytes → List (WalPosition × Bytes)
  | _, [] => []
  | start, r :: rs =>
      (⟨id, start + (frame r).length⟩, r) :: endings id (start + (frame r).length) rs

theorem endings_append (id start : Nat) (rs rs' : List Bytes) :
    endings id start (rs ++ rs') =
      endings id start rs ++ endings id (start + (Framing.frames frame rs).length) rs' := by
  induction rs generalizing start with
  | nil => simp [endings]
  | cons r rs ih =>
      rw [List.cons_append, endings, endings, ih, List.cons_append, Framing.frames_cons,
        List.length_append, Nat.add_assoc]

/-- The records of framed endings. -/
theorem map_snd_endings (id start : Nat) (rs : List Bytes) :
    (endings id start rs).map Prod.snd = rs := by
  induction rs generalizing start with
  | nil => rfl
  | cons r rs ih => rw [endings, List.map_cons, ih]

theorem mem_endings {id start : Nat} {rs : List Bytes} {x : WalPosition × Bytes}
    (h : x ∈ endings id start rs) : x.1.segmentId = id ∧ start < x.1.offset := by
  induction rs generalizing start with
  | nil => cases h
  | cons r rs ih =>
      have hpos := List.length_pos_of_ne_nil (frame_ne_nil r)
      obtain rfl | h := List.mem_cons.mp h
      · exact ⟨rfl, show start < start + (frame r).length by omega⟩
      · obtain ⟨hid, hlt⟩ := ih h
        exact ⟨hid, by omega⟩

theorem le_of_mem_endings {id start : Nat} {rs : List Bytes} {x : WalPosition × Bytes}
    (h : x ∈ endings id start rs) : x.1.offset ≤ start + (Framing.frames frame rs).length := by
  induction rs generalizing start with
  | nil => cases h
  | cons r rs ih =>
      rw [Framing.frames_cons, List.length_append]
      obtain rfl | h := List.mem_cons.mp h
      · exact show start + (frame r).length ≤ _ by omega
      · have := ih h
        omega

/-- Undamaged frames are found as they were written. -/
theorem Reads.framesFrom_eq {data : Bytes} {offset : Nat} {done rest : List Bytes}
    (h : Reads data offset done rest) (id : Nat) :
    framesFrom data id offset = (endings id offset rest).map fun x => ⟨x.1, some x.2⟩ := by
  induction rest generalizing offset done with
  | nil => exact framesFrom_of_stops (h.stops id)
  | cons r rest ih =>
      rw [framesFrom_of_record (h.next id), ih h.take, endings, List.map_cons]

/-- Where the frames of a file end. -/
def framesEnd (data : Bytes) (id offset : Nat) : WalPosition :=
  ((framesFrom data id offset).getLast?.map (·.position)).getD ⟨id, offset⟩

theorem framesEnd_of_stops {data : Bytes} {id offset : Nat} (h : Stops data offset id) :
    framesEnd data id offset = ⟨id, offset⟩ := by
  rw [framesEnd, framesFrom_of_stops h]
  rfl

theorem framesEnd_of_cons {data : Bytes} {id offset next : Nat} {payload : Option Bytes}
    (h : framesFrom data id offset = ⟨⟨id, next⟩, payload⟩ :: framesFrom data id next) :
    framesEnd data id offset = framesEnd data id next := by
  rw [framesEnd, h, List.getLast?_cons, framesEnd]
  cases (framesFrom data id next).getLast? with
  | none => rfl
  | some last => rfl

theorem Reads.framesEnd_eq {data : Bytes} {offset : Nat} {done rest : List Bytes}
    (h : Reads data offset done rest) (id : Nat) :
    framesEnd data id offset = ⟨id, (Framing.frames frame (done ++ rest)).length⟩ := by
  induction rest generalizing offset done with
  | nil => rw [framesEnd_of_stops (h.stops id), h.offset_eq, List.append_nil]
  | cons r rest ih =>
      rw [framesEnd_of_cons (framesFrom_of_record (h.next id)), ih h.take, List.append_assoc,
        List.singleton_append]

namespace Dir

/-- The frames of some segments, from the beginning of each. -/
def framesOf (segments : List (Nat × Bytes)) : List Scanned :=
  segments.flatMap fun e => framesFrom e.2 e.1 0

/-- The frames of all segment files. -/
def scan (dir : Dir) : List Scanned := framesOf dir.toList

/-- A record whose segment file is a stream of frames is found. -/
theorem mem_scan_of_frames {dir : Dir} {id : Nat} {before after : List Bytes} {payload : Bytes}
    (hfile : dir[id]? = some (Framing.frames frame (before ++ payload :: after)))
    (hok : ∀ r ∈ before ++ payload :: after, Recordable r) :
    ⟨⟨id, (Framing.frames frame before).length + (frame payload).length⟩, some payload⟩ ∈
      dir.scan := by
  have hreads : Reads (Framing.frames frame (before ++ payload :: after)) 0 []
      (before ++ payload :: after) :=
    ⟨rfl, ⟨[], Framing.torn_nil, by rw [List.append_nil, List.nil_append]⟩, hok⟩
  refine List.mem_flatMap.mpr
    ⟨(id, _), Std.ExtTreeMap.mem_toList_iff_getElem?_eq_some.mpr hfile, ?_⟩
  rw [hreads.framesFrom_eq, endings_append, endings, Nat.zero_add]
  exact List.mem_map_of_mem (f := fun x : WalPosition × Bytes => (⟨x.1, some x.2⟩ : Scanned))
    (List.mem_append_right _ List.mem_cons_self)

/-- Where the frames of the last of some segments end. -/
def endOf (segments : List (Nat × Bytes)) (otherwise : WalPosition) : WalPosition :=
  (segments.getLast?.map fun e => framesEnd e.2 e.1 0).getD otherwise

theorem endOf_cons (id : Nat) (file : Bytes) (segments : List (Nat × Bytes))
    (otherwise : WalPosition) :
    endOf ((id, file) :: segments) otherwise = endOf segments (framesEnd file id 0) := by
  rw [endOf, endOf, List.getLast?_cons]
  cases segments.getLast? with
  | none => rfl
  | some last => rfl

/-- Where the frames of the last segment end. -/
def scanEnd (dir : Dir) : WalPosition := endOf dir.toList ⟨0, 0⟩

end Dir

namespace WalReader

/-- The cache is the current segment's file, if there is one. -/
def Fresh (dir : Dir) (r : WalReader) : Prop := r.currentData = dir[r.currentSegmentId]?

/-- The frames that are still before a reader with a fresh cache. -/
def ahead (dir : Dir) (r : WalReader) : List Scanned :=
  match r.currentData with
  | some data =>
      framesFrom data r.currentSegmentId r.currentOffset ++
        Dir.framesOf (dir.after r.currentSegmentId)
  | none =>
      match dir.keys.head? with
      | some earliest => if r.currentSegmentId < earliest then dir.scan else []
      | none => []

/-- Where such a reader ends up. -/
def finish (dir : Dir) (r : WalReader) : WalPosition :=
  match r.currentData with
  | some data =>
      Dir.endOf (dir.after r.currentSegmentId) (framesEnd data r.currentSegmentId r.currentOffset)
  | none =>
      match dir.keys.head? with
      | some earliest =>
          if r.currentSegmentId < earliest then dir.scanEnd else r.currentPosition
      | none => r.currentPosition

theorem ahead_of_data (dir : Dir) {r : WalReader} {data : Bytes} (h : r.currentData = some data) :
    r.ahead dir = framesFrom data r.currentSegmentId r.currentOffset ++
      Dir.framesOf (dir.after r.currentSegmentId) := by
  simp only [ahead, h]

theorem finish_of_data (dir : Dir) {r : WalReader} {data : Bytes}
    (h : r.currentData = some data) :
    r.finish dir = Dir.endOf (dir.after r.currentSegmentId)
      (framesEnd data r.currentSegmentId r.currentOffset) := by
  simp only [finish, h]

/-- At the start of the earliest segment everything is ahead. -/
theorem ahead_of_earliest {dir : Dir} {r : WalReader} {file : Bytes}
    (hfirst : dir.keys.head? = some r.currentSegmentId) (hdata : r.currentData = some file)
    (hfile : dir[r.currentSegmentId]? = some file) (hoffset : r.currentOffset = 0) :
    r.ahead dir = dir.scan ∧ r.finish dir = dir.scanEnd := by
  have hsplit : dir.toList = (r.currentSegmentId, file) :: dir.after r.currentSegmentId := by
    obtain ⟨earlier, later, hsplit, hearlier, hlater⟩ := TreeMapLookup.toList_split hfile
    have hkeys := Std.ExtTreeMap.map_fst_toList_eq_keys (t := dir)
    cases earlier with
    | cons e earlier =>
        rw [hsplit] at hkeys
        rw [← hkeys] at hfirst
        have hlt := Nat.compare_eq_lt.mp (hearlier e List.mem_cons_self)
        have heq : e.1 = r.currentSegmentId := by simpa using hfirst
        omega
    | nil =>
        have hkeep : later.filter (r.currentSegmentId < ·.1) = later :=
          List.filter_eq_self.mpr fun e he => by simpa using Nat.compare_eq_lt.mp (hlater e he)
        rw [Dir.after, hsplit, List.nil_append, List.filter_cons_of_neg (by simp), hkeep]
  rw [ahead_of_data dir hdata, finish_of_data dir hdata, hoffset, Dir.scan, Dir.scanEnd, hsplit,
    Dir.endOf_cons]
  exact ⟨rfl, rfl⟩

/-- Every frame ahead is in a segment on disk. -/
theorem mem_ahead {dir : Dir} {r : WalReader} (h : r.Fresh dir) {s : Scanned}
    (hs : s ∈ r.ahead dir) : dir.contains s.position.segmentId = true := by
  have hfile : ∀ id file, dir[id]? = some file → dir.contains id = true := by
    intro id file hfile
    rw [Std.ExtTreeMap.contains_eq_isSome_getElem?, hfile]
    rfl
  have hframes : ∀ segments ⊆ dir.toList, s ∈ Dir.framesOf segments →
      dir.contains s.position.segmentId = true := by
    intro segments hsub hs
    obtain ⟨e, he, hs⟩ := List.mem_flatMap.mp hs
    rw [mem_framesFrom hs]
    exact hfile e.1 e.2 (Std.ExtTreeMap.mem_toList_iff_getElem?_eq_some.mp (hsub he))
  unfold ahead at hs
  split at hs
  · rename_i data hdata
    obtain hs | hs := List.mem_append.mp hs
    · rw [mem_framesFrom hs]
      exact hfile _ data (h ▸ hdata)
    · exact hframes _ (List.filter_subset_self _) hs
  · split at hs
    · split at hs
      · exact hframes _ (List.Subset.refl _) hs
      · cases hs
    · cases hs

/-- What is ahead of a reader is after its position. -/
theorem before_of_mem_ahead {dir : Dir} {r : WalReader} {s : Scanned} (hs : s ∈ r.ahead dir) :
    r.currentPosition.before s.position = true := by
  have hbefore : r.currentSegmentId < s.position.segmentId ∨
      r.currentSegmentId = s.position.segmentId ∧ r.currentOffset < s.position.offset := by
    unfold ahead at hs
    split at hs
    · rcases List.mem_append.mp hs with hs | hs
      · obtain ⟨hid, hlt⟩ := position_of_mem_framesFrom hs
        exact Or.inr ⟨hid.symm, hlt⟩
      · obtain ⟨e, he, hs⟩ := List.mem_flatMap.mp hs
        rw [mem_framesFrom hs]
        exact Or.inl (by simpa using (List.mem_filter.mp he).2)
    · split at hs
      · rename_i earliest hearliest
        split at hs
        · rename_i hlt
          obtain ⟨e, he, hs⟩ := List.mem_flatMap.mp hs
          rw [mem_framesFrom hs]
          have hle := Dir.head_le_of_mem hearliest
            (Dir.mem_keys_of_getElem? (Std.ExtTreeMap.mem_toList_iff_getElem?_eq_some.mp he))
          exact Or.inl (by omega)
        · cases hs
      · cases hs
  rw [WalPosition.before, currentPosition, Bool.or_eq_true, Bool.and_eq_true, beq_iff_eq]
  exact hbefore.imp decide_eq_true fun h => ⟨h.1, decide_eq_true h.2⟩

/-- What one turn of `next`, or a whole call, finds ahead. -/
def Finds (dir : Dir) (frames : List Scanned) (finish : WalPosition) :
    Except WalError (Option Bytes) × WalReader → Prop
  | (.ok (some payload), r) =>
      r.Fresh dir ∧ r.finish dir = finish ∧ ∃ skipped, (∀ s ∈ skipped, s.payload = none) ∧
        frames = skipped ++ ⟨r.currentPosition, some payload⟩ :: r.ahead dir
  | (.ok none, r) => r.currentPosition = finish ∧ ∀ s ∈ frames, s.payload = none
  | (.error _, _) => False

/-- What one turn of `next` does. -/
def Turns (dir : Dir) (r : WalReader) :
    (Except WalError (Option Bytes) × WalReader) ⊕ WalReader → Prop
  | .inl answer => Finds dir (r.ahead dir) (r.finish dir) answer
  | .inr r' => r'.Fresh dir ∧ r'.finish dir = r.finish dir ∧
      ∃ skipped, (∀ s ∈ skipped, s.payload = none) ∧ r.ahead dir = skipped ++ r'.ahead dir

/-- A turn at the end of what there is to read in the cache. -/
theorem turns_of_stops {dir : Dir} {r : WalReader} {data : Bytes} (h : r.Fresh dir)
    (hdata : r.currentData = some data)
    (hstop : Stops data r.currentOffset r.currentSegmentId) : r.Turns dir (r.nextStep dir) := by
  have hfile : dir[r.currentSegmentId]? = some data := by rw [← h, hdata]
  have hahead := ahead_of_data dir hdata
  have hfinish := finish_of_data dir hdata
  rw [framesFrom_of_stops hstop, List.nil_append] at hahead
  rw [framesEnd_of_stops hstop] at hfinish
  rw [nextStep_of_stops hdata hstop]
  have hadvance := advanceSegment_cases dir r hdata
  generalize r.advanceSegment dir = outcome at hadvance
  cases hadvance with
  | moved hnext hnextFile =>
      rw [Dir.after_of_next hnext hnextFile] at hahead hfinish
      rw [Dir.endOf_cons] at hfinish
      exact ⟨hnextFile.symm, hfinish.symm, [], by simp, hahead⟩
  | pruned hlast hgone => simp [hgone] at hfile
  | shrunk hlast hfile' hlen =>
      rw [hfile] at hfile'
      cases hfile'
      omega
  | unchanged hlast hfile' hlen =>
      rw [Dir.after_of_last hlast] at hahead hfinish
      refine ⟨hfinish.symm, ?_⟩
      rw [hahead]
      exact fun s hs => (nomatch hs)
  | grown hlast hfile' hlen =>
      rw [hfile] at hfile'
      cases hfile'
      omega

/-- A turn of a reader whose segment is missing. -/
theorem turns_of_unloaded {dir : Dir} {r : WalReader} (h : r.Fresh dir)
    (hdata : r.currentData = none) : r.Turns dir (r.nextStep dir) := by
  have hgone : dir[r.currentSegmentId]? = none := by rw [← h, hdata]
  rw [nextStep_of_unloaded hdata]
  have hreload := reloadWhenUnloaded_cases dir r
  generalize r.reloadWhenUnloaded dir = outcome at hreload
  cases hreload with
  | appeared hfile => simp [hgone] at hfile
  | @jumped earliest file _ hearliest hlater hfile =>
      obtain ⟨hahead, hfinish⟩ := ahead_of_earliest
        (r := ⟨r.consumerName, earliest, 0, some file, dir.keys⟩) hearliest rfl hfile rfl
      refine ⟨hfile.symm, ?_, [], by simp, ?_⟩
      · refine hfinish.trans ?_
        simp only [finish, hdata, hearliest, if_pos hlater]
      · refine Eq.trans ?_ hahead.symm
        simp only [ahead, hdata, hearliest, if_pos hlater]
  | waiting _ hfirst =>
      have hnone : r.ahead dir = [] ∧ r.finish dir = r.currentPosition := by
        simp only [ahead, finish, hdata]
        cases hhead : dir.keys.head? with
        | none => exact ⟨rfl, rfl⟩
        | some earliest =>
            have := hfirst earliest hhead
            exact ⟨if_neg (by omega), if_neg (by omega)⟩
      refine ⟨hnone.2.symm, ?_⟩
      rw [hnone.1]
      exact fun s hs => (nomatch hs)

/-- A turn answers, or goes round with corrupt frames behind it. -/
theorem nextStep_turns {dir : Dir} {r : WalReader} (h : r.Fresh dir) :
    r.Turns dir (r.nextStep dir) := by
  cases hdata : r.currentData with
  | none => exact turns_of_unloaded h hdata
  | some data =>
      have hahead := ahead_of_data dir hdata
      have hfinish := finish_of_data dir hdata
      obtain hread | hread | ⟨-, ⟨payload, hread⟩ | ⟨expected, actual, hread⟩⟩ :=
        readRecordAt_cases data r.currentOffset r.currentSegmentId
      · exact turns_of_stops h hdata (Or.inl hread)
      · exact turns_of_stops h hdata (Or.inr hread)
      · have hframes := framesFrom_of_record hread
        rw [nextStep_of_record hdata hread]
        rw [framesEnd_of_cons hframes] at hfinish
        rw [hframes] at hahead
        refine ⟨h, ?_, [], by simp, ?_⟩
        · rw [hfinish, finish_of_data dir (by exact hdata)]
        · rw [hahead, ahead_of_data dir (by exact hdata)]
          rfl
      · have hframes := framesFrom_of_corrupt hread
        rw [nextStep_of_corrupt hdata hread]
        rw [framesEnd_of_cons hframes] at hfinish
        rw [hframes] at hahead
        refine ⟨h, ?_, [⟨⟨r.currentSegmentId,
          r.currentOffset + (headerSize + recordLen data r.currentOffset)⟩, none⟩], by simp, ?_⟩
        · rw [hfinish, finish_of_data dir (by exact hdata)]
        · rw [hahead, ahead_of_data dir (by exact hdata)]
          rfl

theorem Finds.skip {dir : Dir} {frames skipped : List Scanned} {finish : WalPosition}
    {answer : Except WalError (Option Bytes) × WalReader}
    (h : Finds dir frames finish answer) (hskipped : ∀ s ∈ skipped, s.payload = none) :
    Finds dir (skipped ++ frames) finish answer := by
  obtain ⟨result, r⟩ := answer
  match result, h with
  | .ok (some payload), ⟨hfresh, hfinish, more, hmore, heq⟩ =>
      refine ⟨hfresh, hfinish, skipped ++ more, fun s hs => ?_, by rw [heq, List.append_assoc]⟩
      exact (List.mem_append.mp hs).elim (hskipped s) (hmore s)
  | .ok none, ⟨hend, hnone⟩ =>
      exact ⟨hend, fun s hs => (List.mem_append.mp hs).elim (hskipped s) (hnone s)⟩

/-- **A call returns the first intact frame ahead, or reports the end.** -/
theorem next_finds {dir : Dir} {r : WalReader} (h : r.Fresh dir) :
    Finds dir (r.ahead dir) (r.finish dir) (r.next dir) := by
  refine Loop.iterate_rule _
    (fun r' => r'.Fresh dir ∧ r'.finish dir = r.finish dir ∧
      ∃ skipped, (∀ s ∈ skipped, s.payload = none) ∧ r.ahead dir = skipped ++ r'.ahead dir)
    (Finds dir (r.ahead dir) (r.finish dir)) ?_ ?_ ⟨h, rfl, [], by simp, rfl⟩
  · rintro r₁ r₂ ⟨hfresh, hfinish, skipped, hskipped, hahead⟩ hstep
    have hturn := nextStep_turns hfresh
    rw [hstep] at hturn
    obtain ⟨hfresh', hfinish', more, hmore, hahead'⟩ := hturn
    refine ⟨hfresh', hfinish'.trans hfinish, skipped ++ more, fun s hs => ?_, ?_⟩
    · exact (List.mem_append.mp hs).elim (hskipped s) (hmore s)
    · rw [hahead, hahead', List.append_assoc]
  · rintro r₁ answer ⟨hfresh, hfinish, skipped, hskipped, hahead⟩ hstep
    have hturn := nextStep_turns hfresh
    rw [hstep] at hturn
    rw [hahead, ← hfinish]
    exact hturn.skip hskipped

/-- A turn that returns a record leaves it behind. -/
theorem nextStep_potential_lt {dir : Dir} {r r' : WalReader} {payload : Bytes}
    (h : r.nextStep dir = .inl (.ok (some payload), r')) :
    r'.potential dir < r.potential dir := by
  cases hdata : r.currentData with
  | none =>
      rw [nextStep_of_unloaded hdata] at h
      exact absurd h (continueOrEnd_ne_record _ _ _)
  | some data =>
      obtain hread | hread | ⟨hfits, ⟨payload', hread⟩ | ⟨expected, actual, hread⟩⟩ :=
        readRecordAt_cases data r.currentOffset r.currentSegmentId
      · rw [nextStep_of_stops hdata (Or.inl hread)] at h
        exact absurd h (continueOrEnd_ne_record _ _ _)
      · rw [nextStep_of_stops hdata (Or.inr hread)] at h
        exact absurd h (continueOrEnd_ne_record _ _ _)
      · rw [nextStep_of_record hdata hread] at h
        cases h
        have hpos : 0 < headerSize := by decide
        exact potential_lt_of_offset dir hdata (by omega) hfits
      · rw [nextStep_of_corrupt hdata hread] at h
        cases h

/-- A call that returns a record leaves it behind. -/
theorem next_potential_lt {dir : Dir} {r r' : WalReader} {payload : Bytes}
    (h : r.next dir = (.ok (some payload), r')) : r'.potential dir < r.potential dir := by
  suffices hloop : ∀ payload' r₂, r.next dir = (.ok (some payload'), r₂) →
      r₂.potential dir < r.potential dir from hloop payload r' h
  refine Loop.iterate_rule (nextStep_decreases dir)
    (fun r₁ => r₁.potential dir ≤ r.potential dir)
    (fun answer => ∀ payload' r₂, answer = (.ok (some payload'), r₂) →
      r₂.potential dir < r.potential dir) ?_ ?_ (Nat.le_refl _)
  · intro r₁ r₂ hle hstep
    exact Nat.le_of_lt (Nat.lt_of_lt_of_le (nextStep_decreases dir r₁ r₂ hstep) hle)
  · rintro r₁ answer hle hstep payload' r₂ rfl
    exact Nat.lt_of_lt_of_le (nextStep_potential_lt hstep) hle

end WalReader

end

end PolyBook.Wal
