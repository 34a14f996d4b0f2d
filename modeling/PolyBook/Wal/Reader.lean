import PolyBook.Wal.Writer

/-!
# The reading side of the log

`WalReader` follows the log from a cached copy of one segment.  `next` returns
the next record or goes on: it skips a frame with a wrong checksum, moves to the
next segment, tops the cache up, or loads a segment that has appeared.  Each of
these brings it closer to an answer, so `next` always gives one.
-/

namespace PolyBook.Wal

/-- `WalPosition`. -/
structure WalPosition where
  segmentId : Nat
  offset : Nat
  deriving DecidableEq

/-- The order of the log. -/
def WalPosition.before (x y : WalPosition) : Bool :=
  x.segmentId < y.segmentId || x.segmentId == y.segmentId && x.offset < y.offset

/-- The global offset of a position, as `WalWriter.globalOffset`. -/
def WalPosition.globalOffset (position : WalPosition) (config : WalConfig) : Nat :=
  position.segmentId * config.segmentSize + position.offset

/-- Consumer of the log with its own position. -/
structure WalReader where
  consumerName : String
  currentSegmentId : Nat
  currentOffset : Nat
  /-- Cached copy of the current segment. -/
  currentData : Option Bytes
  /-- Segment ids at the last listing, ascending. -/
  availableSegments : List Nat
  deriving DecidableEq

/-- `load_position`, from the content of the consumer's position file. -/
def loadPosition (content : Option String) : Option WalPosition := do
  let text ← content
  let (segStr, offStr) ← splitOnce ':' (trim text.toList)
  let seg ← parseU64 segStr
  let off ← parseU64 offStr
  return ⟨seg, off⟩

namespace WalReader

/-- `load_segment`: whether the file exists, and the reader with its content. -/
def loadSegment (r : WalReader) (id : Nat) (dir : Dir) : Bool × WalReader :=
  match dir[id]? with
  | none => (false, { r with currentData := none })
  | some data => (true, { r with currentData := some data, currentSegmentId := id })

/-- `open_at`. -/
def openAt (consumerName : String) (position : WalPosition) (dir : Dir) : WalReader :=
  let r : WalReader := ⟨consumerName, position.segmentId, position.offset, none, dir.keys⟩
  (r.loadSegment position.segmentId dir).2

/-- `open`: at the committed position, or at the earliest available segment. -/
def openDir (consumerName : String) (positionFile : Option String) (dir : Dir) : WalReader :=
  openAt consumerName ((loadPosition positionFile).getD ⟨dir.keys.head?.getD 0, 0⟩) dir

/-- `open_from_start`. -/
def openFromStart (consumerName : String) (dir : Dir) : WalReader :=
  openAt consumerName ⟨dir.keys.head?.getD 0, 0⟩ dir

/-- The length of the cached copy. -/
def cachedLength (r : WalReader) : Nat := (r.currentData.map List.length).getD 0

/-- `top_up_current_segment`: whether the cache changed. -/
def topUpCurrentSegment (r : WalReader) (dir : Dir) : Bool × WalReader :=
  match dir[r.currentSegmentId]? with
  -- the segment disappeared
  | none => (false, r)
  | some file =>
      if file.length < r.cachedLength then
        -- truncated under the cache: reload, and clamp the offset
        let (reloaded, r) := r.loadSegment r.currentSegmentId dir
        (reloaded, if file.length < r.currentOffset then { r with currentOffset := file.length }
          else r)
      else if file.length = r.cachedLength then (false, r)
      else
        let suffix := file.drop r.cachedLength
        (true, { r with currentData := some (r.currentData.getD [] ++ suffix) })

/-- `advance_segment`: to the next segment, or top up the current one. -/
def advanceSegment (r : WalReader) (dir : Dir) : Bool × WalReader :=
  let r := { r with availableSegments := dir.keys }
  match r.availableSegments.find? (r.currentSegmentId < ·) with
  | some nextId => { r with currentOffset := 0 }.loadSegment nextId dir
  | none => r.topUpCurrentSegment dir

/-- `reload_when_unloaded`. -/
def reloadWhenUnloaded (r : WalReader) (dir : Dir) : Bool × WalReader :=
  let r := { r with availableSegments := dir.keys }
  if dir.contains r.currentSegmentId then r.loadSegment r.currentSegmentId dir
  else
    match r.availableSegments.head? with
    | some earliest =>
        if r.currentSegmentId < earliest then
          { r with currentSegmentId := earliest, currentOffset := 0 }.loadSegment earliest dir
        else (false, r)
    | none => (false, r)

/-- `needs_resync`: the current segment is before the earliest one listed. -/
def needsResync (r : WalReader) : Bool :=
  match r.availableSegments.head? with
  | some earliest => r.currentSegmentId < earliest
  | none => false

/-- `current_position`. -/
def currentPosition (r : WalReader) : WalPosition := ⟨r.currentSegmentId, r.currentOffset⟩

/-- Go round again if there is something new to read, else report the end. -/
def continueOrEnd : Bool × WalReader → (Except WalError (Option Bytes) × WalReader) ⊕ WalReader
  | (true, r) => .inr r
  | (false, r) => .inl (.ok none, r)

variable [Crc32c]

/-- One turn of the loop of `next`. -/
def nextStep (dir : Dir) (r : WalReader) :
    (Except WalError (Option Bytes) × WalReader) ⊕ WalReader :=
  match r.currentData with
  | some data =>
      match readRecordAt data r.currentOffset r.currentSegmentId with
      | .ok (some (payload, nextOffset)) =>
          .inl (.ok (some payload), { r with currentOffset := nextOffset })
      | .ok none => continueOrEnd (r.advanceSegment dir)
      -- skip past the corrupt record
      | .error (.crcMismatch ..) =>
          .inr { r with
            currentOffset := r.currentOffset + (headerSize + recordLen data r.currentOffset) }
      -- an incomplete frame: stay at its start
      | .error (.truncatedRecord ..) => continueOrEnd (r.advanceSegment dir)
      | .error e => .inl (.error e, r)
  | none => continueOrEnd (r.reloadWhenUnloaded dir)

end WalReader

namespace Dir

/-- A segment that is there is listed. -/
theorem mem_keys_of_getElem? {dir : Dir} {id : Nat} {data : Bytes} (h : dir[id]? = some data) :
    id ∈ dir.keys := by
  rw [TreeMapLookup.mem_keys_iff, h]
  rfl

/-- A listed segment is there. -/
theorem getElem?_of_mem_keys {dir : Dir} {id : Nat} (h : id ∈ dir.keys) :
    ∃ file, dir[id]? = some file := by
  rw [TreeMapLookup.mem_keys_iff] at h
  exact Option.isSome_iff_exists.mp h

/-- A directory that is not empty has an earliest segment. -/
theorem head?_keys_of_getElem? {dir : Dir} {id : Nat} {file : Bytes} (h : dir[id]? = some file) :
    ∃ first data, dir.keys.head? = some first ∧ dir[first]? = some data := by
  cases hhead : dir.keys.head? with
  | none =>
      have hmem := mem_keys_of_getElem? h
      rw [List.head?_eq_none_iff.mp hhead] at hmem
      cases hmem
  | some first =>
      obtain ⟨data, hdata⟩ := getElem?_of_mem_keys (List.mem_of_mem_head? hhead)
      exact ⟨first, data, rfl, hdata⟩

/-- The first segment is the earliest. -/
theorem head_le_of_mem {dir : Dir} {first id : Nat} (hfirst : dir.keys.head? = some first)
    (h : id ∈ dir.keys) : first ≤ id := by
  have hsorted := Std.ExtTreeMap.ordered_keys (t := dir)
  cases hkeys : dir.keys with
  | nil =>
      rw [hkeys] at h
      cases h
  | cons k rest =>
      rw [hkeys] at hsorted h hfirst
      cases hfirst
      obtain rfl | h := List.mem_cons.mp h
      · exact Nat.le_refl _
      · exact Nat.le_of_lt (Nat.compare_eq_lt.mp ((List.pairwise_cons.mp hsorted).1 id h))

/-- The last segment is the latest. -/
theorem le_getLast_of_mem {dir : Dir} {last id : Nat} (hlast : dir.keys.getLast? = some last)
    (h : id ∈ dir.keys) : id ≤ last := by
  obtain ⟨front, hkeys⟩ := List.getLast?_eq_some_iff.mp hlast
  have hsorted := Std.ExtTreeMap.ordered_keys (t := dir)
  rw [hkeys] at hsorted h
  obtain h | h := List.mem_append.mp h
  · exact Nat.le_of_lt (Nat.compare_eq_lt.mp
      ((List.pairwise_append.mp hsorted).2.2 id h last (List.mem_singleton_self last)))
  · exact Nat.le_of_eq (List.mem_singleton.mp h)

/-- The segment that none is after is the last one listed. -/
theorem getLast?_keys_of_bound {dir : Dir} {last : Nat} (hmem : last ∈ dir.keys)
    (hbound : ∀ id ∈ dir.keys, id ≤ last) : dir.keys.getLast? = some last := by
  cases hlast : dir.keys.getLast? with
  | none =>
      rw [List.getLast?_eq_none_iff.mp hlast] at hmem
      cases hmem
  | some id =>
      have hle := hbound id (List.mem_of_getLast? hlast)
      have hge := le_getLast_of_mem hlast hmem
      exact congrArg some (Nat.le_antisymm hle hge)

end Dir

/-! ## What a turn can do -/

/-- The segment file that follows a given id. -/
structure NextSegment (dir : Dir) (id nextId : Nat) : Prop where
  later : id < nextId
  nearest : ∀ other ∈ dir.keys, other ≤ id ∨ nextId ≤ other

namespace WalReader

/-- Loading a segment that is there. -/
theorem loadSegment_of_some {r : WalReader} {id : Nat} {dir : Dir} {data : Bytes}
    (h : dir[id]? = some data) :
    r.loadSegment id dir = (true, { r with currentData := some data, currentSegmentId := id }) := by
  simp [loadSegment, h]

/-- Opening at a segment that is there. -/
theorem openAt_of_some (consumerName : String) (position : WalPosition) {dir : Dir}
    {file : Bytes} (h : dir[position.segmentId]? = some file) :
    openAt consumerName position dir =
      ⟨consumerName, position.segmentId, position.offset, some file, dir.keys⟩ := by
  simp only [openAt, loadSegment_of_some h]

/-- Opening at a segment that is gone. -/
theorem openAt_of_none (consumerName : String) (position : WalPosition) {dir : Dir}
    (h : dir[position.segmentId]? = none) :
    openAt consumerName position dir =
      ⟨consumerName, position.segmentId, position.offset, none, dir.keys⟩ := by
  simp only [openAt, loadSegment, h]

/-- A reader without a committed position starts at the earliest segment. -/
theorem openDir_of_head (consumerName : String) {dir : Dir} {first : Nat} {file : Bytes}
    (hfirst : dir.keys.head? = some first) (hfile : dir[first]? = some file) :
    openDir consumerName none dir = ⟨consumerName, first, 0, some file, dir.keys⟩ := by
  simp only [openDir, loadPosition, Option.bind_eq_bind, Option.bind_none, Option.getD_none,
    hfirst, Option.getD_some]
  exact openAt_of_some consumerName ⟨first, 0⟩ hfile

/-- Opening at the beginning, where it is there. -/
theorem openDir_of_zero (consumerName : String) {dir : Dir} {file : Bytes}
    (h : dir[0]? = some file) :
    openDir consumerName none dir = ⟨consumerName, 0, 0, some file, dir.keys⟩ := by
  refine openDir_of_head consumerName ?_ h
  cases hkeys : dir.keys with
  | nil =>
      have hmem := Dir.mem_keys_of_getElem? h
      rw [hkeys] at hmem
      cases hmem
  | cons first rest =>
      have hsorted := Std.ExtTreeMap.ordered_keys (t := dir)
      have hmem := Dir.mem_keys_of_getElem? h
      rw [hkeys] at hsorted hmem
      obtain hzero | hzero := List.mem_cons.mp hmem
      · exact congrArg some hzero.symm
      · have := Nat.compare_eq_lt.mp ((List.pairwise_cons.mp hsorted).1 0 hzero)
        omega

/-- The outcomes of `advanceSegment` for a reader with a cached copy. -/
inductive Advance (dir : Dir) (r : WalReader) (data : Bytes) : Bool × WalReader → Prop
  | moved {nextId : Nat} {file : Bytes} (hnext : NextSegment dir r.currentSegmentId nextId)
      (hfile : dir[nextId]? = some file) :
      Advance dir r data (true, { r with
        availableSegments := dir.keys, currentOffset := 0,
        currentData := some file, currentSegmentId := nextId })
  | pruned (hlast : ∀ id ∈ dir.keys, id ≤ r.currentSegmentId)
      (hgone : dir[r.currentSegmentId]? = none) :
      Advance dir r data (false, { r with availableSegments := dir.keys })
  | shrunk {file : Bytes} (hlast : ∀ id ∈ dir.keys, id ≤ r.currentSegmentId)
      (hfile : dir[r.currentSegmentId]? = some file) (hlen : file.length < data.length) :
      Advance dir r data (true, { r with
        availableSegments := dir.keys, currentData := some file,
        currentOffset := min r.currentOffset file.length })
  | unchanged {file : Bytes} (hlast : ∀ id ∈ dir.keys, id ≤ r.currentSegmentId)
      (hfile : dir[r.currentSegmentId]? = some file) (hlen : file.length = data.length) :
      Advance dir r data (false, { r with availableSegments := dir.keys })
  | grown {file : Bytes} (hlast : ∀ id ∈ dir.keys, id ≤ r.currentSegmentId)
      (hfile : dir[r.currentSegmentId]? = some file) (hlen : data.length < file.length) :
      Advance dir r data (true, { r with
        availableSegments := dir.keys, currentData := some (data ++ file.drop data.length) })

/-- The outcomes of `reloadWhenUnloaded`. -/
inductive Reload (dir : Dir) (r : WalReader) : Bool × WalReader → Prop
  | appeared {file : Bytes} (hfile : dir[r.currentSegmentId]? = some file) :
      Reload dir r (true, { r with
        availableSegments := dir.keys, currentData := some file })
  | jumped {earliest : Nat} {file : Bytes} (hgone : dir[r.currentSegmentId]? = none)
      (hearliest : dir.keys.head? = some earliest) (hlater : r.currentSegmentId < earliest)
      (hfile : dir[earliest]? = some file) :
      Reload dir r (true, { r with
        availableSegments := dir.keys, currentSegmentId := earliest, currentOffset := 0,
        currentData := some file })
  | waiting (hgone : dir[r.currentSegmentId]? = none)
      (hfirst : ∀ earliest, dir.keys.head? = some earliest → earliest ≤ r.currentSegmentId) :
      Reload dir r (false, { r with availableSegments := dir.keys })

/-- The next listed segment, if there is one. -/
theorem find?_keys_cases (dir : Dir) (id : Nat) :
    (dir.keys.find? (id < ·) = none ∧ ∀ other ∈ dir.keys, other ≤ id) ∨
      ∃ nextId, dir.keys.find? (id < ·) = some nextId ∧ nextId ∈ dir.keys ∧
        NextSegment dir id nextId := by
  cases hfind : dir.keys.find? (id < ·) with
  | none =>
      refine Or.inl ⟨rfl, fun other hother => ?_⟩
      have := List.find?_eq_none.mp hfind other hother
      simpa using this
  | some nextId =>
      refine Or.inr ⟨nextId, rfl, List.mem_of_find?_eq_some hfind, ?_⟩
      obtain ⟨hlater, before, after, hkeys, hbefore⟩ := List.find?_eq_some_iff_append.mp hfind
      refine ⟨by simpa using hlater, fun other hother => ?_⟩
      have hsorted := Std.ExtTreeMap.ordered_keys (t := dir)
      rw [hkeys, List.pairwise_append, List.pairwise_cons] at hsorted
      rw [hkeys, List.mem_append, List.mem_cons] at hother
      obtain hother | rfl | hother := hother
      · exact Or.inl (by simpa using hbefore other hother)
      · exact Or.inr (Nat.le_refl _)
      · exact Or.inr (Nat.le_of_lt (Nat.compare_eq_lt.mp (hsorted.2.1.1 other hother)))

/-- What going on to the next segment does. -/
theorem advanceSegment_cases (dir : Dir) (r : WalReader) {data : Bytes}
    (hdata : r.currentData = some data) : Advance dir r data (r.advanceSegment dir) := by
  obtain ⟨name, id, offset, cache, available⟩ := r
  obtain rfl : cache = some data := hdata
  obtain ⟨hfind, hlast⟩ | ⟨nextId, hfind, hmem, hnext⟩ := find?_keys_cases dir id
  · unfold advanceSegment
    simp only [hfind, topUpCurrentSegment]
    split
    · rename_i hfile
      exact .pruned hlast hfile
    · rename_i file hfile
      split
      · rename_i hshort
        have hcase : Advance dir ⟨name, id, offset, some data, available⟩ data _ :=
          .shrunk hlast hfile hshort
        rw [loadSegment_of_some hfile]
        by_cases hclamp : file.length < offset
        · rw [if_pos hclamp]
          simpa only [Nat.min_eq_right (Nat.le_of_lt hclamp)] using hcase
        · rw [if_neg hclamp]
          simpa only [Nat.min_eq_left (Nat.le_of_not_lt hclamp)] using hcase
      · rename_i hlong
        split
        · rename_i hlen
          exact .unchanged hlast hfile hlen
        · rename_i hlen
          exact .grown hlast hfile (Nat.lt_of_le_of_ne (Nat.le_of_not_lt hlong) (Ne.symm hlen))
  · obtain ⟨file, hfile⟩ := Dir.getElem?_of_mem_keys hmem
    unfold advanceSegment
    simp only [hfind, loadSegment_of_some hfile]
    exact .moved hnext hfile

/-- What loading the first time does. -/
theorem reloadWhenUnloaded_cases (dir : Dir) (r : WalReader) :
    Reload dir r (r.reloadWhenUnloaded dir) := by
  unfold reloadWhenUnloaded
  cases hfile : dir[r.currentSegmentId]? with
  | some file =>
      have hmem : dir.contains r.currentSegmentId = true := by
        rw [Std.ExtTreeMap.contains_eq_isSome_getElem?, hfile]
        rfl
      simp only [hmem, if_true, loadSegment_of_some hfile]
      exact .appeared hfile
  | none =>
      have hmem : dir.contains r.currentSegmentId = false := by
        rw [Std.ExtTreeMap.contains_eq_isSome_getElem?, hfile]
        rfl
      simp only [hmem, Bool.false_eq_true, if_false]
      split
      · rename_i earliest hhead
        obtain ⟨file, hearliest⟩ := Dir.getElem?_of_mem_keys (List.mem_of_mem_head? hhead)
        split
        · rename_i hlater
          rw [loadSegment_of_some hearliest]
          exact .jumped hfile hhead hlater hearliest
        · rename_i hlater
          refine .waiting hfile fun other hother => ?_
          rw [hhead] at hother
          cases hother
          omega
      · rename_i hhead
        refine .waiting hfile fun other hother => ?_
        rw [hhead] at hother
        cases hother

end WalReader

/-! ## The loop ends -/

/-- The largest of a list of numbers. -/
def largest (ns : List Nat) : Nat := ns.foldr max 0

/-- The largest is as large as any. -/
theorem le_largest {ns : List Nat} {n : Nat} (h : n ∈ ns) : n ≤ largest ns := by
  induction ns with
  | nil => cases h
  | cons m ns ih =>
      have hcons : largest (m :: ns) = max m (largest ns) := rfl
      rw [hcons]
      obtain rfl | h := List.mem_cons.mp h
      · exact Nat.le_max_left _ _
      · exact Nat.le_trans (ih h) (Nat.le_max_right _ _)

namespace Dir

/-- The length of the longest segment file. -/
def longest (dir : Dir) : Nat := largest (dir.toList.map (·.2.length))

/-- The longest file is as long as any. -/
theorem length_le_longest {dir : Dir} {id : Nat} {data : Bytes} (h : dir[id]? = some data) :
    data.length ≤ dir.longest :=
  le_largest (List.mem_map.mpr
    ⟨(id, data), Std.ExtTreeMap.mem_toList_iff_getElem?_eq_some.mpr h, rfl⟩)

end Dir

namespace WalReader

/-- The cache is not the length of the file it copies. -/
def stale (dir : Dir) (r : WalReader) : Bool :=
  r.currentData.map List.length != dir[r.currentSegmentId]?.map List.length

/-- What is left to do before `next` has an answer: segments to move through, a
cache to refresh, cached bytes to read, in this order of weight. -/
def potential (dir : Dir) (r : WalReader) : Nat :=
  (largest dir.keys - r.currentSegmentId) * (2 * (dir.longest + 1)) +
    (if r.stale dir then dir.longest + 1 else 0) + (r.cachedLength - r.currentOffset)

/-- What a reader with a loaded file may still read. -/
theorem potential_of_loaded {dir : Dir} {r : WalReader} {file : Bytes}
    (hfile : dir[r.currentSegmentId]? = some file) (hlen : r.cachedLength = file.length)
    (hdata : r.currentData.isSome) :
    r.potential dir ≤
      (largest dir.keys - r.currentSegmentId) * (2 * (dir.longest + 1)) + dir.longest := by
  obtain ⟨data, hdata⟩ := Option.isSome_iff_exists.mp hdata
  have hcached : data.length = file.length := by
    simpa [cachedLength, hdata] using hlen
  have hfresh : r.stale dir = false := by
    simp [stale, hdata, hfile, hcached]
  have := Dir.length_le_longest hfile
  rw [potential, hfresh, hlen]
  simp only [Bool.false_eq_true, if_false]
  omega

/-- Moving to a later segment lowers the potential. -/
theorem potential_lt_of_later {dir : Dir} {r r' : WalReader} {file : Bytes}
    (hlater : r.currentSegmentId < r'.currentSegmentId)
    (hfile : dir[r'.currentSegmentId]? = some file) (hdata : r'.currentData = some file) :
    r'.potential dir < r.potential dir := by
  have hle := le_largest (Dir.mem_keys_of_getElem? hfile)
  have hload := potential_of_loaded hfile (by simp [cachedLength, hdata]) (by simp [hdata])
  have hmul : (largest dir.keys - r'.currentSegmentId + 1) * (2 * (dir.longest + 1)) ≤
      (largest dir.keys - r.currentSegmentId) * (2 * (dir.longest + 1)) :=
    Nat.mul_le_mul_right _ (by omega)
  rw [Nat.add_mul, Nat.one_mul] at hmul
  unfold potential at hload ⊢
  omega

/-- Refreshing a stale cache lowers the potential. -/
theorem potential_lt_of_refreshed {dir : Dir} {r r' : WalReader} {file : Bytes}
    (hsame : r'.currentSegmentId = r.currentSegmentId) (hstale : r.stale dir = true)
    (hfile : dir[r'.currentSegmentId]? = some file) (hlen : r'.cachedLength = file.length)
    (hdata : r'.currentData.isSome) :
    r'.potential dir < r.potential dir := by
  have hload := potential_of_loaded hfile hlen hdata
  rw [hsame] at hload
  refine Nat.lt_of_le_of_lt hload ?_
  rw [potential, hstale, if_pos rfl]
  omega

/-- Moving on in the cache lowers the potential. -/
theorem potential_lt_of_offset (dir : Dir) {r : WalReader} {data : Bytes} {offset : Nat}
    (hdata : r.currentData = some data) (hlt : r.currentOffset < offset)
    (hle : offset ≤ data.length) :
    potential dir { r with currentOffset := offset } < r.potential dir := by
  have hstale : stale dir { r with currentOffset := offset } = r.stale dir := rfl
  unfold potential
  rw [hstale]
  simp only [cachedLength, hdata, Option.map_some, Option.getD_some]
  omega

/-- Going on to the next segment brings the reader closer to the end. -/
theorem potential_lt_of_advance {dir : Dir} {r r' : WalReader} {data : Bytes}
    (hdata : r.currentData = some data)
    (hstep : continueOrEnd (r.advanceSegment dir) = .inr r') :
    r'.potential dir < r.potential dir := by
  have hadvance := advanceSegment_cases dir r hdata
  generalize r.advanceSegment dir = outcome at hstep hadvance
  cases hadvance with
  | moved hnext hfile =>
      cases hstep
      exact potential_lt_of_later hnext.later hfile rfl
  | pruned hlast hgone => cases hstep
  | shrunk hlast hfile hlen =>
      cases hstep
      refine potential_lt_of_refreshed rfl ?_ hfile (by simp [cachedLength]) rfl
      simp [stale, hdata, hfile]
      omega
  | unchanged hlast hfile hlen => cases hstep
  | grown hlast hfile hlen =>
      cases hstep
      refine potential_lt_of_refreshed rfl ?_ hfile ?_ rfl
      · simp [stale, hdata, hfile]
        omega
      · simp [cachedLength]
        omega

section

variable [Crc32c]

/-- A turn that returns a record. -/
theorem nextStep_of_record {dir : Dir} {r : WalReader} {data payload : Bytes} {next : Nat}
    (hdata : r.currentData = some data)
    (hread : readRecordAt data r.currentOffset r.currentSegmentId = .ok (some (payload, next))) :
    r.nextStep dir = .inl (.ok (some payload), { r with currentOffset := next }) := by
  simp only [nextStep, hdata, hread]

/-- A turn at the end of the cached bytes. -/
theorem nextStep_of_stops {dir : Dir} {r : WalReader} {data : Bytes}
    (hdata : r.currentData = some data)
    (hstop : Stops data r.currentOffset r.currentSegmentId) :
    r.nextStep dir = continueOrEnd (r.advanceSegment dir) := by
  obtain hread | hread := hstop
  · simp only [nextStep, hdata, hread]
  · simp only [nextStep, hdata, hread]

/-- A turn at a damaged frame. -/
theorem nextStep_of_corrupt {dir : Dir} {r : WalReader} {data : Bytes} {seg off : Nat}
    {expected actual : UInt32} (hdata : r.currentData = some data)
    (hread : readRecordAt data r.currentOffset r.currentSegmentId =
      .error (.crcMismatch seg off expected actual)) :
    r.nextStep dir = .inr { r with
      currentOffset := r.currentOffset + (headerSize + recordLen data r.currentOffset) } := by
  simp only [nextStep, hdata, hread]

/-- A turn of a reader that has loaded nothing. -/
theorem nextStep_of_unloaded {dir : Dir} {r : WalReader} (hdata : r.currentData = none) :
    r.nextStep dir = continueOrEnd (r.reloadWhenUnloaded dir) := by
  simp only [nextStep, hdata]

/-- Every turn that goes round lowers the potential. -/
theorem nextStep_decreases (dir : Dir) :
    Loop.Decreases (nextStep dir) (potential dir) := by
  intro r r' hstep
  cases hdata : r.currentData with
  | none =>
      rw [nextStep_of_unloaded hdata] at hstep
      have hreload := reloadWhenUnloaded_cases dir r
      generalize r.reloadWhenUnloaded dir = outcome at hstep hreload
      cases hreload with
      | appeared hfile =>
          cases hstep
          refine potential_lt_of_refreshed rfl ?_ hfile ?_ rfl
          · simp [stale, hdata, hfile]
          · simp [cachedLength]
      | jumped hgone hearliest hlater hfile =>
          cases hstep
          exact potential_lt_of_later hlater hfile rfl
      | waiting hgone hfirst => cases hstep
  | some data =>
      obtain hread | hread | ⟨hfits, ⟨payload, hread⟩ | ⟨expected, actual, hread⟩⟩ :=
        readRecordAt_cases data r.currentOffset r.currentSegmentId
      · rw [nextStep_of_stops hdata (Or.inl hread)] at hstep
        exact potential_lt_of_advance hdata hstep
      · rw [nextStep_of_stops hdata (Or.inr hread)] at hstep
        exact potential_lt_of_advance hdata hstep
      · rw [nextStep_of_record hdata hread] at hstep
        cases hstep
      · rw [nextStep_of_corrupt hdata hread] at hstep
        cases hstep
        have hpos : 0 < headerSize := by decide
        exact potential_lt_of_offset dir hdata (by omega) (by omega)

/-- `next`: the next record, or `none` at the end. -/
def next (dir : Dir) (r : WalReader) : Except WalError (Option Bytes) × WalReader :=
  Loop.iterate (nextStep_decreases dir) r

end

end WalReader

end PolyBook.Wal
