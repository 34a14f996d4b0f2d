import Mathlib.Data.Prod.Lex
import PolyBook.Library.Runs
import PolyBook.Wal.StrictScan

/-!
# The reader on arbitrary bytes

The segment files of a quiescent directory may hold anything, and a reader may be
opened anywhere.  `readRecordAtChecked` and the two loops around it take their
slices with a check; none fails.  Every call ends, moves the reader onward and
returns the body of a whole frame, and repeated calls come to an end:
`reader_robust`.

A turn of `next_strict` is the turn of `next` or reports an error, so the two scans
agree up to the first error: `scans_agree`.
-/

namespace PolyBook.Wal

/-! ## Slices -/

/-- `&data[start..stop]`, `none` where the range is not in the data. -/
def slice (data : Bytes) (start stop : Nat) : Option Bytes :=
  if start ≤ stop ∧ stop ≤ data.length then some ((data.drop start).take (stop - start)) else none

/-- A slice within the data. -/
theorem slice_of_le {data : Bytes} {start len : Nat} (h : start + len ≤ data.length) :
    slice data start (start + len) = some ((data.drop start).take len) := by
  rw [slice, if_pos ⟨Nat.le_add_right _ _, h⟩, Nat.add_sub_cancel_left]

namespace WalReader

/-! ## The order of the log -/

/-- The place of the reader in the order of the log. -/
def place (r : WalReader) : Nat ×ₗ Nat := toLex (r.currentSegmentId, r.currentOffset)

/-- The reader has moved on, and has the current segment's file in its cache. -/
structure Onward (dir : Dir) (r r' : WalReader) : Prop where
  fresh : r'.Fresh dir
  le : r.place ≤ r'.place

/-- A reader that goes on in its segment is not further back. -/
theorem place_le_of_offset {r r' : WalReader} (hsame : r'.currentSegmentId = r.currentSegmentId)
    (hoffset : r.currentOffset ≤ r'.currentOffset) : r.place ≤ r'.place :=
  Prod.Lex.toLex_le_toLex.mpr (Or.inr ⟨hsame.symm, hoffset⟩)

/-- A reader in a later segment is not further back. -/
theorem place_le_of_later {r r' : WalReader} (h : r.currentSegmentId < r'.currentSegmentId) :
    r.place ≤ r'.place :=
  Prod.Lex.toLex_le_toLex.mpr (Or.inl h)

/-- Onward, and onward again. -/
theorem Onward.trans {dir : Dir} {r₁ r₂ r₃ : WalReader} (h : Onward dir r₁ r₂)
    (h' : Onward dir r₂ r₃) : Onward dir r₁ r₃ :=
  ⟨h'.fresh, h.le.trans h'.le⟩

/-- A reader that is opened is fresh. -/
theorem fresh_openAt (consumerName : String) (position : WalPosition) (dir : Dir) :
    (openAt consumerName position dir).Fresh dir := by
  cases hfile : dir[position.segmentId]? with
  | none =>
      rw [openAt_of_none consumerName position hfile]
      exact hfile.symm
  | some file =>
      rw [openAt_of_some consumerName position hfile]
      exact hfile.symm

/-- A quiescent directory does not shrink or grow the current segment. -/
theorem onward_advanceSegment {dir : Dir} {r : WalReader} {data : Bytes} (h : r.Fresh dir)
    (hdata : r.currentData = some data) : Onward dir r (r.advanceSegment dir).2 := by
  have hfile : dir[r.currentSegmentId]? = some data := by rw [← h, hdata]
  have hadvance := advanceSegment_cases dir r hdata
  generalize r.advanceSegment dir = outcome at hadvance
  cases hadvance with
  | moved hnext hnextFile => exact ⟨hnextFile.symm, place_le_of_later hnext.later⟩
  | pruned hlast hgone => exact ⟨h, le_refl r.place⟩
  | shrunk hlast hfile' hlen =>
      rw [hfile] at hfile'
      cases hfile'
      omega
  | unchanged hlast hfile' hlen => exact ⟨h, le_refl r.place⟩
  | grown hlast hfile' hlen =>
      rw [hfile] at hfile'
      cases hfile'
      omega

/-- Loading the first time goes onward. -/
theorem onward_reloadWhenUnloaded {dir : Dir} {r : WalReader} (h : r.Fresh dir) :
    Onward dir r (r.reloadWhenUnloaded dir).2 := by
  have hreload := reloadWhenUnloaded_cases dir r
  generalize r.reloadWhenUnloaded dir = outcome at hreload
  cases hreload with
  | appeared hfile => exact ⟨hfile.symm, le_refl r.place⟩
  | jumped hgone hearliest hlater hfile => exact ⟨hfile.symm, place_le_of_later hlater⟩
  | waiting hgone hfirst => exact ⟨h, le_refl r.place⟩

end WalReader

section

variable [Crc32c]

/-- `read_record_at`, with its slices. -/
def readRecordAtChecked (data : Bytes) (offset segmentId : Nat) :
    Option (Except WalError (Option (Bytes × Nat))) :=
  if data.length ≤ offset then some (.ok none)
  else if data.length < offset + headerSize then some (.ok none)
  else do
    let lenBytes ← slice data offset (offset + 4)
    let crcBytes ← slice data (offset + 4) (offset + 4 + 4)
    let len := (u32FromLeBytes lenBytes).toNat
    let storedCrc := u32FromLeBytes crcBytes
    if len = 0 then some (.ok none)
    else
      let payloadStart := offset + headerSize
      let payloadEnd := payloadStart + len
      if data.length < payloadEnd then some (.error (.truncatedRecord segmentId offset))
      else do
        let payload ← slice data payloadStart payloadEnd
        let computedCrc := frameCrc (UInt32.ofNat len) payload
        if storedCrc ≠ computedCrc then
          some (.error (.crcMismatch segmentId offset storedCrc computedCrc))
        else some (.ok (some (payload, payloadEnd)))

/-- The slices of `read_record_at` are in range. -/
theorem readRecordAtChecked_eq (data : Bytes) (offset segmentId : Nat) :
    readRecordAtChecked data offset segmentId = some (readRecordAt data offset segmentId) := by
  unfold readRecordAtChecked readRecordAt
  by_cases hend : data.length ≤ offset
  · rw [if_pos hend, if_pos hend]
  rw [if_neg hend, if_neg hend]
  by_cases hheader : data.length < offset + headerSize
  · rw [if_pos hheader, if_pos hheader]
  have hsize : headerSize = 8 := rfl
  have hlen : slice data offset (offset + 4) = some ((data.drop offset).take 4) :=
    slice_of_le (by omega)
  have hcrc : slice data (offset + 4) (offset + 4 + 4) = some ((data.drop (offset + 4)).take 4) :=
    slice_of_le (by omega)
  have hfield : (u32FromLeBytes ((data.drop offset).take 4)).toNat = recordLen data offset := rfl
  rw [if_neg hheader, if_neg hheader]
  simp only [hlen, hcrc, Option.bind_eq_bind, Option.bind_some, hfield]
  by_cases hzero : recordLen data offset = 0
  · rw [if_pos hzero, if_pos hzero]
  rw [if_neg hzero, if_neg hzero]
  by_cases hshort : data.length < offset + headerSize + recordLen data offset
  · rw [if_pos hshort, if_pos hshort]
  rw [if_neg hshort, if_neg hshort, slice_of_le (by omega), Option.bind_some]
  split
  · rfl
  · rfl

namespace WalReader

/-- `nextStep` with its slices. -/
def nextStepChecked (dir : Dir) (r : WalReader) :
    Option ((Except WalError (Option Bytes) × WalReader) ⊕ WalReader) :=
  match r.currentData with
  | some data => do
      let read ← readRecordAtChecked data r.currentOffset r.currentSegmentId
      match read with
      | .ok (some (payload, nextOffset)) =>
          some (.inl (.ok (some payload), { r with currentOffset := nextOffset }))
      | .ok none => some (continueOrEnd (r.advanceSegment dir))
      | .error (.crcMismatch ..) => do
          let lenBytes ← slice data r.currentOffset (r.currentOffset + 4)
          let len := (u32FromLeBytes lenBytes).toNat
          some (.inr { r with currentOffset := r.currentOffset + (headerSize + len) })
      | .error (.truncatedRecord ..) => some (continueOrEnd (r.advanceSegment dir))
      | .error e => some (.inl (.error e, r))
  | none => some (continueOrEnd (r.reloadWhenUnloaded dir))

/-- `nextStrictStep` with its slices. -/
def nextStrictStepChecked (dir : Dir) (r : WalReader) :
    Option ((Except WalError (Option Bytes) × WalReader) ⊕ WalReader) :=
  match r.currentData with
  | some data => do
      if r.currentOffset < data.length ∧ data.length - r.currentOffset < headerSize then
        some (.inl (.error (.truncatedRecord r.currentSegmentId r.currentOffset), r))
      else
        let zero ← if r.currentOffset < data.length then
            (slice data r.currentOffset (r.currentOffset + 4)).map fun lenBytes =>
              (u32FromLeBytes lenBytes).toNat == 0
          else some false
        if zero then
          some (.inl (.error (.truncatedRecord r.currentSegmentId r.currentOffset), r))
        else do
          let read ← readRecordAtChecked data r.currentOffset r.currentSegmentId
          match read with
          | .ok (some (payload, nextOffset)) =>
              some (.inl (.ok (some payload), { r with currentOffset := nextOffset }))
          | .ok none => some (continueOrFail (r.advanceSegmentStrict dir))
          | .error e => some (.inl (.error e, r))
  | none => some (continueOrEnd (r.reloadWhenUnloaded dir))

/-- No slice of `next` is out of range. -/
theorem nextStepChecked_eq (dir : Dir) (r : WalReader) :
    r.nextStepChecked dir = some (r.nextStep dir) := by
  cases hdata : r.currentData with
  | none => simp only [nextStepChecked, nextStep, hdata]
  | some data =>
      simp only [nextStepChecked, nextStep, hdata, readRecordAtChecked_eq, Option.bind_eq_bind,
        Option.bind_some]
      obtain hread | hread | ⟨hfits, ⟨payload, hread⟩ | ⟨expected, actual, hread⟩⟩ :=
        readRecordAt_cases data r.currentOffset r.currentSegmentId
      · simp only [hread]
      · simp only [hread]
      · simp only [hread]
      · have hsize : headerSize = 8 := rfl
        have hlen : slice data r.currentOffset (r.currentOffset + 4) =
            some ((data.drop r.currentOffset).take 4) := slice_of_le (by omega)
        simp only [hread, hlen, Option.bind_some, recordLen]

/-- No slice of `next_strict` is out of range. -/
theorem nextStrictStepChecked_eq (dir : Dir) (r : WalReader) :
    r.nextStrictStepChecked dir = some (r.nextStrictStep dir) := by
  cases hdata : r.currentData with
  | none => simp only [nextStrictStepChecked, nextStrictStep, hdata]
  | some data =>
      simp only [nextStrictStepChecked, nextStrictStep, hdata, readRecordAtChecked_eq,
        Option.bind_eq_bind, Option.bind_some]
      by_cases hshort : r.currentOffset < data.length ∧ data.length - r.currentOffset < headerSize
      · rw [if_pos hshort, if_pos hshort]
      rw [if_neg hshort, if_neg hshort]
      by_cases hend : r.currentOffset < data.length
      · have hsize : headerSize = 8 := rfl
        have hlen : slice data r.currentOffset (r.currentOffset + 4) =
            some ((data.drop r.currentOffset).take 4) := slice_of_le (by omega)
        have hfield : (u32FromLeBytes ((data.drop r.currentOffset).take 4)).toNat =
            recordLen data r.currentOffset := rfl
        simp only [hend, if_true, hlen, Option.map_some, Option.bind_some, true_and, hfield,
          beq_iff_eq]
        by_cases hzero : recordLen data r.currentOffset = 0
        · rw [if_pos hzero, if_pos hzero]
        · rw [if_neg hzero, if_neg hzero]
          generalize readRecordAt data r.currentOffset r.currentSegmentId = read
          rcases read with e | _ | ⟨payload, next⟩
          · rfl
          · rfl
          · rfl
      · simp only [hend, if_false, false_and, Bool.false_eq_true]
        generalize readRecordAt data r.currentOffset r.currentSegmentId = read
        rcases read with e | _ | ⟨payload, next⟩
        · rfl
        · rfl
        · rfl

end WalReader

/-! ## Whole frames -/

/-- A frame of the file, from its first byte to the offset after it, with this body. -/
structure FrameAt (file : Bytes) (start next : Nat) (payload : Bytes) : Prop where
  nonempty : payload ≠ []
  inside : next ≤ file.length
  whole : next = start + headerSize + payload.length
  length : recordLen file start = payload.length
  body : (file.drop (start + headerSize)).take payload.length = payload
  checksum : u32FromLeBytes ((file.drop (start + 4)).take 4) =
    frameCrc (UInt32.ofNat payload.length) payload

/-- A record is the body of a whole frame. -/
theorem readRecordAt_frameAt {data payload : Bytes} {offset id next : Nat}
    (h : readRecordAt data offset id = .ok (some (payload, next))) :
    FrameAt data offset next payload := by
  unfold readRecordAt at h
  split at h
  · cases h
  split at h
  · cases h
  dsimp only at h
  split at h
  · cases h
  rename_i hzero
  split at h
  · cases h
  rename_i hfits
  split at h
  · cases h
  rename_i hcrc
  simp only [Except.ok.injEq, Option.some.injEq, Prod.mk.injEq] at h
  obtain ⟨hpayload, hnext⟩ := h
  have hlength : payload.length = recordLen data offset := by
    rw [← hpayload, List.length_take, List.length_drop]
    omega
  refine ⟨fun hnil => hzero ?_, ?_, ?_, hlength.symm, ?_, ?_⟩
  · rw [← hlength, hnil, List.length_nil]
  · omega
  · omega
  · rw [hlength]
    exact hpayload
  · rw [hlength, ← hpayload]
    exact not_not.mp hcrc

namespace WalReader

/-! ## Calls -/

/-- The calls of a reader. -/
inductive Call where
  | next
  | nextStrict

/-- The answer to a call. -/
def answer (dir : Dir) (r : WalReader) : Call → Except WalError (Option Bytes) × WalReader
  | .next => r.next dir
  | .nextStrict => r.nextStrict dir

/-- The reader after some calls. -/
def afterCalls (dir : Dir) (r : WalReader) (calls : List Call) : WalReader :=
  Runs.run (fun r call => (r.answer dir call).2) r calls

/-- The reader has moved on with the answer, and a record is a whole frame of the
current segment that ends where the reader stands. -/
structure Sound (dir : Dir) (r : WalReader) (answer : Except WalError (Option Bytes) × WalReader) :
    Prop where
  onward : Onward dir r answer.2
  record : ∀ payload, answer.1 = .ok (some payload) →
    ∃ file start, dir[answer.2.currentSegmentId]? = some file ∧
      FrameAt file start answer.2.currentOffset payload

/-- What holds of an answer from further on holds from here. -/
theorem Sound.of_onward {dir : Dir} {r r' : WalReader} (h : Onward dir r r')
    {answer : Except WalError (Option Bytes) × WalReader} (hanswer : Sound dir r' answer) :
    Sound dir r answer :=
  ⟨h.trans hanswer.onward, hanswer.record⟩

/-- A turn that leaves the loop gives a sound answer, one that goes round moves on. -/
def SoundTurn (dir : Dir) (r : WalReader) :
    (Except WalError (Option Bytes) × WalReader) ⊕ WalReader → Prop
  | .inl answer => Sound dir r answer
  | .inr r' => Onward dir r r'

/-- Going on or ending is sound where the way was onward. -/
theorem soundTurn_continueOrEnd {dir : Dir} {r : WalReader} {outcome : Bool × WalReader}
    (h : Onward dir r outcome.2) : SoundTurn dir r (continueOrEnd outcome) := by
  obtain ⟨went, r'⟩ := outcome
  cases went with
  | true => exact h
  | false => exact ⟨h, by rintro payload ⟨⟩⟩

/-- A tolerant turn is sound. -/
theorem soundTurn_nextStep {dir : Dir} {r : WalReader} (h : r.Fresh dir) :
    SoundTurn dir r (r.nextStep dir) := by
  cases hdata : r.currentData with
  | none =>
      rw [nextStep_of_unloaded hdata]
      exact soundTurn_continueOrEnd (onward_reloadWhenUnloaded h)
  | some data =>
      have hfile : dir[r.currentSegmentId]? = some data := by rw [← h, hdata]
      obtain hread | hread | ⟨hfits, ⟨payload, hread⟩ | ⟨expected, actual, hread⟩⟩ :=
        readRecordAt_cases data r.currentOffset r.currentSegmentId
      · rw [nextStep_of_stops hdata (Or.inl hread)]
        exact soundTurn_continueOrEnd (onward_advanceSegment h hdata)
      · rw [nextStep_of_stops hdata (Or.inr hread)]
        exact soundTurn_continueOrEnd (onward_advanceSegment h hdata)
      · rw [nextStep_of_record hdata hread]
        refine ⟨⟨h, place_le_of_offset rfl (by dsimp only; omega)⟩, fun payload' heq => ?_⟩
        cases heq
        exact ⟨data, r.currentOffset, hfile, readRecordAt_frameAt hread⟩
      · rw [nextStep_of_corrupt hdata hread]
        exact ⟨h, place_le_of_offset rfl (Nat.le_add_right _ _)⟩

/-- **The strict loop** takes the turns of the other, or reports an error without
moving. -/
theorem nextStrictStep_cases (dir : Dir) (r : WalReader) :
    r.nextStrictStep dir = r.nextStep dir ∨
      ∃ e r', r.nextStrictStep dir = .inl (.error e, r') ∧
        r'.currentPosition = r.currentPosition ∧ r'.currentData = r.currentData := by
  cases hdata : r.currentData with
  | none =>
      left
      simp only [nextStrictStep, nextStep, hdata]
  | some data =>
      rw [← hdata]
      by_cases hshort : r.currentOffset < data.length ∧
          data.length - r.currentOffset < headerSize
      · refine Or.inr ⟨.truncatedRecord r.currentSegmentId r.currentOffset, r, ?_, rfl, rfl⟩
        simp only [nextStrictStep, hdata, if_pos hshort]
      by_cases hzero : r.currentOffset < data.length ∧ recordLen data r.currentOffset = 0
      · refine Or.inr ⟨.truncatedRecord r.currentSegmentId r.currentOffset, r, ?_, rfl, rfl⟩
        simp only [nextStrictStep, hdata, if_neg hshort, if_pos hzero]
      obtain hread | hread | ⟨hfits, ⟨payload, hread⟩ | ⟨expected, actual, hread⟩⟩ :=
        readRecordAt_cases data r.currentOffset r.currentSegmentId
      · obtain ⟨hadvance, -⟩ | ⟨nextId, e, -, -, -, hadvance⟩ := advanceSegmentStrict_cases dir r
        · left
          simp only [nextStrictStep, nextStep, hdata, if_neg hshort, if_neg hzero, hread, hadvance,
            continueOrFail]
        · refine Or.inr ⟨e, { r with availableSegments := dir.keys }, ?_, rfl, rfl⟩
          simp only [nextStrictStep, hdata, if_neg hshort, if_neg hzero, hread, hadvance,
            continueOrFail]
      · refine Or.inr ⟨.truncatedRecord r.currentSegmentId r.currentOffset, r, ?_, rfl, rfl⟩
        simp only [nextStrictStep, hdata, if_neg hshort, if_neg hzero, hread]
      · left
        simp only [nextStrictStep, nextStep, hdata, if_neg hshort, if_neg hzero, hread]
      · refine Or.inr ⟨.crcMismatch r.currentSegmentId r.currentOffset expected actual, r, ?_,
          rfl, rfl⟩
        simp only [nextStrictStep, hdata, if_neg hshort, if_neg hzero, hread]

/-- A strict turn is sound. -/
theorem soundTurn_nextStrictStep {dir : Dir} {r : WalReader} (h : r.Fresh dir) :
    SoundTurn dir r (r.nextStrictStep dir) := by
  rcases nextStrictStep_cases dir r with hsame | ⟨e, r', hstep, hposition, hcache⟩
  · rw [hsame]
    exact soundTurn_nextStep h
  · rw [hstep]
    simp only [currentPosition, WalPosition.mk.injEq] at hposition
    refine ⟨⟨?_, place_le_of_offset hposition.1 (Nat.le_of_eq hposition.2.symm)⟩, ?_⟩
    · rw [Fresh, hcache, hposition.1]
      exact h
    · rintro payload ⟨⟩

/-- **Every call gives a sound answer.** -/
theorem sound_answer {dir : Dir} {r : WalReader} (h : r.Fresh dir) (call : Call) :
    Sound dir r (r.answer dir call) := by
  have hstart : Onward dir r r := ⟨h, le_refl r.place⟩
  cases call with
  | next =>
      refine Loop.iterate_rule (nextStep_decreases dir) (Onward dir r) (Sound dir r) ?_ ?_ hstart
      · intro r₁ r₂ honward hstep
        have hturn := soundTurn_nextStep honward.fresh
        rw [hstep] at hturn
        exact honward.trans hturn
      · intro r₁ answer honward hstep
        have hturn := soundTurn_nextStep honward.fresh
        rw [hstep] at hturn
        exact .of_onward honward hturn
  | nextStrict =>
      refine Loop.iterate_rule (nextStrictStep_decreases dir) (Onward dir r) (Sound dir r) ?_ ?_
        hstart
      · intro r₁ r₂ honward hstep
        have hturn := soundTurn_nextStrictStep honward.fresh
        rw [hstep] at hturn
        exact honward.trans hturn
      · intro r₁ answer honward hstep
        have hturn := soundTurn_nextStrictStep honward.fresh
        rw [hstep] at hturn
        exact .of_onward honward hturn

/-- A reader stays fresh, whatever is called. -/
theorem fresh_afterCalls {dir : Dir} {r : WalReader} (h : r.Fresh dir) (calls : List Call) :
    (afterCalls dir r calls).Fresh dir :=
  Runs.run_induction
    (fun (r : WalReader) call (h : r.Fresh dir) => (sound_answer h call).onward.fresh) h calls

/-- Calls of `next` one by one. -/
theorem afterCalls_next {dir : Dir} {r r' : WalReader}
    {result : Except WalError (Option Bytes)} (hcall : r.next dir = (result, r')) (n : Nat) :
    afterCalls dir r (List.replicate (n + 1) .next) =
      afterCalls dir r' (List.replicate n .next) := by
  have hone : (r.answer dir .next).2 = r' := congrArg Prod.snd hcall
  rw [List.replicate_succ]
  simp only [afterCalls, Runs.run, List.foldl_cons, hone]

/-- **Repeated calls come to the end.** -/
theorem reaches_end {dir : Dir} {r : WalReader} (h : r.Fresh dir) :
    ∃ n, ((afterCalls dir r (List.replicate n .next)).next dir).1 = .ok none := by
  induction hn : r.potential dir using Nat.strongRecOn generalizing r with
  | _ n ih =>
      have hfinds := next_finds h
      cases hcall : r.next dir with
      | mk result r' =>
          rw [hcall] at hfinds
          rcases result with e | _ | payload
          · exact hfinds.elim
          · exact ⟨0, congrArg Prod.fst hcall⟩
          · have hlt := next_potential_lt hcall
            obtain ⟨k, hk⟩ := ih (r'.potential dir) (hn ▸ hlt) hfinds.1 rfl
            refine ⟨k + 1, ?_⟩
            rw [afterCalls_next hcall]
            exact hk

end WalReader

/-- **The reader is robust.**  Whatever the segment files hold and wherever the reader
is opened, after any calls: no slice of a turn is out of range, the loops of both calls
end, neither call moves the reader back, a record is the body of a whole frame, and
`next` comes to the end. -/
theorem reader_robust (consumerName : String) (position : WalPosition) (dir : Dir)
    (calls : List WalReader.Call) :
    let r := WalReader.afterCalls dir (WalReader.openAt consumerName position dir) calls
    (∀ s : WalReader, s.nextStepChecked dir = some (s.nextStep dir) ∧
        s.nextStrictStepChecked dir = some (s.nextStrictStep dir)) ∧
      Loop.Leaves (WalReader.nextStep dir) r (r.next dir) ∧
      Loop.Leaves (WalReader.nextStrictStep dir) r (r.nextStrict dir) ∧
      (∀ call, r.place ≤ (r.answer dir call).2.place) ∧
      (∀ call payload, (r.answer dir call).1 = .ok (some payload) →
        ∃ file start, dir[(r.answer dir call).2.currentSegmentId]? = some file ∧
          FrameAt file start (r.answer dir call).2.currentOffset payload) ∧
      ∃ n, ((r.afterCalls dir (List.replicate n .next)).next dir).1 = .ok none := by
  intro r
  have hfresh : r.Fresh dir :=
    WalReader.fresh_afterCalls (WalReader.fresh_openAt consumerName position dir) calls
  exact ⟨fun s => ⟨s.nextStepChecked_eq dir, s.nextStrictStepChecked_eq dir⟩,
    Loop.leaves_iterate (WalReader.nextStep_decreases dir) r,
    Loop.leaves_iterate (WalReader.nextStrictStep_decreases dir) r,
    fun call => (WalReader.sound_answer hfresh call).onward.le,
    fun call => (WalReader.sound_answer hfresh call).record, WalReader.reaches_end hfresh⟩

/-! ## The two scans -/

namespace WalReader

/-- One call of a scan: it goes on after a record, and leaves with the records so far
and with the error, if there is one. -/
def readAllStep (call : WalReader → Except WalError (Option Bytes) × WalReader)
    (s : List Bytes × WalReader) : (List Bytes × Option WalError) ⊕ (List Bytes × WalReader) :=
  match call s.2 with
  | (.ok (some payload), r) => .inr (s.1 ++ [payload], r)
  | (.ok none, _) => .inl (s.1, none)
  | (.error e, _) => .inl (s.1, some e)

omit [Crc32c] in
/-- Reading all comes to an end if every record brings the reader closer to the end. -/
theorem readAllStep_decreases {dir : Dir}
    {call : WalReader → Except WalError (Option Bytes) × WalReader}
    (hcall : ∀ r r' payload, call r = (.ok (some payload), r') →
      r'.potential dir < r.potential dir) :
    Loop.Decreases (readAllStep call) fun s => s.2.potential dir := by
  intro s s' hstep
  unfold readAllStep at hstep
  split at hstep
  · rename_i hnext
    cases hstep
    exact hcall _ _ _ hnext
  · cases hstep
  · cases hstep

/-- The calls that read on lower the potential. -/
theorem readAll_decreases (dir : Dir) :
    Loop.Decreases (readAllStep (next dir)) fun s => s.2.potential dir :=
  readAllStep_decreases fun _ _ _ => next_potential_lt

/-- Reading all in the strict way comes to an end. -/
theorem readAllStrict_decreases (dir : Dir) :
    Loop.Decreases (readAllStep (nextStrict dir)) fun s => s.2.potential dir :=
  readAllStep_decreases fun _ _ _ => nextStrict_potential_lt

/-- `next` again and again, up to the first call that returns no record. -/
def readAll (dir : Dir) (r : WalReader) : List Bytes × Option WalError :=
  Loop.iterate (readAll_decreases dir) ([], r)

/-- `next_strict` again and again. -/
def readAllStrict (dir : Dir) (r : WalReader) : List Bytes × Option WalError :=
  Loop.iterate (readAllStrict_decreases dir) ([], r)

/-- A strict call answers as the other or reports an error. -/
theorem nextStrict_agrees (dir : Dir) (r : WalReader) :
    r.nextStrict dir = r.next dir ∨ ∃ e, (r.nextStrict dir).1 = .error e := by
  refine Loop.iterate_agrees (nextStep_decreases dir) (nextStrictStep_decreases dir)
    (fun answer => ∃ e, answer.1 = .error e) (fun s => ?_) r
  rcases nextStrictStep_cases dir s with hsame | ⟨e, r', hstep, -, -⟩
  · exact Or.inl hsame
  · exact Or.inr ⟨_, hstep, e, rfl⟩

/-- What has been read stays read. -/
theorem isPrefix_readAll (dir : Dir) (s : List Bytes × WalReader) :
    s.1 <+: (Loop.iterate (readAll_decreases dir) s).1 := by
  refine Loop.iterate_rule (readAll_decreases dir) (fun t => s.1 <+: t.1)
    (fun result => s.1 <+: result.1) ?_ ?_ List.prefix_rfl
  · intro t t' hfirst hstep
    unfold readAllStep at hstep
    split at hstep
    · cases hstep
      exact hfirst.trans (List.prefix_append _ _)
    · cases hstep
    · cases hstep
  · intro t result hfirst hstep
    unfold readAllStep at hstep
    split at hstep
    · cases hstep
    · cases hstep
      exact hfirst
    · cases hstep
      exact hfirst

/-- `next` reports no error in a quiescent directory. -/
theorem readAll_ends {dir : Dir} {r : WalReader} (h : r.Fresh dir) : (r.readAll dir).2 = none := by
  refine Loop.iterate_rule (readAll_decreases dir) (fun s => s.2.Fresh dir)
    (fun result => result.2 = none) ?_ ?_ h
  · intro s s' hfresh hstep
    have hfinds := next_finds hfresh
    unfold readAllStep at hstep
    split at hstep
    · rename_i hnext
      rw [hnext] at hfinds
      cases hstep
      exact hfinds.1
    · cases hstep
    · cases hstep
  · intro s result hfresh hstep
    have hfinds := next_finds hfresh
    unfold readAllStep at hstep
    split at hstep
    · cases hstep
    · cases hstep
      rfl
    · rename_i hnext
      rw [hnext] at hfinds
      exact hfinds.elim

/-- The scans from one state, by what each call does. -/
theorem readAllStrict_agrees (dir : Dir) (s : List Bytes × WalReader) :
    let strict := Loop.iterate (readAllStrict_decreases dir) s
    let lenient := Loop.iterate (readAll_decreases dir) s
    (strict.2 = none → strict = lenient) ∧ strict.1 <+: lenient.1 := by
  intro strict lenient
  induction hn : s.2.potential dir using Nat.strongRecOn generalizing s with
  | _ n ih =>
      rcases nextStrict_agrees dir s.2 with hsame | ⟨e, herror⟩
      · have hturn : readAllStep (nextStrict dir) s = readAllStep (next dir) s := by
          simp only [readAllStep, hsame]
        cases hstep : readAllStep (next dir) s with
        | inl result =>
            have hstrict : strict = result := Loop.iterate_of_inl _ (hturn.trans hstep)
            have hlenient : lenient = result := Loop.iterate_of_inl _ hstep
            rw [hstrict, hlenient]
            exact ⟨fun _ => rfl, List.prefix_rfl⟩
        | inr s' =>
            have hstrict : strict = Loop.iterate (readAllStrict_decreases dir) s' :=
              Loop.iterate_of_inr _ (hturn.trans hstep)
            have hlenient : lenient = Loop.iterate (readAll_decreases dir) s' :=
              Loop.iterate_of_inr _ hstep
            rw [hstrict, hlenient]
            exact ih (s'.2.potential dir) (hn ▸ readAll_decreases dir s s' hstep) s' rfl
      · have hstep : readAllStep (nextStrict dir) s = .inl (s.1, some e) := by
          unfold readAllStep
          generalize s.2.nextStrict dir = answer at herror
          obtain ⟨result, r'⟩ := answer
          obtain rfl : result = .error e := herror
          rfl
        have hstrict : strict = (s.1, some e) := Loop.iterate_of_inl _ hstep
        rw [hstrict]
        exact ⟨fun hnone => absurd hnone (Option.some_ne_none e), isPrefix_readAll dir s⟩

end WalReader

/-- **Strict and lenient scans agree.**  In a quiescent directory, from the same
position, a strict scan that ends without an error returns the payloads of the lenient
one, and one that stops with an error the first of them. -/
theorem scans_agree (consumerName : String) (position : WalPosition) (dir : Dir) :
    let r := WalReader.openAt consumerName position dir
    (r.readAll dir).2 = none ∧
      ((r.readAllStrict dir).2 = none → (r.readAllStrict dir).1 = (r.readAll dir).1) ∧
      (r.readAllStrict dir).1 <+: (r.readAll dir).1 := by
  intro r
  have hfresh : r.Fresh dir := WalReader.fresh_openAt consumerName position dir
  obtain ⟨hsame, hfirst⟩ := WalReader.readAllStrict_agrees dir ([], r)
  exact ⟨WalReader.readAll_ends hfresh, fun hnone => congrArg Prod.fst (hsame hnone), hfirst⟩

end

end PolyBook.Wal
