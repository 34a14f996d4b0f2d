import PolyBook.Library.Folds
import PolyBook.Wal.Scan

/-!
# The strict scan

`next_strict` is the reader of offline recovery: it reports a frame it cannot
read, bytes after the last frame and a missing segment, where `next` goes on.
`scanStrict` reads a quiescent directory to its end this way.

`scanStrict_spec` says that the scan ends without an error exactly on a clean
directory, and then it has returned every frame.  `foldStrict` is the loop of a
caller that does something with each record; `foldStrict_spec` makes it a fold
over the payloads.
-/

namespace PolyBook.Wal

namespace WalReader

/-- `advance_segment_strict`: as `advanceSegment`, unless a segment is missing. -/
def advanceSegmentStrict (r : WalReader) (dir : Dir) : Except WalError Bool × WalReader :=
  let r := { r with availableSegments := dir.keys }
  match r.availableSegments.find? (r.currentSegmentId < ·) with
  | some nextId =>
      if nextId ≠ r.currentSegmentId + 1 then
        (.error (.segmentGap r.consumerName r.currentSegmentId nextId), r)
      else
        let (loaded, r) := { r with currentOffset := 0 }.loadSegment nextId dir
        (.ok loaded, r)
  | none =>
      let (grown, r) := r.topUpCurrentSegment dir
      (.ok grown, r)

/-- Go round again, report the end, or the error. -/
def continueOrFail : Except WalError Bool × WalReader →
    (Except WalError (Option Bytes) × WalReader) ⊕ WalReader
  | (.ok went, r) => continueOrEnd (went, r)
  | (.error e, r) => .inl (.error e, r)

/-- What `advanceSegmentStrict` does. -/
theorem advanceSegmentStrict_cases (dir : Dir) (r : WalReader) :
    (r.advanceSegmentStrict dir =
        (.ok (r.advanceSegment dir).1, (r.advanceSegment dir).2) ∧
      ∀ nextId, NextSegment dir r.currentSegmentId nextId → nextId ∈ dir.keys →
        nextId = r.currentSegmentId + 1) ∨
      ∃ nextId e, NextSegment dir r.currentSegmentId nextId ∧ nextId ∈ dir.keys ∧
        nextId ≠ r.currentSegmentId + 1 ∧
        r.advanceSegmentStrict dir = (.error e, { r with availableSegments := dir.keys }) := by
  unfold advanceSegmentStrict advanceSegment
  obtain ⟨hfind, hlast⟩ | ⟨nextId, hfind, hmem, hnext⟩ := find?_keys_cases dir r.currentSegmentId
  · simp only [hfind]
    refine Or.inl ⟨trivial, fun nextId hnext hmem => ?_⟩
    have := hnext.later
    have := hlast nextId hmem
    omega
  · simp only [hfind]
    by_cases hsucc : nextId = r.currentSegmentId + 1
    · rw [if_neg (not_not_intro hsucc)]
      refine Or.inl ⟨rfl, fun other hother hmem' => ?_⟩
      have := hother.later
      have := hother.nearest nextId hmem
      have := hnext.nearest other hmem'
      omega
    · rw [if_pos hsucc]
      exact Or.inr ⟨nextId, _, hnext, hmem, hsucc, rfl⟩

variable [Crc32c]

/-- One turn of the loop of `next_strict`. -/
def nextStrictStep (dir : Dir) (r : WalReader) :
    (Except WalError (Option Bytes) × WalReader) ⊕ WalReader :=
  match r.currentData with
  | some data =>
      if r.currentOffset < data.length ∧ data.length - r.currentOffset < headerSize then
        .inl (.error (.truncatedRecord r.currentSegmentId r.currentOffset), r)
      else if r.currentOffset < data.length ∧ recordLen data r.currentOffset = 0 then
        .inl (.error (.truncatedRecord r.currentSegmentId r.currentOffset), r)
      else
        match readRecordAt data r.currentOffset r.currentSegmentId with
        | .ok (some (payload, nextOffset)) =>
            .inl (.ok (some payload), { r with currentOffset := nextOffset })
        | .ok none => continueOrFail (r.advanceSegmentStrict dir)
        | .error e => .inl (.error e, r)
  | none => continueOrEnd (r.reloadWhenUnloaded dir)

theorem nextStrictStep_decreases (dir : Dir) :
    Loop.Decreases (nextStrictStep dir) (potential dir) := by
  intro r r' hstep
  cases hdata : r.currentData with
  | none =>
      have hsame : r.nextStrictStep dir = r.nextStep dir := by
        simp only [nextStrictStep, nextStep, hdata]
      exact nextStep_decreases dir r r' (hsame ▸ hstep)
  | some data =>
      simp only [nextStrictStep, hdata] at hstep
      split at hstep
      · cases hstep
      · split at hstep
        · cases hstep
        · split at hstep
          · cases hstep
          · obtain ⟨hadvance, -⟩ | ⟨_, _, _, _, _, hadvance⟩ := advanceSegmentStrict_cases dir r
            · rw [hadvance] at hstep
              exact potential_lt_of_advance hdata hstep
            · rw [hadvance] at hstep
              cases hstep
          · cases hstep

/-- `next_strict`: the next record, `none` at the end, or what is wrong. -/
def nextStrict (dir : Dir) (r : WalReader) : Except WalError (Option Bytes) × WalReader :=
  Loop.iterate (nextStrictStep_decreases dir) r

/-- A turn that returns a record leaves it behind. -/
theorem nextStrictStep_potential_lt {dir : Dir} {r r' : WalReader} {payload : Bytes}
    (h : r.nextStrictStep dir = .inl (.ok (some payload), r')) :
    r'.potential dir < r.potential dir := by
  cases hdata : r.currentData with
  | none =>
      simp only [nextStrictStep, hdata] at h
      exact absurd h (continueOrEnd_ne_record _ _ _)
  | some data =>
      simp only [nextStrictStep, hdata] at h
      split at h
      · cases h
      · split at h
        · cases h
        · split at h
          · rename_i hread
            cases h
            obtain ⟨hlt, hle⟩ := readRecordAt_next_offset hread
            simpa only [hdata] using potential_lt_of_offset dir hdata hlt hle
          · obtain ⟨hadvance, -⟩ | ⟨_, _, _, _, _, hadvance⟩ := advanceSegmentStrict_cases dir r
            · rw [hadvance] at h
              exact absurd h (continueOrEnd_ne_record _ _ _)
            · rw [hadvance] at h
              cases h
          · cases h

/-- A call that returns a record leaves it behind. -/
theorem nextStrict_potential_lt {dir : Dir} {r r' : WalReader} {payload : Bytes}
    (h : r.nextStrict dir = (.ok (some payload), r')) : r'.potential dir < r.potential dir := by
  suffices hloop : ∀ payload' r₂, r.nextStrict dir = (.ok (some payload'), r₂) →
      r₂.potential dir < r.potential dir from hloop payload r' h
  refine Loop.iterate_rule (nextStrictStep_decreases dir)
    (fun r₁ => r₁.potential dir ≤ r.potential dir)
    (fun answer => ∀ payload' r₂, answer = (.ok (some payload'), r₂) →
      r₂.potential dir < r.potential dir) ?_ ?_ (Nat.le_refl _)
  · intro r₁ r₂ hle hstep
    exact Nat.le_of_lt (Nat.lt_of_lt_of_le (nextStrictStep_decreases dir r₁ r₂ hstep) hle)
  · rintro r₁ answer hle hstep payload' r₂ rfl
    exact Nat.lt_of_lt_of_le (nextStrictStep_potential_lt hstep) hle

/-- One call of `next_strict` in a scan. -/
def scanStrictStep (dir : Dir) (s : List Scanned × WalReader) :
    Except WalError (List Scanned) ⊕ (List Scanned × WalReader) :=
  match s.2.nextStrict dir with
  | (.ok (some payload), r) => .inr (s.1 ++ [⟨r.currentPosition, some payload⟩], r)
  | (.ok none, _) => .inl (.ok s.1)
  | (.error e, _) => .inl (.error e)

theorem scanStrictStep_decreases (dir : Dir) :
    Loop.Decreases (scanStrictStep dir) fun s => s.2.potential dir := by
  intro s s' hstep
  unfold scanStrictStep at hstep
  split at hstep
  · rename_i hnext
    cases hstep
    exact nextStrict_potential_lt hnext
  · cases hstep
  · cases hstep

/-- `open_from_start`, then `next_strict` up to the end. -/
def scanStrict (consumerName : String) (dir : Dir) : Except WalError (List Scanned) :=
  Loop.iterate (scanStrictStep_decreases dir) ([], openFromStart consumerName dir)

section

variable {σ ε : Type} (f : σ → Bytes → Except ε σ) (fail : σ → WalError → ε)

/-- One turn of a loop around `next_strict` that handles each record. -/
def foldStrictStep (dir : Dir) (s : σ × WalReader) : Except ε σ ⊕ (σ × WalReader) :=
  match s.2.nextStrict dir with
  | (.ok (some payload), r) =>
      match f s.1 payload with
      | .ok next => .inr (next, r)
      | .error e => .inl (.error e)
  | (.ok none, _) => .inl (.ok s.1)
  | (.error e, _) => .inl (.error (fail s.1 e))

theorem foldStrictStep_decreases (dir : Dir) :
    Loop.Decreases (foldStrictStep f fail dir) fun s => s.2.potential dir := by
  intro s s' hstep
  unfold foldStrictStep at hstep
  split at hstep
  · rename_i hnext
    split at hstep
    · cases hstep
      exact nextStrict_potential_lt hnext
    · cases hstep
  · cases hstep
  · cases hstep

/-- `open_from_start`, then `next_strict` up to the end, handling each record. -/
def foldStrict (consumerName : String) (dir : Dir) (s : σ) : Except ε σ :=
  Loop.iterate (foldStrictStep_decreases f fail dir) (s, openFromStart consumerName dir)

end

end WalReader

/-! ## Clean directories -/

section

variable [Crc32c]

/-- A segment file that ends with its last whole frame. -/
def Whole (file : Bytes) (id : Nat) : Prop := scanValidEnd file id = file.length

namespace Dir

/-- The records of all segment files. -/
def payloads (dir : Dir) : List Bytes := dir.scan.filterMap (·.payload)

/-- The segment after a given one, if there is one, has the next id. -/
def NoGap (dir : Dir) (id : Nat) : Prop :=
  ∀ nextId ∈ dir.keys, NextSegment dir id nextId → nextId = id + 1

/-- The segments before a given one are whole and follow each other. -/
def CleanBelow (dir : Dir) (bound : Nat) : Prop :=
  ∀ (id : Nat) (file : Bytes), dir[id]? = some file → id < bound → Whole file id ∧ dir.NoGap id

/-- All segments are whole and follow each other. -/
def Clean (dir : Dir) : Prop :=
  ∀ (id : Nat) (file : Bytes), dir[id]? = some file → Whole file id ∧ dir.NoGap id

theorem Clean.below {dir : Dir} (h : dir.Clean) (bound : Nat) : dir.CleanBelow bound :=
  fun id file hfile _ => h id file hfile

end Dir

/-- What the end of the readable data can be. -/
theorem readRecordAt_eq_none {data : Bytes} {offset id : Nat}
    (h : readRecordAt data offset id = .ok none) :
    data.length ≤ offset ∨ data.length < offset + headerSize ∨ recordLen data offset = 0 := by
  unfold readRecordAt at h
  split at h
  · left
    assumption
  · split at h
    · right
      left
      assumption
    · dsimp only at h
      split at h
      · right
        right
        assumption
      · split at h
        · cases h
        · split at h
          · cases h
          · cases h

namespace WalReader

/-- A strict reader in a quiescent directory: what is behind it is clean, and it
stands where whole frames lead. -/
structure Steady (dir : Dir) (r : WalReader) (data : Bytes) : Prop where
  cached : r.currentData = some data
  file : dir[r.currentSegmentId]? = some data
  below : dir.CleanBelow r.currentSegmentId
  reached : Loop.iterate (scanStep_decreases data r.currentSegmentId) r.currentOffset =
    scanValidEnd data r.currentSegmentId
  inside : r.currentOffset ≤ data.length

/-- What one turn of `next_strict`, or a whole call, does. -/
def StrictlyFinds (dir : Dir) (frames : List Scanned) :
    Except WalError (Option Bytes) × WalReader → Prop
  | (.ok (some payload), r) =>
      (∃ data, Steady dir r data) ∧ frames = ⟨r.currentPosition, some payload⟩ :: r.ahead dir
  | (.ok none, _) => dir.Clean ∧ frames = []
  | (.error _, _) => ¬ dir.Clean

namespace Steady

variable {dir : Dir} {r : WalReader} {data : Bytes}

/-- Where the frames stop before the end of the file, the segment is not whole. -/
theorem not_clean (h : Steady dir r data)
    (hstop : scanStep data r.currentSegmentId r.currentOffset = .inl r.currentOffset)
    (hne : r.currentOffset ≠ data.length) : ¬ dir.Clean := by
  intro hclean
  have hwhole := (hclean _ _ h.file).1
  rw [Whole, ← h.reached, Loop.iterate_of_inl _ hstop] at hwhole
  exact hne hwhole

/-- At the end of a segment file. -/
theorem advance (h : Steady dir r data) (hend : r.currentOffset = data.length)
    (hstop : Stops data r.currentOffset r.currentSegmentId)
    (hscan : scanStep data r.currentSegmentId r.currentOffset = .inl r.currentOffset) :
    match continueOrFail (r.advanceSegmentStrict dir) with
    | .inl answer => StrictlyFinds dir (r.ahead dir) answer
    | .inr r' => (∃ data', Steady dir r' data') ∧ r.ahead dir = r'.ahead dir := by
  have hwhole : Whole data r.currentSegmentId := by
    rw [Whole, ← h.reached, Loop.iterate_of_inl _ hscan, hend]
  have hahead := ahead_of_data dir h.cached
  rw [framesFrom_of_stops hstop, List.nil_append] at hahead
  obtain ⟨hadvance, hgap⟩ | ⟨nextId, e, hnext, hmem, hne, hadvance⟩ :=
    advanceSegmentStrict_cases dir r
  · rw [hadvance]
    have houtcome := advanceSegment_cases dir r h.cached
    generalize r.advanceSegment dir = outcome at houtcome
    have hgap' : dir.NoGap r.currentSegmentId := fun nextId hmem hnext => hgap nextId hnext hmem
    cases houtcome with
    | @moved nextId file hnext hfile =>
        rw [Dir.after_of_next hnext hfile] at hahead
        refine ⟨⟨file, rfl, hfile, fun id file' hfile' hlt => ?_, rfl, Nat.zero_le _⟩, hahead⟩
        have hmem := Dir.mem_keys_of_getElem? hfile'
        obtain hle | hle := hnext.nearest id hmem
        · obtain hlt' | rfl := Nat.lt_or_eq_of_le hle
          · exact h.below id file' hfile' hlt'
          · rw [h.file] at hfile'
            cases hfile'
            exact ⟨hwhole, hgap'⟩
        · have : id < nextId := hlt
          omega
    | pruned hlast hgone =>
        rw [h.file] at hgone
        cases hgone
    | shrunk hlast hfile hlen =>
        rw [h.file] at hfile
        cases hfile
        omega
    | unchanged hlast hfile hlen =>
        rw [Dir.after_of_last hlast] at hahead
        refine ⟨fun id file' hfile' => ?_, hahead⟩
        obtain hlt | rfl := Nat.lt_or_eq_of_le (hlast id (Dir.mem_keys_of_getElem? hfile'))
        · exact h.below id file' hfile' hlt
        · rw [h.file] at hfile'
          cases hfile'
          exact ⟨hwhole, hgap'⟩
    | grown hlast hfile hlen =>
        rw [h.file] at hfile
        cases hfile
        omega
  · rw [hadvance]
    intro hclean
    exact hne ((hclean _ _ h.file).2 nextId hmem hnext)

/-- One turn of `next_strict`. -/
theorem nextStrictStep (h : Steady dir r data) :
    match r.nextStrictStep dir with
    | .inl answer => StrictlyFinds dir (r.ahead dir) answer
    | .inr r' => (∃ data', Steady dir r' data') ∧ r.ahead dir = r'.ahead dir := by
  have hahead := ahead_of_data dir h.cached
  unfold WalReader.nextStrictStep
  simp only [h.cached]
  by_cases hshort : r.currentOffset < data.length ∧ data.length - r.currentOffset < headerSize
  · rw [if_pos hshort]
    have hread : readRecordAt data r.currentOffset r.currentSegmentId = .ok none := by
      unfold readRecordAt
      rw [if_neg (by omega), if_pos (by omega)]
    exact h.not_clean (by simp only [scanStep, hread]) (Nat.ne_of_lt hshort.1)
  rw [if_neg hshort]
  by_cases hzero : r.currentOffset < data.length ∧ recordLen data r.currentOffset = 0
  · rw [if_pos hzero]
    have hread : readRecordAt data r.currentOffset r.currentSegmentId = .ok none := by
      unfold readRecordAt
      rw [if_neg (by omega), if_neg (by omega)]
      exact if_pos hzero.2
    exact h.not_clean (by simp only [scanStep, hread]) (Nat.ne_of_lt hzero.1)
  rw [if_neg hzero]
  obtain hread | hread | ⟨hfits, ⟨payload, hread⟩ | ⟨expected, actual, hread⟩⟩ :=
    readRecordAt_cases data r.currentOffset r.currentSegmentId
  · have hinside := h.inside
    have hend : r.currentOffset = data.length := by
      obtain hle | hle | hle := readRecordAt_eq_none hread
      · omega
      · omega
      · by_contra hne
        exact hzero ⟨by omega, hle⟩
    simp only [hread]
    exact h.advance hend (Or.inl hread) (by simp only [scanStep, hread])
  · simp only [hread]
    refine h.not_clean (by simp only [scanStep, hread]) fun hend => ?_
    rw [readRecordAt, if_pos (by omega)] at hread
    cases hread
  · simp only [hread]
    rw [framesFrom_of_record hread] at hahead
    refine ⟨⟨data, rfl, h.file, h.below, ?_, hfits⟩, hahead⟩
    rw [← h.reached]
    exact (Loop.iterate_of_inr _ (by simp only [scanStep, hread])).symm
  · simp only [hread]
    have hpos : 0 < headerSize := by decide
    exact h.not_clean (by simp only [scanStep, hread]) (by omega)

/-- A call of `next_strict`. -/
theorem nextStrict (h : Steady dir r data) :
    StrictlyFinds dir (r.ahead dir) (r.nextStrict dir) := by
  refine Loop.iterate_rule (nextStrictStep_decreases dir)
    (fun r' => (∃ data', Steady dir r' data') ∧ r.ahead dir = r'.ahead dir)
    (StrictlyFinds dir (r.ahead dir)) ?_ ?_ ⟨⟨data, h⟩, rfl⟩
  · rintro r₁ r₂ ⟨⟨data₁, h₁⟩, hahead⟩ hstep
    have hturn := h₁.nextStrictStep
    rw [hstep] at hturn
    exact ⟨hturn.1, hahead.trans hturn.2⟩
  · rintro r₁ answer ⟨⟨data₁, h₁⟩, hahead⟩ hstep
    have hturn := h₁.nextStrictStep
    rw [hstep] at hturn
    rwa [hahead]

end Steady

/-- The strict reader at the beginning of the earliest segment. -/
theorem steady_openFromStart (consumerName : String) {dir : Dir} {first : Nat} {file : Bytes}
    (hfirst : dir.keys.head? = some first) (hfile : dir[first]? = some file) :
    Steady dir (openFromStart consumerName dir) file ∧
      (openFromStart consumerName dir).ahead dir = dir.scan := by
  have hopen : openFromStart consumerName dir = ⟨consumerName, first, 0, some file, dir.keys⟩ := by
    rw [openFromStart, hfirst]
    exact openAt_of_some consumerName ⟨first, 0⟩ hfile
  rw [hopen]
  refine ⟨⟨rfl, hfile, fun id file' hfile' hlt => ?_, rfl, Nat.zero_le _⟩,
    (ahead_of_earliest (r := ⟨consumerName, first, 0, some file, dir.keys⟩) hfirst rfl hfile
      rfl).1⟩
  have := Dir.head_le_of_mem hfirst (Dir.mem_keys_of_getElem? hfile')
  have : id < first := hlt
  omega

/-- **The strict scan.**  It ends without an error exactly on a clean directory,
and then it has returned every frame. -/
theorem scanStrict_spec (consumerName : String) {dir : Dir} {id : Nat} {file : Bytes}
    (hfile : dir[id]? = some file) :
    match scanStrict consumerName dir with
    | .ok returned => dir.Clean ∧ returned = dir.scan
    | .error _ => ¬ dir.Clean := by
  obtain ⟨first, data, hfirst, hdata⟩ := Dir.head?_keys_of_getElem? hfile
  obtain ⟨hsteady, hahead⟩ := steady_openFromStart consumerName hfirst hdata
  refine Loop.iterate_rule (scanStrictStep_decreases dir)
    (fun s => (∃ data, Steady dir s.2 data) ∧ s.1 ++ s.2.ahead dir = dir.scan)
    (fun result => match result with
      | .ok returned => dir.Clean ∧ returned = dir.scan
      | .error _ => ¬ dir.Clean) ?_ ?_ ⟨⟨data, hsteady⟩, hahead⟩
  · rintro ⟨acc, r⟩ s' ⟨⟨data', h⟩, hacc⟩ hstep
    have hnext := h.nextStrict
    unfold scanStrictStep at hstep
    split at hstep
    · rename_i payload r' hanswer
      cases hstep
      rw [hanswer] at hnext
      refine ⟨hnext.1, ?_⟩
      rw [← hacc, hnext.2, List.append_assoc, List.singleton_append]
    · cases hstep
    · cases hstep
  · rintro ⟨acc, r⟩ result ⟨⟨data', h⟩, hacc⟩ hstep
    have hnext := h.nextStrict
    unfold scanStrictStep at hstep
    split at hstep
    · cases hstep
    · rename_i hanswer
      cases hstep
      rw [hanswer] at hnext
      rw [hnext.2, List.append_nil] at hacc
      exact ⟨hnext.1, hacc⟩
    · rename_i hanswer
      cases hstep
      rwa [hanswer] at hnext

/-- What a scan without an error has returned. -/
theorem payloads_of_scanStrict (consumerName : String) {dir : Dir} {id : Nat} {file : Bytes}
    (hfile : dir[id]? = some file) {payloads : List Bytes}
    (h : (scanStrict consumerName dir).toOption.map (List.filterMap (·.payload)) =
      some payloads) : dir.payloads = payloads := by
  have hspec := scanStrict_spec consumerName hfile
  generalize scanStrict consumerName dir = result at h hspec
  cases result with
  | ok returned =>
      rw [Dir.payloads, ← hspec.2]
      exact Option.some.inj h
  | error e => cases h

/-- A scan without an error has read a clean directory. -/
theorem clean_of_scanStrict (consumerName : String) {dir : Dir} {id : Nat} {file : Bytes}
    (hfile : dir[id]? = some file) (h : (scanStrict consumerName dir).toOption.isSome = true) :
    dir.Clean := by
  have hspec := scanStrict_spec consumerName hfile
  generalize scanStrict consumerName dir = result at h hspec
  cases result with
  | ok returned => exact hspec.1
  | error e => cases h

/-- Without a segment file there is nothing to read. -/
theorem foldStrict_of_empty {σ ε : Type} (f : σ → Bytes → Except ε σ) (fail : σ → WalError → ε)
    (consumerName : String) {dir : Dir} (hempty : dir.keys = []) (s : σ) :
    foldStrict f fail consumerName dir s = .ok s ∧ dir.Clean ∧ dir.payloads = [] := by
  have hnone : ∀ id : Nat, dir[id]? = none := fun id => by
    cases hfile : dir[id]? with
    | none => rfl
    | some file =>
        have := Dir.mem_keys_of_getElem? hfile
        rw [hempty] at this
        cases this
  have hopen : openFromStart consumerName dir = ⟨consumerName, 0, 0, none, []⟩ := by
    simp only [openFromStart, openAt, loadSegment, hempty, hnone, List.head?_nil,
      Option.getD_none]
  have hcontains : dir.contains 0 = false := by
    rw [Std.ExtTreeMap.contains_eq_isSome_getElem?, hnone]
    rfl
  have hstep : nextStrictStep dir ⟨consumerName, 0, 0, none, []⟩ =
      .inl (.ok none, ⟨consumerName, 0, 0, none, []⟩) := by
    simp only [nextStrictStep, reloadWhenUnloaded, hcontains, hempty, List.head?_nil,
      Bool.false_eq_true, if_false, continueOrEnd]
  have hnext : nextStrict dir ⟨consumerName, 0, 0, none, []⟩ =
      (.ok none, ⟨consumerName, 0, 0, none, []⟩) :=
    Loop.iterate_of_inl (nextStrictStep_decreases dir) hstep
  refine ⟨?_, fun id file hfile => ?_, ?_⟩
  · refine Loop.iterate_of_inl (foldStrictStep_decreases f fail dir) ?_
    simp only [foldStrictStep, hopen, hnext]
  · rw [hnone] at hfile
    cases hfile
  · have htoList : dir.toList = [] := by
      rw [← List.map_eq_nil_iff (f := Prod.fst), Std.ExtTreeMap.map_fst_toList_eq_keys, hempty]
    rw [Dir.payloads, Dir.scan, htoList]
    rfl

/-- **A loop around the strict reader.**  On a clean directory it is a fold over the
payloads; it goes through only on a clean directory. -/
theorem foldStrict_spec {σ ε : Type} (f : σ → Bytes → Except ε σ) (fail : σ → WalError → ε)
    (consumerName : String) (dir : Dir) (s : σ) :
    (dir.Clean → foldStrict f fail consumerName dir s = dir.payloads.foldlM f s) ∧
      ∀ s', foldStrict f fail consumerName dir s = .ok s' → dir.Clean := by
  cases hkeys : dir.keys with
  | nil =>
      obtain ⟨hfold, hclean, hnone⟩ := foldStrict_of_empty f fail consumerName hkeys s
      rw [hfold, hnone]
      exact ⟨fun _ => rfl, fun _ _ => hclean⟩
  | cons first keys =>
      have hfirst : dir.keys.head? = some first := by rw [hkeys, List.head?_cons]
      obtain ⟨data, hdata⟩ := Dir.getElem?_of_mem_keys (List.mem_of_mem_head? hfirst)
      obtain ⟨hsteady, hahead⟩ := steady_openFromStart consumerName hfirst hdata
      refine Loop.iterate_rule (foldStrictStep_decreases f fail dir)
        (fun t => (∃ data, Steady dir t.2 data) ∧
          dir.payloads.foldlM f s = ((t.2.ahead dir).filterMap (·.payload)).foldlM f t.1)
        (fun result => (dir.Clean → result = dir.payloads.foldlM f s) ∧
          ∀ s', result = .ok s' → dir.Clean) ?_ ?_ ⟨⟨data, hsteady⟩, by rw [hahead, Dir.payloads]⟩
      · rintro ⟨t, r⟩ ⟨t', r'⟩ ⟨⟨data', h⟩, hfold⟩ hstep
        have hnext := h.nextStrict
        unfold foldStrictStep at hstep
        split at hstep
        · rename_i payload r₁ hanswer
          rw [hanswer] at hnext
          split at hstep
          · rename_i hf
            cases hstep
            refine ⟨hnext.1, ?_⟩
            rw [hfold, hnext.2, List.filterMap_cons]
            exact Folds.foldlM_cons_ok hf
          · cases hstep
        · cases hstep
        · cases hstep
      · rintro ⟨t, r⟩ result ⟨⟨data', h⟩, hfold⟩ hstep
        have hnext := h.nextStrict
        unfold foldStrictStep at hstep
        split at hstep
        · rename_i payload r₁ hanswer
          rw [hanswer] at hnext
          split at hstep
          · cases hstep
          · rename_i e hf
            cases hstep
            refine ⟨fun _ => ?_, fun s' hs' => nomatch hs'⟩
            rw [hfold, hnext.2, List.filterMap_cons]
            exact (Folds.foldlM_cons_error hf).symm
        · rename_i hanswer
          cases hstep
          rw [hanswer] at hnext
          rw [hnext.2] at hfold
          exact ⟨fun _ => hfold.symm, fun _ _ => hnext.1⟩
        · rename_i hanswer
          cases hstep
          rw [hanswer] at hnext
          exact ⟨fun hclean => absurd hclean hnext, fun s' hs' => nomatch hs'⟩

end WalReader

end

end PolyBook.Wal
