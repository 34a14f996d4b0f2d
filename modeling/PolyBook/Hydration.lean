import PolyBook.LiveState
import PolyBook.Wal.Codec
import PolyBook.Wal.Scan

/-!
# Hydration

On startup `hydrate` applies the latest checkpoint of each active asset and
replays the log behind it: records up to the smallest cut are skipped unread,
later ones are decoded, and applied unless their own asset's checkpoint covers
them.  `replayWalTail_spec` says what the replay has returned, decoded and
applied when it ends.
-/

namespace PolyBook

open Wal

/-- `HydrationResult`. -/
structure HydrationResult where
  checkpointsLoaded : Nat
  walRecordsReplayed : Nat
  walResumeOffset : Option Nat
  walEndPosition : Option WalPosition
  recoverySucceeded : Bool
  deriving DecidableEq

/-- The log directory as a reader of one consumer sees it: the segment files and
the content of the consumer's position file. -/
structure WalDirectory where
  segments : Dir
  positionFile : Option String

/-- The latest checkpoint per asset, `none` for an asset without one. -/
abbrev CheckpointInventory := Except String (List (Option BookCheckpoint))

/-- The loop variables of `replay_wal_tail`, with the records that `next` returned
and those that were applied, by the position after them. -/
structure TailReplay where
  reader : WalReader
  model : LiveState
  recordsReplayed : Nat
  succeeded : Bool
  returned : List (WalPosition × Bytes)
  applied : List (WalPosition × PersistedRecord)

/-- The offsets of the checkpoints that were applied, by asset. -/
abbrev CheckpointOffsets := Std.ExtTreeMap AssetId Nat

/-- The offset lies behind the cut, if there is one. -/
def behind (cut : Option Nat) (offset : Nat) : Bool := cut.isSome && offset ≤ cut.getD 0

/-- Phase 1 of `hydrate`: the live state, the offsets and the number of
checkpoints applied. -/
structure Loaded where
  model : LiveState
  offsets : CheckpointOffsets
  count : Nat

/-- The cut of one active asset's checkpoint, if it has one. -/
def noteOffset (offsets : CheckpointOffsets) : AssetId × Option BookCheckpoint → CheckpointOffsets
  | (assetId, some checkpoint) =>
      match checkpoint.walOffset with
      | some offset => offsets.insert assetId offset
      | none => offsets
  | (_, none) => offsets

/-- The cuts of the active assets' checkpoints. -/
def checkpointOffsets (activeAssets : List AssetId) (checkpoints : List (Option BookCheckpoint)) :
    CheckpointOffsets :=
  (activeAssets.zip checkpoints).foldl noteOffset ∅

/-- One active asset in phase 1. -/
def loadCheckpoint (walConfigured : Bool) (acc : Loaded) :
    AssetId × Option BookCheckpoint → Loaded
  | (_, none) => acc
  | (assetId, some checkpoint) =>
      -- a checkpoint without a cut is of no use when there is a log to replay
      if walConfigured && checkpoint.walOffset.isNone then acc
      else
        { model := acc.model.applyCheckpoint checkpoint
          offsets := noteOffset acc.offsets (assetId, some checkpoint)
          count := acc.count + 1 }

/-- Phase 1 of `hydrate`. -/
def loadCheckpoints (walConfigured : Bool) (activeAssets : List AssetId) (model : LiveState)
    (checkpoints : List (Option BookCheckpoint)) : Loaded :=
  (activeAssets.zip checkpoints).foldl (loadCheckpoint walConfigured) ⟨model, ∅, 0⟩

theorem loadCheckpoints_offsets (walConfigured : Bool) (activeAssets : List AssetId)
    (model : LiveState) (checkpoints : List (Option BookCheckpoint)) :
    (loadCheckpoints walConfigured activeAssets model checkpoints).offsets =
      checkpointOffsets activeAssets checkpoints := by
  have hstep : ∀ (acc : Loaded) (e : AssetId × Option BookCheckpoint),
      (loadCheckpoint walConfigured acc e).offsets = noteOffset acc.offsets e := by
    rintro acc ⟨assetId, none | checkpoint⟩
    · rfl
    · unfold loadCheckpoint
      cases hoffset : checkpoint.walOffset with
      | none => cases walConfigured <;> simp [noteOffset, hoffset]
      | some offset => simp [hoffset]
  unfold loadCheckpoints checkpointOffsets
  generalize activeAssets.zip checkpoints = entries
  suffices h : ∀ acc : Loaded, (entries.foldl (loadCheckpoint walConfigured) acc).offsets =
      entries.foldl noteOffset acc.offsets from h ⟨model, ∅, 0⟩
  induction entries with
  | nil => exact fun acc => rfl
  | cons e entries ih =>
      intro acc
      rw [List.foldl_cons, List.foldl_cons, ih, hstep]

/-- `wal_resume_offset`: the smallest cut, if every active asset has one. -/
def walResumeOffset (activeAssets : List AssetId) (offsets : CheckpointOffsets) : Option Nat :=
  if !activeAssets.isEmpty && activeAssets.all offsets.contains then
    (offsets.toList.map Prod.snd).min?
  else none

/-- No cut is before the one to resume from. -/
theorem behind_of_behind_walResumeOffset {activeAssets : List AssetId}
    {offsets : CheckpointOffsets} {offset : Nat}
    (h : behind (walResumeOffset activeAssets offsets) offset = true) {assetId : AssetId}
    {cut : Nat} (hcut : offsets[assetId]? = some cut) : offset ≤ cut := by
  cases hresume : walResumeOffset activeAssets offsets with
  | none => simp [behind, hresume] at h
  | some smallest =>
      have hle : offset ≤ smallest := by simpa [behind, hresume] using h
      unfold walResumeOffset at hresume
      split at hresume
      · refine Nat.le_trans hle ((List.min?_eq_some_iff.mp hresume).2 cut ?_)
        exact List.mem_map.mpr
          ⟨(assetId, cut), Std.ExtTreeMap.mem_toList_iff_getElem?_eq_some.mpr hcut, rfl⟩
      · cases hresume

/-- `next` returned a record. -/
def TailReplay.receive (t : TailReplay) (reader : WalReader) (payload : Bytes) : TailReplay :=
  { t with reader := reader, returned := t.returned ++ [(reader.currentPosition, payload)] }

/-- The record goes to the live state. -/
def TailReplay.apply (t : TailReplay) (record : PersistedRecord) : TailReplay :=
  { t with
    model := (t.model.applyRecord record).1
    recordsReplayed := t.recordsReplayed + 1
    applied := t.applied ++ [(t.reader.currentPosition, record)] }

/-- The replay goes no further. -/
def TailReplay.fail (t : TailReplay) : TailReplay := { t with succeeded := false }

/-- The live state is what the applied records made of the one at the start. -/
structure Tracks (start : LiveState) (t : TailReplay) : Prop where
  model_eq : t.model = start.applyRecords (t.applied.map Prod.snd)
  count_eq : t.recordsReplayed = t.applied.length

theorem Tracks.apply {start : LiveState} {t : TailReplay} (h : Tracks start t)
    (record : PersistedRecord) : Tracks start (t.apply record) := by
  refine ⟨?_, ?_⟩
  · simp [TailReplay.apply, LiveState.applyRecords, h.model_eq]
  · simp [TailReplay.apply, h.count_eq]

/-- `WalReader::open(config, "serve-hydration")`. -/
def hydrationReader (wal : WalDirectory) : WalReader :=
  WalReader.openDir "serve-hydration" wal.positionFile wal.segments

theorem hydrationReader_fresh (wal : WalDirectory) :
    (hydrationReader wal).Fresh wal.segments := by
  unfold hydrationReader WalReader.openDir
  generalize (loadPosition wal.positionFile).getD _ = position
  cases hfile : wal.segments[position.segmentId]? with
  | none => rw [WalReader.openAt_of_none _ _ hfile]; exact hfile.symm
  | some file => rw [WalReader.openAt_of_some _ _ hfile]; exact hfile.symm

/-- The frames whose checksum is right. -/
def intact (frames : List Scanned) : List (WalPosition × Bytes) :=
  frames.filterMap fun s => s.payload.map (s.position, ·)

theorem intact_of_corrupt {frames : List Scanned} (h : ∀ s ∈ frames, s.payload = none) :
    intact frames = [] := by
  refine List.filterMap_eq_nil_iff.mpr fun s hs => ?_
  rw [h s hs]
  rfl

theorem intact_skip {skipped : List Scanned} (h : ∀ s ∈ skipped, s.payload = none)
    (frames : List Scanned) : intact (skipped ++ frames) = intact frames := by
  rw [intact, List.filterMap_append]
  exact congrArg (· ++ intact frames) (intact_of_corrupt h)

theorem mem_intact {frames : List Scanned} {position : WalPosition} {payload : Bytes} :
    (position, payload) ∈ intact frames ↔ ⟨position, some payload⟩ ∈ frames := by
  simp only [intact, List.mem_filterMap, Option.map_eq_some_iff, Prod.mk.injEq]
  constructor
  · rintro ⟨⟨position', payload'⟩, hmem, payload'', rfl, rfl, rfl⟩
    exact hmem
  · intro hmem
    exact ⟨_, hmem, payload, rfl, rfl, rfl⟩

section

variable [Bincode]

/-- What the loop of `replay_wal_tail` does with a record it has received. -/
def handlePayload (config : WalConfig) (fromGlobalOffset : Option Nat)
    (offsets : CheckpointOffsets) (t : TailReplay) (payload : Bytes) : TailReplay ⊕ TailReplay :=
  let currentGlobal := t.reader.currentPosition.globalOffset config
  if behind fromGlobalOffset currentGlobal then .inr t
  else
    match Codec.decode payload with
    | .ok record =>
        if behind offsets[record.assetPartition]? currentGlobal then .inr t
        else .inr (t.apply record)
    | .error _ => .inl t.fail

/-- The outcomes of `handlePayload`. -/
inductive Handled (config : WalConfig) (fromGlobalOffset : Option Nat)
    (offsets : CheckpointOffsets) (t : TailReplay) (payload : Bytes) :
    TailReplay ⊕ TailReplay → Prop
  | skipped
      (hbehind : behind fromGlobalOffset (t.reader.currentPosition.globalOffset config) = true) :
      Handled config fromGlobalOffset offsets t payload (.inr t)
  | covered {record : PersistedRecord} (hdecode : Codec.decode payload = .ok record)
      (hcovered : behind offsets[record.assetPartition]?
        (t.reader.currentPosition.globalOffset config) = true) :
      Handled config fromGlobalOffset offsets t payload (.inr t)
  | applied {record : PersistedRecord} (hdecode : Codec.decode payload = .ok record) :
      Handled config fromGlobalOffset offsets t payload (.inr (t.apply record))
  | undecodable {e : WalError}
      (hahead : behind fromGlobalOffset (t.reader.currentPosition.globalOffset config) = false)
      (hdecode : Codec.decode payload = .error e) :
      Handled config fromGlobalOffset offsets t payload (.inl t.fail)

theorem handlePayload_cases (config : WalConfig) (fromGlobalOffset : Option Nat)
    (offsets : CheckpointOffsets) (t : TailReplay) (payload : Bytes) :
    Handled config fromGlobalOffset offsets t payload
      (handlePayload config fromGlobalOffset offsets t payload) := by
  unfold handlePayload
  dsimp only
  split
  · rename_i hbehind
    exact .skipped hbehind
  · rename_i hahead
    split
    · rename_i record hdecode
      split
      · rename_i hcovered
        exact .covered hdecode hcovered
      · exact .applied hdecode
    · rename_i e hdecode
      exact .undecodable (by simpa using hahead) hdecode

/-- A record was decoded, and applied unless its asset's checkpoint covers it. -/
def Accounted (config : WalConfig) (offsets : CheckpointOffsets)
    (applied : List (WalPosition × PersistedRecord)) (x : WalPosition × Bytes) : Prop :=
  ∃ record, Codec.decode x.2 = .ok record ∧
    (behind offsets[record.assetPartition]? (x.1.globalOffset config) = true ∨
      (x.1, record) ∈ applied)

theorem Accounted.mono {config : WalConfig} {offsets : CheckpointOffsets}
    {applied applied' : List (WalPosition × PersistedRecord)} {x : WalPosition × Bytes}
    (h : Accounted config offsets applied x) (hsub : applied ⊆ applied') :
    Accounted config offsets applied' x := by
  obtain ⟨record, hdecode, hfate⟩ := h
  exact ⟨record, hdecode, hfate.imp_right fun hmem => hsub hmem⟩

variable [Crc32c]

/-- One turn of the loop of `replay_wal_tail`. -/
def replayStep (config : WalConfig) (dir : Dir) (fromGlobalOffset : Option Nat)
    (offsets : CheckpointOffsets) (t : TailReplay) : TailReplay ⊕ TailReplay :=
  match t.reader.next dir with
  | (.ok (some payload), reader) =>
      handlePayload config fromGlobalOffset offsets (t.receive reader payload) payload
  | (.ok none, reader) => .inl { t with reader := reader }
  | (.error _, reader) => .inl { t with reader := reader }.fail

theorem replayStep_decreases (config : WalConfig) (dir : Dir) (fromGlobalOffset : Option Nat)
    (offsets : CheckpointOffsets) :
    Loop.Decreases (replayStep config dir fromGlobalOffset offsets)
      (fun t => t.reader.potential dir) := by
  intro t t' hstep
  unfold replayStep at hstep
  split at hstep
  · rename_i payload reader hnext
    have hlt := WalReader.next_potential_lt hnext
    have hcases := handlePayload_cases config fromGlobalOffset offsets
      (t.receive reader payload) payload
    rw [hstep] at hcases
    cases hcases with
    | skipped hbehind => exact hlt
    | covered hdecode hcovered => exact hlt
    | applied hdecode => exact hlt
  · cases hstep
  · cases hstep

/-- `replay_wal_tail`. -/
def replayWalTail (model : LiveState) (config : WalConfig) (wal : WalDirectory)
    (fromGlobalOffset : Option Nat) (offsets : CheckpointOffsets) : TailReplay :=
  Loop.iterate (replayStep_decreases config wal.segments fromGlobalOffset offsets)
    ⟨hydrationReader wal, model, 0, true, [], []⟩

/-- What a call of `hydrate` leaves: its result, the live state, and the records
that the replay returned and applied. -/
structure Hydration where
  result : HydrationResult
  model : LiveState
  returned : List (WalPosition × Bytes)
  applied : List (WalPosition × PersistedRecord)

/-- The checkpoints that phase 1 goes through. -/
def inventoried : Option CheckpointInventory → List (Option BookCheckpoint)
  | some (.ok checkpoints) => checkpoints
  | _ => []

/-- The checkpoints could not be listed. -/
def inventoryFailed : Option CheckpointInventory → Bool
  | some (.error _) => true
  | _ => false

/-- `hydrate`.  The log is `none` when it is not configured, and its directory is
`none` when it does not exist. -/
def hydrate (model : LiveState) (inventory : Option CheckpointInventory)
    (wal : Option (WalConfig × Option WalDirectory)) (activeAssets : List AssetId) : Hydration :=
  let model := if wal.isSome then { model with hydrated := false } else model
  let loaded := loadCheckpoints wal.isSome activeAssets model (inventoried inventory)
  let resume := walResumeOffset activeAssets loaded.offsets
  let result : HydrationResult :=
    ⟨loaded.count, 0, none, none, !inventoryFailed inventory⟩
  let h : Hydration :=
    match wal with
    | none => ⟨result, loaded.model, [], []⟩
    | some (_, none) => ⟨{ result with recoverySucceeded := false }, loaded.model, [], []⟩
    | some (config, some dir) =>
        let t := replayWalTail loaded.model config dir resume loaded.offsets
        ⟨{ result with
            walRecordsReplayed := t.recordsReplayed
            walResumeOffset := resume
            walEndPosition := some t.reader.currentPosition
            recoverySucceeded := result.recoverySucceeded && t.succeeded },
          t.model, t.returned, t.applied⟩
  { h with
    model := if h.result.recoverySucceeded then { h.model with hydrated := true } else h.model }

/-! ## What the replay goes through -/

section

variable (config : WalConfig) (dir : Dir) (fromGlobalOffset : Option Nat)
  (offsets : CheckpointOffsets)

/-- What holds whenever the replay goes round, for a reader that had some frames
before it at the beginning. -/
structure Replaying (frames : List Scanned) (finish : WalPosition) (t : TailReplay) : Prop where
  fresh : t.reader.Fresh dir
  finish_eq : t.reader.finish dir = finish
  returned_eq : intact frames = t.returned ++ intact (t.reader.ahead dir)
  accounted : ∀ x ∈ t.returned, behind fromGlobalOffset (x.1.globalOffset config) = false →
    Accounted config offsets t.applied x
  succeeded_eq : t.succeeded = true

/-- How the replay ends. -/
inductive Replayed (frames : List Scanned) (finish : WalPosition) (t : TailReplay) : Prop
  | complete (hsucceeded : t.succeeded = true) (hend : t.reader.currentPosition = finish)
      (hreturned : t.returned = intact frames)
      (haccounted : ∀ x ∈ t.returned,
        behind fromGlobalOffset (x.1.globalOffset config) = false →
          Accounted config offsets t.applied x)
  | stopped (hsucceeded : t.succeeded = false) {x : WalPosition × Bytes} {e : WalError}
      (hmem : x ∈ intact frames)
      (hahead : behind fromGlobalOffset (x.1.globalOffset config) = false)
      (hdecode : Codec.decode x.2 = .error e)

/-- What a turn of the replay leads to. -/
def ReplayTurn (frames : List Scanned) (finish : WalPosition) : TailReplay ⊕ TailReplay → Prop
  | .inl result => Replayed config fromGlobalOffset offsets frames finish result
  | .inr t => Replaying config dir fromGlobalOffset offsets frames finish t

variable {config dir fromGlobalOffset offsets} {frames : List Scanned} {finish : WalPosition}
  {t : TailReplay}

/-- What a turn of the replay does to the invariant. -/
theorem Replaying.replayStep (h : Replaying config dir fromGlobalOffset offsets frames finish t) :
    ReplayTurn config dir fromGlobalOffset offsets frames finish
      (replayStep config dir fromGlobalOffset offsets t) := by
  have hfinds := WalReader.next_finds h.fresh
  unfold PolyBook.replayStep
  split
  · rename_i payload reader hnext
    rw [hnext] at hfinds
    obtain ⟨hfresh, hfinish, skipped, hskipped, hahead⟩ := hfinds
    have hreturned : intact frames =
        (t.receive reader payload).returned ++ intact (reader.ahead dir) := by
      rw [h.returned_eq, hahead, intact_skip hskipped]
      simp [intact, TailReplay.receive]
    have hround : ∀ applied, t.applied ⊆ applied →
        (behind fromGlobalOffset (reader.currentPosition.globalOffset config) = false →
          Accounted config offsets applied (reader.currentPosition, payload)) →
        ∀ x ∈ (t.receive reader payload).returned,
          behind fromGlobalOffset (x.1.globalOffset config) = false →
            Accounted config offsets applied x := by
      intro applied hsub hnew x hx hbehind
      obtain hx | hx := List.mem_append.mp hx
      · exact (h.accounted x hx hbehind).mono hsub
      · obtain rfl := List.mem_singleton.mp hx
        exact hnew hbehind
    have hcases := handlePayload_cases config fromGlobalOffset offsets
      (t.receive reader payload) payload
    generalize handlePayload config fromGlobalOffset offsets (t.receive reader payload) payload =
      outcome at hcases
    cases hcases with
    | skipped hbehind =>
        refine ⟨hfresh, hfinish.trans h.finish_eq, hreturned, hround _ (List.Subset.refl _) ?_,
          h.succeeded_eq⟩
        intro hahead
        exact absurd (hahead.symm.trans hbehind) Bool.false_ne_true
    | covered hdecode hcovered =>
        exact ⟨hfresh, hfinish.trans h.finish_eq, hreturned,
          hround _ (List.Subset.refl _) fun _ => ⟨_, hdecode, Or.inl hcovered⟩, h.succeeded_eq⟩
    | @applied record hdecode =>
        refine ⟨hfresh, hfinish.trans h.finish_eq, hreturned,
          hround _ (List.subset_append_left _ _) fun _ => ⟨_, hdecode, Or.inr ?_⟩, h.succeeded_eq⟩
        exact List.mem_append_right _ List.mem_cons_self
    | undecodable hahead' hdecode =>
        refine .stopped rfl (x := (reader.currentPosition, payload)) ?_ hahead' hdecode
        rw [hreturned]
        exact List.mem_append_left _ (List.mem_append_right _ List.mem_cons_self)
  · rename_i reader hnext
    rw [hnext] at hfinds
    obtain ⟨hend, hnone⟩ := hfinds
    refine .complete h.succeeded_eq (hend.trans h.finish_eq) ?_ h.accounted
    rw [h.returned_eq, intact_of_corrupt hnone, List.append_nil]
  · rename_i hnext
    rw [hnext] at hfinds
    exact hfinds.elim

end

/-- **The replay returns every intact frame before its reader, and accounts for
those past the cut; or it stops at one of these that does not decode.** -/
theorem replayWalTail_spec (model : LiveState) (config : WalConfig) (wal : WalDirectory)
    (fromGlobalOffset : Option Nat) (offsets : CheckpointOffsets) :
    Replayed config fromGlobalOffset offsets ((hydrationReader wal).ahead wal.segments)
      ((hydrationReader wal).finish wal.segments)
      (replayWalTail model config wal fromGlobalOffset offsets) := by
  refine Loop.iterate_rule _
    (Replaying config wal.segments fromGlobalOffset offsets _ _) _ ?_ ?_
    ⟨hydrationReader_fresh wal, rfl, rfl, fun x hx => (nomatch hx), rfl⟩
  · intro t t' h hstep
    have hturn := h.replayStep
    rwa [hstep] at hturn
  · intro t result h hstep
    have hturn := h.replayStep
    rwa [hstep] at hturn

theorem Tracks.replayStep {start : LiveState} {t t' : TailReplay} (h : Tracks start t)
    {config : WalConfig} {dir : Dir} {fromGlobalOffset : Option Nat} {offsets : CheckpointOffsets}
    (hstep : replayStep config dir fromGlobalOffset offsets t = .inl t' ∨
      replayStep config dir fromGlobalOffset offsets t = .inr t') : Tracks start t' := by
  unfold PolyBook.replayStep at hstep
  split at hstep
  · rename_i payload reader hnext
    have hreceived : Tracks start (t.receive reader payload) := ⟨h.model_eq, h.count_eq⟩
    have hcases := handlePayload_cases config fromGlobalOffset offsets
      (t.receive reader payload) payload
    generalize handlePayload config fromGlobalOffset offsets (t.receive reader payload) payload =
      outcome at hcases hstep
    obtain rfl | rfl := hstep
    · cases hcases with
      | undecodable hahead hdecode => exact ⟨h.model_eq, h.count_eq⟩
    · cases hcases with
      | skipped hbehind => exact hreceived
      | covered hdecode hcovered => exact hreceived
      | applied hdecode => exact hreceived.apply _
  · obtain hstep | hstep := hstep
    · cases hstep
      exact ⟨h.model_eq, h.count_eq⟩
    · cases hstep
  · obtain hstep | hstep := hstep
    · cases hstep
      exact ⟨h.model_eq, h.count_eq⟩
    · cases hstep

/-- The live state has gone through the applied records, in their order. -/
theorem replayWalTail_tracks (model : LiveState) (config : WalConfig) (wal : WalDirectory)
    (fromGlobalOffset : Option Nat) (offsets : CheckpointOffsets) :
    Tracks model (replayWalTail model config wal fromGlobalOffset offsets) :=
  Loop.iterate_rule _ (Tracks model) (Tracks model) (fun _ _ h hstep => h.replayStep (Or.inr hstep))
    (fun _ _ h hstep => h.replayStep (Or.inl hstep)) ⟨rfl, rfl⟩

end

end PolyBook
