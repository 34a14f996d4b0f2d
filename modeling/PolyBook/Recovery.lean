import PolyBook.Hydration
import PolyBook.Wal.Layout

/-!
# What a successful hydration has recovered

`hydrate` decides success from what the reader returns, and the reader passes
over pruned segments and over frames whose checksum is wrong without a word.
`hydrate_recovers` says exactly when a hydration that reports success has read,
decoded and applied everything between an active asset's cut and the end: when
nothing of that was lost on disk.
-/

namespace PolyBook

open Wal

/-- The position is not past another. -/
def Wal.WalPosition.upTo (x y : WalPosition) : Prop := y.before x = false

/-- The frames from where a hydration starts to read. -/
def WalDirectory.frames [Crc32c] (wal : WalDirectory) : List Scanned :=
  (hydrationReader wal).ahead wal.segments

/-- Where these end. -/
def WalDirectory.finish [Crc32c] (wal : WalDirectory) : WalPosition :=
  (hydrationReader wal).finish wal.segments

section

variable [Crc32c] [Bincode]

/-- Everything between a cut and the end position was recovered: the records that
were appended there were read, decoded and applied, unless their own asset's
checkpoint covers them; none of them was in a segment that is gone, and no frame
there has a wrong checksum. -/
structure Recovered (config : WalConfig) (wal : WalDirectory) (offsets : CheckpointOffsets)
    (written : List (WalPosition × Bytes)) (cut : Nat) (finish : WalPosition) (h : Hydration) :
    Prop where
  read : ∀ x ∈ written, cut < x.1.globalOffset config → x.1.upTo finish → x ∈ h.returned
  accounted : ∀ x ∈ written, cut < x.1.globalOffset config → x.1.upTo finish →
    Accounted config offsets h.applied x
  retained : ∀ x ∈ written, cut < x.1.globalOffset config → x.1.upTo finish →
    wal.segments.contains x.1.segmentId = true
  intact : ∀ s ∈ wal.segments.scan, cut < s.position.globalOffset config →
    s.position.upTo finish → s.payload.isSome = true

/-- A hydration that reports success has recovered the tail of every active asset
with a usable checkpoint, up to the position it reports. -/
def NoFalseRecovery (written : List (WalPosition × Bytes)) (model : LiveState)
    (inventory : Option CheckpointInventory) (wal : Option (WalConfig × Option WalDirectory))
    (activeAssets : List AssetId) : Prop :=
  let h := hydrate model inventory wal activeAssets
  let offsets := checkpointOffsets activeAssets (inventoried inventory)
  h.result.recoverySucceeded = true →
    ∀ config dir, wal = some (config, some dir) →
    ∀ finish, h.result.walEndPosition = some finish →
    ∀ assetId ∈ activeAssets, ∀ cut, offsets[assetId]? = some cut →
      Recovered config dir offsets written cut finish h

/-- Nothing between a cut and the end was lost on disk: every record that was
appended there is one of the frames, unchanged, and no frame there has a wrong
checksum. -/
structure Kept (config : WalConfig) (wal : WalDirectory) (written : List (WalPosition × Bytes))
    (cut : Nat) : Prop where
  present : ∀ x ∈ written, cut < x.1.globalOffset config → x.1.upTo wal.finish →
    ⟨x.1, some x.2⟩ ∈ wal.frames
  intact : ∀ s ∈ wal.segments.scan, cut < s.position.globalOffset config →
    s.position.upTo wal.finish → s.payload.isSome = true

/-- A frame past the smallest cut has the right checksum and does not decode. -/
def Undecodable (config : WalConfig) (wal : WalDirectory) (activeAssets : List AssetId)
    (offsets : CheckpointOffsets) : Prop :=
  ∃ x ∈ intact wal.frames,
    behind (walResumeOffset activeAssets offsets) (x.1.globalOffset config) = false ∧
      ∃ e, Codec.decode x.2 = .error e

/-- What the log must be for a report of success to be right. -/
def Recoverable (written : List (WalPosition × Bytes)) (inventory : Option CheckpointInventory)
    (wal : Option (WalConfig × Option WalDirectory)) (activeAssets : List AssetId) : Prop :=
  let offsets := checkpointOffsets activeAssets (inventoried inventory)
  ∀ config dir, wal = some (config, some dir) →
    inventoryFailed inventory = true ∨ Undecodable config dir activeAssets offsets ∨
      ∀ assetId ∈ activeAssets, ∀ cut, offsets[assetId]? = some cut → Kept config dir written cut

/-- What `hydrate` does with a log. -/
theorem hydrate_of_wal (model : LiveState) (inventory : Option CheckpointInventory)
    (config : WalConfig) (wal : WalDirectory) (activeAssets : List AssetId) :
    let offsets := checkpointOffsets activeAssets (inventoried inventory)
    let h := hydrate model inventory (some (config, some wal)) activeAssets
    ∃ start, let t := replayWalTail start config wal (walResumeOffset activeAssets offsets) offsets
      h.returned = t.returned ∧ h.applied = t.applied ∧
        h.result.walEndPosition = some t.reader.currentPosition ∧
        h.result.recoverySucceeded = (!inventoryFailed inventory && t.succeeded) := by
  intro offsets h
  refine ⟨(loadCheckpoints true activeAssets { model with hydrated := false }
    (inventoried inventory)).model, ?_⟩
  have hoffsets : (loadCheckpoints true activeAssets { model with hydrated := false }
      (inventoried inventory)).offsets = offsets := loadCheckpoints_offsets _ _ _ _
  rw [← hoffsets]
  exact ⟨rfl, rfl, rfl, rfl⟩

/-- A hydration that reports success has gone through the frames to the end. -/
theorem recovered_of_kept {config : WalConfig} {wal : WalDirectory} (activeAssets : List AssetId)
    {offsets : CheckpointOffsets} {written : List (WalPosition × Bytes)} {assetId : AssetId}
    {cut : Nat} (hcut : offsets[assetId]? = some cut) (h : Kept config wal written cut)
    {hydration : Hydration} (hreturned : hydration.returned = intact wal.frames)
    (haccounted : ∀ x ∈ hydration.returned,
      behind (walResumeOffset activeAssets offsets) (x.1.globalOffset config) = false →
        Accounted config offsets hydration.applied x) :
    Recovered config wal offsets written cut wal.finish hydration := by
  have hread : ∀ x ∈ written, cut < x.1.globalOffset config → x.1.upTo wal.finish →
      x ∈ hydration.returned := by
    intro x hx hpast hend
    rw [hreturned]
    exact mem_intact.mpr (h.present x hx hpast hend)
  refine ⟨hread, fun x hx hpast hend => ?_, fun x hx hpast hend => ?_, h.intact⟩
  · refine haccounted x (hread x hx hpast hend) ?_
    cases hbehind : behind (walResumeOffset activeAssets offsets) (x.1.globalOffset config) with
    | false => rfl
    | true =>
        have := behind_of_behind_walResumeOffset hbehind hcut
        omega
  · exact WalReader.mem_ahead (hydrationReader_fresh wal) (h.present x hx hpast hend)

/-- **Hydration tells the truth about its recovery exactly when it fails, or
nothing past the cuts was lost on disk.** -/
theorem hydrate_recovers (written : List (WalPosition × Bytes)) (model : LiveState)
    (inventory : Option CheckpointInventory) (wal : Option (WalConfig × Option WalDirectory))
    (activeAssets : List AssetId) :
    NoFalseRecovery written model inventory wal activeAssets ↔
      Recoverable written inventory wal activeAssets := by
  unfold NoFalseRecovery Recoverable
  constructor
  · rintro htruth _ config dir rfl
    obtain ⟨start, hreturned, -, hend, hsucceeded⟩ :=
      hydrate_of_wal model inventory config dir activeAssets
    cases hfailed : inventoryFailed inventory with
    | true => exact Or.inl rfl
    | false =>
        refine Or.inr ?_
        cases replayWalTail_spec start config dir (walResumeOffset activeAssets
          (checkpointOffsets activeAssets (inventoried inventory)))
          (checkpointOffsets activeAssets (inventoried inventory)) with
        | stopped hstopped hmem hahead hdecode => exact Or.inl ⟨_, hmem, hahead, _, hdecode⟩
        | complete hcomplete hfinish hintact haccounted =>
            refine Or.inr fun assetId hactive cut hcut => ?_
            rw [hfinish] at hend
            rw [hfailed, hcomplete] at hsucceeded
            have hrecovered :=
              htruth hsucceeded config dir rfl _ hend assetId hactive cut hcut
            refine ⟨fun x hx hpast hx' => ?_, hrecovered.intact⟩
            have hmem := hrecovered.read x hx hpast hx'
            rw [hreturned, hintact] at hmem
            exact mem_intact.mp hmem
  · rintro hkept _ _ hsucceeded config wal rfl finish hfinish assetId hactive cut hcut
    obtain ⟨start, hreturned, happlied, hend, hreport⟩ :=
      hydrate_of_wal model inventory config wal activeAssets
    rw [hreport, Bool.and_eq_true, Bool.not_eq_true'] at hsucceeded
    cases replayWalTail_spec start config wal (walResumeOffset activeAssets
      (checkpointOffsets activeAssets (inventoried inventory)))
      (checkpointOffsets activeAssets (inventoried inventory)) with
    | stopped hstopped hmem hahead hdecode =>
        rw [hstopped] at hsucceeded
        exact absurd hsucceeded.2 Bool.false_ne_true
    | complete hcomplete hend' hintact haccounted =>
        rw [hend, hend', Option.some.injEq] at hfinish
        subst hfinish
        obtain hfailed | ⟨x, hmem, hahead, e, hdecode⟩ | hkept := hkept config wal rfl
        · exact absurd (hsucceeded.1.symm.trans hfailed) Bool.false_ne_true
        · have hmem' : x ∈ intact wal.frames := hmem
          rw [WalDirectory.frames, ← hintact] at hmem'
          obtain ⟨record, hdecode', -⟩ := haccounted x hmem' hahead
          rw [hdecode] at hdecode'
          cases hdecode'
        · refine recovered_of_kept activeAssets hcut (hkept assetId hactive cut hcut)
            (hreturned.trans hintact) fun x hx hahead => ?_
          rw [happlied]
          exact haccounted x (hreturned ▸ hx) hahead

end

/-! ## A log that only its writer has touched -/

section

variable [Crc32c] {dir : Dir} {w : WalWriter} {records : Nat → List Bytes}

/-- The records a writer has appended, with the positions after them. -/
def appended (w : WalWriter) (records : Nat → List Bytes) : List (WalPosition × Bytes) :=
  (List.range (w.active.id + 1)).flatMap fun id => endings id 0 (records id)

/-- Where a hydration without a position file reads. -/
theorem frames_of_layout (h : Layout dir w records) :
    (WalDirectory.mk dir none).frames = dir.scan ∧
      (WalDirectory.mk dir none).finish = dir.scanEnd := by
  obtain ⟨active, hactive⟩ := h.active
  obtain ⟨first, file, hfirst, hfile⟩ := Dir.head?_keys_of_getElem? hactive
  have hopen : hydrationReader ⟨dir, none⟩ =
      ⟨"serve-hydration", first, 0, some file, dir.keys⟩ :=
    WalReader.openDir_of_head _ hfirst hfile
  unfold WalDirectory.frames WalDirectory.finish
  rw [hopen]
  exact WalReader.ahead_of_earliest hfirst rfl hfile rfl

/-- The whole frames of a segment file are those of its records that fit. -/
theorem Wal.Layout.reads (h : Layout dir w records) {id : Nat} {file : Bytes}
    (hfile : dir[id]? = some file) :
    Reads file 0 [] (Framing.fitting frame file.length (records id)) := by
  have hreads : Reads file (Framing.frames frame ([] : List Bytes)).length [] _ :=
    Reads.of_prefix (h.recordable id) (h.stored_prefix hfile) rfl
  exact hreads

theorem Wal.Layout.scanEnd_eq (h : Layout dir w records) {file : Bytes}
    (hfile : dir[w.active.id]? = some file) :
    dir.scanEnd = ⟨w.active.id,
      (Framing.frames frame (Framing.fitting frame file.length (records w.active.id))).length⟩ := by
  obtain ⟨earlier, later, hsplit, -, hlater⟩ := TreeMapLookup.toList_split hfile
  have hnil : later = [] := by
    refine List.eq_nil_iff_forall_not_mem.mpr fun e he => ?_
    have hmem : e ∈ dir.toList := by
      rw [hsplit]
      exact List.mem_append_right _ (List.mem_cons_of_mem _ he)
    have hle := h.bound e.1 e.2 (Std.ExtTreeMap.mem_toList_iff_getElem?_eq_some.mp hmem)
    have hlt := Nat.compare_eq_lt.mp (hlater e he)
    omega
  rw [Dir.scanEnd, Dir.endOf, hsplit, hnil, List.getLast?_concat, Option.map_some,
    Option.getD_some, (h.reads hfile).framesEnd_eq, List.nil_append]

/-- A record in a segment on disk is found there, unless it is still buffered. -/
theorem Wal.Layout.mem_scan (h : Layout dir w records) {x : WalPosition × Bytes}
    (hx : x ∈ appended w records) (hretained : dir.contains x.1.segmentId = true)
    (hend : x.1.upTo dir.scanEnd) : ⟨x.1, some x.2⟩ ∈ dir.scan := by
  obtain ⟨id, -, hx⟩ := List.mem_flatMap.mp hx
  obtain rfl := (mem_endings hx).1
  obtain ⟨file, hfile⟩ : ∃ file, dir[x.1.segmentId]? = some file := by
    rwa [Std.ExtTreeMap.contains_eq_isSome_getElem?, Option.isSome_iff_exists] at hretained
  refine List.mem_flatMap.mpr ⟨(x.1.segmentId, file),
    Std.ExtTreeMap.mem_toList_iff_getElem?_eq_some.mpr hfile, ?_⟩
  rw [(h.reads hfile).framesFrom_eq]
  refine List.mem_map.mpr ⟨x, ?_, rfl⟩
  obtain ⟨beyond, hbeyond⟩ := Framing.fitting_isPrefix (f := frame) file.length
    (records x.1.segmentId)
  rw [← hbeyond, endings_append] at hx
  obtain hx | hx := List.mem_append.mp hx
  · exact hx
  · -- only the active segment has records that are not on disk
    exfalso
    have hoffset := (mem_endings hx).2
    obtain hid | hid := Nat.lt_or_ge x.1.segmentId w.active.id
    · rw [h.sealed hid hfile, Framing.fitting_frames] at hbeyond
      obtain rfl : beyond = [] := by simpa using hbeyond
      cases hx
    · have hactive := Nat.le_antisymm (h.bound _ _ hfile) hid
      rw [h.scanEnd_eq (hactive ▸ hfile), ← hactive] at hend
      simp only [WalPosition.upTo, WalPosition.before, Nat.lt_irrefl, decide_false, Bool.false_or,
        BEq.rfl, Bool.true_and, decide_eq_false_iff_not] at hend
      omega

/-- **Without damage only pruning loses records.** -/
theorem kept_of_retained (h : Layout dir w records) (config : WalConfig) (cut : Nat)
    (hretained : ∀ x ∈ appended w records, cut < x.1.globalOffset config →
      dir.contains x.1.segmentId = true) :
    Kept config ⟨dir, none⟩ (appended w records) cut := by
  obtain ⟨hframes, hfinish⟩ := frames_of_layout h
  refine ⟨fun x hx hpast hend => ?_, fun s hs hpast hend => ?_⟩
  · rw [hfinish] at hend
    rw [hframes]
    exact h.mem_scan hx (hretained x hx hpast) hend
  · obtain ⟨e, he, hs⟩ := List.mem_flatMap.mp hs
    have hfile := Std.ExtTreeMap.mem_toList_iff_getElem?_eq_some.mp he
    rw [(h.reads hfile).framesFrom_eq] at hs
    obtain ⟨x, -, rfl⟩ := List.mem_map.mp hs
    rfl

end

/-! ## A frame is damaged -/

namespace DamagedLog

/-- The feed of asset 7 was reset. -/
def record : PersistedRecord :=
  .ingest
    { assetId := some "7"
      kind := .sourceReset
      provenance := ⟨1700000000000000, 1700000000000000, .webSocket, none, none, none, some 7⟩
      expectedSequence := none
      observedSequence := none
      details := none }

/-- The record as `bincode` writes it. -/
def body : Bytes :=
  [2, 0, 0, 0, 1, 1, 0, 0, 0, 0, 0, 0, 0, 55, 4, 0, 0, 0, 0, 64, 30, 24, 36, 10, 6, 0, 0, 64, 30,
    24, 36, 10, 6, 0, 0, 0, 0, 0, 0, 0, 0, 1, 7, 0, 0, 0, 0, 0, 0, 0, 0, 0, 0]

/-- `bincode` on this record. -/
@[reducible] def bincode : Bincode where
  serialize r := if r = record then .ok body else .error "another record"
  deserialize data := if data = body then .ok record else .error "another record"

/-- A payload of the current version. -/
def payload : Bytes := Codec.currentVersion :: body

/-- The configuration of the sample. -/
def config : WalConfig := ⟨4096, 64, 1048576⟩

/-- The log after the record was appended and flushed. -/
def log : Dir :=
  let (w, dir) := WalWriter.openDir config ∅
  let (w, dir, _) := w.append payload dir
  (w.flush dir).2

/-- The last byte of the frame is overwritten. -/
def damaged : WalDirectory := ⟨log.insert 0 ((log.contents 0).dropLast ++ [255]), none⟩

/-- A checkpoint that the log has the record after. -/
def checkpoint : BookCheckpoint where
  assetId := "7"
  checkpointTimestampUs := 1699999999500000
  provenance := ⟨1699999999500000, 1699999999500000, .restSnapshot, none, none, none, some 6⟩
  bids := []
  asks := []
  walOffset := some 0

end DamagedLog

open DamagedLog in
/-- The reset is lost, and the hydration reports success. -/
theorem damaged_frame_recovered_silently :
    ¬ @NoFalseRecovery castagnoli bincode [(⟨0, 62⟩, payload)] (LiveState.new .fixedTokens)
      (some (.ok [some checkpoint])) (some (config, some damaged)) ["7"] := by
  let := bincode
  intro htruth
  have hread := (htruth (by decide +kernel) config damaged rfl ⟨0, 62⟩ (by decide +kernel) "7"
    (by decide) 0 (by decide +kernel)).read (⟨0, 62⟩, payload) (by decide +kernel)
    (by decide +kernel) (by unfold Wal.WalPosition.upTo; decide +kernel)
  revert hread
  decide +kernel

end PolyBook
