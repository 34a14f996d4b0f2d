import PolyBook.AssetObjects
import PolyBook.CheckpointLookup
import PolyBook.Library.Selection
import PolyBook.SinkRun

/-!
# Replay from the archive

`ReplayEngine::reconstruct_at` knows the stored records through an `EventReader` only.
The Parquet reader finds them in objects: it goes through the directories of the hours of
its window, takes the objects of the asset by their names, reads these in any order, and
sorts what it has extracted.

`reconstructs_from_archive` says that this is a reconstruction from the records in the
objects, and `clean_run_reconstructs` that these are the records the sink was sent.
-/

namespace PolyBook.Archive

open Wal Publication Metadata ParquetRecordWriter CheckpointLookup AssetObjects

/-! ## The reader and the engine -/

/-- `EventReader`, as the engine uses it here. -/
structure EventReader where
  readMarketData : AssetId → Nat → Nat → Except Publication.ReplayError MarketDataWindow
  readCheckpoints : AssetId → Nat → Nat → Except Publication.ReplayError (List BookCheckpoint)

/-- `ReplayError`: of the reader, or of the reconstruction. -/
inductive ReplayError where
  | read (error : Publication.ReplayError)
  | rebuild (error : PolyBook.ReplayError)

section ParquetReader

variable {T : Type} [ParquetFormat] [Chrono] [PathParser] [ManifestFormat]
variable (objects : Objects) (basePath : String) (completion : Nat → Completion)

/-- An extractor that takes each row by itself. -/
def rowQuery (assetPrefix : Option AssetId) (take : PersistedRecord → Option T) : Query T where
  allAssets := assetPrefix.isNone
  extractor records := .ok (records.filterMap take)

/-- The objects of a dataset in a window, and what `read_parquet_files` makes of them. -/
def readView (attempt : Nat) (dataset : String) (assetPrefix : Option AssetId)
    (startUs endUs : Nat) (take : PersistedRecord → Option T) :
    Except Publication.ReplayError (Except Publication.ReplayError (List T)) :=
  (datasetFiles objects basePath dataset assetPrefix startUs endUs).map
    (readParquetFiles (completion attempt) (rowQuery assetPrefix take) objects)

/-- `read_dataset_with_view_retry`. -/
def readDatasetWithViewRetry (dataset : String) (assetPrefix : Option AssetId)
    (startUs endUs : Nat) (take : PersistedRecord → Option T) :
    Except Publication.ReplayError (List T) := do
  match ← readView objects basePath completion 0 dataset assetPrefix startUs endUs take with
  | .ok rows => .ok rows
  | .error e =>
      if isObjectNotFound e then
        -- the view is resolved once more
        (readView objects basePath completion 1 dataset assetPrefix startUs endUs take).bind id
      else .error e

/-- `ParquetReader`. -/
def parquetReader : EventReader where
  readMarketData assetId startUs endUs := do
    let bookEvents ← readDatasetWithViewRetry objects basePath completion "book_events"
      (some assetId) startUs endUs (extractBookEvent assetId startUs endUs)
    let tradeEvents ← readDatasetWithViewRetry objects basePath completion "trade_events"
      (some assetId) startUs endUs (extractTradeEvent assetId startUs endUs)
    -- the events of the feed are not in a partition of the asset
    let ingestEvents ← readDatasetWithViewRetry objects basePath completion "ingest_events"
      none startUs endUs (extractIngestEvent assetId startUs endUs)
    pure (sortedWindow bookEvents tradeEvents ingestEvents)
  readCheckpoints assetId startUs endUs := do
    let checkpoints ← (readView objects basePath completion 0 "book_checkpoints" (some assetId)
      startUs endUs (extractCheckpoint assetId startUs endUs)).bind id
    pure (sortByKey (·.checkpointTimestampUs) checkpoints)

end ParquetReader

section Engine

variable (reader : EventReader) (assetId : AssetId)

/-- `latest_checkpoint_in_window`. -/
def latestCheckpointInWindow (startUs endUs : Nat) :
    Except Publication.ReplayError (Option BookCheckpoint) :=
  if endUs < startUs then .ok none
  else do
    let checkpoints ← reader.readCheckpoints assetId startUs endUs
    pure (sortByKey (·.checkpointTimestampUs) checkpoints).getLast?

/-- `ReplayEngine::reconstruct_at`. -/
def reconstructAt (lookbackUs targetTimestampUs : Nat) (mode : ReplayMode) :
    Except ReplayError Reconstruction :=
  let floorUs := targetTimestampUs - lookbackUs
  match latestCheckpointInWindow reader assetId floorUs targetTimestampUs with
  | .error e => .error (.read e)
  | .ok checkpoint =>
      let checkpoint := checkpointWithinFloor checkpoint floorUs
      let startUs := (checkpoint.map (·.checkpointTimestampUs)).getD floorUs
      match reader.readMarketData assetId startUs targetTimestampUs with
      | .error e => .error (.read e)
      | .ok window =>
          match reconstructBook assetId targetTimestampUs mode checkpoint window with
          | .error e => .error (.rebuild e)
          | .ok r => .ok r

end Engine

/-! ## What the objects hold -/

/-- The records of an object. -/
def recordsAt [ParquetFormat] (objects : Objects) (path : String) : List PersistedRecord :=
  match objects[path]? with
  | none => []
  | some bytes => (ParquetFormat.decode bytes).toOption.getD []

/-- The records of all objects. -/
def stored [ParquetFormat] (objects : Objects) : List PersistedRecord :=
  objects.keys.flatMap (recordsAt objects)

/-- Every object is one of the writer's: there is no manifest of a recovery. -/
def Written [ParquetFormat] [Chrono] (basePath : String) (objects : Objects) : Prop :=
  ∀ path bytes, objects[path]? = some bytes →
    ∃ buffer key, GroupObject basePath buffer key path bytes

/-- The object of the partition of a record. -/
structure Located [Chrono] (basePath path : String) (record : PersistedRecord) : Prop where
  path : ∃ firstTsUs contentHash len, path = groupPath basePath (groupKeyOf record)
    (objectFileName (storageKeyFor record.assetPartition) firstTsUs contentHash len)

section Location

variable [Chrono] {basePath path : String} {record : PersistedRecord}

/-- The path behind the base path: the dataset, the hour and the name. -/
theorem Located.text (h : Located basePath path record) :
    ∃ start firstTsUs contentHash len,
      (∀ suffix, (childPath basePath suffix).toList = start ++ suffix.toList) ∧
      path.toList = start ++ (record.datasetName.toList ++ '/' ::
        ((partitionHourKeyText record.partitionTimestampUs).toList ++ '/' ::
          (objectFileName (storageKeyFor record.assetPartition) firstTsUs contentHash
            len).toList)) := by
  obtain ⟨firstTsUs, contentHash, len, rfl⟩ := h.path
  obtain ⟨start, hstart⟩ := toList_childPath basePath
  refine ⟨start, firstTsUs, contentHash, len, hstart, ?_⟩
  rw [groupPath, hstart, toList_components, partitionHourKeyText_eq_text]
  rfl

/-- A located record lies below its dataset and hour. -/
theorem Located.below (h : Located basePath path record) :
    isBelow (childPath basePath (record.datasetName ++ "/" ++
      partitionHourKeyText record.partitionTimestampUs)) path = true := by
  obtain ⟨start, _, _, _, hstart, hpath⟩ := h.text
  rw [isBelow_iff, hpath, hstart]
  simp

/-- The last component is a name of the asset. -/
theorem Located.filename (h : Located basePath path record) :
    ∃ firstTsUs contentHash len, PolyBook.filename path = some
      (objectFileName (storageKeyFor record.assetPartition) firstTsUs contentHash len) := by
  obtain ⟨start, firstTsUs, contentHash, len, -, hpath⟩ := h.text
  have hcut : path = String.ofList (start ++ (record.datasetName.toList ++ '/' ::
      (partitionHourKeyText record.partitionTimestampUs).toList)) ++ "/" ++
        objectFileName (storageKeyFor record.assetPartition) firstTsUs contentHash len := by
    rw [← String.toList_inj, hpath]
    simp
  refine ⟨firstTsUs, contentHash, len, ?_⟩
  rw [hcut]
  exact filename_append (slash_notMem_objectFileName _ _ _ _)

/-- It is not in the tree of the manifests. -/
theorem Located.ne_manifest (h : Located basePath path record) (suffix : String)
    (rest : List Char) :
    path.toList ≠ (childPath basePath ("_recovery_manifests" ++ "/" ++ suffix)).toList ++ rest := by
  intro heq
  obtain ⟨start, _, _, _, hstart, hpath⟩ := h.text
  rw [hpath, hstart, List.append_assoc] at heq
  have hdir : ("_recovery_manifests" ++ "/" ++ suffix).toList ++ rest =
      "_recovery_manifests".toList ++ '/' :: (suffix.toList ++ rest) := by
    simp
  have htail := List.append_cancel_left heq
  rw [hdir] at htail
  have hname := (Separated.append_inj_left (slash_notMem_datasetName record) (by decide) htail).1
  have hall : ∀ name ∈ ["book_events", "trade_events", "ingest_events", "book_checkpoints",
      "replay_validations"], name.toList ≠ "_recovery_manifests".toList := by decide
  refine hall record.datasetName ?_ hname
  cases record <;> simp [PersistedRecord.datasetName]

end Location

section Selecting

variable {T : Type} [ParquetFormat] [Chrono] {basePath path : String} {objects : Objects}
  {record : PersistedRecord}

/-- What one of the writer's objects holds: at least one record, and each is in its place. -/
theorem Written.located (h : Written basePath objects) {bytes : Bytes}
    (hpath : objects[path]? = some bytes) :
    ParquetFormat.decode bytes = .ok (recordsAt objects path) ∧ recordsAt objects path ≠ [] ∧
      ∀ record ∈ recordsAt objects path, Located basePath path record := by
  obtain ⟨buffer, key, hobject⟩ := h path bytes hpath
  have hholds := hobject.holds
  have hrecords : recordsAt objects path =
      (groupRecords buffer key).map PersistedRecord.asStored := by
    simp only [recordsAt, hpath, hholds, Except.toOption, Option.getD_some]
  obtain ⟨first, rest, fileName, hgroup, hencode, rfl⟩ := hobject.encoded
  refine ⟨hrecords ▸ hholds, ?_, ?_⟩
  · rw [hrecords, hgroup]
    exact List.cons_ne_nil _ _
  · intro stored hstored
    rw [hrecords] at hstored
    obtain ⟨record, hrecord, rfl⟩ := List.mem_map.mp hstored
    have hkey : groupKeyOf record = key := key_of_mem hrecord
    have hfirst : groupKeyOf first = key := key_of_mem (hgroup ▸ List.mem_cons_self)
    have hasset : storageKeyFor record.assetPartition = storageKeyFor first.assetPartition :=
      congrArg GroupKey.asset (hkey.trans hfirst.symm)
    rw [(encodeGroup_eq_ok hencode).2]
    exact ⟨_, _, _, by rw [groupKeyOf_asStored, hkey, PersistedRecord.assetPartition_asStored,
      hasset]⟩

/-- The records of the objects have the form in which they are stored. -/
theorem Written.stored_asStored (h : Written basePath objects) :
    (stored objects).map PersistedRecord.asStored = stored objects := by
  rw [stored, List.map_flatMap]
  apply List.flatMap_congr
  intro path hpath
  obtain ⟨bytes, hbytes⟩ := Option.isSome_iff_exists.mp
    ((TreeMapLookup.mem_keys_iff _ _).mp hpath)
  obtain ⟨buffer, key, hobject⟩ := h path bytes hbytes
  have hrecords : recordsAt objects path =
      (groupRecords buffer key).map PersistedRecord.asStored := by
    simp only [recordsAt, hbytes, hobject.holds, Except.toOption, Option.getD_some]
  rw [hrecords, List.map_map]
  exact List.map_congr_left fun record _ => record.asStored_asStored

/-- An object that holds a record is there, and in the place of the record. -/
theorem Written.mem (h : Written basePath objects) (hrecord : record ∈ recordsAt objects path) :
    (objects[path]?).isSome = true ∧ Located basePath path record := by
  cases hpath : objects[path]? with
  | none => simp [recordsAt, hpath] at hrecord
  | some bytes => exact ⟨rfl, (h.located hpath).2.2 record hrecord⟩

/-- Nothing lies in the tree of the manifests. -/
theorem Written.no_manifest (h : Written basePath objects) (suffix : String) (rest : List Char)
    (hpath : path.toList = (childPath basePath ("_recovery_manifests" ++ "/" ++ suffix)).toList ++
      rest) : objects[path]? = none := by
  cases hbytes : objects[path]? with
  | none => rfl
  | some bytes =>
      obtain ⟨-, hne, hlocated⟩ := h.located hbytes
      obtain ⟨record, hrecord⟩ := List.exists_mem_of_ne_nil _ hne
      exact absurd hpath ((hlocated record hrecord).ne_manifest suffix rest)

variable [PathParser] [ManifestFormat] {dataset : String} {assetPrefix : Option AssetId}

omit [PathParser] in
/-- An archive that the sink wrote holds no recovery manifests. -/
theorem Written.recoveryManifests_eq (h : Written basePath objects) (dir : String) :
    recoveryManifests objects basePath dataset assetPrefix dir = .ok [] := by
  unfold recoveryManifests
  dsimp only
  generalize hourKeyOf basePath dataset dir = hourKey
  have hdirs : "_recovery_manifests/" ++ dataset ++ "/" ++ hourKey =
      "_recovery_manifests" ++ "/" ++ (dataset ++ "/" ++ hourKey) := by
    rw [← String.toList_inj]
    simp
  rw [hdirs]
  cases assetPrefix with
  | some assetId =>
      have hnone : objects[childPath basePath ("_recovery_manifests" ++ "/" ++
          (dataset ++ "/" ++ hourKey)) ++ "/" ++ storageKeyFor assetId ++ ".json"]? = none :=
        h.no_manifest (dataset ++ "/" ++ hourKey) ('/' :: (storageKeyFor assetId ++ ".json").toList)
          (by simp)
      dsimp only
      rw [hnone]
  | none =>
      have hlisted : listBelow objects (childPath basePath
          ("_recovery_manifests" ++ "/" ++ (dataset ++ "/" ++ hourKey))) = [] := by
        rw [List.eq_nil_iff_forall_not_mem]
        intro path hpath
        obtain ⟨hsome, hbelow⟩ := mem_listBelow.mp hpath
        obtain ⟨rest, hrest⟩ := (isBelow_iff _ _).mp hbelow
        rw [h.no_manifest _ _ hrest] at hsome
        cases hsome
      dsimp only
      rw [hlisted]
      rfl

/-- The turns over the hours add up what is listed. -/
theorem Written.hourFiles_eq (h : Written basePath objects) (dataset : String)
    (assetPrefix : Option AssetId) (dirs files : List String) :
    dirs.foldlM (hourFiles objects basePath dataset assetPrefix) files =
      .ok (files ++ dirs.flatMap (listedFiles objects assetPrefix)) := by
  induction dirs generalizing files with
  | nil =>
      rw [List.flatMap_nil, List.append_nil]
      rfl
  | cons dir dirs ih =>
      have hturn : hourFiles objects basePath dataset assetPrefix files dir =
          .ok (files ++ listedFiles objects assetPrefix dir) := by
        unfold hourFiles
        rw [h.recoveryManifests_eq]
        simp [bind, Except.bind, pure, Except.pure]
      rw [Folds.foldlM_cons_ok hturn, ih, List.flatMap_cons, List.append_assoc]

/-- The record is of the dataset, of the asset if one is asked for, and in the window. -/
structure Sought (dataset : String) (assetPrefix : Option AssetId) (startUs endUs : Nat)
    (record : PersistedRecord) : Prop where
  dataset : record.datasetName = dataset
  asset : ∀ assetId ∈ assetPrefix, record.assetPartition = assetId
  first : startUs ≤ record.partitionTimestampUs
  last : record.partitionTimestampUs ≤ endUs

/-- A reading takes what it seeks only. -/
def Seeks (dataset : String) (assetPrefix : Option AssetId) (startUs endUs : Nat)
    (take : PersistedRecord → Option T) : Prop :=
  ∀ record row, take record = some row → Sought dataset assetPrefix startUs endUs record

variable {startUs endUs : Nat} {take : PersistedRecord → Option T}

omit [ParquetFormat] [PathParser] [ManifestFormat] in
/-- An object with a record that is sought is listed for its hour. -/
theorem mem_listedFiles (hassets : ∀ assetId ∈ assetPrefix, assetId ≠ "")
    (hasset : ∀ assetId ∈ assetPrefix, record.assetPartition = assetId)
    (hpath : (objects[path]?).isSome = true) (hlocated : Located basePath path record) :
    path ∈ listedFiles objects assetPrefix (childPath basePath (record.datasetName ++ "/" ++
      partitionHourKeyText record.partitionTimestampUs)) := by
  obtain ⟨firstTsUs, contentHash, len, hname⟩ := hlocated.filename
  refine List.mem_filter.mpr ⟨mem_listBelow.mpr ⟨hpath, hlocated.below⟩, ?_⟩
  rw [hname, Option.any_some, Bool.and_eq_true]
  constructor
  · rw [List.isSuffixOf_iff_suffix, toList_objectFileName]
    exact ⟨(storageKeyFor record.assetPartition).toList ++ '_' :: (Nat.toDigits 10 firstTsUs ++
      '_' :: (hashText contentHash ++ '_' :: Nat.toDigits 10 len)), by simp⟩
  · rw [Option.all_eq_true]
    intro assetId hassetId
    rw [storageObjectFileMatchesAsset_any_iff, hasset assetId hassetId]
    exact ⟨hassets assetId hassetId, Or.inl rfl⟩

/-- **The selection of a window** misses no record that is sought. -/
theorem Written.datasetFiles_covers (h : Written basePath objects)
    (hseeks : Seeks dataset assetPrefix startUs endUs take)
    (hassets : ∀ assetId ∈ assetPrefix, assetId ≠ "") (hstart : minPlausiblePartitionUs ≤ startUs)
    (hend : endUs ≤ maxPlausiblePartitionUs) :
    ∃ files, datasetFiles objects basePath dataset assetPrefix startUs endUs = .ok files ∧
      Selection.Covers objects.keys files fun path => (recordsAt objects path).filterMap take := by
  have hlisted := h.hourFiles_eq dataset assetPrefix (hourPaths basePath dataset startUs endUs) []
  refine ⟨_, by rw [datasetFiles, hlisted]; rfl, ?_, ?_, ?_⟩
  · exact Selection.nodup_destutter_sort _
  · intro path hpath
    rw [Selection.mem_destutter_sort, List.nil_append, List.mem_flatMap] at hpath
    obtain ⟨dir, -, hpath⟩ := hpath
    exact (List.mem_filter.mp (List.mem_filter.mp hpath).1).1
  · intro path _ hfound
    obtain ⟨row, hrow⟩ := List.exists_mem_of_ne_nil _ hfound
    obtain ⟨record, hrecord, htake⟩ := List.mem_filterMap.mp hrow
    obtain ⟨hpath, hlocated⟩ := h.mem hrecord
    have hsought := hseeks record row htake
    rw [Selection.mem_destutter_sort, List.nil_append, List.mem_flatMap]
    refine ⟨_, ?_, mem_listedFiles hassets hsought.asset hpath hlocated⟩
    rw [hsought.dataset]
    exact every_partition_searched basePath dataset hend hsought.first hsought.last
      (hstart.trans hsought.first)

end Selecting

/-! ## Reading -/

/-- What a reading takes of some records, unless it is too large. -/
def takeRows {T : Type} (take : PersistedRecord → Option T) (records : List PersistedRecord) :
    Except Publication.ReplayError (List T) :=
  if maxParquetDatasetRows < (records.filterMap take).length then .error tooManyRows
  else .ok (records.filterMap take)

section Reading

variable {T : Type} [ParquetFormat] {objects : Objects} {take : PersistedRecord → Option T}
  {assetPrefix : Option AssetId}

/-- Reading a file of the archive takes its rows. -/
theorem readParquetFile_eq {path : String} (h : Readable objects path) :
    CheckpointLookup.readParquetFile (rowQuery assetPrefix take) objects path =
      takeRows take (recordsAt objects path) := by
  obtain ⟨bytes, records, hbytes, hdecode⟩ := h
  simp only [CheckpointLookup.readParquetFile, hbytes, readContent, hdecode, rowQuery, takeRows,
    recordsAt, Except.toOption, Option.getD_some]

/-- The fold over the objects: the rows so far and those of the objects to come. -/
theorem collect_eq {files : List String} (h : ∀ path ∈ files, Readable objects path)
    {rows : List T} (hrows : rows.length ≤ maxParquetDatasetRows) :
    collect (rowQuery assetPrefix take) objects files rows =
      if maxParquetDatasetRows <
          (rows ++ (files.flatMap (recordsAt objects)).filterMap take).length then
        .error tooManyRows
      else .ok (rows ++ (files.flatMap (recordsAt objects)).filterMap take) := by
  induction files generalizing rows with
  | nil =>
      rw [List.flatMap_nil, List.filterMap_nil, List.append_nil, if_neg (Nat.not_lt.mpr hrows)]
      rfl
  | cons path files ih =>
      have hrest : ∀ path ∈ files, Readable objects path := fun p hp =>
        h p (List.mem_cons_of_mem _ hp)
      rw [collect, readParquetFile_eq (h path List.mem_cons_self), takeRows, List.flatMap_cons,
        List.filterMap_append]
      generalize (recordsAt objects path).filterMap take = batch
      by_cases hbatch : maxParquetDatasetRows < batch.length
      · rw [if_pos hbatch, if_pos (by simp only [List.length_append]; omega)]
      · rw [if_neg hbatch]
        dsimp only
        by_cases hsum : maxParquetDatasetRows < rows.length + batch.length
        · rw [if_pos hsum, if_pos (by simp only [List.length_append]; omega)]
        · rw [if_neg hsum, ih hrest (by rw [List.length_append]; omega), List.append_assoc]

variable [Chrono] [PathParser] [ManifestFormat] {basePath dataset : String} {startUs endUs : Nat}

/-- **What is read of a dataset**: what all stored records, in some order, have for it. -/
theorem Written.readView_eq (h : Written basePath objects) (completion : Nat → Completion)
    (attempt : Nat) (hseeks : Seeks dataset assetPrefix startUs endUs take)
    (hassets : ∀ assetId ∈ assetPrefix, assetId ≠ "") (hstart : minPlausiblePartitionUs ≤ startUs)
    (hend : endUs ≤ maxPlausiblePartitionUs) :
    ∃ records : List PersistedRecord, records.Perm (stored objects) ∧
      readView objects basePath completion attempt dataset assetPrefix startUs endUs take =
        .ok (takeRows take records) := by
  obtain ⟨files, hfiles, hcovers⟩ := h.datasetFiles_covers hseeks hassets hstart hend
  have hopened := (completion attempt).perm files
  have hreadable : ∀ path ∈ (completion attempt).order files, Readable objects path := by
    intro path hpath
    have hin := (TreeMapLookup.mem_keys_iff _ _).mp (hcovers.subset (hopened.mem_iff.mp hpath))
    obtain ⟨bytes, hbytes⟩ := Option.isSome_iff_exists.mp hin
    exact ⟨bytes, _, hbytes, (h.located hbytes).1⟩
  have hnodup : objects.keys.Nodup := Std.ExtTreeMap.nodup_keys
  obtain ⟨arranged, harranged, hfound⟩ := hcovers.exists_arrangement hnodup hopened
  refine ⟨arranged.flatMap (recordsAt objects), harranged.flatMap_right _, ?_⟩
  rw [readView, hfiles, Except.map, readParquetFiles, collect_eq hreadable (Nat.zero_le _),
    takeRows, List.nil_append, List.filterMap_flatMap, List.filterMap_flatMap, hfound]

/-- The view is resolved once: no object is missing. -/
theorem Written.readDataset_eq (h : Written basePath objects) (completion : Nat → Completion)
    (hseeks : Seeks dataset assetPrefix startUs endUs take)
    (hassets : ∀ assetId ∈ assetPrefix, assetId ≠ "") (hstart : minPlausiblePartitionUs ≤ startUs)
    (hend : endUs ≤ maxPlausiblePartitionUs) :
    ∃ records : List PersistedRecord, records.Perm (stored objects) ∧
      readDatasetWithViewRetry objects basePath completion dataset assetPrefix startUs endUs take =
        takeRows take records := by
  obtain ⟨records, hperm, hview⟩ := h.readView_eq completion 0 hseeks hassets hstart hend
  refine ⟨records, hperm, ?_⟩
  unfold readDatasetWithViewRetry
  rw [hview]
  unfold takeRows
  split <;> rfl

end Reading

/-! ## A reader of records -/

/-- A reader that has the records at hand. -/
def recordsReader (records : List PersistedRecord) : EventReader where
  readMarketData assetId startUs endUs := do
    let bookEvents ← takeRows (extractBookEvent assetId startUs endUs) records
    let tradeEvents ← takeRows (extractTradeEvent assetId startUs endUs) records
    let ingestEvents ← takeRows (extractIngestEvent assetId startUs endUs) records
    pure (sortedWindow bookEvents tradeEvents ingestEvents)
  readCheckpoints assetId startUs endUs := do
    let checkpoints ← takeRows (extractCheckpoint assetId startUs endUs) records
    pure (sortByKey (·.checkpointTimestampUs) checkpoints)

section Agreement

variable {assetId : AssetId} {startUs endUs : Nat} {records : List PersistedRecord}

/-- A read of a dataset succeeds and fails as that of the rows at hand. -/
theorem takeRows_eq {T : Type} (take : PersistedRecord → Option T) :
    takeRows take records = (readRows take records).mapError fun _ => tooManyRows := by
  rw [takeRows, readRows]
  split <;> rfl

/-- Reading the stored records is reading the records, row limit included. -/
theorem readMarketData_recordsReader_eq :
    (recordsReader records).readMarketData assetId startUs endUs =
      (readMarketData assetId startUs endUs records).mapError fun _ => tooManyRows := by
  simp only [recordsReader, takeRows_eq, readMarketData]
  cases readRows (extractBookEvent assetId startUs endUs) records with
  | error e => rfl
  | ok bookEvents =>
      cases readRows (extractTradeEvent assetId startUs endUs) records with
      | error e => rfl
      | ok tradeEvents =>
          cases readRows (extractIngestEvent assetId startUs endUs) records <;> rfl

/-- Looking for a checkpoint among stored records is looking among the records. -/
theorem latestCheckpointInWindow_recordsReader_eq :
    latestCheckpointInWindow (recordsReader records) assetId startUs endUs =
      (PolyBook.latestCheckpointInWindow assetId startUs endUs records).mapError
        fun _ => tooManyRows := by
  simp only [latestCheckpointInWindow, PolyBook.latestCheckpointInWindow, recordsReader,
    takeRows_eq, readCheckpoints]
  split
  · rfl
  · cases readRows (extractCheckpoint assetId startUs endUs) records <;> rfl

/-- **The engine over records** is the reconstruction from these records, unless a read is
too large. -/
theorem reconstructAt_recordsReader (lookbackUs : Nat) (assetId : AssetId)
    (targetTimestampUs : Nat) (mode : ReplayMode) (records : List PersistedRecord) :
    (ReadsFit lookbackUs assetId targetTimestampUs records →
      reconstructAt (recordsReader records) assetId lookbackUs targetTimestampUs mode =
        (PolyBook.reconstructAt lookbackUs assetId targetTimestampUs mode records).mapError
          .rebuild) ∧
    (¬ReadsFit lookbackUs assetId targetTimestampUs records →
      reconstructAt (recordsReader records) assetId lookbackUs targetTimestampUs mode =
        .error (.read tooManyRows)) := by
  have hle : targetTimestampUs - lookbackUs ≤ targetTimestampUs := Nat.sub_le _ _
  rw [reconstructAt, latestCheckpointInWindow_recordsReader_eq]
  constructor
  · intro hfits
    have hwindow := readMarketData_of_fits hfits.window
    rw [seedStart, seedCheckpoint] at hwindow
    rw [PolyBook.reconstructAt_of_fits hfits, seedStart, seedCheckpoint,
      latestCheckpointInWindow_of_fit fun _ => hfits.checkpoints]
    simp only [Except.mapError, readMarketData_recordsReader_eq, hwindow]
    cases reconstructBook assetId targetTimestampUs mode _ _ <;> rfl
  · intro hnot
    by_cases hcheckpoints : CheckpointsFit assetId (targetTimestampUs - lookbackUs)
        targetTimestampUs records
    · have hwindow := readMarketData_of_not_fits (mt (ReadsFit.mk hcheckpoints) hnot)
      rw [seedStart, seedCheckpoint] at hwindow
      rw [latestCheckpointInWindow_of_fit fun _ => hcheckpoints]
      simp only [Except.mapError, readMarketData_recordsReader_eq, hwindow]
    · rw [latestCheckpointInWindow_of_not_fit hle hcheckpoints]
      rfl

end Agreement

/-! ## One order for all reads -/

/-- The datasets of the writer. -/
def datasets : List String :=
  ["book_events", "trade_events", "ingest_events", "book_checkpoints", "replay_validations"]

/-- Every record belongs to one of the datasets. -/
theorem datasetName_mem (record : PersistedRecord) : record.datasetName ∈ datasets := by
  cases record <;> simp [PersistedRecord.datasetName, datasets]

/-- The records dataset by dataset, each in the order in which it was read. -/
def merged (read : String → List PersistedRecord) : List PersistedRecord :=
  Selection.byClass PersistedRecord.datasetName datasets read

/-- The datasets together hold the records. -/
theorem merged_perm {read : String → List PersistedRecord} {records : List PersistedRecord}
    (h : ∀ dataset ∈ datasets, (read dataset).Perm records) : (merged read).Perm records :=
  Selection.perm_byClass (by decide) (fun record _ => datasetName_mem record) h

section Seeking

variable {T : Type} {dataset : String} {assetPrefix : Option AssetId} {startUs endUs : Nat}
  {take : PersistedRecord → Option T}

/-- A reading finds in the merged records what it has found in its own. -/
theorem takeRows_merged (h : Seeks dataset assetPrefix startUs endUs take)
    (hdataset : dataset ∈ datasets) (read : String → List PersistedRecord) :
    takeRows take (merged read) = takeRows take (read dataset) := by
  have hfound : (merged read).filterMap take = (read dataset).filterMap take :=
    Selection.filterMap_byClass (by decide) hdataset (fun record row htake =>
      (h record row htake).dataset) read
  rw [takeRows, takeRows, hfound]

variable (assetId : AssetId) (startUs endUs : Nat)

/-- The reader of book events looks for those of the asset in the window. -/
theorem seeks_book : Seeks "book_events" (some assetId) startUs endUs
    (extractBookEvent assetId startUs endUs) := by
  intro record row h
  cases record with
  | book event =>
      simp only [extractBookEvent, Option.ite_none_right_eq_some] at h
      obtain ⟨⟨hstart, hend, hasset⟩, -⟩ := h
      refine ⟨rfl, ?_, hstart, hend⟩
      rintro a ⟨⟩
      exact hasset
  | _ => cases h

/-- The reader of trades looks for those of the asset in the window. -/
theorem seeks_trade : Seeks "trade_events" (some assetId) startUs endUs
    (extractTradeEvent assetId startUs endUs) := by
  intro record row h
  cases record with
  | trade event =>
      simp only [extractTradeEvent, Option.ite_none_right_eq_some] at h
      obtain ⟨⟨hstart, hend, hasset⟩, -⟩ := h
      refine ⟨rfl, ?_, hstart, hend⟩
      rintro a ⟨⟩
      exact hasset
  | _ => cases h

/-- The events of the feed are in no partition of an asset, so every partition is read. -/
theorem seeks_ingest : Seeks "ingest_events" none startUs endUs
    (extractIngestEvent assetId startUs endUs) := by
  intro record row h
  cases record with
  | ingest event =>
      simp only [extractIngestEvent, Option.ite_none_right_eq_some] at h
      obtain ⟨⟨hstart, hend, -⟩, -⟩ := h
      refine ⟨rfl, ?_, hstart, hend⟩
      rintro a ⟨⟩
  | _ => cases h

/-- The reader of checkpoints looks for those of the asset in the window. -/
theorem seeks_checkpoint : Seeks "book_checkpoints" (some assetId) startUs endUs
    (extractCheckpoint assetId startUs endUs) := by
  intro record row h
  cases record with
  | checkpoint checkpoint =>
      simp only [extractCheckpoint, Option.ite_none_right_eq_some] at h
      obtain ⟨⟨hstart, hend, hasset⟩, -⟩ := h
      refine ⟨rfl, ?_, hstart, hend⟩
      rintro a ⟨⟩
      exact hasset
  | _ => cases h

end Seeking

section Simulation

variable [ParquetFormat] [Chrono] [PathParser] [ManifestFormat] {objects : Objects}
  {basePath : String} {reader reader' : EventReader} {assetId : AssetId}
  {lookbackUs targetTimestampUs : Nat}

/-- Where the window of a reconstruction starts, from the checkpoint found. -/
def windowStart (floorUs : Nat) (found : Option BookCheckpoint) : Nat :=
  ((checkpointWithinFloor found floorUs).map (·.checkpointTimestampUs)).getD floorUs

omit [ParquetFormat] [Chrono] [PathParser] [ManifestFormat] in
/-- The window starts at the floor or behind it. -/
theorem le_windowStart (floorUs : Nat) (found : Option BookCheckpoint) :
    floorUs ≤ windowStart floorUs found := by
  unfold windowStart checkpointWithinFloor
  cases hfound : found.filter fun c => decide (floorUs ≤ c.checkpointTimestampUs) with
  | none => exact Nat.le_refl _
  | some c => exact of_decide_eq_true (Option.filter_eq_some_iff.mp hfound).2

omit [ParquetFormat] [Chrono] [PathParser] [ManifestFormat] in
/-- The engine asks for the checkpoints of the lookback, and then for one window. -/
theorem reconstructAt_congr (mode : ReplayMode)
    (hcheckpoints :
      reader.readCheckpoints assetId (targetTimestampUs - lookbackUs) targetTimestampUs =
        reader'.readCheckpoints assetId (targetTimestampUs - lookbackUs) targetTimestampUs)
    (hwindow : ∀ found, latestCheckpointInWindow reader' assetId (targetTimestampUs - lookbackUs)
        targetTimestampUs = .ok found →
      reader.readMarketData assetId (windowStart (targetTimestampUs - lookbackUs) found)
          targetTimestampUs =
        reader'.readMarketData assetId (windowStart (targetTimestampUs - lookbackUs) found)
          targetTimestampUs) :
    reconstructAt reader assetId lookbackUs targetTimestampUs mode =
      reconstructAt reader' assetId lookbackUs targetTimestampUs mode := by
  have hlatest : latestCheckpointInWindow reader assetId (targetTimestampUs - lookbackUs)
      targetTimestampUs = latestCheckpointInWindow reader' assetId (targetTimestampUs - lookbackUs)
        targetTimestampUs := by
    rw [latestCheckpointInWindow, latestCheckpointInWindow, hcheckpoints]
  unfold reconstructAt
  dsimp only
  rw [hlatest]
  cases hfound : latestCheckpointInWindow reader' assetId (targetTimestampUs - lookbackUs)
      targetTimestampUs with
  | error e => rfl
  | ok found =>
      have hdata := hwindow found hfound
      rw [windowStart] at hdata
      dsimp only
      rw [hdata]

/-- **Replay from the archive.**  Over the objects of the writer, in whatever order they are
read, the engine does what it does over their records in some order. -/
theorem Written.reconstructs (h : Written basePath objects) (completion : Nat → Completion)
    (hasset : assetId ≠ "") (hfloor : minPlausiblePartitionUs ≤ targetTimestampUs - lookbackUs)
    (htarget : targetTimestampUs ≤ maxPlausiblePartitionUs) (mode : ReplayMode) :
    ∃ records : List PersistedRecord, records.Perm (stored objects) ∧
      reconstructAt (parquetReader objects basePath completion) assetId lookbackUs
          targetTimestampUs mode =
        reconstructAt (recordsReader records) assetId lookbackUs targetTimestampUs mode := by
  have hassets : ∀ a ∈ some assetId, a ≠ "" := by
    rintro a ⟨⟩
    exact hasset
  obtain ⟨checkpoints, hcheckpoints, hreadCheckpoints⟩ := h.readView_eq completion 0
    (seeks_checkpoint assetId _ _) hassets hfloor htarget
  -- The window starts at the checkpoint of this read.
  let found := (latestCheckpointInWindow (recordsReader checkpoints) assetId
    (targetTimestampUs - lookbackUs) targetTimestampUs).toOption.join
  let startUs := windowStart (targetTimestampUs - lookbackUs) found
  have hstart : minPlausiblePartitionUs ≤ startUs := hfloor.trans (le_windowStart _ _)
  obtain ⟨books, hbooks, hreadBooks⟩ := h.readDataset_eq completion
    (seeks_book assetId startUs _) hassets hstart htarget
  obtain ⟨trades, htrades, hreadTrades⟩ := h.readDataset_eq completion
    (seeks_trade assetId startUs _) hassets hstart htarget
  obtain ⟨ingests, hingests, hreadIngests⟩ := h.readDataset_eq completion
    (seeks_ingest assetId startUs _) (by simp) hstart htarget
  let read : String → List PersistedRecord := fun dataset =>
    if dataset = "book_events" then books
    else if dataset = "trade_events" then trades
    else if dataset = "ingest_events" then ingests
    else checkpoints
  have hread : ∀ dataset ∈ datasets, (read dataset).Perm (stored objects) := by
    intro dataset _
    dsimp only [read]
    split_ifs
    · exact hbooks
    · exact htrades
    · exact hingests
    · exact hcheckpoints
  have hsameCheckpoints : (recordsReader (merged read)).readCheckpoints assetId
      (targetTimestampUs - lookbackUs) targetTimestampUs =
        (recordsReader checkpoints).readCheckpoints assetId (targetTimestampUs - lookbackUs)
          targetTimestampUs := by
    simp only [recordsReader]
    rw [takeRows_merged (seeks_checkpoint assetId _ _) (by decide) read]
    rfl
  refine ⟨merged read, merged_perm hread, reconstructAt_congr mode ?_ ?_⟩
  · rw [hsameCheckpoints]
    simp only [parquetReader, recordsReader, hreadCheckpoints]
    rfl
  · intro found' hfound'
    have hstart' : windowStart (targetTimestampUs - lookbackUs) found' = startUs := by
      rw [latestCheckpointInWindow, hsameCheckpoints, ← latestCheckpointInWindow] at hfound'
      dsimp only [startUs, found]
      rw [hfound']
      rfl
    rw [hstart']
    simp only [parquetReader, recordsReader, hreadBooks, hreadTrades, hreadIngests]
    rw [takeRows_merged (seeks_book assetId _ _) (by decide) read,
      takeRows_merged (seeks_trade assetId _ _) (by decide) read,
      takeRows_merged (seeks_ingest assetId _ _) (by decide) read]
    rfl

end Simulation

/-! ## What the sink has archived -/

/-- An object that is written has the content of any other one of its name: the name is
made of a hash of the content and its length. -/
def ContentNamed [ParquetFormat] [Chrono] (basePath : String) (before : Objects)
    (batches : List (List PersistedRecord)) : Prop :=
  ∀ batch ∈ batches, ∀ key path bytes, GroupObject basePath batch key path bytes → ∀ bytes',
    (before[path]? = some bytes' ∨
      ∃ batch' ∈ batches, ∃ key', GroupObject basePath batch' key' path bytes') → bytes' = bytes

section Archiving

variable [ParquetFormat] [Chrono] {basePath : String} {before after : ObjectStore}
  {batches : List (List PersistedRecord)} {path : String}

omit [Chrono] in
/-- A file that decodes holds its records. -/
theorem recordsAt_of_decode {objects : Objects} {bytes : Bytes} {records : List PersistedRecord}
    (hbytes : objects[path]? = some bytes) (hdecode : ParquetFormat.decode bytes = .ok records) :
    recordsAt objects path = records := by
  simp only [recordsAt, hbytes, hdecode, Except.toOption, Option.getD_some]

/-- What an object holds after the batches have been written: what it held before, or a
group of a batch. -/
theorem recordsAt_after (hplaced : SinkRun.Placed basePath batches before after)
    (hpath : path ∈ after.objects.keys) :
    (path ∈ before.objects.keys ∧ recordsAt after.objects path = recordsAt before.objects path) ∨
      ∃ batch ∈ batches, ∃ key bytes, GroupObject basePath batch key path bytes ∧
        recordsAt after.objects path =
          (groupRecords batch key).map PersistedRecord.asStored := by
  obtain ⟨bytes, hbytes⟩ := Option.isSome_iff_exists.mp
    ((TreeMapLookup.mem_keys_iff _ _).mp hpath)
  rcases hplaced path bytes hbytes with hbefore | ⟨batch, hbatch, key, hobject⟩
  · refine Or.inl ⟨(TreeMapLookup.mem_keys_iff _ _).mpr (by rw [hbefore]; rfl), ?_⟩
    rw [recordsAt, recordsAt, hbytes, hbefore]
  · exact Or.inr ⟨batch, hbatch, key, bytes, hobject, recordsAt_of_decode hbytes hobject.holds⟩

/-- Objects named by content have distinct names. -/
theorem ContentNamed.distinct (h : ContentNamed basePath before.objects batches) :
    SinkRun.DistinctNames basePath batches := by
  intro batch hbatch key path bytes hobject other hother key' bytes' hobject'
  exact h batch hbatch key path bytes hobject bytes' (Or.inr ⟨other, hother, key', hobject'⟩)

/-- Where contents of one length are one content, the names tell them apart. -/
theorem ContentNamed.of_lengths
    (hlengths : ∀ records bytes, ParquetFormat.encode records = .ok bytes →
      ∀ records' bytes', ParquetFormat.encode records' = .ok bytes' →
        bytes.length = bytes'.length → bytes = bytes')
    (hwritten : Written basePath before.objects) (batches : List (List PersistedRecord)) :
    ContentNamed basePath before.objects batches := by
  have hsame : ∀ {batch other key key' path bytes bytes'},
      GroupObject basePath batch key path bytes → GroupObject basePath other key' path bytes' →
        bytes' = bytes := by
    intro batch other key key' path bytes bytes' hobject hother
    exact (hlengths _ _ hobject.encode _ _ hother.encode (hobject.same_name hother).2).symm
  rintro batch - key path bytes hobject bytes' (hbefore | ⟨other, -, key', hother⟩)
  · obtain ⟨buffer, key', hold⟩ := hwritten path bytes' hbefore
    exact hsame hobject hold
  · exact hsame hobject hother

/-- **What is stored after some batches**: what was stored before and the batches. -/
theorem mem_stored_after (hwritten : Written basePath before.objects)
    (hplaced : SinkRun.Placed basePath batches before after)
    (hpresent : SinkRun.Present basePath batches batches after) (hkept : SinkRun.Kept before after)
    (hnames : ContentNamed basePath before.objects batches) (record : PersistedRecord) :
    record ∈ stored after.objects ↔
      record ∈ stored before.objects ++ batches.flatten.map PersistedRecord.asStored := by
  rw [List.mem_append, stored, stored, List.mem_flatMap, List.mem_flatMap]
  constructor
  · rintro ⟨path, hpath, hrecord⟩
    rcases recordsAt_after hplaced hpath with ⟨hbefore, hsame⟩ | ⟨batch, hbatch, key, _, -, hsame⟩
    · exact Or.inl ⟨path, hbefore, hsame ▸ hrecord⟩
    · rw [hsame] at hrecord
      obtain ⟨sent, hsent, rfl⟩ := List.mem_map.mp hrecord
      exact Or.inr (List.mem_map_of_mem
        (List.mem_flatten.mpr ⟨batch, hbatch, (List.mem_filter.mp hsent).1⟩))
  · rintro (⟨path, hpath, hrecord⟩ | hrecord)
    · have hbefore := (TreeMapLookup.mem_keys_iff _ _).mp hpath
      obtain ⟨bytes, hbytes⟩ := Option.isSome_iff_exists.mp hbefore
      obtain ⟨bytes', hbytes'⟩ := Option.isSome_iff_exists.mp (hkept path hbefore)
      -- An object that has been written over has been written with its own content.
      have hcontent : bytes' = bytes := by
        rcases hplaced path bytes' hbytes' with hold | ⟨batch, hbatch, key, hobject⟩
        · rw [hbytes] at hold
          exact (Option.some.inj hold).symm
        · exact (hnames batch hbatch key path bytes' hobject bytes (Or.inl hbytes)).symm
      refine ⟨path, (TreeMapLookup.mem_keys_iff _ _).mpr (by rw [hbytes']; rfl), ?_⟩
      rw [recordsAt_of_decode (hcontent ▸ hbytes') (hwritten.located hbytes).1]
      exact hrecord
    · obtain ⟨sent, hsent, rfl⟩ := List.mem_map.mp hrecord
      obtain ⟨batch, hbatch, hin⟩ := List.mem_flatten.mp hsent
      obtain ⟨path, bytes, hobject, hbytes⟩ :=
        hpresent.stored (List.Subset.refl _) hnames.distinct hbatch hin
      refine ⟨path, (TreeMapLookup.mem_keys_iff _ _).mpr (by rw [hbytes]; rfl), ?_⟩
      rw [recordsAt_of_decode hbytes hobject.holds]
      exact List.mem_map_of_mem (List.mem_filter.mpr ⟨hin, decide_eq_true rfl⟩)

/-- No record is stored twice. -/
theorem nodup_stored_after (hplaced : SinkRun.Placed basePath batches before after)
    (hnodup : (stored before.objects ++
      batches.flatten.map PersistedRecord.asStored).Nodup) : (stored after.objects).Nodup := by
  obtain ⟨hbefore, hbatches, hapart⟩ := List.nodup_append.mp hnodup
  obtain ⟨hinside, houtside⟩ := List.nodup_flatMap.mp hbefore
  rw [List.map_flatten, List.nodup_flatten, List.pairwise_map] at hbatches
  obtain ⟨hbatch, hother⟩ := hbatches
  have hmemBefore : ∀ {path record}, path ∈ before.objects.keys →
      record ∈ recordsAt before.objects path → record ∈ stored before.objects :=
    fun hpath hrecord => List.mem_flatMap.mpr ⟨_, hpath, hrecord⟩
  have hinBatch : ∀ {batch key record},
      record ∈ (groupRecords batch key).map PersistedRecord.asStored →
        record ∈ batch.map PersistedRecord.asStored := by
    intro batch key record hrecord
    obtain ⟨sent, hsent, rfl⟩ := List.mem_map.mp hrecord
    exact List.mem_map_of_mem (List.mem_filter.mp hsent).1
  have hmemBatch : ∀ {batch key record}, batch ∈ batches →
      record ∈ (groupRecords batch key).map PersistedRecord.asStored →
        record ∈ batches.flatten.map PersistedRecord.asStored := by
    intro batch key record hin hrecord
    obtain ⟨sent, hsent, rfl⟩ := List.mem_map.mp (hinBatch hrecord)
    exact List.mem_map_of_mem (List.mem_flatten.mpr ⟨batch, hin, hsent⟩)
  have hkeyOf : ∀ {batch key record},
      record ∈ (groupRecords batch key).map PersistedRecord.asStored → groupKeyOf record = key := by
    intro batch key record hrecord
    obtain ⟨sent, hsent, rfl⟩ := List.mem_map.mp hrecord
    rw [groupKeyOf_asStored]
    exact key_of_mem hsent
  have hsymm : Std.Symm (fun a b : List PersistedRecord =>
      (a.map PersistedRecord.asStored).Disjoint (b.map PersistedRecord.asStored)) :=
    ⟨fun _ _ h => List.Disjoint.symm h⟩
  have hsymmAt : Std.Symm (Function.onFun List.Disjoint (recordsAt before.objects)) :=
    ⟨fun _ _ h => List.Disjoint.symm h⟩
  rw [stored, List.nodup_flatMap]
  constructor
  · intro path hpath
    rcases recordsAt_after hplaced hpath with ⟨hold, hsame⟩ | ⟨batch, hin, key, _, -, hsame⟩
    · rw [hsame]
      exact hinside path hold
    · rw [hsame]
      have hsub := (List.filter_sublist (p := fun record => decide (groupKeyOf record = key))
        (l := batch)).map PersistedRecord.asStored
      exact (hbatch _ (List.mem_map_of_mem hin)).sublist hsub
  · refine List.Nodup.pairwise_of_forall_ne Std.ExtTreeMap.nodup_keys ?_
    intro path hpath path' hpath' hne record hrecord hrecord'
    rcases recordsAt_after hplaced hpath with
      ⟨hold, hsame⟩ | ⟨batch, hin, key, _, hobject, hsame⟩ <;>
      rcases recordsAt_after hplaced hpath' with
        ⟨hold', hsame'⟩ | ⟨batch', hin', key', _, hobject', hsame'⟩ <;>
      rw [hsame] at hrecord <;> rw [hsame'] at hrecord'
    · exact houtside.forall hold hold' hne hrecord hrecord'
    · exact hapart record (hmemBefore hold hrecord) record (hmemBatch hin' hrecord') rfl
    · exact hapart record (hmemBefore hold' hrecord') record (hmemBatch hin hrecord) rfl
    · obtain rfl : key = key' := (hkeyOf hrecord).symm.trans (hkeyOf hrecord')
      by_cases hsameBatch : batch = batch'
      · rw [← hsameBatch] at hobject'
        exact hne (hobject.functional hobject').1
      · exact hother.forall hin hin' hsameBatch (hinBatch hrecord) (hinBatch hrecord')

end Archiving

section EndToEnd

variable [ParquetFormat] [Chrono] [PathParser] [ManifestFormat]

omit [PathParser] [ManifestFormat] in
/-- After a clean return of the sink the records of the archive are those that were there
and those that were sent. -/
theorem stored_of_clean_run {outcome : Nat → PutOutcome} {basePath : String}
    {before : ObjectStore} {events : List SinkRun.Event} {s : SinkRun.State}
    (hrun : SinkRun.run outcome basePath before events = s)
    (hclean : s.returned = some (.ok ())) (hwritten : Written basePath before.objects)
    (hnames : ContentNamed basePath before.objects s.flushed)
    (hdistinct : (stored before.objects ++ s.sent.map PersistedRecord.asStored).Nodup) :
    Written basePath s.store.objects ∧ (stored s.store.objects).Perm
      (stored before.objects ++ s.sent.map PersistedRecord.asStored) := by
  have haccount := SinkRun.sink_accounts_for_every_record outcome basePath before events
  rw [hrun] at haccount
  obtain ⟨hsent, hplaced, hpresent⟩ := haccount.clean hclean
  rw [hsent] at hdistinct ⊢
  constructor
  · intro path bytes hbytes
    rcases hplaced path bytes hbytes with hold | ⟨batch, -, key, hobject⟩
    · exact hwritten path bytes hold
    · exact ⟨batch, key, hobject⟩
  · exact (List.perm_ext_iff_of_nodup (nodup_stored_after hplaced hdistinct) hdistinct).mpr
      (mem_stored_after hwritten hplaced hpresent haccount.kept hnames)

/-- **From the sink to the book.**  Let the sink write to an archive of its own, and return
cleanly, whatever puts have failed and whenever it has flushed.  Then a reconstruction by the
Parquet reader, which reads the objects in any order, is the reconstruction from the records
that had been archived and those that were sent, in some order; only a read of too many rows
is refused. -/
theorem clean_run_reconstructs {outcome : Nat → PutOutcome} {basePath : String}
    {before : ObjectStore} {events : List SinkRun.Event} {s : SinkRun.State}
    (hrun : SinkRun.run outcome basePath before events = s)
    (hclean : s.returned = some (.ok ())) (hwritten : Written basePath before.objects)
    (hnames : ContentNamed basePath before.objects s.flushed)
    (hdistinct : (stored before.objects ++ s.sent.map PersistedRecord.asStored).Nodup)
    (completion : Nat → Completion)
    {assetId : AssetId} (hasset : assetId ≠ "") {lookbackUs targetTimestampUs : Nat}
    (hfloor : minPlausiblePartitionUs ≤ targetTimestampUs - lookbackUs)
    (htarget : targetTimestampUs ≤ maxPlausiblePartitionUs) (mode : ReplayMode) :
    ∃ records : List PersistedRecord, records.Perm (stored before.objects ++ s.sent) ∧
      (ReadsFit lookbackUs assetId targetTimestampUs records →
        reconstructAt (parquetReader s.store.objects basePath completion) assetId lookbackUs
            targetTimestampUs mode =
          (PolyBook.reconstructAt lookbackUs assetId targetTimestampUs mode records).mapError
            .rebuild) ∧
      (¬ReadsFit lookbackUs assetId targetTimestampUs records →
        reconstructAt (parquetReader s.store.objects basePath completion) assetId lookbackUs
            targetTimestampUs mode = .error (.read tooManyRows)) := by
  obtain ⟨hafter, hstored⟩ := stored_of_clean_run hrun hclean hwritten hnames hdistinct
  obtain ⟨records, hrecords, hsame⟩ :=
    hafter.reconstructs completion hasset hfloor htarget mode
  -- The rows are those of the records in the same order.
  have hrows : records.Perm ((stored before.objects ++ s.sent).map PersistedRecord.asStored) := by
    rw [List.map_append, hwritten.stored_asStored]
    exact hrecords.trans hstored
  have hcomp := congrFun₂ (List.eq_map_comp_perm PersistedRecord.asStored) records
    (stored before.objects ++ s.sent)
  obtain ⟨originals, rfl, horiginals⟩ := hcomp.mpr hrows
  refine ⟨originals, horiginals, ?_⟩
  rw [hsame, ← readsFit_asStored, ← reconstructAt_asStored]
  exact reconstructAt_recordsReader lookbackUs assetId targetTimestampUs mode _

end EndToEnd

/-! ## Two runs of a sink -/

namespace TwoRuns

/-- A checkpoint, two levels of a snapshot and a level of another asset, of one hour. -/
def checkpoint : PersistedRecord :=
  .checkpoint ⟨"7", 1699999800000000,
    ⟨1699999800000000, 1699999800000000, .system, none, none, none, none⟩,
    [⟨Sample.price 40, Sample.size 10⟩], [], none⟩

/-- The snapshot of the sample, a bid and an ask. -/
def snapshot : List PersistedRecord :=
  [.book (Sample.level .snapshot "7" .bid 40 10 1700000400000000 "0x61"),
    .book (Sample.level .snapshot "7" .ask 60 5 1700000400000000 "0x61")]

/-- A level change of the other asset. -/
def other : PersistedRecord := .book (Sample.level .delta "8" .bid 30 5 1700001000000000 "0x62")

/-- A level, a trade and a warning of the next hour. -/
def change : PersistedRecord := .book (Sample.level .delta "7" .bid 41 7 1700003100000000 "0x63")

/-- The trade of the sample, an hour later. -/
def trade : PersistedRecord := .trade {
  assetId := "7"
  price := Sample.price 41
  size := some (Sample.size 1)
  side := some .bid
  tradeId := some "0x64"
  fidelity := .full
  provenance := Sample.provenance 1700003160000000 "0x64" }

/-- The warning of the sample, of no asset. -/
def warning : PersistedRecord := .ingest {
  assetId := none
  kind := .reconnectStart
  provenance := Sample.provenance 1700003220000000 "0x65"
  expectedSequence := none
  observedSequence := none
  details := none }

/-- The encoding of their groups. -/
def groups : List (List PersistedRecord × Bytes) :=
  [([checkpoint], [80, 65, 82, 49, 1]), (snapshot, [80, 65, 82, 49, 1, 2]),
    ([other], [80, 65, 82, 49, 1, 2, 3]), ([change], [80, 65, 82, 49, 1, 2, 3, 4]),
    ([trade], [80, 65, 82, 49, 1, 2, 3, 4, 5]), ([warning], [80, 65, 82, 49, 1, 2, 3, 4, 5, 6])]

/-- The format of the sample: a table of the groups that are written. -/
@[reducible] def format : ParquetFormat :=
  .ofTable groups (fun bytes => 0xa4e428564378c900 + bytes.length.toUInt64) (by decide)

/-- The sample archive holds no manifest. -/
@[reducible] def manifests : ManifestFormat :=
  ⟨fun _ => .error "not written here", fun _ => .error "not a manifest"⟩

attribute [local instance] format manifests gregorian properPaths

/-- The first run flushes when its timer ticks, and once more at its end. -/
def earlier : SinkRun.State :=
  SinkRun.run (fun _ => .stored) "" ⟨∅, 0⟩
    ([.send checkpoint, .recv, .tick] ++ snapshot.map .send ++
      [.send other, .recv, .recv, .close, .recv, .recv])

/-- In the second run a put is reported as failed though it has been made. -/
def later : SinkRun.State :=
  SinkRun.run (fun n => if n = 3 then .failed "timed out" true else .stored) "" earlier.store
    [.send change, .send trade, .recv, .send warning, .cancelled, .recv, .recv, .close, .recv]

/-- The earlier run ends without an error. -/
theorem earlier_returned : earlier.returned = some (.ok ()) := by rfl

/-- The later run ends without an error. -/
theorem later_returned : later.returned = some (.ok ()) := by rfl

/-- What the earlier run was sent. -/
theorem earlier_sent : earlier.sent = checkpoint :: snapshot ++ [other] := by rfl

/-- What the later run was sent. -/
theorem later_sent : later.sent = [change, trade, warning] := by rfl

/-- All contents are of different lengths. -/
theorem contentNamed {before : ObjectStore} (hwritten : Written "" before.objects)
    (batches : List (List PersistedRecord)) : ContentNamed "" before.objects batches := by
  have hlengths : ∀ bytes ∈ groups.map Prod.snd, ∀ bytes' ∈ groups.map Prod.snd,
      bytes.length = bytes'.length → bytes = bytes' := by decide
  refine ContentNamed.of_lengths ?_ hwritten batches
  intro records bytes h records' bytes' h'
  exact hlengths bytes (ParquetFormat.mem_of_ofTable _ h) bytes' (ParquetFormat.mem_of_ofTable _ h')

/-- An empty archive is one the sink wrote. -/
theorem written_empty : Written "" (∅ : Objects) := by
  intro path bytes hpath
  simp at hpath

/-- The first run leaves its records in the archive. -/
theorem stored_earlier : Written "" earlier.store.objects ∧
    (stored earlier.store.objects).Perm (checkpoint :: snapshot ++ [other]) := by
  have hempty : stored (∅ : Objects) = [] := by simp [stored]
  have hrun := stored_of_clean_run (s := earlier) rfl earlier_returned written_empty
    (contentNamed written_empty _) (by rw [hempty, earlier_sent]; decide)
  rw [hempty, earlier_sent] at hrun
  exact hrun

end TwoRuns

open TwoRuns in
attribute [local instance] TwoRuns.format manifests gregorian properPaths in
/-- Two clean runs of the sink, and the book of the asset from what they stored. -/
theorem clean_run_reconstructs_two : ∃ records : List PersistedRecord,
    records.Perm (checkpoint :: snapshot ++ [other] ++ [change, trade, warning]) ∧
      reconstructAt (parquetReader later.store.objects "" fun _ => OneCheckpoint.inOrder) "7"
          7200000000 1700003400000000 .recvTime =
        (PolyBook.reconstructAt 7200000000 "7" 1700003400000000 .recvTime records).mapError
          .rebuild := by
  obtain ⟨hwritten, hstored⟩ := stored_earlier
  have hall : ∀ tail, (stored earlier.store.objects ++ tail).Perm
      (checkpoint :: snapshot ++ [other] ++ tail) := fun tail => hstored.append_right tail
  obtain ⟨records, hrecords, hfits, -⟩ := clean_run_reconstructs (s := later) rfl later_returned
    hwritten (contentNamed hwritten _) (by rw [(hall _).nodup_iff, later_sent]; decide)
    (fun _ => OneCheckpoint.inOrder) (show "7" ≠ "" by decide)
    (show minPlausiblePartitionUs ≤ 1700003400000000 - 7200000000 by decide)
    (show 1700003400000000 ≤ maxPlausiblePartitionUs by decide) .recvTime
  rw [later_sent] at hrecords
  have hperm := hrecords.trans (hall _)
  refine ⟨records, hperm, hfits (readsFit_of_length_le ?_ _ _ _)⟩
  rw [hperm.length_eq]
  decide

end PolyBook.Archive
