import PolyBook.RecoveryReaders
import PolyBook.ReplayEngine
import PolyBook.WriteBatch

/-!
# Looking up the latest checkpoints

Hydration asks for the latest checkpoint of many assets at once.  The reader lists the
checkpoint dataset a single time, hands every object to the first asset of the list
whose key it matches, and walks the hours of each asset from the newest on until it
finds a checkpoint.

An asset that an earlier entry of the list stands for finds nothing:
`answers_iff` says when the lookup gives what it should.
-/

namespace PolyBook.CheckpointLookup

open Wal Publication ParquetRecordWriter

/-! ## The reader -/

section Reader

variable [ParquetFormat]

/-- `extract_checkpoints` from the beginning of time to the bound. -/
def checkpointQuery (assetId : AssetId) (atUs : Nat) : Query BookCheckpoint where
  allAssets := false
  extractor records := .ok (records.filterMap (extractCheckpoint assetId 0 atUs))

/-- The order in which concurrent reads of some objects complete. -/
structure Completion where
  order : List String → List String
  perm : ∀ files, (order files).Perm files

variable {T : Type}

/-- `read_parquet_file`. -/
def readParquetFile (query : Query T) (objects : Objects) (path : String) :
    Except Publication.ReplayError (List T) :=
  match objects[path]? with
  | none => .error (.notFound path)
  | some bytes => readContent query bytes

/-- The fold of `read_parquet_files` over the objects as they complete. -/
def collect (query : Query T) (objects : Objects) :
    (files : List String) → (rows : List T) → Except Publication.ReplayError (List T)
  | [], rows => .ok rows
  | path :: files, rows =>
      match readParquetFile query objects path with
      | .error e => .error e
      | .ok batch =>
          if maxParquetDatasetRows < rows.length + batch.length then .error tooManyRows
          else collect query objects files (rows ++ batch)

/-- `read_parquet_files`. -/
def readParquetFiles (completion : Completion) (query : Query T) (objects : Objects)
    (files : List String) : Except Publication.ReplayError (List T) :=
  collect query objects (completion.order files) []

/-- The objects of an asset by their hours, the earliest hour first. -/
abbrev Inventory := List (String × List String)

variable [Chrono] (objects : Objects) (basePath : String) (assetIds : List AssetId) (atUs : Nat)

/-- The hour of the bound. -/
def atHour : String := hourText (timestampOrDefault atUs)

/-- The directory of the checkpoints. -/
def datasetPrefix : String := childPath basePath "book_checkpoints"

/-- The asset an object is handed to, and its hour. -/
def placed (path : String) : Option (Nat × String) := do
  let fileName ← filename path
  let assetIndex ← (assetIds.map storageKeyFor).findIdx? (storageObjectFileMatchesAsset fileName)
  let relative ← stripPrefix ((datasetPrefix basePath).toList ++ ['/']) path.toList
  let (hourKey, _) ← rsplitOnce '/' relative
  let hourKey := String.ofList hourKey
  if hourKey.utf8ByteSize = "YYYY/MM/DD/HH".utf8ByteSize ∧ hourKey ≤ atHour atUs then
    some (assetIndex, hourKey)
  else none

/-- `checkpoint_files_by_asset_and_hour`. -/
def checkpointFilesByAssetAndHour : List Inventory :=
  (listBelow objects (datasetPrefix basePath)).foldl (fun byAsset path =>
      match placed basePath assetIds atUs path with
      | none => byAsset
      | some (assetIndex, hourKey) => byAsset.modify assetIndex (Grouping.push hourKey path))
    (List.replicate assetIds.length [])

variable (completion : Completion)

/-- The walk over the hours of an asset, the newest first. -/
def latestIn (assetId : AssetId) :
    Inventory → Except Publication.ReplayError (Option BookCheckpoint)
  | [] => .ok none
  | (_, files) :: hours =>
      match readParquetFiles completion (checkpointQuery assetId atUs) objects files with
      | .error e => .error e
      | .ok checkpoints =>
          match (sortByKey (·.checkpointTimestampUs) checkpoints).getLast? with
          | some checkpoint => .ok (some checkpoint)
          | none => latestIn assetId hours

/-- The loop over the assets. -/
def latestOf : List (AssetId × Inventory) →
    Except Publication.ReplayError (List (Option BookCheckpoint))
  | [] => .ok []
  | (assetId, byHour) :: rest =>
      match latestIn objects atUs completion assetId byHour.reverse with
      | .error e => .error e
      | .ok found =>
          match latestOf rest with
          | .error e => .error e
          | .ok latest => .ok (found :: latest)

/-- `ParquetReader::read_latest_checkpoints`. -/
def readLatestCheckpoints : Except Publication.ReplayError (List (Option BookCheckpoint)) :=
  latestOf objects atUs completion
    (assetIds.zip (checkpointFilesByAssetAndHour objects basePath assetIds atUs))

/-- `ParquetReader::read_latest_checkpoint`. -/
def readLatestCheckpoint (assetId : AssetId) :
    Except Publication.ReplayError (Option BookCheckpoint) :=
  match readLatestCheckpoints objects basePath [assetId] atUs completion with
  | .error e => .error e
  | .ok latest => .ok latest.getLast?.join

end Reader

/-! ## What the writer stored -/

section Stored

variable [ParquetFormat] [Chrono]

/-- Objects whose checkpoint dataset the writer has written, with plausible timestamps. -/
structure CheckpointStore (basePath : String) where
  objects : Objects
  written : ∀ path bytes, objects[path]? = some bytes →
    isBelow (datasetPrefix basePath) path = true →
      ∃ buffer key, GroupObject basePath buffer key path bytes ∧
        ∀ record ∈ groupRecords buffer key,
          minPlausiblePartitionUs ≤ record.partitionTimestampUs ∧
            record.partitionTimestampUs ≤ maxPlausiblePartitionUs

variable {basePath : String} (store : CheckpointStore basePath)

/-- The checkpoint lies in an object of the dataset. -/
def Stored (checkpoint : BookCheckpoint) : Prop :=
  ∃ path bytes records, store.objects[path]? = some bytes ∧
    isBelow (datasetPrefix basePath) path = true ∧
    ParquetFormat.decode bytes = .ok records ∧ .checkpoint checkpoint ∈ records

/-- A stored checkpoint of the asset with the greatest timestamp not after the bound. -/
structure Latest (assetId : AssetId) (atUs : Nat) (checkpoint : BookCheckpoint) : Prop where
  stored : Stored store checkpoint
  asset : checkpoint.assetId = assetId
  due : checkpoint.checkpointTimestampUs ≤ atUs
  greatest : ∀ other, Stored store other → other.assetId = assetId →
    other.checkpointTimestampUs ≤ atUs →
      other.checkpointTimestampUs ≤ checkpoint.checkpointTimestampUs

/-- What a lookup should give: a latest checkpoint as it is stored, or nothing when
there is none. -/
def IsLatest (assetId : AssetId) (atUs : Nat) : Option BookCheckpoint → Prop
  | none => ∀ checkpoint, ¬Latest store assetId atUs checkpoint
  | some found => ∃ checkpoint, Latest store assetId atUs checkpoint ∧ checkpoint.asStored = found

/-- An object of the dataset: the checkpoints of one asset in one hour. -/
structure CheckpointFile (basePath path : String) (bytes : Bytes) (assetId : AssetId)
    (hour : Nat) (checkpoints : List BookCheckpoint) : Prop where
  decoded : ParquetFormat.decode bytes = .ok (checkpoints.map .checkpoint)
  asset : ∀ c ∈ checkpoints, c.assetId = assetId
  inHour : ∀ c ∈ checkpoints, c.checkpointTimestampUs / hourUs = hour
  inRange : ∀ c ∈ checkpoints, minPlausiblePartitionUs ≤ c.checkpointTimestampUs ∧
    c.checkpointTimestampUs ≤ maxPlausiblePartitionUs
  hour_lt : hour < fourDigitHours
  located : ∃ ts hash len, path.toList = (datasetPrefix basePath).toList ++ '/' ::
    ((hourText ((hour : Int) * 3600)).toList ++ '/' ::
      (objectFileName (storageKeyFor assetId) ts hash len).toList)

omit [ParquetFormat] [Chrono] in
/-- Only checkpoints are in the checkpoint dataset. -/
theorem exists_checkpoint {record : PersistedRecord} (h : record.datasetName = "book_checkpoints") :
    ∃ c, record = .checkpoint c := by
  cases record with
  | checkpoint c => exact ⟨c, rfl⟩
  | book e => exact absurd h (by simp [PersistedRecord.datasetName])
  | trade e => exact absurd h (by simp [PersistedRecord.datasetName])
  | ingest e => exact absurd h (by simp [PersistedRecord.datasetName])
  | validation e => exact absurd h (by simp [PersistedRecord.datasetName])

omit [ParquetFormat] [Chrono] in
/-- Records of the checkpoint dataset are checkpoints. -/
theorem exists_checkpoints {records : List PersistedRecord}
    (h : ∀ record ∈ records, record.datasetName = "book_checkpoints") :
    ∃ checkpoints : List BookCheckpoint, records = checkpoints.map .checkpoint := by
  induction records with
  | nil => exact ⟨[], rfl⟩
  | cons record records ih =>
      obtain ⟨c, rfl⟩ := exists_checkpoint (h record List.mem_cons_self)
      obtain ⟨checkpoints, rfl⟩ := ih fun r hr => h r (List.mem_cons_of_mem _ hr)
      exact ⟨c :: checkpoints, rfl⟩

/-- **The objects of the dataset.** -/
theorem CheckpointStore.file {path : String} {bytes : Bytes}
    (hpath : store.objects[path]? = some bytes)
    (hbelow : isBelow (datasetPrefix basePath) path = true) :
    ∃ assetId hour checkpoints, CheckpointFile basePath path bytes assetId hour checkpoints := by
  obtain ⟨buffer, key, hobject, hranges⟩ := store.written path bytes hpath hbelow
  have hholds := hobject.holds
  obtain ⟨first, rest, fileName, hrecords, hencode, rfl⟩ := hobject.encoded
  have hfirst : first ∈ groupRecords buffer key := hrecords ▸ List.mem_cons_self
  have hkey : groupKeyOf first = key := key_of_mem hfirst
  have hrange := hranges first hfirst
  have hhour : ∀ record ∈ groupRecords buffer key,
      record.partitionTimestampUs / hourUs = first.partitionTimestampUs / hourUs := by
    intro record hr
    have hsame := congrArg GroupKey.hour ((key_of_mem hr).trans hkey.symm)
    rw [groupKeyOf, groupKeyOf, partitionHourKey, partitionHourKey, if_pos (hranges record hr),
      if_pos hrange] at hsame
    exact HourKey.hour.inj hsame
  obtain ⟨start, hstart⟩ := toList_childPath basePath
  have htext : (groupPath basePath key fileName).toList =
      start ++ (key.dataset.toList ++ '/' :: (key.hour.text.toList ++ '/' :: fileName.toList)) := by
    rw [groupPath, hstart, toList_components]
  -- The dataset is read off the path.
  have hdataset : key.dataset = "book_checkpoints" := by
    obtain ⟨below, hbelow⟩ := (isBelow_iff _ _).mp hbelow
    rw [htext, datasetPrefix, hstart, List.append_assoc] at hbelow
    have hnotMem : '/' ∉ key.dataset.toList := by
      rw [← hkey]
      exact slash_notMem_datasetName first
    exact String.toList_inj.mp (Separated.append_inj_left hnotMem (by decide)
      (List.append_cancel_left hbelow)).1
  obtain ⟨checkpoints, hcheckpoints⟩ : ∃ checkpoints : List BookCheckpoint,
      (groupRecords buffer key).map PersistedRecord.asStored = checkpoints.map .checkpoint := by
    apply exists_checkpoints
    intro record hr
    obtain ⟨written, hwritten, rfl⟩ := List.mem_map.mp hr
    rw [PersistedRecord.datasetName_asStored, ← hdataset, ← key_of_mem hwritten]
    rfl
  have hmem : ∀ c ∈ checkpoints, ∃ record ∈ groupRecords buffer key,
      record.asStored = .checkpoint c := by
    intro c hc
    apply List.mem_map.mp
    rw [hcheckpoints]
    exact List.mem_map_of_mem hc
  have htimestamp : ∀ c ∈ checkpoints, ∃ record ∈ groupRecords buffer key,
      record.partitionTimestampUs = c.checkpointTimestampUs := by
    intro c hc
    obtain ⟨record, hrecord, hstored⟩ := hmem c hc
    refine ⟨record, hrecord, ?_⟩
    rw [← PersistedRecord.partitionTimestampUs_asStored, hstored]
    rfl
  refine ⟨first.assetPartition, first.partitionTimestampUs / hourUs, checkpoints, ?_, ?_, ?_, ?_,
    ?_, ?_⟩
  · rw [hholds, hcheckpoints]
  · intro c hc
    obtain ⟨record, hrecord, hstored⟩ := hmem c hc
    have hasset := congrArg GroupKey.asset ((key_of_mem hrecord).trans hkey.symm)
    rw [← groupKeyOf_asStored, hstored] at hasset
    exact storageKeyFor_injective hasset
  · intro c hc
    obtain ⟨record, hrecord, htime⟩ := htimestamp c hc
    exact htime ▸ hhour record hrecord
  · intro c hc
    obtain ⟨record, hrecord, htime⟩ := htimestamp c hc
    exact htime ▸ hranges record hrecord
  · unfold maxPlausiblePartitionUs at hrange
    unfold hourUs fourDigitHours
    omega
  · refine ⟨first.partitionTimestampUs, ParquetFormat.contentHash bytes, bytes.length, ?_⟩
    have hhourKey : key.hour = .hour (first.partitionTimestampUs / hourUs) := by
      rw [← hkey, groupKeyOf, partitionHourKey, if_pos hrange]
    rw [htext, hdataset, hhourKey, (encodeGroup_eq_ok hencode).2, datasetPrefix, hstart,
      List.append_assoc]
    rfl

/-! ## Which asset an object is handed to -/

/-- The id stands for the objects of the asset: it is the asset, or its key is. -/
def standsFor (assetId id : AssetId) : Bool :=
  decide (assetId ≠ "" ∧ (assetId = id ∨ assetId = storageKeyFor id))

variable {path : String} {bytes : Bytes} {assetId id : AssetId} {hour atUs : Nat}
  {checkpoints : List BookCheckpoint} {assetIds : List AssetId}

/-- **Where an object is handed to**: to the first id that stands for its asset, unless
its hour is past the bound's. -/
theorem placed_eq (h : CheckpointFile basePath path bytes assetId hour checkpoints) :
    placed basePath assetIds atUs path =
      (assetIds.findIdx? (standsFor assetId)).bind fun assetIndex =>
        if hourText ((hour : Int) * 3600) ≤ atHour atUs then
          some (assetIndex, hourText ((hour : Int) * 3600))
        else none := by
  obtain ⟨ts, hash, len, htext⟩ := h.located
  have hslash := slash_notMem_objectFileName assetId ts hash len
  generalize hname : objectFileName (storageKeyFor assetId) ts hash len = name at htext hslash
  have hne : path.isEmpty = false := by
    rw [Bool.eq_false_iff]
    intro hempty
    rw [String.isEmpty_iff.mp hempty] at htext
    simp at htext
  have hfilename : filename path = some name := by
    have hcut : path.toList = ((datasetPrefix basePath).toList ++ '/' ::
        (hourText ((hour : Int) * 3600)).toList) ++ '/' :: name.toList := by
      rw [htext, List.append_assoc, List.cons_append]
    rw [filename, hne, hcut, Separated.last_append hslash, String.ofList_toList]
    rfl
  have hindex : (assetIds.map storageKeyFor).findIdx? (storageObjectFileMatchesAsset name) =
      assetIds.findIdx? (standsFor assetId) := by
    rw [List.findIdx?_map]
    congr 1
    funext id
    rw [Function.comp_apply, Bool.eq_iff_iff, ← hname, storageObjectFileMatchesAsset_any_iff,
      standsFor, decide_eq_true_iff]
  have hrelative : stripPrefix ((datasetPrefix basePath).toList ++ ['/']) path.toList =
      some ((hourText ((hour : Int) * 3600)).toList ++ '/' :: name.toList) := by
    have hcut : path.toList = ((datasetPrefix basePath).toList ++ ['/']) ++
        ((hourText ((hour : Int) * 3600)).toList ++ '/' :: name.toList) := by
      rw [htext, List.append_assoc, List.singleton_append]
    rw [hcut, stripPrefix_append]
  have hsize : (hourText ((hour : Int) * 3600)).utf8ByteSize = "YYYY/MM/DD/HH".utf8ByteSize :=
    utf8ByteSize_hourText h.hour_lt
  simp only [placed, hfilename, hindex, hrelative, rsplitOnce_append hslash, Option.bind_eq_bind,
    Option.bind_some, String.ofList_toList, hsize, true_and]

/-! ## What is read of some objects -/

/-- The rows of an object that a lookup takes. -/
def rowsOf (objects : Objects) (id : AssetId) (atUs : Nat) (path : String) : List BookCheckpoint :=
  match objects[path]? with
  | none => []
  | some bytes =>
      match ParquetFormat.decode bytes with
      | .error _ => []
      | .ok records => records.filterMap (extractCheckpoint id 0 atUs)

/-- The object is there and can be decoded. -/
def Readable (objects : Objects) (path : String) : Prop :=
  ∃ bytes records, objects[path]? = some bytes ∧ ParquetFormat.decode bytes = .ok records

variable {objects : Objects}

omit [Chrono] in
/-- A readable file gives its rows, unless there are too many. -/
theorem readParquetFile_eq (h : Readable objects path) :
    readParquetFile (checkpointQuery id atUs) objects path =
      if maxParquetDatasetRows < (rowsOf objects id atUs path).length then .error tooManyRows
      else .ok (rowsOf objects id atUs path) := by
  obtain ⟨bytes, records, hbytes, hdecode⟩ := h
  simp only [readParquetFile, hbytes, readContent, hdecode, checkpointQuery, rowsOf]

omit [Chrono] in
/-- Readable files give their rows, unless there are too many. -/
theorem collect_eq {files : List String} (h : ∀ path ∈ files, Readable objects path)
    {rows : List BookCheckpoint} (hrows : rows.length ≤ maxParquetDatasetRows) :
    collect (checkpointQuery id atUs) objects files rows =
      if maxParquetDatasetRows < (rows ++ files.flatMap (rowsOf objects id atUs)).length then
        .error tooManyRows
      else .ok (rows ++ files.flatMap (rowsOf objects id atUs)) := by
  induction files generalizing rows with
  | nil =>
      rw [List.flatMap_nil, List.append_nil, if_neg (Nat.not_lt.mpr hrows)]
      rfl
  | cons path files ih =>
      have hrest : ∀ path ∈ files, Readable objects path := fun p hp =>
        h p (List.mem_cons_of_mem _ hp)
      rw [collect, readParquetFile_eq (h path List.mem_cons_self), List.flatMap_cons]
      by_cases hfile : maxParquetDatasetRows < (rowsOf objects id atUs path).length
      · have htotal : maxParquetDatasetRows < (rows ++ (rowsOf objects id atUs path ++
            files.flatMap (rowsOf objects id atUs))).length := by
          simp only [List.length_append]
          omega
        rw [if_pos hfile, if_pos htotal]
      · rw [if_neg hfile]
        dsimp only
        by_cases hsum : maxParquetDatasetRows < rows.length + (rowsOf objects id atUs path).length
        · have htotal : maxParquetDatasetRows < (rows ++ (rowsOf objects id atUs path ++
              files.flatMap (rowsOf objects id atUs))).length := by
            simp only [List.length_append]
            omega
          rw [if_pos hsum, if_pos htotal]
        · rw [if_neg hsum, ih hrest (by rw [List.length_append]; omega), List.append_assoc]

omit [Chrono] in
/-- **What is read of some objects**: their rows in some order, unless they are too many. -/
theorem readParquetFiles_eq (completion : Completion) (id : AssetId) (atUs : Nat)
    {files : List String} (h : ∀ path ∈ files, Readable objects path) :
    ∃ rows, rows.Perm (files.flatMap (rowsOf objects id atUs)) ∧
      readParquetFiles completion (checkpointQuery id atUs) objects files =
        if maxParquetDatasetRows < (files.flatMap (rowsOf objects id atUs)).length then
          .error tooManyRows
        else .ok rows := by
  have hperm := completion.perm files
  have hrows := hperm.flatMap_right (rowsOf objects id atUs)
  refine ⟨_, hrows, ?_⟩
  rw [readParquetFiles, collect_eq (fun path hp => h path (hperm.mem_iff.mp hp)) (Nat.zero_le _),
    List.nil_append, hrows.length_eq]

/-! ## The walk over the hours -/

omit [ParquetFormat] [Chrono] in
/-- The last of some sorted checkpoints has the greatest timestamp. -/
theorem getLast?_sortByKey {rows rows' : List BookCheckpoint} (hperm : rows.Perm rows')
    (hne : rows' ≠ []) :
    ∃ c ∈ rows', (sortByKey (·.checkpointTimestampUs) rows).getLast? = some c ∧
      ∀ d ∈ rows', d.checkpointTimestampUs ≤ c.checkpointTimestampUs := by
  have hsort : (sortByKey (·.checkpointTimestampUs) rows).Perm rows' :=
    (List.perm_insertionSort _ rows).trans hperm
  have hsorted : (sortByKey (·.checkpointTimestampUs) rows).Pairwise
      fun c d => c.checkpointTimestampUs ≤ d.checkpointTimestampUs :=
    List.pairwise_insertionSort _ rows
  generalize sortByKey (·.checkpointTimestampUs) rows = sorted at hsort hsorted
  have hsortedNe : sorted ≠ [] := by
    rintro rfl
    exact hne (List.nil_perm.mp hsort)
  obtain ⟨front, c, rfl⟩ := (List.eq_nil_or_concat sorted).resolve_left hsortedNe
  refine ⟨c, hsort.mem_iff.mp (by simp), by simp, ?_⟩
  intro d hd
  rw [List.concat_eq_append, List.pairwise_append] at hsorted
  have hmem := hsort.mem_iff.mpr hd
  rw [List.concat_eq_append, List.mem_append, List.mem_singleton] at hmem
  rcases hmem with hfront | rfl
  · exact hsorted.2.2 d hfront c List.mem_cons_self
  · exact Nat.le_refl _

variable (completion : Completion)

omit [Chrono] in
/-- Hours without rows are passed over. -/
theorem latestIn_append {newer : Inventory}
    (hreadable : ∀ group ∈ newer, ∀ path ∈ group.2, Readable objects path)
    (hnone : ∀ group ∈ newer, group.2.flatMap (rowsOf objects id atUs) = []) (older : Inventory) :
    latestIn objects atUs completion id (newer ++ older) =
      latestIn objects atUs completion id older := by
  induction newer with
  | nil => rfl
  | cons group newer ih =>
      obtain ⟨hourKey, files⟩ := group
      obtain ⟨rows, hperm, hread⟩ := readParquetFiles_eq completion id atUs
        (hreadable _ List.mem_cons_self)
      have hfiles : files.flatMap (rowsOf objects id atUs) = [] := hnone _ List.mem_cons_self
      rw [hfiles] at hperm hread
      rw [List.perm_nil.mp hperm] at hread
      rw [List.cons_append, latestIn, hread]
      exact ih (fun g hg => hreadable g (List.mem_cons_of_mem _ hg))
        fun g hg => hnone g (List.mem_cons_of_mem _ hg)

omit [Chrono] in
/-- **The first hour with rows decides.** -/
theorem latestIn_found {files : List String} (hreadable : ∀ path ∈ files, Readable objects path)
    (hne : files.flatMap (rowsOf objects id atUs) ≠ []) (hourKey : String) (older : Inventory) :
    ∃ c ∈ files.flatMap (rowsOf objects id atUs),
      (∀ d ∈ files.flatMap (rowsOf objects id atUs),
        d.checkpointTimestampUs ≤ c.checkpointTimestampUs) ∧
      latestIn objects atUs completion id ((hourKey, files) :: older) =
        if maxParquetDatasetRows < (files.flatMap (rowsOf objects id atUs)).length then
          .error tooManyRows
        else .ok (some c) := by
  obtain ⟨rows, hperm, hread⟩ := readParquetFiles_eq completion id atUs hreadable
  obtain ⟨c, hc, hlast, hgreatest⟩ := getLast?_sortByKey hperm hne
  refine ⟨c, hc, hgreatest, ?_⟩
  rw [latestIn, hread]
  by_cases hmany : maxParquetDatasetRows < (files.flatMap (rowsOf objects id atUs)).length
  · rw [if_pos hmany, if_pos hmany]
  · rw [if_neg hmany, if_neg hmany]
    dsimp only
    rw [hlast]

/-! ## The loop over the assets -/

omit [Chrono] in
/-- The lookups of all assets succeed one by one. -/
theorem latestOf_eq_ok {pairs : List (AssetId × Inventory)}
    {latest : List (Option BookCheckpoint)} :
    latestOf objects atUs completion pairs = .ok latest ↔
      List.Forall₂ (fun pair found =>
        latestIn objects atUs completion pair.1 pair.2.reverse = .ok found) pairs latest := by
  induction pairs generalizing latest with
  | nil => simp [latestOf, eq_comm]
  | cons pair pairs ih =>
      obtain ⟨assetId, byHour⟩ := pair
      rw [latestOf]
      cases hfound : latestIn objects atUs completion assetId byHour.reverse with
      | error e => simp [List.forall₂_cons_left_iff, hfound]
      | ok found =>
          cases hrest : latestOf objects atUs completion pairs with
          | error e =>
              have hnone : ∀ latest, ¬List.Forall₂ (fun pair found =>
                  latestIn objects atUs completion pair.1 pair.2.reverse = .ok found)
                    pairs latest := by
                intro latest h
                rw [ih.mpr h] at hrest
                cases hrest
              simp [List.forall₂_cons_left_iff, hnone]
          | ok rest =>
              have hsame : ∀ latest, List.Forall₂ (fun pair found =>
                  latestIn objects atUs completion pair.1 pair.2.reverse = .ok found)
                    pairs latest ↔ rest = latest := by
                intro latest
                rw [← ih, hrest, Except.ok.injEq]
              simp only [Except.ok.injEq, List.forall₂_cons_left_iff, hfound, hsame]
              constructor
              · rintro rfl
                exact ⟨found, rest, rfl, rfl, rfl⟩
              · rintro ⟨_, _, rfl, rfl, rfl⟩
                rfl

/-! ## The objects of a position -/

/-- What the inventory has at a position: for each hour the objects handed to it. -/
structure IsInventory (assetIds : List AssetId) (atUs i : Nat) (byHour : Inventory) : Prop where
  sorted : Grouping.Sorted byHour
  files : ∀ hourKey files, (hourKey, files) ∈ byHour →
    files = (listBelow store.objects (datasetPrefix basePath)).filter fun path =>
      decide (placed basePath assetIds atUs path = some (i, hourKey))
  complete : ∀ path ∈ listBelow store.objects (datasetPrefix basePath), ∀ hourKey,
    placed basePath assetIds atUs path = some (i, hourKey) → ∃ files, (hourKey, files) ∈ byHour

omit [ParquetFormat] in
/-- The inventory files each path under its asset and hour. -/
theorem inventory_eq_dispatch (objects : Objects) (basePath : String) (assetIds : List AssetId)
    (atUs : Nat) : checkpointFilesByAssetAndHour objects basePath assetIds atUs =
      Grouping.dispatch (placed basePath assetIds atUs) (List.replicate assetIds.length [])
        (listBelow objects (datasetPrefix basePath)) := by
  unfold checkpointFilesByAssetAndHour Grouping.dispatch
  congr 1
  funext byAsset path
  cases placed basePath assetIds atUs path <;> rfl

/-- Every asset asked for has an inventory. -/
theorem exists_inventory (assetIds : List AssetId) (atUs : Nat) {i : Nat}
    (hi : i < assetIds.length) :
    ∃ byHour, (checkpointFilesByAssetAndHour store.objects basePath assetIds atUs)[i]? =
      some byHour ∧ IsInventory store assetIds atUs i byHour := by
  let place := placed basePath assetIds atUs
  let keyOf := fun path => ((place path).map Prod.snd).getD ""
  have hkey : ∀ path i key, place path = some (i, key) → keyOf path = key := by
    intro path i key h
    simp [keyOf, h]
  have hdispatch := Grouping.getElem?_dispatch hkey (List.replicate assetIds.length [])
    (listBelow store.objects (datasetPrefix basePath)) i
  have hgrouping := Grouping.isGrouping_foldl keyOf
    ((listBelow store.objects (datasetPrefix basePath)).filter fun path =>
      (place path).any fun p => p.1 == i)
  rw [← inventory_eq_dispatch, List.getElem?_replicate, if_pos hi, Option.map_some] at hdispatch
  have hplaced : ∀ path key, place path = some (i, key) ↔
      ((place path).any fun p => p.1 == i) = true ∧ keyOf path = key := by
    intro path key
    cases h : place path with
    | none => simp
    | some p => simp [keyOf, h, Prod.ext_iff]
  refine ⟨_, hdispatch, hgrouping.sorted, ?_, ?_⟩
  · intro hourKey files hmem
    rw [(hgrouping.elements _ _ hmem).1, List.filter_filter]
    apply List.filter_congr
    intro path _
    rw [Bool.eq_iff_iff, Bool.and_eq_true, decide_eq_true_iff, decide_eq_true_iff, and_comm]
    exact (hplaced path hourKey).symm
  · intro path hpath hourKey h
    obtain ⟨hany, rfl⟩ := (hplaced path hourKey).mp h
    exact hgrouping.complete path (List.mem_filter.mpr ⟨hpath, hany⟩)

/-- The objects of the dataset. -/
theorem file_of_mem (h : path ∈ listBelow store.objects (datasetPrefix basePath)) :
    ∃ bytes assetId hour checkpoints, store.objects[path]? = some bytes ∧
      CheckpointFile basePath path bytes assetId hour checkpoints := by
  obtain ⟨hsome, hbelow⟩ := mem_listBelow.mp h
  obtain ⟨bytes, hbytes⟩ := Option.isSome_iff_exists.mp hsome
  obtain ⟨assetId, hour, checkpoints, hfile⟩ := store.file hbytes hbelow
  exact ⟨bytes, assetId, hour, checkpoints, hbytes, hfile⟩

/-- A file of the archive is readable. -/
theorem readable_of_mem (h : path ∈ listBelow store.objects (datasetPrefix basePath)) :
    Readable store.objects path := by
  obtain ⟨bytes, assetId, hour, checkpoints, hbytes, hfile⟩ := file_of_mem store h
  exact ⟨bytes, _, hbytes, hfile.decoded⟩

/-- The rows a lookup takes of an object. -/
theorem mem_rowsOf (hbytes : objects[path]? = some bytes)
    (hfile : CheckpointFile basePath path bytes assetId hour checkpoints) {c : BookCheckpoint} :
    c ∈ rowsOf objects id atUs path ↔
      ∃ d ∈ checkpoints, d.assetId = id ∧ d.checkpointTimestampUs ≤ atUs ∧ d.asStored = c := by
  simp only [rowsOf, hbytes, hfile.decoded, List.mem_filterMap, List.mem_map,
    exists_exists_and_eq_and, extractCheckpoint, Nat.zero_le, true_and]
  constructor
  · rintro ⟨d, hd, hrow⟩
    split at hrow
    · rename_i hdue
      exact ⟨d, hd, hdue.2, hdue.1, Option.some.inj hrow⟩
    · cases hrow
  · rintro ⟨d, hd, hasset, hdue, rfl⟩
    exact ⟨d, hd, if_pos ⟨hdue, hasset⟩⟩

/-- The hour of a checkpoint, as the text of its directory. -/
theorem CheckpointFile.hourKey_eq (h : CheckpointFile basePath path bytes assetId hour checkpoints)
    {c : BookCheckpoint} (hc : c ∈ checkpoints) :
    partitionHourKeyText c.checkpointTimestampUs = hourText ((hour : Int) * 3600) := by
  rw [partitionHourKeyText_eq (h.inRange c hc), h.inHour c hc]

/-- A row is a checkpoint of the asset, in the hour of its object. -/
theorem stored_of_mem_rowsOf (h : path ∈ listBelow store.objects (datasetPrefix basePath))
    {c : BookCheckpoint} (hc : c ∈ rowsOf store.objects id atUs path) :
    ∃ d bytes hour checkpoints, d ∈ checkpoints ∧ Stored store d ∧ d.assetId = id ∧
      d.checkpointTimestampUs ≤ atUs ∧ d.asStored = c ∧
      CheckpointFile basePath path bytes id hour checkpoints := by
  obtain ⟨bytes, assetId, hour, checkpoints, hbytes, hfile⟩ := file_of_mem store h
  obtain ⟨d, hd, hasset, hdue, heq⟩ := (mem_rowsOf hbytes hfile).mp hc
  have hown : assetId = id := (hfile.asset d hd).symm.trans hasset
  subst hown
  exact ⟨d, bytes, hour, checkpoints, hd, ⟨path, bytes, _, hbytes, (mem_listBelow.mp h).2,
    hfile.decoded, List.mem_map_of_mem hd⟩, hasset, hdue, heq, hfile⟩

/-- A due checkpoint has a latest one. -/
theorem exists_latest {d : BookCheckpoint} (hstored : Stored store d) (hasset : d.assetId = id)
    (hdue : d.checkpointTimestampUs ≤ atUs) : ∃ c, Latest store id atUs c := by
  classical
  let P := fun ts => ∃ e, Stored store e ∧ e.assetId = id ∧ e.checkpointTimestampUs = ts
  have hd : P d.checkpointTimestampUs := ⟨d, hstored, hasset, rfl⟩
  obtain ⟨c, hc, hown, hts⟩ := Nat.findGreatest_spec hdue hd
  have hle := Nat.findGreatest_le (P := P) atUs
  refine ⟨c, hc, hown, by omega, ?_⟩
  intro e he heown hedue
  rw [hts]
  exact Nat.le_findGreatest hedue ⟨e, he, heown, rfl⟩

/-- The latest checkpoints of an asset have one timestamp. -/
theorem Latest.timestamp_unique {store : CheckpointStore basePath} {c c' : BookCheckpoint}
    (h : Latest store id atUs c)
    (h' : Latest store id atUs c') : c.checkpointTimestampUs = c'.checkpointTimestampUs :=
  Nat.le_antisymm (h'.greatest c h.stored h.asset h.due) (h.greatest c' h'.stored h'.asset h'.due)

/-- The rows that a lookup takes of the objects of an hour. -/
def hourRows (id : AssetId) (atUs : Nat) (hourKey : String) : List BookCheckpoint :=
  (listBelow store.objects (datasetPrefix basePath ++ "/" ++ hourKey)).flatMap
    (rowsOf store.objects id atUs)

/-- What it takes to find a checkpoint of an id behind the earlier ones: the id is not
empty and no earlier one stands for its objects, the bound's hour is not before the
checkpoint's as a text, and the rows of that hour are not too many. -/
structure Findable (atUs : Nat) (earlier : List AssetId) (id : AssetId)
    (checkpoint : BookCheckpoint) : Prop where
  named : id ≠ ""
  first : ∀ a ∈ earlier, a ≠ id ∧ storageKeyFor a ≠ id
  reached : partitionHourKeyText checkpoint.checkpointTimestampUs ≤ atHour atUs
  fits : (hourRows store id atUs
    (partitionHourKeyText checkpoint.checkpointTimestampUs)).length ≤ maxParquetDatasetRows

omit [ParquetFormat] [Chrono] in
/-- The objects of an id are handed to its position when it is named and no earlier id
stands for them. -/
theorem findIdx?_standsFor (earlier later : List AssetId) (id : AssetId) :
    (earlier ++ id :: later).findIdx? (standsFor id) = some earlier.length ↔
      id ≠ "" ∧ ∀ a ∈ earlier, a ≠ id ∧ storageKeyFor a ≠ id := by
  rw [List.findIdx?_eq_some_iff_getElem]
  have hstands : ∀ a, standsFor id a = true ↔ id ≠ "" ∧ (id = a ∨ id = storageKeyFor a) := by
    intro a
    rw [standsFor, decide_eq_true_iff]
  constructor
  · rintro ⟨hlt, hself, hbefore⟩
    rw [List.getElem_append_right (Nat.le_refl _)] at hself
    simp only [Nat.sub_self, List.getElem_cons_zero] at hself
    have hnamed := ((hstands id).mp hself).1
    refine ⟨hnamed, ?_⟩
    intro a ha
    obtain ⟨j, hj, rfl⟩ := List.mem_iff_getElem.mp ha
    have hnot := hbefore j hj
    rw [List.getElem_append_left hj, hstands] at hnot
    grind
  · rintro ⟨hnamed, hfirst⟩
    refine ⟨by simp, ?_, ?_⟩
    · rw [List.getElem_append_right (Nat.le_refl _)]
      simp only [Nat.sub_self, List.getElem_cons_zero]
      exact (hstands id).mpr ⟨hnamed, Or.inl rfl⟩
    · intro j hj
      rw [List.getElem_append_left hj, hstands]
      have hne := hfirst _ (List.getElem_mem hj)
      grind

section Position

variable {store} {i : Nat} {byHour : Inventory} {hourKey : String} {files : List String}

/-- Every file of an inventory is readable. -/
theorem IsInventory.readable (h : IsInventory store assetIds atUs i byHour)
    (hfiles : (hourKey, files) ∈ byHour) : ∀ path ∈ files, Readable store.objects path := by
  intro path hpath
  rw [h.files _ _ hfiles] at hpath
  exact readable_of_mem store (List.mem_filter.mp hpath).1

/-- The rows of an hour of a position: checkpoints of the id, whose objects are handed to
the position. -/
theorem IsInventory.mem_rows (h : IsInventory store assetIds atUs i byHour)
    (hfiles : (hourKey, files) ∈ byHour) {c : BookCheckpoint}
    (hc : c ∈ files.flatMap (rowsOf store.objects id atUs)) :
    ∃ d, Stored store d ∧ d.assetId = id ∧ d.checkpointTimestampUs ≤ atUs ∧ d.asStored = c ∧
      partitionHourKeyText d.checkpointTimestampUs = hourKey ∧ hourKey ≤ atHour atUs ∧
      assetIds.findIdx? (standsFor id) = some i := by
  obtain ⟨path, hpath, hrow⟩ := List.mem_flatMap.mp hc
  rw [h.files _ _ hfiles, List.mem_filter, decide_eq_true_iff] at hpath
  obtain ⟨d, bytes, hour, checkpoints, hd, hstored, hasset, hdue, heq, hfile⟩ :=
    stored_of_mem_rowsOf store hpath.1 hrow
  have hplaced := hpath.2
  rw [placed_eq hfile, Option.bind_eq_some_iff] at hplaced
  obtain ⟨j, hindex, hplaced⟩ := hplaced
  split at hplaced
  · rename_i hle
    obtain ⟨rfl, rfl⟩ := Prod.mk.inj (Option.some.inj hplaced)
    exact ⟨d, hstored, hasset, hdue, heq, hfile.hourKey_eq hd, hle, hindex⟩
  · cases hplaced

/-- A due checkpoint whose hour is reached is among the rows of its position. -/
theorem IsInventory.exists_row (h : IsInventory store assetIds atUs i byHour)
    (hindex : assetIds.findIdx? (standsFor id) = some i) {d : BookCheckpoint}
    (hstored : Stored store d) (hasset : d.assetId = id) (hdue : d.checkpointTimestampUs ≤ atUs)
    (hreached : partitionHourKeyText d.checkpointTimestampUs ≤ atHour atUs) :
    ∃ files, (partitionHourKeyText d.checkpointTimestampUs, files) ∈ byHour ∧
      d.asStored ∈ files.flatMap (rowsOf store.objects id atUs) := by
  obtain ⟨path, bytes, records, hbytes, hbelow, hdecode, hmem⟩ := hstored
  have hlisted : path ∈ listBelow store.objects (datasetPrefix basePath) := by
    rw [mem_listBelow, hbytes]
    exact ⟨rfl, hbelow⟩
  obtain ⟨assetId, hour, checkpoints, hfile⟩ := store.file hbytes hbelow
  rw [hfile.decoded, Except.ok.injEq] at hdecode
  rw [← hdecode] at hmem
  obtain ⟨d', hd, heq⟩ := List.mem_map.mp hmem
  obtain rfl := PersistedRecord.checkpoint.inj heq
  have hown : assetId = id := (hfile.asset d' hd).symm.trans hasset
  subst hown
  have hplaced : placed basePath assetIds atUs path =
      some (i, partitionHourKeyText d'.checkpointTimestampUs) := by
    rw [hfile.hourKey_eq hd] at hreached ⊢
    rw [placed_eq hfile, hindex, Option.bind_some, if_pos hreached]
  obtain ⟨files, hfiles⟩ := h.complete path hlisted _ hplaced
  refine ⟨files, hfiles, List.mem_flatMap.mpr ⟨path, ?_, ?_⟩⟩
  · rw [h.files _ _ hfiles, List.mem_filter, decide_eq_true_iff]
    exact ⟨hlisted, hplaced⟩
  · exact (mem_rowsOf hbytes hfile).mpr ⟨d', hd, hasset, hdue, rfl⟩

omit [ParquetFormat] [Chrono] in
/-- Only elements that give something have to be kept alike. -/
theorem flatMap_filter_congr {α β : Type} {f : α → List β} {p q : α → Bool} {xs : List α}
    (h : ∀ x ∈ xs, f x ≠ [] → p x = q x) : (xs.filter p).flatMap f = (xs.filter q).flatMap f := by
  induction xs with
  | nil => rfl
  | cons x xs ih =>
      have hrest := ih fun y hy => h y (List.mem_cons_of_mem _ hy)
      by_cases hx : f x = []
      · rw [List.filter_cons, List.filter_cons]
        cases p x <;> cases q x <;> simp [hx, hrest]
      · rw [List.filter_cons, List.filter_cons, h x List.mem_cons_self hx]
        cases q x <;> simp [hrest]

/-- A stored checkpoint is dated in the plausible range. -/
theorem Stored.inRange {d : BookCheckpoint} (h : Stored store d) :
    minPlausiblePartitionUs ≤ d.checkpointTimestampUs ∧
      d.checkpointTimestampUs ≤ maxPlausiblePartitionUs := by
  obtain ⟨path, bytes, records, hbytes, hbelow, hdecode, hmem⟩ := h
  obtain ⟨assetId, hour, checkpoints, hfile⟩ := store.file hbytes hbelow
  rw [hfile.decoded, Except.ok.injEq] at hdecode
  rw [← hdecode] at hmem
  obtain ⟨d', hd, heq⟩ := List.mem_map.mp hmem
  obtain rfl := PersistedRecord.checkpoint.inj heq
  exact hfile.inRange d' hd

omit [ParquetFormat] in
/-- A later hour is not before an earlier one as a text. -/
theorem partitionHourKeyText_mono {t t' : Nat} (hmin : minPlausiblePartitionUs ≤ t) (hle : t ≤ t')
    (hmax : t' ≤ maxPlausiblePartitionUs) : partitionHourKeyText t ≤ partitionHourKeyText t' := by
  have hhour : t' / hourUs < fourDigitHours := by
    unfold maxPlausiblePartitionUs at hmax
    unfold hourUs fourDigitHours
    omega
  rw [partitionHourKeyText_eq ⟨hmin, by omega⟩, partitionHourKeyText_eq ⟨by omega, hmax⟩]
  rcases Nat.lt_or_eq_of_le (Nat.div_le_div_right (c := hourUs) hle) with hlt | heq
  · exact le_of_lt (hourText_lt hlt hhour)
  · rw [heq]

/-- The rows of the hour of a checkpoint, at the position its objects are handed to. -/
theorem IsInventory.rows_eq (h : IsInventory store assetIds atUs i byHour)
    (hindex : assetIds.findIdx? (standsFor id) = some i) {d : BookCheckpoint}
    (hstored : Stored store d)
    (hreached : partitionHourKeyText d.checkpointTimestampUs ≤ atHour atUs)
    (hfiles : (partitionHourKeyText d.checkpointTimestampUs, files) ∈ byHour) :
    files.flatMap (rowsOf store.objects id atUs) =
      hourRows store id atUs (partitionHourKeyText d.checkpointTimestampUs) := by
  have hlength : (partitionHourKeyText d.checkpointTimestampUs).toList.length = 13 := by
    have hrange := hstored.inRange
    rw [partitionHourKeyText_eq hrange]
    apply length_hourText
    unfold maxPlausiblePartitionUs at hrange
    unfold hourUs fourDigitHours
    omega
  rw [h.files _ _ hfiles, hourRows, listBelow, listBelow, List.filter_filter]
  generalize partitionHourKeyText d.checkpointTimestampUs = hourKey at *
  apply flatMap_filter_congr
  intro path hpath hrows
  have hdir : (datasetPrefix basePath ++ "/" ++ hourKey).toList =
      (datasetPrefix basePath).toList ++ '/' :: hourKey.toList := by simp
  rw [Bool.eq_iff_iff, Bool.and_eq_true, decide_eq_true_iff]
  by_cases hbelow : isBelow (datasetPrefix basePath) path = true
  · obtain ⟨c, hc⟩ := List.exists_mem_of_ne_nil _ hrows
    have hlisted : path ∈ listBelow store.objects (datasetPrefix basePath) :=
      List.mem_filter.mpr ⟨hpath, hbelow⟩
    obtain ⟨-, bytes, hour, checkpoints, -, -, -, -, -, hfile⟩ :=
      stored_of_mem_rowsOf store hlisted hc
    obtain ⟨ts, hash, len, htext⟩ := hfile.located
    rw [placed_eq hfile, hindex, Option.bind_some,
      isBelow_iff (datasetPrefix basePath ++ "/" ++ hourKey), htext, hdir]
    have hsame : hourText ((hour : Int) * 3600) = hourKey ↔ ∃ rest,
        (datasetPrefix basePath).toList ++ '/' :: ((hourText ((hour : Int) * 3600)).toList ++
          '/' :: (objectFileName (storageKeyFor id) ts hash len).toList) =
        ((datasetPrefix basePath).toList ++ '/' :: hourKey.toList) ++ '/' :: rest := by
      constructor
      · rintro rfl
        exact ⟨_, by rw [List.append_assoc, List.cons_append]⟩
      · rintro ⟨rest, hrest⟩
        rw [List.append_assoc, List.cons_append] at hrest
        have htail := (List.cons.inj (List.append_cancel_left hrest)).2
        exact String.toList_inj.mp (List.append_inj htail
          ((length_hourText hfile.hour_lt).trans hlength.symm)).1
    rw [← hsame]
    constructor
    · rintro ⟨hplaced, -⟩
      split at hplaced
      · exact (Prod.mk.inj (Option.some.inj hplaced)).2
      · cases hplaced
    · rintro rfl
      exact ⟨if_pos hreached, hbelow⟩
  · have hnot : ¬isBelow (datasetPrefix basePath ++ "/" ++ hourKey) path = true := by
      intro hdeep
      obtain ⟨rest, hrest⟩ := (isBelow_iff _ _).mp hdeep
      rw [hdir, List.append_assoc, List.cons_append] at hrest
      exact hbelow ((isBelow_iff _ _).mpr ⟨_, hrest⟩)
    simp [hbelow, hnot]

/-! ## The lookup of a position -/

omit [Chrono] in
/-- What is found is a row of one of the hours. -/
theorem mem_of_latestIn {hours : Inventory}
    (hreadable : ∀ group ∈ hours, ∀ path ∈ group.2, Readable objects path) {c : BookCheckpoint}
    (h : latestIn objects atUs completion id hours = .ok (some c)) :
    ∃ group ∈ hours, c ∈ group.2.flatMap (rowsOf objects id atUs) := by
  induction hours with
  | nil => cases h
  | cons group hours ih =>
      obtain ⟨hourKey, files⟩ := group
      by_cases hrows : files.flatMap (rowsOf objects id atUs) = []
      · have hread : ∀ group ∈ [(hourKey, files)], ∀ path ∈ group.2, Readable objects path := by
          simpa using hreadable _ List.mem_cons_self
        have hnone : ∀ group ∈ [(hourKey, files)],
            group.2.flatMap (rowsOf objects id atUs) = [] := by
          simpa using hrows
        have hpass := latestIn_append completion hread hnone hours
        rw [List.singleton_append] at hpass
        rw [hpass] at h
        obtain ⟨group, hmem, hc⟩ := ih (fun g hg => hreadable g (List.mem_cons_of_mem _ hg)) h
        exact ⟨group, List.mem_cons_of_mem _ hmem, hc⟩
      · obtain ⟨c', hc', -, hfound⟩ :=
          latestIn_found completion (hreadable _ List.mem_cons_self) hrows hourKey hours
        rw [hfound] at h
        split at h
        · cases h
        · obtain rfl := Option.some.inj (Except.ok.inj h)
          exact ⟨_, List.mem_cons_self, hc'⟩

/-- A position without rows finds nothing. -/
theorem IsInventory.latestIn_none (h : IsInventory store assetIds atUs i byHour)
    (hrows : ∀ group ∈ byHour, group.2.flatMap (rowsOf store.objects id atUs) = []) :
    latestIn store.objects atUs completion id byHour.reverse = .ok none := by
  have hread : ∀ group ∈ byHour.reverse, ∀ path ∈ group.2, Readable store.objects path :=
    fun group hgroup => h.readable (List.mem_reverse.mp hgroup)
  have hnone : ∀ group ∈ byHour.reverse,
      group.2.flatMap (rowsOf store.objects id atUs) = [] :=
    fun group hgroup => hrows group (List.mem_reverse.mp hgroup)
  have hpass := latestIn_append completion hread hnone []
  rw [List.append_nil] at hpass
  exact hpass

/-- **The position that gets the objects finds a latest checkpoint**, unless the rows of
its hour are too many. -/
theorem IsInventory.latestIn_latest (h : IsInventory store assetIds atUs i byHour)
    (hindex : assetIds.findIdx? (standsFor id) = some i) {c : BookCheckpoint}
    (hlatest : Latest store id atUs c)
    (hreached : partitionHourKeyText c.checkpointTimestampUs ≤ atHour atUs) :
    ∃ found, IsLatest store id atUs (some found) ∧
      latestIn store.objects atUs completion id byHour.reverse =
        if maxParquetDatasetRows < (hourRows store id atUs
            (partitionHourKeyText c.checkpointTimestampUs)).length then .error tooManyRows
        else .ok (some found) := by
  obtain ⟨files, hfiles, hrow⟩ := h.exists_row hindex hlatest.stored hlatest.asset hlatest.due
    hreached
  obtain ⟨before, after, hsplit⟩ := List.append_of_mem hfiles
  -- The later hours have no rows: a row there would be later than the latest one.
  have hlater : ∀ group ∈ after, group.2.flatMap (rowsOf store.objects id atUs) = [] := by
    intro group hgroup
    by_contra hne
    obtain ⟨row, hrow⟩ := List.exists_mem_of_ne_nil _ hne
    have hmem : group ∈ byHour := by
      rw [hsplit]
      exact List.mem_append_right _ (List.mem_cons_of_mem _ hgroup)
    obtain ⟨d, hstored, hasset, hdue, -, hkey, -⟩ := h.mem_rows hmem hrow
    have hle := hlatest.greatest d hstored hasset hdue
    have hmono := partitionHourKeyText_mono hstored.inRange.1 hle hlatest.stored.inRange.2
    have hsorted := h.sorted
    rw [hsplit, Grouping.Sorted, List.pairwise_append, List.pairwise_cons] at hsorted
    have hlt := hsorted.2.1.1 group hgroup
    rw [hkey] at hmono
    exact absurd (compare_lt_iff_lt.mp hlt) (not_lt_of_ge hmono)
  obtain ⟨found, hfound, hgreatest, hread⟩ := latestIn_found completion (h.readable hfiles)
    (List.ne_nil_of_mem hrow) (partitionHourKeyText c.checkpointTimestampUs) before.reverse
  refine ⟨found, ?_, ?_⟩
  · obtain ⟨d, hstored, hasset, hdue, rfl, -⟩ := h.mem_rows hfiles hfound
    have hle : c.checkpointTimestampUs ≤ d.checkpointTimestampUs := hgreatest c.asStored hrow
    refine ⟨d, ⟨hstored, hasset, hdue, ?_⟩, rfl⟩
    intro other hother hown hotherDue
    exact (hlatest.greatest other hother hown hotherDue).trans hle
  · have hreverse : byHour.reverse = after.reverse ++
        (partitionHourKeyText c.checkpointTimestampUs, files) :: before.reverse := by
      rw [hsplit]
      simp
    rw [hreverse, latestIn_append, hread, h.rows_eq hindex hlatest.stored hreached hfiles]
    · intro group hgroup
      have hmem : group ∈ byHour := by
        rw [hsplit]
        exact List.mem_append_right _ (List.mem_cons_of_mem _ (List.mem_reverse.mp hgroup))
      exact h.readable hmem
    · exact fun group hgroup => hlater group (List.mem_reverse.mp hgroup)

/-- A lookup that reaches no hour of the latest checkpoint does not find it. -/
theorem IsInventory.not_isLatest (h : IsInventory store assetIds atUs i byHour)
    {c : BookCheckpoint} (hlatest : Latest store id atUs c)
    (hreached : ¬partitionHourKeyText c.checkpointTimestampUs ≤ atHour atUs)
    {found : Option BookCheckpoint}
    (hfound : latestIn store.objects atUs completion id byHour.reverse = .ok found) :
    ¬IsLatest store id atUs found := by
  intro hclaim
  cases found with
  | none => exact hclaim c hlatest
  | some row =>
      obtain ⟨group, hgroup, hrow⟩ := mem_of_latestIn completion
        (fun group hgroup => h.readable (List.mem_reverse.mp hgroup)) hfound
      obtain ⟨d, -, -, -, heq, hkey, hle, -⟩ := h.mem_rows (List.mem_reverse.mp hgroup) hrow
      obtain ⟨e, he, heq'⟩ := hclaim
      have hsame : d.checkpointTimestampUs = c.checkpointTimestampUs := by
        have hts := congrArg BookCheckpoint.checkpointTimestampUs (heq.trans heq'.symm)
        exact hts.trans (he.timestamp_unique hlatest)
      rw [← hsame, hkey] at hreached
      exact hreached hle

/-- **When a position finds what it should.** -/
theorem IsInventory.isLatest_iff {earlier later : List AssetId}
    (h : IsInventory store (earlier ++ id :: later) atUs earlier.length byHour) :
    (∃ found, latestIn store.objects atUs completion id byHour.reverse = .ok found ∧
      IsLatest store id atUs found) ↔
        ∀ c, Latest store id atUs c → Findable store atUs earlier id c := by
  by_cases hexists : ∃ c, Latest store id atUs c
  · obtain ⟨c, hlatest⟩ := hexists
    by_cases hindex : (earlier ++ id :: later).findIdx? (standsFor id) = some earlier.length
    · obtain ⟨hnamed, hfirst⟩ := (findIdx?_standsFor earlier later id).mp hindex
      by_cases hreached : partitionHourKeyText c.checkpointTimestampUs ≤ atHour atUs
      · obtain ⟨row, hrow, hread⟩ := h.latestIn_latest completion hindex hlatest hreached
        rw [hread]
        constructor
        · rintro ⟨found, hok, -⟩ c' hlatest'
          rw [hlatest.timestamp_unique hlatest'] at hread hreached hok
          split at hok
          · cases hok
          · exact ⟨hnamed, hfirst, hreached, Nat.le_of_not_lt ‹_›⟩
        · intro hall
          have hfits := (hall c hlatest).fits
          exact ⟨some row, if_neg (Nat.not_lt.mpr hfits), hrow⟩
      · constructor
        · rintro ⟨found, hok, hclaim⟩
          exact absurd hclaim (h.not_isLatest completion hlatest hreached hok)
        · intro hall
          exact absurd (hall c hlatest).reached hreached
    · have hrows : ∀ group ∈ byHour, group.2.flatMap (rowsOf store.objects id atUs) = [] := by
        intro group hgroup
        by_contra hne
        obtain ⟨row, hrow⟩ := List.exists_mem_of_ne_nil _ hne
        obtain ⟨-, -, -, -, -, -, -, hown⟩ := h.mem_rows hgroup hrow
        exact hindex hown
      have hnone := h.latestIn_none completion hrows
      constructor
      · rintro ⟨found, hok, hclaim⟩
        rw [hnone] at hok
        obtain rfl := Except.ok.inj hok
        exact absurd hlatest (hclaim c)
      · intro hall
        obtain ⟨hnamed, hfirst, -, -⟩ := hall c hlatest
        exact absurd ((findIdx?_standsFor earlier later id).mpr ⟨hnamed, hfirst⟩) hindex
  · have hrows : ∀ group ∈ byHour, group.2.flatMap (rowsOf store.objects id atUs) = [] := by
      intro group hgroup
      by_contra hne
      obtain ⟨row, hrow⟩ := List.exists_mem_of_ne_nil _ hne
      obtain ⟨d, hstored, hasset, hdue, -⟩ := h.mem_rows hgroup hrow
      exact hexists (exists_latest store hstored hasset hdue)
    constructor
    · intro _ c hlatest
      exact absurd ⟨c, hlatest⟩ hexists
    · intro _
      exact ⟨none, h.latestIn_none completion hrows, fun c hlatest => hexists ⟨c, hlatest⟩⟩

end Position

/-! ## The whole lookup -/

/-- The entries of the loop, each with the inventory of its position. -/
theorem getElem?_zip_inventory (assetIds : List AssetId) (atUs : Nat) {earlier later : List AssetId}
    (hsplit : assetIds = earlier ++ id :: later) :
    ∃ byHour, (assetIds.zip (checkpointFilesByAssetAndHour store.objects basePath assetIds
        atUs))[earlier.length]? = some (id, byHour) ∧
      IsInventory store (earlier ++ id :: later) atUs earlier.length byHour := by
  have hlt : earlier.length < assetIds.length := by
    rw [hsplit]
    simp
  have hid : assetIds[earlier.length]? = some id := by
    rw [hsplit]
    simp
  obtain ⟨byHour, hget, hinventory⟩ := exists_inventory store assetIds atUs hlt
  refine ⟨byHour, ?_, hsplit ▸ hinventory⟩
  rw [List.getElem?_zip_eq_some]
  exact ⟨hid, hget⟩

/-- Every asset has its inventory. -/
theorem length_zip_inventory (assetIds : List AssetId) (atUs : Nat) :
    (assetIds.zip (checkpointFilesByAssetAndHour store.objects basePath assetIds atUs)).length =
      assetIds.length := by
  rw [List.length_zip, inventory_eq_dispatch, Grouping.length_dispatch, List.length_replicate,
    Nat.min_self]

omit [ParquetFormat] [Chrono] in
/-- The list around a position. -/
theorem split_at {α : Type} {xs : List α} {i : Nat} {x : α} (h : xs[i]? = some x) :
    ∃ earlier later, xs = earlier ++ x :: later ∧ earlier.length = i := by
  obtain ⟨hi, rfl⟩ := List.getElem?_eq_some_iff.mp h
  refine ⟨xs.take i, xs.drop (i + 1), ?_, ?_⟩
  · rw [List.getElem_cons_drop, List.take_append_drop]
  · rw [List.length_take]
    omega

omit [ParquetFormat] [Chrono] in
/-- Results one by one exist if each exists. -/
theorem exists_forall₂ {α β : Type} {R : α → β → Prop} {xs : List α} :
    (∃ ys, List.Forall₂ R xs ys) ↔ ∀ x ∈ xs, ∃ y, R x y := by
  induction xs with
  | nil => simp
  | cons x xs ih =>
      rw [List.forall_mem_cons, ← ih]
      constructor
      · rintro ⟨_, h⟩
        obtain ⟨y, ys, hy, hys, -⟩ := List.forall₂_cons_left_iff.mp h
        exact ⟨⟨y, hy⟩, ys, hys⟩
      · rintro ⟨⟨y, hy⟩, ys, hys⟩
        exact ⟨y :: ys, .cons hy hys⟩

omit [ParquetFormat] [Chrono] in
/-- Two relations that hold one by one. -/
theorem forall₂_and {α β : Type} {R S : α → β → Prop} {xs : List α} {ys : List β} :
    List.Forall₂ R xs ys ∧ List.Forall₂ S xs ys ↔
      List.Forall₂ (fun x y => R x y ∧ S x y) xs ys := by
  simp only [List.forall₂_iff_get]
  grind

omit [Chrono] in
/-- The loop answers when each of its entries does. -/
theorem latestOf_answers (objects : Objects) (atUs : Nat) (completion : Completion)
    (R : AssetId → Option BookCheckpoint → Prop) (pairs : List (AssetId × Inventory)) :
    (∃ latest, latestOf objects atUs completion pairs = .ok latest ∧
      List.Forall₂ R (pairs.map Prod.fst) latest) ↔
        ∀ pair ∈ pairs, ∃ found,
          latestIn objects atUs completion pair.1 pair.2.reverse = .ok found ∧ R pair.1 found := by
  rw [← exists_forall₂]
  simp only [latestOf_eq_ok, List.forall₂_map_left_iff, forall₂_and]

/-- **The answers of the batched lookup**: it gives each position a latest checkpoint of
its id exactly when every id that has one is findable behind the earlier ones. -/
theorem readLatestCheckpoints_iff (completion : Completion) (assetIds : List AssetId)
    (atUs : Nat) :
    (∃ latest, readLatestCheckpoints store.objects basePath assetIds atUs completion = .ok latest ∧
      List.Forall₂ (IsLatest store · atUs ·) assetIds latest) ↔
      ∀ earlier id later, assetIds = earlier ++ id :: later →
        ∀ c, Latest store id atUs c → Findable store atUs earlier id c := by
  have hids : (assetIds.zip (checkpointFilesByAssetAndHour store.objects basePath assetIds
      atUs)).map Prod.fst = assetIds := by
    have hlength := length_zip_inventory store assetIds atUs
    rw [List.length_zip] at hlength
    rw [List.map_fst_zip (by omega)]
  have hanswers := latestOf_answers store.objects atUs completion (IsLatest store · atUs ·)
    (assetIds.zip (checkpointFilesByAssetAndHour store.objects basePath assetIds atUs))
  rw [hids] at hanswers
  rw [readLatestCheckpoints, hanswers]
  constructor
  · intro hall earlier id later hsplit
    obtain ⟨byHour, hget, hinventory⟩ := getElem?_zip_inventory store assetIds atUs hsplit
    exact (hinventory.isLatest_iff completion).mp (hall _ (List.mem_of_getElem? hget))
  · intro hall pair hpair
    obtain ⟨i, hget⟩ := List.getElem?_of_mem hpair
    obtain ⟨hid, -⟩ := List.getElem?_zip_eq_some.mp hget
    obtain ⟨earlier, later, hsplit, rfl⟩ := split_at hid
    obtain ⟨byHour, hget', hinventory⟩ := getElem?_zip_inventory store assetIds atUs hsplit
    rw [hget, Option.some.injEq] at hget'
    rw [hget']
    exact (hinventory.isLatest_iff completion).mpr (hall earlier _ later hsplit)

/-- The lookup of one id answers when every latest checkpoint of the id is findable. -/
theorem readLatestCheckpoint_answers (completion : Completion) {id : AssetId} {atUs : Nat}
    (h : ∀ c, Latest store id atUs c → Findable store atUs [] id c) :
    ∃ found, readLatestCheckpoint store.objects basePath atUs completion id = .ok found ∧
      IsLatest store id atUs found := by
  have halone : ∀ earlier a later, [id] = earlier ++ a :: later →
      ∀ c, Latest store a atUs c → Findable store atUs earlier a c := by
    intro earlier a later hsplit
    obtain ⟨rfl, rfl, rfl⟩ : earlier = [] ∧ id = a ∧ later = [] := by
      cases earlier with
      | nil => simpa using hsplit
      | cons b earlier => simp at hsplit
    exact h
  obtain ⟨latest, hok, hlatest⟩ := (readLatestCheckpoints_iff store completion [id] atUs).mpr halone
  obtain ⟨found, rest, hfound, hrest, rfl⟩ := List.forall₂_cons_left_iff.mp hlatest
  obtain rfl := List.forall₂_nil_left_iff.mp hrest
  refine ⟨found, ?_, hfound⟩
  rw [readLatestCheckpoint, hok]
  rfl

/-- Two answers for one id have one timestamp. -/
theorem IsLatest.timestamp_unique {store : CheckpointStore basePath} {id : AssetId} {atUs : Nat}
    {found found' : Option BookCheckpoint} (h : IsLatest store id atUs found)
    (h' : IsLatest store id atUs found') :
    found.map (·.checkpointTimestampUs) = found'.map (·.checkpointTimestampUs) := by
  cases found with
  | none =>
      cases found' with
      | none => rfl
      | some row' =>
          obtain ⟨c, hlatest, -⟩ := h'
          exact absurd hlatest (h c)
  | some row =>
      obtain ⟨c, hlatest, rfl⟩ := h
      cases found' with
      | none => exact absurd hlatest (h' c)
      | some row' =>
          obtain ⟨c', hlatest', rfl⟩ := h'
          have hsame : c.checkpointTimestampUs = c'.checkpointTimestampUs :=
            hlatest.timestamp_unique hlatest'
          exact congrArg some hsame

/-- What the batched lookup should give: at each position a latest checkpoint of its id,
or nothing when there is none, as the lookup of that id alone gives it. -/
def Answers (together alone : Completion) (assetIds : List AssetId) (atUs : Nat) : Prop :=
  ∃ latest, readLatestCheckpoints store.objects basePath assetIds atUs together = .ok latest ∧
    List.Forall₂ (fun id found => IsLatest store id atUs found ∧
      ∃ single, readLatestCheckpoint store.objects basePath atUs alone id = .ok single ∧
        IsLatest store id atUs single ∧
          single.map (·.checkpointTimestampUs) = found.map (·.checkpointTimestampUs))
      assetIds latest

/-- **When the batched lookup answers like the single ones**: when every id that has a
latest checkpoint is not empty, neither repeats an earlier id of the list nor is the
storage key of one, and has its checkpoint in an hour that the bound reaches and that
holds no more rows than one read takes. -/
theorem answers_iff (together alone : Completion) (assetIds : List AssetId) (atUs : Nat) :
    Answers store together alone assetIds atUs ↔
      ∀ earlier id later, assetIds = earlier ++ id :: later →
        ∀ c, Latest store id atUs c → Findable store atUs earlier id c := by
  rw [← readLatestCheckpoints_iff store together]
  constructor
  · rintro ⟨latest, hok, hlatest⟩
    exact ⟨latest, hok, hlatest.imp fun _ _ h => h.1⟩
  · rintro ⟨latest, hok, hlatest⟩
    have hfindable := (readLatestCheckpoints_iff store together assetIds atUs).mp
      ⟨latest, hok, hlatest⟩
    refine ⟨latest, hok, ?_⟩
    have hsingle : ∀ id ∈ assetIds, ∃ single,
        readLatestCheckpoint store.objects basePath atUs alone id = .ok single ∧
          IsLatest store id atUs single := by
      intro id hid
      obtain ⟨earlier, later, hsplit⟩ := List.append_of_mem hid
      apply readLatestCheckpoint_answers
      intro c hc
      obtain ⟨hnamed, -, hreached, hfits⟩ := hfindable earlier id later hsplit c hc
      exact ⟨hnamed, by simp, hreached, hfits⟩
    have hboth := List.forall₂_and_left assetIds latest |>.mpr ⟨hsingle, hlatest⟩
    refine hboth.imp ?_
    rintro id found ⟨⟨single, hread, halone⟩, hfound⟩
    exact ⟨hfound, single, hread, halone, halone.timestamp_unique hfound⟩

end Stored

/-! ## One checkpoint -/

namespace OneCheckpoint

/-- The checkpoint of the sample. -/
def checkpoint : BookCheckpoint :=
  ⟨"a", 1700000000000000,
    ⟨1700000000000000, 1700000000000000, .system, none, none, none, none⟩, [], [], none⟩

/-- The bytes of the sample file. -/
def bytes : Bytes := [80, 65, 82, 49, 80, 65, 82, 49]

/-- The encoding of this one batch. -/
@[reducible] def format : ParquetFormat :=
  .ofTable [([.checkpoint checkpoint], bytes)] (fun _ => 0xa4e428564378c91c) (by decide)

/-- The name of the sample file. -/
def fileName : String := objectFileName (storageKeyFor "a") 1700000000000000 0xa4e428564378c91c 8

/-- The path of the sample file. -/
def path : String := @groupPath gregorian "" (groupKeyOf (.checkpoint checkpoint)) fileName

/-- The sample file is the object of its group. -/
theorem groupObject : @GroupObject format gregorian "" [.checkpoint checkpoint]
    (groupKeyOf (.checkpoint checkpoint)) path bytes :=
  @GroupObject.mk format gregorian "" _ _ _ _
    ⟨.checkpoint checkpoint, [], fileName, by decide +kernel, by rfl, rfl⟩

/-- The sample archive holds what the sink wrote. -/
theorem written (other : String) (content : Bytes)
    (h : ((∅ : Objects).insert path bytes)[other]? = some content)
    (_ : isBelow (datasetPrefix "") other = true) :
    ∃ buffer key, @GroupObject format gregorian "" buffer key other content ∧
      ∀ record ∈ groupRecords buffer key, minPlausiblePartitionUs ≤ record.partitionTimestampUs ∧
        record.partitionTimestampUs ≤ maxPlausiblePartitionUs := by
  rw [TreeMapLookup.getElem?_insert] at h
  by_cases hother : other = path
  · rw [if_pos hother, Option.some.injEq] at h
    rw [hother, ← h]
    refine ⟨_, _, groupObject, ?_⟩
    intro record hrecord
    have hmem := (List.mem_filter.mp hrecord).1
    rw [List.mem_singleton.mp hmem]
    decide
  · rw [if_neg hother] at h
    simp at h

/-- The checkpoint is all there is. -/
@[reducible] def store : @CheckpointStore format gregorian "" :=
  @CheckpointStore.mk format gregorian "" ((∅ : Objects).insert path bytes) written

/-- The sample checkpoint is stored. -/
theorem stored : @Stored format gregorian "" store checkpoint := by
  refine ⟨path, bytes, [.checkpoint checkpoint], by simp, ?_, by rfl, List.mem_cons_self⟩
  have htext : path = "book_checkpoints" ++ "/" ++
      @HourKey.text gregorian (partitionHourKey 1700000000000000) ++ "/" ++ fileName := by rfl
  rw [isBelow_iff, htext, toList_components]
  exact ⟨_, rfl⟩

/-- The reads complete in the order of the listing. -/
def inOrder : Completion := ⟨fun files => files, fun files => List.Perm.refl files⟩

end OneCheckpoint

open OneCheckpoint in
/-- The second of two equal ids finds nothing. -/
theorem not_answers_twice :
    ¬@Answers format gregorian "" store inOrder inOrder ["a", "a"] 1700000000000000 := by
  rintro ⟨latest, hok, hlatest⟩
  obtain ⟨c, hc⟩ := @exists_latest format gregorian "" store "a" 1700000000000000 checkpoint
    stored rfl (Nat.le_refl _)
  have hfindable := (@readLatestCheckpoints_iff format gregorian "" store inOrder ["a", "a"]
    1700000000000000).mp ⟨latest, hok, hlatest.imp fun _ _ h => h.1⟩ ["a"] "a" [] rfl c hc
  obtain ⟨-, hfirst, -, -⟩ := hfindable
  exact (hfirst "a" List.mem_cons_self).1 rfl

end PolyBook.CheckpointLookup
