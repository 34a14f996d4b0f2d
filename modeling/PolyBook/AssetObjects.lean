import Mathlib.Data.List.Destutter
import PolyBook.Library.Folds
import PolyBook.PartitionHours
import PolyBook.RecoveryReaders
import PolyBook.ReplaceGroup

/-!
# Whose objects are taken for an asset's

An object is taken for an asset's by its name alone: when recovery collects what it
supersedes and deletes, and when a reader selects the objects of a time window, from
listings and from manifests.

A name is matched by the key of its asset, and by one other: the match takes a key that
was encoded once more for the key, and such a name may as well be that of the asset
whose id is the key.  `keys_identify_assets` says that there is no third case.
-/

namespace PolyBook.AssetObjects

open Wal Publication Hoare Metadata

/-! ## The reader -/

section Reader

variable [PathParser] [ManifestFormat]
variable (objects : Objects) (basePath dataset : String) (assetPrefix : Option AssetId)

/-- `trim_start_matches('/')`. -/
def trimStart (text : List Char) : List Char := text.dropWhile (· == '/')

/-- The hour of a directory. -/
def hourKeyOf (dir : String) : String :=
  let hourSuffix := trimStart ((stripPrefix basePath.toList dir.toList).getD dir.toList)
  String.ofList (trimStart ((stripPrefix dataset.toList hourSuffix).getD hourSuffix))

/-- `decode_manifest`. -/
def decodeManifest (path : String) (bytes : Bytes) :
    Except Publication.ReplayError (ParquetRecoveryManifest String) :=
  match ManifestFormat.decode bytes with
  | .error e => .error (.other e)
  | .ok manifest =>
      match manifest.validate with
      | .error e => .error (.other ("invalid recovery manifest " ++ path ++ ": " ++ e))
      | .ok () => .ok manifest

/-- `validate_manifest_scope`. -/
def validateManifestScope (path hourKey : String) (expectedAsset : Option String)
    (m : ParquetRecoveryManifest String) : Except Publication.ReplayError Unit :=
  let recoveryPrefix := PolyBook.childPath basePath
    ("_recovery_objects/" ++ dataset ++ "/" ++ hourKey)
  let normalPrefix := PolyBook.childPath basePath (dataset ++ "/" ++ hourKey)
  if m.dataset = dataset && m.hourKey = hourKey && expectedAsset.all (m.assetKey == ·) &&
      stemMatches path m.assetKey && objectsAreScoped normalPrefix recoveryPrefix m.assetKey m then
    .ok ()
  else .error (.other ("recovery manifest " ++ path ++ " does not match its partition scope"))

/-- The checks of `recovery_manifests` on the bytes of a manifest. -/
def checkedManifest (path hourKey : String) (expectedAsset : Option String) (bytes : Bytes) :
    Except Publication.ReplayError (ParquetRecoveryManifest String) := do
  let manifest ← decodeManifest path bytes
  validateManifestScope basePath dataset path hourKey expectedAsset manifest
  pure manifest

/-- One turn of the loop over the manifests of all assets. -/
def readManifest (hourKey : String) (manifests : List (ParquetRecoveryManifest String))
    (path : String) : Except Publication.ReplayError (List (ParquetRecoveryManifest String)) :=
  match objects[path]? with
  | none => .error (.notFound path)
  | some bytes => do
      let manifest ← checkedManifest basePath dataset path hourKey none bytes
      pure (manifests ++ [manifest])

/-- `recovery_manifests`. -/
def recoveryManifests (dir : String) :
    Except Publication.ReplayError (List (ParquetRecoveryManifest String)) :=
  let hourKey := hourKeyOf basePath dataset dir
  let manifestPrefix := PolyBook.childPath basePath
    ("_recovery_manifests/" ++ dataset ++ "/" ++ hourKey)
  match assetPrefix with
  | some assetId =>
      let assetKey := storageKeyFor assetId
      let path := manifestPrefix ++ "/" ++ assetKey ++ ".json"
      match objects[path]? with
      | none => .ok []
      | some bytes => do
          let manifest ← checkedManifest basePath dataset path hourKey (some assetKey) bytes
          pure [manifest]
  | none =>
      ((listBelow objects manifestPrefix).filter fun path =>
        (filename path).any fun name => ".json".toList.isSuffixOf name.toList).foldlM
          (readManifest objects basePath dataset hourKey) []

/-- The objects of a directory that the window takes by their names. -/
def listedFiles (dir : String) : List String :=
  (listBelow objects dir).filter fun path => (filename path).any fun name =>
    ".parquet".toList.isSuffixOf name.toList &&
      assetPrefix.all fun assetId => storageObjectFileMatchesAsset name (storageKeyFor assetId)

/-- One turn of the loop over the active objects. -/
def pushActive (files : List String) (object : String) :
    Except Publication.ReplayError (List String) :=
  match PathParser.parse object with
  | .error e => .error (.other ("invalid active object path " ++ object ++
      " in recovery manifest: " ++ e))
  | .ok path => .ok (files ++ [path])

/-- One turn of the loop over the hours. -/
def hourFiles (files : List String) (dir : String) :
    Except Publication.ReplayError (List String) := do
  let files := files ++ listedFiles objects assetPrefix dir
  let manifests ← recoveryManifests objects basePath dataset assetPrefix dir
  let superseded := manifests.flatMap (·.supersededObjects)
  (manifests.flatMap (·.activeObjects)).foldlM pushActive
    (files.filter fun path => !superseded.contains path)

/-- `dataset_files`. -/
def datasetFiles [Chrono] (startUs endUs : Nat) :
    Except Publication.ReplayError (List String) := do
  let files ← (hourPaths basePath dataset startUs endUs).foldlM
    (hourFiles objects basePath dataset assetPrefix) []
  pure ((files.insertionSort (· ≤ ·)).destutter (· ≠ ·))

end Reader

/-! ## Whose a path is -/

/-- A path that ends in a name of an asset ends in one of this asset, or of the asset
whose id is its key. -/
def BelongsTo (a : AssetId) (path : String) : Prop :=
  ∀ b firstTsUs contentHash len,
    filename path = some (objectFileName (storageKeyFor b) firstTsUs contentHash len) →
      b = a ∨ b = storageKeyFor a

theorem belongsTo_of_namedFor {a : AssetId} {path : String}
    (h : NamedFor (storageKeyFor a) path) : BelongsTo a path := by
  obtain ⟨name, hname, hmatches⟩ := h
  intro b firstTsUs contentHash len hwritten
  rw [hname, Option.some.injEq] at hwritten
  rw [hwritten, storageObjectFileMatchesAsset_any_iff] at hmatches
  exact hmatches.2

section Selection

variable [PathParser] [ManifestFormat] {objects : Objects} {basePath dataset : String}

omit [ManifestFormat] in
/-- A path that a checked text leads to keeps its name. -/
theorem namedFor_of_parse {asset object path dir : String} (hunder : underPrefix object dir = true)
    (hmatches : matchesAsset object asset = true) (hparse : PathParser.parse object = .ok path) :
    NamedFor asset path := by
  obtain ⟨-, hlast⟩ := below_of_underPrefix hunder
  obtain ⟨htrim, -⟩ := PathParser.parse_ok object path hparse
  apply namedFor_of_matchesAsset
  rw [matchesAsset, htrim, last_trimSeparators hlast (by decide)]
  exact hmatches

omit [PathParser] in
/-- A manifest that a reader of an asset follows names objects of the asset only. -/
theorem scoped_of_checkedManifest {path hourKey assetKey : String} {bytes : Bytes}
    {m : ParquetRecoveryManifest String}
    (h : checkedManifest basePath dataset path hourKey (some assetKey) bytes = .ok m) :
    ∃ normalPrefix recoveryPrefix,
      objectsAreScoped normalPrefix recoveryPrefix assetKey m = true := by
  obtain ⟨manifest, -, hrest⟩ := Folds.bind_eq_ok.mp h
  obtain ⟨⟨⟩, hscope, hsame⟩ := Folds.bind_eq_ok.mp hrest
  obtain rfl := Except.ok.inj hsame
  unfold validateManifestScope at hscope
  dsimp only at hscope
  split at hscope
  · rename_i hall
    simp only [Bool.and_eq_true, Option.all_some, beq_iff_eq] at hall
    rw [hall.1.1.2] at hall
    exact ⟨_, _, hall.2⟩
  · cases hscope

omit [PathParser] in
theorem scoped_of_recoveryManifests {a : AssetId} {dir : String}
    {manifests : List (ParquetRecoveryManifest String)}
    (h : recoveryManifests objects basePath dataset (some a) dir = .ok manifests) :
    ∀ m ∈ manifests, ∃ normalPrefix recoveryPrefix,
      objectsAreScoped normalPrefix recoveryPrefix (storageKeyFor a) m = true := by
  unfold recoveryManifests at h
  dsimp only at h
  split at h
  · obtain rfl := Except.ok.inj h
    simp
  · obtain ⟨m, hchecked, hsame⟩ := Folds.bind_eq_ok.mp h
    obtain rfl := Except.ok.inj hsame
    intro m' hm
    rw [List.mem_singleton.mp hm]
    exact scoped_of_checkedManifest hchecked

omit [ManifestFormat] in
/-- The active objects are pushed under names of the asset. -/
theorem namedFor_of_pushActive {asset : String} {active files files' : List String}
    (hactive : ∀ object ∈ active, ∃ dir, underPrefix object dir = true ∧
      matchesAsset object asset = true)
    (hfiles : ∀ path ∈ files, NamedFor asset path)
    (h : active.foldlM pushActive files = .ok files') :
    ∀ path ∈ files', NamedFor asset path := by
  refine Folds.foldlM_rule (fun pushed files => (∀ object ∈ pushed, object ∈ active) →
    ∀ path ∈ files, NamedFor asset path) ?_ (fun _ => hfiles) h fun _ hobject => hobject
  intro pushed files object next hinv hpush hmem path hpath
  have hbefore := hinv fun other hother => hmem other (List.mem_append_left _ hother)
  unfold pushActive at hpush
  split at hpush
  · cases hpush
  · rename_i found hparse
    obtain rfl := Except.ok.inj hpush
    rcases List.mem_append.mp hpath with hpath | hpath
    · exact hbefore path hpath
    · obtain ⟨dir, hunder, hmatches⟩ := hactive object
        (hmem object (List.mem_append_right _ List.mem_cons_self))
      rw [List.mem_singleton.mp hpath]
      exact namedFor_of_parse hunder hmatches hparse

/-- What an hour adds to the selection of an asset. -/
theorem namedFor_of_hourFiles {a : AssetId} {files files' : List String} {dir : String}
    (hfiles : ∀ path ∈ files, NamedFor (storageKeyFor a) path)
    (h : hourFiles objects basePath dataset (some a) files dir = .ok files') :
    ∀ path ∈ files', NamedFor (storageKeyFor a) path := by
  obtain ⟨manifests, hmanifests, hpush⟩ := Folds.bind_eq_ok.mp h
  refine namedFor_of_pushActive ?_ ?_ hpush
  · intro object hobject
    obtain ⟨m, hm, hactive⟩ := List.mem_flatMap.mp hobject
    obtain ⟨normalPrefix, recoveryPrefix, hscoped⟩ := scoped_of_recoveryManifests hmanifests m hm
    obtain ⟨hunder, hmatches⟩ := scoped_of_mem hscoped (Or.inl hactive)
    exact hunder.elim (fun h => ⟨_, h, hmatches⟩) fun h => ⟨_, h, hmatches⟩
  · intro path hpath
    rcases List.mem_append.mp (List.mem_filter.mp hpath).1 with hpath | hpath
    · exact hfiles path hpath
    · obtain ⟨name, hname, hmatches⟩ := (Option.any_eq_true _ _).mp (List.mem_filter.mp hpath).2
      rw [Bool.and_eq_true, Option.all_some] at hmatches
      exact ⟨name, hname, hmatches.2⟩

/-- **The selection of an asset.** -/
theorem namedFor_of_datasetFiles [Chrono] {a : AssetId} {startUs endUs : Nat} {files : List String}
    (h : datasetFiles objects basePath dataset (some a) startUs endUs = .ok files) :
    ∀ path ∈ files, NamedFor (storageKeyFor a) path := by
  obtain ⟨selected, hselected, hsame⟩ := Folds.bind_eq_ok.mp h
  obtain rfl := Except.ok.inj hsame
  intro path hpath
  have hall : ∀ path ∈ selected, NamedFor (storageKeyFor a) path := by
    refine Folds.foldlM_rule (fun _ files => ∀ path ∈ files, NamedFor (storageKeyFor a) path) ?_
      (by simp) hselected
    exact fun _ _ _ _ hfiles hturn => namedFor_of_hourFiles hfiles hturn
  have hsorted := (List.destutter_sublist _ _).subset hpath
  exact hall path ((List.perm_insertionSort _ _).mem_iff.mp hsorted)

end Selection

/-! ## What recovery collects -/

section Recovery

variable [PathParser] [ManifestFormat] [ParquetFormat] {a : AssetId} {p : Partition}

/-- What `replace_group` collects to supersede, and what it deletes, on the partition of
an asset. -/
structure Collects (place : Place p) (fate : Nat → Fate) (a : AssetId) : Prop where
  listed : ∀ w paths w', groupObjects fate p w = .ok paths w' → ∀ path ∈ paths, BelongsTo a path
  staged : ∀ w paths w', recoveryGroupObjects fate p w = .ok paths w' →
    ∀ path ∈ paths, BelongsTo a path
  named : ∀ w m w', readRecoveryManifest fate p place.manifestPath w = .ok (some m) w' →
    ∀ object, object ∈ m.activeObjects ∨ object ∈ m.supersededObjects → BelongsTo a object
  deleted : ∀ coverage first rest before path,
    path ∈ (lastWorld (replaceGroup fate p coverage first rest ⟨before, 0, [], []⟩)).deletes →
      BelongsTo a path

theorem collects (hasset : p.asset = storageKeyFor a) (place : Place p) (fate : Nat → Fate) :
    Collects place fate a := by
  have hframe : Frame (fun _ => True) fun _ _ => True := ⟨fun _ _ h => h, fun _ _ _ h => h⟩
  have hbelongs : ∀ path, NamedFor p.asset path → BelongsTo a path := by
    intro path h
    rw [hasset] at h
    exact belongsTo_of_namedFor h
  refine ⟨?_, ?_, ?_, ?_⟩
  · intro w paths w' hrun path hpath
    have hlisted := (objectsBelow_spec hframe (normalPath_spec place)).of_ok trivial hrun
    exact hbelongs path (hlisted.2 path hpath)
  · intro w paths w' hrun path hpath
    have hlisted := (objectsBelow_spec hframe (stagingPath_spec place)).of_ok trivial hrun
    exact hbelongs path (hlisted.2 path hpath)
  · intro w m w' hrun object hobject
    obtain ⟨-, hread⟩ := (readRecoveryManifest_spec place hframe _).of_ok trivial hrun
    obtain ⟨bytes, -, haccepted⟩ := hread.present m rfl
    have hscope := haccepted.inScope
    rw [fitsScope, Bool.and_eq_true] at hscope
    exact hbelongs object (namedFor_of_matchesAsset (scoped_of_mem hscope.2 hobject).2)
  · intro coverage first rest before path hpath
    have hsafe := safe_of_run place fate coverage first rest before
    exact hbelongs path (hsafe.deleted path hpath).1.named

end Recovery

/-- How an asset is told by its storage key. -/
structure Identified [PathParser] [ManifestFormat] [ParquetFormat] [Chrono] (a : AssetId) :
    Prop where
  names : ∀ b, b ≠ "" → ∀ firstTsUs contentHash len,
    storageObjectFileMatchesAsset (objectFileName (storageKeyFor b) firstTsUs contentHash len)
      (storageKeyFor a) = true ↔ b = a ∨ b = storageKeyFor a
  collected : ∀ p : Partition, p.asset = storageKeyFor a → ∀ (place : Place p) fate,
    Collects place fate a
  selected : ∀ objects basePath dataset startUs endUs files,
    datasetFiles objects basePath dataset (some a) startUs endUs = .ok files →
      ∀ path ∈ files, BelongsTo a path

/-- **Storage keys identify assets**, but for keys that were encoded once more: the name
of an object of `b` is matched by the key of `a` exactly when `b` is `a` or the key of
`a`.  So what recovery collects and deletes for `a`, and what a reader selects for it,
are objects of these two only. -/
theorem keys_identify_assets [PathParser] [ManifestFormat] [ParquetFormat] [Chrono]
    (a : AssetId) : Identified a where
  names _ hb firstTsUs contentHash len :=
    storageObjectFileMatchesAsset_iff a hb firstTsUs contentHash len
  collected _ hasset place fate := collects hasset place fate
  selected _ _ _ _ _ _ h path hpath :=
    belongsTo_of_namedFor (namedFor_of_datasetFiles h path hpath)

/-- The key of `/` matches the objects of `%2F`. -/
theorem slash_matches_escaped_slash : ¬∀ a b, a ≠ "" → b ≠ "" → ∀ firstTsUs contentHash len,
    storageObjectFileMatchesAsset (objectFileName (storageKeyFor b) firstTsUs contentHash len)
      (storageKeyFor a) = true ↔ a = b := by
  intro h
  have hmatches := (storageObjectFileMatchesAsset_iff "/" (by decide) 0 0 0).mpr
    (Or.inr (show "%2F" = storageKeyFor "/" by decide +kernel))
  have heq := (h "/" "%2F" (by decide) (by decide) 0 0 0).mp hmatches
  exact absurd heq (by decide)

end PolyBook.AssetObjects
