import Mathlib.Algebra.BigOperators.Group.Finset.Basic
import PolyBook.RecoveryPublication
import PolyBook.Replay

/-!
# Readers beside a publication

A reader lists the objects of an asset, reads its manifest, drops what the manifest
hides, adds what it points at, and reads the objects in any order.  If one is not
found it starts anew, once.  Meanwhile `replace_group` goes on, or has been cut.

`publication_atomic_to_readers`: a read that succeeds returns the rows that the asset
had before the run, or the rows of the new records.
-/

namespace PolyBook.Publication

open Wal

/-- `ReplayError`, as `is_object_not_found` tells them apart. -/
inductive ReplayError where
  | notFound (path : String)
  | other (message : String)

/-- `is_object_not_found`. -/
def isObjectNotFound : ReplayError → Bool
  | .notFound _ => true
  | .other _ => false

/-- The refusal of a read that is too large. -/
def tooManyRows : ReplayError := .other tooManyRowsText

/-- What a reader asks for: the objects of the asset or of every asset, and the rows
of a decoded object. -/
structure Query (T : Type) where
  allAssets : Bool
  extractor : List PersistedRecord → Except ReplayError (List T)

/-- How far a reader has come.  It reads other hours and assets as well, and counts
their rows. -/
inductive Reader (T : Type) where
  | listing (attempt : Nat)
  | listed (attempt : Nat) (files : Finset ObjectPath)
  | manifestListed (attempt : Nat) (files : Finset ObjectPath)
  | reading (attempt : Nat) (pending : Finset ObjectPath) (rows : List T) (elsewhere : Nat)
  | done (rows : List T)
  | failed (e : ReplayError)

/-- `validate_manifest_scope`. -/
def validateManifestScope (p : Partition) (expectedAsset : Option String)
    (m : ParquetRecoveryManifest ObjectPath) : Except ReplayError Unit :=
  let identityMatches := m.dataset = p.dataset ∧ m.hourKey = p.hourKey ∧
    (∀ asset ∈ expectedAsset, m.assetKey = asset) ∧
      storageObjectComponentMatchesKey p.asset.toList m.assetKey.toList = true
  let matchesAsset := fun path : ObjectPath =>
    storageObjectFileMatchesAsset path.fileName m.assetKey
  if identityMatches ∧ (∀ path ∈ m.activeObjects, matchesAsset path = true) ∧
      ∀ path ∈ m.supersededObjects, matchesAsset path = true then .ok ()
  else .error (.other ("recovery manifest " ++ p.manifestPath ++
    " does not match its partition scope"))

/-- `decode_manifest` and `validate_manifest_scope`. -/
def acceptManifest (p : Partition) (allAssets : Bool) (m : ParquetRecoveryManifest ObjectPath) :
    Except ReplayError Unit :=
  match m.validate with
  | .error e => .error (.other ("invalid recovery manifest " ++ p.manifestPath ++ ": " ++ e))
  | .ok () => validateManifestScope p (if allAssets then none else some p.asset) m

/-- The objects to read: what the manifest does not hide and what it points at. -/
def visible (files : Finset ObjectPath) :
    Option (ParquetRecoveryManifest ObjectPath) → Finset ObjectPath
  | none => files
  | some m => files \ m.supersededObjects.toFinset ∪ m.activeObjects.toFinset

/-- What readers see of a store. -/
theorem Store.view_eq (s : Store) (asset : String) :
    s.view asset = visible (s.list asset .normal) s.manifest := by
  unfold Store.view visible
  cases s.manifest with
  | none => rfl
  | some m => rfl

/-- To stage an object does not change the normal tree. -/
theorem Plan.list_stagedStore (plan : Plan) (s₀ : Store) (asset : String) :
    (plan.stagedStore s₀).list asset .normal = s₀.list asset .normal := by
  ext path
  rw [Store.mem_list, Store.mem_list]
  refine ⟨fun ⟨hmem, htree, hmatches⟩ => ⟨?_, htree, hmatches⟩,
    fun ⟨hmem, hrest⟩ => ⟨Store.mem_put.mpr (Or.inr hmem), hrest⟩⟩
  obtain rfl | hmem := Store.mem_put.mp hmem
  · cases htree
  · exact hmem

section Reading

variable {T : Type} [ParquetFormat]

/-- `read_parquet_file`, from the content of the object. -/
def readContent (query : Query T) (bytes : Bytes) : Except ReplayError (List T) :=
  match ParquetFormat.decode bytes with
  | .error e => .error (.other e)
  | .ok records =>
      match query.extractor records with
      | .error e => .error e
      | .ok rows => if maxParquetDatasetRows < rows.length then .error tooManyRows else .ok rows

/-- A file that was read holds decoded rows. -/
theorem extractor_of_readContent {query : Query T} {bytes : Bytes}
    {records : List PersistedRecord} {rows : List T}
    (hdecode : ParquetFormat.decode bytes = .ok records)
    (h : readContent query bytes = .ok rows) : query.extractor records = .ok rows := by
  simp only [readContent, hdecode] at h
  split at h
  · cases h
  · split at h
    · cases h
    · cases h
      assumption

/-- `read_parquet_file`. -/
def readParquetFile (query : Query T) (p : Partition) (s : Store) (path : ObjectPath) :
    Except ReplayError (List T) :=
  match s.get path with
  | none => .error (.notFound (p.objectPath path))
  | some bytes => readContent query bytes

/-- A file that was read was there, and its content was read. -/
theorem readContent_of_readParquetFile {query : Query T} {p : Partition} {s : Store}
    {path : ObjectPath} {rows : List T} (h : readParquetFile query p s path = .ok rows) :
    path ∈ s.paths ∧ readContent query (s.bytes path) = .ok rows := by
  by_cases hmem : path ∈ s.paths
  · simp only [readParquetFile, Store.get, if_pos hmem] at h
    exact ⟨hmem, h⟩
  · simp only [readParquetFile, Store.get, if_neg hmem] at h
    cases h

namespace Reader

/-- What an error of `read_parquet_files` leads to. -/
def retry (attempt : Nat) (e : ReplayError) : Reader T :=
  if attempt = 0 ∧ isObjectNotFound e = true then .listing (attempt + 1) else .failed e

/-- `dataset_files` lists the directory of the hour. -/
def list (p : Partition) (s : Store) : Reader T → Reader T
  | .listing attempt => .listed attempt (s.list p.asset .normal)
  | reader => reader

/-- A manifest has been read. -/
def follow (query : Query T) (p : Partition) (attempt : Nat) (files : Finset ObjectPath)
    (m : ParquetRecoveryManifest ObjectPath) : Reader T :=
  match acceptManifest p query.allAssets m with
  | .error e => .failed e
  | .ok () => .reading attempt (visible files (some m)) [] 0

/-- `recovery_manifests`: the manifest is read at once, or listed and then read. -/
def manifests (query : Query T) (p : Partition) (s : Store) : Reader T → Reader T
  | .listed attempt files =>
      match s.manifest with
      | none => .reading attempt (visible files none) [] 0
      | some m =>
          if query.allAssets then .manifestListed attempt files
          else follow query p attempt files m
  | .manifestListed attempt files =>
      match s.manifest with
      | none => .failed (.notFound p.manifestPath)
      | some m => follow query p attempt files m
  | reader => reader

/-- `read_parquet_files` takes the rows of an object. -/
def read (query : Query T) (p : Partition) (s : Store) (path : ObjectPath) : Reader T → Reader T
  | .reading attempt pending rows elsewhere =>
      if path ∈ pending then
        match readParquetFile query p s path with
        | .error e => retry attempt e
        | .ok batch =>
            if maxParquetDatasetRows < rows.length + elsewhere + batch.length then
              retry attempt tooManyRows
            else .reading attempt (pending.erase path) (rows ++ batch) elsewhere
      else .reading attempt pending rows elsewhere
  | reader => reader

/-- What happens to the other hours and assets of the read; only `read_parquet_files`
is tried again. -/
def readElsewhere (outcome : Except ReplayError Nat) : Reader T → Reader T
  | .reading attempt pending rows elsewhere =>
      match outcome with
      | .error e => retry attempt e
      | .ok count =>
          if maxParquetDatasetRows < rows.length + elsewhere + count then retry attempt tooManyRows
          else .reading attempt pending rows (elsewhere + count)
  | .done rows => .done rows
  | .failed e => .failed e
  | reader =>
      match outcome with
      | .error e => .failed e
      | .ok _ => reader

/-- All objects have been read. -/
def finish : Reader T → Reader T
  | .reading attempt pending rows elsewhere =>
      if pending = ∅ then .done rows else .reading attempt pending rows elsewhere
  | reader => reader

end Reader

/-- A step of the run or of the reader. -/
inductive Event where
  | writer (deleted : Bool)
  | list
  | manifests
  | read (path : ObjectPath)
  | elsewhere (outcome : Except ReplayError Nat)
  | finish

/-- The store, the run and the reader. -/
structure Race (T : Type) where
  store : Store
  stage : Stage
  reader : Reader T

variable {p : Partition}

/-- One step of one of them. -/
def Race.step (job : Job p) (query : Query T) (r : Race T) : Event → Race T
  | .writer deleted =>
      let (store, stage) := Publication.step job deleted r.store r.stage
      { r with store, stage }
  | .list => { r with reader := r.reader.list p r.store }
  | .manifests => { r with reader := r.reader.manifests query p r.store }
  | .read path => { r with reader := r.reader.read query p r.store path }
  | .elsewhere outcome => { r with reader := r.reader.readElsewhere outcome }
  | .finish => { r with reader := r.reader.finish }

/-- A run and a reader start. -/
def Race.init (s₀ : Store) : Race T := ⟨s₀, .start, .listing 0⟩

/-- Steps of the run leave the reader where it is. -/
theorem Race.run_writer (job : Job p) (query : Query T) (r : Race T) (deletions : List Bool) :
    Runs.run (Race.step job query) r (deletions.map .writer) =
      { r with
        store := (runFrom job (r.store, r.stage) deletions).1
        stage := (runFrom job (r.store, r.stage) deletions).2 } := by
  induction deletions generalizing r with
  | nil => rfl
  | cons deleted deletions ih => exact ih (r.step job query (.writer deleted))

/-- An object that bears the name of the new one has its content: the name is made of
a hash of the content and its length. -/
def ContentNamed (job : Job p) (s₀ : Store) : Prop :=
  ∀ bytes fileName, job.encodeGroup = .ok (bytes, fileName) →
    ∀ path ∈ s₀.paths, path.fileName = fileName → s₀.bytes path = bytes

/-- The rows are those of the objects, each read once. -/
structure Delivered (query : Query T) (objects : Finset ObjectPath)
    (contents : ObjectPath → Bytes) (rows : List T) : Prop where
  readable : ∀ path ∈ objects, ∃ batch, readContent query (contents path) = .ok batch
  rows : (rows : Multiset T) = ∑ path ∈ objects,
    (((readContent query (contents path)).toOption.getD [] : List T) : Multiset T)

/-! ## What the store shows during a run -/

/-- The manifest has been switched. -/
def Stage.isPublished : Stage → Bool
  | .pointed _ | .promoted _ | .cleaning _ _ | .finished _ => true
  | _ => false

section Showing

variable {job : Job p} {s₀ s : Store} {stage : Stage}

/-- A published manifest stays published. -/
theorem isPublished_step (deleted : Bool) (h : stage.isPublished = true) (hat : At job s₀ s stage) :
    (Publication.step job deleted s stage).2.isPublished = true := by
  cases hat with
  | start | listed | scanned | prepared | staged | refused | unpublished => cases h
  | pointed hplan hvalid =>
      simp only [Publication.step, putChecked_eq]
      rfl
  | promoted hplan hvalid =>
      simp only [Publication.step, publish_of_valid hvalid.final]
      rfl
  | @cleaning plan gone stale cleanupFailures hplan hvalid hgone hstale hrest =>
      cases stale with
      | nil => rfl
      | cons path stale =>
          simp only [Publication.step]
          split
          · rfl
          · rfl
  | finished hplan hvalid hgone hall => rfl

/-- Before the switch the asset is listed as it was. -/
theorem At.unpublished_view (h : At job s₀ s stage) (hstage : stage.isPublished = false) :
    s.manifest = s₀.manifest ∧ s.list p.asset .normal = s₀.list p.asset .normal := by
  cases h with
  | start | listed | scanned | prepared | refused => exact ⟨rfl, rfl⟩
  | staged | unpublished => exact ⟨rfl, Plan.list_stagedStore _ _ _⟩
  | pointed | promoted | cleaning | finished => cases hstage

/-- A path is listed in the normal tree before the run, or it is the new one. -/
def Listed (job : Job p) (s₀ : Store) (path : ObjectPath) : Prop :=
  path.tree = .normal ∧
    (path ∈ s₀.list p.asset .normal ∨ ∃ bytes, job.encodeGroup = .ok (bytes, path.fileName))

/-- After the switch the manifest shows the new object, whatever has been listed. -/
theorem At.published_view (h : At job s₀ s stage) (hstage : stage.isPublished = true) :
    ∃ m, s.manifest = some m ∧ ∃ path bytes, job.encodeGroup = .ok (bytes, path.fileName) ∧
      ∀ files : Finset ObjectPath, (∀ file ∈ files, Listed job s₀ file) →
        visible files (some m) = {path} := by
  have hlisted : ∀ {plan : Plan}, PlannedFrom job s₀ plan → ∀ {file}, Listed job s₀ file →
      file = plan.recoveredPath ∨ file ∈ plan.superseded := by
    rintro plan hplan ⟨tree, fileName⟩ ⟨rfl, hmem | ⟨bytes, hencode⟩⟩
    · refine Or.inr ?_
      rw [hplan.superseded]
      exact Finset.mem_union_left _ (Finset.mem_union_left _ hmem)
    · have hsame := hencode.symm.trans hplan.encoded
      rw [Except.ok.injEq, Prod.mk.injEq] at hsame
      exact Or.inl (congrArg (ObjectPath.mk .normal) hsame.2)
  have hstaged : ∀ {plan : Plan}, PlannedFrom job s₀ plan →
      ∃ path bytes, job.encodeGroup = .ok (bytes, path.fileName) ∧
        ∀ files : Finset ObjectPath, (∀ file ∈ files, Listed job s₀ file) →
          visible files (some (job.stagedManifest plan)) = {path} := by
    intro plan hplan
    refine ⟨plan.stagedPath, plan.bytes, hplan.encoded, fun files hfiles => ?_⟩
    refine Finset.union_eq_right.mpr fun file hfile => ?_
    obtain ⟨hfile, hshown⟩ := Finset.mem_sdiff.mp hfile
    rw [List.mem_toFinset, Job.stagedManifest, mem_supersededObjects] at hshown
    refine absurd (Finset.mem_erase.mpr ⟨fun heq => ?_, Finset.mem_insert.mpr ?_⟩) hshown
    · have htree := (hfiles file hfile).1
      rw [heq] at htree
      cases htree
    · exact hlisted hplan (hfiles file hfile)
  have hfinal : ∀ {plan : Plan}, PlannedFrom job s₀ plan →
      ∃ path bytes, job.encodeGroup = .ok (bytes, path.fileName) ∧
        ∀ files : Finset ObjectPath, (∀ file ∈ files, Listed job s₀ file) →
          visible files (some (job.finalManifest plan)) = {path} := by
    intro plan hplan
    refine ⟨plan.recoveredPath, plan.bytes, hplan.encoded, fun files hfiles => ?_⟩
    refine Finset.union_eq_right.mpr fun file hfile => ?_
    obtain ⟨hfile, hshown⟩ := Finset.mem_sdiff.mp hfile
    rw [List.mem_toFinset, Job.finalManifest, mem_supersededObjects] at hshown
    by_cases heq : file = plan.recoveredPath
    · exact List.mem_toFinset.mpr (List.mem_singleton.mpr heq)
    · have hmem := (hlisted hplan (hfiles file hfile)).resolve_left heq
      exact absurd (Plan.mem_finalSuperseded.mpr ⟨heq, Or.inr hmem⟩) hshown
  cases h with
  | start | listed | scanned | prepared | staged | refused | unpublished => cases hstage
  | pointed hplan hvalid => exact ⟨_, rfl, hstaged hplan⟩
  | promoted hplan hvalid => exact ⟨_, rfl, hstaged hplan⟩
  | cleaning hplan hvalid hgone hstale hrest => exact ⟨_, rfl, hfinal hplan⟩
  | finished hplan hvalid hgone hall => exact ⟨_, rfl, hfinal hplan⟩

/-- An object of the store is one of before the run, or has the new content and its
name. -/
def Holds (job : Job p) (s₀ s : Store) : Prop :=
  ∀ path ∈ s.paths, (path ∈ s₀.paths ∧ s.bytes path = s₀.bytes path) ∨
    job.encodeGroup = .ok (s.bytes path, path.fileName)

/-- A store holds what it holds. -/
theorem Holds.refl (job : Job p) (s₀ : Store) : Holds job s₀ s₀ :=
  fun _ hmem => Or.inl ⟨hmem, rfl⟩

/-- An object of the job may be put. -/
theorem Holds.put (h : Holds job s₀ s) {new : ObjectPath} {bytes : Bytes}
    (hnew : job.encodeGroup = .ok (bytes, new.fileName)) : Holds job s₀ (s.put new bytes) := by
  intro path hmem
  rw [Store.bytes_put]
  by_cases heq : path = new
  · rw [if_pos heq, heq]
    exact Or.inr hnew
  · rw [if_neg heq]
    exact h path ((Store.mem_put.mp hmem).resolve_left heq)

/-- The store of a run holds the objects of before and the job's own. -/
theorem At.holds (h : At job s₀ s stage) : Holds job s₀ s := by
  have hstaged : ∀ {plan : Plan}, PlannedFrom job s₀ plan → Holds job s₀ (plan.stagedStore s₀) :=
    fun hplan => (Holds.refl job s₀).put hplan.encoded
  have hpromoted : ∀ {plan : Plan}, PlannedFrom job s₀ plan →
      Holds job s₀ (plan.promotedStore s₀) :=
    fun hplan => (hstaged hplan).put hplan.encoded
  cases h with
  | start | listed | scanned | prepared | refused => exact Holds.refl job s₀
  | staged hplan => exact hstaged hplan
  | unpublished hplan => exact hstaged hplan
  | pointed hplan hvalid => exact hstaged hplan
  | promoted hplan hvalid => exact hpromoted hplan
  | cleaning hplan hvalid hgone hstale hrest =>
      exact fun path hmem => hpromoted hplan path (Finset.mem_sdiff.mp hmem).1
  | finished hplan hvalid hgone hall =>
      exact fun path hmem => hpromoted hplan path (Finset.mem_sdiff.mp hmem).1

/-- What is listed in the normal tree at any time. -/
theorem At.listed_of_mem (h : At job s₀ s stage) {path : ObjectPath}
    (hpath : path ∈ s.list p.asset .normal) : Listed job s₀ path := by
  obtain ⟨hmem, htree, hmatches⟩ := Store.mem_list.mp hpath
  obtain ⟨hmem, -⟩ | hnew := h.holds path hmem
  · exact ⟨htree, Or.inl (Store.mem_list.mpr ⟨hmem, htree, hmatches⟩)⟩
  · exact ⟨htree, Or.inr ⟨_, hnew⟩⟩

/-! ## What a reader holds -/

/-- The views that a reader may resolve, with what their objects contain: the one
before the run and the new one. -/
inductive ViewOf (job : Job p) (s₀ : Store) : Finset ObjectPath → (ObjectPath → Bytes) → Prop
  | before : ViewOf job s₀ (s₀.view p.asset) s₀.bytes
  | after {path : ObjectPath} {bytes : Bytes}
      (h : job.encodeGroup = .ok (bytes, path.fileName)) : ViewOf job s₀ {path} fun _ => bytes

/-- An object of a view has its content as long as it is there. -/
theorem ViewOf.content {objects : Finset ObjectPath} {contents : ObjectPath → Bytes}
    (h : ViewOf job s₀ objects contents) (hat : At job s₀ s stage) (hs₀ : Sound p s₀)
    (hnames : ContentNamed job s₀) {path : ObjectPath} (hpath : path ∈ objects)
    (hmem : path ∈ s.paths) : s.bytes path = contents path := by
  cases h with
  | before =>
      obtain ⟨-, hsame⟩ | hnew := hat.holds path hmem
      · exact hsame
      · refine (hnames _ _ hnew path ?_ rfl).symm
        rw [Store.view_eq] at hpath
        cases hm : s₀.manifest with
        | none =>
            rw [hm] at hpath
            exact (Store.mem_list.mp hpath).1
        | some m =>
            rw [hm] at hpath
            obtain hpath | hpath := Finset.mem_union.mp hpath
            · exact (Store.mem_list.mp (Finset.mem_sdiff.mp hpath).1).1
            · exact (hs₀ m hm).2 path (List.mem_toFinset.mp hpath)
  | @after new bytes hencode =>
      obtain rfl := Finset.mem_singleton.mp hpath
      obtain ⟨hold, hsame⟩ | hnew := hat.holds path hmem
      · rw [hsame]
        exact hnames _ _ hencode path hold rfl
      · have hbytes := hnew.symm.trans hencode
        rw [Except.ok.injEq, Prod.mk.injEq] at hbytes
        exact hbytes.1

/-- What has been listed, at whatever stage of the run. -/
structure ListedAt (job : Job p) (s₀ : Store) (stage : Stage) (files : Finset ObjectPath) :
    Prop where
  listed : ∀ path ∈ files, Listed job s₀ path
  before : stage.isPublished = false → files = s₀.list p.asset .normal

/-- What a manifest shows of it is a view. -/
theorem ListedAt.view {files : Finset ObjectPath} (h : ListedAt job s₀ stage files)
    (hat : At job s₀ s stage) : ∃ contents, ViewOf job s₀ (visible files s.manifest) contents := by
  cases hstage : stage.isPublished with
  | false =>
      obtain ⟨hmanifest, -⟩ := hat.unpublished_view hstage
      rw [h.before hstage, hmanifest, ← Store.view_eq]
      exact ⟨_, .before⟩
  | true =>
      obtain ⟨m, hm, path, bytes, hencode, hshown⟩ := hat.published_view hstage
      rw [hm, hshown files h.listed]
      exact ⟨_, .after hencode⟩

variable {query : Query T}

/-- What a reader has at each of its stages. -/
inductive ReaderAt (job : Job p) (s₀ : Store) (query : Query T) (stage : Stage) : Reader T → Prop
  | listing (attempt : Nat) : ReaderAt job s₀ query stage (.listing attempt)
  | listed {files : Finset ObjectPath} (attempt : Nat) (h : ListedAt job s₀ stage files) :
      ReaderAt job s₀ query stage (.listed attempt files)
  | manifestListed {files : Finset ObjectPath} (attempt : Nat) (h : ListedAt job s₀ stage files) :
      ReaderAt job s₀ query stage (.manifestListed attempt files)
  | reading {objects pending : Finset ObjectPath} {contents : ObjectPath → Bytes}
      {rows : List T} (attempt elsewhere : Nat) (hview : ViewOf job s₀ objects contents)
      (hpending : pending ⊆ objects)
      (hdelivered : Delivered query (objects \ pending) contents rows) :
      ReaderAt job s₀ query stage (.reading attempt pending rows elsewhere)
  | done {objects : Finset ObjectPath} {contents : ObjectPath → Bytes} {rows : List T}
      (hview : ViewOf job s₀ objects contents)
      (hdelivered : Delivered query objects contents rows) :
      ReaderAt job s₀ query stage (.done rows)
  | failed (e : ReplayError) : ReaderAt job s₀ query stage (.failed e)

/-- A step of the run takes nothing from a reader. -/
theorem ReaderAt.writer {reader : Reader T} (h : ReaderAt job s₀ query stage reader)
    (hat : At job s₀ s stage) (deleted : Bool) :
    ReaderAt job s₀ query (Publication.step job deleted s stage).2 reader := by
  have hlisted : ∀ {files}, ListedAt job s₀ stage files →
      ListedAt job s₀ (Publication.step job deleted s stage).2 files := by
    refine fun h => ⟨h.listed, fun hstage => h.before ?_⟩
    cases hpublished : stage.isPublished with
    | false => rfl
    | true =>
        rw [isPublished_step deleted hpublished hat] at hstage
        cases hstage
  cases h with
  | listing attempt => exact .listing attempt
  | listed attempt h => exact .listed attempt (hlisted h)
  | manifestListed attempt h => exact .manifestListed attempt (hlisted h)
  | reading attempt elsewhere hview hpending hdelivered =>
      exact .reading attempt elsewhere hview hpending hdelivered
  | done hview hdelivered => exact .done hview hdelivered
  | failed e => exact .failed e

/-- A reader that begins again has listed nothing. -/
theorem ReaderAt.retry (job : Job p) (s₀ : Store) (query : Query T) (stage : Stage)
    (attempt : Nat) (e : ReplayError) :
    ReaderAt job s₀ query stage (Reader.retry attempt e) := by
  unfold Reader.retry
  split
  · exact .listing _
  · exact .failed _

/-- A resolved view has not been read from. -/
theorem ReaderAt.resolved {files : Finset ObjectPath} (h : ListedAt job s₀ stage files)
    (hat : At job s₀ s stage) (query : Query T) (attempt : Nat) :
    ReaderAt job s₀ query stage (.reading attempt (visible files s.manifest) [] 0) := by
  obtain ⟨contents, hview⟩ := h.view hat
  refine .reading attempt 0 hview (Finset.Subset.refl _) ⟨?_, ?_⟩
  · rw [Finset.sdiff_self]
    exact fun path hmem => absurd hmem (Finset.notMem_empty _)
  · rw [Finset.sdiff_self, Finset.sum_empty]
    rfl

/-- A reader follows the manifest that it finds. -/
theorem ReaderAt.follow {files : Finset ObjectPath} (h : ListedAt job s₀ stage files)
    (hat : At job s₀ s stage) (query : Query T) (attempt : Nat)
    {m : ParquetRecoveryManifest ObjectPath}
    (hm : s.manifest = some m) :
    ReaderAt job s₀ query stage (Reader.follow query p attempt files m) := by
  unfold Reader.follow
  split
  · exact .failed _
  · rw [← hm]
    exact .resolved h hat query attempt

/-- An object that is read adds its rows. -/
theorem Delivered.read {objects pending : Finset ObjectPath} {contents : ObjectPath → Bytes}
    {rows batch : List T} (h : Delivered query (objects \ pending) contents rows)
    (hpending : pending ⊆ objects) {path : ObjectPath} (hpath : path ∈ pending)
    (hread : readContent query (contents path) = .ok batch) :
    Delivered query (objects \ pending.erase path) contents (rows ++ batch) := by
  have hnotMem : path ∉ objects \ pending := fun hmem => (Finset.mem_sdiff.mp hmem).2 hpath
  have hsplit : objects \ pending.erase path = insert path (objects \ pending) :=
    Finset.sdiff_erase (hpending hpath)
  refine ⟨?_, ?_⟩
  · rw [hsplit]
    intro other hother
    obtain rfl | hother := Finset.mem_insert.mp hother
    · exact ⟨batch, hread⟩
    · exact h.readable other hother
  · rw [hsplit, Finset.sum_insert hnotMem, ← h.rows, hread, add_comm]
    rfl

section Steps

variable {reader : Reader T}

/-- Listing keeps the reader in step with the run. -/
theorem ReaderAt.list (h : ReaderAt job s₀ query stage reader) (hat : At job s₀ s stage) :
    ReaderAt job s₀ query stage (reader.list p s) := by
  have hsame := h
  cases h with
  | listing attempt =>
      exact .listed attempt ⟨fun path hmem => hat.listed_of_mem hmem,
        fun hstage => (hat.unpublished_view hstage).2⟩
  | listed | manifestListed | reading | done | failed => exact hsame

/-- Reading the manifests keeps the reader in step with the run. -/
theorem ReaderAt.manifests (h : ReaderAt job s₀ query stage reader) (hat : At job s₀ s stage) :
    ReaderAt job s₀ query stage (reader.manifests query p s) := by
  have hsame := h
  cases h with
  | listed attempt h =>
      simp only [Reader.manifests]
      split
      · rename_i hm
        rw [← hm]
        exact .resolved h hat query attempt
      · rename_i m hm
        split
        · exact .manifestListed attempt h
        · exact .follow h hat query attempt hm
  | manifestListed attempt h =>
      simp only [Reader.manifests]
      split
      · exact .failed _
      · rename_i m hm
        exact .follow h hat query attempt hm
  | listing | reading | done | failed => exact hsame

/-- Reading a file keeps the reader in step with the run. -/
theorem ReaderAt.read (h : ReaderAt job s₀ query stage reader) (hat : At job s₀ s stage)
    (hs₀ : Sound p s₀) (hnames : ContentNamed job s₀) (path : ObjectPath) :
    ReaderAt job s₀ query stage (reader.read query p s path) := by
  have hsame := h
  cases h with
  | @reading objects pending contents rows attempt elsewhere hview hpending hdelivered =>
      simp only [Reader.read]
      split
      · rename_i hpath
        split
        · exact .retry job s₀ query stage attempt _
        · rename_i batch hread
          split
          · exact .retry job s₀ query stage attempt tooManyRows
          · have hcontent := readContent_of_readParquetFile hread
            rw [hview.content hat hs₀ hnames (hpending hpath) hcontent.1] at hcontent
            exact .reading attempt elsewhere hview ((Finset.erase_subset _ _).trans hpending)
              (hdelivered.read hpending hpath hcontent.2)
      · exact hsame
  | listing | listed | manifestListed | done | failed => exact hsame

/-- A file outside the partition keeps the reader in step with the run. -/
theorem ReaderAt.readElsewhere (h : ReaderAt job s₀ query stage reader)
    (outcome : Except ReplayError Nat) :
    ReaderAt job s₀ query stage (reader.readElsewhere outcome) := by
  have hsame := h
  cases h with
  | reading attempt elsewhere hview hpending hdelivered =>
      cases outcome with
      | error e => exact .retry job s₀ query stage attempt e
      | ok count =>
          simp only [Reader.readElsewhere]
          split
          · exact .retry job s₀ query stage attempt tooManyRows
          · exact .reading attempt _ hview hpending hdelivered
  | listing | listed | manifestListed =>
      cases outcome with
      | error e => exact .failed e
      | ok count => exact hsame
  | done | failed => exact hsame

/-- Finishing keeps the reader in step with the run. -/
theorem ReaderAt.finish (h : ReaderAt job s₀ query stage reader) :
    ReaderAt job s₀ query stage reader.finish := by
  have hsame := h
  cases h with
  | reading attempt elsewhere hview hpending hdelivered =>
      simp only [Reader.finish]
      split
      · rename_i hempty
        rw [hempty, Finset.sdiff_empty] at hdelivered
        exact .done hview hdelivered
      · exact hsame
  | listing | listed | manifestListed | done | failed => exact hsame

end Steps

/-- The run keeps to its course and the reader to its views. -/
structure RaceAt (job : Job p) (s₀ : Store) (query : Query T) (r : Race T) : Prop where
  run : At job s₀ r.store r.stage
  reader : ReaderAt job s₀ query r.stage r.reader

/-- Every event of the race keeps reader and run in step. -/
theorem RaceAt.step {r : Race T} (h : RaceAt job s₀ query r) (hs₀ : Sound p s₀)
    (hnames : ContentNamed job s₀) (e : Event) : RaceAt job s₀ query (r.step job query e) := by
  cases e with
  | writer deleted => exact ⟨at_step h.run deleted, h.reader.writer h.run deleted⟩
  | list => exact ⟨h.run, h.reader.list h.run⟩
  | manifests => exact ⟨h.run, h.reader.manifests h.run⟩
  | read path => exact ⟨h.run, h.reader.read h.run hs₀ hnames path⟩
  | elsewhere outcome => exact ⟨h.run, h.reader.readElsewhere outcome⟩
  | finish => exact ⟨h.run, h.reader.finish⟩

/-- **Recovery publication is atomic to readers.** -/
theorem publication_atomic_to_readers (h : Reachable p s₀) (job : Job p)
    (hnames : ContentNamed job s₀) (query : Query T) (events : List Event) {rows : List T}
    (hdone : (Runs.run (Race.step job query) (Race.init s₀) events).reader = .done rows) :
    Delivered query (s₀.view p.asset) s₀.bytes rows ∨
      ∃ new, query.extractor (job.records.map PersistedRecord.asStored) = .ok new ∧
        rows.Perm new := by
  have hinit : RaceAt job s₀ query (Race.init s₀) := ⟨.start, .listing 0⟩
  have hrace := (Runs.run_induction (fun _ e hr => hr.step h.sound hnames e) hinit events).reader
  rw [hdone] at hrace
  cases hrace with
  | done hview hdelivered =>
      cases hview with
      | before => exact Or.inl hdelivered
      | @after path bytes hencode =>
          obtain ⟨new, hread⟩ := hdelivered.readable path (Finset.mem_singleton_self path)
          have hrows := hdelivered.rows
          rw [Finset.sum_singleton, hread] at hrows
          exact Or.inr ⟨new, extractor_of_readContent (decode_of_encodeGroup hencode) hread,
            Multiset.coe_eq_coe.mp hrows⟩

end Showing

end Reading

namespace OneHour

/-- The sample's query takes every record of the hour. -/
def wholeHour : Query PersistedRecord := ⟨false, .ok⟩

/-- The name of the new object. -/
def retainedName : String := "7_1699999260000000_c4582ec2879a3604_10.parquet"

/-- The object that the sample's rebuild writes. -/
theorem encodeGroup_rebuild :
    @Job.encodeGroup hour rebuild format = .ok (retained.2, retainedName) := by
  decide +kernel

/-- The sample's objects are named by their content. -/
theorem contentNamed_rebuild : @ContentNamed format hour rebuild live := by
  intro bytes fileName hencode path hpath hname
  rw [encodeGroup_rebuild] at hencode
  cases hencode
  rw [Finset.mem_singleton.mp hpath] at hname
  exact absurd hname (by decide +kernel)

/-- The reader resolves the old view, and the new object is staged and promoted. -/
def during : List Event :=
  [.list, .manifests] ++ (List.replicate 6 true).map .writer ++ [.read flushedPath, .finish]

attribute [local instance] format in
/-- The sample's reader, which reads while the writer publishes. -/
theorem reader_during :
    (Runs.run (Race.step rebuild wholeHour) (Race.init live) during).reader = .done [bid 1] := by
  have hlisted : Runs.run (Race.step rebuild wholeHour) (Race.init live) [.list, .manifests] =
      ⟨live, .start, .reading 0 {flushedPath} [] 0⟩ := rfl
  obtain ⟨-, hpromoted⟩ := (Reachable.live (s := live) rfl).sound.promoted
    ⟨by decide, by decide, by decide⟩ encodeGroup_rebuild
  rw [during, Runs.run_append, Runs.run_append, hlisted, Race.run_writer, hpromoted]
  rfl

end OneHour

open OneHour in
/-- A reader that has resolved the old view reads it while the new object is promoted. -/
theorem publication_atomic_to_reader_during :
    @Delivered _ format wholeHour (live.view "7") live.bytes [bid 1] ∨
      ∃ new, wholeHour.extractor (rebuild.records.map PersistedRecord.asStored) = .ok new ∧
        [bid 1].Perm new :=
  @publication_atomic_to_readers PersistedRecord format hour live
    (@Reachable.live format hour live rfl) rebuild contentNamed_rebuild wholeHour during _
    reader_during

end PolyBook.Publication
