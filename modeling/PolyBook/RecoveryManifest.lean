import Mathlib.Data.Finset.Sort
import Mathlib.Data.Prod.Lex
import Mathlib.Data.String.Basic
import PolyBook.RecoveryWriter
import PolyBook.Wal.Frame

/-!
# The recovery manifest of a partition

Once an hour of an asset has been recovered, a manifest says which objects hold its
records and which ones are to be ignored.  Writer and readers check that a manifest
speaks of its own partition before they follow it.
-/

namespace PolyBook.Publication

open Wal

/-- Where an object of the hour lies: below `_recovery_objects`, or in the normal
tree. -/
inductive Tree where
  | recovery
  | normal
  deriving DecidableEq

/-- The path of an object, below the prefix of its tree, dataset and hour. -/
structure ObjectPath where
  tree : Tree
  fileName : String
  deriving DecidableEq

namespace ObjectPath

/-- `_recovery_objects` sorts before the datasets. -/
def key (path : ObjectPath) : Nat ×ₗ String :=
  toLex (match path.tree with | .recovery => 0 | .normal => 1, path.fileName)

theorem key_injective : Function.Injective key := by
  rintro ⟨tree, fileName⟩ ⟨tree', fileName'⟩ h
  cases tree <;> cases tree' <;> simp_all [key]

/-- The order of the paths as texts. -/
instance : LinearOrder ObjectPath := LinearOrder.lift' key key_injective

end ObjectPath

/-- The place of the store, and the dataset, the asset's storage key and the hour that
a run replaces. -/
structure Partition where
  basePath : String
  dataset : String
  asset : String
  hourKey : String

namespace Partition

variable (p : Partition)

/-- `child_path`. -/
def childPath (suffix : String) : String :=
  if p.basePath.isEmpty then suffix else p.basePath ++ "/" ++ suffix

/-- `recovery_manifest_path`. -/
def manifestPath : String :=
  p.childPath ("_recovery_manifests/" ++ p.dataset ++ "/" ++ p.hourKey ++ "/" ++ p.asset ++ ".json")

/-- The text of a path. -/
def objectPath (path : ObjectPath) : String :=
  p.childPath ((match path.tree with | .recovery => "_recovery_objects/" | .normal => "") ++
    p.dataset ++ "/" ++ p.hourKey ++ "/" ++ path.fileName)

/-- A manifest may speak of it. -/
structure Named : Prop where
  dataset : p.dataset ≠ ""
  asset : p.asset ≠ ""
  hourKey : p.hourKey ≠ ""

end Partition

/-- `PARQUET_RECOVERY_MANIFEST_VERSION`. -/
def manifestVersion : Nat := 1

/-- `ParquetRecoveryManifest`, over what stands for the path of an object: its text as it is
stored, or the path itself. -/
structure ParquetRecoveryManifest (α : Type) where
  version : Nat
  dataset : String
  assetKey : String
  hourKey : String
  coveredStartUs : Nat
  coveredEndUs : Nat
  activeObjects : List α
  supersededObjects : List α
  deriving DecidableEq

section Manifest

variable {α : Type}

/-- `validate`. -/
def ParquetRecoveryManifest.validate [DecidableEq α] (m : ParquetRecoveryManifest α) :
    Except String Unit :=
  if m.version ≠ manifestVersion then
    .error ("unsupported recovery manifest version " ++ toString m.version ++ ", expected " ++
      toString manifestVersion)
  else if m.dataset.isEmpty || m.assetKey.isEmpty || m.hourKey.isEmpty then
    .error "recovery manifest identity fields must not be empty"
  else if m.coveredEndUs ≤ m.coveredStartUs then
    .error "recovery manifest coverage must be an increasing range"
  else if m.activeObjects.isEmpty then
    .error "recovery manifest must name at least one active object"
  else if m.activeObjects.any fun active => m.supersededObjects.contains active then
    .error "recovery manifest cannot supersede an active object"
  else .ok ()

theorem validate_eq_ok [DecidableEq α] {m : ParquetRecoveryManifest α} : m.validate = .ok () ↔
    m.version = manifestVersion ∧ (m.dataset ≠ "" ∧ m.assetKey ≠ "" ∧ m.hourKey ≠ "") ∧
      m.coveredStartUs < m.coveredEndUs ∧ m.activeObjects ≠ [] ∧
        ∀ active ∈ m.activeObjects, active ∉ m.supersededObjects := by
  unfold ParquetRecoveryManifest.validate
  split_ifs with hversion hidentity hcoverage hactive hhidden
  all_goals simp_all
  all_goals tauto

/-- What a manifest names. -/
def namedObjects [DecidableEq α] : Option (ParquetRecoveryManifest α) → Finset α
  | none => ∅
  | some m => m.activeObjects.toFinset ∪ m.supersededObjects.toFinset

/-- The manifest of a phase of the publication; what it supersedes comes from an ordered
set. -/
def phaseManifest [LinearOrder α] (p : Partition) (coverage : RecoveryCoverage) (active : α)
    (superseded : Finset α) : ParquetRecoveryManifest α where
  version := manifestVersion
  dataset := p.dataset
  assetKey := p.asset
  hourKey := p.hourKey
  coveredStartUs := coverage.startUs
  coveredEndUs := coverage.endUs
  activeObjects := [active]
  supersededObjects := superseded.sort

@[simp] theorem mem_supersededObjects [LinearOrder α] {p : Partition}
    {coverage : RecoveryCoverage} {active path : α} {superseded : Finset α} :
    path ∈ (phaseManifest p coverage active superseded).supersededObjects ↔ path ∈ superseded :=
  Finset.mem_sort _

end Manifest

/-- What the object store holds for one dataset and one hour, of all assets, and the
recovery manifest of one asset. -/
structure Store where
  paths : Finset ObjectPath
  bytes : ObjectPath → Bytes
  manifest : Option (ParquetRecoveryManifest ObjectPath)

namespace Store

/-- The bytes of an object that is there. -/
def get (s : Store) (path : ObjectPath) : Option Bytes :=
  if path ∈ s.paths then some (s.bytes path) else none

/-- An object is written, or written over. -/
def put (s : Store) (path : ObjectPath) (bytes : Bytes) : Store :=
  { s with
    paths := insert path s.paths
    bytes := fun other => if other = path then bytes else s.bytes other }

/-- An object is removed. -/
def delete (s : Store) (path : ObjectPath) : Store := { s with paths := s.paths.erase path }

/-- `group_objects` and `recovery_group_objects`: the objects of an asset in a tree. -/
def list (s : Store) (asset : String) (tree : Tree) : Finset ObjectPath :=
  s.paths.filter fun path =>
    path.tree = tree ∧ storageObjectFileMatchesAsset path.fileName asset = true

/-- The objects that a reader of an asset reads. -/
def view (s : Store) (asset : String) : Finset ObjectPath :=
  match s.manifest with
  | none => s.list asset .normal
  | some m => s.list asset .normal \ m.supersededObjects.toFinset ∪ m.activeObjects.toFinset

end Store

/-- `validate_recovery_manifest_scope`; a path of the store has the prefix of its
dataset and hour. -/
def validateScope (p : Partition) (m : ParquetRecoveryManifest ObjectPath) :
    Except StoreError Unit :=
  let identityMatches := m.dataset = p.dataset ∧ m.assetKey = p.asset ∧ m.hourKey = p.hourKey
  let matchesAsset := fun path : ObjectPath => storageObjectFileMatchesAsset path.fileName p.asset
  if identityMatches ∧ (∀ path ∈ m.activeObjects, matchesAsset path = true) ∧
      ∀ path ∈ m.supersededObjects, matchesAsset path = true then .ok ()
  else .error (.unsafeRecovery ("recovery manifest " ++ p.manifestPath ++
    " does not match its partition scope"))

/-- `read_recovery_manifest`. -/
def readManifest (p : Partition) (s : Store) :
    Except StoreError (Option (ParquetRecoveryManifest ObjectPath)) :=
  match s.manifest with
  | none => .ok none
  | some m =>
      match m.validate with
      | .error e => .error (.unsafeRecovery e)
      | .ok () =>
          match validateScope p m with
          | .error e => .error e
          | .ok () => .ok (some m)

/-- `publish_recovery_manifest`. -/
def publish (p : Partition) (m : ParquetRecoveryManifest ObjectPath) (s : Store) :
    Store × Except StoreError Unit :=
  match m.validate with
  | .error e => (s, .error (.unsafeRecovery e))
  | .ok () =>
      match validateScope p m with
      | .error e => (s, .error e)
      | .ok () =>
          let s := { s with manifest := some m }
          match readManifest p s with
          | .error e => (s, .error e)
          | .ok none => (s, .error (.unsafeRecovery ("recovery manifest " ++
              p.manifestPath ++ " disappeared after publication")))
          | .ok (some published) =>
              if published = m then (s, .ok ())
              else (s, .error (.unsafeRecovery ("recovery manifest " ++ p.manifestPath ++
                " failed read-after-write verification")))

/-- A `put` and the `head` that checks its size. -/
def putChecked (p : Partition) (what : String) (path : ObjectPath) (bytes : Bytes) (s : Store) :
    Store × Except StoreError Unit :=
  let s := s.put path bytes
  match s.get path with
  | none => (s, .error (.objectStore ("Object at location " ++ p.objectPath path ++ " not found")))
  | some written =>
      if written.length = bytes.length then (s, .ok ())
      else (s, .error (.unsafeRecovery (what ++ " recovery object " ++ p.objectPath path ++
        " has size " ++ toString written.length ++ ", expected " ++ toString bytes.length)))

/-! ## What the operations do -/

section Operations

variable {p : Partition} {s : Store} {path other : ObjectPath} {bytes : Bytes}

theorem Store.mem_put : other ∈ (s.put path bytes).paths ↔ other = path ∨ other ∈ s.paths :=
  Finset.mem_insert

theorem Store.bytes_put : (s.put path bytes).bytes other =
    if other = path then bytes else s.bytes other := rfl

theorem Store.get_put : (s.put path bytes).get other =
    if other = path then some bytes else s.get other := by
  unfold Store.get Store.put
  by_cases h : other = path
  · simp [h]
  · simp [h]

theorem Store.mem_list {asset : String} {tree : Tree} : path ∈ s.list asset tree ↔
    path ∈ s.paths ∧ path.tree = tree ∧
      storageObjectFileMatchesAsset path.fileName asset = true := Finset.mem_filter

/-- The check sees the object that was put. -/
theorem putChecked_eq (p : Partition) (what : String) (path : ObjectPath) (bytes : Bytes)
    (s : Store) : putChecked p what path bytes s = (s.put path bytes, .ok ()) := by
  unfold putChecked
  simp only [Store.get_put, if_true]

end Operations

/-- A manifest that a run may write and a reader may read. -/
structure Valid (p : Partition) (m : ParquetRecoveryManifest ObjectPath) : Prop where
  validated : m.validate = .ok ()
  inScope : validateScope p m = .ok ()

section Manifests

variable {p : Partition} {m : ParquetRecoveryManifest ObjectPath}

theorem validateScope_eq_ok : validateScope p m = .ok () ↔
    (m.dataset = p.dataset ∧ m.assetKey = p.asset ∧ m.hourKey = p.hourKey) ∧
      (∀ path ∈ m.activeObjects, storageObjectFileMatchesAsset path.fileName p.asset = true) ∧
      ∀ path ∈ m.supersededObjects,
        storageObjectFileMatchesAsset path.fileName p.asset = true := by
  simp only [validateScope]
  split_ifs with h
  · simp only [true_iff]
    exact h
  · simp only [false_iff]
    exact h

theorem readManifest_of_valid {s : Store} (h : Valid p m) (hm : s.manifest = some m) :
    readManifest p s = .ok (some m) := by
  simp only [readManifest, hm, h.validated, h.inScope]

/-- What is read is what the store holds. -/
theorem manifest_of_read {s : Store} {read : Option (ParquetRecoveryManifest ObjectPath)}
    (h : readManifest p s = .ok read) : s.manifest = read := by
  unfold readManifest at h
  split at h
  · cases h
    assumption
  · split at h
    · cases h
    · split at h
      · cases h
      · cases h
        assumption

theorem publish_of_valid {s : Store} (h : Valid p m) :
    publish p m s = ({ s with manifest := some m }, .ok ()) := by
  have hread : readManifest p { s with manifest := some m } = .ok (some m) :=
    readManifest_of_valid h rfl
  simp only [publish, h.validated, h.inScope, hread, if_true]

/-- A manifest is published as it is, or not at all. -/
theorem publish_cases (p : Partition) (m : ParquetRecoveryManifest ObjectPath) (s : Store) :
    (Valid p m ∧ publish p m s = ({ s with manifest := some m }, .ok ())) ∨
      ∃ e, publish p m s = (s, .error e) := by
  cases hvalidated : m.validate with
  | error e => exact Or.inr ⟨.unsafeRecovery e, by simp only [publish, hvalidated]⟩
  | ok _ =>
      cases hscoped : validateScope p m with
      | error e => exact Or.inr ⟨e, by simp only [publish, hvalidated, hscoped]⟩
      | ok _ => exact Or.inl ⟨⟨hvalidated, hscoped⟩, publish_of_valid ⟨hvalidated, hscoped⟩⟩

end Manifests

end PolyBook.Publication
