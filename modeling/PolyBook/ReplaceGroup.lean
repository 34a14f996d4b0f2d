import PolyBook.Library.Hoare
import PolyBook.RecoveryMetadata
import PolyBook.WriteBatch

/-!
# Replacing a group, request by request

`replace_group` collects what it is to supersede from two listings and from the manifest
that is there, publishes a manifest twice, and deletes what the second one supersedes.
Any request may fail, and any bytes may lie where the manifest lies.

The run is a program over the store; what it keeps at each request is said by triples.
`metadata_cannot_widen_deletion` is what follows for the objects it deletes.
-/

namespace PolyBook.Metadata

open Wal Publication Hoare

/-! ## The store -/

/-- What becomes of a request.  One that fails may have taken effect. -/
inductive Fate where
  | served
  | failed (message : String) (effective : Bool)

/-- How a run fails: with an error, or by an `expect`. -/
inductive Failure where
  | error (e : StoreError)
  | json (message : String)
  | panicked (message : String)

/-- Failures that the caller gets as an error; a panic is none. -/
def Failure.IsError : Failure → Prop
  | .error _ => True
  | .json _ => True
  | .panicked _ => False

/-- The objects, how many requests there have been, and the paths of those that put or
deleted. -/
structure World where
  objects : Objects
  requests : Nat
  puts : List String
  deletes : List String

/-- A computation over the object store that may fail. -/
abbrev Run := EStateM Failure World

section Requests

variable {α : Type} (fate : Nat → Fate)

/-- A request that changes no object. -/
def ask (answer : Objects → Except Failure α) : Run α := fun w =>
  let asked : World := { w with requests := w.requests + 1 }
  match fate w.requests with
  | .failed message _ => .error (.error (.objectStore message)) asked
  | .served =>
      match answer w.objects with
      | .ok a => .ok a asked
      | .error e => .error e asked

/-- `list`. -/
def list (dir : String) : Run (List String) := ask fate fun objects => .ok (listBelow objects dir)

/-- `get`, with nothing where there is no object. -/
def get (path : String) : Run (Option Bytes) := ask fate fun objects => .ok objects[path]?

/-- `head`: the size. -/
def head (path : String) : Run Nat := ask fate fun objects =>
  match objects[path]? with
  | none => .error (.error (.objectStore ("Object at location " ++ path ++ " not found")))
  | some bytes => .ok bytes.length

/-- `put`. -/
def put (path : String) (bytes : Bytes) : Run Unit := fun w =>
  let asked : World := { w with requests := w.requests + 1, puts := w.puts ++ [path] }
  let stored : World := { asked with objects := w.objects.insert path bytes }
  match fate w.requests with
  | .served => .ok () stored
  | .failed message true => .error (.error (.objectStore message)) stored
  | .failed message false => .error (.error (.objectStore message)) asked

/-- `delete`, and whether that failed; an object that is not there is no failure. -/
def delete (path : String) : Run Bool := fun w =>
  let asked : World := { w with requests := w.requests + 1, deletes := w.deletes ++ [path] }
  let deleted : World := { asked with objects := w.objects.erase path }
  match fate w.requests with
  | .served => .ok false deleted
  | .failed _ true => .ok true deleted
  | .failed _ false => .ok true asked

/-- A result of the pure part, with its error as a failure. -/
def ofExcept {ε : Type} (failure : ε → Failure) : Except ε α → Run α
  | .ok a => pure a
  | .error e => throw (failure e)

/-- A check, or its failure. -/
def ensure (condition : Bool) (failure : Failure) : Run Unit :=
  if condition then pure () else throw failure

end Requests

/-! ## The run -/

section Run

variable [PathParser] [ManifestFormat] [ParquetFormat]

/-- `ObjectPath::parse` of a path that is expected to be valid. -/
def parsed (text : String) : Run String :=
  ofExcept (fun _ : String =>
    .panicked "validated base plus internal suffix is a valid object path") (PathParser.parse text)

/-- A path below the base path, parsed. -/
def childPath (p : Partition) (suffix : String) : Run String := parsed (p.childPath suffix)

/-- The directory of the partition's published objects. -/
def normalPath (p : Partition) : Run String := childPath p (p.dataset ++ "/" ++ p.hourKey)

/-- The directory of the partition's staged objects. -/
def stagingPath (p : Partition) : Run String :=
  childPath p ("_recovery_objects/" ++ p.dataset ++ "/" ++ p.hourKey)

variable (fate : Nat → Fate) (p : Partition)

/-- The objects of the asset below a directory. -/
def objectsBelow (dir : Run String) : Run (List String) := do
  let dir ← dir
  let existing ← list fate dir
  pure (existing.filter fun path =>
    (filename path).any fun name => storageObjectFileMatchesAsset name p.asset)

/-- `group_objects`. -/
def groupObjects : Run (List String) := objectsBelow fate p (normalPath p)

/-- `recovery_group_objects`. -/
def recoveryGroupObjects : Run (List String) := objectsBelow fate p (stagingPath p)

/-- `validate_recovery_manifest_scope`. -/
def validateScope (path : String) (m : ParquetRecoveryManifest String) : Run Unit := do
  let recoveryPrefix ← stagingPath p
  let normalPrefix ← normalPath p
  ensure (fitsScope p path normalPrefix recoveryPrefix m) (.error (.unsafeRecovery
    ("recovery manifest " ++ path ++ " does not match its partition scope")))

/-- The checks of `read_recovery_manifest` on the bytes. -/
def checkedManifest (path : String) (bytes : Bytes) : Run (ParquetRecoveryManifest String) := do
  let manifest ← ofExcept .json (ManifestFormat.decode bytes)
  ofExcept (fun e => .error (.unsafeRecovery e)) manifest.validate
  validateScope p path manifest
  pure manifest

/-- `read_recovery_manifest`. -/
def readRecoveryManifest (path : String) : Run (Option (ParquetRecoveryManifest String)) := do
  match ← get fate path with
  | none => pure none
  | some bytes =>
      let manifest ← checkedManifest p path bytes
      pure (some manifest)

/-- The comparison with what is read back. -/
def verifyPublished (path : String) (m : ParquetRecoveryManifest String) :
    Option (ParquetRecoveryManifest String) → Run Unit
  | none => throw (.error (.unsafeRecovery
      ("recovery manifest " ++ path ++ " disappeared after publication")))
  | some published => ensure (decide (published = m)) (.error (.unsafeRecovery
      ("recovery manifest " ++ path ++ " failed read-after-write verification")))

/-- `publish_recovery_manifest`. -/
def publishRecoveryManifest (path : String) (m : ParquetRecoveryManifest String) : Run Unit := do
  ofExcept (fun e => .error (.unsafeRecovery e)) m.validate
  validateScope p path m
  let bytes ← ofExcept .json (ManifestFormat.encode m)
  put fate path bytes
  let published ← readRecoveryManifest fate p path
  verifyPublished path m published

/-- A `put` and the `head` that checks its size. -/
def putChecked (what path : String) (bytes : Bytes) : Run Unit := do
  put fate path bytes
  let written ← head fate path
  ensure (written == bytes.length) (.error (.unsafeRecovery (what ++ " recovery object " ++ path ++
    " has size " ++ toString written ++ ", expected " ++ toString bytes.length)))

/-- One turn of the cleanup loop. -/
def cleanUp (failures : Nat) (stale : String) : Run Nat := do
  let path ← ofExcept (fun e => .error (.unsafeRecovery
    ("invalid superseded object path " ++ stale ++ ": " ++ e))) (PathParser.parse stale)
  let failed ← delete fate path
  pure (if failed then failures + 1 else failures)

/-- `replace_group` of a group with a first record; the failures of the cleanup. -/
def replaceGroup (coverage : RecoveryCoverage) (first : PersistedRecord)
    (rest : List PersistedRecord) : Run Nat := do
  let existing ← groupObjects fate p
  let abandoned ← recoveryGroupObjects fate p
  let manifestPath ← parsed p.manifestPath
  let previous ← readRecoveryManifest fate p manifestPath
  let (bytes, fileName) ← ofExcept .error (ParquetRecordWriter.encodeGroup first rest)
  let stagedPath ← childPath p
    ("_recovery_objects/" ++ p.dataset ++ "/" ++ p.hourKey ++ "/" ++ fileName)
  let recoveredPath ← childPath p (p.dataset ++ "/" ++ p.hourKey ++ "/" ++ fileName)
  putChecked fate "staged" stagedPath bytes
  let superseded := existing.toFinset ∪ abandoned.toFinset ∪ namedObjects previous
  -- Readers switch to the staged object, and stay on it while the other is promoted.
  publishRecoveryManifest fate p manifestPath (phaseManifest p coverage stagedPath
    ((insert recoveredPath superseded).erase stagedPath))
  putChecked fate "promoted" recoveredPath bytes
  let finalSuperseded := (insert stagedPath superseded).erase recoveredPath
  publishRecoveryManifest fate p manifestPath
    (phaseManifest p coverage recoveredPath finalSuperseded)
  finalSuperseded.sort.foldlM (cleanUp fate) 0

end Run

/-! ## What a request keeps -/

/-- A condition that requests do not change by being made, and that holds where they
fail. -/
structure Frame (I : World → Prop) (E : Failure → World → Prop) : Prop where
  steady : ∀ w requests, I w → I { w with requests := requests }
  fails : ∀ e w, e.IsError → I w → E e w

section Requests

variable {α : Type} {I : World → Prop} {E : Failure → World → Prop}

/-- A request changes no object, and what it answers is true of the store. -/
theorem ask_spec (frame : Frame I E) (fate : Nat → Fate) {answer : Objects → Except Failure α}
    (herror : ∀ objects e, answer objects = .error e → e.IsError) :
    Triple I (ask fate answer) (fun a w => I w ∧ answer w.objects = .ok a) E := by
  intro w hw
  have hasked := frame.steady w (w.requests + 1) hw
  unfold ask
  cases fate w.requests with
  | failed message effective => exact frame.fails _ _ trivial hasked
  | served =>
      cases hanswer : answer w.objects with
      | ok a => exact ⟨hasked, hanswer⟩
      | error e => exact frame.fails _ _ (herror _ _ hanswer) hasked

/-- Listing changes no object. -/
theorem list_spec (frame : Frame I E) (fate : Nat → Fate) (dir : String) :
    Triple I (list fate dir) (fun _ => I) E :=
  (ask_spec frame fate fun _ _ h => by cases h).consequence (fun _ hw => hw) (fun _ _ h => h.1)
    fun _ _ h => h

/-- Getting gives the bytes that lie at the path. -/
theorem get_spec (frame : Frame I E) (fate : Nat → Fate) (path : String) :
    Triple I (get fate path) (fun bytes w => I w ∧ w.objects[path]? = bytes) E :=
  (ask_spec frame fate fun _ _ h => by cases h).consequence (fun _ hw => hw)
    (fun _ _ h => ⟨h.1, Except.ok.inj h.2⟩) fun _ _ h => h

/-- Asking for an object's head changes no object. -/
theorem head_spec (frame : Frame I E) (fate : Nat → Fate) (path : String) :
    Triple I (head fate path) (fun _ => I) E := by
  refine (ask_spec frame fate ?_).consequence (fun _ hw => hw) (fun _ _ h => h.1) fun _ _ h => h
  intro objects e h
  split at h
  · cases h
    trivial
  · cases h

/-- The pure part changes nothing. -/
theorem ofExcept_spec {ε : Type} {failure : ε → Failure} {x : Except ε α}
    (hfailure : ∀ e w, I w → E (failure e) w) :
    Triple I (ofExcept failure x) (fun a w => I w ∧ x = .ok a) E := by
  cases x with
  | ok a => exact fun w hw => ⟨hw, rfl⟩
  | error e => exact hfailure e

/-- A check changes nothing. -/
theorem ensure_spec {condition : Bool} {failure : Failure}
    (hfailure : ∀ w, I w → E failure w) :
    Triple I (ensure condition failure) (fun _ w => I w ∧ condition = true) E := by
  cases condition with
  | true => exact fun w hw => ⟨hw, rfl⟩
  | false => exact hfailure

end Requests

/-! ## The checks of a manifest -/

section Checks

variable [PathParser] [ManifestFormat] {p : Partition} (place : Place p)

/-- The bytes are those of a manifest that passes the checks. -/
structure Accepted (path : String) (bytes : Bytes) (m : ParquetRecoveryManifest String) : Prop where
  decoded : ManifestFormat.decode bytes = .ok m
  validated : m.validate = .ok ()
  inScope : fitsScope p path place.normalDir place.stagingDir m = true

/-- **A manifest of a publication passes the checks** of its bytes exactly when it is valid. -/
theorem accepted_texts_iff {m : ParquetRecoveryManifest ObjectPath} {bytes : Bytes}
    (hasset : '/' ∉ p.asset.toList) (hplain : PlainNames m)
    (hdecode : ManifestFormat.decode bytes = .ok (place.texts m)) :
    Accepted place place.manifestPath bytes (place.texts m) ↔ Valid p m := by
  constructor
  · intro h
    exact ⟨(place.validate_texts hplain).mp h.validated,
      (place.fitsScope_texts hasset hplain).mp h.inScope⟩
  · intro h
    exact ⟨hdecode, (place.validate_texts hplain).mpr h.validated,
      (place.fitsScope_texts hasset hplain).mpr h.inScope⟩

variable {I : World → Prop} {E : Failure → World → Prop} {fate : Nat → Fate}

omit [ManifestFormat] in
/-- A text that parses is the path it stands for. -/
theorem parsed_spec {text path : String} (h : PathParser.parse text = .ok path) :
    Triple I (parsed text) (fun found w => I w ∧ found = path) E := by
  rw [parsed, h]
  exact fun w hw => ⟨hw, rfl⟩

omit [ManifestFormat] in
/-- The directory of published objects is the place's. -/
theorem normalPath_spec : Triple I (normalPath p) (fun dir w => I w ∧ dir = place.normalDir) E :=
  parsed_spec place.normalDir_eq

omit [ManifestFormat] in
/-- The directory of staged objects is the place's. -/
theorem stagingPath_spec : Triple I (stagingPath p) (fun dir w => I w ∧ dir = place.stagingDir) E :=
  parsed_spec place.stagingDir_eq

omit [PathParser] [ManifestFormat] in
/-- Every object that is listed is named for the asset. -/
theorem objectsBelow_spec (frame : Frame I E) {dir : Run String} {found : String}
    (hdir : Triple I dir (fun path w => I w ∧ path = found) E) :
    Triple I (objectsBelow fate p dir)
      (fun paths w => I w ∧ ∀ path ∈ paths, NamedFor p.asset path) E := by
  refine hdir.bind fun path => ?_
  refine ((list_spec frame fate path).weaken fun _ h => h.1).bind fun existing => ?_
  refine fun w hw => ⟨hw, ?_⟩
  intro path hpath
  exact (Option.any_eq_true _ _).mp (List.mem_filter.mp hpath).2

omit [ManifestFormat] in
/-- A manifest that passes has the scope of its path. -/
theorem validateScope_spec (frame : Frame I E) (path : String)
    (m : ParquetRecoveryManifest String) :
    Triple I (validateScope p path m)
      (fun _ w => I w ∧ fitsScope p path place.normalDir place.stagingDir m = true) E := by
  refine (stagingPath_spec place).bind fun recoveryPrefix => ?_
  refine .assume (fun _ h => h.2) ?_
  rintro rfl
  refine ((normalPath_spec place).weaken fun _ h => h.1).bind fun normalPrefix => ?_
  refine .assume (fun _ h => h.2) ?_
  rintro rfl
  exact Triple.weaken (ensure_spec fun w hw => frame.fails _ w trivial hw) fun _ h => h.1

/-- A manifest that passes all checks is accepted. -/
theorem checkedManifest_spec (frame : Frame I E) (path : String) (bytes : Bytes) :
    Triple I (checkedManifest p path bytes)
      (fun m w => I w ∧ Accepted place path bytes m) E := by
  refine Triple.bind (ofExcept_spec fun e w hw => frame.fails _ w trivial hw) fun m => ?_
  refine .assume (fun _ h => h.2) fun hdecoded => ?_
  refine Triple.bind (Triple.weaken (ofExcept_spec fun e w hw => frame.fails _ w trivial hw)
    fun _ h => h.1) fun _ => ?_
  refine .assume (fun _ h => h.2) fun hvalidated => ?_
  refine ((validateScope_spec place frame path m).weaken fun _ h => h.1).bind fun _ => ?_
  exact fun w h => ⟨h.1, hdecoded, hvalidated, h.2⟩

/-- What `read_recovery_manifest` gives: the manifest that lies there, checked. -/
structure ReadBack (path : String) (found : Option (ParquetRecoveryManifest String))
    (w : World) : Prop where
  absent : found = none → w.objects[path]? = none
  present : ∀ m, found = some m → ∃ bytes, w.objects[path]? = some bytes ∧
    Accepted place path bytes m

/-- Reading gives no manifest, or an accepted one. -/
theorem readRecoveryManifest_spec (frame : Frame I E) (path : String) :
    Triple I (readRecoveryManifest fate p path)
      (fun found w => I w ∧ ReadBack place path found w) E := by
  refine (get_spec frame fate path).bind fun content => ?_
  cases content with
  | none => exact fun w h => ⟨h.1, ⟨fun _ => h.2, fun m hm => (Option.some_ne_none m hm.symm).elim⟩⟩
  | some bytes =>
      have hframe : Frame (fun w => I w ∧ w.objects[path]? = some bytes) E :=
        ⟨fun w n h => ⟨frame.steady w n h.1, h.2⟩, fun e w he h => frame.fails e w he h.1⟩
      refine (checkedManifest_spec place hframe path bytes).bind fun m => ?_
      intro w h
      refine ⟨h.1.1, ⟨fun hm => (Option.some_ne_none _ hm).elim, ?_⟩⟩
      intro m' hm
      obtain rfl := Option.some.inj hm
      exact ⟨bytes, h.1.2, h.2⟩

end Checks

/-! ## A run before it deletes -/

section Writing

variable {before : Objects} {fate : Nat → Fate} {path : String} {bytes : Bytes}

/-- Nothing has been put or deleted yet. -/
structure Quiet (before : Objects) (w : World) : Prop where
  objects : w.objects = before
  puts : w.puts = []
  deletes : w.deletes = []

/-- Nothing has been deleted yet. -/
structure Writing (before : Objects) (w : World) : Prop where
  deletes : w.deletes = []
  kept : ∀ path : String, (before[path]?).isSome = true → (w.objects[path]?).isSome = true

/-- Reading leaves the objects as they are, whatever fails. -/
theorem frame_quiet (before : Objects) :
    Frame (Quiet before) fun e w => e.IsError ∧ Quiet before w :=
  ⟨fun _ _ h => ⟨h.objects, h.puts, h.deletes⟩, fun _ _ he h => ⟨he, h⟩⟩

/-- Writing removes nothing, whatever fails. -/
theorem frame_writing (before : Objects) : Frame (Writing before) fun _ => Writing before :=
  ⟨fun _ _ h => ⟨h.deletes, h.kept⟩, fun _ _ _ h => h⟩

/-- An object stays there when another is written. -/
theorem isSome_insert {objects : Objects} {other : String}
    (h : (objects[other]?).isSome = true) :
    ((objects.insert path bytes)[other]?).isSome = true := by
  rw [TreeMapLookup.getElem?_insert]
  split
  · rfl
  · exact h

/-- A put removes nothing. -/
theorem put_spec : Triple (Writing before) (put fate path bytes) (fun _ => Writing before)
    fun _ => Writing before := by
  intro w hw
  have hstored : ∀ requests puts,
      Writing before ⟨w.objects.insert path bytes, requests, puts, w.deletes⟩ := fun _ _ =>
    ⟨hw.deletes, fun other hother => isSome_insert (hw.kept other hother)⟩
  unfold put
  cases fate w.requests with
  | served => exact hstored _ _
  | failed message effective =>
      cases effective with
      | true => exact hstored _ _
      | false => exact ⟨hw.deletes, hw.kept⟩

/-- A put that is checked removes nothing. -/
theorem putChecked_spec (what : String) :
    Triple (Writing before) (putChecked fate what path bytes) (fun _ => Writing before)
      fun _ => Writing before := by
  refine put_spec.bind fun _ => ?_
  refine (head_spec (frame_writing before) fate path).bind fun size => ?_
  exact (ensure_spec fun _ hw => hw).consequence (fun _ hw => hw) (fun _ _ h => h.1) fun _ _ h => h

variable [PathParser] [ManifestFormat] {p : Partition} (place : Place p)

/-- **What is published has passed the checks**, and lies there when it is read back. -/
theorem publishRecoveryManifest_spec (m : ParquetRecoveryManifest String) :
    Triple (Writing before) (publishRecoveryManifest fate p path m)
      (fun _ w => Writing before w ∧ ∃ bytes, w.objects[path]? = some bytes ∧
        Accepted place path bytes m)
      fun _ => Writing before := by
  have hframe := frame_writing before
  refine Triple.bind (ofExcept_spec fun _ _ hw => hw) fun _ => ?_
  refine ((validateScope_spec place hframe path m).weaken fun _ h => h.1).bind fun _ => ?_
  refine Triple.bind (Triple.weaken (ofExcept_spec fun _ _ hw => hw) fun _ h => h.1)
    fun encoded => ?_
  refine (put_spec.weaken fun _ h => h.1).bind fun _ => ?_
  refine (readRecoveryManifest_spec place hframe path).bind fun published => ?_
  cases published with
  | none => exact fun w h => h.1
  | some published =>
      unfold verifyPublished
      refine Triple.consequence (ensure_spec (fun w hw => hw.1)) (fun _ h => h) ?_ fun _ _ h => h
      rintro _ w ⟨⟨hw, hread⟩, hsame⟩
      obtain rfl := of_decide_eq_true hsame
      exact ⟨hw, hread.present published rfl⟩

end Writing

/-! ## The cleanup -/

section Cleanup

variable [PathParser] [ManifestFormat] {p : Partition} (place : Place p) {before : Objects}
  {fate : Nat → Fate} {path : String} {m : ParquetRecoveryManifest String}

/-- Only objects of the partition are deleted, none of them active in the manifest that
lies there. -/
structure Cleaning (m : ParquetRecoveryManifest String) (before : Objects) (w : World) : Prop where
  deleted : ∀ path ∈ w.deletes, InPartition place path ∧ path ∉ m.activeObjects
  published : ∃ bytes, w.objects[place.manifestPath]? = some bytes ∧
    ManifestFormat.decode bytes = .ok m
  kept : ∀ path : String, (before[path]?).isSome = true →
    (w.objects[path]?).isSome = true ∨ path ∈ w.deletes

/-- Deleting an object of the partition that the manifest does not list as active. -/
theorem delete_spec (hpartition : InPartition place path) (hactive : path ∉ m.activeObjects)
    (hmanifest : path ≠ place.manifestPath) :
    Triple (Cleaning place m before) (delete fate path) (fun _ => Cleaning place m before)
      fun _ => Cleaning place m before := by
  intro w hw
  have hdeletes : ∀ other ∈ w.deletes ++ [path],
      InPartition place other ∧ other ∉ m.activeObjects := by
    intro other hother
    rcases List.mem_append.mp hother with hother | hother
    · exact hw.deleted other hother
    · rw [List.mem_singleton.mp hother]
      exact ⟨hpartition, hactive⟩
  have hasked : ∀ requests, Cleaning place m before
      ⟨w.objects, requests, w.puts, w.deletes ++ [path]⟩ := fun _ =>
    ⟨hdeletes, hw.published, fun other hother =>
      (hw.kept other hother).imp_right fun h => List.mem_append_left _ h⟩
  have herased : ∀ requests, Cleaning place m before
      ⟨w.objects.erase path, requests, w.puts, w.deletes ++ [path]⟩ := by
    intro requests
    obtain ⟨bytes, hbytes, hdecode⟩ := hw.published
    refine ⟨hdeletes, ⟨bytes, ?_, hdecode⟩, ?_⟩
    · rw [TreeMapLookup.getElem?_erase, if_neg hmanifest.symm, hbytes]
    · intro other hother
      dsimp only
      rw [TreeMapLookup.getElem?_erase]
      by_cases heq : other = path
      · exact Or.inr (List.mem_append_right _ (List.mem_singleton.mpr heq))
      · rw [if_neg heq]
        exact (hw.kept other hother).imp_right fun h => List.mem_append_left _ h
  unfold delete
  cases fate w.requests with
  | served => exact herased _
  | failed message effective =>
      cases effective with
      | true => exact herased _
      | false => exact hasked _

omit [ManifestFormat] in
/-- The manifest is no object of the partition. -/
theorem ne_manifestPath {object : String} (hobject : object.toList.getLast? = some 't') :
    object ≠ place.manifestPath := by
  rintro rfl
  obtain ⟨htrim, -⟩ := PathParser.parse_ok _ _ place.manifestPath_eq
  have hlast : p.manifestPath.toList.getLast? = some 'n' := by
    have hending : ".json".toList.getLast? = some 'n' := by decide
    unfold Partition.manifestPath Partition.childPath
    split <;> simp only [String.toList_append, List.getLast?_append, hending, Option.some_or]
  rw [htrim, getLast?_trimSeparators hlast (by decide)] at hobject
  cases hobject

/-- **A turn of the cleanup**: a text that the manifest supersedes leads to an object of
the partition that the manifest does not name as active. -/
theorem cleanUp_spec {content : Bytes} (haccepted : Accepted place path content m) {stale : String}
    (hstale : stale ∈ m.supersededObjects) (failures : Nat) :
    Triple (Cleaning place m before) (cleanUp fate failures stale)
      (fun _ => Cleaning place m before) fun _ => Cleaning place m before := by
  obtain ⟨-, hnamed, -, -, hdisjoint⟩ := validate_eq_ok.mp haccepted.validated
  have hscope := haccepted.inScope
  simp only [fitsScope, Bool.and_eq_true, decide_eq_true_iff] at hscope
  obtain ⟨⟨⟨⟨hdataset, -⟩, -⟩, -⟩, hobjects⟩ := hscope
  obtain ⟨hunder, hmatches⟩ := scoped_of_mem hobjects (Or.inr hstale)
  have hlast : stale.toList.getLast? = some 't' :=
    hunder.elim (fun h => (below_of_underPrefix h).2) fun h => (below_of_underPrefix h).2
  refine Triple.bind (ofExcept_spec fun _ _ hw => hw) fun found => ?_
  refine .assume (fun _ h => h.2) fun hparse => ?_
  obtain ⟨rfl, hpartition⟩ :=
    InPartition.of_parse place (hdataset ▸ hnamed.1) hunder hmatches hparse
  have hactive : found ∉ m.activeObjects := fun h => hdisjoint found h hstale
  refine ((delete_spec place hpartition hactive (ne_manifestPath place hlast)).weaken
    fun _ h => h.1).bind fun failed => ?_
  exact fun w hw => hw

end Cleanup

/-! ## The whole run -/

section Whole

variable [PathParser] [ManifestFormat] [ParquetFormat] {p : Partition} (place : Place p)

/-- Where a run ends. -/
def lastWorld : EStateM.Result Failure World Nat → World
  | .ok _ w => w
  | .error _ w => w

/-- What a run may delete: objects of the partition, none of them active in the manifest
that lies there in the end.  Nothing else is gone. -/
structure Safe (before : Objects) (w : World) : Prop where
  deleted : ∀ path ∈ w.deletes, InPartition place path ∧
    ∃ bytes m, w.objects[place.manifestPath]? = some bytes ∧
      ManifestFormat.decode bytes = .ok m ∧ path ∉ m.activeObjects
  kept : ∀ path : String, (before[path]?).isSome = true →
    (w.objects[path]?).isSome = true ∨ path ∈ w.deletes

variable {place} {before : Objects} {w : World}

omit [ParquetFormat] in
/-- A run that has only written has deleted nothing. -/
theorem Writing.safe (h : Writing before w) : Safe place before w := by
  refine ⟨?_, fun path hpath => Or.inl (h.kept path hpath)⟩
  intro path hpath
  rw [h.deletes] at hpath
  cases hpath

omit [ParquetFormat] in
/-- A run that cleans up deletes only what it may. -/
theorem Cleaning.safe {m : ParquetRecoveryManifest String} (h : Cleaning place m before w) :
    Safe place before w := by
  refine ⟨?_, h.kept⟩
  intro path hpath
  obtain ⟨bytes, hbytes, hdecode⟩ := h.published
  obtain ⟨hpartition, hactive⟩ := h.deleted path hpath
  exact ⟨hpartition, bytes, m, hbytes, hdecode, hactive⟩

variable (place) (fate : Nat → Fate) (coverage : RecoveryCoverage) (first : PersistedRecord)
  (rest : List PersistedRecord)

omit [ParquetFormat] in
/-- The loop over what a published manifest supersedes. -/
theorem cleanup_safe (m : ParquetRecoveryManifest String) :
    Triple (fun w => Writing before w ∧ ∃ bytes, w.objects[place.manifestPath]? = some bytes ∧
        Accepted place place.manifestPath bytes m)
      (m.supersededObjects.foldlM (cleanUp fate) 0)
      (fun _ => Safe place before) fun _ => Safe place before := by
  have haccepted : ∀ w, (Writing before w ∧ ∃ bytes, w.objects[place.manifestPath]? = some bytes ∧
      Accepted place place.manifestPath bytes m) →
        ∃ content, Accepted place place.manifestPath content m :=
    fun _ ⟨_, content, _, h⟩ => ⟨content, h⟩
  refine .assume haccepted ?_
  rintro ⟨content, hcontent⟩
  have hloop : Triple (Cleaning place m before) (m.supersededObjects.foldlM (cleanUp fate) 0)
      (fun _ => Cleaning place m before) fun _ => Cleaning place m before :=
    .foldlM (fun failures stale hstale => cleanUp_spec place hcontent hstale failures) 0
  refine hloop.consequence ?_ (fun _ _ h => h.safe) fun _ _ h => h.safe
  rintro w ⟨hw, bytes, hbytes, haccepted⟩
  refine ⟨?_, ⟨bytes, hbytes, haccepted.decoded⟩, fun path hpath => Or.inl (hw.kept path hpath)⟩
  intro path hpath
  rw [hw.deletes] at hpath
  cases hpath

/-- **A run is safe**, whatever requests fail. -/
theorem replaceGroup_safe : Triple (Writing before) (replaceGroup fate p coverage first rest)
    (fun _ => Safe place before) fun _ => Safe place before := by
  have hframe : Frame (Writing before) fun _ => Safe place before :=
    ⟨(frame_writing before).steady, fun _ _ _ h => h.safe⟩
  refine (objectsBelow_spec hframe (normalPath_spec place)).bind fun existing => ?_
  refine ((objectsBelow_spec hframe (stagingPath_spec place)).weaken fun _ h => h.1).bind
    fun abandoned => ?_
  refine ((parsed_spec place.manifestPath_eq).weaken fun _ h => h.1).bind fun manifestPath => ?_
  refine .assume (fun _ h => h.2) ?_
  rintro rfl
  refine ((readRecoveryManifest_spec place hframe _).weaken fun _ h => h.1).bind fun previous => ?_
  refine Triple.bind (Triple.weaken (ofExcept_spec fun _ _ hw => hw.safe) fun _ h => h.1)
    fun encoded => ?_
  obtain ⟨bytes, fileName⟩ := encoded
  refine Triple.bind (Triple.weaken (ofExcept_spec fun _ _ hw => hw.safe) fun _ h => h.1)
    fun stagedPath => ?_
  refine Triple.bind (Triple.weaken (ofExcept_spec fun _ _ hw => hw.safe) fun _ h => h.1)
    fun recoveredPath => ?_
  have hput : ∀ what path, Triple (Writing before) (putChecked fate what path bytes)
      (fun _ => Writing before) fun _ => Safe place before := fun what path =>
    (putChecked_spec what).consequence (fun _ h => h) (fun _ _ h => h) fun _ _ h => h.safe
  have hpublish : ∀ m, Triple (Writing before)
      (publishRecoveryManifest fate p place.manifestPath m)
      (fun _ w => Writing before w ∧ ∃ bytes, w.objects[place.manifestPath]? = some bytes ∧
        Accepted place place.manifestPath bytes m) fun _ => Safe place before := fun m =>
    (publishRecoveryManifest_spec place m).consequence (fun _ h => h) (fun _ _ h => h)
      fun _ _ h => h.safe
  refine ((hput _ _).weaken fun _ h => h.1).bind fun _ => ?_
  refine (hpublish _).bind fun _ => ?_
  refine ((hput _ _).weaken fun _ h => h.1).bind fun _ => ?_
  refine (hpublish _).bind fun _ => ?_
  -- From here on objects are deleted: those that the manifest just published supersedes.
  exact cleanup_safe place fate (phaseManifest p coverage recoveredPath _)

/-- However `replace_group` ends, it has deleted only what it may. -/
theorem safe_of_run (before : Objects) :
    Safe place before
      (lastWorld (replaceGroup fate p coverage first rest ⟨before, 0, [], []⟩)) := by
  have hwriting : Writing before ⟨before, 0, [], []⟩ := ⟨rfl, fun _ hpath => hpath⟩
  have hsafe : Triple (Writing before) (replaceGroup fate p coverage first rest)
      (fun _ => Safe place before) fun _ => Safe place before :=
    replaceGroup_safe place fate coverage first rest
  cases hresult : replaceGroup fate p coverage first rest ⟨before, 0, [], []⟩ with
  | ok failures w => exact hsafe.of_ok hwriting hresult
  | error e w => exact hsafe.of_error hwriting hresult

/-- A manifest that fails the checks stops the run before it puts or deletes anything. -/
theorem replaceGroup_rejects {content : Bytes}
    (hcontent : before[place.manifestPath]? = some content)
    (hbad : ∀ m, ¬Accepted place place.manifestPath content m) :
    Triple (Quiet before) (replaceGroup fate p coverage first rest) (fun _ _ => False)
      fun e w => e.IsError ∧ Quiet before w := by
  have hframe := frame_quiet before
  refine (objectsBelow_spec hframe (normalPath_spec place)).bind fun existing => ?_
  refine ((objectsBelow_spec hframe (stagingPath_spec place)).weaken fun _ h => h.1).bind
    fun abandoned => ?_
  refine ((parsed_spec place.manifestPath_eq).weaken fun _ h => h.1).bind fun manifestPath => ?_
  refine .assume (fun _ h => h.2) ?_
  rintro rfl
  refine ((readRecoveryManifest_spec place hframe _).weaken fun _ h => h.1).bind fun previous => ?_
  refine Triple.weaken .unreached ?_
  rintro w ⟨hw, hread⟩
  rw [← hw.objects] at hcontent
  cases previous with
  | none =>
      rw [hread.absent rfl] at hcontent
      cases hcontent
  | some m =>
      obtain ⟨bytes, hbytes, haccepted⟩ := hread.present m rfl
      rw [hcontent] at hbytes
      obtain rfl := Option.some.inj hbytes
      exact hbad m haccepted

/-- What the checks of the metadata are for. -/
structure Guarded (before : Objects) (result : EStateM.Result Failure World Nat) : Prop where
  /-- Bytes that do not decode, validate or fit the scope end the run at once. -/
  rejected : ∀ content, before[place.manifestPath]? = some content →
    (∀ m, ¬Accepted place place.manifestPath content m) →
      ∃ e w, result = .error e w ∧ e.IsError ∧ Quiet before w
  safe : Safe place before (lastWorld result)

/-- **Corrupt recovery metadata cannot widen a deletion.**  Whatever lies where the
manifest lies, whatever the store holds and whichever requests fail: a manifest that
fails the checks ends the run with an error before anything is put or deleted, and a run
deletes only objects below the directories of its partition, under names of its asset,
and none that the manifest names as active in the end. -/
theorem metadata_cannot_widen_deletion (before : Objects) :
    Guarded place before (replaceGroup fate p coverage first rest ⟨before, 0, [], []⟩) := by
  have hquiet : Quiet before ⟨before, 0, [], []⟩ := ⟨rfl, rfl, rfl⟩
  refine ⟨?_, safe_of_run place fate coverage first rest before⟩
  intro content hcontent hbad
  have hrejects := replaceGroup_rejects place fate coverage first rest hcontent hbad
  cases hresult : replaceGroup fate p coverage first rest ⟨before, 0, [], []⟩ with
  | ok failures w => exact (hrejects.of_ok hquiet hresult).elim
  | error e w => exact ⟨e, w, rfl, hrejects.of_error hquiet hresult⟩

end Whole

/-! ## A manifest that names an object of another hour -/

namespace OtherHour

open Publication.OneHour

/-- An object of the hour after that of the partition. -/
def foreign : String := "book_events/2023/11/14/23/7_1700002860000000_a4e428564378c91c_9.parquet"

/-- The manifest of the sample. -/
def manifest : ParquetRecoveryManifest String where
  version := manifestVersion
  dataset := "book_events"
  assetKey := "7"
  hourKey := "2023/11/14/22"
  coveredStartUs := 1699999100000000
  coveredEndUs := 1700003000000000
  activeObjects := ["book_events/2023/11/14/22/7_1699999260000000_a4e428564378c91c_9.parquet"]
  supersededObjects := [foreign]

/-- Whatever the bytes are, this is what they say. -/
@[reducible] def manifests : ManifestFormat := ⟨fun _ => .ok [1], fun _ => .ok manifest⟩

attribute [local instance] properPaths manifests format

/-- The partition of the sample as a place. -/
def place : Place hour where
  normalDir := "book_events/2023/11/14/22"
  stagingDir := "_recovery_objects/book_events/2023/11/14/22"
  manifestPath := "_recovery_manifests/book_events/2023/11/14/22/7.json"
  normalDir_eq := by decide +kernel
  stagingDir_eq := by decide +kernel
  manifestPath_eq := by decide +kernel

/-- The store of the sample: a manifest that does not parse, and an object of another
partition. -/
def before : Objects :=
  ((∅ : Objects).insert place.manifestPath [1]).insert foreign flushed.2

/-- No manifest is accepted for the bytes that do not parse. -/
theorem not_accepted (m : ParquetRecoveryManifest String) :
    ¬Accepted place place.manifestPath [1] m := by
  intro h
  have hdecoded : manifest = m := Except.ok.inj h.decoded
  have hscope := h.inScope
  rw [← hdecoded] at hscope
  revert hscope
  decide +kernel

end OtherHour

open OtherHour Publication.OneHour in
attribute [local instance] properPaths manifests format in
/-- The run ends with an error, and the object of the other hour stays. -/
theorem metadata_cannot_widen_deletion_other_hour :
    ∃ e w, replaceGroup (fun _ => .served) hour rebuild.coverage (bid 1) [bid 2]
        ⟨before, 0, [], []⟩ = .error e w ∧ e.IsError ∧ w.objects[foreign]? = some flushed.2 := by
  obtain ⟨hrejected, -⟩ := metadata_cannot_widen_deletion place (fun _ => .served)
    rebuild.coverage (bid 1) [bid 2] before
  have hmanifest : before[place.manifestPath]? = some [1] := by decide +kernel
  obtain ⟨e, w, hrun, herror, hquiet⟩ := hrejected [1] hmanifest not_accepted
  refine ⟨e, w, hrun, herror, ?_⟩
  rw [hquiet.objects]
  decide +kernel

end PolyBook.Metadata
