import PolyBook.Library.Runs
import PolyBook.RecoveryManifest
import PolyBook.SnapshotGroups

/-!
# Publishing a recovered hour

`replace_group` replaces the objects of one asset and one hour by a new one.  It
stages the new object where no reader lists it, points a manifest at it, promotes
it to the normal tree, points the manifest there, and deletes what the manifest
hides.  A run may be cut after any of its store operations, and a later run starts
from what is left.

`publication_converges`: from every such state a complete run leaves the asset with
the new object alone, and to repeat it changes nothing.
-/

namespace PolyBook.Publication

open Wal

/-- The `parquet` and `arrow` crates with the schema of the records, and the standard
library's `DefaultHasher`.  What is read has what the schemas have columns for. -/
class ParquetFormat where
  encode : List PersistedRecord → Except StoreError Bytes
  decode : Bytes → Except String (List PersistedRecord)
  contentHash : Bytes → UInt64
  decode_encode : ∀ records bytes, encode records = .ok bytes →
    decode bytes = .ok (records.map PersistedRecord.asStored)

/-- A format that knows some batches, each with a content of its own. -/
@[reducible] def ParquetFormat.ofTable (table : List (List PersistedRecord × Bytes))
    (contentHash : Bytes → UInt64) (hdistinct : (table.map Prod.snd).Nodup) : ParquetFormat where
  encode records :=
    match table.find? fun entry => entry.1 = records with
    | some entry => .ok entry.2
    | none => .error (.objectStore "another batch")
  decode bytes :=
    match table.find? fun entry => entry.2 = bytes with
    | some entry => .ok (entry.1.map PersistedRecord.asStored)
    | none => .error "another object"
  contentHash := contentHash
  decode_encode records bytes h := by
    split at h
    · rename_i entry hfound
      cases h
      have hrecords : entry.1 = records := by simpa using List.find?_some hfound
      have hmem := List.mem_of_find?_eq_some hfound
      split
      · rename_i other hother
        have hbytes : other.2 = entry.2 := by simpa using List.find?_some hother
        have hsame : other = entry :=
          List.inj_on_of_nodup_map hdistinct (List.mem_of_find?_eq_some hother) hmem hbytes
        rw [hsame, hrecords]
      · rename_i hnone
        exact absurd (List.find?_eq_none.mp hnone entry hmem) (by simp)
    · cases h

/-- What such a format encodes is in the table. -/
theorem ParquetFormat.mem_of_ofTable {table : List (List PersistedRecord × Bytes)}
    {contentHash : Bytes → UInt64} (hdistinct : (table.map Prod.snd).Nodup)
    {records : List PersistedRecord} {bytes : Bytes}
    (h : (ofTable table contentHash hdistinct).encode records = .ok bytes) :
    bytes ∈ table.map Prod.snd := by
  unfold ParquetFormat.encode ofTable at h
  dsimp only at h
  split at h
  · rename_i entry hfound
    cases h
    exact List.mem_map_of_mem (List.mem_of_find?_eq_some hfound)
  · cases h

/-- The records and the coverage that a run publishes; `write_batch_replacing` has
grouped them by their asset. -/
structure Job (p : Partition) where
  first : PersistedRecord
  rest : List PersistedRecord
  coverage : RecoveryCoverage
  asset : storageKeyFor first.assetPartition = p.asset

namespace Job

variable {p : Partition} (job : Job p)

/-- The records of the group that is published. -/
def records : List PersistedRecord := job.first :: job.rest

variable [ParquetFormat]

/-- `encode_group`: the object and its name. -/
def encodeGroup : Except StoreError (Bytes × String) :=
  match ParquetFormat.encode job.records with
  | .error e => .error e
  | .ok bytes => .ok (bytes, objectFileName (storageKeyFor job.first.assetPartition)
      job.first.partitionTimestampUs (ParquetFormat.contentHash bytes) bytes.length)

end Job

/-- What a run works with from its encoding on. -/
structure Plan where
  bytes : Bytes
  fileName : String
  superseded : Finset ObjectPath

namespace Plan

/-- Where the group is staged. -/
def stagedPath (plan : Plan) : ObjectPath := ⟨.recovery, plan.fileName⟩

/-- Where the group is published. -/
def recoveredPath (plan : Plan) : ObjectPath := ⟨.normal, plan.fileName⟩

/-- What the manifest hides while it points at the staged object. -/
def stagedSuperseded (plan : Plan) : Finset ObjectPath :=
  (insert plan.recoveredPath plan.superseded).erase plan.stagedPath

/-- What it hides in the end. -/
def finalSuperseded (plan : Plan) : Finset ObjectPath :=
  (insert plan.stagedPath plan.superseded).erase plan.recoveredPath

/-- The staged and the published object are two. -/
theorem stagedPath_ne (plan : Plan) : plan.stagedPath ≠ plan.recoveredPath :=
  fun h => Tree.noConfusion (congrArg ObjectPath.tree h)

/-- What is deleted last: the staged object and what the plan supersedes, but for the
published one. -/
theorem mem_finalSuperseded {plan : Plan} {path : ObjectPath} :
    path ∈ plan.finalSuperseded ↔
      path ≠ plan.recoveredPath ∧ (path = plan.stagedPath ∨ path ∈ plan.superseded) := by
  rw [finalSuperseded, Finset.mem_erase, Finset.mem_insert]

/-- The staged object is deleted in the end. -/
theorem stagedPath_mem (plan : Plan) : plan.stagedPath ∈ plan.finalSuperseded :=
  mem_finalSuperseded.mpr ⟨plan.stagedPath_ne, Or.inl rfl⟩

/-- The published object is not deleted. -/
theorem recoveredPath_notMem (plan : Plan) : plan.recoveredPath ∉ plan.finalSuperseded :=
  fun h => (mem_finalSuperseded.mp h).1 rfl

end Plan

/-- Publication phase 1. -/
def Job.stagedManifest {p : Partition} (job : Job p) (plan : Plan) :
    ParquetRecoveryManifest ObjectPath :=
  phaseManifest p job.coverage plan.stagedPath plan.stagedSuperseded

/-- The manifest of the second phase names the published object. -/
def Job.finalManifest {p : Partition} (job : Job p) (plan : Plan) :
    ParquetRecoveryManifest ObjectPath :=
  phaseManifest p job.coverage plan.recoveredPath plan.finalSuperseded

/-- A manifest is valid at the promoted object where it was valid at the staged one. -/
theorem Valid.final {p : Partition} {job : Job p} {plan : Plan}
    (h : Valid p (job.stagedManifest plan)) : Valid p (job.finalManifest plan) := by
  obtain ⟨hversion, hnonempty, hcoverage, -⟩ := validate_eq_ok.mp h.validated
  obtain ⟨hidentity, hactive, hsuperseded⟩ := validateScope_eq_ok.mp h.inScope
  have hname : storageObjectFileMatchesAsset plan.fileName p.asset = true :=
    hactive plan.stagedPath List.mem_cons_self
  refine ⟨validate_eq_ok.mpr ⟨hversion, hnonempty, hcoverage, List.cons_ne_nil _ _, ?_⟩,
    validateScope_eq_ok.mpr ⟨hidentity, ?_, ?_⟩⟩
  · intro path hpath
    rw [List.mem_singleton.mp hpath]
    exact mt mem_supersededObjects.mp (Finset.notMem_erase _ _)
  · intro path hpath
    rw [List.mem_singleton.mp hpath]
    exact hname
  · intro path hpath
    obtain ⟨-, rfl | hpath⟩ := Plan.mem_finalSuperseded.mp (mem_supersededObjects.mp hpath)
    · exact hname
    · by_cases hstaged : path = plan.stagedPath
      · rw [hstaged]
        exact hname
      · exact hsuperseded path (mem_supersededObjects.mpr
          (Finset.mem_erase.mpr ⟨hstaged, Finset.mem_insert_of_mem hpath⟩))

/-- How far a run has come, after each of its store operations. -/
inductive Stage where
  | start
  | listed (existing : Finset ObjectPath)
  | scanned (existing abandoned : Finset ObjectPath)
  | prepared (plan : Plan)
  | staged (plan : Plan)
  | pointed (plan : Plan)
  | promoted (plan : Plan)
  | cleaning (stale : List ObjectPath) (cleanupFailures : Nat)
  | finished (cleanupFailures : Nat)
  | failed (e : StoreError)

/-- The next stage, unless the operation failed. -/
def Stage.after (next : Stage) : Store × Except StoreError Unit → Store × Stage
  | (s, .ok ()) => (s, next)
  | (s, .error e) => (s, .failed e)

section Replacing

variable [ParquetFormat] {p : Partition}

/-- The next store operation of `replace_group`.  A deletion may fail. -/
def step (job : Job p) (deleted : Bool) (s : Store) : Stage → Store × Stage
  | .start => (s, .listed (s.list p.asset .normal))
  | .listed existing => (s, .scanned existing (s.list p.asset .recovery))
  | .scanned existing abandoned =>
      match readManifest p s with
      | .error e => (s, .failed e)
      | .ok previous =>
          match job.encodeGroup with
          | .error e => (s, .failed e)
          | .ok (bytes, fileName) =>
              (s, .prepared ⟨bytes, fileName, existing ∪ abandoned ∪ namedObjects previous⟩)
  | .prepared plan =>
      Stage.after (.staged plan) (putChecked p "staged" plan.stagedPath plan.bytes s)
  | .staged plan => Stage.after (.pointed plan) (publish p (job.stagedManifest plan) s)
  | .pointed plan =>
      Stage.after (.promoted plan) (putChecked p "promoted" plan.recoveredPath plan.bytes s)
  | .promoted plan =>
      Stage.after (.cleaning plan.finalSuperseded.sort 0) (publish p (job.finalManifest plan) s)
  | .cleaning [] cleanupFailures => (s, .finished cleanupFailures)
  | .cleaning (path :: stale) cleanupFailures =>
      if deleted then (s.delete path, .cleaning stale cleanupFailures)
      else (s, .cleaning stale (cleanupFailures + 1))
  | .finished cleanupFailures => (s, .finished cleanupFailures)
  | .failed e => (s, .failed e)

/-- Some operations of a run, with the outcomes of the deletions. -/
def runFrom (job : Job p) (s : Store × Stage) (deletions : List Bool) : Store × Stage :=
  Runs.run (fun s deleted => step job deleted s.1 s.2) s deletions

/-- The states that complete and interrupted runs leave, from any state without a
manifest. -/
inductive Reachable (p : Partition) : Store → Prop
  | live {s : Store} (h : s.manifest = none) : Reachable p s
  | run {s : Store} (h : Reachable p s) (job : Job p) (deletions : List Bool) :
      Reachable p (runFrom job (s, .start) deletions).1

/-! ## The course of a run -/

/-- The plan of a run from a state. -/
structure PlannedFrom (job : Job p) (s₀ : Store) (plan : Plan) : Prop where
  encoded : job.encodeGroup = .ok (plan.bytes, plan.fileName)
  superseded : plan.superseded =
    s₀.list p.asset .normal ∪ s₀.list p.asset .recovery ∪ namedObjects s₀.manifest

namespace Plan

/-- The objects once the new one is staged. -/
def stagedStore (plan : Plan) (s₀ : Store) : Store := s₀.put plan.stagedPath plan.bytes

/-- The objects once it is promoted. -/
def promotedStore (plan : Plan) (s₀ : Store) : Store :=
  (plan.stagedStore s₀).put plan.recoveredPath plan.bytes

end Plan

/-- What the store holds once the final manifest is published and some objects are
deleted. -/
def Job.publishedStore (job : Job p) (plan : Plan) (s₀ : Store) (gone : Finset ObjectPath) :
    Store where
  paths := (plan.promotedStore s₀).paths \ gone
  bytes := (plan.promotedStore s₀).bytes
  manifest := some (job.finalManifest plan)

/-- What the store holds at each stage of a run from a state. -/
inductive At (job : Job p) (s₀ : Store) : Store → Stage → Prop
  | start : At job s₀ s₀ .start
  | listed : At job s₀ s₀ (.listed (s₀.list p.asset .normal))
  | scanned : At job s₀ s₀ (.scanned (s₀.list p.asset .normal) (s₀.list p.asset .recovery))
  | prepared {plan : Plan} (hplan : PlannedFrom job s₀ plan) : At job s₀ s₀ (.prepared plan)
  | staged {plan : Plan} (hplan : PlannedFrom job s₀ plan) :
      At job s₀ (plan.stagedStore s₀) (.staged plan)
  | pointed {plan : Plan} (hplan : PlannedFrom job s₀ plan)
      (hvalid : Valid p (job.stagedManifest plan)) :
      At job s₀ { plan.stagedStore s₀ with manifest := some (job.stagedManifest plan) }
        (.pointed plan)
  | promoted {plan : Plan} (hplan : PlannedFrom job s₀ plan)
      (hvalid : Valid p (job.stagedManifest plan)) :
      At job s₀ { plan.promotedStore s₀ with manifest := some (job.stagedManifest plan) }
        (.promoted plan)
  | cleaning {plan : Plan} {gone : Finset ObjectPath} {stale : List ObjectPath}
      {cleanupFailures : Nat} (hplan : PlannedFrom job s₀ plan)
      (hvalid : Valid p (job.finalManifest plan)) (hgone : gone ⊆ plan.finalSuperseded)
      (hstale : ∀ path ∈ stale, path ∈ plan.finalSuperseded)
      (hrest : cleanupFailures = 0 → ∀ path ∈ plan.finalSuperseded, path ∈ gone ∨ path ∈ stale) :
      At job s₀ (job.publishedStore plan s₀ gone) (.cleaning stale cleanupFailures)
  | finished {plan : Plan} {gone : Finset ObjectPath} {cleanupFailures : Nat}
      (hplan : PlannedFrom job s₀ plan) (hvalid : Valid p (job.finalManifest plan))
      (hgone : gone ⊆ plan.finalSuperseded)
      (hall : cleanupFailures = 0 → gone = plan.finalSuperseded) :
      At job s₀ (job.publishedStore plan s₀ gone) (.finished cleanupFailures)
  | refused (e : StoreError) : At job s₀ s₀ (.failed e)
  | unpublished {plan : Plan} (hplan : PlannedFrom job s₀ plan) (e : StoreError) :
      At job s₀ (plan.stagedStore s₀) (.failed e)

/-- A run keeps to its course. -/
theorem at_step {job : Job p} {s₀ s : Store} {stage : Stage} (h : At job s₀ s stage)
    (deleted : Bool) : At job s₀ (step job deleted s stage).1 (step job deleted s stage).2 := by
  cases h with
  | start => exact .listed
  | listed => exact .scanned
  | scanned =>
      simp only [step]
      cases hread : readManifest p s₀ with
      | error e => exact .refused e
      | ok previous =>
          cases hencode : job.encodeGroup with
          | error e => exact .refused e
          | ok encoded => exact .prepared ⟨hencode, by rw [manifest_of_read hread]⟩
  | prepared hplan =>
      simp only [step, putChecked_eq]
      exact .staged hplan
  | @staged plan hplan =>
      obtain ⟨hvalid, hpublish⟩ | ⟨e, hpublish⟩ :=
        publish_cases p (job.stagedManifest plan) (plan.stagedStore s₀)
      · simp only [step, hpublish]
        exact .pointed hplan hvalid
      · simp only [step, hpublish]
        exact .unpublished hplan e
  | pointed hplan hvalid =>
      simp only [step, putChecked_eq]
      exact .promoted hplan hvalid
  | @promoted plan hplan hvalid =>
      simp only [step, publish_of_valid hvalid.final]
      have hstore : { plan.promotedStore s₀ with manifest := some (job.finalManifest plan) } =
          job.publishedStore plan s₀ ∅ := by
        rw [Job.publishedStore, Finset.sdiff_empty]
      rw [Stage.after, hstore]
      exact .cleaning hplan hvalid.final (Finset.empty_subset _)
        (fun path hpath => (Finset.mem_sort _).mp hpath)
        (fun _ path hpath => Or.inr ((Finset.mem_sort _).mpr hpath))
  | @cleaning plan gone stale cleanupFailures hplan hvalid hgone hstale hrest =>
      cases stale with
      | nil =>
          refine .finished hplan hvalid hgone fun hnone => hgone.antisymm fun path hpath => ?_
          exact (hrest hnone path hpath).resolve_right List.not_mem_nil
      | cons path stale =>
          simp only [step]
          split
          · have hstore : (job.publishedStore plan s₀ gone).delete path =
                job.publishedStore plan s₀ (insert path gone) := by
              simp only [Job.publishedStore, Store.delete, Finset.sdiff_insert]
            rw [hstore]
            refine .cleaning hplan hvalid
              (Finset.insert_subset (hstale path List.mem_cons_self) hgone)
              (fun other hother => hstale other (List.mem_cons_of_mem _ hother))
              fun hnone other hother => ?_
            obtain hother | hother := hrest hnone other hother
            · exact Or.inl (Finset.mem_insert_of_mem hother)
            · obtain rfl | hother := List.mem_cons.mp hother
              · exact Or.inl (Finset.mem_insert_self _ _)
              · exact Or.inr hother
          · exact .cleaning hplan hvalid hgone
              (fun other hother => hstale other (List.mem_cons_of_mem _ hother))
              fun hnone => absurd hnone (Nat.succ_ne_zero _)
  | finished hplan hvalid hgone hall => exact .finished hplan hvalid hgone hall
  | refused e => exact .refused e
  | unpublished hplan e => exact .unpublished hplan e

/-- Where a run is, after any deletions. -/
theorem at_run (job : Job p) (s₀ : Store) (deletions : List Bool) :
    At job s₀ (runFrom job (s₀, .start) deletions).1 (runFrom job (s₀, .start) deletions).2 := by
  let inv : Store × Stage → Prop := fun s => At job s₀ s.1 s.2
  have hstart : inv (s₀, .start) := At.start
  exact Runs.run_induction (fun _ deleted h => at_step h deleted) hstart deletions

/-- The manifest can be followed: it is valid, and what it points at is there. -/
def Sound (p : Partition) (s : Store) : Prop :=
  ∀ m, s.manifest = some m → Valid p m ∧ ∀ path ∈ m.activeObjects, path ∈ s.paths

variable {job : Job p} {s₀ s : Store} {stage : Stage}

/-- A run leaves a manifest that can be followed, wherever it is cut. -/
theorem At.sound (h : At job s₀ s stage) (hs₀ : Sound p s₀) : Sound p s := by
  have hstaged : ∀ (plan : Plan), Sound p (plan.stagedStore s₀) := fun plan m hm => by
    obtain ⟨hvalid, hactive⟩ := hs₀ m hm
    exact ⟨hvalid, fun path hpath => Finset.mem_insert_of_mem (hactive path hpath)⟩
  have hpublished : ∀ {plan : Plan} {gone : Finset ObjectPath},
      Valid p (job.finalManifest plan) → gone ⊆ plan.finalSuperseded →
        Sound p (job.publishedStore plan s₀ gone) := by
    intro plan gone hvalid hgone m hm
    cases hm
    refine ⟨hvalid, fun path hpath => ?_⟩
    rw [List.mem_singleton.mp hpath]
    exact Finset.mem_sdiff.mpr
      ⟨Finset.mem_insert_self _ _, fun hmem => plan.recoveredPath_notMem (hgone hmem)⟩
  cases h with
  | start | listed | scanned | prepared | refused => exact hs₀
  | staged | unpublished => exact hstaged _
  | pointed hplan hvalid =>
      intro m hm
      cases hm
      refine ⟨hvalid, fun path hpath => ?_⟩
      rw [List.mem_singleton.mp hpath]
      exact Finset.mem_insert_self _ _
  | promoted hplan hvalid =>
      intro m hm
      cases hm
      refine ⟨hvalid, fun path hpath => ?_⟩
      rw [List.mem_singleton.mp hpath]
      exact Finset.mem_insert_of_mem (Finset.mem_insert_self _ _)
  | cleaning hplan hvalid hgone hstale hrest => exact hpublished hvalid hgone
  | finished hplan hvalid hgone hall => exact hpublished hvalid hgone

/-- Every reachable store is sound. -/
theorem Reachable.sound (h : Reachable p s) : Sound p s := by
  induction h with
  | live hnone =>
      intro m hm
      rw [hnone] at hm
      cases hm
  | run _ job deletions ih => exact (at_run job _ deletions).sound ih

/-! ## Complete runs -/

/-- The object of a group is named for its asset. -/
theorem matches_of_encodeGroup {bytes : Bytes} {fileName : String} (hasset : p.asset ≠ "")
    (h : job.encodeGroup = .ok (bytes, fileName)) :
    storageObjectFileMatchesAsset fileName p.asset = true := by
  unfold Job.encodeGroup at h
  split at h
  · cases h
  · cases h
    rw [job.asset]
    exact objectFileName_matches hasset _ _ _

/-- The object of a group holds the group's records. -/
theorem decode_of_encodeGroup {bytes : Bytes} {fileName : String}
    (h : job.encodeGroup = .ok (bytes, fileName)) :
    ParquetFormat.decode bytes = .ok (job.records.map PersistedRecord.asStored) := by
  unfold Job.encodeGroup at h
  split at h
  · cases h
  · cases h
    exact ParquetFormat.decode_encode _ _ ‹_›

/-- The manifests of a run can be published. -/
theorem PlannedFrom.valid {plan : Plan} (hplan : PlannedFrom job s₀ plan) (hs₀ : Sound p s₀)
    (hnamed : p.Named) : Valid p (job.stagedManifest plan) := by
  have hname := matches_of_encodeGroup hnamed.asset hplan.encoded
  have hsuperseded : ∀ path ∈ plan.superseded,
      storageObjectFileMatchesAsset path.fileName p.asset = true := by
    intro path hpath
    rw [hplan.superseded, Finset.union_assoc, Finset.mem_union, Finset.mem_union] at hpath
    obtain hpath | hpath | hpath := hpath
    · exact (Store.mem_list.mp hpath).2.2
    · exact (Store.mem_list.mp hpath).2.2
    · cases hm : s₀.manifest with
      | none =>
          rw [hm] at hpath
          exact absurd hpath (Finset.notMem_empty _)
      | some m =>
          obtain ⟨-, hactive, hhidden⟩ := validateScope_eq_ok.mp (hs₀ m hm).1.inScope
          rw [hm, namedObjects, Finset.mem_union, List.mem_toFinset, List.mem_toFinset] at hpath
          exact hpath.elim (hactive path) (hhidden path)
  refine ⟨validate_eq_ok.mpr ⟨rfl, ⟨hnamed.dataset, hnamed.asset, hnamed.hourKey⟩,
    job.coverage.increasing, List.cons_ne_nil _ _, ?_⟩,
    validateScope_eq_ok.mpr ⟨⟨rfl, rfl, rfl⟩, ?_, ?_⟩⟩
  · intro path hpath
    rw [List.mem_singleton.mp hpath]
    exact mt mem_supersededObjects.mp (Finset.notMem_erase _ _)
  · intro path hpath
    rw [List.mem_singleton.mp hpath]
    exact hname
  · intro path hpath
    have hstaged := Finset.mem_of_mem_erase (mem_supersededObjects.mp hpath)
    obtain rfl | hpath := Finset.mem_insert.mp hstaged
    · exact hname
    · exact hsuperseded path hpath

/-- The run ends without a failure if its deletions succeed. -/
def Completes (job : Job p) (s : Store × Stage) : Prop :=
  ∃ n, (runFrom job s (List.replicate n true)).2 = .finished 0

/-- What completes after a step completes. -/
theorem Completes.of_step {s : Store × Stage} (h : Completes job (step job true s.1 s.2)) :
    Completes job s := by
  obtain ⟨n, hn⟩ := h
  exact ⟨n + 1, hn⟩

/-- What completes after a run completes. -/
theorem Completes.of_run {s : Store × Stage} {n : Nat}
    (h : Completes job (runFrom job s (List.replicate n true))) : Completes job s := by
  induction n generalizing s with
  | zero => exact h
  | succ n ih => exact .of_step (ih h)

/-- Cleaning up comes to an end. -/
theorem completes_cleaning (s : Store) (stale : List ObjectPath) :
    Completes job (s, .cleaning stale 0) := by
  induction stale generalizing s with
  | nil => exact ⟨1, rfl⟩
  | cons path stale ih => exact .of_step (ih (s.delete path))

/-- What a run plans that begins at this store, with this encoding. -/
def Plan.begun (p : Partition) (s₀ : Store) (encoded : Bytes × String) : Plan :=
  ⟨encoded.1, encoded.2,
    s₀.list p.asset .normal ∪ s₀.list p.asset .recovery ∪ namedObjects s₀.manifest⟩

/-- The first six operations of a run: the object is promoted, and readers are still led to
the staged one. -/
theorem Sound.promoted (hs₀ : Sound p s₀) (hnamed : p.Named) {encoded : Bytes × String}
    (hencode : job.encodeGroup = .ok encoded) :
    Valid p (job.stagedManifest (.begun p s₀ encoded)) ∧
      runFrom job (s₀, .start) (List.replicate 6 true) =
        ({ (Plan.begun p s₀ encoded).promotedStore s₀ with
            manifest := some (job.stagedManifest (.begun p s₀ encoded)) },
          .promoted (.begun p s₀ encoded)) := by
  have hread : readManifest p s₀ = .ok s₀.manifest := by
    cases hm : s₀.manifest with
    | none => simp only [readManifest, hm]
    | some m => exact readManifest_of_valid (hs₀ m hm).1 hm
  have hplan : PlannedFrom job s₀ (.begun p s₀ encoded) := ⟨hencode, rfl⟩
  have hvalid := hplan.valid hs₀ hnamed
  refine ⟨hvalid, ?_⟩
  simp only [runFrom, Runs.run, List.replicate, List.foldl_cons, List.foldl_nil, step, hread,
    hencode, putChecked_eq, Stage.after]
  rw [← Plan.begun, publish_of_valid hvalid]
  rfl

/-- **A run completes** wherever an earlier one was cut. -/
theorem Sound.completes (hs₀ : Sound p s₀) (hnamed : p.Named) {encoded : Bytes × String}
    (hencode : job.encodeGroup = .ok encoded) : Completes job (s₀, .start) := by
  obtain ⟨hvalid, hrun⟩ := hs₀.promoted hnamed hencode
  refine .of_run (n := 6) ?_
  rw [hrun]
  refine .of_step ?_
  simp only [step, publish_of_valid hvalid.final, Stage.after]
  exact completes_cleaning _ _

/-- The asset has one object, the one its manifest points at, and what the manifest
hides is deleted. -/
structure Settled (p : Partition) (job : Job p) (plan : Plan) (s : Store) : Prop where
  encoded : job.encodeGroup = .ok (plan.bytes, plan.fileName)
  manifest : s.manifest = some (job.finalManifest plan)
  normal : s.list p.asset .normal = {plan.recoveredPath}
  recovery : s.list p.asset .recovery = ∅
  deleted : ∀ path ∈ plan.finalSuperseded, path ∉ s.paths
  content : s.get plan.recoveredPath = some plan.bytes

/-- What a run has listed of an asset is the new object, or hidden in the end. -/
theorem PlannedFrom.listed_cases {plan : Plan} (hplan : PlannedFrom job s₀ plan)
    {path : ObjectPath} {tree : Tree} (hmem : path ∈ (plan.promotedStore s₀).list p.asset tree) :
    path = plan.recoveredPath ∨ path ∈ plan.finalSuperseded := by
  obtain ⟨hmem, htree, hmatches⟩ := Store.mem_list.mp hmem
  by_cases hrecovered : path = plan.recoveredPath
  · exact Or.inl hrecovered
  · refine Or.inr (Plan.mem_finalSuperseded.mpr ⟨hrecovered, ?_⟩)
    obtain hmem | hmem := Finset.mem_insert.mp hmem
    · exact absurd hmem hrecovered
    · obtain hmem | hmem := Finset.mem_insert.mp hmem
      · exact Or.inl hmem
      · refine Or.inr ?_
        have hlisted : path ∈ s₀.list p.asset tree := Store.mem_list.mpr ⟨hmem, htree, hmatches⟩
        rw [hplan.superseded]
        cases tree with
        | normal => exact Finset.mem_union_left _ (Finset.mem_union_left _ hlisted)
        | recovery => exact Finset.mem_union_left _ (Finset.mem_union_right _ hlisted)

/-- A publication that went through is settled. -/
theorem PlannedFrom.settled {plan : Plan} (hplan : PlannedFrom job s₀ plan)
    (hvalid : Valid p (job.finalManifest plan)) :
    Settled p job plan (job.publishedStore plan s₀ plan.finalSuperseded) := by
  have hkept : plan.recoveredPath ∈ (plan.promotedStore s₀).paths \ plan.finalSuperseded :=
    Finset.mem_sdiff.mpr ⟨Finset.mem_insert_self _ _, plan.recoveredPath_notMem⟩
  have hname : storageObjectFileMatchesAsset plan.fileName p.asset = true :=
    (validateScope_eq_ok.mp hvalid.inScope).2.1 plan.recoveredPath List.mem_cons_self
  have honly : ∀ {path tree},
      path ∈ (job.publishedStore plan s₀ plan.finalSuperseded).list p.asset tree →
        path = plan.recoveredPath := by
    intro path tree hmem
    obtain ⟨hmem, htree, hmatches⟩ := Store.mem_list.mp hmem
    obtain ⟨hmem, hgone⟩ := Finset.mem_sdiff.mp hmem
    exact (hplan.listed_cases (Store.mem_list.mpr ⟨hmem, htree, hmatches⟩)).resolve_right
      hgone
  refine ⟨hplan.encoded, rfl, ?_, ?_, fun path hpath hmem => ?_, ?_⟩
  · refine Finset.eq_singleton_iff_unique_mem.mpr ⟨?_, fun path hmem => honly hmem⟩
    exact Store.mem_list.mpr ⟨hkept, rfl, hname⟩
  · refine Finset.eq_empty_of_forall_notMem fun path hmem => ?_
    have htree := (Store.mem_list.mp hmem).2.1
    rw [honly hmem] at htree
    cases htree
  · exact (Finset.mem_sdiff.mp hmem).2 hpath
  · have hbytes : (plan.promotedStore s₀).bytes plan.recoveredPath = plan.bytes := if_pos rfl
    rw [Store.get, Job.publishedStore, if_pos hkept, hbytes]

/-- **A complete run without a failed deletion settles the asset.** -/
theorem settled_of_finished {deletions : List Bool}
    (h : runFrom job (s₀, .start) deletions = (s, .finished 0)) :
    ∃ plan, PlannedFrom job s₀ plan ∧ s = job.publishedStore plan s₀ plan.finalSuperseded ∧
      Settled p job plan s := by
  have hat := at_run job s₀ deletions
  rw [h] at hat
  cases hat with
  | @finished plan gone _ hplan hvalid hgone hall =>
      obtain rfl := hall rfl
      exact ⟨plan, hplan, rfl, hplan.settled hvalid⟩

/-- A settled partition shows the published object alone. -/
theorem Settled.view {plan : Plan} (h : Settled p job plan s) :
    s.view p.asset = {plan.recoveredPath} := by
  simp only [Store.view, h.manifest, h.normal]
  exact Finset.union_eq_right.mpr Finset.sdiff_subset

/-- **To publish the same records again changes nothing.** -/
theorem Settled.idempotent {plan : Plan} (h : Settled p job plan s) {deletions : List Bool}
    {s' : Store} (hrun : runFrom job (s, .start) deletions = (s', .finished 0)) :
    s'.manifest = s.manifest ∧ ∀ path, s'.get path = s.get path := by
  obtain ⟨again, hagain, rfl, hsettled⟩ := settled_of_finished hrun
  obtain ⟨hbytes, hname⟩ : again.bytes = plan.bytes ∧ again.fileName = plan.fileName := by
    have hsame := hagain.encoded.symm.trans h.encoded
    rw [Except.ok.injEq, Prod.mk.injEq] at hsame
    exact hsame
  have hrecovered : again.recoveredPath = plan.recoveredPath := by
    rw [Plan.recoveredPath, hname, Plan.recoveredPath]
  have hstaged : again.stagedPath = plan.stagedPath := by
    rw [Plan.stagedPath, hname, Plan.stagedPath]
  have hfinal : again.finalSuperseded = plan.finalSuperseded := by
    have hsuperseded : ∀ path, path ∈ again.superseded ↔
        path = plan.recoveredPath ∨ path ∈ plan.finalSuperseded := by
      intro path
      rw [hagain.superseded, h.normal, h.recovery, h.manifest]
      simp [namedObjects, Job.finalManifest, phaseManifest]
    ext path
    rw [Plan.mem_finalSuperseded, hrecovered, hstaged, hsuperseded]
    constructor
    · rintro ⟨hne, rfl | rfl | hpath⟩
      · exact plan.stagedPath_mem
      · exact absurd rfl hne
      · exact hpath
    · intro hpath
      exact ⟨(Plan.mem_finalSuperseded.mp hpath).1, Or.inr (Or.inr hpath)⟩
  refine ⟨?_, fun path => ?_⟩
  · rw [hsettled.manifest, h.manifest, Job.finalManifest, hfinal, hrecovered, Job.finalManifest]
  by_cases hpath : path = plan.recoveredPath
  · have hcontent := hsettled.content
    rw [hrecovered, hbytes] at hcontent
    rw [hpath, hcontent, h.content]
  by_cases hgone : path ∈ plan.finalSuperseded
  · have hnew := hsettled.deleted path (hfinal ▸ hgone)
    rw [Store.get, if_neg hnew, Store.get, if_neg (h.deleted path hgone)]
  · have hne : path ≠ plan.stagedPath := fun heq => hgone (heq ▸ plan.stagedPath_mem)
    simp [Store.get, Job.publishedStore, Plan.promotedStore, Plan.stagedStore, Store.put, hfinal,
      hrecovered, hstaged, hpath, hne, hgone]

/-- **Recovery publication converges and is idempotent.** -/
theorem publication_converges (h : Reachable p s) (job : Job p) :
    (p.Named → (∃ encoded, job.encodeGroup = .ok encoded) → Completes job (s, .start)) ∧
      ∀ deletions s', runFrom job (s, .start) deletions = (s', .finished 0) →
        (∃ bytes fileName, job.encodeGroup = .ok (bytes, fileName) ∧
          s'.view p.asset = {⟨.normal, fileName⟩} ∧ s'.get ⟨.normal, fileName⟩ = some bytes ∧
          ParquetFormat.decode bytes = .ok (job.records.map PersistedRecord.asStored) ∧
          s'.list p.asset .normal = {⟨.normal, fileName⟩} ∧ s'.list p.asset .recovery = ∅) ∧
        ∀ deletions' s'', runFrom job (s', .start) deletions' = (s'', .finished 0) →
          s''.manifest = s'.manifest ∧ ∀ path, s''.get path = s'.get path := by
  refine ⟨fun hnamed ⟨encoded, hencode⟩ => h.sound.completes hnamed hencode,
    fun deletions s' hrun => ?_⟩
  obtain ⟨plan, hplan, -, hsettled⟩ := settled_of_finished hrun
  refine ⟨⟨plan.bytes, plan.fileName, hplan.encoded, hsettled.view, hsettled.content,
    decode_of_encodeGroup hplan.encoded, hsettled.normal, hsettled.recovery⟩,
    fun deletions' s'' hrun' => hsettled.idempotent hrun'⟩

end Replacing

namespace OneHour

open PolyBook.Sample

/-- A bid received some minutes after an hour began. -/
def bid (minute : Nat) : PersistedRecord :=
  .book (level .delta "7" .bid 40 10 (1699999200000000 + minute * 60000000) "0x61")

/-- What the live writer has kept of the hour, and its object. -/
def flushed : List PersistedRecord × Bytes := ([bid 1], [80, 65, 82, 49, 1, 80, 65, 82, 49])

/-- What the log has kept of it. -/
def retained : List PersistedRecord × Bytes :=
  ([bid 1, bid 2], [80, 65, 82, 49, 1, 2, 80, 65, 82, 49])

/-- The encoding of these two batches. -/
@[reducible] def format : ParquetFormat :=
  .ofTable [flushed, retained]
    (fun bytes => if bytes = flushed.2 then 0xa4e428564378c91c else 0xc4582ec2879a3604) (by decide)

/-- The partition of the sample. -/
def hour : Partition := ⟨"", "book_events", "7", "2023/11/14/22"⟩

/-- The sample's rebuilt group. -/
def rebuild : Job hour where
  first := bid 1
  rest := [bid 2]
  coverage := ⟨1699999100000000, 1700003000000000, by decide, by decide⟩
  asset := by decide +kernel

/-- The object of the live writer. -/
def flushedPath : ObjectPath := ⟨.normal, "7_1699999260000000_a4e428564378c91c_9.parquet"⟩

/-- The sample store before the rebuild. -/
def live : Store := ⟨{flushedPath}, fun _ => flushed.2, none⟩

/-- A run is cut once it has promoted its object. -/
def cut : Store := (@runFrom format hour rebuild (live, .start) (List.replicate 6 true)).1

end OneHour

open OneHour in
/-- A run after the cut one completes and leaves the asset with one object. -/
theorem publication_converges_after_cut : @Completes format hour rebuild (cut, .start) ∧
    ∀ deletions s', @runFrom format hour rebuild (cut, .start) deletions = (s', .finished 0) →
      ∃ fileName, s'.view "7" = {⟨.normal, fileName⟩} := by
  have hreachable : @Reachable format hour cut :=
    @Reachable.run format hour live (@Reachable.live format hour live rfl) rebuild
      (List.replicate 6 true)
  obtain ⟨hcompletes, hsettles⟩ := @publication_converges format hour cut hreachable rebuild
  refine ⟨hcompletes ⟨by decide, by decide, by decide⟩ ⟨_, rfl⟩, fun deletions s' hrun => ?_⟩
  obtain ⟨⟨_, fileName, -, hview, -⟩, -⟩ := hsettles deletions s' hrun
  exact ⟨fileName, hview⟩

end PolyBook.Publication
