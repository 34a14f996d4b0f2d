import PolyBook.StorageKey
import PolyBook.Types

/-!
# Replacing the records of complete hours

`write_batch_replacing` takes records that are partitioned by receive time and
belong to hours that the recovered log spans, sorts them into groups of one
dataset, one asset and one hour, and hands each group to `replace_group`.
-/

namespace PolyBook

/-- `HOUR_US`. -/
def hourUs : Nat := 3600000000

/-- `MIN_PLAUSIBLE_PARTITION_US`. -/
def minPlausiblePartitionUs : Nat := 1000000000000000

/-- `MAX_PLAUSIBLE_PARTITION_US`. -/
def maxPlausiblePartitionUs : Nat := 10000000000000000

/-- `StoreError`, with the message of an error of the object store. -/
inductive StoreError where
  | unsafeRecovery (message : String)
  | objectStore (message : String)
  deriving DecidableEq

/-- The beginning of the UTC hour of a timestamp. -/
def hourStart (timestampUs : Nat) : Nat := timestampUs / hourUs * hourUs

theorem hourStart_le (timestampUs : Nat) : hourStart timestampUs ≤ timestampUs :=
  Nat.div_mul_le_self _ _

theorem lt_hourStart_add (timestampUs : Nat) : timestampUs < hourStart timestampUs + hourUs := by
  have := Nat.lt_div_mul_add (a := timestampUs) (b := hourUs) (by decide)
  rwa [hourStart]

theorem hourStart_mono {x y : Nat} (h : x ≤ y) : hourStart x ≤ hourStart y :=
  Nat.mul_le_mul_right _ (Nat.div_le_div_right h)

@[simp] theorem hourStart_hourStart (timestampUs : Nat) :
    hourStart (hourStart timestampUs) = hourStart timestampUs := by
  rw [hourStart, hourStart, Nat.mul_div_cancel _ (by decide)]

/-- Inclusive span of the log's timestamps; `RecoveryCoverage::new` refuses others. -/
structure RecoveryCoverage where
  startUs : Nat
  endUs : Nat
  increasing : startUs < endUs
  inRange : minPlausiblePartitionUs ≤ startUs ∧ endUs ≤ maxPlausiblePartitionUs

namespace RecoveryCoverage

/-- `RecoveryCoverage::new`. -/
def new (startUs endUs : Nat) : Except StoreError RecoveryCoverage :=
  if hincreasing : endUs ≤ startUs then
    .error (.unsafeRecovery ("WAL coverage must increase, got " ++ toString startUs ++ ".." ++
      toString endUs))
  else if hrange : startUs < minPlausiblePartitionUs ∨ maxPlausiblePartitionUs < endUs then
    .error (.unsafeRecovery ("WAL coverage " ++ toString startUs ++ ".." ++ toString endUs ++
      " is outside the plausible timestamp range"))
  else .ok ⟨startUs, endUs, by omega, by omega⟩

theorem new_eq_ok {startUs endUs : Nat} {coverage : RecoveryCoverage}
    (h : new startUs endUs = .ok coverage) :
    coverage.startUs = startUs ∧ coverage.endUs = endUs := by
  unfold new at h
  split at h
  · cases h
  · split at h
    · cases h
    · cases h
      exact ⟨rfl, rfl⟩

/-- `contains_complete_hour`: the span reaches from before the timestamp's hour to
its end. -/
def containsCompleteHour (coverage : RecoveryCoverage) (timestampUs : Nat) : Bool :=
  coverage.startUs < hourStart timestampUs &&
    (if hourStart timestampUs + hourUs ≤ u64Max then some (hourStart timestampUs + hourUs)
      else none).any fun hourEnd => hourEnd ≤ coverage.endUs

variable {coverage : RecoveryCoverage} {x y : Nat}

/-- The timestamps of a complete hour lie strictly between the ends of the span. -/
theorem within_of_complete (h : coverage.containsCompleteHour x = true) :
    coverage.startUs < hourStart x ∧ hourStart x + hourUs ≤ coverage.endUs := by
  unfold containsCompleteHour at h
  rw [Bool.and_eq_true, decide_eq_true_eq] at h
  obtain ⟨hstart, hend⟩ := h
  split at hend
  · rw [Option.any_some, decide_eq_true_eq] at hend
    exact ⟨hstart, hend⟩
  · cases hend

/-- Whether an hour is complete does not depend on the timestamp in it. -/
theorem containsCompleteHour_congr (h : hourStart x = hourStart y) :
    coverage.containsCompleteHour x = coverage.containsCompleteHour y := by
  rw [containsCompleteHour, containsCompleteHour, h]

/-- A timestamp of a complete hour is in the range of real ones. -/
theorem inRange_of_complete (h : coverage.containsCompleteHour x = true) :
    minPlausiblePartitionUs ≤ x ∧ x ≤ maxPlausiblePartitionUs := by
  obtain ⟨hstart, hend⟩ := within_of_complete h
  have := hourStart_le x
  have := lt_hourStart_add x
  have := coverage.inRange
  omega

end RecoveryCoverage

namespace PersistedRecord

/-- `dataset_name`. -/
def datasetName : PersistedRecord → String
  | .book _ => "book_events"
  | .trade _ => "trade_events"
  | .ingest _ => "ingest_events"
  | .checkpoint _ => "book_checkpoints"
  | .validation _ => "replay_validations"

/-- `partition_timestamp_us`. -/
def partitionTimestampUs : PersistedRecord → Nat
  | .book e => e.provenance.recvTimestampUs
  | .trade e => e.provenance.recvTimestampUs
  | .ingest e => e.provenance.recvTimestampUs
  | .checkpoint e => e.checkpointTimestampUs
  | .validation e => e.persistedAtUs

@[simp] theorem datasetName_asStored (record : PersistedRecord) :
    record.asStored.datasetName = record.datasetName := by
  cases record <;> rfl

@[simp] theorem partitionTimestampUs_asStored (record : PersistedRecord) :
    record.asStored.partitionTimestampUs = record.partitionTimestampUs := by
  cases record <;> rfl

/-- `is_receive_time_partitioned`. -/
def isReceiveTimePartitioned : PersistedRecord → Bool
  | .book _ | .trade _ | .ingest _ => true
  | .checkpoint _ | .validation _ => false

theorem recvTimestampUs_of_partitioned {record : PersistedRecord}
    (h : record.isReceiveTimePartitioned = true) :
    record.recvTimestampUs = some record.partitionTimestampUs := by
  cases record with
  | book e => rfl
  | trade e => rfl
  | ingest e => rfl
  | checkpoint e => cases h
  | validation e => cases h

end PersistedRecord

/-- The text of `partition_hour_key`: `YYYY/MM/DD/HH` of a UTC hour, here the hour's
number, or the quarantine partition. -/
inductive HourKey where
  | hour (number : Nat)
  | invalidTimestamp
  deriving DecidableEq, Ord

/-- `partition_hour_key`. -/
def partitionHourKey (partitionTsUs : Nat) : HourKey :=
  if minPlausiblePartitionUs ≤ partitionTsUs ∧ partitionTsUs ≤ maxPlausiblePartitionUs then
    .hour (partitionTsUs / hourUs)
  else .invalidTimestamp

/-- The partition of a record. -/
structure GroupKey where
  dataset : String
  asset : String
  hour : HourKey
  deriving DecidableEq, Ord

/-- The group that a record is written with. -/
def groupKeyOf (record : PersistedRecord) : GroupKey :=
  ⟨record.datasetName, storageKeyFor record.assetPartition,
    partitionHourKey record.partitionTimestampUs⟩

@[simp] theorem groupKeyOf_asStored (record : PersistedRecord) :
    groupKeyOf record.asStored = groupKeyOf record := by
  simp only [groupKeyOf, PersistedRecord.datasetName_asStored,
    PersistedRecord.assetPartition_asStored, PersistedRecord.partitionTimestampUs_asStored]

/-- The records of a partition, on their way to `replace_group`. -/
structure Replacement where
  key : GroupKey
  records : List PersistedRecord
  coverage : RecoveryCoverage

/-- `RecoveryReport`. -/
structure RecoveryReport where
  partitionsPublished : Nat
  recordsPublished : Nat
  cleanupFailures : Nat
  deriving DecidableEq

namespace RecoveryWriter

/-- The groups of a batch, in the order of their keys. -/
abbrev Groups := List (GroupKey × List PersistedRecord)

/-- `groups.entry(key).or_default().push(record)`. -/
def push (key : GroupKey) (record : PersistedRecord) : Groups → Groups
  | [] => [(key, [record])]
  | (k, records) :: groups =>
      match compare key k with
      | .lt => (key, [record]) :: (k, records) :: groups
      | .eq => (k, records ++ [record]) :: groups
      | .gt => (k, records) :: push key record groups

/-- What `write_batch_replacing` refuses in a record. -/
def checkRecord (coverage : RecoveryCoverage) (record : PersistedRecord) :
    Except StoreError Unit :=
  let timestampUs := record.partitionTimestampUs
  if !record.isReceiveTimePartitioned then
    .error (.unsafeRecovery ("dataset " ++ record.datasetName ++
      " is not partitioned by receive time and has no complete-hour WAL coverage proof"))
  else if !coverage.containsCompleteHour timestampUs then
    .error (.unsafeRecovery ("record at " ++ toString timestampUs ++
      " belongs to a boundary hour not fully covered by WAL " ++ toString coverage.startUs ++
      ".." ++ toString coverage.endUs))
  else if partitionHourKey timestampUs = .invalidTimestamp then
    .error (.unsafeRecovery ("record at " ++ toString timestampUs ++
      " has no recoverable UTC hour"))
  else .ok ()

/-- The loop over the records of a batch. -/
def groupRecords (coverage : RecoveryCoverage) :
    (records : List PersistedRecord) → Groups → Except StoreError Groups
  | [], groups => .ok groups
  | record :: records, groups =>
      match checkRecord coverage record with
      | .error e => .error e
      | .ok () => groupRecords coverage records (push (groupKeyOf record) record groups)

/-- The loop over the groups.  `replaceGroup` answers from what has been handed to
it, the group itself included. -/
def replaceGroups (replaceGroup : List Replacement → Except StoreError Nat)
    (coverage : RecoveryCoverage) :
    (groups : Groups) → (done : List Replacement) → (report : RecoveryReport) →
      List Replacement × Except StoreError RecoveryReport
  | [], done, report => (done, .ok report)
  | (key, records) :: groups, done, report =>
      let done := done ++ [⟨key, records, coverage⟩]
      match replaceGroup done with
      | .error e => (done, .error e)
      | .ok cleanupFailures =>
          replaceGroups replaceGroup coverage groups done
            { cleanupFailures := report.cleanupFailures + cleanupFailures
              partitionsPublished := report.partitionsPublished + 1
              recordsPublished := report.recordsPublished + records.length }

/-- `write_batch_replacing`, after some groups have been replaced. -/
def writeBatchReplacing (replaceGroup : List Replacement → Except StoreError Nat)
    (records : List PersistedRecord) (coverage : RecoveryCoverage) (done : List Replacement) :
    List Replacement × Except StoreError RecoveryReport :=
  if records.isEmpty then (done, .ok ⟨0, 0, 0⟩)
  else
    match groupRecords coverage records [] with
    | .error e => (done, .error e)
    | .ok groups => replaceGroups replaceGroup coverage groups done ⟨0, 0, 0⟩

/-- A record that a batch may hold. -/
def Replaceable (coverage : RecoveryCoverage) (record : PersistedRecord) : Bool :=
  record.isReceiveTimePartitioned && coverage.containsCompleteHour record.partitionTimestampUs

variable {coverage : RecoveryCoverage}

theorem checkRecord_of_replaceable {record : PersistedRecord}
    (h : Replaceable coverage record = true) : checkRecord coverage record = .ok () := by
  obtain ⟨hpartitioned, hcomplete⟩ := Bool.and_eq_true_iff.mp h
  have hrange := RecoveryCoverage.inRange_of_complete hcomplete
  have hhour : partitionHourKey record.partitionTimestampUs ≠ .invalidTimestamp := by
    rw [partitionHourKey, if_pos hrange]
    exact HourKey.noConfusion
  simp only [checkRecord, hpartitioned, hcomplete, hhour, Bool.not_true, Bool.false_eq_true,
    if_false]

theorem push_perm (key : GroupKey) (record : PersistedRecord) (groups : Groups) :
    ((push key record groups).flatMap Prod.snd).Perm (groups.flatMap Prod.snd ++ [record]) := by
  induction groups with
  | nil => exact .refl _
  | cons group groups ih =>
      obtain ⟨k, records⟩ := group
      unfold push
      split
      · simp only [List.flatMap_cons, List.singleton_append]
        exact (List.perm_append_singleton _ _).symm
      · simp only [List.flatMap_cons, List.append_assoc]
        exact List.perm_append_comm.append_left records
      · simp only [List.flatMap_cons, List.append_assoc]
        exact ih.append_left records

/-- **A batch of replaceable records is accepted**, and its groups hold its records. -/
theorem groupRecords_of_replaceable {records : List PersistedRecord}
    (h : ∀ record ∈ records, Replaceable coverage record = true) (groups : Groups) :
    ∃ grouped, groupRecords coverage records groups = .ok grouped ∧
      (grouped.flatMap Prod.snd).Perm (groups.flatMap Prod.snd ++ records) := by
  induction records generalizing groups with
  | nil => exact ⟨groups, rfl, by rw [List.append_nil]⟩
  | cons record records ih =>
      obtain ⟨grouped, hgrouped, hperm⟩ :=
        ih (fun r hr => h r (List.mem_cons_of_mem _ hr)) (push (groupKeyOf record) record groups)
      refine ⟨grouped, ?_, hperm.trans ?_⟩
      · simp only [groupRecords, checkRecord_of_replaceable (h record List.mem_cons_self), hgrouped]
      · have := (push_perm (groupKeyOf record) record groups).append_right records
        rwa [List.append_assoc, List.singleton_append] at this

/-! ## What the groups are handed to -/

/-- The groups of a batch as `replace_group` is given them. -/
def replacementsOf (coverage : RecoveryCoverage) (records : List PersistedRecord) :
    List Replacement :=
  match groupRecords coverage records [] with
  | .error _ => []
  | .ok groups => groups.map fun group => ⟨group.1, group.2, coverage⟩

/-- `replace_group` is given the first groups, in order, and all of them unless it fails. -/
theorem replaceGroups_given (replaceGroup : List Replacement → Except StoreError Nat)
    (groups : Groups) (done : List Replacement) (report : RecoveryReport) :
    ∃ given, given <+: groups.map (fun group => ⟨group.1, group.2, coverage⟩) ∧
      (replaceGroups replaceGroup coverage groups done report).1 = done ++ given ∧
      ∀ final, (replaceGroups replaceGroup coverage groups done report).2 = .ok final →
        given = groups.map fun group => ⟨group.1, group.2, coverage⟩ := by
  induction groups generalizing done report with
  | nil => exact ⟨[], List.nil_prefix, by rw [replaceGroups, List.append_nil], fun _ _ => rfl⟩
  | cons group groups ih =>
      obtain ⟨key, records⟩ := group
      rw [replaceGroups]
      split
      · refine ⟨[⟨key, records, coverage⟩], ?_, rfl, fun final h => by cases h⟩
        rw [List.map_cons]
        exact List.cons_prefix_cons.mpr ⟨rfl, List.nil_prefix⟩
      · rename_i cleanupFailures _
        obtain ⟨given, hgiven, hdone, hall⟩ := ih (done ++ [⟨key, records, coverage⟩])
          { cleanupFailures := report.cleanupFailures + cleanupFailures
            partitionsPublished := report.partitionsPublished + 1
            recordsPublished := report.recordsPublished + records.length }
        refine ⟨⟨key, records, coverage⟩ :: given, ?_, ?_, fun final h => ?_⟩
        · exact List.cons_prefix_cons.mpr ⟨rfl, hgiven⟩
        · rw [hdone, List.append_assoc, List.singleton_append]
        · rw [hall final h, List.map_cons]

/-- A batch gives `replace_group` its groups in order, all of them if it succeeds. -/
theorem writeBatchReplacing_given (coverage : RecoveryCoverage)
    (replaceGroup : List Replacement → Except StoreError Nat)
    (records : List PersistedRecord) (done : List Replacement) :
    ∃ given, given <+: replacementsOf coverage records ∧
      (writeBatchReplacing replaceGroup records coverage done).1 = done ++ given ∧
      ∀ report, (writeBatchReplacing replaceGroup records coverage done).2 = .ok report →
        given = replacementsOf coverage records := by
  cases records with
  | nil => exact ⟨[], List.nil_prefix, (List.append_nil done).symm, fun _ _ => rfl⟩
  | cons record records =>
      unfold writeBatchReplacing replacementsOf
      rw [List.isEmpty_cons, if_neg Bool.false_ne_true]
      split
      · exact ⟨[], List.nil_prefix, (List.append_nil done).symm, fun report h => by cases h⟩
      · exact replaceGroups_given replaceGroup _ done _

end RecoveryWriter

end PolyBook
