import PolyBook.HourText
import PolyBook.Library.Grouping
import PolyBook.ObjectPaths
import PolyBook.RecoveryPublication

/-!
# Writing a batch

`write_batch` sorts a batch into groups of one dataset, one asset and one hour, and
puts one object for each group, under a name that it derives from the content.
`flush` writes the buffer of the sink again while that fails, a bounded number of
times.

A put may fail, and one that fails may have stored its object all the same.
`flush_neither_loses_nor_duplicates` says what is in the store after any failures.
-/

namespace PolyBook

open Wal Publication

/-! ## The groups -/

/-- The quarantine partition stands after all hours. -/
def HourKey.rank : HourKey → Nat × Nat
  | .hour number => (0, number)
  | .invalidTimestamp => (1, 0)

/-- Hours are compared as the derived order of their enum compares them. -/
theorem HourKey.compare_eq (a b : HourKey) : compare a b =
    compareLex (compareOn fun k : HourKey => k.rank.1) (compareOn fun k => k.rank.2) a b := by
  cases a with
  | hour m =>
      cases b with
      | hour n => exact Ordering.then_eq
      | invalidTimestamp => rfl
  | invalidTimestamp => cases b <;> rfl

instance : Std.TransOrd HourKey := by
  have heq : (compare : HourKey → HourKey → Ordering) = compareLex
      (compareOn fun k : HourKey => k.rank.1) (compareOn fun k => k.rank.2) := by
    funext a b
    exact HourKey.compare_eq a b
  rw [Std.TransOrd, heq]
  infer_instance

instance : Std.LawfulEqOrd HourKey where
  eq_of_compare := by
    intro a b h
    rw [HourKey.compare_eq, compareLex_eq_eq] at h
    obtain ⟨htag, hnumber⟩ := h
    have htag := Std.LawfulEqOrd.eq_of_compare htag
    have hnumber := Std.LawfulEqOrd.eq_of_compare hnumber
    cases a <;> cases b <;> simp_all [HourKey.rank]

/-- Group keys are compared field by field. -/
theorem GroupKey.compare_eq (a b : GroupKey) : compare a b =
    compareLex (compareOn GroupKey.dataset)
      (compareLex (compareOn GroupKey.asset) (compareOn GroupKey.hour)) a b := by
  obtain ⟨dataset, asset, hour⟩ := a
  obtain ⟨dataset', asset', hour'⟩ := b
  change (compare dataset dataset').then ((compare asset asset').then
    ((compare hour hour').then .eq)) = _
  rw [Ordering.then_eq]
  rfl

instance : Std.TransOrd GroupKey := by
  have heq : (compare : GroupKey → GroupKey → Ordering) = compareLex (compareOn GroupKey.dataset)
      (compareLex (compareOn GroupKey.asset) (compareOn GroupKey.hour)) := by
    funext a b
    exact GroupKey.compare_eq a b
  rw [Std.TransOrd, heq]
  infer_instance

instance : Std.LawfulEqOrd GroupKey where
  eq_of_compare := by
    rintro ⟨dataset, asset, hour⟩ ⟨dataset', asset', hour'⟩ h
    rw [GroupKey.compare_eq, compareLex_eq_eq, compareLex_eq_eq] at h
    obtain ⟨hdataset, hasset, hhour⟩ := h
    obtain rfl := Std.LawfulEqOrd.eq_of_compare hdataset
    obtain rfl := Std.LawfulEqOrd.eq_of_compare hasset
    obtain rfl := Std.LawfulEqOrd.eq_of_compare hhour
    rfl

/-- A record is pushed into its group as the writer's map does it. -/
theorem push_eq (key : GroupKey) (record : PersistedRecord) (groups : RecoveryWriter.Groups) :
    RecoveryWriter.push key record groups = Grouping.push key record groups := by
  induction groups with
  | nil => rfl
  | cons group groups ih =>
      unfold RecoveryWriter.push Grouping.push
      cases compare key group.1 with
      | lt => rfl
      | eq => rfl
      | gt => exact congrArg (group :: ·) ih

/-- The groups of a batch. -/
def groupsOf (records : List PersistedRecord) : RecoveryWriter.Groups :=
  records.foldl (fun groups record => RecoveryWriter.push (groupKeyOf record) record groups) []

/-- The groups of a batch are a grouping of its records. -/
theorem isGrouping_groupsOf (records : List PersistedRecord) :
    Grouping.IsGrouping groupKeyOf records (groupsOf records) := by
  have h := Grouping.isGrouping_foldl groupKeyOf records
  simp only [← push_eq] at h
  exact h

/-! ## The store -/

/-- What becomes of a put.  One that fails may have taken effect. -/
inductive PutOutcome where
  | stored
  | failed (message : String) (stored : Bool)

/-- The objects by their paths, and how many puts there have been. -/
structure ObjectStore where
  objects : Objects
  puts : Nat

/-- A put: atomic, so it stores the whole object or nothing. -/
def ObjectStore.put (outcome : Nat → PutOutcome) (path : String) (bytes : Bytes)
    (s : ObjectStore) : ObjectStore × Except StoreError Unit :=
  let stored : ObjectStore := ⟨s.objects.insert path bytes, s.puts + 1⟩
  match outcome s.puts with
  | .stored => (stored, .ok ())
  | .failed message true => (stored, .error (.objectStore message))
  | .failed message false => (⟨s.objects, s.puts + 1⟩, .error (.objectStore message))

namespace ParquetRecordWriter

section Writer

variable [ParquetFormat]

/-- `encode_group` of a group with a first record. -/
def encodeGroup (first : PersistedRecord) (rest : List PersistedRecord) :
    Except StoreError (Bytes × String) :=
  match ParquetFormat.encode (first :: rest) with
  | .error e => .error e
  | .ok bytes => .ok (bytes, objectFileName (storageKeyFor first.assetPartition)
      first.partitionTimestampUs (ParquetFormat.contentHash bytes) bytes.length)

variable [Chrono] (outcome : Nat → PutOutcome) (basePath : String)

/-- Where the object of a group lies. -/
def groupPath (key : GroupKey) (fileName : String) : String :=
  childPath basePath (key.dataset ++ "/" ++ key.hour.text ++ "/" ++ fileName)

/-- `write_group`. -/
def writeGroup (key : GroupKey) (records : List PersistedRecord) (s : ObjectStore) :
    ObjectStore × Except StoreError Unit :=
  match records with
  | [] => (s, .ok ())  -- not reached: a group has the record it was opened for
  | first :: rest =>
      match encodeGroup first rest with
      | .error e => (s, .error e)
      | .ok (bytes, fileName) => s.put outcome (groupPath basePath key fileName) bytes

/-- The loop over the groups. -/
def writeGroups : RecoveryWriter.Groups → ObjectStore → ObjectStore × Except StoreError Unit
  | [], s => (s, .ok ())
  | (key, records) :: groups, s =>
      match writeGroup outcome basePath key records s with
      | (s, .error e) => (s, .error e)
      | (s, .ok ()) => writeGroups groups s

/-- `write_batch`. -/
def writeBatch (records : List PersistedRecord) (s : ObjectStore) :
    ObjectStore × Except StoreError Unit :=
  if records.isEmpty then (s, .ok ()) else writeGroups outcome basePath (groupsOf records) s

/-- `MAX_FLUSH_RETRIES`. -/
def maxFlushRetries : Nat := 5

/-- The attempts of `flush`, with the retries that are left; the store, the buffer and
the answer. -/
def flushAttempts (buffer : List PersistedRecord) :
    (retries : Nat) → ObjectStore → ObjectStore × List PersistedRecord × Except StoreError Unit
  | retries, s =>
      match writeBatch outcome basePath buffer s, retries with
      | (s, .ok ()), _ => (s, [], .ok ())
      | (s, .error e), 0 => (s, buffer, .error e)
      | (s, .error _), retries + 1 => flushAttempts buffer retries s

/-- `ParquetSink::flush`. -/
def flush (buffer : List PersistedRecord) (s : ObjectStore) :
    ObjectStore × List PersistedRecord × Except StoreError Unit :=
  flushAttempts outcome basePath buffer maxFlushRetries s

end Writer

/-! ## The object of a group -/

section Objects

variable [ParquetFormat] [Chrono]

/-- The records of a buffer that belong to a partition, in the order of the buffer. -/
def groupRecords (buffer : List PersistedRecord) (key : GroupKey) : List PersistedRecord :=
  buffer.filter fun record => decide (groupKeyOf record = key)

/-- The object that holds the records of a group of the buffer. -/
structure GroupObject (basePath : String) (buffer : List PersistedRecord) (key : GroupKey)
    (path : String) (bytes : Bytes) : Prop where
  encoded : ∃ first rest fileName, groupRecords buffer key = first :: rest ∧
    encodeGroup first rest = .ok (bytes, fileName) ∧ path = groupPath basePath key fileName

variable {basePath : String} {buffer : List PersistedRecord} {key key' : GroupKey}
  {path path' : String} {bytes bytes' : Bytes}

omit [Chrono] in
/-- What encoding a group gives. -/
theorem encodeGroup_eq_ok {first : PersistedRecord} {rest : List PersistedRecord}
    {fileName : String} (h : encodeGroup first rest = .ok (bytes, fileName)) :
    ParquetFormat.encode (first :: rest) = .ok bytes ∧
      fileName = objectFileName (storageKeyFor first.assetPartition) first.partitionTimestampUs
        (ParquetFormat.contentHash bytes) bytes.length := by
  unfold encodeGroup at h
  cases hencode : ParquetFormat.encode (first :: rest) with
  | error e => simp [hencode] at h
  | ok written =>
      simp only [hencode, Except.ok.injEq, Prod.mk.injEq] at h
      obtain ⟨rfl, rfl⟩ := h
      exact ⟨rfl, rfl⟩

/-- The object of a group is the encoding of its records in the order of the buffer. -/
theorem GroupObject.encode (h : GroupObject basePath buffer key path bytes) :
    ParquetFormat.encode (groupRecords buffer key) = .ok bytes := by
  obtain ⟨first, rest, fileName, hrecords, hencode, -⟩ := h.encoded
  rw [hrecords]
  exact (encodeGroup_eq_ok hencode).1

/-- **The object of a group holds its records in the order of the buffer.** -/
theorem GroupObject.holds (h : GroupObject basePath buffer key path bytes) :
    ParquetFormat.decode bytes = .ok ((groupRecords buffer key).map PersistedRecord.asStored) :=
  ParquetFormat.decode_encode _ _ h.encode

omit [ParquetFormat] [Chrono] in
/-- Every record of a group has its key. -/
theorem key_of_mem {record : PersistedRecord} (h : record ∈ groupRecords buffer key) :
    groupKeyOf record = key := of_decide_eq_true (List.mem_filter.mp h).2

omit [ParquetFormat] [Chrono] in
/-- A dataset's name holds no slash. -/
theorem slash_notMem_datasetName (record : PersistedRecord) :
    '/' ∉ record.datasetName.toList := by
  have hall : ∀ name ∈ ["book_events", "trade_events", "ingest_events", "book_checkpoints",
      "replay_validations"], '/' ∉ name.toList := by decide
  apply hall
  cases record <;> simp [PersistedRecord.datasetName]

omit [ParquetFormat] in
/-- The texts of two partitions' hours differ. -/
theorem HourKey.text_injective {t t' : Nat}
    (h : (partitionHourKey t).text = (partitionHourKey t').text) :
    partitionHourKey t = partitionHourKey t' := by
  have hhour : ∀ t, minPlausiblePartitionUs ≤ t ∧ t ≤ maxPlausiblePartitionUs →
      t / hourUs < fourDigitHours := by
    intro t ht
    unfold minPlausiblePartitionUs maxPlausiblePartitionUs at ht
    unfold hourUs fourDigitHours
    omega
  have hinvalid : ∀ hour < fourDigitHours,
      hourText ((hour : Int) * 3600) ≠ "invalid_timestamp" := by
    intro hour hlt heq
    have hlength := length_hourText hlt
    rw [heq] at hlength
    revert hlength
    decide
  unfold partitionHourKey at h ⊢
  by_cases ht : minPlausiblePartitionUs ≤ t ∧ t ≤ maxPlausiblePartitionUs
  · by_cases ht' : minPlausiblePartitionUs ≤ t' ∧ t' ≤ maxPlausiblePartitionUs
    · rw [if_pos ht, if_pos ht'] at h ⊢
      rw [hourText_injective (hhour t ht) (hhour t' ht') h]
    · rw [if_pos ht, if_neg ht'] at h
      exact absurd h (hinvalid _ (hhour t ht))
  · by_cases ht' : minPlausiblePartitionUs ≤ t' ∧ t' ≤ maxPlausiblePartitionUs
    · rw [if_neg ht, if_pos ht'] at h
      exact absurd h.symm (hinvalid _ (hhour t' ht'))
    · rw [if_neg ht, if_neg ht']

omit [ParquetFormat] [Chrono] in
/-- A child's path is a text before the suffix. -/
theorem toList_childPath (basePath : String) :
    ∃ start, ∀ suffix, (childPath basePath suffix).toList = start ++ suffix.toList := by
  by_cases hempty : basePath.isEmpty = true
  · exact ⟨[], fun suffix => by rw [childPath, if_pos hempty, List.nil_append]⟩
  · refine ⟨basePath.toList ++ ['/'], fun suffix => ?_⟩
    rw [childPath, if_neg hempty, String.toList_append, String.toList_append]
    rfl

omit [ParquetFormat] [Chrono] in
/-- The base path does not make two paths one. -/
theorem childPath_injective {suffix suffix' : String}
    (h : childPath basePath suffix = childPath basePath suffix') : suffix = suffix' := by
  obtain ⟨start, hstart⟩ := toList_childPath basePath
  have htext := congrArg String.toList h
  rw [hstart, hstart] at htext
  exact String.toList_inj.mp (List.append_cancel_left htext)

omit [ParquetFormat] [Chrono] in
/-- The text of a group's path, part by part. -/
theorem toList_components (dataset hour fileName : String) :
    (dataset ++ "/" ++ hour ++ "/" ++ fileName).toList =
      dataset.toList ++ '/' :: (hour.toList ++ '/' :: fileName.toList) := by
  simp

omit [ParquetFormat] in
/-- A path says which partition it is for, and how long the content is. -/
theorem groupPath_inj {first first' : PersistedRecord} {ts ts' : Nat} {hash hash' : UInt64}
    {len len' : Nat}
    (h : groupPath basePath (groupKeyOf first)
        (objectFileName (storageKeyFor first.assetPartition) ts hash len) =
      groupPath basePath (groupKeyOf first')
        (objectFileName (storageKeyFor first'.assetPartition) ts' hash' len')) :
    groupKeyOf first = groupKeyOf first' ∧ len = len' := by
  have hsuffix := congrArg String.toList (childPath_injective h)
  rw [toList_components, toList_components] at hsuffix
  obtain ⟨hdataset, hrest⟩ := Separated.append_inj_left (slash_notMem_datasetName first)
    (slash_notMem_datasetName first') hsuffix
  obtain ⟨hhour, hname⟩ := Separated.append_inj_right
    (slash_notMem_objectFileName first.assetPartition ts hash len)
    (slash_notMem_objectFileName first'.assetPartition ts' hash' len') hrest
  have hasset := objectFileName_asset (String.toList_inj.mp hname)
  have hkey := HourKey.text_injective (String.toList_inj.mp hhour)
  refine ⟨?_, objectFileName_length (String.toList_inj.mp hname)⟩
  rw [groupKeyOf, groupKeyOf, String.toList_inj.mp hdataset, hasset, hkey]

/-- Objects of one name are of one partition and of one length, whatever batches they are of. -/
theorem GroupObject.same_name {other : List PersistedRecord}
    (h : GroupObject basePath buffer key path bytes)
    (h' : GroupObject basePath other key' path bytes') :
    key = key' ∧ bytes.length = bytes'.length := by
  obtain ⟨first, rest, fileName, hrecords, hencode, rfl⟩ := h.encoded
  obtain ⟨first', rest', fileName', hrecords', hencode', hpath⟩ := h'.encoded
  have hfirst : groupKeyOf first = key := key_of_mem (hrecords ▸ List.mem_cons_self)
  have hfirst' : groupKeyOf first' = key' := key_of_mem (hrecords' ▸ List.mem_cons_self)
  rw [(encodeGroup_eq_ok hencode).2, (encodeGroup_eq_ok hencode').2, ← hfirst, ← hfirst'] at hpath
  rw [← hfirst, ← hfirst']
  exact groupPath_inj hpath

/-- **An object belongs to one group.** -/
theorem GroupObject.unique (h : GroupObject basePath buffer key path bytes)
    (h' : GroupObject basePath buffer key' path bytes') : key = key' ∧ bytes = bytes' := by
  obtain ⟨rfl, -⟩ := h.same_name h'
  have hencode := h.encode
  rw [h'.encode] at hencode
  exact ⟨rfl, (Except.ok.inj hencode).symm⟩

/-- A group has one object. -/
theorem GroupObject.functional (h : GroupObject basePath buffer key path bytes)
    (h' : GroupObject basePath buffer key path' bytes') : path = path' ∧ bytes = bytes' := by
  obtain ⟨first, rest, fileName, hrecords, hencode, rfl⟩ := h.encoded
  obtain ⟨first', rest', fileName', hrecords', hencode', rfl⟩ := h'.encoded
  rw [hrecords] at hrecords'
  obtain ⟨rfl, rfl⟩ := List.cons.inj hrecords'
  rw [hencode] at hencode'
  obtain ⟨rfl, rfl⟩ := Prod.mk.inj (Except.ok.inj hencode')
  exact ⟨rfl, rfl⟩

/-! ## The store after some puts -/

/-- A store after some objects of the buffer's groups have been put. -/
def Writes (basePath : String) (buffer : List PersistedRecord) (s s' : ObjectStore) : Prop :=
  ∀ path, s'.objects[path]? = s.objects[path]? ∨
    ∃ key bytes, GroupObject basePath buffer key path bytes ∧ s'.objects[path]? = some bytes

variable {s s' s'' : ObjectStore} {outcome : Nat → PutOutcome}

/-- Nothing is written. -/
theorem Writes.refl (s : ObjectStore) : Writes basePath buffer s s := fun _ => Or.inl rfl

/-- What two parts of a batch write, the batch writes. -/
theorem Writes.trans (h : Writes basePath buffer s s') (h' : Writes basePath buffer s' s'') :
    Writes basePath buffer s s'' := by
  intro path
  rcases h' path with hsame | hwritten
  · rw [hsame]
    exact h path
  · exact Or.inr hwritten

/-- An object of a group stays what it is. -/
theorem Writes.present (h : Writes basePath buffer s s')
    (hobject : GroupObject basePath buffer key path bytes)
    (hpresent : s.objects[path]? = some bytes) : s'.objects[path]? = some bytes := by
  rcases h path with hsame | ⟨key', bytes', hobject', hpresent'⟩
  · rw [hsame, hpresent]
  · rw [hpresent', (hobject.unique hobject').2]

/-- A put of a group's object writes that group. -/
theorem Writes.put (hobject : GroupObject basePath buffer key path bytes) (s : ObjectStore) :
    Writes basePath buffer s (s.put outcome path bytes).1 := by
  have hstored : ∀ puts, Writes basePath buffer s ⟨s.objects.insert path bytes, puts⟩ := by
    intro puts other
    dsimp only
    rw [TreeMapLookup.getElem?_insert]
    by_cases hother : other = path
    · rw [if_pos hother, hother]
      exact Or.inr ⟨key, bytes, hobject, rfl⟩
    · rw [if_neg hother]
      exact Or.inl rfl
  unfold ObjectStore.put
  cases outcome s.puts with
  | stored => exact hstored _
  | failed message stored =>
      cases stored with
      | true => exact hstored _
      | false => exact fun _ => Or.inl rfl

omit [ParquetFormat] [Chrono] in
/-- A put that succeeds has stored its object. -/
theorem put_ok (h : (s.put outcome path bytes).2 = .ok ()) :
    (s.put outcome path bytes).1.objects[path]? = some bytes := by
  unfold ObjectStore.put at h ⊢
  cases houtcome : outcome s.puts with
  | stored => simp
  | failed message stored =>
      rw [houtcome] at h
      cases stored <;> cases h

/-! ## A flush -/

/-- The groups of the buffer are written as their objects. -/
theorem writeGroup_writes (outcome : Nat → PutOutcome) (basePath : String)
    (hgroup : (key, groupRecords buffer key) ∈ groupsOf buffer) (s : ObjectStore) :
    Writes basePath buffer s (writeGroup outcome basePath key (groupRecords buffer key) s).1 ∧
      ((writeGroup outcome basePath key (groupRecords buffer key) s).2 = .ok () →
        ∃ path bytes, GroupObject basePath buffer key path bytes ∧
          (writeGroup outcome basePath key (groupRecords buffer key) s).1.objects[path]? =
            some bytes) := by
  have hnonempty := ((isGrouping_groupsOf buffer).elements _ _ hgroup).2
  cases hrecords : groupRecords buffer key with
  | nil => exact absurd hrecords hnonempty
  | cons first rest =>
      unfold writeGroup
      dsimp only
      cases hencode : encodeGroup first rest with
      | error e =>
          refine ⟨.refl s, ?_⟩
          intro h
          cases h
      | ok encoded =>
          obtain ⟨bytes, fileName⟩ := encoded
          have hobject : GroupObject basePath buffer key (groupPath basePath key fileName) bytes :=
            ⟨first, rest, fileName, hrecords, hencode, rfl⟩
          exact ⟨.put hobject s, fun hok => ⟨_, _, hobject, put_ok hok⟩⟩

omit [ParquetFormat] [Chrono] in
/-- The groups of a buffer hold the records of their keys. -/
theorem groupRecords_of_mem {records : List PersistedRecord}
    (h : (key, records) ∈ groupsOf buffer) : records = groupRecords buffer key :=
  ((isGrouping_groupsOf buffer).elements _ _ h).1

/-- Writing groups writes their objects and nothing else. -/
theorem writeGroups_writes (outcome : Nat → PutOutcome) (basePath : String)
    {groups : RecoveryWriter.Groups} (hgroups : ∀ group ∈ groups, group ∈ groupsOf buffer)
    (s : ObjectStore) :
    Writes basePath buffer s (writeGroups outcome basePath groups s).1 ∧
      ((writeGroups outcome basePath groups s).2 = .ok () → ∀ group ∈ groups,
        ∃ path bytes, GroupObject basePath buffer group.1 path bytes ∧
          (writeGroups outcome basePath groups s).1.objects[path]? = some bytes) := by
  induction groups generalizing s with
  | nil =>
      refine ⟨.refl s, ?_⟩
      intro _ group hgroup
      cases hgroup
  | cons group groups ih =>
      obtain ⟨key, records⟩ := group
      have hmem := hgroups _ List.mem_cons_self
      obtain rfl := groupRecords_of_mem hmem
      obtain ⟨hwrites, hpresent⟩ := writeGroup_writes outcome basePath hmem s
      unfold writeGroups
      generalize writeGroup outcome basePath key (groupRecords buffer key) s = written at *
      obtain ⟨s', result⟩ := written
      cases result with
      | error e =>
          refine ⟨hwrites, ?_⟩
          intro h
          cases h
      | ok done =>
          obtain ⟨path, bytes, hobject, hstored⟩ := hpresent rfl
          obtain ⟨hrest, hall⟩ := ih (fun g hg => hgroups g (List.mem_cons_of_mem _ hg)) s'
          refine ⟨hwrites.trans hrest, ?_⟩
          intro hok g hg
          rcases List.mem_cons.mp hg with rfl | hg
          · exact ⟨path, bytes, hobject, hrest.present hobject hstored⟩
          · exact hall hok g hg

/-- Writing a batch writes its groups' objects, all of them if it succeeds. -/
theorem writeBatch_writes (outcome : Nat → PutOutcome) (basePath : String)
    (buffer : List PersistedRecord) (s : ObjectStore) :
    Writes basePath buffer s (writeBatch outcome basePath buffer s).1 ∧
      ((writeBatch outcome basePath buffer s).2 = .ok () → ∀ record ∈ buffer,
        ∃ path bytes, GroupObject basePath buffer (groupKeyOf record) path bytes ∧
          (writeBatch outcome basePath buffer s).1.objects[path]? = some bytes) := by
  unfold writeBatch
  cases buffer with
  | nil =>
      refine ⟨.refl s, ?_⟩
      intro _ record hrecord
      cases hrecord
  | cons first rest =>
      obtain ⟨hwrites, hall⟩ := writeGroups_writes outcome basePath
        (fun group (hgroup : group ∈ groupsOf (first :: rest)) => hgroup) s
      refine ⟨hwrites, ?_⟩
      intro hok record hrecord
      obtain ⟨records, hgroup⟩ := (isGrouping_groupsOf (first :: rest)).complete record hrecord
      exact hall hok _ hgroup

/-- What a flush leaves. -/
structure Flushed (basePath : String) (buffer : List PersistedRecord) (s : ObjectStore)
    (result : ObjectStore × List PersistedRecord × Except StoreError Unit) : Prop where
  /-- Nothing but objects of the buffer's groups has been put. -/
  writes : Writes basePath buffer s result.1
  /-- On success they are all there, and the buffer is empty. -/
  ok : result.2.2 = .ok () → result.2.1 = [] ∧ ∀ record ∈ buffer,
    ∃ path bytes, GroupObject basePath buffer (groupKeyOf record) path bytes ∧
      result.1.objects[path]? = some bytes
  /-- On failure the buffer is kept. -/
  error : ∀ e, result.2.2 = .error e → result.2.1 = buffer

/-- What any number of attempts to flush leaves. -/
theorem flushAttempts_flushed (outcome : Nat → PutOutcome) (basePath : String)
    (buffer : List PersistedRecord) (retries : Nat) (s : ObjectStore) :
    Flushed basePath buffer s (flushAttempts outcome basePath buffer retries s) := by
  induction retries generalizing s with
  | zero =>
      obtain ⟨hwrites, hall⟩ := writeBatch_writes outcome basePath buffer s
      unfold flushAttempts
      generalize writeBatch outcome basePath buffer s = written at *
      obtain ⟨s', result⟩ := written
      cases result with
      | error e =>
          refine ⟨hwrites, ?_, fun _ _ => rfl⟩
          intro h
          cases h
      | ok done =>
          refine ⟨hwrites, fun _ => ⟨rfl, hall rfl⟩, ?_⟩
          intro e h
          cases h
  | succ retries ih =>
      obtain ⟨hwrites, hall⟩ := writeBatch_writes outcome basePath buffer s
      unfold flushAttempts
      generalize writeBatch outcome basePath buffer s = written at *
      obtain ⟨s', result⟩ := written
      cases result with
      | error e =>
          obtain ⟨hlater, hok, herror⟩ := ih s'
          exact ⟨hwrites.trans hlater, hok, herror⟩
      | ok done =>
          refine ⟨hwrites, fun _ => ⟨rfl, hall rfl⟩, ?_⟩
          intro e h
          cases h

/-- **Retrying a failed flush neither loses nor duplicates.**  Whatever puts fail, the
attempts change the store only where a group of the buffer has its object; a group has
one object, no two groups share one, and it holds the group's records in the order of
the buffer.  A flush that succeeds has put them all and empties the buffer; one that
fails keeps it. -/
theorem flush_neither_loses_nor_duplicates (outcome : Nat → PutOutcome) (basePath : String)
    (buffer : List PersistedRecord) (s : ObjectStore) :
    Flushed basePath buffer s (flush outcome basePath buffer s) ∧
      ∀ key path bytes, GroupObject basePath buffer key path bytes →
        ParquetFormat.encode (groupRecords buffer key) = .ok bytes ∧
          ParquetFormat.decode bytes =
            .ok ((groupRecords buffer key).map PersistedRecord.asStored) ∧
          ∀ key' path' bytes', GroupObject basePath buffer key' path' bytes' →
            (key = key' ↔ path = path') := by
  refine ⟨flushAttempts_flushed outcome basePath buffer maxFlushRetries s, ?_⟩
  intro key path bytes hobject
  refine ⟨hobject.encode, hobject.holds, ?_⟩
  intro key' path' bytes' hobject'
  constructor
  · rintro rfl
    exact (hobject.functional hobject').1
  · rintro rfl
    exact (hobject.unique hobject').1

end Objects

end ParquetRecordWriter

end PolyBook
