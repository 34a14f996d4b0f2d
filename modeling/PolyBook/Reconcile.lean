import Mathlib.Algebra.Ring.Nat
import Mathlib.Data.Nat.Basic
import PolyBook.Library.Batches
import PolyBook.RecoveryWriter
import PolyBook.SnapshotGroups
import PolyBook.Wal.Codec
import PolyBook.Wal.StrictScan

/-!
# Reconciling Parquet with the log

`reconcile` reads the retained log twice.  The first pass refuses a log it cannot
trust and takes the span of the receive timestamps; the second one collects the
records of each hour within the span and hands every hour to
`write_batch_replacing` at once.

The log has lost a prefix to pruning and a suffix to crashes, so the span is a
proof of completeness only because receive timestamps do not go backwards:
`reconcile_publishes_complete_hours`.
-/

namespace PolyBook

open Wal

namespace Reconcile

/-- `MAX_RECOVERY_HOUR_ENCODED_BYTES`. -/
def maxRecoveryHourEncodedBytes : Nat := 128 * 1024 * 1024

/-- `MAX_RECOVERY_HOUR_RECORDS`. -/
def maxRecoveryHourRecords : Nat := 2000000

/-- What makes `reconcile` fail: an error of the log or of the store with its
context, or a refusal. -/
inductive ReconcileError where
  | wal (context : String) (e : WalError)
  | store (context : String) (e : StoreError)
  | refused (message : String)
  deriving DecidableEq

/-- How many records of an hour the survey has seen, and their size. -/
structure HourSummary where
  records : Nat
  encodedBytes : Nat

/-- The counters saturate. -/
def HourSummary.add (summary : HourSummary) (encodedBytes : Nat) : HourSummary where
  records := min (summary.records + 1) u64Max
  encodedBytes := min (summary.encodedBytes + encodedBytes) u64Max

/-- The variables of the first pass. -/
structure Survey where
  walRecords : Nat
  supportedHours : Std.ExtTreeMap Nat HourSummary
  unsupportedRecordsSkipped : Nat
  coverageStartUs : Option Nat
  coverageEndUs : Option Nat

namespace Survey

/-- Nothing has been surveyed. -/
def init : Survey := ⟨0, ∅, 0, none, none⟩

/-- The record belongs to the span. -/
def cover (s : Survey) (timestampUs encodedBytes : Nat) : Survey :=
  { s with
    coverageStartUs := some (s.coverageStartUs.getD timestampUs)
    coverageEndUs := some timestampUs
    supportedHours := s.supportedHours.insert (hourStart timestampUs)
      ((s.supportedHours[hourStart timestampUs]?.getD ⟨0, 0⟩).add encodedBytes) }

variable [Bincode]

/-- The first pass takes a payload. -/
def observe (s : Survey) (payload : Bytes) : Except ReconcileError Survey :=
  let s := { s with walRecords := s.walRecords + 1 }
  match Codec.decode payload with
  | .error e => .error (.wal "refusing recovery after undecodable WAL record" e)
  | .ok record =>
      if !record.isReceiveTimePartitioned then
        .ok { s with unsupportedRecordsSkipped := s.unsupportedRecordsSkipped + 1 }
      else
        let timestampUs := record.recvTimestampUs.getD 0
        if s.coverageEndUs.any fun previous => timestampUs < previous then
          .error (.refused ("unsafe recovery disabled: receive timestamps move backwards at " ++
            toString timestampUs ++ "; no Parquet data changed"))
        else .ok (s.cover timestampUs payload.length)

end Survey

/-- The records of the hours that the span holds completely. -/
def Survey.recoverableRecords (s : Survey) (coverage : RecoveryCoverage) : Nat :=
  ((s.supportedHours.toList.filter fun hour => coverage.containsCompleteHour hour.1).map
    fun hour => hour.2.records).sum

/-- A complete hour that would not fit the memory. -/
def tooLarge (coverage : RecoveryCoverage) (hour : Nat × HourSummary) : Bool :=
  coverage.containsCompleteHour hour.1 &&
    (maxRecoveryHourRecords < hour.2.records || maxRecoveryHourEncodedBytes < hour.2.encodedBytes)

/-- What follows from the first pass: nothing to do, a span, or a refusal. -/
def Survey.plan (s : Survey) : Except ReconcileError (Option RecoveryCoverage) :=
  if s.walRecords = 0 then .ok none
  else
    match s.coverageStartUs with
    | none => .error (.refused
        "WAL has no receive-time-partitioned records to prove hourly coverage")
    | some coverageStartUs =>
        match RecoveryCoverage.new coverageStartUs (s.coverageEndUs.getD 0) with
        | .error e => .error (.store "WAL does not prove a recoverable time span" e)
        | .ok coverage =>
            if s.recoverableRecords coverage = 0 then
              .error (.refused ("unsafe recovery disabled: retained WAL " ++
                toString coverage.startUs ++ ".." ++ toString coverage.endUs ++
                " does not fully cover any receive-time-partitioned UTC hour; " ++
                "no Parquet data changed"))
            else
              match s.supportedHours.toList.find? (tooLarge coverage) with
              | some (hourStart, summary) => .error (.refused
                  ("unsafe recovery disabled: UTC hour starting " ++ toString hourStart ++
                    " contains " ++ toString summary.records ++ " records / " ++
                    toString summary.encodedBytes ++
                    " encoded bytes, above the recovery memory ceiling of " ++
                    toString maxRecoveryHourRecords ++ " records / " ++
                    toString maxRecoveryHourEncodedBytes ++ " bytes; no Parquet data changed"))
              | none => .ok (some coverage)

/-- The variables of the second pass, with what it has handed on. -/
structure Publishing where
  hourRecords : List PersistedRecord
  currentHour : Option Nat
  report : RecoveryReport
  /-- The batches handed to `write_batch_replacing`. -/
  handed : List (List PersistedRecord)
  /-- The groups handed to `replace_group`. -/
  replaced : List Replacement

namespace Publishing

/-- Nothing has been published. -/
def init : Publishing := ⟨[], none, ⟨0, 0, 0⟩, [], []⟩

/-- The records collected so far are of another hour. -/
def turns (s : Publishing) (hour : Nat) : Bool := s.currentHour.any fun current => current ≠ hour

/-- No hour ends where the hour is the current one. -/
theorem turns_eq_false (s : Publishing) {hour : Nat} :
    s.turns hour = false ↔ ∀ current ∈ s.currentHour, current = hour := by
  unfold turns
  cases s.currentHour <;> simp

/-- An hour ends where another is the current one. -/
theorem turns_eq_true (s : Publishing) {hour : Nat} :
    s.turns hour = true ↔ ∃ current, s.currentHour = some current ∧ current ≠ hour := by
  unfold turns
  cases s.currentHour <;> simp

/-- The record joins the hour that is collected. -/
def collect (s : Publishing) (record : PersistedRecord) : Publishing :=
  { s with
    currentHour := some (hourStart record.partitionTimestampUs)
    hourRecords := s.hourRecords ++ [record] }

variable (replaceGroup : List Replacement → Except StoreError Nat) (coverage : RecoveryCoverage)

/-- The context of an error of `write_batch_replacing`. -/
def writeFailed : String := "reconcile write failed"

/-- Hand the records of the hour to `write_batch_replacing`. -/
def write (s : Publishing) : Except (ReconcileError × Publishing) Publishing :=
  let (replaced, result) :=
    RecoveryWriter.writeBatchReplacing replaceGroup s.hourRecords coverage s.replaced
  let s := { s with handed := s.handed ++ [s.hourRecords], replaced := replaced }
  match result with
  | .error e => .error (.store writeFailed e, s)
  | .ok hourReport =>
      .ok { s with
        hourRecords := []
        report :=
          { partitionsPublished := s.report.partitionsPublished + hourReport.partitionsPublished
            recordsPublished := s.report.recordsPublished + hourReport.recordsPublished
            cleanupFailures := s.report.cleanupFailures + hourReport.cleanupFailures } }

variable [Bincode]

/-- The second pass takes a payload. -/
def take (s : Publishing) (payload : Bytes) : Except (ReconcileError × Publishing) Publishing :=
  match Codec.decode payload with
  | .error e => .error (.wal "WAL changed after validation" e, s)
  | .ok record =>
      if !record.isReceiveTimePartitioned ||
          !coverage.containsCompleteHour record.partitionTimestampUs then .ok s
      else if s.turns (hourStart record.partitionTimestampUs) then
        match s.write replaceGroup coverage with
        | .error e => .error e
        | .ok s => .ok (s.collect record)
      else .ok (s.collect record)

end Publishing

/-- What `reconcile` has handed on, and its result. -/
structure Outcome where
  handed : List (List PersistedRecord)
  replaced : List Replacement
  result : Except ReconcileError Unit

/-- The end of the second pass. -/
def Publishing.finish (s : Publishing) : Outcome where
  handed := s.handed
  replaced := s.replaced
  result :=
    if 0 < s.report.cleanupFailures then
      .error (.refused ("reconcile published manifest-aware views, but " ++
        toString s.report.cleanupFailures ++ " superseded object(s) could not be deleted; " ++
        "direct Parquet scans are unsafe until a rerun completes cleanup"))
    else .ok ()

/-- A pass that failed. -/
def Outcome.failed (e : ReconcileError) (s : Publishing) : Outcome :=
  ⟨s.handed, s.replaced, .error e⟩

/-- The log has been read to its end; the last hour is written. -/
def Publishing.close (replaceGroup : List Replacement → Except StoreError Nat)
    (coverage : RecoveryCoverage) (s : Publishing) : Outcome :=
  if s.hourRecords.isEmpty then s.finish
  else
    match s.write replaceGroup coverage with
    | .error (e, s) => .failed e s
    | .ok s => s.finish

section

variable [Crc32c] [Bincode]

/-- The first pass. -/
def validate (dir : Dir) : Except ReconcileError (Option RecoveryCoverage) :=
  match WalReader.foldStrict Survey.observe
      (fun _ e => .wal "WAL read error during reconcile" e) "reconcile-validate" dir .init with
  | .error e => .error e
  | .ok survey => survey.plan

/-- The second pass. -/
def publish (replaceGroup : List Replacement → Except StoreError Nat)
    (coverage : RecoveryCoverage) (dir : Dir) : Outcome :=
  match WalReader.foldStrict (Publishing.take replaceGroup coverage)
      (fun s e => (.wal "WAL read error during reconcile" e, s)) "reconcile-publish" dir
      .init with
  | .error (e, s) => .failed e s
  | .ok s => s.close replaceGroup coverage

/-- `run`, on the retained log and with what `replace_group` answers. -/
def run (replaceGroup : List Replacement → Except StoreError Nat) (dir : Dir) : Outcome :=
  match validate dir with
  | .error e => ⟨[], [], .error e⟩
  | .ok none => ⟨[], [], .ok ()⟩
  | .ok (some coverage) => publish replaceGroup coverage dir

end

/-! ## Histories and their spans -/

/-- The hour of a record. -/
def hourOf (record : PersistedRecord) : Nat := hourStart record.partitionTimestampUs

/-- Receive timestamps do not go backwards. -/
def Ordered (records : List PersistedRecord) : Prop :=
  records.Pairwise fun x y => x.partitionTimestampUs ≤ y.partitionTimestampUs

instance (records : List PersistedRecord) : Decidable (Ordered records) :=
  inferInstanceAs (Decidable (records.Pairwise _))

/-- The span of some records: from the first one to the last. -/
def Spans (records : List PersistedRecord) (coverage : RecoveryCoverage) : Prop :=
  records.head?.map (·.partitionTimestampUs) = some coverage.startUs ∧
    records.getLast?.map (·.partitionTimestampUs) = some coverage.endUs

/-- The record belongs to an hour that the span holds completely. -/
def complete (coverage : RecoveryCoverage) (record : PersistedRecord) : Bool :=
  coverage.containsCompleteHour record.partitionTimestampUs

/-- Whether an hour is wholly covered depends on the hour only. -/
theorem complete_congr {coverage : RecoveryCoverage} {x y : PersistedRecord}
    (h : hourOf x = hourOf y) : complete coverage x = complete coverage y :=
  RecoveryCoverage.containsCompleteHour_congr h

/-- **A complete hour has lost nothing**: what was pruned is not after the start of
the span, and what was lost is not before its end. -/
theorem Spans.filter_eq {before retained after : List PersistedRecord}
    {coverage : RecoveryCoverage} (h : Spans retained coverage)
    (hordered : Ordered (before ++ retained ++ after)) :
    (before ++ retained ++ after).filter (complete coverage) =
      retained.filter (complete coverage) := by
  obtain ⟨hfirst, hlast⟩ := h
  obtain ⟨first, hfirst, hstart⟩ := Option.map_eq_some_iff.mp hfirst
  obtain ⟨last, hlast, hend⟩ := Option.map_eq_some_iff.mp hlast
  obtain ⟨hkept, -, hlost⟩ := List.pairwise_append.mp hordered
  obtain ⟨-, -, hpruned⟩ := List.pairwise_append.mp hkept
  have hbefore : before.filter (complete coverage) = [] := by
    refine List.filter_eq_nil_iff.mpr fun x hx hcomplete => ?_
    have hle := hpruned x hx first (List.mem_of_mem_head? hfirst)
    have hwithin := (RecoveryCoverage.within_of_complete hcomplete).1
    have := hourStart_le x.partitionTimestampUs
    omega
  have hafter : after.filter (complete coverage) = [] := by
    refine List.filter_eq_nil_iff.mpr fun x hx hcomplete => ?_
    have hle := hlost last (List.mem_append_right _ (List.mem_of_getLast? hlast)) x hx
    have hwithin := (RecoveryCoverage.within_of_complete hcomplete).2
    have := lt_hourStart_add x.partitionTimestampUs
    omega
  rw [List.filter_append, List.filter_append, hbefore, hafter, List.nil_append, List.append_nil]

/-! ## The second pass, record by record -/

variable {coverage : RecoveryCoverage}

/-- What the second pass has done with the records it keeps. -/
inductive Collected (kept : List PersistedRecord) (s : Publishing) : Prop
  | idle (hcurrent : s.currentHour = none) (hrecords : s.hourRecords = []) (hhanded : s.handed = [])
      (hkept : kept = [])
  | collecting {hour : Nat} (hcurrent : s.currentHour = some hour)
      (hcut : Batches.Cut hourOf kept (s.handed ++ [s.hourRecords]))
      (hhour : ∀ x ∈ s.hourRecords, hourOf x = hour)

/-- A call of `write_batch_replacing` goes through or fails; it has been made. -/
theorem Publishing.write_cases (replaceGroup : List Replacement → Except StoreError Nat)
    (coverage : RecoveryCoverage) (s : Publishing) :
    (∃ s', s.write replaceGroup coverage = .ok s' ∧ s'.handed = s.handed ++ [s.hourRecords] ∧
        s'.hourRecords = []) ∨
      ∃ e s', s.write replaceGroup coverage = .error (.store writeFailed e, s') ∧
        s'.handed = s.handed ++ [s.hourRecords] := by
  unfold Publishing.write
  generalize RecoveryWriter.writeBatchReplacing replaceGroup s.hourRecords coverage s.replaced =
    answer
  obtain ⟨replaced, e | hourReport⟩ := answer
  · exact Or.inr ⟨e, _, rfl, rfl⟩
  · exact Or.inl ⟨_, rfl, rfl, rfl⟩

/-- What `replace_group` was given is the groups of the batches handed on, in order: all of
them, or the first ones where a write has failed. -/
structure Given (coverage : RecoveryCoverage) (handed : List (List PersistedRecord))
    (replaced : List Replacement) (failed : Prop) : Prop where
  inOrder : replaced <+: handed.flatMap (RecoveryWriter.replacementsOf coverage)
  whole : ¬failed → replaced = handed.flatMap (RecoveryWriter.replacementsOf coverage)

/-- The two outcomes of a step of the second pass. -/
def Publishing.StepGiven (coverage : RecoveryCoverage) :
    Except (ReconcileError × Publishing) Publishing → Prop
  | .ok s => Given coverage s.handed s.replaced False
  | .error (e, s) =>
      Given coverage s.handed s.replaced (∃ cause, e = .store Publishing.writeFailed cause)

/-- Writing the current hour hands on what was given. -/
theorem Given.write {s : Publishing} (h : Given coverage s.handed s.replaced False)
    (replaceGroup : List Replacement → Except StoreError Nat) :
    Publishing.StepGiven coverage (s.write replaceGroup coverage) := by
  have hbefore := h.whole not_false
  obtain ⟨given, hgiven, hreplaced, hall⟩ := RecoveryWriter.writeBatchReplacing_given
    coverage replaceGroup s.hourRecords s.replaced
  unfold Publishing.write
  generalize RecoveryWriter.writeBatchReplacing replaceGroup s.hourRecords coverage s.replaced =
    answer at hreplaced hall ⊢
  have hflat : (s.handed ++ [s.hourRecords]).flatMap (RecoveryWriter.replacementsOf coverage) =
      s.replaced ++ RecoveryWriter.replacementsOf coverage s.hourRecords := by
    rw [List.flatMap_append, List.flatMap_singleton, hbefore]
  obtain ⟨replaced, e | hourReport⟩ := answer
  · refine ⟨?_, fun hno => absurd ⟨e, rfl⟩ hno⟩
    dsimp only at hreplaced ⊢
    rw [hflat, hreplaced]
    exact (List.prefix_append_right_inj _).mpr hgiven
  · dsimp only at hreplaced
    have hsame : replaced =
        (s.handed ++ [s.hourRecords]).flatMap (RecoveryWriter.replacementsOf coverage) := by
      rw [hflat, hreplaced, hall hourReport rfl]
    exact ⟨hsame ▸ List.prefix_rfl, fun _ => hsame⟩

/-- A record that joins the hour being collected, or starts the next one. -/
theorem Collected.collect {kept : List PersistedRecord} {s : Publishing} (h : Collected kept s)
    {record : PersistedRecord}
    (hsame : ∀ hour ∈ s.currentHour, hour = hourOf record) :
    Collected (kept ++ [record]) (s.collect record) := by
  cases h with
  | idle hcurrent hrecords hhanded hkept =>
      refine .collecting rfl ?_ fun x hx => ?_
      · rw [hkept]
        change Batches.Cut hourOf _ (s.handed ++ [s.hourRecords ++ [record]])
        rw [hhanded, hrecords]
        exact Batches.Cut.nil.start fun _ hx => nomatch hx
      · change x ∈ s.hourRecords ++ [record] at hx
        rw [hrecords, List.nil_append, List.mem_singleton] at hx
        rw [hx]
        rfl
  | @collecting hour hcurrent hcut hhour =>
      have hrecord := hsame hour hcurrent
      refine .collecting rfl (hcut.extend fun x hx => ?_) fun x hx => ?_
      · rw [hhour x hx, hrecord]
      · obtain hx | hx := List.mem_append.mp hx
        · rw [hhour x hx, hrecord]
          rfl
        · rw [List.mem_singleton.mp hx]
          rfl

/-- A record of a later hour ends the hour being collected. -/
theorem Collected.turn {kept : List PersistedRecord} {s : Publishing} (h : Collected kept s)
    {record : PersistedRecord} (hle : ∀ x ∈ kept, hourOf x ≤ hourOf record) {hour : Nat}
    (hcurrent : s.currentHour = some hour) (hne : hour ≠ hourOf record) :
    Batches.Cut hourOf kept (s.handed ++ [s.hourRecords]) ∧
      ∀ x ∈ kept, hourOf x < hourOf record := by
  cases h with
  | idle hnone _ _ _ => cases hnone.symm.trans hcurrent
  | @collecting hour' hcurrent' hcut hhour =>
      obtain rfl := Option.some.inj (hcurrent'.symm.trans hcurrent)
      refine ⟨hcut, fun x hx => ?_⟩
      obtain ⟨y, hy⟩ := List.exists_mem_of_ne_nil _
        (hcut.nonempty s.hourRecords (List.mem_append_right _ List.mem_cons_self))
      have hlast := hcut.le_last hx hy
      have hkept : y ∈ kept :=
        hcut.mem_stream (List.mem_append_right _ List.mem_cons_self) hy
      have := hle y hkept
      have := hhour y hy
      omega

/-- Every batch is a whole hour of a stream, and every hour is one batch. -/
structure WholeHours (stream : List PersistedRecord) (handed : List (List PersistedRecord)) :
    Prop where
  whole : ∀ batch ∈ handed, ∃ x ∈ batch, batch = stream.filter fun y => hourOf y = hourOf x
  increasing : handed.Pairwise fun b b' => ∀ x ∈ b, ∀ y ∈ b', hourOf x < hourOf y

/-- The hours of records cut by their hours are whole. -/
theorem wholeHours_of_cut {kept rest : List PersistedRecord} {handed : List (List PersistedRecord)}
    (hcut : Batches.Cut hourOf kept handed)
    (hrest : ∀ x ∈ kept, ∀ y ∈ rest, hourOf x < hourOf y) : WholeHours (kept ++ rest) handed := by
  refine ⟨fun batch hbatch => ?_, hcut.increasing⟩
  obtain ⟨x, hx⟩ := List.exists_mem_of_ne_nil _ (hcut.nonempty batch hbatch)
  exact ⟨x, hx, hcut.eq_filter hrest hbatch hx⟩

/-- An hour is complete or not, so the other hours of a stream do not matter. -/
theorem filter_complete_hour {stream : List PersistedRecord} {x : PersistedRecord}
    (hx : complete coverage x = true) :
    (stream.filter (complete coverage)).filter (fun y => hourOf y = hourOf x) =
      stream.filter fun y => hourOf y = hourOf x := by
  rw [List.filter_filter]
  refine List.filter_congr fun y _ => ?_
  by_cases hhour : hourOf y = hourOf x
  · simp [hhour, complete_congr hhour, hx]
  · simp [hhour]

/-- What the second pass has handed on when it has read the log to its end. -/
theorem Collected.close (replaceGroup : List Replacement → Except StoreError Nat)
    {kept : List PersistedRecord} {s : Publishing}
    (h : Collected kept s) :
    WholeHours kept (s.close replaceGroup coverage).handed ∧
      ∀ x ∈ kept, ∃ batch ∈ (s.close replaceGroup coverage).handed, x ∈ batch := by
  suffices hcut : Batches.Cut hourOf kept (s.close replaceGroup coverage).handed by
    have hwhole : WholeHours (kept ++ []) _ := wholeHours_of_cut hcut fun _ _ _ hy => nomatch hy
    rw [List.append_nil] at hwhole
    refine ⟨hwhole, fun x hx => ?_⟩
    rw [← hcut.flatten] at hx
    exact List.mem_flatten.mp hx
  unfold Publishing.close
  cases h with
  | idle hcurrent hrecords hhanded hkept =>
      rw [hrecords, List.isEmpty_nil, if_pos rfl, hkept]
      change Batches.Cut hourOf [] s.handed
      rw [hhanded]
      exact .nil
  | collecting hcurrent hcut hhour =>
      have hne := hcut.nonempty s.hourRecords (List.mem_append_right _ List.mem_cons_self)
      rw [if_neg (by simpa using hne)]
      obtain ⟨s', hwrite, hhanded, -⟩ | ⟨e, s', hwrite, hhanded⟩ :=
        s.write_cases replaceGroup coverage
      · rw [hwrite]
        change Batches.Cut hourOf kept s'.handed
        rwa [hhanded]
      · rw [hwrite]
        change Batches.Cut hourOf kept s'.handed
        rwa [hhanded]

/-- The outcome of a reading to the end of the log. -/
theorem Given.close {s : Publishing} (h : Given coverage s.handed s.replaced False)
    (replaceGroup : List Replacement → Except StoreError Nat) :
    Given coverage (s.close replaceGroup coverage).handed (s.close replaceGroup coverage).replaced
      (∃ e, (s.close replaceGroup coverage).result = .error (.store Publishing.writeFailed e)) := by
  have hfinish : ∀ s : Publishing, Given coverage s.handed s.replaced False →
      Given coverage s.finish.handed s.finish.replaced
        (∃ e, s.finish.result = .error (.store Publishing.writeFailed e)) :=
    fun s h => ⟨h.inOrder, fun _ => h.whole not_false⟩
  unfold Publishing.close
  split
  · exact hfinish s h
  · have hwrite := h.write replaceGroup
    cases hresult : s.write replaceGroup coverage with
    | ok s' =>
        rw [hresult] at hwrite
        exact hfinish s' hwrite
    | error stopped =>
        rw [hresult] at hwrite
        refine ⟨hwrite.inOrder, fun hno => hwrite.whole fun ⟨cause, hcause⟩ => hno ⟨cause, ?_⟩⟩
        rw [← hcause]
        rfl

/-! ## The payloads of the log -/

section

variable [Bincode]

/-- The book, trade and ingest records among some payloads. -/
def supported (payloads : List Bytes) : List PersistedRecord :=
  (payloads.filterMap fun payload => (Codec.decode payload).toOption).filter
    (·.isReceiveTimePartitioned)

/-- The supported records of two lists of payloads. -/
theorem supported_append (xs ys : List Bytes) :
    supported (xs ++ ys) = supported xs ++ supported ys := by
  rw [supported, List.filterMap_append, List.filter_append]
  rfl

/-- A payload that decodes is supported if it is partitioned by receive time. -/
theorem supported_of_decode {payload : Bytes} {record : PersistedRecord}
    (hdecode : Codec.decode payload = .ok record) :
    supported [payload] = if record.isReceiveTimePartitioned then [record] else [] := by
  simp [supported, hdecode, Except.toOption, List.filter_singleton]

/-- Supported records are partitioned by receive time. -/
theorem partitioned_of_mem_supported {payloads : List Bytes} {record : PersistedRecord}
    (h : record ∈ supported payloads) : record.isReceiveTimePartitioned = true :=
  (List.mem_filter.mp h).2

/-- What the first pass knows. -/
structure Survey.Knows (payloads : List Bytes) (s : Survey) : Prop where
  decodable : ∀ payload ∈ payloads, ∃ record, Codec.decode payload = .ok record
  first : s.coverageStartUs = (supported payloads).head?.map (·.partitionTimestampUs)
  last : s.coverageEndUs = (supported payloads).getLast?.map (·.partitionTimestampUs)

/-- A payload that is observed is known. -/
theorem Survey.Knows.observe {payloads : List Bytes} {s s' : Survey} {payload : Bytes}
    (h : s.Knows payloads) (hstep : s.observe payload = .ok s') :
    s'.Knows (payloads ++ [payload]) := by
  unfold Survey.observe at hstep
  dsimp only at hstep
  split at hstep
  · cases hstep
  · rename_i record hdecode
    have hdecodable : ∀ p ∈ payloads ++ [payload], ∃ record, Codec.decode p = .ok record := by
      intro p hp
      obtain hp | hp := List.mem_append.mp hp
      · exact h.decodable p hp
      · rw [List.mem_singleton.mp hp]
        exact ⟨record, hdecode⟩
    have hsupported : supported (payloads ++ [payload]) = supported payloads ++
        if record.isReceiveTimePartitioned then [record] else [] := by
      rw [supported_append, supported_of_decode hdecode]
    split at hstep
    · rename_i hunpartitioned
      cases hstep
      rw [Bool.not_eq_true'] at hunpartitioned
      rw [hunpartitioned, if_neg (by simp), List.append_nil] at hsupported
      exact ⟨hdecodable, by rw [hsupported]; exact h.first, by rw [hsupported]; exact h.last⟩
    · rename_i hpartitioned
      rw [Bool.not_eq_true', Bool.not_eq_false] at hpartitioned
      rw [if_pos hpartitioned] at hsupported
      split at hstep
      · cases hstep
      · cases hstep
        have htimestamp := PersistedRecord.recvTimestampUs_of_partitioned hpartitioned
        refine ⟨hdecodable, ?_, ?_⟩
        · rw [hsupported, htimestamp]
          change some (s.coverageStartUs.getD _) = _
          rw [h.first]
          cases supported payloads with
          | nil => rfl
          | cons x xs => rfl
        · rw [hsupported, htimestamp, List.getLast?_concat]
          rfl

/-- The survey knows the payloads it has observed. -/
theorem Survey.knows_of_fold {payloads : List Bytes} {s : Survey}
    (h : payloads.foldlM Survey.observe .init = .ok s) : s.Knows payloads :=
  Folds.foldlM_rule (fun done s => Survey.Knows done s)
    (fun _ _ _ _ hinv hstep => hinv.observe hstep) ⟨(fun _ hp => nomatch hp), rfl, rfl⟩ h

/-- The coverage of the plan spans the supported records. -/
theorem Survey.Knows.spans {payloads : List Bytes} {s : Survey} (h : s.Knows payloads)
    (hplan : s.plan = .ok (some coverage)) : Spans (supported payloads) coverage := by
  unfold Survey.plan at hplan
  split at hplan
  · cases hplan
  · split at hplan
    · cases hplan
    · rename_i startUs hstart
      split at hplan
      · cases hplan
      · rename_i coverage' hcoverage
        split at hplan
        · cases hplan
        · split at hplan
          · cases hplan
          · cases hplan
            obtain ⟨hfirst, hlast⟩ := RecoveryCoverage.new_eq_ok hcoverage
            refine ⟨?_, ?_⟩
            · rw [← h.first, hstart, hfirst]
            · rw [hlast, h.last]
              -- the span has a start, so there is a record
              rw [h.first] at hstart
              obtain ⟨first, hhead, -⟩ := Option.map_eq_some_iff.mp hstart
              cases hsupported : supported payloads with
              | nil => rw [hsupported] at hhead; cases hhead
              | cons x xs => rw [List.getLast?_cons]; rfl

variable (replaceGroup : List Replacement → Except StoreError Nat)

/-- Taking a payload hands on what was given. -/
theorem Given.take {s : Publishing} (h : Given coverage s.handed s.replaced False)
    (payload : Bytes) :
    Publishing.StepGiven coverage (s.take replaceGroup coverage payload) := by
  unfold Publishing.take
  split
  · exact ⟨h.inOrder, fun _ => h.whole not_false⟩
  · split
    · exact h
    · split
      · have hwrite := h.write replaceGroup
        split
        · rename_i hresult
          rw [hresult] at hwrite
          exact hwrite
        · rename_i hresult
          rw [hresult] at hwrite
          exact hwrite
      · exact h

/-- What the second pass does with a payload of an ordered log. -/
theorem Collected.take {payloads : List Bytes} {s : Publishing} {payload : Bytes}
    {record : PersistedRecord} (hdecode : Codec.decode payload = .ok record)
    (hordered : Ordered (supported (payloads ++ [payload])))
    (h : Collected ((supported payloads).filter (complete coverage)) s) :
    (∃ s', s.take replaceGroup coverage payload = .ok s' ∧
        Collected ((supported (payloads ++ [payload])).filter (complete coverage)) s') ∨
      ∃ e s', s.take replaceGroup coverage payload = .error (.store Publishing.writeFailed e, s') ∧
        record.isReceiveTimePartitioned = true ∧
        Batches.Cut hourOf ((supported payloads).filter (complete coverage)) s'.handed ∧
        ∀ x ∈ (supported payloads).filter (complete coverage), hourOf x < hourOf record := by
  rw [supported_append, supported_of_decode hdecode] at hordered ⊢
  unfold Publishing.take
  simp only [hdecode]
  split
  · rename_i hskip
    refine Or.inl ⟨s, rfl, ?_⟩
    have hnone : (if record.isReceiveTimePartitioned then [record] else []).filter
        (complete coverage) = [] := by
      split
      · rename_i hpartitioned
        rw [hpartitioned] at hskip
        simpa [complete] using hskip
      · rfl
    rwa [List.filter_append, hnone, List.append_nil]
  · rename_i hkeep
    have hboth : record.isReceiveTimePartitioned = true ∧ complete coverage record = true := by
      simpa [complete] using hkeep
    obtain ⟨hpartitioned, hcomplete⟩ := hboth
    rw [if_pos hpartitioned] at hordered ⊢
    have hle : ∀ x ∈ (supported payloads).filter (complete coverage), hourOf x ≤ hourOf record := by
      intro x hx
      exact hourStart_mono ((List.pairwise_append.mp hordered).2.2 x (List.mem_filter.mp hx).1
        record List.mem_cons_self)
    rw [List.filter_append, List.filter_singleton, hcomplete, cond_true]
    cases hturn : s.turns (hourStart record.partitionTimestampUs) with
    | false =>
        rw [if_neg Bool.false_ne_true]
        exact Or.inl ⟨_, rfl, h.collect (s.turns_eq_false.mp hturn)⟩
    | true =>
        obtain ⟨hour, hcurrent, hne⟩ := s.turns_eq_true.mp hturn
        obtain ⟨hcut, hlt⟩ := h.turn hle hcurrent hne
        rw [if_pos rfl]
        obtain ⟨s', hwrite, hhanded, hrecords⟩ | ⟨e, s', hwrite, hhanded⟩ :=
          s.write_cases replaceGroup coverage
        · simp only [hwrite]
          refine Or.inl ⟨_, rfl, .collecting rfl ?_ fun x hx => ?_⟩
          · change Batches.Cut hourOf _ (s'.handed ++ [s'.hourRecords ++ [record]])
            rw [hrecords, hhanded]
            exact hcut.start hlt
          · change x ∈ s'.hourRecords ++ [record] at hx
            rw [hrecords, List.nil_append, List.mem_singleton] at hx
            rw [hx]
            rfl
        · simp only [hwrite]
          exact Or.inr ⟨e, s', rfl, hpartitioned, by rwa [hhanded], hlt⟩

/-- What the second pass has collected from a part of an ordered log. -/
theorem Collected.run {payloads : List Bytes} {s : Publishing}
    (hdecodable : ∀ payload ∈ payloads, ∃ record, Codec.decode payload = .ok record)
    (hordered : Ordered (supported payloads))
    (h : payloads.foldlM (Publishing.take replaceGroup coverage) .init = .ok s) :
    Collected ((supported payloads).filter (complete coverage)) s := by
  refine Folds.foldlM_rule
    (fun done s => (∀ payload ∈ done, ∃ record, Codec.decode payload = .ok record) →
      Ordered (supported done) → Collected ((supported done).filter (complete coverage)) s)
    (fun done s payload s' hinv hstep hdecodable hordered => ?_)
    (fun _ _ => .idle rfl rfl rfl rfl) h hdecodable hordered
  obtain ⟨record, hdecode⟩ := hdecodable payload (List.mem_append_right _ List.mem_cons_self)
  have hbefore : Ordered (supported done) := by
    rw [supported_append] at hordered
    exact (List.pairwise_append.mp hordered).1
  have hcollected := hinv (fun p hp => hdecodable p (List.mem_append_left _ hp)) hbefore
  obtain ⟨s₁, htake, hnext⟩ | ⟨e, s₁, htake, -⟩ :=
    hcollected.take replaceGroup hdecode hordered
  · rw [htake] at hstep
    cases hstep
    exact hnext
  · rw [htake] at hstep
    cases hstep

/-- What the second pass has handed on when a call of `write_batch_replacing` has
failed before the end of the log. -/
theorem wholeHours_of_stopped {done rest : List Bytes} {payload : Bytes}
    {stopped : ReconcileError × Publishing} {s : Publishing}
    (hdecodable : ∀ p ∈ done ++ payload :: rest, ∃ record, Codec.decode p = .ok record)
    (hordered : Ordered (supported (done ++ payload :: rest)))
    (hdone : done.foldlM (Publishing.take replaceGroup coverage) .init = .ok s)
    (hstop : s.take replaceGroup coverage payload = .error stopped) :
    WholeHours ((supported (done ++ payload :: rest)).filter (complete coverage))
        stopped.2.handed ∧
      ∃ e, stopped.1 = .store Publishing.writeFailed e := by
  obtain ⟨record, hdecode⟩ := hdecodable payload (by simp)
  have hsplit : supported (done ++ payload :: rest) =
      supported (done ++ [payload]) ++ supported rest := by
    rw [← supported_append, List.append_assoc, List.singleton_append]
  rw [hsplit] at hordered
  obtain ⟨hfront, -, hlater⟩ := List.pairwise_append.mp hordered
  have hbefore : Ordered (supported done) := by
    rw [supported_append] at hfront
    exact (List.pairwise_append.mp hfront).1
  have hcollected := Collected.run replaceGroup
    (fun p hp => hdecodable p (List.mem_append_left _ hp)) hbefore hdone
  obtain ⟨s₁, htake, -⟩ | ⟨e, s₁, htake, hpartitioned, hcut, hlt⟩ :=
    hcollected.take replaceGroup hdecode hfront
  · rw [htake] at hstop
    cases hstop
  · rw [htake] at hstop
    cases hstop
    refine ⟨?_, e, rfl⟩
    have hnext : supported [payload] = [record] := by
      rw [supported_of_decode hdecode, if_pos hpartitioned]
    rw [hsplit, supported_append, hnext, List.append_assoc, List.filter_append]
    refine wholeHours_of_cut hcut fun x hx y hy => ?_
    obtain hy | hy := List.mem_append.mp (List.mem_filter.mp hy).1
    · rw [List.mem_singleton.mp hy]
      exact hlt x hx
    · refine Nat.lt_of_lt_of_le (hlt x hx) (hourStart_mono (hlater record ?_ y hy))
      rw [supported_append, hnext]
      exact List.mem_append_right _ List.mem_cons_self

variable [Crc32c]

/-- What the first pass has found when it lets the second one start. -/
theorem validate_spec {dir : Dir} (h : validate dir = .ok (some coverage)) :
    dir.Clean ∧ (∀ payload ∈ dir.payloads, ∃ record, Codec.decode payload = .ok record) ∧
      Spans (supported dir.payloads) coverage := by
  unfold validate at h
  split at h
  · cases h
  · rename_i survey hsurvey
    obtain ⟨hfold, hclean⟩ := WalReader.foldStrict_spec Survey.observe
      (fun _ e => .wal "WAL read error during reconcile" e) "reconcile-validate" dir .init
    have hknows : survey.Knows dir.payloads :=
      Survey.knows_of_fold ((hfold (hclean _ hsurvey)).symm.trans hsurvey)
    exact ⟨hclean _ hsurvey, hknows.decodable, hknows.spans h⟩

/-- **The second pass** hands on whole hours, one after the other, and all of them
unless a call of `write_batch_replacing` fails. -/
theorem publish_spec (coverage : RecoveryCoverage) {dir : Dir} (hclean : dir.Clean)
    (hdecodable : ∀ payload ∈ dir.payloads, ∃ record, Codec.decode payload = .ok record)
    (hordered : Ordered (supported dir.payloads)) :
    WholeHours ((supported dir.payloads).filter (complete coverage))
        (publish replaceGroup coverage dir).handed ∧
      ((∃ e, (publish replaceGroup coverage dir).result =
          .error (.store Publishing.writeFailed e)) ∨
        ∀ x ∈ (supported dir.payloads).filter (complete coverage),
          ∃ batch ∈ (publish replaceGroup coverage dir).handed, x ∈ batch) := by
  have hfold := (WalReader.foldStrict_spec (Publishing.take replaceGroup coverage)
    (fun s e => (.wal "WAL read error during reconcile" e, s)) "reconcile-publish" dir .init).1
    hclean
  unfold publish
  rw [hfold]
  cases hresult : dir.payloads.foldlM (Publishing.take replaceGroup coverage) .init with
  | error stopped =>
      obtain ⟨done, payload, rest, s, hpayloads, hdone, hstop⟩ := Folds.foldlM_stopped hresult
      rw [hpayloads] at hdecodable hordered ⊢
      obtain ⟨hwhole, e, he⟩ :=
        wholeHours_of_stopped replaceGroup hdecodable hordered hdone hstop
      exact ⟨hwhole, Or.inl ⟨e, congrArg Except.error he⟩⟩
  | ok s =>
      obtain ⟨hwhole, hall⟩ :=
        (Collected.run replaceGroup hdecodable hordered hresult).close replaceGroup
      exact ⟨hwhole, Or.inr hall⟩

/-- **What `replace_group` is given** in the second pass. -/
theorem publish_given (coverage : RecoveryCoverage) {dir : Dir} (hclean : dir.Clean) :
    Given coverage (publish replaceGroup coverage dir).handed
      (publish replaceGroup coverage dir).replaced
      (∃ e, (publish replaceGroup coverage dir).result =
        .error (.store Publishing.writeFailed e)) := by
  have hinit : Given coverage Publishing.init.handed Publishing.init.replaced False :=
    ⟨List.prefix_rfl, fun _ => rfl⟩
  have hrun : ∀ {payloads : List Bytes} {s : Publishing},
      payloads.foldlM (Publishing.take replaceGroup coverage) .init = .ok s →
        Given coverage s.handed s.replaced False := by
    intro payloads s hfold
    refine Folds.foldlM_rule (fun _ s => Given coverage s.handed s.replaced False) ?_ hinit hfold
    intro done s payload s' hbefore hstep
    have hafter := hbefore.take replaceGroup payload
    rw [hstep] at hafter
    exact hafter
  have hfold := (WalReader.foldStrict_spec (Publishing.take replaceGroup coverage)
    (fun s e => (.wal "WAL read error during reconcile" e, s)) "reconcile-publish" dir .init).1
    hclean
  unfold publish
  rw [hfold]
  cases hresult : dir.payloads.foldlM (Publishing.take replaceGroup coverage) .init with
  | error stopped =>
      obtain ⟨done, payload, rest, s, -, hdone, hstop⟩ := Folds.foldlM_stopped hresult
      have hstopped := (hrun hdone).take replaceGroup payload
      rw [hstop] at hstopped
      refine ⟨hstopped.inOrder, fun hno => hstopped.whole fun ⟨cause, hcause⟩ => hno ⟨cause, ?_⟩⟩
      rw [← hcause]
      rfl
  | ok s => exact (hrun hresult).close replaceGroup

/-- **Complete hours are published completely.**  A log whose receive timestamps do
not go backwards has lost a prefix to pruning and a suffix to a crash.

No record of an hour that the span of what is left holds completely is lost.  When
the first pass lets the second one start, it has found this span, and every batch
handed to `write_batch_replacing` is one complete hour of the whole history, which
accepts it; each hour is handed on once, and all of them are, unless a write fails; and
`replace_group` is given the groups of these batches, in order.  Otherwise nothing is handed
on. -/
theorem reconcile_publishes_complete_hours (dir : Dir) (pruned lost : List Bytes)
    (hordered : Ordered (supported (pruned ++ dir.payloads ++ lost))) :
    let history := supported (pruned ++ dir.payloads ++ lost)
    let outcome := run replaceGroup dir
    (∀ coverage, Spans (supported dir.payloads) coverage →
      history.filter (complete coverage) =
        (supported dir.payloads).filter (complete coverage)) ∧
    (∀ coverage, validate dir = .ok (some coverage) →
      Spans (supported dir.payloads) coverage ∧
      (∀ batch ∈ outcome.handed, ∃ x ∈ batch, complete coverage x = true ∧
        batch = history.filter (fun y => hourOf y = hourOf x) ∧
        ∃ groups, RecoveryWriter.groupRecords coverage batch [] = .ok groups ∧
          (groups.flatMap Prod.snd).Perm batch) ∧
      outcome.handed.Pairwise (fun b b' => ∀ x ∈ b, ∀ y ∈ b', hourOf x < hourOf y) ∧
      ((∃ e, outcome.result = .error (.store Publishing.writeFailed e)) ∨
        ∀ x ∈ history, complete coverage x = true → ∃ batch ∈ outcome.handed, x ∈ batch) ∧
      Given coverage outcome.handed outcome.replaced
        (∃ e, outcome.result = .error (.store Publishing.writeFailed e))) ∧
    ((∀ coverage, validate dir ≠ .ok (some coverage)) →
      outcome.handed = [] ∧ outcome.replaced = []) := by
  intro history outcome
  have hhistory : history =
      supported pruned ++ supported dir.payloads ++ supported lost := by
    rw [← supported_append, ← supported_append]
  have hkept : ∀ coverage, Spans (supported dir.payloads) coverage →
      history.filter (complete coverage) =
        (supported dir.payloads).filter (complete coverage) := by
    intro coverage hspans
    rw [hhistory]
    rw [supported_append, supported_append] at hordered
    exact hspans.filter_eq hordered
  refine ⟨hkept, fun coverage hvalidate => ?_, fun hnone => ?_⟩
  · obtain ⟨hclean, hdecodable, hspans⟩ := validate_spec hvalidate
    have hretained : Ordered (supported dir.payloads) := by
      rw [supported_append, supported_append] at hordered
      exact (List.pairwise_append.mp (List.pairwise_append.mp hordered).1).2.1
    have houtcome : outcome = publish replaceGroup coverage dir := by
      change run replaceGroup dir = _
      unfold run
      rw [hvalidate]
    obtain ⟨hwhole, hall⟩ :=
      publish_spec replaceGroup coverage hclean hdecodable hretained
    rw [← houtcome, ← hkept coverage hspans] at hwhole hall
    refine ⟨hspans, fun batch hbatch => ?_, hwhole.increasing,
      hall.imp_right fun hall x hx hc => ?_, houtcome ▸ publish_given replaceGroup coverage hclean⟩
    · obtain ⟨x, hx, hbatch⟩ := hwhole.whole batch hbatch
      have hmem : ∀ y ∈ batch, y ∈ history ∧ complete coverage y = true := by
        intro y hy
        rw [hbatch] at hy
        exact List.mem_filter.mp (List.mem_filter.mp hy).1
      have hcomplete := (hmem x hx).2
      rw [filter_complete_hour hcomplete] at hbatch
      refine ⟨x, hx, hcomplete, hbatch, ?_⟩
      refine RecoveryWriter.groupRecords_of_replaceable (fun y hy => ?_) []
      obtain ⟨hy, hc⟩ := hmem y hy
      exact Bool.and_eq_true_iff.mpr ⟨partitioned_of_mem_supported hy, hc⟩
    · exact hall x (List.mem_filter.mpr ⟨hx, hc⟩)
  · change (run replaceGroup dir).handed = [] ∧ (run replaceGroup dir).replaced = []
    unfold run
    split
    · exact ⟨rfl, rfl⟩
    · exact ⟨rfl, rfl⟩
    · rename_i coverage hvalidate
      exact absurd hvalidate (hnone coverage)

end

/-! Three hours of a log, for a run on fixed inputs. -/
namespace ThreeHours

open PolyBook.Sample

/-- A bid received some minutes after an hour began. -/
def bid (minute : Nat) : PersistedRecord :=
  .book (level .delta "7" .bid 40 10 (1699999200000000 + minute * 60000000) "0x61")

/-- The minutes of the records: pruned, retained and lost. -/
def minutes : List Nat := [50, 55, 61, 119, 120, 125]

/-- `bincode` on these records. -/
@[reducible] def bincode : Bincode where
  serialize := Wal.Sample.bincode.serialize
  deserialize data :=
    match (minutes.map bid).find? fun record =>
        match Wal.Sample.bincode.serialize record with
        | .ok body => body == data
        | .error _ => false with
    | some record => .ok record
    | none => .error "another record"

/-- The payload of a sample record. -/
def payload (minute : Nat) : Bytes :=
  match @Codec.encode bincode (bid minute) with
  | .ok payload => payload
  | .error _ => []

/-- The retained log. -/
def log : Dir :=
  let (w, dir) := WalWriter.openDir ⟨4096, 64, 1048576⟩ ∅
  let (w, dir, _) := w.append (payload 55) dir
  let (w, dir, _) := w.append (payload 61) dir
  let (w, dir, _) := w.append (payload 119) dir
  let (w, dir, _) := w.append (payload 120) dir
  (w.flush dir).2

/-- Its span. -/
def span : RecoveryCoverage where
  startUs := 1700002500000000
  endUs := 1700006400000000
  increasing := by decide
  inRange := by decide

set_option maxRecDepth 4000 in
/-- What the strict reader returns of it. -/
theorem payloads_log : log.payloads = [payload 55, payload 61, payload 119, payload 120] := by
  have hfile : ∃ file, log[0]? = some file := Dir.getElem?_of_mem_keys (by decide +kernel)
  obtain ⟨file, hfile⟩ := hfile
  exact WalReader.payloads_of_scanStrict "reconcile-validate" hfile (by decide +kernel)

end ThreeHours

open ThreeHours in
set_option maxRecDepth 4000 in
/-- The middle hour is complete, and both its records are retained and handed on. -/
theorem reconcile_publishes_middle_hour :
    (@supported bincode ([payload 50] ++ log.payloads ++ [payload 125])).filter (complete span) =
        [bid 61, bid 119] ∧
      (@run castagnoli bincode (fun _ => .ok 0) log).handed = [[bid 61, bid 119]] := by
  have hordered : Ordered (@supported bincode ([payload 50] ++ log.payloads ++ [payload 125])) := by
    rw [payloads_log]
    decide +kernel
  have hspans : Spans (@supported bincode log.payloads) span := by
    rw [payloads_log]
    exact ⟨by decide +kernel, by decide +kernel⟩
  refine ⟨?_, by decide +kernel⟩
  rw [(@reconcile_publishes_complete_hours bincode (fun _ => .ok 0) castagnoli log [payload 50]
    [payload 125] hordered).1 span hspans, payloads_log]
  decide +kernel

end Reconcile

end PolyBook
