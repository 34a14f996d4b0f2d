import PolyBook.ReplayValidation

/-!
# False alarms of a replay validation

A validation compares what was received by the reference's time with what the
venue dates up to it.  A change the venue dates before the reference and the
recorder receives after it is in the reference only.

`Timely` says of the times alone when this does not happen; only then is every
verdict a match (`noFalseAlarm_iff`).
-/

namespace PolyBook

open Overwrite Ingest

/-- The last book message of some changes, and what stands around it. -/
structure LastBook {a : AssetId} (changes before : List (VenueChange a)) (s : VenueChange a)
    (after : List (VenueChange a)) : Prop where
  split : changes = before ++ s :: after
  kind : s.kind = .snapshot
  deltas : ∀ m ∈ after, m.kind = .delta

namespace VenueFeed

variable {a : AssetId} (feed : VenueFeed a)

/-- What the venue dates up to the target has been received by then. -/
def InTime (target : Nat) : Prop := ∀ m ∈ feed.changes, m.exchangeTs ≤ target → m.recvTs ≤ target

/-- What the loop takes after a checkpoint of the given times. -/
def taken (seed : CheckpointTimes) (target : Nat) (mode : ReplayMode) : List (VenueChange a) :=
  (feed.receivedBy target).filter fun m => seed.orderingTs mode < m.orderingTs mode

end VenueFeed

/-- A validation that starts from the last book message: all is received in time,
and no other book message has its time. -/
def TimelySnapshot {a : AssetId} (feed : VenueFeed a) (start target : Nat) (mode : ReplayMode) :
    Prop :=
  ∀ before s after, LastSnapshot feed start target before s after →
    feed.InTime target ∧ ∀ m ∈ before, m.snapshotAt mode (s.orderingTs mode) = false

/-- A validation that starts from a checkpoint.  Where a book message follows it,
all is received in time and that message stands alone at its time.  Else what the
venue dates after the checkpoint is received in time and past it in the active
clock, and if something older is past it too, all that is older is received. -/
def TimelySeed {a : AssetId} (feed : VenueFeed a) (seed : CheckpointTimes) (target : Nat)
    (mode : ReplayMode) : Prop :=
  (∀ before s after, LastBook (feed.taken seed target mode) before s after →
    feed.InTime target ∧ ∀ m ∈ before.getLast?, m.snapshotAt mode (s.orderingTs mode) = false) ∧
  ((∀ m ∈ feed.taken seed target mode, m.kind = .delta) →
    (∀ m ∈ feed.changes, seed.exchange < m.exchangeTs → m.exchangeTs ≤ target →
      m.recvTs ≤ target ∧ seed.orderingTs mode < m.orderingTs mode) ∧
    ((∃ m ∈ feed.taken seed target mode, m.exchangeTs ≤ seed.exchange) →
      ∀ m ∈ feed.changes, m.exchangeTs ≤ seed.exchange → m.recvTs ≤ target))

/-- The times at which a validation cannot go wrong. -/
def Timely {a : AssetId} (feed : VenueFeed a) (times : ValidationTimes) (mode : ReplayMode) :
    Prop :=
  match times.seed with
  | none => TimelySnapshot feed times.start times.target mode
  | some seed => TimelySeed feed seed times.target mode

/-- Every validation of a feed with these times is a match, whatever its changes
are and however it is stored, where its reads are not too large. -/
def NoFalseAlarm {a : AssetId} (feed : VenueFeed a) (times : ValidationTimes)
    (mode : ReplayMode) : Prop :=
  ∀ feed' : VenueFeed a, feed'.timing = feed.timing → ∀ c, feed'.Within c →
    ∀ records reference seed, ValidationInput c feed' times records reference seed →
    ValidationReads a times records →
    (times.seed = none → ∃ m ∈ feed'.seen times.start times.target, m.kind = .snapshot) →
    ∀ persistedAtUs, ∃ v,
      replayValidation times.lookbackUs a times.replayUs mode persistedAtUs records =
        .ok (some v) ∧ v.matched = true

section Feed

variable {a : AssetId} {feed : VenueFeed a} {seed : CheckpointTimes} {target : Nat}
  {mode : ReplayMode}

theorem VenueFeed.mem_taken {m : VenueChange a} : m ∈ feed.taken seed target mode ↔
    m ∈ feed.changes ∧ m.recvTs ≤ target ∧ seed.orderingTs mode < m.orderingTs mode := by
  rw [taken, List.mem_filter, mem_receivedBy, decide_eq_true_eq, and_assoc]

/-- What has been received by the target is dated before it. -/
theorem VenueFeed.receivedBy_eq (feed : VenueFeed a) (target : Nat) :
    feed.receivedBy target = (feed.madeBy target).filter fun m => m.recvTs ≤ target := by
  rw [receivedBy, madeBy, List.filter_filter]
  refine List.filter_congr fun m hm => ?_
  have hlate := feed.late m hm
  by_cases hrecv : m.recvTs ≤ target
  · have hdated : m.exchangeTs ≤ target := by omega
    simp [hrecv, hdated]
  · simp [hrecv]

/-- What the venue has made, in the order of its dates: what has been received,
then what has not. -/
theorem VenueFeed.madeBy_eq (feed : VenueFeed a) (target : Nat) :
    feed.madeBy target =
      feed.receivedBy target ++ (feed.madeBy target).filter fun m => target < m.recvTs := by
  rw [feed.receivedBy_eq]
  exact (Sorting.filter_le_append_filter_lt target
    (feed.received.sublist List.filter_sublist)).symm

/-- What a checkpoint holds, then what it does not. -/
theorem VenueFeed.madeBy_split (feed : VenueFeed a) {exchange : Nat} (h : exchange ≤ target) :
    feed.madeBy target =
      feed.madeBy exchange ++ (feed.madeBy target).filter fun m => exchange < m.exchangeTs := by
  have hheld : (feed.madeBy target).filter (fun m => m.exchangeTs ≤ exchange) =
      feed.madeBy exchange := by
    rw [madeBy, madeBy, List.filter_filter]
    refine List.filter_congr fun m _ => ?_
    by_cases hle : m.exchangeTs ≤ exchange
    · have hdated : m.exchangeTs ≤ target := by omega
      simp [hle, hdated]
    · simp [hle]
  rw [← hheld]
  exact (Sorting.filter_le_append_filter_lt exchange
    (feed.dated.sublist List.filter_sublist)).symm

theorem VenueFeed.InTime.madeBy_eq (h : feed.InTime target) :
    feed.madeBy target = feed.receivedBy target := by
  rw [feed.receivedBy_eq, List.filter_eq_self.mpr]
  intro m hm
  obtain ⟨hmem, hle⟩ := VenueFeed.mem_madeBy.mp hm
  exact decide_eq_true (h m hmem hle)

/-- What the loop takes ends what has been received. -/
theorem VenueFeed.receivedBy_split (feed : VenueFeed a) (seed : CheckpointTimes) (target : Nat)
    (mode : ReplayMode) : ∃ earlier,
      feed.receivedBy target = earlier ++ feed.taken seed target mode :=
  ⟨_, (Sorting.filter_le_append_filter_lt (seed.orderingTs mode)
    ((feed.ordering_pairwise mode).sublist List.filter_sublist)).symm⟩

/-- Where not all are level changes there is a last book message. -/
theorem LastBook.exists {changes : List (VenueChange a)} (h : ¬ ∀ m ∈ changes, m.kind = .delta) :
    ∃ before s after, LastBook changes before s after := by
  push Not at h
  obtain ⟨before, s, after, hsplit, hs, hafter⟩ := exists_last h
  refine ⟨before, s, after, hsplit, ?_, fun m hm => not_not.mp (hafter m hm)⟩
  cases hk : s.kind with
  | snapshot => rfl
  | delta => exact absurd hk hs

/-- A run of what satisfies `p` ends every list. -/
theorem exists_endRun {α : Type} (p : α → Bool) (xs : List α) :
    ∃ front run, xs = front ++ run ∧ (∀ x ∈ run, p x = true) ∧
      ∀ x ∈ front.getLast?, p x = false := by
  induction xs using List.reverseRecOn with
  | nil => exact ⟨[], [], rfl, List.forall_mem_nil _, fun x hx => (nomatch hx)⟩
  | append_singleton xs x ih =>
      cases hx : p x with
      | true =>
          obtain ⟨front, run, rfl, hrun, hfront⟩ := ih
          refine ⟨front, run ++ [x], by simp, ?_, hfront⟩
          intro y hy
          rcases List.mem_append.mp hy with hy | hy
          · exact hrun y hy
          · rw [List.mem_singleton.mp hy]
            exact hx
      | false =>
          refine ⟨xs ++ [x], [], by simp, List.forall_mem_nil _, fun y hy => ?_⟩
          rw [List.getLast?_concat, Option.mem_some_iff] at hy
          rw [← hy]
          exact hx

end Feed

/-! ## What a validation rebuilds -/

section Rebuilt

variable {a : AssetId} {feed : VenueFeed a} {c : Capacity} {records : List PersistedRecord}
  {seed : CheckpointTimes} {checkpoint : BookCheckpoint} {start target : Nat} {mode : ReplayMode}

theorem Captured.taken_eq (hcaptured : Captured c feed seed checkpoint) (target : Nat)
    (mode : ReplayMode) :
    (feed.seen seed.exchange target).filter
        (fun m => checkpointOrderingTs checkpoint mode < m.orderingTs mode) =
      feed.taken seed target mode := by
  have htime : checkpointOrderingTs checkpoint mode = seed.orderingTs mode :=
    hcaptured.orderingTs mode
  rw [htime]
  exact feed.seen_filter_eq

/-- From a checkpoint that book messages follow: the last run of one time decides. -/
theorem Stored.rebuilt_books (h : Stored feed records) (hwithin : feed.Within c)
    (hcaptured : Captured c feed seed checkpoint) {front run after : List (VenueChange a)}
    {s : VenueChange a}
    (hlast : LastBook (feed.taken seed target mode) (front ++ run) s after)
    (hrun : ∀ m ∈ run, m.snapshotAt mode (s.orderingTs mode) = true)
    (hfront : ∀ m ∈ front.getLast?, m.snapshotAt mode (s.orderingTs mode) = false) :
    ∃ r, reconstructBook a target mode (some checkpoint)
        (marketDataWindow a seed.exchange target records) = .ok r ∧
      r.book.content = writes (groupContent (run ++ [s])) (after.map VenueChange.write) := by
  have hs : s.snapshotAt mode (s.orderingTs mode) = true := by
    simp [VenueChange.snapshotAt, hlast.kind]
  have hrest : (feed.seen seed.exchange target).filter
      (fun m => checkpointOrderingTs checkpoint mode < m.orderingTs mode) =
        front ++ ((run ++ [s]) ++ after) := by
    rw [hcaptured.taken_eq, hlast.split]
    simp
  refine h.rebuilt_run hwithin hcaptured.listed (s.orderingTs mode) hrest (by simp) ?_ hfront
    hlast.deltas
  intro m hm
  rcases List.mem_append.mp hm with hm | hm
  · exact hrun m hm
  · rw [List.mem_singleton.mp hm]
    exact hs

/-- From a checkpoint that no book message follows. -/
theorem Stored.rebuilt_taken (h : Stored feed records) (hwithin : feed.Within c)
    (hcaptured : Captured c feed seed checkpoint)
    (hdeltas : ∀ m ∈ feed.taken seed target mode, m.kind = .delta) :
    ∃ r, reconstructBook a target mode (some checkpoint)
        (marketDataWindow a seed.exchange target records) = .ok r ∧
      r.book.content = writes
        (writes (fun _ => none) ((feed.madeBy seed.exchange).map VenueChange.write))
        ((feed.taken seed target mode).map VenueChange.write) := by
  have hheld := feed.contentAfter_version seed.exchange
  rw [VenueFeed.madeBy, ← hheld]
  exact h.rebuilt_checkpoint hwithin hcaptured.listed (hcaptured.taken_eq target mode) hdeltas

end Rebuilt

/-! ## Timely validations -/

section Timely

variable {a : AssetId} {feed : VenueFeed a} {c : Capacity} {records : List PersistedRecord}
  {seed : CheckpointTimes} {checkpoint : BookCheckpoint} {start target : Nat} {mode : ReplayMode}

/-- **From a book message** in time the venue's book is rebuilt. -/
theorem TimelySnapshot.rebuilt (htimely : TimelySnapshot feed start target mode)
    (h : Stored feed records) (hwithin : feed.Within c)
    (hsnapshot : ∃ m ∈ feed.seen start target, m.kind = .snapshot) :
    ∃ r, reconstructBook a target mode none (marketDataWindow a start target records) = .ok r ∧
      r.book.content = writes (fun _ => none) ((feed.madeBy target).map VenueChange.write) := by
  obtain ⟨before, s, after, hlast⟩ := LastSnapshot.exists hsnapshot
  obtain ⟨hintime, halone⟩ := htimely before s after hlast
  obtain ⟨r, hr, hcontent⟩ := hlast.rebuilt h hwithin mode
  have hnone : before.filter (·.snapshotAt mode (s.orderingTs mode)) = [] :=
    List.filter_eq_nil_iff.mpr fun m hm => by simp [halone m hm]
  refine ⟨r, hr, ?_⟩
  rw [hcontent, hnone, hintime.madeBy_eq, hlast.writes_receivedBy]
  rfl

/-- What a checkpoint holds and what the loop takes make up the venue's book. -/
theorem TimelySeed.writes_eq (htimely : TimelySeed feed seed target mode)
    (hdeltas : ∀ m ∈ feed.taken seed target mode, m.kind = .delta)
    (hle : seed.exchange ≤ target) :
    writes (writes (fun _ => none) ((feed.madeBy seed.exchange).map VenueChange.write))
        ((feed.taken seed target mode).map VenueChange.write) =
      writes (fun _ => none) ((feed.madeBy target).map VenueChange.write) := by
  obtain ⟨hnew, hstale⟩ := htimely.2 hdeltas
  by_cases hold : ∃ m ∈ feed.taken seed target mode, m.exchangeTs ≤ seed.exchange
  · have hheld := hstale hold
    have hintime : feed.InTime target := by
      intro m hm hmade
      by_cases hmle : m.exchangeTs ≤ seed.exchange
      · exact hheld m hm hmle
      · exact (hnew m hm (by omega) hmade).1
    have hcontent := feed.contentAfter_version seed.exchange
    rw [hintime.madeBy_eq, VenueFeed.madeBy, ← hcontent]
    refine feed.writes_overlap hheld fun m hm hlt hdue => ?_
    have hlate := feed.late m hm
    exact (hnew m hm hlt (by omega)).2
  · -- the loop takes just what the checkpoint does not hold
    have htaken : feed.taken seed target mode =
        (feed.madeBy target).filter fun m => seed.exchange < m.exchangeTs := by
      rw [VenueFeed.taken, VenueFeed.receivedBy, VenueFeed.madeBy, List.filter_filter,
        List.filter_filter]
      refine List.filter_congr fun m hm => ?_
      rw [Bool.eq_iff_iff, Bool.and_eq_true, Bool.and_eq_true, decide_eq_true_eq,
        decide_eq_true_eq, decide_eq_true_eq, decide_eq_true_eq]
      constructor
      · rintro ⟨hpast, hrecv⟩
        have hlate := feed.late m hm
        refine ⟨?_, by omega⟩
        by_contra hmle
        exact hold ⟨m, VenueFeed.mem_taken.mpr ⟨hm, hrecv, hpast⟩, by omega⟩
      · rintro ⟨hlt, hmade⟩
        obtain ⟨hrecv, hpast⟩ := hnew m hm hlt hmade
        exact ⟨hpast, hrecv⟩
    rw [feed.madeBy_split hle, List.map_append, writes_append, htaken]

/-- **From a checkpoint** in time the venue's book is rebuilt. -/
theorem TimelySeed.rebuilt (htimely : TimelySeed feed seed target mode) (h : Stored feed records)
    (hwithin : feed.Within c) (hcaptured : Captured c feed seed checkpoint)
    (hle : seed.exchange ≤ target) :
    ∃ r, reconstructBook a target mode (some checkpoint)
        (marketDataWindow a seed.exchange target records) = .ok r ∧
      r.book.content = writes (fun _ => none) ((feed.madeBy target).map VenueChange.write) := by
  by_cases hdeltas : ∀ m ∈ feed.taken seed target mode, m.kind = .delta
  · obtain ⟨r, hr, hcontent⟩ := h.rebuilt_taken hwithin hcaptured hdeltas
    exact ⟨r, hr, hcontent.trans (htimely.writes_eq hdeltas hle)⟩
  · obtain ⟨before, s, after, hlast⟩ := LastBook.exists hdeltas
    obtain ⟨hintime, halone⟩ := htimely.1 before s after hlast
    have hlast' : LastBook (feed.taken seed target mode) (before ++ []) s after := by
      rwa [List.append_nil]
    obtain ⟨r, hr, hcontent⟩ := h.rebuilt_books hwithin hcaptured hlast'
      (List.forall_mem_nil _) halone
    refine ⟨r, hr, ?_⟩
    obtain ⟨earlier, hearlier⟩ := feed.receivedBy_split seed target mode
    rw [hcontent, hintime.madeBy_eq, hearlier, hlast.split, ← List.append_assoc]
    exact (writes_of_snapshot hlast.kind _ _).symm

end Timely

/-! ## Timeliness depends on the times only -/

section Timing

variable {a : AssetId} {feed feed' : VenueFeed a} {mode : ReplayMode}

variable {start target : Nat} {seed : CheckpointTimes} (htiming : feed'.timing = feed.timing)

include htiming

theorem VenueFeed.map_stamp_taken : (feed.taken seed target mode).map VenueChange.stamp =
    (feed'.taken seed target mode).map VenueChange.stamp := by
  refine map_stamp_filter (fun m n h => ?_) (map_stamp_filter (fun m n h => ?_) htiming.symm)
  · rw [VenueChange.orderingTs_eq h]
  · rw [VenueChange.recvTs_eq h]

theorem VenueFeed.InTime.of_timing (h : feed.InTime target) : feed'.InTime target := by
  refine forall_of_stamp_eq htiming.symm (fun m n hstamp hm => ?_) h
  rwa [← VenueChange.exchangeTs_eq hstamp, ← VenueChange.recvTs_eq hstamp]

theorem TimelySnapshot.of_timing (h : TimelySnapshot feed start target mode) :
    TimelySnapshot feed' start target mode := by
  intro before' s' after' hlast'
  obtain ⟨before, s, after, hlast, hbefore, hs⟩ := hlast'.of_timing htiming
  obtain ⟨hintime, halone⟩ := h before s after hlast
  refine ⟨hintime.of_timing htiming, ?_⟩
  rw [← VenueChange.orderingTs_eq hs]
  refine forall_of_stamp_eq hbefore (fun m n hstamp hm => ?_) halone
  rwa [← VenueChange.snapshotAt_eq hstamp]

theorem TimelySeed.of_timing (h : TimelySeed feed seed target mode) :
    TimelySeed feed' seed target mode := by
  have htaken : (feed.taken seed target mode).map VenueChange.stamp =
      (feed'.taken seed target mode).map VenueChange.stamp := VenueFeed.map_stamp_taken htiming
  constructor
  · intro before' s' after' hlast'
    have hstamps := htaken
    rw [hlast'.split] at hstamps
    obtain ⟨before, s, after, hsplit, hbefore, hs, hafter⟩ := exists_split_of_stamp_eq hstamps
    have hlast : LastBook (feed.taken seed target mode) before s after := by
      refine ⟨hsplit, (VenueChange.kind_eq hs).trans hlast'.kind, ?_⟩
      exact forall_of_stamp_eq hafter.symm
        (fun m n hstamp hm => (VenueChange.kind_eq hstamp).symm.trans hm) hlast'.deltas
    obtain ⟨hintime, halone⟩ := h.1 before s after hlast
    refine ⟨hintime.of_timing htiming, fun m' hm' => ?_⟩
    have hends := congrArg List.getLast? hbefore
    rw [List.getLast?_map, List.getLast?_map, Option.mem_def.mp hm', Option.map_some,
      Option.map_eq_some_iff] at hends
    obtain ⟨m, hm, hstamp⟩ := hends
    rw [← VenueChange.snapshotAt_eq hstamp, ← VenueChange.orderingTs_eq hs]
    exact halone m hm
  · intro hdeltas'
    have hdeltas : ∀ m ∈ feed.taken seed target mode, m.kind = .delta :=
      forall_of_stamp_eq htaken.symm
        (fun m n hstamp hm => (VenueChange.kind_eq hstamp).symm.trans hm) hdeltas'
    obtain ⟨hnew, hstale⟩ := h.2 hdeltas
    constructor
    · refine forall_of_stamp_eq htiming.symm (fun m n hstamp hm => ?_) hnew
      rwa [← VenueChange.exchangeTs_eq hstamp, ← VenueChange.recvTs_eq hstamp,
        ← VenueChange.orderingTs_eq hstamp]
    · intro hold
      refine forall_of_stamp_eq htiming.symm (fun m n hstamp hm => ?_) (hstale ?_)
      · rwa [← VenueChange.exchangeTs_eq hstamp, ← VenueChange.recvTs_eq hstamp]
      · by_contra hnone
        obtain ⟨m', hm', hle⟩ := hold
        refine absurd hle (forall_of_stamp_eq htaken (fun m n hstamp hm => ?_)
          (fun m hm hle => hnone ⟨m, hm, hle⟩) m' hm')
        rwa [← VenueChange.exchangeTs_eq hstamp]

end Timing

/-- **A timely validation is a match.** -/
theorem Timely.noFalseAlarm {a : AssetId} {feed : VenueFeed a} {times : ValidationTimes}
    {mode : ReplayMode} (h : Timely feed times mode) : NoFalseAlarm feed times mode := by
  intro feed' htiming c hwithin records reference seed hinput hreads hsnapshot persistedAtUs
  have hrebuilt : ∃ r, reconstructBook a times.target mode seed
      (marketDataWindow a times.start times.target (withoutCheckpoints records)) = .ok r ∧
      r.book.content =
        writes (fun _ => none) ((feed'.madeBy times.target).map VenueChange.write) := by
    have hseed := hinput.seedCaptured
    unfold Timely at h
    cases hcase : times.seed with
    | none =>
        rw [hcase] at h hseed
        cases hseed
        exact (h.of_timing htiming).rebuilt hinput.stored hwithin (hsnapshot hcase)
    | some seedTimes =>
        rw [hcase] at h hseed
        have hstart : times.start = seedTimes.exchange := by
          rw [ValidationTimes.start, hcase]
          rfl
        obtain ⟨hfloor, hle⟩ := times.seeded seedTimes hcase
        have hafter := times.after
        rw [hstart]
        cases hseed with
        | some hcaptured =>
            exact (h.of_timing htiming).rebuilt hinput.stored hwithin hcaptured
              (by unfold ValidationTimes.target; omega)
  obtain ⟨r, hr, hcontent⟩ := hrebuilt
  exact (hinput.matched_iff hreads hr persistedAtUs).mpr hcontent

/-- A feed of more changes than a read takes is in no store that can be validated. -/
theorem noFalseAlarm_of_rows_lt {a : AssetId} {feed : VenueFeed a} {times : ValidationTimes}
    {mode : ReplayMode}
    (hrows : maxParquetDatasetRows < (feed.seen times.start times.target).length) :
    NoFalseAlarm feed times mode := by
  intro feed' htiming c _ records reference seed hinput hreads _ persistedAtUs
  have hlength := congrArg List.length (VenueFeed.map_stamp_seen htiming times.start times.target)
  have hseen := hinput.stored.length_seen_le (windowFits_withoutCheckpoints.mpr hreads.window)
  rw [List.length_map, List.length_map] at hlength
  omega

end PolyBook
