import PolyBook.FalseAlarms

/-!
# Late changes show

A validation that is not timely raises a false alarm on some feed of its times:
one of the changes is marked, and is in the venue's book or in the rebuilt one
only.  Where older changes are carried out again after the checkpoint, a feed
whose changes all write to one price shows it.

With `PolyBook.FalseAlarms` this makes `noFalseAlarm_iff`: the times decide.
-/

namespace PolyBook

open Overwrite Ingest

section Relevel

variable {a : AssetId} (feed : VenueFeed a) (level : VenueChange a → FixedPrice × FixedSize)

/-- Relevelling moves nothing in time: what was made by the target. -/
theorem VenueFeed.relevel_madeBy (target : Nat) :
    (feed.relevel level).madeBy target = (feed.madeBy target).map (·.relevel level) := by
  simp only [madeBy, relevel, List.filter_map]
  rfl

/-- Relevelling moves nothing in time: what replay takes. -/
theorem VenueFeed.relevel_taken (seed : CheckpointTimes) (target : Nat) (mode : ReplayMode) :
    (feed.relevel level).taken seed target mode =
      (feed.taken seed target mode).map (·.relevel level) := by
  simp only [taken, receivedBy, relevel, List.filter_map, Function.comp_def,
    VenueChange.relevel_recvTs, VenueChange.relevel_orderingTs]
  rfl

variable {level} in
/-- Levels of one unit fit. -/
theorem VenueFeed.relevel_within_unit (hlevel : ∀ m, (level m).2.raw ≤ 1) :
    (feed.relevel level).Within unit := by
  refine feed.relevel_within level fun m _ => ?_
  exact hlevel m

end Relevel

/-! ## A store for every feed -/

section Input

variable {a : AssetId} {c : Capacity} {feed : VenueFeed a} {times : ValidationTimes}
  {records : List PersistedRecord} {reference : BookCheckpoint}

/-- Book events are no checkpoints. -/
theorem withoutCheckpoints_books (events : List BookEvent) :
    withoutCheckpoints (events.map .book) = events.map .book := by
  refine List.filter_eq_self.mpr fun x hx => ?_
  obtain ⟨e, _, rfl⟩ := List.mem_map.mp hx
  rfl

/-- The store of a validation: the reference, the seed and the book records. -/
def validationRecords (reference : BookCheckpoint) (seed : Option BookCheckpoint)
    (events : List BookEvent) : List PersistedRecord :=
  .checkpoint reference :: (seed.toList.map .checkpoint ++ events.map .book)

/-- The records of a validation without its checkpoints. -/
theorem withoutCheckpoints_validationRecords (reference : BookCheckpoint)
    (seed : Option BookCheckpoint) (events : List BookEvent) :
    withoutCheckpoints (validationRecords reference seed events) = events.map .book := by
  cases seed with
  | none => exact withoutCheckpoints_books events
  | some checkpoint => exact withoutCheckpoints_books events

variable (events : List BookEvent) {seed : Option BookCheckpoint}

/-- Of these only the two checkpoints are read. -/
theorem filterMap_extractCheckpoint_validationRecords (startUs endUs : Nat) :
    (validationRecords reference seed events).filterMap (extractCheckpoint a startUs endUs) =
      (extractCheckpoint a startUs endUs (.checkpoint reference)).toList ++
        (seed.bind fun x => extractCheckpoint a startUs endUs (.checkpoint x)).toList := by
  have hbooks : (events.map .book).filterMap (extractCheckpoint a startUs endUs) = [] := by
    refine List.filterMap_eq_nil_iff.mpr fun x hx => ?_
    obtain ⟨e, _, rfl⟩ := List.mem_map.mp hx
    rfl
  have hcons : ∀ (x : PersistedRecord) (xs : List PersistedRecord),
      (x :: xs).filterMap (extractCheckpoint a startUs endUs) =
        (extractCheckpoint a startUs endUs x).toList ++
          xs.filterMap (extractCheckpoint a startUs endUs) := by
    intro x xs
    rw [List.filterMap_cons]
    cases extractCheckpoint a startUs endUs x <;> rfl
  rw [validationRecords, hcons, List.filterMap_append, hbooks, List.append_nil]
  cases seed with
  | none => rfl
  | some checkpoint => simp only [Option.toList_some, List.map_cons, List.map_nil, hcons,
      List.filterMap_nil, List.append_nil, Option.bind_some]

/-- The seed is not after the replayed time, so the reference is found. -/
theorem referenceCheckpoint_validationRecords (hasset : reference.assetId = a)
    (hdated : reference.checkpointTimestampUs = times.target)
    (hseed : ∀ x ∈ seed, x.checkpointTimestampUs ≤ times.replayUs) :
    referenceCheckpoint times.lookbackUs a times.replayUs
      (validationRecords reference seed events) = some reference.asStored := by
  have hafter : times.replayUs < times.target := times.after
  have hinside : times.target ≤ min (times.replayUs + times.lookbackUs) u64Max := times.inside
  have hread : extractCheckpoint a times.replayUs
      (min (times.replayUs + times.lookbackUs) u64Max) (.checkpoint reference) =
        some reference.asStored := if_pos ⟨by omega, by omega, hasset⟩
  have hstored : reference.asStored.checkpointTimestampUs = times.target := hdated
  have hfound : decide (times.replayUs < reference.asStored.checkpointTimestampUs) = true :=
    decide_eq_true (by omega)
  rw [referenceCheckpoint, checkpointsInWindow, filterMap_extractCheckpoint_validationRecords,
    hread]
  cases hcase : seed.bind fun x => extractCheckpoint a times.replayUs
      (min (times.replayUs + times.lookbackUs) u64Max) (.checkpoint x) with
  | none => exact List.find?_cons_of_pos hfound
  | some checkpoint =>
      -- the seed sorts before the reference and is passed over
      have hle : checkpoint.checkpointTimestampUs ≤ times.replayUs := by
        obtain ⟨x, hx, hextract⟩ := Option.bind_eq_some_iff.mp hcase
        rw [extractCheckpoint] at hextract
        split at hextract
        · obtain rfl := Option.some.inj hextract
          exact hseed x hx
        · cases hextract
      have hsorted : sortByKey (fun checkpoint => checkpoint.checkpointTimestampUs)
          [reference.asStored, checkpoint] = [checkpoint, reference.asStored] := by
        rw [sortByKey, List.insertionSort_cons, List.insertionSort_cons, List.insertionSort_nil,
          List.orderedInsert_nil, List.orderedInsert_of_not_le, List.orderedInsert_nil]
        omega
      change List.find? _ (sortByKey _ [reference.asStored, checkpoint]) = _
      rw [hsorted, List.find?_cons_of_neg (by simpa using hle)]
      exact List.find?_cons_of_pos hfound

/-- The reference is not before itself, so the seed is found. -/
theorem validationSeed_validationRecords
    (hdated : reference.checkpointTimestampUs = times.target)
    (hseed : ∀ x ∈ seed, x.assetId = a ∧ times.target - times.lookbackUs ≤ x.checkpointTimestampUs ∧
      x.checkpointTimestampUs ≤ times.replayUs) :
    validationSeed times.lookbackUs a times.target (validationRecords reference seed events) =
      seed.map BookCheckpoint.asStored := by
  have hafter : times.replayUs < times.target := times.after
  have hinside : times.target ≤ min (times.replayUs + times.lookbackUs) u64Max := times.inside
  have hskip : extractCheckpoint a (times.target - times.lookbackUs) (times.target - 1)
      (.checkpoint reference) = none := if_neg (by omega)
  have hwindow : ¬ times.target - 1 < times.target - times.lookbackUs := by omega
  rw [validationSeed, latestCheckpoint, if_neg hwindow, checkpointsInWindow,
    filterMap_extractCheckpoint_validationRecords, hskip]
  cases seed with
  | none => rfl
  | some checkpoint =>
      obtain ⟨hasset, hfloor, hle⟩ := hseed checkpoint rfl
      have hread : extractCheckpoint a (times.target - times.lookbackUs) (times.target - 1)
          (.checkpoint checkpoint) = some checkpoint.asStored :=
        if_pos ⟨hfloor, by omega, hasset⟩
      have hkept : decide (times.target - times.lookbackUs ≤
          checkpoint.asStored.checkpointTimestampUs) = true := decide_eq_true hfloor
      rw [Option.bind_some, hread]
      change checkpointWithinFloor (some checkpoint.asStored) _ = _
      rw [checkpointWithinFloor, Option.filter_some, hkept]
      rfl

/-- Two checkpoints and a window that fits can be read. -/
theorem validationReads_validationRecords (times : ValidationTimes)
    (hfits : WindowFits a times.start times.target (events.map .book)) :
    ValidationReads a times (validationRecords reference seed events) := by
  have htwo : ∀ startUs endUs, CheckpointsFit a startUs endUs
      (validationRecords reference seed events) := by
    intro startUs endUs
    have hone : ∀ found : Option BookCheckpoint, found.toList.length ≤ 1 := by
      intro found
      cases found <;> simp
    rw [CheckpointsFit, filterMap_extractCheckpoint_validationRecords, List.length_append]
    exact (Nat.add_le_add (hone _) (hone _)).trans (by decide)
  refine ⟨htwo _ _, htwo _ _, windowFits_withoutCheckpoints.mp ?_⟩
  rwa [withoutCheckpoints_validationRecords]

/-- For every moment there is a checkpoint that was captured at it. -/
theorem exists_storedCheckpoint (hwithin : feed.Within c) (moment : CheckpointTimes) :
    ∃ checkpoint, Captured c feed moment checkpoint ∧ checkpoint.WellFormed ∧
      checkpoint.asStored = checkpoint := by
  obtain ⟨book, hbook, hcontent⟩ := exists_venueBook hwithin moment.exchange
  exact ⟨_, captured_checkpointFromRest moment hbook hcontent,
    hbook.wellFormed_checkpointFromRest a moment.recv moment.exchange none, rfl⟩

/-- **Every feed can be validated** at the times. -/
theorem exists_validationInput (hwithin : feed.Within c) (times : ValidationTimes) :
    ∃ records reference seed, ValidationInput c feed times records reference seed ∧
      withoutCheckpoints records = feed.events.map .book ∧
      (WindowFits a times.start times.target (feed.events.map .book) →
        ValidationReads a times records) := by
  obtain ⟨reference, hcaptured, hwell, hreference⟩ :=
    exists_storedCheckpoint hwithin times.reference
  obtain ⟨seed, hrel, hstored⟩ : ∃ seed, Option.Rel (Captured c feed) times.seed seed ∧
      seed.map BookCheckpoint.asStored = seed := by
    cases times.seed with
    | none => exact ⟨none, .none, rfl⟩
    | some seedTimes =>
        obtain ⟨checkpoint, hcheckpoint, _, hstored⟩ := exists_storedCheckpoint hwithin seedTimes
        exact ⟨some checkpoint, .some hcheckpoint, congrArg some hstored⟩
  have hseed : ∀ x ∈ seed, x.assetId = a ∧
      times.target - times.lookbackUs ≤ x.checkpointTimestampUs ∧
        x.checkpointTimestampUs ≤ times.replayUs := by
    intro x hx
    obtain rfl := Option.mem_def.mp hx
    have hrel' := hrel
    generalize hcase : times.seed = seedTimes at hrel'
    cases hrel' with
    | some hx =>
        rw [hx.dated]
        exact ⟨hx.listed.assetId, times.seeded _ hcase⟩
  refine ⟨validationRecords reference seed feed.events, reference, seed,
    ⟨?_, ?_, ?_, hcaptured, hwell, hrel⟩,
    withoutCheckpoints_validationRecords reference seed feed.events,
    validationReads_validationRecords feed.events times⟩
  · rw [withoutCheckpoints_validationRecords]
    exact feed.stored_events
  · rw [referenceCheckpoint_validationRecords feed.events hcaptured.listed.assetId
      hcaptured.dated fun x hx => (hseed x hx).2.2, hreference]
  · rw [validationSeed_validationRecords feed.events hcaptured.dated hseed, hstored]

end Input

/-! ## What no false alarm says of every choice of levels -/

section Levels

variable {a : AssetId} {feed : VenueFeed a} {times : ValidationTimes} {mode : ReplayMode}
  {level : VenueChange a → FixedPrice × FixedSize}

/-- The book rebuilt from a feed of these times is the venue's. -/
theorem NoFalseAlarm.content_eq (h : NoFalseAlarm feed times mode)
    (hrows : (feed.seen times.start times.target).length ≤ maxParquetDatasetRows)
    (hlevel : ∀ m, (level m).2.raw ≤ 1)
    (hsnapshot : times.seed = none →
      ∃ m ∈ feed.seen times.start times.target, m.kind = .snapshot) :
    ∃ seed, Option.Rel (Captured VenueFeed.unit (feed.relevel level)) times.seed seed ∧
      ∀ r, reconstructBook a times.target mode seed
        (marketDataWindow a times.start times.target ((feed.relevel level).events.map .book)) =
          .ok r →
        r.book.content = writes (fun _ => none)
          (((feed.madeBy times.target).map (·.relevel level)).map VenueChange.write) := by
  have hwithin := feed.relevel_within_unit hlevel
  obtain ⟨records, reference, seed, hinput, hrecords, hreads⟩ :=
    exists_validationInput hwithin times
  have hreads := hreads (feed.relevel_windowFits level hrows)
  refine ⟨seed, hinput.seedCaptured, fun r hr => ?_⟩
  rw [← hrecords] at hr
  rw [← feed.relevel_madeBy level]
  refine (hinput.matched_iff hreads hr 0).mp
    (h _ (feed.relevel_timing level) _ hwithin _ _ _ hinput hreads (fun hnone => ?_) 0)
  obtain ⟨m, hm, hk⟩ := hsnapshot hnone
  refine ⟨m.relevel level, ?_, hk⟩
  rw [feed.relevel_seen]
  exact List.mem_map_of_mem hm

variable (h : NoFalseAlarm feed times mode)
  (hrows : (feed.seen times.start times.target).length ≤ maxParquetDatasetRows)
  (hlevel : ∀ m, (level m).2.raw ≤ 1)

include h hrows hlevel

/-- Without a seed, replay shows the venue's book. -/
theorem NoFalseAlarm.snapshot_eq (hnone : times.seed = none)
    {before after : List (VenueChange a)} {s : VenueChange a}
    (hlast : LastSnapshot feed times.start times.target before s after) :
    writes (fun _ => none)
        (((feed.madeBy times.target).map (·.relevel level)).map VenueChange.write) =
      writes (groupContent ((before.filter (·.snapshotAt mode (s.orderingTs mode)) ++ [s]).map
          (·.relevel level)))
        ((after.map (·.relevel level)).map VenueChange.write) := by
  obtain ⟨seed, hseed, hcontent⟩ := h.content_eq hrows hlevel fun _ =>
    ⟨s, hlast.mem_seen (List.mem_append_right _ List.mem_cons_self), hlast.kind⟩
  rw [hnone] at hseed
  cases hseed
  obtain ⟨r, hr, hr_content⟩ := (hlast.relevel level).rebuilt (feed.relevel level).stored_events
    (feed.relevel_within_unit hlevel) mode
  rw [← hcontent r hr, hr_content, List.map_append, List.filter_map]
  simp only [Function.comp_def, VenueChange.relevel_snapshotAt, VenueChange.relevel_orderingTs,
    List.map_cons, List.map_nil]

variable {seedTimes : CheckpointTimes} (hsome : times.seed = some seedTimes)

include hsome

/-- With a seed, replay shows the venue's book. -/
theorem NoFalseAlarm.seeded_eq : ∃ checkpoint,
    Captured VenueFeed.unit (feed.relevel level) seedTimes checkpoint ∧
      ∀ r, reconstructBook a times.target mode (some checkpoint) (marketDataWindow a
        seedTimes.exchange times.target ((feed.relevel level).events.map .book)) = .ok r →
        r.book.content = writes (fun _ => none)
          (((feed.madeBy times.target).map (·.relevel level)).map VenueChange.write) := by
  obtain ⟨seed, hseed, hcontent⟩ := h.content_eq hrows hlevel fun hnone => by
    rw [hnone] at hsome
    cases hsome
  have hstart : times.start = seedTimes.exchange := by
    rw [ValidationTimes.start, hsome]
    rfl
  rw [hsome] at hseed
  rw [hstart] at hcontent
  cases hseed with
  | some hcaptured => exact ⟨_, hcaptured, hcontent⟩

/-- The levels of the run that replay starts from are the venue's. -/
theorem NoFalseAlarm.books_eq {front run after : List (VenueChange a)} {s : VenueChange a}
    (hlast : LastBook (feed.taken seedTimes times.target mode) (front ++ run) s after)
    (hrun : ∀ m ∈ run, m.snapshotAt mode (s.orderingTs mode) = true)
    (hfront : ∀ m ∈ front.getLast?, m.snapshotAt mode (s.orderingTs mode) = false) :
    writes (fun _ => none)
        (((feed.madeBy times.target).map (·.relevel level)).map VenueChange.write) =
      writes (groupContent ((run ++ [s]).map (·.relevel level)))
        ((after.map (·.relevel level)).map VenueChange.write) := by
  obtain ⟨checkpoint, hcaptured, hcontent⟩ := h.seeded_eq hrows hlevel hsome
  have hlast' : LastBook ((feed.relevel level).taken seedTimes times.target mode)
      (front.map (·.relevel level) ++ run.map (·.relevel level)) (s.relevel level)
      (after.map (·.relevel level)) := by
    refine ⟨?_, hlast.kind, fun m hm => ?_⟩
    · rw [feed.relevel_taken, hlast.split]
      simp
    · obtain ⟨n, hn, rfl⟩ := List.mem_map.mp hm
      exact hlast.deltas n hn
  obtain ⟨r, hr, hr_content⟩ := (feed.relevel level).stored_events.rebuilt_books
    (feed.relevel_within_unit hlevel) hcaptured hlast'
    (fun m hm => by
      obtain ⟨n, hn, rfl⟩ := List.mem_map.mp hm
      rw [VenueChange.relevel_snapshotAt, VenueChange.relevel_orderingTs]
      exact hrun n hn)
    (fun m hm => by
      rw [List.getLast?_map, Option.mem_def, Option.map_eq_some_iff] at hm
      obtain ⟨n, hn, rfl⟩ := hm
      rw [VenueChange.relevel_snapshotAt, VenueChange.relevel_orderingTs]
      exact hfront n hn)
  rw [← hcontent r hr, hr_content, List.map_append]
  rfl

/-- Where there are only level changes, they make the venue's book. -/
theorem NoFalseAlarm.deltas_eq
    (hdeltas : ∀ m ∈ feed.taken seedTimes times.target mode, m.kind = .delta) :
    writes (fun _ => none)
        (((feed.madeBy times.target).map (·.relevel level)).map VenueChange.write) =
      writes (writes (fun _ => none)
          (((feed.madeBy seedTimes.exchange).map (·.relevel level)).map VenueChange.write))
        (((feed.taken seedTimes times.target mode).map (·.relevel level)).map
          VenueChange.write) := by
  obtain ⟨checkpoint, hcaptured, hcontent⟩ := h.seeded_eq hrows hlevel hsome
  have hdeltas' : ∀ m ∈ (feed.relevel level).taken seedTimes times.target mode,
      m.kind = .delta := by
    intro m hm
    rw [feed.relevel_taken] at hm
    obtain ⟨n, hn, rfl⟩ := List.mem_map.mp hm
    exact hdeltas n hn
  obtain ⟨r, hr, hr_content⟩ := (feed.relevel level).stored_events.rebuilt_taken
    (feed.relevel_within_unit hlevel) hcaptured hdeltas'
  rw [← hcontent r hr, hr_content, feed.relevel_taken, feed.relevel_madeBy]

end Levels

/-! ## Marks -/

section Marks

variable {a : AssetId} {feed : VenueFeed a}

/-- A recast level is one unit at most. -/
theorem recastLevel_le (k : Nat) (m : VenueChange a) : (recastLevel k m).2.raw ≤ 1 := by
  unfold recastLevel
  split <;> decide

/-- What recast changes write, by their levels. -/
theorem recastWrites_eq (k : Nat) (changes : List (VenueChange a)) (f : BookContent) :
    recastWrites k changes f =
      writes f ((changes.map (·.relevel (recastLevel k))).map VenueChange.write) := rfl

/-- Where a last book message decides, nothing came late and nothing was merged with
it: either could be marked. -/
theorem eq_nil_of_group {made earlier group after late : List (VenueChange a)}
    {s : VenueChange a} (hmade : made = earlier ++ s :: after ++ late)
    (hkeys : made.Pairwise fun m n => m.key < n.key) (hk : s.kind = .snapshot)
    (hafter : ∀ m ∈ after, m.kind = .delta) (hgroup : group.Sublist earlier)
    (h : ∀ k, recastWrites k made (fun _ => none) =
      recastWrites k after (groupContent ((group ++ [s]).map (·.recast k)))) :
    late = [] ∧ group = [] := by
  subst hmade
  rw [List.append_assoc, List.cons_append] at hkeys
  obtain ⟨hearlier_keys, hrest, hacross⟩ := List.pairwise_append.mp hkeys
  obtain ⟨hs_keys, htail⟩ := List.pairwise_cons.mp hrest
  obtain ⟨hafter_keys, hlate_keys, hafter_late⟩ := List.pairwise_append.mp htail
  constructor
  · rcases List.eq_nil_or_concat late with hnil | ⟨front, l, rfl⟩
    · exact hnil
    rw [List.concat_eq_append] at *
    have hl : l ∈ front ++ [l] := List.mem_append_right _ (List.mem_singleton_self l)
    have heq := congrFun (h l.key) markedKey
    have hgroup_keys : ∀ m ∈ group ++ [s], m.key ≠ l.key := by
      intro m hm
      rcases List.mem_append.mp hm with hm | hm
      · have := hacross m (hgroup.subset hm) l
          (List.mem_cons_of_mem _ (List.mem_append_right _ hl))
        omega
      · rw [List.mem_singleton.mp hm]
        exact (hs_keys l (List.mem_append_right _ hl)).ne
    rw [← List.append_assoc, recastWrites_marked rfl (List.forall_mem_nil _)
      (List.forall_mem_nil _), recastWrites_deltas
        (fun m hm => (hafter_late m hm l hl).ne) hafter, groupContent_unmarked hgroup_keys] at heq
    cases heq
  · rcases List.eq_nil_or_concat group with hnil | ⟨front, m, rfl⟩
    · exact hnil
    rw [List.concat_eq_append] at *
    have hm : m ∈ earlier := hgroup.subset (List.mem_append_right _ (List.mem_singleton_self m))
    have hlater : ∀ n ∈ s :: (after ++ late), n.key ≠ m.key := fun n hn =>
      (hacross m hm n hn).ne'
    have hfront : ∀ n ∈ front, n.key ≠ m.key := by
      have hpairs := hearlier_keys.sublist hgroup
      intro n hn
      exact ((List.pairwise_append.mp hpairs).2.2 n hn m (List.mem_singleton_self m)).ne
    have heq := congrFun (h m.key) markedKey
    rw [List.append_assoc, List.cons_append, recastWrites_cleared hk
        (hlater s List.mem_cons_self) fun n hn => hlater n (List.mem_cons_of_mem _ hn),
      recastWrites_deltas (fun n hn => hlater n
        (List.mem_cons_of_mem _ (List.mem_append_left _ hn))) hafter,
      List.append_assoc, List.singleton_append, groupContent_marked front [s] rfl hfront
        fun n hn => by
          rw [List.mem_singleton.mp hn]
          exact hlater s List.mem_cons_self] at heq
    cases heq

/-- Where no book message follows the checkpoint, the loop takes all that the
checkpoint does not hold: the last one left out could be marked. -/
theorem mem_taken_of_fresh {held fresh taken : List (VenueChange a)}
    (hkeys : (held ++ fresh).Pairwise fun m n => m.key < n.key)
    (hmem : ∀ m ∈ held ++ fresh, m ∈ feed.changes) (htaken : ∀ m ∈ taken, m ∈ feed.changes)
    (hdeltas : ∀ m ∈ taken, m.kind = .delta)
    (h : ∀ k, recastWrites k (held ++ fresh) (fun _ => none) =
      recastWrites k taken (recastWrites k held fun _ => none)) :
    ∀ m ∈ fresh, m ∈ taken := by
  by_contra hmissed
  push Not at hmissed
  obtain ⟨front, m, back, rfl, hm, hback⟩ := exists_last hmissed
  have hback : ∀ n ∈ back, n ∈ taken := fun n hn => not_not.mp (hback n hn)
  have hm_mem : m ∈ feed.changes :=
    hmem m (List.mem_append_right _ (List.mem_append_right _ List.mem_cons_self))
  obtain ⟨_, hfresh, hacross⟩ := List.pairwise_append.mp hkeys
  have hback_keys := (List.pairwise_cons.mp (List.pairwise_append.mp hfresh).2.1).1
  have hunmarked : ∀ n ∈ taken, n.key ≠ m.key := by
    intro n hn hkey
    obtain rfl := feed.eq_of_key_eq (htaken n hn) hm_mem hkey
    exact hm hn
  have hheld : ∀ n ∈ held, n.key ≠ m.key := fun n hn =>
    (hacross n hn m (List.mem_append_right _ List.mem_cons_self)).ne
  have heq := congrFun (h m.key) markedKey
  rw [← List.append_assoc, recastWrites_marked rfl (fun n hn => (hback_keys n hn).ne')
      fun n hn => hdeltas n (hback n hn), recastWrites_deltas hunmarked hdeltas,
    recastWrites_unmarked hheld rfl] at heq
  cases heq

/-- Every change writes to the marked price; one leaves something there. -/
def overwriteLevel (k : Nat) (m : VenueChange a) : FixedPrice × FixedSize :=
  (markedPrice, if m.key = k then markedSize else blankSize)

/-- An overwritten level is one unit at most. -/
theorem overwriteLevel_le (k : Nat) (m : VenueChange a) : (overwriteLevel k m).2.raw ≤ 1 := by
  unfold overwriteLevel
  dsimp only
  split <;> decide

/-- The last change to write decides what the marked price holds. -/
theorem overwrite_write (k : Nat) (m : VenueChange a) (f : BookContent) :
    (m.relevel (overwriteLevel k)).write.run f markedKey =
      if m.key = k then some markedSize else none := by
  cases hk : m.kind with
  | snapshot =>
      have hwrite : (m.relevel (overwriteLevel k)).write =
          .all (groupContent ([m].map (·.relevel (overwriteLevel k)))) := by
        rw [VenueChange.write, VenueChange.relevel_kind, hk]
        simp only [groupContent, List.map_cons, List.map_nil, List.flatMap_singleton]
      rw [hwrite, groupContent, (eventLevels_relevel _ _).1, (eventLevels_relevel _ _).2]
      by_cases hm : m.key = k <;>
        simp only [List.map_cons, List.map_nil, overwriteLevel, hm, if_true, if_false, Write.run]
      · decide +kernel
      · decide +kernel
  | delta =>
      rw [VenueChange.write, VenueChange.relevel_kind, hk]
      by_cases hm : m.key = k <;>
        simp [VenueChange.relevel, BookEvent.relevel, BookEvent.write, overwriteLevel, hm,
          Write.run, markedKey, Function.update_self] <;> rfl

/-- Two words that leave the same at the marked price end with one change. -/
theorem key_eq_of_overwrite {made taken : List (VenueChange a)} {l r : VenueChange a}
    {f g : BookContent}
    (h : writes f (((made ++ [l]).map (·.relevel (overwriteLevel r.key))).map
        VenueChange.write) =
      writes g (((taken ++ [r]).map (·.relevel (overwriteLevel r.key))).map
        VenueChange.write)) : l.key = r.key := by
  have heq := congrFun h markedKey
  simp only [List.map_append, List.map_cons, List.map_nil, writes_append, writes_cons] at heq
  change (l.relevel _).write.run _ markedKey = (r.relevel _).write.run _ markedKey at heq
  rw [overwrite_write, overwrite_write, if_pos rfl] at heq
  by_contra hne
  rw [if_neg hne] at heq
  cases heq

end Marks

/-! ## The times decide -/

section Decide

variable {a : AssetId} {feed : VenueFeed a} {times : ValidationTimes} {mode : ReplayMode}

/-- Without late changes everything is in time. -/
theorem VenueFeed.inTime_of_late_eq_nil {target : Nat}
    (h : (feed.madeBy target).filter (fun m => target < m.recvTs) = []) :
    feed.InTime target := by
  intro m hm hmade
  have := List.filter_eq_nil_iff.mp h m (VenueFeed.mem_madeBy.mpr ⟨hm, hmade⟩)
  rw [decide_eq_true_eq] at this
  omega

/-- The changes made by the target are ordered by their keys. -/
theorem VenueFeed.key_madeBy (feed : VenueFeed a) (target : Nat) :
    (feed.madeBy target).Pairwise fun m n => m.key < n.key :=
  feed.key_pairwise.sublist List.filter_sublist

/-- Where a last book message decides, all is in time and nothing is merged with it. -/
theorem inTime_of_group {target : Nat} {earlier group after : List (VenueChange a)}
    {s : VenueChange a} (hreceived : feed.receivedBy target = earlier ++ s :: after)
    (hk : s.kind = .snapshot) (hafter : ∀ m ∈ after, m.kind = .delta)
    (hgroup : group.Sublist earlier)
    (h : ∀ k, recastWrites k (feed.madeBy target) (fun _ => none) =
      recastWrites k after (groupContent ((group ++ [s]).map (·.recast k)))) :
    feed.InTime target ∧ group = [] := by
  have hmade := feed.madeBy_eq target
  rw [hreceived] at hmade
  obtain ⟨hlate, hnone⟩ := eq_nil_of_group hmade (feed.key_madeBy target) hk hafter hgroup h
  exact ⟨VenueFeed.inTime_of_late_eq_nil hlate, hnone⟩

/-- Without a seed, no false alarm means a timely snapshot. -/
theorem NoFalseAlarm.timelySnapshot (h : NoFalseAlarm feed times mode)
    (hrows : (feed.seen times.start times.target).length ≤ maxParquetDatasetRows)
    (hnone : times.seed = none) : TimelySnapshot feed times.start times.target mode := by
  intro before s after hlast
  obtain ⟨earlier, hearlier⟩ := feed.seen_isSuffix times.start times.target
  rw [hlast.split, ← List.append_assoc] at hearlier
  have hgroup : (before.filter (·.snapshotAt mode (s.orderingTs mode))).Sublist
      (earlier ++ before) :=
    List.filter_sublist.trans (List.sublist_append_right earlier before)
  obtain ⟨hintime, hnil⟩ := inTime_of_group hearlier hlast.kind hlast.deltas hgroup fun k => by
    rw [recastWrites_eq, recastWrites_eq]
    exact h.snapshot_eq hrows (recastLevel_le k) hnone hlast
  refine ⟨hintime, fun m hm => ?_⟩
  simpa using List.filter_eq_nil_iff.mp hnil m hm

/-- With a seed, no false alarm means a timely seed. -/
theorem NoFalseAlarm.timelySeed (h : NoFalseAlarm feed times mode)
    (hrows : (feed.seen times.start times.target).length ≤ maxParquetDatasetRows)
    {seed : CheckpointTimes} (hsome : times.seed = some seed) :
    TimelySeed feed seed times.target mode := by
  have hle : seed.exchange ≤ times.target := by
    have := (times.seeded seed hsome).2
    have := times.after
    unfold ValidationTimes.target
    omega
  constructor
  · intro before s after hlast
    obtain ⟨earlier, hearlier⟩ := feed.receivedBy_split seed times.target mode
    obtain ⟨front, run, rfl, hrun, hfront⟩ :=
      exists_endRun (fun m => m.snapshotAt mode (s.orderingTs mode)) before
    rw [hlast.split, ← List.append_assoc] at hearlier
    have hgroup : run.Sublist (earlier ++ (front ++ run)) :=
      (List.sublist_append_right front run).trans (List.sublist_append_right earlier _)
    obtain ⟨hintime, rfl⟩ := inTime_of_group hearlier hlast.kind hlast.deltas hgroup fun k => by
      rw [recastWrites_eq, recastWrites_eq]
      exact h.books_eq hrows (recastLevel_le k) hsome hlast hrun hfront
    rw [List.append_nil]
    exact ⟨hintime, hfront⟩
  · intro hdeltas
    have hmade := feed.madeBy_split hle
    have hsub : ∀ m ∈ feed.madeBy times.target, m ∈ feed.changes := fun m hm =>
      (VenueFeed.mem_madeBy.mp hm).1
    have htaken : ∀ m ∈ feed.taken seed times.target mode, m ∈ feed.changes := fun m hm =>
      (VenueFeed.mem_taken.mp hm).1
    have hkeys := feed.key_madeBy times.target
    rw [hmade] at hkeys hsub
    have hfresh := mem_taken_of_fresh hkeys hsub htaken hdeltas fun k => by
      rw [← hmade, recastWrites_eq, recastWrites_eq, recastWrites_eq]
      exact h.deltas_eq hrows (recastLevel_le k) hsome hdeltas
    have hnew : ∀ m ∈ feed.changes, seed.exchange < m.exchangeTs → m.exchangeTs ≤ times.target →
        m.recvTs ≤ times.target ∧ seed.orderingTs mode < m.orderingTs mode := by
      intro m hm hlt hmle
      exact (VenueFeed.mem_taken.mp (hfresh m (List.mem_filter.mpr
        ⟨VenueFeed.mem_madeBy.mpr ⟨hm, hmle⟩, decide_eq_true hlt⟩))).2
    refine ⟨hnew, ?_⟩
    rintro ⟨m, hm, _⟩ n hn hn_held
    by_contra hlate
    -- after a late one the venue has made nothing else by the target
    have hfresh_nil : (feed.madeBy times.target).filter (fun m => seed.exchange < m.exchangeTs) =
        [] := by
      refine List.filter_eq_nil_iff.mpr fun m hm hlt => ?_
      rw [decide_eq_true_eq] at hlt
      obtain ⟨hm_mem, hmle⟩ := VenueFeed.mem_madeBy.mp hm
      have harrives := (feed.arrives_of_exchangeTs_lt hn hm_mem (by omega)).2
      have := (hnew m hm_mem hlt hmle).1
      omega
    rw [hfresh_nil, List.append_nil] at hmade
    obtain ⟨held, l, hheld⟩ : ∃ held l, feed.madeBy seed.exchange = held ++ [l] :=
      ⟨_, _, (List.dropLast_append_getLast
        (List.ne_nil_of_mem (VenueFeed.mem_madeBy.mpr ⟨hn, hn_held⟩))).symm⟩
    obtain ⟨front, r, hfront⟩ : ∃ front r, feed.taken seed times.target mode = front ++ [r] :=
      ⟨_, _, (List.dropLast_append_getLast (List.ne_nil_of_mem hm)).symm⟩
    have heq := h.deltas_eq hrows (overwriteLevel_le r.key) hsome hdeltas
    rw [hmade, hfront, hheld] at heq
    have hkey := key_eq_of_overwrite heq
    have hr : r ∈ feed.taken seed times.target mode := by
      rw [hfront]
      exact List.mem_append_right _ (List.mem_singleton_self r)
    have hl : l ∈ feed.madeBy seed.exchange := by
      rw [hheld]
      exact List.mem_append_right _ (List.mem_singleton_self l)
    obtain ⟨hr_mem, hr_due, _⟩ := VenueFeed.mem_taken.mp hr
    obtain rfl := feed.eq_of_key_eq (VenueFeed.mem_madeBy.mp hl).1 hr_mem hkey
    have hreceived := feed.received.sublist
      (List.filter_sublist (p := fun m => decide (m.exchangeTs ≤ seed.exchange)))
    have hn_made := VenueFeed.mem_madeBy.mpr ⟨hn, hn_held⟩
    rw [VenueFeed.madeBy] at hheld hn_made
    rw [hheld] at hreceived hn_made
    rcases List.mem_append.mp hn_made with hn_made | hn_made
    · have := (List.pairwise_append.mp hreceived).2.2 n hn_made l (List.mem_singleton_self l)
      omega
    · obtain rfl := List.mem_singleton.mp hn_made
      omega

/-- **When a validation raises no false alarm.**  Whatever the changes of a feed
are and however it is stored, its validations are matches exactly when its times
are timely.  A validation with a read that is too large is refused. -/
theorem noFalseAlarm_iff (feed : VenueFeed a) (times : ValidationTimes) (mode : ReplayMode) :
    (NoFalseAlarm feed times mode ↔
      maxParquetDatasetRows < (feed.seen times.start times.target).length ∨
        Timely feed times mode) ∧
    ∀ (feed' : VenueFeed a) (c : Capacity) (records : List PersistedRecord)
      (reference : BookCheckpoint) (seed : Option BookCheckpoint),
      ValidationInput c feed' times records reference seed → ¬ValidationReads a times records →
      ∀ persistedAtUs, replayValidation times.lookbackUs a times.replayUs mode persistedAtUs
        records = .error .tooManyRows := by
  refine ⟨⟨fun h => ?_, ?_⟩, fun feed' c records reference seed hinput hreads =>
    hinput.refused hreads⟩
  · rw [or_iff_not_imp_left]
    intro hnot
    have hrows := Nat.not_lt.mp hnot
    unfold Timely
    cases hcase : times.seed with
    | none => exact h.timelySnapshot hrows hcase
    | some seed => exact h.timelySeed hrows hcase
  · rintro (hrows | htimely)
    · exact noFalseAlarm_of_rows_lt hrows
    · exact htimely.noFalseAlarm

end Decide

namespace LateChange

open Straddling

/-- The venue dates the reference 1060, after the change of 1050 and before its
receipt at 1100. -/
def times : ValidationTimes where
  lookbackUs := defaultLookbackUs
  replayUs := 1055
  reference := ⟨1060, 1150, by decide⟩
  seed := none
  after := by decide
  inside := by decide
  seeded := by simp

/-- The reference checkpoint of the sample. -/
def reference : BookCheckpoint where
  assetId := "yes"
  checkpointTimestampUs := 1060
  provenance := {
    recvTimestampUs := 1150
    exchangeTimestampUs := 1060
    source := .restSnapshot
    sourceEventId := none
    sourceSessionId := none
    sequence := none
    ingestOrdinal := none }
  bids := [⟨book.price, book.size⟩, ⟨change.price, change.size⟩]
  asks := []
  walOffset := none

/-- The sample's records, the reference among them. -/
def persisted : List PersistedRecord := .checkpoint reference :: stored

/-- The verdict of the validation at 1055. -/
def verdict (mode : ReplayMode) : Except ReplayError (Option Bool) :=
  (replayValidation defaultLookbackUs "yes" 1055 mode 0 persisted).map
    (Option.map (·.matched))

/-- The reference lists both levels. -/
theorem reference_content :
    listedContent (levelPairs reference.bids) (levelPairs reference.asks) =
      contentAfter feed.changes 2 := by
  have hbook : contentAfter feed.changes 2 =
      Function.update (listedContent [(book.price, book.size)] []) (.bid, change.price)
        (some change.size) := rfl
  have hone : (snapshotSide [(book.price, book.size)] : Option (BidLevels × Nat)) =
      some ((∅ : BidLevels).insert book.price book.size, 10000000) := by decide +kernel
  have htwo : (snapshotSide (levelPairs reference.bids) : Option (BidLevels × Nat)) =
      some (((∅ : BidLevels).insert book.price book.size).insert change.price change.size,
        17000000) := by decide +kernel
  rw [hbook]
  funext ⟨side, price⟩
  cases side with
  | ask => rfl
  | bid =>
      simp only [listedContent, htwo, Option.bind_some, Function.update_apply, Prod.mk.injEq,
        true_and, hone]
      exact TreeMapLookup.getElem?_insert _ _ _ _

end LateChange

open LateChange Straddling in
/-- A level change that is late for the reference: a false alarm in both clocks. -/
theorem late_change_raises_alarm :
    feed.Within StaleDelta.capacity ∧
      ValidationInput StaleDelta.capacity feed LateChange.times persisted reference none ∧
      (∃ m ∈ feed.seen LateChange.times.start LateChange.times.target, m.kind = .snapshot) ∧
      verdict .recvTime = .ok (some false) ∧ verdict .exchangeTime = .ok (some false) := by
  refine ⟨?_, ⟨⟨?_, ?_, ?_⟩, ?_, ?_, ⟨rfl, rfl, rfl, rfl, ?_, ?_, ?_, ?_⟩, ⟨⟨?_, ?_⟩, ?_, ?_⟩, ?_⟩,
    ?_, ?_, ?_⟩
  · unfold VenueFeed.Within Capacity.AdmitsEvents
    decide
  · exact List.Perm.refl _
  · simp [withoutCheckpoints, persisted, stored]
  · simp [withoutCheckpoints, persisted, stored]
  · decide +kernel
  · decide +kernel
  · decide
  · unfold Capacity.Admits
    decide
  · unfold Capacity.Admits
    decide
  · exact reference_content
  · decide
  · decide
  · decide
  · decide
  · exact .none
  · decide
  · decide +kernel
  · decide +kernel

end PolyBook
