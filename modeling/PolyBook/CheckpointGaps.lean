import PolyBook.GapCheck

/-!
# Gaps reported on top of a checkpoint

A checkpoint has no sequence number, and the book it hydrates stands at number zero
with the check switched on.  The level changes of a feed number on from wherever the
feed was, so the first one on top of the checkpoint is reported as a gap unless it
happens to have number one (`second_delta_reported`).

`gaps_are_real_iff` says for which windows every gap reported stands for a level
change that is missing: the first level change on top of the checkpoint numbers on
from the records before it, and where the replay order parts from the order of
arrival the numbers fit all the same.
-/

namespace PolyBook

/-- The events of one asset as the dispatcher numbers them, nothing left out: a level
change numbers on from the event before it. -/
structure GapFreeFeed where
  events : List BookEvent
  distinct : events.Nodup
  numbered : events.IsChain fun p d => d.kind = .delta → d.number = Sequence.next p.number

namespace GapFreeFeed

variable (feed : GapFreeFeed) (window : MarketDataWindow)

/-- A window with events of the feed, each at most once and in any order, and with
ingest events that neither reset the feed nor report a gap. -/
structure Window : Prop where
  drawn : window.bookEvents.Subperm feed.events
  quiet : ∀ e ∈ window.ingestEvents, e.kind.isContinuityReset = false ∧ e.kind ≠ .sequenceGap

/-- A level change that arrived after `p` and before `d` is missing from the window. -/
def LostBetween (p d : BookEvent) : Prop :=
  ∃ front between back, feed.events = front ++ p :: (between ++ d :: back) ∧
    ∃ b ∈ between, b.kind = .delta ∧ b ∉ window.bookEvents

/-- What arrived after `p` and before `d`, if anything, are level changes missing from
the window. -/
def Follows (p d : BookEvent) : Prop :=
  ∃ front between back, feed.events = front ++ p :: (between ++ d :: back) ∧
    ∀ b ∈ between, b.kind = .delta ∧ b ∉ window.bookEvents

end GapFreeFeed

/-- The number the book stands at after these events on top of a checkpoint. -/
def lastNumber (events : List BookEvent) : Nat :=
  (events.getLast?.map BookEvent.number).getD 0

/-- The level changes that do not number on from the event before them, each with the
events on top of the checkpoint before it. -/
def gapReports (earlier : List BookEvent) : List BookEvent → List (List BookEvent × BookEvent)
  | [] => []
  | e :: rest =>
      if e.kind = .delta ∧ e.number ≠ Sequence.next (lastNumber earlier) then
        (earlier, e) :: gapReports (earlier ++ [e]) rest
      else gapReports (earlier ++ [e]) rest

/-- What the reports quote. -/
def quotedReports (reports : List (List BookEvent × BookEvent)) : List EventProvenance :=
  reports.map fun report => report.2.provenance.quoted

section Reports

variable {earlier events : List BookEvent}

@[simp] theorem lastNumber_nil : lastNumber [] = 0 := rfl

@[simp] theorem lastNumber_concat (events : List BookEvent) (e : BookEvent) :
    lastNumber (events ++ [e]) = e.number := by
  simp [lastNumber]

/-- A report names a level change and the events before it, which do not fit. -/
theorem mem_gapReports {report : List BookEvent × BookEvent} :
    report ∈ gapReports earlier events ↔
      (report.2.kind = .delta ∧ report.2.number ≠ Sequence.next (lastNumber report.1)) ∧
        ∃ before after, events = before ++ report.2 :: after ∧ report.1 = earlier ++ before := by
  induction events generalizing earlier with
  | nil => simp [gapReports]
  | cons e rest ih =>
      rw [gapReports]
      constructor
      · intro h
        by_cases hgap : e.kind = .delta ∧ e.number ≠ Sequence.next (lastNumber earlier)
        · rw [if_pos hgap] at h
          rcases List.mem_cons.mp h with rfl | h
          · exact ⟨hgap, [], rest, rfl, (List.append_nil _).symm⟩
          · obtain ⟨hreport, before, after, rfl, hbefore⟩ := ih.mp h
            exact ⟨hreport, e :: before, after, rfl, by simpa using hbefore⟩
        · rw [if_neg hgap] at h
          obtain ⟨hreport, before, after, rfl, hbefore⟩ := ih.mp h
          exact ⟨hreport, e :: before, after, rfl, by simpa using hbefore⟩
      · rintro ⟨hreport, before, after, hsplit, hbefore⟩
        cases before with
        | nil =>
            obtain ⟨rfl, rfl⟩ := List.cons.inj hsplit
            have hearlier : report.1 = earlier := by simpa using hbefore
            rw [hearlier] at hreport
            rw [if_pos hreport, ← hearlier]
            exact List.mem_cons_self
        | cons b before =>
            obtain ⟨rfl, rfl⟩ := List.cons.inj hsplit
            have hlater : report ∈ gapReports (earlier ++ [e]) (before ++ report.2 :: after) :=
              ih.mpr ⟨hreport, before, after, rfl, by simpa using hbefore⟩
            split
            · exact List.mem_cons_of_mem _ hlater
            · exact hlater

/-- The reports of an event and those of the rest. -/
theorem gapReports_cons (e : BookEvent) (rest : List BookEvent) :
    gapReports earlier (e :: rest) =
      gapReports earlier [e] ++ gapReports (earlier ++ [e]) rest := by
  simp only [gapReports]
  split <;> rfl

/-- Snapshot events are never reported. -/
theorem gapReports_append_of_snapshots {run : List BookEvent}
    (hrun : ∀ e ∈ run, e.kind = .snapshot) :
    gapReports earlier (run ++ events) = gapReports (earlier ++ run) events := by
  induction run generalizing earlier with
  | nil => simp
  | cons e run ih =>
      have hk := hrun e List.mem_cons_self
      rw [List.cons_append, gapReports, if_neg (by simp [hk]),
        ih fun d hd => hrun d (List.mem_cons_of_mem _ hd), List.append_assoc, List.singleton_append]

end Reports

section Loop

variable {assetId : AssetId} {target fuel : Nat} {mode : ReplayMode}

/-- Replay stops at a level change that the book refuses. -/
theorem replayReached_delta_refused {e : BookEvent} {rest : List BookEvent} {book : L2Book}
    (hdue : eventOrderingTs mode e ≤ target) (hk : e.kind = .delta) {error : BookError}
    (htake : book.tryApplyDelta e.side e.price e.size e.number (eventOrderingTs mode e) =
      .error error) :
    replayReached target mode (fuel + 1) (e :: rest) book = [e] := by
  rw [BookEvent.number] at htake
  simp only [replayReached, Nat.not_lt.mpr hdue, if_false, hk, htake]

/-- Replay goes on behind a level change that the book takes. -/
theorem replayReached_delta_taken {e : BookEvent} {rest : List BookEvent} {book next : L2Book}
    (hdue : eventOrderingTs mode e ≤ target) (hk : e.kind = .delta)
    (htake : book.tryApplyDelta e.side e.price e.size e.number (eventOrderingTs mode e) =
      .ok next) :
    replayReached target mode (fuel + 1) (e :: rest) book =
      e :: replayReached target mode fuel rest next := by
  rw [BookEvent.number] at htake
  simp only [replayReached, Nat.not_lt.mpr hdue, if_false, hk, htake]

/-- What replay reaches is a front of the events. -/
theorem replayReached_isPrefix (fuel : Nat) (events : List BookEvent) (book : L2Book) :
    replayReached target mode fuel events book <+: events := by
  induction fuel generalizing events book with
  | zero => exact List.nil_prefix
  | succ fuel ih =>
      cases events with
      | nil => exact List.nil_prefix
      | cons e rest =>
          simp only [replayReached]
          split
          · exact List.nil_prefix
          · cases hk : e.kind with
            | snapshot =>
                dsimp only
                split
                · exact snapshotRun_isPrefix mode _ _
                · rename_i taken _
                  have hrun := (List.prefix_append_right_inj
                    (snapshotRun mode (eventOrderingTs mode e) (e :: rest))).mpr
                      (ih ((e :: rest).drop
                        (snapshotRun mode (eventOrderingTs mode e) (e :: rest)).length) taken)
                  rwa [run_append_rest] at hrun
            | delta =>
                dsimp only
                split
                · exact (List.prefix_cons_inj e).mpr List.nil_prefix
                · exact (List.prefix_cons_inj e).mpr (ih _ _)

/-- A snapshot puts the book at the number of its last event. -/
theorem applySnapshotEvents_number {book next : L2Book} {run : List BookEvent} {time : Nat}
    (h : book.applySnapshotEvents run time = .ok next) (hrun : run ≠ [])
    (earlier : List BookEvent) :
    next.sequence = lastNumber (earlier ++ run) ∧ next.seqInitialized = true := by
  obtain ⟨hsequence, hinit⟩ := L2Book.tryApplySnapshot_sequence h
  refine ⟨?_, hinit⟩
  rw [hsequence, lastNumber, List.getLast?_append_of_ne_nil _ hrun,
    List.getLast?_eq_some_getLast hrun]
  rfl

/-- **The gaps that the loop reports** on top of a checkpoint and some events. -/
theorem replayLoop_reports {earlier events : List BookEvent} {book next : L2Book}
    (hnumber : book.sequence = lastNumber earlier) (hinit : book.seqInitialized = true)
    {marks found : List IngestEvent}
    (h : replayLoop assetId target mode fuel events book marks = .ok (next, found)) :
    ∃ later, found = marks ++ later ∧ reportedGaps later =
      quotedReports (gapReports earlier (replayReached target mode fuel events book)) := by
  induction fuel generalizing events book marks earlier with
  | zero =>
      cases h
      exact ⟨[], (List.append_nil _).symm, rfl⟩
  | succ fuel ih =>
      cases events with
      | nil =>
          cases h
          exact ⟨[], (List.append_nil _).symm, rfl⟩
      | cons e rest =>
          by_cases hdue : eventOrderingTs mode e ≤ target
          · have hnot : ¬ target < eventOrderingTs mode e := by omega
            cases hk : e.kind with
            | snapshot =>
                simp only [replayLoop, replayReached, if_neg hnot, hk] at h ⊢
                cases happly : book.applySnapshotEvents
                    (snapshotRun mode (eventOrderingTs mode e) (e :: rest))
                    (eventOrderingTs mode e) with
                | error err =>
                    rw [happly] at h
                    cases h
                | ok taken =>
                    rw [happly] at h
                    have hrun : snapshotRun mode (eventOrderingTs mode e) (e :: rest) ≠ [] := by
                      rw [snapshotRun_cons mode hk]
                      exact List.cons_ne_nil _ _
                    obtain ⟨hnumber', hinit'⟩ := applySnapshotEvents_number happly hrun earlier
                    obtain ⟨later, hfound, hgaps⟩ := ih hnumber' hinit' h
                    refine ⟨later, hfound, ?_⟩
                    rw [hgaps, gapReports_append_of_snapshots fun d hd =>
                      (mem_snapshotRun mode hd).1]
            | delta =>
                have hmarks : reportedGaps (gapMarks assetId book e) =
                    quotedReports (gapReports earlier [e]) := by
                  rw [reportedGaps_gapMarks assetId hinit, gapReports, hnumber]
                  by_cases hfit : e.number = Sequence.next (lastNumber earlier)
                  · rw [if_pos hfit, if_neg fun hgap => hgap.2 hfit]
                    rfl
                  · rw [if_neg hfit, if_pos ⟨hk, hfit⟩]
                    rfl
                cases htake : book.tryApplyDelta e.side e.price e.size e.number
                    (eventOrderingTs mode e) with
                | error error =>
                    rw [replayLoop_delta_refused assetId hdue hk htake] at h
                    have hfound := congrArg Prod.snd (Except.ok.inj h)
                    refine ⟨gapMarks assetId book e ++ [deltaRejectedEvent assetId e error],
                      hfound.symm.trans (List.append_assoc _ _ _), ?_⟩
                    rw [reportedGaps_append, hmarks, replayReached_delta_refused hdue hk htake]
                    exact List.append_nil _
                | ok taken =>
                    rw [replayLoop_delta_taken assetId hdue hk htake] at h
                    obtain ⟨hnumber', hinit'⟩ := L2Book.tryApplyDelta_sequence htake
                    obtain ⟨later, hfound, hgaps⟩ :=
                      ih (hnumber'.trans (lastNumber_concat earlier e).symm) hinit' h
                    refine ⟨gapMarks assetId book e ++ later, ?_, ?_⟩
                    · rw [hfound, List.append_assoc]
                    · rw [reportedGaps_append, hmarks, hgaps,
                        replayReached_delta_taken hdue hk htake,
                        gapReports_cons e (replayReached _ _ _ _ _), quotedReports, quotedReports,
                        quotedReports, List.map_append]
          · have hlt : target < eventOrderingTs mode e := by omega
            simp only [replayLoop, replayReached, if_pos hlt] at h ⊢
            cases h
            exact ⟨[], (List.append_nil _).symm, rfl⟩

end Loop

section Claim

variable (feed : GapFreeFeed) (window : MarketDataWindow)

/-- Every gap reported along the replayed events is at a level change that is not the
first one on top of the checkpoint, and one before it is missing. -/
def OnlyRealGaps (replayed : List BookEvent) : Prop :=
  ∀ report ∈ gapReports [] replayed, (∃ e ∈ report.1, e.kind = .delta) ∧
    ∃ p, report.1.getLast? = some p ∧ feed.LostBetween window p report.2

/-- The first level change on top of the checkpoint numbers on from the snapshot events
before it, from zero where there are none. -/
def FirstFits (replayed : List BookEvent) : Prop :=
  ∀ snapshots d after, replayed = snapshots ++ d :: after → (∀ s ∈ snapshots, s.kind = .snapshot) →
    d.kind = .delta → d.number = Sequence.next (lastNumber snapshots)

/-- A later level change that replay puts behind an event it does not follow numbers on
from it, or one between them is missing. -/
def LaterFit (replayed : List BookEvent) : Prop :=
  ∀ before p d after, replayed = before ++ p :: d :: after → d.kind = .delta →
    (∃ e ∈ before ++ [p], e.kind = .delta) → ¬ feed.Follows window p d →
      d.number = Sequence.next p.number ∨ feed.LostBetween window p d

variable {feed window}

/-- A level change that follows numbers on, unless one is missing. -/
theorem GapFreeFeed.Follows.number_or_lost {p d : BookEvent} (h : feed.Follows window p d)
    (hk : d.kind = .delta) :
    d.number = Sequence.next p.number ∨ feed.LostBetween window p d := by
  obtain ⟨front, between, back, hsplit, hbetween⟩ := h
  cases between with
  | nil =>
      left
      have hchain := feed.numbered
      rw [hsplit, List.isChain_append, List.nil_append, List.isChain_cons_cons] at hchain
      exact hchain.2.1.1 hk
  | cons b between =>
      right
      exact ⟨front, b :: between, back, hsplit, b, List.mem_cons_self,
        hbetween b List.mem_cons_self⟩

/-- Every report is of a real gap when the first numbers fit and the later ones do. -/
theorem onlyRealGaps_iff {replayed : List BookEvent} : OnlyRealGaps feed window replayed ↔
    FirstFits replayed ∧ LaterFit feed window replayed := by
  constructor
  · intro h
    constructor
    · intro snapshots d after hsplit hsnapshots hk
      by_contra hnumber
      have hreport : (snapshots, d) ∈ gapReports [] replayed :=
        mem_gapReports.mpr ⟨⟨hk, hnumber⟩, snapshots, after, hsplit, rfl⟩
      obtain ⟨⟨e, he, hdelta⟩, -⟩ := h _ hreport
      rw [hsnapshots e he] at hdelta
      cases hdelta
    · intro before p d after hsplit hk _ _
      by_cases hnumber : d.number = Sequence.next p.number
      · exact .inl hnumber
      · right
        have hreport : (before ++ [p], d) ∈ gapReports [] replayed := by
          refine mem_gapReports.mpr ⟨⟨hk, ?_⟩, before ++ [p], after, ?_, rfl⟩
          · rwa [lastNumber_concat]
          · rw [hsplit, List.append_assoc, List.singleton_append]
        obtain ⟨-, q, hq, hlost⟩ := h _ hreport
        obtain rfl : p = q := by simpa using hq
        exact hlost
  · rintro ⟨hfirst, hlater⟩ ⟨before, d⟩ hreport
    obtain ⟨⟨hk, hnumber⟩, _, after, hsplit, rfl⟩ := mem_gapReports.mp hreport
    dsimp only at hk hnumber hsplit ⊢
    have hdelta : ∃ e ∈ before, e.kind = .delta := by
      by_contra hnone
      push Not at hnone
      refine hnumber (hfirst before d after hsplit ?_ hk)
      intro s hs
      cases hs' : s.kind with
      | snapshot => rfl
      | delta => exact absurd hs' (hnone s hs)
    refine ⟨hdelta, ?_⟩
    rcases List.eq_nil_or_concat' before with rfl | ⟨front, p, rfl⟩
    · obtain ⟨e, he, -⟩ := hdelta
      cases he
    · rw [lastNumber_concat] at hnumber
      refine ⟨p, by simp, ?_⟩
      have hsplit' : replayed = front ++ p :: d :: after := by
        rw [hsplit, List.append_assoc, List.singleton_append]
      by_cases hfollows : feed.Follows window p d
      · exact (hfollows.number_or_lost hk).resolve_left hnumber
      · exact (hlater front p d after hsplit' hk hdelta hfollows).resolve_left hnumber

/-- Where only level changes are lost and replay keeps the order of arrival, every event
replayed follows the one before it. -/
theorem laterFit_of_sublist {replayed : List BookEvent} {mode : ReplayMode}
    (hreplayed : replayed <:+: sortBookEvents mode window.bookEvents)
    (horder : (sortBookEvents mode window.bookEvents).Sublist feed.events)
    (hsnapshots : ∀ e ∈ feed.events, e.kind = .snapshot → e ∈ window.bookEvents) :
    LaterFit feed window replayed := by
  intro before p d after hsplit _ _ hnot
  obtain ⟨front, back, hwithin⟩ := hreplayed
  have hnext : sortBookEvents mode window.bookEvents =
      (front ++ before) ++ p :: d :: (after ++ back) := by
    rw [← hwithin, hsplit]
    simp
  obtain ⟨xs, between, ys, hfeed, hbetween⟩ :=
    Sorting.exists_between_of_sublist horder feed.distinct hnext
  refine absurd ⟨xs, between, ys, hfeed, ?_⟩ hnot
  intro b hb
  have hmissing : b ∉ window.bookEvents := fun hmem =>
    hbetween b hb ((mem_sortBookEvents mode).mpr hmem)
  have hmem : b ∈ feed.events := by
    rw [hfeed]
    simp [hb]
  cases hk : b.kind with
  | snapshot => exact absurd (hsnapshots b hmem hk) hmissing
  | delta => exact ⟨rfl, hmissing⟩

end Claim

section Checkpoint

variable {feed : GapFreeFeed} {window : MarketDataWindow} {a : AssetId} {target : Nat}
  {mode : ReplayMode} {checkpoint : BookCheckpoint}

/-- On top of a checkpoint the replay starts at number zero. -/
theorem GapFreeFeed.Window.replay_eq (hwindow : feed.Window window) {r : Reconstruction}
    (hr : reconstructBook a target mode (some checkpoint) window = .ok r) :
    reachedEvents target mode a (some checkpoint) window <:+:
        sortBookEvents mode window.bookEvents ∧
      reportedGaps r.continuityEvents =
        quotedReports (gapReports [] (reachedEvents target mode a (some checkpoint) window)) := by
  have hboundary : latestResetBoundaryUs window.ingestEvents target = none :=
    latestResetBoundaryUs_eq_none (fun e he => (hwindow.quiet e he).1) target
  have hsurviving : survivingCheckpoint none (some checkpoint) = some checkpoint := rfl
  have hown : reportedGaps
      (sortByKey (fun event => event.provenance.recvTimestampUs) window.ingestEvents) = [] := by
    rw [reportedGaps, List.filter_eq_nil_iff.mpr, List.map_nil]
    intro e he
    rw [sortByKey, List.mem_insertionSort] at he
    simpa using (hwindow.quiet e he).2
  rw [reconstructBook_eq, hboundary, hsurviving] at hr
  simp only [reachedEvents, hboundary, hsurviving]
  simp only [replaySeed, seedFromCheckpoint] at hr ⊢
  cases happly : (L2Book.new a).applyReplayCheckpoint checkpoint mode with
  | error err =>
      rw [happly] at hr
      cases hr
  | ok book =>
      rw [happly] at hr
      simp only [Except.bind, List.nil_append] at hr ⊢
      obtain ⟨hnumber, hinit⟩ := L2Book.tryApplySnapshot_sequence happly
      refine ⟨(replayReached_isPrefix _ _ _).isInfix.trans (List.drop_suffix _ _).isInfix, ?_⟩
      cases hloop : replayLoop a target mode (sortBookEvents mode window.bookEvents).length
          ((sortBookEvents mode window.bookEvents).drop
            (((sortBookEvents mode window.bookEvents).findIdx? fun event =>
              decide (checkpointOrderingTs checkpoint mode < eventOrderingTs mode event)).getD
                (sortBookEvents mode window.bookEvents).length)) book
          (sortByKey (fun event => event.provenance.recvTimestampUs) window.ingestEvents) with
      | error err =>
          rw [hloop] at hr
          cases hr
      | ok result =>
          rw [hloop] at hr
          have hstart : book.sequence = lastNumber [] := hnumber
          obtain ⟨later, hfound, hgaps⟩ := replayLoop_reports hstart hinit hloop
          rw [← hgaps, ← Except.ok.inj hr, reportedGaps_loopResult, hfound, reportedGaps_append,
            hown, List.nil_append]

/-- **Which gaps are reported on top of a checkpoint.**  They stand for level changes
that are missing, none of them for the first one on top of the checkpoint, exactly where
that one numbers on from the snapshot events before it and where the numbers fit wherever
replay parts from the order of arrival.  While the two orders agree and only level changes
are lost, the first one alone decides. -/
theorem gaps_are_real_iff (hwindow : feed.Window window) {r : Reconstruction}
    (hr : reconstructBook a target mode (some checkpoint) window = .ok r) :
    reportedGaps r.continuityEvents =
        quotedReports (gapReports [] (reachedEvents target mode a (some checkpoint) window)) ∧
      (OnlyRealGaps feed window (reachedEvents target mode a (some checkpoint) window) ↔
        FirstFits (reachedEvents target mode a (some checkpoint) window) ∧
          LaterFit feed window (reachedEvents target mode a (some checkpoint) window)) ∧
      ((sortBookEvents mode window.bookEvents).Sublist feed.events →
        (∀ e ∈ feed.events, e.kind = .snapshot → e ∈ window.bookEvents) →
          (OnlyRealGaps feed window (reachedEvents target mode a (some checkpoint) window) ↔
            FirstFits (reachedEvents target mode a (some checkpoint) window))) := by
  obtain ⟨hwithin, hreported⟩ := hwindow.replay_eq hr
  refine ⟨hreported, onlyRealGaps_iff, ?_⟩
  intro horder hsnapshots
  rw [onlyRealGaps_iff]
  exact and_iff_left (laterFit_of_sublist hwithin horder hsnapshots)

end Checkpoint

/-! A snapshot and three level changes, numbered from zero. -/
namespace NumberedFeed

/-- The event with a sequence number. -/
def numbered (number : Nat) (event : BookEvent) : BookEvent :=
  { event with provenance := { event.provenance with sequence := some number } }

/-- The snapshot of the sample, number 0. -/
def snapshot : BookEvent := numbered 0 (Sample.level .snapshot "tok1" .bid 40 1 1000 "message")

/-- Level change number 1. -/
def first : BookEvent := numbered 1 (Sample.level .delta "tok1" .bid 41 1 1001 "second")

/-- Level change number 2. -/
def second : BookEvent := numbered 2 (Sample.level .delta "tok1" .bid 42 1 1002 "third")

/-- Level change number 3. -/
def third : BookEvent := numbered 3 (Sample.level .delta "tok1" .bid 43 1 1003 "fourth")

/-- The sample's events differ. -/
theorem distinct : [snapshot, first, second, third].Nodup := by decide

/-- The sample's level changes are numbered without a gap. -/
theorem numbers : [snapshot, first, second, third].IsChain fun p d =>
    d.kind = .delta → d.number = Sequence.next p.number := by decide

/-- The feed of the sample. -/
def feed : GapFreeFeed := ⟨[snapshot, first, second, third], distinct, numbers⟩

/-- Everything was stored. -/
def whole : MarketDataWindow := ⟨[snapshot, first, second, third], [], []⟩

/-- The second level change was lost. -/
def lossy : MarketDataWindow := ⟨[snapshot, first, third], [], []⟩

/-- The book of the feed at a time, as a checkpoint records it. -/
def checkpoint (time : Nat) (bids : List PriceLevel) : BookCheckpoint where
  assetId := "tok1"
  checkpointTimestampUs := time
  provenance := Sample.provenance time "checkpoint"
  bids := bids
  asks := []
  walOffset := none

/-- The checkpoint taken behind the first level change. -/
def afterFirst : BookCheckpoint :=
  checkpoint 1001 [⟨Sample.price 40, Sample.size 1⟩, ⟨Sample.price 41, Sample.size 1⟩]

/-- The checkpoint taken behind the snapshot. -/
def afterSnapshot : BookCheckpoint := checkpoint 1000 [⟨Sample.price 40, Sample.size 1⟩]

/-- The whole window is one of the feed. -/
theorem whole_window : feed.Window whole := ⟨List.Subperm.refl _, by decide⟩

/-- The window with the loss is one of the feed. -/
theorem lossy_window : feed.Window lossy :=
  ⟨((List.Sublist.refl [third]).cons second |>.cons_cons first |>.cons_cons snapshot).subperm,
    by decide⟩

/-- What replay reaches behind the checkpoint. -/
theorem reached_eq : reachedEvents 1003 .recvTime "tok1" (some afterFirst) whole =
    [second, third] := by decide +kernel

/-- What replay reports there. -/
theorem reported_eq : (reconstructBook "tok1" 1003 .recvTime (some afterFirst) whole).toOption.map
    (fun r => reportedGaps r.continuityEvents) = some [second.provenance.quoted] := by
  decide +kernel

/-- The window with the loss can be replayed. -/
theorem lossy_ok : (reconstructBook "tok1" 1003 .recvTime (some afterSnapshot)
    lossy).toOption.isSome = true := by
  decide +kernel

/-- The first number behind the checkpoint does not fit. -/
theorem not_firstFits : ¬ FirstFits [second, third] := by
  intro h
  have hnumber := h [] second [third] rfl (fun s hs => absurd hs List.not_mem_nil) rfl
  revert hnumber
  decide

end NumberedFeed

/-- Nothing is missing, and the first level change on top of the checkpoint is reported. -/
theorem second_delta_reported :
    NumberedFeed.whole.bookEvents = NumberedFeed.feed.events ∧
    NumberedFeed.feed.Window NumberedFeed.whole ∧
    (∃ r, reconstructBook "tok1" 1003 .recvTime (some NumberedFeed.afterFirst)
        NumberedFeed.whole = .ok r ∧
      reportedGaps r.continuityEvents = [NumberedFeed.second.provenance.quoted]) ∧
    ¬ OnlyRealGaps NumberedFeed.feed NumberedFeed.whole (reachedEvents 1003 .recvTime "tok1"
      (some NumberedFeed.afterFirst) NumberedFeed.whole) := by
  refine ⟨rfl, NumberedFeed.whole_window, ?_, ?_⟩
  · have hreported := NumberedFeed.reported_eq
    cases hr : reconstructBook "tok1" 1003 .recvTime (some NumberedFeed.afterFirst)
        NumberedFeed.whole with
    | error err =>
        rw [hr] at hreported
        cases hreported
    | ok r =>
        rw [hr] at hreported
        exact ⟨r, rfl, Option.some.inj hreported⟩
  · rw [NumberedFeed.reached_eq, onlyRealGaps_iff]
    intro h
    exact NumberedFeed.not_firstFits h.1

/-- A level change is missing between two on top of the checkpoint. -/
theorem lost_delta_reported :
    ∃ r, reconstructBook "tok1" 1003 .recvTime (some NumberedFeed.afterSnapshot)
        NumberedFeed.lossy = .ok r ∧
      (OnlyRealGaps NumberedFeed.feed NumberedFeed.lossy (reachedEvents 1003 .recvTime "tok1"
          (some NumberedFeed.afterSnapshot) NumberedFeed.lossy) ↔
        FirstFits (reachedEvents 1003 .recvTime "tok1" (some NumberedFeed.afterSnapshot)
            NumberedFeed.lossy) ∧
          LaterFit NumberedFeed.feed NumberedFeed.lossy (reachedEvents 1003 .recvTime "tok1"
            (some NumberedFeed.afterSnapshot) NumberedFeed.lossy)) := by
  have hok := NumberedFeed.lossy_ok
  cases hr : reconstructBook "tok1" 1003 .recvTime (some NumberedFeed.afterSnapshot)
      NumberedFeed.lossy with
  | error err =>
      rw [hr] at hok
      cases hok
  | ok r => exact ⟨r, rfl, (gaps_are_real_iff NumberedFeed.lossy_window hr).2.1⟩

end PolyBook
