import PolyBook.ReplayReset

/-!
# Sequence numbers

`check_sequence` reports a level change whose number is not the one after the book's.
Along level changes that are applied one after the other it therefore finds a gap exactly
when their numbers are not consecutive, up to the first one that the book refuses
(`firstGap_eq_none_iff`); the replay loop marks the same gaps (`replayLoop_gaps_iff`).
-/

namespace PolyBook

/-- The number of an event; a missing one counts as zero. -/
def BookEvent.number (event : BookEvent) : Nat := event.provenance.sequence.getD 0

/-- The events number on from `n`, one by one. -/
def Consecutive (n : Nat) (events : List BookEvent) : Prop :=
  (n :: events.map BookEvent.number).IsChain fun m k => k = Sequence.next m

@[simp] theorem consecutive_nil (n : Nat) : Consecutive n [] := List.isChain_singleton n

@[simp] theorem consecutive_cons {n : Nat} {e : BookEvent} {events : List BookEvent} :
    Consecutive n (e :: events) ↔ e.number = Sequence.next n ∧ Consecutive e.number events := by
  rw [Consecutive, List.map_cons, List.isChain_cons_cons, Consecutive]

theorem consecutive_append {n : Nat} {xs ys : List BookEvent} :
    Consecutive n (xs ++ ys) ↔
      Consecutive n xs ∧ Consecutive ((xs.map BookEvent.number).getLastD n) ys := by
  induction xs generalizing n with
  | nil => simp
  | cons x xs ih =>
      rw [List.cons_append, consecutive_cons, consecutive_cons, ih, List.map_cons,
        List.getLastD_cons, and_assoc]

/-- A provenance as a continuity event quotes it. -/
def EventProvenance.quoted (provenance : EventProvenance) : EventProvenance :=
  { provenance with ingestOrdinal := none }

/-- What the reported gaps quote. -/
def reportedGaps (events : List IngestEvent) : List EventProvenance :=
  (events.filter fun event => event.kind = .sequenceGap).map (·.provenance)

theorem reportedGaps_append (xs ys : List IngestEvent) :
    reportedGaps (xs ++ ys) = reportedGaps xs ++ reportedGaps ys := by
  simp [reportedGaps]

/-- The marker for a crossed book is no gap. -/
theorem reportedGaps_loopResult (assetId : AssetId) (used : Bool)
    (result : L2Book × List IngestEvent) :
    reportedGaps (loopResult assetId used result).continuityEvents = reportedGaps result.2 := by
  simp only [loopResult]
  split
  · rfl
  · rw [reportedGaps_append]
    simp [reportedGaps, crossedBookEvent]

theorem Sequence.next_ne (sequence : Nat) : sequence ≠ Sequence.next sequence := by
  unfold Sequence.next
  omega

section Walk

variable (mode : ReplayMode)

/-- The level changes up to the first one that the book refuses. -/
def fitting (book : L2Book) : List BookEvent → List BookEvent
  | [] => []
  | event :: rest =>
      event :: match book.tryApplyDelta event.side event.price event.size event.number
          (eventOrderingTs mode event) with
        | .error _ => []
        | .ok next => fitting next rest

/-- The first gap that `check_sequence` finds along level changes, until the book refuses
one. -/
def firstGap (book : L2Book) : List BookEvent → Option BookError
  | [] => none
  | event :: rest =>
      match book.checkSequence event.number with
      | .error gap => some gap
      | .ok _ =>
          match book.tryApplyDelta event.side event.price event.size event.number
              (eventOrderingTs mode event) with
          | .error _ => none
          | .ok next => firstGap next rest

/-- **Where the check finds nothing.** -/
theorem firstGap_eq_none_iff {book : L2Book} (h : book.seqInitialized = true)
    (events : List BookEvent) : firstGap mode book events = none ↔
      Consecutive book.sequence (fitting mode book events) := by
  induction events generalizing book with
  | nil => simp [firstGap, fitting]
  | cons e rest ih =>
      rw [firstGap, fitting, consecutive_cons, ← L2Book.checkSequence_eq_ok_iff h]
      cases hcheck : book.checkSequence e.number with
      | error gap => simp
      | ok found =>
          cases htake : book.tryApplyDelta e.side e.price e.size e.number
              (eventOrderingTs mode e) with
          | error err => simp
          | ok next =>
              obtain ⟨hnumber, hinit⟩ := L2Book.tryApplyDelta_sequence htake
              simp only [true_and]
              rw [ih hinit, hnumber]

end Walk

section Marks

variable {mode : ReplayMode} (assetId : AssetId) {target fuel : Nat} {e : BookEvent}
  {rest : List BookEvent} {book : L2Book}

/-- What the loop marks at a level change before the book takes or refuses it. -/
def gapMarks (book : L2Book) (event : BookEvent) : List IngestEvent :=
  match book.checkSequence event.number with
  | .error error => [sequenceGapEvent assetId event book error]
  | .ok _ => []

theorem reportedGaps_gapMarks (hinit : book.seqInitialized = true) :
    reportedGaps (gapMarks assetId book e) =
      if e.number = Sequence.next book.sequence then [] else [e.provenance.quoted] := by
  rw [gapMarks]
  cases hcheck : book.checkSequence e.number with
  | error error =>
      have hnot : ¬ e.number = Sequence.next book.sequence := by
        intro hnumber
        rw [← L2Book.checkSequence_eq_ok_iff hinit, hcheck] at hnumber
        cases hnumber
      rw [if_neg hnot]
      rfl
  | ok found =>
      rw [if_pos ((L2Book.checkSequence_eq_ok_iff hinit).mp hcheck)]
      rfl

theorem reportedGaps_gapMarks_eq_nil (hinit : book.seqInitialized = true) :
    reportedGaps (gapMarks assetId book e) = [] ↔ e.number = Sequence.next book.sequence := by
  rw [reportedGaps_gapMarks assetId hinit]
  split <;> simp [*]

theorem replayLoop_delta_refused (hdue : eventOrderingTs mode e ≤ target) (hk : e.kind = .delta)
    {error : BookError} (htake : book.tryApplyDelta e.side e.price e.size e.number
      (eventOrderingTs mode e) = .error error) (marks : List IngestEvent) :
    replayLoop assetId target mode (fuel + 1) (e :: rest) book marks =
      .ok (book, marks ++ gapMarks assetId book e ++ [deltaRejectedEvent assetId e error]) := by
  unfold gapMarks
  rw [BookEvent.number] at htake ⊢
  simp only [replayLoop, Nat.not_lt.mpr hdue, if_false, hk, htake]
  cases book.checkSequence (e.provenance.sequence.getD 0) with
  | error error => rfl
  | ok found => simp

theorem replayLoop_delta_taken (hdue : eventOrderingTs mode e ≤ target) (hk : e.kind = .delta)
    {next : L2Book} (htake : book.tryApplyDelta e.side e.price e.size e.number
      (eventOrderingTs mode e) = .ok next) (marks : List IngestEvent) :
    replayLoop assetId target mode (fuel + 1) (e :: rest) book marks =
      replayLoop assetId target mode fuel rest next (marks ++ gapMarks assetId book e) := by
  unfold gapMarks
  rw [BookEvent.number] at htake ⊢
  simp only [replayLoop, Nat.not_lt.mpr hdue, if_false, hk, htake]
  cases book.checkSequence (e.provenance.sequence.getD 0) with
  | error error => rfl
  | ok found => simp

/-- **The gaps that replay marks.** -/
theorem replayLoop_gaps_iff {events : List BookEvent} (hfuel : events.length ≤ fuel)
    (hkind : ∀ e ∈ events, e.kind = .delta) (hdue : ∀ e ∈ events, eventOrderingTs mode e ≤ target)
    (hinit : book.seqInitialized = true) (marks : List IngestEvent) :
    ∃ next later, replayLoop assetId target mode fuel events book marks =
        .ok (next, marks ++ later) ∧
      (reportedGaps later = [] ↔ Consecutive book.sequence (fitting mode book events)) := by
  induction events generalizing fuel book marks with
  | nil =>
      refine ⟨book, [], ?_, by simp [reportedGaps, fitting]⟩
      cases fuel <;> simp [replayLoop]
  | cons e rest ih =>
      cases fuel with
      | zero => simp at hfuel
      | succ fuel =>
          have htime := hdue e List.mem_cons_self
          have hk := hkind e List.mem_cons_self
          cases htake : book.tryApplyDelta e.side e.price e.size e.number
              (eventOrderingTs mode e) with
          | error error =>
              have hrefused : reportedGaps [deltaRejectedEvent assetId e error] = [] := by
                simp [reportedGaps, deltaRejectedEvent]
              refine ⟨book, gapMarks assetId book e ++ [deltaRejectedEvent assetId e error], ?_, ?_⟩
              · rw [replayLoop_delta_refused assetId htime hk htake, List.append_assoc]
              · rw [reportedGaps_append, hrefused, List.append_nil,
                  reportedGaps_gapMarks_eq_nil assetId hinit, fitting, htake, consecutive_cons]
                simp
          | ok mid =>
              obtain ⟨hnumber, hinit'⟩ := L2Book.tryApplyDelta_sequence htake
              obtain ⟨next, later, hrest, hgaps⟩ := ih (by simpa using hfuel)
                (fun d hd => hkind d (List.mem_cons_of_mem _ hd))
                (fun d hd => hdue d (List.mem_cons_of_mem _ hd)) hinit'
                (marks ++ gapMarks assetId book e)
              refine ⟨next, gapMarks assetId book e ++ later, ?_, ?_⟩
              · rw [replayLoop_delta_taken assetId htime hk htake, hrest, List.append_assoc]
              · rw [reportedGaps_append, List.append_eq_nil_iff,
                  reportedGaps_gapMarks_eq_nil assetId hinit, hgaps, hnumber, fitting, htake,
                  consecutive_cons]

end Marks

section Seeded

variable {a : AssetId} {target : Nat} {mode : ReplayMode} {events before after : List BookEvent}
  {s : BookEvent}

/-- **The gaps that a reconstruction reports** where level changes alone follow the group it
is seeded from. -/
theorem SeedSplit.gaps_iff
    (h : SeedSplit target mode none (sortBookEvents mode events) before s after)
    (hdeltas : ∀ e ∈ after, eventOrderingTs mode e ≤ target → e.kind = .delta) {seeded : L2Book}
    (hseeded : (L2Book.new a).applySnapshotEvents (snapshotGroupAt mode none
      (eventOrderingTs mode s) (sortBookEvents mode events)) (eventOrderingTs mode s) =
        .ok seeded) :
    ∃ r, reconstructBook a target mode none ⟨events, [], []⟩ = .ok r ∧
      (reportedGaps r.continuityEvents = [] ↔ Consecutive seeded.sequence
        (fitting mode seeded (after.filter fun e => eventOrderingTs mode e ≤ target))) := by
  have hafter : after <:+ sortBookEvents mode events :=
    ⟨before ++ [s], by rw [h.split, List.append_assoc, List.singleton_append]⟩
  have hdue : ∀ e ∈ after.filter (fun e => eventOrderingTs mode e ≤ target),
      e.kind = .delta ∧ eventOrderingTs mode e ≤ target := by
    intro e he
    obtain ⟨hmem, htime⟩ := List.mem_filter.mp he
    have htime : eventOrderingTs mode e ≤ target := by simpa using htime
    exact ⟨hdeltas e hmem htime, htime⟩
  obtain ⟨-, hinit⟩ := L2Book.tryApplySnapshot_sequence hseeded
  obtain ⟨next, later, hloop, hgaps⟩ := replayLoop_gaps_iff a
    ((List.length_filter_le _ _).trans hafter.length_le) (fun e he => (hdue e he).1)
    (fun e he => (hdue e he).2) hinit []
  refine ⟨loopResult a false (next, later), ?_, ?_⟩
  · rw [reconstructBook_eq]
    have hreset : latestResetBoundaryUs [] target = none := rfl
    have hnothing : sortByKey (fun event : IngestEvent => event.provenance.recvTimestampUs) [] =
        [] := rfl
    simp only [hreset, survivingCheckpoint, Option.filter_none, replaySeed, h.seedFromSnapshot_eq,
      hseeded, Except.bind, h.drop_eq, hnothing]
    rw [replayLoop_filter a target mode ((sortBookEvents_sorted mode events).sublist
      hafter.sublist) hafter.length_le hafter.length_le, hloop]
    rfl
  · rw [← hgaps, reportedGaps_loopResult]

end Seeded

end PolyBook
