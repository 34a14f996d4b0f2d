import PolyBook.Replay
import PolyBook.Capacity
import PolyBook.Library.Sorting
import Mathlib.Data.List.TakeWhile

/-!
# What the replay loop reads

The window of a reconstruction is sorted once, so the loop sees the events by
their time in the active clock, and what lies past the target plays no part
(`replayLoop_append`).  While the totals fit, the loop refuses nothing.
-/

namespace PolyBook

open Overwrite

/-- The ordinal as the replay comparator reads it. -/
def ordinalKey (event : BookEvent) : Nat := event.provenance.ingestOrdinal.getD u64Max

/-- The boundary admits what no admitted reset is later than. -/
theorem afterReset_latest_iff {events : List IngestEvent} {target t : Nat} :
    afterReset (latestResetBoundaryUs events target) t = true ↔
      ∀ e ∈ events, e.kind.isContinuityReset = true →
        e.provenance.recvTimestampUs ≤ target → e.provenance.recvTimestampUs ≤ t := by
  unfold afterReset latestResetBoundaryUs
  generalize hresets : (events.filter fun event => event.kind.isContinuityReset &&
    event.provenance.recvTimestampUs ≤ target).map
      (fun event => event.provenance.recvTimestampUs) = resets
  have hmem : ∀ r, r ∈ resets ↔ ∃ e ∈ events, e.kind.isContinuityReset = true ∧
      e.provenance.recvTimestampUs ≤ target ∧ e.provenance.recvTimestampUs = r := by
    intro r
    rw [← hresets]
    simp [and_assoc]
  cases hmax : resets.max? with
  | none =>
      rw [List.max?_eq_none_iff] at hmax
      simp only [Option.all_none, true_iff]
      intro e he hreset htarget
      have := (hmem _).mpr ⟨e, he, hreset, htarget, rfl⟩
      rw [hmax] at this
      cases this
  | some r =>
      simp only [Option.all_some, decide_eq_true_eq, List.max?_le_iff hmax]
      constructor
      · intro h e he hreset htarget
        exact h _ ((hmem _).mpr ⟨e, he, hreset, htarget, rfl⟩)
      · intro h q hq
        obtain ⟨e, he, hreset, htarget, rfl⟩ := (hmem q).mp hq
        exact h e he hreset htarget

/-- The order in which resets are listed does not matter. -/
theorem latestResetBoundaryUs_sortByKey (key : IngestEvent → Nat) (events : List IngestEvent)
    (target : Nat) :
    latestResetBoundaryUs (sortByKey key events) target = latestResetBoundaryUs events target := by
  refine Option.ext fun r => ?_
  simp only [latestResetBoundaryUs, List.max?_eq_some_iff, List.mem_map, List.mem_filter,
    sortByKey, List.mem_insertionSort]

theorem latestResetBoundaryUs_eq_none {events : List IngestEvent}
    (h : ∀ e ∈ events, e.kind.isContinuityReset = false) (target : Nat) :
    latestResetBoundaryUs events target = none := by
  have hnil : (events.filter fun event => event.kind.isContinuityReset &&
      event.provenance.recvTimestampUs ≤ target) = [] := by
    refine List.filter_eq_nil_iff.mpr ?_
    intro e he
    simp [h e he]
  rw [latestResetBoundaryUs, hnil]
  rfl

/-- Without a stored reset that concerns the asset the window has no boundary. -/
theorem marketDataWindow_boundary_eq_none {a : AssetId} {records : List PersistedRecord}
    (h : ∀ e, PersistedRecord.ingest e ∈ records → e.assetId.all (fun row => row = a) = true →
      e.kind.isContinuityReset = false) (start target : Nat) :
    latestResetBoundaryUs (marketDataWindow a start target records).ingestEvents target = none := by
  refine latestResetBoundaryUs_eq_none ?_ target
  intro e he
  simp only [marketDataWindow, List.mem_insertionSort, List.mem_filterMap] at he
  obtain ⟨x, hx, he⟩ := he
  cases x with
  | ingest e' =>
      simp only [extractIngestEvent, Option.ite_none_right_eq_some, Option.some.injEq] at he
      obtain ⟨⟨_, _, hasset⟩, rfl⟩ := he
      exact h e' hx hasset
  | _ => cases he

theorem rposition_append_cons {α : Type} {p : α → Bool} {xs ys : List α} {x : α}
    (hx : p x = true) (hys : ∀ y ∈ ys, p y = false) :
    rposition p (xs ++ x :: ys) = some xs.length := by
  have hnone : rposition p ys = none := by
    induction ys with
    | nil => rfl
    | cons y ys ih =>
        have htail := ih fun z hz => hys z (List.mem_cons_of_mem _ hz)
        simp [rposition, htail, hys y List.mem_cons_self]
  induction xs with
  | nil => simp [rposition, hnone, hx]
  | cons z xs ih => simp [rposition, ih]

/-- The last element of a list that passes. -/
theorem exists_last {α : Type} {p : α → Prop} {xs : List α} (h : ∃ x ∈ xs, p x) :
    ∃ before x after, xs = before ++ x :: after ∧ p x ∧ ∀ y ∈ after, ¬ p y := by
  induction xs with
  | nil =>
      obtain ⟨x, hx, _⟩ := h
      cases hx
  | cons y xs ih =>
      by_cases htail : ∃ x ∈ xs, p x
      · obtain ⟨before, x, after, rfl, hx, hafter⟩ := ih htail
        exact ⟨y :: before, x, after, rfl, hx, hafter⟩
      · obtain ⟨x, hx, hpx⟩ := h
        rcases List.mem_cons.mp hx with rfl | hx
        · exact ⟨[], x, xs, rfl, hpx, fun z hz hpz => htail ⟨z, hz, hpz⟩⟩
        · exact absurd ⟨x, hx, hpx⟩ htail

/-- Where `p` holds of nothing before the last element without `q`, all that comes
after an element with `p` has `q`. -/
theorem pairwise_of_not_parted {α : Type} {p q : α → Prop} {xs : List α}
    (h : ∀ front k run, xs = front ++ k :: run → ¬ q k → (∀ n ∈ run, q n) → ∀ m ∈ front, ¬ p m) :
    xs.Pairwise fun m n => p m → q n := by
  by_cases hother : ∃ n ∈ xs, ¬ q n
  · obtain ⟨front, k, run, rfl, hk, hrun⟩ := exists_last hother
    have hrun : ∀ n ∈ run, q n := fun n hn => not_not.mp (hrun n hn)
    have hfront := h front k run rfl hk hrun
    apply List.pairwise_append.mpr
    refine ⟨?_, List.pairwise_cons.mpr ⟨fun n hn _ => hrun n hn, ?_⟩, ?_⟩
    · exact List.Pairwise.imp_of_mem (fun hm _ _ hp => absurd hp (hfront _ hm))
        (List.pairwise_of_forall fun _ _ => trivial)
    · exact List.Pairwise.imp_of_mem (fun _ hn _ _ => hrun _ hn)
        (List.pairwise_of_forall fun _ _ => trivial)
    · intro m hm n _ hp
      exact absurd hp (hfront m hm)
  · push Not at hother
    exact List.Pairwise.imp_of_mem (fun _ hn _ _ => hother _ hn)
      (List.pairwise_of_forall fun _ _ => trivial)

theorem mem_eventLevels {side : Side} {events : List BookEvent} {l : FixedPrice × FixedSize}
    (h : l ∈ eventLevels side events) : ∃ e ∈ events, e.side = side ∧ l = (e.price, e.size) := by
  obtain ⟨e, he, rfl⟩ := List.mem_map.mp h
  obtain ⟨hmem, hside⟩ := List.mem_filter.mp he
  exact ⟨e, hmem, by simpa using hside, rfl⟩

namespace Capacity

/-- The sizes of the records are within the capacity. -/
def AdmitsEvents (c : Capacity) (events : List BookEvent) : Prop :=
  ∀ e ∈ events, e.size.raw ≤ c.cap e.side e.price.raw

theorem AdmitsEvents.admits {c : Capacity} {events : List BookEvent} (h : c.AdmitsEvents events)
    (side : Side) : c.Admits side (eventLevels side events) := by
  intro l hl
  obtain ⟨e, he, rfl, rfl⟩ := mem_eventLevels hl
  exact h e he

end Capacity

section Congruence

variable (assetId : AssetId) (target : Nat) (mode : ReplayMode)

theorem rposition_congr {α : Type} {p q : α → Bool} {xs : List α}
    (h : ∀ x ∈ xs, p x = q x) : rposition p xs = rposition q xs := by
  induction xs with
  | nil => rfl
  | cons x xs ih =>
      rw [rposition, rposition, ih fun y hy => h y (List.mem_cons_of_mem _ hy),
        h x List.mem_cons_self]

theorem rposition_eq_none_iff {α : Type} {p : α → Bool} {xs : List α} :
    rposition p xs = none ↔ ∀ x ∈ xs, p x = false := by
  induction xs with
  | nil => simp [rposition]
  | cons x xs ih =>
      rw [rposition]
      cases hrest : rposition p xs with
      | some n =>
          rw [hrest] at ih
          simp only [reduceCtorEq, false_iff] at ih ⊢
          exact fun h => ih fun y hy => h y (List.mem_cons_of_mem _ hy)
      | none =>
          have hall := ih.mp hrest
          cases hx : p x <;> simp [hx]
          exact hall

/-- Seeding reads the boundary only at the snapshot events. -/
theorem seedFromSnapshot_congr {boundary boundary' : Option Nat} {events : List BookEvent}
    (h : ∀ e ∈ events, e.kind = .snapshot →
      afterReset boundary e.provenance.recvTimestampUs =
        afterReset boundary' e.provenance.recvTimestampUs) (book : L2Book) :
    seedFromSnapshot assetId target mode boundary events book =
      seedFromSnapshot assetId target mode boundary' events book := by
  have hidx : latestSnapshotIdx target mode boundary events =
      latestSnapshotIdx target mode boundary' events := by
    refine rposition_congr ?_
    intro e he
    by_cases hk : e.kind = .snapshot
    · rw [h e he hk]
    · simp [hk]
  have hgroup : ∀ time, snapshotGroupAt mode boundary time events =
      snapshotGroupAt mode boundary' time events := by
    intro time
    refine List.filter_congr ?_
    intro e he
    by_cases hk : e.kind = .snapshot
    · rw [h e he hk]
    · simp [hk]
  simp only [seedFromSnapshot, hidx, hgroup]

/-- The continuity markers collected so far do not influence the book. -/
theorem replayLoop_book_congr (fuel : Nat) (events : List BookEvent) (book : L2Book)
    (marks marks' : List IngestEvent) :
    (replayLoop assetId target mode fuel events book marks).map Prod.fst =
      (replayLoop assetId target mode fuel events book marks').map Prod.fst := by
  induction fuel generalizing events book marks marks' with
  | zero => rfl
  | succ fuel ih =>
      cases events with
      | nil => rfl
      | cons e rest =>
          simp only [replayLoop]
          split
          · rfl
          · cases e.kind with
            | snapshot =>
                simp only
                split
                · rfl
                · exact ih _ _ _ _
            | delta =>
                simp only
                split
                · rfl
                · exact ih _ _ _ _

/-- Once seeded, a reconstruction does not lack a snapshot. -/
theorem replayLoop_ne_noSnapshotFound (fuel : Nat) (events : List BookEvent) (book : L2Book)
    (marks : List IngestEvent) (asset : String) (time : Nat) :
    replayLoop assetId target mode fuel events book marks ≠
      .error (.noSnapshotFound asset time) := by
  induction fuel generalizing events book marks with
  | zero =>
      intro h
      cases h
  | succ fuel ih =>
      cases events with
      | nil =>
          intro h
          cases h
      | cons e rest =>
          simp only [replayLoop]
          split
          · intro h
            cases h
          · cases e.kind with
            | snapshot =>
                simp only
                split
                · intro h
                  cases h
                · exact ih _ _ _
            | delta =>
                simp only
                split
                · intro h
                  cases h
                · exact ih _ _ _

/-- The seed of the book, from the checkpoint where there is one. -/
def replaySeed (boundary : Option Nat) (checkpoint : Option BookCheckpoint)
    (events : List BookEvent) : Except ReplayError (L2Book × Nat) :=
  match checkpoint with
  | some checkpoint => seedFromCheckpoint mode checkpoint events (L2Book.new assetId)
  | none => seedFromSnapshot assetId target mode boundary events (L2Book.new assetId)

/-- The checkpoint, unless a reset came after it. -/
def survivingCheckpoint (boundary : Option Nat) (checkpoint : Option BookCheckpoint) :
    Option BookCheckpoint :=
  checkpoint.filter fun checkpoint => afterReset boundary checkpoint.provenance.recvTimestampUs

/-- What a reconstruction returns, from where its loop ends. -/
def loopResult (usedCheckpoint : Bool) (result : L2Book × List IngestEvent) : Reconstruction where
  book := result.1
  continuityEvents := match result.1.checkIntegrity with
    | .ok _ => result.2
    | .error _ => result.2 ++ [crossedBookEvent assetId result.1]
  usedCheckpoint := usedCheckpoint

/-- A reconstruction is a seed and a loop. -/
theorem reconstructBook_eq (checkpoint : Option BookCheckpoint) (window : MarketDataWindow) :
    reconstructBook assetId target mode checkpoint window =
      (replaySeed assetId target mode (latestResetBoundaryUs window.ingestEvents target)
        (survivingCheckpoint (latestResetBoundaryUs window.ingestEvents target) checkpoint)
        (sortBookEvents mode window.bookEvents)).bind fun seed =>
      (replayLoop assetId target mode (sortBookEvents mode window.bookEvents).length
        ((sortBookEvents mode window.bookEvents).drop seed.2) seed.1
        (sortByKey (fun event => event.provenance.recvTimestampUs) window.ingestEvents)).map
          (loopResult assetId (survivingCheckpoint
            (latestResetBoundaryUs window.ingestEvents target) checkpoint).isSome) := by
  rw [← latestResetBoundaryUs_sortByKey (fun event => event.provenance.recvTimestampUs)]
  simp only [reconstructBook, replaySeed, survivingCheckpoint]
  generalize (checkpoint.filter fun checkpoint => afterReset
    (latestResetBoundaryUs (sortByKey (fun event => event.provenance.recvTimestampUs)
      window.ingestEvents) target) checkpoint.provenance.recvTimestampUs) = surviving
  split
  · rename_i err herr
    cases surviving <;> simp only at herr ⊢ <;> rw [herr] <;> rfl
  · rename_i book startIdx hseed
    have hseed' : (match surviving with
        | some checkpoint => seedFromCheckpoint mode checkpoint
            (sortBookEvents mode window.bookEvents) (L2Book.new assetId)
        | none => seedFromSnapshot assetId target mode
            (latestResetBoundaryUs (sortByKey (fun event => event.provenance.recvTimestampUs)
              window.ingestEvents) target)
            (sortBookEvents mode window.bookEvents) (L2Book.new assetId)) =
        .ok (book, startIdx) := by
      cases surviving <;> exact hseed
    rw [hseed']
    simp only [Except.bind]
    cases replayLoop assetId target mode (sortBookEvents mode window.bookEvents).length
        ((sortBookEvents mode window.bookEvents).drop startIdx) book
        (sortByKey (fun event => event.provenance.recvTimestampUs) window.ingestEvents) <;> rfl

/-- The rebuilt book, markers left out. -/
theorem reconstructBook_book (checkpoint : Option BookCheckpoint) (window : MarketDataWindow) :
    (reconstructBook assetId target mode checkpoint window).map (·.book) =
      (replaySeed assetId target mode (latestResetBoundaryUs window.ingestEvents target)
        (survivingCheckpoint (latestResetBoundaryUs window.ingestEvents target) checkpoint)
        (sortBookEvents mode window.bookEvents)).bind fun seed =>
      (replayLoop assetId target mode (sortBookEvents mode window.bookEvents).length
        ((sortBookEvents mode window.bookEvents).drop seed.2) seed.1 []).map Prod.fst := by
  rw [reconstructBook_eq]
  cases replaySeed assetId target mode (latestResetBoundaryUs window.ingestEvents target)
      (survivingCheckpoint (latestResetBoundaryUs window.ingestEvents target) checkpoint)
      (sortBookEvents mode window.bookEvents) with
  | error err => rfl
  | ok seed =>
      simp only [Except.bind]
      rw [replayLoop_book_congr assetId target mode _ _ _ []
        (sortByKey (fun event => event.provenance.recvTimestampUs) window.ingestEvents)]
      cases replayLoop assetId target mode (sortBookEvents mode window.bookEvents).length
          ((sortBookEvents mode window.bookEvents).drop seed.2) seed.1
          (sortByKey (fun event => event.provenance.recvTimestampUs) window.ingestEvents) <;> rfl

/-- A reconstruction reports a missing snapshot exactly when the boundary and
the target leave none. -/
theorem reconstructBook_eq_noSnapshotFound_iff (window : MarketDataWindow) :
    (reconstructBook assetId target mode none window).map (·.book) =
        .error (.noSnapshotFound assetId target) ↔
      ∀ e ∈ sortBookEvents mode window.bookEvents, e.kind = .snapshot →
        eventOrderingTs mode e ≤ target →
        afterReset (latestResetBoundaryUs window.ingestEvents target)
          e.provenance.recvTimestampUs = false := by
  rw [reconstructBook_book]
  simp only [survivingCheckpoint, Option.filter_none, replaySeed]
  generalize latestResetBoundaryUs window.ingestEvents target = boundary
  have hnone : latestSnapshotIdx target mode boundary (sortBookEvents mode window.bookEvents) =
      none ↔ ∀ e ∈ sortBookEvents mode window.bookEvents, e.kind = .snapshot →
        eventOrderingTs mode e ≤ target →
        afterReset boundary e.provenance.recvTimestampUs = false := by
    rw [latestSnapshotIdx, rposition_eq_none_iff]
    refine forall₂_congr fun e _ => ?_
    cases afterReset boundary e.provenance.recvTimestampUs <;> simp
  rw [← hnone]
  cases hidx : latestSnapshotIdx target mode boundary
      (sortBookEvents mode window.bookEvents) with
  | none => simp [seedFromSnapshot, hidx, Except.bind]
  | some n =>
      simp only [seedFromSnapshot, hidx, reduceCtorEq, iff_false]
      split
      · exact fun h => nomatch h
      · rename_i book _
        intro h
        simp only [Except.bind] at h
        cases hloop : replayLoop assetId target mode
            (sortBookEvents mode window.bookEvents).length
            ((sortBookEvents mode window.bookEvents).drop (n + 1)) book [] with
        | error err =>
            rw [hloop] at h
            refine replayLoop_ne_noSnapshotFound assetId target mode _ _ _ _ assetId target
              (hloop.trans ?_)
            exact congrArg Except.error (Except.error.inj h)
        | ok result =>
            rw [hloop] at h
            cases h

end Congruence

section Order

variable (mode : ReplayMode)

theorem times_of_bookEventLe {d e : BookEvent} (hle : bookEventLe mode d e) :
    eventOrderingTs mode d < eventOrderingTs mode e ∨
      eventOrderingTs mode d = eventOrderingTs mode e ∧
        d.provenance.recvTimestampUs ≤ e.provenance.recvTimestampUs := by
  simp only [bookEventLe, compareBookEvents, compareLex, compareOn,
    Ordering.isLE_then_iff_or, Nat.compare_eq_lt, Nat.compare_eq_eq] at hle
  cases mode with
  | recvTime =>
      simp only [orderingKeys, eventOrderingTs] at hle ⊢
      omega
  | exchangeTime =>
      simp only [orderingKeys, eventOrderingTs] at hle ⊢
      omega

/-- Sorted events come in the order of the active clock, and those of one time
in the order they were received. -/
theorem sortBookEvents_pairwise (events : List BookEvent) :
    (sortBookEvents mode events).Pairwise fun d e =>
      eventOrderingTs mode d < eventOrderingTs mode e ∨
        eventOrderingTs mode d = eventOrderingTs mode e ∧
          d.provenance.recvTimestampUs ≤ e.provenance.recvTimestampUs :=
  (List.pairwise_insertionSort (bookEventLe mode) events).imp fun hle =>
    times_of_bookEventLe mode hle

theorem sortBookEvents_sorted (events : List BookEvent) :
    (sortBookEvents mode events).Pairwise fun d e =>
      eventOrderingTs mode d ≤ eventOrderingTs mode e :=
  (sortBookEvents_pairwise mode events).imp fun h => by omega

theorem mem_sortBookEvents {events : List BookEvent} {e : BookEvent} :
    e ∈ sortBookEvents mode events ↔ e ∈ events := List.mem_insertionSort _

theorem sortBookEvents_filter (p : BookEvent → Bool) (events : List BookEvent) :
    sortBookEvents mode (events.filter p) = (sortBookEvents mode events).filter p :=
  (Sorting.filter_insertionSort (bookEventLe mode) p events).symm

/-- Clock times in order and an earlier ordinal put an event strictly before. -/
theorem compareBookEvents_lt {d e : BookEvent}
    (htime : eventOrderingTs mode d ≤ eventOrderingTs mode e)
    (hrecv : d.provenance.recvTimestampUs ≤ e.provenance.recvTimestampUs)
    (hordinal : ordinalKey d < ordinalKey e) : compareBookEvents mode d e = .lt := by
  have hprimary : (orderingKeys mode d).1 ≤ (orderingKeys mode e).1 := by
    cases mode <;> exact htime
  have hsecondary : (orderingKeys mode d).2 ≤ (orderingKeys mode e).2 := by
    cases mode
    · exact le_rfl
    · exact hrecv
  simp only [ordinalKey] at hordinal
  simp only [compareBookEvents, compareLex, compareOn, Ordering.then_eq_lt, Nat.compare_eq_lt,
    Nat.compare_eq_eq]
  omega

/-- **Sorting restores the order of arrival.**  Whatever order the window lists
the events in, there is one sorted order. -/
theorem sortBookEvents_eq_of_perm {events window : List BookEvent}
    (hlt : events.Pairwise fun d e => compareBookEvents mode d e = .lt)
    (hperm : window.Perm events) : sortBookEvents mode window = events := by
  have hdistinct : events.Pairwise fun d e =>
      compareBookEvents mode d e = .lt ∨ compareBookEvents mode e d = .lt :=
    hlt.imp fun h => Or.inl h
  have hswap : ∀ d e : BookEvent, compareBookEvents mode d e =
      (compareBookEvents mode e d).swap := fun d e => Std.OrientedCmp.eq_swap
  refine List.Perm.eq_of_pairwise ?_ (List.pairwise_insertionSort (bookEventLe mode) _)
    (hlt.imp fun h => ?_) ((List.perm_insertionSort _ _).trans hperm)
  · intro d e hd he hde hed
    by_contra hne
    have hd' : d ∈ events := hperm.mem_iff.mp ((List.mem_insertionSort _).mp hd)
    have : Std.Symm fun d e : BookEvent => compareBookEvents mode d e = .lt ∨
        compareBookEvents mode e d = .lt := ⟨fun _ _ h => h.symm⟩
    have hstrict := hdistinct.forall hd' he hne
    unfold bookEventLe at hde hed
    rw [hswap] at hde
    rcases hstrict with hstrict | hstrict
    · rw [hswap, hstrict] at hed
      cases hed
    · rw [hstrict] at hde
      cases hde
  · simp [bookEventLe, h]

end Order

/-- What the last element found says of the list. -/
theorem rposition_eq_some_iff {α : Type} {p : α → Bool} {xs : List α} {n : Nat} :
    rposition p xs = some n ↔ ∃ before x after, xs = before ++ x :: after ∧
      n = before.length ∧ p x = true ∧ ∀ y ∈ after, p y = false := by
  constructor
  · intro h
    have hsome : ∃ x ∈ xs, p x = true := by
      by_contra hnone
      push Not at hnone
      rw [rposition_eq_none_iff.mpr fun x hx => by simpa using hnone x hx] at h
      cases h
    obtain ⟨before, x, after, rfl, hx, hafter⟩ := exists_last (p := fun x => p x = true) hsome
    have hfalse : ∀ y ∈ after, p y = false := fun y hy => by simpa using hafter y hy
    rw [rposition_append_cons hx hfalse, Option.some.injEq] at h
    exact ⟨before, x, after, rfl, h.symm, hx, hfalse⟩
  · rintro ⟨before, x, after, rfl, rfl, hx, hafter⟩
    exact rposition_append_cons hx hafter

section Loop

variable (assetId : AssetId) (target : Nat) (mode : ReplayMode)

/-- The events of a run stand at the front. -/
theorem snapshotRun_isPrefix (time : Nat) (events : List BookEvent) :
    snapshotRun mode time events <+: events := List.takeWhile_prefix _

theorem mem_snapshotRun {time : Nat} {events : List BookEvent} {e : BookEvent}
    (h : e ∈ snapshotRun mode time events) :
    e.kind = .snapshot ∧ eventOrderingTs mode e = time := by
  have := List.mem_takeWhile_imp h
  simpa using this

/-- A snapshot starts a run. -/
theorem snapshotRun_cons {e : BookEvent} {rest : List BookEvent} (hk : e.kind = .snapshot) :
    snapshotRun mode (eventOrderingTs mode e) (e :: rest) =
      e :: snapshotRun mode (eventOrderingTs mode e) rest := by
  simp [snapshotRun, hk]

/-- What is left after a run is shorter. -/
theorem length_drop_snapshotRun {e : BookEvent} (hk : e.kind = .snapshot)
    (rest : List BookEvent) :
    ((e :: rest).drop (snapshotRun mode (eventOrderingTs mode e) (e :: rest)).length).length ≤
      rest.length := by
  rw [snapshotRun_cons mode hk, List.length_drop, List.length_cons, List.length_cons]
  omega

/-- What lies past the target stops a run. -/
theorem snapshotRun_append {time : Nat} {later : List BookEvent}
    (hlater : ∀ e ∈ later, target < eventOrderingTs mode e) (htime : time ≤ target)
    (earlier : List BookEvent) :
    snapshotRun mode time (earlier ++ later) = snapshotRun mode time earlier := by
  have hnone : snapshotRun mode time later = [] := by
    cases later with
    | nil => rfl
    | cons e rest =>
        have := hlater e List.mem_cons_self
        exact List.takeWhile_cons_of_neg (by simp; omega)
  rw [snapshotRun, List.takeWhile_append]
  split
  · rename_i hall
    have hlength : (snapshotRun mode time earlier).length = earlier.length := hall
    rw [show List.takeWhile _ later = [] from hnone, List.append_nil]
    exact ((snapshotRun_isPrefix mode time earlier).eq_of_length hlength).symm
  · rfl

/-- **Past the target.**  What lies past the target plays no part, and as many
turns as events are enough. -/
theorem replayLoop_append {fuel fuel' : Nat} {earlier later : List BookEvent}
    (hfuel : (earlier ++ later).length ≤ fuel) (hfuel' : earlier.length ≤ fuel')
    (hlater : ∀ e ∈ later, target < eventOrderingTs mode e) (book : L2Book)
    (marks : List IngestEvent) :
    replayLoop assetId target mode fuel (earlier ++ later) book marks =
      replayLoop assetId target mode fuel' earlier book marks := by
  induction fuel generalizing fuel' earlier book marks with
  | zero =>
      obtain ⟨rfl, rfl⟩ : earlier = [] ∧ later = [] := by simpa using hfuel
      cases fuel' <;> rfl
  | succ fuel ih =>
      cases earlier with
      | nil =>
          have hright : replayLoop assetId target mode fuel' [] book marks = .ok (book, marks) := by
            cases fuel' <;> rfl
          rw [hright, List.nil_append]
          cases later with
          | nil => rfl
          | cons e rest => simp only [replayLoop, hlater e List.mem_cons_self, if_true]
      | cons e rest =>
          cases fuel' with
          | zero => simp at hfuel'
          | succ fuel' =>
              simp only [List.cons_append, List.length_cons] at hfuel hfuel'
              simp only [List.cons_append, replayLoop]
              split
              · rfl
              · rename_i htime
                cases hk : e.kind with
                | snapshot =>
                    have hrun := snapshotRun_append target mode hlater (Nat.not_lt.mp htime)
                      (e :: rest)
                    have hshort := length_drop_snapshotRun mode hk rest
                    rw [List.cons_append] at hrun
                    simp only [hrun]
                    have hdrop : (e :: (rest ++ later)).drop (snapshotRun mode
                        (eventOrderingTs mode e) (e :: rest)).length =
                        (e :: rest).drop (snapshotRun mode
                          (eventOrderingTs mode e) (e :: rest)).length ++ later := by
                      rw [← List.cons_append, List.drop_append_of_le_length
                        (snapshotRun_isPrefix mode _ _).length_le]
                    split
                    · rfl
                    · rw [hdrop]
                      refine ih ?_ ?_ _ _
                      · simp only [List.length_append] at hfuel ⊢
                        omega
                      · omega
                | delta =>
                    simp only
                    split
                    · rfl
                    · exact ih (by omega) (by omega) _ _

/-- The loop reads the events up to the target only. -/
theorem replayLoop_filter {fuel fuel' : Nat} {events : List BookEvent}
    (hsorted : events.Pairwise fun d e => eventOrderingTs mode d ≤ eventOrderingTs mode e)
    (hfuel : events.length ≤ fuel) (hfuel' : events.length ≤ fuel') (book : L2Book)
    (marks : List IngestEvent) :
    replayLoop assetId target mode fuel events book marks =
      replayLoop assetId target mode fuel'
        (events.filter fun e => eventOrderingTs mode e ≤ target) book marks := by
  have hsplit := Sorting.filter_le_append_filter_lt target hsorted
  conv_lhs => rw [← hsplit]
  refine replayLoop_append assetId target mode ?_ ?_ ?_ book marks
  · rwa [hsplit]
  · exact (List.length_filter_le _ _).trans hfuel'
  · intro e he
    simpa using (List.mem_filter.mp he).2

variable {c : Capacity}

/-- A snapshot group within the capacity is taken. -/
theorem applySnapshotEvents_within {events : List BookEvent} (h : c.AdmitsEvents events)
    (book : L2Book) (time : Nat) :
    ∃ next, book.applySnapshotEvents events time = .ok next ∧ next.Within c ∧
      next.content = listedContent (eventLevels .bid events) (eventLevels .ask events) :=
  L2Book.tryApplySnapshot_within (h.admits .bid) (h.admits .ask) book _ time

/-- Level changes within the capacity are carried out one by one. -/
theorem replayLoop_deltas_within {fuel : Nat} {events : List BookEvent}
    (hfuel : events.length ≤ fuel) (hkind : ∀ e ∈ events, e.kind = .delta)
    (hdue : ∀ e ∈ events, eventOrderingTs mode e ≤ target) (hadmits : c.AdmitsEvents events)
    {book : L2Book} (hbook : book.Within c) (marks : List IngestEvent) :
    ∃ r, replayLoop assetId target mode fuel events book marks = .ok r ∧ r.1.Within c ∧
      r.1.content = writes book.content (events.map BookEvent.write) := by
  induction events generalizing fuel book marks with
  | nil => cases fuel <;> exact ⟨_, rfl, hbook, rfl⟩
  | cons e rest ih =>
      cases fuel with
      | zero => simp at hfuel
      | succ fuel =>
          obtain ⟨next, hnext, hwithin, hcontent⟩ := hbook.tryApplyDelta_within
            (hadmits e List.mem_cons_self) (e.provenance.sequence.getD 0) (eventOrderingTs mode e)
          have htime := hdue e List.mem_cons_self
          simp only [replayLoop, Nat.not_lt.mpr htime, if_false, hkind e List.mem_cons_self,
            hnext, List.map_cons, writes_cons]
          rw [← hcontent]
          exact ih (by simpa using hfuel) (fun d hd => hkind d (List.mem_cons_of_mem _ hd))
            (fun d hd => hdue d (List.mem_cons_of_mem _ hd))
            (fun d hd => hadmits d (List.mem_cons_of_mem _ hd)) hwithin _

/-- A run ends where something else stands. -/
theorem snapshotRun_append_of_head {time : Nat} {earlier later : List BookEvent}
    (hlater : ∀ e ∈ later.head?, ¬ (e.kind = .snapshot ∧ eventOrderingTs mode e = time)) :
    snapshotRun mode time (earlier ++ later) = snapshotRun mode time earlier := by
  have hnone : snapshotRun mode time later = [] := by
    cases later with
    | nil => rfl
    | cons e rest =>
        have := hlater e rfl
        exact List.takeWhile_cons_of_neg (by simpa using this)
  rw [snapshotRun, List.takeWhile_append]
  split
  · rename_i hall
    have hlength : (snapshotRun mode time earlier).length = earlier.length := hall
    rw [show List.takeWhile _ later = [] from hnone, List.append_nil]
    exact ((snapshotRun_isPrefix mode time earlier).eq_of_length hlength).symm
  · rfl

/-- A run does not reach into a later one of another time. -/
theorem snapshotRun_append_run {time : Nat} {x : BookEvent} {before later : List BookEvent}
    (hbefore : ∀ e ∈ (x :: before).getLast?,
      ¬ (e.kind = .snapshot ∧ eventOrderingTs mode e = time))
    (hlater : ∀ e ∈ later.head?, eventOrderingTs mode e = time) :
    snapshotRun mode (eventOrderingTs mode x) (x :: (before ++ later)) =
      snapshotRun mode (eventOrderingTs mode x) (x :: before) := by
  rw [← List.cons_append]
  by_cases hall : snapshotRun mode (eventOrderingTs mode x) (x :: before) = x :: before
  · refine snapshotRun_append_of_head mode ?_
    rintro e he ⟨_, htime⟩
    have hmem : (x :: before).getLast (List.cons_ne_nil x before) ∈
        snapshotRun mode (eventOrderingTs mode x) (x :: before) := by
      rw [hall]
      exact List.getLast_mem _
    obtain ⟨hkind, hlast⟩ := mem_snapshotRun mode hmem
    refine hbefore _ (List.getLast?_eq_some_getLast (List.cons_ne_nil x before)) ⟨hkind, ?_⟩
    rw [hlast, ← htime, hlater e he]
  · rw [snapshotRun, List.takeWhile_append, if_neg]
    · rfl
    · intro hlength
      exact hall ((snapshotRun_isPrefix mode _ _).eq_of_length hlength)

/-- A run of snapshot events, then level changes. -/
theorem replayLoop_run_front {fuel time : Nat} {run after : List BookEvent}
    (hfuel : (run ++ after).length ≤ fuel) (hne : run ≠ [])
    (hrun : ∀ e ∈ run, e.kind = .snapshot ∧ eventOrderingTs mode e = time)
    (hafter : ∀ e ∈ after, e.kind = .delta)
    (hdue : ∀ e ∈ run ++ after, eventOrderingTs mode e ≤ target)
    (hadmits : c.AdmitsEvents (run ++ after)) (book : L2Book) (marks : List IngestEvent) :
    ∃ r, replayLoop assetId target mode fuel (run ++ after) book marks = .ok r ∧
      r.1.Within c ∧ r.1.content =
        writes (listedContent (eventLevels .bid run) (eventLevels .ask run))
          (after.map BookEvent.write) := by
  obtain ⟨g, rest, rfl⟩ := List.exists_cons_of_ne_nil hne
  obtain ⟨hk, htime⟩ := hrun g List.mem_cons_self
  have hdue_g := hdue g List.mem_cons_self
  have hruns : snapshotRun mode (eventOrderingTs mode g) (g :: (rest ++ after)) = g :: rest := by
    rw [← List.cons_append, snapshotRun_append_of_head]
    · refine List.takeWhile_eq_self_iff.mpr fun e he => ?_
      obtain ⟨hek, hetime⟩ := hrun e he
      simp [hek, hetime, htime]
    · intro e he
      rw [hafter e (List.mem_of_mem_head? he)]
      exact fun h => nomatch h.1
  obtain ⟨next, hnext, hwithin, hcontent⟩ := applySnapshotEvents_within
    (show c.AdmitsEvents (g :: rest) from fun e he => hadmits e (List.mem_append_left _ he)) book
    (eventOrderingTs mode g)
  cases fuel with
  | zero => simp at hfuel
  | succ fuel =>
      rw [List.cons_append]
      simp only [replayLoop, Nat.not_lt.mpr hdue_g, if_false, hk, hruns, hnext]
      rw [← List.cons_append, List.drop_left, ← hcontent]
      refine replayLoop_deltas_within assetId target mode ?_ hafter ?_ ?_ hwithin marks
      · simp only [List.length_cons, List.length_append] at hfuel
        omega
      · exact fun e he => hdue e (List.mem_append_right (g :: rest) he)
      · exact fun e he => hadmits e (List.mem_append_right (g :: rest) he)

/-- **The last run decides.**  What the loop holds after a run of snapshot events
and the level changes that follow it does not depend on what came before, as
long as the run does not start earlier. -/
theorem replayLoop_run_within {fuel time : Nat} {before run after : List BookEvent}
    (hfuel : (before ++ (run ++ after)).length ≤ fuel) (hne : run ≠ [])
    (hrun : ∀ e ∈ run, e.kind = .snapshot ∧ eventOrderingTs mode e = time)
    (hbefore : ∀ e ∈ before.getLast?, ¬ (e.kind = .snapshot ∧ eventOrderingTs mode e = time))
    (hafter : ∀ e ∈ after, e.kind = .delta)
    (hdue : ∀ e ∈ before ++ (run ++ after), eventOrderingTs mode e ≤ target)
    (hadmits : c.AdmitsEvents (before ++ (run ++ after)))
    {book : L2Book} (hbook : book.Within c) (marks : List IngestEvent) :
    ∃ r, replayLoop assetId target mode fuel (before ++ (run ++ after)) book marks = .ok r ∧
      r.1.Within c ∧ r.1.content =
        writes (listedContent (eventLevels .bid run) (eventLevels .ask run))
          (after.map BookEvent.write) := by
  induction fuel generalizing before book marks with
  | zero =>
      obtain ⟨g, rest, rfl⟩ := List.exists_cons_of_ne_nil hne
      simp at hfuel
  | succ fuel ih =>
      cases before with
      | nil =>
          rw [List.nil_append] at hfuel hdue hadmits ⊢
          exact replayLoop_run_front assetId target mode hfuel hne hrun hafter hdue hadmits _ _
      | cons x before =>
          have hdue_x := hdue x List.mem_cons_self
          rw [List.cons_append] at hfuel hdue hadmits ⊢
          cases hk : x.kind with
          | delta =>
              obtain ⟨next, hnext, hwithin, _⟩ := hbook.tryApplyDelta_within
                (hadmits x List.mem_cons_self) (x.provenance.sequence.getD 0)
                (eventOrderingTs mode x)
              simp only [replayLoop, Nat.not_lt.mpr hdue_x, if_false, hk, hnext]
              refine ih (by simpa using hfuel) ?_
                (fun e he => hdue e (List.mem_cons_of_mem _ he))
                (fun e he => hadmits e (List.mem_cons_of_mem _ he)) hwithin _
              intro e he
              cases before with
              | nil => cases he
              | cons y before => exact hbefore e (by rwa [List.getLast?_cons_cons])
          | snapshot =>
              have hhead : ∀ e ∈ (run ++ after).head?, eventOrderingTs mode e = time := by
                intro e he
                obtain ⟨g, rest, rfl⟩ := List.exists_cons_of_ne_nil hne
                obtain rfl : g = e := by simpa using he
                exact (hrun g List.mem_cons_self).2
              have hruns := snapshotRun_append_run mode hbefore hhead
              have hpre := snapshotRun_isPrefix mode (eventOrderingTs mode x) (x :: before)
              have hshort := length_drop_snapshotRun mode hk before
              have hadmits_run : c.AdmitsEvents
                  (snapshotRun mode (eventOrderingTs mode x) (x :: before)) := by
                intro e he
                refine hadmits e ?_
                rw [← List.cons_append]
                exact List.mem_append_left _ (hpre.subset he)
              obtain ⟨next, hnext, hwithin, _⟩ := applySnapshotEvents_within hadmits_run book
                (eventOrderingTs mode x)
              simp only [replayLoop, Nat.not_lt.mpr hdue_x, if_false, hk, hruns, hnext]
              rw [← List.cons_append, List.drop_append_of_le_length hpre.length_le]
              have hsub : ((x :: before).drop (snapshotRun mode (eventOrderingTs mode x)
                  (x :: before)).length ++ (run ++ after)).Sublist
                  (x :: (before ++ (run ++ after))) := by
                rw [← List.cons_append]
                exact (List.drop_sublist _ _).append_right _
              refine ih ?_ ?_ (fun e he => hdue e (hsub.subset he))
                (fun e he => hadmits e (hsub.subset he)) hwithin marks
              · simp only [List.length_append, List.length_cons] at hfuel hshort ⊢
                omega
              · intro e he
                rw [List.getLast?_drop] at he
                split at he
                · cases he
                · exact hbefore e he

end Loop

end PolyBook
