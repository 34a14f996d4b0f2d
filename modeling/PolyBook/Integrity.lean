import PolyBook.GapCheck

/-!
# The integrity label

`build_integrity_summary` labels a window of stored market data from the ingest events in
it.  Whether book events are missing shows in their numbers, which it does not read.

`label_agrees_iff` says for which windows the label is right: for which the label `full`
means that `check_sequence` finds no gap, and for which a loss of level changes takes the
label away.
-/

namespace PolyBook

/-- A continuity event surfaced from the data layer. -/
structure ContinuityEvent where
  kind : String
  recvTimestampUs : Nat
  exchangeTimestampUs : Nat
  details : Option String
  deriving DecidableEq, Repr

/-- Data completeness assessment: `Full`, `Partial` or `Empty`. -/
inductive CompletenessLevel where
  | full
  | partly
  | empty
  deriving DecidableEq, Repr

/-- Data integrity summary for an asset over a time range. -/
structure IntegritySummary where
  assetId : String
  startUs : Nat
  endUs : Nat
  bookEventCount : Nat
  ingestEventCount : Nat
  reconnectCount : Nat
  gapCount : Nat
  staleSnapshotSkipCount : Nat
  validationCount : Nat
  validationMatchCount : Nat
  completeness : CompletenessLevel
  continuityEvents : List ContinuityEvent
  deriving DecidableEq, Repr

/-- `ingest_to_continuity`. -/
def ingestToContinuity (event : IngestEvent) : ContinuityEvent where
  kind := event.kind.display
  recvTimestampUs := event.provenance.recvTimestampUs
  exchangeTimestampUs := event.provenance.exchangeTimestampUs
  details := event.details

/-- The reconnect, gap and stale snapshot counters. -/
structure IngestCounts where
  reconnectCount : Nat
  gapCount : Nat
  staleSnapshotSkipCount : Nat
  deriving DecidableEq, Repr

/-- One turn of the counting loop. -/
def IngestCounts.count (counts : IngestCounts) (event : IngestEvent) : IngestCounts :=
  match event.kind with
  | .reconnectStart | .reconnectSuccess =>
      { counts with reconnectCount := counts.reconnectCount + 1 }
  | .sequenceGap | .sourceReset | .bookMismatch =>
      { counts with gapCount := counts.gapCount + 1 }
  | .staleSnapshotSkip =>
      { counts with staleSnapshotSkipCount := counts.staleSnapshotSkipCount + 1 }

/-- Build an `IntegritySummary` from a market data window and validations. -/
def buildIntegritySummary (assetId : AssetId) (startUs endUs : Nat) (window : MarketDataWindow)
    (validations : List ReplayValidation) : IntegritySummary :=
  let counts := window.ingestEvents.foldl IngestCounts.count ⟨0, 0, 0⟩
  let hasBoundaries := 0 < counts.reconnectCount || 0 < counts.gapCount
  { assetId := assetId
    startUs := startUs
    endUs := endUs
    bookEventCount := window.bookEvents.length
    ingestEventCount := window.ingestEvents.length
    reconnectCount := counts.reconnectCount
    gapCount := counts.gapCount
    staleSnapshotSkipCount := counts.staleSnapshotSkipCount
    validationCount := validations.length
    validationMatchCount := (validations.filter fun v => v.matched).length
    completeness :=
      if window.bookEvents.length = 0 then .empty
      else if hasBoundaries then .partly
      else .full
    continuityEvents := window.ingestEvents.map ingestToContinuity }

/-- The label of a window. -/
def MarketDataWindow.label (window : MarketDataWindow) : CompletenessLevel :=
  (buildIntegritySummary "" 0 0 window []).completeness

/-- A recorded reconnect, gap, reset or mismatch. -/
def MarketDataWindow.HasBoundary (window : MarketDataWindow) : Prop :=
  ∃ e ∈ window.ingestEvents, e.kind ≠ .staleSnapshotSkip

theorem IngestCounts.foldl_count (counts : IngestCounts) (events : List IngestEvent) :
    0 < (events.foldl IngestCounts.count counts).reconnectCount +
        (events.foldl IngestCounts.count counts).gapCount ↔
      0 < counts.reconnectCount + counts.gapCount ∨ ∃ e ∈ events, e.kind ≠ .staleSnapshotSkip := by
  induction events generalizing counts with
  | nil => simp
  | cons e rest ih =>
      rw [List.foldl_cons, ih]
      cases hk : e.kind <;> simp [count, hk, Nat.add_right_comm, ← Nat.add_assoc]

/-- **What the label reads.** -/
theorem label_eq_full_iff (window : MarketDataWindow) :
    window.label = .full ↔ window.bookEvents ≠ [] ∧ ¬ window.HasBoundary := by
  have hcounts := IngestCounts.foldl_count ⟨0, 0, 0⟩ window.ingestEvents
  simp only [Nat.lt_irrefl, false_or, Nat.add_zero] at hcounts
  rw [MarketDataWindow.HasBoundary, ← hcounts]
  simp only [MarketDataWindow.label, buildIntegritySummary, List.length_eq_zero_iff]
  by_cases hempty : window.bookEvents = []
  · simp [hempty]
  · simp [hempty]

/-! ## The label and replay -/

/-- A snapshot group of a window in the order of arrival, with level changes that follow
it. -/
structure GroupStretch (window : MarketDataWindow) where
  before : List BookEvent
  group : List BookEvent
  deltas : List BookEvent
  rest : List BookEvent
  time : Nat
  arrival : sortBookEvents .recvTime window.bookEvents = before ++ (group ++ (deltas ++ rest))
  nonempty : group ≠ []
  snapshots : ∀ e ∈ group, e.kind = .snapshot ∧ eventOrderingTs .recvTime e = time
  whole : ∀ e ∈ before.getLast?, ¬ (e.kind = .snapshot ∧ eventOrderingTs .recvTime e = time)
  changes : ∀ e ∈ deltas, e.kind = .delta

namespace GroupStretch

variable {window : MarketDataWindow} (stretch : GroupStretch window)

/-- The number of a group is that of its last record. -/
def number : Sequence :=
  (stretch.group.getLast?.bind fun event => event.provenance.sequence).getD 0

/-- No gap is found from the group on. -/
def GapFree : Prop :=
  ∀ assetId book, (L2Book.new assetId).applySnapshotEvents stretch.group stretch.time = .ok book →
    firstGap .recvTime book stretch.deltas = none

/-- The stored numbers go on from the group, as far as its book takes the level changes. -/
def NumberedOn : Prop :=
  ∀ assetId book, (L2Book.new assetId).applySnapshotEvents stretch.group stretch.time = .ok book →
    Consecutive stretch.number (fitting .recvTime book stretch.deltas)

theorem gapFree_iff_numberedOn : stretch.GapFree ↔ stretch.NumberedOn := by
  refine forall_congr' fun assetId => forall_congr' fun book => ?_
  constructor
  · intro h hbook
    obtain ⟨hnumber, hinit⟩ := L2Book.tryApplySnapshot_sequence hbook
    rw [number, ← hnumber, ← firstGap_eq_none_iff .recvTime hinit]
    exact h hbook
  · intro h hbook
    obtain ⟨hnumber, hinit⟩ := L2Book.tryApplySnapshot_sequence hbook
    rw [firstGap_eq_none_iff .recvTime hinit, hnumber]
    exact h hbook

end GroupStretch

namespace MarketDataWindow

/-- A window labelled `full` has no gap behind any of its snapshot groups. -/
def LabelAgrees (window : MarketDataWindow) : Prop :=
  window.label = .full → ∀ stretch : GroupStretch window, stretch.GapFree

/-- Some level changes of a list of events are missing. -/
def DeltasLost (stored kept : List BookEvent) : Prop :=
  kept.Sublist stored ∧ kept ≠ stored ∧
    kept.filter (fun e => e.kind = .snapshot) = stored.filter fun e => e.kind = .snapshot

/-- With level changes lost the window is not labelled `full`. -/
def LossShows (window : MarketDataWindow) : Prop :=
  ∀ kept, DeltasLost window.bookEvents kept → { window with bookEvents := kept }.label ≠ .full

theorem labelAgrees_iff (window : MarketDataWindow) :
    window.LabelAgrees ↔ window.bookEvents = [] ∨ window.HasBoundary ∨
      ∀ stretch : GroupStretch window, stretch.NumberedOn := by
  rw [LabelAgrees, label_eq_full_iff]
  constructor
  · intro h
    by_cases hempty : window.bookEvents = []
    · exact Or.inl hempty
    · by_cases hboundary : window.HasBoundary
      · exact Or.inr (Or.inl hboundary)
      · refine Or.inr (Or.inr fun stretch => ?_)
        exact stretch.gapFree_iff_numberedOn.mp (h ⟨hempty, hboundary⟩ stretch)
  · rintro (hempty | hboundary | hnumbered) ⟨hnonempty, hnone⟩ stretch
    · exact absurd hempty hnonempty
    · exact absurd hboundary hnone
    · exact stretch.gapFree_iff_numberedOn.mpr (hnumbered stretch)

theorem lossShows_iff (window : MarketDataWindow) :
    window.LossShows ↔ window.HasBoundary ∨ (∀ e ∈ window.bookEvents, e.kind = .snapshot) ∨
      window.bookEvents.length ≤ 1 := by
  constructor
  · intro h
    by_contra hnot
    rw [not_or, not_or] at hnot
    obtain ⟨hboundary, hdelta, hlength⟩ := hnot
    push Not at hdelta
    obtain ⟨d, hd, hk⟩ := hdelta
    obtain ⟨xs, ys, hsplit⟩ := List.append_of_mem hd
    refine h (xs ++ ys) ⟨?_, ?_, ?_⟩ ?_
    · rw [hsplit]
      exact (List.sublist_cons_self d ys).append_left xs
    · intro heq
      have hlengths := congrArg List.length heq
      rw [hsplit] at hlengths
      simp at hlengths
    · rw [hsplit, List.filter_append, List.filter_append, List.filter_cons]
      simp [hk]
    · refine (label_eq_full_iff _).mpr ⟨?_, hboundary⟩
      intro hnil
      rw [hsplit] at hlength
      simp only [List.append_eq_nil_iff] at hnil
      simp [hnil.1, hnil.2] at hlength
  · rintro h kept ⟨hsub, hne, hsnapshots⟩ hfull
    obtain ⟨hnonempty, hnone⟩ := (label_eq_full_iff _).mp hfull
    rcases h with hboundary | hall | hlength
    · exact hnone hboundary
    · have hkept : ∀ events : List BookEvent, (∀ e ∈ events, e.kind = .snapshot) →
          events.filter (fun e => e.kind = .snapshot) = events :=
        fun events hevents => List.filter_eq_self.mpr fun e he => decide_eq_true (hevents e he)
      rw [hkept kept fun e he => hall e (hsub.subset he), hkept _ hall] at hsnapshots
      exact hne hsnapshots
    · have hlt : kept.length < window.bookEvents.length :=
        Nat.lt_of_le_of_ne hsub.length_le fun heq => hne (hsub.eq_of_length heq)
      have hpos := List.length_pos_of_ne_nil hnonempty
      have hsame : ({ window with bookEvents := kept } : MarketDataWindow).bookEvents = kept := rfl
      rw [hsame] at hpos
      omega

end MarketDataWindow

/-- **The integrity label.**  It agrees with replay where a boundary is recorded or the
stored numbers go on; a loss of level changes takes it away where a boundary is recorded or
nothing but a loss of everything is possible. -/
theorem label_agrees_iff (window : MarketDataWindow) :
    (window.LabelAgrees ↔ window.bookEvents = [] ∨ window.HasBoundary ∨
      ∀ stretch : GroupStretch window, stretch.NumberedOn) ∧
    (window.LossShows ↔ window.HasBoundary ∨ (∀ e ∈ window.bookEvents, e.kind = .snapshot) ∨
      window.bookEvents.length ≤ 1) :=
  ⟨window.labelAgrees_iff, window.lossShows_iff⟩

/-! A stored delta lost between two others. -/
namespace LostDelta

/-- Records are numbered by their receive times. -/
def snapshot : BookEvent := Sample.level .snapshot "tok1" .bid 40 1 1000 "message"

/-- The level change of the sample that is lost. -/
def lost : BookEvent := Sample.level .delta "tok1" .bid 41 1 1001 "second"

/-- The level change of the sample behind it. -/
def delta : BookEvent := Sample.level .delta "tok1" .bid 42 1 1002 "third"

/-- Everything was stored. -/
def stored : MarketDataWindow := ⟨[snapshot, lost, delta], [], []⟩

/-- The lost level change is missing. -/
def kept : MarketDataWindow := ⟨[snapshot, delta], [], []⟩

theorem arrival : sortBookEvents .recvTime kept.bookEvents =
    [] ++ ([snapshot] ++ ([delta] ++ [])) := by decide +kernel

theorem snapshots : ∀ e ∈ [snapshot], e.kind = .snapshot ∧ eventOrderingTs .recvTime e = 1000 := by
  decide

theorem changes : ∀ e ∈ [delta], e.kind = .delta := by decide

/-- The stretch of the sample's window. -/
def stretch : GroupStretch kept where
  before := []
  group := [snapshot]
  deltas := [delta]
  rest := []
  time := 1000
  arrival := arrival
  nonempty := List.cons_ne_nil snapshot []
  snapshots := snapshots
  whole := fun _ h => absurd h (Option.not_mem_none _)
  changes := changes

theorem not_gapFree : ¬ stretch.GapFree := by
  intro h
  have hgap : ((L2Book.new "tok1").applySnapshotEvents [snapshot] 1000).toOption.map
      (fun book => (firstGap .recvTime book [delta]).isSome) = some true := by decide +kernel
  cases hbook : (L2Book.new "tok1").applySnapshotEvents [snapshot] 1000 with
  | error err =>
      rw [hbook] at hgap
      cases hgap
  | ok book =>
      have hfree : firstGap .recvTime book [delta] = none := h "tok1" book hbook
      rw [hbook] at hgap
      simp only [Except.toOption, Option.map_some, hfree] at hgap
      cases hgap

theorem deltasLost : MarketDataWindow.DeltasLost stored.bookEvents kept.bookEvents :=
  ⟨((List.Sublist.refl _).cons lost).cons_cons snapshot, by decide, by decide⟩

end LostDelta

/-- The window is labelled `full` after the loss as before, and a gap is found in it. -/
theorem full_label_after_loss :
    (¬ ∀ window : MarketDataWindow, window.LabelAgrees) ∧
      ¬ ∀ window : MarketDataWindow, window.LossShows := by
  have hfull : LostDelta.kept.label = .full := by decide
  constructor
  · intro hall
    exact LostDelta.not_gapFree (hall LostDelta.kept hfull LostDelta.stretch)
  · intro hall
    exact hall LostDelta.stored LostDelta.kept.bookEvents LostDelta.deltasLost hfull

end PolyBook
