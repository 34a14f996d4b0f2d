import PolyBook.ReplayLoop
import PolyBook.Dispatcher
import PolyBook.Library.Interleaving

/-!
# Resets of another feed

A feed's connection events carry no asset id, so the reader hands them to every
asset and the engine takes the latest source reset, of whatever feed, for a hard
boundary.  When two feeds overlap, a connection of the second one discards the
snapshots the first one has taken so far.

The reconstruction of an asset depends on the other feeds through that boundary
alone.  `reconstruct_eq_own` gives the condition under which it is not moved
past a snapshot of the asset, and `resets_harmless_of_reconstruct_eq` shows
that nothing weaker will do.
-/

namespace PolyBook

open Interleaving

variable {ι : Type} [DecidableEq ι] (i : ι) (a : AssetId)

/-- The receive time of a snapshot record of the asset. -/
def snapshotTime (a : AssetId) : PersistedRecord → Option Nat
  | .book e =>
      if e.kind = .snapshot ∧ e.assetId = a then some e.provenance.recvTimestampUs else none
  | _ => none

/-- The receive time of a continuity reset the reader hands to the asset. -/
def resetTime (a : AssetId) : PersistedRecord → Option Nat
  | .ingest e =>
      if e.kind.isContinuityReset = true ∧ e.assetId.all (fun row => row = a) then
        some e.provenance.recvTimestampUs
      else none
  | _ => none

/-- Merged records of several feeds, of which feed `i` alone sends records about
the asset. -/
structure FeedLog (ι : Type) [DecidableEq ι] (i : ι) (a : AssetId) where
  sent : List (ι × PersistedRecord)
  disjoint : ∀ x ∈ foreign i sent,
    (∀ e, x = .book e → e.assetId ≠ a) ∧ ∀ e, x = .ingest e → e.assetId ≠ some a

namespace FeedLog

variable {i a} (log : FeedLog ι i a)

/-- The records of the asset's own feed. -/
def ownRecords : List PersistedRecord := own i log.sent

/-- Receive times of the asset's snapshot records. -/
def snapshotTimes : List Nat := log.ownRecords.filterMap (snapshotTime a)

/-- Receive times of the asset's own feed's resets. -/
def ownResets : List Nat := log.ownRecords.filterMap (resetTime a)

/-- Receive times of the other feeds' resets. -/
def foreignResets : List Nat := (foreign i log.sent).filterMap (resetTime a)

/-- Every snapshot a foreign reset would discard is already behind a reset of
the asset's own feed. -/
def ResetsHarmless : Prop :=
  ∀ r ∈ log.foreignResets, ∀ s ∈ log.snapshotTimes, s < r →
    ∃ q ∈ log.ownResets, s < q ∧ q ≤ r

instance : Decidable log.ResetsHarmless := by
  unfold ResetsHarmless
  infer_instance

/-- The book rebuilt for the asset from some of the stored records. -/
def rebuilt (a : AssetId) (startUs targetUs : Nat) (mode : ReplayMode)
    (records : List PersistedRecord) : Except ReplayError L2Book :=
  (reconstructBook a targetUs mode none (marketDataWindow a startUs targetUs records)).map
    (·.book)

end FeedLog

section Window

variable {startUs targetUs : Nat} {records : List PersistedRecord}

/-- The boundary of a window admits what no reset in the window is later than. -/
theorem afterReset_window_iff {t : Nat} :
    afterReset (latestResetBoundaryUs (marketDataWindow a startUs targetUs records).ingestEvents
        targetUs) t = true ↔
      ∀ r ∈ records.filterMap (resetTime a), startUs ≤ r → r ≤ targetUs → r ≤ t := by
  rw [afterReset_latest_iff]
  simp only [marketDataWindow, List.mem_insertionSort, List.mem_filterMap]
  constructor
  · rintro h r ⟨x, hx, hr⟩ hstart htarget
    cases x with
    | ingest e =>
        simp only [resetTime, Option.ite_none_right_eq_some, Option.some.injEq] at hr
        obtain ⟨⟨hreset, hasset⟩, rfl⟩ := hr
        refine h { e with provenance := { e.provenance with ingestOrdinal := none } }
          ⟨.ingest e, hx, ?_⟩ hreset htarget
        simp [extractIngestEvent, hstart, htarget, hasset]
    | _ => cases hr
  · rintro h e ⟨x, hx, he⟩ hreset htarget
    cases x with
    | ingest e' =>
        simp only [extractIngestEvent, Option.ite_none_right_eq_some, Option.some.injEq] at he
        obtain ⟨⟨hstart, _, hasset⟩, rfl⟩ := he
        refine h _ ⟨.ingest e', hx, ?_⟩ hstart htarget
        simp only [resetTime]
        rw [if_pos ⟨hreset, hasset⟩]
    | _ => cases he

/-- A snapshot event of a window is a snapshot record of the asset. -/
theorem snapshotTime_mem {mode : ReplayMode} {e : BookEvent}
    (he : e ∈ sortBookEvents mode (marketDataWindow a startUs targetUs records).bookEvents)
    (hk : e.kind = .snapshot) :
    e.provenance.recvTimestampUs ∈ records.filterMap (snapshotTime a) ∧
      startUs ≤ e.provenance.recvTimestampUs ∧ e.provenance.recvTimestampUs ≤ targetUs := by
  simp only [sortBookEvents, marketDataWindow, List.mem_insertionSort, List.mem_filterMap] at he
  obtain ⟨x, hx, he⟩ := he
  cases x with
  | book e' =>
      simp only [extractBookEvent, Option.ite_none_right_eq_some, Option.some.injEq] at he
      obtain ⟨⟨hstart, htarget, hasset⟩, rfl⟩ := he
      refine ⟨List.mem_filterMap.mpr ⟨.book e', hx, ?_⟩, hstart, htarget⟩
      simp [snapshotTime, hk, hasset]
  | _ => cases he

end Window

namespace FeedLog

variable {i a} (log : FeedLog ι i a)

/-- The asset's book events are those of its own feed. -/
theorem bookEvents_merged (startUs targetUs : Nat) :
    (marketDataWindow a startUs targetUs (merged log.sent)).bookEvents =
      (marketDataWindow a startUs targetUs log.ownRecords).bookEvents := by
  have hfilter : (merged log.sent).filterMap (extractBookEvent a startUs targetUs) =
      log.ownRecords.filterMap (extractBookEvent a startUs targetUs) := by
    refine filterMap_merged i _ ?_
    intro x hx
    cases x with
    | book e => simp [extractBookEvent, (log.disjoint _ hx).1 e rfl]
    | _ => rfl
  simp only [marketDataWindow, hfilter]

theorem mem_resets_merged {r : Nat} :
    r ∈ (merged log.sent).filterMap (resetTime a) ↔ r ∈ log.ownResets ∨ r ∈ log.foreignResets := by
  simp only [ownResets, foreignResets, ownRecords, List.mem_filterMap, mem_merged_iff i]
  constructor
  · rintro ⟨x, hx | hx, hr⟩
    · exact Or.inl ⟨x, hx, hr⟩
    · exact Or.inr ⟨x, hx, hr⟩
  · rintro (⟨x, hx, hr⟩ | ⟨x, hx, hr⟩)
    · exact ⟨x, Or.inl hx, hr⟩
    · exact ⟨x, Or.inr hx, hr⟩

/-- A harmless foreign reset moves the boundary past no snapshot of the asset. -/
theorem afterReset_merged_eq (hharmless : log.ResetsHarmless) {startUs targetUs t : Nat}
    (ht : t ∈ log.snapshotTimes) (hstart : startUs ≤ t) :
    afterReset (latestResetBoundaryUs
        (marketDataWindow a startUs targetUs (merged log.sent)).ingestEvents targetUs) t =
      afterReset (latestResetBoundaryUs
        (marketDataWindow a startUs targetUs log.ownRecords).ingestEvents targetUs) t := by
  rw [Bool.eq_iff_iff, afterReset_window_iff, afterReset_window_iff]
  constructor
  · intro h r hr
    exact h r ((log.mem_resets_merged).mpr (Or.inl hr))
  · intro h r hr hr_start hr_target
    rcases log.mem_resets_merged.mp hr with hr | hr
    · exact h r hr hr_start hr_target
    · by_contra hlt
      obtain ⟨q, hq, htq, hqr⟩ := hharmless r hr t ht (by omega)
      have := h q hq (by omega) (by omega)
      omega

/-- **Harmless resets change nothing.** -/
theorem reconstruct_eq_own (hharmless : log.ResetsHarmless) (startUs targetUs : Nat)
    (mode : ReplayMode) :
    rebuilt a startUs targetUs mode (merged log.sent) =
      rebuilt a startUs targetUs mode log.ownRecords := by
  rw [rebuilt, rebuilt, reconstructBook_book, reconstructBook_book, log.bookEvents_merged]
  simp only [survivingCheckpoint, Option.filter_none, replaySeed]
  rw [seedFromSnapshot_congr]
  intro e he hk
  obtain ⟨htime, hstart, _⟩ := snapshotTime_mem a he hk
  exact log.afterReset_merged_eq hharmless htime hstart

/-- A foreign reset that would discard a snapshot is seen: at the reset's own
time the merged log has no snapshot left, while the asset's own feed has. -/
theorem resets_harmless_of_reconstruct_eq (hties : ∀ r ∈ log.foreignResets, r ∉ log.snapshotTimes)
    (heq : ∀ startUs targetUs, rebuilt a startUs targetUs .recvTime (merged log.sent) =
      rebuilt a startUs targetUs .recvTime log.ownRecords) : log.ResetsHarmless := by
  intro r hr s hs hsr
  by_contra hnone
  have hsame := heq 0 r
  have hmerged : rebuilt a 0 r .recvTime (merged log.sent) = .error (.noSnapshotFound a r) := by
    refine (reconstructBook_eq_noSnapshotFound_iff a r .recvTime _).mpr ?_
    intro e he hk htarget
    rw [log.bookEvents_merged] at he
    have htime := (snapshotTime_mem a he hk).1
    by_contra hafter
    have hle := (afterReset_window_iff a).mp (by simpa using hafter) r
      (log.mem_resets_merged.mpr (Or.inr hr)) (Nat.zero_le _) le_rfl
    have heq_r : e.provenance.recvTimestampUs = r := le_antisymm htarget hle
    exact hties r hr (heq_r ▸ htime)
  rw [hmerged] at hsame
  have hown := (reconstructBook_eq_noSnapshotFound_iff a r .recvTime _).mp hsame.symm
  obtain ⟨x, hx, hxs⟩ := List.mem_filterMap.mp hs
  cases x with
  | book e =>
      simp only [snapshotTime, Option.ite_none_right_eq_some, Option.some.injEq] at hxs
      obtain ⟨⟨hk, hasset⟩, rfl⟩ := hxs
      have hmem : e ∈ sortBookEvents .recvTime
          (marketDataWindow a 0 r log.ownRecords).bookEvents := by
        simp only [sortBookEvents, marketDataWindow, List.mem_insertionSort, List.mem_filterMap]
        refine ⟨.book e, hx, ?_⟩
        simp [extractBookEvent, hasset, hsr.le]
      have hbefore := hown e hmem hk hsr.le
      have hadmits : afterReset (latestResetBoundaryUs
          (marketDataWindow a 0 r log.ownRecords).ingestEvents r)
          e.provenance.recvTimestampUs = true := by
        refine (afterReset_window_iff a).mpr ?_
        intro q hq _ hqr
        by_contra hlt
        exact hnone ⟨q, hq, by omega, hqr⟩
      rw [hbefore] at hadmits
      cases hadmits
  | _ => cases hxs

/-- **A reset and its own feed.**  If every snapshot a foreign reset would
discard is already behind a reset of the asset's own feed, the merged log
rebuilds the asset as its own feed's records do, at every target and in both
modes.  Unless a snapshot is received in the very microsecond of a foreign
reset, nothing weaker is enough. -/
theorem reconstruct_eq_own_iff_resets_harmless :
    (log.ResetsHarmless → ∀ startUs targetUs mode,
      rebuilt a startUs targetUs mode (merged log.sent) =
        rebuilt a startUs targetUs mode log.ownRecords) ∧
    ((∀ r ∈ log.foreignResets, r ∉ log.snapshotTimes) →
      (∀ startUs targetUs mode, rebuilt a startUs targetUs mode (merged log.sent) =
        rebuilt a startUs targetUs mode log.ownRecords) → log.ResetsHarmless) :=
  ⟨log.reconstruct_eq_own, fun hties heq =>
    log.resets_harmless_of_reconstruct_eq hties fun startUs targetUs =>
      heq startUs targetUs .recvTime⟩

/-- What the first feed's dispatcher sends: it connects, then takes a snapshot. -/
def firstFeed : List PersistedRecord := (Dispatcher.new.run [
  .lifecycle ⟨.reconnectSuccess, 1000, "first", none⟩,
  .raw ⟨some (.book {
    assetId := "yes", timestamp := none, hash := some "m"
    bids := [⟨"0.50", "10"⟩], asks := [⟨"0.60", "5"⟩] }), 2000⟩]).2

/-- What the second feed's dispatcher sends when it first connects. -/
def secondFeed (recv : Nat) : List PersistedRecord :=
  (Dispatcher.new.run [.lifecycle ⟨.reconnectSuccess, recv, "second", none⟩]).2

/-- Both feeds' records, the second one connecting at `recv`. -/
def twoFeeds (recv : Nat) : FeedLog Nat 0 "yes" where
  sent := firstFeed.map (fun x => (0, x)) ++ (secondFeed recv).map (fun x => (1, x))
  disjoint := by
    have hforeign : foreign 0 (firstFeed.map (fun x => (0, x)) ++
        (secondFeed recv).map (fun x => (1, x))) = secondFeed recv := by
      simp [foreign, List.filter_append, List.filter_map, Function.comp_def]
    rw [hforeign]
    intro x hx
    simp only [secondFeed, Dispatcher.run, Dispatcher.dispatch, Dispatcher.dispatchLifecycle,
      Dispatcher.lifecycleRecord, List.append_nil, List.mem_cons, List.not_mem_nil,
      or_false] at hx
    rcases hx with rfl | rfl
    · exact ⟨fun _ h => (nomatch h), fun e h => by cases h; simp⟩
    · exact ⟨fun _ h => (nomatch h), fun e h => by cases h; simp⟩

/-- A second feed that connected before the snapshot was taken. -/
theorem reconstruct_eq_own_iff_resets_harmless_early :
    (twoFeeds 1500).ResetsHarmless ∧
      rebuilt "yes" 0 4000 .recvTime (merged (twoFeeds 1500).sent) =
        rebuilt "yes" 0 4000 .recvTime (twoFeeds 1500).ownRecords :=
  ⟨by decide, (twoFeeds 1500).reconstruct_eq_own_iff_resets_harmless.1 (by decide) 0 4000
    .recvTime⟩

/-- The next market is pre-subscribed while the first is still served: the second
feed's first connection discards the first asset's snapshot. -/
theorem overlapping_feeds_lose_snapshot :
    rebuilt "yes" 0 4000 .recvTime (merged (twoFeeds 3000).sent) ≠
      rebuilt "yes" 0 4000 .recvTime (twoFeeds 3000).ownRecords := by
  intro h
  exact absurd (congrArg Except.isOk h) (by decide)

end FeedLog

end PolyBook
