import PolyBook.ActiveSet
import PolyBook.ProjectorViews

/-!
# The levels that are served

A reader of an asset is told the levels of its book once there is one.  In every state
that the projector comes to, they are those of the live state: a view that was not
refreshed differs in what a refused group left, and no level is part of that.
-/

namespace PolyBook

namespace AssetState

/-- A group the book refuses leaves the book as it was. -/
theorem materialize_book_of_refused (s : AssetState) {p : PendingSnapshot}
    (h : fitsTotals p.bids p.asks = false) : (s.materialize p).1.book = s.book := by
  rw [← s.book.isOk_tryApplySnapshot p.bids p.asks p.sequence p.lastRecvTimestampUs] at h
  unfold materialize
  split
  · rfl
  · rename_i hok
    simp [hok, Except.isOk, Except.toBool] at h

end AssetState

namespace AssetView

variable {a : AssetId}

/-- A group the book refuses leaves the asset as it was. -/
theorem flush_of_refused (a : AssetId) (v : AssetView)
    (hrefused : ∀ p ∈ v.pending, fitsTotals p.bids p.asks = false) :
    ((v.flush a).stateD a).initializedFromSnapshot = (v.stateD a).initializedFromSnapshot ∧
      ((v.flush a).stateD a).book = (v.stateD a).book := by
  cases hp : v.pending with
  | none => rw [flush_of_pending_none a hp]; exact ⟨rfl, rfl⟩
  | some p =>
      have hflush : v.flush a = ⟨some ((v.stateD a).materialize p).1, none⟩ := by rw [flush, hp]
      rw [hflush]
      refine ⟨?_, AssetState.materialize_book_of_refused _ (hrefused p hp)⟩
      simp only [stateD, Option.getD_some, AssetState.materialize_initialized, hrefused p hp,
        Bool.or_false]

/-- A buffered group belongs to its asset. -/
theorem keyed_apply {v : AssetView} (h : ∀ p ∈ v.pending, p.key.assetId = a)
    (record : PersistedRecord) : ∀ p ∈ (v.apply a record).pending, p.key.assetId = a := by
  have hbefore : ∀ p ∈ (v.before a record).pending, p.key.assetId = a := fun p hp =>
    h p (before_pending a hp).1
  unfold AssetView.apply
  by_cases hsnapshot : ∃ e, record = .book e ∧ e.assetId = a ∧ e.kind = .snapshot
  · obtain ⟨e, rfl, hasset, hkind⟩ := hsnapshot
    intro p hp
    simp only [AssetView.own, hasset, hkind, if_true, recordSnapshotEvent, Option.mem_def,
      Option.some.injEq] at hp
    subst hp
    cases hpending : (v.before a (.book e)).pending with
    | none => exact hasset
    | some q => exact hbefore q hpending
  · rw [own_pending_of_ne_snapshot a]
    · exact hbefore
    · intro e he hasset
      cases hkind : e.kind with
      | delta => rfl
      | snapshot => exact absurd ⟨e, he, hasset, hkind⟩ hsnapshot

end AssetView

/-- The levels that a view serves, if it serves any. -/
def AssetReadView.served (view : Option AssetReadView) :
    Option (List (FixedPrice × FixedSize) × List (FixedPrice × FixedSize)) :=
  view.bind fun view => if view.initializedFromSnapshot then some (view.bids, view.asks) else none

namespace LiveState

/-- The levels an asset would serve. -/
def served (s : LiveState) (a : AssetId) :
    Option (List (FixedPrice × FixedSize) × List (FixedPrice × FixedSize)) :=
  if ((s.view a).stateD a).initializedFromSnapshot then
    some (((s.view a).stateD a).book.bids.toList, ((s.view a).stateD a).book.asks.toList)
  else none

theorem served_buildAssetView (s : LiveState) (a : AssetId) :
    AssetReadView.served (s.buildAssetView a) = s.served a := by
  cases hstate : s.assets[a]? with
  | none => simp [buildAssetView, AssetReadView.served, served, view, AssetView.stateD, hstate,
      AssetState.new]
  | some state =>
      simp [buildAssetView, AssetReadView.served, served, view, AssetView.stateD, hstate]

theorem served_congr {s t : LiveState} {a : AssetId}
    (hinit : ((s.view a).stateD a).initializedFromSnapshot =
      ((t.view a).stateD a).initializedFromSnapshot)
    (hbook : ((s.view a).stateD a).initializedFromSnapshot = true →
      ((s.view a).stateD a).book.sides = ((t.view a).stateD a).book.sides) :
    s.served a = t.served a := by
  unfold served
  rw [← hinit]
  by_cases h : ((s.view a).stateD a).initializedFromSnapshot = true
  · have hsides := hbook h
    simp only [L2Book.sides, Prod.mk.injEq] at hsides
    simp only [h, if_true, hsides]
  · simp only [h]
    rfl

theorem served_of_view {s t : LiveState} {a : AssetId} (h : s.view a = t.view a) :
    s.served a = t.served a :=
  served_congr (by rw [h]) fun _ => by rw [h]

theorem activeAssets_applyRecord (s : LiveState) (record : PersistedRecord) :
    (s.applyRecord record).1.activeAssets = s.activeAssets :=
  (congrArg LiveState.activeAssets (feed_applyRecord s record)).trans (hears_tracks s record).2

/-- An asset that no record names serves what it did: the book of a refused group is
the book before. -/
theorem served_applyRecord_of_not_changed {s : LiveState} {a : AssetId}
    {record : PersistedRecord} (hnamed : a ∉ (s.applyRecord record).2.changedAssets) :
    (s.applyRecord record).1.served a = s.served a := by
  rw [mem_changedAssets_applyRecord, not_or] at hnamed
  obtain ⟨htaken, hown⟩ := hnamed
  have hview := view_applyRecord_of_not_changes (by simpa using hown)
  unfold AssetView.before at hview
  split at hview
  · rename_i hends
    obtain ⟨hinit, hbook⟩ := AssetView.flush_of_refused a (s.view a) fun p hp => by
      rw [Option.mem_def] at hp
      rw [hp, Option.any_some] at hends htaken
      rw [hends, Bool.true_and] at htaken
      simpa [takes] using htaken
    refine served_congr ?_ fun _ => ?_
    · rw [hview, hinit]
    · rw [hview, hbook]
  · exact served_of_view hview

end LiveState

namespace Projector

variable {p : Projector}

/-- What is published serves the levels of the state. -/
structure Serves (p : Projector) : Prop where
  watch : p.watch = p.published
  active : p.published.activeAssets = p.state.activeAssets
  served : ∀ a : AssetId, AssetReadView.served p.published.assets[a]? = p.state.served a
  keyed : ∀ a, ∀ q ∈ (p.state.view a).pending, q.key.assetId = a

theorem Serves.applyAndBroadcast (h : p.Serves) (record : PersistedRecord) :
    (p.applyAndBroadcast record).Serves := by
  refine ⟨watch_applyAndBroadcast h.watch record, ?_, fun a => ?_, fun a => ?_⟩
  · rw [applyAndBroadcast_state, LiveState.activeAssets_applyRecord, ← h.active]
    unfold Projector.applyAndBroadcast
    dsimp only
    split
    · rw [sendUpdates_published]
      rfl
    · rfl
  · rw [getElem?_published_applyAndBroadcast, applyAndBroadcast_state]
    split
    · exact LiveState.served_buildAssetView _ a
    · rename_i hnamed
      rw [h.served, LiveState.served_applyRecord_of_not_changed hnamed]
  · rw [applyAndBroadcast_state, LiveState.view_applyRecord]
    exact AssetView.keyed_apply (h.keyed a) record

theorem Serves.handleCommand (h : p.Serves) (command : ProjectorCommand) :
    (p.handleCommand command).Serves := by
  cases command with
  | record record => exact h.applyAndBroadcast record
  | recordAck record => exact h.applyAndBroadcast record
  | setActiveAssets assets =>
      refine ⟨rfl, rfl, fun a => ?_, fun a q hq => ?_⟩
      · rw [← LiveState.served_buildAssetView, ← getElem?_buildAssetViews]
        rfl
      · rw [Option.mem_def] at hq
        have hlookup := LiveState.getElem?_pendingSnapshots_setActiveAssets p.state assets a
        change (p.state.setActiveAssets assets).pendingSnapshots[a]? = some q at hq
        rw [hlookup] at hq
        split at hq
        · exact h.keyed a q hq
        · cases hq
  | setLastRotationUs timestampUs => exact ⟨rfl, h.active, h.served, h.keyed⟩
  | configureBroadcast depth => exact ⟨h.watch, h.active, h.served, h.keyed⟩
  | hydrateCheckpoint c =>
      refine ⟨rfl, h.active, fun a => ?_, fun a => ?_⟩
      · simp only [Projector.handleCommand, publish, refreshAssetViews,
          getElem?_refreshAssetViews, List.mem_singleton]
        split
        · exact LiveState.served_buildAssetView _ a
        · rename_i hother
          rw [h.served]
          refine LiveState.served_of_view ?_
          rw [LiveState.applyCheckpoint, LiveState.view_setAsset, if_neg hother]
      · have hview : ((p.handleCommand (.hydrateCheckpoint c)).state.view a).pending =
            (p.state.view a).pending := by
          simp only [Projector.handleCommand, publish, refreshAssetViews,
            LiveState.applyCheckpoint, LiveState.view_setAsset]
          split
          · rfl
          · rfl
        rw [hview]
        exact h.keyed a
  | setHydrated hydrated => exact ⟨rfl, h.active, h.served, h.keyed⟩

theorem serves_new (mode : FeedMode) : (new mode).Serves := by
  refine ⟨rfl, rfl, fun a => ?_, fun a q hq => ?_⟩
  · rw [← LiveState.served_buildAssetView, ← getElem?_buildAssetViews]
    rfl
  · rw [new, LiveState.view_new] at hq
    cases hq

theorem serves_run (mode : FeedMode) (commands : List ProjectorCommand) :
    ((new mode).run commands).Serves :=
  Runs.run_induction (fun _ command h => h.handleCommand command) (serves_new mode) commands

/-- What a reader is told of an asset. -/
def answer (p : Projector) (a : AssetId) (depth staleAfterSecs nowUs : Nat) :
    Except SnapshotLookupError
      (List (FixedPrice × FixedSize) × List (FixedPrice × FixedSize)) :=
  (p.snapshot a depth staleAfterSecs nowUs).map fun snapshot => (snapshot.bids, snapshot.asks)

theorem Serves.answer_eq (h : p.Serves) {a : AssetId} (hactive : a ∈ p.state.activeAssets)
    (depth staleAfterSecs nowUs : Nat) :
    p.answer a depth staleAfterSecs nowUs =
      match p.state.served a with
      | some levels => .ok (levels.1.take depth, levels.2.take depth)
      | none => .error .snapshotNotReady := by
  have hactive' : a ∈ p.watch.activeAssets := by rwa [h.watch, h.active]
  have hserved := h.served a
  rw [← h.watch] at hserved
  rw [← hserved]
  cases hview : p.watch.assets[a]? with
  | none => simp [answer, snapshot, snapshotFromPublished, hactive', hview, AssetReadView.served,
      Except.map]
  | some view =>
      cases hinit : view.initializedFromSnapshot <;>
        simp [answer, snapshot, snapshotFromPublished, hactive', hview, AssetReadView.served,
          hinit, Except.map]

end Projector

end PolyBook
