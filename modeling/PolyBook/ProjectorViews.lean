import PolyBook.ResetMarks

/-!
# Views refreshed one at a time

The projector does not rebuild what it publishes: a record names the assets it
changed, and only their views are built again.  A buffered group that the book
refuses is the one change no record names.  The group is gone and its asset has a
warning, but `materialize_pending_for_asset` answers `false`, so the asset counts as
unchanged unless the record that ended the group changes it too.

`published_iff_refreshed` says that this is all that can go wrong.
-/

namespace PolyBook

/-- The asset pushed is among the assets, and the others stay. -/
theorem mem_pushUniqueAsset_iff {assets : List AssetId} {a b : AssetId} :
    a ∈ pushUniqueAsset assets b ↔ a ∈ assets ∨ a = b := by
  unfold pushUniqueAsset
  split
  · rename_i hb
    constructor
    · exact Or.inl
    · rintro (h | rfl)
      · exact h
      · exact hb
  · simp

namespace ApplyOutcome

/-- An outcome that names an asset is worth publishing. -/
def Publishes (outcome : ApplyOutcome) : Prop :=
  ∀ a ∈ outcome.changedAssets, outcome.shouldPublish = true

/-- Nothing changed, nothing to publish. -/
theorem publishes_default : default.Publishes := fun _ h => nomatch h

/-- A changed asset is to be published. -/
theorem publishes_markAssetChanged (outcome : ApplyOutcome) (assetId : AssetId) :
    (outcome.markAssetChanged assetId).Publishes := fun _ _ => rfl

/-- An asset to be broadcast is to be published. -/
theorem publishes_markAssetBroadcast (outcome : ApplyOutcome) (assetId : AssetId) :
    (outcome.markAssetBroadcast assetId).Publishes := fun _ _ => rfl

/-- The outcome of the groups a record ended. -/
def ofMaterialized (assets : List AssetId) : ApplyOutcome :=
  assets.foldl
    (fun outcome assetId => (outcome.markAssetChanged assetId).markAssetBroadcast assetId) default

/-- Materialized assets are to be published. -/
theorem publishes_ofMaterialized (assets : List AssetId) : (ofMaterialized assets).Publishes := by
  induction assets using List.reverseRecOn with
  | nil => exact publishes_default
  | append_singleton assets a _ =>
      rw [ofMaterialized, List.foldl_append]
      exact publishes_markAssetBroadcast _ a

/-- Materialized assets have changed. -/
theorem mem_changedAssets_ofMaterialized {assets : List AssetId} {a : AssetId} :
    a ∈ (ofMaterialized assets).changedAssets ↔ a ∈ assets := by
  induction assets using List.reverseRecOn with
  | nil => simp [ofMaterialized, default]
  | append_singleton assets b ih =>
      have hlast : (ofMaterialized (assets ++ [b])).changedAssets =
          pushUniqueAsset (ofMaterialized assets).changedAssets b := by
        rw [ofMaterialized, List.foldl_append]
        rfl
      rw [hlast, mem_pushUniqueAsset_iff, ih]
      simp

end ApplyOutcome

namespace LiveState

variable {s : LiveState} {a : AssetId}

/-- The book takes the group it is given. -/
def takes (pending : PendingSnapshot) : Bool := fitsTotals pending.bids pending.asks

/-- Whether a group was taken is seen from the group. -/
theorem materialize_takes (state : AssetState) (pending : PendingSnapshot) :
    (state.materialize pending).2 = takes pending := by
  rw [takes, ← state.book.isOk_tryApplySnapshot pending.bids pending.asks pending.sequence
    pending.lastRecvTimestampUs]
  unfold AssetState.materialize
  split
  · rename_i h
    rw [h]
    rfl
  · rename_i h
    rw [h]
    rfl

/-- Whether an asset's group was taken is seen from its view. -/
theorem materializePendingForAsset_takes (s : LiveState) (b : AssetId) :
    (s.materializePendingForAsset b).2 = (s.view b).pending.any takes := by
  unfold materializePendingForAsset view
  cases h : s.pendingSnapshots[b]? with
  | none => rfl
  | some pending => exact materialize_takes _ pending

/-- The assets reported are those whose book took its group. -/
theorem mem_materializeKeys (keys : List AssetId) :
    a ∈ (s.materializeKeys keys).2 ↔ a ∈ keys ∧ (s.view a).pending.any takes = true := by
  suffices h : ∀ acc : LiveState × List AssetId,
      (a ∈ (keys.foldl (fun acc assetId =>
        let next := acc.1.materializePendingForAsset assetId
        (next.1, if next.2 then acc.2 ++ [assetId] else acc.2)) acc).2 ↔
        a ∈ acc.2 ∨ (a ∈ keys ∧ (acc.1.view a).pending.any takes = true)) by
    have hnone := h (s, [])
    simp only [List.not_mem_nil, false_or] at hnone
    exact hnone
  induction keys with
  | nil => intro acc; simp
  | cons b keys ih =>
      intro acc
      rw [List.foldl_cons, ih]
      simp only [materializePendingForAsset_takes, view_materializePendingForAsset, List.mem_cons]
      by_cases hab : a = b
      · subst hab
        cases htakes : (acc.1.view a).pending.any takes with
        | false => simp
        | true => simp
      · have hrest : (a ∈ if (acc.1.view b).pending.any takes then acc.2 ++ [b] else acc.2) ↔
            a ∈ acc.2 := by
          split
          · simp [hab]
          · rfl
        simp [hab, hrest]

/-- Which assets are materialized before a record. -/
theorem mem_materializePendingBeforeRecord (s : LiveState) (a : AssetId)
    (record : PersistedRecord) :
    a ∈ (s.materializePendingBeforeRecord record).2 ↔
      ((s.view a).pending.any fun p => AssetView.ends record p && takes p) = true := by
  have hall : (∀ pending, AssetView.ends record pending = true) →
      (a ∈ s.materializeAllPending.2 ↔
        ((s.view a).pending.any fun p => AssetView.ends record p && takes p) = true) := by
    intro hends
    simp only [hends, Bool.true_and]
    unfold materializeAllPending
    rw [mem_materializeKeys, TreeMapLookup.mem_keys_iff, view]
    cases s.pendingSnapshots[a]? with
    | none => simp
    | some pending => simp
  cases record with
  | book event =>
      cases hk : event.kind with
      | snapshot =>
          simp only [materializePendingBeforeRecord, hk]
          rw [mem_materializeKeys, TreeMapLookup.mem_filter_toList_iff, view]
          cases s.pendingSnapshots[a]? with
          | none => simp
          | some pending => simp [AssetView.ends, hk]
      | delta =>
          simp only [materializePendingBeforeRecord, hk]
          exact hall fun pending => by simp [AssetView.ends, hk]
  | trade event => exact hall fun _ => rfl
  | ingest event => exact hall fun _ => rfl
  | checkpoint event => exact hall fun _ => rfl
  | validation event => exact hall fun _ => rfl

/-- The assets a record changes by itself, its group boundary already crossed. -/
def changes (s : LiveState) (a : AssetId) : PersistedRecord → Bool
  | .book event => event.assetId == a
  | .ingest event => event.assetId == some a
  | .checkpoint c => c.assetId == a && s.uninitialized a
  | .trade _ => false
  | .validation _ => false

/-- The assets a record names. -/
theorem mem_changedAssets_applyRecord (s : LiveState) (a : AssetId) (record : PersistedRecord) :
    a ∈ (s.applyRecord record).2.changedAssets ↔
      ((s.view a).pending.any fun p => AssetView.ends record p && takes p) = true ∨
        (s.materializePendingBeforeRecord record).1.changes a record = true := by
  have hbefore := mem_materializePendingBeforeRecord s a record
  rw [← ApplyOutcome.mem_changedAssets_ofMaterialized, ApplyOutcome.ofMaterialized] at hbefore
  rw [← hbefore]
  simp only [applyRecord]
  generalize s.materializePendingBeforeRecord record = mid
  generalize mid.2.foldl
    (fun outcome assetId => (outcome.markAssetChanged assetId).markAssetBroadcast assetId)
    ApplyOutcome.default = outcome
  cases record with
  | book event =>
      have hbook : ∀ state : LiveState, state.changes a (.book event) = true ↔
          a = event.assetId := by
        intro state
        simp only [changes, beq_iff_eq]
        exact eq_comm
      cases hk : event.kind <;>
        simp [hk, hbook, ApplyOutcome.markAssetChanged, ApplyOutcome.markAssetBroadcast,
          mem_pushUniqueAsset_iff]
  | trade event => simp [changes]
  | ingest event =>
      cases hasset : event.assetId with
      | none => simp [changes, hasset]
      | some b =>
          have hab : b = a ↔ a = b := eq_comm
          simp [changes, hasset, ApplyOutcome.markAssetChanged, mem_pushUniqueAsset_iff, hab]
  | checkpoint c =>
      by_cases hab : c.assetId = a
      · subst hab
        cases hinit : mid.1.uninitialized c.assetId with
        | false => simp [changes, hinit]
        | true =>
            simp [changes, hinit, ApplyOutcome.markAssetChanged, ApplyOutcome.markAssetBroadcast,
              mem_pushUniqueAsset_iff]
      · have hba : ¬ a = c.assetId := fun h => hab h.symm
        cases hinit : mid.1.uninitialized c.assetId with
        | false => simp [changes, hab, hinit]
        | true =>
            simp [changes, hab, hba, hinit, ApplyOutcome.markAssetChanged,
              ApplyOutcome.markAssetBroadcast, mem_pushUniqueAsset_iff]
  | validation event => simp [changes]

/-- What a record changes is to be published. -/
theorem publishes_applyRecord (s : LiveState) (record : PersistedRecord) :
    (s.applyRecord record).2.Publishes := by
  have hbefore := ApplyOutcome.publishes_ofMaterialized (s.materializePendingBeforeRecord record).2
  unfold ApplyOutcome.ofMaterialized at hbefore
  cases record with
  | book event =>
      simp only [applyRecord]
      split
      · exact ApplyOutcome.publishes_markAssetChanged _ _
      · exact ApplyOutcome.publishes_markAssetBroadcast _ _
  | trade event => exact hbefore
  | ingest event => exact fun _ _ => shouldPublish_ingest s event
  | checkpoint c =>
      simp only [applyRecord]
      split
      · exact ApplyOutcome.publishes_markAssetBroadcast _ _
      · exact hbefore
  | validation event => exact hbefore

/-- A group that a record ends and the book refuses. -/
def refuses (s : LiveState) (a : AssetId) (record : PersistedRecord) : Bool :=
  s.pendingSnapshots[a]?.any fun p => AssetView.ends record p && !takes p

/-- The read view is built from the asset's view. -/
theorem buildAssetView_congr {t : LiveState} (h : s.view a = t.view a) :
    s.buildAssetView a = t.buildAssetView a := by
  have hstate : s.assets[a]? = t.assets[a]? := congrArg AssetView.state h
  have hpending : s.pendingSnapshots[a]? = t.pendingSnapshots[a]? := congrArg AssetView.pending h
  simp only [buildAssetView, hstate, Std.ExtTreeMap.contains_eq_isSome_getElem?, hpending]

/-- A record that does not change an asset by itself does no more than end its group. -/
theorem view_applyRecord_of_not_changes {record : PersistedRecord}
    (hown : (s.materializePendingBeforeRecord record).1.changes a record = false) :
    (s.applyRecord record).1.view a = (s.view a).before a record := by
  have hmid := view_materializePendingBeforeRecord a s record
  rw [view_applyRecord, AssetView.apply]
  generalize (s.view a).before a record = before at hmid ⊢
  cases record with
  | book event =>
      simp only [changes, beq_eq_false_iff_ne] at hown
      rw [AssetView.own, if_neg hown]
  | trade event => rfl
  | ingest event =>
      simp only [changes, beq_eq_false_iff_ne] at hown
      rw [AssetView.own, if_neg hown]
  | checkpoint c =>
      simp only [changes, uninitialized_eq, hmid, Bool.and_eq_false_iff, beq_eq_false_iff_ne,
        Bool.not_eq_false'] at hown
      rw [AssetView.own, if_neg]
      rintro ⟨hasset, hinit⟩
      rcases hown with hother | hseeded
      · exact hother hasset
      · rw [hseeded] at hinit
        cases hinit
  | validation event => rfl

/-- The asset of a refused group: no group, and the book it had. -/
theorem before_of_refuses {record : PersistedRecord} (h : s.refuses a record = true) :
    ∃ p, s.pendingSnapshots[a]? = some p ∧ takes p = false ∧
      (s.view a).before a record = ⟨some (((s.view a).stateD a).materialize p).1, none⟩ := by
  rw [refuses, Option.any_eq_true] at h
  obtain ⟨p, hp, hrefused⟩ := h
  obtain ⟨hends, htakes⟩ := Bool.and_eq_true_iff.mp hrefused
  refine ⟨p, hp, by simpa using htakes, ?_⟩
  have hpending : (s.view a).pending = some p := hp
  rw [AssetView.before, hpending, Option.any_some, if_pos hends, AssetView.flush, hpending]

/-- A refused group is gone, so its asset no longer looks as it did. -/
theorem buildAssetView_ne_of_refuses {record : PersistedRecord} (h : s.refuses a record = true)
    (hown : (s.materializePendingBeforeRecord record).1.changes a record = false) :
    (s.applyRecord record).1.buildAssetView a ≠ s.buildAssetView a := by
  obtain ⟨p, hp, -, hbefore⟩ := before_of_refuses h
  have hview := view_applyRecord_of_not_changes hown
  rw [hbefore] at hview
  have hstate := congrArg AssetView.state hview
  have hpending := congrArg AssetView.pending hview
  simp only [view] at hstate hpending
  simp only [buildAssetView, hstate, Std.ExtTreeMap.contains_eq_isSome_getElem?, hpending, hp,
    Option.map_some, Option.isSome_none, Option.isSome_some]
  intro heq
  obtain ⟨old, -, hold⟩ := Option.map_eq_some_iff.mp heq.symm
  have hflag := congrArg AssetReadView.hasPendingSnapshot hold
  cases hflag

/-- A refused group leaves a checkpoint's question where it was. -/
theorem changes_of_refuses {record : PersistedRecord} (h : s.refuses a record = true) :
    (s.materializePendingBeforeRecord record).1.changes a record = s.changes a record := by
  cases record with
  | checkpoint c =>
      obtain ⟨p, -, htakes, hbefore⟩ := before_of_refuses h
      rw [takes] at htakes
      simp only [changes, uninitialized_eq, view_materializePendingBeforeRecord, hbefore]
      rw [AssetView.stateD, Option.getD_some, AssetState.materialize_initialized, htakes,
        Bool.or_false]
  | _ => rfl

/-- An asset no record names looks as it did, unless the book refused its group. -/
theorem buildAssetView_of_not_changed {record : PersistedRecord}
    (hnamed : a ∉ (s.applyRecord record).2.changedAssets) (hrefuses : s.refuses a record = false) :
    (s.applyRecord record).1.buildAssetView a = s.buildAssetView a := by
  rw [mem_changedAssets_applyRecord, not_or] at hnamed
  obtain ⟨htaken, hown⟩ := hnamed
  have hends : ((s.view a).pending.any (AssetView.ends record)) = false := by
    unfold refuses at hrefuses
    unfold view at htaken ⊢
    cases hp : s.pendingSnapshots[a]? with
    | none => rfl
    | some p =>
        simp only [hp, Option.any_some, Bool.and_eq_true, not_and, Bool.not_eq_true,
          Bool.and_eq_false_iff, Bool.not_eq_false'] at hrefuses htaken ⊢
        rcases hrefuses with hopen | htakes
        · exact hopen
        · by_contra hended
          rw [htaken (by simpa using hended)] at htakes
          cases htakes
  apply buildAssetView_congr
  rw [view_applyRecord_of_not_changes (by simpa using hown), AssetView.before, if_neg]
  rw [hends]
  exact Bool.false_ne_true

/-- A lifecycle event changes neither the mode nor the tracked assets. -/
theorem hears_tracks (s : LiveState) (record : PersistedRecord) :
    (s.hears record).mode = s.mode ∧ (s.hears record).activeAssets = s.activeAssets := by
  cases record with
  | ingest event =>
      simp only [hears, recordIngestEvent]
      cases event.kind <;> cases event.assetId <;> exact ⟨rfl, rfl⟩
  | _ => exact ⟨rfl, rfl⟩

end LiveState

namespace Projector

/-- What is published is what a full projection of the state would publish. -/
structure Current (p : Projector) : Prop where
  published : p.published = p.state.buildPublishedState
  watch : p.watch = p.state.buildPublishedState

/-- A group the command makes the book refuse belongs to an asset that the command
changes by itself. -/
def Refreshes (p : Projector) : ProjectorCommand → Prop
  | .record record => ∀ a, p.state.refuses a record = true → p.state.changes a record = true
  | .recordAck record => ∀ a, p.state.refuses a record = true → p.state.changes a record = true
  | .setActiveAssets _ => True
  | .setLastRotationUs _ => True
  | .configureBroadcast _ => True
  | .hydrateCheckpoint _ => True
  | .setHydrated _ => True

variable {p : Projector}

/-- What the projector publishes of the feed, the views aside. -/
def FeedCurrent (p : Projector) : Prop :=
  { p.published with assets := ∅ } = { p.state.buildPublishedState with assets := ∅ }

/-- Current views hold the current state of the feed. -/
theorem FeedCurrent.of_current (h : p.Current) : p.FeedCurrent := by
  unfold FeedCurrent
  rw [h.published]

/-- The published state, put together from the feed and the views. -/
theorem current_iff (hfeed : p.FeedCurrent) (hwatch : p.watch = p.published) :
    p.Current ↔ ∀ a : AssetId, p.published.assets[a]? = p.state.buildAssetView a := by
  constructor
  · intro h a
    rw [h.published]
    exact getElem?_buildAssetViews p.state a
  · intro h
    have hassets : p.published.assets = p.state.buildAssetViews := by
      ext a : 1
      rw [h, getElem?_buildAssetViews]
    have hpublished : p.published = p.state.buildPublishedState := by
      have hall := congrArg (fun state : PublishedState =>
        { state with assets := p.published.assets }) hfeed
      refine hall.trans ?_
      rw [hassets]
      rfl
    exact ⟨hpublished, hwatch.trans hpublished⟩

@[simp] theorem sendUpdates_feedCurrent (p : Projector) (assetIds : List AssetId) :
    (p.sendUpdates assetIds).FeedCurrent ↔ p.FeedCurrent := by
  simp only [FeedCurrent, sendUpdates_published, sendUpdates_state]

/-- A broadcast record keeps the feed's state current. -/
theorem feedCurrent_applyAndBroadcast (h : p.FeedCurrent) (record : PersistedRecord) :
    (p.applyAndBroadcast record).FeedCurrent := by
  have hfeed := LiveState.feed_applyRecord p.state record
  have hfields : { (p.state.applyRecord record).1.buildPublishedState with assets := ∅ } =
      { (p.state.hears record).buildPublishedState with assets := ∅ } :=
    congrArg (fun s : LiveState => { s.buildPublishedState with assets := ∅ }) hfeed
  cases hpublish : (p.state.applyRecord record).2.shouldPublish with
  | false =>
      have hquiet : p.state.hears record = p.state := by
        cases record with
        | ingest event =>
            rw [LiveState.shouldPublish_ingest] at hpublish
            cases hpublish
        | _ => rfl
      rw [hquiet] at hfields
      simp only [applyAndBroadcast, hpublish, Bool.false_eq_true, if_false]
      exact h.trans hfields.symm
  | true =>
      have hmode : (p.state.applyRecord record).1.mode = p.state.mode ∧
          (p.state.applyRecord record).1.activeAssets = p.state.activeAssets := by
        obtain ⟨hmode, hactive⟩ := LiveState.hears_tracks p.state record
        exact ⟨(congrArg LiveState.mode hfeed).trans hmode,
          (congrArg LiveState.activeAssets hfeed).trans hactive⟩
      simp only [applyAndBroadcast, hpublish, if_true, sendUpdates_feedCurrent]
      have hfields := h
      simp only [FeedCurrent, PublishedState.mk.injEq, LiveState.buildPublishedState] at hfields ⊢
      simp only [publish, refreshAssetViews, syncMetadata, hmode]
      exact ⟨hfields.1, trivial, trivial, hfields.2.2.2.1, trivial, trivial, trivial, trivial⟩

/-- A record that names no asset leaves the watch to what was published before it. -/
theorem watch_applyAndBroadcast (h : p.watch = p.published) (record : PersistedRecord) :
    (p.applyAndBroadcast record).watch = (p.applyAndBroadcast record).published := by
  cases hpublish : (p.state.applyRecord record).2.shouldPublish with
  | true => exact applyAndBroadcast_watch hpublish
  | false =>
      simp only [applyAndBroadcast, hpublish, Bool.false_eq_true, if_false]
      exact h

/-- A record refreshes the views of the assets it names. -/
theorem getElem?_published_applyAndBroadcast (p : Projector) (record : PersistedRecord)
    (a : AssetId) :
    (p.applyAndBroadcast record).published.assets[a]? =
      if a ∈ (p.state.applyRecord record).2.changedAssets then
        (p.state.applyRecord record).1.buildAssetView a
      else p.published.assets[a]? := by
  cases hpublish : (p.state.applyRecord record).2.shouldPublish with
  | true =>
      simp only [applyAndBroadcast, hpublish, if_true, sendUpdates_published, publish,
        refreshAssetViews, getElem?_refreshAssetViews]
      rfl
  | false =>
      have hnone : a ∉ (p.state.applyRecord record).2.changedAssets := by
        intro hmem
        rw [LiveState.publishes_applyRecord p.state record a hmem] at hpublish
        cases hpublish
      rw [if_neg hnone]
      simp only [applyAndBroadcast, hpublish, Bool.false_eq_true, if_false]

/-- A record keeps the views current exactly when every asset whose group it makes the
book refuse is one it changes by itself. -/
theorem current_applyAndBroadcast (h : p.Current) (record : PersistedRecord) :
    (p.applyAndBroadcast record).Current ↔
      ∀ a, p.state.refuses a record = true → p.state.changes a record = true := by
  have hold : ∀ a : AssetId, p.published.assets[a]? = p.state.buildAssetView a := by
    intro a
    rw [h.published]
    exact getElem?_buildAssetViews p.state a
  rw [current_iff (feedCurrent_applyAndBroadcast (.of_current h) record)
    (watch_applyAndBroadcast (h.watch.trans h.published.symm) record)]
  simp only [applyAndBroadcast_state, getElem?_published_applyAndBroadcast, hold]
  constructor
  · intro hviews a hrefuses
    by_contra hchanges
    have hown := LiveState.changes_of_refuses hrefuses
    rw [Bool.not_eq_true] at hchanges
    rw [hchanges] at hown
    have hnamed : a ∉ (p.state.applyRecord record).2.changedAssets := by
      obtain ⟨pending, hpending, htakes, -⟩ := LiveState.before_of_refuses hrefuses
      rw [LiveState.mem_changedAssets_applyRecord, hown, LiveState.view, hpending]
      simp [htakes]
    have hview := hviews a
    rw [if_neg hnamed] at hview
    exact LiveState.buildAssetView_ne_of_refuses hrefuses hown hview.symm
  · intro hrefreshes a
    split
    · rfl
    · rename_i hnamed
      have hrefuses : p.state.refuses a record = false := by
        rw [← Bool.not_eq_true]
        intro hrefuses
        apply hnamed
        rw [LiveState.mem_changedAssets_applyRecord, LiveState.changes_of_refuses hrefuses]
        exact Or.inr (hrefreshes a hrefuses)
      exact (LiveState.buildAssetView_of_not_changed hnamed hrefuses).symm

/-- **One command.**  The other commands refresh all that they change. -/
theorem current_handleCommand (h : p.Current) (command : ProjectorCommand) :
    (p.handleCommand command).Current ↔ p.Refreshes command := by
  cases command with
  | record record => exact current_applyAndBroadcast h record
  | recordAck record => exact current_applyAndBroadcast h record
  | setActiveAssets assets =>
      refine iff_of_true ?_ trivial
      have hpublished : (p.handleCommand (.setActiveAssets assets)).published =
          (p.handleCommand (.setActiveAssets assets)).state.buildPublishedState := by
        simp only [handleCommand, publish, rebuildAllAssetViews, h.published]
        rfl
      exact ⟨hpublished, hpublished⟩
  | setLastRotationUs timestampUs =>
      refine iff_of_true ?_ trivial
      have hpublished : (p.handleCommand (.setLastRotationUs timestampUs)).published =
          (p.handleCommand (.setLastRotationUs timestampUs)).state.buildPublishedState := by
        simp only [handleCommand, publish, h.published]
        rfl
      exact ⟨hpublished, hpublished⟩
  | configureBroadcast depth => exact iff_of_true ⟨h.published, h.watch⟩ trivial
  | hydrateCheckpoint c =>
      refine iff_of_true ((current_iff ?_ rfl).mpr ?_) trivial
      · have hfeed := FeedCurrent.of_current h
        exact hfeed
      · intro a
        simp only [handleCommand, publish, refreshAssetViews, getElem?_refreshAssetViews,
          List.mem_singleton]
        split
        · rfl
        · rename_i hother
          rw [h.published]
          refine (getElem?_buildAssetViews p.state a).trans ?_
          apply LiveState.buildAssetView_congr
          rw [LiveState.applyCheckpoint, LiveState.view_setAsset, if_neg hother]
  | setHydrated hydrated =>
      refine iff_of_true ?_ trivial
      have hpublished : (p.handleCommand (.setHydrated hydrated)).published =
          (p.handleCommand (.setHydrated hydrated)).state.buildPublishedState := by
        simp only [handleCommand, publish, h.published]
        rfl
      exact ⟨hpublished, hpublished⟩

/-- A new projector is current. -/
theorem current_new (mode : FeedMode) : (new mode).Current := ⟨rfl, rfl⟩

/-- **Published when refreshed.**  After every command of a run what is published is the
full projection of the state, exactly when no command makes the book refuse the group of
an asset that the command does not change by itself. -/
theorem published_iff_refreshed (mode : FeedMode) (commands : List ProjectorCommand) :
    (∀ done, done <+: commands → ((new mode).run done).Current) ↔
      Runs.Meets handleCommand Refreshes (new mode) commands := by
  have hstep : ∀ (p : Projector) command, p.Current →
      ((p.handleCommand command).Current ↔ p.Refreshes command) :=
    fun _ command h => current_handleCommand h command
  exact Runs.meets_iff_forall_prefix hstep (current_new mode) commands

end Projector

/-! A snapshot whose sizes add up to more than the book counts. -/
namespace RefusedGroup

/-- A level of the sample, as large as a size can be. -/
def level (cents : Fin 101) : BookEvent where
  assetId := "tok1"
  kind := .snapshot
  side := .bid
  price := Sample.price cents
  size := ⟨u64Max, Nat.le_refl u64Max⟩
  provenance := Sample.provenance 1 "snapshot"

/-- The trade of the sample, which ends the group. -/
def trade : TradeEvent where
  assetId := "tok1"
  price := Sample.price 40
  size := none
  side := none
  tradeId := none
  fidelity := .full
  provenance := Sample.provenance 2 "trade"

/-- The commands of the sample: a group that the book refuses. -/
def commands : List ProjectorCommand :=
  [.setActiveAssets ["tok1"], .record (.book (level 40)), .record (.book (level 41)),
    .record (.trade trade)]

end RefusedGroup

/-- The trade drops the group, and the published view still shows it pending. -/
theorem refused_group_not_refreshed :
    ¬ ∀ (mode : FeedMode) (commands done : List ProjectorCommand), done <+: commands →
      ((Projector.new mode).run done).published =
        ((Projector.new mode).run done).state.buildPublishedState := by
  intro hall
  have h := hall .fixedTokens RefusedGroup.commands RefusedGroup.commands (List.prefix_refl _)
  have hview := congrArg (fun state : PublishedState =>
    state.assets["tok1"]?.map (·.hasPendingSnapshot)) h
  revert hview
  decide +kernel

end PolyBook
