import PolyBook.ServedLevels

/-!
# The updates of an asset

A record that changes the levels an asset serves marks the asset for the broadcast, so
the update that is built then shows the levels served from there on.
-/

namespace PolyBook

namespace ApplyOutcome

theorem mem_broadcastAssets_ofMaterialized {assets : List AssetId} {a : AssetId} :
    a ∈ (ofMaterialized assets).broadcastAssets ↔ a ∈ assets := by
  induction assets using List.reverseRecOn with
  | nil => simp [ofMaterialized, default]
  | append_singleton assets b ih =>
      rw [ofMaterialized, List.foldl_append]
      change a ∈ pushUniqueAsset (ofMaterialized assets).broadcastAssets b ↔ _
      rw [mem_pushUniqueAsset_iff, ih]
      simp

theorem nodup_pushUniqueAsset {assets : List AssetId} (h : assets.Nodup) (b : AssetId) :
    (pushUniqueAsset assets b).Nodup := by
  unfold pushUniqueAsset
  split
  · exact h
  · rename_i hb
    refine List.nodup_append.mpr ⟨h, List.pairwise_singleton _ b, ?_⟩
    intro c hc d hd heq
    obtain rfl := List.mem_singleton.mp hd
    exact hb (heq ▸ hc)

/-- No asset is marked twice. -/
def Once (outcome : ApplyOutcome) : Prop := outcome.broadcastAssets.Nodup

theorem once_ofMaterialized (assets : List AssetId) : (ofMaterialized assets).Once := by
  induction assets using List.reverseRecOn with
  | nil => exact List.nodup_nil
  | append_singleton assets b ih =>
      rw [ofMaterialized, List.foldl_append]
      exact nodup_pushUniqueAsset ih b

end ApplyOutcome

namespace LiveState

variable {s : LiveState} {a : AssetId}

/-- The assets a record marks for the broadcast by itself. -/
def tells (s : LiveState) (a : AssetId) : PersistedRecord → Bool
  | .book event => event.assetId == a && event.kind == .delta
  | .ingest _ => false
  | .checkpoint c => c.assetId == a && s.uninitialized a
  | .trade _ => false
  | .validation _ => false

/-- The assets a record marks. -/
theorem mem_broadcastAssets_applyRecord (s : LiveState) (a : AssetId) (record : PersistedRecord) :
    a ∈ (s.applyRecord record).2.broadcastAssets ↔
      ((s.view a).pending.any fun p => AssetView.ends record p && takes p) = true ∨
        (s.materializePendingBeforeRecord record).1.tells a record = true := by
  have hbefore := mem_materializePendingBeforeRecord s a record
  rw [← ApplyOutcome.mem_broadcastAssets_ofMaterialized, ApplyOutcome.ofMaterialized] at hbefore
  rw [← hbefore]
  simp only [applyRecord]
  generalize s.materializePendingBeforeRecord record = mid
  generalize mid.2.foldl
    (fun outcome assetId => (outcome.markAssetChanged assetId).markAssetBroadcast assetId)
    ApplyOutcome.default = outcome
  cases record with
  | book event =>
      have hbook : event.assetId = a ↔ a = event.assetId := eq_comm
      cases hk : event.kind <;>
        simp [hk, tells, hbook, ApplyOutcome.markAssetChanged, ApplyOutcome.markAssetBroadcast,
          mem_pushUniqueAsset_iff]
  | trade event => simp [tells]
  | ingest event =>
      cases hasset : event.assetId <;> simp [tells, hasset, ApplyOutcome.markAssetChanged]
  | checkpoint c =>
      by_cases hab : c.assetId = a
      · subst hab
        cases hinit : mid.1.uninitialized c.assetId with
        | false => simp [tells, hinit]
        | true =>
            simp [tells, hinit, ApplyOutcome.markAssetChanged, ApplyOutcome.markAssetBroadcast,
              mem_pushUniqueAsset_iff]
      · have hba : ¬ a = c.assetId := fun h => hab h.symm
        cases hinit : mid.1.uninitialized c.assetId with
        | false => simp [tells, hab, hinit]
        | true =>
            simp [tells, hab, hba, hinit, ApplyOutcome.markAssetChanged,
              ApplyOutcome.markAssetBroadcast, mem_pushUniqueAsset_iff]
  | validation event => simp [tells]

theorem once_applyRecord (s : LiveState) (record : PersistedRecord) :
    (s.applyRecord record).2.Once := by
  have hbefore := ApplyOutcome.once_ofMaterialized (s.materializePendingBeforeRecord record).2
  unfold ApplyOutcome.ofMaterialized at hbefore
  cases record with
  | book event =>
      simp only [applyRecord]
      split
      · exact hbefore
      · exact ApplyOutcome.nodup_pushUniqueAsset hbefore _
  | trade event => exact hbefore
  | ingest event =>
      simp only [applyRecord]
      split <;> exact hbefore
  | checkpoint c =>
      simp only [applyRecord]
      split
      · exact ApplyOutcome.nodup_pushUniqueAsset hbefore _
      · exact hbefore
  | validation event => exact hbefore

/-- A record that does not mark an asset by itself leaves its book. -/
theorem own_of_not_tells {v : AssetView} {mid : LiveState} {record : PersistedRecord}
    (hmid : mid.view a = v) (h : mid.tells a record = false) :
    ((v.own a record).stateD a).initializedFromSnapshot = (v.stateD a).initializedFromSnapshot ∧
      ((v.own a record).stateD a).book = (v.stateD a).book := by
  cases record with
  | book event =>
      simp only [AssetView.own]
      split
      · rename_i hasset
        cases hk : event.kind with
        | snapshot => exact ⟨rfl, rfl⟩
        | delta =>
            simp only [tells, hasset, hk, beq_self_eq_true, Bool.and_self] at h
            cases h
      · exact ⟨rfl, rfl⟩
  | ingest event =>
      simp only [AssetView.own]
      split <;> exact ⟨rfl, rfl⟩
  | checkpoint c =>
      simp only [AssetView.own]
      split
      · rename_i hown
        simp only [tells, uninitialized_eq, hmid, Bool.and_eq_false_iff, beq_eq_false_iff_ne,
          Bool.not_eq_false'] at h
        rcases h with hother | hseeded
        · exact absurd hown.1 hother
        · rw [hseeded] at hown
          cases hown.2
      · exact ⟨rfl, rfl⟩
  | trade event => exact ⟨rfl, rfl⟩
  | validation event => exact ⟨rfl, rfl⟩

/-- **Marked when changed.**  An asset that no record marks serves what it did. -/
theorem served_applyRecord_of_not_marked {record : PersistedRecord}
    (hmarked : a ∉ (s.applyRecord record).2.broadcastAssets) :
    (s.applyRecord record).1.served a = s.served a := by
  rw [mem_broadcastAssets_applyRecord, not_or] at hmarked
  obtain ⟨htaken, hown⟩ := hmarked
  have hmid := view_materializePendingBeforeRecord a s record
  obtain ⟨hown_init, hown_book⟩ := own_of_not_tells hmid (by simpa using hown)
  have hbefore : (((s.view a).before a record).stateD a).initializedFromSnapshot =
        ((s.view a).stateD a).initializedFromSnapshot ∧
      (((s.view a).before a record).stateD a).book = ((s.view a).stateD a).book := by
    unfold AssetView.before
    split
    · rename_i hends
      refine AssetView.flush_of_refused a (s.view a) fun p hp => ?_
      rw [Option.mem_def] at hp
      rw [hp, Option.any_some] at hends htaken
      rw [hends, Bool.true_and] at htaken
      simpa [takes] using htaken
    · exact ⟨rfl, rfl⟩
  have hview := view_applyRecord a s record
  rw [AssetView.apply] at hview
  refine served_congr ?_ fun _ => ?_
  · rw [hview, hown_init, hbefore.1]
  · rw [hview, hown_book, hbefore.2]

/-- An asset that serves levels goes on to do so. -/
theorem served_ne_none_applyRecord (h : s.served a ≠ none) (record : PersistedRecord) :
    (s.applyRecord record).1.served a ≠ none := by
  unfold served at h ⊢
  split at h
  · rename_i hinit
    rw [view_applyRecord, if_pos]
    · exact Option.some_ne_none _
    · exact AssetView.applyAll_initialized a [record] hinit
  · exact absurd rfl h

theorem shouldPublish_of_marked {record : PersistedRecord}
    (h : a ∈ (s.applyRecord record).2.broadcastAssets) :
    (s.applyRecord record).2.shouldPublish = true := by
  refine publishes_applyRecord s record a ?_
  rw [mem_broadcastAssets_applyRecord] at h
  rw [mem_changedAssets_applyRecord]
  refine h.imp_right fun htells => ?_
  cases record with
  | book event =>
      simp only [tells, changes, Bool.and_eq_true] at htells ⊢
      exact htells.1
  | checkpoint c => exact htells
  | _ => cases htells

/-- The levels an asset would serve up to a depth. -/
def servedTop (s : LiveState) (a : AssetId) (depth : Nat) :
    Option (List (FixedPrice × FixedSize) × List (FixedPrice × FixedSize)) :=
  (s.served a).map fun levels => (levels.1.take depth, levels.2.take depth)

end LiveState

/-- The levels a message shows. -/
def BookUpdateMessage.levels (m : BookUpdateMessage) :
    List (FixedPrice × FixedSize) × List (FixedPrice × FixedSize) := (m.bids, m.asks)

namespace LiveState

variable {s : LiveState} {a : AssetId} {depth : Nat}

theorem assetId_of_buildBookUpdate {m : BookUpdateMessage}
    (h : s.buildBookUpdate a depth = some m) : m.assetId = a := by
  unfold buildBookUpdate at h
  split at h
  · split at h
    · cases h
    · split at h
      · rw [← Option.some.inj h]
      · cases h
  · cases h

/-- An update shows the levels its asset serves. -/
theorem levels_buildBookUpdate (s : LiveState) (a : AssetId) (depth : Nat) :
    (s.buildBookUpdate a depth).map BookUpdateMessage.levels =
      if a ∈ s.activeAssets then s.servedTop a depth else none := by
  unfold buildBookUpdate servedTop served
  by_cases hactive : a ∈ s.activeAssets
  · rw [if_pos hactive, if_pos hactive]
    cases hstate : s.assets[a]? with
    | none => simp [view, AssetView.stateD, hstate, AssetState.new]
    | some state =>
        cases hinit : state.initializedFromSnapshot <;>
          simp [view, AssetView.stateD, hstate, hinit, BookUpdateMessage.levels]
  · rw [if_neg hactive, if_neg hactive]
    rfl

end LiveState

namespace Projector

variable {p : Projector} {a : AssetId} {depth : Nat}

/-- What a record sends on the channel of an asset. -/
def told (p : Projector) (record : PersistedRecord) (a : AssetId) : List BookUpdateMessage :=
  ((p.applyAndBroadcast record).updates.drop p.updates.length).filter (·.assetId = a)

theorem updates_applyAndBroadcast (hdepth : p.broadcast = some depth) (record : PersistedRecord) :
    (p.applyAndBroadcast record).updates = p.updates ++
      if (p.state.applyRecord record).2.shouldPublish then
        (p.state.applyRecord record).2.broadcastAssets.filterMap
          ((p.state.applyRecord record).1.buildBookUpdate · depth)
      else [] := by
  unfold applyAndBroadcast
  dsimp only
  split
  · unfold sendUpdates
    have hsame : (({ p with state := (p.state.applyRecord record).1 }.syncMetadata.refreshAssetViews
        (p.state.applyRecord record).2.changedAssets).publish).broadcast = some depth := hdepth
    rw [hsame]
    rfl
  · rw [List.append_nil]

theorem filter_filterMap_assets {assets : List AssetId} (hnodup : assets.Nodup)
    {f : AssetId → Option BookUpdateMessage} (hf : ∀ b m, f b = some m → m.assetId = b)
    (a : AssetId) : (assets.filterMap f).filter (·.assetId = a) =
      if a ∈ assets then (f a).toList else [] := by
  induction assets with
  | nil => rfl
  | cons b rest ih =>
      obtain ⟨hb, hrest⟩ := List.nodup_cons.mp hnodup
      have hhead : (f b).toList.filter (·.assetId = a) = if b = a then (f b).toList else [] := by
        cases hfb : f b with
        | none => simp
        | some m => by_cases hba : b = a <;> simp [hf b m hfb, hba]
      have hcons : (b :: rest).filterMap f = (f b).toList ++ rest.filterMap f := by
        rw [List.filterMap_cons]
        cases f b <;> rfl
      rw [hcons, List.filter_append, ih hrest, hhead]
      by_cases hba : b = a
      · subst hba
        simp [hb]
      · have hab : ¬ a = b := fun h => hba h.symm
        simp [hba, hab]

/-- A record that marks the asset sends its update. -/
theorem told_eq (hdepth : p.broadcast = some depth) (record : PersistedRecord) (a : AssetId) :
    p.told record a = if a ∈ (p.state.applyRecord record).2.broadcastAssets then
      ((p.state.applyRecord record).1.buildBookUpdate a depth).toList else [] := by
  rw [told, updates_applyAndBroadcast hdepth, List.drop_left]
  cases hpublish : (p.state.applyRecord record).2.shouldPublish with
  | true =>
      rw [if_pos rfl]
      exact filter_filterMap_assets (LiveState.once_applyRecord p.state record)
        (fun b m hm => LiveState.assetId_of_buildBookUpdate hm) a
  | false =>
      rw [if_neg Bool.false_ne_true, if_neg]
      · rfl
      · intro hmarked
        rw [LiveState.shouldPublish_of_marked hmarked] at hpublish
        cases hpublish

/-- **What is told is what is served**, and what is served changes only with it. -/
theorem told_cases (hdepth : p.broadcast = some depth) (record : PersistedRecord) (a : AssetId) :
    (p.told record a = [] ∧ (a ∈ p.state.activeAssets →
        (p.applyAndBroadcast record).state.served a = p.state.served a)) ∨
      ∃ m, p.told record a = [m] ∧ a ∈ (p.state.applyRecord record).2.broadcastAssets ∧
        a ∈ p.state.activeAssets ∧
        (p.applyAndBroadcast record).state.servedTop a depth = some m.levels := by
  rw [told_eq hdepth, applyAndBroadcast_state]
  split
  · rename_i hmarked
    have hlevels := LiveState.levels_buildBookUpdate (p.state.applyRecord record).1 a depth
    rw [LiveState.activeAssets_applyRecord] at hlevels
    cases hbuilt : (p.state.applyRecord record).1.buildBookUpdate a depth with
    | none =>
        left
        refine ⟨rfl, fun hactive => ?_⟩
        rw [hbuilt, Option.map_none, if_pos hactive, LiveState.servedTop, eq_comm,
          Option.map_eq_none_iff] at hlevels
        rw [hlevels]
        by_contra hne
        exact LiveState.served_ne_none_applyRecord (Ne.symm hne) record hlevels
    | some m =>
        right
        rw [hbuilt, Option.map_some] at hlevels
        split at hlevels
        · rename_i hactive
          exact ⟨m, rfl, hmarked, hactive, hlevels.symm⟩
        · cases hlevels
  · rename_i hmarked
    exact Or.inl ⟨rfl, fun _ => LiveState.served_applyRecord_of_not_marked hmarked⟩

theorem broadcast_applyAndBroadcast (p : Projector) (record : PersistedRecord) :
    (p.applyAndBroadcast record).broadcast = p.broadcast := by
  unfold applyAndBroadcast
  dsimp only
  split
  · unfold sendUpdates
    split <;> rfl
  · rfl

end Projector

end PolyBook
