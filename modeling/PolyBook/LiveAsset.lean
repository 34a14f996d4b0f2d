import PolyBook.LiveState
import PolyBook.Library.TreeMap

/-!
# One asset of the live read model

Records of other assets reach an asset only by ending its buffered snapshot
group.  `AssetView` is the part of `LiveState` that belongs to one asset, and
`AssetView.apply` is what a record does to it.  `view_applyRecord` shows that
`LiveState.applyRecord` does exactly that to every asset at once, so results
about runs of the live model can be proved one asset at a time.
-/

namespace PolyBook

/-- One asset's share of the live state. -/
structure AssetView where
  state : Option AssetState
  pending : Option PendingSnapshot

namespace AssetView

variable (a : AssetId)

/-- The asset is not there and nothing is buffered. -/
def empty : AssetView := ⟨none, none⟩

/-- The asset's state, fresh when it is unknown. -/
def stateD (v : AssetView) : AssetState := v.state.getD (AssetState.new a)

/-- Apply the buffered group, if there is one. -/
def flush (v : AssetView) : AssetView :=
  match v.pending with
  | none => v
  | some pending => ⟨some ((v.stateD a).materialize pending).1, none⟩

/-- Whether a record ends a buffered group: only a snapshot record of the same
key leaves it open. -/
def ends (record : PersistedRecord) (pending : PendingSnapshot) : Bool :=
  match record with
  | .book event =>
      match event.kind with
      | .snapshot => pending.key != event.groupKey
      | .delta => true
  | _ => true

/-- The asset once the groups a record ends have been applied. -/
def before (v : AssetView) (record : PersistedRecord) : AssetView :=
  if v.pending.any (ends record) then v.flush a else v

/-- The asset gets a new state. -/
def setState (v : AssetView) (state : AssetState) : AssetView := { v with state := some state }

/-- Buffer a snapshot record of this asset. -/
def recordSnapshotEvent (v : AssetView) (event : BookEvent) : AssetView :=
  ⟨some ((v.stateD a).touch event),
    some ((v.pending.getD (PendingSnapshot.start event)).push event)⟩

/-- What the record itself does, its group boundary already crossed. -/
def own (v : AssetView) (record : PersistedRecord) : AssetView :=
  match record with
  | .book event =>
      if event.assetId = a then
        match event.kind with
        | .snapshot => v.recordSnapshotEvent a event
        | .delta => v.setState ((v.stateD a).recordDeltaEvent event)
      else v
  | .ingest event =>
      if event.assetId = some a then
        v.setState { v.stateD a with latestWarning := some (LiveState.ingestWarning event) }
      else v
  | .checkpoint checkpoint =>
      if checkpoint.assetId = a ∧ (v.stateD a).initializedFromSnapshot = false then
        v.setState ((v.stateD a).applyCheckpoint checkpoint)
      else v
  | .trade _ => v
  | .validation _ => v

/-- What a record does to one asset. -/
def apply (v : AssetView) (record : PersistedRecord) : AssetView :=
  (v.before a record).own a record

/-- Apply records in order. -/
def applyAll (v : AssetView) (records : List PersistedRecord) : AssetView :=
  records.foldl (fun v record => v.apply a record) v

@[simp] theorem applyAll_nil (v : AssetView) : v.applyAll a [] = v := rfl

@[simp] theorem applyAll_cons (v : AssetView) (record : PersistedRecord)
    (records : List PersistedRecord) :
    v.applyAll a (record :: records) = (v.apply a record).applyAll a records := rfl

/-- Applying records in two parts. -/
theorem applyAll_append (v : AssetView) (xs ys : List PersistedRecord) :
    v.applyAll a (xs ++ ys) = (v.applyAll a xs).applyAll a ys := by
  simp [applyAll, List.foldl_append]

@[simp] theorem flush_pending (v : AssetView) : (v.flush a).pending = none := by
  unfold flush
  split
  · assumption
  · rfl

/-- With nothing buffered, there is nothing to materialize. -/
theorem flush_of_pending_none {v : AssetView} (h : v.pending = none) :
    v.flush a = v := by
  unfold flush
  rw [h]

@[simp] theorem flush_flush (v : AssetView) : (v.flush a).flush a = v.flush a :=
  flush_of_pending_none a (flush_pending a v)

/-- With nothing buffered, no record closes a group. -/
theorem before_of_pending_none {v : AssetView} {record : PersistedRecord}
    (h : v.pending = none) : v.before a record = v := by
  simp [before, h]

end AssetView

namespace LiveState

variable (a : AssetId)

/-- One asset's share of a live state. -/
def view (s : LiveState) : AssetView := ⟨s.assets[a]?, s.pendingSnapshots[a]?⟩

@[simp] theorem view_new (mode : FeedMode) : (new mode).view a = AssetView.empty := by
  simp [view, new, AssetView.empty]

/-- The asset's state, a new one where there is none. -/
theorem ensureAsset_eq (s : LiveState) : s.ensureAsset a = (s.view a).stateD a := rfl

/-- The asset's book, in its view. -/
theorem book_eq (s : LiveState) : s.book a = ((s.view a).stateD a).book := rfl

/-- Whether the asset has a book, in its view. -/
theorem initialized_eq (s : LiveState) :
    s.initialized a = ((s.view a).stateD a).initializedFromSnapshot := rfl

/-- Whether a checkpoint would be applied, in its view. -/
theorem uninitialized_eq (s : LiveState) :
    s.uninitialized a = !((s.view a).stateD a).initializedFromSnapshot := by
  unfold uninitialized AssetView.stateD view
  cases s.assets[a]? <;> simp [AssetState.new]

/-- Setting one asset touches no other. -/
theorem view_setAsset (s : LiveState) (b : AssetId) (state : AssetState) :
    (s.setAsset b state).view a =
      if a = b then (s.view a).setState state else s.view a := by
  simp only [view, setAsset, TreeMapLookup.getElem?_insert, AssetView.setState]
  split <;> rfl

/-- Materializing one asset's group touches no other. -/
theorem view_materializePendingForAsset (s : LiveState) (b : AssetId) :
    (s.materializePendingForAsset b).1.view a =
      if a = b then (s.view a).flush a else s.view a := by
  unfold materializePendingForAsset
  cases hb : s.pendingSnapshots[b]? with
  | none =>
      simp only
      split
      · rename_i hab
        subst hab
        exact (AssetView.flush_of_pending_none a (v := s.view a) hb).symm
      · rfl
  | some pending =>
      simp only [view_setAsset]
      split
      · rename_i hab
        subst hab
        simp [view, AssetView.flush, AssetView.setState, hb, ensureAsset, AssetView.stateD]
      · rename_i hab
        simp [view, TreeMapLookup.getElem?_erase, hab]

/-- Materializing the groups of some assets touches no other. -/
theorem view_materializeKeys (s : LiveState) (keys : List AssetId) :
    (s.materializeKeys keys).1.view a =
      if a ∈ keys then (s.view a).flush a else s.view a := by
  suffices h : ∀ acc : LiveState × List AssetId,
      (keys.foldl (fun acc assetId =>
        let next := acc.1.materializePendingForAsset assetId
        (next.1, if next.2 then acc.2 ++ [assetId] else acc.2)) acc).1.view a =
        if a ∈ keys then (acc.1.view a).flush a else acc.1.view a by
    exact h (s, [])
  induction keys with
  | nil => intro acc; simp
  | cons b keys ih =>
      intro acc
      rw [List.foldl_cons, ih]
      simp only [view_materializePendingForAsset, List.mem_cons]
      by_cases hab : a = b
      · simp [hab]
      · simp [hab]

/-- Materializing everything materializes the asset's group. -/
theorem view_materializeAllPending (s : LiveState) :
    s.materializeAllPending.1.view a = (s.view a).flush a := by
  unfold materializeAllPending
  rw [view_materializeKeys]
  split
  · rfl
  · rename_i h
    rw [TreeMapLookup.mem_keys_iff] at h
    refine (AssetView.flush_of_pending_none a ?_).symm
    simpa [view] using h

/-- Settling materializes the asset's group. -/
theorem view_settled (s : LiveState) : s.settled.view a = (s.view a).flush a :=
  view_materializeAllPending a s

/-- What is materialized before a record concerns the asset only where its group ends. -/
theorem view_materializePendingBeforeRecord (s : LiveState) (record : PersistedRecord) :
    (s.materializePendingBeforeRecord record).1.view a = (s.view a).before a record := by
  have hall : (∀ pending, AssetView.ends record pending = true) →
      s.materializeAllPending.1.view a = (s.view a).before a record := by
    intro h
    rw [view_materializeAllPending, AssetView.before]
    cases hp : (s.view a).pending with
    | none => simp [AssetView.flush_of_pending_none a hp]
    | some pending => simp [h pending]
  cases record with
  | book event =>
      cases hk : event.kind with
      | snapshot =>
          simp only [materializePendingBeforeRecord, hk]
          rw [view_materializeKeys]
          simp only [TreeMapLookup.mem_filter_toList_iff, AssetView.before, view]
          have hends : AssetView.ends (.book event) = fun v => v.key != event.groupKey := by
            funext v
            simp [AssetView.ends, hk]
          rw [hends]
          congr
      | delta =>
          simp only [materializePendingBeforeRecord, hk]
          exact hall (fun pending => by simp [AssetView.ends, hk])
  | trade event => exact hall (fun _ => rfl)
  | ingest event => exact hall (fun _ => rfl)
  | checkpoint event => exact hall (fun _ => rfl)
  | validation event => exact hall (fun _ => rfl)

/-- A snapshot record of the buffered group ends no other. -/
theorem endOtherGroup_eq_self (s : LiveState) (event : BookEvent)
    (h : (s.view event.assetId).pending.all fun p => p.key = event.groupKey) :
    s.endOtherGroup event = s := by
  unfold endOtherGroup
  split
  · rename_i pending hp
    rw [if_pos]
    simpa [view, hp] using h
  · rfl

/-- A snapshot record joins the buffered group of its asset. -/
theorem view_recordSnapshotEvent (s : LiveState) (event : BookEvent)
    (h : (s.view event.assetId).pending.all fun p => p.key = event.groupKey) :
    (s.recordSnapshotEvent event).view a =
      if a = event.assetId then (s.view a).recordSnapshotEvent a event else s.view a := by
  unfold recordSnapshotEvent
  rw [endOtherGroup_eq_self s event h, view_setAsset]
  split
  · rename_i hab
    subst hab
    simp [view, AssetView.recordSnapshotEvent, AssetView.setState, ensureAsset,
      AssetView.stateD]
  · rename_i hab
    simp [view, TreeMapLookup.getElem?_insert, hab]

/-- An ingest event leaves its warning at its asset. -/
theorem view_recordIngestEvent (s : LiveState) (event : IngestEvent) :
    (s.recordIngestEvent event).view a =
      if event.assetId = some a then
        (s.view a).setState
          { (s.view a).stateD a with latestWarning := some (ingestWarning event) }
      else s.view a := by
  have hset : ∀ (t : LiveState) (b : AssetId), t.view a = s.view a →
      (t.setAsset b
        { t.ensureAsset b with latestWarning := some (ingestWarning event) }).view a =
      if some b = some a then
        (s.view a).setState
          { (s.view a).stateD a with latestWarning := some (ingestWarning event) }
      else s.view a := by
    intro t b ht
    rw [← ht, view_setAsset, ensureAsset_eq]
    by_cases hab : a = b
    · simp [hab]
    · have hba : ¬ b = a := fun h => hab h.symm
      simp [hab, hba]
  unfold recordIngestEvent
  cases event.assetId with
  | none => cases event.kind <;> simp [view]
  | some b => cases event.kind <;> exact hset _ b rfl

/-- **One asset at a time.**  Applying a record to the live state does to each
asset exactly what the one-asset machine does. -/
theorem view_applyRecord (s : LiveState) (record : PersistedRecord) :
    (s.applyRecord record).1.view a = (s.view a).apply a record := by
  have hbefore := fun b => view_materializePendingBeforeRecord b s record
  unfold applyRecord AssetView.apply
  generalize s.materializePendingBeforeRecord record = mid at hbefore
  rw [← hbefore a]
  cases record with
  | book event =>
      cases hk : event.kind with
      | snapshot =>
          simp only [AssetView.own, hk]
          rw [view_recordSnapshotEvent]
          · simp only [eq_comm]
          · rw [hbefore, AssetView.before]
            split
            · simp
            · rename_i h
              cases hp : (s.view event.assetId).pending <;>
                simp [hp, AssetView.ends, hk] at h ⊢
              exact h
      | delta =>
          simp only [AssetView.own, hk, recordDeltaEvent, view_setAsset, ensureAsset_eq]
          by_cases hab : a = event.assetId
          · simp [hab]
          · simp [hab, eq_comm]
  | trade event => rfl
  | ingest event =>
      simp only [AssetView.own]
      exact view_recordIngestEvent a _ event
  | checkpoint checkpoint =>
      simp only [AssetView.own, uninitialized_eq]
      by_cases hab : a = checkpoint.assetId
      · subst hab
        cases hi : ((mid.1.view checkpoint.assetId).stateD
          checkpoint.assetId).initializedFromSnapshot <;>
          simp [applyCheckpoint, view_setAsset, ensureAsset_eq]
      · have hba : ¬ checkpoint.assetId = a := fun h => hab h.symm
        simp only [hba, false_and, if_false]
        split
        · simp [applyCheckpoint, view_setAsset, hab]
        · rfl
  | validation event => rfl

/-- A run of the live state, seen from one asset. -/
theorem view_applyRecords (s : LiveState) (records : List PersistedRecord) :
    (s.applyRecords records).view a = (s.view a).applyAll a records := by
  induction records generalizing s with
  | nil => rfl
  | cons record records ih =>
      rw [AssetView.applyAll_cons, ← view_applyRecord]
      exact ih (s.applyRecord record).1

/-- Replay records into an empty state and apply the groups left open. -/
def replay (mode : FeedMode) (records : List PersistedRecord) : LiveState :=
  ((new mode).applyRecords records).settled

/-- **Replay, seen by one asset.** -/
theorem view_replay (mode : FeedMode) (records : List PersistedRecord) :
    (replay mode records).view a = (AssetView.empty.applyAll a records).flush a := by
  rw [replay, view_settled, view_applyRecords, view_new]

end LiveState

end PolyBook
