import PolyBook.Rehydration

/-!
# The model that a log hydrates

What `serve` hydrates is what the checkpoints and the entries of the log make of a new
model (`hydrateFrom_model`), and one entry more is one record more applied
(`hydratedFrom_concat`): the flag of readiness makes no difference to a record.
-/

namespace PolyBook

open Wal

/-! ## The flag of readiness -/

namespace LiveState

/-- The state with another flag. -/
def marked (b : Bool) (s : LiveState) : LiveState := { s with hydrated := b }

variable (s : LiveState) (b : Bool)

theorem materializePendingForAsset_marked (assetId : AssetId) :
    (s.marked b).materializePendingForAsset assetId =
      ((s.materializePendingForAsset assetId).1.marked b,
        (s.materializePendingForAsset assetId).2) := by
  unfold materializePendingForAsset marked
  dsimp only
  cases s.pendingSnapshots[assetId]? with
  | none => rfl
  | some pending => rfl

theorem materializeKeys_marked (keys : List AssetId) :
    (s.marked b).materializeKeys keys =
      ((s.materializeKeys keys).1.marked b, (s.materializeKeys keys).2) := by
  let mark : LiveState × List AssetId → LiveState × List AssetId := fun acc =>
    (acc.1.marked b, acc.2)
  refine (List.foldl_hom mark fun acc assetId => ?_ :
    keys.foldl _ (mark (s, [])) = mark (keys.foldl _ (s, [])))
  dsimp only [mark]
  rw [materializePendingForAsset_marked]

theorem materializePendingBeforeRecord_marked (record : PersistedRecord) :
    (s.marked b).materializePendingBeforeRecord record =
      ((s.materializePendingBeforeRecord record).1.marked b,
        (s.materializePendingBeforeRecord record).2) := by
  unfold materializePendingBeforeRecord materializeAllPending
  cases record with
  | book event =>
      dsimp only
      cases event.kind <;> exact s.materializeKeys_marked b _
  | trade _ => exact s.materializeKeys_marked b _
  | ingest _ => exact s.materializeKeys_marked b _
  | checkpoint _ => exact s.materializeKeys_marked b _
  | validation _ => exact s.materializeKeys_marked b _

theorem endOtherGroup_marked (event : BookEvent) :
    (s.marked b).endOtherGroup event = (s.endOtherGroup event).marked b := by
  have hpending : (s.marked b).pendingSnapshots = s.pendingSnapshots := rfl
  unfold endOtherGroup
  rw [hpending]
  cases s.pendingSnapshots[event.assetId]? with
  | none => rfl
  | some pending =>
      dsimp only
      split
      · rfl
      · rw [materializePendingForAsset_marked]

/-- No record looks at the flag or changes it. -/
theorem applyRecord_marked (record : PersistedRecord) :
    ((s.marked b).applyRecord record).1 = (s.applyRecord record).1.marked b := by
  unfold applyRecord
  rw [materializePendingBeforeRecord_marked]
  generalize s.materializePendingBeforeRecord record = materialized
  obtain ⟨s, done⟩ := materialized
  dsimp only
  cases record with
  | book event =>
      dsimp only
      cases event.kind with
      | snapshot =>
          dsimp only
          unfold recordSnapshotEvent
          rw [endOtherGroup_marked]
          rfl
      | delta => rfl
  | ingest event =>
      dsimp only
      unfold recordIngestEvent
      cases event.kind <;> cases event.assetId <;> rfl
  | checkpoint checkpoint =>
      dsimp only
      have hsame : (s.marked b).uninitialized checkpoint.assetId =
          s.uninitialized checkpoint.assetId := rfl
      rw [hsame]
      split <;> rfl
  | trade _ => rfl
  | validation _ => rfl

theorem applyRecords_marked (records : List PersistedRecord) :
    (s.marked b).applyRecords records = (s.applyRecords records).marked b :=
  List.foldl_hom (marked b) fun s record => s.applyRecord_marked b record

end LiveState

/-! ## What a hydration makes of a log -/

section

variable [Bincode]

/-- Every payload decodes. -/
def Decodes (entries : List (WalPosition × Bytes)) : Prop :=
  ∀ x ∈ entries, (Codec.decode x.2).isOk = true

theorem tailRecords_append {config : WalConfig} {fromGlobalOffset : Option Nat}
    {offsets : CheckpointOffsets} {xs : List (WalPosition × Bytes)} (h : Decodes xs)
    (ys : List (WalPosition × Bytes)) :
    tailRecords config fromGlobalOffset offsets (xs ++ ys) =
      tailRecords config fromGlobalOffset offsets xs ++
        tailRecords config fromGlobalOffset offsets ys := by
  induction xs with
  | nil => rfl
  | cons x xs ih =>
      have ih := ih fun y hy => h y (List.mem_cons_of_mem _ hy)
      have hx := h x List.mem_cons_self
      rw [List.cons_append, tailRecords, tailRecords, ih]
      split
      · rfl
      · cases hdecode : Codec.decode x.2 with
        | error e =>
            rw [hdecode] at hx
            cases hx
        | ok record =>
            dsimp only
            split <;> rfl

/-- A record past all cuts is applied. -/
theorem tailRecords_of_past {config : WalConfig} {tokenIds : List AssetId}
    {offsets : CheckpointOffsets} {x : WalPosition × Bytes} {record : PersistedRecord}
    (hdecode : Codec.decode x.2 = .ok record)
    (hpast : ∀ (asset : AssetId) cut, offsets[asset]? = some cut → cut < x.1.globalOffset config) :
    tailRecords config (walResumeOffset tokenIds offsets) offsets [x] = [record] := by
  have hresume : behind (walResumeOffset tokenIds offsets) (x.1.globalOffset config) = false := by
    cases hsmallest : walResumeOffset tokenIds offsets with
    | none => rfl
    | some smallest =>
        unfold walResumeOffset at hsmallest
        split at hsmallest
        · obtain ⟨entry, hentry, rfl⟩ :=
            List.mem_map.mp (List.min?_eq_some_iff.mp hsmallest).1
          have hcut := hpast entry.1 entry.2
            (Std.ExtTreeMap.mem_toList_iff_getElem?_eq_some.mp hentry)
          simp [behind, hcut]
        · cases hsmallest
  have hown : behind offsets[record.assetPartition]? (x.1.globalOffset config) = false := by
    cases hcut : offsets[record.assetPartition]? with
    | none => rfl
    | some cut => simp [behind, hpast _ cut hcut]
  simp only [tailRecords, hresume, hdecode, hown, Bool.false_eq_true, if_false]

end

namespace ServeRuntime

section

variable [Bincode] (config : WalConfig) (tokenIds : List AssetId)

/-- The model before it is hydrated. -/
def freshModel : LiveState := (LiveState.new .fixedTokens).setActiveAssets tokenIds

/-- The cuts of the checkpoints. -/
def cuts (inventory : CheckpointInventory) : CheckpointOffsets :=
  checkpointOffsets tokenIds (inventoried (some inventory))

/-- What a hydration makes of the records of a log. -/
def hydratedFrom (inventory : CheckpointInventory) (entries : List (WalPosition × Bytes)) :
    LiveState :=
  let checkpoints := usableCheckpoints true tokenIds (inventoried (some inventory))
  let offsets := cuts tokenIds inventory
  ((checkpoints.foldl LiveState.applyCheckpoint ((freshModel tokenIds).marked false)).applyRecords
    (tailRecords config (walResumeOffset tokenIds offsets) offsets entries)).marked
      (!inventoryFailed (some inventory))

/-- The model takes the next record as a hydration of one record more would. -/
theorem hydratedFrom_concat {inventory : CheckpointInventory}
    {entries : List (WalPosition × Bytes)} (h : Decodes entries) {x : WalPosition × Bytes}
    {record : PersistedRecord} (hdecode : Codec.decode x.2 = .ok record)
    (hpast : ∀ (asset : AssetId) cut, (cuts tokenIds inventory)[asset]? = some cut →
      cut < x.1.globalOffset config) :
    hydratedFrom config tokenIds inventory (entries ++ [x]) =
      (hydratedFrom config tokenIds inventory entries).applyRecords [record] := by
  unfold hydratedFrom
  dsimp only
  rw [tailRecords_append h, tailRecords_of_past hdecode hpast, LiveState.applyRecords_marked,
    LiveState.applyRecords, List.foldl_append]
  rfl

variable [Crc32c]

/-- `hydrate`, as it is called here. -/
def hydrateFrom (model : LiveState) (inventory : CheckpointInventory) (dir : Dir) : Hydration :=
  hydrate model (some inventory) (some (config, some ⟨dir, none⟩)) tokenIds

/-- What a new model is hydrated to, and where the hydration ends. -/
theorem hydrateFrom_model (inventory : CheckpointInventory) (dir : Dir)
    (h : Decodes (intact (WalDirectory.mk dir none).frames)) :
    (hydrateFrom config tokenIds (freshModel tokenIds) inventory dir).model =
        hydratedFrom config tokenIds inventory (intact (WalDirectory.mk dir none).frames) ∧
      (hydrateFrom config tokenIds (freshModel tokenIds) inventory dir).result.walEndPosition =
        some (WalDirectory.mk dir none).finish := by
  have hmodel := hydrate_model (freshModel tokenIds) (some inventory)
    (some (config, some ⟨dir, none⟩)) tokenIds
  have happlied := hydrate_applied (freshModel tokenIds) (some inventory)
    (some (config, some ⟨dir, none⟩)) tokenIds
  obtain ⟨start, -, -, hend, hsucceeded⟩ := hydrate_of_wal (freshModel tokenIds) (some inventory)
    config ⟨dir, none⟩ tokenIds
  dsimp only at hmodel
  rw [happlied, hsucceeded] at hmodel
  cases replayWalTail_spec start config ⟨dir, none⟩ (walResumeOffset tokenIds
      (checkpointOffsets tokenIds (inventoried (some inventory))))
      (checkpointOffsets tokenIds (inventoried (some inventory))) with
  | stopped hstopped hmem hahead hdecode =>
      have hok := h _ hmem
      rw [hdecode] at hok
      cases hok
  | complete hcomplete hfinish hintact haccounted =>
      rw [hcomplete, Bool.and_true] at hmodel
      refine ⟨hmodel.trans ?_, hend.trans (congrArg some hfinish)⟩
      unfold hydratedFrom cuts replayedRecords
      dsimp only
      cases inventory with
      | ok checkpoints => rfl
      | error e =>
          have hnone : usableCheckpoints true tokenIds [] = [] := by
            rw [usableCheckpoints, List.zip_nil_right]
            rfl
          simp only [inventoried, Option.isSome_some, hnone, List.foldl_nil]
          rw [← LiveState.applyRecords_marked]
          rfl

end

end ServeRuntime

end PolyBook
