import PolyBook.Projector

/-!
# Changing the active set

A rotation gives the new list of assets to two components.  The live state moves
the kept states into a new map, entry by entry; the broadcast drops the channels of
the other assets and opens the missing ones.

The live state takes an asset that is named twice out of the old map at its first
mention and finds it missing at the second.  `rotationKeeps_iff` shows that nothing
else is lost.
-/

namespace PolyBook

/-! ## The channels -/

/-- One sender for each active asset. -/
structure PerAssetBroadcast (Sender : Type) where
  inner : Std.ExtTreeMap AssetId Sender

namespace PerAssetBroadcast

variable {Sender : Type}

/-- `entry(assetId).or_insert_with(..)`. -/
def entryOrInsert (channels : Std.ExtTreeMap AssetId Sender) (assetId : AssetId)
    (sender : Sender) : Std.ExtTreeMap AssetId Sender :=
  match channels[assetId]? with
  | some _ => channels
  | none => channels.insert assetId sender

/-- Make the listed assets the ones with a channel; `channel` opens a new one. -/
def setActiveAssets (b : PerAssetBroadcast Sender) (channel : AssetId → Sender)
    (assets : List AssetId) : PerAssetBroadcast Sender where
  inner := assets.foldl (fun channels assetId => entryOrInsert channels assetId (channel assetId))
    (b.inner.filter fun assetId _ => decide (assetId ∈ assets))

theorem getElem?_entryOrInsert (channels : Std.ExtTreeMap AssetId Sender) (assetId : AssetId)
    (sender : Sender) (a : AssetId) :
    (entryOrInsert channels assetId sender)[a]? =
      if a = assetId then some (channels[a]?.getD sender) else channels[a]? := by
  unfold entryOrInsert
  cases hfound : channels[assetId]? with
  | some open_ =>
      by_cases ha : a = assetId
      · rw [if_pos ha, ha, hfound, Option.getD_some]
      · rw [if_neg ha]
  | none =>
      dsimp only
      rw [TreeMapLookup.getElem?_insert]
      by_cases ha : a = assetId
      · rw [if_pos ha, if_pos ha, ha, hfound, Option.getD_none]
      · rw [if_neg ha, if_neg ha]

theorem getElem?_foldl_entryOrInsert (channel : AssetId → Sender) (assets : List AssetId)
    (channels : Std.ExtTreeMap AssetId Sender) (a : AssetId) :
    (assets.foldl (fun channels assetId => entryOrInsert channels assetId (channel assetId))
      channels)[a]? =
      if a ∈ assets then some (channels[a]?.getD (channel a)) else channels[a]? := by
  induction assets generalizing channels with
  | nil => simp
  | cons b assets ih =>
      rw [List.foldl_cons, ih, getElem?_entryOrInsert]
      by_cases hab : a = b
      · simp [hab]
      · simp [hab]

/-- **The channels after a rotation.** -/
theorem getElem?_setActiveAssets (b : PerAssetBroadcast Sender) (channel : AssetId → Sender)
    (assets : List AssetId) (a : AssetId) :
    (b.setActiveAssets channel assets).inner[a]? =
      if a ∈ assets then some (b.inner[a]?.getD (channel a)) else none := by
  unfold setActiveAssets
  dsimp only
  rw [getElem?_foldl_entryOrInsert, TreeMapLookup.getElem?_filter_key]
  by_cases ha : a ∈ assets
  · simp [ha]
  · simp [ha]

end PerAssetBroadcast

/-! ## The states -/

/-- **The states after a rotation.**  The state of an asset that is named again has
been moved away. -/
theorem getElem?_retainAssets (states : Std.ExtTreeMap AssetId AssetState)
    (assets : List AssetId) (a : AssetId) :
    (retainAssets states assets)[a]? =
      if a ∈ assets then
        some (if assets.count a = 1 then states[a]?.getD (AssetState.new a)
          else AssetState.new a)
      else none := by
  suffices h : ∀ moved : Std.ExtTreeMap AssetId AssetState × Std.ExtTreeMap AssetId AssetState,
      (assets.foldl (fun moved assetId =>
        (moved.1.erase assetId,
          moved.2.insert assetId (moved.1[assetId]?.getD (AssetState.new assetId)))) moved).2[a]? =
        if a ∈ assets then
          some (if assets.count a = 1 then moved.1[a]?.getD (AssetState.new a)
            else AssetState.new a)
        else moved.2[a]? by
    rw [retainAssets, h]
    simp
  induction assets with
  | nil => simp
  | cons b assets ih =>
      intro moved
      rw [List.foldl_cons, ih]
      dsimp only
      rw [TreeMapLookup.getElem?_erase, TreeMapLookup.getElem?_insert]
      by_cases hab : a = b
      · subst hab
        by_cases hmem : a ∈ assets
        · have hrepeated : assets.count a ≠ 0 := Nat.ne_of_gt (List.count_pos_iff.mpr hmem)
          simp [hmem, hrepeated]
        · simp [hmem, List.count_eq_zero_of_not_mem hmem]
      · have hba : b ≠ a := fun h => hab h.symm
        simp [hab, List.count_cons_of_ne hba]

namespace LiveState

theorem getElem?_pendingSnapshots_setActiveAssets (s : LiveState) (assets : List AssetId)
    (a : AssetId) :
    (s.setActiveAssets assets).pendingSnapshots[a]? =
      if a ∈ assets then s.pendingSnapshots[a]? else none := by
  unfold setActiveAssets
  dsimp only
  rw [TreeMapLookup.getElem?_filter_key]
  by_cases ha : a ∈ assets
  · simp [ha]
  · simp [ha]

/-- A list that has been applied changes nothing when it is applied again. -/
theorem setActiveAssets_again (s : LiveState) (assets : List AssetId) :
    (s.setActiveAssets assets).setActiveAssets assets = s.setActiveAssets assets := by
  have hassets : retainAssets (retainAssets s.assets assets) assets =
      retainAssets s.assets assets := by
    apply Std.ExtTreeMap.ext_getElem?
    intro a
    rw [getElem?_retainAssets, getElem?_retainAssets]
    by_cases ha : a ∈ assets
    · rw [if_pos ha, if_pos ha, Option.getD_some]
      by_cases honce : assets.count a = 1
      · rw [if_pos honce, if_pos honce]
      · rw [if_neg honce, if_neg honce]
    · rw [if_neg ha, if_neg ha]
  have hpending : ((s.setActiveAssets assets).setActiveAssets assets).pendingSnapshots =
      (s.setActiveAssets assets).pendingSnapshots := by
    apply Std.ExtTreeMap.ext_getElem?
    intro a
    rw [getElem?_pendingSnapshots_setActiveAssets, getElem?_pendingSnapshots_setActiveAssets]
    by_cases ha : a ∈ assets
    · rw [if_pos ha]
    · rw [if_neg ha, if_neg ha]
  unfold setActiveAssets at hpending ⊢
  dsimp only at hpending ⊢
  rw [hassets, hpending]

end LiveState

theorem PerAssetBroadcast.setActiveAssets_again {Sender : Type} (b : PerAssetBroadcast Sender)
    (channel channel' : AssetId → Sender) (assets : List AssetId) :
    (b.setActiveAssets channel assets).setActiveAssets channel' assets =
      b.setActiveAssets channel assets := by
  have hinner : ((b.setActiveAssets channel assets).setActiveAssets channel' assets).inner =
      (b.setActiveAssets channel assets).inner := by
    apply Std.ExtTreeMap.ext_getElem?
    intro a
    rw [getElem?_setActiveAssets, getElem?_setActiveAssets]
    by_cases ha : a ∈ assets
    · rw [if_pos ha, if_pos ha, Option.getD_some]
    · rw [if_neg ha, if_neg ha]
  exact congrArg PerAssetBroadcast.mk hinner

/-! ## A rotation -/

/-- What a rotation to the listed assets keeps, drops and adds. -/
structure RotationKeeps {Sender : Type} (s s' : LiveState) (b b' : PerAssetBroadcast Sender)
    (assets : List AssetId) : Prop where
  retained : ∀ a ∈ assets, ∀ state, s.assets[a]? = some state →
    s'.assets[a]? = some state ∧ s'.pendingSnapshots[a]? = s.pendingSnapshots[a]?
  dropped : ∀ a ∉ assets, s'.assets[a]? = none ∧ s'.pendingSnapshots[a]? = none
  added : ∀ a ∈ assets, s.assets[a]? = none → s'.assets[a]? = some (AssetState.new a)
  again : s'.setActiveAssets assets = s' ∧
    ∀ channel : AssetId → Sender, b'.setActiveAssets channel assets = b'
  lockstep : ∀ a, a ∈ b'.inner.keys ↔ a ∈ s'.assets.keys
  preserved : ∀ a ∈ assets, ∀ sender, b.inner[a]? = some sender → b'.inner[a]? = some sender

/-- An asset that is named more than once is not tracked, or nothing has happened to
it yet. -/
def RepeatsUntouched (s : LiveState) (assets : List AssetId) : Prop :=
  ∀ a, 1 < assets.count a → ∀ state, s.assets[a]? = some state → state = AssetState.new a

/-- **When a rotation keeps the retained books**: no asset that is named more than
once had a state to lose. -/
theorem rotationKeeps_iff {Sender : Type} (p : Projector) (b : PerAssetBroadcast Sender)
    (channel : AssetId → Sender) (assets : List AssetId) :
    RotationKeeps p.state (p.handleCommand (.setActiveAssets assets)).state b
        (b.setActiveAssets channel assets) assets ↔
      RepeatsUntouched p.state assets := by
  have hstate : (p.handleCommand (.setActiveAssets assets)).state =
      p.state.setActiveAssets assets := rfl
  have hlookup : ∀ a, (p.state.setActiveAssets assets).assets[a]? = _ :=
    getElem?_retainAssets p.state.assets assets
  rw [hstate]
  constructor
  · intro hkeeps a hcount state hfound
    have hmem : a ∈ assets := List.count_pos_iff.mp (by omega)
    have hkept := (hkeeps.retained a hmem state hfound).1
    rw [hlookup, if_pos hmem, if_neg (by omega)] at hkept
    exact (Option.some.inj hkept).symm
  · intro huntouched
    refine ⟨fun a hmem state hfound => ⟨?_, ?_⟩, fun a hmem => ⟨?_, ?_⟩, fun a hmem hfound => ?_,
      ⟨p.state.setActiveAssets_again assets, fun channel' =>
        b.setActiveAssets_again channel channel' assets⟩, fun a => ?_,
      fun a hmem sender hfound => ?_⟩
    · rw [hlookup, if_pos hmem, hfound, Option.getD_some]
      by_cases honce : assets.count a = 1
      · rw [if_pos honce]
      · have hcount := List.count_pos_iff.mpr hmem
        rw [if_neg honce, huntouched a (by omega) state hfound]
    · rw [LiveState.getElem?_pendingSnapshots_setActiveAssets, if_pos hmem]
    · rw [hlookup, if_neg hmem]
    · rw [LiveState.getElem?_pendingSnapshots_setActiveAssets, if_neg hmem]
    · rw [hlookup, if_pos hmem, hfound, Option.getD_none, ite_self]
    · rw [TreeMapLookup.mem_keys_iff, TreeMapLookup.mem_keys_iff, hlookup,
        PerAssetBroadcast.getElem?_setActiveAssets]
      by_cases hmem : a ∈ assets
      · simp [hmem]
      · simp [hmem]
    · rw [PerAssetBroadcast.getElem?_setActiveAssets, if_pos hmem, hfound, Option.getD_some]

/-! A list that names an asset twice, after a checkpoint of the asset. -/
namespace NamedTwice

/-- The checkpoint of the sample. -/
def checkpoint : BookCheckpoint where
  assetId := "tok1"
  checkpointTimestampUs := 1
  provenance := Sample.provenance 1 "checkpoint"
  bids := [⟨Sample.price 40, Sample.size 1⟩]
  asks := [⟨Sample.price 60, Sample.size 1⟩]
  walOffset := none

/-- The projector of the sample, which serves one asset. -/
def projector : Projector :=
  (Projector.new .fixedTokens).run [.setActiveAssets ["tok1"], .hydrateCheckpoint checkpoint]

/-- The sample's new active set names the asset twice. -/
def assets : List AssetId := ["tok1", "tok1"]

end NamedTwice

/-- The second mention resets the book. -/
theorem named_twice_loses_book :
    ¬ RotationKeeps NamedTwice.projector.state
        (NamedTwice.projector.handleCommand (.setActiveAssets NamedTwice.assets)).state
        (PerAssetBroadcast.mk (∅ : Std.ExtTreeMap AssetId Unit))
        ((PerAssetBroadcast.mk ∅).setActiveAssets (fun _ => ()) NamedTwice.assets)
        NamedTwice.assets := by
  intro hkeeps
  have htracked : (NamedTwice.projector.state.assets["tok1"]?.map (·.initializedFromSnapshot)) =
      some true := by decide +kernel
  obtain ⟨state, hfound, hinit⟩ := Option.map_eq_some_iff.mp htracked
  have hkept := (hkeeps.retained "tok1" (by decide) state hfound).1
  have hlost : ((NamedTwice.projector.handleCommand
      (.setActiveAssets NamedTwice.assets)).state.assets["tok1"]?.map
        (·.initializedFromSnapshot)) = some false := by decide +kernel
  rw [hkept, Option.map_some, hinit] at hlost
  cases hlost

end PolyBook
