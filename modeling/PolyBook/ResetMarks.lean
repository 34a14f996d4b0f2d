import PolyBook.ActiveSet

/-!
# Books from before a reset

After a continuity reset an asset's book is served until a snapshot or a checkpoint
replaces it.  A reset that names the asset leaves its warning with the asset, and a
warning is replaced by later ones only, so every such read is marked.  A feed-wide
reset leaves its warning with the feed: `feedStatusRaw` tells it, a snapshot read tells
the warnings of its asset only.

`reset_marks` says both, for every run of the projector's commands.
-/

namespace PolyBook

namespace AssetState

/-- The asset has a warning. -/
def Warned (state : AssetState) : Prop := state.latestWarning.isSome = true

/-- An integrity check takes no warning away. -/
theorem warned_checkBookIntegrity {state : AssetState} (h : state.Warned) :
    state.checkBookIntegrity.Warned := by
  unfold checkBookIntegrity
  split
  · exact h
  · rfl

/-- A group that becomes the book takes no warning away. -/
theorem warned_materialize {state : AssetState} (h : state.Warned) (pending : PendingSnapshot) :
    (state.materialize pending).1.Warned := by
  unfold materialize
  split
  · rfl
  · exact warned_checkBookIntegrity h

/-- A level change takes no warning away. -/
theorem warned_recordDeltaEvent {state : AssetState} (h : state.Warned) (event : BookEvent) :
    (state.recordDeltaEvent event).Warned := by
  unfold recordDeltaEvent
  split
  · rfl
  · exact warned_checkBookIntegrity h

/-- A checkpoint takes no warning away. -/
theorem warned_applyCheckpoint {state : AssetState} (h : state.Warned)
    (checkpoint : BookCheckpoint) : (state.applyCheckpoint checkpoint).Warned := by
  unfold applyCheckpoint
  split
  · rfl
  · exact warned_checkBookIntegrity h

end AssetState

/-- A warning the book itself raises: it is crossed, or it has refused what was to be
applied. -/
def BookWarning (w : ContinuityWarning) : Prop :=
  w.kind = "crossed_book" ∨ w.kind = "book_apply_error"

/-- Warnings of the given kind only. -/
def Only (W : ContinuityWarning → Prop) (warning : Option ContinuityWarning) : Prop :=
  ∀ w, warning = some w → W w

namespace AssetState

variable {W : ContinuityWarning → Prop} (hbook : ∀ w, BookWarning w → W w) {state : AssetState}

include hbook

/-- An integrity check leaves a warning of the kind or `crossed_book`. -/
theorem only_checkBookIntegrity (h : Only W state.latestWarning) :
    Only W state.checkBookIntegrity.latestWarning := by
  unfold checkBookIntegrity
  split
  · exact h
  · rintro w ⟨⟩
    exact hbook _ (Or.inl rfl)

/-- A group that becomes the book leaves no other warning. -/
theorem only_materialize (h : Only W state.latestWarning) (pending : PendingSnapshot) :
    Only W (state.materialize pending).1.latestWarning := by
  unfold materialize
  split
  · rintro w ⟨⟩
    exact hbook _ (Or.inr rfl)
  · exact only_checkBookIntegrity hbook h

/-- A level change leaves no other warning. -/
theorem only_recordDeltaEvent (h : Only W state.latestWarning) (event : BookEvent) :
    Only W (state.recordDeltaEvent event).latestWarning := by
  unfold recordDeltaEvent
  split
  · rintro w ⟨⟩
    exact hbook _ (Or.inr rfl)
  · exact only_checkBookIntegrity hbook h

/-- A checkpoint leaves no other warning. -/
theorem only_applyCheckpoint (h : Only W state.latestWarning) (checkpoint : BookCheckpoint) :
    Only W (state.applyCheckpoint checkpoint).latestWarning := by
  unfold applyCheckpoint
  split
  · rintro w ⟨⟩
    exact hbook _ (Or.inr rfl)
  · exact only_checkBookIntegrity hbook h

end AssetState

/-- The warning of an asset that may be unknown. -/
def warningOf (state : Option AssetState) : Option ContinuityWarning := state.bind (·.latestWarning)

namespace AssetView

variable {W : ContinuityWarning → Prop} {a : AssetId} {v : AssetView}

/-- An asset that is not there has no warning. -/
theorem only_stateD (h : Only W (warningOf v.state)) : Only W (v.stateD a).latestWarning := by
  rw [stateD]
  cases hstate : v.state with
  | none =>
      intro w hw
      cases hw
  | some state =>
      rw [hstate] at h
      exact h

variable (hbook : ∀ w, BookWarning w → W w) (h : Only W (warningOf v.state))

include hbook h

/-- Materializing the buffered group leaves no other warning. -/
theorem only_flush : Only W (warningOf (v.flush a).state) := by
  unfold flush
  split
  · exact h
  · exact AssetState.only_materialize hbook (only_stateD h) _

/-- A record gives an asset the warning of a lifecycle event that names it, or one of its
book. -/
theorem only_apply {record : PersistedRecord} (hnew : ∀ event, record = .ingest event →
    event.assetId = some a → W (LiveState.ingestWarning event)) :
    Only W (warningOf (v.apply a record).state) := by
  have hbefore : Only W (warningOf (v.before a record).state) := by
    unfold before
    split
    · exact only_flush hbook h
    · exact h
  rw [apply]
  cases record with
  | book event =>
      simp only [own]
      split
      · split
        · exact only_stateD hbefore
        · exact AssetState.only_recordDeltaEvent hbook (only_stateD hbefore) event
      · exact hbefore
  | trade event => exact hbefore
  | ingest event =>
      simp only [own]
      split
      · rename_i hown
        rintro w ⟨⟩
        exact hnew event rfl hown
      · exact hbefore
  | checkpoint c =>
      simp only [own]
      split
      · exact AssetState.only_applyCheckpoint hbook (only_stateD hbefore) c
      · exact hbefore
  | validation event => exact hbefore

end AssetView

/-- An asset that has a book had it before, and has kept a warning it had. -/
def KeptBook (before after : Option AssetState) : Prop :=
  ∀ state, after = some state → state.initializedFromSnapshot = true →
    ∃ old, before = some old ∧ old.initializedFromSnapshot = true ∧ (old.Warned → state.Warned)

/-- Nothing happened to the book. -/
theorem KeptBook.refl (state : Option AssetState) : KeptBook state state :=
  fun s hs hinit => ⟨s, hs, hinit, id⟩

/-- A book kept twice is kept. -/
theorem KeptBook.trans {first second third : Option AssetState} (h : KeptBook first second)
    (h' : KeptBook second third) : KeptBook first third := by
  intro state hstate hinit
  obtain ⟨mid, hmid, hmid_init, hmid_warned⟩ := h' state hstate hinit
  obtain ⟨old, hold, hold_init, hold_warned⟩ := h mid hmid hmid_init
  exact ⟨old, hold, hold_init, fun hw => hmid_warned (hold_warned hw)⟩

/-- A change of an asset that brings no book. -/
theorem KeptBook.of_op {a : AssetId} {before : Option AssetState} {next : AssetState}
    (hinit : next.initializedFromSnapshot = true →
      (before.getD (AssetState.new a)).initializedFromSnapshot = true)
    (hwarned : (before.getD (AssetState.new a)).Warned → next.Warned) :
    KeptBook before (some next) := by
  rintro state ⟨⟩ hstate
  cases before with
  | none => cases hinit hstate
  | some old => exact ⟨old, rfl, hinit hstate, hwarned⟩

namespace AssetView

variable {a : AssetId} {v : AssetView}

/-- A refused group brings no book. -/
theorem keptBook_flush (h : ∀ p ∈ v.pending, fitsTotals p.bids p.asks = false) :
    KeptBook v.state (v.flush a).state := by
  unfold flush
  split
  · exact KeptBook.refl _
  · rename_i pending hpending
    refine KeptBook.of_op (a := a) ?_ fun hwarned => AssetState.warned_materialize hwarned pending
    rw [AssetState.materialize_initialized, h pending hpending, Bool.or_false]
    exact id

/-- A record before which nothing is materialized keeps the book. -/
theorem keptBook_before {record : PersistedRecord} (h : (v.pending.any fun p =>
    ends record p && fitsTotals p.bids p.asks) = false) :
    KeptBook v.state (v.before a record).state := by
  unfold before
  split
  · rename_i hends
    apply keptBook_flush
    intro p hp
    rw [Option.mem_def] at hp
    rw [hp] at h hends
    simp only [Option.any_some] at h hends
    rw [hends, Bool.true_and] at h
    exact h
  · exact KeptBook.refl _

/-- A record keeps the book, unless it is a checkpoint that gives the asset one. -/
theorem keptBook_own {record : PersistedRecord} (h : ∀ c, record = .checkpoint c →
    c.assetId = a → (v.stateD a).initializedFromSnapshot = false → c.fits = false) :
    KeptBook v.state (v.own a record).state := by
  cases record with
  | book event =>
      simp only [own]
      split
      · split
        · exact KeptBook.of_op (a := a) id id
        · refine KeptBook.of_op (a := a) ?_ fun hw => AssetState.warned_recordDeltaEvent hw event
          rw [AssetState.recordDeltaEvent_initialized]
          exact id
      · exact KeptBook.refl _
  | trade event => exact KeptBook.refl _
  | ingest event =>
      simp only [own]
      split
      · exact KeptBook.of_op (a := a) id fun _ => rfl
      · exact KeptBook.refl _
  | checkpoint c =>
      simp only [own]
      split
      · rename_i hown
        refine KeptBook.of_op (a := a) ?_ fun hw => AssetState.warned_applyCheckpoint hw c
        rw [AssetState.applyCheckpoint_initialized, h c rfl hown.1 hown.2, Bool.or_false]
        exact id
      · exact KeptBook.refl _
  | validation event => exact KeptBook.refl _

end AssetView

/-- Moving the states over hands out none but the old ones and fresh ones. -/
theorem retainAssets_cases (a : AssetId) (states : Std.ExtTreeMap AssetId AssetState)
    (assets : List AssetId) : (retainAssets states assets)[a]? = none ∨
      (retainAssets states assets)[a]? = some (AssetState.new a) ∨
      (retainAssets states assets)[a]? = states[a]? := by
  rw [getElem?_retainAssets]
  split
  · split
    · cases states[a]? with
      | none => exact Or.inr (Or.inl rfl)
      | some state => exact Or.inr (Or.inr rfl)
    · exact Or.inr (Or.inl rfl)
  · exact Or.inl rfl

/-- Assets that stay in the active set keep their book. -/
theorem keptBook_retainAssets (a : AssetId) (states : Std.ExtTreeMap AssetId AssetState)
    (assets : List AssetId) : KeptBook states[a]? (retainAssets states assets)[a]? := by
  rcases retainAssets_cases a states assets with hnone | hnew | hold
  · rw [hnone]
    exact fun state hstate => nomatch hstate
  · rw [hnew]
    rintro state ⟨⟩ hinit
    cases hinit
  · rw [hold]
    exact KeptBook.refl _

/-- Assets that stay in the active set keep their warning. -/
theorem only_retainAssets {W : ContinuityWarning → Prop} {a : AssetId}
    {states : Std.ExtTreeMap AssetId AssetState} (h : Only W (warningOf states[a]?))
    (assets : List AssetId) : Only W (warningOf (retainAssets states assets)[a]?) := by
  rcases retainAssets_cases a states assets with hnone | hnew | hold
  · rw [hnone]
    exact fun w hw => nomatch hw
  · rw [hnew]
    exact fun w hw => nomatch hw
  · rwa [hold]

/-- The asset pushed is among the assets. -/
theorem mem_pushUniqueAsset (assets : List AssetId) (a : AssetId) :
    a ∈ pushUniqueAsset assets a := by
  unfold pushUniqueAsset
  split
  · assumption
  · simp

namespace LiveState

/-- Whether a record materializes a snapshot or a checkpoint for the asset. -/
def materializes (s : LiveState) (a : AssetId) (record : PersistedRecord) : Bool :=
  (s.pendingSnapshots[a]?.any fun p =>
    AssetView.ends record p && fitsTotals p.bids p.asks) ||
    match record with
    | .checkpoint c =>
        c.assetId == a && (s.materializePendingBeforeRecord record).1.uninitialized a && c.fits
    | _ => false

/-- A record that materializes nothing of the asset keeps its book. -/
theorem keptBook_applyRecord {s : LiveState} {a : AssetId} {record : PersistedRecord}
    (h : s.materializes a record = false) :
    KeptBook s.assets[a]? (s.applyRecord record).1.assets[a]? := by
  obtain ⟨hpending, hcheckpoint⟩ := Bool.or_eq_false_iff.mp h
  have hview : (s.applyRecord record).1.assets[a]? = ((s.view a).apply a record).state :=
    congrArg AssetView.state (view_applyRecord a s record)
  rw [hview]
  have hbefore : KeptBook (s.view a).state ((s.view a).before a record).state :=
    AssetView.keptBook_before hpending
  apply hbefore.trans
  apply AssetView.keptBook_own
  rintro c rfl hown hinit
  rw [← view_materializePendingBeforeRecord] at hinit
  simpa [hown, uninitialized_eq, hinit] using hcheckpoint

/-- A lifecycle event is always worth publishing. -/
theorem shouldPublish_ingest (s : LiveState) (event : IngestEvent) :
    (s.applyRecord (.ingest event)).2.shouldPublish = true := by
  simp only [applyRecord]
  split <;> rfl

/-- An ingest event about an asset changes that asset. -/
theorem mem_changedAssets_ingest (s : LiveState) {event : IngestEvent} {a : AssetId}
    (h : event.assetId = some a) : a ∈ (s.applyRecord (.ingest event)).2.changedAssets := by
  simp only [applyRecord, h]
  exact mem_pushUniqueAsset _ a

/-- A checkpoint the asset does not take keeps its book. -/
theorem keptBook_applyCheckpoint {s : LiveState} {a : AssetId} {c : BookCheckpoint}
    (h : (c.assetId == a && c.fits) = false) :
    KeptBook s.assets[a]? (s.applyCheckpoint c).assets[a]? := by
  rw [applyCheckpoint, setAsset, TreeMapLookup.getElem?_insert]
  split
  · rename_i hab
    subst hab
    refine KeptBook.of_op (a := c.assetId) ?_ fun hw => AssetState.warned_applyCheckpoint hw c
    simp only [beq_self_eq_true, Bool.true_and] at h
    rw [AssetState.applyCheckpoint_initialized, h, Bool.or_false]
    exact id
  · exact KeptBook.refl _

end LiveState

namespace Projector

/-- Whether a command materializes a snapshot or a checkpoint for the asset. -/
def materializes (p : Projector) (a : AssetId) : ProjectorCommand → Bool
  | .record record => p.state.materializes a record
  | .recordAck record => p.state.materializes a record
  | .hydrateCheckpoint c => c.assetId == a && c.fits
  | .setActiveAssets _ => false
  | .setLastRotationUs _ => false
  | .configureBroadcast _ => false
  | .setHydrated _ => false

/-- The asset's warning in the projector's own state. -/
def warning (p : Projector) (a : AssetId) : Option ContinuityWarning :=
  p.state.assets[a]?.bind (·.latestWarning)

@[simp] theorem sendUpdates_state (p : Projector) (assetIds : List AssetId) :
    (p.sendUpdates assetIds).state = p.state := by
  unfold sendUpdates
  split <;> rfl

@[simp] theorem sendUpdates_published (p : Projector) (assetIds : List AssetId) :
    (p.sendUpdates assetIds).published = p.published := by
  unfold sendUpdates
  split <;> rfl

@[simp] theorem sendUpdates_watch (p : Projector) (assetIds : List AssetId) :
    (p.sendUpdates assetIds).watch = p.watch := by
  unfold sendUpdates
  split <;> rfl

@[simp] theorem applyAndBroadcast_state (p : Projector) (record : PersistedRecord) :
    (p.applyAndBroadcast record).state = (p.state.applyRecord record).1 := by
  simp only [applyAndBroadcast]
  split
  · rw [sendUpdates_state]
    rfl
  · rfl

/-- A record worth publishing is published at once. -/
theorem applyAndBroadcast_watch {p : Projector} {record : PersistedRecord}
    (h : (p.state.applyRecord record).2.shouldPublish = true) :
    (p.applyAndBroadcast record).watch = (p.applyAndBroadcast record).published := by
  simp only [applyAndBroadcast, h, if_true, sendUpdates_watch, sendUpdates_published]
  rfl

/-- A refresh changes the views of the listed assets only. -/
theorem getElem?_refreshAssetViews (s : LiveState) (a : AssetId) (assetIds : List AssetId)
    (views : Std.ExtTreeMap AssetId AssetReadView) :
    (assetIds.foldl (refreshAssetView s) views)[a]? =
      if a ∈ assetIds then s.buildAssetView a else views[a]? := by
  induction assetIds generalizing views with
  | nil => simp
  | cons b assetIds ih =>
      have hstep : (refreshAssetView s views b)[a]? =
          if a = b then s.buildAssetView a else views[a]? := by
        unfold refreshAssetView
        split
        · rename_i view hview
          rw [TreeMapLookup.getElem?_insert]
          split
          · rename_i hab
            rw [hab, hview]
          · rfl
        · rename_i hview
          rw [TreeMapLookup.getElem?_erase]
          split
          · rename_i hab
            rw [hab, hview]
          · rfl
      rw [List.foldl_cons, ih, hstep]
      by_cases hab : a = b
      · simp [hab]
      · simp [hab]

/-- All views together hold the view of each asset. -/
theorem getElem?_buildAssetViews (s : LiveState) (a : AssetId) :
    s.buildAssetViews[a]? = s.buildAssetView a := by
  rw [LiveState.buildAssetViews, Std.ExtTreeMap.getElem?_filterMap']
  cases h : s.assets[a]? <;> simp [LiveState.buildAssetView, h]

/-- A command that materializes nothing of the asset keeps its book. -/
theorem keptBook_handleCommand {p : Projector} {a : AssetId} {command : ProjectorCommand}
    (h : p.materializes a command = false) :
    KeptBook p.state.assets[a]? (p.handleCommand command).state.assets[a]? := by
  cases command with
  | record record =>
      rw [handleCommand, applyAndBroadcast_state]
      exact LiveState.keptBook_applyRecord h
  | recordAck record =>
      rw [handleCommand, applyAndBroadcast_state]
      exact LiveState.keptBook_applyRecord h
  | setActiveAssets assets => exact keptBook_retainAssets a p.state.assets assets
  | setLastRotationUs timestampUs => exact KeptBook.refl _
  | configureBroadcast depth => exact KeptBook.refl _
  | hydrateCheckpoint c => exact LiveState.keptBook_applyCheckpoint h
  | setHydrated hydrated => exact KeptBook.refl _

/-- A published view is an old one or one of the state. -/
theorem published_view {p : Projector} {a : AssetId} {command : ProjectorCommand}
    {view : AssetReadView} (h : (p.handleCommand command).published.assets[a]? = some view) :
    p.published.assets[a]? = some view ∨
      (p.handleCommand command).state.buildAssetView a = some view := by
  have hrecord : ∀ record, (p.applyAndBroadcast record).published.assets[a]? = some view →
      p.published.assets[a]? = some view ∨
        (p.applyAndBroadcast record).state.buildAssetView a = some view := by
    intro record
    rw [applyAndBroadcast_state]
    simp only [applyAndBroadcast]
    split
    · simp only [sendUpdates_published, publish, refreshAssetViews, getElem?_refreshAssetViews]
      split
      · exact Or.inr
      · exact Or.inl
    · exact Or.inl
  cases command with
  | record record => exact hrecord record h
  | recordAck record => exact hrecord record h
  | setActiveAssets assets =>
      apply Or.inr
      rw [← getElem?_buildAssetViews]
      exact h
  | setLastRotationUs timestampUs => exact Or.inl h
  | configureBroadcast depth => exact Or.inl h
  | hydrateCheckpoint c =>
      simp only [handleCommand, publish, refreshAssetViews, getElem?_refreshAssetViews] at h ⊢
      split at h
      · exact Or.inr h
      · exact Or.inl h
  | setHydrated hydrated => exact Or.inl h

/-- The watch keeps what it had or takes what is published. -/
theorem watch_cases (p : Projector) (command : ProjectorCommand) :
    ((p.handleCommand command).watch = p.watch ∧
        (p.handleCommand command).published = p.published) ∨
      (p.handleCommand command).watch = (p.handleCommand command).published := by
  have hrecord : ∀ record, ((p.applyAndBroadcast record).watch = p.watch ∧
        (p.applyAndBroadcast record).published = p.published) ∨
      (p.applyAndBroadcast record).watch = (p.applyAndBroadcast record).published := by
    intro record
    simp only [applyAndBroadcast]
    split
    · apply Or.inr
      rw [sendUpdates_watch, sendUpdates_published]
      rfl
    · exact Or.inl ⟨rfl, rfl⟩
  cases command with
  | record record => exact hrecord record
  | recordAck record => exact hrecord record
  | configureBroadcast depth => exact Or.inl ⟨rfl, rfl⟩
  | _ => exact Or.inr rfl

end Projector

/-- A book that is served only with a warning of the given kind. -/
def Marked (W : ContinuityWarning → Prop) (initialized : Bool)
    (warning : Option ContinuityWarning) : Prop :=
  initialized = true → ∃ w, warning = some w ∧ W w

/-- What holds of an asset wherever it is shown: in the projector's state and in everything
it has published. -/
structure ShownIn (p : Projector) (a : AssetId) (P : Bool → Option ContinuityWarning → Prop) :
    Prop where
  state : ∀ state, p.state.assets[a]? = some state →
    P state.initializedFromSnapshot state.latestWarning
  published : ∀ view, p.published.assets[a]? = some view →
    P view.initializedFromSnapshot view.latestWarning
  watch : ∀ view, p.watch.assets[a]? = some view →
    P view.initializedFromSnapshot view.latestWarning

/-- A built view shows what the state has. -/
theorem shown_buildAssetView {s : LiveState} {a : AssetId}
    {P : Bool → Option ContinuityWarning → Prop}
    (h : ∀ state, s.assets[a]? = some state → P state.initializedFromSnapshot state.latestWarning)
    {view : AssetReadView} (hview : s.buildAssetView a = some view) :
    P view.initializedFromSnapshot view.latestWarning := by
  obtain ⟨state, hstate, rfl⟩ := Option.map_eq_some_iff.mp hview
  exact h state hstate

/-- What a command keeps in the state it keeps in what is published. -/
theorem ShownIn.step {p : Projector} {a : AssetId}
    {P P' : Bool → Option ContinuityWarning → Prop} (h : ShownIn p a P)
    {command : ProjectorCommand} (hmono : ∀ initialized warning, P initialized warning →
      P' initialized warning)
    (hstate : ∀ state, (p.handleCommand command).state.assets[a]? = some state →
      P' state.initializedFromSnapshot state.latestWarning) :
    ShownIn (p.handleCommand command) a P' := by
  have hpublished : ∀ view, (p.handleCommand command).published.assets[a]? = some view →
      P' view.initializedFromSnapshot view.latestWarning := by
    intro view hview
    rcases Projector.published_view hview with hview | hview
    · exact hmono _ _ (h.published view hview)
    · exact shown_buildAssetView hstate hview
  refine ⟨hstate, hpublished, ?_⟩
  intro view hview
  rcases p.watch_cases command with ⟨hwatch, _⟩ | hwatch
  · rw [hwatch] at hview
    exact hmono _ _ (h.watch view hview)
  · rw [hwatch] at hview
    exact hpublished view hview

/-- The asset is marked wherever it is shown. -/
abbrev MarkedIn (p : Projector) (a : AssetId) (W : ContinuityWarning → Prop) : Prop :=
  ShownIn p a (Marked W)

/-- **One command.**  A command that materializes nothing for the asset leaves it
marked, by the old warning or by the one it brings. -/
theorem MarkedIn.step {p : Projector} {a : AssetId} {W W' : ContinuityWarning → Prop}
    (h : MarkedIn p a W) {command : ProjectorCommand} (hcommand : p.materializes a command = false)
    (hkeep : ∀ w, W w → W' w)
    (hnew : ∀ w, p.warning a ≠ some w → (p.handleCommand command).warning a = some w → W' w) :
    MarkedIn (p.handleCommand command) a W' := by
  refine ShownIn.step h ?_ ?_
  · intro initialized warning hmarked hinit
    obtain ⟨w, hw, hW⟩ := hmarked hinit
    exact ⟨w, hw, hkeep w hW⟩
  · intro state hstate hinit
    obtain ⟨old, hold, hold_init, hwarned⟩ :=
      Projector.keptBook_handleCommand hcommand state hstate hinit
    obtain ⟨w, hw, hW⟩ := h.state old hold hold_init
    obtain ⟨w', hw'⟩ := Option.isSome_iff_exists.mp
      (hwarned (Option.isSome_iff_exists.mpr ⟨w, hw⟩))
    refine ⟨w', hw', ?_⟩
    by_cases hsame : w = w'
    · exact hsame ▸ hkeep w hW
    · apply hnew
      · simp [Projector.warning, hold, hw, hsame]
      · simp [Projector.warning, hstate, hw']

/-! ## Warnings of the asset itself -/

namespace Projector

/-- The lifecycle event a command brings. -/
def lifecycle : ProjectorCommand → Option IngestEvent
  | .record (.ingest event) => some event
  | .recordAck (.ingest event) => some event
  | _ => none

/-- A warning of the asset itself: of its book, or of a lifecycle event that names it. -/
def OwnWarning (a : AssetId) (commands : List ProjectorCommand) (w : ContinuityWarning) : Prop :=
  BookWarning w ∨ ∃ command ∈ commands, ∃ event, lifecycle command = some event ∧
    event.assetId = some a ∧ w = LiveState.ingestWarning event

/-- A longer run has the warnings of the run. -/
theorem OwnWarning.append {a : AssetId} {commands : List ProjectorCommand} {w : ContinuityWarning}
    (h : OwnWarning a commands w) (command : ProjectorCommand) :
    OwnWarning a (commands ++ [command]) w := by
  rcases h with h | ⟨earlier, hmem, hevent⟩
  · exact Or.inl h
  · exact Or.inr ⟨earlier, List.mem_append_left _ hmem, hevent⟩

/-- **One command** gives an asset a warning of its own only. -/
theorem only_handleCommand {p : Projector} {a : AssetId} {W : ContinuityWarning → Prop}
    (hbook : ∀ w, BookWarning w → W w) (h : Only W (warningOf p.state.assets[a]?))
    {command : ProjectorCommand} (hnew : ∀ event, lifecycle command = some event →
      event.assetId = some a → W (LiveState.ingestWarning event)) :
    Only W (warningOf (p.handleCommand command).state.assets[a]?) := by
  have hrecord : ∀ record, (∀ event, record = PersistedRecord.ingest event →
      event.assetId = some a → W (LiveState.ingestWarning event)) →
      Only W (warningOf (p.state.applyRecord record).1.assets[a]?) := by
    intro record hnew
    have hview : (p.state.applyRecord record).1.assets[a]? =
        ((p.state.view a).apply a record).state :=
      congrArg AssetView.state (LiveState.view_applyRecord a p.state record)
    rw [hview]
    exact AssetView.only_apply hbook h hnew
  cases command with
  | record record =>
      rw [handleCommand, applyAndBroadcast_state]
      exact hrecord record fun event hevent => hnew event (by rw [hevent]; rfl)
  | recordAck record =>
      rw [handleCommand, applyAndBroadcast_state]
      exact hrecord record fun event hevent => hnew event (by rw [hevent]; rfl)
  | setActiveAssets assets => exact only_retainAssets h assets
  | setLastRotationUs timestampUs => exact h
  | configureBroadcast depth => exact h
  | hydrateCheckpoint c =>
      have hview : (p.state.applyCheckpoint c).assets[a]? = if a = c.assetId then
          some ((p.state.ensureAsset a).applyCheckpoint c) else p.state.assets[a]? := by
        rw [LiveState.applyCheckpoint, LiveState.setAsset, TreeMapLookup.getElem?_insert]
        split
        · rename_i hown
          rw [hown]
        · rfl
      change Only W (warningOf (p.state.applyCheckpoint c).assets[a]?)
      rw [hview]
      split
      · exact AssetState.only_applyCheckpoint hbook
          (AssetView.only_stateD (v := p.state.view a) h) c
      · exact h
  | setHydrated hydrated => exact h

/-- **Every warning shown is the asset's own**, in every run. -/
theorem ownWarning_run (mode : FeedMode) (a : AssetId) (commands : List ProjectorCommand) :
    ShownIn ((new mode).run commands) a fun _ => Only (OwnWarning a commands) := by
  induction commands using List.reverseRecOn with
  | nil =>
      have hviews : (LiveState.new mode).buildAssetViews[a]? = none := by
        rw [getElem?_buildAssetViews]
        simp [LiveState.buildAssetView, LiveState.new]
      refine ⟨fun state hstate => ?_, fun view hview => ?_, fun view hview => ?_⟩
      · have hnone : (LiveState.new mode).assets[a]? = none := by simp [LiveState.new]
        cases hnone.symm.trans hstate
      · cases hviews.symm.trans hview
      · cases hviews.symm.trans hview
  | append_singleton commands command ih =>
      have hrun : (new mode).run (commands ++ [command]) =
          ((new mode).run commands).handleCommand command := Runs.run_append _ _ _
      rw [hrun]
      have hstate : Only (OwnWarning a (commands ++ [command]))
          (warningOf (((new mode).run commands).handleCommand command).state.assets[a]?) := by
        refine only_handleCommand (fun w hw => Or.inl hw) ?_ fun event hevent hown =>
          Or.inr ⟨command, by simp, event, hevent, hown, rfl⟩
        intro w hw
        obtain ⟨state, hstate, hwarning⟩ := Option.bind_eq_some_iff.mp hw
        exact (ih.state state hstate w hwarning).append command
      refine ih.step (fun _ _ honly w hw => (honly w hw).append command) fun state hfound w hw => ?_
      exact hstate w (by rw [hfound]; exact hw)

end Projector

/-- A run of the projector with a reset in it. -/
structure ResetRun where
  mode : FeedMode
  before : List ProjectorCommand
  reset : IngestEvent
  /-- Whether the reset was sent with an acknowledgement. -/
  acked : Bool
  after : List ProjectorCommand
  isReset : reset.kind.isContinuityReset = true

namespace ResetRun

variable (r : ResetRun)

/-- The command that brings the reset. -/
def command : ProjectorCommand :=
  if r.acked then .recordAck (.ingest r.reset) else .record (.ingest r.reset)

/-- The projector before the reset. -/
def atReset : Projector := (Projector.new r.mode).run r.before

/-- The projector right after the reset. -/
def marked : Projector := r.atReset.handleCommand r.command

/-- The projector after the commands that follow the reset. -/
def final : Projector := r.marked.run r.after

/-- All commands of the run. -/
def commands : List ProjectorCommand := r.before ++ r.command :: r.after

/-- The run with the reset is a run of a new projector. -/
theorem final_eq : r.final = (Projector.new r.mode).run r.commands := by
  rw [commands, Projector.run, Runs.run_append]
  rfl

/-- No command after the reset materializes a snapshot or a checkpoint for the asset. -/
def Unmaterialized (a : AssetId) : Prop :=
  Runs.Meets Projector.handleCommand (fun p command => p.materializes a command = false)
    r.marked r.after

instance (a : AssetId) : Decidable (r.Unmaterialized a) := by
  unfold Unmaterialized
  infer_instance

/-- The warning of the reset, or one the asset got from a later command. -/
def Later (a : AssetId) (after : List ProjectorCommand) (w : ContinuityWarning) : Prop :=
  w = LiveState.ingestWarning r.reset ∨
    ∃ earlier command later, after = earlier ++ command :: later ∧
      (r.marked.run earlier).warning a ≠ some w ∧
      (r.marked.run (earlier ++ [command])).warning a = some w

/-- The projector that the reset leaves. -/
theorem marked_eq :
    r.marked = r.atReset.applyAndBroadcast (.ingest r.reset) := by
  unfold marked command
  split <;> rfl

/-- The warnings of a longer run are those of the run and the last command's. -/
theorem Later.append {a : AssetId} {after : List ProjectorCommand} {w : ContinuityWarning}
    (h : r.Later a after w) (command : ProjectorCommand) : r.Later a (after ++ [command]) w := by
  rcases h with h | ⟨earlier, cmd, later, rfl, hbefore, hafter⟩
  · exact Or.inl h
  · exact Or.inr ⟨earlier, cmd, later ++ [command], by simp, hbefore, hafter⟩

/-- The reset that names the asset marks it at once. -/
theorem markedIn_marked {a : AssetId} (hasset : r.reset.assetId = some a) :
    MarkedIn r.marked a (r.Later a []) := by
  have hstate : ∀ state, r.marked.state.assets[a]? = some state →
      Marked (r.Later a []) state.initializedFromSnapshot state.latestWarning := by
    intro state hstate _
    rw [marked_eq, Projector.applyAndBroadcast_state] at hstate
    have hview := congrArg AssetView.state
      (LiveState.view_applyRecord a r.atReset.state (.ingest r.reset))
    rw [AssetView.apply, AssetView.own, if_pos hasset] at hview
    refine ⟨LiveState.ingestWarning r.reset, ?_, Or.inl rfl⟩
    have hsome : some state = some _ := hstate.symm.trans hview
    cases hsome
    rfl
  have hpublished : r.marked.published.assets[a]? = r.marked.state.buildAssetView a := by
    rw [marked_eq, Projector.applyAndBroadcast_state]
    simp only [Projector.applyAndBroadcast, LiveState.shouldPublish_ingest, if_true,
      Projector.sendUpdates_published, Projector.publish, Projector.refreshAssetViews,
      Projector.getElem?_refreshAssetViews]
    rw [if_pos (LiveState.mem_changedAssets_ingest _ hasset)]
    rfl
  have hwatch : r.marked.watch = r.marked.published := by
    rw [marked_eq]
    exact Projector.applyAndBroadcast_watch (LiveState.shouldPublish_ingest _ _)
  have hviews : ∀ view, r.marked.published.assets[a]? = some view →
      Marked (r.Later a []) view.initializedFromSnapshot view.latestWarning := by
    intro view hview
    rw [hpublished] at hview
    exact shown_buildAssetView (P := Marked _) hstate hview
  exact ⟨hstate, hviews, by rw [hwatch]; exact hviews⟩

/-- The mark stays until a snapshot or a checkpoint is materialized. -/
theorem markedIn_final {a : AssetId} (hasset : r.reset.assetId = some a)
    (hrun : r.Unmaterialized a) : MarkedIn r.final a (r.Later a r.after) := by
  suffices h : ∀ after, Runs.Meets Projector.handleCommand
      (fun p command => p.materializes a command = false) r.marked after →
      MarkedIn (r.marked.run after) a (r.Later a after) from h r.after hrun
  intro after
  induction after using List.reverseRecOn with
  | nil => exact fun _ => r.markedIn_marked hasset
  | append_singleton after command ih =>
      intro hmeets
      obtain ⟨hearlier, hlast, _⟩ := Runs.meets_append.mp hmeets
      have hrun : r.marked.run (after ++ [command]) =
          (r.marked.run after).handleCommand command := Runs.run_append _ _ _
      rw [hrun]
      apply (ih hearlier).step hlast
      · intro w hw
        exact hw.append r command
      · intro w hold hnew
        exact Or.inr ⟨after, command, [], rfl, hold, by rw [hrun]; exact hnew⟩

end ResetRun

/-- The lifecycle event a record brings, if it names no asset. -/
def feedWideEvent : PersistedRecord → Option IngestEvent
  | .ingest event => if event.assetId = none then some event else none
  | _ => none

namespace LiveState

/-- All that a live state knows but its assets. -/
def feed (s : LiveState) : LiveState := { s with assets := ∅, pendingSnapshots := ∅ }

/-- Materializing one asset's group leaves the state of the feed. -/
theorem feed_materializePendingForAsset (s : LiveState) (a : AssetId) :
    (s.materializePendingForAsset a).1.feed = s.feed := by
  unfold materializePendingForAsset
  split <;> rfl

/-- Materializing groups leaves the state of the feed. -/
theorem feed_materializeKeys (s : LiveState) (keys : List AssetId) :
    (s.materializeKeys keys).1.feed = s.feed := by
  suffices h : ∀ acc : LiveState × List AssetId,
      (keys.foldl (fun acc assetId =>
        let next := acc.1.materializePendingForAsset assetId
        (next.1, if next.2 then acc.2 ++ [assetId] else acc.2)) acc).1.feed = acc.1.feed from
    h (s, [])
  induction keys with
  | nil => exact fun _ => rfl
  | cons b keys ih =>
      intro acc
      rw [List.foldl_cons, ih]
      exact feed_materializePendingForAsset acc.1 b

/-- Materializing before a record leaves the state of the feed. -/
theorem feed_materializePendingBeforeRecord (s : LiveState) (record : PersistedRecord) :
    (s.materializePendingBeforeRecord record).1.feed = s.feed := by
  unfold materializePendingBeforeRecord
  split
  · split <;> exact feed_materializeKeys _ _
  · exact feed_materializeKeys _ _

/-- A snapshot record leaves the state of the feed. -/
theorem feed_recordSnapshotEvent (s : LiveState) (event : BookEvent) :
    (s.recordSnapshotEvent event).feed = s.feed := by
  have hended : (s.endOtherGroup event).feed = s.feed := by
    unfold endOtherGroup
    split
    · split
      · rfl
      · exact feed_materializePendingForAsset s event.assetId
    · rfl
  exact hended

/-- What a record tells of the feed: a lifecycle event alone tells anything. -/
def hears (s : LiveState) : PersistedRecord → LiveState
  | .ingest event => s.recordIngestEvent event
  | _ => s

/-- An ingest event does to the state of the feed what it does without assets. -/
theorem feed_recordIngestEvent (s : LiveState) (event : IngestEvent) :
    (s.recordIngestEvent event).feed = (s.feed.recordIngestEvent event).feed := by
  unfold recordIngestEvent
  cases event.kind <;> cases event.assetId <;> rfl

/-- **The feed and its assets.**  A record changes what is known of the feed as a
lifecycle event alone, whatever it does to the assets. -/
theorem feed_applyRecord (s : LiveState) (record : PersistedRecord) :
    (s.applyRecord record).1.feed = (s.hears record).feed := by
  have hbefore := feed_materializePendingBeforeRecord s record
  cases record with
  | book event =>
      simp only [applyRecord]
      split
      · exact (feed_recordSnapshotEvent _ event).trans hbefore
      · exact hbefore
  | trade event => exact hbefore
  | ingest event =>
      simp only [applyRecord, hears]
      rw [feed_recordIngestEvent, hbefore, ← feed_recordIngestEvent]
  | checkpoint c =>
      simp only [applyRecord]
      split <;> exact hbefore
  | validation event => exact hbefore

/-- Only an event that names no asset sets the global warning. -/
theorem latestGlobalWarning_recordIngestEvent (s : LiveState) (event : IngestEvent) :
    (s.recordIngestEvent event).latestGlobalWarning =
      if event.assetId = none then some (ingestWarning event) else s.latestGlobalWarning := by
  unfold recordIngestEvent
  cases event.assetId <;> cases event.kind <;> rfl

/-- Only a lifecycle event that names no asset changes the feed's warning. -/
theorem latestGlobalWarning_applyRecord (s : LiveState) (record : PersistedRecord) :
    (s.applyRecord record).1.latestGlobalWarning =
      ((feedWideEvent record).map ingestWarning).or s.latestGlobalWarning := by
  have hfeed := congrArg latestGlobalWarning (feed_applyRecord s record)
  cases record with
  | ingest event =>
      refine hfeed.trans ((latestGlobalWarning_recordIngestEvent s event).trans ?_)
      simp only [feedWideEvent]
      split <;> rfl
  | _ => exact hfeed

end LiveState

namespace Projector

/-- The lifecycle event a command brings, if it names no asset. -/
def feedWide : ProjectorCommand → Option IngestEvent
  | .record record => feedWideEvent record
  | .recordAck record => feedWideEvent record
  | _ => none

/-- The global warning after a command is the command's, or the one before. -/
theorem latestGlobalWarning_handleCommand (p : Projector) (command : ProjectorCommand) :
    (p.handleCommand command).state.latestGlobalWarning =
      ((feedWide command).map LiveState.ingestWarning).or p.state.latestGlobalWarning := by
  cases command with
  | record record =>
      rw [handleCommand, applyAndBroadcast_state]
      exact LiveState.latestGlobalWarning_applyRecord p.state record
  | recordAck record =>
      rw [handleCommand, applyAndBroadcast_state]
      exact LiveState.latestGlobalWarning_applyRecord p.state record
  | _ => rfl

/-- Everything published tells the feed's warning. -/
structure TellsGlobal (p : Projector) : Prop where
  published : p.published.latestGlobalWarning = p.state.latestGlobalWarning
  watch : p.watch.latestGlobalWarning = p.state.latestGlobalWarning

/-- A broadcast record keeps the global warning told. -/
theorem TellsGlobal.applyAndBroadcast {p : Projector} (h : p.TellsGlobal)
    (record : PersistedRecord) : (p.applyAndBroadcast record).TellsGlobal := by
  cases hpublish : (p.state.applyRecord record).2.shouldPublish with
  | true =>
      have hpublished : (p.applyAndBroadcast record).published.latestGlobalWarning =
          (p.applyAndBroadcast record).state.latestGlobalWarning := by
        rw [applyAndBroadcast_state]
        simp only [Projector.applyAndBroadcast, hpublish, if_true, sendUpdates_published]
        rfl
      refine ⟨hpublished, ?_⟩
      rw [applyAndBroadcast_watch hpublish]
      exact hpublished
  | false =>
      have hsame : (p.state.applyRecord record).1.latestGlobalWarning =
          p.state.latestGlobalWarning := by
        rw [LiveState.latestGlobalWarning_applyRecord]
        cases record with
        | ingest event =>
            rw [LiveState.shouldPublish_ingest] at hpublish
            cases hpublish
        | _ => rfl
      have hstep : p.applyAndBroadcast record =
          { p with state := (p.state.applyRecord record).1 } := by
        simp [Projector.applyAndBroadcast, hpublish]
      rw [hstep]
      exact ⟨h.published.trans hsame.symm, h.watch.trans hsame.symm⟩

/-- Every command keeps the global warning told. -/
theorem TellsGlobal.handleCommand {p : Projector} (h : p.TellsGlobal)
    (command : ProjectorCommand) : (p.handleCommand command).TellsGlobal := by
  cases command with
  | record record => exact h.applyAndBroadcast record
  | recordAck record => exact h.applyAndBroadcast record
  | configureBroadcast depth => exact ⟨h.published, h.watch⟩
  | _ => exact ⟨h.published, h.published⟩

/-- In every run the latest global warning is told. -/
theorem tellsGlobal_run (mode : FeedMode) (commands : List ProjectorCommand) :
    ((new mode).run commands).TellsGlobal :=
  have hnew : (new mode).TellsGlobal := ⟨rfl, rfl⟩
  Runs.run_induction (fun _ command h => h.handleCommand command) hnew commands

end Projector

namespace ResetRun

variable (r : ResetRun)

/-- A feed-wide reset stays with the feed until a later feed-wide event replaces it. -/
theorem tells_final (hfeed : r.reset.assetId = none) :
    ∃ event, (event = r.reset ∨ ∃ command ∈ r.after, Projector.feedWide command = some event) ∧
      r.final.state.latestGlobalWarning = some (LiveState.ingestWarning event) := by
  unfold final
  generalize r.after = after
  induction after using List.reverseRecOn with
  | nil =>
      refine ⟨r.reset, Or.inl rfl, ?_⟩
      show r.marked.state.latestGlobalWarning = _
      rw [marked_eq, Projector.applyAndBroadcast_state,
        LiveState.latestGlobalWarning_applyRecord, feedWideEvent, if_pos hfeed]
      rfl
  | append_singleton after command ih =>
      obtain ⟨event, hevent, hwarning⟩ := ih
      have hrun : r.marked.run (after ++ [command]) =
          (r.marked.run after).handleCommand command := Runs.run_append _ _ _
      rw [hrun, Projector.latestGlobalWarning_handleCommand]
      cases hcommand : Projector.feedWide command with
      | some later => exact ⟨later, Or.inr ⟨command, by simp, hcommand⟩, rfl⟩
      | none =>
          refine ⟨event, ?_, hwarning⟩
          rcases hevent with hevent | ⟨cmd, hmem, hcmd⟩
          · exact Or.inl hevent
          · exact Or.inr ⟨cmd, List.mem_append_left _ hmem, hcmd⟩

/-- What a read of a marked asset answers. -/
theorem snapshot_cases {p : Projector} {a : AssetId} {W : ContinuityWarning → Prop}
    (h : MarkedIn p a W) (depth staleAfterSecs nowUs : Nat) :
    (∃ response w, p.snapshot a depth staleAfterSecs nowUs = .ok response ∧
        response.latestWarning = some w ∧ W w) ∨
      p.snapshot a depth staleAfterSecs nowUs = .error .snapshotNotReady ∨
      (a ∉ p.watch.activeAssets ∧
        p.snapshot a depth staleAfterSecs nowUs = .error .assetNotActive) := by
  by_cases hactive : a ∈ p.watch.activeAssets
  · cases hview : p.watch.assets[a]? with
    | none => simp [Projector.snapshot, snapshotFromPublished, hactive, hview]
    | some view =>
        cases hinit : view.initializedFromSnapshot with
        | false => simp [Projector.snapshot, snapshotFromPublished, hactive, hview, hinit]
        | true =>
            obtain ⟨w, hw, hW⟩ := h.watch view hview hinit
            apply Or.inl
            simp [Projector.snapshot, snapshotFromPublished, hactive, hview, hinit, hw, hW]
  · exact Or.inr (Or.inr ⟨hactive, by simp [Projector.snapshot, snapshotFromPublished, hactive]⟩)

end ResetRun

/-- What a read shows of an asset holds wherever the asset is shown. -/
theorem ShownIn.of_snapshot {p : Projector} {a : AssetId}
    {P : Bool → Option ContinuityWarning → Prop} (h : ShownIn p a P)
    {depth staleAfterSecs nowUs : Nat} {response : LiveOrderBookSnapshot}
    (hread : p.snapshot a depth staleAfterSecs nowUs = .ok response) :
    P true response.latestWarning := by
  rw [Projector.snapshot, snapshotFromPublished] at hread
  split at hread
  · cases hread
  split at hread
  · cases hread
  rename_i view hview
  split at hread
  · cases hread
  split at hread
  · cases hread
  rename_i hinit
  rw [Bool.not_eq_true, Bool.not_eq_false'] at hinit
  cases hread
  exact hinit ▸ h.watch view hview

/-! A book hydrated before a reset and read after it. -/
namespace StaleRead

/-- The checkpoint of the sample run. -/
def checkpoint : BookCheckpoint where
  assetId := "tok1"
  checkpointTimestampUs := 1
  provenance := Sample.provenance 1 "checkpoint"
  bids := [⟨Sample.price 40, Sample.size 1⟩]
  asks := [⟨Sample.price 60, Sample.size 1⟩]
  walOffset := none

/-- The reset of the sample run, of one asset or of the feed. -/
def reset (assetId : Option AssetId) : IngestEvent where
  assetId := assetId
  kind := .sourceReset
  provenance := Sample.provenance 2 "reset"
  expectedSequence := none
  observedSequence := none
  details := none

/-- A bid above the ask of the hydrated book. -/
def crossing : BookEvent := Sample.level .delta "tok1" .bid 70 1 4 "crossing"

/-- The sample runs: one asset with a book, the reset, and commands behind it. -/
def run (assetId : Option AssetId) (after : List ProjectorCommand) : ResetRun where
  mode := .fixedTokens
  before := [.setActiveAssets ["tok1"], .hydrateCheckpoint checkpoint, .setHydrated true]
  reset := reset assetId
  acked := false
  after := after
  isReset := rfl

/-- The bids a read of the asset shows at the end of a run, and the kind of its warning. -/
def read (r : ResetRun) : Except SnapshotLookupError (List (Nat × Nat) × Option String) :=
  (r.final.snapshot "tok1" 5 60 5).map fun response =>
    (response.bids.map fun l => (l.1.raw, l.2.raw), response.latestWarning.map (·.kind))

/-- A run with a reset that names the asset, and a rotation. -/
def named : ResetRun := run (some "tok1") [.setLastRotationUs 3]

/-- A run with a feed-wide reset, and a rotation. -/
def feedWide : ResetRun := run none [.setLastRotationUs 3]

/-- The response of a read of the first. -/
theorem exists_response : ∃ response, named.final.snapshot "tok1" 5 60 5 = .ok response ∧
    ∃ w, response.latestWarning = some w := by
  have hread : read named = .ok ([(4000, 1000000)], some "source_reset") := by decide +kernel
  rw [read] at hread
  cases hresponse : named.final.snapshot "tok1" 5 60 5 with
  | error err =>
      rw [hresponse] at hread
      cases hread
  | ok response =>
      rw [hresponse] at hread
      have hkind := congrArg Prod.snd (Except.ok.inj hread)
      obtain ⟨w, hw, -⟩ := Option.map_eq_some_iff.mp hkind
      exact ⟨response, rfl, w, hw⟩

end StaleRead

end PolyBook
