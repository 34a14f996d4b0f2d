import PolyBook.SnapshotGroups

/-!
# Two replays of one asset

`Agree` relates the states two different record streams leave for an asset:
once the first stream has given the asset a book, the second has given it the
same one.  A snapshot makes two replays agree whatever came before it, and every
later record keeps them in agreement, except a checkpoint that one replay uses
and the other ignores.
-/

namespace PolyBook

/-- The second state holds the first one's book as soon as the first is
initialized, or from the start when `same` holds. -/
structure AssetState.Agree (same : Prop) (s t : AssetState) : Prop where
  assetId : s.book.assetId = t.book.assetId
  book : same ∨ s.initializedFromSnapshot = true → s.book = t.book
  initialized : s.initializedFromSnapshot = true → t.initializedFromSnapshot = true

namespace AssetState

variable {same : Prop} {s t : AssetState}

theorem Agree.refl (s : AssetState) : Agree same s s := ⟨rfl, fun _ => rfl, id⟩

/-- A replay that has no book yet agrees with any other. -/
theorem Agree.of_uninitialized (hasset : s.book.assetId = t.book.assetId)
    (hs : s.initializedFromSnapshot = false) : Agree False s t := by
  refine ⟨hasset, ?_, ?_⟩
  · simp [hs]
  · simp [hs]

/-- Agreement reads the book and the flag only. -/
theorem Agree.congr {s' t' : AssetState} (h : Agree same s t)
    (hs : s'.book = s.book) (hsi : s'.initializedFromSnapshot = s.initializedFromSnapshot)
    (ht : t'.book = t.book) (hti : t'.initializedFromSnapshot = t.initializedFromSnapshot) :
    Agree same s' t' := by
  refine ⟨?_, ?_, ?_⟩
  · rw [hs, ht]
    exact h.assetId
  · rw [hs, ht, hsi]
    exact h.book
  · rw [hsi, hti]
    exact h.initialized

theorem Agree.touch (h : Agree same s t) (event : BookEvent) :
    Agree same (s.touch event) (t.touch event) := h.congr rfl rfl rfl rfl

theorem Agree.materialize (h : Agree same s t) (p : PendingSnapshot) :
    Agree same (s.materialize p).1 (t.materialize p).1 := by
  unfold AssetState.materialize
  rw [L2Book.tryApplySnapshot_congr h.assetId]
  cases happly : t.book.tryApplySnapshot p.bids p.asks p.sequence p.lastRecvTimestampUs with
  | error err => exact h.congr rfl rfl rfl rfl
  | ok book => exact ⟨by simp, by simp, by simp⟩

/-- A snapshot the book takes leaves nothing of the book before. -/
theorem agree_materialize_of_fits (hasset : s.book.assetId = t.book.assetId)
    {p : PendingSnapshot} (hfits : fitsTotals p.bids p.asks = true) :
    Agree same (s.materialize p).1 (t.materialize p).1 := by
  rw [← t.book.isOk_tryApplySnapshot p.bids p.asks p.sequence p.lastRecvTimestampUs] at hfits
  unfold AssetState.materialize
  rw [L2Book.tryApplySnapshot_congr hasset]
  cases happly : t.book.tryApplySnapshot p.bids p.asks p.sequence p.lastRecvTimestampUs with
  | error err => simp [happly, Except.isOk, Except.toBool] at hfits
  | ok book => exact ⟨by simp, by simp, by simp⟩

theorem Agree.applyCheckpoint (h : Agree same s t) (c : BookCheckpoint) :
    Agree same (s.applyCheckpoint c) (t.applyCheckpoint c) := by
  unfold AssetState.applyCheckpoint
  rw [L2Book.tryApplySnapshot_congr h.assetId]
  cases happly : t.book.tryApplySnapshot (c.bids.map fun l => (l.price, l.size))
      (c.asks.map fun l => (l.price, l.size)) 0 c.checkpointTimestampUs with
  | error err => exact h.congr rfl rfl rfl rfl
  | ok book => exact ⟨by simp, by simp, by simp⟩

@[simp] theorem recordDeltaEvent_assetId (s : AssetState) (event : BookEvent) :
    (s.recordDeltaEvent event).book.assetId = s.book.assetId := by
  unfold AssetState.recordDeltaEvent
  split
  · rfl
  · rename_i h
    simpa using L2Book.tryApplyDelta_assetId h

@[simp] theorem applyCheckpoint_assetId (s : AssetState) (c : BookCheckpoint) :
    (s.applyCheckpoint c).book.assetId = s.book.assetId := by
  unfold AssetState.applyCheckpoint
  split
  · rfl
  · rename_i h
    simpa using L2Book.tryApplySnapshot_assetId h

@[simp] theorem materialize_assetId (s : AssetState) (p : PendingSnapshot) :
    (s.materialize p).1.book.assetId = s.book.assetId := by
  unfold AssetState.materialize
  split
  · rfl
  · rename_i h
    simpa using L2Book.tryApplySnapshot_assetId h

/-- A level change depends on the book only. -/
theorem recordDeltaEvent_book_congr (h : s.book = t.book) (event : BookEvent) :
    (s.recordDeltaEvent event).book = (t.recordDeltaEvent event).book := by
  unfold AssetState.recordDeltaEvent
  rw [h]
  cases t.book.tryApplyDelta event.side event.price event.size
      (event.provenance.sequence.getD 0) event.provenance.recvTimestampUs with
  | error err => rfl
  | ok book => simp

theorem Agree.recordDeltaEvent (h : Agree same s t) (event : BookEvent) :
    Agree same (s.recordDeltaEvent event) (t.recordDeltaEvent event) := by
  refine ⟨by simpa using h.assetId, ?_, by simpa using h.initialized⟩
  intro hs
  rw [recordDeltaEvent_initialized] at hs
  exact recordDeltaEvent_book_congr (h.book hs) event

/-- A checkpoint only the second replay sees: it is ignored once the second
replay has a book, and the first replay has none before that. -/
theorem Agree.applyCheckpoint_right (h : Agree same s t) (hsame : ¬ same)
    (ht : t.initializedFromSnapshot = false) (c : BookCheckpoint) :
    Agree same s (t.applyCheckpoint c) := by
  have hs : ¬ s.initializedFromSnapshot = true := by
    intro hs
    rw [h.initialized hs] at ht
    cases ht
  refine ⟨by simpa using h.assetId, ?_, fun hs' => absurd hs' hs⟩
  rintro (hsame' | hs')
  · exact absurd hsame' hsame
  · exact absurd hs' hs

end AssetState

namespace AssetView

variable (a : AssetId) {same : Prop} {v w : AssetView}

theorem flush_assetId (v : AssetView) :
    ((v.flush a).stateD a).book.assetId = (v.stateD a).book.assetId := by
  unfold AssetView.flush
  split
  · rfl
  · exact AssetState.materialize_assetId _ _

theorem own_assetId (v : AssetView) (x : PersistedRecord) :
    ((v.own a x).stateD a).book.assetId = (v.stateD a).book.assetId := by
  cases x with
  | book e =>
      simp only [AssetView.own]
      split
      · cases e.kind with
        | snapshot => rfl
        | delta => exact AssetState.recordDeltaEvent_assetId _ _
      · rfl
  | trade e => rfl
  | ingest e =>
      simp only [AssetView.own]
      split <;> rfl
  | checkpoint c =>
      simp only [AssetView.own]
      split
      · exact AssetState.applyCheckpoint_assetId _ _
      · rfl
  | validation e => rfl

/-- An asset's book keeps its asset id. -/
theorem applyAll_assetId (v : AssetView) (records : List PersistedRecord) :
    ((v.applyAll a records).stateD a).book.assetId = (v.stateD a).book.assetId := by
  induction records generalizing v with
  | nil => rfl
  | cons x records ih =>
      rw [applyAll_cons, ih, AssetView.apply, own_assetId, AssetView.before]
      split
      · exact flush_assetId a v
      · rfl

/-- Two views with the same buffered group whose states agree. -/
structure Agree (same : Prop) (v w : AssetView) : Prop where
  pending : v.pending = w.pending
  state : (v.stateD a).Agree same (w.stateD a)

theorem Agree.refl (v : AssetView) : Agree a same v v := ⟨rfl, .refl _⟩

theorem Agree.flush (h : Agree a same v w) : Agree a same (v.flush a) (w.flush a) := by
  cases hp : w.pending with
  | none =>
      have hv : v.pending = none := h.pending.trans hp
      rw [flush_of_pending_none a hv, flush_of_pending_none a hp]
      exact h
  | some p =>
      have hv : v.pending = some p := h.pending.trans hp
      refine ⟨by simp, ?_⟩
      simp only [AssetView.flush, hv, hp]
      exact h.state.materialize p

theorem Agree.before (h : Agree a same v w) (x : PersistedRecord) :
    Agree a same (v.before a x) (w.before a x) := by
  unfold AssetView.before
  rw [h.pending]
  split
  · exact h.flush
  · exact h

/-- One record read by both replays.  A checkpoint of the asset that fits must
not find only the second replay initialized. -/
theorem Agree.own (h : Agree a same v w) (x : PersistedRecord)
    (hcheckpoint : ∀ c : BookCheckpoint, x = .checkpoint c → c.assetId = a →
      c.fits = true → (v.stateD a).initializedFromSnapshot = true ∨
      (w.stateD a).initializedFromSnapshot = false) :
    Agree a same (v.own a x) (w.own a x) := by
  cases x with
  | book e =>
      simp only [AssetView.own]
      split
      · cases e.kind with
        | snapshot =>
            refine ⟨?_, h.state.touch e⟩
            simp [recordSnapshotEvent, h.pending]
        | delta => exact ⟨h.pending, h.state.recordDeltaEvent e⟩
      · exact h
  | trade e => exact h
  | ingest e =>
      simp only [AssetView.own]
      split
      · exact ⟨h.pending, h.state.congr rfl rfl rfl rfl⟩
      · exact h
  | checkpoint c =>
      simp only [AssetView.own]
      by_cases hc : c.assetId = a
      · cases hv : (v.stateD a).initializedFromSnapshot with
        | true =>
            have hw := h.state.initialized hv
            simpa [hw] using h
        | false =>
            cases hfits : c.fits with
            | true =>
                have hw : (w.stateD a).initializedFromSnapshot = false := by
                  have := hcheckpoint c rfl hc hfits
                  simpa [hv] using this
                simp only [hc, hw, and_self, if_true]
                exact ⟨h.pending, h.state.applyCheckpoint c⟩
            | false =>
                have hkeeps : ∀ s : AssetState, (s.applyCheckpoint c).book = s.book ∧
                    (s.applyCheckpoint c).initializedFromSnapshot =
                      s.initializedFromSnapshot := fun s =>
                  ⟨s.applyCheckpoint_book_of_not_fits hfits,
                    by rw [AssetState.applyCheckpoint_initialized, hfits, Bool.or_false]⟩
                simp only [hc, and_self, if_true]
                split
                · exact ⟨h.pending, h.state.congr (hkeeps _).1 (hkeeps _).2
                    (hkeeps _).1 (hkeeps _).2⟩
                · exact ⟨h.pending, h.state.congr (hkeeps _).1 (hkeeps _).2 rfl rfl⟩
      · simpa [hc] using h
  | validation e => exact h

/-- The flag a record finds is the one its group boundary left. -/
theorem Agree.apply (h : Agree a same v w) (x : PersistedRecord)
    (hcheckpoint : ∀ c : BookCheckpoint, x = .checkpoint c → c.assetId = a →
      c.fits = true → ((v.flush a).stateD a).initializedFromSnapshot = true ∨
      ((w.flush a).stateD a).initializedFromSnapshot = false) :
    Agree a same (v.apply a x) (w.apply a x) := by
  refine (h.before a x).own a x ?_
  rintro c rfl hc hfits
  have hends : ∀ u : AssetView, u.before a (.checkpoint c) = u.flush a := by
    intro u
    cases hp : u.pending with
    | none => rw [before_of_pending_none a hp, flush_of_pending_none a hp]
    | some p => simp [AssetView.before, hp, ends]
  rw [hends, hends]
  exact hcheckpoint c rfl hc hfits

/-! ## A whole snapshot -/

/-- Once the first replay has its book, no record parts the two. -/
theorem Agree.foldl_own (h : Agree a same v w)
    (hinit : (v.stateD a).initializedFromSnapshot = true) (group : List PersistedRecord) :
    Agree a same (group.foldl (AssetView.own a) v) (group.foldl (AssetView.own a) w) ∧
      ((group.foldl (AssetView.own a) v).stateD a).initializedFromSnapshot = true := by
  induction group generalizing v w with
  | nil => exact ⟨h, hinit⟩
  | cons x group ih =>
      exact ih (h.own a x fun _ _ _ _ => Or.inl hinit) (own_initialized a x hinit)

theorem Agree.applyGroups (h : Agree a same v w)
    (hinit : (v.stateD a).initializedFromSnapshot = true) (gs : List (List PersistedRecord)) :
    Agree a same (v.applyGroups a gs) (w.applyGroups a gs) := by
  induction gs generalizing v w with
  | nil => exact h
  | cons g gs ih =>
      obtain ⟨hagree, hready⟩ := h.foldl_own a hinit g
      refine ih (hagree.flush a) ?_
      rw [applyGroup, stateD_flush_initialized, hready, Bool.true_or]

theorem foldl_own_assetId (v : AssetView) (group : List PersistedRecord) :
    ((group.foldl (own a) v).stateD a).book.assetId = (v.stateD a).book.assetId := by
  induction group generalizing v with
  | nil => rfl
  | cons x group ih => rw [List.foldl_cons, ih, own_assetId]

/-- **A whole snapshot makes two replays agree**, whatever came before it. -/
theorem agree_applyGroups_of_restoresGroup (hv : v.pending = none) (hw : w.pending = none)
    (hasset : (v.stateD a).book.assetId = (w.stateD a).book.assetId)
    {gs : List (List PersistedRecord)}
    (hchain : ∀ g ∈ gs, g.IsChain fun x y => sameGroup a x y)
    (hwhole : gs.any (restoresGroup a) = true) :
    Agree a same (v.applyGroups a gs) (w.applyGroups a gs) := by
  induction gs generalizing v w with
  | nil => cases hwhole
  | cons g gs ih =>
      by_cases hrestores : restoresGroup a g = true
      · have hgroup := hchain g List.mem_cons_self
        obtain ⟨p, hp, hfits⟩ := pending_of_restoresGroup a hv hgroup hrestores
        have hp' : (g.foldl (own a) w).pending = some p := by
          rw [← hp, ← applyAll_group a hv hgroup, ← applyAll_group a hw hgroup]
          exact pending_applyAll_congr a (hw.trans hv.symm) g
        have hagree : Agree a same (v.applyGroup a g) (w.applyGroup a g) := by
          refine ⟨by simp, ?_⟩
          simp only [applyGroup, AssetView.flush, hp, hp']
          refine AssetState.agree_materialize_of_fits ?_ hfits
          rw [foldl_own_assetId, foldl_own_assetId, hasset]
        refine hagree.applyGroups a ?_ gs
        rw [applyGroup, stateD_flush_initialized, hp, Option.any_some, hfits, Bool.or_true]
      · refine ih (applyGroup_pending a v g) (applyGroup_pending a w g) ?_
          (fun m hm => hchain m (List.mem_cons_of_mem g hm)) ?_
        · rw [applyGroup, applyGroup, flush_assetId, flush_assetId, foldl_own_assetId,
            foldl_own_assetId, hasset]
        · rwa [List.any_cons, eq_false_of_ne_true hrestores, Bool.false_or] at hwhole

end AssetView

end PolyBook
