import PolyBook.LiveAsset
import Mathlib.Data.List.SplitBy

/-!
# Snapshot groups of a record stream

What a stream of records means for one asset, without buffering: the stream is
cut into its maximal runs of snapshot records with one group key, every other
record is a run of its own, and each run is applied as a whole.
`applyAll_flush_eq_applyGroups` shows that the buffering machine of the live
state does exactly this, so the end of a group never has to be marked as long
as the run is contiguous.
-/

namespace PolyBook

/-- Two records of one snapshot group of the asset. -/
def sameGroup (a : AssetId) (x y : PersistedRecord) : Bool :=
  match x, y with
  | .book d, .book e =>
      d.kind == .snapshot && e.kind == .snapshot && d.assetId == a && d.groupKey == e.groupKey
  | _, _ => false

/-- The maximal runs of snapshot records of the asset that share a group key. -/
def groups (a : AssetId) (records : List PersistedRecord) : List (List PersistedRecord) :=
  records.splitBy (sameGroup a)

/-- The levels a run of records lists for one side. -/
def levelsOn (side : Side) (records : List PersistedRecord) : List (FixedPrice × FixedSize) :=
  records.filterMap fun
    | .book event => if event.side = side then some (event.price, event.size) else none
    | _ => none

/-- The records of a list of book events. -/
def bookRecords (events : List BookEvent) : List PersistedRecord := events.map .book

/-- Both sides' totals stay inside `u64`. -/
def fitsTotals (bids asks : List (FixedPrice × FixedSize)) : Bool :=
  (snapshotSide bids : Option (BidLevels × Nat)).isSome &&
    (snapshotSide asks : Option (AskLevels × Nat)).isSome

/-- A checkpoint whose totals fit. -/
def BookCheckpoint.fits (c : BookCheckpoint) : Bool :=
  fitsTotals (c.bids.map fun l => (l.price, l.size)) (c.asks.map fun l => (l.price, l.size))

/-- A run that gives the asset its book: a snapshot group or a checkpoint of the
asset whose totals fit. -/
def seedsGroup (a : AssetId) (group : List PersistedRecord) : Bool :=
  match group.head? with
  | some (.book event) =>
      event.kind == .snapshot && event.assetId == a &&
        fitsTotals (levelsOn .bid group) (levelsOn .ask group)
  | some (.checkpoint checkpoint) =>
      checkpoint.assetId == a && checkpoint.fits
  | _ => false

/-- Some run of the stream gives the asset its book. -/
def seeds (a : AssetId) (records : List PersistedRecord) : Bool :=
  (groups a records).any (seedsGroup a)

namespace AssetState

@[simp] theorem checkBookIntegrity_book (s : AssetState) :
    s.checkBookIntegrity.book = s.book := by
  unfold checkBookIntegrity
  split <;> rfl

@[simp] theorem checkBookIntegrity_initialized (s : AssetState) :
    s.checkBookIntegrity.initializedFromSnapshot = s.initializedFromSnapshot := by
  unfold checkBookIntegrity
  split <;> rfl

@[simp] theorem touch_book (s : AssetState) (event : BookEvent) :
    (s.touch event).book = s.book := rfl

@[simp] theorem touch_initialized (s : AssetState) (event : BookEvent) :
    (s.touch event).initializedFromSnapshot = s.initializedFromSnapshot := rfl

@[simp] theorem recordDeltaEvent_initialized (s : AssetState) (event : BookEvent) :
    (s.recordDeltaEvent event).initializedFromSnapshot = s.initializedFromSnapshot := by
  unfold recordDeltaEvent
  split <;> simp

/-- A level change the book takes. -/
theorem recordDeltaEvent_book_of_ok {s : AssetState} {event : BookEvent} {book : L2Book}
    (h : s.book.tryApplyDelta event.side event.price event.size
      (event.provenance.sequence.getD 0) event.provenance.recvTimestampUs = .ok book) :
    (s.recordDeltaEvent event).book = book := by
  simp [recordDeltaEvent, h]

/-- A group the book takes becomes the book. -/
theorem materialize_book_of_ok {s : AssetState} {p : PendingSnapshot} {book : L2Book}
    (h : s.book.tryApplySnapshot p.bids p.asks p.sequence p.lastRecvTimestampUs = .ok book) :
    (s.materialize p).1.book = book := by
  simp [materialize, h]

end AssetState

/-- The book takes a snapshot whose totals fit, whatever it held. -/
theorem L2Book.isOk_tryApplySnapshot (book : L2Book)
    (bids asks : List (FixedPrice × FixedSize)) (sequence timestampUs : Nat) :
    (book.tryApplySnapshot bids asks sequence timestampUs).isOk = fitsTotals bids asks := by
  unfold tryApplySnapshot fitsTotals
  split
  · rename_i h
    rw [h]
    rfl
  · rename_i h
    split
    · rename_i h'
      rw [h, h']
      rfl
    · rename_i h'
      rw [h, h']
      rfl

/-- A group initializes the asset if its totals fit. -/
theorem AssetState.materialize_initialized (s : AssetState) (p : PendingSnapshot) :
    (s.materialize p).1.initializedFromSnapshot =
      (s.initializedFromSnapshot || fitsTotals p.bids p.asks) := by
  rw [← s.book.isOk_tryApplySnapshot p.bids p.asks p.sequence p.lastRecvTimestampUs]
  unfold materialize
  split
  · rename_i h
    simp [h, Except.isOk, Except.toBool]
  · rename_i h
    simp [h, Except.isOk, Except.toBool]

/-- A checkpoint initializes the asset if its totals fit. -/
theorem AssetState.applyCheckpoint_initialized (s : AssetState) (c : BookCheckpoint) :
    (s.applyCheckpoint c).initializedFromSnapshot =
      (s.initializedFromSnapshot || c.fits) := by
  rw [BookCheckpoint.fits,
    ← s.book.isOk_tryApplySnapshot (c.bids.map fun l => (l.price, l.size))
      (c.asks.map fun l => (l.price, l.size)) 0 c.checkpointTimestampUs]
  unfold applyCheckpoint
  split
  · rename_i h
    simp [h, Except.isOk, Except.toBool]
  · rename_i h
    simp [h, Except.isOk, Except.toBool]

/-- A checkpoint that does not fit leaves the book alone. -/
theorem AssetState.applyCheckpoint_book_of_not_fits (s : AssetState) {c : BookCheckpoint}
    (hc : c.fits = false) : (s.applyCheckpoint c).book = s.book := by
  rw [BookCheckpoint.fits,
    ← s.book.isOk_tryApplySnapshot (c.bids.map fun l => (l.price, l.size))
      (c.asks.map fun l => (l.price, l.size)) 0 c.checkpointTimestampUs] at hc
  unfold applyCheckpoint
  split
  · rfl
  · rename_i h
    simp [h, Except.isOk, Except.toBool] at hc

namespace AssetView

variable (a : AssetId)

/-- The buffered group is the one the asset's last record belongs to. -/
def Tracks (last : Option PersistedRecord) (v : AssetView) : Prop :=
  ∀ p, v.pending = some p → ∃ e : BookEvent, last = some (.book e) ∧
    e.kind = .snapshot ∧ e.assetId = a ∧ p.key = e.groupKey

/-- An empty buffer tracks any record. -/
theorem tracks_of_pending_none {v : AssetView} (h : v.pending = none)
    (last : Option PersistedRecord) : Tracks a last v := by
  intro p hp
  rw [h] at hp
  cases hp

/-- A record ends the group that the last record belongs to, if it is not of it. -/
theorem ends_eq_not_sameGroup {x y : PersistedRecord} {v : AssetView} {p : PendingSnapshot}
    (h : Tracks a (some x) v) (hp : v.pending = some p) :
    ends y p = !sameGroup a x y := by
  obtain ⟨d, hd, hkind, hasset, hkey⟩ := h p hp
  cases hd
  cases y with
  | book e =>
      cases he : e.kind with
      | snapshot => simp [ends, sameGroup, he, hkind, hasset, hkey, bne]
      | delta => simp [ends, sameGroup, he]
  | _ => rfl

/-- A record outside the asset's open group crosses its boundary. -/
theorem before_of_not_sameGroup {x y : PersistedRecord} {v : AssetView}
    (h : Tracks a (some x) v) (hxy : sameGroup a x y = false) :
    v.before a y = v.flush a := by
  cases hp : v.pending with
  | none => rw [before_of_pending_none a hp, flush_of_pending_none a hp]
  | some p => simp [before, hp, ends_eq_not_sameGroup a h hp, hxy]

/-- A record of another producer's assets crosses it too. -/
theorem before_of_foreign {last : Option PersistedRecord} {y : PersistedRecord}
    {v : AssetView} (h : Tracks a last v) (hy : ∀ e, y = .book e → e.assetId ≠ a) :
    v.before a y = v.flush a := by
  cases hp : v.pending with
  | none => rw [before_of_pending_none a hp, flush_of_pending_none a hp]
  | some p =>
      obtain ⟨d, rfl, hkind, hasset, hkey⟩ := h p hp
      refine before_of_not_sameGroup a h ?_
      cases y with
      | book e =>
          have hne := hy e rfl
          have hkeys : d.groupKey ≠ e.groupKey := by
            intro heq
            have := congrArg SnapshotGroupKey.assetId heq
            exact hne (this.symm.trans hasset)
          simp [sameGroup, hkeys]
      | _ => rfl

/-- What is buffered before a record was buffered, and the record does not end it. -/
theorem before_pending {v : AssetView} {y : PersistedRecord} {p : PendingSnapshot}
    (h : (v.before a y).pending = some p) : v.pending = some p ∧ ends y p = false := by
  unfold before at h
  split at h
  · simp at h
  · rename_i hends
    refine ⟨h, ?_⟩
    simpa [h] using hends

/-- Only snapshot records of the asset change its buffer. -/
theorem own_pending_of_ne_snapshot {v : AssetView} {x : PersistedRecord}
    (hx : ∀ e, x = .book e → e.assetId = a → e.kind = .delta) :
    (v.own a x).pending = v.pending := by
  cases x with
  | book e =>
      simp only [own]
      split
      · rename_i hasset
        simp [hx e rfl hasset, setState]
      · rfl
  | trade e => rfl
  | ingest e =>
      simp only [own]
      split <;> rfl
  | checkpoint c =>
      simp only [own]
      split <;> rfl
  | validation e => rfl

/-- The buffer follows the last record. -/
theorem tracks_apply {last : Option PersistedRecord} {v : AssetView}
    (h : Tracks a last v) (x : PersistedRecord) : Tracks a (some x) (v.apply a x) := by
  intro p hp
  unfold apply at hp
  by_cases hx : ∃ e, x = .book e ∧ e.assetId = a ∧ e.kind = .snapshot
  · obtain ⟨e, rfl, hasset, hkind⟩ := hx
    refine ⟨e, rfl, hkind, hasset, ?_⟩
    simp only [own, hasset, hkind, if_true, recordSnapshotEvent, Option.some.injEq] at hp
    subst hp
    cases hpend : (v.before a (.book e)).pending with
    | none => rfl
    | some q =>
        have hends := (before_pending a hpend).2
        simp only [ends, hkind, bne_eq_false_iff_eq] at hends
        exact hends
  · have hdelta : ∀ e, x = .book e → e.assetId = a → e.kind = .delta := by
      intro e he hasset
      cases hk : e.kind with
      | delta => rfl
      | snapshot => exact absurd ⟨e, he, hasset, hk⟩ hx
    rw [own_pending_of_ne_snapshot a hdelta] at hp
    obtain ⟨hpend, hends⟩ := before_pending a hp
    obtain ⟨d, rfl, hkind, hasset, hkey⟩ := h p hpend
    cases x with
    | book e =>
        cases hk : e.kind with
        | delta => simp [ends, hk] at hends
        | snapshot =>
            simp only [ends, hk, bne_eq_false_iff_eq] at hends
            have hea : e.assetId = a := by
              rw [← hasset]
              exact congrArg SnapshotGroupKey.assetId (hends.symm.trans hkey)
            exact ⟨e, rfl, hk, hea, hends⟩
    | _ => simp [ends] at hends

/-- After a run the buffer follows the last record of the log. -/
theorem tracks_applyAll {log : List PersistedRecord} {v : AssetView}
    (h : Tracks a log.getLast? v) (records : List PersistedRecord) :
    Tracks a (log ++ records).getLast? (v.applyAll a records) := by
  induction records generalizing log v with
  | nil => simpa using h
  | cons x records ih =>
      have hstep := tracks_apply a h x
      have hlog : (log ++ [x]).getLast? = some x := by simp
      rw [← hlog] at hstep
      have htracks := ih hstep
      rwa [List.append_assoc, List.singleton_append] at htracks

/-- Apply one run: its records one by one, then the group they leave. -/
def applyGroup (v : AssetView) (group : List PersistedRecord) : AssetView :=
  (group.foldl (own a) v).flush a

/-- Apply runs in order. -/
def applyGroups (v : AssetView) (groups : List (List PersistedRecord)) : AssetView :=
  groups.foldl (applyGroup a) v

@[simp] theorem applyGroup_pending (v : AssetView) (group : List PersistedRecord) :
    (v.applyGroup a group).pending = none := flush_pending a _

/-- Inside a run no boundary is crossed. -/
theorem applyAll_of_isChain {v : AssetView} {x : PersistedRecord}
    {group : List PersistedRecord} (h : Tracks a (some x) v)
    (hchain : (x :: group).IsChain fun x y => sameGroup a x y) :
    v.applyAll a group = group.foldl (own a) v := by
  induction group generalizing x v with
  | nil => rfl
  | cons y group ih =>
      obtain ⟨hxy, hrest⟩ := List.isChain_cons_cons.mp hchain
      have happly : v.apply a y = v.own a y := by
        rw [apply]
        congr 1
        cases hp : v.pending with
        | none => exact before_of_pending_none a hp
        | some p => simp [before, hp, ends_eq_not_sameGroup a h hp, hxy]
      have htrack := tracks_apply a h y
      rw [applyAll_cons, List.foldl_cons, happly]
      exact ih (happly ▸ htrack) hrest

/-- A run applied to an empty buffer crosses no boundary. -/
theorem applyAll_group {v : AssetView} {group : List PersistedRecord}
    (hpending : v.pending = none)
    (hchain : group.IsChain fun x y => sameGroup a x y) :
    v.applyAll a group = group.foldl (own a) v := by
  cases group with
  | nil => rfl
  | cons x group =>
      have happly : v.apply a x = v.own a x := by
        rw [apply, before_of_pending_none a hpending]
      have htrack := tracks_apply a (tracks_of_pending_none a hpending none) x
      rw [applyAll_cons, List.foldl_cons, happly]
      exact applyAll_of_isChain a (happly ▸ htrack) hchain

/-- A run's last record is the one the buffer tracks. -/
theorem tracks_applyAll_getLast {v : AssetView} (hpending : v.pending = none)
    {group : List PersistedRecord} (hne : group ≠ []) :
    Tracks a (some (group.getLast hne)) (v.applyAll a group) := by
  have htracks := tracks_applyAll a (tracks_of_pending_none a hpending [].getLast?) group
  rwa [List.nil_append, List.getLast?_eq_some_getLast hne] at htracks

/-- **Buffering applies whole groups.**  Once the last group is applied, the
buffering machine has done to the asset what applying each maximal run at once
does. -/
theorem applyAll_flush_eq_applyGroups {v : AssetView} (hpending : v.pending = none)
    (records : List PersistedRecord) :
    (v.applyAll a records).flush a = v.applyGroups a (groups a records) := by
  suffices h : ∀ (gs : List (List PersistedRecord)) (v : AssetView), v.pending = none →
      [] ∉ gs → (∀ g ∈ gs, g.IsChain fun x y => sameGroup a x y) →
      gs.IsChain (fun g g' => ∃ hg hg', sameGroup a (g.getLast hg) (g'.head hg') = false) →
      (v.applyAll a gs.flatten).flush a = v.applyGroups a gs by
    obtain ⟨hflatten, hnil, hchain, hlinks⟩ :=
      (List.splitBy_eq_iff (l := groups a records)).mp rfl
    have hgroups := h (groups a records) v hpending hnil hchain hlinks
    rwa [← hflatten] at hgroups
  clear hpending v
  intro gs
  induction gs with
  | nil => exact fun v hpending _ _ _ => flush_of_pending_none a hpending
  | cons g gs ih =>
      intro v hpending hnil hchain hlinks
      have hg : g ≠ [] := fun h => hnil (h ▸ List.mem_cons_self)
      have hnil' : [] ∉ gs := fun h => hnil (List.mem_cons_of_mem _ h)
      have hchain' := fun m hm => hchain m (List.mem_cons_of_mem _ hm)
      have hgroup : v.applyAll a g = g.foldl (own a) v :=
        applyAll_group a hpending (hchain g List.mem_cons_self)
      have htrack := tracks_applyAll_getLast a hpending hg
      have hcross : ((v.applyAll a g).applyAll a gs.flatten).flush a =
          ((v.applyGroup a g).applyAll a gs.flatten).flush a := by
        cases gs with
        | nil => simp [applyGroup, hgroup]
        | cons g' gs =>
            obtain ⟨_, hg', hlink⟩ := (List.isChain_cons_cons.mp hlinks).1
            obtain ⟨y, rest, rfl⟩ := List.exists_cons_of_ne_nil hg'
            have hsame : sameGroup a (g.getLast hg) y = false := hlink
            simp only [List.flatten_cons, List.cons_append, applyAll_cons]
            rw [apply, before_of_not_sameGroup a htrack hsame, hgroup, apply,
              before_of_pending_none a (applyGroup_pending a v g)]
            rfl
      rw [List.flatten_cons, applyAll_append, hcross]
      exact ih _ (applyGroup_pending a v g) hnil' hchain' hlinks.tail

/-- Materializing initializes the asset if the group's totals fit. -/
theorem stateD_flush_initialized (v : AssetView) :
    ((v.flush a).stateD a).initializedFromSnapshot =
      ((v.stateD a).initializedFromSnapshot ||
        v.pending.any fun p => fitsTotals p.bids p.asks) := by
  unfold flush
  cases hp : v.pending with
  | none => simp
  | some p => exact AssetState.materialize_initialized _ p

/-- A record takes no book away. -/
theorem own_initialized {v : AssetView} (x : PersistedRecord)
    (h : (v.stateD a).initializedFromSnapshot = true) :
    ((v.own a x).stateD a).initializedFromSnapshot = true := by
  cases x with
  | book e =>
      simp only [own]
      split
      · cases e.kind with
        | snapshot => exact h
        | delta => exact (AssetState.recordDeltaEvent_initialized _ e).trans h
      · exact h
  | ingest e =>
      simp only [own]
      split <;> exact h
  | checkpoint checkpoint =>
      simp only [own, h]
      simpa using h
  | trade e => exact h
  | validation e => exact h

/-- A book is never uninitialized again. -/
theorem applyAll_initialized {v : AssetView} (xs : List PersistedRecord)
    (h : (v.stateD a).initializedFromSnapshot = true) :
    ((v.applyAll a xs).stateD a).initializedFromSnapshot = true := by
  induction xs generalizing v with
  | nil => exact h
  | cons x xs ih =>
      refine ih (own_initialized a x ?_)
      unfold before
      split
      · rw [stateD_flush_initialized, h, Bool.true_or]
      · exact h

/-- A run of snapshot records leaves all its levels in the buffer. -/
theorem foldl_own_snapshots (group : List PersistedRecord)
    (hsnapshots : ∀ x ∈ group, ∃ e : BookEvent, x = .book e ∧ e.kind = .snapshot ∧
      e.assetId = a) (v : AssetView) {p : PendingSnapshot} (hp : v.pending = some p) :
    ∃ q, (group.foldl (own a) v).pending = some q ∧
      q.bids = p.bids ++ levelsOn .bid group ∧ q.asks = p.asks ++ levelsOn .ask group ∧
      q.key = p.key ∧ ((group.foldl (own a) v).stateD a).book = (v.stateD a).book ∧
      ((group.foldl (own a) v).stateD a).initializedFromSnapshot =
        (v.stateD a).initializedFromSnapshot := by
  induction group generalizing v p with
  | nil => exact ⟨p, hp, by simp [levelsOn], by simp [levelsOn], rfl, rfl, rfl⟩
  | cons x group ih =>
      obtain ⟨e, rfl, hkind, hasset⟩ := hsnapshots x List.mem_cons_self
      have hown : v.own a (.book e) = v.recordSnapshotEvent a e := by
        simp [own, hasset, hkind]
      obtain ⟨q, hq, hbids, hasks, hkey, hbook, hinit⟩ :=
        ih (fun y hy => hsnapshots y (List.mem_cons_of_mem _ hy)) (v.recordSnapshotEvent a e)
          (p := p.push e) (by simp [recordSnapshotEvent, hp])
      rw [List.foldl_cons, hown]
      refine ⟨q, hq, ?_, ?_, hkey, hbook, hinit⟩
      · rw [hbids]
        cases hs : e.side <;> simp [PendingSnapshot.push, levelsOn, hs]
      · rw [hasks]
        cases hs : e.side <;> simp [PendingSnapshot.push, levelsOn, hs]

/-- A run of snapshot records that starts a group waits in the buffer whole. -/
theorem applyAll_snapshots {e : BookEvent} {rest : List BookEvent}
    (hasset : ∀ d ∈ e :: rest, d.assetId = a) (hkind : ∀ d ∈ e :: rest, d.kind = .snapshot)
    (hgroup : ∀ c ∈ e :: rest, ∀ d ∈ e :: rest, c.groupKey = d.groupKey)
    {v : AssetView} (hfirst : v.before a (.book e) = v.flush a) :
    ∃ q, (v.applyAll a (bookRecords (e :: rest))).pending = some q ∧
      q.bids = levelsOn .bid (bookRecords (e :: rest)) ∧
      q.asks = levelsOn .ask (bookRecords (e :: rest)) ∧ q.key = e.groupKey := by
  have hchain : (bookRecords (e :: rest)).IsChain fun x y => sameGroup a x y := by
    refine List.Pairwise.isChain ?_
    rw [bookRecords, List.pairwise_map]
    refine List.Pairwise.imp_of_mem ?_ (List.pairwise_of_forall fun _ _ => trivial)
    intro c d hc hd _
    simp [sameGroup, hkind c hc, hkind d hd, hasset c hc, hgroup c hc d hd]
  have hrun : v.applyAll a (bookRecords (e :: rest)) =
      (bookRecords (e :: rest)).foldl (own a) (v.flush a) := by
    rw [← applyAll_group a (flush_pending a v) hchain]
    simp only [bookRecords, List.map_cons, applyAll_cons, apply, hfirst,
      before_of_pending_none a (flush_pending a v)]
  have hown : (v.flush a).own a (.book e) = (v.flush a).recordSnapshotEvent a e := by
    simp [own, hasset e List.mem_cons_self, hkind e List.mem_cons_self]
  obtain ⟨q, hq, hbids, hasks, hkey, _, _⟩ :=
    foldl_own_snapshots a (bookRecords rest) (by
      intro x hx
      obtain ⟨d, hd, rfl⟩ := List.mem_map.mp hx
      exact ⟨d, rfl, hkind d (List.mem_cons_of_mem _ hd),
        hasset d (List.mem_cons_of_mem _ hd)⟩)
      ((v.flush a).recordSnapshotEvent a e) (p := (PendingSnapshot.start e).push e)
      (by simp [recordSnapshotEvent])
  refine ⟨q, ?_, ?_, ?_, hkey⟩
  · rw [hrun, bookRecords, List.map_cons, List.foldl_cons, hown]
    exact hq
  · rw [hbids]
    cases hs : e.side <;>
      simp [PendingSnapshot.push, PendingSnapshot.start, bookRecords, levelsOn, hs]
  · rw [hasks]
    cases hs : e.side <;>
      simp [PendingSnapshot.push, PendingSnapshot.start, bookRecords, levelsOn, hs]

/-- A run that begins with a snapshot record of the asset holds nothing else. -/
theorem snapshots_of_isChain {e : BookEvent} {group : List PersistedRecord}
    (hchain : (PersistedRecord.book e :: group).IsChain fun x y => sameGroup a x y)
    (hkind : e.kind = .snapshot) (hasset : e.assetId = a) :
    ∀ x ∈ group, ∃ e' : BookEvent, x = .book e' ∧ e'.kind = .snapshot ∧ e'.assetId = a ∧
      e'.groupKey = e.groupKey := by
  induction group generalizing e with
  | nil => simp
  | cons y group ih =>
      obtain ⟨hxy, hrest⟩ := List.isChain_cons_cons.mp hchain
      cases y with
      | book e' =>
          simp only [sameGroup, Bool.and_eq_true, beq_iff_eq] at hxy
          obtain ⟨⟨⟨_, hkind'⟩, _⟩, hkey⟩ := hxy
          have hasset' : e'.assetId = a :=
            (congrArg SnapshotGroupKey.assetId hkey).symm.trans hasset
          intro x hx
          cases List.mem_cons.mp hx with
          | inl h => exact ⟨e', h, hkind', hasset', hkey.symm⟩
          | inr h =>
              obtain ⟨d, hd, hdkind, hdasset, hdkey⟩ := ih hrest hkind' hasset' x h
              exact ⟨d, hd, hdkind, hdasset, hdkey.trans hkey.symm⟩
      | _ => simp [sameGroup] at hxy

/-- A record that opens no group is a run of its own. -/
theorem eq_nil_of_isChain {x : PersistedRecord} {group : List PersistedRecord}
    (hchain : (x :: group).IsChain fun x y => sameGroup a x y)
    (hx : ∀ y, sameGroup a x y = false) : group = [] := by
  cases group with
  | nil => rfl
  | cons y group =>
      have hxy := (List.isChain_cons_cons.mp hchain).1
      rw [hx y] at hxy
      cases hxy

/-- A record other than a snapshot record of the asset opens no group. -/
theorem sameGroup_eq_false {x : PersistedRecord}
    (hx : ∀ e, x = .book e → ¬ (e.kind = .snapshot ∧ e.assetId = a)) (y : PersistedRecord) :
    sameGroup a x y = false := by
  cases x with
  | book e =>
      have hother := hx e rfl
      cases y with
      | book e' =>
          simp only [sameGroup]
          grind
      | _ => rfl
  | _ => rfl

/-- A run that begins with a snapshot record waits in the buffer whole. -/
theorem foldl_own_whole {v : AssetView} (hpending : v.pending = none)
    {e : BookEvent} (hkind : e.kind = .snapshot) (hasset : e.assetId = a)
    {rest : List PersistedRecord}
    (hchain : (PersistedRecord.book e :: rest).IsChain fun x y => sameGroup a x y) :
    ∃ q, ((PersistedRecord.book e :: rest).foldl (own a) v).pending = some q ∧
      q.bids = levelsOn .bid (.book e :: rest) ∧ q.asks = levelsOn .ask (.book e :: rest) ∧
      (((PersistedRecord.book e :: rest).foldl (own a) v).stateD a).initializedFromSnapshot =
        (v.stateD a).initializedFromSnapshot := by
  have hrest := snapshots_of_isChain a hchain hkind hasset
  have hown : v.own a (.book e) = v.recordSnapshotEvent a e := by
    simp [own, hasset, hkind]
  obtain ⟨q, hq, hbids, hasks, _, _, hinit⟩ :=
    foldl_own_snapshots a rest (fun y hy => by
      obtain ⟨e', he', hk, ha, _⟩ := hrest y hy
      exact ⟨e', he', hk, ha⟩) (v.recordSnapshotEvent a e)
      (p := (PendingSnapshot.start e).push e) (by simp [recordSnapshotEvent, hpending])
  rw [List.foldl_cons, hown]
  refine ⟨q, hq, ?_, ?_, hinit⟩
  · rw [hbids]
    cases hs : e.side <;> simp [PendingSnapshot.push, PendingSnapshot.start, levelsOn, hs]
  · rw [hasks]
    cases hs : e.side <;> simp [PendingSnapshot.push, PendingSnapshot.start, levelsOn, hs]

/-- What becomes of the buffer does not depend on the book. -/
theorem pending_apply_congr {v w : AssetView} (h : v.pending = w.pending)
    (record : PersistedRecord) :
    (v.apply a record).pending = (w.apply a record).pending := by
  have hbefore : (v.before a record).pending = (w.before a record).pending := by
    unfold AssetView.before
    rw [← h]
    split
    · rw [flush_pending, flush_pending]
    · exact h
  unfold AssetView.apply
  by_cases hsnapshot : ∃ e, record = .book e ∧ e.assetId = a ∧ e.kind = .snapshot
  · obtain ⟨e, rfl, hasset, hkind⟩ := hsnapshot
    simp only [AssetView.own, hasset, hkind, if_true, recordSnapshotEvent, hbefore]
  · have hdelta : ∀ e, record = .book e → e.assetId = a → e.kind = .delta := by
      intro e he hasset
      cases hkind : e.kind with
      | delta => rfl
      | snapshot => exact absurd ⟨e, he, hasset, hkind⟩ hsnapshot
    rw [own_pending_of_ne_snapshot a hdelta, own_pending_of_ne_snapshot a hdelta, hbefore]

/-- What becomes of the buffer in a run does not depend on the book. -/
theorem pending_applyAll_congr {v w : AssetView} (h : v.pending = w.pending)
    (records : List PersistedRecord) :
    (v.applyAll a records).pending = (w.applyAll a records).pending := by
  induction records generalizing v w with
  | nil => exact h
  | cons record records ih => exact ih (pending_apply_congr a h record)

/-- A whole group of the asset that its book takes. -/
def restoresGroup (a : AssetId) (group : List PersistedRecord) : Bool :=
  match group.head? with
  | some (.book event) =>
      event.kind == .snapshot && event.assetId == a &&
        fitsTotals (levelsOn .bid group) (levelsOn .ask group)
  | _ => false

/-- Such a group waits in the buffer. -/
theorem pending_of_restoresGroup {v : AssetView} {group : List PersistedRecord}
    (hpending : v.pending = none) (hchain : group.IsChain fun x y => sameGroup a x y)
    (h : restoresGroup a group = true) :
    ∃ p, (group.foldl (own a) v).pending = some p ∧ fitsTotals p.bids p.asks = true := by
  rcases group with - | ⟨x, rest⟩
  · cases h
  cases x with
  | book e =>
      simp only [restoresGroup, List.head?_cons, Bool.and_eq_true, beq_iff_eq] at h
      obtain ⟨⟨hkind, hasset⟩, hfits⟩ := h
      obtain ⟨q, hq, hbids, hasks, -⟩ := foldl_own_whole a hpending hkind hasset hchain
      exact ⟨q, hq, by rwa [hbids, hasks]⟩
  | _ => cases h

/-- A run of snapshot records initializes the asset if its totals fit. -/
theorem applyGroup_initialized_snapshots {v : AssetView} (hpending : v.pending = none)
    {e : BookEvent} (hkind : e.kind = .snapshot) (hasset : e.assetId = a)
    {rest : List PersistedRecord}
    (hchain : (PersistedRecord.book e :: rest).IsChain fun x y => sameGroup a x y) :
    ((v.applyGroup a (.book e :: rest)).stateD a).initializedFromSnapshot =
      ((v.stateD a).initializedFromSnapshot || seedsGroup a (.book e :: rest)) := by
  obtain ⟨q, hq, hbids, hasks, hinit⟩ := foldl_own_whole a hpending hkind hasset hchain
  rw [applyGroup, stateD_flush_initialized, hq, hinit]
  simp [seedsGroup, hkind, hasset, hbids, hasks]

/-- Any other record is a run of its own, and only a checkpoint initializes. -/
theorem applyGroup_initialized_singleton {v : AssetView} (hpending : v.pending = none)
    {x : PersistedRecord} (hx : ∀ e, x = .book e → ¬ (e.kind = .snapshot ∧ e.assetId = a)) :
    ((v.applyGroup a [x]).stateD a).initializedFromSnapshot =
      ((v.stateD a).initializedFromSnapshot || seedsGroup a [x]) := by
  rw [applyGroup, stateD_flush_initialized, List.foldl_cons, List.foldl_nil]
  cases x with
  | book e =>
      have hother := hx e rfl
      have hseeds : seedsGroup a [.book e] = false := by
        simp only [seedsGroup, List.head?_cons]
        grind
      simp only [hseeds, Bool.or_false, own]
      split
      · rename_i hasset
        cases hk : e.kind with
        | snapshot => exact absurd ⟨hk, hasset⟩ hother
        | delta => simp [setState, stateD, hpending]
      · simp [hpending]
  | checkpoint c =>
      simp only [seedsGroup, List.head?_cons, own]
      by_cases hc : c.assetId = a
      · cases hi : (v.stateD a).initializedFromSnapshot with
        | true => simp [hi, hpending]
        | false =>
            have hinit := AssetState.applyCheckpoint_initialized (v.stateD a) c
            rw [hi] at hinit
            simpa [hc, setState, hpending, stateD] using hinit
      · simp [hc, hpending]
  | trade e => simp [own, seedsGroup, hpending]
  | ingest e =>
      simp only [seedsGroup, List.head?_cons, own]
      split <;> simp [setState, stateD, hpending]
  | validation e => simp [own, seedsGroup, hpending]

/-- A run initializes the asset exactly when it seeds it. -/
theorem applyGroup_initialized {v : AssetView} (hpending : v.pending = none)
    {group : List PersistedRecord} (hne : group ≠ [])
    (hchain : group.IsChain fun x y => sameGroup a x y) :
    ((v.applyGroup a group).stateD a).initializedFromSnapshot =
      ((v.stateD a).initializedFromSnapshot || seedsGroup a group) := by
  obtain ⟨x, rest, rfl⟩ := List.exists_cons_of_ne_nil hne
  by_cases hsnapshot : ∃ e, x = .book e ∧ e.kind = .snapshot ∧ e.assetId = a
  · obtain ⟨e, rfl, hkind, hasset⟩ := hsnapshot
    exact applyGroup_initialized_snapshots a hpending hkind hasset hchain
  · have hx : ∀ e, x = .book e → ¬ (e.kind = .snapshot ∧ e.assetId = a) :=
      fun e he hown => hsnapshot ⟨e, he, hown⟩
    obtain rfl : rest = [] := eq_nil_of_isChain a hchain (sameGroup_eq_false a hx)
    exact applyGroup_initialized_singleton a hpending hx

/-- **Initialization is a property of the stream.**  The asset ends up with a
book exactly when some run seeds it. -/
theorem applyAll_flush_initialized {v : AssetView} (hpending : v.pending = none)
    (records : List PersistedRecord) :
    (((v.applyAll a records).flush a).stateD a).initializedFromSnapshot =
      ((v.stateD a).initializedFromSnapshot || seeds a records) := by
  rw [applyAll_flush_eq_applyGroups a hpending, seeds]
  obtain ⟨_, hnil, hchain, _⟩ := (List.splitBy_eq_iff (l := groups a records)).mp rfl
  generalize groups a records = gs at hnil hchain
  induction gs generalizing v with
  | nil => simp [applyGroups]
  | cons g gs ih =>
      have hg : g ≠ [] := fun h => hnil (h ▸ List.mem_cons_self)
      have hnext := ih (applyGroup_pending a v g)
        (fun h => hnil (List.mem_cons_of_mem _ h))
        (fun m hm => hchain m (List.mem_cons_of_mem _ hm))
      rw [applyGroups, List.foldl_cons]
      rw [applyGroups] at hnext
      rw [hnext, applyGroup_initialized a hpending hg (hchain g List.mem_cons_self),
        List.any_cons, Bool.or_assoc]

end AssetView

/-! Concrete records for runs on fixed inputs. -/
namespace Sample

/-- Where a sample record comes from. -/
def provenance (recv : Nat) (eventId : String) : EventProvenance where
  recvTimestampUs := recv
  exchangeTimestampUs := recv
  source := .webSocket
  sourceEventId := some eventId
  sourceSessionId := some "session"
  sequence := some recv
  ingestOrdinal := none

/-- A price level: a price in hundredths, a size in units. -/
def level (kind : BookEventKind) (asset : AssetId) (side : Side) (cents : Fin 101)
    (units : Fin 1000) (recv : Nat) (eventId : String) : BookEvent where
  assetId := asset
  kind := kind
  side := side
  price := price cents
  size := size units
  provenance := provenance recv eventId

/-- The same record with its ingest ordinal. -/
def stamped (ordinal : Nat) (event : BookEvent) : BookEvent :=
  { event with provenance := { event.provenance with ingestOrdinal := some ordinal } }

end Sample

end PolyBook
