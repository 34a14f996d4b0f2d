import PolyBook.CheckpointCuts

/-!
# Replay validation

`replay_validation` takes the first checkpoint after the replayed time as the
reference, rebuilds the book of its time from what is older and compares the two.
The reference is dated by the venue, and that date is the target of the
reconstruction too: it ends the window of events, which is one of receive times.

The comparison itself is exact: well-formed levels match a book when the book
holds just them (`booksMatchCheckpoint_iff`).
-/

namespace PolyBook

open Overwrite Ingest

/-- Levels in the order of a side; equal prices keep theirs. -/
def sortLevels (cmp : FixedPrice → FixedPrice → Ordering)
    (levels : List (FixedPrice × FixedSize)) : List (FixedPrice × FixedSize) :=
  levels.insertionSort fun x y => (cmp x.1 y.1).isLE = true

/-- The levels of a checkpoint, as a snapshot takes them. -/
def levelPairs (levels : List PriceLevel) : List (FixedPrice × FixedSize) :=
  levels.map fun l => (l.price, l.size)

namespace L2Book

variable (book : L2Book)

/-- The bids from the best on. -/
def bidsSorted : List (FixedPrice × FixedSize) := book.bids.toList

/-- The asks from the best on. -/
def asksSorted : List (FixedPrice × FixedSize) := book.asks.toList

/-- The number of bids. -/
def bidDepth : Nat := book.bids.size

/-- The number of asks. -/
def askDepth : Nat := book.asks.size

end L2Book

/-- `books_match_checkpoint`. -/
def booksMatchCheckpoint (book : L2Book) (checkpoint : BookCheckpoint) : Bool :=
  let checkpointBids := sortLevels (fun a b => compare b a) (levelPairs checkpoint.bids)
  let checkpointAsks := sortLevels compare (levelPairs checkpoint.asks)
  book.bidsSorted == checkpointBids && book.asksSorted == checkpointAsks

/-- The `Debug` text of an optional level. -/
def debugLevel : Option (FixedPrice × FixedSize) → String
  | none => "None"
  | some (price, size) =>
      "Some((FixedPrice(" ++ toString price.raw ++ "), FixedSize(" ++ toString size.raw ++ ")))"

/-- `render_checkpoint_mismatch`. -/
def renderCheckpointMismatch (book : L2Book) (checkpoint : BookCheckpoint) : String :=
  "bid_depth=" ++ toString book.bidDepth ++
    " checkpoint_bid_depth=" ++ toString checkpoint.bids.length ++
    " ask_depth=" ++ toString book.askDepth ++
    " checkpoint_ask_depth=" ++ toString checkpoint.asks.length ++
    " best_bid=" ++ debugLevel book.bestBid ++
    " checkpoint_best_bid=" ++ debugLevel (levelPairs checkpoint.bids).head? ++
    " best_ask=" ++ debugLevel book.bestAsk ++
    " checkpoint_best_ask=" ++ debugLevel (levelPairs checkpoint.asks).head?

section Validation

variable (lookbackUs : Nat) (assetId : AssetId)

/-- `ReplayEngine::replay_validation` over the stored records; `persistedAtUs` is
what the clock shows at its end. -/
def replayValidation (replayTimestampUs : Nat) (mode : ReplayMode) (persistedAtUs : Nat)
    (records : List PersistedRecord) : Except ReplayError (Option ReplayValidation) := do
  let checkpoints ← readCheckpoints assetId replayTimestampUs
    (min (replayTimestampUs + lookbackUs) u64Max) records
  match checkpoints.find? fun checkpoint =>
      replayTimestampUs < checkpoint.checkpointTimestampUs with
  | none => pure none
  | some reference =>
      let referenceUs := reference.checkpointTimestampUs
      let floorUs := referenceUs - lookbackUs
      let seed ← latestCheckpointInWindow assetId floorUs (referenceUs - 1) records
      let seed := checkpointWithinFloor seed floorUs
      let startUs := (seed.map (·.checkpointTimestampUs)).getD floorUs
      let window ← readMarketData assetId startUs referenceUs records
      let rebuilt ← reconstructBook assetId referenceUs mode seed window
      let matched := booksMatchCheckpoint rebuilt.book reference
      pure (some {
        assetId := assetId
        mode := mode
        replayTimestampUs := replayTimestampUs
        referenceTimestampUs := referenceUs
        matched := matched
        mismatchSummary :=
          if matched then none else some (renderCheckpointMismatch rebuilt.book reference)
        persistedAtUs := persistedAtUs })

/-- The checkpoint a validation compares with. -/
def referenceCheckpoint (replayTimestampUs : Nat) (records : List PersistedRecord) :
    Option BookCheckpoint :=
  (checkpointsInWindow assetId replayTimestampUs (min (replayTimestampUs + lookbackUs) u64Max)
    records).find? fun checkpoint => replayTimestampUs < checkpoint.checkpointTimestampUs

/-- The checkpoint a validation starts from: the last one before the reference. -/
def validationSeed (referenceUs : Nat) (records : List PersistedRecord) :
    Option BookCheckpoint :=
  let floorUs := referenceUs - lookbackUs
  checkpointWithinFloor
    (latestCheckpoint assetId floorUs (referenceUs - 1) records) floorUs

end Validation

/-! ## The comparison -/

/-- Every price once, and no zero size. -/
structure WellFormedLevels (levels : List PriceLevel) : Prop where
  prices : (levels.map (·.price)).Nodup
  sizes : ∀ l ∈ levels, l.size.isZero = false

section OneSide

variable {cmp : FixedPrice → FixedPrice → Ordering} [Std.TransCmp cmp] [Std.LawfulEqCmp cmp]
  {cap : Nat → Nat} {levels : List PriceLevel}

/-- A side rebuilt from well-formed levels lists just these. -/
theorem WellFormedLevels.mem_toList (h : WellFormedLevels levels)
    (hfits : ∑ raw ∈ rawPrices, cap raw ≤ u64Max)
    (hcap : ∀ l ∈ levelPairs levels, l.2.raw ≤ cap l.1.raw) :
    ∃ side : SideLevels cmp × Nat, snapshotSide (levelPairs levels) = some side ∧
      ∀ l, l ∈ side.1.toList ↔ l ∈ levelPairs levels := by
  have hempty : SideWithin cap ((∅ : SideLevels cmp), 0) := .empty cap
  obtain ⟨side, hside, -, hlist⟩ := hempty.foldlM_snapshotLevel hfits hcap
  have hsize : ∀ l ∈ levelPairs levels, l.2.isZero = false := by
    intro l hl
    obtain ⟨x, hx, rfl⟩ := List.mem_map.mp hl
    exact h.sizes x hx
  have honce : ∀ p s t, (p, s) ∈ levelPairs levels → (p, t) ∈ levelPairs levels → s = t := by
    intro p s t hs ht
    obtain ⟨x, hx, hxs⟩ := List.mem_map.mp hs
    obtain ⟨y, hy, hyt⟩ := List.mem_map.mp ht
    have hxy : x = y := by
      refine List.inj_on_of_nodup_map h.prices hx hy ?_
      exact (congrArg Prod.fst hxs).trans (congrArg Prod.fst hyt).symm
    subst hxy
    exact (congrArg Prod.snd hxs).symm.trans (congrArg Prod.snd hyt)
  refine ⟨side, hside, fun ⟨p, s⟩ => ?_⟩
  rw [Std.ExtTreeMap.mem_toList_iff_getElem?_eq_some]
  rcases hlist p with ⟨hnone, hzero⟩ | ⟨t, ht, hsome⟩
  · have hnone : side.1[p]? = none := by simpa using hnone
    rw [hnone]
    constructor
    · intro hs
      cases hs
    · intro hs
      have := hsize _ hs
      rw [hzero s hs] at this
      cases this
  · rw [hsome]
    constructor
    · rintro ⟨⟩
      exact ht
    · intro hs
      rw [honce p s t hs ht]

/-- Sorted, they are its listing. -/
theorem WellFormedLevels.toList_eq (h : WellFormedLevels levels) {side : SideLevels cmp}
    (hmem : ∀ l, l ∈ side.toList ↔ l ∈ levelPairs levels) :
    side.toList = sortLevels cmp (levelPairs levels) := by
  have htotal : Std.Total fun x y : FixedPrice × FixedSize => (cmp x.1 y.1).isLE = true :=
    ⟨fun x y => by
      have hswap : cmp y.1 x.1 = (cmp x.1 y.1).swap := Std.OrientedCmp.eq_swap
      rw [hswap]
      cases cmp x.1 y.1 <;> simp⟩
  have htrans : IsTrans (FixedPrice × FixedSize) fun x y => (cmp x.1 y.1).isLE = true :=
    ⟨fun _ _ _ h h' => Std.TransCmp.isLE_trans h h'⟩
  have hlt : side.toList.Pairwise fun x y => cmp x.1 y.1 = .lt :=
    Std.ExtTreeMap.ordered_keys_toList
  have hnodup : (levelPairs levels).Nodup := by
    refine List.Nodup.of_map Prod.fst ?_
    rw [levelPairs, List.map_map]
    exact h.prices
  have hperm : side.toList.Perm (levelPairs levels) := by
    refine (List.perm_ext_iff_of_nodup (hlt.imp ?_) hnodup).mpr hmem
    rintro x _ hxx rfl
    rw [(Std.ReflCmp.compare_self : cmp x.1 x.1 = .eq)] at hxx
    cases hxx
  refine List.Perm.eq_of_pairwise ?_ (hlt.imp fun hxy => by rw [hxy]; rfl)
    (List.pairwise_insertionSort _ _) (hperm.trans (List.perm_insertionSort _ _).symm)
  intro x y hx hy hxy hyx
  have hprice : x.1 = y.1 :=
    Std.LawfulEqCmp.eq_of_compare (Std.OrientedCmp.isLE_antisymm hxy hyx)
  have hy' : y ∈ side.toList := (hmem y).mpr ((List.mem_insertionSort _).mp hy)
  rw [Std.ExtTreeMap.mem_toList_iff_getElem?_eq_some] at hx hy'
  rw [hprice, hy', Option.some.injEq] at hx
  exact Prod.ext hprice hx.symm

end OneSide

/-- The levels of both sides are well formed. -/
structure BookCheckpoint.WellFormed (checkpoint : BookCheckpoint) : Prop where
  bids : WellFormedLevels checkpoint.bids
  asks : WellFormedLevels checkpoint.asks

/-- **The comparison is exact.** -/
theorem booksMatchCheckpoint_iff {c : Capacity} {checkpoint : BookCheckpoint}
    (hwell : checkpoint.WellFormed) (hbids : c.Admits .bid (levelPairs checkpoint.bids))
    (hasks : c.Admits .ask (levelPairs checkpoint.asks)) (book : L2Book) :
    booksMatchCheckpoint book checkpoint = true ↔
      book.content = listedContent (levelPairs checkpoint.bids) (levelPairs checkpoint.asks) := by
  obtain ⟨bids, hbids_eq, hbids_mem⟩ :
      ∃ side : BidLevels × Nat, snapshotSide (levelPairs checkpoint.bids) = some side ∧ _ :=
    hwell.bids.mem_toList (c.fits .bid) hbids
  obtain ⟨asks, hasks_eq, hasks_mem⟩ :
      ∃ side : AskLevels × Nat, snapshotSide (levelPairs checkpoint.asks) = some side ∧ _ :=
    hwell.asks.mem_toList (c.fits .ask) hasks
  simp only [booksMatchCheckpoint, Bool.and_eq_true, beq_iff_eq, L2Book.bidsSorted,
    L2Book.asksSorted, ← hwell.bids.toList_eq hbids_mem, ← hwell.asks.toList_eq hasks_mem,
    Std.ExtTreeMap.toList_inj]
  constructor
  · rintro ⟨hbook_bids, hbook_asks⟩
    funext ⟨side, price⟩
    cases side with
    | bid => simp only [L2Book.content, listedContent, hbids_eq, Option.bind_some, hbook_bids]
    | ask => simp only [L2Book.content, listedContent, hasks_eq, Option.bind_some, hbook_asks]
  · intro h
    constructor
    · refine Std.ExtTreeMap.ext_getElem? fun price => ?_
      have hprice := congrFun h (.bid, price)
      simpa only [L2Book.content, listedContent, hbids_eq, Option.bind_some] using hprice
    · refine Std.ExtTreeMap.ext_getElem? fun price => ?_
      have hprice := congrFun h (.ask, price)
      simpa only [L2Book.content, listedContent, hasks_eq, Option.bind_some] using hprice

/-- A listed side is well formed. -/
theorem SideWithin.wellFormed_toList {cmp : FixedPrice → FixedPrice → Ordering}
    [Std.TransCmp cmp] [Std.LawfulEqCmp cmp] {cap : Nat → Nat} {side : SideLevels cmp × Nat}
    (h : SideWithin cap side) :
    WellFormedLevels (side.1.toList.map fun l => (⟨l.1, l.2⟩ : PriceLevel)) where
  prices := by
    rw [List.map_map, List.nodup_iff_pairwise_ne, List.pairwise_map]
    refine Std.ExtTreeMap.distinct_keys_toList.imp fun hne heq => ?_
    rw [Function.comp_apply, Function.comp_apply] at heq
    exact hne (Std.LawfulEqCmp.compare_eq_iff_eq.mpr heq)
  sizes := by
    intro l hl
    obtain ⟨x, hx, rfl⟩ := List.mem_map.mp hl
    exact (h.stored x.1 x.2 (Std.ExtTreeMap.mem_toList_iff_getElem?_eq_some.mp hx)).1

/-- The REST book is well formed. -/
theorem L2Book.Within.wellFormed_checkpointFromRest {c : Capacity} {book : L2Book}
    (h : book.Within c) (a : AssetId) (nowUs exchangeTs : Nat) (hash : Option String) :
    (checkpointFromRest a book nowUs exchangeTs hash).WellFormed where
  bids := h.bids.wellFormed_toList
  asks := h.asks.wellFormed_toList

/-! ## What a validation reads -/

/-- The times of a validation: the replayed time, the reference after it, and the
checkpoint it starts from if there is one. -/
structure ValidationTimes where
  lookbackUs : Nat
  replayUs : Nat
  reference : CheckpointTimes
  seed : Option CheckpointTimes
  after : replayUs < reference.exchange
  inside : reference.exchange ≤ min (replayUs + lookbackUs) u64Max
  seeded : ∀ s ∈ seed, reference.exchange - lookbackUs ≤ s.exchange ∧ s.exchange ≤ replayUs

namespace ValidationTimes

variable (times : ValidationTimes)

/-- The venue's time of the reference, the target of the reconstruction. -/
def target : Nat := times.reference.exchange

/-- Where the window of events starts. -/
def start : Nat := (times.seed.map (·.exchange)).getD (times.target - times.lookbackUs)

end ValidationTimes

/-- The stored records other than checkpoints. -/
def withoutCheckpoints (records : List PersistedRecord) : List PersistedRecord :=
  records.filter fun
    | .checkpoint _ => false
    | _ => true

/-- A reading that takes no checkpoint finds the same without them. -/
theorem filterMap_withoutCheckpoints {T : Type} (take : PersistedRecord → Option T)
    (htake : ∀ checkpoint, take (.checkpoint checkpoint) = none)
    (records : List PersistedRecord) :
    (withoutCheckpoints records).filterMap take = records.filterMap take := by
  rw [withoutCheckpoints, List.filterMap_filter]
  refine List.filterMap_congr fun x _ => ?_
  cases x <;> simp [htake]

theorem marketDataWindow_withoutCheckpoints (a : AssetId) (start target : Nat)
    (records : List PersistedRecord) :
    marketDataWindow a start target (withoutCheckpoints records) =
      marketDataWindow a start target records := by
  rw [marketDataWindow,
    filterMap_withoutCheckpoints (extractBookEvent a start target) fun _ => rfl,
    filterMap_withoutCheckpoints (extractTradeEvent a start target) fun _ => rfl,
    filterMap_withoutCheckpoints (extractIngestEvent a start target) fun _ => rfl]
  rfl

theorem windowFits_withoutCheckpoints {a : AssetId} {start target : Nat}
    {records : List PersistedRecord} :
    WindowFits a start target (withoutCheckpoints records) ↔ WindowFits a start target records := by
  have hbooks := filterMap_withoutCheckpoints (extractBookEvent a start target) (fun _ => rfl)
    records
  have htrades := filterMap_withoutCheckpoints (extractTradeEvent a start target) (fun _ => rfl)
    records
  have hingests := filterMap_withoutCheckpoints (extractIngestEvent a start target) (fun _ => rfl)
    records
  constructor
  · rintro ⟨hfits, hfits', hfits''⟩
    exact ⟨hbooks ▸ hfits, htrades ▸ hfits', hingests ▸ hfits''⟩
  · rintro ⟨hfits, hfits', hfits''⟩
    exact ⟨hbooks.symm ▸ hfits, htrades.symm ▸ hfits', hingests.symm ▸ hfits''⟩

/-- No read of a validation at the times is too large. -/
structure ValidationReads (a : AssetId) (times : ValidationTimes)
    (records : List PersistedRecord) : Prop where
  references : CheckpointsFit a times.replayUs (min (times.replayUs + times.lookbackUs) u64Max)
    records
  seeds : CheckpointsFit a (times.target - times.lookbackUs) (times.target - 1) records
  window : WindowFits a times.start times.target records

/-- The stored feed with its checkpoints: the reference and the seed that the
validation chooses list the venue's book of their times. -/
structure ValidationInput {a : AssetId} (c : Capacity) (feed : VenueFeed a)
    (times : ValidationTimes) (records : List PersistedRecord) (reference : BookCheckpoint)
    (seed : Option BookCheckpoint) : Prop where
  stored : Stored feed (withoutCheckpoints records)
  referenceEq : referenceCheckpoint times.lookbackUs a times.replayUs records = some reference
  seedEq : validationSeed times.lookbackUs a times.target records = seed
  captured : Captured c feed times.reference reference
  wellFormed : reference.WellFormed
  seedCaptured : Option.Rel (Captured c feed) times.seed seed

/-- The changes the venue dates up to a time. -/
def VenueFeed.madeBy {a : AssetId} (feed : VenueFeed a) (exchange : Nat) :
    List (VenueChange a) := feed.changes.filter fun m => m.exchangeTs ≤ exchange

section Input

variable {a : AssetId} {c : Capacity} {feed : VenueFeed a} {times : ValidationTimes}
  {records : List PersistedRecord} {reference : BookCheckpoint} {seed : Option BookCheckpoint}
  {mode : ReplayMode}

theorem VenueFeed.mem_madeBy {m : VenueChange a} {exchange : Nat} :
    m ∈ feed.madeBy exchange ↔ m ∈ feed.changes ∧ m.exchangeTs ≤ exchange := by
  simp [madeBy]

theorem ValidationInput.start_eq (h : ValidationInput c feed times records reference seed) :
    (seed.map (·.checkpointTimestampUs)).getD (times.target - times.lookbackUs) =
      times.start := by
  have hseed := h.seedCaptured
  rw [ValidationTimes.start]
  generalize times.seed = seedTimes at hseed
  cases hseed with
  | none => rfl
  | some hcaptured => exact hcaptured.dated

/-- Once its checkpoints have been read, a validation reads one window and compares. -/
theorem ValidationInput.replayValidation_eq
    (h : ValidationInput c feed times records reference seed)
    (hreferences : CheckpointsFit a times.replayUs
      (min (times.replayUs + times.lookbackUs) u64Max) records)
    (hseeds : CheckpointsFit a (times.target - times.lookbackUs) (times.target - 1) records)
    (persistedAtUs : Nat) :
    replayValidation times.lookbackUs a times.replayUs mode persistedAtUs records =
      ((readMarketData a times.start times.target records).bind
        (reconstructBook a times.target mode seed)).map fun rebuilt =>
          some {
            assetId := a
            mode := mode
            replayTimestampUs := times.replayUs
            referenceTimestampUs := times.target
            matched := booksMatchCheckpoint rebuilt.book reference
            mismatchSummary :=
              if booksMatchCheckpoint rebuilt.book reference then none
              else some (renderCheckpointMismatch rebuilt.book reference)
            persistedAtUs := persistedAtUs } := by
  have hdated : reference.checkpointTimestampUs = times.target := h.captured.dated
  have hreference := h.referenceEq
  have hseed := h.seedEq
  have hstart := h.start_eq
  rw [referenceCheckpoint] at hreference
  rw [validationSeed] at hseed
  rw [replayValidation, readCheckpoints_of_fit hreferences]
  simp only [bind, Except.bind, hreference, hdated, latestCheckpointInWindow_of_fit fun _ => hseeds,
    hseed, hstart]
  cases readMarketData a times.start times.target records with
  | error err => rfl
  | ok window => cases reconstructBook a times.target mode seed window <;> rfl

/-- **A validation's verdict** is whether the rebuilt book is the venue's. -/
theorem ValidationInput.matched_iff (h : ValidationInput c feed times records reference seed)
    (hreads : ValidationReads a times records)
    {r : Reconstruction} (hr : reconstructBook a times.target mode seed
      (marketDataWindow a times.start times.target (withoutCheckpoints records)) = .ok r)
    (persistedAtUs : Nat) :
    (∃ v, replayValidation times.lookbackUs a times.replayUs mode persistedAtUs records =
        .ok (some v) ∧ v.matched = true) ↔
      r.book.content =
        writes (fun _ => none) ((feed.madeBy times.target).map VenueChange.write) := by
  rw [marketDataWindow_withoutCheckpoints] at hr
  rw [h.replayValidation_eq hreads.references hreads.seeds, readMarketData_of_fits hreads.window]
  simp only [Except.bind, hr]
  have hcontent : listedContent (levelPairs reference.bids) (levelPairs reference.asks) =
      writes (fun _ => none) ((feed.madeBy times.target).map VenueChange.write) :=
    h.captured.listed.content.trans (feed.contentAfter_version _)
  rw [← hcontent, ← booksMatchCheckpoint_iff h.wellFormed h.captured.listed.bids
    h.captured.listed.asks r.book]
  constructor
  · rintro ⟨v, hv, hmatched⟩
    obtain rfl := Option.some.inj (Except.ok.inj hv)
    exact hmatched
  · intro hmatched
    exact ⟨_, rfl, hmatched⟩

/-- A validation with a read that is too large is refused. -/
theorem ValidationInput.refused (h : ValidationInput c feed times records reference seed)
    (hreads : ¬ValidationReads a times records) (persistedAtUs : Nat) :
    replayValidation times.lookbackUs a times.replayUs mode persistedAtUs records =
      .error .tooManyRows := by
  by_cases hreferences : CheckpointsFit a times.replayUs
      (min (times.replayUs + times.lookbackUs) u64Max) records
  swap
  · rw [replayValidation, readCheckpoints_of_not_fit hreferences]
    rfl
  by_cases hseeds : CheckpointsFit a (times.target - times.lookbackUs) (times.target - 1) records
  · rw [h.replayValidation_eq hreferences hseeds,
      readMarketData_of_not_fits (mt (ValidationReads.mk hreferences hseeds) hreads)]
    rfl
  · have hafter : times.replayUs < times.target := times.after
    have hinside : times.target ≤ min (times.replayUs + times.lookbackUs) u64Max := times.inside
    have hdated : reference.checkpointTimestampUs = times.target := h.captured.dated
    have hreference := h.referenceEq
    rw [referenceCheckpoint] at hreference
    rw [replayValidation, readCheckpoints_of_fit hreferences]
    simp only [bind, Except.bind, hreference, hdated,
      latestCheckpointInWindow_of_not_fit (by omega) hseeds]

end Input

end PolyBook
