import PolyBook.Capacity
import PolyBook.Library.Runs

/-!
# Running totals of the order book

The source updates a book in place, one field after another, and leaves with an
error before its first assignment.  `applySnapshot` and `applyDelta` say it in these
steps; what they do is what `tryApplySnapshot` and `tryApplyDelta` say as functions.

`book_totals_exact`: over any run of such calls the cached totals are the sums of
the stored sizes, and a call fails exactly when a total it must form exceeds `u64`.
-/

namespace PolyBook

open Overwrite

/-- Code on a book that may leave with an error. -/
abbrev BookM := ExceptT BookError (StateM L2Book)

namespace BookM

/-- `ok_or_else`. -/
def orError {α : Type} (value : Option α) (e : BookError) : BookM α :=
  match value with
  | none => throw e
  | some a => pure a

/-- `try_apply_snapshot`, field by field. -/
def applySnapshot (bids asks : List (FixedPrice × FixedSize)) (sequence timestampUs : Nat) :
    BookM Unit := do
  let book ← get
  let nextBids : BidLevels × Nat ←
    orError (snapshotSide bids) (.aggregateOverflow book.assetId "Bid")
  let nextAsks : AskLevels × Nat ←
    orError (snapshotSide asks) (.aggregateOverflow book.assetId "Ask")
  modify fun b => { b with bids := nextBids.1 }
  modify fun b => { b with asks := nextAsks.1 }
  modify fun b => { b with totalBidRaw := nextBids.2 }
  modify fun b => { b with totalAskRaw := nextAsks.2 }
  modify fun b => { b with sequence := sequence }
  modify fun b => { b with seqInitialized := true }
  modify fun b => { b with lastUpdateUs := timestampUs }

/-- The bid branch of `try_apply_delta`. -/
def applyBid (price : FixedPrice) (size : FixedSize) : BookM Unit := do
  let book ← get
  if size.isZero then
    match book.bids[price]? with
    | none => pure ()
    | some old =>
        modify fun b => { b with bids := b.bids.erase price }
        modify fun b => { b with totalBidRaw := b.totalBidRaw - old.raw }
  else
    let nextTotal ← orError (checkedReplace book.totalBidRaw (oldRaw book.bids price) size.raw)
      (.aggregateOverflow book.assetId "Bid")
    modify fun b => { b with bids := b.bids.insert price size }
    modify fun b => { b with totalBidRaw := nextTotal }

/-- The ask branch of `try_apply_delta`. -/
def applyAsk (price : FixedPrice) (size : FixedSize) : BookM Unit := do
  let book ← get
  if size.isZero then
    match book.asks[price]? with
    | none => pure ()
    | some old =>
        modify fun b => { b with asks := b.asks.erase price }
        modify fun b => { b with totalAskRaw := b.totalAskRaw - old.raw }
  else
    let nextTotal ← orError (checkedReplace book.totalAskRaw (oldRaw book.asks price) size.raw)
      (.aggregateOverflow book.assetId "Ask")
    modify fun b => { b with asks := b.asks.insert price size }
    modify fun b => { b with totalAskRaw := nextTotal }

/-- `try_apply_delta`, field by field. -/
def applyDelta (side : Side) (price : FixedPrice) (size : FixedSize)
    (sequence timestampUs : Nat) : BookM Unit := do
  match side with
  | .bid => applyBid price size
  | .ask => applyAsk price size
  modify fun b => { b with sequence := sequence }
  modify fun b => { b with seqInitialized := true }
  modify fun b => { b with lastUpdateUs := timestampUs }

end BookM

/-- What a call leaves, from its outcome as a function. -/
def settleCall (book : L2Book) : Except BookError L2Book → Except BookError Unit × L2Book
  | .error e => (.error e, book)
  | .ok next => (.ok (), next)

theorem applySnapshot_run (book : L2Book) (bids asks : List (FixedPrice × FixedSize))
    (sequence timestampUs : Nat) :
    (BookM.applySnapshot bids asks sequence timestampUs).run.run book =
      settleCall book (book.tryApplySnapshot bids asks sequence timestampUs) := by
  unfold BookM.applySnapshot L2Book.tryApplySnapshot
  cases hbids : (snapshotSide bids : Option (BidLevels × Nat)) with
  | none => rfl
  | some nextBids =>
      cases hasks : (snapshotSide asks : Option (AskLevels × Nat)) with
      | none => rfl
      | some nextAsks => rfl

section OneSide

variable {cmp : FixedPrice → FixedPrice → Ordering} [Std.TransCmp cmp] [Std.LawfulEqCmp cmp]

theorem erase_of_none {levels : SideLevels cmp} {price : FixedPrice}
    (h : levels[price]? = none) : levels.erase price = levels := by
  apply Std.ExtTreeMap.ext_getElem?
  intro q
  rw [TreeMapLookup.getElem?_erase]
  split
  · rename_i heq
    rw [heq, h]
  · rfl

/-- A removal, as the source writes it. -/
theorem deltaSide_of_zero (levels : SideLevels cmp) (total : Nat) (price : FixedPrice)
    {size : FixedSize} (hzero : size.isZero = true) :
    deltaSide levels total price size = match levels[price]? with
      | none => some (levels, total)
      | some old => some (levels.erase price, total - old.raw) := by
  rw [deltaSide, if_pos hzero, oldRaw]
  split
  · rename_i h
    rw [erase_of_none h, h]
    rfl
  · rename_i old h
    rw [h]
    rfl

omit [Std.LawfulEqCmp cmp] in
theorem deltaSide_of_pos (levels : SideLevels cmp) (total : Nat) (price : FixedPrice)
    {size : FixedSize} (hzero : size.isZero = false) :
    deltaSide levels total price size =
      (checkedReplace total (oldRaw levels price) size.raw).map fun next =>
        (levels.insert price size, next) := by
  rw [deltaSide, if_neg (by simp [hzero])]

end OneSide

/-- Code that reads the book first. -/
theorem run_get_bind {α : Type} (f : L2Book → BookM α) (book : L2Book) :
    (get >>= f).run.run book = (f book).run.run book := rfl

theorem applyBid_run (book : L2Book) (price : FixedPrice) (size : FixedSize) :
    (BookM.applyBid price size).run.run book =
      match deltaSide book.bids book.totalBidRaw price size with
      | none => (.error (.aggregateOverflow book.assetId "Bid"), book)
      | some next => (.ok (), { book with bids := next.1, totalBidRaw := next.2 }) := by
  rw [BookM.applyBid, run_get_bind]
  cases hzero : size.isZero with
  | true =>
      rw [deltaSide_of_zero _ _ _ hzero]
      cases hold : book.bids[price]? with
      | none => rfl
      | some old => rfl
  | false =>
      rw [deltaSide_of_pos _ _ _ hzero]
      cases hnext : checkedReplace book.totalBidRaw (oldRaw book.bids price) size.raw with
      | none => rfl
      | some nextTotal => rfl

theorem applyAsk_run (book : L2Book) (price : FixedPrice) (size : FixedSize) :
    (BookM.applyAsk price size).run.run book =
      match deltaSide book.asks book.totalAskRaw price size with
      | none => (.error (.aggregateOverflow book.assetId "Ask"), book)
      | some next => (.ok (), { book with asks := next.1, totalAskRaw := next.2 }) := by
  rw [BookM.applyAsk, run_get_bind]
  cases hzero : size.isZero with
  | true =>
      rw [deltaSide_of_zero _ _ _ hzero]
      cases hold : book.asks[price]? with
      | none => rfl
      | some old => rfl
  | false =>
      rw [deltaSide_of_pos _ _ _ hzero]
      cases hnext : checkedReplace book.totalAskRaw (oldRaw book.asks price) size.raw with
      | none => rfl
      | some nextTotal => rfl

/-- Code that goes on with another part. -/
theorem run_bind {α β : Type} (m : BookM α) (f : α → BookM β) (book : L2Book) :
    (m >>= f).run.run book = match m.run.run book with
      | (.error e, b) => (.error e, b)
      | (.ok a, b) => (f a).run.run b := by
  change (match m.run.run book with
    | (r, b) => (ExceptT.bindCont f r).run b) = _
  cases m.run.run book with
  | mk r b =>
      cases r with
      | error e => rfl
      | ok a => rfl

theorem applyDelta_run (book : L2Book) (side : Side) (price : FixedPrice) (size : FixedSize)
    (sequence timestampUs : Nat) :
    (BookM.applyDelta side price size sequence timestampUs).run.run book =
      settleCall book (book.tryApplyDelta side price size sequence timestampUs) := by
  cases side with
  | bid =>
      rw [BookM.applyDelta, run_bind, applyBid_run, L2Book.tryApplyDelta]
      cases deltaSide book.bids book.totalBidRaw price size with
      | none => rfl
      | some next => rfl
  | ask =>
      rw [BookM.applyDelta, run_bind, applyAsk_run, L2Book.tryApplyDelta]
      cases deltaSide book.asks book.totalAskRaw price size with
      | none => rfl
      | some next => rfl

/-! ## Totals -/

/-- The last size listed at a raw price; zero sizes are skipped. -/
def lastListed (levels : List (FixedPrice × FixedSize)) (raw : Nat) : Nat :=
  ((levels.filter fun l => l.1.raw = raw && !l.2.isZero).getLast?).elim 0 fun l => l.2.raw

/-- The running total of a snapshot side after some of its levels. -/
def runningTotal (levels : List (FixedPrice × FixedSize)) : Nat :=
  ∑ raw ∈ rawPrices, lastListed levels raw

theorem lastListed_concat (levels : List (FixedPrice × FixedSize)) (l : FixedPrice × FixedSize)
    (raw : Nat) : lastListed (levels ++ [l]) raw =
      if l.1.raw = raw ∧ l.2.isZero = false then l.2.raw else lastListed levels raw := by
  by_cases h : l.1.raw = raw ∧ l.2.isZero = false
  · have hkeep : (l.1.raw = raw && !l.2.isZero) = true := by simp [h]
    rw [if_pos h, lastListed, List.filter_append, List.filter_singleton, hkeep, cond_true,
      List.getLast?_concat]
    rfl
  · have hdrop : (l.1.raw = raw && !l.2.isZero) = false := by
      by_contra htrue
      apply h
      simpa using htrue
    rw [if_neg h, lastListed, List.filter_append, List.filter_singleton, hdrop, cond_false,
      List.append_nil, lastListed]

/-- Any size of a `FixedSize` is within it. -/
def anySize (_raw : Nat) : Nat := u64Max

section OneSide

variable {cmp : FixedPrice → FixedPrice → Ordering} [Std.TransCmp cmp]

/-- The total of a side is exact and fits, and no stored size is zero. -/
structure ExactSide (side : SideLevels cmp × Nat) : Prop where
  within : SideWithin anySize side
  fits : side.2 ≤ u64Max

theorem ExactSide.empty : ExactSide ((∅ : SideLevels cmp), 0) := ⟨.empty anySize, Nat.zero_le _⟩

variable [Std.LawfulEqCmp cmp] {side : SideLevels cmp × Nat}

/-- The total is the sum of the stored sizes. -/
theorem SideWithin.total_eq_sum {cap : Nat → Nat} (h : SideWithin cap side) :
    side.2 = (side.1.toList.map fun l => l.2.raw).sum := by
  have hmem : ∀ l ∈ side.1.toList, side.1[l.1]? = some l.2 :=
    fun l hl => Std.ExtTreeMap.mem_toList_iff_getElem?_eq_some.mp hl
  have hnodup : (side.1.toList.map fun l => l.1.raw).Nodup := by
    rw [List.nodup_iff_pairwise_ne, List.pairwise_map]
    refine Std.ExtTreeMap.distinct_keys_toList.imp ?_
    rintro ⟨⟨x, hx⟩, s⟩ ⟨⟨y, hy⟩, t⟩ hne hraw
    obtain rfl : x = y := hraw
    exact hne Std.ReflCmp.compare_self
  have hsizes : (side.1.toList.map fun l => l.2.raw) =
      (side.1.toList.map fun l => l.1.raw).map (sizeAt side.1) := by
    rw [List.map_map]
    refine List.map_congr_left fun l hl => ?_
    rw [Function.comp_apply, sizeAt_raw, oldRaw, hmem l hl]
    rfl
  rw [h.total_eq, hsizes, ← List.sum_toFinset _ hnodup]
  refine (Finset.sum_subset ?_ ?_).symm
  · intro raw hraw
    obtain ⟨l, -, rfl⟩ := List.mem_map.mp (List.mem_toFinset.mp hraw)
    exact mem_rawPrices l.1
  · intro raw _ hraw
    unfold sizeAt
    split
    · rename_i hle
      unfold oldRaw
      cases hsize : side.1[(⟨raw, hle⟩ : FixedPrice)]? with
      | none => rfl
      | some size =>
          have hlisted : ((⟨raw, hle⟩, size) : FixedPrice × FixedSize) ∈ side.1.toList :=
            Std.ExtTreeMap.mem_toList_iff_getElem?_eq_some.mpr hsize
          exact absurd (List.mem_toFinset.mpr (List.mem_map.mpr ⟨_, hlisted, rfl⟩)) hraw
    · rfl

omit [Std.LawfulEqCmp cmp] in
/-- A stored size is not zero and not more than the total. -/
theorem ExactSide.stored (h : ExactSide side) {price : FixedPrice} {size : FixedSize}
    (hsize : side.1[price]? = some size) : size.isZero = false ∧ size.raw ≤ side.2 := by
  have hle := h.within.oldRaw_le price
  rw [oldRaw, hsize] at hle
  exact ⟨(h.within.stored price size hsize).1, hle⟩

/-- The total that a level of nonzero size makes. -/
def nextTotal (side : SideLevels cmp × Nat) (price : FixedPrice) (size : FixedSize) : Nat :=
  side.2 - oldRaw side.1 price + size.raw

omit [Std.LawfulEqCmp cmp] in
theorem ExactSide.checkedReplace_eq (h : ExactSide side) (price : FixedPrice) (size : FixedSize) :
    checkedReplace side.2 (oldRaw side.1 price) size.raw =
      if nextTotal side price size ≤ u64Max then some (nextTotal side price size) else none := by
  unfold checkedReplace nextTotal
  by_cases hfits : side.2 - oldRaw side.1 price + size.raw ≤ u64Max
  · rw [if_pos hfits, if_pos ⟨h.within.oldRaw_le price, hfits⟩]
  · rw [if_neg hfits, if_neg (fun hboth => hfits hboth.2)]

/-- A level of nonzero size is stored. -/
theorem ExactSide.insert (h : ExactSide side) {price : FixedPrice} {size : FixedSize}
    (hzero : size.isZero = false) (hfits : nextTotal side price size ≤ u64Max) :
    ExactSide (side.1.insert price size, nextTotal side price size) := by
  refine ⟨h.within.replace (some size) (fun q => TreeMapLookup.getElem?_insert _ _ _ _) ?_, hfits⟩
  rintro s ⟨⟩
  exact ⟨hzero, size.le_max⟩

/-- A level change keeps the total exact, or its total does not fit. -/
theorem ExactSide.deltaSide_cases (h : ExactSide side) (price : FixedPrice) (size : FixedSize) :
    (∃ next, deltaSide side.1 side.2 price size = some next ∧ ExactSide next ∧
        ¬ (size.isZero = false ∧ u64Max < nextTotal side price size)) ∨
      deltaSide side.1 side.2 price size = none ∧
        size.isZero = false ∧ u64Max < nextTotal side price size := by
  cases hzero : size.isZero with
  | true =>
      left
      refine ⟨_, if_pos hzero, ⟨?_, ?_⟩, by simp⟩
      · exact h.within.replace none (fun q => TreeMapLookup.getElem?_erase _ _ _) (by simp)
      · exact Nat.le_trans (Nat.sub_le _ _) h.fits
  | false =>
      rw [deltaSide_of_pos _ _ _ hzero, h.checkedReplace_eq]
      by_cases hfits : nextTotal side price size ≤ u64Max
      · left
        rw [if_pos hfits]
        refine ⟨_, rfl, h.insert hzero hfits, ?_⟩
        rintro ⟨-, hover⟩
        exact Nat.not_lt.mpr hfits hover
      · right
        rw [if_neg hfits]
        exact ⟨rfl, rfl, Nat.lt_of_not_le hfits⟩

/-- An exact side of the sizes listed last, on the way to which every running total fits. -/
structure ListedSide (side : SideLevels cmp × Nat) (levels : List (FixedPrice × FixedSize)) :
    Prop where
  exactSide : ExactSide side
  sizes : ∀ raw, sizeAt side.1 raw = lastListed levels raw
  totals : ∀ done, done <+: levels → runningTotal done ≤ u64Max

namespace ListedSide

variable {levels : List (FixedPrice × FixedSize)} {l : FixedPrice × FixedSize}

omit [Std.LawfulEqCmp cmp] in
theorem empty : ListedSide ((∅ : SideLevels cmp), 0) [] := by
  refine ⟨ExactSide.empty, fun raw => ?_, fun done hdone => ?_⟩
  · unfold sizeAt
    split
    · simp [oldRaw, lastListed]
    · rfl
  · rw [List.prefix_nil.mp hdone]
    have hzero : runningTotal [] = 0 := Finset.sum_eq_zero fun raw _ => rfl
    rw [hzero]
    exact Nat.zero_le _

omit [Std.LawfulEqCmp cmp] in
/-- A running total more. -/
theorem totals_concat (h : ListedSide side levels)
    (hfits : runningTotal (levels ++ [l]) ≤ u64Max) :
    ∀ done, done <+: levels ++ [l] → runningTotal done ≤ u64Max := by
  intro done hdone
  rcases List.prefix_concat_iff.mp hdone with rfl | hdone
  · exact hfits
  · exact h.totals done hdone

omit [Std.LawfulEqCmp cmp] in
/-- A zero size is skipped. -/
theorem skip (h : ListedSide side levels) (hzero : l.2.isZero = true) :
    ListedSide side (levels ++ [l]) := by
  have hsame : ∀ raw, lastListed (levels ++ [l]) raw = lastListed levels raw := by
    intro raw
    rw [lastListed_concat, if_neg (by simp [hzero])]
  refine ⟨h.exactSide, fun raw => by rw [hsame, h.sizes], h.totals_concat ?_⟩
  rw [runningTotal, Finset.sum_congr rfl fun raw _ => hsame raw]
  exact h.totals levels List.prefix_rfl

/-- A nonzero size is the last one listed at its price. -/
theorem sizeAt_insert (h : ListedSide side levels) (hzero : l.2.isZero = false) (raw : Nat) :
    sizeAt (side.1.insert l.1 l.2) raw = lastListed (levels ++ [l]) raw := by
  have hlookup : ∀ q : FixedPrice, (side.1.insert l.1 l.2)[q]? =
      if q = l.1 then some l.2 else side.1[q]? :=
    fun q => TreeMapLookup.getElem?_insert _ _ _ _
  rw [sizeAt_of_lookup hlookup, lastListed_concat]
  by_cases hraw : raw = l.1.raw
  · rw [hraw, Function.update_self, if_pos ⟨rfl, hzero⟩]
    rfl
  · rw [Function.update_of_ne hraw, if_neg (fun h => hraw h.1.symm), h.sizes]

/-- The total it makes is the next running total. -/
theorem runningTotal_concat (h : ListedSide side levels) (hzero : l.2.isZero = false) :
    runningTotal (levels ++ [l]) = nextTotal side l.1 l.2 := by
  have hwithin : SideWithin anySize (side.1.insert l.1 l.2, nextTotal side l.1 l.2) := by
    refine h.exactSide.within.replace (some l.2)
      (fun q => TreeMapLookup.getElem?_insert _ _ _ _) ?_
    rintro s ⟨⟩
    exact ⟨hzero, l.2.le_max⟩
  rw [runningTotal, Finset.sum_congr rfl fun raw _ => (h.sizeAt_insert hzero raw).symm]
  exact hwithin.total_eq.symm

/-- One more level is taken, unless its running total does not fit. -/
theorem snapshotLevel_cases (h : ListedSide side levels) :
    (∃ next, snapshotLevel side l = some next ∧ ListedSide next (levels ++ [l])) ∨
      snapshotLevel side l = none ∧ u64Max < runningTotal (levels ++ [l]) := by
  cases hzero : l.2.isZero with
  | true => exact Or.inl ⟨side, if_pos hzero, h.skip hzero⟩
  | false =>
      have htotal := h.runningTotal_concat hzero
      rw [snapshotLevel, if_neg (by simp [hzero]), h.exactSide.checkedReplace_eq]
      by_cases hfits : nextTotal side l.1 l.2 ≤ u64Max
      · left
        rw [if_pos hfits]
        refine ⟨_, rfl, h.exactSide.insert hzero hfits, h.sizeAt_insert hzero,
          h.totals_concat ?_⟩
        rw [htotal]
        exact hfits
      · right
        rw [if_neg hfits, htotal]
        exact ⟨rfl, Nat.lt_of_not_le hfits⟩

end ListedSide

/-- **A snapshot side is refused exactly when a running total does not fit.** -/
theorem snapshotSide_cases (cmp : FixedPrice → FixedPrice → Ordering) [Std.TransCmp cmp]
    [Std.LawfulEqCmp cmp] (levels : List (FixedPrice × FixedSize)) :
    (∃ side : SideLevels cmp × Nat, snapshotSide levels = some side ∧ ListedSide side levels) ∨
      (snapshotSide levels : Option (SideLevels cmp × Nat)) = none ∧
        ∃ done, done <+: levels ∧ u64Max < runningTotal done := by
  induction levels using List.reverseRecOn with
  | nil => exact Or.inl ⟨(∅, 0), rfl, ListedSide.empty⟩
  | append_singleton levels l ih =>
      have hsnapshot : (snapshotSide (levels ++ [l]) : Option (SideLevels cmp × Nat)) =
          (snapshotSide levels).bind fun side => snapshotLevel side l := by
        rw [snapshotSide, List.foldlM_append, snapshotSide]
        simp only [List.foldlM_cons, List.foldlM_nil, bind_pure]
        rfl
      rw [hsnapshot]
      rcases ih with ⟨side, hside, hlisted⟩ | ⟨hnone, done, hdone, hover⟩
      · rw [hside, Option.bind_some]
        rcases hlisted.snapshotLevel_cases (l := l) with htaken | ⟨hrefused, hover⟩
        · exact Or.inl htaken
        · exact Or.inr ⟨hrefused, _, List.prefix_rfl, hover⟩
      · right
        rw [hnone]
        exact ⟨rfl, done, hdone.trans (List.prefix_append _ _), hover⟩

/-- The side holds exactly the listed levels: at each price the last nonzero size. -/
def SideShows (side : SideLevels cmp) (levels : List (FixedPrice × FixedSize)) : Prop :=
  ∀ (price : FixedPrice) (size : FixedSize), side[price]? = some size ↔
    size.isZero = false ∧ size.raw = lastListed levels price.raw

/-- A snapshot side that is taken is exact and has the sizes listed last. -/
theorem exactSide_of_snapshotSide {levels : List (FixedPrice × FixedSize)}
    (h : snapshotSide levels = some side) :
    ExactSide side ∧ ∀ raw, sizeAt side.1 raw = lastListed levels raw := by
  rcases snapshotSide_cases cmp levels with ⟨side', hside, hexact, hsizes, -⟩ | ⟨hnone, -⟩
  · obtain rfl : side = side' := Option.some.inj (h.symm.trans hside)
    exact ⟨hexact, hsizes⟩
  · rw [h] at hnone
    cases hnone

/-- What a snapshot side is rebuilt to. -/
theorem sideShows_of_snapshotSide {levels : List (FixedPrice × FixedSize)}
    (h : snapshotSide levels = some side) : SideShows side.1 levels := by
  obtain ⟨hexact, hsizes⟩ := exactSide_of_snapshotSide h
  intro price size
  have hraw := (hsizes price.raw).symm
  rw [sizeAt_raw, oldRaw] at hraw
  constructor
  · intro hsize
    rw [hsize] at hraw
    exact ⟨(hexact.stored hsize).1, hraw.symm⟩
  · rintro ⟨hzero, hlast⟩
    rw [hraw] at hlast
    cases hold : side.1[price]? with
    | none =>
        rw [hold] at hlast
        simp [FixedSize.isZero, hlast] at hzero
    | some old =>
        rw [hold] at hlast
        cases size
        cases old
        cases hlast
        rfl

end OneSide

/-- The book holds exactly the listed levels. -/
def L2Book.Shows (book : L2Book) (bids asks : List (FixedPrice × FixedSize)) : Prop :=
  SideShows book.bids bids ∧ SideShows book.asks asks

/-- A snapshot that is taken is the book. -/
theorem L2Book.shows_of_tryApplySnapshot {book next : L2Book}
    {bids asks : List (FixedPrice × FixedSize)} {sequence timestampUs : Nat}
    (h : book.tryApplySnapshot bids asks sequence timestampUs = .ok next) :
    next.Shows bids asks := by
  obtain ⟨nextBids, nextAsks, hbids, hasks, rfl⟩ := L2Book.tryApplySnapshot_eq_ok_iff.mp h
  exact ⟨sideShows_of_snapshotSide hbids, sideShows_of_snapshotSide hasks⟩

/-! ## Runs -/

/-- A call that changes a book. -/
inductive BookCall where
  | snapshot (bids asks : List (FixedPrice × FixedSize)) (sequence timestampUs : Nat)
  | delta (side : Side) (price : FixedPrice) (size : FixedSize) (sequence timestampUs : Nat)

namespace BookCall

/-- The outcome of a call and the book it leaves. -/
def run (book : L2Book) : BookCall → Except BookError Unit × L2Book
  | .snapshot bids asks sequence timestampUs =>
      (BookM.applySnapshot bids asks sequence timestampUs).run.run book
  | .delta side price size sequence timestampUs =>
      (BookM.applyDelta side price size sequence timestampUs).run.run book

/-- A running total that a call must form: after each level of a snapshot side, or
with the level that is changed. -/
def Forms (book : L2Book) : BookCall → Nat → Prop
  | .snapshot bids asks _ _, total =>
      ∃ done, (done <+: bids ∨ done <+: asks) ∧ total = runningTotal done
  | .delta .bid price size _ _, total =>
      size.isZero = false ∧ total = nextTotal (book.bids, book.totalBidRaw) price size
  | .delta .ask price size _ _, total =>
      size.isZero = false ∧ total = nextTotal (book.asks, book.totalAskRaw) price size

end BookCall

/-- Both totals are exact. -/
structure L2Book.Exact (book : L2Book) : Prop where
  bids : ExactSide (book.bids, book.totalBidRaw)
  asks : ExactSide (book.asks, book.totalAskRaw)

/-- A call on an exact book succeeds and keeps it exact, or a total does not fit, and
the book stays as it was. -/
theorem BookCall.run_cases {book : L2Book} (h : book.Exact) (call : BookCall) :
    ((call.run book).1 = .ok () ∧ (call.run book).2.Exact ∧
        ∀ total, call.Forms book total → total ≤ u64Max) ∨
      ∃ side total, (call.run book) = (.error (.aggregateOverflow book.assetId side), book) ∧
        call.Forms book total ∧ u64Max < total := by
  cases call with
  | snapshot bids asks sequence timestampUs =>
      simp only [run, applySnapshot_run, L2Book.tryApplySnapshot]
      rcases snapshotSide_cases (fun a b => compare b a) bids with
        ⟨nextBids, hbids, hexactBids, -, hfitsBids⟩ | ⟨hbids, done, hdone, hover⟩
      · rcases snapshotSide_cases compare asks with
          ⟨nextAsks, hasks, hexactAsks, -, hfitsAsks⟩ | ⟨hasks, done, hdone, hover⟩
        · left
          rw [hbids, hasks]
          refine ⟨rfl, ⟨hexactBids, hexactAsks⟩, ?_⟩
          intro total hforms
          obtain ⟨done, hdone, htotal⟩ := hforms
          rw [htotal]
          rcases hdone with hdone | hdone
          · exact hfitsBids done hdone
          · exact hfitsAsks done hdone
        · right
          rw [hbids, hasks]
          exact ⟨"Ask", _, rfl, ⟨done, Or.inr hdone, rfl⟩, hover⟩
      · right
        rw [hbids]
        exact ⟨"Bid", _, rfl, ⟨done, Or.inl hdone, rfl⟩, hover⟩
  | delta side price size sequence timestampUs =>
      simp only [run, applyDelta_run, L2Book.tryApplyDelta]
      cases side with
      | bid =>
          rcases h.bids.deltaSide_cases price size with
            ⟨next, hnext, hexact, hfits⟩ | ⟨hnone, hzero, hover⟩
          · left
            dsimp only at hnext ⊢
            rw [hnext]
            refine ⟨rfl, ⟨hexact, h.asks⟩, ?_⟩
            rintro total ⟨hzero, rfl⟩
            apply Nat.not_lt.mp
            intro hover
            exact hfits ⟨hzero, hover⟩
          · right
            dsimp only at hnone ⊢
            rw [hnone]
            exact ⟨"Bid", _, rfl, ⟨hzero, rfl⟩, hover⟩
      | ask =>
          rcases h.asks.deltaSide_cases price size with
            ⟨next, hnext, hexact, hfits⟩ | ⟨hnone, hzero, hover⟩
          · left
            dsimp only at hnext ⊢
            rw [hnext]
            refine ⟨rfl, ⟨h.bids, hexact⟩, ?_⟩
            rintro total ⟨hzero, rfl⟩
            apply Nat.not_lt.mp
            intro hover
            exact hfits ⟨hzero, hover⟩
          · right
            dsimp only at hnone ⊢
            rw [hnone]
            exact ⟨"Ask", _, rfl, ⟨hzero, rfl⟩, hover⟩

/-- The book after some calls, starting with a new one. -/
def bookAfter (assetId : AssetId) (calls : List BookCall) : L2Book :=
  Runs.run (fun book call => (BookCall.run book call).2) (L2Book.new assetId) calls

theorem bookAfter_exact (assetId : AssetId) (calls : List BookCall) :
    (bookAfter assetId calls).Exact := by
  have hstep : ∀ (book : L2Book) (call : BookCall), book.Exact → (call.run book).2.Exact := by
    intro book call h
    rcases call.run_cases h with ⟨-, hexact, -⟩ | ⟨side, total, herror, -⟩
    · exact hexact
    · rw [herror]
      exact h
  exact Runs.run_induction hstep ⟨ExactSide.empty, ExactSide.empty⟩ calls

/-- **The running totals are exact.** -/
theorem book_totals_exact (assetId : AssetId) (calls : List BookCall) :
    ((bookAfter assetId calls).totalBidRaw =
        ((bookAfter assetId calls).bids.toList.map fun l => l.2.raw).sum ∧
      (bookAfter assetId calls).totalAskRaw =
        ((bookAfter assetId calls).asks.toList.map fun l => l.2.raw).sum) ∧
    (∀ (price : FixedPrice) (size : FixedSize),
      ((bookAfter assetId calls).bids[price]? = some size →
        size.isZero = false ∧ size.raw ≤ (bookAfter assetId calls).totalBidRaw) ∧
      ((bookAfter assetId calls).asks[price]? = some size →
        size.isZero = false ∧ size.raw ≤ (bookAfter assetId calls).totalAskRaw)) ∧
    ∀ call : BookCall,
      ((∃ e, (call.run (bookAfter assetId calls)).1 = .error e) ↔
        ∃ total, call.Forms (bookAfter assetId calls) total ∧ u64Max < total) ∧
      ∀ e, (call.run (bookAfter assetId calls)).1 = .error e →
        (∃ side, e = .aggregateOverflow (bookAfter assetId calls).assetId side) ∧
          (call.run (bookAfter assetId calls)).2 = bookAfter assetId calls := by
  have hexact := bookAfter_exact assetId calls
  refine ⟨⟨hexact.bids.within.total_eq_sum, hexact.asks.within.total_eq_sum⟩,
    fun price size => ⟨hexact.bids.stored, hexact.asks.stored⟩, fun call => ?_⟩
  rcases call.run_cases hexact with ⟨hok, -, hfits⟩ | ⟨side, total, herror, hforms, hover⟩
  · refine ⟨⟨?_, ?_⟩, ?_⟩
    · rintro ⟨e, he⟩
      rw [hok] at he
      cases he
    · rintro ⟨total, hforms, hover⟩
      exact absurd (hfits total hforms) (Nat.not_le.mpr hover)
    · intro e he
      rw [hok] at he
      cases he
  · rw [herror]
    refine ⟨⟨fun _ => ⟨total, hforms, hover⟩, fun _ => ⟨_, rfl⟩⟩, ?_⟩
    rintro e ⟨⟩
    exact ⟨⟨side, rfl⟩, rfl⟩

end PolyBook
