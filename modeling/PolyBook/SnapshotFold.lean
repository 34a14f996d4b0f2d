import PolyBook.BookTotals

/-!
# A snapshot and the level changes it lists

A snapshot skips its zero sizes where a level change removes the level, so a price
that is listed with a size and then with zero stays in the book a snapshot builds.
`snapshot_eq_fold_iff` says that the two paths differ there and nowhere else.
-/

namespace PolyBook

/-- The size listed last at a price, zero or not. -/
def lastGiven (levels : List (FixedPrice × FixedSize)) (price : FixedPrice) : Option FixedSize :=
  ((levels.filter fun l => l.1 = price).getLast?).map Prod.snd

/-- What the book keeps of a size given last: zero means no level. -/
def keptLevel (size : Option FixedSize) : Option FixedSize := size.filter fun s => !s.isZero

theorem keptLevel_of_zero {size : FixedSize} (h : size.isZero = true) :
    keptLevel (some size) = none := by
  rw [keptLevel, Option.filter_some, h]
  rfl

theorem keptLevel_of_pos {size : FixedSize} (h : size.isZero = false) :
    keptLevel (some size) = some size := by
  rw [keptLevel, Option.filter_some, h]
  rfl

theorem keptLevel_eq_some_iff {given : Option FixedSize} {size : FixedSize} :
    keptLevel given = some size ↔ given = some size ∧ size.isZero = false := by
  simp [keptLevel, Option.filter_eq_some_iff]

/-- A price whose last size is zero has no other size. -/
def ZerosStay (levels : List (FixedPrice × FixedSize)) : Prop :=
  ∀ (price : FixedPrice) (size : FixedSize), lastGiven levels price = some size →
    size.isZero = true → ∀ l ∈ levels, l.1 = price → l.2.isZero = true

theorem lastGiven_concat (levels : List (FixedPrice × FixedSize)) (l : FixedPrice × FixedSize)
    (price : FixedPrice) : lastGiven (levels ++ [l]) price =
      if l.1 = price then some l.2 else lastGiven levels price := by
  unfold lastGiven
  rw [List.filter_append, List.filter_singleton]
  by_cases h : l.1 = price
  · simp [h]
  · simp [h]

theorem exists_lastGiven {levels : List (FixedPrice × FixedSize)} {l : FixedPrice × FixedSize}
    (h : l ∈ levels) : ∃ size, lastGiven levels l.1 = some size := by
  induction levels using List.reverseRecOn with
  | nil => cases h
  | append_singleton levels m ih =>
      rw [lastGiven_concat]
      split
      · exact ⟨m.2, rfl⟩
      · rename_i hne
        rcases List.mem_append.mp h with hmem | hlast
        · exact ih hmem
        · rw [List.mem_singleton] at hlast
          exact absurd (congrArg Prod.fst hlast.symm) hne

/-- A nonzero size given last is the one a snapshot keeps. -/
theorem lastListed_of_lastGiven {levels : List (FixedPrice × FixedSize)} {price : FixedPrice}
    {size : FixedSize} (h : lastGiven levels price = some size) (hsize : size.isZero = false) :
    lastListed levels price.raw = size.raw := by
  induction levels using List.reverseRecOn with
  | nil => cases h
  | append_singleton levels l ih =>
      rw [lastGiven_concat] at h
      rw [lastListed_concat]
      split at h
      · rename_i hprice
        cases h
        rw [if_pos ⟨congrArg FixedPrice.raw hprice, hsize⟩]
      · rename_i hne
        have hraw : ¬ l.1.raw = price.raw := by
          intro hraw
          exact hne (FixedPrice.eq_of_raw hraw)
        rw [if_neg fun hboth => hraw hboth.1]
        exact ih h

/-- A nonzero level is never forgotten by a snapshot. -/
theorem lastListed_ne_zero {levels : List (FixedPrice × FixedSize)} {l : FixedPrice × FixedSize}
    (hl : l ∈ levels) (hsize : l.2.isZero = false) : lastListed levels l.1.raw ≠ 0 := by
  unfold lastListed
  have hmem : l ∈ levels.filter fun m => m.1.raw = l.1.raw && !m.2.isZero := by
    rw [List.mem_filter]
    exact ⟨hl, by simp [hsize]⟩
  cases hlast : (levels.filter fun m => m.1.raw = l.1.raw && !m.2.isZero).getLast? with
  | none =>
      rw [List.getLast?_eq_none_iff] at hlast
      rw [hlast] at hmem
      cases hmem
  | some m =>
      have hm := List.mem_of_getLast? hlast
      simp only [List.mem_filter, Bool.and_eq_true, Bool.not_eq_true'] at hm
      simpa [FixedSize.isZero] using hm.2.2

/-- A price that a snapshot keeps is listed with a nonzero size. -/
theorem exists_mem_of_lastListed {levels : List (FixedPrice × FixedSize)} {price : FixedPrice}
    (h : lastListed levels price.raw ≠ 0) : ∃ l ∈ levels, l.1 = price ∧ l.2.isZero = false := by
  unfold lastListed at h
  cases hlast : (levels.filter fun l => l.1.raw = price.raw && !l.2.isZero).getLast? with
  | none =>
      rw [hlast] at h
      exact absurd rfl h
  | some l =>
      have hmem := List.mem_of_getLast? hlast
      rw [List.mem_filter] at hmem
      obtain ⟨hl, hkept⟩ := hmem
      simp only [Bool.and_eq_true, decide_eq_true_eq, Bool.not_eq_true'] at hkept
      exact ⟨l, hl, FixedPrice.eq_of_raw hkept.1, hkept.2⟩

section OneSide

variable {cmp : FixedPrice → FixedPrice → Ordering} [Std.TransCmp cmp]

/-- The level changes of one side, in order. -/
def deltaLevels (levels : List (FixedPrice × FixedSize)) (side : SideLevels cmp × Nat) :
    Option (SideLevels cmp × Nat) :=
  levels.foldlM (fun side l => deltaSide side.1 side.2 l.1 l.2) side

theorem deltaLevels_concat (levels : List (FixedPrice × FixedSize)) (l : FixedPrice × FixedSize)
    (side : SideLevels cmp × Nat) : deltaLevels (levels ++ [l]) side =
      (deltaLevels levels side).bind fun side => deltaSide side.1 side.2 l.1 l.2 := by
  rw [deltaLevels, List.foldlM_append, deltaLevels]
  simp only [List.foldlM_cons, List.foldlM_nil, bind_pure]
  rfl

variable [Std.LawfulEqCmp cmp]

/-- The levels that level changes leave: at each price the size given last. -/
structure Folded (levels : List (FixedPrice × FixedSize)) (side : SideLevels cmp × Nat) : Prop where
  exact : ExactSide side
  lookup : ∀ price : FixedPrice, side.1[price]? = keptLevel (lastGiven levels price)
  le_listed : ∀ raw, sizeAt side.1 raw ≤ lastListed levels raw

omit [Std.LawfulEqCmp cmp] in
theorem Folded.nil : Folded [] ((∅ : SideLevels cmp), 0) := by
  refine ⟨ExactSide.empty, fun price => by simp [lastGiven, keptLevel], fun raw => ?_⟩
  unfold sizeAt
  split
  · simp [oldRaw]
  · exact Nat.zero_le _

/-- One more level, where the running total of the snapshot fits. -/
theorem Folded.concat {levels : List (FixedPrice × FixedSize)} {side : SideLevels cmp × Nat}
    (h : Folded levels side) (l : FixedPrice × FixedSize)
    (hfits : runningTotal (levels ++ [l]) ≤ u64Max) :
    ∃ next, deltaSide side.1 side.2 l.1 l.2 = some next ∧ Folded (levels ++ [l]) next := by
  cases hzero : l.2.isZero with
  | true =>
      have hlookup : ∀ q : FixedPrice, (side.1.erase l.1)[q]? =
          if q = l.1 then none else side.1[q]? := fun q => TreeMapLookup.getElem?_erase _ _ _
      refine ⟨_, if_pos hzero, ⟨?_, ?_⟩, ?_, ?_⟩
      · exact h.exact.within.replace none hlookup (by simp)
      · exact Nat.le_trans (Nat.sub_le _ _) h.exact.fits
      · intro price
        dsimp only
        rw [hlookup, lastGiven_concat]
        by_cases hprice : price = l.1
        · rw [if_pos hprice, if_pos hprice.symm]
          exact (keptLevel_of_zero hzero).symm
        · rw [if_neg hprice, if_neg fun heq => hprice heq.symm]
          exact h.lookup price
      · intro raw
        dsimp only
        rw [sizeAt_of_lookup hlookup, lastListed_concat, if_neg (by simp [hzero])]
        by_cases hraw : raw = l.1.raw
        · rw [hraw, Function.update_self]
          exact Nat.zero_le _
        · rw [Function.update_of_ne hraw]
          exact h.le_listed raw
  | false =>
      have hlookup : ∀ q : FixedPrice, (side.1.insert l.1 l.2)[q]? =
          if q = l.1 then some l.2 else side.1[q]? := fun q => TreeMapLookup.getElem?_insert _ _ _ _
      have hlisted : ∀ raw,
          sizeAt (side.1.insert l.1 l.2) raw ≤ lastListed (levels ++ [l]) raw := by
        intro raw
        rw [sizeAt_of_lookup hlookup, lastListed_concat]
        by_cases hraw : raw = l.1.raw
        · rw [hraw, Function.update_self, if_pos ⟨rfl, hzero⟩]
          exact Nat.le_refl _
        · rw [Function.update_of_ne hraw, if_neg fun hboth => hraw hboth.1.symm]
          exact h.le_listed raw
      have hnext : nextTotal side l.1 l.2 ≤ u64Max := by
        have hwithin : SideWithin anySize (side.1.insert l.1 l.2, nextTotal side l.1 l.2) := by
          refine h.exact.within.replace (some l.2) hlookup ?_
          rintro s ⟨⟩
          exact ⟨hzero, l.2.le_max⟩
        have htotal := hwithin.total_eq
        dsimp only at htotal
        rw [htotal]
        refine Nat.le_trans ?_ hfits
        exact Finset.sum_le_sum fun raw _ => hlisted raw
      refine ⟨(side.1.insert l.1 l.2, nextTotal side l.1 l.2), ?_, h.exact.insert hzero hnext, ?_,
        hlisted⟩
      · rw [deltaSide_of_pos _ _ _ hzero, h.exact.checkedReplace_eq, if_pos hnext]
        rfl
      · intro price
        dsimp only
        rw [hlookup, lastGiven_concat]
        by_cases hprice : price = l.1
        · rw [if_pos hprice, if_pos hprice.symm]
          exact (keptLevel_of_pos hzero).symm
        · rw [if_neg hprice, if_neg fun heq => hprice heq.symm]
          exact h.lookup price

/-- Level changes are taken wherever the snapshot of the same levels is. -/
theorem exists_folded (levels : List (FixedPrice × FixedSize))
    (hfits : ∀ done, done <+: levels → runningTotal done ≤ u64Max) :
    ∃ side, deltaLevels levels ((∅ : SideLevels cmp), 0) = some side ∧ Folded levels side := by
  induction levels using List.reverseRecOn with
  | nil => exact ⟨_, rfl, Folded.nil⟩
  | append_singleton levels l ih =>
      obtain ⟨side, hside, hfolded⟩ :=
        ih fun done hdone => hfits done (hdone.trans (List.prefix_append _ _))
      obtain ⟨next, hnext, hfolded'⟩ := hfolded.concat l (hfits _ List.prefix_rfl)
      refine ⟨next, ?_, hfolded'⟩
      rw [deltaLevels_concat, hside]
      exact hnext

/-- Both paths agree on one side exactly when no listed price is zeroed later. -/
theorem side_eq_iff {levels : List (FixedPrice × FixedSize)} {taken folded : SideLevels cmp × Nat}
    (htaken : snapshotSide levels = some taken) (hfolded : Folded levels folded) :
    taken = folded ↔ ZerosStay levels := by
  obtain ⟨hexact, hsizes⟩ := exactSide_of_snapshotSide htaken
  constructor
  · rintro rfl price size hlast hzero l hl rfl
    by_contra hkept
    rw [Bool.not_eq_true] at hkept
    apply lastListed_ne_zero hl hkept
    rw [← hsizes, sizeAt_raw, oldRaw, hfolded.lookup, hlast, keptLevel_of_zero hzero]
    rfl
  · intro hstay
    have hshows : SideShows taken.1 levels := sideShows_of_snapshotSide htaken
    have hlevels : taken.1 = folded.1 := by
      apply Std.ExtTreeMap.ext_getElem?
      intro price
      ext size
      rw [hfolded.lookup, keptLevel_eq_some_iff, hshows]
      constructor
      · rintro ⟨hsize, hlisted⟩
        refine ⟨?_, hsize⟩
        have hne : lastListed levels price.raw ≠ 0 := by
          rw [← hlisted]
          simpa [FixedSize.isZero] using hsize
        obtain ⟨l, hl, hprice, hpos⟩ := exists_mem_of_lastListed hne
        obtain ⟨given, hgiven⟩ := exists_lastGiven hl
        rw [hprice] at hgiven
        have hgivenPos : given.isZero = false := by
          by_contra hzero
          rw [Bool.not_eq_false] at hzero
          have hall := hstay price given hgiven hzero l hl hprice
          rw [hpos] at hall
          cases hall
        rw [hgiven]
        have hraw := lastListed_of_lastGiven hgiven hgivenPos
        rw [← hlisted] at hraw
        rw [FixedSize.eq_of_raw hraw]
      · rintro ⟨hgiven, hsize⟩
        exact ⟨hsize, (lastListed_of_lastGiven hgiven hsize).symm⟩
    have htotals : taken.2 = folded.2 := by
      rw [hexact.within.total_eq, hfolded.exact.within.total_eq, hlevels]
    exact Prod.ext hlevels htotals

/-- One side: both paths are taken where the running totals fit, and what they build. -/
theorem side_eq_fold_iff (cmp : FixedPrice → FixedPrice → Ordering) [Std.TransCmp cmp]
    [Std.LawfulEqCmp cmp] (levels : List (FixedPrice × FixedSize))
    (hfits : ∀ done, done <+: levels → runningTotal done ≤ u64Max) :
    ∃ taken folded : SideLevels cmp × Nat, snapshotSide levels = some taken ∧
      deltaLevels levels (∅, 0) = some folded ∧
      (∀ price : FixedPrice, folded.1[price]? = keptLevel (lastGiven levels price)) ∧
      (taken = folded ↔ ZerosStay levels) := by
  rcases snapshotSide_cases cmp levels with ⟨taken, htaken, -⟩ | ⟨-, done, hdone, hover⟩
  · obtain ⟨folded, hfold, hfolded⟩ : ∃ side : SideLevels cmp × Nat,
        deltaLevels levels (∅, 0) = some side ∧ Folded levels side := exists_folded levels hfits
    exact ⟨taken, folded, htaken, hfold, hfolded.lookup, side_eq_iff htaken hfolded⟩
  · exact absurd (hfits done hdone) (Nat.not_le.mpr hover)

end OneSide

namespace L2Book

/-- Apply listed levels as level changes, bids before asks. -/
def applyLevels (book : L2Book) (bids asks : List (FixedPrice × FixedSize))
    (sequence timestampUs : Nat) : Except BookError L2Book := do
  let book ← bids.foldlM
    (fun book l => book.tryApplyDelta .bid l.1 l.2 sequence timestampUs) book
  asks.foldlM (fun book l => book.tryApplyDelta .ask l.1 l.2 sequence timestampUs) book

variable {sequence timestampUs : Nat}

theorem applyBids_of_deltaLevels {book : L2Book} {levels : List (FixedPrice × FixedSize)}
    {side : BidLevels × Nat} (h : deltaLevels levels (book.bids, book.totalBidRaw) = some side) :
    ∃ next, levels.foldlM (fun book l => book.tryApplyDelta .bid l.1 l.2 sequence timestampUs)
        book = Except.ok next ∧
      next.sides = (side, (book.asks, book.totalAskRaw)) := by
  induction levels generalizing book with
  | nil =>
      cases h
      exact ⟨book, rfl, rfl⟩
  | cons l levels ih =>
      rw [deltaLevels, List.foldlM_cons] at h
      obtain ⟨next, hnext, hrest⟩ := Option.bind_eq_some_iff.mp h
      have hstep : book.tryApplyDelta .bid l.1 l.2 sequence timestampUs = .ok { book with
          bids := next.1, totalBidRaw := next.2
          sequence := sequence, seqInitialized := true, lastUpdateUs := timestampUs } := by
        simp only [tryApplyDelta, hnext]
      rw [List.foldlM_cons, hstep]
      exact ih hrest

theorem applyAsks_of_deltaLevels {book : L2Book} {levels : List (FixedPrice × FixedSize)}
    {side : AskLevels × Nat} (h : deltaLevels levels (book.asks, book.totalAskRaw) = some side) :
    ∃ next, levels.foldlM (fun book l => book.tryApplyDelta .ask l.1 l.2 sequence timestampUs)
        book = Except.ok next ∧
      next.sides = ((book.bids, book.totalBidRaw), side) := by
  induction levels generalizing book with
  | nil =>
      cases h
      exact ⟨book, rfl, rfl⟩
  | cons l levels ih =>
      rw [deltaLevels, List.foldlM_cons] at h
      obtain ⟨next, hnext, hrest⟩ := Option.bind_eq_some_iff.mp h
      have hstep : book.tryApplyDelta .ask l.1 l.2 sequence timestampUs = .ok { book with
          asks := next.1, totalAskRaw := next.2
          sequence := sequence, seqInitialized := true, lastUpdateUs := timestampUs } := by
        simp only [tryApplyDelta, hnext]
      rw [List.foldlM_cons, hstep]
      exact ih hrest

end L2Book

/-- **A snapshot is the fold of its levels, but for zeroed prices.**  Where no running
total overflows both paths are taken.  The fold keeps at each price the size given last,
and no level where that is zero.  The snapshot builds the same levels and totals exactly
when no price that is listed with a size is zeroed later. -/
theorem snapshot_eq_fold_iff (book : L2Book) (bids asks : List (FixedPrice × FixedSize))
    (sequence timestampUs : Nat)
    (hbids : ∀ done, done <+: bids → runningTotal done ≤ u64Max)
    (hasks : ∀ done, done <+: asks → runningTotal done ≤ u64Max) :
    ∃ taken folded, book.tryApplySnapshot bids asks sequence timestampUs = .ok taken ∧
      (L2Book.new book.assetId).applyLevels bids asks sequence timestampUs = .ok folded ∧
      (∀ price : FixedPrice, folded.bids[price]? = keptLevel (lastGiven bids price) ∧
        folded.asks[price]? = keptLevel (lastGiven asks price)) ∧
      (taken.sides = folded.sides ↔ ZerosStay bids ∧ ZerosStay asks) := by
  obtain ⟨takenBids, foldedBids, htakenBids, hfoldBids, hlookBids, hiffBids⟩ :=
    side_eq_fold_iff (fun a b => compare b a) bids hbids
  obtain ⟨takenAsks, foldedAsks, htakenAsks, hfoldAsks, hlookAsks, hiffAsks⟩ :=
    side_eq_fold_iff compare asks hasks
  obtain ⟨mid, hmid, hmidSides⟩ :
      ∃ mid, bids.foldlM (fun book l => book.tryApplyDelta .bid l.1 l.2 sequence timestampUs)
          (L2Book.new book.assetId) = Except.ok mid ∧ mid.sides = (foldedBids, (∅, 0)) :=
    L2Book.applyBids_of_deltaLevels hfoldBids
  simp only [L2Book.sides, Prod.mk.injEq] at hmidSides
  obtain ⟨hmidBids, hmidAsks, hmidTotal⟩ := hmidSides
  rw [← hmidAsks, ← hmidTotal] at hfoldAsks
  obtain ⟨folded, hfolded, hsides⟩ :
      ∃ folded, asks.foldlM (fun book l => book.tryApplyDelta .ask l.1 l.2 sequence timestampUs)
          mid = Except.ok folded ∧ folded.sides = ((mid.bids, mid.totalBidRaw), foldedAsks) :=
    L2Book.applyAsks_of_deltaLevels hfoldAsks
  have hboth : folded.sides = (foldedBids, foldedAsks) := by
    rw [hsides, hmidBids]
  refine ⟨_, folded, L2Book.tryApplySnapshot_eq_ok_iff.mpr
    ⟨takenBids, takenAsks, htakenBids, htakenAsks, rfl⟩, ?_, ?_, ?_⟩
  · rw [L2Book.applyLevels, hmid]
    exact hfolded
  · intro price
    have hbidLevels := congrArg (fun sides => sides.1.1) hboth
    have haskLevels := congrArg (fun sides => sides.2.1) hboth
    simp only [L2Book.sides] at hbidLevels haskLevels
    rw [hbidLevels, haskLevels]
    exact ⟨hlookBids price, hlookAsks price⟩
  · rw [hboth, ← hiffBids, ← hiffAsks]
    exact Prod.mk_inj

/-- A side that a snapshot takes had room for all its running totals. -/
theorem runningTotal_le_of_taken {levels : List (FixedPrice × FixedSize)}
    (h : (snapshotSide levels : Option (AskLevels × Nat)).isSome = true) :
    ∀ done, done <+: levels → runningTotal done ≤ u64Max := by
  rcases snapshotSide_cases compare levels with ⟨side, -, -, -, hfits⟩ | ⟨hnone, -⟩
  · exact hfits
  · rw [hnone] at h
    cases h

/-! A bid and then a zero size, at one price or at two. -/
namespace ZeroedPrice

/-- Two bids, the second one of size zero. -/
def bids (zeroed : Fin 101) : List (FixedPrice × FixedSize) :=
  [(Sample.price 50, Sample.size 1), (Sample.price zeroed, Sample.size 0)]

theorem fits (zeroed : Fin 101) : ∀ done, done <+: bids zeroed → runningTotal done ≤ u64Max := by
  apply runningTotal_le_of_taken
  revert zeroed
  decide +kernel

theorem nothing_fits : ∀ done, done <+: [] → runningTotal done ≤ u64Max := by
  apply runningTotal_le_of_taken
  rfl

end ZeroedPrice

theorem snapshot_eq_fold_iff_two_prices :
    ∃ taken folded,
      (L2Book.new "tok1").tryApplySnapshot (ZeroedPrice.bids 49) [] 0 0 = .ok taken ∧
      (L2Book.new "tok1").applyLevels (ZeroedPrice.bids 49) [] 0 0 = .ok folded ∧
      (∀ price : FixedPrice,
        folded.bids[price]? = keptLevel (lastGiven (ZeroedPrice.bids 49) price) ∧
        folded.asks[price]? = keptLevel (lastGiven [] price)) ∧
      (taken.sides = folded.sides ↔ ZerosStay (ZeroedPrice.bids 49) ∧ ZerosStay []) :=
  snapshot_eq_fold_iff (L2Book.new "tok1") (ZeroedPrice.bids 49) [] 0 0 (ZeroedPrice.fits 49)
    ZeroedPrice.nothing_fits

/-- The snapshot keeps the level that its own list zeroes. -/
theorem zeroed_price_stays :
    ¬ ∀ (book : L2Book) (bids asks : List (FixedPrice × FixedSize)) (sequence timestampUs : Nat),
      (∀ done, done <+: bids → runningTotal done ≤ u64Max) →
      (∀ done, done <+: asks → runningTotal done ≤ u64Max) →
      (book.tryApplySnapshot bids asks sequence timestampUs).toOption.map L2Book.sides =
        ((L2Book.new book.assetId).applyLevels bids asks sequence timestampUs).toOption.map
          L2Book.sides := by
  intro hall
  have hsame := hall (L2Book.new "tok1") (ZeroedPrice.bids 50) [] 0 0 (ZeroedPrice.fits 50)
    ZeroedPrice.nothing_fits
  have hdepth := congrArg (Option.map fun sides => sides.1.1.size) hsame
  revert hdepth
  decide +kernel

end PolyBook
